import Mathlib.Data.List.Basic

/-!
# Lines of columns

`split_by` of `common.lua` for a separator of one character: the words of a line,
which are the longest runs of other characters.
-/

namespace OpenSan.Foundation

def splitBy (separator : Char) (text : List Char) : List (List Char) :=
  (text.splitOnP (· == separator)).filter (· ≠ [])

def IsWord (separator : Char) (text : List Char) : Prop :=
  text ≠ [] ∧ separator ∉ text

instance (separator : Char) (text : List Char) : Decidable (IsWord separator text) :=
  inferInstanceAs (Decidable (_ ∧ _))

/-- A line that shows the words in columns, with any number of separators before,
after and, but for one that is needed, between them. -/
inductive Columns (separator : Char) : List (List Char) → List Char → Prop where
  | nil : Columns separator [] []
  | pad {words : List (List Char)} {line : List Char} :
      Columns separator words line → Columns separator words (separator :: line)
  | last (word : List Char) : Columns separator [word] word
  | word (word : List Char) {words : List (List Char)} {line : List Char} :
      Columns separator words line →
      Columns separator (word :: words) (word ++ separator :: line)

variable {separator : Char}

theorem splitBy_append (text line : List Char) :
    splitBy separator (text ++ separator :: line) =
      splitBy separator text ++ splitBy separator line := by
  unfold splitBy
  rw [List.splitOnP_append_cons text line (by simp), List.filter_append]

theorem splitBy_word {word : List Char} (h : IsWord separator word) :
    splitBy separator word = [word] := by
  have hother : ∀ c ∈ word, (c == separator) = false := by
    intro c hc
    have hne : c ≠ separator := fun hsame => h.2 (hsame ▸ hc)
    simpa using hne
  simp [splitBy, List.splitOnP_eq_singleton hother, h.1]

theorem splitBy_columns {words : List (List Char)} {line : List Char}
    (h : Columns separator words line) (hwords : ∀ word ∈ words, IsWord separator word) :
    splitBy separator line = words := by
  induction h with
  | nil => simp [splitBy]
  | @pad words line _ ih =>
      have hpad : splitBy separator ([] ++ separator :: line) =
          splitBy separator [] ++ splitBy separator line := splitBy_append [] line
      simpa [splitBy] using hpad.trans (congrArg _ (ih hwords))
  | last word => exact splitBy_word (hwords word (by simp))
  | word word _ ih =>
      have hrest := ih fun other hother => hwords other (by simp [hother])
      rw [splitBy_append, splitBy_word (hwords word (by simp)), hrest, List.singleton_append]

end OpenSan.Foundation
