import Mathlib.Data.List.Basic

/-!
# Outlines of line-structured text

A configuration file is read line by line: the first word of a line is a
directive, a line that ends with an opening brace opens a block and a closing
brace on its own closes one.  The outline of a text keeps just this.  Texts
have the same outline in every context if they are put together from parts
that do.
-/

namespace OpenSan.Foundation

def lines : List Char → List (List Char)
  | [] => [[]]
  | c :: rest =>
      if c = '\n' then [] :: lines rest else (lines rest).modifyHead (c :: ·)

structure Directive where
  word : List Char
  opens : Bool
  deriving DecidableEq, Repr

def blank (c : Char) : Bool := c == ' ' || c == '\t'

def directive (line : List Char) : Directive where
  word := (line.dropWhile blank).takeWhile fun c => !blank c
  opens := line.getLast? = some '\x7b'

def outline (text : String) : List Directive := (lines text.toList).map directive

theorem lines_ne_nil (text : List Char) : lines text ≠ [] := by
  induction text with
  | nil => simp [lines]
  | cons c text ih =>
      rw [lines]
      split
      · simp
      · simpa [List.modifyHead_eq_nil_iff] using ih

theorem lines_append_newline (first rest : List Char) :
    lines (first ++ '\n' :: rest) = lines first ++ lines rest := by
  induction first with
  | nil => simp [lines]
  | cons c first ih =>
      rw [List.cons_append, lines, ih, lines]
      split
      · rfl
      · cases hlines : lines first with
        | nil => exact absurd hlines (lines_ne_nil first)
        | cons line later => rfl

theorem lines_of_notMem {line : List Char} (h : '\n' ∉ line) : lines line = [line] := by
  induction line with
  | nil => rfl
  | cons c line ih =>
      rw [List.mem_cons, not_or] at h
      rw [lines, if_neg (Ne.symm h.1), ih h.2]
      rfl

/-- In front of any text, `text` contributes the directives `directives`. -/
def HasOutline (text : String) (directives : List Directive) : Prop :=
  ∀ rest : String, outline (text ++ rest) = directives ++ outline rest

theorem HasOutline.append {first second : String} {directives directives' : List Directive}
    (h : HasOutline first directives) (h' : HasOutline second directives') :
    HasOutline (first ++ second) (directives ++ directives') := by
  intro rest
  rw [String.append_assoc, h, h', List.append_assoc]

theorem hasOutline_line (line : String) :
    HasOutline (line ++ "\n") ((lines line.toList).map directive) := by
  intro rest
  have htext : (line ++ "\n" ++ rest).toList = line.toList ++ '\n' :: rest.toList := by
    simp
  rw [outline, htext, lines_append_newline, List.map_append, outline]

theorem getLast?_append_newline {first second : String}
    (h : second.toList.getLast? = some '\n') :
    (first ++ second).toList.getLast? = some '\n' := by
  rw [String.toList_append, List.getLast?_append, h]
  rfl

def SameOutline (first second : String) : Prop :=
  ∃ directives, HasOutline first directives ∧ HasOutline second directives

namespace SameOutline

theorem empty : SameOutline "" "" :=
  ⟨[], fun rest => by simp, fun rest => by simp⟩

theorem refl {text : String} (h : text.toList.getLast? = some '\n') :
    SameOutline text text := by
  obtain ⟨start, hstart⟩ := List.getLast?_eq_some_iff.mp h
  have htext : text = String.ofList start ++ "\n" := by
    apply String.toList_injective
    simp [hstart]
  rw [htext]
  exact ⟨_, hasOutline_line _, hasOutline_line _⟩

theorem append {first second first' second' : String} (h : SameOutline first second)
    (h' : SameOutline first' second') : SameOutline (first ++ first') (second ++ second') := by
  obtain ⟨directives, hfirst, hsecond⟩ := h
  obtain ⟨directives', hfirst', hsecond'⟩ := h'
  exact ⟨_, hfirst.append hfirst', hsecond.append hsecond'⟩

theorem join {first second : List String} (h : List.Forall₂ SameOutline first second) :
    SameOutline (String.join first) (String.join second) := by
  induction h with
  | nil => exact empty
  | cons hhead _ ih =>
      rw [String.join_cons, String.join_cons]
      exact hhead.append ih

theorem outline_eq {first second : String} (h : SameOutline first second) :
    outline first = outline second := by
  obtain ⟨directives, hfirst, hsecond⟩ := h
  have hone := hfirst ""
  have htwo := hsecond ""
  rw [String.append_empty] at hone htwo
  rw [hone, htwo]

end SameOutline

end OpenSan.Foundation
