import OpenSan.Foundation.Lua
import OpenSan.Foundation.Number
import OpenSan.Foundation.Pattern

/-!
# Stripping

`common.strip` cuts off the spaces around a text by one pattern that needs a
character that is no space.
-/

namespace OpenSan.Common

open OpenSan.Foundation

def notSpace (c : Char) : Bool := !Number.isSpace c

/-- `^%s*(%S?.*%S)%s*$` -/
def stripRegexp : List Pattern.Item :=
  .star Number.isSpace :: (Pattern.capture [.maybe notSpace, .star Pattern.any, .one notSpace] ++
    [.star Number.isSpace, .finish])

/-- `common.strip`; a text that does not match gives `nil`. -/
def strip : Option String → Except Error (Option String)
  | none => .error (.assertion "non-string argument")
  | some str => .ok (((Pattern.anchored stripRegexp str.toList).bind (·.head?)).map
      String.ofList)

def trimmed (str : String) : String := String.ofList (Number.strip str.toList)

def Blank (str : String) : Prop := ∀ c ∈ str.toList, Number.isSpace c = true

/-- The text is stripped as it should be, also when it is stripped again. -/
def Stripped (str : String) : Prop :=
  strip (some str) = .ok (some (trimmed str)) ∧
    (strip (some str) >>= strip) = strip (some str)

section Pattern

open Pattern

variable (closed : List (List Char)) (taken : List Char)

private theorem any_none {text : List Char}
    (h : ∀ c ∈ text, Number.isSpace c = true) :
    matchHere [.star any, .one notSpace, .closeCapture, .star Number.isSpace, .finish]
      ⟨closed, some taken⟩ text = none := by
  apply expand_eq_none
  intro more rest hsplit
  cases rest with
  | nil => rfl
  | cons c rest =>
      have hc : Number.isSpace c = true := h c (by simp [hsplit])
      simp [matchHere, notSpace, hc]

private theorem any_last (pre : List Char) {trail : List Char} {last : Char}
    (hlast : Number.isSpace last = false)
    (htrail : ∀ c ∈ trail, Number.isSpace c = true) :
    matchHere [.star any, .one notSpace, .closeCapture, .star Number.isSpace, .finish]
      ⟨closed, some taken⟩ (pre ++ last :: trail) =
        some (closed ++ [taken.reverse ++ (pre ++ [last])]) := by
  apply expand_eq_some
  · exact fun _ _ => rfl
  · have hend : expand Number.isSpace (matchHere [.finish])
        ⟨closed ++ [taken.reverse ++ (pre ++ [last])], none⟩ (trail ++ []) =
          some (closed ++ [taken.reverse ++ (pre ++ [last])]) :=
      expand_of_stop htrail (by simp) (by simp [matchHere])
    rw [List.append_nil] at hend
    simpa [matchHere, notSpace, hlast, Captures.take, Captures.close] using hend
  · intro more tail hmore hsplit
    cases more with
    | nil => exact absurd rfl hmore
    | cons c more =>
        have htail := (List.cons.inj hsplit).2
        cases tail with
        | nil => rfl
        | cons d tail =>
            have hd : Number.isSpace d = true := htrail d (by simp [htail])
            simp [matchHere, notSpace, hd]

private theorem captured_eq (captures : Captures) (text : List Char) :
    matchHere (capture [.maybe notSpace, .star any, .one notSpace] ++
        [.star Number.isSpace, .finish]) captures text =
      matchHere [.maybe notSpace, .star any, .one notSpace, .closeCapture,
        .star Number.isSpace, .finish] ⟨captures.closed, some []⟩ text := rfl

private theorem captured_none {text : List Char}
    (h : ∀ c ∈ text, Number.isSpace c = true) :
    matchHere [.maybe notSpace, .star any, .one notSpace, .closeCapture,
      .star Number.isSpace, .finish] ⟨closed, some []⟩ text = none := by
  cases text with
  | nil => exact any_none closed [] h
  | cons c text =>
      have hc : notSpace c = false := by simp [notSpace, h c (by simp)]
      have hrest := any_none closed [] h
      simpa [matchHere, hc] using hrest

theorem strip_blank {str : String} (h : Blank str) : strip (some str) = .ok none := by
  have hnone : anchored stripRegexp str.toList = none := by
    apply expand_eq_none
    intro lead rest hsplit
    rw [captured_eq]
    exact captured_none _ fun c hc => h c (by simp [hsplit, hc])
  simp [strip, hnone]

structure Parts (text lead pre : List Char) (last : Char) (trail : List Char) : Prop where
  split : text = lead ++ (pre ++ last :: trail)
  lead : ∀ c ∈ lead, Number.isSpace c = true
  first : ∀ c ∈ (pre ++ last :: trail).head?, Number.isSpace c = false
  last : Number.isSpace last = false
  trail : ∀ c ∈ trail, Number.isSpace c = true

section Parts

variable {text lead pre trail : List Char} {last : Char}

private theorem captured_some (h : Parts text lead pre last trail) :
    matchHere [.maybe notSpace, .star any, .one notSpace, .closeCapture,
      .star Number.isSpace, .finish] ⟨[], some []⟩ (pre ++ last :: trail) =
        some [pre ++ [last]] := by
  cases pre with
  | nil =>
      have hrun := any_last [] [] [] h.last h.trail
      have hlonger := any_none [] [last] h.trail
      simp only [List.nil_append] at hrun ⊢
      simp [matchHere, notSpace, h.last, Captures.take] at hrun hlonger ⊢
      simp [hlonger, hrun]
  | cons c pre =>
      have hc : Number.isSpace c = false := h.first c (by simp)
      have hrun := any_last [] [c] pre h.last h.trail
      simp [matchHere, notSpace, hc, Captures.take] at hrun ⊢
      simp [hrun]

theorem strip_parts {str : String} (h : Parts str.toList lead pre last trail) :
    strip (some str) = .ok (some (String.ofList (pre ++ [last]))) := by
  have hmatch : anchored stripRegexp str.toList = some [pre ++ [last]] := by
    rw [h.split]
    apply expand_of_stop h.lead h.first
    rw [captured_eq, Captures.takeAll_outside]
    exact captured_some h
  simp [strip, hmatch]

private theorem dropWhile_of_head {p : Char → Bool} (h : ∀ c ∈ text.head?, p c = false) :
    text.dropWhile p = text := by
  cases text with
  | nil => rfl
  | cons c text => simp [h c (by simp)]

theorem Parts.strip_eq (h : Parts text lead pre last trail) :
    Number.strip text = pre ++ [last] := by
  have hlead : text.dropWhile Number.isSpace = pre ++ last :: trail := by
    rw [h.split, List.dropWhile_append_of_pos h.lead, dropWhile_of_head h.first]
  have htrail : ∀ c ∈ trail.reverse, Number.isSpace c = true := by
    simpa using h.trail
  have hreverse : (pre ++ last :: trail).reverse = trail.reverse ++ last :: pre.reverse := by
    simp
  rw [Number.strip, hlead, hreverse, List.dropWhile_append_of_pos htrail,
    dropWhile_of_head (by simpa using h.last)]
  simp

private theorem exists_first (h : ∃ c ∈ text, Number.isSpace c = false) :
    ∃ lead first rest, text = lead ++ first :: rest ∧
      (∀ c ∈ lead, Number.isSpace c = true) ∧ Number.isSpace first = false := by
  obtain ⟨c, hc, hother⟩ := h
  induction text with
  | nil => cases hc
  | cons d text ih =>
      cases hd : Number.isSpace d with
      | false => exact ⟨[], d, text, rfl, by simp, hd⟩
      | true =>
          have hrest : c ∈ text := by
            rcases List.mem_cons.mp hc with rfl | hin
            · rw [hother] at hd
              cases hd
            · exact hin
          obtain ⟨lead, first, rest, rfl, hlead, hfirst⟩ := ih hrest
          exact ⟨d :: lead, first, rest, rfl, by simpa [hd] using hlead, hfirst⟩

theorem exists_parts (h : ∃ c ∈ text, Number.isSpace c = false) :
    ∃ lead pre last trail, Parts text lead pre last trail := by
  obtain ⟨lead, first, rest, rfl, hlead, hfirst⟩ := exists_first h
  obtain ⟨trail, last, pre, hreverse, htrail, hlast⟩ :=
    exists_first ⟨first, List.mem_reverse.mpr List.mem_cons_self, hfirst⟩
  have hsplit : first :: rest = pre.reverse ++ last :: trail.reverse := by
    have hback := congrArg List.reverse hreverse
    simpa using hback
  refine ⟨lead, pre.reverse, last, trail.reverse, by rw [hsplit], hlead, ?_, hlast,
    by simpa using htrail⟩
  rw [← hsplit]
  simpa using hfirst

theorem Parts.again (h : Parts text lead pre last trail) :
    Parts (pre ++ [last]) [] pre last [] where
  split := rfl
  lead := by simp
  first := by
    have hfirst := h.first
    cases pre with
    | nil => simpa using h.last
    | cons c pre => simpa using hfirst
  last := h.last
  trail := by simp

end Parts

end Pattern

theorem stripped_iff (str : String) : Stripped str ↔ ¬ Blank str := by
  constructor
  · intro h hblank
    have hstrip := h.1
    rw [strip_blank hblank] at hstrip
    cases hstrip
  · intro h
    have hother : ∃ c ∈ str.toList, Number.isSpace c = false := by simpa [Blank] using h
    obtain ⟨lead, pre, last, trail, hparts⟩ := exists_parts hother
    have htrimmed : trimmed str = String.ofList (pre ++ [last]) := by
      rw [trimmed, hparts.strip_eq]
    have hstrip := strip_parts hparts
    have hagain : strip (some (trimmed str)) = .ok (some (trimmed str)) := by
      rw [htrimmed]
      exact strip_parts (by simpa using hparts.again)
    rw [← htrimmed] at hstrip
    exact ⟨hstrip, by rw [hstrip, ok_bind, hagain]⟩

theorem strip_twice_iff {str : String} {result : Option String} :
    (strip (some str) >>= strip) = .ok result ↔ ¬ Blank str ∧ result = some (trimmed str) := by
  by_cases h : Blank str
  · rw [strip_blank h, ok_bind]
    simp [strip, h]
  · obtain ⟨hstrip, hagain⟩ := (stripped_iff str).mpr h
    rw [hagain, hstrip]
    simp [h, eq_comm]

end OpenSan.Common
