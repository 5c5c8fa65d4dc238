import Mathlib.Data.List.Basic
import Mathlib.Data.List.Forall2

/-!
# Lua patterns

The pattern matcher of Lua's string library for the items the scripts use:
single characters and classes, greedy repetition, an optional character,
captures and the end anchor.  Repetition tries the longest run first and gives
characters back one at a time, as `max_expand` of the library does.  A string
is a list of characters, each standing for one byte.
-/

namespace OpenSan.Foundation.Pattern

inductive Item where
  | one (accepts : Char → Bool)
  | star (accepts : Char → Bool)
  | maybe (accepts : Char → Bool)
  | openCapture
  | closeCapture
  | finish

structure Captures where
  closed : List (List Char) := []
  current : Option (List Char) := none
  deriving DecidableEq, Repr

def Captures.take (captures : Captures) (c : Char) : Captures :=
  { captures with current := captures.current.map (c :: ·) }

def Captures.open (captures : Captures) : Captures :=
  { captures with current := some [] }

def Captures.close (captures : Captures) : Captures :=
  ⟨captures.closed ++ [(captures.current.getD []).reverse], none⟩

/-- Take the longest run of accepted characters after which `next` succeeds. -/
def expand {α : Type} (accepts : Char → Bool)
    (next : Captures → List Char → Option α) :
    Captures → List Char → Option α
  | captures, [] => next captures []
  | captures, c :: rest =>
      if accepts c then
        (expand accepts next (captures.take c) rest).or
          (next captures (c :: rest))
      else next captures (c :: rest)

/-- Match at the start of the subject; the result lists the captures. -/
def matchHere : List Item → Captures → List Char → Option (List (List Char))
  | [], captures, _ => some captures.closed
  | .one _ :: _, _, [] => none
  | .one accepts :: items, captures, c :: rest =>
      if accepts c then matchHere items (captures.take c) rest else none
  | .star accepts :: items, captures, subject =>
      expand accepts (matchHere items) captures subject
  | .maybe _ :: items, captures, [] => matchHere items captures []
  | .maybe accepts :: items, captures, c :: rest =>
      if accepts c then
        (matchHere items (captures.take c) rest).or
          (matchHere items captures (c :: rest))
      else matchHere items captures (c :: rest)
  | .openCapture :: items, captures, subject =>
      matchHere items captures.open subject
  | .closeCapture :: items, captures, subject =>
      matchHere items captures.close subject
  | .finish :: items, captures, subject =>
      if subject = [] then matchHere items captures subject else none

def anchored (items : List Item) (subject : List Char) :
    Option (List (List Char)) :=
  matchHere items {} subject

/-- A pattern without `^`: the first position of the subject that matches. -/
def search (items : List Item) : List Char → Option (List (List Char))
  | [] => matchHere items {} []
  | c :: rest => (matchHere items {} (c :: rest)).or (search items rest)

def literal (text : String) : List Item :=
  text.toList.map fun c => .one (· == c)

def plus (accepts : Char → Bool) : List Item := [.one accepts, .star accepts]

def capture (items : List Item) : List Item :=
  .openCapture :: items ++ [.closeCapture]

def any : Char → Bool := fun _ => true

def digit (c : Char) : Bool := '0' ≤ c && c ≤ '9'

def alphanumeric (c : Char) : Bool :=
  digit c || ('a' ≤ c && c ≤ 'z') || ('A' ≤ c && c ≤ 'Z')

theorem digit_eq_isDigit (c : Char) : digit c = c.isDigit := by
  simp [digit, Char.isDigit, Char.le_def]

theorem isDigit_toString {n : Nat} {c : Char} (hc : c ∈ (toString n).toList) :
    c.isDigit = true := by
  rw [Nat.toString_eq_ofList_toDigits, String.toList_ofList] at hc
  exact Nat.isDigit_of_mem_toDigits (by decide) (by decide) hc

theorem digit_toString {n : Nat} {c : Char} (hc : c ∈ (toString n).toList) :
    digit c = true := by
  rw [digit_eq_isDigit]
  exact isDigit_toString hc

/-! ## Reading a match off its decomposition -/

def Captures.takeAll (captures : Captures) (text : List Char) : Captures :=
  text.foldl Captures.take captures

@[simp] theorem Captures.takeAll_nil (captures : Captures) :
    captures.takeAll [] = captures := rfl

@[simp] theorem Captures.takeAll_cons (captures : Captures) (c : Char)
    (text : List Char) :
    captures.takeAll (c :: text) = (captures.take c).takeAll text := rfl

@[simp] theorem Captures.takeAll_outside (closed : List (List Char))
    (text : List Char) :
    (Captures.mk closed none).takeAll text = ⟨closed, none⟩ := by
  induction text with
  | nil => rfl
  | cons c text ih => exact ih

@[simp] theorem Captures.takeAll_inside (closed : List (List Char))
    (taken text : List Char) :
    (Captures.mk closed (some taken)).takeAll text =
      ⟨closed, some (text.reverse ++ taken)⟩ := by
  induction text generalizing taken with
  | nil => rfl
  | cons c text ih =>
      rw [Captures.takeAll_cons]
      change (Captures.mk closed (some (c :: taken))).takeAll text = _
      rw [ih]
      simp

@[simp] theorem matchHere_literal (text : String) (items : List Item)
    (captures : Captures) (rest : List Char) :
    matchHere (literal text ++ items) captures (text.toList ++ rest) =
      matchHere items (captures.takeAll text.toList) rest := by
  unfold literal
  induction text.toList generalizing captures with
  | nil => rfl
  | cons c text ih => simpa [matchHere] using ih (captures.take c)

section Expand

variable {α : Type} {accepts : Char → Bool}
  {next : Captures → List Char → Option α}

theorem expand_eq_none {captures : Captures} {subject : List Char}
    (h : ∀ taken rest, subject = taken ++ rest →
      next (captures.takeAll taken) rest = none) :
    expand accepts next captures subject = none := by
  induction subject generalizing captures with
  | nil => exact h [] [] rfl
  | cons c subject ih =>
      have hhere := h [] (c :: subject) rfl
      have hlater : expand accepts next (captures.take c) subject = none := by
        apply ih
        intro taken rest hsplit
        exact h (c :: taken) rest (by simp [hsplit])
      by_cases hc : accepts c = true <;>
        simp_all [expand]

theorem expand_eq_some {captures : Captures} {taken rest : List Char}
    {result : α} (haccepts : ∀ c ∈ taken, accepts c = true)
    (hnext : next (captures.takeAll taken) rest = some result)
    (hlonger : ∀ more tail, more ≠ [] → rest = more ++ tail →
      next (captures.takeAll (taken ++ more)) tail = none) :
    expand accepts next captures (taken ++ rest) = some result := by
  induction taken generalizing captures with
  | cons c taken ih =>
      have hrun : expand accepts next (captures.take c) (taken ++ rest) =
          some result := by
        apply ih
        · intro d hd
          exact haccepts d (by simp [hd])
        · simpa using hnext
        · intro more tail hmore hsplit
          simpa using hlonger more tail hmore hsplit
      simp [expand, haccepts c (by simp), hrun]
  | nil =>
      cases rest with
      | nil => simpa [expand] using hnext
      | cons c rest =>
          have hnone : expand accepts next (captures.take c) rest = none := by
            apply expand_eq_none
            intro more tail hsplit
            have := hlonger (c :: more) tail (by simp) (by simp [hsplit])
            simpa using this
          simp only [List.nil_append, Captures.takeAll_nil] at hnext ⊢
          by_cases hc : accepts c = true <;> simp [expand, hc, hnone, hnext]

theorem expand_finish_isSome (captures : Captures) (subject : List Char) :
    (expand accepts (matchHere [.finish]) captures subject).isSome ↔
      ∀ c ∈ subject, accepts c = true := by
  induction subject generalizing captures with
  | nil => simp [expand, matchHere]
  | cons c subject ih =>
      have hhere : matchHere [.finish] captures (c :: subject) = none := by
        simp [matchHere]
      by_cases hc : accepts c = true
      · simp [expand, hc, hhere, ih (captures.take c)]
      · simp [expand, hc, hhere]

/-- A run that succeeds takes accepted characters and leaves the rest to `next`. -/
theorem accepted_of_expand {captures : Captures} {subject : List Char} {result : α}
    (h : expand accepts next captures subject = some result) :
    ∃ taken rest, subject = taken ++ rest ∧ (∀ c ∈ taken, accepts c = true) ∧
      next (captures.takeAll taken) rest = some result := by
  induction subject generalizing captures with
  | nil => exact ⟨[], [], rfl, by simp, h⟩
  | cons c subject ih =>
      have hhere : next captures (c :: subject) = some result →
          ∃ taken rest, c :: subject = taken ++ rest ∧ (∀ c ∈ taken, accepts c = true) ∧
            next (captures.takeAll taken) rest = some result :=
        fun hnext => ⟨[], c :: subject, rfl, by simp, hnext⟩
      simp only [expand] at h
      split at h
      · rename_i hc
        rcases Option.or_eq_some_iff.mp h with hlater | ⟨_, hnext⟩
        · obtain ⟨taken, rest, rfl, htaken, hrest⟩ := ih hlater
          exact ⟨c :: taken, rest, rfl, by simpa [hc] using htaken, hrest⟩
        · exact hhere hnext
      · exact hhere h

theorem exists_of_expand {captures : Captures} {subject : List Char} {result : α}
    (h : expand accepts next captures subject = some result) :
    ∃ taken rest, subject = taken ++ rest ∧
      next (captures.takeAll taken) rest = some result := by
  obtain ⟨taken, rest, hsubject, _, hrest⟩ := accepted_of_expand h
  exact ⟨taken, rest, hsubject, hrest⟩

/-- The run goes as far as it can when `next` succeeds there. -/
theorem expand_of_stop {captures : Captures} {taken rest : List Char} {result : α}
    (haccepts : ∀ c ∈ taken, accepts c = true) (hstop : ∀ c ∈ rest.head?, accepts c = false)
    (hnext : next (captures.takeAll taken) rest = some result) :
    expand accepts next captures (taken ++ rest) = some result := by
  induction taken generalizing captures with
  | nil =>
      cases rest with
      | nil => exact hnext
      | cons c rest =>
          have hc : accepts c = false := hstop c (by simp)
          simpa [expand, hc] using hnext
  | cons c taken ih =>
      have hrun := @ih (captures.take c) (fun d hd => haccepts d (by simp [hd])) hnext
      simp [expand, haccepts c (by simp), hrun]

theorem expand_isSome_congr (hnext : ∀ captures captures' subject,
      (next captures subject).isSome = (next captures' subject).isSome)
    (captures captures' : Captures) (subject : List Char) :
    (expand accepts next captures subject).isSome =
      (expand accepts next captures' subject).isSome := by
  induction subject generalizing captures captures' with
  | nil => exact hnext captures captures' []
  | cons c subject ih =>
      simp only [expand]
      split
      · rw [Option.isSome_or, Option.isSome_or, ih, hnext captures captures']
      · exact hnext captures captures' (c :: subject)

end Expand

theorem matchHere_isSome_congr (items : List Item) (captures captures' : Captures)
    (subject : List Char) : (matchHere items captures subject).isSome =
      (matchHere items captures' subject).isSome := by
  induction items generalizing captures captures' subject with
  | nil => rfl
  | cons item items ih =>
      cases item with
      | one accepts =>
          cases subject with
          | nil => rfl
          | cons c rest =>
              simp only [matchHere]
              split
              · exact ih _ _ rest
              · rfl
      | star accepts => exact expand_isSome_congr ih captures captures' subject
      | maybe accepts =>
          cases subject with
          | nil => exact ih _ _ []
          | cons c rest =>
              simp only [matchHere]
              split
              · rw [Option.isSome_or, Option.isSome_or, ih _ (captures'.take c) rest,
                  ih captures captures' (c :: rest)]
              · exact ih _ _ (c :: rest)
      | openCapture => exact ih _ _ subject
      | closeCapture => exact ih _ _ subject
      | finish =>
          simp only [matchHere]
          split
          · exact ih _ _ subject
          · rfl

theorem expand_isSome_of_next {α : Type} {accepts : Char → Bool}
    {next : Captures → List Char → Option α} {captures : Captures} {taken rest : List Char}
    (haccepts : ∀ c ∈ taken, accepts c = true)
    (hnext : (next (captures.takeAll taken) rest).isSome = true) :
    (expand accepts next captures (taken ++ rest)).isSome = true := by
  induction taken generalizing captures with
  | nil =>
      cases rest with
      | nil => exact hnext
      | cons c rest =>
          have hhere : (next captures (c :: rest)).isSome = true := hnext
          by_cases hc : accepts c = true <;> simp [expand, hc, hhere, Option.isSome_or]
  | cons c taken ih =>
      have hrun := @ih (captures.take c) (fun d hd => haccepts d (by simp [hd])) hnext
      simp [expand, haccepts c (by simp), hrun, Option.isSome_or]

theorem matchHere_any_isSome {items : List Item} {captures captures' : Captures}
    {rest : List Char} (h : (matchHere items captures' rest).isSome = true)
    (taken : List Char) :
    (matchHere (.star any :: items) captures (taken ++ rest)).isSome = true := by
  apply expand_isSome_of_next
  · exact fun _ _ => rfl
  · rw [matchHere_isSome_congr items _ captures']
    exact h

@[simp] theorem Captures.takeAll_closed (captures : Captures) (text : List Char) :
    (captures.takeAll text).closed = captures.closed := by
  induction text generalizing captures with
  | nil => rfl
  | cons c text ih => exact ih (captures.take c)

theorem closed_prefix_of_matchHere {items : List Item} {captures : Captures}
    {subject : List Char} {result : List (List Char)}
    (h : matchHere items captures subject = some result) :
    captures.closed <+: result := by
  induction items generalizing captures subject with
  | nil =>
      obtain rfl := Option.some.inj h
      exact List.prefix_refl _
  | cons item items ih =>
      cases item with
      | one accepts =>
          cases subject with
          | nil => cases h
          | cons c rest =>
              simp only [matchHere] at h
              split at h
              · have hclosed := ih h
                exact hclosed
              · cases h
      | star accepts =>
          obtain ⟨taken, rest, _, hrest⟩ := exists_of_expand h
          simpa using ih hrest
      | maybe accepts =>
          cases subject with
          | nil => exact ih h
          | cons c rest =>
              simp only [matchHere] at h
              split at h
              · rcases Option.or_eq_some_iff.mp h with htaken | ⟨_, hleft⟩
                · have hclosed := ih htaken
                  exact hclosed
                · exact ih hleft
              · exact ih h
      | openCapture =>
          have hclosed := ih (show matchHere items captures.open subject = some result from h)
          exact hclosed
      | closeCapture => exact (List.prefix_append _ _).trans (ih h)
      | finish =>
          simp only [matchHere] at h
          split at h
          · exact ih h
          · cases h

/-! ## Runs that stop at a character of another class -/

section Runs

variable {accepts : Char → Bool} {items : List Item} {captures : Captures}
  {result : List (List Char)}

theorem matchHere_star_of_stop {taken rest : List Char}
    (haccepts : ∀ c ∈ taken, accepts c = true) (hstop : ∀ c ∈ rest.head?, accepts c = false)
    (hnext : matchHere items (captures.takeAll taken) rest = some result) :
    matchHere (.star accepts :: items) captures (taken ++ rest) = some result :=
  expand_of_stop haccepts hstop hnext

theorem matchHere_plus_of_stop {taken rest : List Char} (htaken : taken ≠ [])
    (haccepts : ∀ c ∈ taken, accepts c = true) (hstop : ∀ c ∈ rest.head?, accepts c = false)
    (hnext : matchHere items (captures.takeAll taken) rest = some result) :
    matchHere (plus accepts ++ items) captures (taken ++ rest) = some result := by
  cases taken with
  | nil => exact absurd rfl htaken
  | cons c taken =>
      have hrun : expand accepts (matchHere items) (captures.take c) (taken ++ rest) =
          some result :=
        expand_of_stop (fun d hd => haccepts d (by simp [hd])) hstop hnext
      simpa [plus, matchHere, haccepts c (by simp)] using hrun

theorem matchHere_plus_eq_some {subject : List Char}
    (h : matchHere (plus accepts ++ items) captures subject = some result) :
    ∃ taken rest, subject = taken ++ rest ∧ taken ≠ [] ∧
      (∀ c ∈ taken, accepts c = true) ∧
      matchHere items (captures.takeAll taken) rest = some result := by
  cases subject with
  | nil => cases h
  | cons c subject =>
      simp only [plus, List.cons_append, List.nil_append, matchHere] at h
      split at h
      · rename_i hc
        obtain ⟨taken, rest, rfl, htaken, hrest⟩ := accepted_of_expand h
        exact ⟨c :: taken, rest, rfl, by simp, by simpa [hc] using htaken, hrest⟩
      · cases h

theorem search_skip {before : List Char} (rest : List Char)
    (h : ∀ c ∈ before, ∀ tail, matchHere items {} (c :: tail) = none) :
    search items (before ++ rest) = search items rest := by
  induction before with
  | nil => rfl
  | cons c before ih =>
      rw [List.cons_append, search, h c (by simp), ih fun d hd => h d (by simp [hd])]
      rfl

theorem search_of_matchHere {subject : List Char}
    (h : matchHere items {} subject = some result) : search items subject = some result := by
  cases subject with
  | nil => exact h
  | cons c subject => rw [search, h, Option.some_or]

end Runs

section Greedy

variable {accepts : Char → Bool} {items : List Item} {result : List (List Char)}

theorem anchored_greedy {subject : List Char}
    (h : anchored (capture (plus any) ++ .one accepts :: items) subject = some result) :
    ∃ taken rest, subject = taken ++ rest ∧ rest ≠ [] ∧ result.head? = some taken := by
  cases subject with
  | nil => cases h
  | cons c subject =>
      have hrun : expand any (matchHere (.closeCapture :: .one accepts :: items))
          ⟨[], some [c]⟩ subject = some result := h
      obtain ⟨taken, rest, rfl, hrest⟩ := exists_of_expand hrun
      have hclosed := closed_prefix_of_matchHere (show matchHere (.one accepts :: items)
        (Captures.takeAll ⟨[], some [c]⟩ taken).close rest = some result from hrest)
      refine ⟨c :: taken, rest, rfl, ?_, ?_⟩
      · rintro rfl
        cases hrest
      · simp only [Captures.takeAll_inside, Captures.close, Option.getD_some,
          List.reverse_append, List.reverse_reverse, List.nil_append] at hclosed
        obtain ⟨later, rfl⟩ := hclosed
        simp

/-- A match further on can be extended to the start of the subject. -/
theorem anchored_greedy_cons {c : Char} {subject : List Char}
    (h : (anchored (capture (plus any) ++ items) subject).isSome = true) :
    (anchored (capture (plus any) ++ items) (c :: subject)).isSome = true := by
  cases subject with
  | nil => cases h
  | cons d subject =>
      have hrun : (expand any (matchHere (.closeCapture :: items)) ⟨[], some [d]⟩
        subject).isSome = true := h
      have hlonger : (expand any (matchHere (.closeCapture :: items)) ⟨[], some [d, c]⟩
          subject).isSome = true := by
        rw [expand_isSome_congr (matchHere_isSome_congr (.closeCapture :: items)) _
          ⟨[], some [d]⟩]
        exact hrun
      change (expand any (matchHere (.closeCapture :: items)) ⟨[], some [c]⟩
        (d :: subject)).isSome = true
      simp only [expand, any, if_true, Option.isSome_or, Bool.or_eq_true]
      exact .inl hlonger

theorem search_greedy (subject : List Char) :
    search (capture (plus any) ++ items) subject =
      anchored (capture (plus any) ++ items) subject := by
  induction subject with
  | nil => rfl
  | cons c subject ih =>
      rw [search, ih]
      change Option.or (anchored (capture (plus any) ++ items) (c :: subject)) _ = _
      cases hhere : anchored (capture (plus any) ++ items) (c :: subject) with
      | some captures => rfl
      | none =>
          cases hlater : anchored (capture (plus any) ++ items) subject with
          | none => rfl
          | some captures =>
              have hextended := anchored_greedy_cons (c := c)
                (show (anchored (capture (plus any) ++ items) subject).isSome = true by
                  rw [hlater]
                  rfl)
              rw [hhere] at hextended
              cases hextended

end Greedy

theorem anchored_plus_finish (accepts : Char → Bool) (subject : List Char) :
    (anchored (plus accepts ++ [.finish]) subject).isSome ↔
      subject ≠ [] ∧ ∀ c ∈ subject, accepts c = true := by
  cases subject with
  | nil => simp [anchored, plus, matchHere]
  | cons c subject =>
      by_cases hc : accepts c = true
      · have hmatch : anchored (plus accepts ++ [.finish]) (c :: subject) =
            expand accepts (matchHere [.finish]) (Captures.take {} c) subject := by
          change (if accepts c then _ else none) = _
          rw [if_pos hc]
          rfl
        rw [hmatch, expand_finish_isSome]
        simp [hc]
      · simp [anchored, plus, matchHere, hc]

/-! ## Patterns of single characters -/

def Accepted (classes : List (Char → Bool)) (text : List Char) : Prop :=
  List.Forall₂ (fun accepts c => accepts c = true) classes text

section Classes

variable {classes : List (Char → Bool)}

theorem Accepted.length_eq {text : List Char} (h : Accepted classes text) :
    text.length = classes.length :=
  (List.Forall₂.length_eq h).symm

theorem accepted_append {first second : List (Char → Bool)} {text : List Char} :
    Accepted (first ++ second) text ↔ ∃ before after, text = before ++ after ∧
      Accepted first before ∧ Accepted second after := by
  induction first generalizing text with
  | nil => simp [Accepted]
  | cons accepts first ih =>
      cases text with
      | nil => simp [Accepted]
      | cons c text =>
          simp only [Accepted, List.cons_append, List.forall₂_cons] at ih ⊢
          rw [ih]
          constructor
          · rintro ⟨hc, before, after, rfl, hbefore, hafter⟩
            exact ⟨c :: before, after, rfl, .cons hc hbefore, hafter⟩
          · rintro ⟨before, after, htext, hbefore, hafter⟩
            cases hbefore with
            | cons hc hbefore =>
                obtain ⟨rfl, rfl⟩ := List.cons.inj htext
                exact ⟨hc, _, after, rfl, hbefore, hafter⟩

theorem accepted_cons {accepts : Char → Bool} {text : List Char} :
    Accepted (accepts :: classes) text ↔
      ∃ c rest, text = c :: rest ∧ accepts c = true ∧ Accepted classes rest := by
  unfold Accepted
  rw [List.forall₂_cons_left_iff]
  constructor
  · rintro ⟨c, rest, hc, hrest, rfl⟩
    exact ⟨c, rest, rfl, hc, hrest⟩
  · rintro ⟨c, rest, rfl, hc, hrest⟩
    exact ⟨c, rest, hc, hrest, rfl⟩

theorem accepted_replicate {accepts : Char → Bool} {n : Nat} {text : List Char} :
    Accepted (List.replicate n accepts) text ↔
      text.length = n ∧ ∀ c ∈ text, accepts c = true := by
  induction n generalizing text with
  | zero => simp +contextual [Accepted]
  | succ n ih =>
      rw [List.replicate_succ, accepted_cons]
      cases text with
      | nil => simp
      | cons c text => simp [ih, and_assoc, and_left_comm]

theorem matchHere_classes (items : List Item) {captures : Captures}
    {text rest : List Char} (h : Accepted classes text) :
    matchHere (classes.map .one ++ items) captures (text ++ rest) =
      matchHere items (captures.takeAll text) rest := by
  induction h generalizing captures with
  | nil => rfl
  | cons hc _ ih => simp [matchHere, hc, ih]

theorem matchHere_classes_eq_some {items : List Item} {captures : Captures}
    {subject : List Char} {result : List (List Char)}
    (h : matchHere (classes.map .one ++ items) captures subject = some result) :
    ∃ text rest, subject = text ++ rest ∧ Accepted classes text ∧
      matchHere items (captures.takeAll text) rest = some result := by
  induction classes generalizing captures subject with
  | nil => exact ⟨[], subject, rfl, .nil, h⟩
  | cons accepts classes ih =>
      cases subject with
      | nil => cases h
      | cons c subject =>
          simp only [List.map_cons, List.cons_append, matchHere] at h
          split at h
          · rename_i hc
            obtain ⟨text, rest, rfl, haccepted, hrest⟩ := ih h
            exact ⟨c :: text, rest, rfl, .cons hc haccepted, hrest⟩
          · cases h

end Classes

theorem exists_of_search {items : List Item} {subject : List Char}
    {result : List (List Char)} (h : search items subject = some result) :
    ∃ before rest, subject = before ++ rest ∧ matchHere items {} rest = some result := by
  induction subject with
  | nil => exact ⟨[], [], rfl, h⟩
  | cons c subject ih =>
      rcases Option.or_eq_some_iff.mp h with hhere | ⟨_, hlater⟩
      · exact ⟨[], c :: subject, rfl, hhere⟩
      · obtain ⟨before, rest, rfl, hrest⟩ := ih hlater
        exact ⟨c :: before, rest, rfl, hrest⟩

theorem search_isSome_of_append {items : List Item} {rest : List Char}
    (h : (matchHere items {} rest).isSome = true) (before : List Char) :
    (search items (before ++ rest)).isSome = true := by
  induction before with
  | nil =>
      cases rest with
      | nil => exact h
      | cons c rest => simp [search, Option.isSome_or, h]
  | cons c before ih => simp [search, Option.isSome_or, ih]

theorem search_literal_isSome (text : String) (before after : List Char) :
    (search (literal text) (before ++ (text.toList ++ after))).isSome = true := by
  apply search_isSome_of_append
  have hrun := matchHere_literal text [] {} after
  rw [List.append_nil] at hrun
  rw [hrun]
  rfl

/-- A pattern of single characters, on a text of its own length. -/
theorem search_classes_isSome {classes : List (Char → Bool)} {text : List Char}
    (hlength : text.length = classes.length) :
    (search (classes.map .one) text).isSome = true ↔ Accepted classes text := by
  constructor
  · intro h
    obtain ⟨result, hresult⟩ := Option.isSome_iff_exists.mp h
    obtain ⟨before, rest, htext, hrest⟩ := exists_of_search hresult
    rw [← List.append_nil (classes.map Item.one)] at hrest
    obtain ⟨taken, tail, rfl, haccepted, _⟩ := matchHere_classes_eq_some hrest
    have htaken := haccepted.length_eq
    have hsum : text.length = before.length + (taken.length + tail.length) := by
      simp [htext]
    have hbefore : before = [] := List.length_eq_zero_iff.mp (by omega)
    have htail : tail = [] := List.length_eq_zero_iff.mp (by omega)
    simpa [htext, hbefore, htail] using haccepted
  · intro h
    have hrun : matchHere (classes.map .one ++ []) {} (text ++ []) = some [] := by
      rw [matchHere_classes [] h]
      simp [matchHere]
    rw [List.append_nil, List.append_nil] at hrun
    cases text with
    | nil => simp [search, hrun]
    | cons c text => simp [search, hrun]

theorem Accepted.append {first second : List (Char → Bool)} {before after : List Char}
    (hbefore : Accepted first before) (hafter : Accepted second after) :
    Accepted (first ++ second) (before ++ after) :=
  accepted_append.mpr ⟨before, after, rfl, hbefore, hafter⟩

theorem search_greedy_classes {classes : List (Char → Bool)} {taken text : List Char}
    (htaken : taken ≠ []) (haccepted : Accepted classes text) :
    search (capture (plus any) ++ classes.map .one) (taken ++ text) = some [taken] := by
  rw [search_greedy]
  cases taken with
  | nil => exact absurd rfl htaken
  | cons c taken =>
      change expand any (matchHere (.closeCapture :: classes.map .one)) ⟨[], some [c]⟩
        (taken ++ text) = _
      apply expand_eq_some
      · exact fun _ _ => rfl
      · have hclose : (Captures.takeAll ⟨[], some [c]⟩ taken).close = ⟨[c :: taken], none⟩ := by
          simp [Captures.close]
        have hrun : matchHere (classes.map .one ++ []) ⟨[c :: taken], none⟩ (text ++ []) =
            some [c :: taken] := by
          rw [matchHere_classes [] haccepted]
          simp [matchHere]
        rw [List.append_nil, List.append_nil] at hrun
        rw [matchHere, hclose, hrun]
      · intro more tail hmore hsplit
        rw [Option.eq_none_iff_forall_ne_some]
        intro result hresult
        simp only [matchHere] at hresult
        rw [← List.append_nil (classes.map Item.one)] at hresult
        obtain ⟨stamp, rest, htail, hstamp, _⟩ := matchHere_classes_eq_some hresult
        have hshort := hstamp.length_eq.trans haccepted.length_eq.symm
        have hpos := List.length_pos_iff.mpr hmore
        rw [hsplit, htail, List.length_append, List.length_append] at hshort
        omega

end OpenSan.Foundation.Pattern
