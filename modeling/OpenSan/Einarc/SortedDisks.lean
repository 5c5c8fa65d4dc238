import OpenSan.Einarc.Physicals
import OpenSan.Foundation.Number

/-!
# The sorted list of disks

`M.Physical.split_id`, `M.sort_physical_ids` and `M.Physical.sort`, on the texts
of the identifiers.  `number` is the value that the interpreter gives to a run
of digits, which for long runs need not be the exact one.
-/

namespace OpenSan.Einarc

open OpenSan.Foundation

def isId (id : String) : Bool :=
  (Pattern.anchored (Pattern.plus Pattern.digit ++ Pattern.literal ":" ++
    Pattern.plus Pattern.digit ++ [.finish]) id.toList).isSome

/-- The captures of `^(%d+):` and `:(%d+)$`; every identifier has both. -/
def matchId (id : String) : List Char × List Char :=
  (((Pattern.anchored (Pattern.capture (Pattern.plus Pattern.digit) ++ Pattern.literal ":")
      id.toList).bind (·.head?)).getD [],
    ((Pattern.search (Pattern.literal ":" ++
      (Pattern.capture (Pattern.plus Pattern.digit) ++ [.finish])) id.toList).bind
        (·.head?)).getD [])

section Numbers

variable {ν : Type} (number : Nat → ν)

/-- `tonumber`, for a run of digits. -/
def tonumber (digits : List Char) : ν := number (Number.digitsValue digits)

def idNumbers (id : String) : ν × ν :=
  (tonumber number (matchId id).1, tonumber number (matchId id).2)

def splitId (id : String) : Except Error (ν × ν) :=
  if isId id then .ok (idNumbers number id)
  else .error (.assertion "incorrect physical id")

variable [LinearOrder ν]

def numbersBefore (first second : ν × ν) : Bool :=
  if first.1 = second.1 then first.2 < second.2 else first.1 < second.1

def sortPhysicalIdTexts (id1 id2 : String) : Except Error Bool := do
  let first ← splitId number id1
  let second ← splitId number id2
  pure (numbersBefore first second)

def checkId (id : String) : Except Error Unit :=
  if isId id then .ok () else .error (.assertion "incorrect physical id")

/-- `M.Physical.sort`.  All identifiers have been checked when they are compared,
so the comparison does not raise. -/
def sortPhysicals {α : Type} (order : Order) (state : α → String)
    (physicals : Table String α) : Except Error (List α) := do
  (order.visit physicals.keys).forM checkId
  let sortedIds ← sortByState
    (fun id1 id2 => numbersBefore (idNumbers number id1) (idNumbers number id2))
    order (fun id => ((physicals.lookup id).map state).getD "") physicals.keys
  sortedIds.mapM fun id => nonNil "physical" (physicals.lookup id)

end Numbers

/-! ## Splitting -/

def leftPart (id : String) : List Char := id.toList.takeWhile (· ≠ ':')

def rightPart (id : String) : List Char := (id.toList.dropWhile (· ≠ ':')).tail

theorem digit_ne_colon {c : Char} (h : Pattern.digit c = true) : c ≠ ':' := by
  rintro rfl
  revert h
  decide

section Parts

variable {id : String} {left right : List Char}

theorem leftPart_eq (hid : id.toList = left ++ ':' :: right)
    (hdigits : ∀ c ∈ left, Pattern.digit c = true) : leftPart id = left := by
  have hleft : ∀ c ∈ left, (decide (c ≠ ':')) = true := by
    intro c hc
    simpa using digit_ne_colon (hdigits c hc)
  rw [leftPart, hid, List.takeWhile_append_of_pos hleft]
  simp

theorem rightPart_eq (hid : id.toList = left ++ ':' :: right)
    (hdigits : ∀ c ∈ left, Pattern.digit c = true) : rightPart id = right := by
  have hleft : ∀ c ∈ left, (decide (c ≠ ':')) = true := by
    intro c hc
    simpa using digit_ne_colon (hdigits c hc)
  rw [rightPart, hid, List.dropWhile_append_of_pos hleft]
  simp

theorem split_of_isId (h : isId id = true) :
    ∃ left right : List Char, id.toList = left ++ ':' :: right ∧
      left ≠ [] ∧ right ≠ [] ∧ (∀ c ∈ left, Pattern.digit c = true) ∧
      ∀ c ∈ right, Pattern.digit c = true := by
  obtain ⟨result, hresult⟩ := Option.isSome_iff_exists.mp h
  rw [Pattern.anchored, List.append_assoc, List.append_assoc] at hresult
  obtain ⟨left, rest, hid, hleft, hdigits, hrest⟩ := Pattern.matchHere_plus_eq_some hresult
  cases rest with
  | nil => cases hrest
  | cons c rest =>
      change (if (c == ':') = true then _ else none) = _ at hrest
      split at hrest
      · rename_i hcolon
        obtain rfl := beq_iff_eq.mp hcolon
        obtain ⟨right, tail, rfl, hright, hdigits', hend⟩ :=
          Pattern.matchHere_plus_eq_some hrest
        simp only [Pattern.matchHere] at hend
        split at hend
        · rename_i htail
          rw [htail, List.append_nil] at hid
          exact ⟨left, right, hid, hleft, hright, hdigits, hdigits'⟩
        · cases hend
      · cases hrest

theorem isId_of_split (hid : id.toList = left ++ ':' :: right) (hleft : left ≠ [])
    (hright : right ≠ []) (hdigits : ∀ c ∈ left, Pattern.digit c = true)
    (hdigits' : ∀ c ∈ right, Pattern.digit c = true) : isId id = true := by
  have hstop : ∀ c ∈ (':' :: right).head?, Pattern.digit c = false := by
    intro c hc
    obtain rfl : ':' = c := by simpa using hc
    decide
  have hend : Pattern.matchHere (Pattern.plus Pattern.digit ++ [.finish]) ⟨[], none⟩
      (right ++ []) = some [] := by
    apply Pattern.matchHere_plus_of_stop hright hdigits' (by simp)
    simp [Pattern.matchHere]
  have hrun : Pattern.matchHere (Pattern.plus Pattern.digit ++
      (.one (· == ':') :: (Pattern.plus Pattern.digit ++ [.finish]))) ⟨[], none⟩
        (left ++ ':' :: right) = some [] := by
    apply Pattern.matchHere_plus_of_stop hleft hdigits hstop
    simpa [Pattern.matchHere, Pattern.Captures.take] using hend
  rw [isId, hid]
  exact Option.isSome_iff_exists.mpr ⟨[], hrun⟩

theorem matchId_eq (hid : id.toList = left ++ ':' :: right) (hleft : left ≠ [])
    (hright : right ≠ []) (hdigits : ∀ c ∈ left, Pattern.digit c = true)
    (hdigits' : ∀ c ∈ right, Pattern.digit c = true) : matchId id = (left, right) := by
  have hstop : ∀ c ∈ (':' :: right).head?, Pattern.digit c = false := by
    intro c hc
    obtain rfl : ':' = c := by simpa using hc
    decide
  have hfirst : Pattern.anchored (Pattern.capture (Pattern.plus Pattern.digit) ++
      Pattern.literal ":") id.toList = some [left] := by
    have hrun : Pattern.matchHere (Pattern.plus Pattern.digit ++
        (.closeCapture :: Pattern.literal ":")) ⟨[], some []⟩ (left ++ ':' :: right) =
          some [left] := by
      apply Pattern.matchHere_plus_of_stop hleft hdigits hstop
      simp [Pattern.matchHere, Pattern.literal, Pattern.Captures.close, Pattern.Captures.take]
    rw [hid]
    exact hrun
  have hsecond : Pattern.search (Pattern.literal ":" ++
      (Pattern.capture (Pattern.plus Pattern.digit) ++ [.finish])) id.toList =
        some [right] := by
    have hrun : Pattern.matchHere (Pattern.plus Pattern.digit ++ [.closeCapture, .finish])
        ⟨[], some []⟩ (right ++ []) = some [right] := by
      apply Pattern.matchHere_plus_of_stop hright hdigits' (by simp)
      simp [Pattern.matchHere, Pattern.Captures.close]
    rw [List.append_nil] at hrun
    rw [hid, Pattern.search_skip]
    · apply Pattern.search_of_matchHere
      exact hrun
    · intro c hc tail
      have hne := digit_ne_colon (hdigits c hc)
      simp [Pattern.matchHere, Pattern.literal, hne]
  rw [matchId, hfirst, hsecond]
  rfl

end Parts

def partNumbers {ν : Type} (number : Nat → ν) (id : String) : ν × ν :=
  (tonumber number (leftPart id), tonumber number (rightPart id))

theorem idNumbers_eq {ν : Type} (number : Nat → ν) {id : String} (h : isId id = true) :
    idNumbers number id = partNumbers number id := by
  obtain ⟨left, right, hid, hleft, hright, hdigits, hdigits'⟩ := split_of_isId h
  rw [idNumbers, partNumbers, matchId_eq hid hleft hright hdigits hdigits',
    leftPart_eq hid hdigits, rightPart_eq hid hdigits]

/-! ## The order -/

section Order

variable {ν : Type} [LinearOrder ν] (number : Nat → ν)

theorem numbersBefore_iff {first second : ν × ν} :
    numbersBefore first second = true ↔
      first.1 < second.1 ∨ first.1 = second.1 ∧ first.2 < second.2 := by
  unfold numbersBefore
  by_cases heq : first.1 = second.1
  · simp [heq]
  · simp [heq]

theorem numbersBefore_strictWeak : Sort.StrictWeak (numbersBefore (ν := ν)) where
  asymmetric := by
    intro first second h
    rw [numbersBefore_iff] at h
    by_contra hne
    have hback := numbersBefore_iff.mp (by simpa using hne)
    rcases h with h | ⟨heq, h⟩
    · rcases hback with hback | ⟨heq', _⟩
      · exact lt_asymm h hback
      · exact absurd heq' (ne_of_gt h)
    · rcases hback with hback | ⟨_, hback⟩
      · exact absurd heq (ne_of_gt hback)
      · exact lt_asymm h hback
  cotransitive := by
    intro first second third h
    simp only [numbersBefore_iff] at h ⊢
    rcases lt_trichotomy first.1 second.1 with hlt | heq | hgt
    · exact .inl (.inl hlt)
    · rcases h with h | ⟨heq', h⟩
      · exact .inr (.inl (heq ▸ h))
      · cases lt_or_ge first.2 second.2 with
        | inl hlt => exact .inl (.inr ⟨heq, hlt⟩)
        | inr hge => exact .inr (.inr ⟨heq.symm.trans heq', lt_of_le_of_lt hge h⟩)
    · rcases h with h | ⟨heq', h⟩
      · exact .inr (.inl (hgt.trans h))
      · exact .inr (.inl (heq' ▸ hgt))

theorem sortPhysicalIdTexts_eq {id1 id2 : String} (h1 : isId id1 = true)
    (h2 : isId id2 = true) : sortPhysicalIdTexts number id1 id2 =
      .ok (numbersBefore (partNumbers number id1) (partNumbers number id2)) := by
  simp only [sortPhysicalIdTexts, splitId, h1, h2, if_true, ok_bind,
    idNumbers_eq number h1, idNumbers_eq number h2]
  rfl

variable {α : Type} (physicals : Table String α)

def entryOf (id : String) : Option (String × α) :=
  (physicals.lookup id).map fun physical => (id, physical)

theorem filterMap_entryOf_keys :
    physicals.keys.filterMap (entryOf physicals) =
      physicals.entries.map fun entry => (entry.1, entry.2) := by
  have hlookup : ∀ entry ∈ physicals.entries,
      entryOf physicals entry.1 = some (entry.1, entry.2) := by
    intro entry hentry
    rw [entryOf, AList.mem_lookup_iff.mpr hentry]
    rfl
  rw [AList.keys, List.keys, List.filterMap_map]
  rw [List.filterMap_congr (g := fun entry => some (entry.1, entry.2)) hlookup]
  rw [← List.filterMap_eq_map]
  rfl

theorem mapM_lookup {ids : List String} (hids : ∀ id ∈ ids, id ∈ physicals) :
    ids.mapM (fun id => nonNil "physical" (physicals.lookup id)) =
      .ok ((ids.filterMap (entryOf physicals)).map (·.2)) := by
  induction ids with
  | nil => rfl
  | cons id ids ih =>
      obtain ⟨physical, hphysical⟩ :=
        Option.isSome_iff_exists.mp (AList.lookup_isSome.mpr (hids id (by simp)))
      rw [List.mapM_cons, hphysical, ih fun other hother => hids other (by simp [hother])]
      simp [entryOf, hphysical, nonNil, bind, Except.bind, pure, Except.pure]

/-- By state, then by the number before and the number after the colon. -/
def DiskOrder (state : α → String) (first second : String × α) : Prop :=
  state first.2 < state second.2 ∨ state first.2 = state second.2 ∧
    (tonumber number (leftPart first.1) < tonumber number (leftPart second.1) ∨
      tonumber number (leftPart first.1) = tonumber number (leftPart second.1) ∧
        tonumber number (rightPart first.1) ≤ tonumber number (rightPart second.1))

/-- `M.Physical.sort` lists every disk of the table once, in the order of states
and numbers. -/
theorem sortPhysicals_sorted (order : Order) (state : α → String)
    (hids : ∀ id ∈ physicals.keys, isId id = true) :
    (∃ sorted : List (String × α),
      sorted.Perm (physicals.entries.map fun entry => (entry.1, entry.2)) ∧
      sortPhysicals number order state physicals = .ok (sorted.map (·.2)) ∧
      sorted.Pairwise (DiskOrder number state)) ∧
    ∃ less : String → String → Bool, Sort.StrictWeak less ∧
      ∀ id1 id2, isId id1 = true → isId id2 = true →
        sortPhysicalIdTexts number id1 id2 = .ok (less id1 id2) := by
  have hweak : Sort.StrictWeak fun id1 id2 =>
      numbersBefore (idNumbers number id1) (idNumbers number id2) :=
    (numbersBefore_strictWeak (ν := ν)).comap (idNumbers number)
  obtain ⟨ids, hsort, hperm, hsorted⟩ := sortByState_eq hweak.asymmetric order
    (fun id => ((physicals.lookup id).map state).getD "") physicals.keys
  refine ⟨⟨ids.filterMap (entryOf physicals), ?_, ?_, ?_⟩, ?_⟩
  · rw [← filterMap_entryOf_keys]
    exact hperm.filterMap _
  · have hcheck : (order.visit physicals.keys).forM checkId = .ok () := by
      rw [forM_eq_ok]
      intro id hid
      rw [checkId, hids id (by simpa using hid)]
      rfl
    have hmem : ∀ id ∈ ids, id ∈ physicals := by
      intro id hid
      rw [AList.mem_keys]
      exact hperm.mem_iff.mp hid
    simp only [sortPhysicals, hcheck, hsort, ok_bind, mapM_lookup physicals hmem]
  · rw [List.pairwise_filterMap]
    refine (hsorted hweak).imp_of_mem fun {id1 id2} hin1 hin2 hle entry1 hentry1 entry2
      hentry2 => ?_
    have hid1 := hids id1 (hperm.mem_iff.mp hin1)
    have hid2 := hids id2 (hperm.mem_iff.mp hin2)
    obtain ⟨physical1, hlookup1, rfl⟩ := Option.map_eq_some_iff.mp hentry1
    obtain ⟨physical2, hlookup2, rfl⟩ := Option.map_eq_some_iff.mp hentry2
    simp only [hlookup1, hlookup2, Option.map_some, Option.getD_some,
      idNumbers_eq number hid1, idNumbers_eq number hid2] at hle
    refine hle.imp id (And.imp id fun hnot => ?_)
    have hback : ¬ _ := fun hless => Bool.false_ne_true (hnot.symm.trans
      (numbersBefore_iff.mpr hless))
    simp only [partNumbers, not_or, not_and, not_lt] at hback
    rcases lt_or_eq_of_le hback.1 with hlt | heq
    · exact .inl hlt
    · exact .inr ⟨heq, hback.2 heq.symm⟩
  · exact ⟨_, (numbersBefore_strictWeak (ν := ν)).comap (partNumbers number),
      fun id1 id2 => sortPhysicalIdTexts_eq number⟩

end Order

def threeDisks : Table String String :=
  ((AList.insert "0:10" "free" ∅).insert "0:9" "free").insert "254:1" "allocated"

theorem threeDisks_sorted :
    (∀ key ∈ threeDisks.keys, isId key = true) ∧
      ∃ sorted : List (String × String),
        sorted.Perm (threeDisks.entries.map fun entry => (entry.1, entry.2)) ∧
        sortPhysicals (fun n => n) .plain (fun state => state) threeDisks =
          .ok (sorted.map (·.2)) ∧
        sorted.Pairwise (DiskOrder (fun n => n) fun state => state) :=
  have hids : ∀ key ∈ threeDisks.keys, isId key = true := by decide +kernel
  ⟨hids, (sortPhysicals_sorted (fun n => n) threeDisks .plain (fun state => state) hids).1⟩

end OpenSan.Einarc
