import Mathlib.Data.List.AList
import Mathlib.Data.List.Induction
import Mathlib.Data.List.Perm.Basic
import Mathlib.Data.String.Basic
import OpenSan.Foundation.Lua
import OpenSan.Foundation.Sort

/-!
# Physical disks

Disk identifiers `M:N` and the sorted list of disks that the tables of the
interface show, from `einarc.lua`, with `unique_keys` of `common.lua`.
-/

namespace OpenSan.Einarc

open OpenSan.Foundation

structure PhysicalId where
  left : Nat
  right : Nat
  deriving DecidableEq, Repr

def uniqueKeys {α κ : Type} [DecidableEq κ] (key : α → κ) (objects : List α) :
    Table κ (List α) :=
  objects.foldl
    (fun uniques object => uniques.update (key object) [] (· ++ [object])) ∅

def sortPhysicalIds (id1 id2 : PhysicalId) : Bool :=
  if id1.left = id2.left then id1.right < id2.right else id1.left < id2.left

/-- The loops of `M.Physical.sort`, for any order of the identifiers: the states
are sorted, then the disks of each state. -/
def sortByState {ι : Type} (less : ι → ι → Bool) (order : Order) (state : ι → String)
    (ids : List ι) : Except Error (List ι) := do
  let stateList := uniqueKeys state (order.visit ids)
  let states ← Sort.sort (fun a b => decide (a < b)) (order.visit stateList.keys)
  let groups ← states.mapM fun state =>
    Sort.sort less ((stateList.lookup state).getD [])
  pure groups.flatten

def Physical.sort (order : Order) (state : PhysicalId → String)
    (ids : List PhysicalId) : Except Error (List PhysicalId) :=
  sortByState sortPhysicalIds order state ids

section UniqueKeys

variable {α κ : Type} [DecidableEq κ] {key : α → κ}

private theorem uniqueKeys_append (objects : List α) (object : α) :
    uniqueKeys key (objects ++ [object]) =
      (uniqueKeys key objects).update (key object) [] (· ++ [object]) := by
  simp [uniqueKeys]

theorem lookup_uniqueKeys (objects : List α) (k : κ) :
    (uniqueKeys key objects).lookup k =
      if objects.filter (fun object => key object = k) = [] then none
      else some (objects.filter fun object => key object = k) := by
  induction objects using List.reverseRecOn with
  | nil => simp [uniqueKeys]
  | append_singleton objects object ih =>
      rw [uniqueKeys_append, Table.update]
      by_cases hk : key object = k
      · subst hk
        rw [AList.lookup_insert, ih, List.filter_append]
        by_cases hnil : objects.filter (fun other => key other = key object) = []
        · simp [hnil]
        · simp [hnil]
      · have hne : k ≠ key object := Ne.symm hk
        rw [AList.lookup_insert_ne hne, ih, List.filter_append]
        simp [hk]

theorem getD_lookup_uniqueKeys (objects : List α) (k : κ) :
    ((uniqueKeys key objects).lookup k).getD [] =
      objects.filter fun object => key object = k := by
  rw [lookup_uniqueKeys]
  split
  · rename_i hnil
    simp [hnil]
  · rfl

theorem mem_keys_uniqueKeys {objects : List α} {k : κ} :
    k ∈ (uniqueKeys key objects).keys ↔ ∃ object ∈ objects, key object = k := by
  have hsome : k ∈ (uniqueKeys key objects).keys ↔
      ((uniqueKeys key objects).lookup k).isSome = true := by
    rw [AList.lookup_isSome, AList.mem_keys]
  rw [hsome, lookup_uniqueKeys]
  by_cases hnil : objects.filter (fun object => key object = k) = []
  · simpa [hnil] using List.filter_eq_nil_iff.mp hnil
  · rw [if_neg hnil]
    obtain ⟨object, hobject⟩ := List.exists_mem_of_ne_nil _ hnil
    obtain ⟨hmem, hkey⟩ := List.mem_filter.mp hobject
    simp only [Option.isSome_some, true_iff]
    exact ⟨object, hmem, of_decide_eq_true hkey⟩

theorem flatMap_filter_perm {keys : List κ} {objects : List α}
    (hnodup : keys.Nodup) (hcover : ∀ object ∈ objects, key object ∈ keys) :
    (keys.flatMap fun k => objects.filter fun object => key object = k).Perm
      objects := by
  induction keys generalizing objects with
  | nil =>
      have hempty : objects = [] := by
        apply List.eq_nil_iff_forall_not_mem.mpr
        intro object hobject
        exact absurd (hcover object hobject) (by simp)
      simp [hempty]
  | cons k keys ih =>
      obtain ⟨hnot, hkeys⟩ := List.nodup_cons.mp hnodup
      let others := objects.filter fun object => ¬ key object = k
      have hrest : (keys.flatMap fun k' =>
          objects.filter fun object => key object = k') =
          keys.flatMap fun k' => others.filter fun object => key object = k' := by
        apply List.flatMap_congr
        intro k' hk'
        rw [List.filter_filter]
        apply List.filter_congr
        intro object _
        by_cases h : key object = k'
        · have hne : ¬ k' = k := fun heq => hnot (heq ▸ hk')
          simp [h, hne]
        · simp [h]
      have hothers : (keys.flatMap fun k' =>
          others.filter fun object => key object = k').Perm others := by
        apply ih hkeys
        intro object hobject
        obtain ⟨hmem, hne⟩ := List.mem_filter.mp hobject
        have hne : key object ≠ k := by simpa using hne
        exact (List.mem_cons.mp (hcover object hmem)).resolve_left hne
      rw [List.flatMap_cons, hrest]
      refine (hothers.append_left _).trans ?_
      simpa [others] using
        List.filter_append_perm (fun object => key object = k) objects

end UniqueKeys

theorem mapM_flatten_perm {α β : Type} (f : α → Except Error (List β))
    (g : α → List β) {items : List α}
    (h : ∀ item ∈ items, ∃ result, f item = .ok result ∧ result.Perm (g item)) :
    ∃ groups, items.mapM f = .ok groups ∧
      groups.flatten.Perm (items.flatMap g) := by
  induction items with
  | nil => exact ⟨[], rfl, .refl _⟩
  | cons item items ih =>
      obtain ⟨result, hrun, hperm⟩ := h item (by simp)
      obtain ⟨groups, hrest, hperms⟩ := ih fun other hother =>
        h other (by simp [hother])
      refine ⟨result :: groups, ?_, ?_⟩
      · rw [List.mapM_cons, hrun, hrest]
        rfl
      · rw [List.flatten_cons, List.flatMap_cons]
        exact hperm.append hperms

theorem less_asymmetric {α : Type} [Preorder α] [DecidableLT α] :
    Sort.Asymmetric fun a b : α => decide (a < b) := by
  intro a b h
  simp only [decide_eq_true_eq] at h
  simpa using lt_asymm h

theorem less_strictWeak {α : Type} [LinearOrder α] :
    Sort.StrictWeak fun a b : α => decide (a < b) where
  asymmetric := less_asymmetric
  cotransitive := by
    intro a b c h
    simp only [decide_eq_true_eq] at h ⊢
    cases lt_or_ge a b with
    | inl hab => exact .inl hab
    | inr hba => exact .inr (lt_of_le_of_lt hba h)

theorem pairwise_flatten_groups {α κ : Type} [Preorder κ] {key : α → κ} {less : α → α → Bool}
    {f : κ → Except Error (List α)} {keys : List κ} {groups : List (List α)}
    (h : keys.mapM f = .ok groups) (hkeys : keys.Pairwise (· < ·))
    (hgroup : ∀ k group, f k = .ok group →
      (∀ a ∈ group, key a = k) ∧ group.Pairwise fun a b => less b a = false) :
    groups.flatten.Pairwise fun a b => key a < key b ∨ key a = key b ∧ less b a = false := by
  induction keys generalizing groups with
  | nil =>
      obtain rfl : [] = groups := Except.ok.inj h
      simp
  | cons k keys ih =>
      rw [List.mapM_cons, bind_eq_ok] at h
      obtain ⟨group, hrun, h⟩ := h
      obtain ⟨rest, hrest, h⟩ := bind_eq_ok.mp h
      obtain rfl : group :: rest = groups := Except.ok.inj h
      obtain ⟨hhead, htail⟩ := List.pairwise_cons.mp hkeys
      obtain ⟨hkey, hsorted⟩ := hgroup k group hrun
      rw [List.flatten_cons, List.pairwise_append]
      refine ⟨?_, ih hrest htail, ?_⟩
      · exact hsorted.imp_of_mem fun {a b} ha hb hless =>
          .inr ⟨(hkey a ha).trans (hkey b hb).symm, hless⟩
      · intro a ha b hb
        obtain ⟨other, hother, hin⟩ := List.mem_flatten.mp hb
        obtain ⟨k', hk', hrun'⟩ := (mapM_eq_ok hrest).2 other hother
        left
        rw [hkey a ha, (hgroup k' other hrun').1 b hin]
        exact hhead k' hk'

theorem sortByState_eq {ι : Type} {less : ι → ι → Bool} (hasymm : Sort.Asymmetric less)
    (order : Order) (state : ι → String) (ids : List ι) :
    ∃ sorted, sortByState less order state ids = .ok sorted ∧ sorted.Perm ids ∧
      (Sort.StrictWeak less → sorted.Pairwise fun a b =>
        state a < state b ∨ state a = state b ∧ less b a = false) := by
  let stateList := uniqueKeys state (order.visit ids)
  obtain ⟨states, hstates, hstatesPerm, hstatesSorted⟩ :=
    Sort.sort_sorted (less_strictWeak (α := String)) (order.visit stateList.keys)
  have hkeys : states.Perm stateList.keys :=
    hstatesPerm.trans (order.perm stateList.keys)
  have hnodup : states.Nodup := hkeys.nodup_iff.mpr stateList.keys_nodup
  have hgroup : ∀ s, ((stateList.lookup s).getD []) =
      (order.visit ids).filter fun id => state id = s := fun s =>
    getD_lookup_uniqueKeys _ s
  obtain ⟨groups, hgroups, hgroupsPerm⟩ :=
    mapM_flatten_perm (fun s => Sort.sort less ((stateList.lookup s).getD []))
      (fun s => (order.visit ids).filter fun id => state id = s) (by
        intro (s : String) (_ : s ∈ states)
        rw [hgroup]
        exact Sort.sort_perm hasymm _)
  refine ⟨groups.flatten, ?_, ?_, fun hweak => ?_⟩
  · change (Sort.sort _ (order.visit stateList.keys) >>= _) = _
    rw [hstates, ok_bind]
    rw [hgroups, ok_bind]
    rfl
  · refine hgroupsPerm.trans ((flatMap_filter_perm hnodup ?_).trans (order.perm ids))
    intro id hid
    rw [hkeys.mem_iff]
    exact mem_keys_uniqueKeys.mpr ⟨id, hid, rfl⟩
  · apply pairwise_flatten_groups hgroups
    · have hle : states.Pairwise fun a b => a ≤ b :=
        hstatesSorted.imp fun {a b} h => not_lt.mp (of_decide_eq_false h)
      exact hle.imp₂ (fun a b hab hne => lt_of_le_of_ne hab hne) hnodup
    · intro s group hrun
      obtain ⟨sorted, hsort, hperm, hsorted⟩ := Sort.sort_sorted hweak
        ((stateList.lookup s).getD [])
      rw [hsort] at hrun
      obtain rfl := Except.ok.inj hrun
      refine ⟨fun a ha => ?_, hsorted⟩
      have hin := hperm.mem_iff.mp ha
      rw [hgroup] at hin
      simpa using (List.mem_filter.mp hin).2

theorem sortPhysicalIds_asymmetric : Sort.Asymmetric sortPhysicalIds := by
  intro id1 id2 h
  unfold sortPhysicalIds at h ⊢
  by_cases heq : id1.left = id2.left
  · simp only [heq, if_true, decide_eq_true_eq] at h
    simp only [heq, if_true, decide_eq_false_iff_not]
    omega
  · simp only [heq, if_false, decide_eq_true_eq] at h
    simp only [Ne.symm heq, if_false, decide_eq_false_iff_not]
    omega

theorem Physical.sort_perm (order : Order) (state : PhysicalId → String)
    (ids : List PhysicalId) :
    ∃ sorted, Physical.sort order state ids = .ok sorted ∧ sorted.Perm ids := by
  obtain ⟨sorted, hrun, hperm, _⟩ := sortByState_eq sortPhysicalIds_asymmetric order state ids
  exact ⟨sorted, hrun, hperm⟩

end OpenSan.Einarc
