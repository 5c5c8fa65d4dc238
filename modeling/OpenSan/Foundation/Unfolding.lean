import Mathlib.Data.List.Perm.Subperm
import OpenSan.Foundation.Heap

/-!
# The tree a table shows

Followed along its keys a table with its tables below is a tree, in which a shared table
stands in several places.  When no table is reached along two paths the tree is finite and
has one node for each table.
-/

namespace OpenSan.Foundation

variable {μ : Type}

def Datum.key : Datum → Option Scalar
  | .scalar value => some value
  | .table _ => none

namespace Heap

variable (heap : Heap μ)

def entriesAt (place : Nat) : List Entry :=
  (heap[place]?.map fun object => object.entries.entries).getD []

def index (key : Scalar) : Datum → Option Datum
  | .scalar _ => none
  | .table place => heap[place]?.bind fun object => object.entries.lookup (.scalar key)

def follow : List Scalar → Datum → Option Datum
  | [], datum => some datum
  | key :: path, datum => (heap.index key datum).bind (follow path)

def ScalarKeys : Prop :=
  ∀ object ∈ heap, ∀ entry ∈ object.entries.entries, ∃ key, entry.1 = .scalar key

/-- No table is reached along two paths. -/
def Unshared (root : Datum) : Prop :=
  ∀ path other place, heap.follow path root = some (.table place) →
    heap.follow other root = some (.table place) → path = other

variable (order : Nat → Order)

def pairs (place : Nat) : List (Scalar × Datum) :=
  ((order place).visit (heap.entriesAt place)).filterMap fun entry =>
    entry.1.key.map fun key => (key, entry.2)

/-- The tables below a datum with their paths, those of fewer than `depth` keys. -/
def paths : Nat → Datum → List (List Scalar × Nat)
  | _, .scalar _ => []
  | 0, .table _ => []
  | depth + 1, .table place =>
      ([], place) :: (heap.pairs order place).flatMap fun entry =>
        (paths depth entry.2).map fun found => (entry.1 :: found.1, found.2)

/-- `border` is what `#` gives for the table at a place. -/
def unfold (border : Nat → Nat) : Nat → Datum → Value
  | _, .scalar value => .scalar value
  | 0, .table place => .table (border place) []
  | depth + 1, .table place =>
      .table (border place) ((heap.pairs order place).map fun entry =>
        (entry.1, unfold border depth entry.2))

def tables (depth : Nat) (datum : Datum) : List Nat := (heap.paths order depth datum).map (·.2)

end Heap

/-! ## Entries and paths -/

namespace Heap

variable {heap : Heap μ} {order : Nat → Order}

theorem refers_of_index {place next : Nat} {key : Scalar}
    (h : heap.index key (.table place) = some (.table next)) : heap.Refers place next := by
  rw [index, Option.bind_eq_some_iff] at h
  obtain ⟨object, hobject, hlookup⟩ := h
  exact ⟨object, hobject, _, AList.mem_lookup_iff.mp hlookup, .inr rfl⟩

theorem mem_pairs {place : Nat} {key : Scalar} {value : Datum} :
    (key, value) ∈ heap.pairs order place ↔ heap.index key (.table place) = some value := by
  have hentry : (key, value) ∈ heap.pairs order place ↔
      (⟨.scalar key, value⟩ : Entry) ∈ heap.entriesAt place := by
    simp only [pairs, List.mem_filterMap, Order.mem_visit, Option.map_eq_some_iff, Prod.mk.injEq]
    constructor
    · rintro ⟨⟨index, datum⟩, hin, found, hfound, rfl, rfl⟩
      cases index with
      | scalar other =>
          obtain rfl : other = found := Option.some.inj hfound
          exact hin
      | table other => cases hfound
    · exact fun hin => ⟨_, hin, key, rfl, rfl, rfl⟩
  rw [hentry, entriesAt, index]
  cases heap[place]? with
  | none => simp
  | some object => exact AList.mem_lookup_iff.symm

theorem keys_nodup_pairs (heap : Heap μ) (order : Nat → Order) (place : Nat) :
    ((heap.pairs order place).map (·.1)).Nodup := by
  have hkeys : ((heap.entriesAt place).map (·.1)).Nodup := by
    rw [entriesAt]
    cases heap[place]? with
    | none => simp
    | some object => exact object.entries.keys_nodup
  have hvisit := (((order place).perm (heap.entriesAt place)).map (·.1)).nodup_iff.mpr hkeys
  have hmap : (heap.pairs order place).map (·.1) =
      (((order place).visit (heap.entriesAt place)).map (·.1)).filterMap Datum.key := by
    rw [pairs, List.map_filterMap, List.filterMap_map]
    congr 1
    funext ⟨index, value⟩
    cases index <;> rfl
  rw [hmap]
  refine hvisit.filterMap fun first second key hfirst hsecond => ?_
  cases first with
  | table place => cases hfirst
  | scalar value =>
      cases second with
      | table place => cases hsecond
      | scalar other =>
          rw [Option.mem_def, Datum.key, Option.some.injEq] at hfirst hsecond
          rw [hfirst, hsecond]

theorem visit_eq (hkeys : heap.ScalarKeys) {place : Nat} {object : Object μ}
    (hobject : heap[place]? = some object) :
    (order place).visit object.entries.entries =
      (heap.pairs order place).map fun entry => ⟨.scalar entry.1, entry.2⟩ := by
  have hall : ∀ entry ∈ (order place).visit object.entries.entries,
      ∃ key, entry.1 = .scalar key := fun entry hentry =>
    hkeys object (List.mem_of_getElem? hobject) entry ((Order.mem_visit _).mp hentry)
  rw [pairs, entriesAt, hobject, Option.map_some, Option.getD_some]
  generalize (order place).visit object.entries.entries = entries at hall
  induction entries with
  | nil => rfl
  | cons entry entries ih =>
      obtain ⟨index, value⟩ := entry
      simp only [List.forall_mem_cons] at hall
      obtain ⟨⟨key, rfl⟩, hrest⟩ := hall
      rw [List.filterMap_cons_some (by rfl), List.map_cons, ← ih hrest]

theorem lookup_eq_index {place : Nat} {object : Object μ} (hobject : heap[place]? = some object)
    (key : Scalar) : object.entries.lookup (.scalar key) = heap.index key (.table place) := by
  rw [index, hobject, Option.bind_some]

theorem lookup_pairs (order : Nat → Order) (place : Nat) (key : Scalar) :
    (heap.pairs order place).lookup key = heap.index key (.table place) := by
  ext value
  rw [← (mem_pairs : (key, value) ∈ heap.pairs order place ↔ _)]
  constructor
  · exact fun hlookup => mem_of_lookup hlookup
  · exact fun hin => lookup_eq_some_of_mem (keys_nodup_pairs heap order place) hin

theorem mem_paths {depth : Nat} {datum : Datum} {path : List Scalar} {place : Nat} :
    (path, place) ∈ heap.paths order depth datum ↔
      path.length < depth ∧ heap.follow path datum = some (.table place) := by
  induction depth generalizing datum path with
  | zero => cases datum <;> simp [paths]
  | succ depth ih =>
      cases datum with
      | scalar value => cases path <;> simp [paths, follow, index]
      | table first =>
          rw [paths, List.mem_cons, List.mem_flatMap]
          cases path with
          | nil => simp [follow, eq_comm]
          | cons key path =>
              rw [follow, Option.bind_eq_some_iff]
              constructor
              · rintro (hhead | ⟨⟨other, next⟩, hentry, hin⟩)
                · simp at hhead
                · obtain ⟨⟨tail, last⟩, hfound, heq⟩ := List.mem_map.mp hin
                  simp only [Prod.mk.injEq, List.cons.injEq] at heq
                  obtain ⟨⟨rfl, rfl⟩, rfl⟩ := heq
                  obtain ⟨hlength, hfollow⟩ := ih.mp hfound
                  exact ⟨by simpa using hlength, next, mem_pairs.mp hentry, hfollow⟩
              · rintro ⟨hlength, next, hnext, hfollow⟩
                refine .inr ⟨(key, next), mem_pairs.mpr hnext, List.mem_map.mpr ?_⟩
                exact ⟨(path, place), ih.mpr ⟨by simpa using hlength, hfollow⟩, rfl⟩

theorem paths_nodup (depth : Nat) (datum : Datum) : (heap.paths order depth datum).Nodup := by
  induction depth generalizing datum with
  | zero => cases datum <;> simp [paths]
  | succ depth ih =>
      cases datum with
      | scalar value => simp [paths]
      | table place =>
          rw [paths, List.nodup_cons, List.nodup_flatMap]
          refine ⟨by simp, fun entry _ => (ih entry.2).map ?_, ?_⟩
          · intro first second heq
            simp only [Prod.mk.injEq, List.cons.injEq, true_and] at heq
            exact Prod.ext heq.1 heq.2
          · have hpairwise := List.pairwise_map.mp (keys_nodup_pairs heap order place)
            refine hpairwise.imp fun {first second} hne found hfirst hsecond => hne ?_
            obtain ⟨one, -, rfl⟩ := List.mem_map.mp hfirst
            obtain ⟨other, -, heq⟩ := List.mem_map.mp hsecond
            simp only [Prod.mk.injEq, List.cons.injEq] at heq
            exact heq.1.1.symm

theorem follow_within (hclosed : heap.Closed) {path : List Scalar} {datum found : Datum}
    (hdatum : datum.Within heap.length) (h : heap.follow path datum = some found) :
    found.Within heap.length := by
  induction path generalizing datum with
  | nil =>
      obtain rfl : datum = found := Option.some.inj h
      exact hdatum
  | cons key path ih =>
      rw [follow, Option.bind_eq_some_iff] at h
      obtain ⟨next, hnext, hfollow⟩ := h
      refine ih ?_ hfollow
      cases datum with
      | scalar value => cases hnext
      | table place =>
          rw [index, Option.bind_eq_some_iff] at hnext
          obtain ⟨object, hobject, hlookup⟩ := hnext
          exact (hclosed object (List.mem_of_getElem? hobject) _
            (AList.mem_lookup_iff.mp hlookup)).2

theorem tables_subset (hclosed : heap.Closed) {datum : Datum} (hdatum : datum.Within heap.length)
    (depth : Nat) : heap.tables order depth datum ⊆ List.range heap.length := by
  intro place hplace
  obtain ⟨⟨path, other⟩, hfound, rfl⟩ := List.mem_map.mp hplace
  exact List.mem_range.mpr (follow_within hclosed hdatum (mem_paths.mp hfound).2)

theorem follow_take {path : List Scalar} {datum : Datum} {place : Nat}
    (h : heap.follow path datum = some (.table place)) (n : Nat) :
    ∃ above, heap.follow (path.take n) datum = some (.table above) := by
  induction path generalizing datum n with
  | nil => exact ⟨place, by rw [List.take_nil]; exact h⟩
  | cons key path ih =>
      cases n with
      | zero =>
          cases datum with
          | scalar value => cases h
          | table first => exact ⟨first, rfl⟩
      | succ n =>
          rw [follow, Option.bind_eq_some_iff] at h
          obtain ⟨next, hnext, hfollow⟩ := h
          obtain ⟨above, habove⟩ := ih hfollow n
          exact ⟨above, by rw [List.take_succ_cons, follow, hnext, Option.bind_some, habove]⟩

theorem length_lt_of_nodup (hclosed : heap.Closed) {datum : Datum}
    (hdatum : datum.Within heap.length) {depth : Nat} (hdepth : heap.length < depth)
    (hnodup : (heap.tables order depth datum).Nodup) {path : List Scalar} {place : Nat}
    (h : heap.follow path datum = some (.table place)) : path.length < heap.length := by
  by_contra hlong
  have hprefixes : ((List.range (heap.length + 1)).map fun n => path.take n).Nodup := by
    refine List.nodup_range.map_on fun n hn m hm heq => ?_
    rw [List.mem_range] at hn hm
    have hlength := congrArg List.length heq
    rw [List.length_take, List.length_take] at hlength
    omega
  have hsub : ((List.range (heap.length + 1)).map fun n => path.take n) ⊆
      (heap.paths order depth datum).map (·.1) := by
    intro start hstart
    obtain ⟨n, hn, rfl⟩ := List.mem_map.mp hstart
    rw [List.mem_range] at hn
    obtain ⟨above, habove⟩ := follow_take h n
    refine List.mem_map.mpr ⟨(path.take n, above), mem_paths.mpr ⟨?_, habove⟩, rfl⟩
    rw [List.length_take]
    omega
  have hmany := (List.subperm_of_subset hprefixes hsub).length_le
  have hfew := (List.subperm_of_subset hnodup (tables_subset hclosed hdatum depth)).length_le
  rw [tables, List.length_map, List.length_range] at hfew
  rw [List.length_map, List.length_map, List.length_range] at hmany
  omega

theorem tables_nodup_iff (order : Nat → Order) (hclosed : heap.Closed) {datum : Datum}
    (hdatum : datum.Within heap.length) {depth : Nat} (hdepth : heap.length < depth) :
    (heap.tables order depth datum).Nodup ↔ heap.Unshared datum := by
  constructor
  · intro hnodup path other place hpath hother
    have hlength := length_lt_of_nodup hclosed hdatum hdepth hnodup hpath
    have hlength' := length_lt_of_nodup hclosed hdatum hdepth hnodup hother
    have hfirst : (path, place) ∈ heap.paths order depth datum :=
      mem_paths.mpr ⟨by omega, hpath⟩
    have hsecond : (other, place) ∈ heap.paths order depth datum :=
      mem_paths.mpr ⟨by omega, hother⟩
    exact congrArg Prod.fst (List.inj_on_of_nodup_map hnodup hfirst hsecond rfl)
  · intro hunshared
    refine (paths_nodup depth datum).map_on fun first hfirst second hsecond heq => ?_
    have hpath := hunshared first.1 second.1 first.2 (mem_paths.mp hfirst).2
      (by rw [heq]; exact (mem_paths.mp hsecond).2)
    exact Prod.ext hpath heq

/-- The tree shows what the table does, as far as it was unfolded. -/
theorem follow_unfold (order : Nat → Order) (border : Nat → Nat) {depth : Nat}
    {path : List Scalar} {datum : Datum}
    (hdepth : ∀ start place, start <+: path → heap.follow start datum = some (.table place) →
      start.length < depth) :
    ((heap.unfold order border depth datum).follow path).map Value.leaf =
      (heap.follow path datum).map Datum.key := by
  induction path generalizing depth datum with
  | nil => cases datum <;> cases depth <;> rfl
  | cons key path ih =>
      cases datum with
      | scalar value => cases depth <;> rfl
      | table place =>
          cases depth with
          | zero => exact absurd (hdepth [] place (by simp) rfl) (by simp)
          | succ depth =>
              rw [unfold, Value.follow, Value.lookup, lookup_map, lookup_pairs, follow]
              cases hindex : heap.index key (.table place) with
              | none => rfl
              | some next =>
                  rw [Option.map_some, Option.bind_some, Option.bind_some]
                  refine ih fun start place hstart hfollow => ?_
                  have hlonger := hdepth (key :: start) place (by simpa using hstart)
                    (by rw [follow, hindex, Option.bind_some, hfollow])
                  simpa using hlonger

end Heap

end OpenSan.Foundation
