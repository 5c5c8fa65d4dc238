import OpenSan.Web.SharedTables

/-!
# The volumes of the page

`caller` of `matrix.lua` on the tables of the logical volumes.  Each volume has its group,
which it shares with the others, so the list is copied, the snapshots are put beside the
volumes, and the references to groups and snapshots are cut before it is serialized.
-/

namespace OpenSan.Web.Shared

open OpenSan.Foundation OpenSan.Common

variable {μ : Type}

abbrev named (name : String) : Scalar := .string name.toList

def setEntry (entries : Table Datum Datum) (key : Datum) : Option Datum → Table Datum Datum
  | some value => entries.insert key value
  | none => entries.erase key

def notIndexable : Error := .failure "attempt to index a value without fields"

/-- A string has no field but the functions of the library. -/
def readField (heap : Heap μ) (name : String) : Datum → Except Error (Option Datum)
  | .table place => .ok (heap.index (named name) (.table place))
  | .scalar (.string _) => .ok none
  | .scalar _ => .error notIndexable

def writeEntry (heap : Heap μ) (place : Nat) (key : Datum) (value : Option Datum) : Heap μ :=
  heap.modify place fun object => { object with entries := setEntry object.entries key value }

def writeField (heap : Heap μ) (name : String) (value : Option Datum) : Datum →
    Except Error (Heap μ)
  | .table place => .ok (writeEntry heap place (.scalar (named name)) value)
  | .scalar _ => .error notIndexable

def truthy : Option Datum → Bool
  | none => false
  | some datum => datum ≠ .scalar (.boolean false)

/-- The values at one, two and so on, up to the first hole. -/
def itemsAt (heap : Heap μ) (place : Nat) : List Datum :=
  (((List.range (heap.entriesAt place).length).map fun i =>
    heap.index (.number (i + 1 : Nat)) (.table place)).takeWhile Option.isSome).filterMap id

def ipairs (heap : Heap μ) : Option Datum → Except Error (List Datum)
  | some (.table place) => .ok (itemsAt heap place)
  | _ => .error (.failure "bad argument to ipairs")

def addSnapshot (processed : Nat) (heap : Heap μ) (snapshot : Datum) : Except Error (Heap μ) := do
  let device ← readField heap "device" snapshot
  let device ← nonNil "index" device
  .ok (writeEntry heap processed device (some snapshot))

def addVolume (processed : Nat) (heap : Heap μ) (entry : Entry) : Except Error (Heap μ) := do
  let heap := writeEntry heap processed entry.1 (some entry.2)
  let snapshots ← readField heap "snapshots" entry.2
  if truthy snapshots then do
    let items ← ipairs heap snapshots
    items.foldlM (addSnapshot processed) heap
  else .ok heap

section Caller

variable (order : Nat → Order)

def snapshotsToOuter (heap : Heap μ) : Datum → Except Error (Datum × Heap μ)
  | .scalar _ => .error notIndexable
  | .table place => do
      let heap' ← ((order place).visit (heap.entriesAt place)).foldlM (addVolume heap.length)
        (heap ++ [⟨∅, none⟩])
      .ok (.table heap.length, heap')

def cut (heap : Heap μ) (volume : Datum) : Except Error (Heap μ) := do
  let group ← readField heap "volume_group" volume
  let group ← nonNil "volume_group" group
  let name ← readField heap "name" group
  let heap ← writeField heap "volume_group" name volume
  let heap ← writeField heap "logical_volume" none volume
  let snapshots ← readField heap "snapshots" volume
  if truthy snapshots then
    writeField (heap ++ [⟨∅, none⟩]) "snapshots" (some (.table heap.length)) volume
  else .ok heap

def cutAll (heap : Heap μ) : Datum → Except Error (Heap μ)
  | .scalar _ => .error notIndexable
  | .table place => ((order place).visit (heap.entriesAt place)).foldlM
      (fun heap entry => cut heap entry.2) heap

def logicalVolumesForSerialization (getmetatable : μ → μ) (depth : Nat) (heap : Heap μ)
    (logicalVolumes : Datum) : Except Error (Datum × Heap μ) := do
  let (copied, heap) ← deepcopy getmetatable order depth heap logicalVolumes
  let (outer, heap) ← snapshotsToOuter order heap copied
  let heap ← cutAll order heap outer
  .ok (outer, heap)

end Caller

/-! ## Fields after a write -/

section Fields

variable {heap : Heap μ}

theorem lookup_setEntry (entries : Table Datum Datum) (key other : Datum) (value : Option Datum) :
    (setEntry entries key value).lookup other =
      if other = key then value else entries.lookup other := by
  split
  · rename_i heq
    subst heq
    cases value with
    | none => exact AList.lookup_erase other entries
    | some value => exact AList.lookup_insert entries
  · rename_i hne
    cases value with
    | none => exact AList.lookup_erase_ne hne
    | some value => exact AList.lookup_insert_ne hne

theorem index_congr {first second : Heap μ} {place : Nat} (h : first[place]? = second[place]?)
    (key : Scalar) : first.index key (.table place) = second.index key (.table place) := by
  rw [Heap.index, Heap.index, h]

theorem lt_of_index {place : Nat} {key : Scalar} {value : Datum}
    (h : heap.index key (.table place) = some value) : place < heap.length := by
  rw [Heap.index, Option.bind_eq_some_iff] at h
  obtain ⟨object, hobject, -⟩ := h
  exact (List.getElem?_eq_some_iff.mp hobject).1

theorem write_ne {place other : Nat} (h : other ≠ place) (key : Datum) (value : Option Datum) :
    (writeEntry heap place key value)[other]? = heap[other]? :=
  List.getElem?_modify_ne _ _ (Ne.symm h)

theorem index_write {place : Nat} (hplace : place < heap.length) (key other : Scalar)
    (value : Option Datum) :
    (writeEntry heap place (.scalar key) value).index other (.table place) =
      if other = key then value else heap.index other (.table place) := by
  rw [Heap.index, writeEntry, List.getElem?_modify_eq, List.getElem?_eq_getElem hplace, Heap.index,
    List.getElem?_eq_getElem hplace]
  simp [lookup_setEntry]

@[simp] theorem length_write (place : Nat) (key : Datum) (value : Option Datum) :
    (writeEntry heap place key value).length = heap.length := by
  simp [writeEntry]

theorem mem_setEntry {entries : Table Datum Datum} {key : Datum} {value : Option Datum}
    {entry : Entry} (h : entry ∈ (setEntry entries key value).entries) :
    entry ∈ entries.entries ∨ entry.1 = key ∧ value = some entry.2 := by
  have hlookup := AList.mem_lookup_iff.mpr h
  rw [lookup_setEntry] at hlookup
  split at hlookup
  · rename_i heq
    exact .inr ⟨heq, hlookup⟩
  · exact .inl (AList.mem_lookup_iff.mp hlookup)

theorem mem_write {place : Nat} {key : Datum} {value : Option Datum} {object : Object μ}
    (h : object ∈ writeEntry heap place key value) {entry : Entry}
    (hentry : entry ∈ object.entries.entries) :
    (∃ source ∈ heap, entry ∈ source.entries.entries) ∨ entry.1 = key ∧ value = some entry.2 := by
  obtain ⟨n, hn⟩ := List.mem_iff_getElem?.mp h
  by_cases hplace : n = place
  · subst hplace
    rw [writeEntry, List.getElem?_modify_eq] at hn
    obtain ⟨source, hsource, rfl⟩ := Option.map_eq_some_iff.mp hn
    rcases mem_setEntry hentry with hold | hnew
    · exact .inl ⟨source, List.mem_of_getElem? hsource, hold⟩
    · exact .inr hnew
  · rw [write_ne hplace] at hn
    exact .inl ⟨object, List.mem_of_getElem? hn, hentry⟩

theorem closed_write (h : heap.Closed) {place : Nat} {key : Scalar} {value : Option Datum}
    (hvalue : ∀ datum, value = some datum → datum.Within heap.length) :
    (writeEntry heap place (.scalar key) value).Closed := by
  intro object hobject entry hentry
  rw [length_write]
  rcases mem_write hobject hentry with ⟨source, hsource, hold⟩ | ⟨hkey, hnew⟩
  · exact h source hsource entry hold
  · exact ⟨by rw [hkey]; trivial, hvalue _ hnew⟩

theorem storable_write (h : StorableKeys heap) {place : Nat} {key : Scalar}
    (hkey : exactKey key) {value : Option Datum} :
    StorableKeys (writeEntry heap place (.scalar key) value) := by
  intro object hobject entry hentry
  rcases mem_write hobject hentry with ⟨source, hsource, hold⟩ | ⟨hnew, -⟩
  · exact h source hsource entry hold
  · exact ⟨key, hnew, hkey⟩

theorem storable_write_named (h : StorableKeys heap) (place : Nat) (name : String)
    (value : Option Datum) :
    StorableKeys (writeEntry heap place (.scalar (named name)) value) := by
  have hkey : exactKey (named name) := trivial
  exact storable_write h hkey

theorem closed_allocate (h : heap.Closed) : Heap.Closed (heap ++ [⟨∅, none⟩]) := by
  intro object hobject entry hentry
  rw [List.length_append]
  rcases List.mem_append.mp hobject with hold | hnew
  · have hwithin := h object hold entry hentry
    exact ⟨hwithin.1.mono (Nat.le_add_right _ _), hwithin.2.mono (Nat.le_add_right _ _)⟩
  · obtain rfl := List.mem_singleton.mp hnew
    simp at hentry

theorem storable_allocate (h : StorableKeys heap) : StorableKeys (heap ++ [⟨∅, none⟩]) := by
  intro object hobject entry hentry
  rcases List.mem_append.mp hobject with hold | hnew
  · exact h object hold entry hentry
  · obtain rfl := List.mem_singleton.mp hnew
    simp at hentry

end Fields

/-! ## Cutting the references -/

/-- A volume or a snapshot: its group has a name, and its other fields are scalars. -/
structure Record (heap : Heap μ) (place : Nat) : Prop where
  group : ∃ group name, heap.index (named "volume_group") (.table place) = some (.table group) ∧
    heap.index (named "name") (.table group) = some (.scalar (.string name))
  plain : ∀ key value, heap.index key (.table place) = some value →
    key ≠ named "volume_group" → key ≠ named "snapshots" → ∃ scalar, value = .scalar scalar
  snapshots : ∀ value, heap.index (named "snapshots") (.table place) = some value →
    ∃ list, value = .table list

def cutField (heap : Heap μ) (place : Nat) (key : Scalar) : Option Datum :=
  if key = named "volume_group" then
    (heap.index key (.table place)).bind (heap.index (named "name"))
  else if key = named "logical_volume" then none
  else heap.index key (.table place)

theorem Record.lt {heap : Heap μ} {place : Nat} (h : Record heap place) : place < heap.length := by
  obtain ⟨group, name, hgroup, -⟩ := h.group
  exact lt_of_index hgroup

structure Cut (before after : Heap μ) (place : Nat) : Prop where
  least : before.length ≤ after.length
  others : ∀ other < before.length, other ≠ place → after[other]? = before[other]?
  fields : ∀ key, key ≠ named "snapshots" →
    after.index key (.table place) = cutField before place key
  list : after.index (named "snapshots") (.table place) =
    (before.index (named "snapshots") (.table place)).map fun _ => .table before.length
  fresh : ∀ other, before.length ≤ other → other < after.length → after[other]? = some ⟨∅, none⟩
  room : before.index (named "snapshots") (.table place) ≠ none → before.length < after.length
  closed : before.Closed → after.Closed
  storable : StorableKeys before → StorableKeys after

theorem cut_ok {heap : Heap μ} {place : Nat} (h : Record heap place) :
    ∃ after, cut heap (.table place) = .ok after ∧ Cut heap after place := by
  obtain ⟨group, name, hgroup, hname⟩ := h.group
  have hplace := h.lt
  set first := writeEntry heap place (.scalar (named "volume_group"))
    (some (.scalar (.string name))) with hfirst
  set second := writeEntry first place (.scalar (named "logical_volume")) none with hsecond
  have hlength : second.length = heap.length := by simp [hsecond, hfirst]
  have hfields : ∀ key, second.index key (.table place) = cutField heap place key := by
    intro key
    rw [hsecond, index_write (by simpa [hfirst] using hplace), hfirst, index_write hplace, cutField]
    by_cases hlogical : key = named "logical_volume"
    · subst hlogical
      rw [if_pos rfl, if_neg (by decide), if_pos rfl]
    · rw [if_neg hlogical]
      split
      · rename_i hkey
        rw [hkey, hgroup, Option.bind_some, hname]
      · rfl
  have hsnapshots : second.index (named "snapshots") (.table place) =
      heap.index (named "snapshots") (.table place) := by
    rw [hfields, cutField, if_neg (by decide), if_neg (by decide)]
  have hothers : ∀ other, other ≠ place → second[other]? = heap[other]? := fun other hother => by
    rw [hsecond, write_ne hother, hfirst, write_ne hother]
  have hclosed : heap.Closed → second.Closed := fun hclosed =>
    closed_write (closed_write hclosed (by rintro _ ⟨⟩; trivial)) (by simp)
  have hstorable : StorableKeys heap → StorableKeys second := fun hkeys =>
    storable_write_named (storable_write_named hkeys _ _ _) _ _ _
  have hcut : cut heap (.table place) =
      (if truthy (heap.index (named "snapshots") (.table place)) then
        writeField (second ++ [⟨∅, none⟩]) "snapshots" (some (.table second.length)) (.table place)
      else .ok second) := by
    simp only [cut, readField, writeField, hgroup, hname, nonNil, ok_bind]
    rw [← hfirst, ← hsecond, hsnapshots]
  rw [hcut]
  cases hfound : heap.index (named "snapshots") (.table place) with
  | none =>
      refine ⟨second, rfl, hlength.ge, fun other _ => hothers other, fun key _ => hfields key, ?_,
        ?_, fun hne => absurd hfound hne, hclosed, hstorable⟩
      · rw [hsnapshots, hfound]
        rfl
      · intro other hlow hhigh
        omega
  | some value =>
      obtain ⟨list, rfl⟩ := h.snapshots value hfound
      have hallocated : place < (second ++ [(⟨∅, none⟩ : Object μ)]).length := by
        rw [List.length_append]
        omega
      have hkept : ∀ other < heap.length,
          (second ++ [(⟨∅, none⟩ : Object μ)])[other]? = second[other]? :=
        fun other hother => List.getElem?_append_left (hlength ▸ hother)
      refine ⟨writeEntry (second ++ [⟨∅, none⟩]) place (.scalar (named "snapshots"))
        (some (.table second.length)), rfl, ?_, ?_, ?_, ?_, ?_, ?_, ?_, ?_⟩
      · simp [hlength]
      · intro other hother hne
        rw [write_ne hne, hkept other hother, hothers other hne]
      · intro key hkey
        rw [index_write hallocated, if_neg hkey, index_congr (hkept place hplace), hfields]
      · rw [index_write hallocated, if_pos rfl, hfound, hlength]
        rfl
      · intro other hlow hhigh
        have hlast : other = second.length := by
          rw [length_write, List.length_append, List.length_singleton] at hhigh
          omega
        rw [write_ne (by omega), hlast, List.getElem?_append_right (Nat.le_refl _)]
        simp
      · intro _
        simp [hlength]
      · intro hheap
        refine closed_write (closed_allocate (hclosed hheap)) fun datum hdatum => ?_
        obtain rfl := Option.some.inj hdatum
        have hwithin : second.length < (second ++ [(⟨∅, none⟩ : Object μ)]).length := by simp
        exact hwithin
      · exact fun hheap => storable_write_named (storable_allocate (hstorable hheap)) _ _ _

structure Cutting (base : Heap μ) (done : List Nat) (heap : Heap μ) : Prop where
  least : base.length ≤ heap.length
  closed : heap.Closed
  storable : StorableKeys heap
  waiting : ∀ place < base.length, place ∉ done → heap[place]? = base[place]?
  fields : ∀ place ∈ done, ∀ key, key ≠ named "snapshots" →
    heap.index key (.table place) = cutField base place key
  lists : ∀ place ∈ done, heap.index (named "snapshots") (.table place) = none ∧
      base.index (named "snapshots") (.table place) = none ∨
    ∃ fresh, heap.index (named "snapshots") (.table place) = some (.table fresh) ∧
      base.length ≤ fresh ∧ heap[fresh]? = some ⟨∅, none⟩ ∧
      base.index (named "snapshots") (.table place) ≠ none
  apart : ∀ place ∈ done, ∀ other ∈ done, ∀ fresh,
    heap.index (named "snapshots") (.table place) = some (.table fresh) →
    heap.index (named "snapshots") (.table other) = some (.table fresh) → place = other

theorem Cutting.cut {base heap : Heap μ} {done : List Nat} {place : Nat}
    (h : Cutting base done heap) (hrecord : Record base place) (hnew : place ∉ done)
    (hdone : ∀ other ∈ done, other < base.length) :
    ∃ after, Shared.cut heap (.table place) = .ok after ∧ Cutting base (done ++ [place]) after := by
  have hplace := hrecord.lt
  have hsame := h.waiting place hplace hnew
  have hnames : ∀ group < base.length, heap.index (named "name") (.table group) =
      base.index (named "name") (.table group) := by
    intro group hgroup
    by_cases hin : group ∈ done
    · rw [h.fields group hin _ (by decide), cutField, if_neg (by decide), if_neg (by decide)]
    · exact index_congr (h.waiting group hgroup hin) _
  have hrecord' : Record heap place := by
    refine ⟨?_, fun key value hvalue => ?_, fun value hvalue => ?_⟩
    · obtain ⟨group, name, hgroup, hname⟩ := hrecord.group
      exact ⟨group, name, (index_congr hsame _).trans hgroup,
        (hnames group (lt_of_index hname)).trans hname⟩
    · exact hrecord.plain key value ((index_congr hsame key).symm.trans hvalue)
    · exact hrecord.snapshots value ((index_congr hsame _).symm.trans hvalue)
  obtain ⟨after, hrun, hcut⟩ := cut_ok hrecord'
  have hlt : place < heap.length := Nat.lt_of_lt_of_le hplace h.least
  have hleast := h.least
  have hkept : ∀ other ∈ done, after[other]? = heap[other]? := fun other hother =>
    hcut.others other (Nat.lt_of_lt_of_le (hdone other hother) hleast)
      fun heq => hnew (heq ▸ hother)
  have hown : cutField heap place = cutField base place := by
    funext key
    obtain ⟨group, name, hgroup, hname⟩ := hrecord.group
    rw [cutField, cutField, index_congr hsame]
    split
    · rename_i hkey
      rw [hkey, hgroup, Option.bind_some, Option.bind_some, hnames group (lt_of_index hname)]
    · rfl
  have hlist : ∀ other ∈ done, after.index (named "snapshots") (.table other) =
      heap.index (named "snapshots") (.table other) := fun other hother =>
    index_congr (hkept other hother) _
  -- The tables of the earlier rounds are in the heap already, that of this one is not.
  have hearlier : ∀ other ∈ done, ∀ fresh,
      heap.index (named "snapshots") (.table other) = some (.table fresh) →
      fresh < heap.length := by
    intro other hother fresh hfresh
    rcases h.lists other hother with ⟨hnone, -⟩ | ⟨found, hfound, -, hempty, -⟩
    · rw [hnone] at hfresh
      cases hfresh
    · obtain rfl : found = fresh := by simpa [hfound] using hfresh
      exact (List.getElem?_eq_some_iff.mp hempty).1
  have hlast : ∀ fresh, after.index (named "snapshots") (.table place) = some (.table fresh) →
      fresh = heap.length := by
    intro fresh hfresh
    rw [hcut.list] at hfresh
    obtain ⟨value, -, heq⟩ := Option.map_eq_some_iff.mp hfresh
    simpa using heq.symm
  refine ⟨after, hrun, hleast.trans hcut.least, hcut.closed h.closed, hcut.storable h.storable,
    ?_, ?_, ?_, ?_⟩
  · intro other hother hout
    rw [List.mem_append, not_or, List.mem_singleton] at hout
    rw [hcut.others other (by omega) hout.2, h.waiting other hother hout.1]
  · intro other hother key hkey
    rcases List.mem_append.mp hother with hold | hnow
    · rw [index_congr (hkept other hold), h.fields other hold key hkey]
    · obtain rfl := List.mem_singleton.mp hnow
      rw [hcut.fields key hkey, hown]
  · intro other hother
    rcases List.mem_append.mp hother with hold | hnow
    · rw [hlist other hold]
      rcases h.lists other hold with hnone | ⟨fresh, hfresh, hlow, hempty, hsome⟩
      · exact .inl hnone
      · refine .inr ⟨fresh, hfresh, hlow, ?_, hsome⟩
        have hne : fresh ≠ place := by omega
        rw [hcut.others fresh (hearlier other hold fresh hfresh) hne, hempty]
    · obtain rfl := List.mem_singleton.mp hnow
      rw [hcut.list, index_congr hsame]
      cases hfound : base.index (named "snapshots") (.table other) with
      | none => exact .inl ⟨rfl, rfl⟩
      | some value =>
          have hroom := hcut.room (by rw [index_congr hsame, hfound]; simp)
          exact .inr ⟨heap.length, rfl, hleast, hcut.fresh _ (Nat.le_refl _) hroom, by simp⟩
  · intro first hfirst second hsecond fresh hone hother
    rcases List.mem_append.mp hfirst with hold | hnow <;>
      rcases List.mem_append.mp hsecond with hold' | hnow'
    · rw [hlist first hold] at hone
      rw [hlist second hold'] at hother
      exact h.apart first hold second hold' fresh hone hother
    · obtain rfl := List.mem_singleton.mp hnow'
      rw [hlist first hold] at hone
      have hsmall := hearlier first hold fresh hone
      have hlarge := hlast fresh hother
      omega
    · obtain rfl := List.mem_singleton.mp hnow
      rw [hlist second hold'] at hother
      have hsmall := hearlier second hold' fresh hother
      have hlarge := hlast fresh hone
      omega
    · rw [List.mem_singleton.mp hnow, List.mem_singleton.mp hnow']

theorem Cutting.loop {base heap : Heap μ} {done : List Nat} {entries : List Entry}
    (placeOf : Entry → Nat) (h : Cutting base done heap)
    (hrecords : ∀ entry ∈ entries, entry.2 = .table (placeOf entry) ∧ Record base (placeOf entry))
    (hdone : ∀ place ∈ done, place < base.length)
    (hnodup : (done ++ entries.map placeOf).Nodup) :
    ∃ after, entries.foldlM (fun heap entry => Shared.cut heap entry.2) heap = .ok after ∧
      Cutting base (done ++ entries.map placeOf) after := by
  induction entries generalizing done heap with
  | nil => exact ⟨heap, rfl, by simpa using h⟩
  | cons entry entries ih =>
      simp only [List.forall_mem_cons] at hrecords
      obtain ⟨⟨hentry, hrecord⟩, hrest⟩ := hrecords
      have hnew : placeOf entry ∉ done := fun hin =>
        (List.nodup_append.mp hnodup).2.2 _ hin _ (by simp) rfl
      obtain ⟨next, hrun, hnext⟩ := h.cut hrecord hnew hdone
      obtain ⟨after, hafter, hcutting⟩ := ih hnext hrest
        (fun place hplace => (List.mem_append.mp hplace).elim (hdone place)
          fun hin => List.mem_singleton.mp hin ▸ hrecord.lt) (by simpa using hnodup)
      refine ⟨after, ?_, by simpa using hcutting⟩
      rw [List.foldlM_cons, hentry, hrun]
      exact hafter

/-! ## The tables of the list -/

structure Snapshot (heap : Heap μ) (place : Nat) : Prop extends Record heap place where
  device : ∃ name, heap.index (named "device") (.table place) = some (.scalar (.string name))
  single : heap.index (named "snapshots") (.table place) = none

structure Volume (heap : Heap μ) (place : Nat) : Prop extends Record heap place where
  list : ∃ list, heap.index (named "snapshots") (.table place) = some (.table list) ∧
    ∀ datum ∈ itemsAt heap list, ∃ snapshot, datum = .table snapshot ∧ Snapshot heap snapshot

/-- The tables that are sent, with their keys. -/
inductive Sent (heap : Heap μ) (root : Nat) : Scalar → Nat → Prop where
  | volume {key : Scalar} {place : Nat} :
      heap.index key (.table root) = some (.table place) → Sent heap root key place
  | snapshot {own key : Scalar} {volume list place : Nat} :
      heap.index own (.table root) = some (.table volume) →
      heap.index (named "snapshots") (.table volume) = some (.table list) →
      .table place ∈ itemsAt heap list →
      heap.index (named "device") (.table place) = some (.scalar key) → Sent heap root key place

/-- A list of volumes as `LogicalVolume.list` makes it: every volume is a table of its own,
and each device is that of one snapshot. -/
structure VolumeList (heap : Heap μ) (root : Nat) : Prop where
  inside : root < heap.length
  volumes : ∀ key value, heap.index key (.table root) = some value →
    ∃ place, value = .table place ∧ Volume heap place
  distinct : ∀ key other value, heap.index key (.table root) = some value →
    heap.index other (.table root) = some value → key = other
  single : ∀ key place other, Sent heap root key place → Sent heap root key other → place = other

section Lists

variable {heap : Heap μ} {root : Nat}

theorem VolumeList.volume (h : VolumeList heap root) {key : Scalar} {place : Nat}
    (hkey : heap.index key (.table root) = some (.table place)) : Volume heap place := by
  obtain ⟨other, heq, hvolume⟩ := h.volumes key _ hkey
  obtain rfl : place = other := by simpa using heq
  exact hvolume

theorem VolumeList.snapshot (h : VolumeList heap root) {own : Scalar} {volume list place : Nat}
    (hown : heap.index own (.table root) = some (.table volume))
    (hlist : heap.index (named "snapshots") (.table volume) = some (.table list))
    (hitem : .table place ∈ itemsAt heap list) : Snapshot heap place := by
  obtain ⟨other, hother, hitems⟩ := (h.volume hown).list
  obtain rfl : list = other := by simpa [hlist] using hother
  obtain ⟨snapshot, heq, hsnapshot⟩ := hitems _ hitem
  obtain rfl : place = snapshot := by simpa using heq
  exact hsnapshot

theorem Sent.record (h : VolumeList heap root) {key : Scalar} {place : Nat}
    (hsent : Sent heap root key place) : Record heap place := by
  cases hsent with
  | volume hkey => exact (h.volume hkey).toRecord
  | snapshot hown hlist hitem _ => exact (h.snapshot hown hlist hitem).toRecord

theorem Sent.key_unique (h : VolumeList heap root) {key other : Scalar} {place : Nat}
    (hkey : Sent heap root key place) (hother : Sent heap root other place) : key = other := by
  cases hkey with
  | volume hfirst =>
      cases hother with
      | volume hsecond => exact h.distinct _ _ _ hfirst hsecond
      | snapshot hown hlist hitem _ =>
          obtain ⟨list, hsome, -⟩ := (h.volume hfirst).list
          rw [(h.snapshot hown hlist hitem).single] at hsome
          cases hsome
  | snapshot hown hlist hitem hdevice =>
      cases hother with
      | volume hsecond =>
          obtain ⟨list, hsome, -⟩ := (h.volume hsecond).list
          rw [(h.snapshot hown hlist hitem).single] at hsome
          cases hsome
      | snapshot _ _ _ hdevice' =>
          rw [hdevice] at hdevice'
          simpa using hdevice'

/-! ## The snapshots beside the volumes -/

def outerPairs (heap : Heap μ) (entry : Entry) : List Entry :=
  entry :: (match heap.index (named "snapshots") entry.2 with
    | some (.table list) => (itemsAt heap list).map fun snapshot =>
        ⟨(heap.index (named "device") snapshot).getD snapshot, snapshot⟩
    | _ => [])

theorem write_last (table : Table Datum Datum) (key value : Datum) :
    writeEntry (heap ++ [⟨table, none⟩]) heap.length key (some value) =
      heap ++ [⟨table.insert key value, none⟩] := by
  refine List.ext_getElem? fun n => ?_
  rcases Nat.lt_trichotomy n heap.length with hlt | rfl | hgt
  · rw [write_ne (by omega), List.getElem?_append_left hlt, List.getElem?_append_left hlt]
  · rw [writeEntry, List.getElem?_modify_eq]
    simp [setEntry]
  · rw [write_ne (by omega), List.getElem?_append_right (by omega),
      List.getElem?_append_right (by omega), List.getElem?_eq_none (by simp; omega),
      List.getElem?_eq_none (by simp; omega)]

theorem index_append {place : Nat} (hplace : place < heap.length) (last : Object μ)
    (key : Scalar) : (heap ++ [last]).index key (.table place) = heap.index key (.table place) :=
  index_congr (List.getElem?_append_left hplace) key

theorem itemsAt_append {place : Nat} (hplace : place < heap.length) (last : Object μ) :
    itemsAt (heap ++ [last]) place = itemsAt heap place := by
  have hentries : Heap.entriesAt (heap ++ [last]) place = heap.entriesAt place := by
    rw [Heap.entriesAt, Heap.entriesAt, List.getElem?_append_left hplace]
  simp only [itemsAt, hentries, index_append hplace]

theorem addSnapshot_ok {place : Nat} (h : Snapshot heap place) (images : List Entry) :
    addSnapshot heap.length (heap ++ [⟨fill images, none⟩]) (.table place) =
      .ok (heap ++ [⟨fill (images ++
        [⟨(heap.index (named "device") (.table place)).getD (.table place), .table place⟩]),
          none⟩]) := by
  obtain ⟨name, hname⟩ := h.device
  rw [addSnapshot, readField, index_append h.toRecord.lt, hname, ok_bind, nonNil, ok_bind,
    write_last, Option.getD_some, fill_append]

theorem addVolume_ok (hclosed : heap.Closed) {key : Datum} {place : Nat} (h : Volume heap place)
    (images : List Entry) :
    addVolume heap.length (heap ++ [⟨fill images, none⟩]) ⟨key, .table place⟩ =
      .ok (heap ++ [⟨fill (images ++ outerPairs heap ⟨key, .table place⟩), none⟩]) := by
  obtain ⟨list, hlist, hitems⟩ := h.list
  have hplace := h.toRecord.lt
  have hinside : list < heap.length := by
    have hfollow : heap.follow [named "snapshots"] (.table place) = some (.table list) := by
      rw [Heap.follow, hlist]
      rfl
    have htable : (Datum.table place).Within heap.length := hplace
    exact Heap.follow_within hclosed htable hfollow
  have hloop : ∀ (snapshots : List Datum) (images : List Entry),
      (∀ datum ∈ snapshots, ∃ snapshot, datum = .table snapshot ∧ Snapshot heap snapshot) →
      snapshots.foldlM (addSnapshot heap.length) (heap ++ [⟨fill images, none⟩]) =
        .ok (heap ++ [⟨fill (images ++ snapshots.map fun snapshot =>
          ⟨(heap.index (named "device") snapshot).getD snapshot, snapshot⟩), none⟩]) := by
    intro snapshots
    induction snapshots with
    | nil =>
        intro images _
        simp [pure, Except.pure]
    | cons snapshot snapshots ih =>
        intro images hall
        simp only [List.forall_mem_cons] at hall
        obtain ⟨⟨place, rfl, hsnapshot⟩, hrest⟩ := hall
        rw [List.foldlM_cons, addSnapshot_ok hsnapshot, ok_bind, ih _ hrest, List.map_cons,
          List.append_assoc, List.singleton_append]
  have hwrite : writeEntry (heap ++ [⟨fill images, none⟩]) heap.length key
      (some (.table place)) = heap ++ [⟨(fill images).insert key (.table place), none⟩] :=
    write_last _ _ _
  have hpairs : outerPairs heap ⟨key, .table place⟩ = ⟨key, .table place⟩ ::
      (itemsAt heap list).map fun snapshot =>
        ⟨(heap.index (named "device") snapshot).getD snapshot, snapshot⟩ := by
    rw [outerPairs, hlist]
  have htruthy : truthy (some (.table list)) = true := rfl
  rw [addVolume, hwrite, ← fill_append images ⟨key, .table place⟩, readField, index_append hplace,
    hlist, ok_bind, if_pos htruthy, ipairs, itemsAt_append hinside, ok_bind, hloop _ _ hitems,
    hpairs, List.append_assoc, List.singleton_append]

def outerImages (order : Nat → Order) (heap : Heap μ) (root : Nat) : List Entry :=
  ((order root).visit (heap.entriesAt root)).flatMap (outerPairs heap)

theorem mem_entriesAt (hkeys : StorableKeys heap) {place : Nat} {entry : Entry} :
    entry ∈ heap.entriesAt place ↔
      ∃ key, entry.1 = .scalar key ∧ heap.index key (.table place) = some entry.2 := by
  have hindex : ∀ key, heap.index key (.table place) =
      heap[place]?.bind fun object => object.entries.lookup (.scalar key) := fun _ => rfl
  simp only [Heap.entriesAt, hindex]
  cases hobject : heap[place]? with
  | none => simp
  | some object =>
      simp only [Option.map_some, Option.getD_some, Option.bind_some]
      constructor
      · intro hentry
        obtain ⟨key, hkey, -⟩ := hkeys object (List.mem_of_getElem? hobject) entry hentry
        exact ⟨key, hkey, AList.mem_lookup_iff.mpr (hkey ▸ hentry)⟩
      · rintro ⟨key, hkey, hlookup⟩
        obtain ⟨index, value⟩ := entry
        subst hkey
        exact AList.mem_lookup_iff.mp hlookup

theorem mem_outerImages (hkeys : StorableKeys heap) (h : VolumeList heap root)
    {order : Nat → Order} {index value : Datum} :
    (⟨index, value⟩ : Entry) ∈ outerImages order heap root ↔
      ∃ key place, index = .scalar key ∧ value = .table place ∧ Sent heap root key place := by
  rw [outerImages, List.mem_flatMap]
  constructor
  · rintro ⟨⟨own, datum⟩, hentry, hin⟩
    obtain ⟨key, hkey, hindex⟩ := (mem_entriesAt hkeys).mp ((Order.mem_visit _).mp hentry)
    obtain ⟨volume, hdatum, hvolume⟩ := h.volumes key datum hindex
    change own = .scalar key at hkey
    subst hkey hdatum
    rcases List.mem_cons.mp hin with heq | hrest
    · cases heq
      exact ⟨key, volume, rfl, rfl, .volume hindex⟩
    · obtain ⟨list, hlist, hitems⟩ := hvolume.list
      simp only [hlist, List.mem_map] at hrest
      obtain ⟨snapshot, hitem, heq⟩ := hrest
      obtain ⟨place, rfl, hsnapshot⟩ := hitems _ hitem
      obtain ⟨device, hdevice⟩ := hsnapshot.device
      obtain ⟨hfirst, hsecond⟩ := Sigma.mk.inj heq
      rw [hdevice, Option.getD_some] at hfirst
      exact ⟨.string device, place, hfirst.symm, (eq_of_heq hsecond).symm,
        .snapshot hindex hlist hitem hdevice⟩
  · rintro ⟨key, place, rfl, rfl, hsent⟩
    have hentry : ∀ {own : Scalar} {volume : Nat},
        heap.index own (.table root) = some (.table volume) →
        (⟨.scalar own, .table volume⟩ : Entry) ∈ (order root).visit (heap.entriesAt root) :=
      fun hown => (Order.mem_visit _).mpr ((mem_entriesAt hkeys).mpr ⟨_, rfl, hown⟩)
    cases hsent with
    | volume hindex => exact ⟨_, hentry hindex, List.mem_cons_self⟩
    | snapshot hown hlist hitem hdevice =>
        refine ⟨_, hentry hown, List.mem_cons_of_mem _ ?_⟩
        simp only [hlist, List.mem_map]
        exact ⟨_, hitem, by rw [hdevice]; rfl⟩

theorem snapshotsToOuter_ok (order : Nat → Order) (hclosed : heap.Closed)
    (hkeys : StorableKeys heap) (h : VolumeList heap root) :
    snapshotsToOuter order heap (.table root) =
      .ok (.table heap.length, heap ++ [⟨fill (outerImages order heap root), none⟩]) := by
  obtain ⟨last, hrun, rfl⟩ : ∃ last, ((order root).visit (heap.entriesAt root)).foldlM
      (addVolume heap.length) (heap ++ [⟨∅, none⟩]) = Except.ok last ∧ last = heap ++
        [⟨fill (((order root).visit (heap.entriesAt root)).flatMap (outerPairs heap)), none⟩] :=
    foldlM_ok
    (fun done last => last = heap ++ [⟨fill (done.flatMap (outerPairs heap)), none⟩]) rfl
    fun done entry last hentry hlast => by
      obtain ⟨key, hkey, hindex⟩ := (mem_entriesAt hkeys).mp ((Order.mem_visit _).mp hentry)
      obtain ⟨volume, hdatum, hvolume⟩ := h.volumes key entry.2 hindex
      obtain ⟨index, datum⟩ := entry
      change datum = .table volume at hdatum
      subst hdatum
      rw [hlast]
      exact ⟨_, addVolume_ok hclosed hvolume _, by simp⟩
  rw [snapshotsToOuter, hrun]
  rfl

theorem index_outer (hkeys : StorableKeys heap) (h : VolumeList heap root) (order : Nat → Order)
    (key : Scalar) (value : Datum) :
    (heap ++ [(⟨fill (outerImages order heap root), none⟩ : Object μ)]).index key
        (.table heap.length) = some value ↔
      ∃ place, value = .table place ∧ Sent heap root key place := by
  have hlookup : (fill (outerImages order heap root)).lookup (.scalar key) = some value ↔
      (⟨.scalar key, value⟩ : Entry) ∈ outerImages order heap root :=
    lookup_fill (fun index first second hfirst hsecond => by
      obtain ⟨key, place, rfl, rfl, hsent⟩ := (mem_outerImages hkeys h).mp hfirst
      obtain ⟨key', other, heq, rfl, hsent'⟩ := (mem_outerImages hkeys h).mp hsecond
      obtain rfl : key = key' := by simpa using heq
      rw [h.single key place other hsent hsent']) (.scalar key) value
  rw [Heap.index, List.getElem?_append_right (Nat.le_refl _)]
  simp only [Nat.sub_self, List.getElem?_cons_zero, Option.bind_some]
  rw [hlookup, mem_outerImages hkeys h]
  constructor
  · rintro ⟨key', place, heq, rfl, hsent⟩
    obtain rfl : key = key' := by simpa using heq
    exact ⟨place, rfl, hsent⟩
  · rintro ⟨place, rfl, hsent⟩
    exact ⟨key, place, rfl, rfl, hsent⟩

/-! ## The list that is sent -/

def outerHeap (order : Nat → Order) (heap : Heap μ) (root : Nat) : Heap μ :=
  heap ++ [⟨fill (outerImages order heap root), none⟩]

def placeOf (entry : Entry) : Nat :=
  match entry.2 with
  | .table place => place
  | .scalar _ => 0

theorem Record.outer (order : Nat → Order) {place : Nat} (h : Record heap place) :
    Record (outerHeap order heap root) place := by
  have hplace := h.lt
  refine ⟨?_, fun key value hvalue => ?_, fun value hvalue => ?_⟩
  · obtain ⟨group, name, hgroup, hname⟩ := h.group
    exact ⟨group, name, (index_append hplace _ _).trans hgroup,
      (index_append (lt_of_index hname) _ _).trans hname⟩
  · exact h.plain key value ((index_append hplace _ key).symm.trans hvalue)
  · exact h.snapshots value ((index_append hplace _ _).symm.trans hvalue)

theorem Sent.exactKey (hkeys : StorableKeys heap) {key : Scalar} {place : Nat}
    (h : Sent heap root key place) (hlist : VolumeList heap root) : Web.exactKey key := by
  cases h with
  | volume hindex =>
      have hpair : (key, Datum.table place) ∈ heap.pairs (fun _ => Order.plain) root :=
        Heap.mem_pairs.mpr hindex
      exact exactKey_of_mem_pairs hkeys hpair
  | snapshot hown hlisted hitem hdevice =>
      obtain ⟨name, hname⟩ := (hlist.snapshot hown hlisted hitem).device
      obtain rfl : Scalar.string name = key := by simpa [hdevice] using hname.symm
      trivial

theorem mem_fill_outer (hkeys : StorableKeys heap) (h : VolumeList heap root)
    {order : Nat → Order} {entry : Entry}
    (hentry : entry ∈ (fill (outerImages order heap root)).entries) :
    ∃ key place, entry = ⟨.scalar key, .table place⟩ ∧ Sent heap root key place := by
  have hlookup := AList.mem_lookup_iff.mpr hentry
  rw [Option.mem_def, fill_eq] at hlookup
  rcases lookup_foldl_insert _ _ hlookup with hempty | hin
  · cases hempty
  · obtain ⟨image, himage, heq⟩ := List.mem_map.mp hin
    obtain ⟨hfirst, hsecond⟩ := Prod.mk.inj heq
    obtain ⟨key, place, hkey, hplace, hsent⟩ := (mem_outerImages hkeys h).mp himage
    refine ⟨key, place, ?_, hsent⟩
    rw [← hkey, ← hplace, hfirst, hsecond]

theorem closed_outer (order : Nat → Order) (hclosed : heap.Closed) (hkeys : StorableKeys heap)
    (h : VolumeList heap root) : (outerHeap order heap root).Closed := by
  intro object hobject entry hentry
  rw [outerHeap, List.length_append]
  rcases List.mem_append.mp hobject with hold | hnew
  · have hwithin := hclosed object hold entry hentry
    exact ⟨hwithin.1.mono (Nat.le_add_right _ _), hwithin.2.mono (Nat.le_add_right _ _)⟩
  · obtain rfl := List.mem_singleton.mp hnew
    obtain ⟨key, place, rfl, hsent⟩ := mem_fill_outer hkeys h hentry
    exact ⟨trivial, Nat.lt_of_lt_of_le (hsent.record h).lt (Nat.le_add_right _ _)⟩

theorem storable_outer (order : Nat → Order) (hkeys : StorableKeys heap)
    (h : VolumeList heap root) : StorableKeys (outerHeap order heap root) := by
  intro object hobject entry hentry
  rcases List.mem_append.mp hobject with hold | hnew
  · exact hkeys object hold entry hentry
  · obtain rfl := List.mem_singleton.mp hnew
    obtain ⟨key, place, rfl, hsent⟩ := mem_fill_outer hkeys h hentry
    exact ⟨key, rfl, hsent.exactKey hkeys h⟩

theorem cutAll_ok (order : Nat → Order) (hclosed : heap.Closed) (hkeys : StorableKeys heap)
    (h : VolumeList heap root) :
    ∃ final places, cutAll order (outerHeap order heap root) (.table heap.length) = .ok final ∧
      Cutting (outerHeap order heap root) places final ∧
      ∀ place, place ∈ places ↔ ∃ key, Sent heap root key place := by
  set images := outerImages order heap root with himages
  have hobject : (outerHeap order heap root)[heap.length]? = some ⟨fill images, none⟩ := by
    rw [outerHeap, List.getElem?_append_right (Nat.le_refl _)]
    simp [himages]
  have hentries : Heap.entriesAt (outerHeap order heap root) heap.length =
      (fill images).entries := by
    rw [Heap.entriesAt, hobject]
    rfl
  have hmem : ∀ entry ∈ (order heap.length).visit (fill images).entries,
      ∃ key place, entry = ⟨.scalar key, .table place⟩ ∧ Sent heap root key place :=
    fun entry hentry => mem_fill_outer hkeys h ((Order.mem_visit _).mp hentry)
  have hnodup : (((order heap.length).visit (fill images).entries).map placeOf).Nodup := by
    refine List.Nodup.map_on (fun first hfirst second hsecond heq => ?_)
      (((order heap.length).perm _).nodup_iff.mpr (AList.nodupKeys _).nodup)
    obtain ⟨key, place, rfl, hsent⟩ := hmem first hfirst
    obtain ⟨key', other, rfl, hsent'⟩ := hmem second hsecond
    obtain rfl : place = other := heq
    rw [hsent.key_unique h hsent']
  have hstart : Cutting (outerHeap order heap root) [] (outerHeap order heap root) :=
    ⟨Nat.le_refl _, closed_outer order hclosed hkeys h, storable_outer order hkeys h,
      fun _ _ _ => rfl, by simp, by simp, by simp⟩
  obtain ⟨final, hrun, hcutting⟩ := hstart.loop placeOf (fun entry hentry => by
    obtain ⟨key, place, rfl, hsent⟩ := hmem entry hentry
    exact ⟨rfl, (hsent.record h).outer order⟩) (by simp) (by simpa using hnodup)
  refine ⟨final, _, by rw [cutAll, hentries]; exact hrun, hcutting, fun place => ?_⟩
  rw [List.nil_append, List.mem_map]
  constructor
  · rintro ⟨entry, hentry, rfl⟩
    obtain ⟨key, place, rfl, hsent⟩ := hmem entry hentry
    exact ⟨key, hsent⟩
  · rintro ⟨key, hsent⟩
    have hindex := (index_outer hkeys h order key (.table place)).mpr ⟨place, rfl, hsent⟩
    rw [Heap.index, ← outerHeap, hobject, Option.bind_some] at hindex
    exact ⟨⟨.scalar key, .table place⟩, (Order.mem_visit _).mpr (AList.mem_lookup_iff.mp hindex),
      rfl⟩

/-- What a page has of a field of a record: a scalar in its digits, or that there is a
table. -/
def shownField (heap : Heap μ) (place : Nat) (field : Scalar) : Option (Option Scalar) :=
  (if field = named "snapshots" then heap.index field (.table place)
    else cutField heap place field).map fun datum => datum.key.map roundScalar

theorem cutField_outer (order : Nat → Order) {place : Nat} (h : Record heap place)
    (field : Scalar) : cutField (outerHeap order heap root) place field =
      cutField heap place field := by
  obtain ⟨group, name, hgroup, hname⟩ := h.group
  rw [cutField, cutField, outerHeap, index_append h.lt]
  split
  · rename_i hfield
    rw [hfield, hgroup, Option.bind_some, Option.bind_some, index_append (lt_of_index hname)]
  · rfl

section Final

variable {order : Nat → Order} {final : Heap μ} {places : List Nat}

theorem shown_final (h : VolumeList heap root)
    (hcutting : Cutting (outerHeap order heap root) places final)
    (hplaces : ∀ place, place ∈ places ↔ ∃ key, Sent heap root key place) {key : Scalar}
    {place : Nat} (hsent : Sent heap root key place) (field : Scalar) :
    (final.index field (.table place)).map (fun datum => datum.key.map roundScalar) =
      shownField heap place field := by
  have hrecord := hsent.record h
  have hin := (hplaces place).mpr ⟨key, hsent⟩
  unfold shownField
  split
  · rename_i hfield
    subst hfield
    have hsame : (outerHeap order heap root).index (named "snapshots") (.table place) =
        heap.index (named "snapshots") (.table place) := index_append hrecord.lt _ _
    rcases hcutting.lists place hin with ⟨hnone, hbase⟩ | ⟨fresh, hfresh, -, -, hbase⟩
    · rw [hnone, ← hsame, hbase]
    · cases hfound : heap.index (named "snapshots") (.table place) with
      | none => exact absurd (hsame.trans hfound) hbase
      | some value =>
          obtain ⟨list, rfl⟩ := hrecord.snapshots value hfound
          rw [hfresh]
          rfl
  · rename_i hfield
    rw [hcutting.fields place hin field hfield, cutField_outer order hrecord]

theorem table_final (h : VolumeList heap root)
    (hcutting : Cutting (outerHeap order heap root) places final)
    (hplaces : ∀ place, place ∈ places ↔ ∃ key, Sent heap root key place) {key : Scalar}
    {place : Nat} (hsent : Sent heap root key place) {field : Scalar} {found : Nat}
    (hfield : final.index field (.table place) = some (.table found)) :
    field = named "snapshots" ∧ heap.length < found ∧ final[found]? = some ⟨∅, none⟩ := by
  have hrecord := hsent.record h
  have hin := (hplaces place).mpr ⟨key, hsent⟩
  by_cases hname : field = named "snapshots"
  · subst hname
    rcases hcutting.lists place hin with ⟨hnone, -⟩ | ⟨fresh, hfresh, hlow, hempty, -⟩
    · rw [hnone] at hfield
      cases hfield
    · obtain rfl : fresh = found := by simpa [hfresh] using hfield
      rw [outerHeap, List.length_append] at hlow
      exact ⟨rfl, hlow, hempty⟩
  · rw [hcutting.fields place hin field hname, cutField_outer order hrecord, cutField] at hfield
    split at hfield
    · rename_i hgroup
      obtain ⟨group, name, hfound, hnamed⟩ := hrecord.group
      rw [hgroup, hfound, Option.bind_some, hnamed] at hfield
      simp at hfield
    · rename_i hgroup
      split at hfield
      · cases hfield
      · obtain ⟨scalar, heq⟩ := hrecord.plain field _ hfield hgroup hname
        cases heq

theorem index_final_outer (hkeys : StorableKeys heap) (h : VolumeList heap root)
    (hcutting : Cutting (outerHeap order heap root) places final)
    (hplaces : ∀ place, place ∈ places ↔ ∃ key, Sent heap root key place) (key : Scalar)
    (value : Datum) : final.index key (.table heap.length) = some value ↔
      ∃ place, value = .table place ∧ Sent heap root key place := by
  have hout : heap.length ∉ places := by
    intro hin
    obtain ⟨other, hsent⟩ := (hplaces _).mp hin
    exact absurd (hsent.record h).lt (Nat.lt_irrefl _)
  have hsame := hcutting.waiting heap.length (by simp [outerHeap]) hout
  rw [index_congr hsame]
  exact index_outer hkeys h order key value

inductive Reached (final heap : Heap μ) (root : Nat) : List Scalar → Nat → Prop where
  | outer : Reached final heap root [] heap.length
  | record {key : Scalar} {place : Nat} :
      Sent heap root key place → Reached final heap root [key] place
  | list {key : Scalar} {place found : Nat} :
      Sent heap root key place →
      final.index (named "snapshots") (.table place) = some (.table found) →
      heap.length < found → Reached final heap root [key, named "snapshots"] found

theorem reached_of_follow (hkeys : StorableKeys heap) (h : VolumeList heap root)
    (hcutting : Cutting (outerHeap order heap root) places final)
    (hplaces : ∀ place, place ∈ places ↔ ∃ key, Sent heap root key place) {path : List Scalar}
    {found : Nat} (hfollow : final.follow path (.table heap.length) = some (.table found)) :
    Reached final heap root path found := by
  cases path with
  | nil =>
      obtain rfl : heap.length = found := by simpa [Heap.follow] using hfollow
      exact .outer
  | cons key path =>
      rw [Heap.follow, Option.bind_eq_some_iff] at hfollow
      obtain ⟨value, hvalue, hfollow⟩ := hfollow
      obtain ⟨place, rfl, hsent⟩ := (index_final_outer hkeys h hcutting hplaces key value).mp hvalue
      cases path with
      | nil =>
          obtain rfl : place = found := by simpa [Heap.follow] using hfollow
          exact .record hsent
      | cons field path =>
          rw [Heap.follow, Option.bind_eq_some_iff] at hfollow
          obtain ⟨value, hfield, hfollow⟩ := hfollow
          cases value with
          | scalar value => cases path <;> cases hfollow
          | table other =>
              obtain ⟨rfl, hlow, hempty⟩ := table_final h hcutting hplaces hsent hfield
              cases path with
              | nil =>
                  obtain rfl : other = found := by simpa [Heap.follow] using hfollow
                  exact .list hsent hfield hlow
              | cons last path =>
                  rw [Heap.follow, Option.bind_eq_some_iff] at hfollow
                  obtain ⟨value, hlast, -⟩ := hfollow
                  rw [Heap.index, hempty] at hlast
                  simp at hlast

theorem unshared_final (hkeys : StorableKeys heap) (h : VolumeList heap root)
    (hcutting : Cutting (outerHeap order heap root) places final)
    (hplaces : ∀ place, place ∈ places ↔ ∃ key, Sent heap root key place) :
    final.Unshared (.table heap.length) := by
  intro path other found hpath hother
  have hfirst := reached_of_follow hkeys h hcutting hplaces hpath
  have hsecond := reached_of_follow hkeys h hcutting hplaces hother
  have hrecord : ∀ {key : Scalar} {place : Nat}, Sent heap root key place →
      place < heap.length := fun hsent => (hsent.record h).lt
  cases hfirst with
  | outer =>
      cases hsecond with
      | outer => rfl
      | record hsent => exact absurd (hrecord hsent) (Nat.lt_irrefl _)
      | list _ _ hlow => exact absurd hlow (Nat.lt_irrefl _)
  | record hsent =>
      cases hsecond with
      | outer => exact absurd (hrecord hsent) (Nat.lt_irrefl _)
      | record hsent' => rw [hsent.key_unique h hsent']
      | list _ _ hlow => exact absurd (hrecord hsent) (Nat.lt_asymm hlow)
  | list hsent hlist hlow =>
      cases hsecond with
      | outer => exact absurd hlow (Nat.lt_irrefl _)
      | record hsent' => exact absurd (hrecord hsent') (Nat.lt_asymm hlow)
      | list hsent' hlist' _ =>
          have hsame := hcutting.apart _ ((hplaces _).mpr ⟨_, hsent⟩) _
            ((hplaces _).mpr ⟨_, hsent'⟩) found hlist hlist'
          subst hsame
          rw [hsent.key_unique h hsent']

end Final

end Lists

/-! ## The copy of the list -/

section Copy

variable {getmetatable : μ → μ} {heap grown : Heap μ} {root : Nat} {copied : Datum}
  {copyOf : Nat → Nat}

theorem index_of_mem_itemsAt {list : Nat} {datum : Datum} (h : datum ∈ itemsAt heap list) :
    ∃ key, heap.index key (.table list) = some datum := by
  obtain ⟨found, hfound, heq⟩ := List.mem_filterMap.mp h
  obtain ⟨i, -, hi⟩ := List.mem_map.mp ((List.takeWhile_sublist _).subset hfound)
  exact ⟨_, hi.trans heq⟩

theorem Sent.reaches {key : Scalar} {place : Nat}
    (hsent : Sent heap root key place) : heap.Reaches (.table root) place := by
  have hroot : heap.Reaches (.table root) root := .refl
  cases hsent with
  | volume hindex => exact hroot.next (Heap.refers_of_index hindex)
  | snapshot hown hlisted hitem _ =>
      obtain ⟨key, hkey⟩ := index_of_mem_itemsAt hitem
      exact ((hroot.next (Heap.refers_of_index hown)).next (Heap.refers_of_index hlisted)).next
        (Heap.refers_of_index hkey)

section Transport

variable (h : CopyOf getmetatable heap (.table root) copied grown copyOf)
include h

theorem itemsAt_copy {list : Nat} (hlist : list < heap.length)
    (hreaches : heap.Reaches (.table root) list) :
    itemsAt grown (copyOf list) = (itemsAt heap list).map (Datum.rename copyOf) := by
  have hobject := List.getElem?_eq_getElem hlist
  obtain ⟨other, hother, -, hentries⟩ := h.entries list _ hreaches hobject
  have hlength : (grown.entriesAt (copyOf list)).length = (heap.entriesAt list).length := by
    rw [Heap.entriesAt, Heap.entriesAt, hother, hobject]
    simpa using hentries.length_eq
  rw [itemsAt, itemsAt, hlength]
  generalize (List.range (heap.entriesAt list).length) = range
  induction range with
  | nil => rfl
  | cons i range ih =>
      rw [List.map_cons, List.map_cons, index_copy h hlist hreaches, List.takeWhile_cons,
        List.takeWhile_cons, Option.isSome_map]
      cases heap.index (.number (i + 1 : Nat)) (.table list) with
      | none => rfl
      | some datum =>
          simp only [Option.isSome_some, if_true, Option.map_some, List.filterMap_cons, id,
            List.map_cons]
          exact congrArg (Datum.rename copyOf datum :: ·) ih

theorem Record.copy {place : Nat} (hreaches : heap.Reaches (.table root) place)
    (hrecord : Record heap place) : Record grown (copyOf place) := by
  have hindex := index_copy h hrecord.lt hreaches
  refine ⟨?_, fun key value hvalue hgroup hsnapshots => ?_, fun value hvalue => ?_⟩
  · obtain ⟨group, name, hgroup, hname⟩ := hrecord.group
    refine ⟨copyOf group, name, by rw [hindex, hgroup]; rfl, ?_⟩
    rw [index_copy h (lt_of_index hname) (hreaches.next (Heap.refers_of_index hgroup)), hname]
    rfl
  · rw [hindex, Option.map_eq_some_iff] at hvalue
    obtain ⟨datum, hdatum, rfl⟩ := hvalue
    obtain ⟨scalar, rfl⟩ := hrecord.plain key datum hdatum hgroup hsnapshots
    exact ⟨scalar, rfl⟩
  · rw [hindex, Option.map_eq_some_iff] at hvalue
    obtain ⟨datum, hdatum, rfl⟩ := hvalue
    obtain ⟨list, rfl⟩ := hrecord.snapshots datum hdatum
    exact ⟨copyOf list, rfl⟩

theorem Snapshot.copy {place : Nat} (hreaches : heap.Reaches (.table root) place)
    (hsnapshot : Snapshot heap place) : Snapshot grown (copyOf place) := by
  have hindex := index_copy h hsnapshot.toRecord.lt hreaches
  refine ⟨hsnapshot.toRecord.copy h hreaches, ?_, ?_⟩
  · obtain ⟨name, hname⟩ := hsnapshot.device
    exact ⟨name, by rw [hindex, hname]; rfl⟩
  · rw [hindex, hsnapshot.single]
    rfl

theorem Volume.copy (hclosed : heap.Closed) {place : Nat}
    (hreaches : heap.Reaches (.table root) place) (hvolume : Volume heap place) :
    Volume grown (copyOf place) := by
  obtain ⟨list, hlist, hitems⟩ := hvolume.list
  have hrefers := Heap.refers_of_index hlist
  have hlisted := hreaches.next hrefers
  refine ⟨hvolume.toRecord.copy h hreaches, copyOf list, ?_, fun datum hdatum => ?_⟩
  · rw [index_copy h hvolume.toRecord.lt hreaches, hlist]
    rfl
  · rw [itemsAt_copy h (hclosed.refers hrefers) hlisted] at hdatum
    obtain ⟨item, hitem, rfl⟩ := List.mem_map.mp hdatum
    obtain ⟨snapshot, rfl, hsnapshot⟩ := hitems item hitem
    obtain ⟨key, hkey⟩ := index_of_mem_itemsAt hitem
    exact ⟨copyOf snapshot, rfl, hsnapshot.copy h (hlisted.next (Heap.refers_of_index hkey))⟩

theorem rename_injective {first second : Datum}
    (hfirst : ∀ place, first = .table place → heap.Reaches (.table root) place)
    (hsecond : ∀ place, second = .table place → heap.Reaches (.table root) place)
    (heq : first.rename copyOf = second.rename copyOf) : first = second := by
  cases first with
  | scalar value =>
      cases second with
      | scalar other => exact heq
      | table other => cases heq
  | table place =>
      cases second with
      | scalar other => cases heq
      | table other =>
          have hplaces : copyOf place = copyOf other := by simpa [Datum.rename] using heq
          rw [h.bijective.injOn (hfirst place rfl) (hsecond other rfl) hplaces]

theorem sent_copy_iff (hclosed : heap.Closed) (hlist : VolumeList heap root) {key : Scalar}
    {place : Nat} : Sent grown (copyOf root) key place ↔
      ∃ source, place = copyOf source ∧ Sent heap root key source := by
  have hroot : heap.Reaches (.table root) root := .refl
  have hindex := index_copy h hlist.inside hroot
  constructor
  · intro hsent
    cases hsent with
    | volume hvolume =>
        rw [hindex, Option.map_eq_some_iff] at hvolume
        obtain ⟨datum, hdatum, heq⟩ := hvolume
        obtain ⟨source, rfl, -⟩ := hlist.volumes key datum hdatum
        exact ⟨source, by simpa [Datum.rename] using heq.symm, .volume hdatum⟩
    | @snapshot own _ volume list _ hown hlisted hitem hdevice =>
        rw [hindex, Option.map_eq_some_iff] at hown
        obtain ⟨datum, hdatum, heq⟩ := hown
        obtain ⟨source, rfl, hvolume⟩ := hlist.volumes own datum hdatum
        obtain rfl : copyOf source = volume := by simpa [Datum.rename] using heq
        have hsource := hroot.next (Heap.refers_of_index hdatum)
        obtain ⟨items, hitems, hsnapshots⟩ := hvolume.list
        have hrefers := Heap.refers_of_index hitems
        rw [index_copy h hvolume.toRecord.lt hsource, hitems] at hlisted
        obtain rfl : copyOf items = list := by simpa [Datum.rename] using hlisted
        rw [itemsAt_copy h (hclosed.refers hrefers) (hsource.next hrefers)] at hitem
        obtain ⟨item, hin, hrenamed⟩ := List.mem_map.mp hitem
        obtain ⟨snapshot, rfl, hsnapshot⟩ := hsnapshots item hin
        obtain rfl : copyOf snapshot = place := by simpa [Datum.rename] using hrenamed
        obtain ⟨number, hnumber⟩ := index_of_mem_itemsAt hin
        rw [index_copy h hsnapshot.toRecord.lt
          ((hsource.next hrefers).next (Heap.refers_of_index hnumber))] at hdevice
        obtain ⟨name, hname⟩ := hsnapshot.device
        rw [hname] at hdevice
        obtain rfl : .string name = key := by simpa [Datum.rename] using hdevice
        exact ⟨snapshot, rfl, .snapshot hdatum hitems hin hname⟩
  · rintro ⟨source, rfl, hsent⟩
    cases hsent with
    | volume hvolume => exact .volume (by rw [hindex, hvolume]; rfl)
    | @snapshot own _ volume list _ hown hlisted hitem hdevice =>
        have hvolume := hlist.volume hown
        have hreaches := hroot.next (Heap.refers_of_index hown)
        have hrefers := Heap.refers_of_index hlisted
        obtain ⟨number, hnumber⟩ := index_of_mem_itemsAt hitem
        have hsnapshot := hlist.snapshot hown hlisted hitem
        have hown' : grown.index own (.table (copyOf root)) =
            some (.table (copyOf volume)) := by
          rw [hindex, hown]
          rfl
        have hlisted' : grown.index (named "snapshots") (.table (copyOf volume)) =
            some (.table (copyOf list)) := by
          rw [index_copy h hvolume.toRecord.lt hreaches, hlisted]
          rfl
        have hitem' : Datum.table (copyOf source) ∈ itemsAt grown (copyOf list) := by
          rw [itemsAt_copy h (hclosed.refers hrefers) (hreaches.next hrefers)]
          exact List.mem_map.mpr ⟨_, hitem, rfl⟩
        refine .snapshot hown' hlisted' hitem' ?_
        rw [index_copy h hsnapshot.toRecord.lt
          ((hreaches.next hrefers).next (Heap.refers_of_index hnumber)), hdevice]
        rfl

theorem VolumeList.copy (hclosed : heap.Closed) (hlist : VolumeList heap root) :
    VolumeList grown (copyOf root) := by
  have hroot : heap.Reaches (.table root) root := .refl
  have hindex := index_copy h hlist.inside hroot
  have htable : ∀ key value, heap.index key (.table root) = some value → ∀ place,
      value = .table place → heap.Reaches (.table root) place := by
    rintro key _ hvalue place rfl
    exact hroot.next (Heap.refers_of_index hvalue)
  refine ⟨(h.bijective.mapsTo hroot).2, fun key value hvalue => ?_,
    fun key other value hkey hother => ?_, fun key place other hplace hother => ?_⟩
  · rw [hindex, Option.map_eq_some_iff] at hvalue
    obtain ⟨datum, hdatum, rfl⟩ := hvalue
    obtain ⟨place, rfl, hvolume⟩ := hlist.volumes key datum hdatum
    exact ⟨copyOf place, rfl, hvolume.copy h hclosed (hroot.next (Heap.refers_of_index hdatum))⟩
  · rw [hindex, Option.map_eq_some_iff] at hkey hother
    obtain ⟨first, hfirst, hrenamed⟩ := hkey
    obtain ⟨second, hsecond, hrenamed'⟩ := hother
    have hsame := rename_injective h (htable key first hfirst) (htable other second hsecond)
      (hrenamed.trans hrenamed'.symm)
    exact hlist.distinct key other first hfirst (hsame ▸ hsecond)
  · obtain ⟨first, rfl, hfirst⟩ := (sent_copy_iff h hclosed hlist).mp hplace
    obtain ⟨second, rfl, hsecond⟩ := (sent_copy_iff h hclosed hlist).mp hother
    rw [hlist.single key first second hfirst hsecond]

theorem shownField_copy {place : Nat} (hreaches : heap.Reaches (.table root) place)
    (hrecord : Record heap place) (field : Scalar) :
    shownField grown (copyOf place) field = shownField heap place field := by
  have hindex := index_copy h hrecord.lt hreaches
  have hkeys : ∀ found : Option Datum, (found.map (Datum.rename copyOf)).map
      (fun datum => datum.key.map roundScalar) =
        found.map fun datum => datum.key.map roundScalar := by
    intro found
    cases found with
    | none => rfl
    | some datum => rw [Option.map_some, Option.map_some, Option.map_some, key_rename]
  unfold shownField
  split
  · rw [hindex, hkeys]
  · rw [cutField, cutField, hindex]
    split
    · rename_i hfield
      obtain ⟨group, name, hgroup, hname⟩ := hrecord.group
      rw [hfield, hgroup, Option.map_some, Option.bind_some, Option.bind_some, Datum.rename,
        index_copy h (lt_of_index hname) (hreaches.next (Heap.refers_of_index hgroup)), hkeys]
    · split
      · rfl
      · rw [hkeys]

theorem object_of_grown (hclosed : heap.Closed) (hroot : root < heap.length)
    {object : Object μ} (hobject : object ∈ grown) : object ∈ heap ∨
    ∃ place source, heap.Reaches (.table root) place ∧ heap[place]? = some source ∧
      object.entries.entries.Perm (source.entries.entries.map (Entry.rename copyOf)) := by
  obtain ⟨n, hn⟩ := List.mem_iff_getElem?.mp hobject
  have hbound := (List.getElem?_eq_some_iff.mp hn).1
  by_cases hold : n < heap.length
  · have hkept := List.prefix_iff_getElem?.mp h.kept n hold
    rw [hkept, Option.some.injEq] at hn
    exact .inl (hn ▸ List.getElem_mem hold)
  · obtain ⟨place, hreaches, rfl⟩ := h.bijective.surjOn ⟨not_lt.mp hold, hbound⟩
    have htable : (Datum.table root).Within heap.length := hroot
    have hsource := List.getElem?_eq_getElem (hclosed.reaches htable hreaches)
    obtain ⟨other, hother, -, hentries⟩ := h.entries place _ hreaches hsource
    obtain rfl : other = object := Option.some.inj (hother.symm.trans hn)
    exact .inr ⟨place, _, hreaches, hsource, hentries⟩

theorem closed_copy (hclosed : heap.Closed) (hroot : root < heap.length) : grown.Closed := by
  have hlength := h.kept.length_le
  intro object hobject entry hentry
  rcases object_of_grown h hclosed hroot hobject with
    hold | ⟨place, source, hreaches, hsource, hperm⟩
  · have hwithin := hclosed object hold entry hentry
    exact ⟨hwithin.1.mono hlength, hwithin.2.mono hlength⟩
  · obtain ⟨original, horiginal, rfl⟩ := List.mem_map.mp (hperm.mem_iff.mp hentry)
    have hrenamed : ∀ datum, (datum = original.1 ∨ datum = original.2) →
        (datum.rename copyOf).Within grown.length := by
      intro datum hdatum
      cases datum with
      | scalar value => trivial
      | table next =>
          have hrefers : heap.Refers place next := by
            refine ⟨source, hsource, original, horiginal, ?_⟩
            rcases hdatum with hkey | hvalue
            · exact .inl hkey.symm
            · exact .inr hvalue.symm
          exact (h.bijective.mapsTo (hreaches.next hrefers)).2
    exact ⟨hrenamed _ (.inl rfl), hrenamed _ (.inr rfl)⟩

theorem storable_copy (hclosed : heap.Closed) (hroot : root < heap.length)
    (hkeys : StorableKeys heap) : StorableKeys grown := by
  intro object hobject entry hentry
  rcases object_of_grown h hclosed hroot hobject with hold | ⟨place, source, -, hsource, hperm⟩
  · exact hkeys object hold entry hentry
  · obtain ⟨original, horiginal, rfl⟩ := List.mem_map.mp (hperm.mem_iff.mp hentry)
    obtain ⟨key, hkey, hexact⟩ := hkeys source (List.mem_of_getElem? hsource) original horiginal
    exact ⟨key, by rw [Entry.rename, hkey]; rfl, hexact⟩

end Transport

end Copy

/-! ## The text of the volumes -/

section Sending

variable {heap : Heap μ} {root : Nat}

theorem sharedGroup_refused (order : Nat → Order) (border : Nat → Nat) (hclosed : heap.Closed)
    (hkeys : StorableKeys heap) (hroot : root < heap.length) {depth : Nat}
    (hdepth : heap.length < depth) {key other : Scalar} {first second group : Nat}
    (hne : key ≠ other) (hfirst : heap.index key (.table root) = some (.table first))
    (hsecond : heap.index other (.table root) = some (.table second))
    (hgroup : heap.index (named "volume_group") (.table first) = some (.table group))
    (hsame : heap.index (named "volume_group") (.table second) = some (.table group)) :
    serializeData order border heap depth (.table root) = .error recursionDetected := by
  have htable : (Datum.table root).Within heap.length := hroot
  refine (serializeData_restores order border hclosed hkeys htable hdepth).2 fun hunshared => ?_
  have hpath : ∀ {key : Scalar} {volume : Nat},
      heap.index key (.table root) = some (.table volume) →
      heap.index (named "volume_group") (.table volume) = some (.table group) →
      heap.follow [key, named "volume_group"] (.table root) = some (.table group) := by
    intro key volume hvolume hfound
    rw [Heap.follow, hvolume, Option.bind_some, Heap.follow, hfound]
    rfl
  have heq := hunshared _ _ group (hpath hfirst hgroup) (hpath hsecond hsame)
  exact hne (List.cons_eq_cons.mp heq).1

/-- The workarounds of `caller` on a list of volumes: they return, leave the tables of the
page as they are, and make a list that is written out, whose restored value has exactly the
volumes and their snapshots under their keys, each with its own scalar fields but
`logical_volume`, the name of its group and, where it had snapshots, an empty list.  Without
them two volumes of one group are refused. -/
theorem volumes_restored (getmetatable : μ → μ) (order : Nat → Order) (border : Nat → Nat)
    (hclosed : heap.Closed) (hkeys : StorableKeys heap) (hlist : VolumeList heap root)
    {depth : Nat} (hdepth : heap.length < depth) :
    (∃ outer final, logicalVolumesForSerialization order getmetatable depth heap (.table root) =
        .ok (outer, final) ∧ heap <+: final ∧
      ∀ deep, final.length < deep → ∃ text restored,
        serializeData order border final deep outer = .ok text ∧
        restoreData text = some (some restored) ∧
        (∀ key, (restored.follow [key]).isSome ↔ ∃ place, Sent heap root key place) ∧
        ∀ key place, Sent heap root key place → ∀ field,
          (restored.follow [key, field]).map Value.leaf = shownField heap place field ∧
          ∀ index, restored.follow [key, field, index] = none) ∧
    ∀ key other first second group, key ≠ other →
      heap.index key (.table root) = some (.table first) →
      heap.index other (.table root) = some (.table second) →
      heap.index (named "volume_group") (.table first) = some (.table group) →
      heap.index (named "volume_group") (.table second) = some (.table group) →
      serializeData order border heap depth (.table root) = .error recursionDetected := by
  refine ⟨?_, fun key other first second group hne hfirst hsecond hgroup hsame =>
    sharedGroup_refused order border hclosed hkeys hlist.inside hdepth hne hfirst hsecond hgroup
      hsame⟩
  have hroot : (Datum.table root).Within heap.length := hlist.inside
  obtain ⟨copied, grown, copyOf, hcopy, h⟩ := deepcopy_copies getmetatable order hclosed hroot
    hdepth
  have hclosed' := closed_copy h hclosed hlist.inside
  have hkeys' := storable_copy h hclosed hlist.inside hkeys
  have hlist' := hlist.copy h hclosed
  obtain ⟨final, places, hcut, hcutting, hplaces⟩ := cutAll_ok order hclosed' hkeys' hlist'
  have hunshared := unshared_final hkeys' hlist' hcutting hplaces
  have hindex := index_final_outer hkeys' hlist' hcutting hplaces
  have hlength : grown.length < final.length := by
    have hleast := hcutting.least
    rw [outerHeap, List.length_append, List.length_singleton] at hleast
    omega
  refine ⟨.table grown.length, final, ?_, ?_, fun deep hdeep => ?_⟩
  · have houter := snapshotsToOuter_ok order hclosed' hkeys' hlist'
    simp only [logicalVolumesForSerialization, hcopy, h.root, Datum.rename, ok_bind, houter]
    rw [← outerHeap, hcut]
    rfl
  · -- The records that are cut are copies.
    rw [List.prefix_iff_getElem?]
    intro place hplace
    have hgrown := List.prefix_iff_getElem?.mp h.kept place hplace
    have hsmall := Nat.lt_of_lt_of_le hplace h.kept.length_le
    have hout : place ∉ places := by
      intro hin
      obtain ⟨key, hsent⟩ := (hplaces place).mp hin
      obtain ⟨source, rfl, hsource⟩ := (sent_copy_iff h hclosed hlist).mp hsent
      have hlow := (h.bijective.mapsTo hsource.reaches).1
      omega
    rw [hcutting.waiting place (by simp [outerHeap]; omega) hout, outerHeap,
      List.getElem?_append_left hsmall, hgrown]
  · obtain ⟨text, restored, hwritten, hrestored, hshown⟩ :=
      (serializeData_restores order border hcutting.closed hcutting.storable
        (show (Datum.table grown.length).Within final.length from hlength) hdeep).1 hunshared
    refine ⟨text, restored, hwritten, hrestored, fun key => ?_, fun key place hsent field => ?_⟩
    · have hkey := congrArg Option.isSome (hshown [key])
      rw [Option.isSome_map, Option.isSome_map] at hkey
      have hfollow : final.follow [key] (.table grown.length) =
          final.index key (.table grown.length) := by
        rw [Heap.follow]
        cases final.index key (.table grown.length) <;> rfl
      rw [hkey, hfollow, Option.isSome_iff_exists]
      constructor
      · rintro ⟨value, hvalue⟩
        obtain ⟨place, -, hsent⟩ := (hindex key value).mp hvalue
        obtain ⟨source, -, hsource⟩ := (sent_copy_iff h hclosed hlist).mp hsent
        exact ⟨source, hsource⟩
      · rintro ⟨source, hsource⟩
        exact ⟨_, (hindex key _).mpr ⟨copyOf source, rfl,
          (sent_copy_iff h hclosed hlist).mpr ⟨source, rfl, hsource⟩⟩⟩
    · have hsent' : Sent grown (copyOf root) key (copyOf place) :=
        (sent_copy_iff h hclosed hlist).mpr ⟨place, rfl, hsent⟩
      have hfollow : ∀ path, final.follow (key :: field :: path) (.table grown.length) =
          (final.index field (.table (copyOf place))).bind (final.follow path) := by
        intro path
        rw [Heap.follow, (hindex key _).mpr ⟨_, rfl, hsent'⟩, Option.bind_some, Heap.follow]
      constructor
      · have hhere : (final.index field (.table (copyOf place))).bind (final.follow []) =
            final.index field (.table (copyOf place)) := by
          cases final.index field (.table (copyOf place)) <;> rfl
        rw [hshown, hfollow, hhere, shown_final hlist' hcutting hplaces hsent',
          shownField_copy h hsent.reaches (hsent.record hlist)]
      · intro index
        have hnone : final.follow [key, field, index] (.table grown.length) = none := by
          rw [hfollow]
          cases hfound : final.index field (.table (copyOf place)) with
          | none => rfl
          | some value =>
              cases value with
              | scalar value => rfl
              | table found =>
                  obtain ⟨-, -, hempty⟩ := table_final hlist' hcutting hplaces hsent' hfound
                  rw [Option.bind_some, Heap.follow, Heap.index, hempty]
                  rfl
        have hleaf := hshown [key, field, index]
        rw [hnone, Option.map_none] at hleaf
        exact Option.map_eq_none_iff.mp hleaf

end Sending

def tableOf (fields : List (Scalar × Datum)) : Object Unit :=
  ⟨(fields.map fun field => (⟨.scalar field.1, field.2⟩ : Entry)).toAList, none⟩

def volumeFields : List (List (Scalar × Datum)) :=
  [[(.number 1, .table 1), (.number 2, .table 3)],
   [(named "device", .scalar (named "/dev/vg/home")), (named "volume_group", .table 6),
    (named "snapshots", .table 2)],
   [(.number 1, .table 5)],
   [(named "device", .scalar (named "/dev/vg/mail")), (named "volume_group", .table 6),
    (named "snapshots", .table 4)],
   [],
   [(named "device", .scalar (named "/dev/vg/old")), (named "volume_group", .table 6),
    (named "logical_volume", .scalar (named "home"))],
   [(named "name", .scalar (named "vg"))]]

def volumeHeap : Heap Unit := volumeFields.map tableOf

theorem index_volumeHeap (place : Nat) (key : Scalar) :
    volumeHeap.index key (.table place) =
      (volumeFields[place]?).bind fun fields => fields.lookup key := by
  have htable : ∀ fields : List (Scalar × Datum),
      (tableOf fields).entries.lookup (.scalar key) = fields.lookup key := by
    intro fields
    rw [tableOf, AList.lookup_to_alist]
    induction fields with
    | nil => rfl
    | cons field fields ih =>
        rw [List.map_cons, List.lookup_cons]
        by_cases hkey : key = field.1
        · subst hkey
          rw [List.dlookup_cons_eq]
          simp
        · have hne : (key == field.1) = false := by simpa using hkey
          rw [List.dlookup_cons_ne _ _ (by simpa using hkey), ih, hne]
  rw [Heap.index, volumeHeap, List.getElem?_map]
  cases volumeFields[place]? with
  | none => rfl
  | some fields => exact htable fields

theorem mem_of_index_volumeHeap {place : Nat} {key : Scalar} {value : Datum}
    (h : volumeHeap.index key (.table place) = some value) :
    (key, value) ∈ (volumeFields[place]?).getD [] := by
  rw [index_volumeHeap, Option.bind_eq_some_iff] at h
  obtain ⟨fields, hfields, hlookup⟩ := h
  rw [hfields]
  exact mem_of_lookup hlookup

theorem record_volumeHeap {place : Nat}
    (hplace : place = 1 ∨ place = 3 ∨ place = 5) : Record volumeHeap place := by
  have hgroup : volumeHeap.index (named "volume_group") (.table place) = some (.table 6) := by
    rcases hplace with rfl | rfl | rfl <;> rw [index_volumeHeap] <;> decide
  refine ⟨⟨6, "vg".toList, hgroup, by rw [index_volumeHeap]; decide⟩, ?_, ?_⟩
  · intro key value hvalue hne hne'
    have hin := mem_of_index_volumeHeap hvalue
    rcases hplace with rfl | rfl | rfl <;>
      simp only [volumeFields, List.getElem?_cons_succ, List.getElem?_cons_zero, Option.getD_some,
        List.mem_cons, List.not_mem_nil, or_false, Prod.mk.injEq] at hin <;>
      rcases hin with ⟨rfl, rfl⟩ | ⟨rfl, rfl⟩ | ⟨rfl, rfl⟩ <;>
      first | exact ⟨_, rfl⟩ | exact absurd rfl hne | exact absurd rfl hne'
  · intro value hvalue
    rw [index_volumeHeap] at hvalue
    rcases hplace with rfl | rfl | rfl
    · exact ⟨2, (Option.some.inj hvalue).symm⟩
    · exact ⟨4, (Option.some.inj hvalue).symm⟩
    · cases hvalue

theorem snapshot_volumeHeap : Snapshot volumeHeap 5 :=
  ⟨record_volumeHeap (by simp), ⟨_, (index_volumeHeap 5 _).trans rfl⟩,
    (index_volumeHeap 5 _).trans rfl⟩

theorem items_volumeHeap : itemsAt volumeHeap 2 = [.table 5] ∧ itemsAt volumeHeap 4 = [] := by
  decide

theorem mem_volumeHeap {key : Scalar} {value : Datum}
    (h : volumeHeap.index key (.table 0) = some value) :
    key = .number 1 ∧ value = .table 1 ∨ key = .number 2 ∧ value = .table 3 := by
  have hin := mem_of_index_volumeHeap h
  simpa [volumeFields] using hin

theorem volume_volumeHeap {place : Nat} (hplace : place = 1 ∨ place = 3) :
    Volume volumeHeap place := by
  rcases hplace with rfl | rfl
  · refine ⟨record_volumeHeap (by simp), 2, (index_volumeHeap 1 _).trans rfl, ?_⟩
    rw [items_volumeHeap.1]
    simpa using snapshot_volumeHeap
  · refine ⟨record_volumeHeap (by simp), 4, (index_volumeHeap 3 _).trans rfl, ?_⟩
    rw [items_volumeHeap.2]
    simp

theorem sent_volumeHeap {key : Scalar} {place : Nat} (h : Sent volumeHeap 0 key place) :
    key = .number 1 ∧ place = 1 ∨ key = .number 2 ∧ place = 3 ∨
      key = named "/dev/vg/old" ∧ place = 5 := by
  cases h with
  | volume hindex =>
      rcases mem_volumeHeap hindex with ⟨rfl, heq⟩ | ⟨rfl, heq⟩
      · exact .inl ⟨rfl, by simpa using heq⟩
      · exact .inr (.inl ⟨rfl, by simpa using heq⟩)
  | @snapshot own _ volume list _ hown hlist hitem hdevice =>
      have hplace : place = 5 := by
        rcases mem_volumeHeap hown with ⟨-, heq⟩ | ⟨-, heq⟩
        · obtain rfl : volume = 1 := by simpa using heq
          rw [index_volumeHeap] at hlist
          obtain rfl : 2 = list := by simpa using Option.some.inj hlist
          simpa [items_volumeHeap.1] using hitem
        · obtain rfl : volume = 3 := by simpa using heq
          rw [index_volumeHeap] at hlist
          obtain rfl : 4 = list := by simpa using Option.some.inj hlist
          simp [items_volumeHeap.2] at hitem
      subst hplace
      rw [index_volumeHeap] at hdevice
      have hkey : Datum.scalar (named "/dev/vg/old") = .scalar key := Option.some.inj hdevice
      exact .inr (.inr ⟨(Datum.scalar.inj hkey).symm, rfl⟩)

theorem volumeList_volumeHeap : VolumeList volumeHeap 0 := by
  refine ⟨by decide, fun key value hvalue => ?_, fun key other value hkey hother => ?_,
    fun key place other hplace hother => ?_⟩
  · rcases mem_volumeHeap hvalue with ⟨-, rfl⟩ | ⟨-, rfl⟩
    · exact ⟨1, rfl, volume_volumeHeap (by simp)⟩
    · exact ⟨3, rfl, volume_volumeHeap (by simp)⟩
  · rcases mem_volumeHeap hkey with ⟨rfl, rfl⟩ | ⟨rfl, rfl⟩ <;>
      rcases mem_volumeHeap hother with ⟨rfl, heq⟩ | ⟨rfl, heq⟩ <;> first | rfl | cases heq
  · rcases sent_volumeHeap hplace with ⟨rfl, rfl⟩ | ⟨rfl, rfl⟩ | ⟨rfl, rfl⟩ <;>
      rcases sent_volumeHeap hother with ⟨heq, rfl⟩ | ⟨heq, rfl⟩ | ⟨heq, rfl⟩ <;>
        first | rfl | simp [named] at heq

theorem fields_volumeHeap : ∀ object ∈ volumeHeap, ∀ entry ∈ object.entries.entries,
    (∃ key, entry.1 = .scalar key ∧ exactKey key) ∧ entry.2.Within 7 := by
  intro object hobject entry hentry
  obtain ⟨fields, hfields, rfl⟩ := List.mem_map.mp hobject
  obtain ⟨index, value⟩ := entry
  have hlookup := AList.mem_lookup_iff.mpr hentry
  rw [tableOf, AList.lookup_to_alist] at hlookup
  obtain ⟨field, hfield, heq⟩ := List.mem_map.mp (List.of_mem_dlookup hlookup)
  cases heq
  have hone : exactKey (.number 1) := by
    simpa [exactKey] using @Number.restored_natCast 1 (by norm_num)
  have htwo : exactKey (.number 2) := by
    simpa [exactKey] using @Number.restored_natCast 2 (by norm_num)
  have hall : ∀ fields ∈ volumeFields, ∀ field ∈ fields,
      exactKey field.1 ∧ field.2.Within 7 := by
    intro fields hfields field hfield
    simp only [volumeFields, List.mem_cons, List.not_mem_nil, or_false] at hfields
    rcases hfields with rfl | rfl | rfl | rfl | rfl | rfl | rfl <;>
      simp only [List.mem_cons, List.not_mem_nil, or_false] at hfield
    · rcases hfield with rfl | rfl
      · exact ⟨hone, by decide⟩
      · exact ⟨htwo, by decide⟩
    · rcases hfield with rfl | rfl | rfl <;> exact ⟨trivial, by decide⟩
    · exact hfield ▸ ⟨hone, by decide⟩
    · rcases hfield with rfl | rfl | rfl <;> exact ⟨trivial, by decide⟩
    · rcases hfield with rfl | rfl | rfl <;> exact ⟨trivial, by decide⟩
    · exact hfield ▸ ⟨trivial, by decide⟩
  exact ⟨⟨field.1, rfl, (hall fields hfields field hfield).1⟩, (hall fields hfields field hfield).2⟩

theorem volumes_restored_sample :
    (∃ outer final, logicalVolumesForSerialization (fun _ => Order.plain) id 8 volumeHeap
        (.table 0) = .ok (outer, final) ∧ volumeHeap <+: final ∧
      ∀ deep, final.length < deep → ∃ text restored,
        serializeData (fun _ => Order.plain) (fun _ => 0) final deep outer = .ok text ∧
        restoreData text = some (some restored) ∧
        (∀ key, (restored.follow [key]).isSome ↔ ∃ place, Sent volumeHeap 0 key place) ∧
        ∀ key place, Sent volumeHeap 0 key place → ∀ field,
          (restored.follow [key, field]).map Value.leaf = shownField volumeHeap place field ∧
          ∀ index, restored.follow [key, field, index] = none) ∧
    ∀ key other first second group, key ≠ other →
      volumeHeap.index key (.table 0) = some (.table first) →
      volumeHeap.index other (.table 0) = some (.table second) →
      volumeHeap.index (named "volume_group") (.table first) = some (.table group) →
      volumeHeap.index (named "volume_group") (.table second) = some (.table group) →
      serializeData (fun _ => Order.plain) (fun _ => 0) volumeHeap 8 (.table 0) =
        .error recursionDetected := by
  have hclosed : volumeHeap.Closed := fun object hobject entry hentry => by
    obtain ⟨⟨key, hkey, -⟩, hwithin⟩ := fields_volumeHeap object hobject entry hentry
    exact ⟨by rw [hkey]; trivial, hwithin⟩
  exact volumes_restored id _ _ hclosed
    (fun object hobject entry hentry => (fields_volumeHeap object hobject entry hentry).1)
    volumeList_volumeHeap (by decide)

end OpenSan.Web.Shared
