import Mathlib.Data.List.Perm.Subperm
import OpenSan.Foundation.Unfolding

/-!
# Deep copies

`deepcopy` of `common.lua` on a heap: a table that was met before is not copied again, so
that the copy has the shape of the original, with its cycles and its shared tables.
-/

namespace OpenSan.Common

open OpenSan.Foundation

variable {μ : Type}

/-- The heap and `lookup_table`, the copies of the tables that were met. -/
structure Copying (μ : Type) where
  heap : Heap μ
  lookupTable : Table Nat Nat

def Copying.allocate (state : Copying μ) (place : Nat) : Copying μ :=
  ⟨state.heap ++ [⟨∅, none⟩], state.lookupTable.insert place state.heap.length⟩

def Copying.assign (state : Copying μ) (place : Nat) (index value : Datum) : Copying μ :=
  { state with
    heap := state.heap.modify place fun object =>
      { object with entries := object.entries.insert index value } }

def Copying.setmetatable (state : Copying μ) (place : Nat) (metatable : Option μ) : Copying μ :=
  { state with heap := state.heap.modify place fun object => { object with metatable } }

def stackOverflow : Error := .failure "stack overflow"

section Copy

-- `getmetatable` gives the field `__metatable` of a metatable that has it.
variable (getmetatable : μ → μ) (order : Nat → Order)

def copyEntry (copy : Copying μ → Datum → Except Error (Datum × Copying μ)) (newTable : Nat)
    (state : Copying μ) (entry : Entry) : Except Error (Copying μ) := do
  let (index, state) ← copy state entry.1
  let (value, state) ← copy state entry.2
  .ok (state.assign newTable index value)

/-- `_copy`, with room for `depth` nested calls. -/
def copy : Nat → Copying μ → Datum → Except Error (Datum × Copying μ)
  | _, state, .scalar value => .ok (.scalar value, state)
  | 0, _, .table _ => .error stackOverflow
  | depth + 1, state, .table place =>
      match state.lookupTable.lookup place with
      | some copied => .ok (.table copied, state)
      | none => do
          let object ← nonNil "object" state.heap[place]?
          let newTable := state.heap.length
          let state ← ((order place).visit object.entries.entries).foldlM
            (copyEntry (copy depth) newTable) (state.allocate place)
          .ok (.table newTable, state.setmetatable newTable (object.metatable.map getmetatable))

def deepcopy (depth : Nat) (heap : Heap μ) (object : Datum) : Except Error (Datum × Heap μ) := do
  let (copied, state) ← copy getmetatable order depth ⟨heap, ∅⟩ object
  .ok (copied, state.heap)

end Copy

/-! ## What is copied -/

/-- The second datum is what stands for the first one in the copy. -/
inductive Images (copies : Table Nat Nat) : Datum → Datum → Prop where
  | scalar (value : Scalar) : Images copies (.scalar value) (.scalar value)
  | table {place copied : Nat} :
      copies.lookup place = some copied → Images copies (.table place) (.table copied)

def EntryImages (copies : Table Nat Nat) (entry image : Entry) : Prop :=
  Images copies entry.1 image.1 ∧ Images copies entry.2 image.2

def Below (first second : Table Nat Nat) : Prop :=
  ∀ place copied, first.lookup place = some copied → second.lookup place = some copied

def fill (images : List Entry) : Table Datum Datum :=
  images.foldl (fun table image => table.insert image.1 image.2) ∅

theorem Images.mono {first second : Table Nat Nat} (h : Below first second) {datum image : Datum}
    (himage : Images first datum image) : Images second datum image := by
  cases himage with
  | scalar value => exact .scalar value
  | table hplace => exact .table (h _ _ hplace)

theorem EntryImages.mono {first second : Table Nat Nat} (h : Below first second)
    {entry image : Entry} (himage : EntryImages first entry image) :
    EntryImages second entry image :=
  ⟨himage.1.mono h, himage.2.mono h⟩

section Invariant

variable (getmetatable : μ → μ) (order : Nat → Order) (original : Heap μ)

/-- The original tables are as they were, and the tables after them are the copies, one for
each table that was met. -/
structure Sound (state : Copying μ) : Prop where
  kept : ∀ place < original.length, state.heap[place]? = original[place]?
  range : ∀ place copied, state.lookupTable.lookup place = some copied →
    place < original.length ∧ original.length ≤ copied ∧ copied < state.heap.length
  injective : ∀ place other copied, state.lookupTable.lookup place = some copied →
    state.lookupTable.lookup other = some copied → place = other
  onto : ∀ copied, original.length ≤ copied → copied < state.heap.length →
    ∃ place, state.lookupTable.lookup place = some copied
  least : original.length ≤ state.heap.length

def Finished (state : Copying μ) (place : Nat) : Prop :=
  ∃ copied object images, state.lookupTable.lookup place = some copied ∧
    original[place]? = some object ∧
    List.Forall₂ (EntryImages state.lookupTable) ((order place).visit object.entries.entries)
      images ∧
    state.heap[copied]? = some ⟨fill images, object.metatable.map getmetatable⟩

/-- What a call does: it finishes the copies it begins, all of tables it `reached`, and
leaves the others alone. -/
structure Call (reached : Nat → Prop) (state next : Copying μ) : Prop where
  sound : Sound original next
  below : Below state.lookupTable next.lookupTable
  frame : ∀ place copied, state.lookupTable.lookup place = some copied →
    next.heap[copied]? = state.heap[copied]?
  finished : ∀ place ∈ next.lookupTable, place ∉ state.lookupTable →
    Finished getmetatable order original next place ∧ reached place

structure Filling (place newTable : Nat) (start : Copying μ) (done : List Entry)
    (state : Copying μ) : Prop where
  sound : Sound original state
  below : Below start.lookupTable state.lookupTable
  frame : ∀ other copied, start.lookupTable.lookup other = some copied → copied ≠ newTable →
    state.heap[copied]? = start.heap[copied]?
  object : ∃ images, List.Forall₂ (EntryImages state.lookupTable) done images ∧
    state.heap[newTable]? = some ⟨fill images, none⟩
  finished : ∀ other ∈ state.lookupTable, other ∉ start.lookupTable →
    Finished getmetatable order original state other ∧ original.Reaches (.table place) other

end Invariant

section Steps

variable {getmetatable : μ → μ} {order : Nat → Order} {original : Heap μ}
variable {state next : Copying μ} {reached : Nat → Prop}

theorem mem_of_lookup_eq {copies : Table Nat Nat} {place copied : Nat}
    (h : copies.lookup place = some copied) : place ∈ copies :=
  AList.lookup_isSome.mp (by rw [h]; rfl)

theorem exists_lookup {κ ν : Type} [DecidableEq κ] {table : Table κ ν} {key : κ}
    (h : key ∈ table) : ∃ value, table.lookup key = some value :=
  Option.isSome_iff_exists.mp (AList.lookup_isSome.mpr h)

theorem Below.mem {first second : Table Nat Nat} (h : Below first second) {place : Nat}
    (hin : place ∈ first) : place ∈ second := by
  obtain ⟨copied, hcopied⟩ := exists_lookup hin
  exact mem_of_lookup_eq (h _ _ hcopied)

theorem Below.trans {first second third : Table Nat Nat} (h : Below first second)
    (h' : Below second third) : Below first third :=
  fun _ _ hcopied => h' _ _ (h _ _ hcopied)

theorem Below.length_le {first second : Table Nat Nat} (h : Below first second) :
    first.keys.length ≤ second.keys.length :=
  (List.subperm_of_subset first.keys_nodup fun _ hplace =>
    AList.mem_keys.mp (h.mem (AList.mem_keys.mpr hplace))).length_le

theorem Sound.length_le (h : Sound original state) :
    state.lookupTable.keys.length ≤ original.length := by
  have hsub : state.lookupTable.keys ⊆ List.range original.length := by
    intro place hplace
    obtain ⟨copied, hcopied⟩ := exists_lookup (AList.mem_keys.mpr hplace)
    exact List.mem_range.mpr (h.range _ _ hcopied).1
  simpa using (List.subperm_of_subset state.lookupTable.keys_nodup hsub).length_le

theorem Sound.modify (h : Sound original state) {place : Nat} (hplace : original.length ≤ place)
    (f : Object μ → Object μ) :
    Sound original { state with heap := state.heap.modify place f } where
  kept := by
    intro other hother
    rw [List.getElem?_modify_ne _ _ (by omega), h.kept other hother]
  range := by simpa using h.range
  injective := h.injective
  onto := by simpa using h.onto
  least := by simpa using h.least

theorem Sound.allocate (h : Sound original state) {place : Nat} (hplace : place < original.length)
    (hnew : place ∉ state.lookupTable) : Sound original (state.allocate place) := by
  have hlookup : ∀ other copied, (state.allocate place).lookupTable.lookup other = some copied →
      other = place ∧ copied = state.heap.length ∨
        other ≠ place ∧ state.lookupTable.lookup other = some copied := by
    intro other copied hcopied
    by_cases heq : other = place
    · subst heq
      rw [Copying.allocate, AList.lookup_insert, Option.some.injEq] at hcopied
      exact .inl ⟨rfl, hcopied.symm⟩
    · rw [Copying.allocate, AList.lookup_insert_ne heq] at hcopied
      exact .inr ⟨heq, hcopied⟩
  have hlength : (state.allocate place).heap.length = state.heap.length + 1 := by
    simp [Copying.allocate]
  have hleast := h.least
  refine ⟨?_, ?_, ?_, ?_, by omega⟩
  · intro other hother
    rw [Copying.allocate, List.getElem?_append_left (by omega), h.kept other hother]
  · intro other copied hcopied
    rcases hlookup other copied hcopied with ⟨rfl, rfl⟩ | ⟨-, hold⟩
    · exact ⟨hplace, hleast, by omega⟩
    · obtain ⟨hfirst, hsecond, hthird⟩ := h.range _ _ hold
      exact ⟨hfirst, hsecond, by omega⟩
  · intro first second copied hfirst hsecond
    rcases hlookup _ _ hfirst with ⟨rfl, rfl⟩ | ⟨-, hold⟩ <;>
      rcases hlookup _ _ hsecond with ⟨rfl, hlast⟩ | ⟨-, hold'⟩
    · rfl
    · exact absurd (h.range _ _ hold').2.2 (by omega)
    · exact absurd (h.range _ _ hold).2.2 (by omega)
    · exact h.injective _ _ _ hold hold'
  · intro copied hlow hhigh
    by_cases heq : copied = state.heap.length
    · exact ⟨place, by rw [Copying.allocate, AList.lookup_insert, heq]⟩
    · obtain ⟨other, hother⟩ := h.onto copied hlow (by omega)
      have hne : other ≠ place := by
        rintro rfl
        exact hnew (mem_of_lookup_eq hother)
      exact ⟨other, by rw [Copying.allocate, AList.lookup_insert_ne hne, hother]⟩

theorem Finished.of_frame {place : Nat} (h : Finished getmetatable order original state place)
    (hbelow : Below state.lookupTable next.lookupTable)
    (hframe : ∀ copied, state.lookupTable.lookup place = some copied →
      next.heap[copied]? = state.heap[copied]?) :
    Finished getmetatable order original next place := by
  obtain ⟨copied, object, images, hcopied, hobject, himages, hcopy⟩ := h
  exact ⟨copied, object, images, hbelow _ _ hcopied, hobject,
    himages.imp fun _ _ himage => himage.mono hbelow, (hframe _ hcopied).trans hcopy⟩

theorem Call.refl (h : Sound original state) :
    Call getmetatable order original reached state state :=
  ⟨h, fun _ _ h => h, fun _ _ _ => rfl, fun _ hin hout => absurd hin hout⟩

theorem Call.mono {wider : Nat → Prop} (hwider : ∀ place, reached place → wider place)
    (h : Call getmetatable order original reached state next) :
    Call getmetatable order original wider state next :=
  ⟨h.sound, h.below, h.frame, fun place hin hout =>
    ⟨(h.finished place hin hout).1, hwider _ (h.finished place hin hout).2⟩⟩

theorem Call.trans {last : Copying μ} (h : Call getmetatable order original reached state next)
    (h' : Call getmetatable order original reached next last) :
    Call getmetatable order original reached state last := by
  refine ⟨h'.sound, h.below.trans h'.below, ?_, ?_⟩
  · intro place copied hcopied
    exact (h'.frame _ _ (h.below _ _ hcopied)).trans (h.frame _ _ hcopied)
  · intro place hin hout
    by_cases hmiddle : place ∈ next.lookupTable
    · obtain ⟨hfinished, hreached⟩ := h.finished place hmiddle hout
      exact ⟨hfinished.of_frame h'.below fun copied hcopied => h'.frame _ _ hcopied, hreached⟩
    · exact h'.finished place hin hmiddle

theorem Filling.call {place newTable : Nat} {start : Copying μ} {done : List Entry}
    (h : Filling getmetatable order original place newTable start done state)
    (hown : start.lookupTable.lookup place = some newTable)
    (hcall : Call getmetatable order original (original.Reaches (.table place)) state next) :
    Filling getmetatable order original place newTable start done next := by
  refine ⟨hcall.sound, h.below.trans hcall.below, ?_, ?_, ?_⟩
  · intro other copied hcopied hne
    exact (hcall.frame _ _ (h.below _ _ hcopied)).trans (h.frame _ _ hcopied hne)
  · obtain ⟨images, himages, hobject⟩ := h.object
    exact ⟨images, himages.imp fun _ _ himage => himage.mono hcall.below,
      (hcall.frame _ _ (h.below _ _ hown)).trans hobject⟩
  · intro other hin hout
    by_cases hmiddle : other ∈ state.lookupTable
    · obtain ⟨hfinished, hreached⟩ := h.finished other hmiddle hout
      exact ⟨hfinished.of_frame hcall.below fun copied hcopied => hcall.frame _ _ hcopied,
        hreached⟩
    · exact hcall.finished other hin hmiddle

theorem Finished.modify {place other newTable : Nat} (hsound : Sound original state)
    (hown : state.lookupTable.lookup place = some newTable) (hne : other ≠ place)
    (f : Object μ → Object μ) (h : Finished getmetatable order original state other) :
    Finished getmetatable order original { state with heap := state.heap.modify newTable f }
      other := by
  refine h.of_frame (fun _ _ h => h) fun copied hcopied => ?_
  have hother : newTable ≠ copied := by
    rintro rfl
    exact hne (hsound.injective _ _ _ hcopied hown)
  exact List.getElem?_modify_ne _ _ hother

theorem fill_append (images : List Entry) (image : Entry) :
    fill (images ++ [image]) = (fill images).insert image.1 image.2 := by
  simp [fill]

theorem Filling.assign {place newTable : Nat} {start : Copying μ} {done : List Entry}
    (h : Filling getmetatable order original place newTable start done state)
    (hown : start.lookupTable.lookup place = some newTable) {entry image : Entry}
    (himage : EntryImages state.lookupTable entry image) :
    Filling getmetatable order original place newTable start (done ++ [entry])
      (state.assign newTable image.1 image.2) := by
  have hstate := h.below _ _ hown
  refine ⟨h.sound.modify (h.sound.range _ _ hstate).2.1 _, h.below, ?_, ?_, ?_⟩
  · intro other copied hcopied hne
    exact (List.getElem?_modify_ne _ _ (Ne.symm hne)).trans (h.frame other copied hcopied hne)
  · obtain ⟨images, himages, hobject⟩ := h.object
    refine ⟨images ++ [image], List.rel_append himages (.cons himage .nil), ?_⟩
    rw [Copying.assign, List.getElem?_modify_eq, hobject, fill_append]
    rfl
  · intro other hin hout
    obtain ⟨hfinished, hreached⟩ := h.finished other hin hout
    refine ⟨hfinished.modify h.sound hstate ?_ _, hreached⟩
    rintro rfl
    exact hout (mem_of_lookup_eq hown)

end Steps

section Runs

variable {getmetatable : μ → μ} {order : Nat → Order} {original : Heap μ}

def Copies (getmetatable : μ → μ) (order : Nat → Order) (original : Heap μ) (depth : Nat) : Prop :=
  ∀ (state : Copying μ) (datum : Datum), Sound original state → datum.Within original.length →
    original.length < depth + state.lookupTable.keys.length →
    ∃ copied next, copy getmetatable order depth state datum = .ok (copied, next) ∧
      Call getmetatable order original (original.Reaches datum) state next ∧
      Images next.lookupTable datum copied

theorem copyEntry_filling {depth place newTable : Nat} {start state : Copying μ}
    {done : List Entry} {object : Object μ} {entry : Entry}
    (hcopies : Copies getmetatable order original depth)
    (hown : start.lookupTable.lookup place = some newTable)
    (hobject : original[place]? = some object) (hentry : entry ∈ object.entries.entries)
    (hwithin : Entry.Within original.length entry)
    (hdepth : original.length < depth + start.lookupTable.keys.length)
    (h : Filling getmetatable order original place newTable start done state) :
    ∃ next, copyEntry (copy getmetatable order depth) newTable state entry = .ok next ∧
      Filling getmetatable order original place newTable start (done ++ [entry]) next := by
  have hlength := h.below.length_le
  obtain ⟨index, first, hfirst, hcall, hindex⟩ :=
    hcopies state entry.1 h.sound hwithin.1 (by omega)
  have hlength' := hcall.below.length_le
  obtain ⟨value, second, hsecond, hcall', hvalue⟩ :=
    hcopies first entry.2 hcall.sound hwithin.2 (by omega)
  have hreached : Call getmetatable order original (original.Reaches (.table place)) state second :=
    (hcall.mono fun other hother => hother.through hobject hentry (.inl rfl)).trans
      (hcall'.mono fun other hother => hother.through hobject hentry (.inr rfl))
  have himage : EntryImages second.lookupTable entry ⟨index, value⟩ :=
    ⟨hindex.mono hcall'.below, hvalue⟩
  refine ⟨second.assign newTable index value, ?_, (h.call hown hreached).assign hown himage⟩
  simp only [copyEntry, hfirst, hsecond, ok_bind]

theorem Filling.start {state : Copying μ} {place : Nat} (h : Sound original state)
    (hplace : place < original.length) (hnew : place ∉ state.lookupTable) :
    Filling getmetatable order original place state.heap.length (state.allocate place) []
      (state.allocate place) where
  sound := h.allocate hplace hnew
  below := fun _ _ h => h
  frame := fun _ _ _ _ => rfl
  object := ⟨[], .nil, by simp [Copying.allocate, fill]⟩
  finished := fun _ hin hout => absurd hin hout

theorem Filling.finish {state next : Copying μ} {place : Nat} {object : Object μ}
    (hsound : Sound original state) (hnew : place ∉ state.lookupTable)
    (hobject : original[place]? = some object)
    (h : Filling getmetatable order original place state.heap.length (state.allocate place)
      ((order place).visit object.entries.entries) next) :
    Call getmetatable order original (original.Reaches (.table place)) state
        (next.setmetatable state.heap.length (object.metatable.map getmetatable)) ∧
      next.lookupTable.lookup place = some state.heap.length := by
  have hown : (state.allocate place).lookupTable.lookup place = some state.heap.length := by
    rw [Copying.allocate, AList.lookup_insert]
  have hnext := h.below _ _ hown
  have hbelow : Below state.lookupTable next.lookupTable := by
    refine Below.trans (fun other copied hcopied => ?_) h.below
    have hne : other ≠ place := by
      rintro rfl
      exact hnew (mem_of_lookup_eq hcopied)
    rw [Copying.allocate, AList.lookup_insert_ne hne, hcopied]
  refine ⟨⟨h.sound.modify hsound.least _, hbelow, ?_, ?_⟩, hnext⟩
  · intro other copied hcopied
    have hne : other ≠ place := by
      rintro rfl
      exact hnew (mem_of_lookup_eq hcopied)
    have hsmall := (hsound.range _ _ hcopied).2.2
    have hframe := h.frame other copied
      (by rw [Copying.allocate, AList.lookup_insert_ne hne, hcopied]) (by omega)
    rw [Copying.allocate, List.getElem?_append_left hsmall] at hframe
    exact (List.getElem?_modify_ne _ _ (by omega)).trans hframe
  · intro other hin hout
    by_cases heq : other = place
    · subst heq
      obtain ⟨images, himages, hcopy⟩ := h.object
      refine ⟨⟨_, object, images, hnext, hobject, himages, ?_⟩, Relation.ReflTransGen.refl⟩
      rw [Copying.setmetatable, List.getElem?_modify_eq, hcopy]
      rfl
    · have hnotStart : other ∉ (state.allocate place).lookupTable := by
        rw [Copying.allocate, AList.mem_insert]
        exact fun hor => hor.elim heq hout
      obtain ⟨hfinished, hreached⟩ := h.finished other hin hnotStart
      exact ⟨hfinished.modify h.sound hnext heq _, hreached⟩

theorem copies (getmetatable : μ → μ) (order : Nat → Order) (hclosed : original.Closed)
    (depth : Nat) :
    Copies getmetatable order original depth := by
  induction depth with
  | zero =>
      intro state datum hsound hdatum hdepth
      have hlength := hsound.length_le
      omega
  | succ depth ih =>
      intro state datum hsound hdatum hdepth
      cases datum with
      | scalar value => exact ⟨.scalar value, state, rfl, .refl hsound, .scalar value⟩
      | table place =>
          have hplace : place < original.length := hdatum
          rw [copy]
          cases hfound : state.lookupTable.lookup place with
          | some copied => exact ⟨.table copied, state, rfl, .refl hsound, .table hfound⟩
          | none =>
              have hnew : place ∉ state.lookupTable := AList.lookup_eq_none.mp hfound
              have hobject := List.getElem?_eq_getElem hplace
              have hlength : (state.allocate place).lookupTable.keys.length =
                  state.lookupTable.keys.length + 1 := by
                simp [Copying.allocate, AList.keys_insert, List.erase_of_not_mem hnew]
              obtain ⟨next, hrun, hfilled⟩ := foldlM_ok
                (f := copyEntry (copy getmetatable order depth) state.heap.length)
                (Filling getmetatable order original place state.heap.length
                  (state.allocate place)) (.start hsound hplace hnew)
                fun done entry before hentry h => copyEntry_filling ih
                  (by rw [Copying.allocate, AList.lookup_insert]) hobject
                  ((Order.mem_visit _).mp hentry)
                  (hclosed _ (List.getElem_mem hplace) _ ((Order.mem_visit _).mp hentry))
                  (by omega) h
              obtain ⟨hcall, hlookup⟩ := hfilled.finish hsound hnew hobject
              refine ⟨.table state.heap.length, _, ?_, hcall, .table hlookup⟩
              simp only [hsound.kept place hplace, hobject, nonNil, ok_bind]
              rw [hrun]
              rfl

end Runs

/-! ## The copy has the shape of the original -/

section Shape

variable {getmetatable : μ → μ} {order : Nat → Order} {original : Heap μ} {state : Copying μ}

theorem Images.biUnique (h : Sound original state) :
    Relator.BiUnique (Images state.lookupTable) := by
  constructor
  · intro first second image hfirst hsecond
    cases hfirst with
    | scalar value => cases hsecond with | scalar _ => rfl
    | table hplace =>
        cases hsecond with
        | table hother => rw [h.injective _ _ _ hplace hother]
  · intro datum first second hfirst hsecond
    cases hfirst with
    | scalar value => cases hsecond with | scalar _ => rfl
    | table hplace =>
        cases hsecond with
        | table hother => rw [Option.some.inj (hplace.symm.trans hother)]

theorem Images.mem {copies : Table Nat Nat} {place : Nat} {image : Datum}
    (h : Images copies (.table place) image) : place ∈ copies := by
  cases h with | table hplace => exact mem_of_lookup_eq hplace

theorem Images.eq_rename {copies : Table Nat Nat} {datum image : Datum}
    (h : Images copies datum image) :
    image = datum.rename fun place => (copies.lookup place).getD 0 := by
  cases h with
  | scalar value => rfl
  | table hplace => rw [Datum.rename, hplace, Option.getD_some]

theorem fill_eq (images : List Entry) :
    fill images = (images.map fun image => (image.1, image.2)).foldl
      (fun table pair => table.insert pair.1 pair.2) ∅ := by
  rw [fill, List.foldl_map]

theorem lookup_fill {images : List Entry}
    (h : ∀ key value other, (⟨key, value⟩ : Entry) ∈ images → (⟨key, other⟩ : Entry) ∈ images →
      value = other) (key value : Datum) :
    (fill images).lookup key = some value ↔ (⟨key, value⟩ : Entry) ∈ images := by
  have hmem : ∀ found, (key, found) ∈ images.map (fun image => (image.1, image.2)) →
      (⟨key, found⟩ : Entry) ∈ images := by
    intro found hin
    obtain ⟨image, himage, heq⟩ := List.mem_map.mp hin
    obtain ⟨rfl, rfl⟩ := Prod.mk.inj heq
    exact himage
  rw [fill_eq]
  constructor
  · intro hlookup
    rcases lookup_foldl_insert _ _ hlookup with hempty | hin
    · cases hempty
    · exact hmem value hin
  · intro hin
    have hkey : key ∈ ((images.map fun image => (image.1, image.2)).foldl
        (fun table pair => table.insert pair.1 pair.2) (∅ : Table Datum Datum)).keys :=
      (mem_keys_foldl_insert _ _ key).mpr (.inr (List.mem_map.mpr
        ⟨(key, value), List.mem_map.mpr ⟨_, hin, rfl⟩, rfl⟩))
    obtain ⟨found, hfound⟩ := exists_lookup (AList.mem_keys.mpr hkey)
    rcases lookup_foldl_insert _ _ hfound with hempty | hother
    · cases hempty
    · rw [hfound, h key found value (hmem found hother) hin]

theorem entries_fill {images : List Entry} (h : (images.map (·.1)).Nodup) :
    (fill images).entries.Perm images := by
  rw [fill_eq]
  refine (entries_foldl_insert_perm (by simpa [List.map_map, Function.comp_def] using h)).trans ?_
  rw [List.map_map]
  exact .of_eq (List.map_id images)

theorem keys_of_entryImages {copies : Table Nat Nat} {entries images : List Entry}
    (h : List.Forall₂ (EntryImages copies) entries images) :
    List.Forall₂ (Images copies) (entries.map (·.1)) (images.map (·.1)) := by
  rw [List.forall₂_map_left_iff, List.forall₂_map_right_iff]
  exact h.imp fun _ _ himage => himage.1

def Entry.rename (f : Nat → Nat) (entry : Entry) : Entry := ⟨entry.1.rename f, entry.2.rename f⟩

theorem eq_map_rename {copies : Table Nat Nat} {entries images : List Entry}
    (h : List.Forall₂ (EntryImages copies) entries images) :
    images = entries.map (Entry.rename fun place => (copies.lookup place).getD 0) := by
  induction h with
  | nil => rfl
  | cons himage _ ih =>
      rw [List.map_cons, ← ih, Entry.rename, ← himage.1.eq_rename, ← himage.2.eq_rename]

theorem Finished.entries {place : Nat} (hsound : Sound original state)
    (h : Finished getmetatable order original state place) :
    ∃ copied table other, state.lookupTable.lookup place = some copied ∧
      original[place]? = some table ∧ state.heap[copied]? = some other ∧
      other.metatable = table.metatable.map getmetatable ∧
      other.entries.entries.Perm (table.entries.entries.map
        (Entry.rename fun place => (state.lookupTable.lookup place).getD 0)) := by
  obtain ⟨copied, table, images, hcopied, htable, himages, hcopy⟩ := h
  refine ⟨copied, table, _, hcopied, htable, hcopy, rfl, ?_⟩
  have hvisited : (((order place).visit table.entries.entries).map (·.1)).Nodup :=
    (((order place).perm _).map _).nodup_iff.mpr table.entries.keys_nodup
  have hnodup : (images.map (·.1)).Nodup :=
    (List.rel_nodup (Images.biUnique hsound) (keys_of_entryImages himages)).mp hvisited
  refine (entries_fill hnodup).trans ?_
  rw [eq_map_rename himages]
  exact ((order place).perm _).map _

theorem Finished.refers {place next : Nat}
    (h : Finished getmetatable order original state place)
    (hnext : original.Refers place next) : next ∈ state.lookupTable := by
  obtain ⟨copied, table, images, -, htable, himages, -⟩ := h
  obtain ⟨object, hobject, entry, hentry, hdatum⟩ := hnext
  obtain rfl : table = object := Option.some.inj (htable.symm.trans hobject)
  obtain ⟨image, -, himage⟩ := exists_of_forall₂_left himages ((Order.mem_visit _).mpr hentry)
  rcases hdatum with hkey | hvalue
  · exact Images.mem (hkey ▸ himage.1)
  · exact Images.mem (hvalue ▸ himage.2)

theorem mem_iff_reaches {datum copied : Datum} {start : Copying μ}
    (hstart : start.lookupTable = ∅)
    (h : Call getmetatable order original (original.Reaches datum) start state)
    (himage : Images state.lookupTable datum copied) (place : Nat) :
    place ∈ state.lookupTable ↔ original.Reaches datum place := by
  have hfinished : ∀ other ∈ state.lookupTable,
      Finished getmetatable order original state other ∧ original.Reaches datum other :=
    fun other hother => h.finished other hother (by simp [hstart])
  constructor
  · exact fun hplace => (hfinished place hplace).2
  · intro hreaches
    cases datum with
    | scalar value => exact hreaches.elim
    | table first =>
        induction hreaches with
        | refl => exact himage.mem
        | tail _ hnext ih => exact (hfinished _ ih).1.refers hnext

theorem sound_start (heap : Heap μ) : Sound heap ⟨heap, ∅⟩ where
  kept := fun _ _ => rfl
  range := by simp
  injective := by simp
  onto := fun copied hlow hhigh => absurd hhigh (by simpa using hlow)
  least := Nat.le_refl _

end Shape

/-- A copy of the tables that are met from `object`: the heap grows by one table for each of
them, `copyOf` takes each to its copy, and the entries go over to the copies. -/
structure CopyOf (getmetatable : μ → μ) (heap : Heap μ) (object copied : Datum) (grown : Heap μ)
    (copyOf : Nat → Nat) : Prop where
  kept : heap <+: grown
  root : copied = object.rename copyOf
  bijective : Set.BijOn copyOf {place | heap.Reaches object place}
    (Set.Ico heap.length grown.length)
  entries : ∀ place table, heap.Reaches object place → heap[place]? = some table →
    ∃ other, grown[copyOf place]? = some other ∧
      other.metatable = table.metatable.map getmetatable ∧
      other.entries.entries.Perm (table.entries.entries.map (Entry.rename copyOf))

theorem deepcopy_copies (getmetatable : μ → μ) (order : Nat → Order) {heap : Heap μ}
    (hclosed : heap.Closed) {object : Datum} (hobject : object.Within heap.length) {depth : Nat}
    (hdepth : heap.length < depth) :
    ∃ copied grown copyOf, deepcopy getmetatable order depth heap object = .ok (copied, grown) ∧
      CopyOf getmetatable heap object copied grown copyOf := by
  obtain ⟨copied, state, hrun, hcall, himage⟩ := copies getmetatable order
    hclosed depth ⟨heap, ∅⟩ object (sound_start heap) hobject
    (by simpa using hdepth)
  have hmem := mem_iff_reaches rfl hcall himage
  have hcopyOf : ∀ {place copy : Nat}, state.lookupTable.lookup place = some copy →
      (state.lookupTable.lookup place).getD 0 = copy := by
    intro place copy hcopy
    rw [hcopy, Option.getD_some]
  refine ⟨copied, state.heap, fun place => (state.lookupTable.lookup place).getD 0, ?_, ?_⟩
  · rw [deepcopy, hrun]
    rfl
  · refine ⟨?_, himage.eq_rename, ⟨?_, ?_, ?_⟩, ?_⟩
    · rw [List.prefix_iff_getElem?]
      intro place hplace
      rw [hcall.sound.kept place hplace, List.getElem?_eq_getElem hplace]
    · intro place hplace
      obtain ⟨copy, hcopy⟩ := exists_lookup ((hmem place).mpr hplace)
      have hrange := (hcall.sound.range _ _ hcopy).2
      rwa [← hcopyOf hcopy] at hrange
    · intro first hfirst second hsecond hsame
      obtain ⟨copy, hcopy⟩ := exists_lookup ((hmem first).mpr hfirst)
      obtain ⟨other, hother⟩ := exists_lookup ((hmem second).mpr hsecond)
      change (state.lookupTable.lookup first).getD 0 = (state.lookupTable.lookup second).getD 0
        at hsame
      rw [hcopyOf hcopy, hcopyOf hother] at hsame
      exact hcall.sound.injective _ _ _ hcopy (hsame ▸ hother)
    · intro copy hcopy
      obtain ⟨place, hplace⟩ := hcall.sound.onto copy hcopy.1 hcopy.2
      exact ⟨place, (hmem place).mp (mem_of_lookup_eq hplace), hcopyOf hplace⟩
    · intro place table hreaches htable
      have hfinished := hcall.finished place ((hmem place).mpr hreaches) (by simp)
      obtain ⟨copy, found, other, hcopy, hfound, hother, hmetatable, hentries⟩ :=
        hfinished.1.entries hcall.sound
      obtain rfl : found = table := Option.some.inj (hfound.symm.trans htable)
      exact ⟨other, by rw [hcopyOf hcopy]; exact hother, hmetatable, hentries⟩

/-! ## Paths of the copy -/

section Paths

variable {getmetatable : μ → μ} {heap grown : Heap μ} {object copied : Datum}
  {copyOf : Nat → Nat}

theorem lookup_of_perm {entries source : Table Datum Datum}
    (h : entries.entries.Perm (source.entries.map (Entry.rename copyOf))) (key : Scalar) :
    entries.lookup (.scalar key) = (source.lookup (.scalar key)).map (Datum.rename copyOf) := by
  ext value
  rw [← Option.mem_def, AList.mem_lookup_iff, h.mem_iff, List.mem_map, Option.map_eq_some_iff]
  constructor
  · rintro ⟨⟨index, datum⟩, hentry, heq⟩
    cases index with
    | table place => cases heq
    | scalar other =>
        cases heq
        exact ⟨datum, AList.mem_lookup_iff.mpr hentry, rfl⟩
  · rintro ⟨datum, hlookup, rfl⟩
    exact ⟨_, AList.mem_lookup_iff.mp hlookup, rfl⟩

theorem index_copy (h : CopyOf getmetatable heap object copied grown copyOf) {place : Nat}
    (hplace : place < heap.length) (hreaches : heap.Reaches object place) (key : Scalar) :
    grown.index key (.table (copyOf place)) =
      (heap.index key (.table place)).map (Datum.rename copyOf) := by
  have hobject := List.getElem?_eq_getElem hplace
  obtain ⟨other, hother, -, hentries⟩ := h.entries place _ hreaches hobject
  rw [Heap.index, Heap.index, hother, hobject, Option.bind_some, Option.bind_some]
  exact lookup_of_perm hentries key

theorem key_rename (datum : Datum) : (datum.rename copyOf).key = datum.key := by
  cases datum <;> rfl

theorem follow_copy (h : CopyOf getmetatable heap object copied grown copyOf)
    (hclosed : heap.Closed) {datum : Datum} (hdatum : datum.Within heap.length)
    (hreaches : ∀ place, datum = .table place → heap.Reaches object place)
    (path : List Scalar) :
    grown.follow path (datum.rename copyOf) =
      (heap.follow path datum).map (Datum.rename copyOf) := by
  induction path generalizing datum with
  | nil => rfl
  | cons key path ih =>
      cases datum with
      | scalar value => rfl
      | table place =>
          have hplace := hreaches place rfl
          rw [Heap.follow, Heap.follow, Datum.rename, index_copy h hdatum hplace]
          cases hvalue : heap.index key (.table place) with
          | none => rfl
          | some value =>
              rw [Option.map_some, Option.bind_some, Option.bind_some]
              refine ih ?_ fun next hnext => ?_
              · cases value with
                | scalar _ => trivial
                | table next => exact hclosed.refers (Heap.refers_of_index hvalue)
              · rw [hnext] at hvalue
                exact hplace.next (Heap.refers_of_index hvalue)

theorem follow_kept (hclosed : heap.Closed) (hkept : heap <+: grown) {datum : Datum}
    (hdatum : datum.Within heap.length) (path : List Scalar) :
    grown.follow path datum = heap.follow path datum := by
  induction path generalizing datum with
  | nil => rfl
  | cons key path ih =>
      cases datum with
      | scalar value => rfl
      | table place =>
          have hobject := List.prefix_iff_getElem?.mp hkept place hdatum
          have hindex : grown.index key (.table place) = heap.index key (.table place) := by
            rw [Heap.index, Heap.index, hobject, List.getElem?_eq_getElem hdatum]
          rw [Heap.follow, Heap.follow, hindex]
          cases hvalue : heap.index key (.table place) with
          | none => rfl
          | some value =>
              rw [Option.bind_some, Option.bind_some]
              refine ih ?_
              cases value with
              | scalar _ => trivial
              | table next => exact hclosed.refers (Heap.refers_of_index hvalue)

theorem reaches_of_follow {path : List Scalar} {datum : Datum}
    {place : Nat} (hfollow : heap.follow path datum = some (.table place)) :
    heap.Reaches datum place := by
  induction path generalizing datum with
  | nil =>
      cases hfollow
      exact .refl
  | cons key path ih =>
      rw [Heap.follow, Option.bind_eq_some_iff] at hfollow
      obtain ⟨value, hvalue, hrest⟩ := hfollow
      cases datum with
      | scalar _ => cases hvalue
      | table first =>
          cases value with
          | scalar _ =>
              cases path with
              | nil => cases hrest
              | cons _ _ => cases hrest
          | table next =>
              exact Relation.ReflTransGen.head (Heap.refers_of_index hvalue) (ih hrest)

/-- `deepcopy` on any closed heap, with shared tables and cycles: it returns, the tables of the
original are left as they were, each path leads in the copy to what it leads to in the
original, no path of the copy leads back to a table of the original, and two paths meet in
the copy exactly when they meet in the original. -/
theorem deepcopy_paths (getmetatable : μ → μ) (order : Nat → Order) (hclosed : heap.Closed)
    (hobject : object.Within heap.length) {depth : Nat} (hdepth : heap.length < depth) :
    ∃ copied grown copyOf, deepcopy getmetatable order depth heap object = .ok (copied, grown) ∧
      CopyOf getmetatable heap object copied grown copyOf ∧
      (∀ path, grown.follow path object = heap.follow path object) ∧
      (∀ path, (grown.follow path copied).map Datum.key =
        (heap.follow path object).map Datum.key) ∧
      (∀ path place, grown.follow path copied = some (.table place) → heap.length ≤ place) ∧
      ∀ path other first second, heap.follow path object = some (.table first) →
        heap.follow other object = some (.table second) →
        (first = second ↔ grown.follow path copied = grown.follow other copied) := by
  obtain ⟨copied, grown, copyOf, hrun, h⟩ := deepcopy_copies getmetatable order hclosed hobject
    hdepth
  have hfollow : ∀ path, grown.follow path copied =
      (heap.follow path object).map (Datum.rename copyOf) := by
    intro path
    rw [h.root]
    refine follow_copy h hclosed hobject (fun place hplace => ?_) path
    rw [hplace]
    exact .refl
  refine ⟨copied, grown, copyOf, hrun, h, follow_kept hclosed h.kept hobject, fun path => ?_,
    fun path place hplace => ?_, fun path other first second hfirst hsecond => ?_⟩
  · rw [hfollow, Option.map_map]
    exact congrArg (fun f => (heap.follow path object).map f) (funext key_rename)
  · rw [hfollow, Option.map_eq_some_iff] at hplace
    obtain ⟨datum, hdatum, hrenamed⟩ := hplace
    cases datum with
    | scalar _ => cases hrenamed
    | table source =>
        obtain rfl : copyOf source = place := by simpa [Datum.rename] using hrenamed
        exact (h.bijective.mapsTo (reaches_of_follow hdatum)).1
  · rw [hfollow, hfollow, hfirst, hsecond]
    constructor
    · rintro rfl
      rfl
    · intro hsame
      have hsame' : copyOf first = copyOf second := by
        simpa [Datum.rename] using hsame
      exact h.bijective.injOn (reaches_of_follow hfirst)
        (reaches_of_follow hsecond) hsame'

def knot : Heap Unit :=
  [⟨[⟨.scalar (.string "first".toList), .table 1⟩,
      ⟨.scalar (.string "second".toList), .table 1⟩].toAList, none⟩,
   ⟨[⟨.scalar (.number 1), .table 1⟩].toAList, some ()⟩]

theorem deepcopy_paths_knot :
    ∃ copied grown copyOf,
      deepcopy id (fun _ => Order.plain) 3 knot (.table 0) = .ok (copied, grown) ∧
        CopyOf id knot (.table 0) copied grown copyOf ∧
        (∀ path, grown.follow path (.table 0) = knot.follow path (.table 0)) ∧
        (∀ path, (grown.follow path copied).map Datum.key =
          (knot.follow path (.table 0)).map Datum.key) ∧
        (∀ path place, grown.follow path copied = some (.table place) → 2 ≤ place) ∧
        ∀ path other first second, knot.follow path (.table 0) = some (.table first) →
          knot.follow other (.table 0) = some (.table second) →
          (first = second ↔ grown.follow path copied = grown.follow other copied) := by
  have hclosed : ∀ object ∈ knot, object.entries.entries.all (fun entry =>
      decide (entry.1.Within 2) && decide (entry.2.Within 2)) = true := by
    simp only [knot, List.forall_mem_cons]
    exact ⟨rfl, rfl, by simp⟩
  refine deepcopy_paths id _ (fun object hobject entry hentry => ?_) (by decide) (by decide)
  simpa [Entry.Within, knot] using List.all_eq_true.mp (hclosed object hobject) entry hentry

end Paths

end OpenSan.Common
