import OpenSan.Common.DeepCopy
import OpenSan.Foundation.Unfolding
import OpenSan.Web.Serialization

/-!
# Shared tables in the text of the page

`serialize_data` on tables that may be shared or cyclic: `seen` has the tables met so
far, and one that is met again is refused.
-/

namespace OpenSan.Web.Shared

open OpenSan.Foundation OpenSan.Common

variable {μ : Type}

abbrev Serializer := List Nat → Datum → Except Error (List Char × List Nat)

def recursionDetected : Error := .assertion "Recursion detected."

def isApart (length : Nat) : Datum → Bool
  | .scalar key => apart length key
  | .table _ => true

def keyPlace (length ilen : Nat) : Datum → Nat
  | .scalar key => nextPlace length ilen key
  | .table _ => ilen

def comma (text : List Char) : List Char := if 0 < text.length then ", ".toList else []

def takeEntry (serialize : Serializer) (length : Nat)
    (state : (List Char × Nat) × List Nat) (entry : Entry) :
    Except Error ((List Char × Nat) × List Nat) :=
  let ((data, ilen), seen) := state
  if isApart length entry.1 then do
    let (key, seen) ← serialize seen entry.1
    let (value, seen) ← serialize seen entry.2
    .ok ((data ++ comma data ++ ('[' :: key ++ "] = ".toList ++ value), ilen), seen)
  else .ok ((data, keyPlace length ilen entry.1), seen)

def takePlace (serialize : Serializer) (entries : Table Datum Datum)
    (state : List Char × List Nat) (i : Nat) : Except Error (List Char × List Nat) := do
  let (idata, seen) := state
  let (value, seen) ← match entries.lookup (.scalar (.number (i + 1 : Nat))) with
    | none => .ok ("nil".toList, seen)
    | some datum => serialize seen datum
  .ok (idata ++ comma idata ++ value, seen)

section Serialize

variable (order : Nat → Order) (border : Nat → Nat) (heap : Heap μ)

def serializeTable (serialize : Serializer) (seen : List Nat) (place : Nat) :
    Except Error (List Char × List Nat) :=
  if place ∈ seen then .error recursionDetected
  else do
    let t ← nonNil "t" heap[place]?
    let ((data, ilen), seen) ← ((order place).visit t.entries.entries).foldlM
      (takeEntry serialize (border place)) (([], 0), place :: seen)
    let (idata, seen) ← (List.range ilen).foldlM (takePlace serialize t.entries) ([], seen)
    .ok (idata ++
      (if 0 < data.length ∧ 0 < idata.length then ", ".toList else []) ++ data, seen)

/-- `serialize_data`, with room for `depth` nested tables. -/
def serializeWith : Nat → Serializer
  | _, seen, .scalar value => .ok (serializeScalar value, seen)
  | 0, _, .table _ => .error stackOverflow
  | depth + 1, seen, .table place => do
      let (text, seen) ← serializeTable order border heap (serializeWith depth) seen place
      .ok ("\x7b ".toList ++ text ++ " \x7d".toList, seen)

def serializeData (depth : Nat) (val : Datum) : Except Error (List Char) := do
  let (text, _) ← serializeWith order border heap depth [] val
  .ok text

end Serialize

/-! ## Each table once -/

/-- The run returns `value` and adds `places` to the tables that were seen, or it is refused
when one of them comes up again. -/
def Visits {σ : Type} (places seen : List Nat) (run : Except Error (σ × List Nat)) (value : σ) :
    Prop :=
  if (places ++ seen).Nodup then
    ∃ after, run = .ok (value, after) ∧ after.Perm (places ++ seen)
  else run = .error recursionDetected

/-- The tables that are below `size` and were not seen leave room for `depth` calls. -/
structure Room (size depth : Nat) (seen : List Nat) : Prop where
  nodup : seen.Nodup
  within : seen ⊆ List.range size
  deep : size < depth + seen.length

section Visits

variable {σ τ : Type} {places seen : List Nat} {size depth : Nat}

theorem Visits.pure (h : seen.Nodup) (value : σ) : Visits [] seen (.ok (value, seen)) value := by
  rw [Visits, List.nil_append, if_pos h]
  exact ⟨seen, rfl, .refl _⟩

theorem Visits.perm {other : List Nat} {run : Except Error (σ × List Nat)} {value : σ}
    (hperm : places.Perm other) (h : Visits places seen run value) :
    Visits other seen run value := by
  have happend := hperm.append_right seen
  unfold Visits at h ⊢
  split at h
  · rename_i hnodup
    obtain ⟨after, hrun, hafter⟩ := h
    rw [if_pos (happend.nodup_iff.mp hnodup)]
    exact ⟨after, hrun, hafter.trans happend⟩
  · rename_i hnodup
    rw [if_neg fun h => hnodup (happend.nodup_iff.mpr h)]
    exact h

theorem Visits.bind {more : List Nat} {run : Except Error (σ × List Nat)} {value : σ}
    {next : σ × List Nat → Except Error (τ × List Nat)} {result : τ}
    (h : Visits places seen run value)
    (hnext : ∀ after, (places ++ seen).Nodup → after.Perm (places ++ seen) →
      Visits more after (next (value, after)) result) :
    Visits (places ++ more) seen (run >>= next) result := by
  have hperm : ((places ++ more) ++ seen).Perm (more ++ (places ++ seen)) := by
    rw [← List.append_assoc]
    exact List.perm_append_comm.append_right seen
  unfold Visits at h
  split at h
  · rename_i hnodup
    obtain ⟨after, rfl, hafter⟩ := h
    have hmore := hnext after hnodup hafter
    have hboth := hperm.trans (hafter.symm.append_left more)
    unfold Visits at hmore ⊢
    rw [ok_bind]
    split at hmore
    · rename_i hall
      obtain ⟨last, hrun, hlast⟩ := hmore
      rw [if_pos (hboth.nodup_iff.mpr hall)]
      exact ⟨last, hrun, hlast.trans hboth.symm⟩
    · rename_i hall
      rw [if_neg fun h => hall (hboth.nodup_iff.mp h)]
      exact hmore
  · rename_i hnodup
    rw [Visits, if_neg fun h => hnodup (List.nodup_append.mp (hperm.nodup_iff.mp h)).2.1, h]
    rfl

theorem Visits.map {run : Except Error (σ × List Nat)} {value : σ} (f : σ → τ)
    (h : Visits places seen run value) :
    Visits places seen (run >>= fun result => .ok (f result.1, result.2)) (f value) := by
  unfold Visits at h ⊢
  split at h
  · rename_i hnodup
    obtain ⟨after, rfl, hafter⟩ := h
    rw [if_pos hnodup]
    exact ⟨after, rfl, hafter⟩
  · rename_i hnodup
    rw [if_neg hnodup, h]
    rfl

theorem Visits.enter {place : Nat} {run : Except Error (σ × List Nat)} {value : σ}
    (h : Visits places (place :: seen) run value) : Visits (place :: places) seen run value := by
  have hperm : (places ++ place :: seen).Perm (place :: places ++ seen) := List.perm_middle
  unfold Visits at h ⊢
  split at h
  · rename_i hnodup
    obtain ⟨after, hrun, hafter⟩ := h
    rw [if_pos (hperm.nodup_iff.mp hnodup)]
    exact ⟨after, hrun, hafter.trans hperm⟩
  · rename_i hnodup
    rw [if_neg fun h => hnodup (hperm.nodup_iff.mpr h)]
    exact h

theorem Room.next (h : Room size depth seen) (hplaces : places ⊆ List.range size)
    (hnodup : (places ++ seen).Nodup) {after : List Nat} (hafter : after.Perm (places ++ seen)) :
    Room size depth after where
  nodup := hafter.nodup_iff.mpr hnodup
  within := fun place hplace => (List.mem_append.mp (hafter.mem_iff.mp hplace)).elim
    (fun hin => hplaces hin) (fun hin => h.within hin)
  deep := by
    have hlength := hafter.length_eq
    rw [List.length_append] at hlength
    have hdeep := h.deep
    omega

theorem Visits.foldlM {ι : Type} {step : σ × List Nat → ι → Except Error (σ × List Nat)}
    {next : σ → ι → σ} {placesOf : ι → List Nat} {items : List ι}
    (hwithin : ∀ item ∈ items, placesOf item ⊆ List.range size)
    (hstep : ∀ item ∈ items, ∀ value seen, Room size depth seen →
      Visits (placesOf item) seen (step (value, seen) item) (next value item))
    (hroom : Room size depth seen) (start : σ) :
    Visits (items.flatMap placesOf) seen (items.foldlM step (start, seen))
      (items.foldl next start) := by
  induction items generalizing start seen with
  | nil => exact .pure hroom.nodup start
  | cons item items ih =>
      rw [List.flatMap_cons, List.foldlM_cons, List.foldl_cons]
      refine (hstep item (by simp) start seen hroom).bind fun after hnodup hafter => ?_
      exact ih (fun other hother => hwithin other (by simp [hother]))
        (fun other hother => hstep other (by simp [hother]))
        (hroom.next (hwithin item (by simp)) hnodup hafter) _

end Visits

/-! ## The text of a table -/

def entryText (entry : Scalar × List Char) : List Char :=
  '[' :: serializeScalar entry.1 ++ "] = ".toList ++ entry.2

def addEntry (length : Nat) (state : List Char × Nat) (entry : Scalar × List Char) :
    List Char × Nat :=
  if apart length entry.1 then (state.1 ++ comma state.1 ++ entryText entry, state.2)
  else (state.1, nextPlace length state.2 entry.1)

theorem foldl_addEntry (length : Nat) (entries : List (Scalar × List Char))
    (state : List Char × Nat) :
    entries.foldl (addEntry length) state =
      (((entries.filter fun entry => apart length entry.1).map entryText).foldl
        (fun text item => text ++ comma text ++ item) state.1,
       (entries.map (·.1)).foldl (nextPlace length) state.2) := by
  induction entries generalizing state with
  | nil => rfl
  | cons entry entries ih =>
      rw [List.foldl_cons, List.map_cons, List.foldl_cons, ih, addEntry, List.filter_cons]
      split
      · rename_i hapart
        rw [List.map_cons, List.foldl_cons, nextPlace_of_apart hapart]
      · rfl

theorem addEntries_eq (length : Nat) (entries : List (Scalar × List Char)) :
    entries.foldl (addEntry length) ([], 0) =
      (joined ((entries.filter fun entry => apart length entry.1).map entryText),
        lastPlace length entries) := by
  rw [foldl_addEntry, lastPlace_eq_foldl]
  rfl

def placesText (length : Nat) (entries : List (Scalar × List Char)) : List Char :=
  (List.range (lastPlace length entries)).foldl (fun text i =>
    text ++ comma text ++ (entries.lookup (.number (i + 1 : Nat))).getD "nil".toList) []

theorem serializeTable_eq_loops (length : Nat) (entries : List (Scalar × List Char)) :
    Web.serializeTable length entries =
      placesText length entries ++
        (if 0 < (entries.foldl (addEntry length) ([], 0)).1.length ∧
          0 < (placesText length entries).length then ", ".toList else []) ++
        (entries.foldl (addEntry length) ([], 0)).1 := by
  have hplaces : placesText length entries = joined
      ((List.range (lastPlace length entries)).map fun i =>
        (entries.lookup (.number (i + 1 : Nat))).getD "nil".toList) := by
    rw [joined, List.foldl_map]
    rfl
  rw [addEntries_eq, hplaces]
  rfl

section Run

variable {order : Nat → Order} {border : Nat → Nat} {heap : Heap μ}

theorem tables_succ (depth place : Nat) :
    heap.tables order (depth + 1) (.table place) =
      place :: (heap.pairs order place).flatMap fun entry => heap.tables order depth entry.2 := by
  simp [Heap.tables, Heap.paths, List.map_flatMap, List.map_map, Function.comp_def]

def textAt (order : Nat → Order) (border : Nat → Nat) (heap : Heap μ) (depth : Nat)
    (datum : Datum) : List Char :=
  Web.serializeData (heap.unfold order border depth datum)

def textsAt (order : Nat → Order) (border : Nat → Nat) (heap : Heap μ) (depth place : Nat) :
    List (Scalar × List Char) :=
  (heap.pairs order place).map fun entry => (entry.1, textAt order border heap depth entry.2)

theorem textAt_table (depth place : Nat) :
    textAt order border heap (depth + 1) (.table place) =
      "\x7b ".toList ++ Web.serializeTable (border place) (textsAt order border heap depth place) ++
        " \x7d".toList := by
  rw [textAt, Heap.unfold, Web.serializeData, Value.fold_table, List.map_map]
  rfl

def Serializes (order : Nat → Order) (border : Nat → Nat) (heap : Heap μ) (depth : Nat) : Prop :=
  ∀ seen datum, Room heap.length depth seen → datum.Within heap.length →
    Visits (heap.tables order depth datum) seen (serializeWith order border heap depth seen datum)
      (textAt order border heap depth datum)

theorem within_of_mem_pairs (hclosed : heap.Closed) {place : Nat} (hplace : place < heap.length)
    {entry : Scalar × Datum} (hentry : entry ∈ heap.pairs order place) :
    entry.2.Within heap.length := by
  have hfollow : heap.follow [entry.1] (.table place) = some entry.2 := by
    rw [Heap.follow, Heap.mem_pairs.mp hentry]
    rfl
  have htable : (Datum.table place).Within heap.length := hplace
  exact Heap.follow_within hclosed htable hfollow

theorem apartTables_subset (hclosed : heap.Closed) {depth place : Nat}
    (hplace : place < heap.length) : ∀ entry ∈ heap.pairs order place,
      (if apart (border place) entry.1 then heap.tables order depth entry.2 else []) ⊆
        List.range heap.length := by
  intro entry hentry
  split
  · exact Heap.tables_subset hclosed (within_of_mem_pairs hclosed hplace hentry) depth
  · simp

theorem takeEntry_visits {depth place : Nat} {seen : List Nat} (hclosed : heap.Closed)
    (hplace : place < heap.length) (hserializes : Serializes order border heap depth)
    (hroom : Room heap.length depth seen) :
    Visits ((heap.pairs order place).flatMap fun entry =>
        if apart (border place) entry.1 then heap.tables order depth entry.2 else []) seen
      ((heap.pairs order place).foldlM (fun state entry =>
        takeEntry (serializeWith order border heap depth) (border place) state
          ⟨.scalar entry.1, entry.2⟩) (([], 0), seen))
      ((textsAt order border heap depth place).foldl (addEntry (border place)) ([], 0)) := by
  rw [textsAt, List.foldl_map]
  refine Visits.foldlM (apartTables_subset hclosed hplace)
    (fun entry hentry state seen hroom => ?_) hroom _
  obtain ⟨data, ilen⟩ := state
  by_cases hapart : apart (border place) entry.1 = true
  · have hvalue := hserializes seen entry.2 hroom (within_of_mem_pairs hclosed hplace hentry)
    have hkey : serializeWith order border heap depth seen (.scalar entry.1) =
        .ok (serializeScalar entry.1, seen) := by
      cases depth <;> rfl
    simp only [takeEntry, addEntry, isApart, hapart, if_true, hkey, ok_bind]
    exact hvalue.map fun value =>
      (data ++ comma data ++ ('[' :: serializeScalar entry.1 ++ "] = ".toList ++ value), ilen)
  · rw [Bool.not_eq_true] at hapart
    simp only [takeEntry, addEntry, isApart, hapart, Bool.false_eq_true, if_false]
    exact .pure hroom.nodup _

theorem takePlace_visits {depth place : Nat} {seen : List Nat} {object : Object μ}
    (hclosed : heap.Closed) (hplace : place < heap.length) (hobject : heap[place]? = some object)
    (hserializes : Serializes order border heap depth) (hroom : Room heap.length depth seen) :
    Visits ((List.range (lastPlace (border place) (heap.pairs order place))).flatMap fun i =>
        (((heap.pairs order place).lookup (.number (i + 1 : Nat))).map
          (heap.tables order depth)).getD []) seen
      ((List.range (lastPlace (border place) (textsAt order border heap depth place))).foldlM
        (takePlace (serializeWith order border heap depth) object.entries) ([], seen))
      (placesText (border place) (textsAt order border heap depth place)) := by
  have hlast : lastPlace (border place) (textsAt order border heap depth place) =
      lastPlace (border place) (heap.pairs order place) := lastPlace_map _
  rw [placesText, hlast]
  refine Visits.foldlM (fun i _ => ?_) (fun i _ idata seen hroom => ?_) hroom _
  · cases hfound : (heap.pairs order place).lookup (.number (i + 1 : Nat)) with
    | none => simp
    | some datum =>
        exact Heap.tables_subset hclosed
          (within_of_mem_pairs hclosed hplace (mem_of_lookup hfound)) depth
  · unfold takePlace textsAt
    dsimp only
    rw [Heap.lookup_eq_index hobject, ← Heap.lookup_pairs order, lookup_map]
    cases hfound : (heap.pairs order place).lookup (.number (i + 1 : Nat)) with
    | none => exact .pure hroom.nodup _
    | some datum =>
        have hvalue := hserializes seen datum hroom
          (within_of_mem_pairs hclosed hplace (mem_of_lookup hfound))
        exact hvalue.map fun value => idata ++ comma idata ++ value

theorem serializeTable_visits {depth place : Nat} {seen : List Nat} (hclosed : heap.Closed)
    (hkeys : heap.ScalarKeys) (hplace : place < heap.length)
    (hserializes : Serializes order border heap depth)
    (hroom : Room heap.length (depth + 1) seen) :
    Visits (heap.tables order (depth + 1) (.table place)) seen
      (serializeTable order border heap (serializeWith order border heap depth) seen place)
      (Web.serializeTable (border place) (textsAt order border heap depth place)) := by
  rw [tables_succ]
  unfold serializeTable
  by_cases hseen : place ∈ seen
  · rw [if_pos hseen, Visits, if_neg]
    exact fun hnodup => (List.nodup_append.mp hnodup).2.2 place (by simp) place hseen rfl
  · have hobject := List.getElem?_eq_getElem hplace
    have hinside : Room heap.length depth (place :: seen) := by
      refine ⟨List.nodup_cons.mpr ⟨hseen, hroom.nodup⟩, ?_, ?_⟩
      · exact List.cons_subset.mpr ⟨List.mem_range.mpr hplace, hroom.within⟩
      · have hdeep := hroom.deep
        rw [List.length_cons]
        omega
    rw [if_neg hseen]
    simp only [hobject, nonNil, ok_bind, Heap.visit_eq hkeys hobject, List.foldlM_map]
    have hperm := flatMap_places_perm (border place) (heap.tables order depth)
      (Heap.keys_nodup_pairs heap order place)
    refine ((takeEntry_visits hclosed hplace hserializes hinside).bind
      fun after hnodup hafter => ?_).enter.perm (.cons _ hperm)
    have hsubset : (heap.pairs order place).flatMap (fun entry =>
        if apart (border place) entry.1 then heap.tables order depth entry.2 else []) ⊆
          List.range heap.length := by
      intro other hother
      obtain ⟨entry, hentry, hin⟩ := List.mem_flatMap.mp hother
      exact apartTables_subset hclosed hplace entry hentry hin
    rw [serializeTable_eq_loops, addEntries_eq]
    exact (takePlace_visits hclosed hplace hobject hserializes
      (hinside.next hsubset hnodup hafter)).map fun idata =>
        idata ++ (if 0 < _ ∧ 0 < idata.length then ", ".toList else []) ++ _

theorem serializes (order : Nat → Order) (border : Nat → Nat) (hclosed : heap.Closed)
    (hkeys : heap.ScalarKeys) (depth : Nat) : Serializes order border heap depth := by
  induction depth with
  | zero =>
      intro seen datum hroom _
      have hlength := (List.subperm_of_subset hroom.nodup hroom.within).length_le
      have hdeep := hroom.deep
      rw [List.length_range] at hlength
      omega
  | succ depth ih =>
      intro seen datum hroom hdatum
      cases datum with
      | scalar value => exact .pure hroom.nodup _
      | table place =>
          rw [serializeWith, textAt_table]
          exact (serializeTable_visits hclosed hkeys hdatum ih hroom).map fun text =>
            "\x7b ".toList ++ text ++ " \x7d".toList

theorem serializeData_eq (order : Nat → Order) (border : Nat → Nat) (hclosed : heap.Closed)
    (hkeys : heap.ScalarKeys) {root : Datum} (hroot : root.Within heap.length) {depth : Nat}
    (hdepth : heap.length < depth) :
    (heap.Unshared root →
      serializeData order border heap depth root = .ok (textAt order border heap depth root)) ∧
    (¬heap.Unshared root →
      serializeData order border heap depth root = .error recursionDetected) := by
  have hvisits := serializes order border hclosed hkeys depth [] root
    ⟨List.nodup_nil, by simp, by simpa using hdepth⟩ hroot
  have hnodup := Heap.tables_nodup_iff order hclosed hroot hdepth
  rw [Visits, List.append_nil] at hvisits
  constructor
  · intro hunshared
    rw [if_pos (hnodup.mpr hunshared)] at hvisits
    obtain ⟨after, hrun, -⟩ := hvisits
    rw [serializeData, hrun]
    rfl
  · intro hshared
    rw [if_neg fun h => hshared (hnodup.mp h)] at hvisits
    rw [serializeData, hvisits]
    rfl

/-- The keys are scalars, and the numbers among them come back as they are. -/
def StorableKeys (heap : Heap μ) : Prop :=
  ∀ object ∈ heap, ∀ entry ∈ object.entries.entries,
    ∃ key, entry.1 = .scalar key ∧ exactKey key

theorem exactKey_of_mem_pairs (h : StorableKeys heap) {place : Nat} {entry : Scalar × Datum}
    (hentry : entry ∈ heap.pairs order place) : exactKey entry.1 := by
  have hindex := Heap.mem_pairs.mp hentry
  rw [Heap.index, Option.bind_eq_some_iff] at hindex
  obtain ⟨object, hobject, hlookup⟩ := hindex
  obtain ⟨key, hkey, hexact⟩ := h object (List.mem_of_getElem? hobject) _
    (AList.mem_lookup_iff.mp hlookup)
  obtain rfl : entry.1 = key := by simpa using hkey
  exact hexact

theorem storable_unfold (order : Nat → Order) (border : Nat → Nat) (h : StorableKeys heap)
    (depth : Nat) (datum : Datum) :
    Storable (heap.unfold order border depth datum) := by
  induction depth generalizing datum with
  | zero =>
      cases datum with
      | scalar value => exact .scalar value
      | table place => exact .table (by simp) (by simp) (by simp)
  | succ depth ih =>
      cases datum with
      | scalar value => exact .scalar value
      | table place =>
          rw [Heap.unfold]
          refine .table ?_ ?_ ?_
          · rw [List.map_map]
            exact Heap.keys_nodup_pairs heap order place
          · intro entry hentry
            obtain ⟨source, hsource, rfl⟩ := List.mem_map.mp hentry
            exact exactKey_of_mem_pairs h hsource
          · intro entry hentry
            obtain ⟨source, -, rfl⟩ := List.mem_map.mp hentry
            exact ih source.2

/-- `serialize_data` raises exactly when some table is reached along two paths; otherwise
what is restored from its text shows along each path what the tables do, the numbers
rounded to 14 digits. -/
theorem serializeData_restores (order : Nat → Order) (border : Nat → Nat) (hclosed : heap.Closed)
    (hkeys : StorableKeys heap) {root : Datum} (hroot : root.Within heap.length) {depth : Nat}
    (hdepth : heap.length < depth) :
    (heap.Unshared root → ∃ text restored,
      serializeData order border heap depth root = .ok text ∧
      restoreData text = some (some restored) ∧
      ∀ path, (restored.follow path).map Value.leaf =
        (heap.follow path root).map fun datum => datum.key.map roundScalar) ∧
    (¬heap.Unshared root →
      serializeData order border heap depth root = .error recursionDetected) := by
  have hscalar : heap.ScalarKeys := by
    intro object hobject entry hentry
    obtain ⟨key, hkey, -⟩ := hkeys object hobject entry hentry
    exact ⟨key, hkey⟩
  obtain ⟨hwritten, hrefused⟩ := serializeData_eq order border hclosed hscalar hroot
    hdepth
  refine ⟨fun hunshared => ?_, hrefused⟩
  obtain ⟨restored, hrestored, hsame⟩ := restoreData_serializeData
    (storable_unfold order border hkeys depth root)
  refine ⟨_, restored, hwritten hunshared, hrestored, fun path => ?_⟩
  have hnodup := (Heap.tables_nodup_iff order hclosed hroot hdepth).mpr hunshared
  have hunfolded : ((heap.unfold order border depth root).follow path).map Value.leaf =
      (heap.follow path root).map Datum.key :=
    Heap.follow_unfold order border fun start place _ hfollow =>
      (Heap.length_lt_of_nodup hclosed hroot hdepth hnodup hfollow).trans hdepth
  rw [hsame path, follow_rounded]
  cases hvalue : (heap.unfold order border depth root).follow path with
  | none =>
      rw [hvalue] at hunfolded
      cases hdatum : heap.follow path root with
      | none => rfl
      | some datum =>
          rw [hdatum] at hunfolded
          cases hunfolded
  | some value =>
      rw [hvalue] at hunfolded
      cases hdatum : heap.follow path root with
      | none =>
          rw [hdatum] at hunfolded
          cases hunfolded
      | some datum =>
          rw [hdatum, Option.map_some, Option.map_some, Option.some.injEq] at hunfolded
          rw [Option.map_some, Option.map_some, Option.map_some, leaf_rounded, hunfolded]

end Run

/-- Of a value with exact keys `serialize_data` makes a text exactly when no table is reached
along two paths, so neither a shared table nor a cycle is ever written; what is restored
from a text shows along every path what the tables do, the numbers rounded to 14 digits. -/
theorem serializeData_ok_iff (order : Nat → Order) (border : Nat → Nat) {heap : Heap μ}
    (hclosed : heap.Closed) (hkeys : StorableKeys heap) {root : Datum}
    (hroot : root.Within heap.length) {depth : Nat} (hdepth : heap.length < depth) :
    ((∃ text, serializeData order border heap depth root = .ok text) ↔ heap.Unshared root) ∧
    ∀ text, serializeData order border heap depth root = .ok text →
      ∃ restored, restoreData text = some (some restored) ∧
        ∀ path, (restored.follow path).map Value.leaf =
          (heap.follow path root).map fun datum => datum.key.map roundScalar := by
  obtain ⟨hwritten, hrefused⟩ := serializeData_restores order border hclosed hkeys hroot hdepth
  have hunshared : ∀ text, serializeData order border heap depth root = .ok text →
      heap.Unshared root := by
    intro text htext
    by_contra hshared
    rw [hrefused hshared] at htext
    cases htext
  refine ⟨⟨fun ⟨text, htext⟩ => hunshared text htext, fun h => ?_⟩, fun text htext => ?_⟩
  · obtain ⟨text, -, htext, -⟩ := hwritten h
    exact ⟨text, htext⟩
  · obtain ⟨other, restored, hother, hrestored, hpaths⟩ := hwritten (hunshared text htext)
    obtain rfl : other = text := by
      rw [hother] at htext
      exact Except.ok.inj htext
    exact ⟨restored, hrestored, hpaths⟩

def drive : Heap Unit :=
  [⟨[⟨.scalar (.string "id".toList), .scalar (.string "0:0".toList)⟩,
      ⟨.scalar (.string "state".toList), .table 1⟩].toAList, none⟩,
   ⟨[⟨.scalar (.string "free".toList), .scalar (.boolean true)⟩].toAList, none⟩]

theorem serializeData_ok_iff_drive :
    ((∃ text, serializeData (fun _ => Order.plain) (fun _ => 0) drive 3 (.table 0) = .ok text) ↔
      drive.Unshared (.table 0)) ∧
    ∀ text, serializeData (fun _ => Order.plain) (fun _ => 0) drive 3 (.table 0) = .ok text →
      ∃ restored, restoreData text = some (some restored) ∧
        ∀ path, (restored.follow path).map Value.leaf =
          (drive.follow path (.table 0)).map fun datum => datum.key.map roundScalar := by
  have hfields : ∀ object ∈ drive, ∀ entry ∈ object.entries.entries,
      (∃ text, entry.1 = .scalar (.string text)) ∧ entry.2.Within 2 := by
    simp only [drive, List.forall_mem_cons]
    refine ⟨fun entry hentry => ?_, fun entry hentry => ?_, by simp⟩
    · rcases List.mem_cons.mp hentry with rfl | hrest
      · exact ⟨⟨_, rfl⟩, by decide⟩
      · obtain rfl := List.mem_singleton.mp hrest
        exact ⟨⟨_, rfl⟩, by decide⟩
    · obtain rfl := List.mem_singleton.mp hentry
      exact ⟨⟨_, rfl⟩, by decide⟩
  refine serializeData_ok_iff _ _ (fun object hobject entry hentry => ?_)
    (fun object hobject entry hentry => ?_) (by decide) (by decide)
  · obtain ⟨⟨text, hkey⟩, hwithin⟩ := hfields object hobject entry hentry
    exact ⟨by rw [hkey]; trivial, hwithin⟩
  · obtain ⟨⟨text, hkey⟩, -⟩ := hfields object hobject entry hentry
    exact ⟨_, hkey, trivial⟩

end OpenSan.Web.Shared
