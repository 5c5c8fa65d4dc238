import Mathlib.Data.List.Flatten
import OpenSan.Lvm.Listing

/-!
# Every active volume is listed once

The loop of `M.LogicalVolume.list` keeps one entry for each row that it has taken,
in its table or among the snapshots of a volume of the table.  A row that reads
like the heading is not taken, and a volume that is kept as a snapshot has no
entry of its own to which its snapshots could be added.
-/

namespace OpenSan.Lvm

open OpenSan.Foundation

variable {volumeGroups : List VolumeGroup} {rows done : List Row} {row : Row}
  {result next : Table String LogicalVolume}

/-! ## Devices -/

def Spelled (label : String × String) : Prop :=
  '/' ∉ label.1.toList ∧ '/' ∉ label.2.toList

private theorem slash_not_mem {name : String}
    (h : ∀ c ∈ name.toList, nameCharacter c = true) : '/' ∉ name.toList :=
  fun hslash => absurd (h '/' hslash) (by decide)

theorem Row.spelled (row : Row) : Spelled row.label :=
  ⟨slash_not_mem (List.all_eq_true.mp row.volumeGroup_valid.2),
    slash_not_mem (nameIsValid_characters row.name_valid).2⟩

theorem deviceOf_inj {a b : String × String} (hb : Spelled b)
    (h : deviceOf a = deviceOf b) : a = b := by
  have hlist := congrArg String.toList h
  simp only [deviceOf, vglvDevice, String.toList_append, List.append_assoc,
    List.append_cancel_left_eq] at hlist
  obtain ⟨hgroup, _, hname⟩ :=
    (List.append_cons_inj_of_notMem hb.1 hb.2).mp hlist.symm
  exact Prod.ext (String.toList_inj.mp hgroup.symm) (String.toList_inj.mp hname.symm)

/-! ## Entries of the table -/

def LogicalVolume.labels (volume : LogicalVolume) : List (String × String) :=
  volume.label :: volume.snapshots.map Snapshot.label

def labelsOf (result : Table String LogicalVolume) : List (String × String) :=
  result.entries.flatMap fun entry => entry.2.labels

theorem labelsOf_insert_fresh {device : String} {volume : LogicalVolume}
    (h : device ∉ result.keys) :
    labelsOf (result.insert device volume) = volume.labels ++ labelsOf result := by
  rw [labelsOf, AList.entries_insert_of_notMem (by rwa [AList.mem_keys])]
  rfl

theorem labelsOf_insert {device : String} {volume volume' : LogicalVolume}
    {more : List (String × String)} (h : result.lookup device = some volume)
    (hlabels : volume'.labels.Perm (more ++ volume.labels)) :
    (labelsOf (result.insert device volume')).Perm (more ++ labelsOf result) := by
  have hkey : device ∈ result.entries.keys :=
    AList.mem_keys.mp (AList.lookup_isSome.mp (by rw [h]; rfl))
  obtain ⟨value, before, after, hfresh, hentries, herase⟩ := List.exists_of_kerase hkey
  obtain rfl : volume = value := by
    have hvalue : result.lookup device = some value :=
      AList.mem_lookup_iff.mpr (by rw [hentries]; simp)
    exact Option.some.inj (h.symm.trans hvalue)
  have hnew : labelsOf (result.insert device volume') =
      volume'.labels ++ (before ++ after).flatMap fun entry => entry.2.labels := by
    rw [← herase]
    rfl
  have hold : (labelsOf result).Perm
      (volume.labels ++ (before ++ after).flatMap fun entry => entry.2.labels) := by
    rw [labelsOf, hentries]
    exact List.perm_middle.flatMap_right _
  rw [hnew]
  have hleft := hlabels.append_right ((before ++ after).flatMap fun entry => entry.2.labels)
  rw [List.append_assoc] at hleft
  exact hleft.trans (hold.symm.append_left more)

theorem label_mem_labelsOf {device : String} {volume : LogicalVolume}
    (h : result.lookup device = some volume) : volume.label ∈ labelsOf result :=
  List.mem_flatMap.mpr ⟨_, AList.mem_lookup_iff.mp h, by simp [LogicalVolume.labels]⟩

/-! ## The invariant of the loop -/

structure Tabled (volumeGroups : List VolumeGroup) (rows done : List Row)
    (result : Table String LogicalVolume) : Prop where
  counted : (labelsOf result).Perm ((done.filter (·.taken volumeGroups)).map Row.label)
  keyed : ∀ device volume, result.lookup device = some volume → device = deviceOf volume.label
  within : ∀ device volume, result.lookup device = some volume →
    ∀ snapshot ∈ volume.snapshots, snapshot.device = deviceOf snapshot.label ∧
      ∃ row ∈ done, row.label = snapshot.label ∧
        row.volumeGroup = volume.volumeGroup.name ∧ row.origin = some volume.name
  heads : ∀ row ∈ done, row.taken volumeGroups = true →
    (∀ origin ∈ rows, origin.taken volumeGroups = true → ¬ origin.OriginOf row) →
    deviceOf row.label ∈ result.keys
  placed : ∀ row ∈ done, row.taken volumeGroups = true →
    ∀ origin ∈ rows, origin.taken volumeGroups = true → origin.OriginOf row →
      (∀ first ∈ rows, first.taken volumeGroups = true → ¬ first.OriginOf origin) →
      ∃ volume, result.lookup (deviceOf origin.label) = some volume ∧
        row.label ∈ volume.snapshots.map Snapshot.label

/-- Each origin that is listed comes before its snapshots. -/
def OriginsFirst (rows : List Row) : Prop :=
  ∀ done row rest, rows = done ++ row :: rest →
    ∀ origin ∈ rows, origin.OriginOf row → origin ∈ done

theorem OriginsFirst.of_append {volumes snapshots : List Row}
    (hvolumes : ∀ row ∈ volumes, row.origin = none)
    (hsnapshots : ∀ row ∈ snapshots, ∀ origin ∈ snapshots, ¬ origin.OriginOf row) :
    OriginsFirst (volumes ++ snapshots) := by
  intro done row rest hrows origin horigin hof
  rcases List.append_eq_append_iff.mp hrows with ⟨before, rfl, hsplit⟩ | ⟨after, rfl, hsplit⟩
  · rcases List.mem_append.mp horigin with hin | hin
    · exact List.mem_append_left _ hin
    · exact absurd hof (hsnapshots row (by simp [hsplit]) origin hin)
  · cases after with
    | nil =>
        rw [List.nil_append] at hsplit
        rcases List.mem_append.mp horigin with hin | hin
        · simpa using hin
        · exact absurd hof (hsnapshots row (by simp [← hsplit]) origin hin)
    | cons first after =>
        obtain rfl : row = first := (List.cons.inj hsplit).1
        have hnone := hvolumes row (by simp)
        rw [hof.2] at hnone
        cases hnone

theorem Tabled.nil : Tabled volumeGroups rows [] ∅ where
  counted := by simp [labelsOf]
  keyed := by simp
  within := by simp
  heads := by simp
  placed := by simp

section Step

variable (h : Tabled volumeGroups rows done result)

include h in
theorem Tabled.row_of_lookup {device : String} {volume : LogicalVolume}
    (hlookup : result.lookup device = some volume) :
    ∃ row ∈ done, row.taken volumeGroups = true ∧ row.label = volume.label := by
  have hin := h.counted.mem_iff.mp (label_mem_labelsOf hlookup)
  obtain ⟨row, hrow, hlabel⟩ := List.mem_map.mp hin
  obtain ⟨hdone, htaken⟩ := List.mem_filter.mp hrow
  exact ⟨row, hdone, htaken, hlabel⟩

include h in
theorem Tabled.label_of_lookup {label : String × String}
    {volume : LogicalVolume} (hlookup : result.lookup (deviceOf label) = some volume) :
    volume.label = label := by
  obtain ⟨row, _, _, hrow⟩ := h.row_of_lookup hlookup
  exact (deviceOf_inj (hrow ▸ row.spelled) (h.keyed _ _ hlookup)).symm

theorem lookup_isSome_of_mem {device : String} (hkey : device ∈ result.keys) :
    ∃ volume, result.lookup device = some volume :=
  Option.isSome_iff_exists.mp (AList.lookup_isSome.mpr (AList.mem_keys.mpr hkey))

theorem mem_keys_of_lookup {device : String} {volume : LogicalVolume}
    (hlookup : result.lookup device = some volume) : device ∈ result.keys :=
  AList.mem_keys.mp (AList.lookup_isSome.mp (by rw [hlookup]; rfl))

theorem mem_keys_insert {device other : String} {volume : LogicalVolume} :
    other ∈ (result.insert device volume).keys ↔ other = device ∨ other ∈ result.keys := by
  rw [← AList.mem_keys, AList.mem_insert, AList.mem_keys]

theorem lookup_insert_cases {device other : String} {volume found : LogicalVolume}
    (hlookup : (result.insert device volume).lookup other = some found) :
    other = device ∧ found = volume ∨ other ≠ device ∧ result.lookup other = some found := by
  by_cases heq : other = device
  · subst heq
    rw [AList.lookup_insert] at hlookup
    exact .inl ⟨rfl, (Option.some.inj hlookup).symm⟩
  · rw [AList.lookup_insert_ne heq] at hlookup
    exact .inr ⟨heq, hlookup⟩

private theorem filter_taken_concat (htaken : row.taken volumeGroups = true) :
    ((done ++ [row]).filter (·.taken volumeGroups)).map Row.label =
      (done.filter (·.taken volumeGroups)).map Row.label ++ [row.label] := by
  simp [List.filter_append, htaken]

include h in
theorem Tabled.passed (hother : row.taken volumeGroups = false) :
    Tabled volumeGroups rows (done ++ [row]) result := by
  have hdone (other : Row) (hin : other ∈ done ++ [row])
      (htaken : other.taken volumeGroups = true) : other ∈ done := by
    rcases List.mem_append.mp hin with hin | hin
    · exact hin
    · rw [List.mem_singleton.mp hin, hother] at htaken
      cases htaken
  refine ⟨?_, h.keyed, ?_, fun other hin htaken => h.heads other (hdone other hin htaken) htaken,
    fun other hin htaken => h.placed other (hdone other hin htaken) htaken⟩
  · simpa [List.filter_append, hother] using h.counted
  · intro device volume hlookup snapshot hsnapshot
    obtain ⟨hdevice, other, hin, hrest⟩ := h.within device volume hlookup snapshot hsnapshot
    exact ⟨hdevice, other, by simp [hin], hrest⟩

variable {rest : List Row} (hrows : rows = done ++ row :: rest) (horigins : OriginsFirst rows)
  (hdistinct : (rows.map Row.label).Nodup)

include h hrows hdistinct in
theorem Tabled.fresh : deviceOf row.label ∉ result.keys := by
  intro hkey
  obtain ⟨volume, hlookup⟩ := lookup_isSome_of_mem hkey
  obtain ⟨other, hother, _, hlabel⟩ := h.row_of_lookup hlookup
  rw [h.label_of_lookup hlookup] at hlabel
  rw [hrows, List.map_append, List.map_cons] at hdistinct
  have hbefore := (List.nodup_append.mp hdistinct).2.2 other.label
    (List.mem_map_of_mem hother) row.label (by simp)
  exact hbefore hlabel

include h hrows horigins hdistinct in
theorem Tabled.outside (htaken : row.taken volumeGroups = true) {volume : LogicalVolume}
    (hnone : ∀ origin, row.origin = some origin →
      result.lookup (deviceOf (row.volumeGroup, origin)) = none)
    (hlabel : volume.label = row.label) (hsnapshots : volume.snapshots = []) :
    Tabled volumeGroups rows (done ++ [row]) (result.insert (deviceOf row.label) volume) := by
  have hfresh := h.fresh hrows hdistinct
  have hkept {device : String} {old : LogicalVolume} (hold : result.lookup device = some old) :
      (result.insert (deviceOf row.label) volume).lookup device = some old := by
    rw [AList.lookup_insert_ne, hold]
    rintro rfl
    exact hfresh (mem_keys_of_lookup hold)
  constructor
  case counted =>
    rw [labelsOf_insert_fresh hfresh, filter_taken_concat htaken, LogicalVolume.labels,
      hsnapshots, hlabel, List.map_nil]
    exact (h.counted.cons row.label).trans (List.perm_append_singleton _ _).symm
  case keyed =>
    intro device found hlookup
    rcases lookup_insert_cases hlookup with ⟨rfl, rfl⟩ | ⟨_, hold⟩
    · rw [hlabel]
    · exact h.keyed device found hold
  case within =>
    intro device found hlookup snapshot hsnapshot
    rcases lookup_insert_cases hlookup with ⟨rfl, rfl⟩ | ⟨_, hold⟩
    · simp [hsnapshots] at hsnapshot
    · obtain ⟨hdevice, other, hin, hother⟩ := h.within device found hold snapshot hsnapshot
      exact ⟨hdevice, other, by simp [hin], hother⟩
  case heads =>
    intro other hother htaken' horigin
    rw [mem_keys_insert]
    rcases List.mem_append.mp hother with hin | hin
    · exact .inr (h.heads other hin htaken' horigin)
    · rw [List.mem_singleton.mp hin]
      exact .inl rfl
  case placed =>
    intro other hother htaken' origin horigin htakenOrigin hof hhead
    rcases List.mem_append.mp hother with hin | hin
    · obtain ⟨old, hold, hlabel⟩ :=
        h.placed other hin htaken' origin horigin htakenOrigin hof hhead
      exact ⟨old, hkept hold, hlabel⟩
    · obtain rfl := List.mem_singleton.mp hin
      -- the origin has an entry, so the row would have gone into it
      have hdone := horigins done other rest hrows origin horigin hof
      obtain ⟨old, hold⟩ :=
        lookup_isSome_of_mem (h.heads origin hdone htakenOrigin hhead)
      have habsent := hnone origin.name hof.2
      rw [hof.1] at habsent
      exact absurd (hold.symm.trans habsent) (by simp)

include h in
theorem Tabled.inside (htaken : row.taken volumeGroups = true) {origin : String}
    {volume : LogicalVolume} {snapshot : Snapshot} (horigin : row.origin = some origin)
    (hlookup : result.lookup (deviceOf (row.volumeGroup, origin)) = some volume)
    (hlabel : snapshot.label = row.label) (hdevice : snapshot.device = deviceOf row.label)
    (hsub : ∀ other ∈ done, other ∈ rows) :
    Tabled volumeGroups rows (done ++ [row])
      (result.insert (deviceOf (row.volumeGroup, origin))
        { volume with snapshots := volume.snapshots ++ [snapshot] }) := by
  have hvolume : volume.label = (row.volumeGroup, origin) := h.label_of_lookup hlookup
  have hgroup : row.volumeGroup = volume.volumeGroup.name := (Prod.mk.inj hvolume).1.symm
  have hname : origin = volume.name := (Prod.mk.inj hvolume).2.symm
  have hnew : LogicalVolume.label { volume with snapshots := volume.snapshots ++ [snapshot] } =
      volume.label := rfl
  constructor
  case counted =>
    have hlabels : (LogicalVolume.labels
        { volume with snapshots := volume.snapshots ++ [snapshot] }).Perm
          ([row.label] ++ volume.labels) := by
      rw [LogicalVolume.labels, hnew, List.map_append, List.map_singleton, hlabel,
        ← List.cons_append]
      exact List.perm_append_comm
    rw [filter_taken_concat htaken]
    exact (labelsOf_insert hlookup hlabels).trans
      ((h.counted.append_left _).trans List.perm_append_comm)
  case keyed =>
    intro device found hfound
    rcases lookup_insert_cases hfound with ⟨rfl, rfl⟩ | ⟨_, hold⟩
    · rw [hnew, hvolume]
    · exact h.keyed device found hold
  case within =>
    intro device found hfound other hother
    have hback {found : LogicalVolume} (hold : result.lookup device = some found)
        (hother : other ∈ found.snapshots) : other.device = deviceOf other.label ∧
          ∃ row' ∈ done ++ [row], row'.label = other.label ∧
            row'.volumeGroup = found.volumeGroup.name ∧ row'.origin = some found.name := by
      obtain ⟨hdevice, row', hin, hrow'⟩ := h.within device found hold other hother
      exact ⟨hdevice, row', by simp [hin], hrow'⟩
    rcases lookup_insert_cases hfound with ⟨rfl, rfl⟩ | ⟨_, hold⟩
    · rcases List.mem_append.mp hother with hin | hin
      · have hold := hback hlookup hin
        exact hold
      · obtain rfl := List.mem_singleton.mp hin
        exact ⟨hdevice.trans (congrArg deviceOf hlabel.symm), row, by simp, hlabel.symm, hgroup,
          by rw [horigin, hname]⟩
    · exact hback hold hother
  case heads =>
    intro other hother htaken' hhead
    rw [mem_keys_insert]
    rcases List.mem_append.mp hother with hin | hin
    · exact .inr (h.heads other hin htaken' hhead)
    · obtain rfl := List.mem_singleton.mp hin
      obtain ⟨first, hfirst, htakenFirst, hfirstLabel⟩ := h.row_of_lookup hlookup
      rw [hvolume] at hfirstLabel
      obtain ⟨hsame, hsame'⟩ := Prod.mk.inj hfirstLabel
      exact absurd ⟨hsame.symm, by rw [horigin, ← hsame']⟩
        (hhead first (hsub first hfirst) htakenFirst)
  case placed =>
    intro other hother htaken' first hfirst htakenFirst hof hhead
    rcases List.mem_append.mp hother with hin | hin
    · obtain ⟨old, hold, hmem⟩ := h.placed other hin htaken' first hfirst htakenFirst hof hhead
      by_cases heq : deviceOf first.label = deviceOf (row.volumeGroup, origin)
      · rw [heq] at hold ⊢
        obtain rfl : volume = old := Option.some.inj (hlookup.symm.trans hold)
        refine ⟨_, AList.lookup_insert _, ?_⟩
        rw [List.map_append]
        exact List.mem_append_left _ hmem
      · exact ⟨old, by rw [AList.lookup_insert_ne heq, hold], hmem⟩
    · obtain rfl := List.mem_singleton.mp hin
      have hsame : first.label = (other.volumeGroup, origin) :=
        Prod.ext hof.1.symm (Option.some.inj (hof.2.symm.trans horigin))
      rw [hsame]
      refine ⟨_, AList.lookup_insert _, ?_⟩
      simp [hlabel]

include h hrows horigins hdistinct in
theorem Tabled.step (hadds : Adds volumeGroups row result next) :
    Tabled volumeGroups rows (done ++ [row]) next := by
  cases hadds with
  | passed hother => exact h.passed hother
  | inside origin volume snapshot htaken horigin hlookup hlabel hdevice =>
      exact h.inside htaken horigin hlookup hlabel hdevice (by simp +contextual [hrows])
  | outside volume htaken hnone hlabel hsnapshots =>
      exact h.outside hrows horigins hdistinct htaken hnone hlabel hsnapshots

end Step

theorem Tabled.run (order : Order) {rest : List Row} {lines : List String}
    (hprints : Prints rest lines) (h : Tabled volumeGroups rows done result)
    (hrows : rows = done ++ rest) (horigins : OriginsFirst rows)
    (hdistinct : (rows.map Row.label).Nodup) :
    ∃ final, lines.foldlM (listLine order volumeGroups) result = .ok final ∧
      Tabled volumeGroups rows rows final := by
  induction hprints generalizing done result with
  | nil =>
      rw [List.append_nil] at hrows
      exact ⟨result, rfl, hrows ▸ h⟩
  | heading hcolumns _ ih =>
      obtain ⟨final, hrun, hfinal⟩ := ih h hrows
      refine ⟨final, ?_, hfinal⟩
      rw [List.foldlM_cons, listLine_heading order hcolumns, ok_bind, hrun]
  | row row hcolumns _ ih =>
      obtain ⟨next, hline, hadds⟩ := listLine_row order volumeGroups result hcolumns
      obtain ⟨final, hrun, hfinal⟩ :=
        ih (h.step hrows horigins hdistinct hadds) (by simpa using hrows)
      refine ⟨final, ?_, hfinal⟩
      rw [List.foldlM_cons, hline, ok_bind, hrun]

/-! ## Taking the snapshots out -/

def Listed.label : Listed → String × String
  | .volume found => found.label
  | .snapshot found => found.label

def outerPairs (entry : LogicalVolume × Nat) : List ((Nat ⊕ String) × Listed) :=
  (.inl entry.2, .volume entry.1) ::
    entry.1.snapshots.map fun snapshot => (.inr snapshot.device, .snapshot snapshot)

private theorem snapshotsToOuter_eq (order : Order) (volumes : List LogicalVolume) :
    snapshotsToOuter order volumes = ((order.visit volumes.zipIdx).flatMap outerPairs).foldl
      (fun table pair => table.insert pair.1 pair.2) ∅ := by
  unfold snapshotsToOuter
  rw [List.foldl_flatMap]
  congr 1
  funext processed entry
  rw [outerPairs, List.foldl_cons, List.foldl_map]

private theorem flatMap_zipIdx {α β : Type} (items : List α) (f : α → List β) :
    (items.zipIdx.flatMap fun entry => f entry.1) = items.flatMap f := by
  have hfst : items.zipIdx.map Prod.fst = items := List.zipIdx_map_fst 0 items
  calc (items.zipIdx.flatMap fun entry => f entry.1)
      = (items.zipIdx.map Prod.fst).flatMap f := by rw [List.flatMap_map]
    _ = items.flatMap f := by rw [hfst]

private theorem outerPairs_nodup {volumes : List LogicalVolume}
    (h : (volumes.flatMap fun volume => volume.snapshots.map Snapshot.device).Nodup) :
    ((volumes.zipIdx.flatMap outerPairs).map (·.1)).Nodup := by
  have hperm := List.map_append_flatMap_perm volumes.zipIdx
    (fun entry => (Sum.inl entry.2 : Nat ⊕ String))
    (fun entry => entry.1.snapshots.map fun snapshot => Sum.inr snapshot.device)
  rw [flatMap_zipIdx volumes fun volume => volume.snapshots.map fun snapshot =>
    (Sum.inr snapshot.device : Nat ⊕ String)] at hperm
  have hkeys : (volumes.zipIdx.flatMap outerPairs).map (·.1) =
      volumes.zipIdx.flatMap fun entry => (Sum.inl entry.2 : Nat ⊕ String) ::
        entry.1.snapshots.map fun snapshot => Sum.inr snapshot.device := by
    simp [List.map_flatMap, outerPairs, Function.comp_def]
  have hdevices : (volumes.flatMap fun volume => volume.snapshots.map fun snapshot =>
      (Sum.inr snapshot.device : Nat ⊕ String)) = (volumes.flatMap fun volume =>
        volume.snapshots.map Snapshot.device).map Sum.inr := by
    simp [List.map_flatMap, Function.comp_def]
  rw [hkeys, ← hperm.nodup_iff, hdevices, List.nodup_append]
  refine ⟨?_, h.map Sum.inr_injective, by simp⟩
  have hpositions : (volumes.zipIdx.map Prod.snd).Nodup := by
    rw [List.zipIdx_map_snd]
    exact List.nodup_range'
  have hkeyed := hpositions.map (Sum.inl_injective (β := String))
  rwa [List.map_map] at hkeyed

theorem snapshotsToOuter_labels (order : Order) {volumes : List LogicalVolume}
    (h : (volumes.flatMap fun volume => volume.snapshots.map Snapshot.device).Nodup) :
    ((snapshotsToOuter order volumes).entries.map fun entry => entry.2.label).Perm
      (volumes.flatMap LogicalVolume.labels) := by
  have hvisit : ((order.visit volumes.zipIdx).flatMap outerPairs).Perm
      (volumes.zipIdx.flatMap outerPairs) := (order.perm _).flatMap_right _
  have hnodup := (hvisit.map (·.1)).nodup_iff.mpr (outerPairs_nodup h)
  have hentries := (entries_foldl_insert_perm hnodup).map fun entry => entry.2.label
  rw [← snapshotsToOuter_eq, List.map_map] at hentries
  have hlabels : (volumes.zipIdx.flatMap outerPairs).map (fun pair => pair.2.label) =
      volumes.flatMap LogicalVolume.labels := by
    rw [← flatMap_zipIdx volumes, List.map_flatMap]
    simp [outerPairs, Listed.label, LogicalVolume.labels, Function.comp_def]
  rw [← hlabels]
  exact hentries.trans (hvisit.map _)

/-! ## Which outputs are listed as they should be -/

/-- Each active volume or snapshot of the groups has one entry, and there are no
other entries; a snapshot of an active volume is on the list of that volume only. -/
structure ListedOnce (volumeGroups : List VolumeGroup) (rows : List Row)
    (volumes : List LogicalVolume) (outer : Table (Nat ⊕ String) Listed) : Prop where
  once : (outer.entries.map fun entry => entry.2.label).Perm
    ((rows.filter (·.shown volumeGroups)).map Row.label)
  inside : ∀ row ∈ rows, row.shown volumeGroups = true →
    ∀ origin ∈ rows, origin.active = true → origin.OriginOf row →
      (∃ volume ∈ volumes, volume.label = origin.label ∧
        row.label ∈ volume.snapshots.map Snapshot.label) ∧
      ∀ volume ∈ volumes, row.label ∈ volume.snapshots.map Snapshot.label →
        volume.label = origin.label

/-- No active row of the groups reads like the heading, and none is a snapshot of
an active snapshot of an active volume. -/
def Plain (volumeGroups : List VolumeGroup) (rows : List Row) : Prop :=
  ∀ row ∈ rows, row.shown volumeGroups = true → row.headed = false ∧
    ∀ origin ∈ rows, origin.active = true → origin.OriginOf row →
      ∀ first ∈ rows, first.active = true → ¬ first.OriginOf origin

theorem Row.OriginOf.shown {origin row : Row} (h : origin.OriginOf row)
    (hrow : row.shown volumeGroups = true) (hactive : origin.active = true) :
    origin.shown volumeGroups = true := by
  simp only [Row.shown, Bool.and_eq_true, decide_eq_true_eq] at hrow ⊢
  exact ⟨hactive, h.1 ▸ hrow.2⟩

section Final

variable {order : Order} {volumes : List LogicalVolume}
  (h : Tabled volumeGroups rows rows result)
  (hvolumes : volumes = (order.visit result.entries).map (·.2))

include h hvolumes in
theorem Tabled.mem_volumes {volume : LogicalVolume} :
    volume ∈ volumes ↔ result.lookup (deviceOf volume.label) = some volume := by
  subst hvolumes
  constructor
  · intro hin
    obtain ⟨entry, hentry, rfl⟩ := List.mem_map.mp hin
    have hlookup : result.lookup entry.1 = some entry.2 :=
      AList.mem_lookup_iff.mpr ((Order.mem_visit order).mp hentry)
    rwa [← h.keyed _ _ hlookup]
  · intro hlookup
    exact List.mem_map.mpr ⟨_, (Order.mem_visit order).mpr (AList.mem_lookup_iff.mp hlookup), rfl⟩

include h hvolumes in
theorem Tabled.volumes_labels : (volumes.flatMap LogicalVolume.labels).Perm
    ((rows.filter (·.taken volumeGroups)).map Row.label) := by
  have hvisit : (volumes.flatMap LogicalVolume.labels).Perm (labelsOf result) := by
    rw [hvolumes, List.flatMap_map]
    exact (order.perm _).flatMap_right _
  exact hvisit.trans h.counted

variable (hdistinct : (rows.map Row.label).Nodup)

include h hvolumes hdistinct in
theorem Tabled.outer_labels : ((snapshotsToOuter order volumes).entries.map
    fun entry => entry.2.label).Perm ((rows.filter (·.taken volumeGroups)).map Row.label) := by
  have hlabels := h.volumes_labels hvolumes
  refine (snapshotsToOuter_labels order ?_).trans hlabels
  have hdevices : (volumes.flatMap fun volume => volume.snapshots.map Snapshot.device) =
      (volumes.flatMap fun volume => volume.snapshots.map Snapshot.label).map deviceOf := by
    rw [List.map_flatMap]
    refine List.flatMap_congr fun volume hvolume => ?_
    rw [List.map_map]
    exact List.map_congr_left fun snapshot hsnapshot =>
      (h.within _ volume ((h.mem_volumes hvolumes).mp hvolume) snapshot hsnapshot).1
  have hsub : (volumes.flatMap fun volume => volume.snapshots.map Snapshot.label).Sublist
      (volumes.flatMap LogicalVolume.labels) :=
    List.Sublist.flatMap_right _ fun volume _ => List.sublist_cons_self _ _
  have hnodup := (hlabels.nodup_iff.mpr
    (hdistinct.sublist (List.filter_sublist.map _))).sublist hsub
  rw [hdevices]
  refine hnodup.map_on fun a _ b hb heq => deviceOf_inj ?_ heq
  obtain ⟨row, _, rfl⟩ := List.mem_map.mp (hlabels.mem_iff.mp (hsub.subset hb))
  exact row.spelled

include h hvolumes hdistinct in
theorem Tabled.plain_of_listedOnce
    (honce : ListedOnce volumeGroups rows volumes (snapshotsToOuter order volumes)) :
    Plain volumeGroups rows := by
  have hlabels := h.volumes_labels hvolumes
  have hnodup := hlabels.nodup_iff.mpr (hdistinct.sublist (List.filter_sublist.map _))
  intro row hrow hshown
  constructor
  · have hin : row.label ∈ (rows.filter (·.shown volumeGroups)).map Row.label :=
      List.mem_map_of_mem (List.mem_filter.mpr ⟨hrow, hshown⟩)
    rw [← honce.once.mem_iff, (h.outer_labels hvolumes hdistinct).mem_iff] at hin
    obtain ⟨other, hother, hlabel⟩ := List.mem_map.mp hin
    obtain ⟨hgroup, hname⟩ := Prod.mk.inj hlabel
    have htaken := (List.mem_filter.mp hother).2
    simp only [Row.taken, Bool.and_eq_true, Bool.not_eq_true'] at htaken
    rw [← htaken.2, Row.headed, Row.headed, hgroup, hname]
  · intro origin horigin hactive hof first hfirst hactiveFirst hofFirst
    have hshownOrigin := hof.shown hshown hactive
    obtain ⟨⟨own, hown, hownLabel, _⟩, _⟩ :=
      honce.inside row hrow hshown origin horigin hactive hof
    obtain ⟨⟨holder, hholder, _, hheld⟩, _⟩ :=
      honce.inside origin horigin hshownOrigin first hfirst hactiveFirst hofFirst
    -- the origin would be listed as a volume and as a snapshot
    obtain rfl : own = holder := eq_of_mem_flatMap hnodup hown hholder
      (x := origin.label) (by simp [LogicalVolume.labels, hownLabel])
      (by rw [LogicalVolume.labels]; exact List.mem_cons_of_mem _ hheld)
    have hself := (List.nodup_flatMap.mp hnodup).1 own hown
    rw [LogicalVolume.labels, hownLabel] at hself
    exact (List.nodup_cons.mp hself).1 hheld

include h hvolumes hdistinct in
theorem Tabled.listedOnce_of_plain (hplain : Plain volumeGroups rows) :
    ListedOnce volumeGroups rows volumes (snapshotsToOuter order volumes) := by
  have htaken {row : Row} (hrow : row ∈ rows) :
      row.taken volumeGroups = row.shown volumeGroups := by
    cases hshown : row.shown volumeGroups with
    | false => simp [Row.taken, hshown]
    | true => simp [Row.taken, hshown, (hplain row hrow hshown).1]
  constructor
  case once =>
    rw [← List.filter_congr fun row hrow => htaken hrow]
    exact h.outer_labels hvolumes hdistinct
  case inside =>
    intro row hrow hshown origin horigin hactive hof
    have hshownOrigin := hof.shown hshown hactive
    constructor
    · obtain ⟨volume, hlookup, hlabel⟩ := h.placed row hrow ((htaken hrow).trans hshown) origin
        horigin ((htaken horigin).trans hshownOrigin) hof fun first hfirst htakenFirst =>
          (hplain row hrow hshown).2 origin horigin hactive hof first hfirst (by
            simp only [htaken hfirst, Row.shown, Bool.and_eq_true] at htakenFirst
            exact htakenFirst.1)
      have hvolume := h.label_of_lookup hlookup
      exact ⟨volume, (h.mem_volumes hvolumes).mpr (by rwa [hvolume]), hvolume, hlabel⟩
    · intro volume hvolume hheld
      obtain ⟨snapshot, hsnapshot, hlabel⟩ := List.mem_map.mp hheld
      obtain ⟨_, other, hother, hsame, hgroup, hname⟩ :=
        h.within _ volume ((h.mem_volumes hvolumes).mp hvolume) snapshot hsnapshot
      obtain rfl : other = row :=
        List.inj_on_of_nodup_map hdistinct hother hrow (hsame.trans hlabel)
      exact Prod.ext (hgroup.symm.trans hof.1) (Option.some.inj (hname.symm.trans hof.2))

end Final

/-- What `lvs` prints is listed as it should be if and only if no row reads like
the heading and no snapshot is the origin of another one. -/
theorem listedOnce_iff {lines : List String} (hprints : Prints rows lines)
    (hdistinct : (rows.map Row.label).Nodup) (horigins : OriginsFirst rows) (order : Order)
    (volumeGroups : List VolumeGroup) :
    ∃ volumes, logicalVolumes order volumeGroups lines = .ok volumes ∧
      (ListedOnce volumeGroups rows volumes (snapshotsToOuter order volumes) ↔
        Plain volumeGroups rows) := by
  obtain ⟨final, hrun, hfinal⟩ := Tabled.nil.run order hprints rfl horigins hdistinct
  refine ⟨_, by rw [logicalVolumes, hrun, ok_bind]; rfl, ?_⟩
  exact ⟨hfinal.plain_of_listedOnce rfl hdistinct, hfinal.listedOnce_of_plain rfl hdistinct⟩

/-! ## Samples -/

def lineOf (columns : List String) : String :=
  String.ofList (' ' :: ' ' :: List.intercalate [' '] (columns.map String.toList))

private theorem columns_intercalate (words : List (List Char)) :
    Columns ' ' words (List.intercalate [' '] words) := by
  induction words with
  | nil => exact .nil
  | cons word words ih =>
      cases words with
      | nil => simpa using (Columns.last word : Columns ' ' [word] word)
      | cons next words => simpa using Columns.word word ih

private theorem columns_lineOf (columns : List String) :
    Columns ' ' (columns.map String.toList) (lineOf columns).toList := by
  rw [lineOf, String.toList_ofList]
  exact .pad (.pad (columns_intercalate _))

private theorem prints_lineOf (rows : List Row) :
    Prints rows (lineOf heading :: rows.map fun row => lineOf row.columns) := by
  refine .heading (columns_lineOf heading) ?_
  induction rows with
  | nil => exact .nil
  | cons row rows ih => exact .row row (columns_lineOf row.columns) ih

def root : Row where
  name := "root"
  volumeGroup := "vg1"
  size := "4.00m"
  attr := "owi-ao"
  origin := none
  snapPercent := none
  name_valid := by decide +kernel
  volumeGroup_valid := by decide +kernel
  size_word := by decide +kernel
  size_number := ⟨4, by decide +kernel, by norm_num⟩
  attr_word := by decide +kernel
  origin_valid := by simp
  percent_word := by simp
  percent_empty := by simp
  percent_number := by simp

def otherRoot : Row :=
  { root with volumeGroup := "vg2", volumeGroup_valid := by decide +kernel }

def rootSnapshot : Row :=
  { root with
    name := "root_1"
    attr := "swi-a-"
    origin := some "root"
    snapPercent := some "12.50"
    name_valid := by decide +kernel
    attr_word := by decide +kernel
    origin_valid := by decide +kernel
    percent_word := by decide +kernel
    percent_empty := by simp
    percent_number := fun _ _ => ⟨"12.50", 25 / 2, rfl, by decide +kernel⟩ }

def namedLV : Row :=
  { root with
    name := "LV"
    volumeGroup := "VG"
    name_valid := by decide +kernel
    volumeGroup_valid := by decide +kernel }

def groupNamed (name : String) : VolumeGroup := ⟨name, 0, 4, 400, 0, 400, []⟩

theorem roots_listedOnce : ∃ volumes,
    logicalVolumes Order.plain [groupNamed "vg1", groupNamed "vg2"]
        ["  LV VG LSize Attr Origin Snap%", "  root vg1 4.00m owi-ao", "  root vg2 4.00m owi-ao",
          "  root_1 vg1 4.00m swi-a- root 12.50"] = .ok volumes ∧
      ListedOnce [groupNamed "vg1", groupNamed "vg2"] [root, otherRoot, rootSnapshot] volumes
        (snapshotsToOuter Order.plain volumes) := by
  have hprints := prints_lineOf [root, otherRoot, rootSnapshot]
  have horigins : OriginsFirst ([root, otherRoot] ++ [rootSnapshot]) :=
    OriginsFirst.of_append (by simp [root, otherRoot]) (by decide +kernel)
  obtain ⟨volumes, hrun, hiff⟩ := listedOnce_iff hprints (by decide +kernel) horigins Order.plain
    [groupNamed "vg1", groupNamed "vg2"]
  refine ⟨volumes, ?_, hiff.mpr ?_⟩
  · rw [← hrun]
    congr 1
  · unfold Plain
    decide +kernel

/-- The active volume LV of the group VG is not listed. -/
theorem namedLV_not_listedOnce :
    Prints [namedLV] ["  LV VG LSize Attr Origin Snap%", "  LV VG 4.00m owi-ao"] ∧
      ∃ volumes, logicalVolumes Order.plain [groupNamed "VG"]
          ["  LV VG LSize Attr Origin Snap%", "  LV VG 4.00m owi-ao"] = .ok volumes ∧
        ¬ ListedOnce [groupNamed "VG"] [namedLV] volumes
          (snapshotsToOuter Order.plain volumes) := by
  have htexts : lineOf heading :: [namedLV].map (fun row => lineOf row.columns) =
      ["  LV VG LSize Attr Origin Snap%", "  LV VG 4.00m owi-ao"] := by decide +kernel
  have hprints := prints_lineOf [namedLV]
  rw [htexts] at hprints
  have horigins : OriginsFirst ([namedLV] ++ []) :=
    OriginsFirst.of_append (by simp [namedLV, root]) (by simp)
  obtain ⟨final, hrun, hfinal⟩ :=
    Tabled.nil.run Order.plain hprints rfl horigins (by simp)
  refine ⟨hprints, _, by rw [logicalVolumes, hrun, ok_bind]; rfl, fun honce => ?_⟩
  have hplain : Plain [groupNamed "VG"] [namedLV] :=
    hfinal.plain_of_listedOnce rfl (by simp) honce
  have hheaded := (hplain namedLV (by simp) (by decide +kernel)).1
  revert hheaded
  decide

end OpenSan.Lvm
