import OpenSan.Foundation.Columns
import OpenSan.Lvm.Names
import OpenSan.Lvm.Sizes

/-!
# The list of logical volumes

`M.LogicalVolume.list` reads the columns of `lvs` and puts a snapshot on the
volume that it finds in the table built so far; `snapshots_to_outer` takes the
snapshots out of the volumes again.
-/

namespace OpenSan.Lvm

open OpenSan.Foundation

/-! ## The code -/

/-- `M.unique_keys`; positions count from 0. -/
def uniqueKeys {α : Type} (order : Order) (key : α → String) (items : List α) :
    Table String (List Nat) :=
  (order.visit items.zipIdx).foldl (fun uniques entry =>
    uniques.update (key entry.1) [] (· ++ [entry.2])) ∅

def nonNegative (message : String) : Option ℚ → Except Error ℚ
  | none => .error (.assertion "non-number argument")
  | some value => if value < 0 then .error (.assertion message) else .ok value

structure Snapshot where
  name : String
  device : String
  volumeGroup : VolumeGroup
  size : ℚ
  logicalVolume : String
  allocated : ℚ

structure LogicalVolume where
  name : String
  device : String
  volumeGroup : VolumeGroup
  size : ℚ
  snapshots : List Snapshot

def newSnapshot (name device : String) (volumeGroup : Option VolumeGroup) (size : Option ℚ)
    (logicalVolume : String) (allocated : Option ℚ) : Except Error Snapshot :=
  match volumeGroup with
  | none => .error (.assertion "no volume group assigned to")
  | some volumeGroup => do
      let size ← nonNegative "non-positive size" size
      match allocated with
      | none => .error (.assertion "non-number allocated")
      | some allocated => .ok ⟨name, device, volumeGroup, size, logicalVolume, allocated⟩

def newLogicalVolume (name device : String) (volumeGroup : Option VolumeGroup)
    (size : Option ℚ) : Except Error LogicalVolume :=
  match volumeGroup with
  | none => .error (.assertion "no volume group assigned to")
  | some volumeGroup => do
      let size ← nonNegative "assertion failed!" size
      if nameIsValid name then .ok ⟨name, device, volumeGroup, size, []⟩
      else .error (.failure "lvm:LogicalVolume:new() incorrect name supplied")

def splitLine (line : String) : List String :=
  (splitBy ' ' line.toList).map String.ofList

def readSize (text : String) : Option ℚ :=
  Number.tonumber (String.ofList text.toList.dropLast)

def isActive (attr : String) : Bool := attr.toList[4]? = some 'a'

def volumeGroupOf (byName : Table String (List Nat)) (volumeGroups : List VolumeGroup)
    (name : String) : Option VolumeGroup :=
  (byName.lookup name).bind fun ids => ids.head?.bind (volumeGroups[·]?)

def originVolume (result : Table String LogicalVolume) (volumeGroup : String)
    (origin : Option String) : Option (String × LogicalVolume) :=
  origin.bind fun name => (result.lookup (vglvDevice volumeGroup name)).map (name, ·)

/-- The body of the loop of `M.LogicalVolume.list`. -/
def listLine (order : Order) (volumeGroups : List VolumeGroup)
    (result : Table String LogicalVolume) (line : String) :
    Except Error (Table String LogicalVolume) :=
  let byName := uniqueKeys order VolumeGroup.name volumeGroups
  match splitLine line with
  | name :: volumeGroup :: size :: rest =>
      if name = "LV" ∧ volumeGroup = "VG" then .ok result
      else do
        let attr ← nonNil "attr" rest[0]?
        if ¬ isActive attr then pure result
        else
          match originVolume result volumeGroup rest[1]? with
          | some (origin, volume) =>
              if volumeGroup ∈ order.visit byName.keys then do
                let snapshot ← newSnapshot name (vglvDevice volumeGroup name)
                  (volumeGroupOf byName volumeGroups volumeGroup) (readSize size) origin
                  (rest[2]?.bind Number.tonumber)
                pure (result.insert (vglvDevice volumeGroup origin)
                  { volume with snapshots := volume.snapshots ++ [snapshot] })
              else pure result
          | none =>
              if volumeGroup ∈ order.visit byName.keys then do
                let volume ← newLogicalVolume name (vglvDevice volumeGroup name)
                  (volumeGroupOf byName volumeGroups volumeGroup) (readSize size)
                pure (result.insert (vglvDevice volumeGroup name) volume)
              else pure result
  | _ => .error (.nilValue "splitted[3]")

/-- `M.LogicalVolume.list` -/
def logicalVolumes (order : Order) (volumeGroups : List VolumeGroup) (stdout : List String) :
    Except Error (List LogicalVolume) := do
  let result ← stdout.foldlM (listLine order volumeGroups) ∅
  pure ((order.visit result.entries).map (·.2))

inductive Listed where
  | volume (logicalVolume : LogicalVolume)
  | snapshot (snapshot : Snapshot)

/-- `snapshots_to_outer`, in the call of `M.caller` that gets the list itself:
volumes keep their positions as keys, snapshots get their devices. -/
def snapshotsToOuter (order : Order) (logicalVolumes : List LogicalVolume) :
    Table (Nat ⊕ String) Listed :=
  (order.visit logicalVolumes.zipIdx).foldl (fun processed entry =>
    entry.1.snapshots.foldl (fun processed snapshot =>
        processed.insert (.inr snapshot.device) (.snapshot snapshot))
      (processed.insert (.inl entry.2) (.volume entry.1))) ∅

/-! ## What `lvs` prints -/

def heading : List String := ["LV", "VG", "LSize", "Attr", "Origin", "Snap%"]

/-- A row of `lvs`.  The origin column is empty for a volume, and an active snapshot
has its use in the last column. -/
structure Row where
  name : String
  volumeGroup : String
  size : String
  attr : String
  origin : Option String
  snapPercent : Option String
  name_valid : nameIsValid name = true
  volumeGroup_valid : volumeGroup.toList ≠ [] ∧ volumeGroup.toList.all nameCharacter = true
  size_word : IsWord ' ' size.toList
  size_number : ∃ value, readSize size = some value ∧ 0 ≤ value
  attr_word : IsWord ' ' attr.toList
  origin_valid : ∀ name ∈ origin, nameIsValid name = true
  percent_word : ∀ percent ∈ snapPercent, IsWord ' ' percent.toList
  percent_empty : origin = none → snapPercent = none
  percent_number : isActive attr = true → origin ≠ none →
    ∃ percent value, snapPercent = some percent ∧ Number.tonumber percent = some value

namespace Row

def active (row : Row) : Bool := isActive row.attr

def label (row : Row) : String × String := (row.volumeGroup, row.name)

def columns (row : Row) : List String :=
  [row.name, row.volumeGroup, row.size, row.attr] ++ row.origin.toList ++
    row.snapPercent.toList

def OriginOf (origin row : Row) : Prop :=
  row.volumeGroup = origin.volumeGroup ∧ row.origin = some origin.name

instance (origin row : Row) : Decidable (origin.OriginOf row) :=
  inferInstanceAs (Decidable (_ ∧ _))

end Row

/-- The lines show the rows below the heading; `lvs` prints nothing for no rows. -/
inductive Prints : List Row → List String → Prop where
  | nil : Prints [] []
  | heading {rows : List Row} {line : String} {lines : List String} :
      Columns ' ' (heading.map String.toList) line.toList → Prints rows lines →
      Prints rows (line :: lines)
  | row (row : Row) {rows : List Row} {line : String} {lines : List String} :
      Columns ' ' (row.columns.map String.toList) line.toList → Prints rows lines →
      Prints (row :: rows) (line :: lines)

/-! ## Reading a line -/

theorem splitLine_columns {columns : List String} {line : String}
    (h : Columns ' ' (columns.map String.toList) line.toList)
    (hwords : ∀ column ∈ columns, IsWord ' ' column.toList) : splitLine line = columns := by
  have hsplit : splitBy ' ' line.toList = columns.map String.toList :=
    splitBy_columns h (by simpa using hwords)
  rw [splitLine, hsplit, List.map_map]
  simp [Function.comp_def]

theorem heading_words : ∀ column ∈ heading, IsWord ' ' column.toList := by
  simp [heading, IsWord]

theorem isWord_of_nameCharacter {name : String} (hne : name.toList ≠ [])
    (h : ∀ c ∈ name.toList, nameCharacter c = true) : IsWord ' ' name.toList :=
  ⟨hne, fun hblank => absurd (h ' ' hblank) (by decide)⟩

theorem isWord_of_nameIsValid {name : String} (h : nameIsValid name = true) :
    IsWord ' ' name.toList :=
  isWord_of_nameCharacter (nameIsValid_characters h).1 (nameIsValid_characters h).2

theorem Row.columns_words (row : Row) : ∀ column ∈ row.columns, IsWord ' ' column.toList := by
  intro column hcolumn
  simp only [Row.columns, List.mem_append, List.mem_cons, List.not_mem_nil, or_false,
    Option.mem_toList] at hcolumn
  rcases hcolumn with ((rfl | rfl | rfl | rfl) | horigin) | hpercent
  · exact isWord_of_nameIsValid row.name_valid
  · exact isWord_of_nameCharacter row.volumeGroup_valid.1
      (List.all_eq_true.mp row.volumeGroup_valid.2)
  · exact row.size_word
  · exact row.attr_word
  · exact isWord_of_nameIsValid (row.origin_valid column horigin)
  · exact row.percent_word column hpercent

section UniqueKeys

variable {α : Type} (key : α → String) (name : String) (entries : List (α × Nat))
  (start : Table String (List Nat))

private theorem mem_keys_foldl_update :
    name ∈ (entries.foldl (fun uniques entry =>
        uniques.update (key entry.1) [] (· ++ [entry.2])) start).keys ↔
      name ∈ start.keys ∨ ∃ entry ∈ entries, key entry.1 = name := by
  induction entries generalizing start with
  | nil => simp
  | cons entry entries ih =>
      rw [List.foldl_cons, ih, Table.update, ← AList.mem_keys, AList.mem_insert,
        AList.mem_keys]
      simp only [List.mem_cons, exists_eq_or_imp]
      grind

private theorem lookup_foldl_update :
    ((entries.foldl (fun uniques entry =>
        uniques.update (key entry.1) [] (· ++ [entry.2])) start).lookup name).getD [] =
      (start.lookup name).getD [] ++
        (entries.filter fun entry => key entry.1 = name).map (·.2) := by
  induction entries generalizing start with
  | nil => simp
  | cons entry entries ih =>
      rw [List.foldl_cons, ih, Table.update]
      by_cases heq : key entry.1 = name
      · subst heq
        simp [AList.lookup_insert]
      · rw [AList.lookup_insert_ne (Ne.symm heq), List.filter_cons_of_neg (by simpa using heq)]

end UniqueKeys

variable (order : Order) {volumeGroups : List VolumeGroup}

theorem mem_keys_uniqueKeys {name : String} :
    name ∈ (uniqueKeys order VolumeGroup.name volumeGroups).keys ↔
      name ∈ volumeGroups.map VolumeGroup.name := by
  rw [uniqueKeys, mem_keys_foldl_update]
  constructor
  · rintro (hempty | ⟨entry, hentry, rfl⟩)
    · cases hempty
    · rw [Order.mem_visit] at hentry
      exact List.mem_map_of_mem (List.fst_mem_of_mem_zipIdx hentry)
  · intro hname
    obtain ⟨group, hgroup, rfl⟩ := List.mem_map.mp hname
    obtain ⟨index, hindex, rfl⟩ := List.getElem_of_mem hgroup
    refine .inr ⟨(volumeGroups[index], index), ?_, rfl⟩
    rw [Order.mem_visit, List.mem_zipIdx_iff_getElem?]
    simp [hindex]

theorem volumeGroupOf_uniqueKeys {name : String}
    (h : name ∈ volumeGroups.map VolumeGroup.name) :
    ∃ group, volumeGroupOf (uniqueKeys order VolumeGroup.name volumeGroups) volumeGroups
      name = some group ∧ group.name = name := by
  have hkey := (mem_keys_uniqueKeys order).mpr h
  obtain hempty | ⟨entry, hentry, hname⟩ := (mem_keys_foldl_update _ _ _ _).mp hkey
  · cases hempty
  rw [← AList.mem_keys, ← AList.lookup_isSome] at hkey
  obtain ⟨ids, hids⟩ := Option.isSome_iff_exists.mp hkey
  have hmem : ∀ index, index ∈ ids ↔
      ∃ group, volumeGroups[index]? = some group ∧ group.name = name := by
    intro index
    have hentries := lookup_foldl_update VolumeGroup.name name
      (order.visit volumeGroups.zipIdx) ∅
    rw [← uniqueKeys, hids] at hentries
    rw [show ids = _ from hentries]
    simp [List.mem_zipIdx_iff_getElem?, and_comm]
  cases ids with
  | nil =>
      rw [Order.mem_visit, List.mem_zipIdx_iff_getElem?] at hentry
      exact absurd ((hmem entry.2).mpr ⟨entry.1, hentry, hname⟩) (by simp)
  | cons index ids =>
      obtain ⟨group, hgroup, hname⟩ := (hmem index).mp (by simp)
      exact ⟨group, by simp [volumeGroupOf, hids, hgroup], hname⟩

/-! ## The rounds of the loop -/

def LogicalVolume.label (volume : LogicalVolume) : String × String :=
  (volume.volumeGroup.name, volume.name)

def Snapshot.label (snapshot : Snapshot) : String × String :=
  (snapshot.volumeGroup.name, snapshot.name)

def deviceOf (label : String × String) : String := vglvDevice label.1 label.2

def Row.shown (volumeGroups : List VolumeGroup) (row : Row) : Bool :=
  row.active && decide (row.volumeGroup ∈ volumeGroups.map VolumeGroup.name)

def Row.headed (row : Row) : Bool := row.name = "LV" && row.volumeGroup = "VG"

def Row.taken (volumeGroups : List VolumeGroup) (row : Row) : Bool :=
  row.shown volumeGroups && !row.headed

/-- What one row does to the table. -/
inductive Adds (volumeGroups : List VolumeGroup) (row : Row)
    (result : Table String LogicalVolume) : Table String LogicalVolume → Prop where
  | passed : row.taken volumeGroups = false → Adds volumeGroups row result result
  | inside (origin : String) (volume : LogicalVolume) (snapshot : Snapshot) :
      row.taken volumeGroups = true → row.origin = some origin →
      result.lookup (deviceOf (row.volumeGroup, origin)) = some volume →
      snapshot.label = row.label → snapshot.device = deviceOf row.label →
      Adds volumeGroups row result (result.insert (deviceOf (row.volumeGroup, origin))
        { volume with snapshots := volume.snapshots ++ [snapshot] })
  | outside (volume : LogicalVolume) :
      row.taken volumeGroups = true →
      (∀ origin, row.origin = some origin →
        result.lookup (deviceOf (row.volumeGroup, origin)) = none) →
      volume.label = row.label → volume.snapshots = [] →
      Adds volumeGroups row result (result.insert (deviceOf row.label) volume)

theorem nonNegative_eq {message : String} {value : ℚ} (h : 0 ≤ value) :
    nonNegative message (some value) = .ok value := by
  simp [nonNegative, not_lt.mpr h]

theorem splitLine_row {row : Row} {line : String}
    (h : Columns ' ' (row.columns.map String.toList) line.toList) :
    splitLine line = row.name :: row.volumeGroup :: row.size :: row.attr ::
      (row.origin.toList ++ row.snapPercent.toList) := by
  rw [splitLine_columns h row.columns_words]
  simp [Row.columns]

theorem Row.origin_column (row : Row) :
    (row.origin.toList ++ row.snapPercent.toList)[0]? = row.origin := by
  cases horigin : row.origin with
  | none => simp [row.percent_empty horigin]
  | some origin => simp

theorem listLine_heading {result : Table String LogicalVolume} {line : String}
    (h : Columns ' ' (heading.map String.toList) line.toList) :
    listLine order volumeGroups result line = .ok result := by
  rw [listLine, splitLine_columns h heading_words]
  simp [heading]

theorem originVolume_cases (result : Table String LogicalVolume) (volumeGroup : String)
    (origin : Option String) :
    originVolume result volumeGroup origin = none ∧ (∀ name, origin = some name →
        result.lookup (vglvDevice volumeGroup name) = none) ∨
      ∃ name volume, origin = some name ∧
        result.lookup (vglvDevice volumeGroup name) = some volume ∧
        originVolume result volumeGroup origin = some (name, volume) := by
  cases origin with
  | none => exact .inl ⟨rfl, by simp⟩
  | some name =>
      cases hlookup : result.lookup (vglvDevice volumeGroup name) with
      | none => exact .inl ⟨by simp [originVolume, hlookup], by simp [hlookup]⟩
      | some volume => exact .inr ⟨name, volume, rfl, hlookup, by simp [originVolume, hlookup]⟩

theorem listLine_row (volumeGroups : List VolumeGroup) (result : Table String LogicalVolume)
    {row : Row} {line : String}
    (h : Columns ' ' (row.columns.map String.toList) line.toList) :
    ∃ next, listLine order volumeGroups result line = .ok next ∧
      Adds volumeGroups row result next := by
  simp only [listLine, splitLine_row h]
  by_cases hheaded : row.name = "LV" ∧ row.volumeGroup = "VG"
  · rw [if_pos hheaded]
    exact ⟨result, rfl, .passed (by simp [Row.taken, Row.headed, hheaded])⟩
  rw [if_neg hheaded, List.getElem?_cons_zero, nonNil, ok_bind]
  by_cases hactive : isActive row.attr = true
  swap
  · rw [if_pos hactive]
    exact ⟨result, rfl, .passed (by simp [Row.taken, Row.shown, Row.active, hactive])⟩
  rw [if_neg (by simpa using hactive), List.getElem?_cons_succ, row.origin_column]
  by_cases hgroup : row.volumeGroup ∈ volumeGroups.map VolumeGroup.name
  swap
  · have hkey : row.volumeGroup ∉
        order.visit (uniqueKeys order VolumeGroup.name volumeGroups).keys := by
      rwa [Order.mem_visit, mem_keys_uniqueKeys]
    refine ⟨result, ?_, .passed (by simp [Row.taken, Row.shown, hgroup])⟩
    split
    · rw [if_neg hkey]
      rfl
    · rw [if_neg hkey]
      rfl
  have hkey : row.volumeGroup ∈
      order.visit (uniqueKeys order VolumeGroup.name volumeGroups).keys := by
    rwa [Order.mem_visit, mem_keys_uniqueKeys]
  have htaken : row.taken volumeGroups = true := by
    simp [Row.taken, Row.shown, Row.active, Row.headed, hactive, hgroup]
    tauto
  obtain ⟨group, hfound, hname⟩ := volumeGroupOf_uniqueKeys order hgroup
  obtain ⟨size, hsize, hpos⟩ := row.size_number
  rcases originVolume_cases result row.volumeGroup row.origin with ⟨hnone, hlookup⟩ |
    ⟨origin, volume, horigin, hvolume, hplace⟩
  · rw [hnone]
    simp only [if_pos hkey, hfound, hsize, newLogicalVolume, nonNegative_eq hpos, ok_bind,
      row.name_valid, if_true]
    exact ⟨_, rfl, .outside _ htaken hlookup (by simp [LogicalVolume.label, Row.label, hname])
      rfl⟩
  · obtain ⟨percent, allocated, hpercent, hallocated⟩ :=
      row.percent_number hactive (by simp [horigin])
    rw [hplace]
    simp only [if_pos hkey, hfound, hsize, newSnapshot, nonNegative_eq hpos, ok_bind,
      horigin, hpercent, Option.toList_some, List.singleton_append, List.getElem?_cons_succ,
      List.getElem?_cons_zero, Option.bind_some, hallocated]
    exact ⟨_, rfl, .inside origin volume _ htaken horigin hvolume
      (by simp [Snapshot.label, Row.label, hname]) rfl⟩

end OpenSan.Lvm
