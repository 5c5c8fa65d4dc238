import Mathlib
import OpenSan.Einarc.AbsentMembers
import OpenSan.Matrix.Rendered

/-!
# From the inventory to the page

`matrix.caller` lists the members of each array, puts the logical volumes and
the volume group on it, and hands the result to `M.overall`.
-/

namespace OpenSan.Matrix

open OpenSan.Foundation OpenSan.Einarc

structure LvmGroup where
  group : VolumeGroup
  firstDevice : String

structure LvmSnapshot where
  device : String
  size : ℚ

structure LvmVolume where
  device : String
  size : ℚ
  volumeGroup : LvmGroup
  snapshots : List LvmSnapshot

def LvmVolume.devices (volume : LvmVolume) : List String :=
  volume.device :: volume.snapshots.map (·.device)

/-- The disks and arrays that `Physical.list` and `Logical.list` have returned, with
the fields of their records that the page shows, the volume groups and volumes, and
the patterns with their sessions.  A disk is a member of one array or caches one. -/
structure Inventory where
  sysfs : Sysfs
  disk : DiskName → Disk
  level : Nat → Option String
  state : Nat → String
  volumeGroups : List LvmGroup
  logicalVolumes : List LvmVolume
  accessPatterns : List Pattern
  sessions : Table String { names : List String // names.Nodup }
  roles : sysfs.used.Nodup
  groupNames : (volumeGroups.map (·.group.name)).Nodup
  devices : (logicalVolumes.flatMap (·.devices)).Nodup
  names : (accessPatterns.map (·.name)).Nodup

def snapshotsToOuter (order : Order) (volumes : List LvmVolume) :
    Table String Volume :=
  (order.visit volumes).foldl (fun processed volume =>
    volume.snapshots.foldl (fun processed snapshot =>
        processed.insert snapshot.device
          ⟨snapshot.size, volume.volumeGroup.group, true, []⟩)
      (processed.insert volume.device
        ⟨volume.size, volume.volumeGroup.group, false, volume.snapshots.map (·.device)⟩)) ∅

namespace Inventory

variable (inventory : Inventory) (order : Order)

def logicalLogicalVolumes (device : String) : Table String Volume :=
  snapshotsToOuter order (inventory.logicalVolumes.filter fun volume =>
    volume.volumeGroup.firstDevice = device)

def logicalVolumeGroup (device : String) : Option VolumeGroup :=
  (inventory.volumeGroups.find? fun entry => entry.firstDevice = device).map (·.group)

/-- An array after `physical_list` and the assignments of `matrix.caller`. -/
def logical (array : MdArray) (physicals : Table PhysicalId String) : Logical where
  physicals := physicals
  cachedBy := (inventory.sysfs.cacheOf array.id).map fun map => map.physical.id
  volumes := inventory.logicalLogicalVolumes order (inventory.sysfs.deviceOf array.id)
  volumeGroup := inventory.logicalVolumeGroup (inventory.sysfs.deviceOf array.id)
  level := inventory.level array.id
  state := inventory.state array.id
  capacity := array.size

def addLogical (logicals : Table Nat Logical) (array : MdArray) :
    Except Error (Table Nat Logical) := do
  let physicals ← physicalList inventory.sysfs.listed array.id array.slaves
    array.raidDisks
  pure (logicals.insert array.id (inventory.logical order array physicals))

def logicals : Except Error (Table Nat Logical) :=
  (order.visit inventory.sysfs.listedArrays).foldlM (inventory.addLogical order) ∅

def physicals : Table PhysicalId Disk :=
  (order.visit inventory.sysfs.listedDisks).foldl
    (fun table entry => table.insert entry.1.id (inventory.disk entry.1)) ∅

def data : Except Error Data := do
  let logicals ← inventory.logicals order
  pure {
    physicals := inventory.physicals order
    logicals := logicals
    accessPatterns := inventory.accessPatterns
    sessions := inventory.sessions }

/-- `physical_list` on every array, `M.overall` and the filters up to
`filter_mib_humanize`. -/
def page : Except Error Sheet := do
  let data ← inventory.data order
  data.page order

end Inventory

/-! ## Volumes of an array -/

def LvmVolume.outer (volume : LvmVolume) : List (String × Volume) :=
  (volume.device, ⟨volume.size, volume.volumeGroup.group, false,
      volume.snapshots.map (·.device)⟩) ::
    volume.snapshots.map fun snapshot =>
      (snapshot.device, ⟨snapshot.size, volume.volumeGroup.group, true, []⟩)

theorem LvmVolume.outer_devices (volume : LvmVolume) :
    volume.outer.map (·.1) = volume.devices := by
  simp [LvmVolume.outer, LvmVolume.devices]

section Outer

variable {order : Order} {volumes : List LvmVolume}

private theorem snapshotsToOuter_eq :
    snapshotsToOuter order volumes = ((order.visit volumes).flatMap (·.outer)).foldl
      (fun table pair => table.insert pair.1 pair.2) ∅ := by
  unfold snapshotsToOuter
  rw [List.foldl_flatMap]
  congr 1
  funext processed volume
  rw [LvmVolume.outer, List.foldl_cons, List.foldl_map]

theorem mem_keys_snapshotsToOuter {device : String} :
    device ∈ (snapshotsToOuter order volumes).keys ↔
      ∃ volume ∈ volumes, device ∈ volume.devices := by
  rw [snapshotsToOuter_eq, mem_keys_foldl_insert, List.map_flatMap]
  simp [LvmVolume.outer_devices]

theorem snapshotsToOuter_inside {device snapshot : String} {volume : Volume}
    (hlookup : (snapshotsToOuter order volumes).lookup device = some volume)
    (hkind : volume.isSnapshot = false) (hsnapshot : snapshot ∈ volume.snapshots) :
    snapshot ∈ (snapshotsToOuter order volumes).keys := by
  have hin := hlookup
  rw [snapshotsToOuter_eq] at hin
  rcases lookup_foldl_insert _ _ hin with hempty | hin
  · cases hempty
  obtain ⟨source, hsource, hpair⟩ := List.mem_flatMap.mp hin
  rw [mem_keys_snapshotsToOuter]
  refine ⟨source, (order.mem_visit).mp hsource, ?_⟩
  rcases List.mem_cons.mp hpair with heq | hsnap
  · cases heq
    exact List.mem_cons_of_mem _ hsnapshot
  · obtain ⟨_, _, heq⟩ := List.mem_map.mp hsnap
    cases heq
    cases hkind

end Outer

namespace Inventory

variable {inventory : Inventory} {order : Order}

theorem deviceOf_injective {sysfs : Sysfs} {id id' : Nat}
    (h : sysfs.deviceOf id = sysfs.deviceOf id') : id = id' := by
  have hlist := congrArg String.toList h
  unfold Sysfs.deviceOf at hlist
  have hrepr : ∀ {n m : Nat}, (toString n).toList = (toString m).toList → n = m :=
    fun heq => Nat.repr_injective (String.toList_inj.mp heq)
  split at hlist <;> split at hlist <;> simp only [String.toList_append] at hlist
  · exact hrepr (List.append_cancel_left hlist)
  · exact absurd (congrArg (List.take 7) hlist) (by simp)
  · exact absurd (congrArg (List.take 7) hlist) (by simp)
  · exact hrepr (List.append_cancel_left hlist)

theorem mem_volumes {array : MdArray} {physicals : Table PhysicalId String}
    {device : String} :
    device ∈ (inventory.logical order array physicals).volumes.keys ↔
      ∃ volume ∈ inventory.logicalVolumes,
        volume.volumeGroup.firstDevice = inventory.sysfs.deviceOf array.id ∧
        device ∈ volume.devices := by
  simp only [logical, logicalLogicalVolumes, mem_keys_snapshotsToOuter, List.mem_filter,
    decide_eq_true_eq, and_assoc]

/-! ## The argument of `M.overall` -/

def Source (inventory : Inventory) (order : Order) (array : MdArray)
    (logical : Logical) : Prop :=
  array ∈ inventory.sysfs.listedArrays ∧ ∃ physicals,
    physicalList inventory.sysfs.listed array.id array.slaves array.raidDisks =
      .ok physicals ∧ logical = inventory.logical order array physicals

structure Assembled (inventory : Inventory) (order : Order) (data : Data) : Prop where
  physicals : data.physicals = inventory.physicals order
  accessPatterns : data.accessPatterns = inventory.accessPatterns
  sound : ∀ id logical, data.logicals.lookup id = some logical →
    ∃ array, array.id = id ∧ inventory.Source order array logical
  complete : ∀ array ∈ inventory.sysfs.listedArrays, ∃ logical,
    data.logicals.lookup array.id = some logical ∧ inventory.Source order array logical

theorem eq_of_id {array array' : MdArray} (h : array ∈ inventory.sysfs.listedArrays)
    (h' : array' ∈ inventory.sysfs.listedArrays) (hid : array.id = array'.id) :
    array = array' :=
  List.inj_on_of_nodup_map inventory.sysfs.ids_nodup (List.mem_filter.mp h).1
    (List.mem_filter.mp h').1 hid

theorem data_ok (order : Order) (h : inventory.sysfs.SlavesListed) :
    ∃ data, inventory.data order = .ok data ∧ inventory.Assembled order data := by
  have hloop : ∃ logicals, inventory.logicals order = .ok logicals ∧
      (∀ id logical, logicals.lookup id = some logical →
        ∃ array, array.id = id ∧ inventory.Source order array logical) ∧
      ∀ array ∈ order.visit inventory.sysfs.listedArrays,
        (logicals.lookup array.id).isSome = true := by
    unfold logicals
    refine foldlM_ok (fun (done : List MdArray) (table : Table Nat Logical) =>
      (∀ id logical, table.lookup id = some logical →
        ∃ array, array.id = id ∧ inventory.Source order array logical) ∧
      ∀ array ∈ done, (table.lookup array.id).isSome = true) ?_ ?_
    · refine ⟨fun id logical hlookup => ?_, by simp⟩
      cases hlookup
    rintro done array table harray ⟨hsound, hdone⟩
    have harray := (order.mem_visit).mp harray
    obtain ⟨physicals, hrun, _⟩ := physicalList_ok (h array harray)
    refine ⟨table.insert array.id (inventory.logical order array physicals),
      by rw [addLogical, hrun]; rfl, fun id logical hlookup => ?_, fun other hother => ?_⟩
    · by_cases heq : id = array.id
      · subst heq
        rw [AList.lookup_insert] at hlookup
        exact ⟨array, rfl, harray, physicals, hrun, (Option.some.inj hlookup).symm⟩
      · rw [AList.lookup_insert_ne heq] at hlookup
        exact hsound id logical hlookup
    · by_cases heq : other.id = array.id
      · rw [heq, AList.lookup_insert]
        rfl
      · rw [AList.lookup_insert_ne heq]
        rcases List.mem_append.mp hother with hin | hin
        · exact hdone other hin
        · obtain rfl : other = array := by simpa using hin
          exact absurd rfl heq
  obtain ⟨logicals, hrun, hsound, hcomplete⟩ := hloop
  refine ⟨_, by rw [data, hrun]; rfl, rfl, rfl, hsound, fun array harray => ?_⟩
  obtain ⟨logical, hlookup⟩ := Option.isSome_iff_exists.mp
    (hcomplete array ((order.mem_visit).mpr harray))
  obtain ⟨other, hid, hsource⟩ := hsound _ _ hlookup
  rw [eq_of_id hsource.1 harray hid] at hsource
  exact ⟨logical, hlookup, hsource⟩

theorem listed_of_data {data : Data} (h : inventory.data order = .ok data) :
    inventory.sysfs.SlavesListed := by
  obtain ⟨logicals, hrun, _⟩ := bind_eq_ok.mp h
  intro array harray slave hslave
  obtain ⟨value, next, hround⟩ := foldlM_eq_ok hrun array ((order.mem_visit).mpr harray)
  obtain ⟨physicals, hphysicals, _⟩ := bind_eq_ok.mp hround
  obtain ⟨hlisted, drive, hdrive⟩ := listed_of_physicalList hphysicals slave hslave
  exact ⟨hlisted, Sysfs.listed_disk hlisted hdrive⟩

end Inventory

end OpenSan.Matrix
