import Mathlib.Data.List.Dedup
import Mathlib.Data.Rat.Defs
import OpenSan.Einarc.Devices
import OpenSan.Foundation.Action
import OpenSan.Scst.Records

/-!
# Arrays, caches and volumes

The state that the storage requests of `san.lua` change through external
commands: the md arrays and SSD caches, the physical volumes of LVM and the
logical volumes on them.  A command does what it is asked or fails.  The state
remembers the commands that were issued and the volumes that were destroyed.
-/

namespace OpenSan.Storage

open OpenSan.Foundation OpenSan.Einarc

/-! ## Devices -/

inductive Path where
  | md (id : Nat)
  | flashcache (id : Nat)
  | other (path : String)
  deriving DecidableEq, Repr

def Path.text : Path → String
  | .md id => "/dev/md" ++ toString id
  | .flashcache id => "/dev/mapper/flashcachemd" ++ toString id
  | .other path => path

/-- What lies behind a path: the cached and the bare path of an array lead to
the same data. -/
inductive Place where
  | array (id : Nat)
  | elsewhere (path : String)
  deriving DecidableEq, Repr

def Path.place : Path → Place
  | .md id | .flashcache id => .array id
  | .other path => .elsewhere path

def present (sysfs : Sysfs) : Path → Prop
  | .md id => id ∈ sysfs.arrays.map (·.id)
  | .flashcache id =>
      id ∈ sysfs.arrays.map (·.id) ∧ (sysfs.cacheOf id).isSome = true
  | .other _ => True

instance (sysfs : Sysfs) : DecidablePred (present sysfs)
  | .md _ => inferInstanceAs (Decidable (_ ∈ _))
  | .flashcache _ => inferInstanceAs (Decidable (_ ∧ _))
  | .other _ => inferInstanceAs (Decidable True)

theorem present_mono {sysfs sysfs' : Sysfs} {path : Path} (h : present sysfs path)
    (harrays : ∀ id, path.place = .array id → id ∈ sysfs.arrays.map (·.id) →
      id ∈ sysfs'.arrays.map (·.id))
    (hcaches : ∀ id, path = .flashcache id → (sysfs.cacheOf id).isSome = true →
      (sysfs'.cacheOf id).isSome = true) : present sysfs' path := by
  cases path with
  | md id => exact harrays id rfl h
  | flashcache id => exact ⟨harrays id rfl h.1, hcaches id rfl h.2⟩
  | other path => trivial

def devicePath (sysfs : Sysfs) (id : Nat) : Path :=
  if (sysfs.cacheOf id).isSome then .flashcache id else .md id

theorem devicePath_text (sysfs : Sysfs) (id : Nat) :
    (devicePath sysfs id).text = sysfs.deviceOf id := by
  unfold devicePath Sysfs.deviceOf
  split <;> rfl

@[simp] theorem devicePath_place (sysfs : Sysfs) (id : Nat) :
    (devicePath sysfs id).place = .array id := by
  unfold devicePath
  split <;> rfl

theorem cacheOf_filter {sysfs : Sysfs} {id other : Nat} (h : other ≠ id) :
    ({ sysfs with caches := sysfs.caches.filter fun map => map.logicalId ≠ id } :
      Sysfs).cacheOf other = sysfs.cacheOf other := by
  simp only [Sysfs.cacheOf, ← List.filter_reverse, List.find?_filter]
  congr 1
  funext map
  by_cases hmap : map.logicalId = other
  · simp [hmap, h]
  · simp [hmap]

theorem cacheOf_append {sysfs : Sysfs} {map : CachePair} {id : Nat}
    (h : (sysfs.cacheOf id).isSome = true) :
    (({ sysfs with caches := sysfs.caches ++ [map] } : Sysfs).cacheOf id).isSome =
      true := by
  simp only [Sysfs.cacheOf, List.reverse_append, List.find?_append, Option.isSome_or]
  rw [show (sysfs.caches.reverse.find? fun map => map.logicalId = id).isSome = true from h,
    Bool.or_true]

/-! ## Volumes -/

structure VolumeName where
  group : String
  name : String
  deriving DecidableEq, Repr

structure Volume where
  key : VolumeName
  origin : Option String
  size : ℚ
  active : Bool

/-- The volumes of the machine, as LVM keeps them: names are distinct in each
group, and a snapshot has its origin beside it. -/
structure Volumes where
  list : List Volume
  distinct : (list.map (·.key)).Nodup
  origins : ∀ volume ∈ list, ∀ origin, volume.origin = some origin →
    ∃ other ∈ list, other.key = ⟨volume.key.group, origin⟩ ∧ other.origin = none

namespace Volumes

/-- Drop volumes; the snapshots of a dropped volume are dropped with it. -/
def drop (volumes : Volumes) (gone : Volume → Bool)
    (closed : ∀ volume ∈ volumes.list, ∀ origin, volume.origin = some origin →
      ∀ other ∈ volumes.list, other.key = ⟨volume.key.group, origin⟩ →
        other.origin = none → gone other = true → gone volume = true) : Volumes where
  list := volumes.list.filter fun volume => !gone volume
  distinct := volumes.distinct.sublist (List.filter_sublist.map _)
  origins volume hvolume origin horigin := by
    obtain ⟨hin, hkept⟩ := List.mem_filter.mp hvolume
    obtain ⟨other, hother, hkey, hnone⟩ := volumes.origins volume hin origin horigin
    refine ⟨other, List.mem_filter.mpr ⟨hother, ?_⟩, hkey, hnone⟩
    by_contra hgone
    rw [closed volume hin origin horigin other hother hkey hnone (by simpa using hgone)]
      at hkept
    cases hkept

def dropGroups (volumes : Volumes) (groups : List String) : Volumes :=
  volumes.drop (fun volume => decide (volume.key.group ∈ groups)) (by
    intro volume _ origin _ other _ hkey _ hgone
    rw [hkey] at hgone
    exact hgone)

def taken (key : VolumeName) (volume : Volume) : Bool :=
  volume.key = key || (volume.key.group = key.group && volume.origin = some key.name)

def remove (volumes : Volumes) (key : VolumeName) : Volumes :=
  volumes.drop (taken key) (by
    intro volume _ origin horigin other _ hkey hnone hgone
    simp only [taken, hnone, Bool.or_eq_true, Bool.and_eq_true, decide_eq_true_eq,
      reduceCtorEq, and_false, or_false] at hgone
    rw [hgone] at hkey
    simp [taken, hkey, horigin])

def modify (volumes : Volumes) (f : Volume → Volume)
    (hkey : ∀ volume, (f volume).key = volume.key)
    (horigin : ∀ volume, (f volume).origin = volume.origin) : Volumes where
  list := volumes.list.map f
  distinct := by
    rw [List.map_map, show (fun volume : Volume => volume.key) ∘ f = (·.key) from
      funext hkey]
    exact volumes.distinct
  origins volume hvolume origin hsome := by
    obtain ⟨before, hbefore, rfl⟩ := List.mem_map.mp hvolume
    rw [horigin] at hsome
    obtain ⟨other, hother, heq, hnone⟩ := volumes.origins before hbefore origin hsome
    exact ⟨f other, List.mem_map_of_mem hother, by rw [hkey, hkey, heq],
      by rw [horigin, hnone]⟩

def setActive (volumes : Volumes) (active : Volume → Bool) : Volumes :=
  volumes.modify (fun volume => { volume with active := active volume })
    (fun _ => rfl) fun _ => rfl

def resize (volumes : Volumes) (key : VolumeName) (size : ℚ) : Volumes :=
  volumes.modify
    (fun volume => { volume with size := if volume.key = key then size else volume.size })
    (fun _ => rfl) fun _ => rfl

def add (volumes : Volumes) (key : VolumeName) (size : ℚ) : Volumes :=
  if hfree : key ∈ volumes.list.map (·.key) then volumes
  else {
    list := volumes.list ++ [⟨key, none, size, true⟩]
    distinct := by
      rw [List.map_append, List.nodup_append]
      refine ⟨volumes.distinct, by simp, ?_⟩
      rintro other hother last hlast rfl
      simp only [List.map_cons, List.map_nil, List.mem_singleton] at hlast
      exact hfree (hlast ▸ hother)
    origins := by
      intro volume hvolume origin horigin
      rcases List.mem_append.mp hvolume with hold | hnew
      · obtain ⟨other, hother, h⟩ := volumes.origins volume hold origin horigin
        exact ⟨other, List.mem_append_left _ hother, h⟩
      · rw [List.mem_singleton.mp hnew] at horigin
        cases horigin }

theorem mem_add {volumes : Volumes} {key : VolumeName} {size : ℚ} {volume : Volume}
    (h : volume ∈ (volumes.add key size).list) :
    volume ∈ volumes.list ∨ volume.key = key := by
  unfold add at h
  split at h
  · exact .inl h
  · rcases List.mem_append.mp h with hold | hnew
    · exact .inl hold
    · rw [List.mem_singleton.mp hnew]
      exact .inr rfl

end Volumes

/-- A physical volume with the path that `pvdisplay` prints; without a group it
is an orphan. -/
structure PhysicalVolume where
  path : Path
  group : Option String
  total : ℚ
  extent : ℚ

structure PhysicalVolumes where
  list : List PhysicalVolume
  distinct : (list.map (·.path.place)).Nodup

namespace PhysicalVolumes

def drop (pvs : PhysicalVolumes) (place : Place) : PhysicalVolumes where
  list := pvs.list.filter fun pv => pv.path.place ≠ place
  distinct := pvs.distinct.sublist (List.filter_sublist.map _)

def modify (pvs : PhysicalVolumes) (f : PhysicalVolume → PhysicalVolume)
    (hplace : ∀ pv, (f pv).path.place = pv.path.place) : PhysicalVolumes where
  list := pvs.list.map f
  distinct := by
    rw [List.map_map, show (fun pv : PhysicalVolume => pv.path.place) ∘ f =
      (·.path.place) from funext hplace]
    exact pvs.distinct

def add (pvs : PhysicalVolumes) (pv : PhysicalVolume) : PhysicalVolumes where
  list := (pvs.drop pv.path.place).list ++ [pv]
  distinct := by
    rw [List.map_append, List.nodup_append]
    refine ⟨(pvs.drop pv.path.place).distinct, by simp, ?_⟩
    intro place hplace last hlast
    obtain ⟨other, hother, rfl⟩ := List.mem_map.mp hplace
    obtain rfl : last = pv.path.place := by simpa using hlast
    simpa using (List.mem_filter.mp hother).2

def groupsAt (pvs : PhysicalVolumes) (place : Place) : List String :=
  (pvs.list.filter fun pv => pv.path.place = place).filterMap (·.group)

end PhysicalVolumes

/-! ## Commands -/

/-- The commands of `lvm.lua` and `einarc.lua`.  `zero` is the `dd` of
`PhysicalVolume.prepare`, `writeTrailer` the write of `Flashcache.bind`. -/
inductive Command where
  | pvscan
  | vgscan
  | lvscan
  | vgchangeActivate
  | vgchangeDisable (group : String)
  | zero (path : Path)
  | pvcreate (path : Path)
  | pvresize (path : Path)
  | vgcreate (name : String) (paths : List Path)
  | lvcreate (key : VolumeName) (size : ℚ)
  | lvremove (key : VolumeName)
  | lvresize (key : VolumeName) (size : ℚ)
  | mdadmCreate (id : Nat) (disks : List DiskName)
  | mdadmStop (id : Nat)
  | mdadmAdd (id : Nat) (disk : DiskName)
  | zeroSuperblock (disk : PhysicalId)
  | dmsetupRemove (id : Nat)
  | flashcacheDestroy (disk : DiskName)
  | writeTrailer (disk : DiskName)
  | flashcacheCreate (disk : DiskName) (id : Nat)
  deriving DecidableEq

/-- Every physical volume is on a device that is there, and every volume is in
a group with a physical volume. -/
structure Machine where
  sysfs : Sysfs
  pvs : PhysicalVolumes
  volumes : Volumes
  /-- the volumes destroyed so far -/
  destroyed : List VolumeName
  /-- the commands issued so far, with their success -/
  commands : List (Command × Bool)
  present : ∀ pv ∈ pvs.list, present sysfs pv.path
  grouped : ∀ volume ∈ volumes.list, ∃ pv ∈ pvs.list, pv.group = some volume.key.group

/-- What is found outside the state while one request is served. -/
structure Env where
  host : Scst.Host
  /-- whether a command succeeds that was issued this often before -/
  outcome : Command → Nat → Bool
  /-- Lua's `tonumber`, where it gives a natural number; no text with a slash does -/
  tonumber : String → Option Nat
  tonumber_path : ∀ text, '/' ∈ text.toList → tonumber text = none
  /-- `mdadm --detail --export` -/
  uuid : Nat → Option String
  /-- what the md driver reports of a new array -/
  newArray : (id : Nat) → (disks : List DiskName) →
    { array : MdArray // array.id = id ∧ array.slaves.map (·.name) = disks.map .disk }
  /-- the size and the extent size of a new physical volume -/
  newSize : Path → ℚ × ℚ
  /-- the size of a physical volume after `pvresize` -/
  maximalSize : PhysicalVolume → ℚ
  /-- `M.VolumeGroup.next_vg_name` -/
  nextVgName : String

namespace Machine

variable (m : Machine)

def setVolumes (volumes : Volumes)
    (h : ∀ volume ∈ volumes.list, ∃ before ∈ m.volumes.list,
      before.key.group = volume.key.group) : Machine :=
  { m with
    volumes := volumes
    grouped := by
      intro volume hvolume
      obtain ⟨before, hbefore, hgroup⟩ := h volume hvolume
      rw [← hgroup]
      exact m.grouped before hbefore }

theorem modify_grouped {f : Volume → Volume} {hkey horigin} :
    ∀ volume ∈ (m.volumes.modify f hkey horigin).list, ∃ before ∈ m.volumes.list,
      before.key.group = volume.key.group := by
  intro volume hvolume
  obtain ⟨before, hbefore, rfl⟩ := List.mem_map.mp hvolume
  exact ⟨before, hbefore, by rw [hkey]⟩

theorem drop_grouped {gone : Volume → Bool} {closed} :
    ∀ volume ∈ (m.volumes.drop gone closed).list, ∃ before ∈ m.volumes.list,
      before.key.group = volume.key.group := by
  intro volume hvolume
  exact ⟨volume, (List.mem_filter.mp hvolume).1, rfl⟩

theorem dropGroups_grouped (place : Place) :
    ∀ volume ∈ (m.volumes.dropGroups (m.pvs.groupsAt place)).list,
      ∃ pv ∈ (m.pvs.drop place).list, pv.group = some volume.key.group := by
  intro volume hvolume
  obtain ⟨hin, hkept⟩ := List.mem_filter.mp hvolume
  obtain ⟨pv, hpv, hgroup⟩ := m.grouped volume hin
  refine ⟨pv, List.mem_filter.mpr ⟨hpv, ?_⟩, hgroup⟩
  have hnot : volume.key.group ∉ m.pvs.groupsAt place := by simpa using hkept
  simp only [decide_eq_true_eq]
  intro hplace
  exact hnot (List.mem_filterMap.mpr
    ⟨pv, List.mem_filter.mpr ⟨hpv, by simpa using hplace⟩, hgroup⟩)

/-- Overwrite the label of a physical volume: every volume of its group is
destroyed. -/
def wipe (place : Place) : Machine :=
  let groups := m.pvs.groupsAt place
  { m with
    pvs := m.pvs.drop place
    volumes := m.volumes.dropGroups groups
    destroyed := m.destroyed ++ (m.volumes.list.filter fun volume =>
      decide (volume.key.group ∈ groups)).map (·.key)
    present := fun pv hpv => m.present pv (List.mem_filter.mp hpv).1
    grouped := m.dropGroups_grouped place }

def groups : List String := (m.pvs.list.filterMap (·.group)).dedup

def addPv (env : Env) (path : Path) : Machine :=
  if h : Storage.present m.sysfs path ∧ m.pvs.groupsAt path.place = [] then
    { m with
      pvs := m.pvs.add ⟨path, none, (env.newSize path).1, (env.newSize path).2⟩
      present := by
        intro pv hpv
        rcases List.mem_append.mp hpv with hold | hnew
        · exact m.present pv (List.mem_filter.mp hold).1
        · rw [List.mem_singleton.mp hnew]
          exact h.1
      grouped := by
        intro volume hvolume
        obtain ⟨pv, hpv, hgroup⟩ := m.grouped volume hvolume
        refine ⟨pv, List.mem_append_left _ (List.mem_filter.mpr ⟨hpv, ?_⟩), hgroup⟩
        simp only [decide_eq_true_eq]
        intro hplace
        have hin : volume.key.group ∈ m.pvs.groupsAt path.place :=
          List.mem_filterMap.mpr
            ⟨pv, List.mem_filter.mpr ⟨hpv, by simpa using hplace⟩, hgroup⟩
        rw [h.2] at hin
        cases hin }
  else m

def addGroup (name : String) (paths : List Path) : Machine :=
  let join (pv : PhysicalVolume) : PhysicalVolume :=
    if pv.path ∈ paths ∧ pv.group = none then { pv with group := some name } else pv
  have hpath (pv : PhysicalVolume) : (join pv).path = pv.path := by
    simp only [join]
    split <;> rfl
  if name ∈ m.groups then m
  else { m with
    pvs := m.pvs.modify join fun pv => by rw [hpath]
    present := by
      intro pv hpv
      obtain ⟨before, hbefore, rfl⟩ := List.mem_map.mp hpv
      rw [hpath]
      exact m.present before hbefore
    grouped := by
      intro volume hvolume
      obtain ⟨pv, hpv, hgroup⟩ := m.grouped volume hvolume
      refine ⟨join pv, List.mem_map_of_mem hpv, ?_⟩
      simp [join, hgroup] }

def growPv (env : Env) (path : Path) : Machine :=
  let grow (pv : PhysicalVolume) : PhysicalVolume :=
    if pv.path = path then { pv with total := env.maximalSize pv } else pv
  have hpath (pv : PhysicalVolume) : (grow pv).path = pv.path := by
    simp only [grow]
    split <;> rfl
  have hgroup (pv : PhysicalVolume) : (grow pv).group = pv.group := by
    simp only [grow]
    split <;> rfl
  { m with
    pvs := m.pvs.modify grow fun pv => by rw [hpath]
    present := by
      intro pv hpv
      obtain ⟨before, hbefore, rfl⟩ := List.mem_map.mp hpv
      rw [hpath]
      exact m.present before hbefore
    grouped := by
      intro volume hvolume
      obtain ⟨pv, hpv, hsome⟩ := m.grouped volume hvolume
      exact ⟨grow pv, List.mem_map_of_mem hpv, by rw [hgroup, hsome]⟩ }

def addVolume (key : VolumeName) (size : ℚ) : Machine :=
  if h : key.group ∈ m.groups then
    { m with
      volumes := m.volumes.add key size
      grouped := by
        intro volume hvolume
        rcases Volumes.mem_add hvolume with hold | hkey
        · exact m.grouped volume hold
        · rw [hkey]
          exact List.mem_filterMap.mp (List.mem_dedup.mp h) }
  else m

def setSysfs (sysfs : Sysfs)
    (h : ∀ pv ∈ m.pvs.list, Storage.present sysfs pv.path) : Machine :=
  { m with sysfs := sysfs, present := h }

def addArray (env : Env) (id : Nat) (disks : List DiskName) : Machine :=
  m.setSysfs { m.sysfs with
    arrays := m.sysfs.arrays.filter (fun array => array.id ≠ id) ++
      [(env.newArray id disks).val]
    ids_nodup := by
      rw [List.map_append, List.nodup_append]
      refine ⟨m.sysfs.ids_nodup.sublist (List.filter_sublist.map _), by simp, ?_⟩
      intro other hother last hlast
      obtain ⟨array, harray, rfl⟩ := List.mem_map.mp hother
      obtain rfl : last = id := by simpa [(env.newArray id disks).property.1] using hlast
      simpa using (List.mem_filter.mp harray).2 } fun pv hpv => by
    refine present_mono (m.present pv hpv) (fun other _ hin => ?_) fun _ _ h => h
    obtain ⟨array, harray, rfl⟩ := List.mem_map.mp hin
    by_cases heq : array.id = id
    · simp [heq, (env.newArray id disks).property.1]
    · exact List.mem_map_of_mem (List.mem_append_left _
        (List.mem_filter.mpr ⟨harray, by simpa using heq⟩))

def stopArray (id : Nat) : Machine :=
  { m with
    sysfs := { m.sysfs with
      arrays := m.sysfs.arrays.filter fun array => array.id ≠ id
      ids_nodup := m.sysfs.ids_nodup.sublist (List.filter_sublist.map _) }
    pvs := m.pvs.drop (.array id)
    volumes := m.volumes.dropGroups (m.pvs.groupsAt (.array id))
    present := by
      intro pv hpv
      obtain ⟨hin, hplace⟩ := List.mem_filter.mp hpv
      refine present_mono (m.present pv hin) (fun other hother hid => ?_) fun _ _ h => h
      obtain ⟨array, harray, rfl⟩ := List.mem_map.mp hid
      have hne : array.id ≠ id := by
        rintro rfl
        simp [hother] at hplace
      exact List.mem_map_of_mem (List.mem_filter.mpr ⟨harray, by simpa using hne⟩)
    grouped := m.dropGroups_grouped (.array id) }

def addSpare (id : Nat) (disk : DiskName) : Machine :=
  let extend (array : MdArray) : MdArray := if array.id = id then
      { array with slaves := array.slaves ++ [⟨.disk disk, some "spare"⟩] } else array
  have hids : (m.sysfs.arrays.map extend).map (·.id) = m.sysfs.arrays.map (·.id) := by
    rw [List.map_map]
    apply List.map_congr_left
    intro array _
    simp only [Function.comp, extend]
    split <;> rfl
  m.setSysfs { m.sysfs with
    arrays := m.sysfs.arrays.map extend
    ids_nodup := by
      rw [hids]
      exact m.sysfs.ids_nodup } fun pv hpv =>
    present_mono (m.present pv hpv) (fun other _ hin => by rw [hids]; exact hin)
      fun _ _ h => h

def removeCache (id : Nat) : Machine :=
  let bare (pv : PhysicalVolume) : PhysicalVolume :=
    if pv.path = .flashcache id then { pv with path := .md id } else pv
  { m with
    sysfs := { m.sysfs with
      caches := m.sysfs.caches.filter fun map => map.logicalId ≠ id }
    pvs := m.pvs.modify bare fun pv => by
      simp only [bare]
      split
      · rename_i heq
        rw [heq]
        rfl
      · rfl
    present := by
      intro pv hpv
      obtain ⟨before, hbefore, rfl⟩ := List.mem_map.mp hpv
      have hpresent := m.present before hbefore
      simp only [bare]
      split
      · rename_i heq
        rw [heq] at hpresent
        exact hpresent.1
      · rename_i hne
        refine present_mono hpresent (fun _ _ hin => hin) fun other hother hsome => ?_
        rw [cacheOf_filter (by rintro rfl; exact hne hother)]
        exact hsome
    grouped := by
      intro volume hvolume
      obtain ⟨pv, hpv, hgroup⟩ := m.grouped volume hvolume
      refine ⟨bare pv, List.mem_map_of_mem hpv, ?_⟩
      simp only [bare]
      split <;> exact hgroup }

def addCache (disk : DiskName) (id : Nat) : Machine :=
  m.setSysfs { m.sysfs with caches := m.sysfs.caches ++ [⟨disk, id⟩] } fun pv hpv =>
    present_mono (m.present pv hpv) (fun _ _ hin => hin) fun _ _ hsome =>
      cacheOf_append hsome

def effect (env : Env) : Command → Machine
  | .vgchangeActivate =>
      m.setVolumes (m.volumes.setActive fun _ => true) m.modify_grouped
  | .vgchangeDisable group =>
      m.setVolumes (m.volumes.setActive fun volume =>
        volume.active && decide (volume.key.group ≠ group)) m.modify_grouped
  | .zero path => if Storage.present m.sysfs path then m.wipe path.place else m
  | .pvcreate path => m.addPv env path
  | .pvresize path => m.growPv env path
  | .vgcreate name paths => m.addGroup name paths
  | .lvcreate key size => m.addVolume key size
  | .lvremove key =>
      { m.setVolumes (m.volumes.remove key) m.drop_grouped with
        destroyed := m.destroyed ++
          (m.volumes.list.filter (Volumes.taken key)).map (·.key) }
  | .lvresize key size => m.setVolumes (m.volumes.resize key size) m.modify_grouped
  | .mdadmCreate id disks => m.addArray env id disks
  | .mdadmStop id => m.stopArray id
  | .mdadmAdd id disk => m.addSpare id disk
  | .dmsetupRemove id => m.removeCache id
  | .flashcacheCreate disk id => m.addCache disk id
  | .pvscan | .vgscan | .lvscan | .zeroSuperblock _ | .flashcacheDestroy _
  | .writeTrailer _ => m

def issued (command : Command) : Nat := m.commands.countP fun entry => entry.1 = command

end Machine

abbrev Script := Action Machine Error

def system (env : Env) (command : Command) : Script Bool := fun m =>
  let succeeded := env.outcome command (m.issued command)
  (.ok succeeded,
    { (if succeeded then m.effect env command else m) with
      commands := m.commands ++ [(command, succeeded)] })

def systemSucceed (env : Env) (command : Command) : Script Unit := do
  let succeeded ← system env command
  Action.require (succeeded = true) (.failure "system() does not succeed")

end OpenSan.Storage
