import OpenSan.Matrix.Inventory

/-!
# Degraded arrays

`physical_list` names a missing member by its slot number alone, so two arrays
that lack the same slot have a member in common.  The page is rendered exactly
if that does not happen and every slave is a listed disk.
-/

namespace OpenSan.Matrix

open OpenSan.Foundation OpenSan.Einarc

namespace Inventory

def SlotsApart (inventory : Inventory) : Prop :=
  ∀ array ∈ inventory.sysfs.listedArrays, ∀ array' ∈ inventory.sysfs.listedArrays,
    array.id ≠ array'.id → ∀ slot ∈ missingSlots array.slaves array.raidDisks,
      slot ∉ missingSlots array'.slaves array'.raidDisks

variable {inventory : Inventory} {order : Order} {data : Data}

section Roles

variable {array array' : MdArray} (h : array ∈ inventory.sysfs.listedArrays)
  (h' : array' ∈ inventory.sysfs.listedArrays)

private theorem used_split :
    (inventory.sysfs.listedArrays.flatMap fun array => array.slaves.map (·.name)).Nodup ∧
      (inventory.sysfs.caches.map fun map => BlockName.disk map.physical).Nodup ∧
      ∀ name, name ∈ (inventory.sysfs.listedArrays.flatMap fun array =>
          array.slaves.map (·.name)) →
        name ∉ inventory.sysfs.caches.map fun map => BlockName.disk map.physical := by
  have hroles := inventory.roles
  rw [Sysfs.used, List.nodup_append'] at hroles
  exact ⟨hroles.1, hroles.2.1, fun name hin hcache => hroles.2.2 hin hcache⟩

include h h' in
theorem slave_apart {slave slave' : Slave} (hslave : slave ∈ array.slaves)
    (hslave' : slave' ∈ array'.slaves) (hname : slave.name = slave'.name) :
    array = array' := by
  refine eq_of_mem_flatMap used_split.1 h h' (x := slave.name)
    (List.mem_map_of_mem hslave) ?_
  rw [hname]
  exact List.mem_map_of_mem hslave'

private theorem mem_caches {id : Nat} {map : CachePair}
    (hmap : inventory.sysfs.cacheOf id = some map) :
    map ∈ inventory.sysfs.caches ∧ map.logicalId = id := by
  unfold Sysfs.cacheOf at hmap
  refine ⟨List.mem_reverse.mp (List.mem_of_find?_eq_some hmap), ?_⟩
  simpa using List.find?_some hmap

include h in
theorem cache_not_slave {id : Nat} {map : CachePair}
    (hmap : inventory.sysfs.cacheOf id = some map) {slave : Slave}
    (hslave : slave ∈ array.slaves) : slave.name ≠ .disk map.physical := by
  intro hname
  refine used_split.2.2 (.disk map.physical) ?_
    (List.mem_map.mpr ⟨map, (mem_caches hmap).1, rfl⟩)
  rw [← hname]
  exact List.mem_flatMap.mpr ⟨array, h, List.mem_map_of_mem hslave⟩

theorem cache_apart {id id' : Nat} {map map' : CachePair}
    (hmap : inventory.sysfs.cacheOf id = some map)
    (hmap' : inventory.sysfs.cacheOf id' = some map')
    (hdisk : map.physical = map'.physical) : id = id' := by
  obtain ⟨hin, rfl⟩ := mem_caches hmap
  obtain ⟨hin', rfl⟩ := mem_caches hmap'
  have hsame : map = map' := List.inj_on_of_nodup_map used_split.2.1 hin hin'
    (by rw [hdisk])
  rw [hsame]

end Roles

/-! ## Members and claimed disks -/

private theorem mem_physicals (hlisted : inventory.sysfs.SlavesListed) {array : MdArray}
    {logical : Logical} (hsource : inventory.Source order array logical)
    (p : PhysicalId) :
    p ∈ logical.physicals.keys ↔
      (∃ slave ∈ array.slaves, ∃ name, slave.name = .disk name ∧ p = name.id) ∨
        ∃ i ∈ missingSlots array.slaves array.raidDisks, p = ⟨99, i⟩ := by
  obtain ⟨harray, physicals, hrun, rfl⟩ := hsource
  obtain ⟨physicals', hrun', hkeys⟩ := physicalList_ok (hlisted array harray)
  rw [hrun] at hrun'
  obtain rfl := Except.ok.inj hrun'
  exact hkeys p

private theorem cachedBy_eq {array : MdArray} {logical : Logical}
    (hsource : inventory.Source order array logical) {p : PhysicalId}
    (hcache : logical.cachedBy = some p) :
    ∃ map, inventory.sysfs.cacheOf array.id = some map ∧ p = map.physical.id := by
  obtain ⟨_, physicals, _, rfl⟩ := hsource
  obtain ⟨map, hmap, rfl⟩ := Option.map_eq_some_iff.mp hcache
  exact ⟨map, hmap, rfl⟩

private theorem cache_not_member (hlisted : inventory.sysfs.SlavesListed)
    {array array' : MdArray} {logical logical' : Logical}
    (hsource : inventory.Source order array logical)
    (hsource' : inventory.Source order array' logical') {p : PhysicalId}
    (hcache : logical.cachedBy = some p) : p ∉ logical'.physicals.keys := by
  obtain ⟨map, hmap, rfl⟩ := cachedBy_eq hsource hcache
  rw [mem_physicals hlisted hsource']
  rintro (⟨slave, hslave, name, hname, hid⟩ | ⟨i, _, hid⟩)
  · rw [← DiskName.id_injective hid] at hname
    exact cache_not_slave hsource'.1 hmap hslave hname
  · cases hid

private theorem member_mem (hlisted : inventory.sysfs.SlavesListed) {array : MdArray}
    {logical : Logical} (hsource : inventory.Source order array logical)
    {p : PhysicalId} (hp : p ∈ logical.physicals.keys) : p ∈ memberIds data logical := by
  unfold memberIds cachedMembers
  split
  · exact hp
  · rename_i cache hcache
    split
    · exact List.mem_insert_of_mem hp
    · refine (List.mem_erase_of_ne ?_).mpr hp
      rintro rfl
      exact cache_not_member hlisted hsource hsource hcache hp

private theorem memberIds_ne_nil (hlisted : inventory.sysfs.SlavesListed)
    {array : MdArray} {logical : Logical}
    (hsource : inventory.Source order array logical) : memberIds data logical ≠ [] := by
  have hslaves : array.slaves ≠ [] := by
    simpa using (List.mem_filter.mp hsource.1).2
  obtain ⟨slave, hslave⟩ := List.exists_mem_of_ne_nil _ hslaves
  obtain ⟨_, name, hname⟩ := hlisted array hsource.1 slave hslave
  have hkey : name.id ∈ logical.physicals.keys :=
    (mem_physicals hlisted hsource _).mpr (.inl ⟨slave, hslave, name, hname, rfl⟩)
  exact List.ne_nil_of_mem (member_mem hlisted hsource hkey)

private theorem claimed_apart (hlisted : inventory.sysfs.SlavesListed)
    (hslots : inventory.SlotsApart) {array array' : MdArray}
    {logical logical' : Logical} (hsource : inventory.Source order array logical)
    (hsource' : inventory.Source order array' logical') (hne : array.id ≠ array'.id)
    {p : PhysicalId} (hp : p ∈ logical.claimed) : p ∉ logical'.claimed := by
  intro hp'
  rcases List.mem_append.mp hp with hkey | hcache
  · rcases List.mem_append.mp hp' with hkey' | hcache'
    · rcases (mem_physicals hlisted hsource p).mp hkey with
        ⟨slave, hslave, name, hname, rfl⟩ | ⟨i, hi, rfl⟩ <;>
        rcases (mem_physicals hlisted hsource' _).mp hkey' with
          ⟨slave', hslave', name', hname', hid⟩ | ⟨i', hi', hid⟩
      · rw [← DiskName.id_injective hid, ← hname] at hname'
        exact hne (congrArg MdArray.id
          (slave_apart hsource.1 hsource'.1 hslave hslave' hname'.symm))
      · cases hid
      · cases hid
      · cases hid
        exact hslots array hsource.1 array' hsource'.1 hne i hi hi'
    · exact cache_not_member hlisted hsource' hsource (Option.mem_toList.mp hcache') hkey
  · rcases List.mem_append.mp hp' with hkey' | hcache'
    · exact cache_not_member hlisted hsource hsource' (Option.mem_toList.mp hcache) hkey'
    · obtain ⟨map, hmap, rfl⟩ := cachedBy_eq hsource (Option.mem_toList.mp hcache)
      obtain ⟨map', hmap', hid⟩ := cachedBy_eq hsource' (Option.mem_toList.mp hcache')
      exact hne (cache_apart hmap hmap' (DiskName.id_injective hid))

/-! ## The page -/

section Assembled

variable (hassembled : inventory.Assembled order data)
  (hlisted : inventory.sysfs.SlavesListed)

include hassembled in
private theorem source_of_mem {e : Sigma fun _ : Nat => Logical}
    (he : e ∈ data.logicals.entries) :
    ∃ array, array.id = e.1 ∧ inventory.Source order array e.2 :=
  hassembled.sound e.1 e.2 (AList.mem_lookup_iff.mpr he)

include hassembled in
private theorem names_nodup : (data.accessPatterns.map (·.name)).Nodup := by
  rw [hassembled.accessPatterns]
  exact inventory.names

include hassembled in
theorem volumes_apart {e e' : Sigma fun _ : Nat => Logical}
    (he : e ∈ data.logicals.entries) (he' : e' ∈ data.logicals.entries)
    (hne : e.1 ≠ e'.1) {device : String} (hdevice : device ∈ e.2.volumes.keys) :
    device ∉ e'.2.volumes.keys := by
  obtain ⟨array, hid, _, physicals, _, hlogical⟩ := source_of_mem hassembled he
  obtain ⟨array', hid', _, physicals', _, hlogical'⟩ := source_of_mem hassembled he'
  rw [hlogical, mem_volumes] at hdevice
  rw [hlogical', mem_volumes]
  rintro ⟨volume', hvolume', hfirst', hin'⟩
  obtain ⟨volume, hvolume, hfirst, hin⟩ := hdevice
  have hsame := eq_of_mem_flatMap inventory.devices hvolume hvolume' hin hin'
  subst hsame
  refine hne ?_
  rw [← hid, ← hid']
  exact deviceOf_injective (hfirst.symm.trans hfirst')

include hassembled hlisted in
theorem regular (hslots : inventory.SlotsApart) : data.Regular where
  members e he := by
    obtain ⟨array, _, hsource⟩ := source_of_mem hassembled he
    exact memberIds_ne_nil hlisted hsource
  physicals e he e' he' hne p hp := by
    obtain ⟨array, hid, hsource⟩ := source_of_mem hassembled he
    obtain ⟨array', hid', hsource'⟩ := source_of_mem hassembled he'
    exact claimed_apart hlisted hslots hsource hsource' (hid ▸ hid' ▸ hne) hp
  volumes e he e' he' hne device hdevice := volumes_apart hassembled he he' hne hdevice
  names := names_nodup hassembled

include hassembled in
theorem snapshotsInside : data.SnapshotsInside := by
  intro e he v hv hkind snapshot hsnapshot
  obtain ⟨array, _, _, physicals, _, hlogical⟩ := source_of_mem hassembled he
  have hlookup : e.2.volumes.lookup v.1 = some v.2 := AList.mem_lookup_iff.mpr hv
  rw [hlogical] at hlookup ⊢
  exact snapshotsToOuter_inside hlookup hkind hsnapshot

include hassembled in
theorem groupsApart : data.GroupsApart := by
  intro e he e' he' group group' hgroup hgroup' hname
  obtain ⟨array, hid, _, physicals, _, hlogical⟩ := source_of_mem hassembled he
  obtain ⟨array', hid', _, physicals', _, hlogical'⟩ := source_of_mem hassembled he'
  rw [hlogical] at hgroup
  rw [hlogical'] at hgroup'
  obtain ⟨entry, hfind, rfl⟩ := Option.map_eq_some_iff.mp hgroup
  obtain ⟨entry', hfind', rfl⟩ := Option.map_eq_some_iff.mp hgroup'
  have hsame : entry = entry' := List.inj_on_of_nodup_map inventory.groupNames
    (List.mem_of_find?_eq_some hfind) (List.mem_of_find?_eq_some hfind') hname
  subst hsame
  have hfirst : entry.firstDevice = inventory.sysfs.deviceOf array.id := by
    simpa using List.find?_some hfind
  have hfirst' : entry.firstDevice = inventory.sysfs.deviceOf array'.id := by
    simpa using List.find?_some hfind'
  rw [← hid, ← hid']
  exact deviceOf_injective (hfirst.symm.trans hfirst')

include hassembled hlisted in
theorem layable {avail : Nat → List Ref} (hsessions : Sessions avail) :
    Layable ∅ data avail where
  members id logical hlookup := by
    obtain ⟨array, _, hsource⟩ := hassembled.sound id logical hlookup
    exact memberIds_ne_nil hlisted hsource
  caches id logical id' logical' hlookup hlookup' _ cache hcache := by
    obtain ⟨array, _, hsource⟩ := hassembled.sound id logical hlookup
    obtain ⟨array', _, hsource'⟩ := hassembled.sound id' logical' hlookup'
    exact cache_not_member hlisted hsource hsource' hcache
  apart id id' _ := by simp
  names := names_nodup hassembled
  sessions := hsessions

end Assembled

theorem slotsApart_of_page {sheet : Sheet} (h : inventory.page order = .ok sheet) :
    inventory.sysfs.SlavesListed ∧ inventory.SlotsApart := by
  obtain ⟨data, hdata, hpage⟩ := bind_eq_ok.mp h
  have hlisted := listed_of_data hdata
  obtain ⟨data', hdata', hassembled⟩ := data_ok order hlisted
  rw [hdata] at hdata'
  obtain rfl := Except.ok.inj hdata'
  refine ⟨hlisted, fun array harray array' harray' hne slot hslot hslot' => ?_⟩
  obtain ⟨logical, hlookup, hsource⟩ := hassembled.complete array harray
  obtain ⟨logical', hlookup', hsource'⟩ := hassembled.complete array' harray'
  have hmember : ∀ {array : MdArray} {logical : Logical},
      inventory.Source order array logical →
      slot ∈ missingSlots array.slaves array.raidDisks →
      ⟨99, slot⟩ ∈ memberIds data logical := fun hsource hin =>
    member_mem hlisted hsource
      ((mem_physicals hlisted hsource _).mpr (.inr ⟨slot, hin, rfl⟩))
  exact Data.page_raises (fun avail havail =>
      layable hassembled hlisted (sessions_of_perm havail))
    hlookup hlookup' hne (hmember hsource hslot) (hmember hsource' hslot') sheet hpage

/-- The page of a system is rendered, and every disk has the rowspan of its
array, if and only if every slave is a listed disk and no two arrays lack the
same slot. -/
theorem page_renders_iff (inventory : Inventory) (order : Order) :
    (∃ sheet, inventory.page order = .ok sheet ∧ RowspansFit sheet) ↔
      inventory.sysfs.SlavesListed ∧ inventory.SlotsApart := by
  constructor
  · rintro ⟨sheet, hpage, _⟩
    exact slotsApart_of_page hpage
  · rintro ⟨hlisted, hslots⟩
    obtain ⟨data, hdata, hassembled⟩ := data_ok order hlisted
    obtain ⟨sheet, hpage, hfit⟩ := Data.page_renders
      (regular hassembled hlisted hslots) (snapshotsInside hassembled)
      (groupsApart hassembled) order
    exact ⟨sheet, by rw [page, hdata, ok_bind, hpage], hfit⟩

/-! ## Two degraded mirrors -/

def halfMirror (id : Nat) (disk : DiskName) : MdArray where
  id := id
  slaves := [⟨.disk disk, some "in_sync"⟩]
  arrayState := some "clean"
  level := some "raid1"
  raidDisks := some 2
  degraded := some "1"
  syncAction := some "idle"
  syncCompleted := some "none"
  size := 1000

def halfMirrors : Inventory where
  sysfs := {
    disks := ((∅ : Table DiskName Nat).insert sdb 1000).insert sdc 1000
    files := fun _ => .sample
    arrays := [halfMirror 0 sdb, halfMirror 1 sdc]
    ids_nodup := by decide
    caches := [] }
  disk := fun _ => ⟨"0", 1000⟩
  level := fun _ => some "1"
  state := fun _ => "degraded"
  volumeGroups := []
  logicalVolumes := []
  accessPatterns := []
  sessions := ∅
  roles := by decide +kernel
  groupNames := by decide
  devices := by decide
  names := by decide

/-- Both arrays have the member `99:2`. -/
theorem halfMirrors_not_rendered :
    ¬ ∃ sheet, halfMirrors.page Order.plain = .ok sheet ∧ RowspansFit sheet := by
  rintro ⟨sheet, hpage, _⟩
  have hmem : ∀ array ∈ [halfMirror 0 sdb, halfMirror 1 sdc],
      array ∈ halfMirrors.sysfs.listedArrays := by
    intro array harray
    refine List.mem_filter.mpr ⟨harray, ?_⟩
    rcases List.mem_cons.mp harray with rfl | hin
    · rfl
    · obtain rfl : array = halfMirror 1 sdc := by simpa using hin
      rfl
  exact (slotsApart_of_page hpage).2 (halfMirror 0 sdb) (hmem _ (by simp))
    (halfMirror 1 sdc) (hmem _ (by simp)) (by decide) 2 (by decide) (by decide)

end Inventory

end OpenSan.Matrix
