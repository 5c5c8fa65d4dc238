import OpenSan.Einarc.AbsentMembers
import OpenSan.Storage.Page

/-!
# What a fresh page shows

A page that has just been loaded, compared with the machine: the arrays and
their devices, the groups with their physical volumes, and the volumes that
`M.LogicalVolume.list` lists.
-/

namespace OpenSan.Storage

open OpenSan.Foundation OpenSan.Einarc

variable {env : Env} {m : Machine} {page : Page}

structure Loaded (env : Env) (m : Machine) (page : Page) : Prop where
  survey : ∃ result, m.sysfs.survey env.host.order = .ok result
  logicals : ∃ logicals, m.sysfs.logicals env.host.order = .ok logicals ∧
    page.logicals = logicals.map fun logical =>
      ⟨logical.id, devicePath m.sysfs logical.id, logical.capacity⟩
  physicals : m.sysfs.physicals env.host.order = .ok page.physicals
  physicalVolumes : physicalVolumes env m = .ok page.physicalVolumes
  volumeGroups : page.volumeGroups = volumeGroups env m page.physicalVolumes
  volumes : ∃ volumes, logicalVolumes env m page.volumeGroups = .ok volumes ∧
    page.origins = (volumes.map fun volume => ⟨volume.key, volume.size⟩) ∧
    page.snapshots = volumes.flatMap (·.snapshots)

theorem loaded_of_loadPage (h : loadPage env m = .ok page) : Loaded env m page := by
  obtain ⟨result, hsurvey, h⟩ := bind_eq_ok.mp h
  obtain ⟨logicals, hlogicals, h⟩ := bind_eq_ok.mp h
  obtain ⟨physicals, hphysicals, h⟩ := bind_eq_ok.mp h
  obtain ⟨pvs, hpvs, h⟩ := bind_eq_ok.mp h
  obtain ⟨volumes, hvolumes, h⟩ := bind_eq_ok.mp h
  obtain rfl := Except.ok.inj h
  exact {
    survey := ⟨result, hsurvey⟩
    logicals := ⟨logicals, hlogicals, rfl⟩
    physicals := hphysicals
    physicalVolumes := hpvs
    volumeGroups := rfl
    volumes := ⟨volumes, hvolumes, rfl, rfl⟩ }

/-! ## Arrays -/

theorem mem_logicals {sysfs : Sysfs} {order : Order} {logicals : List LogicalDisk}
    (h : sysfs.logicals order = .ok logicals) :
    (∀ array ∈ sysfs.listedArrays, ∃ logical ∈ logicals, sysfs.logical array = .ok logical) ∧
      ∀ logical ∈ logicals, ∃ array ∈ sysfs.listedArrays, sysfs.logical array = .ok logical := by
  obtain ⟨hleft, hright⟩ := mapM_eq_ok h
  constructor
  · intro array harray
    exact hleft array (order.mem_visit.mpr harray)
  · intro logical hlogical
    obtain ⟨array, harray, hrun⟩ := hright logical hlogical
    exact ⟨array, order.mem_visit.mp harray, hrun⟩

theorem drives_nonneg {sysfs : Sysfs} (hlisted : sysfs.SlavesListed) {array : MdArray}
    (harray : array ∈ sysfs.listedArrays) {sysfs' : Sysfs} {logical : LogicalDisk}
    (hlogical : sysfs'.logical array = .ok logical) :
    ∀ drive ∈ logical.drives, 0 ≤ drive := by
  intro drive hdrive
  obtain ⟨slave, hslave, hscsi⟩ := (Sysfs.logical_eq_ok hlogical).2.2.2.2 drive hdrive
  obtain ⟨disk, hdisk⟩ := Sysfs.listed_disk (hlisted array harray slave hslave).1 hscsi
  rw [hdisk] at hscsi
  obtain rfl := Except.ok.inj hscsi
  exact (scsiSum_pos disk).le

theorem exists_drive {sysfs : Sysfs} {array : MdArray} (harray : array ∈ sysfs.listedArrays)
    {logical : LogicalDisk} (hlogical : sysfs.logical array = .ok logical) :
    ∃ drive, drive ∈ logical.drives := by
  obtain ⟨level, _, h⟩ := bind_eq_ok.mp hlogical
  obtain ⟨drives, hdrives, h⟩ := bind_eq_ok.mp h
  have hne : array.slaves ≠ [] := by simpa using (List.mem_filter.mp harray).2
  obtain ⟨slave, hslave⟩ := List.exists_mem_of_ne_nil _ hne
  obtain ⟨drive, hdrive, _⟩ := (mapM_eq_ok hdrives).1 slave hslave
  refine ⟨drive, ?_⟩
  cases hstate : array.finalState with
  | none =>
      rw [hstate] at h
      cases h
  | some state =>
      simp only [hstate] at h
      split at h
      · cases h
      · obtain rfl := Except.ok.inj h
        exact hdrive

theorem Loaded.device (h : Loaded env m page) {logical : ListedLogical}
    (hlogical : logical ∈ page.logicals) :
    logical.device = devicePath m.sysfs logical.id ∧
      logical.id ∈ m.sysfs.arrays.map (·.id) := by
  obtain ⟨logicals, hlogicals, hpage⟩ := h.logicals
  rw [hpage] at hlogical
  obtain ⟨disk, hdisk, rfl⟩ := List.mem_map.mp hlogical
  obtain ⟨array, harray, hrun⟩ := (mem_logicals hlogicals).2 disk hdisk
  refine ⟨rfl, ?_⟩
  change disk.id ∈ _
  rw [(Sysfs.logical_eq_ok hrun).2.1]
  exact List.mem_map_of_mem (List.mem_filter.mp harray).1

/-! ## Groups -/

def listedPv (env : Env) (sysfs : Sysfs) (pv : PhysicalVolume) : ListedPv :=
  ⟨pathCached env sysfs pv.path, pv.group, pv.total, pv.extent⟩

theorem Loaded.physicalVolumes_eq (h : Loaded env m page) :
    page.physicalVolumes = m.pvs.list.map (listedPv env m.sysfs) := by
  have hmap := mapM_map_eq id (listedPv env m.sysfs) (fun pv listed hrun => by
    simp only at hrun
    split at hrun
    · exact (Except.ok.inj hrun).symm
    · cases hrun) h.physicalVolumes
  simpa using hmap

theorem mem_groups {name : String} :
    name ∈ m.groups ↔ ∃ pv ∈ m.pvs.list, pv.group = some name := by
  simp [Machine.groups]

theorem Loaded.mem_volumeGroups (h : Loaded env m page) (group : ListedGroup) :
    group ∈ page.volumeGroups ↔ group.name ∈ m.groups ∧ group.physicalVolumes =
      (m.pvs.list.filter fun pv => pv.group = some group.name).map
        (listedPv env m.sysfs) := by
  have hmembers : ∀ name, (page.physicalVolumes.filter fun pv => pv.group = some name) =
      (m.pvs.list.filter fun pv => pv.group = some name).map (listedPv env m.sysfs) := by
    intro name
    rw [h.physicalVolumes_eq, List.filter_map]
    rfl
  have hne : ∀ name ∈ m.groups, ((m.pvs.list.filter fun pv => pv.group = some name).map
      (listedPv env m.sysfs)) ≠ [] := by
    intro name hname
    obtain ⟨pv, hpv, hgroup⟩ := mem_groups.mp hname
    simp only [ne_eq, List.map_eq_nil_iff, List.filter_eq_nil_iff]
    exact fun hall => hall pv hpv (by simpa using hgroup)
  rw [h.volumeGroups, Storage.volumeGroups]
  simp only [List.mem_filterMap, Order.mem_visit, hmembers]
  constructor
  · rintro ⟨name, hname, hsome⟩
    rw [if_neg (hne name hname)] at hsome
    obtain rfl := Option.some.inj hsome
    exact ⟨hname, rfl⟩
  · rintro ⟨hname, hpvs⟩
    refine ⟨group.name, hname, ?_⟩
    rw [if_neg (hne _ hname), ← hpvs]

theorem Loaded.group_of_volume (h : Loaded env m page) {volume : Volume}
    (hvolume : volume ∈ m.volumes.list) :
    volume.key.group ∈ page.volumeGroups.map (·.name) := by
  have hname := mem_groups.mpr (m.grouped volume hvolume)
  let group : ListedGroup := ⟨volume.key.group, (m.pvs.list.filter fun pv =>
    pv.group = some volume.key.group).map (listedPv env m.sysfs)⟩
  have hgroup : group ∈ page.volumeGroups := (h.mem_volumeGroups group).mpr ⟨hname, rfl⟩
  exact List.mem_map_of_mem hgroup

theorem pathCached_eq_device {sysfs : Sysfs} {path : Path} (h : present sysfs path)
    (id : Nat) : pathCached env sysfs path = devicePath sysfs id ↔ path.place = .array id := by
  cases path with
  | md other =>
      constructor
      · intro heq
        have hplace : (devicePath sysfs other).place = (devicePath sysfs id).place :=
          congrArg Path.place heq
        rwa [devicePath_place, devicePath_place] at hplace
      · intro hplace
        obtain rfl : other = id := by simpa [Path.place] using hplace
        rfl
  | flashcache other =>
      have hdevice : devicePath sysfs other = .flashcache other := by
        unfold devicePath
        rw [if_pos h.2]
      constructor
      · intro heq
        have hplace : (Path.flashcache other).place = (devicePath sysfs id).place :=
          congrArg Path.place heq
        rwa [devicePath_place] at hplace
      · intro hplace
        obtain rfl : other = id := by simpa [Path.place] using hplace
        exact hdevice.symm
  | other text =>
      obtain ⟨text', htext⟩ : ∃ text', pathCached env sysfs (.other text) =
          .other text' := by
        simp only [pathCached]
        split
        · split <;> exact ⟨_, rfl⟩
        · exact ⟨_, rfl⟩
      constructor
      · intro heq
        have hplace : (Path.other text').place = (devicePath sysfs id).place :=
          congrArg Path.place (htext ▸ heq)
        rw [devicePath_place] at hplace
        cases hplace
      · intro hplace
        cases hplace

/-! ## Volumes -/

def Volume.shown (volume : Volume) : Prop :=
  volume.active = true ∧ isHeader volume.key = false

def Volumes.originShown (volumes : Volumes) (volume : Volume) : Prop :=
  ∃ origin ∈ volumes.list, volume.origin = some origin.key.name ∧
    origin.key.group = volume.key.group ∧ origin.shown

theorem listVolume_hidden {groups : List String} {table : Table VolumeName ListedOrigin}
    {volume : Volume} (h : ¬ volume.shown) :
    listVolume groups table volume = .ok table := by
  unfold listVolume
  by_cases hheader : isHeader volume.key = true
  · rw [if_pos hheader]
  · rw [if_neg hheader, if_pos (by simpa [Volume.shown, hheader] using h)]

theorem listVolume_snapshot {groups : List String} {table : Table VolumeName ListedOrigin}
    {volume : Volume} (h : volume.shown) (hgroup : volume.key.group ∈ groups)
    {origin : ListedOrigin} (horigin : (volume.origin.bind fun name =>
      table.lookup ⟨volume.key.group, name⟩) = some origin) :
    listVolume groups table volume = .ok (table.insert origin.key { origin with
      snapshots := origin.snapshots ++ [⟨volume.key, volume.size⟩] }) := by
  unfold listVolume
  simp only [horigin, h.1, h.2, hgroup, if_true]
  rfl

theorem listVolume_volume {groups : List String} {table next : Table VolumeName ListedOrigin}
    {volume : Volume} (h : volume.shown) (hgroup : volume.key.group ∈ groups)
    (horigin : (volume.origin.bind fun name =>
      table.lookup ⟨volume.key.group, name⟩) = none)
    (hrun : listVolume groups table volume = .ok next) :
    next = table.insert volume.key ⟨volume.key, volume.size, []⟩ := by
  unfold listVolume at hrun
  simp only [horigin, h.1, h.2, hgroup, if_true, Bool.false_eq_true, if_false,
    Bool.true_eq_false] at hrun
  split at hrun
  · exact (Except.ok.inj hrun).symm
  · cases hrun

/-- The table after some lines: a volume is under its own key, and a snapshot of
a shown volume is below that volume. -/
structure Lists (volumes : Volumes) (done : List Volume)
    (table : Table VolumeName ListedOrigin) : Prop where
  key : ∀ key entry, table.lookup key = some entry → entry.key = key
  keys : ∀ key, key ∈ table.keys ↔
    ∃ volume ∈ done, volume.key = key ∧ volume.shown ∧ ¬ volumes.originShown volume
  snapshots : ∀ key, (∃ owner entry, table.lookup owner = some entry ∧
    key ∈ entry.snapshots.map (·.key)) ↔
      ∃ volume ∈ done, volume.key = key ∧ volume.shown ∧ volumes.originShown volume

namespace Lists

variable {volumes : Volumes} {done : List Volume} {volume : Volume}
  {table next : Table VolumeName ListedOrigin}

theorem exists_append {P : Volume → Prop} :
    (∃ other ∈ done ++ [volume], P other) ↔ (∃ other ∈ done, P other) ∨ P volume := by
  simp [or_and_right, exists_or]

theorem hidden (h : Lists volumes done table) (hhidden : ¬ volume.shown) :
    Lists volumes (done ++ [volume]) table := by
  refine ⟨h.key, fun key => ?_, fun key => ?_⟩
  · rw [h.keys key, exists_append]
    simp [hhidden]
  · rw [h.snapshots key, exists_append]
    simp [hhidden]

theorem addSnapshot (h : Lists volumes done table) (hshown : volume.shown)
    (horigin : volumes.originShown volume) {owner : VolumeName} {origin : ListedOrigin}
    (hlookup : table.lookup owner = some origin) :
    Lists volumes (done ++ [volume]) (table.insert origin.key { origin with
      snapshots := origin.snapshots ++ [⟨volume.key, volume.size⟩] }) := by
  obtain rfl := h.key owner origin hlookup
  have howner : origin.key ∈ table.keys := by
    rw [← AList.mem_keys, ← AList.lookup_isSome, hlookup]
    rfl
  refine ⟨fun key entry hentry => ?_, fun key => ?_, fun key => ?_⟩
  · by_cases heq : key = origin.key
    · subst heq
      rw [AList.lookup_insert] at hentry
      rw [← Option.some.inj hentry]
    · rw [AList.lookup_insert_ne heq] at hentry
      exact h.key key entry hentry
  · rw [← AList.mem_keys, AList.mem_insert, AList.mem_keys, exists_append, ← h.keys key]
    constructor
    · rintro (rfl | hin)
      · exact .inl howner
      · exact .inl hin
    · rintro (hin | ⟨_, _, hnot⟩)
      · exact .inr hin
      · exact absurd horigin hnot
  · rw [exists_append, ← h.snapshots key]
    constructor
    · rintro ⟨other, entry, hentry, hkey⟩
      by_cases heq : other = origin.key
      · subst heq
        rw [AList.lookup_insert] at hentry
        obtain rfl := Option.some.inj hentry
        rw [List.map_append, List.mem_append] at hkey
        rcases hkey with hold | hnew
        · exact .inl ⟨origin.key, origin, hlookup, hold⟩
        · exact .inr ⟨by simpa using Eq.symm (by simpa using hnew), hshown, horigin⟩
      · rw [AList.lookup_insert_ne heq] at hentry
        exact .inl ⟨other, entry, hentry, hkey⟩
    · rintro (⟨other, entry, hentry, hkey⟩ | ⟨rfl, _, _⟩)
      · by_cases heq : other = origin.key
        · subst heq
          obtain rfl : origin = entry := Option.some.inj (hlookup.symm.trans hentry)
          refine ⟨origin.key, _, AList.lookup_insert _, ?_⟩
          rw [List.map_append]
          exact List.mem_append_left _ hkey
        · exact ⟨other, entry, by rw [AList.lookup_insert_ne heq]; exact hentry, hkey⟩
      · exact ⟨origin.key, _, AList.lookup_insert _, by simp⟩

theorem addVolume (h : Lists volumes done table) (hshown : volume.shown)
    (horigin : ¬ volumes.originShown volume) (hfresh : ∀ other ∈ done, other.key ≠ volume.key) :
    Lists volumes (done ++ [volume])
      (table.insert volume.key ⟨volume.key, volume.size, []⟩) := by
  have hnot : volume.key ∉ table.keys := by
    rw [h.keys]
    rintro ⟨other, hother, hkey, _⟩
    exact hfresh other hother hkey
  refine ⟨fun key entry hentry => ?_, fun key => ?_, fun key => ?_⟩
  · by_cases heq : key = volume.key
    · subst heq
      rw [AList.lookup_insert] at hentry
      rw [← Option.some.inj hentry]
    · rw [AList.lookup_insert_ne heq] at hentry
      exact h.key key entry hentry
  · rw [← AList.mem_keys, AList.mem_insert, AList.mem_keys, exists_append, ← h.keys key]
    constructor
    · rintro (rfl | hin)
      · exact .inr ⟨rfl, hshown, horigin⟩
      · exact .inl hin
    · rintro (hin | ⟨rfl, _⟩)
      · exact .inr hin
      · exact .inl rfl
  · rw [exists_append, ← h.snapshots key]
    constructor
    · rintro ⟨other, entry, hentry, hkey⟩
      by_cases heq : other = volume.key
      · subst heq
        rw [AList.lookup_insert] at hentry
        obtain rfl := Option.some.inj hentry
        cases hkey
      · rw [AList.lookup_insert_ne heq] at hentry
        exact .inl ⟨other, entry, hentry, hkey⟩
    · rintro (⟨other, entry, hentry, hkey⟩ | ⟨_, _, hyes⟩)
      · have hne : other ≠ volume.key := by
          rintro rfl
          rw [AList.lookup_eq_none.mpr (by simpa [AList.mem_keys] using hnot)] at hentry
          cases hentry
        exact ⟨other, entry, by rw [AList.lookup_insert_ne hne]; exact hentry, hkey⟩
      · exact absurd hyes horigin

theorem step {groups : List String} (h : Lists volumes done table)
    (hgroup : volume.key.group ∈ groups) (hfresh : ∀ other ∈ done, other.key ≠ volume.key)
    (horigin : (volume.origin.bind fun name =>
      table.lookup ⟨volume.key.group, name⟩).isSome = true ↔ volumes.originShown volume)
    (hrun : listVolume groups table volume = .ok next) :
    Lists volumes (done ++ [volume]) next := by
  by_cases hshown : volume.shown
  · cases hfound : volume.origin.bind fun name => table.lookup ⟨volume.key.group, name⟩ with
    | none =>
        rw [hfound] at horigin
        rw [listVolume_volume hshown hgroup hfound hrun]
        exact h.addVolume hshown (fun hyes => by simpa using horigin.mpr hyes) hfresh
    | some origin =>
        rw [listVolume_snapshot hshown hgroup hfound] at hrun
        obtain rfl := Except.ok.inj hrun
        obtain ⟨name, _, hlookup⟩ := Option.bind_eq_some_iff.mp hfound
        rw [hfound] at horigin
        exact h.addSnapshot hshown (horigin.mp rfl) hlookup
  · rw [listVolume_hidden hshown] at hrun
    obtain rfl := Except.ok.inj hrun
    exact h.hidden hshown

end Lists

theorem Volumes.eq_of_key (volumes : Volumes) {a b : Volume} (ha : a ∈ volumes.list)
    (hb : b ∈ volumes.list) (h : a.key = b.key) : a = b :=
  List.inj_on_of_nodup_map volumes.distinct ha hb h

theorem Volumes.originShown_iff (volumes : Volumes) {volume : Volume}
    (hvolume : volume ∈ volumes.list) {name : String} (hname : volume.origin = some name) :
    volumes.originShown volume ↔ ∃ origin ∈ volumes.list,
      origin.key = ⟨volume.key.group, name⟩ ∧ origin.origin = none ∧ origin.shown := by
  obtain ⟨origin, horigin, hkey, hnone⟩ := volumes.origins volume hvolume name hname
  constructor
  · rintro ⟨other, hother, hsome, hgroup, hshown⟩
    obtain rfl : name = other.key.name := Option.some.inj (hname.symm.trans hsome)
    obtain rfl := volumes.eq_of_key hother horigin (by rw [hkey, ← hgroup])
    exact ⟨other, hother, hkey, hnone, hshown⟩
  · rintro ⟨other, hother, hotherKey, _, hshown⟩
    exact ⟨other, hother, by rw [hname, hotherKey], by rw [hotherKey], hshown⟩

theorem not_originShown_of_none (volumes : Volumes) {volume : Volume}
    (h : volume.origin = none) : ¬ volumes.originShown volume := by
  rintro ⟨origin, _, hsome, _⟩
  rw [h] at hsome
  cases hsome

theorem mem_lvsLines {order : Order} {volumes : Volumes} {volume : Volume} :
    volume ∈ lvsLines order volumes ↔ volume ∈ volumes.list := by
  simp only [lvsLines, List.mem_append, Order.mem_visit, List.mem_filter]
  cases volume.origin <;> simp

theorem done_of_none {order : Order} {volumes : Volumes} {done rest : List Volume}
    {volume origin : Volume} (h : done ++ volume :: rest = lvsLines order volumes)
    (hvolume : volume.origin.isSome = true) (horigin : origin ∈ volumes.list)
    (hnone : origin.origin = none) : origin ∈ done := by
  have hfirst : origin ∈ order.visit (volumes.list.filter fun volume =>
      volume.origin.isNone) := by simp [horigin, hnone]
  rcases List.append_eq_append_iff.mp h with ⟨middle, hlines, hmiddle⟩ | ⟨middle, hdone, _⟩
  · cases middle with
    | nil =>
        rw [List.append_nil] at hlines
        exact hlines ▸ hfirst
    | cons first middle =>
        obtain ⟨rfl, _⟩ := List.cons.inj hmiddle
        have hin : volume ∈ order.visit (volumes.list.filter fun volume =>
            volume.origin.isNone) := by
          rw [hlines]
          simp
        simp only [Order.mem_visit, List.mem_filter] at hin
        rw [Option.isNone_iff_eq_none.mp hin.2] at hvolume
        cases hvolume
  · rw [hdone]
    exact List.mem_append_left _ hfirst

theorem lists_of_lvs {order : Order} {volumes : Volumes} {groups : List String}
    (hgroups : ∀ volume ∈ volumes.list, volume.key.group ∈ groups)
    {table : Table VolumeName ListedOrigin}
    (h : (lvsLines order volumes).foldlM (listVolume groups) ∅ = .ok table) :
    Lists volumes (lvsLines order volumes) table := by
  refine foldlM_invariant h (Lists volumes) ⟨by simp, by simp, by simp⟩ ?_
  intro done volume rest table next hlines hdone hrun
  have hmem : ∀ other ∈ done ++ volume :: rest, other ∈ volumes.list := by
    intro other hother
    rw [hlines] at hother
    exact mem_lvsLines.mp hother
  have hnodup : ((done ++ volume :: rest).map (·.key)).Nodup := by
    rw [hlines]
    have hperm : (lvsLines order volumes).Perm volumes.list := by
      refine ((order.perm _).append (order.perm _)).trans ?_
      have hsplit := List.filter_append_perm (fun volume : Volume => volume.origin.isNone)
        volumes.list
      simpa using hsplit
    exact (hperm.map _).nodup_iff.mpr volumes.distinct
  have hvolume : volume ∈ volumes.list := hmem volume (by simp)
  refine hdone.step (hgroups volume hvolume) ?_ ?_ hrun
  · intro other hother heq
    rw [List.map_append, List.nodup_append] at hnodup
    exact hnodup.2.2 _ (List.mem_map_of_mem hother) _ (by simp) heq
  · cases hname : volume.origin with
    | none => simp [not_originShown_of_none volumes hname]
    | some name =>
        rw [volumes.originShown_iff hvolume hname, Option.bind_some, AList.lookup_isSome,
          AList.mem_keys, hdone.keys]
        constructor
        · rintro ⟨origin, horigin, hkey, hshown, _⟩
          obtain ⟨other, hother, hkey', hnone⟩ := volumes.origins volume hvolume name hname
          obtain rfl := volumes.eq_of_key (hmem origin (by simp [horigin])) hother
            (hkey.trans hkey'.symm)
          exact ⟨origin, hother, hkey, hnone, hshown⟩
        · rintro ⟨origin, horigin, hkey, hnone, hshown⟩
          exact ⟨origin, done_of_none hlines (by simp [hname]) horigin hnone, hkey, hshown,
            not_originShown_of_none volumes hnone⟩

theorem Loaded.exists_lists (h : Loaded env m page) :
    ∃ table, Lists m.volumes (lvsLines env.host.order m.volumes) table ∧
      (∀ key, key ∈ page.origins.map (·.key) ↔ key ∈ table.keys) ∧
      ∀ key, key ∈ page.snapshots.map (·.key) ↔ ∃ owner entry,
        table.lookup owner = some entry ∧ key ∈ entry.snapshots.map (·.key) := by
  obtain ⟨volumes, hvolumes, horigins, hsnapshots⟩ := h.volumes
  obtain ⟨table, htable, hvisit⟩ := bind_eq_ok.mp hvolumes
  obtain rfl := Except.ok.inj hvisit
  have hlists := lists_of_lvs (fun volume hvolume => h.group_of_volume hvolume) htable
  have hentries : ∀ entry, entry ∈ table.entries.map (·.2) ↔
      ∃ owner, table.lookup owner = some entry := by
    intro entry
    rw [List.mem_map]
    constructor
    · rintro ⟨⟨owner, found⟩, hin, rfl⟩
      exact ⟨owner, AList.mem_lookup_iff.mpr hin⟩
    · rintro ⟨owner, hlookup⟩
      exact ⟨⟨owner, entry⟩, AList.mem_lookup_iff.mp hlookup, rfl⟩
  refine ⟨table, hlists, fun key => ?_, fun key => ?_⟩
  · rw [horigins, List.map_map, List.mem_map]
    constructor
    · rintro ⟨entry, hentry, rfl⟩
      obtain ⟨owner, hlookup⟩ := (hentries entry).mp (Order.mem_visit _ |>.mp hentry)
      have howner : owner ∈ table.keys := by
        rw [← AList.mem_keys, ← AList.lookup_isSome, hlookup]
        rfl
      change entry.key ∈ table.keys
      rw [hlists.key owner entry hlookup]
      exact howner
    · intro hkey
      rw [← AList.mem_keys, ← AList.lookup_isSome, Option.isSome_iff_exists] at hkey
      obtain ⟨entry, hlookup⟩ := hkey
      exact ⟨entry, (Order.mem_visit _).mpr ((hentries entry).mpr ⟨key, hlookup⟩),
        hlists.key key entry hlookup⟩
  · rw [hsnapshots, List.map_flatMap]
    simp only [List.mem_flatMap, Order.mem_visit, hentries]
    constructor
    · rintro ⟨entry, ⟨owner, hlookup⟩, hkey⟩
      exact ⟨owner, entry, hlookup, hkey⟩
    · rintro ⟨owner, entry, hlookup, hkey⟩
      exact ⟨entry, ⟨owner, hlookup⟩, hkey⟩

theorem Loaded.mem_origins (h : Loaded env m page) (key : VolumeName) :
    key ∈ page.origins.map (·.key) ↔ ∃ volume ∈ m.volumes.list, volume.key = key ∧
      volume.shown ∧ ¬ m.volumes.originShown volume := by
  obtain ⟨table, hlists, horigins, _⟩ := h.exists_lists
  rw [horigins, hlists.keys]
  simp only [mem_lvsLines]

/-- The page shows every active volume whose line is not taken for the header. -/
theorem Loaded.mem_volumes (h : Loaded env m page) (key : VolumeName) :
    key ∈ page.volumes.map (·.key) ↔
      ∃ volume ∈ m.volumes.list, volume.key = key ∧ volume.shown := by
  obtain ⟨table, hlists, horigins, hsnapshots⟩ := h.exists_lists
  rw [Page.volumes, List.map_append, List.mem_append, horigins, hsnapshots, hlists.keys,
    hlists.snapshots]
  simp only [mem_lvsLines]
  constructor
  · rintro (⟨volume, hvolume, hkey, hshown, _⟩ | ⟨volume, hvolume, hkey, hshown, _⟩)
    · exact ⟨volume, hvolume, hkey, hshown⟩
    · exact ⟨volume, hvolume, hkey, hshown⟩
  · rintro ⟨volume, hvolume, hkey, hshown⟩
    by_cases horigin : m.volumes.originShown volume
    · exact .inr ⟨volume, hvolume, hkey, hshown, horigin⟩
    · exact .inl ⟨volume, hvolume, hkey, hshown, horigin⟩

end OpenSan.Storage
