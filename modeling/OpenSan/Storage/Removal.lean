import OpenSan.Storage.Addition

/-!
# Removing a volume

The request overwrites the labels of the whole group when the page shows no
other volume in its array part, and else removes the volume.  The two agree
with one specification except for a volume `LV` of a group `VG`, whose line of
`lvs` is taken for the header, and for physical volumes that
`M.Flashcache.path_cached` shows under a wrong path.
-/

namespace OpenSan.Storage

open OpenSan.Foundation OpenSan.Einarc

variable {env : Env} {m m' : Machine} {page : Page} {victim : Volume}

/-! ## Overwriting labels -/

theorem groupsAt_drop (pvs : PhysicalVolumes) (place other : Place) :
    (pvs.drop place).groupsAt other = if other = place then [] else pvs.groupsAt other := by
  unfold PhysicalVolumes.groupsAt PhysicalVolumes.drop
  rw [List.filter_filter]
  by_cases h : other = place
  · subst h
    rw [if_pos rfl]
    simp
  · rw [if_neg h]
    congr 1
    apply List.filter_congr
    intro pv _
    by_cases hpv : pv.path.place = other
    · simp [hpv, h]
    · simp [hpv]

theorem prepares_return (hsucceeds : env.Succeeds) {paths : List Path}
    (hdisk : ∀ path ∈ paths, isDisk path = true)
    (hpresent : ∀ path ∈ paths, present m.sysfs path) :
    Action.Returns (Action.forEach paths (prepare env)) m fun _ m' =>
      m'.commands = m.commands ++ paths.map (fun path => (.zero path, true)) ∧
      m'.keys = m.keys.filter fun key =>
        decide (∀ path ∈ paths, key.group ∉ m.pvs.groupsAt path.place) := by
  induction paths generalizing m with
  | nil => exact Action.Returns.pure ⟨by simp, by simp [Machine.keys]⟩
  | cons path paths ih =>
      have hrun : prepare env path m = (.ok (), m.after env (.zero path) true) := by
        rw [prepare_eq (hdisk path (by simp)), hsucceeds.run]
      have heffect : m.effect env (.zero path) = m.wipe path.place := by
        simp only [Machine.effect, if_pos (hpresent path (by simp))]
      obtain ⟨value, m', hrest, hcommands, hkeys⟩ := ih (m := m.after env (.zero path) true)
        (fun other hother => hdisk other (by simp [hother]))
        (fun other hother => by
          rw [after_zero_sysfs]
          exact hpresent other (by simp [hother]))
      refine ⟨value, m', ?_, ?_, ?_⟩
      · rw [← hrest]
        exact Action.andThen_ok hrun
      · rw [hcommands, after_commands]
        simp
      · have hwiped : (m.after env (.zero path) true).keys = m.keys.filter fun key =>
            !decide (key.group ∈ m.pvs.groupsAt path.place) := by
          simp only [Machine.after, if_true, heffect]
          rw [Machine.keys, Machine.keys, List.filter_map]
          rfl
        have hpvs : (m.after env (.zero path) true).pvs = m.pvs.drop path.place := by
          simp only [Machine.after, if_true, heffect]
          rfl
        rw [hkeys, hwiped, hpvs, List.filter_filter]
        apply List.filter_congr
        intro key _
        rw [Bool.eq_iff_iff]
        simp only [groupsAt_drop, Bool.and_eq_true, Bool.not_eq_true', decide_eq_true_eq,
          decide_eq_false_iff_not, List.forall_mem_cons]
        constructor
        · rintro ⟨hlater, hnot⟩
          refine ⟨hnot, fun other hother => ?_⟩
          by_cases heq : other.place = path.place
          · rw [heq]
            exact hnot
          · simpa [heq] using hlater other hother
        · rintro ⟨hnot, hlater⟩
          refine ⟨fun other hother => ?_, hnot⟩
          split
          · simp
          · exact hlater other hother

/-! ## The group on the page -/

def labels (env : Env) (m : Machine) (group : String) : List Path :=
  (m.pvs.list.filter fun pv => pv.group = some group).map fun pv =>
    pathCached env m.sysfs pv.path

theorem mem_labels {group : String} {path : Path} : path ∈ labels env m group ↔
    ∃ pv ∈ m.pvs.list, pv.group = some group ∧ pathCached env m.sysfs pv.path = path := by
  simp [labels, and_assoc]

theorem present_pathCached {sysfs : Sysfs} {path : Path} (h : present sysfs path) :
    present sysfs (pathCached env sysfs path) := by
  cases path with
  | md id =>
      simp only [pathCached, devicePath]
      split
      · rename_i hcached
        exact ⟨h, hcached⟩
      · exact h
  | flashcache id => exact h
  | other text =>
      simp only [pathCached]
      split
      · split <;> trivial
      · trivial

theorem Loaded.labels_usable (h : Loaded env m page) {group : String} {path : Path}
    (hpath : path ∈ labels env m group) :
    isDisk path = true ∧ present m.sysfs path := by
  obtain ⟨pv, hpv, _, rfl⟩ := mem_labels.mp hpath
  refine ⟨?_, present_pathCached (m.present pv hpv)⟩
  obtain ⟨listed, _, hrun⟩ := (mapM_eq_ok h.physicalVolumes).1 pv hpv
  simp only at hrun
  split at hrun
  · assumption
  · cases hrun

theorem Loaded.volumeGroups_nodup (h : Loaded env m page) : page.volumeGroups.Nodup := by
  rw [h.volumeGroups, Storage.volumeGroups]
  refine List.Nodup.filterMap ?_ ((env.host.order.perm _).nodup_iff.mpr (List.nodup_dedup _))
  intro name name' group hgroup hgroup'
  simp only [Option.mem_def] at hgroup hgroup'
  split at hgroup
  · cases hgroup
  · split at hgroup'
    · cases hgroup'
    · rw [← Option.some.inj hgroup] at hgroup'
      exact congrArg ListedGroup.name (Option.some.inj hgroup').symm

theorem Loaded.removeLast_returns (h : Loaded env m page) (hsucceeds : env.Succeeds)
    {group : String} (hgroup : group ∈ m.groups) :
    Action.Returns (removeLast env page group) m fun _ m' =>
      m'.commands = m.commands ++ (.vgchangeDisable group, true) ::
        (labels env m group).map (fun path => (.zero path, true)) ∧
      m'.keys = m.keys.filter fun key =>
        decide (∀ path ∈ labels env m group, key.group ∉ m.pvs.groupsAt path.place) := by
  let listed : ListedGroup := ⟨group, (m.pvs.list.filter fun pv =>
    pv.group = some group).map (listedPv env m.sysfs)⟩
  have hlisted : listed ∈ page.volumeGroups := (h.mem_volumeGroups listed).mpr ⟨hgroup, rfl⟩
  have hsingle : removeLast env page group = (do
      disableGroup env group
      Action.forEach (labels env m group) (prepare env)) := by
    unfold removeLast
    rw [Action.forEach_of_single hlisted h.volumeGroups_nodup]
    · rw [if_pos rfl, labels, Action.forEach_map, Action.forEach_map]
      rfl
    · intro other hother hne
      rw [if_neg]
      · rfl
      · intro hname
        apply hne
        obtain ⟨_, hmembers⟩ := (h.mem_volumeGroups other).mp hother
        rw [hname] at hmembers
        cases other
        simp only at hname hmembers
        rw [hname, hmembers]
  rw [hsingle]
  let m₁ := m.after env (.vgchangeDisable group) true
  have hsame : SameVolumes m m₁ := by
    have hscanned : Scanned env m m₁ := by
      refine Relation.ReflTransGen.single ⟨.vgchangeDisable group, rfl, ?_⟩
      rw [hsucceeds]
    exact sameVolumes_of_scanned hscanned
  have husable : ∀ path ∈ labels env m group, isDisk path = true ∧ present m₁.sysfs path := by
    intro path hpath
    rw [hsame.sysfs]
    exact h.labels_usable hpath
  refine Action.Returns.bind (P := fun _ m' => m' = m₁) ⟨(), m₁, hsucceeds.run _, rfl⟩ ?_
  rintro _ m₂ rfl
  refine (prepares_return hsucceeds (fun path hpath => (husable path hpath).1)
    fun path hpath => (husable path hpath).2).mono ?_
  rintro _ m' ⟨hcommands, hkeys⟩
  rw [hsame.keys, hsame.pvs] at hkeys
  refine ⟨?_, hkeys⟩
  rw [hcommands]
  simp [m₁]

/-! ## The specification -/

def OnlyOrigin (volumes : Volumes) (victim : Volume) : Prop :=
  victim.origin = none ∧ ∀ other ∈ volumes.list, other.key.group = victim.key.group →
    other.origin = none → other.key = victim.key

def Zeroed (m m' : Machine) (place : Place) : Prop :=
  ∃ path, present m.sysfs path ∧ path.place = place ∧ (.zero path, true) ∈ m.since m'

/-- The volume and its snapshots are gone and nothing else is, and the devices
under the group are overwritten if and only if it was the only origin. -/
structure RemovesExactly (m m' : Machine) (victim : Volume) : Prop where
  survivors : ∀ volume ∈ m.volumes.list,
    (volume.key ∈ m'.keys ↔ Volumes.taken victim.key volume = false)
  zeroed : ∀ pv ∈ m.pvs.list, pv.group = some victim.key.group →
    (Zeroed m m' pv.path.place ↔ OnlyOrigin m.volumes victim)

theorem taken_self (victim : Volume) : Volumes.taken victim.key victim = true := by
  simp [Volumes.taken]

theorem OnlyOrigin.taken_iff (h : OnlyOrigin m.volumes victim) {volume : Volume}
    (hvolume : volume ∈ m.volumes.list) :
    Volumes.taken victim.key volume = true ↔ volume.key.group = victim.key.group := by
  constructor
  · intro htaken
    simp only [Volumes.taken, Bool.or_eq_true, Bool.and_eq_true, decide_eq_true_eq] at htaken
    rcases htaken with heq | ⟨hgroup, _⟩
    · rw [heq]
    · exact hgroup
  · intro hgroup
    cases horigin : volume.origin with
    | none =>
        have hkey := h.2 volume hvolume hgroup horigin
        simp [Volumes.taken, hkey]
    | some name =>
        obtain ⟨origin, hin, hkey, hnone⟩ := m.volumes.origins volume hvolume name horigin
        have hsame := h.2 origin hin (by rw [hkey]; exact hgroup) hnone
        rw [hkey] at hsame
        have hname : victim.key.name = name := congrArg VolumeName.name hsame.symm
        simp [Volumes.taken, hgroup, horigin, hname]

theorem groupsAt_own {pv : PhysicalVolume} (hpv : pv ∈ m.pvs.list) (group : String) :
    group ∈ m.pvs.groupsAt pv.path.place ↔ pv.group = some group := by
  rw [mem_groupsAt]
  constructor
  · rintro ⟨other, hother, hplace, hgroup⟩
    obtain rfl := List.inj_on_of_nodup_map m.pvs.distinct hother hpv hplace
    exact hgroup
  · exact fun hgroup => ⟨pv, hpv, rfl, hgroup⟩

theorem pathCached_own {sysfs : Sysfs} {path path' : Path}
    (h : (pathCached env sysfs path').place = path.place) :
    (pathCached env sysfs path).place = path.place := by
  cases path with
  | md id => exact devicePath_place sysfs id
  | flashcache id => rfl
  | other text =>
      cases path' with
      | md id =>
          rw [pathCached, devicePath_place] at h
          cases h
      | flashcache id => cases h
      | other text' =>
          have hcases : pathCached env sysfs (.other text') = .other text' ∨
              pathCached env sysfs (.other text') = .other ("/dev/mapper/flashcache" ++
                String.ofList (text'.toList.drop 5)) := by
            simp only [pathCached]
            split
            · split
              · exact .inr rfl
              · exact .inl rfl
            · exact .inl rfl
          rcases hcases with hown | hcached
          · rw [hown] at h
            obtain rfl : text' = text := by simpa [Path.place] using h
            rw [hown]
          · rw [hcached] at h
            obtain rfl : _ = text := by simpa [Path.place] using h
            simp only [pathCached]
            rw [env.tonumber_path _ (by simp)]

/-- Every physical volume of the group is shown under a path that leads to it. -/
def ShownWhereTheyAre (env : Env) (m : Machine) (group : String) : Prop :=
  ∀ pv ∈ m.pvs.list, pv.group = some group →
    (pathCached env m.sysfs pv.path).place = pv.path.place

theorem wiped_removes_iff (h : Loaded env m page) (hvictim : victim ∈ m.volumes.list)
    (hcommands : m'.commands = m.commands ++ (.vgchangeDisable victim.key.group, true) ::
      (labels env m victim.key.group).map (fun path => (.zero path, true)))
    (hkeys : m'.keys = m.keys.filter fun key => decide (∀ path ∈
      labels env m victim.key.group, key.group ∉ m.pvs.groupsAt path.place)) :
    RemovesExactly m m' victim ↔
      OnlyOrigin m.volumes victim ∧ ShownWhereTheyAre env m victim.key.group := by
  have hzeroed : ∀ place, Zeroed m m' place ↔
      ∃ path ∈ labels env m victim.key.group, path.place = place := by
    intro place
    unfold Zeroed
    rw [since_eq hcommands.symm]
    constructor
    · rintro ⟨path, _, hplace, hin⟩
      exact ⟨path, by simpa using hin, hplace⟩
    · rintro ⟨path, hpath, hplace⟩
      exact ⟨path, (h.labels_usable hpath).2, hplace, by simpa using hpath⟩
  have hsurvives : ∀ volume ∈ m.volumes.list, (volume.key ∈ m'.keys ↔
      ∀ path ∈ labels env m victim.key.group,
        volume.key.group ∉ m.pvs.groupsAt path.place) := by
    intro volume hvolume
    rw [hkeys, List.mem_filter, decide_eq_true_eq]
    exact and_iff_right (List.mem_map_of_mem hvolume)
  constructor
  · intro hremoves
    have hgone : victim.key ∉ m'.keys := by
      rw [hremoves.survivors victim hvictim, taken_self]
      simp
    rw [hsurvives victim hvictim] at hgone
    simp only [not_forall, not_not] at hgone
    obtain ⟨path, hpath, hgroup⟩ := hgone
    obtain ⟨pv, hpv, hplace, hgroup⟩ := mem_groupsAt.mp hgroup
    have honly := (hremoves.zeroed pv hpv hgroup).mp
      ((hzeroed _).mpr ⟨path, hpath, hplace.symm⟩)
    refine ⟨honly, fun pv hpv hgroup => ?_⟩
    obtain ⟨path, hpath, hplace⟩ := (hzeroed _).mp ((hremoves.zeroed pv hpv hgroup).mpr honly)
    obtain ⟨other, _, _, rfl⟩ := mem_labels.mp hpath
    exact pathCached_own hplace
  · rintro ⟨honly, hshown⟩
    have hown : ∀ pv ∈ m.pvs.list, pv.group = some victim.key.group →
        ∃ path ∈ labels env m victim.key.group, path.place = pv.path.place :=
      fun pv hpv hgroup => ⟨_, mem_labels.mpr ⟨pv, hpv, hgroup, rfl⟩, hshown pv hpv hgroup⟩
    refine ⟨fun volume hvolume => ?_, fun pv hpv hgroup => ?_⟩
    · rw [hsurvives volume hvolume, ← Bool.not_eq_true, honly.taken_iff hvolume]
      constructor
      · intro hall hgroup
        obtain ⟨pv, hpv, hsome⟩ := m.grouped victim hvictim
        obtain ⟨path, hpath, hplace⟩ := hown pv hpv hsome
        refine hall path hpath ?_
        rw [hplace, groupsAt_own hpv, hgroup]
        exact hsome
      · intro hne path hpath hin
        obtain ⟨pv, hpv, hgroup, rfl⟩ := mem_labels.mp hpath
        rw [hshown pv hpv hgroup, groupsAt_own hpv, hgroup] at hin
        exact hne (Option.some.inj hin).symm
    · rw [hzeroed]
      exact iff_of_true (hown pv hpv hgroup) honly

theorem removed_removes_iff (hvictim : victim ∈ m.volumes.list) :
    RemovesExactly m (m.after env (.lvremove victim.key) true) victim ↔
      ¬ OnlyOrigin m.volumes victim := by
  have hzeroed : ∀ place, ¬ Zeroed m (m.after env (.lvremove victim.key) true) place := by
    rintro place ⟨path, _, _, hin⟩
    rw [since_eq (after_commands _ _).symm] at hin
    simp at hin
  constructor
  · intro hremoves honly
    obtain ⟨pv, hpv, hgroup⟩ := m.grouped victim hvictim
    exact hzeroed _ ((hremoves.zeroed pv hpv hgroup).mpr honly)
  · intro hnot
    refine ⟨fun volume hvolume => ?_, fun pv _ _ => iff_of_false (hzeroed _) hnot⟩
    have hkeys : (m.after env (.lvremove victim.key) true).keys =
        (m.volumes.list.filter fun volume => !Volumes.taken victim.key volume).map
          (·.key) := rfl
    rw [hkeys, List.mem_map]
    constructor
    · rintro ⟨other, hother, heq⟩
      obtain ⟨hin, hkept⟩ := List.mem_filter.mp hother
      obtain rfl := m.volumes.eq_of_key hin hvolume heq
      simpa using hkept
    · intro hkept
      exact ⟨volume, List.mem_filter.mpr ⟨hvolume, by simpa using hkept⟩, rfl⟩

/-! ## The request -/

theorem findByHash_of_mem {host : Scst.Host} {obj : String} {objs : List String}
    (hmem : obj ∈ objs) (hfree : ∀ other ∈ objs, host.hash other = host.hash obj →
      other = obj) : Controller.findByHash host (host.hash obj) objs = .ok obj := by
  unfold Controller.findByHash
  obtain ⟨found, hfound⟩ : ∃ found, (objs.reverse.find? fun other =>
      host.hash other == host.hash obj) = some found := by
    apply Option.isSome_iff_exists.mp
    rw [List.find?_isSome]
    exact ⟨obj, List.mem_reverse.mpr hmem, by simp⟩
  rw [hfound]
  have hhash : host.hash found = host.hash obj := by simpa using List.find?_some hfound
  exact congrArg _ (hfree found (List.mem_reverse.mp (List.mem_of_find?_eq_some hfound)) hhash)

/-- No other name on the page has the hash of the volume's or of its group's. -/
structure HashFree (env : Env) (page : Page) (key : VolumeName) : Prop where
  group : ∀ other ∈ page.volumeGroups.map (·.name),
    env.host.hash other = env.host.hash key.group → other = key.group
  name : ∀ other ∈ page.volumes.map (·.key.name),
    env.host.hash other = env.host.hash key.name → other = key.name

theorem remove_group (h : Loaded env m page) (hvictim : victim ∈ m.volumes.list)
    (hhash : HashFree env page victim.key) :
    findGroupName env page (env.host.hash victim.key.group) = .ok victim.key.group := by
  refine findByHash_of_mem ?_ fun other hother heq => ?_
  · rw [Order.mem_visit, List.mem_dedup]
    exact h.group_of_volume hvictim
  · rw [Order.mem_visit, List.mem_dedup] at hother
    exact hhash.group other hother heq

theorem remove_name (hhash : HashFree env page victim.key) :
    (victim.key.name ∈ page.volumes.map (·.key.name) →
      findVolumeName env page (env.host.hash victim.key.name) = .ok victim.key.name) ∧
    (victim.key.name ∉ page.volumes.map (·.key.name) →
      ∃ e, findVolumeName env page (env.host.hash victim.key.name) = .error e) := by
  constructor
  · intro hmem
    refine findByHash_of_mem ?_ fun other hother heq => ?_
    · rw [Order.mem_visit, List.mem_dedup]
      exact hmem
    · rw [Order.mem_visit, List.mem_dedup] at hother
      exact hhash.name other hother heq
  · intro hnot
    cases hfound : findVolumeName env page (env.host.hash victim.key.name) with
    | error e => exact ⟨e, rfl⟩
    | ok name =>
        obtain ⟨hmem, heq⟩ := Controller.findByHash_eq_ok hfound
        rw [Order.mem_visit, List.mem_dedup] at hmem
        exact absurd (hhash.name name hmem heq ▸ hmem) hnot

theorem remove_removes_iff (h : Loaded env m page) (hsucceeds : env.Succeeds)
    (hvictim : victim ∈ m.volumes.list) (hhash : HashFree env page victim.key) :
    RemovesExactly m (lvmLogicalVolumeRemove env page (env.host.hash victim.key.group)
        (env.host.hash victim.key.name) m).2 victim ↔
      victim.key.name ∈ page.volumes.map (·.key.name) ∧
      (isLast page victim.key.group victim.key.name = true ↔
        OnlyOrigin m.volumes victim) ∧
      (OnlyOrigin m.volumes victim → ShownWhereTheyAre env m victim.key.group) := by
  have hgroup := remove_group h hvictim hhash
  by_cases hmem : victim.key.name ∈ page.volumes.map (·.key.name)
  · have hname := (remove_name hhash).1 hmem
    cases hlast : isLast page victim.key.group victim.key.name with
    | true =>
        obtain ⟨_, m', hrun, hcommands, hkeys⟩ := h.removeLast_returns hsucceeds
          (mem_groups.mpr (m.grouped victim hvictim))
        have hstate : (lvmLogicalVolumeRemove env page (env.host.hash victim.key.group)
            (env.host.hash victim.key.name) m).2 = m' := by
          simp [lvmLogicalVolumeRemove, hgroup, hname, hlast, hrun]
        rw [hstate, wiped_removes_iff h hvictim hcommands hkeys]
        tauto
    | false =>
        have hstate : (lvmLogicalVolumeRemove env page (env.host.hash victim.key.group)
            (env.host.hash victim.key.name) m).2 =
            m.after env (.lvremove victim.key) true := by
          simp [lvmLogicalVolumeRemove, hgroup, hname, hlast, removeVolume, hsucceeds.run]
        rw [hstate, removed_removes_iff hvictim]
        simp only [Bool.false_eq_true, false_iff]
        tauto
  · obtain ⟨e, herror⟩ := (remove_name hhash).2 hmem
    have hstate : (lvmLogicalVolumeRemove env page (env.host.hash victim.key.group)
        (env.host.hash victim.key.name) m).2 = m := by
      simp [lvmLogicalVolumeRemove, hgroup, herror]
    rw [hstate]
    refine iff_of_false (fun hremoves => ?_) fun hnamed => hmem hnamed.1
    have hkept := (hremoves.survivors victim hvictim).mp (List.mem_map_of_mem hvictim)
    rw [taken_self] at hkept
    cases hkept

/-! ## The volume that is taken for the header -/

theorem isHeader_iff (key : VolumeName) : isHeader key = true ↔ key = ⟨"VG", "LV"⟩ := by
  cases key
  simp [isHeader, and_comm]

theorem header_key {a b : VolumeName} (ha : isHeader a = true) (hb : isHeader b = true) :
    a = b := by
  rw [isHeader_iff] at ha hb
  rw [ha, hb]

structure Entry (volumes : Volumes) (group : String) (volume : Volume) : Prop where
  mem : volume ∈ volumes.list
  group : volume.key.group = group
  plain : isHeader volume.key = false
  alone : ¬ volumes.originShown volume

theorem Loaded.isLast_iff (h : Loaded env m page)
    (hactive : ∀ volume ∈ m.volumes.list, volume.active = true) (victim : Volume) :
    isLast page victim.key.group victim.key.name = true ↔
      ∀ volume, Entry m.volumes victim.key.group volume → volume.key = victim.key := by
  have hkeys : isLast page victim.key.group victim.key.name = true ↔
      ∀ key ∈ page.origins.map (·.key), key.group = victim.key.group →
        key.name = victim.key.name := by
    simp [isLast]
  rw [hkeys]
  constructor
  · intro hall volume hentry
    have hin : volume.key ∈ page.origins.map (·.key) := (h.mem_origins _).mpr
      ⟨volume, hentry.mem, rfl, ⟨hactive volume hentry.mem, hentry.plain⟩, hentry.alone⟩
    have hname := hall volume.key hin hentry.group
    have hgroup := hentry.group
    cases hkey : volume.key
    cases hvictim : victim.key
    simp_all
  · intro hall key hkey hgroup
    obtain ⟨volume, hvolume, rfl, hshown, halone⟩ := (h.mem_origins key).mp hkey
    rw [hall volume ⟨hvolume, hgroup, hshown.2, halone⟩]

section Header

variable {volumes : Volumes} {group : String} {volume origin : Volume}

theorem entry_of_none (hvolume : volume ∈ volumes.list) (hgroup : volume.key.group = group)
    (hnone : volume.origin = none) (hplain : isHeader volume.key = false) :
    Entry volumes group volume :=
  ⟨hvolume, hgroup, hplain, not_originShown_of_none volumes hnone⟩

theorem entry_of_header {header : Volume} (hheader : header ∈ volumes.list)
    (htaken : isHeader header.key = true) (hnone : header.origin = none)
    (hvolume : volume ∈ volumes.list) (hgroup : volume.key.group = header.key.group)
    (horigin : volume.origin = some header.key.name) :
    Entry volumes header.key.group volume := by
  refine ⟨hvolume, hgroup, ?_, ?_⟩
  · cases hplain : isHeader volume.key with
    | false => rfl
    | true =>
        obtain rfl := volumes.eq_of_key hvolume hheader (header_key hplain htaken)
        rw [hnone] at horigin
        cases horigin
  · rw [volumes.originShown_iff hvolume horigin]
    rintro ⟨other, hother, hkey, _, hshown⟩
    have hplain := hshown.2
    rw [hkey, hgroup, htaken] at hplain
    cases hplain

theorem Entry.cases_origin (hactive : ∀ volume ∈ volumes.list, volume.active = true)
    (h : Entry volumes group volume) : volume.origin = none ∨
      ∃ header ∈ volumes.list, isHeader header.key = true ∧ header.key.group = group ∧
        header.origin = none ∧ volume.origin = some header.key.name := by
  cases horigin : volume.origin with
  | none => exact .inl rfl
  | some name =>
      obtain ⟨other, hother, hkey, hnone⟩ := volumes.origins volume h.mem name horigin
      refine .inr ⟨other, hother, ?_, by rw [hkey]; exact h.group, hnone, by rw [hkey]⟩
      by_contra hplain
      refine h.alone ((volumes.originShown_iff h.mem horigin).mpr
        ⟨other, hother, hkey, hnone, hactive other hother, by simpa using hplain⟩)

end Header

/-- A volume `LV` of the group `VG` that is no snapshot does no harm: the page
still shows another volume, or there is none. -/
def HeaderHarmless (volumes : Volumes) (victim : Volume) : Prop :=
  ∀ header ∈ volumes.list, isHeader header.key = true →
    header.key.group = victim.key.group → header.origin = none →
      (∃ other ∈ volumes.list, other.key.group = victim.key.group ∧ other.origin = none ∧
        other.key ≠ victim.key ∧ other.key ≠ header.key) ∨
      if victim.key = header.key then
        ∀ other ∈ volumes.list, other.key.group = victim.key.group →
          other.origin ≠ some header.key.name
      else
        ∃ other ∈ volumes.list, other.key.group = victim.key.group ∧
          other.origin = some header.key.name ∧ other.key ≠ victim.key

theorem last_iff_of_no_header {volumes : Volumes}
    (hactive : ∀ volume ∈ volumes.list, volume.active = true)
    (hvictim : victim ∈ volumes.list)
    (hno : ∀ header ∈ volumes.list, isHeader header.key = true →
      header.key.group = victim.key.group → header.origin ≠ none) :
    (∀ volume, Entry volumes victim.key.group volume → volume.key = victim.key) ↔
      OnlyOrigin volumes victim := by
  have hplain : ∀ volume ∈ volumes.list, volume.key.group = victim.key.group →
      volume.origin = none → isHeader volume.key = false := by
    intro volume hvolume hgroup hnone
    cases hheader : isHeader volume.key with
    | false => rfl
    | true => exact absurd hnone (hno volume hvolume hheader hgroup)
  constructor
  · intro hall
    refine ⟨?_, fun other hother hgroup hnone => ?_⟩
    · cases horigin : victim.origin with
      | none => rfl
      | some name =>
          obtain ⟨other, hother, hkey, hnone⟩ :=
            volumes.origins victim hvictim name horigin
          have hgroup : other.key.group = victim.key.group := by rw [hkey]
          have hsame := hall other (entry_of_none hother hgroup hnone
            (hplain other hother hgroup hnone))
          obtain rfl := volumes.eq_of_key hother hvictim hsame
          rw [hnone] at horigin
          cases horigin
    · exact hall other (entry_of_none hother hgroup hnone (hplain other hother hgroup hnone))
  · intro honly volume hentry
    rcases hentry.cases_origin hactive with hnone | ⟨header, hheader, htaken, hgroup, hnone, _⟩
    · exact honly.2 volume hentry.mem hentry.group hnone
    · exact absurd hnone (hno header hheader htaken hgroup)

theorem last_iff_of_header {volumes : Volumes}
    (hactive : ∀ volume ∈ volumes.list, volume.active = true)
    (hvictim : victim ∈ volumes.list) (htaken : isHeader victim.key = true)
    (hnone : victim.origin = none) :
    ((∀ volume, Entry volumes victim.key.group volume → volume.key = victim.key) ↔
        OnlyOrigin volumes victim) ↔
      (∃ other ∈ volumes.list, other.key.group = victim.key.group ∧ other.origin = none ∧
        other.key ≠ victim.key) ∨
      ∀ other ∈ volumes.list, other.key.group = victim.key.group →
        other.origin ≠ some victim.key.name := by
  have hplain : ∀ other : Volume, other.key ≠ victim.key → isHeader other.key = false := by
    intro other hne
    cases hother : isHeader other.key with
    | false => rfl
    | true => exact absurd (header_key hother htaken) hne
  have hnotEntry : ∀ other, Entry volumes victim.key.group other →
      other.key ≠ victim.key := by
    intro other hentry heq
    have hother := hentry.plain
    rw [heq, htaken] at hother
    cases hother
  constructor
  · intro hiff
    by_cases honly : OnlyOrigin volumes victim
    · refine .inr fun other hother hgroup horigin => ?_
      have hentry := entry_of_header hvictim htaken hnone hother hgroup horigin
      exact hnotEntry other hentry (hiff.mpr honly other hentry)
    · refine .inl ?_
      by_contra hno
      refine honly ⟨hnone, fun other hother hgroup hother' => ?_⟩
      by_contra hne
      exact hno ⟨other, hother, hgroup, hother', hne⟩
  · rintro (⟨other, hother, hgroup, hother', hne⟩ | hno)
    · have hentry := entry_of_none hother hgroup hother' (hplain other hne)
      exact iff_of_false (fun hall => hne (hall other hentry)) fun honly =>
        hne (honly.2 other hother hgroup hother')
    · constructor
      · intro hall
        refine ⟨hnone, fun other hother hgroup hother' => ?_⟩
        by_contra hne
        exact hne (hall other (entry_of_none hother hgroup hother' (hplain other hne)))
      · intro honly volume hentry
        rcases hentry.cases_origin hactive with hvolume | ⟨header, hheader, hh, hgroup, _, hs⟩
        · exact honly.2 volume hentry.mem hentry.group hvolume
        · rw [header_key hh htaken] at hs
          exact absurd hs (hno volume hentry.mem hentry.group)

theorem last_iff_of_other {volumes : Volumes}
    (hactive : ∀ volume ∈ volumes.list, volume.active = true) {header : Volume}
    (hheader : header ∈ volumes.list) (htaken : isHeader header.key = true)
    (hgroup : header.key.group = victim.key.group) (hnone : header.origin = none)
    (hne : victim.key ≠ header.key) :
    ((∀ volume, Entry volumes victim.key.group volume → volume.key = victim.key) ↔
        OnlyOrigin volumes victim) ↔
      (∃ other ∈ volumes.list, other.key.group = victim.key.group ∧ other.origin = none ∧
        other.key ≠ victim.key ∧ other.key ≠ header.key) ∨
      ∃ other ∈ volumes.list, other.key.group = victim.key.group ∧
        other.origin = some header.key.name ∧ other.key ≠ victim.key := by
  have hnotOnly : ¬ OnlyOrigin volumes victim := fun honly =>
    hne (honly.2 header hheader hgroup hnone).symm
  rw [iff_false_right hnotOnly]
  constructor
  · intro hnot
    simp only [not_forall] at hnot
    obtain ⟨volume, hentry, hvolume⟩ := hnot
    rcases hentry.cases_origin hactive with horigin | ⟨other, hother, hh, _, _, hs⟩
    · refine .inl ⟨volume, hentry.mem, hentry.group, horigin, hvolume, fun heq => ?_⟩
      have hplain := hentry.plain
      rw [heq, htaken] at hplain
      cases hplain
    · rw [header_key hh htaken] at hs
      exact .inr ⟨volume, hentry.mem, hentry.group, hs, hvolume⟩
  · rintro (⟨other, hother, hsame, horigin, hother', hheader'⟩ |
      ⟨other, hother, hsame, horigin, hother'⟩) hall
    · have hplain : isHeader other.key = false := by
        cases hplain : isHeader other.key with
        | false => rfl
        | true => exact absurd (header_key hplain htaken) hheader'
      exact hother' (hall other (entry_of_none hother hsame horigin hplain))
    · have hentry := entry_of_header hheader htaken hnone hother (hsame.trans hgroup.symm)
        horigin
      exact hother' (hall other (hgroup ▸ hentry))

/-- The page tells whether the volume is the last one. -/
theorem last_iff_headerHarmless {volumes : Volumes}
    (hactive : ∀ volume ∈ volumes.list, volume.active = true)
    (hvictim : victim ∈ volumes.list) :
    ((∀ volume, Entry volumes victim.key.group volume → volume.key = victim.key) ↔
      OnlyOrigin volumes victim) ↔ HeaderHarmless volumes victim := by
  by_cases hsome : ∃ header ∈ volumes.list, isHeader header.key = true ∧
      header.key.group = victim.key.group ∧ header.origin = none
  · obtain ⟨header, hheader, htaken, hgroup, hnone⟩ := hsome
    have hunique : HeaderHarmless volumes victim ↔
        (∃ other ∈ volumes.list, other.key.group = victim.key.group ∧
          other.origin = none ∧ other.key ≠ victim.key ∧ other.key ≠ header.key) ∨
        if victim.key = header.key then
          ∀ other ∈ volumes.list, other.key.group = victim.key.group →
            other.origin ≠ some header.key.name
        else
          ∃ other ∈ volumes.list, other.key.group = victim.key.group ∧
            other.origin = some header.key.name ∧ other.key ≠ victim.key := by
      constructor
      · exact fun h => h header hheader htaken hgroup hnone
      · intro h other hother hother' _ _
        obtain rfl := volumes.eq_of_key hother hheader (header_key hother' htaken)
        exact h
    rw [hunique]
    by_cases heq : victim.key = header.key
    · obtain rfl := volumes.eq_of_key hvictim hheader heq
      rw [if_pos rfl, last_iff_of_header hactive hvictim htaken hnone]
      simp only [and_self]
    · rw [if_neg heq, last_iff_of_other hactive hheader htaken hgroup hnone heq]
  · have hno : ∀ header ∈ volumes.list, isHeader header.key = true →
        header.key.group = victim.key.group → header.origin ≠ none :=
      fun header hheader htaken hgroup hnone =>
        hsome ⟨header, hheader, htaken, hgroup, hnone⟩
    refine iff_of_true (last_iff_of_no_header hactive hvictim hno) ?_
    intro header hheader htaken hgroup hnone
    exact absurd hnone (hno header hheader htaken hgroup)

/-- With all volumes active, a fresh page and commands that succeed, a request
to remove a volume removes exactly it if and only if some volume of its name is
not taken for the header of `lvs`, a volume of its group that is taken for the
header does no harm, and for the only origin of a group the page shows the
physical volumes where they are. -/
theorem remove_exactly_iff (hpage : loadPage env m = .ok page) (hsucceeds : env.Succeeds)
    (hactive : ∀ volume ∈ m.volumes.list, volume.active = true)
    (hvictim : victim ∈ m.volumes.list) (hhash : HashFree env page victim.key) :
    RemovesExactly m (lvmLogicalVolumeRemove env page (env.host.hash victim.key.group)
        (env.host.hash victim.key.name) m).2 victim ↔
      (∃ other ∈ m.volumes.list, other.key.name = victim.key.name ∧
        isHeader other.key = false) ∧
      HeaderHarmless m.volumes victim ∧
      (OnlyOrigin m.volumes victim → ShownWhereTheyAre env m victim.key.group) := by
  have hloaded := loaded_of_loadPage hpage
  have hnamed : victim.key.name ∈ page.volumes.map (·.key.name) ↔
      ∃ other ∈ m.volumes.list, other.key.name = victim.key.name ∧
        isHeader other.key = false := by
    have hkeys : victim.key.name ∈ page.volumes.map (·.key.name) ↔
        ∃ key ∈ page.volumes.map (·.key), key.name = victim.key.name := by
      simp
    rw [hkeys]
    constructor
    · rintro ⟨key, hkey, hname⟩
      obtain ⟨other, hother, rfl, hshown⟩ := (hloaded.mem_volumes key).mp hkey
      exact ⟨other, hother, hname, hshown.2⟩
    · rintro ⟨other, hother, hname, hplain⟩
      exact ⟨other.key, (hloaded.mem_volumes _).mpr
        ⟨other, hother, rfl, hactive other hother, hplain⟩, hname⟩
  rw [remove_removes_iff hloaded hsucceeds hvictim hhash, hnamed,
    hloaded.isLast_iff hactive victim, last_iff_headerHarmless hactive hvictim]

theorem home_removed_exactly :
    RemovesExactly homeAndSnapshot (lvmLogicalVolumeRemove willing
      (pageOf willing homeAndSnapshot) (sampleHash "vg1") (sampleHash "home")
      homeAndSnapshot).2 ⟨⟨"vg1", "home"⟩, none, 500, true⟩ := by
  have hpage : loadPage willing homeAndSnapshot = .ok (pageOf willing homeAndSnapshot) :=
    loadPage_pageOf (by decide +kernel)
  have hhash : HashFree willing (pageOf willing homeAndSnapshot) ⟨"vg1", "home"⟩ :=
    ⟨by decide +kernel, by decide +kernel⟩
  have hvictim : ⟨⟨"vg1", "home"⟩, none, 500, true⟩ ∈ homeAndSnapshot.volumes.list := by
    simp [homeAndSnapshot, sampleMachine]
  refine (remove_exactly_iff hpage (fun _ _ => rfl)
    (by simp [homeAndSnapshot, sampleMachine]) hvictim hhash).mpr ⟨?_, ?_, ?_⟩
  · exact ⟨_, hvictim, rfl, by decide⟩
  · simp [HeaderHarmless, homeAndSnapshot, sampleMachine, isHeader]
  · intro _ pv hpv _
    rw [List.mem_singleton.mp hpv]
    exact devicePath_place _ _

def headerGroup : Machine :=
  sampleMachine "VG" ⟨[⟨⟨"VG", "LV"⟩, none, 300, true⟩,
    ⟨⟨"VG", "home"⟩, none, 500, true⟩], by decide, by decide⟩ (by decide)

theorem header_destroyed :
    ¬ RemovesExactly headerGroup (lvmLogicalVolumeRemove willing
      (pageOf willing headerGroup) (sampleHash "VG") (sampleHash "home")
      headerGroup).2 ⟨⟨"VG", "home"⟩, none, 500, true⟩ := by
  intro h
  have hkept := (h.survivors ⟨⟨"VG", "LV"⟩, none, 300, true⟩
    (by simp [headerGroup, sampleMachine])).mpr (by decide)
  exact absurd hkept (by decide +kernel)

end OpenSan.Storage
