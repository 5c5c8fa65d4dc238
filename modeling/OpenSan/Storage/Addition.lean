import OpenSan.Storage.Commands
import OpenSan.Storage.FreshPage

/-!
# Adding a volume

The request starts from scratch, and overwrites the label of the array, when
the page shows no volume of the group on the array.  The page does not show
deactivated volumes, so a group whose volumes are all deactivated is lost.
-/

namespace OpenSan.Storage

open OpenSan.Foundation OpenSan.Einarc

variable {env : Env} {m m' : Machine} {page : Page}

/-! ## Commands and volumes -/

def Machine.keys (m : Machine) : List VolumeName := m.volumes.list.map (·.key)

theorem Volumes.setActive_keys (volumes : Volumes) (active : Volume → Bool) :
    (volumes.setActive active).list.map (·.key) = volumes.list.map (·.key) := by
  simp [Volumes.setActive, Volumes.modify]

theorem Volumes.resize_keys (volumes : Volumes) (key : VolumeName) (size : ℚ) :
    (volumes.resize key size).list.map (·.key) = volumes.list.map (·.key) := by
  simp [Volumes.resize, Volumes.modify]

theorem Volumes.add_keys (volumes : Volumes) (key : VolumeName) (size : ℚ) :
    volumes.list.map (·.key) ⊆ (volumes.add key size).list.map (·.key) := by
  unfold Volumes.add
  split
  · exact List.Subset.refl _
  · simp

theorem keys_subset (h : m'.keys = m.keys) : m.keys ⊆ m'.keys := by
  rw [h]
  exact List.Subset.refl _

theorem effect_common (env : Env) (m : Machine) {command : Command} (h : command.common = true) :
    m.keys ⊆ (m.effect env command).keys ∧
      (m.effect env command).destroyed = m.destroyed := by
  cases command with
  | vgchangeActivate => exact ⟨keys_subset (m.volumes.setActive_keys _), rfl⟩
  | vgchangeDisable group => exact ⟨keys_subset (m.volumes.setActive_keys _), rfl⟩
  | lvresize key size => exact ⟨keys_subset (m.volumes.resize_keys key size), rfl⟩
  | pvcreate path =>
      simp only [Machine.effect, Machine.addPv]
      split <;> exact ⟨List.Subset.refl _, rfl⟩
  | vgcreate name paths =>
      simp only [Machine.effect, Machine.addGroup]
      split <;> exact ⟨List.Subset.refl _, rfl⟩
  | lvcreate key size =>
      simp only [Machine.effect, Machine.addVolume]
      split
      · exact ⟨m.volumes.add_keys key size, rfl⟩
      · exact ⟨List.Subset.refl _, rfl⟩
  | zero path => cases h
  | lvremove key => cases h
  | mdadmCreate id disks => cases h
  | mdadmStop id => cases h
  | mdadmAdd id disk => cases h
  | writeTrailer disk => cases h
  | flashcacheCreate disk id => cases h
  | _ => exact ⟨List.Subset.refl _, rfl⟩

theorem effect_scans (env : Env) (m : Machine) {command : Command} (h : command.scans = true) :
    (m.effect env command).keys = m.keys ∧ (m.effect env command).pvs = m.pvs ∧
      (m.effect env command).sysfs = m.sysfs := by
  cases command with
  | vgchangeActivate => exact ⟨m.volumes.setActive_keys _, rfl, rfl⟩
  | vgchangeDisable group => exact ⟨m.volumes.setActive_keys _, rfl, rfl⟩
  | pvscan => exact ⟨rfl, rfl, rfl⟩
  | vgscan => exact ⟨rfl, rfl, rfl⟩
  | lvscan => exact ⟨rfl, rfl, rfl⟩
  | _ => cases h

structure SameVolumes (m m' : Machine) : Prop where
  keys : m'.keys = m.keys
  pvs : m'.pvs = m.pvs
  sysfs : m'.sysfs = m.sysfs

theorem sameVolumes_of_scanned (h : Scanned env m m') : SameVolumes m m' := by
  refine h.invariant (I := SameVolumes m) ⟨rfl, rfl, rfl⟩ ?_
  intro before command succeeded hsame hscans
  obtain ⟨hkeys, hpvs, hsysfs⟩ := effect_scans env before hscans
  exact {
    keys := (after_of_effect Machine.keys succeeded (fun _ _ => rfl) hkeys).trans hsame.keys
    pvs := (after_of_effect (·.pvs) succeeded (fun _ _ => rfl) hpvs).trans hsame.pvs
    sysfs := (after_of_effect (·.sysfs) succeeded (fun _ _ => rfl) hsysfs).trans
      hsame.sysfs }

/-! ## The array and its group -/

def onArray (m : Machine) (id : Nat) (volume : Volume) : Prop :=
  volume.key.group ∈ m.pvs.groupsAt (.array id)

theorem mem_groupsAt {pvs : PhysicalVolumes} {place : Place} {group : String} :
    group ∈ pvs.groupsAt place ↔
      ∃ pv ∈ pvs.list, pv.path.place = place ∧ pv.group = some group := by
  simp [PhysicalVolumes.groupsAt, and_assoc]

theorem Loaded.groupOn_eq (h : Loaded env m page) {id : Nat} {group : String}
    (hgroup : group ∈ m.pvs.groupsAt (.array id)) :
    ∃ listed, groupOn page (devicePath m.sysfs id) = some listed ∧ listed.name = group := by
  obtain ⟨pv, hpv, hplace, hname⟩ := mem_groupsAt.mp hgroup
  obtain ⟨listed, hlisted⟩ : ∃ listed,
      groupOn page (devicePath m.sysfs id) = some listed := by
    apply Option.isSome_iff_exists.mp
    rw [groupOn, List.find?_isSome]
    let shown : ListedGroup := ⟨group, (m.pvs.list.filter fun pv =>
      pv.group = some group).map (listedPv env m.sysfs)⟩
    refine ⟨shown, List.mem_reverse.mpr ((h.mem_volumeGroups shown).mpr
      ⟨mem_groups.mpr ⟨pv, hpv, hname⟩, rfl⟩), ?_⟩
    simp only [List.any_eq_true, decide_eq_true_eq]
    exact ⟨listedPv env m.sysfs pv, List.mem_map_of_mem (List.mem_filter.mpr
      ⟨hpv, by simpa using hname⟩), (pathCached_eq_device (m.present pv hpv) id).mpr hplace⟩
  refine ⟨listed, hlisted, ?_⟩
  have hin := List.mem_reverse.mp (List.mem_of_find?_eq_some hlisted)
  obtain ⟨_, hmembers⟩ := (h.mem_volumeGroups listed).mp hin
  have hany := List.find?_some hlisted
  simp only [hmembers, List.any_eq_true, decide_eq_true_eq, List.mem_map] at hany
  obtain ⟨_, ⟨other, hother, rfl⟩, hdevice⟩ := hany
  obtain ⟨hother, hotherGroup⟩ := List.mem_filter.mp hother
  have hotherPlace := (pathCached_eq_device (m.present other hother) id).mp hdevice
  obtain rfl := List.inj_on_of_nodup_map m.pvs.distinct hother hpv
    (hotherPlace.trans hplace.symm)
  rw [decide_eq_true_eq, hname] at hotherGroup
  exact (Option.some.inj hotherGroup).symm

theorem Loaded.hasVolume_iff (h : Loaded env m page) (group : String) :
    hasVolume page group = true ↔
      ∃ volume ∈ m.volumes.list, volume.key.group = group ∧ volume.shown := by
  have hkeys : hasVolume page group = true ↔
      ∃ key ∈ page.origins.map (·.key), key.group = group := by
    simp [hasVolume]
  rw [hkeys]
  constructor
  · rintro ⟨key, hkey, hgroup⟩
    obtain ⟨volume, hvolume, rfl, hshown, _⟩ := (h.mem_origins key).mp hkey
    exact ⟨volume, hvolume, hgroup, hshown⟩
  · rintro ⟨volume, hvolume, hgroup, hshown⟩
    by_cases horigin : m.volumes.originShown volume
    · obtain ⟨origin, hin, hsome, hsame, horiginShown⟩ := horigin
      obtain ⟨other, hother, hkey, hnone⟩ :=
        m.volumes.origins volume hvolume origin.key.name hsome
      obtain rfl := m.volumes.eq_of_key hother hin (by rw [hkey, ← hsame])
      exact ⟨other.key, (h.mem_origins _).mpr ⟨other, hin, rfl, horiginShown,
        not_originShown_of_none m.volumes hnone⟩, hsame.trans hgroup⟩
    · exact ⟨volume.key, (h.mem_origins _).mpr ⟨volume, hvolume, rfl, hshown, horigin⟩,
        hgroup⟩

/-! ## What is destroyed -/

/-- Every volume is still there, and a device was overwritten only if there was
no volume on the array. -/
structure DestroysNothing (m m' : Machine) (id : Nat) : Prop where
  kept : m.keys ⊆ m'.keys
  destroyed : m'.destroyed = m.destroyed
  created : ∀ path succeeded, (.zero path, succeeded) ∈ m.since m' →
    ∀ volume ∈ m.volumes.list, ¬ onArray m id volume

def Harmless (m : Machine) (command : Command) : Prop :=
  command.common = true ∨ ∃ path, command = .zero path ∧
    ∀ volume ∈ m.volumes.list, volume.key.group ∉ m.pvs.groupsAt path.place

theorem Harmless.effect {command : Command} (env : Env) (h : Harmless m command) :
    m.keys ⊆ (m.effect env command).keys ∧
      (m.effect env command).destroyed = m.destroyed := by
  rcases h with hcommon | ⟨path, rfl, hfree⟩
  · exact effect_common env m hcommon
  · simp only [Machine.effect]
    split
    · have hnone : (m.volumes.list.filter fun volume =>
          decide (volume.key.group ∈ m.pvs.groupsAt path.place)) = [] := by
        simpa [List.filter_eq_nil_iff] using hfree
      have hall : (m.volumes.list.filter fun volume =>
          !decide (volume.key.group ∈ m.pvs.groupsAt path.place)) = m.volumes.list := by
        simpa [List.filter_eq_self] using hfree
      constructor
      · apply keys_subset
        simp only [Machine.keys, Machine.wipe, Volumes.dropGroups, Volumes.drop, hall]
      · simp only [Machine.wipe, hnone, List.map_nil, List.append_nil]
    · exact ⟨List.Subset.refl _, rfl⟩

theorem keeps_of_harmless (h : Issues env Harmless m m') :
    m.keys ⊆ m'.keys ∧ m'.destroyed = m.destroyed := by
  refine h.invariant (I := fun m' => m.keys ⊆ m'.keys ∧ m'.destroyed = m.destroyed)
    ⟨List.Subset.refl _, rfl⟩ ?_
  rintro before command succeeded ⟨hkeys, hdestroyed⟩ hharmless
  obtain ⟨hsubset, hsame⟩ := hharmless.effect env
  unfold Machine.after
  cases succeeded with
  | false => exact ⟨hkeys, hdestroyed⟩
  | true => exact ⟨List.Subset.trans hkeys hsubset, hsame.trans hdestroyed⟩

theorem harmless_of_common (m : Machine) (command : Command)
    (h : command.common = true) : Harmless m command := .inl h

theorem harmless_zero {id : Nat} {path : Path} (hplace : path.place = .array id)
    (h : ∀ volume ∈ m.volumes.list, ¬ onArray m id volume) (hscanned : Scanned env m m') :
    Harmless m' (.zero path) := by
  have hsame := sameVolumes_of_scanned hscanned
  refine .inr ⟨path, rfl, fun volume hvolume hin => ?_⟩
  have hkey : volume.key ∈ m.keys := hsame.keys ▸ List.mem_map_of_mem hvolume
  obtain ⟨before, hbefore, heq⟩ := List.mem_map.mp hkey
  rw [hplace, hsame.pvs, ← heq] at hin
  exact h before hbefore hin

theorem no_zero_of_common (h : Issues env (fun _ command => command.common = true) m m') :
    ∀ path succeeded, (.zero path, succeeded) ∉ m.since m' := by
  intro path succeeded hin
  cases h.mem_since hin

theorem add_destroysNothing {logicalIdHash : String} {name : Option String}
    {size : Option ℚ} {logical : ListedLogical}
    (hlogical : findLogical env page logicalIdHash = .ok logical)
    (hplace : logical.device.place = .array logical.id)
    (h : (∀ volume ∈ m.volumes.list, ¬ onArray m logical.id volume) ∨
      ¬ page.scratch logical.device) :
    DestroysNothing m (lvmLogicalVolumeAdd env page logicalIdHash name size m).2
      logical.id := by
  have hsame : ∀ found, findLogical env page logicalIdHash = .ok found → found = logical :=
    fun found hfound => Except.ok.inj (hfound.symm.trans hlogical)
  rcases h with hfree | hshown
  · have honly : Only env Harmless
        (lvmLogicalVolumeAdd env page logicalIdHash name size) m := by
      refine only_volumeAdd harmless_of_common (fun found hfound _ m' hscanned => ?_)
        name size
      rw [hsame found hfound]
      exact harmless_zero hplace hfree hscanned
    obtain ⟨hkept, hdestroyed⟩ := keeps_of_harmless honly
    exact ⟨hkept, hdestroyed, fun _ _ _ => hfree⟩
  · have honly : Only env (fun _ command => command.common = true)
        (lvmLogicalVolumeAdd env page logicalIdHash name size) m := by
      refine only_volumeAdd (fun _ _ h => h) (fun found hfound hscratch _ _ => ?_) name size
      rw [hsame found hfound] at hscratch
      exact absurd hscratch hshown
    obtain ⟨hkept, hdestroyed⟩ := keeps_of_harmless (Issues.mono honly harmless_of_common)
    exact ⟨hkept, hdestroyed, fun path succeeded hin =>
      absurd hin (no_zero_of_common honly path succeeded)⟩

/-! ## Starting from scratch -/

def Env.Succeeds (env : Env) : Prop := ∀ command number, env.outcome command number = true

theorem Env.Succeeds.run (h : env.Succeeds) (command : Command) :
    systemSucceed env command m = (.ok (), m.after env command true) := by
  rw [systemSucceed_run, h, if_pos rfl]

theorem isDisk_devicePath (sysfs : Sysfs) (id : Nat) :
    isDisk (devicePath sysfs id) = true := by
  unfold devicePath
  split <;> rfl

theorem prepare_eq {path : Path} (h : isDisk path = true) :
    prepare env path = systemSucceed env (.zero path) := by
  unfold prepare
  rw [Action.require_of_true h]
  rfl

theorem startFromScratch_ran {device : Path} (hdisk : isDisk device = true) :
    Ran m (startFromScratch env device m).2 (.zero device) := by
  have hcreate : createPv env device = (systemSucceed env (.zero device) >>= fun _ =>
      systemSucceed env (.pvcreate device)) := by
    unfold createPv
    rw [Action.require_of_true hdisk, prepare_eq hdisk]
    rfl
  have hran : Ran m (createPv env device m).2 (.zero device) := by
    rw [hcreate]
    refine Ran.bind_left env ?_ fun _ _ => Only.systemSucceed trivial
    rw [systemSucceed_run]
    exact ran_after _ _
  have hpcall : Ran m (Action.pcall (createPv env device) m).2 (.zero device) := hran
  refine Ran.bind_left env hpcall fun result m' => ?_
  cases result with
  | error e => exact Only.of_state_eq rfl
  | ok _ => exact only_createGroupOn (fun _ _ _ => trivial) device

theorem addFromScratch_ran (hsucceeds : env.Succeeds) {logical : ListedLogical}
    (hdisk : isDisk logical.device = true) (found : Option ListedGroup) (name : String)
    (size : ℚ) :
    Ran m (addFromScratch env page logical found name size m).2 (.zero logical.device) := by
  obtain ⟨m₁, hdisable⟩ : ∃ m₁, Action.forEach found.toList
      (fun group => disableGroup env group.name) m = (.ok (), m₁) := by
    cases found with
    | none => exact ⟨m, rfl⟩
    | some group =>
        refine ⟨m.after env (.vgchangeDisable group.name) true, ?_⟩
        change Action.andThen (systemSucceed env (.vgchangeDisable group.name)) _ m = _
        rw [Action.andThen_ok (hsucceeds.run _)]
        rfl
  refine Ran.bind_right env hdisable (Only.forEach fun group _ m =>
    only_disableGroup (fun _ _ _ => trivial) group.name) ?_
  refine Ran.bind_left env (startFromScratch_ran hdisk) fun result m' => ?_
  cases result with
  | error message => exact Only.of_state_eq rfl
  | ok group => exact only_addVolumeTo (fun _ _ _ => trivial) page group name size

theorem add_ran (hsucceeds : env.Succeeds) {logicalIdHash name : String} {size : ℚ}
    {logical : ListedLogical} (hlogical : findLogical env page logicalIdHash = .ok logical)
    (hdisk : isDisk logical.device = true) (hscratch : page.scratch logical.device)
    (hname : Lvm.nameIsValid name = true) (hsize : 0 < size) :
    Ran m (lvmLogicalVolumeAdd env page logicalIdHash (some name) (some size) m).2
      (.zero logical.device) := by
  have hne : ¬ some name = some "" := by
    intro heq
    obtain rfl := Option.some.inj heq
    revert hname
    decide
  have hplace : lvmLogicalVolumeAdd env page logicalIdHash (some name) (some size) m =
      placeVolume env page logical name size m := by
    simp [lvmLogicalVolumeAdd, hlogical, hne, hname, hsize, nonNil, Action.require]
  rw [hplace]
  obtain ⟨m₁, hrestore⟩ : ∃ m₁, restore env m = (.ok (), m₁) := ⟨_, rfl⟩
  refine Ran.bind_right env hrestore (only_restore fun _ _ _ => trivial) ?_
  unfold Page.scratch at hscratch
  simp only [hscratch]
  exact addFromScratch_ran hsucceeds hdisk (groupOn page logical.device) name size

/-! ## The whole request -/

theorem Loaded.scratch_iff (h : Loaded env m page) {id : Nat} {volume : Volume}
    (hon : onArray m id volume) : page.scratch (devicePath m.sysfs id) ↔
      ∀ other ∈ m.volumes.list, onArray m id other → ¬ other.shown := by
  obtain ⟨listed, hlisted, hname⟩ := h.groupOn_eq hon
  have hone : ∀ other, onArray m id other → other.key.group = listed.name := by
    intro other hother
    obtain ⟨found, hfound, hfoundName⟩ := h.groupOn_eq hother
    obtain rfl : found = listed := Option.some.inj (hfound.symm.trans hlisted)
    exact hfoundName.symm
  unfold Page.scratch
  rw [hlisted, Option.filter_some, ite_eq_right_iff]
  simp only [reduceCtorEq, imp_false]
  rw [h.hasVolume_iff]
  constructor
  · intro hnone other hother hon' hshown
    exact hnone ⟨other, hother, hone other hon', hshown⟩
  · rintro hall ⟨other, hother, hgroup, hshown⟩
    refine hall other hother ?_ hshown
    unfold onArray
    rw [hgroup, hname]
    exact hon

/-- With a fresh page a request to add a volume destroys nothing, whatever the
outcomes of its commands, if and only if there is no volume on the array or one
of those on it is active and its line is not taken for the header of `lvs`. -/
theorem add_destroysNothing_iff {logicalIdHash name : String} {size : ℚ}
    {logical : ListedLogical} (hpage : loadPage env m = .ok page)
    (hlogical : findLogical env page logicalIdHash = .ok logical)
    (hname : Lvm.nameIsValid name = true) (hsize : 0 < size) :
    (∀ outcome, DestroysNothing m (lvmLogicalVolumeAdd { env with outcome := outcome } page
        logicalIdHash (some name) (some size) m).2 logical.id) ↔
      (∀ volume ∈ m.volumes.list, ¬ onArray m logical.id volume) ∨
        ∃ volume ∈ m.volumes.list, onArray m logical.id volume ∧ volume.shown := by
  have hloaded := loaded_of_loadPage hpage
  have hdevice := (hloaded.device (findLogical_mem hlogical)).1
  have hplace : logical.device.place = .array logical.id := by
    rw [hdevice, devicePath_place]
  constructor
  · intro h
    by_contra hneither
    rw [not_or] at hneither
    obtain ⟨hsome, hhidden⟩ := hneither
    simp only [not_forall, not_not] at hsome
    obtain ⟨volume, hvolume, hon⟩ := hsome
    have hscratch : page.scratch logical.device := by
      rw [hdevice, hloaded.scratch_iff hon]
      exact fun other hother hon' hshown => hhidden ⟨other, hother, hon', hshown⟩
    let all : Env := { env with outcome := fun _ _ => true }
    have hran : Ran m (lvmLogicalVolumeAdd all page logicalIdHash (some name) (some size)
        m).2 (.zero logical.device) := by
      refine add_ran (fun _ _ => rfl) hlogical ?_ hscratch hname hsize
      rw [hdevice]
      exact isDisk_devicePath m.sysfs logical.id
    obtain ⟨_, succeeded, hin⟩ := hran
    exact (h fun _ _ => true).created _ succeeded hin volume hvolume hon
  · intro h outcome
    let chosen : Env := { env with outcome := outcome }
    have hsame : findLogical chosen page logicalIdHash = .ok logical := hlogical
    refine add_destroysNothing hsame hplace ?_
    rcases h with hfree | ⟨volume, hvolume, hon, hshown⟩
    · exact .inl hfree
    · refine .inr ?_
      rw [hdevice, hloaded.scratch_iff hon]
      exact fun hall => hall volume hvolume hon hshown

def homeOnly (active : Bool) : Machine :=
  sampleMachine "vg1" ⟨[⟨⟨"vg1", "home"⟩, none, 500, active⟩], by simp, by simp⟩ (by simp)

def willing : Env := sampleEnv fun _ _ => true

theorem active_home_kept :
    loadPage willing (homeOnly true) = .ok (pageOf willing (homeOnly true)) ∧
    ∀ outcome, DestroysNothing (homeOnly true) (lvmLogicalVolumeAdd
      { willing with outcome := outcome } (pageOf willing (homeOnly true)) (sampleHash "0")
      (some "mail") (some 100) (homeOnly true)).2 0 := by
  have hpage : loadPage willing (homeOnly true) = .ok (pageOf willing (homeOnly true)) :=
    loadPage_pageOf (by decide +kernel)
  have hlogical : findLogical willing (pageOf willing (homeOnly true)) (sampleHash "0") =
      .ok ⟨0, .md 0, 1000⟩ := rfl
  refine ⟨hpage, (add_destroysNothing_iff hpage hlogical (by decide +kernel)
    (by decide +kernel)).mpr (.inr ⟨⟨⟨"vg1", "home"⟩, none, 500, true⟩,
      by simp [homeOnly, sampleMachine], ?_, ?_⟩)⟩
  · unfold onArray
    decide +kernel
  · exact ⟨rfl, by decide⟩

theorem deactivated_home_destroyed :
    ¬ ∀ outcome, DestroysNothing (homeOnly false) (lvmLogicalVolumeAdd
      { willing with outcome := outcome } (pageOf willing (homeOnly false)) (sampleHash "0")
      (some "mail") (some 100) (homeOnly false)).2 0 := by
  intro h
  exact absurd (h fun _ _ => true).destroyed (by decide +kernel)

end OpenSan.Storage
