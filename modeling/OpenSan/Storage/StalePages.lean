import OpenSan.Storage.Addition

/-!
# Requests from old pages

The handlers decide by their page which devices to overwrite and which volumes
to remove.  What is destroyed then is what is there now.  It is on the page if
the page shows all that is now on those devices.
-/

namespace OpenSan.Storage

open OpenSan.Foundation OpenSan.Einarc

variable {env : Env} {m m' m'' : Machine} {page : Page}

/-! ## What commands destroy -/

def Machine.doomed (m : Machine) : Command → List VolumeName
  | .zero path => (m.volumes.list.filter fun volume =>
      decide (volume.key.group ∈ m.pvs.groupsAt path.place)).map (·.key)
  | .lvremove key => (m.volumes.list.filter (Volumes.taken key)).map (·.key)
  | _ => []

def Machine.lost (m m' : Machine) : List VolumeName :=
  m'.destroyed.drop m.destroyed.length

theorem effect_destroyed (env : Env) (m : Machine) (command : Command) :
    ∃ new, (m.effect env command).destroyed = m.destroyed ++ new ∧
      new ⊆ m.doomed command := by
  by_cases hcommon : command.common = true
  · exact ⟨[], by rw [(effect_common env m hcommon).2, List.append_nil], by simp⟩
  · cases command with
    | zero path =>
        simp only [Machine.effect]
        split
        · exact ⟨_, rfl, List.Subset.refl _⟩
        · exact ⟨[], (List.append_nil _).symm, by simp⟩
    | lvremove key => exact ⟨_, rfl, List.Subset.refl _⟩
    | mdadmCreate id disks => exact ⟨[], (List.append_nil _).symm, by simp⟩
    | mdadmStop id => exact ⟨[], (List.append_nil _).symm, by simp⟩
    | mdadmAdd id disk => exact ⟨[], (List.append_nil _).symm, by simp⟩
    | writeTrailer disk => exact ⟨[], (List.append_nil _).symm, by simp⟩
    | flashcacheCreate disk id => exact ⟨[], (List.append_nil _).symm, by simp⟩
    | _ => exact absurd rfl hcommon

theorem lost_of_issues {kept : VolumeName → Prop}
    (h : Issues env (fun m command => ∀ key ∈ m.doomed command, kept key) m m') :
    ∀ key ∈ m.lost m', kept key := by
  have hnew : ∃ new, m'.destroyed = m.destroyed ++ new ∧ ∀ key ∈ new, kept key := by
    refine h.invariant (I := fun m' => ∃ new, m'.destroyed = m.destroyed ++ new ∧
      ∀ key ∈ new, kept key) ⟨[], (List.append_nil _).symm, by simp⟩ ?_
    rintro before command succeeded ⟨new, hnew, hkept⟩ hdoomed
    unfold Machine.after
    cases succeeded with
    | false => exact ⟨new, hnew, hkept⟩
    | true =>
        obtain ⟨more, hmore, hsubset⟩ := effect_destroyed env before command
        refine ⟨new ++ more, by simp [hmore, hnew], ?_⟩
        intro key hkey
        rcases List.mem_append.mp hkey with hold | hlast
        · exact hkept key hold
        · exact hdoomed key (hsubset hlast)
  obtain ⟨new, hnew, hkept⟩ := hnew
  rw [Machine.lost, hnew, List.drop_left]
  exact hkept

/-! ## States with less on the devices -/

/-- Every volume was there before, in a group on the same devices. -/
structure Shrunk (m m' : Machine) : Prop where
  volumes : ∀ volume ∈ m'.volumes.list, ∃ before ∈ m.volumes.list,
    before.key = volume.key ∧ before.origin = volume.origin
  pvs : ∀ pv ∈ m'.pvs.list, ∃ before ∈ m.pvs.list,
    before.path.place = pv.path.place ∧ before.group = pv.group

theorem Shrunk.refl (m : Machine) : Shrunk m m where
  volumes volume hvolume := ⟨volume, hvolume, rfl, rfl⟩
  pvs pv hpv := ⟨pv, hpv, rfl, rfl⟩

theorem Shrunk.trans (h : Shrunk m m') (h' : Shrunk m' m'') : Shrunk m m'' where
  volumes volume hvolume := by
    obtain ⟨middle, hmiddle, hkey, horigin⟩ := h'.volumes volume hvolume
    obtain ⟨before, hbefore, hkey', horigin'⟩ := h.volumes middle hmiddle
    exact ⟨before, hbefore, hkey'.trans hkey, horigin'.trans horigin⟩
  pvs pv hpv := by
    obtain ⟨middle, hmiddle, hplace, hgroup⟩ := h'.pvs pv hpv
    obtain ⟨before, hbefore, hplace', hgroup'⟩ := h.pvs middle hmiddle
    exact ⟨before, hbefore, hplace'.trans hplace, hgroup'.trans hgroup⟩

theorem Shrunk.groupsAt (h : Shrunk m m') (place : Place) :
    m'.pvs.groupsAt place ⊆ m.pvs.groupsAt place := by
  intro group hgroup
  obtain ⟨pv, hpv, heq⟩ := List.mem_filterMap.mp hgroup
  obtain ⟨hin, hplace⟩ := List.mem_filter.mp hpv
  obtain ⟨before, hbefore, hsame, hsameGroup⟩ := h.pvs pv hin
  refine List.mem_filterMap.mpr ⟨before, List.mem_filter.mpr ⟨hbefore, ?_⟩, ?_⟩
  · rw [hsame]
    exact hplace
  · rw [hsameGroup]
    exact heq

theorem Shrunk.doomed (h : Shrunk m m') (command : Command) :
    m'.doomed command ⊆ m.doomed command := by
  intro key hkey
  cases command with
  | zero path =>
      obtain ⟨volume, hvolume, rfl⟩ := List.mem_map.mp hkey
      obtain ⟨hin, hgroup⟩ := List.mem_filter.mp hvolume
      obtain ⟨before, hbefore, hsame, _⟩ := h.volumes volume hin
      rw [← hsame] at hgroup ⊢
      refine List.mem_map_of_mem (List.mem_filter.mpr ⟨hbefore, ?_⟩)
      exact decide_eq_true (h.groupsAt path.place (of_decide_eq_true hgroup))
  | lvremove name =>
      obtain ⟨volume, hvolume, rfl⟩ := List.mem_map.mp hkey
      obtain ⟨hin, htaken⟩ := List.mem_filter.mp hvolume
      obtain ⟨before, hbefore, hsame, horigin⟩ := h.volumes volume hin
      rw [← hsame]
      refine List.mem_map_of_mem (List.mem_filter.mpr ⟨hbefore, ?_⟩)
      rw [Volumes.taken, ← hsame, ← horigin] at htaken
      exact htaken
  | _ => cases hkey

theorem mem_setActive {volumes : Volumes} {active : Volume → Bool} :
    ∀ volume ∈ (volumes.setActive active).list, ∃ before ∈ volumes.list,
      before.key = volume.key ∧ before.origin = volume.origin := by
  intro volume hvolume
  obtain ⟨before, hbefore, rfl⟩ := List.mem_map.mp hvolume
  exact ⟨before, hbefore, rfl, rfl⟩

/-- Commands that neither make nor change a physical volume or a volume. -/
def Command.shrinks : Command → Bool
  | .pvcreate _ | .pvresize _ | .vgcreate _ _ | .lvcreate _ _ | .lvresize _ _ => false
  | _ => true

theorem shrunk_effect (env : Env) (m : Machine) {command : Command}
    (h : command.shrinks = true) : Shrunk m (m.effect env command) := by
  have hdrop : ∀ place, ∀ pv ∈ (m.pvs.drop place).list, ∃ before ∈ m.pvs.list,
      before.path.place = pv.path.place ∧ before.group = pv.group :=
    fun place pv hpv => ⟨pv, (List.mem_filter.mp hpv).1, rfl, rfl⟩
  have hgone : ∀ groups, ∀ volume ∈ (m.volumes.dropGroups groups).list,
      ∃ before ∈ m.volumes.list, before.key = volume.key ∧ before.origin = volume.origin :=
    fun groups volume hvolume => ⟨volume, (List.mem_filter.mp hvolume).1, rfl, rfl⟩
  cases command with
  | vgchangeActivate => exact ⟨mem_setActive, (Shrunk.refl m).pvs⟩
  | vgchangeDisable group => exact ⟨mem_setActive, (Shrunk.refl m).pvs⟩
  | zero path =>
      simp only [Machine.effect]
      split
      · exact ⟨hgone _, hdrop _⟩
      · exact .refl m
  | lvremove key =>
      exact ⟨fun volume hvolume => ⟨volume, (List.mem_filter.mp hvolume).1, rfl, rfl⟩,
        (Shrunk.refl m).pvs⟩
  | mdadmStop id => exact ⟨hgone _, hdrop _⟩
  | dmsetupRemove id =>
      refine ⟨(Shrunk.refl m).volumes, fun pv hpv => ?_⟩
      obtain ⟨before, hbefore, rfl⟩ := List.mem_map.mp hpv
      refine ⟨before, hbefore, ?_⟩
      by_cases hcached : before.path = .flashcache id
      · rw [if_pos hcached, hcached]
        exact ⟨rfl, rfl⟩
      · rw [if_neg hcached]
        exact ⟨rfl, rfl⟩
  | pvcreate path => cases h
  | pvresize path => cases h
  | vgcreate name paths => cases h
  | lvcreate key size => cases h
  | lvresize key size => cases h
  | _ => exact ⟨(Shrunk.refl m).volumes, (Shrunk.refl m).pvs⟩

theorem Shrunk.after {command : Command} (h : Shrunk m m') (succeeded : Bool)
    (hshrinks : command.shrinks = true) : Shrunk m (m'.after env command succeeded) := by
  unfold Machine.after
  cases succeeded with
  | false => exact ⟨h.volumes, h.pvs⟩
  | true =>
      have hall := h.trans (shrunk_effect env m' hshrinks)
      exact ⟨hall.volumes, hall.pvs⟩

theorem after_caches {command : Command} (succeeded : Bool)
    (hremove : ∀ id, command ≠ .dmsetupRemove id)
    (hcreate : ∀ disk id, command ≠ .flashcacheCreate disk id) :
    (m.after env command succeeded).sysfs.caches = m.sysfs.caches := by
  refine after_of_effect (·.sysfs.caches) succeeded (fun _ _ => rfl) ?_
  cases command with
  | zero path =>
      simp only [Machine.effect]
      split <;> rfl
  | pvcreate path =>
      simp only [Machine.effect, Machine.addPv]
      split <;> rfl
  | vgcreate name paths =>
      simp only [Machine.effect, Machine.addGroup]
      split <;> rfl
  | lvcreate key size =>
      simp only [Machine.effect, Machine.addVolume]
      split <;> rfl
  | dmsetupRemove id => exact absurd rfl (hremove id)
  | flashcacheCreate disk id => exact absurd rfl (hcreate disk id)
  | _ => rfl

/-! ## Requests -/

/-- The page shows every volume in a group on the data. -/
def Page.showsAll (page : Page) (m : Machine) (place : Place) : Prop :=
  ∀ volume ∈ m.volumes.list, volume.key.group ∈ m.pvs.groupsAt place →
    volume.key ∈ page.volumes.map (·.key)

instance (page : Page) (m : Machine) (place : Place) : Decidable (page.showsAll m place) :=
  inferInstanceAs (Decidable (∀ volume ∈ m.volumes.list, _ → _))

/-- Of each device that the request overwrites by its page, the page shows all
volumes that are there now; of the volume it removes, the page shows it and
its snapshots. -/
def Request.Current (env : Env) (page : Page) (m : Machine) : Request → Prop
  | .logicalAdd _ _ => ∀ id, page.lacks (devicePath m.sysfs id) →
      page.showsAll m (.array id)
  | .logicalDelete logicalIdHash =>
      ∀ logical ∈ (findLogical env page logicalIdHash).toOption,
        page.showsAll m logical.device.place
  | .logicalVolumeAdd logicalIdHash _ _ =>
      ∀ logical ∈ (findLogical env page logicalIdHash).toOption,
        page.scratch logical.device → page.showsAll m logical.device.place
  | .logicalVolumeRemove groupHash volumeHash =>
      ∀ group ∈ (findGroupName env page groupHash).toOption,
        ∀ name ∈ (findVolumeName env page volumeHash).toOption,
          (isLast page group name = true → ∀ listed ∈ page.volumeGroups,
            listed.name = group → ∀ pv ∈ listed.physicalVolumes,
              page.showsAll m pv.device.place) ∧
          (isLast page group name = false → ∀ volume ∈ m.volumes.list,
            Volumes.taken ⟨group, name⟩ volume = true →
              volume.key ∈ page.volumes.map (·.key))
  | _ => True

theorem Page.showsAll.doomed {path : Path} (h : page.showsAll m path.place) :
    ∀ key ∈ m.doomed (.zero path), key ∈ page.volumes.map (·.key) := by
  intro key hkey
  obtain ⟨volume, hvolume, rfl⟩ := List.mem_map.mp hkey
  obtain ⟨hin, hgroup⟩ := List.mem_filter.mp hvolume
  exact h volume hin (of_decide_eq_true hgroup)

theorem doomed_of_common {command : Command} (h : command.common = true) :
    m.doomed command = [] := by
  cases command with
  | zero path => cases h
  | lvremove key => cases h
  | _ => rfl

theorem shrinks_of_quiet {command : Command} (h : command.quiet = true) :
    command.shrinks = true := by
  cases command <;> first | rfl | cases h

theorem mem_toOption {α : Type} {result : Except Error α} {value : α}
    (h : result = .ok value) : value ∈ result.toOption := by
  rw [h]
  rfl

/-- The rule for requests that make nothing new: what their commands would
destroy at the start is on the page. -/
theorem lost_of_shrinking {P : Machine → Command → Prop} {I : Machine → Prop}
    (hissues : Issues env P m m') (hm : I m)
    (hstep : ∀ m command succeeded, I m → P m command →
      I (m.after env command succeeded))
    (hshrinks : ∀ m command, P m command → command.shrinks = true)
    (hlisted : ∀ m' command, I m' → P m' command →
      ∀ key ∈ m.doomed command, key ∈ page.volumes.map (·.key)) :
    ∀ key ∈ m.lost m', key ∈ page.volumes.map (·.key) := by
  have hshrunk := hissues.strengthen (I := fun m' => Shrunk m m' ∧ I m')
    ⟨Shrunk.refl m, hm⟩ fun before command succeeded hbefore hp =>
      ⟨hbefore.1.after succeeded (hshrinks before command hp),
        hstep before command succeeded hbefore.2 hp⟩
  refine lost_of_issues (hshrunk.mono ?_)
  rintro before command ⟨⟨hbefore, hI⟩, hp⟩ key hkey
  exact hlisted before command hI hp key (hbefore.doomed command hkey)

theorem lost_logicalAdd {raidLevel : Option String} {drives : Option (List PhysicalId)}
    (h : (Request.logicalAdd raidLevel drives).Current env page m)
    (hissues : Issues env ((Request.logicalAdd raidLevel drives).may env page) m m') :
    ∀ key ∈ m.lost m', key ∈ page.volumes.map (·.key) := by
  refine lost_of_shrinking (I := fun m' => m'.sysfs.caches = m.sysfs.caches) hissues rfl
    ?_ ?_ ?_
  · intro before command succeeded hbefore hmay
    rw [after_caches succeeded, hbefore]
    · rintro id rfl
      rcases hmay with hroutine | hmay
      · cases hroutine
      · exact hmay
    · rintro disk id rfl
      rcases hmay with hroutine | hmay
      · cases hroutine
      · exact hmay
  · intro before command hmay
    rcases hmay with hroutine | hmay
    · exact shrinks_of_quiet (quiet_of_scans hroutine)
    · cases command <;> first | rfl | exact hmay.elim
  · intro before command hcaches hmay key hkey
    rcases hmay with hroutine | hmay
    · rw [doomed_of_common (common_of_routine hroutine)] at hkey
      cases hkey
    · cases command with
      | zero path =>
          obtain ⟨⟨id, rfl⟩, hlacks⟩ := hmay
          have hdevice : devicePath before.sysfs id = devicePath m.sysfs id := by
            unfold devicePath Sysfs.cacheOf
            rw [hcaches]
          rw [hdevice] at hlacks hkey
          refine Page.showsAll.doomed (m := m) ?_ key hkey
          rw [devicePath_place]
          exact h id hlacks
      | mdadmCreate id disks => cases hkey
      | _ => exact hmay.elim

theorem lost_logicalDelete {logicalIdHash : String}
    (h : (Request.logicalDelete logicalIdHash).Current env page m)
    (hissues : Issues env ((Request.logicalDelete logicalIdHash).may env page) m m') :
    ∀ key ∈ m.lost m', key ∈ page.volumes.map (·.key) := by
  refine lost_of_shrinking (I := fun _ => True) hissues trivial
    (fun _ _ _ _ _ => trivial) ?_ ?_
  · intro before command hmay
    rcases hmay with hroutine | hmay
    · exact shrinks_of_quiet hroutine
    · cases command <;> first | rfl | exact hmay.elim
  · intro before command _ hmay key hkey
    rcases hmay with hroutine | hmay
    · rw [doomed_of_common (common_of_routine hroutine)] at hkey
      cases hkey
    · cases command with
      | zero path =>
          obtain ⟨logical, hlogical, rfl⟩ := hmay
          exact (h logical (mem_toOption hlogical)).doomed key hkey
      | mdadmStop id => cases hkey
      | _ => exact hmay.elim

theorem lost_volumeRemove {groupHash volumeHash : String}
    (h : (Request.logicalVolumeRemove groupHash volumeHash).Current env page m)
    (hissues : Issues env
      ((Request.logicalVolumeRemove groupHash volumeHash).may env page) m m') :
    ∀ key ∈ m.lost m', key ∈ page.volumes.map (·.key) := by
  refine lost_of_shrinking (I := fun _ => True) hissues trivial
    (fun _ _ _ _ _ => trivial) ?_ ?_
  · intro before command hmay
    rcases hmay with hroutine | hmay
    · exact shrinks_of_quiet (quiet_of_scans hroutine)
    · cases command <;> first | rfl | exact hmay.elim
  · intro before command _ hmay key hkey
    rcases hmay with hroutine | hmay
    · rw [doomed_of_common (common_of_routine hroutine)] at hkey
      cases hkey
    · cases command with
      | zero path =>
          obtain ⟨group, name, hgroup, hname, hlast, listed, hlisted, hsame, hpath⟩ := hmay
          obtain ⟨pv, hpv, rfl⟩ := List.mem_map.mp hpath
          have hcurrent := (h group (mem_toOption hgroup) name (mem_toOption hname)).1 hlast
          exact (hcurrent listed hlisted hsame pv hpv).doomed key hkey
      | lvremove name =>
          obtain ⟨hgroup, hname, hlast⟩ := hmay
          have hcurrent := (h name.group (mem_toOption hgroup) name.name
            (mem_toOption hname)).2 hlast
          obtain ⟨volume, hvolume, rfl⟩ := List.mem_map.mp hkey
          obtain ⟨hin, htaken⟩ := List.mem_filter.mp hvolume
          exact hcurrent volume hin htaken
      | _ => exact hmay.elim

theorem lost_volumeAdd {logicalIdHash : String} {name : Option String} {size : Option ℚ}
    (h : (Request.logicalVolumeAdd logicalIdHash name size).Current env page m) :
    ∀ key ∈ m.lost (lvmLogicalVolumeAdd env page logicalIdHash name size m).2,
      key ∈ page.volumes.map (·.key) := by
  apply lost_of_issues
  refine only_volumeAdd ?_ ?_ name size
  · intro before command hcommon key hkey
    rw [doomed_of_common hcommon] at hkey
    cases hkey
  · intro logical hlogical hscratch before hscanned key hkey
    have hshrunk : Shrunk m before :=
      hscanned.invariant (Shrunk.refl m) fun _ _ succeeded hold hscans =>
        hold.after succeeded (shrinks_of_quiet (quiet_of_scans hscans))
    exact (h logical (mem_toOption hlogical) hscratch).doomed key (hshrunk.doomed _ hkey)

theorem lost_serve {request : Request} (h : request.Current env page m) :
    ∀ key ∈ m.lost (request.serve env page m).2, key ∈ page.volumes.map (·.key) := by
  have hissues : Issues env (request.may env page) m (request.serve env page m).2 :=
    only_serve page request
  have hnothing : (∀ m command, request.may env page m command →
      m.doomed command = []) →
      ∀ key ∈ m.lost (request.serve env page m).2, key ∈ page.volumes.map (·.key) := by
    intro hnone
    refine lost_of_issues (hissues.mono fun before command hmay key hkey => ?_)
    rw [hnone before command hmay] at hkey
    cases hkey
  cases request with
  | logicalAdd raidLevel drives => exact lost_logicalAdd h hissues
  | logicalDelete logicalIdHash => exact lost_logicalDelete h hissues
  | logicalVolumeAdd logicalIdHash name size => exact lost_volumeAdd h
  | logicalVolumeRemove groupHash volumeHash => exact lost_volumeRemove h hissues
  | _ =>
      apply hnothing
      intro before command hmay
      rcases hmay with hroutine | hmay
      · exact doomed_of_common (common_of_routine hroutine)
      · cases command <;> first | rfl | exact hmay.elim

/-! ## Runs -/

def SubmitsCurrent (system : System) : Event → Prop
  | .submit client number env request =>
      ∀ page ∈ system.page client number, request.Current env page system.machine
  | _ => True

def DestroysShown (system : System) : Event → Prop
  | .submit client number env request =>
      ∀ page ∈ system.page client number, ∀ key ∈ system.machine.lost
          (step system (.submit client number env request)).machine,
        key ∈ page.volumes.map (·.key)
  | _ => True

theorem destroysShown_of_current (system : System) (event : Event)
    (h : SubmitsCurrent system event) : DestroysShown system event := by
  cases event with
  | load client env => trivial
  | other change => trivial
  | submit client number env request =>
      intro page hpage key hkey
      have hafter : (step system (.submit client number env request)).machine =
          (request.serve env page system.machine).2 := by
        simp only [step, Option.mem_def.mp hpage]
      rw [hafter] at hkey
      exact lost_serve (h page hpage) key hkey

/-- In a run in which every request is current when it is served, no request
destroys a volume that is not on its page. -/
theorem destroyed_volumes_shown (start : System) (events : List Event)
    (h : Guarded SubmitsCurrent step start events) :
    EveryStep DestroysShown start events :=
  everyStep_of_guarded destroysShown_of_current h

def homeSystem : System := ⟨homeOnly true, []⟩

def addMail (client number : Nat) : Event :=
  .submit client number willing
    (.logicalVolumeAdd (sampleHash "0") (some "mail") (some 100))

def removeHome (client number : Nat) : Event :=
  .submit client number willing
    (.logicalVolumeRemove (sampleHash "vg1") (sampleHash "home"))

def mailAdded : List Event := [.load 1 willing, .load 2 willing, addMail 2 1]

theorem home_removed_from_new_page :
    Guarded SubmitsCurrent step homeSystem (mailAdded ++ [.load 1 willing, removeHome 1 2]) ∧
      EveryStep DestroysShown homeSystem
        (mailAdded ++ [.load 1 willing, removeHome 1 2]) := by
  have hadd : ∀ page ∈ (Foundation.run step homeSystem
      [.load 1 willing, .load 2 willing]).page 2 1,
      ∀ logical ∈ (findLogical willing page (sampleHash "0")).toOption,
        page.showsAll (homeOnly true) logical.device.place := by
    decide +kernel
  have hguarded : Guarded SubmitsCurrent step homeSystem
      (mailAdded ++ [.load 1 willing, removeHome 1 2]) := by
    refine ⟨trivial, trivial, ?_, trivial, ?_, trivial⟩
    · exact fun page hpage logical hlogical _ => hadd page hpage logical hlogical
    · simp only [SubmitsCurrent, removeHome, Request.Current]
      decide +kernel
  exact ⟨hguarded, destroyed_volumes_shown _ _ hguarded⟩

theorem mail_destroyed_from_old_page :
    ¬ EveryStep DestroysShown homeSystem (mailAdded ++ [removeHome 1 0]) := by
  intro h
  have hlast := h mailAdded (removeHome 1 0) [] rfl
  simp only [DestroysShown, removeHome] at hlast
  exact absurd hlast (by decide +kernel)

end OpenSan.Storage
