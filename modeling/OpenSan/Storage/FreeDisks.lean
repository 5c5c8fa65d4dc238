import Mathlib.Tactic.Linarith
import OpenSan.Storage.Addition
import OpenSan.Storage.DiskNames

/-!
# Disks for caches

A bind request finds its disk again by the id on its page and does not look
whether the disk is still free.  It is free if the page showed it so and no
request since has named it.
-/

namespace OpenSan.Storage

open OpenSan.Foundation OpenSan.Einarc

variable {env : Env} {m m' : Machine} {page : Page}

/-! ## Disks in use -/

theorem mem_used {sysfs : Sysfs} {name : BlockName} : name ∈ sysfs.used ↔
    (∃ array ∈ sysfs.arrays, name ∈ array.slaves.map (·.name)) ∨
      ∃ map ∈ sysfs.caches, name = .disk map.physical := by
  simp only [Sysfs.used, Sysfs.listedArrays, List.mem_append, List.mem_flatMap,
    List.mem_filter, List.mem_map]
  constructor
  · rintro (⟨array, ⟨harray, _⟩, hname⟩ | ⟨map, hmap, rfl⟩)
    · exact .inl ⟨array, harray, hname⟩
    · exact .inr ⟨map, hmap, rfl⟩
  · rintro (⟨array, harray, slave, hslave, hname⟩ | ⟨map, hmap, rfl⟩)
    · refine .inl ⟨array, ⟨harray, ?_⟩, slave, hslave, hname⟩
      simpa using List.ne_nil_of_mem hslave
    · exact .inr ⟨map, hmap, rfl⟩

def Command.takes : Command → DiskName → Prop
  | .mdadmCreate _ disks, disk => disk ∈ disks
  | .mdadmAdd _ other, disk => disk = other
  | .flashcacheCreate other _, disk => disk = other
  | _, _ => False

theorem effect_used (env : Env) (m : Machine) (command : Command) {disk : DiskName}
    (h : .disk disk ∈ (m.effect env command).sysfs.used) :
    .disk disk ∈ m.sysfs.used ∨ command.takes disk := by
  cases command with
  | mdadmCreate id disks =>
      rw [mem_used] at h
      rcases h with ⟨array, harray, hslave⟩ | ⟨map, hmap, heq⟩
      · rcases List.mem_append.mp harray with hold | hnew
        · exact .inl (mem_used.mpr (.inl ⟨array, (List.mem_filter.mp hold).1, hslave⟩))
        · rw [List.mem_singleton.mp hnew, (env.newArray id disks).property.2] at hslave
          exact .inr (by simpa [Command.takes] using hslave)
      · exact .inl (mem_used.mpr (.inr ⟨map, hmap, heq⟩))
  | mdadmStop id =>
      rw [mem_used] at h
      rcases h with ⟨array, harray, hslave⟩ | ⟨map, hmap, heq⟩
      · exact .inl (mem_used.mpr (.inl ⟨array, (List.mem_filter.mp harray).1, hslave⟩))
      · exact .inl (mem_used.mpr (.inr ⟨map, hmap, heq⟩))
  | mdadmAdd id other =>
      rw [mem_used] at h
      rcases h with ⟨array, harray, hslave⟩ | ⟨map, hmap, heq⟩
      · obtain ⟨before, hbefore, rfl⟩ := List.mem_map.mp harray
        split at hslave
        · simp only [List.map_append, List.mem_append, List.map_cons, List.map_nil,
            List.mem_singleton, BlockName.disk.injEq] at hslave
          rcases hslave with hold | rfl
          · exact .inl (mem_used.mpr (.inl ⟨before, hbefore, hold⟩))
          · exact .inr rfl
        · exact .inl (mem_used.mpr (.inl ⟨before, hbefore, hslave⟩))
      · exact .inl (mem_used.mpr (.inr ⟨map, hmap, heq⟩))
  | dmsetupRemove id =>
      rw [mem_used] at h
      rcases h with ⟨array, harray, hslave⟩ | ⟨map, hmap, heq⟩
      · exact .inl (mem_used.mpr (.inl ⟨array, harray, hslave⟩))
      · exact .inl (mem_used.mpr (.inr ⟨map, (List.mem_filter.mp hmap).1, heq⟩))
  | flashcacheCreate other id =>
      rw [mem_used] at h
      rcases h with ⟨array, harray, hslave⟩ | ⟨map, hmap, heq⟩
      · exact .inl (mem_used.mpr (.inl ⟨array, harray, hslave⟩))
      · rcases List.mem_append.mp hmap with hold | hnew
        · exact .inl (mem_used.mpr (.inr ⟨map, hold, heq⟩))
        · rw [List.mem_singleton.mp hnew] at heq
          exact .inr (by simpa [Command.takes] using heq)
  | zero path =>
      simp only [Machine.effect] at h
      split at h <;> exact .inl h
  | pvcreate path =>
      simp only [Machine.effect, Machine.addPv] at h
      split at h <;> exact .inl h
  | vgcreate name paths =>
      simp only [Machine.effect, Machine.addGroup] at h
      split at h <;> exact .inl h
  | lvcreate key size =>
      simp only [Machine.effect, Machine.addVolume] at h
      split at h <;> exact .inl h
  | _ => exact .inl h

def Request.names (env : Env) (page : Page) (id : PhysicalId) : Request → Prop
  | .logicalAdd _ drives => id ∈ drives.getD []
  | .logicalHotspareAdd physicalIdHash _ _ _ => findPhysicalId env page physicalIdHash = .ok id
  | .logicalFlashcacheBind physicalIdHash _ _ =>
      findPhysicalId env page physicalIdHash = .ok id
  | _ => False

theorem names_of_takes {request : Request} {command : Command} {disk : DiskName}
    (hmay : request.may env page m command) (htakes : command.takes disk) :
    request.names env page disk.id := by
  rcases hmay with hroutine | hmay
  · have hcommon := common_of_routine hroutine
    cases command <;> first | exact False.elim htakes | cases hcommon
  · cases command with
    | mdadmCreate id disks =>
        cases request with
        | logicalAdd raidLevel drives =>
            obtain ⟨drive, hdrive, hname⟩ := hmay disk htakes
            change disk.id ∈ _
            rw [scsiToPhys_id hname]
            exact hdrive
        | _ => exact hmay.elim
    | mdadmAdd id other =>
        obtain rfl : disk = other := htakes
        cases request with
        | logicalHotspareAdd physicalIdHash logicalId minimalSize physicalSize => exact hmay
        | _ => exact hmay.elim
    | flashcacheCreate other id =>
        obtain rfl : disk = other := htakes
        cases request with
        | logicalFlashcacheBind physicalIdHash logicalId mode => exact hmay
        | _ => exact hmay.elim
    | _ => cases htakes

theorem serve_used {request : Request} {disk : DiskName}
    (h : .disk disk ∈ (request.serve env page m).2.sysfs.used) :
    .disk disk ∈ m.sysfs.used ∨ request.names env page disk.id := by
  have honly : Issues env (request.may env page) m (request.serve env page m).2 :=
    only_serve page request
  revert h
  refine honly.invariant (I := fun m' => .disk disk ∈ m'.sysfs.used →
    .disk disk ∈ m.sysfs.used ∨ request.names env page disk.id) .inl ?_
  intro before command succeeded hbefore hmay hafter
  unfold Machine.after at hafter
  cases succeeded with
  | false => exact hbefore hafter
  | true =>
      rcases effect_used env before command hafter with hold | htakes
      · exact hbefore hold
      · exact .inr (names_of_takes hmay htakes)

/-! ## Disks that are shown free -/

theorem slaveState_ne_free (listed : BlockName → Bool) (id : Nat) (slave : Slave) :
    slaveState listed id slave ≠ "free" := by
  unfold slaveState
  split
  · intro heq
    have hdigit := Pattern.isDigit_toString (n := id) (c := 'f') (by rw [heq]; decide)
    revert hdigit
    decide
  · split <;> decide

theorem physicalList_ne_free {listed : BlockName → Bool} {id : Nat} {slaves : List Slave}
    {raidDisks : Option Nat} {physicals : Table PhysicalId String}
    (h : physicalList listed id slaves raidDisks = .ok physicals) (p : PhysicalId) :
    physicals.lookup p ≠ some "free" := by
  obtain ⟨table, htable, h⟩ := bind_eq_ok.mp h
  obtain rfl := Except.ok.inj h
  have hslaves : ∀ p, table.lookup p ≠ some "free" := by
    refine foldlM_invariant htable (fun _ (table : Table PhysicalId String) =>
      ∀ p, table.lookup p ≠ some "free") (by simp) ?_
    intro _ slave _ table next _ htable hrun p
    obtain ⟨name, _, hrun⟩ := bind_eq_ok.mp hrun
    obtain ⟨drive, _, hrun⟩ := bind_eq_ok.mp hrun
    obtain rfl := Except.ok.inj hrun
    by_cases heq : p = ⟨0, drive.toNat⟩
    · subst heq
      rw [AList.lookup_insert]
      exact fun hfree => slaveState_ne_free listed id slave (Option.some.inj hfree)
    · rw [AList.lookup_insert_ne heq]
      exact htable p
  intro hfree
  have hcases : table.lookup p = some "free" ∨ (p, "free") ∈
      (missingSlots slaves raidDisks).map fun i => ((⟨99, i⟩ : PhysicalId), "failed") :=
    lookup_foldl_insert _ table (by rw [List.foldl_map]; exact hfree)
  rcases hcases with hold | hnew
  · exact hslaves p hold
  · simp at hnew

theorem physical_free {sysfs : Sysfs} {order : Order} {name : DiskName} {size : Nat}
    {physical : Sysfs.Physical} (h : sysfs.physical order name size = .ok physical)
    (hfree : physical.state = "free") : .disk name ∉ sysfs.used := by
  have h := (Sysfs.physical_eq_ok.mp h).1
  rw [hfree] at h
  obtain ⟨state, hstate, h⟩ := bind_eq_ok.mp h
  have hmembers : state = some "free" →
      ∀ array ∈ order.visit sysfs.listedArrays, .disk name ∉ array.slaves.map (·.name) := by
    refine foldlM_invariant hstate (fun done state => state = some "free" →
      ∀ array ∈ done, .disk name ∉ array.slaves.map (·.name)) (by simp) ?_
    intro done array _ state next _ hdone hrun hnext
    unfold Sysfs.memberState at hrun
    split at hrun
    · obtain ⟨physicals, hphysicals, hrun⟩ := bind_eq_ok.mp hrun
      obtain rfl := Except.ok.inj hrun
      exact absurd hnext (physicalList_ne_free hphysicals name.id)
    · rename_i hnot
      obtain rfl := Except.ok.inj hrun
      intro other hother
      rcases List.mem_append.mp hother with hold | hlast
      · exact hdone hnext other hold
      · rw [List.mem_singleton.mp hlast]
        exact hnot
  by_cases hcached : sysfs.caches.any (fun map => map.physical.id = name.id) = true
  · simp only [hcached, if_true] at h
    exact absurd (Except.ok.inj h) (by simp)
  · simp only [hcached] at h
    cases state with
    | none => cases h
    | some state =>
        obtain rfl := Except.ok.inj h
        have hall := hmembers rfl
        rw [mem_used]
        rintro (⟨array, harray, hslave⟩ | ⟨map, hmap, heq⟩)
        · obtain ⟨slave, hin, _⟩ := List.mem_map.mp hslave
          have hlisted : array ∈ sysfs.listedArrays :=
            List.mem_filter.mpr ⟨harray, by simpa using List.ne_nil_of_mem hin⟩
          exact hall array (order.mem_visit.mpr hlisted) hslave
        · refine hcached (List.any_eq_true.mpr ⟨map, hmap, ?_⟩)
          rw [BlockName.disk.injEq] at heq
          rw [heq]
          exact decide_eq_true rfl

theorem Loaded.free_unused (h : Loaded env m page) {disk : DiskName}
    {physical : Sysfs.Physical} (hlookup : page.physicals.lookup disk.id = some physical)
    (hfree : physical.state = "free") : .disk disk ∉ m.sysfs.used := by
  have hrecord : ∀ id physical, page.physicals.lookup id = some physical →
      ∃ name size, name.id = id ∧
        m.sysfs.physical env.host.order name size = .ok physical := by
    refine foldlM_invariant h.physicals (fun _ (table : Table PhysicalId Sysfs.Physical) =>
      ∀ id physical, table.lookup id = some physical → ∃ name size, name.id = id ∧
        m.sysfs.physical env.host.order name size = .ok physical) (by simp) ?_
    intro _ entry _ table next _ htable hrun id physical hlookup
    obtain ⟨record, hrecord, hrun⟩ := bind_eq_ok.mp hrun
    obtain rfl := Except.ok.inj hrun
    by_cases heq : id = entry.1.id
    · subst heq
      rw [AList.lookup_insert] at hlookup
      obtain rfl := Option.some.inj hlookup
      exact ⟨entry.1, entry.2, rfl, hrecord⟩
    · rw [AList.lookup_insert_ne heq] at hlookup
      exact htable id physical hlookup
  obtain ⟨name, size, hid, hphysical⟩ := hrecord disk.id physical hlookup
  obtain rfl := DiskName.id_injective hid
  exact physical_free hphysical hfree

/-! ## Runs -/

def Event.takes (system : System) (id : PhysicalId) : Event → Prop
  | .load _ _ => False
  | .submit client number env request =>
      ∃ page ∈ system.page client number, request.names env page id
  | .other change => ∃ disk : DiskName, disk.id = id ∧
      .disk disk ∈ (change system.machine).sysfs.used ∧
      .disk disk ∉ system.machine.sysfs.used

theorem step_used (system : System) (event : Event) {disk : DiskName}
    (h : .disk disk ∈ (step system event).machine.sysfs.used) :
    .disk disk ∈ system.machine.sysfs.used ∨ event.takes system disk.id := by
  cases event with
  | load client env =>
      simp only [step] at h
      split at h <;> exact .inl h
  | submit client number env request =>
      simp only [step] at h
      split at h
      · exact .inl h
      · rename_i page hpage
        rcases serve_used h with hold | hnames
        · exact .inl hold
        · exact .inr ⟨page, hpage, hnames⟩
  | other change =>
      by_cases hold : .disk disk ∈ system.machine.sysfs.used
      · exact .inl hold
      · exact .inr ⟨disk, rfl, h, hold⟩

theorem run_used {start : System} {events : List Event} {disk : DiskName}
    (hno : ∀ before event after, events = before ++ event :: after →
      ¬ event.takes (Foundation.run step start before) disk.id)
    (hfree : .disk disk ∉ start.machine.sysfs.used) :
    .disk disk ∉ (Foundation.run step start events).machine.sysfs.used := by
  induction events generalizing start with
  | nil => exact hfree
  | cons event events ih =>
      refine @ih (step start event) ?_ ?_
      · intro before later after hevents
        exact hno (event :: before) later after (by rw [hevents]; rfl)
      · intro hused
        rcases step_used start event hused with hold | htakes
        · exact hfree hold
        · exact hno [] event events rfl htakes

theorem run_append (start : System) (events : List Event) (event : Event) :
    Foundation.run step start (events ++ [event]) =
      step (Foundation.run step start events) event := by
  simp [Foundation.run]

theorem step_pages (system : System) (event : Event) :
    system.pages <+: (step system event).pages := by
  cases event with
  | load client env =>
      simp only [step]
      split
      · exact List.prefix_refl _
      · exact List.prefix_append _ _
  | submit client number env request =>
      simp only [step]
      split <;> exact List.prefix_refl _
  | other change => exact List.prefix_refl _

theorem run_pages (start : System) (events : List Event) :
    start.pages <+: (Foundation.run step start events).pages := by
  induction events generalizing start with
  | nil => exact List.prefix_refl _
  | cons event events ih => exact (step_pages start event).trans (ih (step start event))

theorem page_loaded {start : System} (hstart : start.pages = []) {events : List Event}
    {client number : Nat} {page : Page}
    (h : (Foundation.run step start events).page client number = some page) :
    ∃ earlier env later, events = earlier ++ .load client env :: later ∧
      (Foundation.run step start earlier).pages.length = number ∧
      loadPage env (Foundation.run step start earlier).machine = .ok page := by
  induction events using List.reverseRecOn with
  | nil => simp [System.page, hstart] at h
  | append_singleton events event ih =>
      rw [run_append] at h
      have hold : (Foundation.run step start events).page client number = some page →
          ∃ earlier env later, events ++ [event] = earlier ++ .load client env :: later ∧
            (Foundation.run step start earlier).pages.length = number ∧
            loadPage env (Foundation.run step start earlier).machine = .ok page := by
        intro hpage
        obtain ⟨earlier, env, later, hevents, hrest⟩ := ih hpage
        exact ⟨earlier, env, later ++ [event], by rw [hevents]; simp, hrest⟩
      cases event with
      | load loader env =>
          simp only [step] at h
          split at h
          · exact hold h
          · rename_i loaded hloaded
            obtain ⟨entry, hentry, hclient⟩ := Option.bind_eq_some_iff.mp h
            rcases Nat.lt_trichotomy number
              (Foundation.run step start events).pages.length with hlt | heq | hgt
            · rw [List.getElem?_append_left hlt] at hentry
              exact hold (Option.bind_eq_some_iff.mpr ⟨entry, hentry, hclient⟩)
            · subst heq
              rw [List.getElem?_concat_length] at hentry
              obtain rfl := Option.some.inj hentry
              split at hclient
              · rename_i hsame
                obtain rfl := Option.some.inj hclient
                subst hsame
                exact ⟨events, env, [], rfl, rfl, hloaded⟩
              · cases hclient
            · rw [List.getElem?_eq_none (by simp; omega)] at hentry
              cases hentry
      | submit other otherNumber env request =>
          apply hold
          simp only [step] at h
          split at h <;> exact h
      | other change => exact hold h

/-! ## Bind requests -/

/-- The page of a bind request shows its disk free, and nothing that happened
since it was loaded has put the disk to use. -/
def BindCurrent (start : System) (before : List Event) : Event → Prop
  | .submit client number env (.logicalFlashcacheBind physicalIdHash _ _) =>
      ∀ page ∈ (Foundation.run step start before).page client number,
        ∀ id, findPhysicalId env page physicalIdHash = .ok id →
          (∃ physical, page.physicals.lookup id = some physical ∧
            physical.state = "free") ∧
          ∀ earlier event later, before = earlier ++ event :: later →
            number < (Foundation.run step start earlier).pages.length →
              ¬ event.takes (Foundation.run step start earlier) id
  | _ => True

def stepMoments (env : Env) (system : System) (event : Event) :
    List (Machine × Command) :=
  moments env system.machine (system.machine.since (step system event).machine)

/-- When a bind request writes a trailer, the disk is in no array and caches
none. -/
def TrailersFree (start : System) (before : List Event) : Event → Prop
  | .submit client number env (.logicalFlashcacheBind physicalIdHash logicalId mode) =>
      ∀ moment ∈ stepMoments env (Foundation.run step start before)
          (.submit client number env (.logicalFlashcacheBind physicalIdHash logicalId mode)),
        ∀ disk, moment.2 = .writeTrailer disk → .disk disk ∉ moment.1.sysfs.used
  | _ => True

def EveryPoint (P : List Event → Event → Prop) (events : List Event) : Prop :=
  ∀ before event after, events = before ++ event :: after → P before event

theorem bind_trailer {client number : Nat} {physicalIdHash : String}
    {logicalId : Option Nat} {mode : Option String} {system : System}
    (hpage : system.page client number = some page) {moment : Machine × Command}
    (hmoment : moment ∈ stepMoments env system
      (.submit client number env (.logicalFlashcacheBind physicalIdHash logicalId mode)))
    {disk : DiskName} (hwrite : moment.2 = .writeTrailer disk) :
    moment.1.sysfs = system.machine.sysfs ∧
      findPhysicalId env page physicalIdHash = .ok disk.id := by
  have honly : Only env (fun m' command => ∀ disk, command = .writeTrailer disk →
      m'.sysfs = system.machine.sysfs ∧ findPhysicalId env page physicalIdHash = .ok disk.id)
      (einarcLogicalFlashcacheBind env page physicalIdHash logicalId mode)
      system.machine := by
    refine only_flashcacheBind ?_ ?_ ?_ logicalId mode
    · intro m' command hquiet disk heq
      rw [heq] at hquiet
      cases hquiet
    · intro m' other hsame hid disk heq
      obtain rfl := Command.writeTrailer.inj heq
      exact ⟨hsame, hid⟩
    · intro m' other id _ disk heq
      cases heq
  have hafter : (step system (.submit client number env
      (.logicalFlashcacheBind physicalIdHash logicalId mode))).machine =
      (einarcLogicalFlashcacheBind env page physicalIdHash logicalId mode
        system.machine).2 := by
    simp only [step, hpage, Request.serve]
  unfold stepMoments at hmoment
  rw [hafter] at hmoment
  exact Issues.moments honly moment hmoment disk hwrite

theorem free_since_load {start : System} {earlier later : List Event} {client : Nat}
    {disk : DiskName} {physical : Sysfs.Physical}
    (hload : loadPage env (Foundation.run step start earlier).machine = .ok page)
    (hshown : page.physicals.lookup disk.id = some physical)
    (hfree : physical.state = "free")
    (hno : ∀ before event after, earlier ++ .load client env :: later =
      before ++ event :: after →
        (Foundation.run step start earlier).pages.length <
          (Foundation.run step start before).pages.length →
        ¬ event.takes (Foundation.run step start before) disk.id) :
    .disk disk ∉ (Foundation.run step start
      (earlier ++ .load client env :: later)).machine.sysfs.used := by
  have hstep : step (Foundation.run step start earlier) (.load client env) =
      ⟨(Foundation.run step start earlier).machine,
        (Foundation.run step start earlier).pages ++ [(client, page)]⟩ := by
    simp only [step, hload]
  have hsplit : ∀ events, Foundation.run step start
      (earlier ++ .load client env :: events) =
      Foundation.run step (step (Foundation.run step start earlier) (.load client env))
        events := by
    intro events
    simp [Foundation.run]
  rw [hsplit]
  refine run_used ?_ ?_
  · intro before event after hlater
    rw [← hsplit]
    refine hno (earlier ++ .load client env :: before) event after (by simp [hlater]) ?_
    rw [hsplit, hstep]
    have hlater := (run_pages ⟨(Foundation.run step start earlier).machine,
      (Foundation.run step start earlier).pages ++ [(client, page)]⟩ before).length_le
    simp only [List.length_append, List.length_singleton] at hlater
    omega
  · rw [hstep]
    exact (loaded_of_loadPage hload).free_unused hshown hfree

theorem trailersFree_of_current {start : System} (hstart : start.pages = [])
    {before : List Event} {event : Event} (h : BindCurrent start before event) :
    TrailersFree start before event := by
  match event with
  | .submit client number env (.logicalFlashcacheBind physicalIdHash logicalId mode) =>
      intro moment hmoment disk hwrite
      cases hpage : (Foundation.run step start before).page client number with
      | none =>
          simp [stepMoments, step, hpage, Machine.since, moments] at hmoment
      | some page =>
          obtain ⟨hsysfs, hid⟩ := bind_trailer hpage hmoment hwrite
          obtain ⟨⟨physical, hshown, hfree⟩, hno⟩ := h page hpage disk.id hid
          obtain ⟨earlier, loader, later, rfl, rfl, hload⟩ := page_loaded hstart hpage
          rw [hsysfs]
          exact free_since_load hload hshown hfree hno
  | .load _ _ => trivial
  | .other _ => trivial
  | .submit _ _ _ (.logicalAdd _ _) => trivial
  | .submit _ _ _ (.logicalDelete _) => trivial
  | .submit _ _ _ (.logicalHotspareAdd _ _ _ _) => trivial
  | .submit _ _ _ (.logicalFlashcacheUnbind _) => trivial
  | .submit _ _ _ (.logicalVolumeAdd _ _ _) => trivial
  | .submit _ _ _ (.logicalVolumeRemove _ _) => trivial
  | .submit _ _ _ (.logicalVolumeSnapshotResize _ _ _ _) => trivial

/-- In a run in which every bind request is current, trailers are written only
to free disks. -/
theorem trailers_written_to_free_disks {start : System} (hstart : start.pages = [])
    {events : List Event} (h : EveryPoint (BindCurrent start) events) :
    EveryPoint (TrailersFree start) events := by
  intro before event after hevents
  exact trailersFree_of_current hstart (h before event after hevents)

def spareDisk : System where
  machine := sampleMachine "vg1" ⟨[], by decide, by decide⟩ (by simp)
  pages := []

def bindSdd (client number : Nat) : Event :=
  .submit client number willing
    (.logicalFlashcacheBind (sampleHash "0:4") (some 0) (some "WRITE_THROUGH"))

def sddTaken : List Event :=
  [.load 1 willing, .load 2 willing, .submit 1 0 willing
    (.logicalHotspareAdd (sampleHash "0:4") (some 0) (some 1000) (some 1000))]

theorem bindSdd_current : BindCurrent spareDisk [.load 1 willing] (bindSdd 1 0) := by
  intro page hpage id hid
  have hloaded : (Foundation.run step spareDisk [.load 1 willing]).page 1 0 =
      some (pageOf willing spareDisk.machine) := by
    have hok : loadPage willing spareDisk.machine =
        .ok (pageOf willing spareDisk.machine) :=
      loadPage_pageOf (by decide +kernel)
    have hnone : spareDisk.pages = [] := rfl
    simp [Foundation.run, step, hok, hnone, System.page]
  obtain rfl := Option.some.inj (hloaded.symm.trans hpage)
  have hfound : findPhysicalId willing (pageOf willing spareDisk.machine)
      (sampleHash "0:4") = .ok ⟨0, 4⟩ := by
    decide +kernel
  obtain rfl := Except.ok.inj (hfound.symm.trans hid)
  constructor
  · have hfree : ((pageOf willing spareDisk.machine).physicals.lookup ⟨0, 4⟩).map
        (·.state) = some "free" := by
      decide +kernel
    exact Option.map_eq_some_iff.mp hfree
  · intro earlier event later hbefore hnumber
    have hempty : earlier = [] := by
      cases earlier with
      | nil => rfl
      | cons first earlier => simp at hbefore
    subst hempty
    exact absurd hnumber (by decide)

theorem sdd_free_when_bound :
    (∃ moment ∈ stepMoments willing (Foundation.run step spareDisk [.load 1 willing])
      (bindSdd 1 0), moment.2 = .writeTrailer sdd) ∧
      EveryPoint (TrailersFree spareDisk) [.load 1 willing, bindSdd 1 0] := by
  refine ⟨by decide +kernel, trailers_written_to_free_disks rfl ?_⟩
  intro before event after hevents
  match before with
  | [] =>
      obtain rfl := (List.cons.inj hevents).1
      trivial
  | [first] =>
      obtain ⟨rfl, hrest⟩ := List.cons.inj hevents
      obtain rfl := (List.cons.inj hrest).1
      exact bindSdd_current
  | _ :: _ :: before => simp at hevents

theorem hotspare_overwritten :
    ¬ EveryPoint (TrailersFree spareDisk) (sddTaken ++ [bindSdd 2 1]) := by
  intro h
  have hlast := h sddTaken (bindSdd 2 1) [] rfl
  have hwritten : ∃ moment ∈ stepMoments willing
      (Foundation.run step spareDisk sddTaken) (bindSdd 2 1),
      moment.2 = .writeTrailer sdd ∧ .disk sdd ∈ moment.1.sysfs.used := by
    decide +kernel
  obtain ⟨moment, hmoment, hwrite, hused⟩ := hwritten
  exact hlast moment hmoment sdd hwrite hused

end OpenSan.Storage
