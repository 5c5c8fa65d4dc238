import Mathlib.Logic.Relation
import OpenSan.Storage.System

/-!
# The commands of a request

`Issues` relates two states when commands that meet a condition lead from one
to the other, and `Only` says that a script issues no other commands.  The
condition may depend on the state in which the command is issued.  What each
request may issue is stated once, in `Request.may`.
-/

namespace OpenSan.Storage

open OpenSan.Foundation OpenSan.Einarc

variable {env : Env} {m m' m'' : Machine} {α β : Type}

/-! ## One command -/

def Machine.after (env : Env) (m : Machine) (command : Command) (succeeded : Bool) :
    Machine :=
  { (if succeeded then m.effect env command else m) with
    commands := m.commands ++ [(command, succeeded)] }

@[simp] theorem system_run (command : Command) : system env command m =
    (.ok (env.outcome command (m.issued command)),
      m.after env command (env.outcome command (m.issued command))) := rfl

theorem systemSucceed_run (command : Command) : systemSucceed env command m =
    (if env.outcome command (m.issued command) = true then .ok ()
      else .error (.failure "system() does not succeed"),
      m.after env command (env.outcome command (m.issued command))) := by
  simp only [systemSucceed, Action.bind_run, system_run]
  split <;> rename_i h <;> simp [h, Action.require]

@[simp] theorem after_commands (command : Command) (succeeded : Bool) :
    (m.after env command succeeded).commands = m.commands ++ [(command, succeeded)] :=
  rfl

theorem after_of_effect (part : Machine → β) {command : Command} (succeeded : Bool)
    (hlog : ∀ m log, part { m with commands := log } = part m)
    (heffect : part (m.effect env command) = part m) :
    part (m.after env command succeeded) = part m := by
  unfold Machine.after
  rw [hlog]
  cases succeeded with
  | false => rfl
  | true => exact heffect

def moments (env : Env) : Machine → List (Command × Bool) → List (Machine × Command)
  | _, [] => []
  | m, (command, succeeded) :: log =>
      (m, command) :: moments env (m.after env command succeeded) log

def Machine.since (m m' : Machine) : List (Command × Bool) :=
  m'.commands.drop m.commands.length

/-! ## Scripts -/

/-- Commands that meet the condition lead from one state to the other. -/
def Issues (env : Env) (P : Machine → Command → Prop) : Machine → Machine → Prop :=
  Relation.ReflTransGen fun m m' => ∃ command, P m command ∧
    m' = m.after env command (env.outcome command (m.issued command))

def Only (env : Env) (P : Machine → Command → Prop) (script : Script α) (m : Machine) :
    Prop :=
  Issues env P m (script m).2

variable {P Q : Machine → Command → Prop}

namespace Issues

theorem mono (h : Issues env P m m') (himp : ∀ m command, P m command → Q m command) :
    Issues env Q m m' := by
  refine Relation.ReflTransGen.mono ?_ m m' h
  rintro before after ⟨command, hp, heq⟩
  exact ⟨command, himp before command hp, heq⟩

theorem invariant {I : Machine → Prop} (h : Issues env P m m') (hm : I m)
    (hstep : ∀ m command succeeded, I m → P m command →
      I (m.after env command succeeded)) : I m' := by
  induction h with
  | refl => exact hm
  | tail _ hlast ih =>
      obtain ⟨command, hp, rfl⟩ := hlast
      exact hstep _ command _ ih hp

theorem strengthen {I : Machine → Prop} (h : Issues env P m m') (hm : I m)
    (hstep : ∀ m command succeeded, I m → P m command →
      I (m.after env command succeeded)) :
    Issues env (fun m command => I m ∧ P m command) m m' := by
  induction h with
  | refl => exact Relation.ReflTransGen.refl
  | tail hbefore hlast ih =>
      obtain ⟨command, hp, heq⟩ := hlast
      exact ih.tail ⟨command, ⟨invariant hbefore hm hstep, hp⟩, heq⟩

theorem exists_log (h : Issues env P m m') : ∃ log,
    m'.commands = m.commands ++ log ∧ ∀ moment ∈ moments env m log, P moment.1 moment.2 := by
  induction h using Relation.ReflTransGen.head_induction_on with
  | refl => exact ⟨[], by simp, by simp [moments]⟩
  | head hfirst _ ih =>
      obtain ⟨command, hp, rfl⟩ := hfirst
      obtain ⟨log, hlog, hmoments⟩ := ih
      refine ⟨_ :: log, by simpa using hlog, ?_⟩
      intro moment hmoment
      rcases List.mem_cons.mp hmoment with rfl | hlater
      · exact hp
      · exact hmoments moment hlater

theorem moments (h : Issues env P m m') :
    ∀ moment ∈ moments env m (m.since m'), P moment.1 moment.2 := by
  obtain ⟨log, hlog, hmoments⟩ := h.exists_log
  rw [Machine.since, hlog, List.drop_left]
  exact hmoments

theorem mem_since {P : Command → Prop} (h : Issues env (fun _ => P) m m')
    {entry : Command × Bool} (hentry : entry ∈ m.since m') : P entry.1 := by
  obtain ⟨log, hlog, hmoments⟩ := h.exists_log
  rw [Machine.since, hlog, List.drop_left] at hentry
  clear hlog h
  induction log generalizing m with
  | nil => cases hentry
  | cons first log ih =>
      rcases List.mem_cons.mp hentry with rfl | hlater
      · exact hmoments (m, entry.1) (by simp [Storage.moments])
      · exact ih hlater fun moment hmoment =>
          hmoments moment (List.mem_cons_of_mem _ hmoment)

end Issues

namespace Only

theorem of_state_eq {script : Script α} (h : (script m).2 = m) : Only env P script m := by
  unfold Only
  rw [h]
  exact Relation.ReflTransGen.refl

theorem bind {first : Script α} {next : α → Script β} (hfirst : Only env P first m)
    (hnext : ∀ value m', first m = (.ok value, m') → Only env P (next value) m') :
    Only env P (first >>= next) m := by
  unfold Only at hfirst ⊢
  rw [Action.bind_run]
  rcases hrun : first m with ⟨e | value, m'⟩
  · rw [hrun] at hfirst
    exact hfirst
  · rw [hrun] at hfirst
    exact Relation.ReflTransGen.trans hfirst (hnext value m' hrun)

theorem read_bind {first : Script α} {next : α → Script β} (hstate : (first m).2 = m)
    (hnext : ∀ value, first m = (.ok value, m) → Only env P (next value) m) :
    Only env P (first >>= next) m := by
  refine bind (of_state_eq hstate) fun value m' hrun => ?_
  have hsame : m' = m := by
    rw [hrun] at hstate
    exact hstate
  subst hsame
  exact hnext value hrun

theorem lift_bind {result : Except Error α} {next : α → Script β}
    (hnext : ∀ value, result = .ok value → Only env P (next value) m) :
    Only env P (Action.lift result >>= next) m :=
  read_bind rfl fun value hrun => hnext value (congrArg Prod.fst hrun)

theorem require {condition : Prop} [Decidable condition] {e : Error} :
    Only env P (Action.require condition e) m := by
  apply of_state_eq
  unfold Action.require
  split <;> rfl

theorem require_bind {condition : Prop} [Decidable condition] {e : Error}
    {next : Unit → Script β} (hnext : condition → Only env P (next ()) m) :
    Only env P (Action.require condition e >>= next) m := by
  by_cases h : condition
  · rw [Action.require_of_true h]
    exact hnext h
  · rw [Action.require_of_false h]
    exact of_state_eq rfl

theorem pcall {script : Script α} (h : Only env P script m) :
    Only env P (Action.pcall script) m := h

theorem ite {condition : Prop} [Decidable condition] {yes no : Script α}
    (hyes : condition → Only env P yes m) (hno : ¬ condition → Only env P no m) :
    Only env P (if condition then yes else no) m := by
  by_cases h : condition
  · rw [if_pos h]
    exact hyes h
  · rw [if_neg h]
    exact hno h

theorem forEach {items : List α} {body : α → Script Unit}
    (hbody : ∀ item ∈ items, ∀ m, Only env P (body item) m) :
    Only env P (Action.forEach items body) m := by
  induction items generalizing m with
  | nil => exact of_state_eq rfl
  | cons item items ih =>
      refine bind (hbody item (by simp) m) fun _ m' _ => ih ?_
      intro other hother
      exact hbody other (by simp [hother])

theorem system {command : Command} (h : P m command) :
    Only env P (system env command) m :=
  Relation.ReflTransGen.single ⟨command, h, rfl⟩

theorem systemSucceed {command : Command} (h : P m command) :
    Only env P (systemSucceed env command) m := by
  unfold Only
  rw [systemSucceed_run]
  exact Relation.ReflTransGen.single ⟨command, h, rfl⟩

theorem issues {script : Script α} (h : Only env P script m) {value : α}
    (hrun : script m = (.ok value, m')) : Issues env P m m' := by
  unfold Only at h
  rw [hrun] at h
  exact h

theorem ensures {script : Script α} (h : Only env P script m) :
    Action.Ensures script m fun _ m' => Issues env P m m' :=
  fun _ _ hrun => h.issues hrun

theorem log_grows {script : Script α} (h : Only env P script m) :
    m.commands <+: (script m).2.commands := by
  obtain ⟨log, hlog, _⟩ := Issues.exists_log h
  exact ⟨log, hlog.symm⟩

end Only

def Ran (m m' : Machine) (command : Command) : Prop :=
  m.commands <+: m'.commands ∧ ∃ succeeded, (command, succeeded) ∈ m.since m'

theorem since_eq {log : List (Command × Bool)} (h : m.commands ++ log = m'.commands) :
    m.since m' = log := by
  rw [Machine.since, ← h, List.drop_left]

theorem Ran.later {command : Command} (h : Ran m m' command)
    (hlater : m'.commands <+: m''.commands) : Ran m m'' command := by
  obtain ⟨⟨log, hlog⟩, succeeded, hin⟩ := h
  obtain ⟨rest, hrest⟩ := hlater
  have hall : m.commands ++ (log ++ rest) = m''.commands := by
    rw [← List.append_assoc, hlog, hrest]
  rw [since_eq hlog] at hin
  exact ⟨⟨_, hall⟩, succeeded, by rw [since_eq hall]; exact List.mem_append_left _ hin⟩

theorem Ran.earlier {command : Command} (h : Ran m' m'' command)
    (hearlier : m.commands <+: m'.commands) : Ran m m'' command := by
  obtain ⟨log, hlog⟩ := hearlier
  obtain ⟨⟨rest, hrest⟩, succeeded, hin⟩ := h
  have hall : m.commands ++ (log ++ rest) = m''.commands := by
    rw [← List.append_assoc, hlog, hrest]
  rw [since_eq hrest] at hin
  exact ⟨⟨_, hall⟩, succeeded, by rw [since_eq hall]; exact List.mem_append_right _ hin⟩

theorem ran_after (command : Command) (succeeded : Bool) :
    Ran m (m.after env command succeeded) command := by
  have hlog : m.commands ++ [(command, succeeded)] =
    (m.after env command succeeded).commands := rfl
  exact ⟨⟨_, hlog⟩, succeeded, by rw [since_eq hlog]; exact List.mem_singleton_self _⟩

theorem Ran.bind_left (env : Env) {first : Script α} {next : α → Script β} {command : Command}
    (h : Ran m (first m).2 command)
    (hnext : ∀ value m', Only env (fun _ _ => True) (next value) m') :
    Ran m ((first >>= next) m).2 command := by
  rw [Action.bind_run]
  rcases hrun : first m with ⟨e | value, m'⟩
  · rw [hrun] at h
    exact h
  · rw [hrun] at h
    exact h.later (hnext value m').log_grows

theorem Ran.bind_right (env : Env) {first : Script α} {next : α → Script β}
    {command : Command} {value : α} (hrun : first m = (.ok value, m'))
    (hfirst : Only env (fun _ _ => True) first m)
    (h : Ran m' (next value m').2 command) : Ran m ((first >>= next) m).2 command := by
  have hlog := hfirst.log_grows
  rw [hrun] at hlog
  rw [Action.bind_run, hrun]
  exact h.earlier hlog

/-! ## The parts of the handlers -/

/-- Commands that destroy no volume, take no disk and stop no array. -/
def Command.common : Command → Bool
  | .zero _ | .lvremove _ | .mdadmCreate _ _ | .mdadmStop _ | .mdadmAdd _ _
  | .writeTrailer _ | .flashcacheCreate _ _ => false
  | _ => true

theorem findArray_run (id : Nat) : findArray env id m =
    ((m.sysfs.logicals env.host.order).map fun logicals =>
      logicals.find? fun logical => logical.id = id, m) := by
  simp only [findArray, Action.bind_run, Action.query_run]
  cases m.sysfs.logicals env.host.order <;> rfl

theorem findPhysical_run (id : PhysicalId) : findPhysical env id m =
    ((m.sysfs.physicals env.host.order).map fun physicals =>
      if (physicals.lookup id).isSome then diskOf m.sysfs id else none, m) := by
  simp only [findPhysical, Action.bind_run, Action.query_run]
  cases m.sysfs.physicals env.host.order <;> rfl

theorem findPv_run (device : Path) : findPv env device m =
    ((physicalVolumes env m).map fun pvs =>
      (env.host.order.visit pvs).find? fun pv => pv.device = device, m) := by
  simp only [findPv, Action.bind_run, Action.query_run]
  cases physicalVolumes env m <;> rfl

theorem only_run {command : Command} (h : ∀ m, P m command) :
    Only env P (run env command) m := by
  have hattempts : ∀ tries m, Only env P (attempts env command tries) m := by
    intro tries
    induction tries with
    | zero => exact fun m => Only.of_state_eq rfl
    | succ tries ih =>
        intro m
        refine Only.bind (Only.system (h m)) fun succeeded m₁ _ => ?_
        exact Only.ite (fun _ => Only.of_state_eq rfl) fun _ => ih m₁
  exact hattempts 4 m

def Command.scans : Command → Bool
  | .pvscan | .vgscan | .lvscan | .vgchangeActivate | .vgchangeDisable _ => true
  | _ => false

def Command.quiet : Command → Bool
  | .zeroSuperblock _ | .dmsetupRemove _ | .flashcacheDestroy _ => true
  | command => command.scans

theorem quiet_of_scans {command : Command} (h : command.scans = true) :
    command.quiet = true := by
  cases command <;> first | rfl | cases h

theorem common_of_quiet {command : Command} (h : command.quiet = true) :
    command.common = true := by
  cases command <;> first | rfl | cases h

def Scanned (env : Env) : Machine → Machine → Prop :=
  Issues env fun _ command => command.scans = true

section Scans

variable (hscans : ∀ m command, command.scans = true → P m command)

include hscans

theorem only_disableGroup (group : String) : Only env P (disableGroup env group) m :=
  Only.systemSucceed (hscans m _ rfl)

theorem only_rescanPvs : Only env P (rescanPvs env) m :=
  Only.bind (Only.system (hscans m _ rfl)) fun _ _ _ => Only.of_state_eq rfl

theorem only_rescanGroups : Only env P (rescanGroups env) m := by
  refine Only.bind (Only.system (hscans m _ rfl)) fun _ m₁ _ => ?_
  exact Only.bind (Only.system (hscans m₁ _ rfl)) fun _ _ _ => Only.of_state_eq rfl

theorem only_restore : Only env P (restore env) m := by
  refine Only.bind (only_rescanPvs hscans) fun _ m₁ _ => ?_
  refine Only.bind (only_rescanGroups hscans) fun _ m₂ _ => ?_
  exact Only.bind (Only.system (hscans m₂ _ rfl)) fun _ _ _ => Only.of_state_eq rfl

theorem only_disableNonRaid (page : Page) :
    Only env P (disableNonRaidVolumeGroups env page) m := by
  refine Only.read_bind rfl fun pvs _ => ?_
  refine Only.read_bind rfl fun groups _ => ?_
  refine Only.forEach fun group _ m => ?_
  exact Only.ite (fun _ => Only.of_state_eq rfl) fun _ =>
    only_disableGroup hscans group.name

end Scans

section Quiet

variable (hquiet : ∀ m command, command.quiet = true → P m command)

include hquiet

theorem scans_of_quiet (m : Machine) (command : Command) (h : command.scans = true) :
    P m command := hquiet m command (quiet_of_scans h)

theorem only_zeroSuperblock (drive : Int) : Only env P (zeroSuperblock env drive) m := by
  refine Only.require_bind fun _ => ?_
  exact Only.bind (only_run fun m => hquiet m _ rfl) fun _ _ _ => Only.of_state_eq rfl

theorem only_destroyCache (disk : DiskName) : Only env P (destroyCache env disk) m :=
  Only.bind (Only.system (hquiet m _ rfl)) fun _ _ _ => Only.of_state_eq rfl

theorem only_unbindMap (disk : DiskName) (info : CachePair) :
    Only env P (unbindMap env disk info) m := by
  refine Only.ite (fun _ => ?_) fun _ => Only.of_state_eq rfl
  refine Only.read_bind (by rw [findArray_run]) fun logical _ => ?_
  refine Only.lift_bind fun logical _ => ?_
  refine Only.bind (Only.system (hquiet m _ rfl)) fun _ m₁ _ => ?_
  refine Only.read_bind (by rw [findPhysical_run]) fun physical _ => ?_
  exact Only.lift_bind fun physical _ => only_destroyCache hquiet physical

theorem only_unbindCache (disk : Option DiskName) : Only env P (unbindCache env disk) m := by
  cases disk with
  | none => exact Only.of_state_eq rfl
  | some disk =>
      refine Only.read_bind rfl fun maps _ => ?_
      exact Only.forEach fun info _ m => only_unbindMap hquiet disk info

end Quiet

section Parts

variable (hcommon : ∀ m command, command.common = true → P m command)

include hcommon

theorem scans_of_common (m : Machine) (command : Command) (h : command.scans = true) :
    P m command := hcommon m command (common_of_quiet (quiet_of_scans h))

theorem only_createGroup (pvs : List ListedPv) : Only env P (createGroup env pvs) m := by
  refine Only.require_bind fun _ => ?_
  refine Only.read_bind rfl fun groups _ => ?_
  refine Only.require_bind fun _ => ?_
  refine Only.require_bind fun _ => ?_
  exact Only.systemSucceed (hcommon m _ rfl)

theorem only_createVolume (group name : String) (size : ℚ) :
    Only env P (createVolume env group name size) m := by
  refine Only.require_bind fun _ => ?_
  refine Only.bind (Only.system (hcommon m _ rfl)) fun succeeded m₁ _ => ?_
  exact Only.require

theorem only_boundsCheck (pv : ListedPv) (size : ℚ) :
    Only env P (boundsCheck env pv size) m := by
  refine Only.lift_bind fun expected _ => ?_
  refine Only.ite (fun _ => ?_) fun _ => Only.of_state_eq rfl
  exact Only.systemSucceed (hcommon m _ rfl)

theorem only_addVolumeTo (page : Page) (group : Option ListedGroup) (name : String)
    (size : ℚ) : Only env P (addVolumeTo env page group name size) m := by
  cases group with
  | none => exact Only.of_state_eq rfl
  | some group =>
      refine Only.ite (fun _ => Only.of_state_eq rfl) fun _ => ?_
      refine Only.bind (only_createVolume hcommon group.name name size).pcall ?_
      intro result m₁ _
      cases result <;> exact Only.of_state_eq rfl

end Parts

/-! ## Requests -/

theorem findLogical_mem {page : Page} {logicalIdHash : String} {logical : ListedLogical}
    (h : findLogical env page logicalIdHash = .ok logical) : logical ∈ page.logicals := by
  obtain ⟨text, _, hfound⟩ := bind_eq_ok.mp h
  exact List.mem_of_find?_eq_some (nonNil_eq_ok hfound)

/-- The page shows no array under the path, or no array at all. -/
def Page.lacks (page : Page) (path : Path) : Prop :=
  page.logicals.length = 0 ∨ ∀ previous ∈ page.logicals, previous.device ≠ path

def Page.scratch (page : Page) (device : Path) : Prop :=
  (groupOn page device).filter (fun group => hasVolume page group.name) = none

def Request.routine : Request → Command → Bool
  | .logicalAdd _ _, command | .logicalVolumeRemove _ _, command => command.scans
  | .logicalVolumeAdd _ _ _, command
  | .logicalVolumeSnapshotResize _ _ _ _, command => command.common
  | _, command => command.quiet

theorem common_of_routine {request : Request} {command : Command}
    (h : request.routine command = true) : command.common = true := by
  cases request with
  | logicalAdd raidLevel drives => exact common_of_quiet (quiet_of_scans h)
  | logicalVolumeRemove groupHash volumeHash => exact common_of_quiet (quiet_of_scans h)
  | logicalVolumeAdd logicalIdHash name size => exact h
  | logicalVolumeSnapshotResize groupHash volumeHash size apply => exact h
  | _ => exact common_of_quiet h

/-- The commands that a request may issue in a state. -/
def Request.may (env : Env) (page : Page) (request : Request) (m : Machine)
    (command : Command) : Prop :=
  request.routine command = true ∨
  match request, command with
  | .logicalAdd _ _, .zero path => (∃ id, path = devicePath m.sysfs id) ∧ page.lacks path
  | .logicalAdd _ drives, .mdadmCreate _ disks =>
      ∀ disk ∈ disks, ∃ drive ∈ drives.getD [], scsiToPhys drive = .ok (diskText disk)
  | .logicalDelete logicalIdHash, .zero path =>
      ∃ logical, findLogical env page logicalIdHash = .ok logical ∧ path = logical.device
  | .logicalDelete _, .mdadmStop _ => True
  | .logicalHotspareAdd physicalIdHash _ _ _, .mdadmAdd _ disk =>
      findPhysicalId env page physicalIdHash = .ok disk.id
  | .logicalFlashcacheBind physicalIdHash _ _, .writeTrailer disk =>
      findPhysicalId env page physicalIdHash = .ok disk.id
  | .logicalFlashcacheBind physicalIdHash _ _, .flashcacheCreate disk _ =>
      findPhysicalId env page physicalIdHash = .ok disk.id
  | .logicalVolumeAdd logicalIdHash _ _, .zero path =>
      ∃ logical, findLogical env page logicalIdHash = .ok logical ∧
        path = logical.device ∧ page.scratch logical.device
  | .logicalVolumeRemove groupHash volumeHash, .zero path =>
      ∃ group name, findGroupName env page groupHash = .ok group ∧
        findVolumeName env page volumeHash = .ok name ∧ isLast page group name = true ∧
        ∃ listed ∈ page.volumeGroups, listed.name = group ∧
          path ∈ listed.physicalVolumes.map (·.device)
  | .logicalVolumeRemove groupHash volumeHash, .lvremove key =>
      findGroupName env page groupHash = .ok key.group ∧
        findVolumeName env page volumeHash = .ok key.name ∧
        isLast page key.group key.name = false
  | _, _ => False

theorem only_prepare {path : Path} (h : P m (.zero path)) : Only env P (prepare env path) m :=
  Only.require_bind fun _ => Only.systemSucceed h

theorem only_createPv {path : Path} (h : P m (.zero path))
    (hcreate : ∀ m, P m (.pvcreate path)) : Only env P (createPv env path) m := by
  refine Only.require_bind fun _ => ?_
  refine Only.bind (only_prepare h) fun _ m₁ _ => ?_
  exact Only.systemSucceed (hcreate m₁)

theorem only_createGroupOn (hcommon : ∀ m command, command.common = true → P m command)
    (device : Path) : Only env P (createGroupOn env device) m := by
  refine Only.bind (only_rescanPvs (scans_of_common hcommon)) fun _ m₁ _ => ?_
  refine Only.read_bind (by rw [findPv_run]) fun pv _ => ?_
  refine Only.bind (only_createGroup hcommon _).pcall fun result m₂ _ => ?_
  cases result with
  | error e => exact Only.of_state_eq rfl
  | ok _ =>
      refine Only.bind (only_rescanPvs (scans_of_common hcommon)) fun _ m₃ _ => ?_
      refine Only.bind (only_rescanGroups (scans_of_common hcommon)) fun _ m₄ _ => ?_
      refine Only.read_bind (by rw [findPv_run]) fun pv _ => ?_
      exact Only.of_state_eq rfl

theorem only_startFromScratch {device : Path}
    (hcommon : ∀ m command, command.common = true → P m command)
    (h : P m (.zero device)) : Only env P (startFromScratch env device) m := by
  refine Only.bind (only_createPv h fun m => hcommon m _ rfl).pcall fun result m₁ _ => ?_
  cases result with
  | error e => exact Only.of_state_eq rfl
  | ok _ => exact only_createGroupOn hcommon device

theorem only_addFromScratch {logical : ListedLogical}
    (hcommon : ∀ m command, command.common = true → P m command)
    (h : ∀ m', Scanned env m m' → P m' (.zero logical.device)) (page : Page)
    (found : Option ListedGroup) (name : String) (size : ℚ) :
    Only env P (addFromScratch env page logical found name size) m := by
  have hdisable (Q : Machine → Command → Prop)
      (hscans : ∀ m command, command.scans = true → Q m command) : Only env Q
      (Action.forEach found.toList fun group => disableGroup env group.name) m :=
    Only.forEach fun group _ m => only_disableGroup hscans group.name
  refine Only.bind (hdisable P (scans_of_common hcommon)) fun _ m₁ hrun => ?_
  have hscanned := (hdisable (fun _ command => command.scans = true) fun _ _ h => h).issues
    hrun
  refine Only.bind (only_startFromScratch hcommon (h m₁ hscanned)) fun result m₂ _ => ?_
  cases result with
  | error message => exact Only.of_state_eq rfl
  | ok group => exact only_addVolumeTo hcommon page group name size

theorem only_addToGroup (hcommon : ∀ m command, command.common = true → P m command)
    (page : Page) (logical : ListedLogical) (group : ListedGroup) (name : String)
    (size : ℚ) : Only env P (addToGroup env page logical group name size) m := by
  refine Only.read_bind (by rw [findPv_run]) fun pv _ => ?_
  refine Only.lift_bind fun pv _ => ?_
  refine Only.bind (only_boundsCheck hcommon pv logical.size) fun _ m₁ _ => ?_
  exact only_addVolumeTo hcommon page (some group) name size

theorem only_placeVolume {logical : ListedLogical}
    (hcommon : ∀ m command, command.common = true → P m command) (page : Page)
    (h : page.scratch logical.device → ∀ m', Scanned env m m' →
      P m' (.zero logical.device)) (name : String)
    (size : ℚ) : Only env P (placeVolume env page logical name size) m := by
  refine Only.bind (only_restore (scans_of_common hcommon)) fun _ m₁ hrun => ?_
  have hscanned : Scanned env m m₁ := (only_restore fun _ _ h => h).issues hrun
  simp only
  cases hfound : (groupOn page logical.device).filter fun group =>
      hasVolume page group.name with
  | some group => exact only_addToGroup hcommon page logical group name size
  | none =>
      exact only_addFromScratch hcommon (fun m' hlater =>
        h hfound m' (Relation.ReflTransGen.trans hscanned hlater)) page _ name size

theorem only_volumeAdd (hcommon : ∀ m command, command.common = true → P m command)
    {page : Page} {logicalIdHash : String}
    (h : ∀ logical, findLogical env page logicalIdHash = .ok logical →
      page.scratch logical.device → ∀ m', Scanned env m m' → P m' (.zero logical.device))
    (name : Option String) (size : Option ℚ) :
    Only env P (lvmLogicalVolumeAdd env page logicalIdHash name size) m := by
  refine Only.lift_bind fun logical hlogical => ?_
  refine Only.ite (fun _ => Only.of_state_eq rfl) fun _ => ?_
  refine Only.lift_bind fun name _ => ?_
  refine Only.ite (fun _ => Only.of_state_eq rfl) fun _ => ?_
  refine Only.lift_bind fun size _ => ?_
  refine Only.require_bind fun _ => ?_
  exact only_placeVolume hcommon page (h logical hlogical) name size

theorem only_volumeRemove (page : Page) (groupHash volumeHash : String) :
    Only env (Request.may env page (.logicalVolumeRemove groupHash volumeHash))
      (lvmLogicalVolumeRemove env page groupHash volumeHash) m := by
  have hroutine : ∀ m command, command.scans = true →
      Request.may env page (.logicalVolumeRemove groupHash volumeHash) m command :=
    fun _ _ h => .inl h
  refine Only.lift_bind fun group hgroup => ?_
  refine Only.lift_bind fun name hname => ?_
  refine Only.ite (fun hlast => ?_) fun hlast => ?_
  · refine Only.bind ?_ fun _ _ _ => Only.of_state_eq rfl
    refine Only.forEach fun listed hlisted m => ?_
    refine Only.ite (fun hsame => ?_) fun _ => Only.of_state_eq rfl
    refine Only.bind (only_disableGroup hroutine listed.name) fun _ m₁ _ => ?_
    refine Only.forEach fun pv hpv m => only_prepare ?_
    exact .inr ⟨group, name, hgroup, hname, hlast, listed, hlisted, hsame,
      List.mem_map_of_mem hpv⟩
  · have hremove : Only env (Request.may env page
        (.logicalVolumeRemove groupHash volumeHash)) (removeVolume env ⟨group, name⟩) m :=
      Only.systemSucceed (.inr ⟨hgroup, hname, by simpa using hlast⟩)
    refine Only.bind hremove.pcall fun result m₁ _ => ?_
    cases result <;> exact Only.of_state_eq rfl

theorem only_snapshotResize (hcommon : ∀ m command, command.common = true → P m command)
    (page : Page) (groupHash volumeHash : String) (sizeNew : Option ℚ)
    (apply : Except Error Unit) :
    Only env P (lvmLogicalVolumeSnapshotResize env page groupHash volumeHash sizeNew
      apply) m := by
  refine Only.lift_bind fun group _ => ?_
  refine Only.lift_bind fun name _ => ?_
  refine Only.lift_bind fun pv _ => ?_
  refine Only.lift_bind fun logical _ => ?_
  refine Only.bind (only_boundsCheck hcommon pv logical.size) fun _ m₁ _ => ?_
  refine Only.lift_bind fun size _ => ?_
  refine Only.require_bind fun _ => ?_
  refine Only.lift_bind fun found _ => ?_
  refine Only.ite (fun _ => Only.of_state_eq rfl) fun _ => ?_
  have hresize : Only env P (resizeSnapshot env ⟨group, name⟩ found.size size) m₁ := by
    refine Only.require_bind fun _ => ?_
    exact Only.ite (fun _ => Only.of_state_eq rfl) fun _ =>
      Only.systemSucceed (hcommon m₁ _ rfl)
  refine Only.bind hresize.pcall fun result m₂ _ => ?_
  cases result <;> cases apply <;> exact Only.of_state_eq rfl

theorem only_clearArray {logical : ListedLogical}
    (hquiet : ∀ m command, command.quiet = true → P m command)
    (h : ∀ m, P m (.zero logical.device)) (page : Page) :
    Only env P (clearArray env page logical) m := by
  refine Only.bind (Only.forEach fun group _ m => ?_) fun _ m₁ _ => ?_
  · exact Only.ite (fun _ => only_disableGroup (scans_of_quiet hquiet) group.name) fun _ =>
      Only.of_state_eq rfl
  have hprepare : Only env P (prepare env logical.device) m₁ := only_prepare (h m₁)
  refine Only.bind hprepare.pcall fun _ m₂ _ => ?_
  refine Only.read_bind rfl fun maps _ => ?_
  refine Only.forEach fun map _ m => ?_
  refine Only.ite (fun _ => ?_) fun _ => Only.of_state_eq rfl
  refine Only.read_bind (by rw [findPhysical_run]) fun disk _ => ?_
  exact only_unbindCache hquiet disk

theorem only_logicalDelete (page : Page) (logicalIdHash : String) :
    Only env (Request.may env page (.logicalDelete logicalIdHash))
      (einarcLogicalDelete env page logicalIdHash) m := by
  have hroutine : ∀ m command, command.quiet = true →
      Request.may env page (.logicalDelete logicalIdHash) m command := fun _ _ h => .inl h
  refine Only.lift_bind fun logical hlogical => ?_
  refine Only.bind (only_clearArray hroutine (fun _ => ?_) page) fun _ m₁ _ => ?_
  · exact .inr ⟨logical, hlogical, rfl⟩
  refine Only.read_bind (by rw [findArray_run]) fun array _ => ?_
  have hdelete : Only env (Request.may env page (.logicalDelete logicalIdHash))
      (deleteArray env array) m₁ := by
    refine Only.lift_bind fun array _ => ?_
    refine Only.bind (only_run fun _ => .inr trivial) fun stopped m₂ _ => ?_
    refine Only.bind (Only.forEach fun drive _ m => ?_) fun _ m₃ _ => Only.require
    exact only_zeroSuperblock hroutine drive
  refine Only.bind hdelete.pcall fun result m₂ _ => ?_
  cases result <;> exact Only.of_state_eq rfl

theorem diskOf_id {sysfs : Sysfs} {id : PhysicalId} {disk : DiskName}
    (h : diskOf sysfs id = some disk) : disk.id = id := by
  simpa using List.find?_some h

theorem findPhysical_id {id : PhysicalId} {disk : DiskName}
    (h : findPhysical env id m = (.ok (some disk), m')) : disk.id = id := by
  rw [findPhysical_run, Prod.mk.injEq] at h
  obtain ⟨hdisk, _⟩ := h
  cases hphysicals : m.sysfs.physicals env.host.order with
  | error e =>
      rw [hphysicals] at hdisk
      cases hdisk
  | ok physicals =>
      rw [hphysicals] at hdisk
      simp only [Except.map, Except.ok.injEq] at hdisk
      split at hdisk
      · exact diskOf_id hdisk
      · cases hdisk

theorem only_hotspareAdd (page : Page) (physicalIdHash : String) (logicalId : Option Nat)
    (minimalSize physicalSize : Option ℚ) :
    Only env (Request.may env page (.logicalHotspareAdd physicalIdHash logicalId
      minimalSize physicalSize)) (einarcLogicalHotspareAdd env page physicalIdHash
        logicalId minimalSize physicalSize) m := by
  refine Only.lift_bind fun physicalId hid => ?_
  cases logicalId with
  | none => exact Only.of_state_eq rfl
  | some logicalId =>
      have hroutine : ∀ m command, command.quiet = true →
          Request.may env page (.logicalHotspareAdd physicalIdHash (some logicalId)
          minimalSize physicalSize) m command := fun _ _ h => .inl h
      refine Only.lift_bind fun minimal _ => ?_
      refine Only.lift_bind fun actual _ => ?_
      refine Only.bind (only_restore (scans_of_quiet hroutine)) fun _ m₁ _ => ?_
      refine Only.bind (only_disableNonRaid (scans_of_quiet hroutine) page) fun _ m₂ _ => ?_
      refine Only.read_bind (by rw [findArray_run]) fun logical _ => ?_
      refine Only.read_bind (by rw [findPhysical_run]) fun disk hdisk => ?_
      have hadd : Only env (Request.may env page (.logicalHotspareAdd physicalIdHash
          (some logicalId) minimalSize physicalSize)) (addHotspare env logical disk) m₂ := by
        refine Only.lift_bind fun logical _ => ?_
        cases disk with
        | none => exact Only.of_state_eq rfl
        | some disk =>
            refine Only.bind (only_run fun m => hroutine m _ rfl) fun _ m₃ _ => ?_
            refine Only.bind (only_run fun _ => .inr ?_) fun _ m₄ _ => Only.require
            change findPhysicalId env page physicalIdHash = .ok disk.id
            rw [findPhysical_id hdisk, hid]
      refine Only.bind hadd.pcall fun result m₃ _ => ?_
      cases result <;> exact Only.of_state_eq rfl

theorem destroyCache_sysfs {disk : DiskName} {value : Unit}
    (h : destroyCache env disk m = (.ok value, m')) : m'.sysfs = m.sysfs := by
  obtain rfl : m.after env (.flashcacheDestroy disk)
      (env.outcome (.flashcacheDestroy disk) (m.issued (.flashcacheDestroy disk))) = m' :=
    congrArg Prod.snd h
  exact after_of_effect (·.sysfs) _ (fun _ _ => rfl) rfl

/-- The trailer is written before anything else changes. -/
theorem only_flashcacheBind (hquiet : ∀ m command, command.quiet = true → P m command)
    {page : Page} {physicalIdHash : String}
    (hwrite : ∀ m' disk, m'.sysfs = m.sysfs →
      findPhysicalId env page physicalIdHash = .ok disk.id → P m' (.writeTrailer disk))
    (hcreate : ∀ m' disk id, findPhysicalId env page physicalIdHash = .ok disk.id →
      P m' (.flashcacheCreate disk id)) (logicalId : Option Nat) (mode : Option String) :
    Only env P (einarcLogicalFlashcacheBind env page physicalIdHash logicalId mode) m := by
  refine Only.lift_bind fun physicalId hid => ?_
  match logicalId, mode with
  | none, _ => exact Only.of_state_eq rfl
  | some _, none => exact Only.of_state_eq rfl
  | some logicalId, some mode =>
      refine Only.read_bind (by rw [findPhysical_run]) fun disk hdisk => ?_
      refine Only.read_bind (by rw [findArray_run]) fun logical _ => ?_
      have hbind : Only env P (bindCache env disk logical mode) m := by
        cases disk with
        | none => exact Only.of_state_eq rfl
        | some disk =>
            have hfound : findPhysicalId env page physicalIdHash = .ok disk.id := by
              rw [findPhysical_id hdisk, hid]
            refine Only.lift_bind fun logical _ => ?_
            refine Only.require_bind fun _ => ?_
            refine Only.bind (only_destroyCache hquiet disk) fun _ m₁ hdestroy => ?_
            refine Only.lift_bind fun uuid _ => ?_
            refine Only.bind (Only.systemSucceed (hwrite m₁ disk
              (destroyCache_sysfs hdestroy) hfound)) fun _ m₂ _ => ?_
            exact Only.systemSucceed (hcreate m₂ disk logical.id hfound)
      refine Only.bind hbind.pcall fun result m₁ _ => ?_
      cases result <;> exact Only.of_state_eq rfl

theorem only_flashcacheUnbind (hquiet : ∀ m command, command.quiet = true → P m command)
    (page : Page) (physicalIdHash : String) :
    Only env P (einarcLogicalFlashcacheUnbind env page physicalIdHash) m := by
  refine Only.lift_bind fun physicalId _ => ?_
  refine Only.read_bind (by rw [findPhysical_run]) fun disk _ => ?_
  refine Only.bind (only_unbindCache hquiet disk).pcall fun result m₁ _ => ?_
  cases result <;> exact Only.of_state_eq rfl

theorem after_zero_sysfs (path : Path) (succeeded : Bool) :
    (m.after env (.zero path) succeeded).sysfs = m.sysfs := by
  refine after_of_effect (·.sysfs) succeeded (fun _ _ => rfl) ?_
  simp only [Machine.effect]
  split <;> rfl

theorem prepareIf_sysfs (env : Env) (m : Machine) (need : Prop) [Decidable need]
    (path : Path) : (prepareIf env need path m).2.sysfs = m.sysfs := by
  refine Action.final_ite (Q := fun m' : Machine => m'.sysfs = m.sysfs)
    (fun _ => ?_) fun _ => rfl
  refine Action.final_require (Q := fun m' : Machine => m'.sysfs = m.sysfs)
    (fun _ => rfl) fun _ => ?_
  rw [systemSucceed_run]
  exact after_zero_sysfs path _

theorem only_prepareIf {need : Prop} [Decidable need] {path : Path}
    (h : need → P m (.zero path)) : Only env P (prepareIf env need path) m :=
  Only.ite (fun hneed => only_prepare (h hneed)) fun _ => Only.of_state_eq rfl

theorem only_prepareNew {page : Page} (hzero : ∀ m id,
      page.lacks (devicePath m.sysfs id) → P m (.zero (devicePath m.sysfs id)))
    (logical : LogicalDisk) : Only env P (prepareNew env page logical) m := by
  refine Only.read_bind rfl fun device hdevice => ?_
  obtain rfl : devicePath m.sysfs logical.id = device := by simpa using hdevice
  refine Only.bind (only_prepareIf fun hempty => hzero m logical.id (.inl hempty)) ?_
  intro _ m₁ hrun
  have hsysfs := prepareIf_sysfs env m (page.logicals.length = 0)
    (devicePath m.sysfs logical.id)
  rw [hrun] at hsysfs
  rw [← hsysfs]
  exact only_prepareIf fun hnew => hzero m₁ logical.id (.inr hnew)

theorem drives_of_disks {sysfs : Sysfs} {drives : List PhysicalId} {disks : List DiskName}
    (h : (drives.mapM fun drive => do
      let name ← scsiToPhys drive
      nonNil "device" (diskNamed sysfs name)) = Except.ok disks) :
    ∀ disk ∈ disks, ∃ drive ∈ drives, scsiToPhys drive = .ok (diskText disk) := by
  intro disk hdisk
  obtain ⟨drive, hdrive, hrun⟩ := (mapM_eq_ok h).2 disk hdisk
  obtain ⟨name, hname, hfound⟩ := bind_eq_ok.mp hrun
  refine ⟨drive, hdrive, ?_⟩
  have hnamed : diskText disk = name := by
    simpa using List.find?_some (nonNil_eq_ok hfound)
  rw [hname, hnamed]

theorem only_logicalAdd (page : Page) (raidLevel : Option String)
    (drives : Option (List PhysicalId)) :
    Only env (Request.may env page (.logicalAdd raidLevel drives))
      (einarcLogicalAdd env page raidLevel drives) m := by
  match raidLevel, drives with
  | none, _ => exact Only.of_state_eq rfl
  | some _, none => exact Only.of_state_eq rfl
  | some level, some drives =>
      refine Only.lift_bind fun message _ => ?_
      cases message with
      | some message => exact Only.of_state_eq rfl
      | none =>
          have hroutine : ∀ m command, command.scans = true →
              Request.may env page (.logicalAdd (some level) (some drives)) m command :=
            fun _ _ h => .inl h
          refine Only.bind (only_restore hroutine) fun _ m₁ _ => ?_
          refine Only.bind (only_disableNonRaid hroutine page) fun _ m₂ _ => ?_
          have hadd : Only env (Request.may env page (.logicalAdd (some level)
              (some drives))) (addArray env drives) m₂ := by
            refine Only.require_bind fun _ => ?_
            refine Only.read_bind rfl fun id _ => ?_
            cases id with
            | none => exact Only.of_state_eq rfl
            | some id =>
                refine Only.read_bind rfl fun disks hdisks => ?_
                have hnamed := drives_of_disks (congrArg Prod.fst hdisks)
                refine Only.bind (Only.system (.inr hnamed)) fun _ m₃ _ => Only.require
          refine Only.bind hadd.pcall fun result m₃ _ => ?_
          cases result with
          | error e => exact Only.of_state_eq rfl
          | ok _ =>
              refine Only.read_bind rfl fun logicals _ => ?_
              refine Only.bind (Only.forEach fun logical _ m => ?_) fun _ _ _ =>
                Only.of_state_eq rfl
              refine only_prepareNew (fun m id hlacks => ?_) logical
              exact .inr ⟨⟨id, rfl⟩, hlacks⟩

theorem only_serve (page : Page) (request : Request) :
    Only env (request.may env page) (request.serve env page) m := by
  cases request with
  | logicalAdd raidLevel drives => exact only_logicalAdd page raidLevel drives
  | logicalDelete logicalIdHash => exact only_logicalDelete page logicalIdHash
  | logicalHotspareAdd physicalIdHash logicalId minimalSize physicalSize =>
      exact only_hotspareAdd page physicalIdHash logicalId minimalSize physicalSize
  | logicalFlashcacheBind physicalIdHash logicalId mode =>
      refine only_flashcacheBind (fun _ _ h => .inl h) (fun _ _ _ hfound => ?_)
        (fun _ _ _ hfound => ?_) logicalId mode
      · exact .inr hfound
      · exact .inr hfound
  | logicalFlashcacheUnbind physicalIdHash =>
      exact only_flashcacheUnbind (fun _ _ h => .inl h) page physicalIdHash
  | logicalVolumeAdd logicalIdHash name size =>
      refine only_volumeAdd (fun _ _ h => .inl h)
        (fun logical hlogical hscratch _ _ => ?_) name size
      exact .inr ⟨logical, hlogical, rfl, hscratch⟩
  | logicalVolumeRemove groupHash volumeHash =>
      exact only_volumeRemove page groupHash volumeHash
  | logicalVolumeSnapshotResize groupHash volumeHash size apply =>
      exact only_snapshotResize (fun _ _ h => .inl h) page groupHash volumeHash size apply

end OpenSan.Storage
