import Mathlib.Algebra.Order.Group.Int
import Mathlib.Tactic.Ring
import Mathlib.Data.List.TakeWhile
import OpenSan.Einarc.AbsentMembers
import OpenSan.Foundation.Action
import OpenSan.Lvm.Names

/-!
# Growing an array

`M.Logical:grow` takes the hotspares that are not selected off the array, tells
mdadm how many devices the array has from now on and puts the hotspares back.
It stops at the first one that it cannot take off, and does not look at the
result of `mdadm --grow`.
-/

namespace OpenSan.Einarc.Growing

open OpenSan.Foundation

/-! ## Commands -/

inductive Command where
  | remove (physical : PhysicalId)
  | grow (raidDevices : Int)
  | zeroSuperblock (physical : PhysicalId)
  | add (physical : PhysicalId)
  deriving DecidableEq

structure State where
  attached : List PhysicalId
  commands : List (Command × Bool)

def effect (attached : List PhysicalId) : Command → List PhysicalId
  | .remove physical => attached.filter (· ≠ physical)
  | .add physical => attached ++ [physical]
  | .grow _ | .zeroSuperblock _ => attached

abbrev Script := Action State Error

def State.issued (s : State) (command : Command) : Nat :=
  (s.commands.map (·.1)).count command

section Script

variable (outcome : Command → Nat → Bool)

/-- `common.system`.  Whether a command succeeds may depend on how often it was
issued before. -/
def system (command : Command) : Script Bool := fun s =>
  let succeeded := outcome command (s.issued command)
  (.ok succeeded,
    ⟨if succeeded then effect s.attached command else s.attached,
      s.commands ++ [(command, succeeded)]⟩)

def attempts (command : Command) : Nat → Script Bool
  | 0 => pure false
  | tries + 1 => do
      let succeeded ← system outcome command
      if succeeded then pure true else attempts command tries

def run (command : Command) : Script Bool := attempts outcome command 4

/-- `M.Logical:detach`, and `M.Logical:hotspare_delete`. -/
def detach (physical : Option PhysicalId) : Script Unit := do
  match physical with
  | none => Action.raise (.assertion "invalid Physical object")
  | some physical => do
      let removed ← run outcome (.remove physical)
      Action.require (removed = true) (.failure "einarc:logical.detach() failed")

def hotspareAdd (physical : Option PhysicalId) : Script Unit := do
  match physical with
  | none => Action.raise (.assertion "invalid Physical object")
  | some physical => do
      let _ ← run outcome (.zeroSuperblock physical)
      let added ← run outcome (.add physical)
      Action.require (added = true) (.failure "einarc:logical.hotspare_add() failed")

end Script

def hotspareRestore (order : Order) (physicals : Table PhysicalId String)
    (drives : List PhysicalId) : List PhysicalId :=
  (order.visit physicals.keys).filter fun id =>
    physicals.lookup id = some "hotspare" ∧ id ∉ drives

def raidDevices (order : Order) (physicals : Table PhysicalId String)
    (drives : List PhysicalId) : Int :=
  physicals.keys.length - (hotspareRestore order physicals drives).length

/-- Take hotspares off, grow the array and put them back; `record` finds their
records in `M.Physical.list()`. -/
def regrow (outcome : Command → Nat → Bool) (restore : List PhysicalId)
    (record : PhysicalId → Option PhysicalId) (raidDevices : Int) : Script Unit := do
  Action.forEach restore fun id => detach outcome (record id)
  let _ ← run outcome (.grow raidDevices)
  Action.forEach restore fun id => hotspareAdd outcome (record id)

def grow (outcome : Command → Nat → Bool) (sysfs : Sysfs) (order : Order)
    (physicals : Table PhysicalId String) (drives : List PhysicalId) : Script Unit := do
  Action.require (drives.length ≠ 0) (.assertion "drives have to be an array")
  Action.forEach drives fun id => do
    Action.require (id ∈ physicals.keys) (.assertion "disk doesn't belong to logical")
    Action.require (physicals.lookup id = some "hotspare") (.assertion "assertion failed!")
  let listed ← Action.lift (sysfs.physicals order)
  regrow outcome (hotspareRestore order physicals drives)
    (fun id => (listed.lookup id).map fun _ => id) (raidDevices order physicals drives)

/-! ## Runs of a command -/

def succeeds (outcome : Command → Nat → Bool) (command : Command) : Bool :=
  (List.range 4).any (outcome command)

def Logged (kind : Command → Prop) (s s' : State) : Prop :=
  ∃ issued, s'.commands = s.commands ++ issued ∧ ∀ entry ∈ issued, kind entry.1

namespace Logged

variable {kind : Command → Prop} {s s' s'' : State}

theorem refl : Logged kind s s := ⟨[], by simp, by simp⟩

theorem trans (h : Logged kind s s') (h' : Logged kind s' s'') : Logged kind s s'' := by
  obtain ⟨issued, hcommands, hkind⟩ := h
  obtain ⟨issued', hcommands', hkind'⟩ := h'
  refine ⟨issued ++ issued', by rw [hcommands', hcommands, List.append_assoc], ?_⟩
  intro entry hentry
  rcases List.mem_append.mp hentry with hin | hin
  · exact hkind entry hin
  · exact hkind' entry hin

theorem mono {kind' : Command → Prop} (h : Logged kind s s')
    (himp : ∀ command, kind command → kind' command) : Logged kind' s s' := by
  obtain ⟨issued, hcommands, hkind⟩ := h
  exact ⟨issued, hcommands, fun entry hentry => himp _ (hkind entry hentry)⟩

theorem issued_eq (h : Logged kind s s') {command : Command} (hnot : ¬ kind command) :
    s'.issued command = s.issued command := by
  obtain ⟨issued, hcommands, hkind⟩ := h
  have hzero : (issued.map (·.1)).count command = 0 := by
    rw [List.count_eq_zero]
    intro hmem
    obtain ⟨entry, hentry, rfl⟩ := List.mem_map.mp hmem
    exact hnot (hkind entry hentry)
  simp [State.issued, hcommands, hzero]

theorem mem_iff (h : Logged kind s s') {entry : Command × Bool} (hnot : ¬ kind entry.1) :
    entry ∈ s'.commands ↔ entry ∈ s.commands := by
  obtain ⟨issued, hcommands, hkind⟩ := h
  rw [hcommands, List.mem_append]
  constructor
  · rintro (hold | hnew)
    · exact hold
    · exact absurd (hkind entry hnew) hnot
  · exact .inl

end Logged

section Run

variable {outcome : Command → Nat → Bool} {command : Command}

theorem attempts_run (outcome : Command → Nat → Bool) (command : Command) (tries : Nat)
    (s : State) :
    let result := (List.range' (s.issued command) tries).any (outcome command)
    ∃ s', attempts outcome command tries s = (.ok result, s') ∧
      s'.attached = (if result then effect s.attached command else s.attached) ∧
      Logged (· = command) s s' ∧
      ((command, true) ∈ s'.commands ↔
        (command, true) ∈ s.commands ∨ result = true) := by
  induction tries generalizing s with
  | zero => exact ⟨s, rfl, rfl, .refl, by simp⟩
  | succ tries ih =>
      by_cases hfirst : outcome command (s.issued command) = true
      · refine ⟨⟨effect s.attached command, s.commands ++ [(command, true)]⟩,
          ?_, ?_, ?_, ?_⟩
        · simp [attempts, system, hfirst, List.range'_succ]
        · simp [List.range'_succ, hfirst]
        · exact ⟨[(command, true)], rfl, by simp⟩
        · simp [List.range'_succ, hfirst]
      · let middle : State := ⟨s.attached, s.commands ++ [(command, false)]⟩
        obtain ⟨s', hrun, hattached, hlogged, hmem⟩ := ih middle
        have hissued : middle.issued command = s.issued command + 1 := by
          simp [middle, State.issued]
        have hany : (List.range' (s.issued command) (tries + 1)).any (outcome command) =
            (List.range' (middle.issued command) tries).any (outcome command) := by
          rw [List.range'_succ, List.any_cons, Bool.eq_false_iff.mpr hfirst, Bool.false_or,
            hissued]
        rw [hany]
        refine ⟨s', ?_, hattached, ?_, ?_⟩
        · rw [← hrun]
          simp [attempts, system, hfirst, middle]
        · exact Logged.trans ⟨[(command, false)], rfl, by simp⟩ hlogged
        · rw [hmem]
          simp [middle]

theorem run_run {s : State} (hnew : s.issued command = 0) :
    ∃ s', run outcome command s = (.ok (succeeds outcome command), s') ∧
      s'.attached = (if succeeds outcome command then effect s.attached command
        else s.attached) ∧
      Logged (· = command) s s' ∧
      ((command, true) ∈ s'.commands ↔
        (command, true) ∈ s.commands ∨ succeeds outcome command = true) := by
  have hspec := attempts_run outcome command 4 s
  rw [hnew, ← List.range_eq_range'] at hspec
  exact hspec

theorem detach_run {physical : PhysicalId} {s : State}
    (hnew : s.issued (.remove physical) = 0) :
    ∃ s', detach outcome (some physical) s =
        (if succeeds outcome (.remove physical) then .ok ()
          else .error (.failure "einarc:logical.detach() failed"), s') ∧
      s'.attached = (if succeeds outcome (.remove physical) then
        effect s.attached (.remove physical) else s.attached) ∧
      Logged (· = .remove physical) s s' := by
  obtain ⟨s', hrun, hattached, hlogged, -⟩ := @run_run outcome _ s hnew
  refine ⟨s', ?_, hattached, hlogged⟩
  simp only [detach, Action.bind_run, hrun]
  by_cases hsucceeds : succeeds outcome (.remove physical) = true
  · simp [hsucceeds, Action.require_of_true]
  · simp [hsucceeds, Action.require_of_false]

theorem hotspareAdd_run {physical : PhysicalId} {s : State}
    (hnew : s.issued (.add physical) = 0) :
    ∃ s', hotspareAdd outcome (some physical) s =
        (if succeeds outcome (.add physical) then .ok ()
          else .error (.failure "einarc:logical.hotspare_add() failed"), s') ∧
      s'.attached = (if succeeds outcome (.add physical) then
        effect s.attached (.add physical) else s.attached) ∧
      Logged (fun command => command = .zeroSuperblock physical ∨
        command = .add physical) s s' := by
  obtain ⟨s₁, hzero, hattached, hlogged, -⟩ :=
    attempts_run outcome (.zeroSuperblock physical) 4 s
  have hattached : s₁.attached = s.attached := by simpa [effect] using hattached
  have hnew₁ : s₁.issued (.add physical) = 0 := by
    rw [hlogged.issued_eq (by simp), hnew]
  obtain ⟨s₂, hadd, hattached₂, hlogged₂, -⟩ := @run_run outcome _ s₁ hnew₁
  rw [hattached] at hattached₂
  refine ⟨s₂, ?_, hattached₂,
    (hlogged.mono fun _ => .inl).trans (hlogged₂.mono fun _ => .inr)⟩
  simp only [hotspareAdd, Action.bind_run, run, hzero]
  rw [run] at hadd
  simp only [hadd]
  by_cases hsucceeds : succeeds outcome (.add physical) = true
  · simp [hsucceeds, Action.require_of_true]
  · simp [hsucceeds, Action.require_of_false]

end Run

/-! ## The two loops -/

section Loops

variable {outcome : Command → Nat → Bool} {record : PhysicalId → Option PhysicalId}
  {restore : List PhysicalId}

def removed (outcome : Command → Nat → Bool) (restore : List PhysicalId) :
    List PhysicalId :=
  restore.takeWhile fun id => succeeds outcome (.remove id)

theorem removed_eq_iff : removed outcome restore = restore ↔
    ∀ id ∈ restore, succeeds outcome (.remove id) = true :=
  List.takeWhile_eq_self_iff

private theorem forEach_run {key : PhysicalId → Command}
    {kind : PhysicalId → Command → Prop} {body : PhysicalId → Script Unit} {e : Error}
    (hapart : ∀ id other, id ≠ other → ¬ kind id (key other))
    (hbody : ∀ id ∈ restore, ∀ s, s.issued (key id) = 0 → ∃ s',
      body id s = (if succeeds outcome (key id) then .ok () else .error e, s') ∧
      s'.attached = (if succeeds outcome (key id) then effect s.attached (key id)
        else s.attached) ∧
      Logged (kind id) s s')
    (hnodup : restore.Nodup) {s : State}
    (hnew : ∀ id ∈ restore, s.issued (key id) = 0) :
    ∃ s', Action.forEach restore body s =
        (if ∀ id ∈ restore, succeeds outcome (key id) = true then .ok ()
          else .error e, s') ∧
      s'.attached = ((restore.takeWhile fun id => succeeds outcome (key id)).map
        key).foldl effect s.attached ∧
      Logged (fun command => ∃ id, kind id command) s s' := by
  induction restore generalizing s with
  | nil => exact ⟨s, by simp [Action.forEach], rfl, .refl⟩
  | cons id restore ih =>
      obtain ⟨hnot, hnodup⟩ := List.nodup_cons.mp hnodup
      obtain ⟨s₁, hrun, hattached, hlogged⟩ :=
        hbody id List.mem_cons_self s (hnew id List.mem_cons_self)
      have hlogged' : Logged (fun command => ∃ id, kind id command) s s₁ :=
        hlogged.mono fun _ hkind => ⟨id, hkind⟩
      by_cases hsucceeds : succeeds outcome (key id) = true
      · simp only [hsucceeds, if_true] at hrun hattached
        have hnew₁ : ∀ other ∈ restore, s₁.issued (key other) = 0 := by
          intro other hother
          have hne : id ≠ other := fun heq => hnot (heq ▸ hother)
          rw [hlogged.issued_eq (hapart id other hne),
            hnew other (List.mem_cons_of_mem id hother)]
        obtain ⟨s₂, hrest, hattached₂, hlogged₂⟩ := ih
          (fun other hother => hbody other (List.mem_cons_of_mem id hother)) hnodup hnew₁
        refine ⟨s₂, ?_, ?_, hlogged'.trans hlogged₂⟩
        · rw [Action.forEach, Action.andThen_ok hrun, hrest]
          simp [hsucceeds]
        · rw [hattached₂, hattached]
          simp [hsucceeds]
      · simp only [hsucceeds] at hrun hattached
        refine ⟨s₁, ?_, ?_, hlogged'⟩
        · rw [Action.forEach, Action.andThen_error hrun]
          simp [hsucceeds]
        · simpa [hsucceeds] using hattached

private theorem foldl_remove (ids attached : List PhysicalId) :
    (ids.map Command.remove).foldl effect attached = attached.filter (· ∉ ids) := by
  induction ids generalizing attached with
  | nil => simp
  | cons id ids ih =>
      simp only [List.map_cons, List.foldl_cons, effect, ih, List.filter_filter]
      congr 1
      funext other
      simp [Bool.and_comm]

theorem detachAll_run (hnodup : restore.Nodup) {s : State}
    (hrecord : ∀ id ∈ restore, record id = some id)
    (hnew : ∀ id ∈ restore, s.issued (.remove id) = 0) :
    ∃ s', Action.forEach restore (fun id => detach outcome (record id)) s =
        (if removed outcome restore = restore then .ok ()
          else .error (.failure "einarc:logical.detach() failed"), s') ∧
      s'.attached = s.attached.filter (· ∉ removed outcome restore) ∧
      Logged (fun command => ∃ id, command = .remove id) s s' := by
  obtain ⟨s', hrun, hattached, hlogged⟩ := @forEach_run outcome restore .remove
    (fun id command => command = .remove id) _ _ (by simp [eq_comm])
    (fun id hid s hs => hrecord id hid ▸ detach_run hs) hnodup s hnew
  rw [foldl_remove] at hattached
  refine ⟨s', ?_, hattached, hlogged⟩
  rw [hrun]
  simp only [removed_eq_iff]

theorem restoreAll_run (hnodup : restore.Nodup) {s : State}
    (hrecord : ∀ id ∈ restore, record id = some id)
    (hnew : ∀ id ∈ restore, s.issued (.add id) = 0) :
    ∃ s', Action.forEach restore (fun id => hotspareAdd outcome (record id)) s =
        (if ∀ id ∈ restore, succeeds outcome (.add id) = true then .ok ()
          else .error (.failure "einarc:logical.hotspare_add() failed"), s') ∧
      Logged (fun command => ∃ id, command = .zeroSuperblock id ∨ command = .add id)
        s s' := by
  obtain ⟨s', hrun, -, hlogged⟩ := @forEach_run outcome restore .add
    (fun id command => command = .zeroSuperblock id ∨ command = .add id) _ _
    (by simp [eq_comm]) (fun id hid s hs => hrecord id hid ▸ hotspareAdd_run hs)
    hnodup s hnew
  exact ⟨s', hrun, hlogged⟩

theorem regrow_stopped (hnodup : restore.Nodup) {s : State} (hcommands : s.commands = [])
    (hrecord : ∀ id ∈ restore, record id = some id) (value : Int)
    (hstopped : removed outcome restore ≠ restore) :
    ∃ s', regrow outcome restore record value s =
        (.error (.failure "einarc:logical.detach() failed"), s') ∧
      s'.attached = s.attached.filter (· ∉ removed outcome restore) ∧
      ∀ other succeeded, (Command.grow other, succeeded) ∉ s'.commands := by
  have hnew : ∀ id ∈ restore, s.issued (.remove id) = 0 := by
    simp [State.issued, hcommands]
  obtain ⟨s', hrun, hattached, hlogged⟩ := @detachAll_run outcome _ _ hnodup s hrecord hnew
  rw [if_neg hstopped] at hrun
  refine ⟨s', ?_, hattached, ?_⟩
  · simp [regrow, hrun]
  · intro other succeeded
    rw [hlogged.mem_iff (by simp), hcommands]
    simp

theorem regrow_finished (hnodup : restore.Nodup) {s : State} (hcommands : s.commands = [])
    (hrecord : ∀ id ∈ restore, record id = some id) {value : Int}
    (hremoved : removed outcome restore = restore) :
    ∃ s', regrow outcome restore record value s =
        (if ∀ id ∈ restore, succeeds outcome (.add id) = true then .ok ()
          else .error (.failure "einarc:logical.hotspare_add() failed"), s') ∧
      ((∃ other, (Command.grow other, true) ∈ s'.commands) ↔
        succeeds outcome (.grow value) = true) ∧
      ∀ other succeeded, (Command.grow other, succeeded) ∈ s'.commands → other = value := by
  have hnew : ∀ command, s.issued command = 0 := by simp [State.issued, hcommands]
  obtain ⟨s₁, hdetach, -, hlogged₁⟩ :=
    @detachAll_run outcome _ _ hnodup s hrecord fun id _ => hnew _
  rw [if_pos hremoved] at hdetach
  have hgrowNew : s₁.issued (.grow value) = 0 := by
    rw [hlogged₁.issued_eq (by simp), hnew]
  obtain ⟨s₂, hgrow, -, hlogged₂, hsucceeded⟩ := @run_run outcome _ s₁ hgrowNew
  have haddNew : ∀ id ∈ restore, s₂.issued (.add id) = 0 := by
    intro id _
    rw [hlogged₂.issued_eq (by simp), hlogged₁.issued_eq (by simp), hnew]
  obtain ⟨s₃, hadd, hlogged₃⟩ := @restoreAll_run outcome _ _ hnodup s₂ hrecord haddNew
  have honly : ∀ other succeeded, (Command.grow other, succeeded) ∈ s₃.commands →
      other = value := by
    intro other succeeded hmem
    rw [hlogged₃.mem_iff (by simp)] at hmem
    by_contra hne
    rw [hlogged₂.mem_iff (by simpa using hne), hlogged₁.mem_iff (by simp), hcommands] at hmem
    cases hmem
  have hnone : (Command.grow value, true) ∉ s₁.commands := by
    rw [hlogged₁.mem_iff (by simp), hcommands]
    simp
  have hlast : (Command.grow value, true) ∈ s₃.commands ↔
      succeeds outcome (.grow value) = true := by
    rw [hlogged₃.mem_iff (by simp), hsucceeded]
    simp [hnone]
  refine ⟨s₃, ?_, ?_, honly⟩
  · simp only [regrow, Action.bind_run, hdetach, hgrow, hadd]
  · rw [← hlast]
    constructor
    · rintro ⟨other, hmem⟩
      exact honly other true hmem ▸ hmem
    · exact fun hmem => ⟨value, hmem⟩

end Loops

/-! ## Members of an array -/

def slaveId : BlockName → PhysicalId
  | .disk name => name.id
  | .partition _ _ | .md _ | .other _ => ⟨0, 0⟩

def members (listed : BlockName → Bool) (id : Nat) (slaves : List Slave)
    (raidDisks : Option Nat) : List (PhysicalId × String) :=
  (slaves.map fun slave => (slaveId slave.name, slaveState listed id slave)) ++
    (missingSlots slaves raidDisks).map fun i => (⟨99, i⟩, "failed")

theorem physicalList_eq {listed : BlockName → Bool} {id : Nat} {slaves : List Slave}
    {raidDisks : Option Nat} (h : AllListed listed slaves) :
    physicalList listed id slaves raidDisks =
      .ok ((members listed id slaves raidDisks).foldl
        (fun table pair => table.insert pair.1 pair.2) ∅) := by
  have hloop : ∀ table : Table PhysicalId String,
      slaves.foldlM (attachSlave listed id) table =
        .ok ((slaves.map fun slave => (slaveId slave.name, slaveState listed id slave)).foldl
          (fun table pair => table.insert pair.1 pair.2) table) := by
    induction slaves with
    | nil => exact fun table => rfl
    | cons slave slaves ih =>
        intro table
        obtain ⟨hlisted, name, hname⟩ := h slave List.mem_cons_self
        have hround : attachSlave listed id table slave =
            .ok (table.insert name.id (slaveState listed id slave)) := by
          unfold attachSlave
          rw [if_pos hlisted, hname]
          rfl
        have hrest := ih fun other hother => h other (List.mem_cons_of_mem slave hother)
        rw [List.foldlM_cons, hround, ok_bind, hrest, List.map_cons, List.foldl_cons, hname]
        rfl
  rw [physicalList, hloop, members, List.foldl_append, ok_bind, List.foldl_map,
    List.foldl_map]
  rfl

section Members

variable {sysfs : Sysfs} {order : Order} {array : MdArray}
  {physicals : Table PhysicalId String} {drives : List PhysicalId}

theorem allListed_of_physicalList
    (h : physicalList sysfs.listed array.id array.slaves array.raidDisks = .ok physicals) :
    AllListed sysfs.listed array.slaves := by
  intro slave hslave
  obtain ⟨hlisted, drive, hdrive⟩ := listed_of_physicalList h slave hslave
  exact ⟨hlisted, Sysfs.listed_disk hlisted hdrive⟩

theorem hotspare_slave
    (h : physicalList sysfs.listed array.id array.slaves array.raidDisks = .ok physicals)
    {id : PhysicalId} (hspare : physicals.lookup id = some "hotspare") :
    ∃ slave ∈ array.slaves, id = slaveId slave.name ∧
      slaveState sysfs.listed array.id slave = "hotspare" := by
  rw [physicalList_eq (allListed_of_physicalList h)] at h
  obtain rfl := Except.ok.inj h
  rcases lookup_foldl_insert _ _ hspare with hempty | hmember
  · cases hempty
  · rcases List.mem_append.mp hmember with hslave | hslot
    · obtain ⟨slave, hslave, heq⟩ := List.mem_map.mp hslave
      exact ⟨slave, hslave, (congrArg Prod.fst heq).symm, congrArg Prod.snd heq⟩
    · obtain ⟨slot, -, heq⟩ := List.mem_map.mp hslot
      exact absurd (congrArg Prod.snd heq) (by simp)

theorem hotspare_listed
    (h : physicalList sysfs.listed array.id array.slaves array.raidDisks = .ok physicals)
    {id : PhysicalId} (hspare : physicals.lookup id = some "hotspare") :
    ∃ disk, sysfs.listed (.disk disk) = true ∧ id = disk.id := by
  obtain ⟨slave, hslave, rfl, -⟩ := hotspare_slave h hspare
  obtain ⟨hlisted, disk, hname⟩ := allListed_of_physicalList h slave hslave
  rw [hname] at hlisted ⊢
  exact ⟨disk, hlisted, rfl⟩

theorem mem_hotspareRestore {id : PhysicalId} :
    id ∈ hotspareRestore order physicals drives ↔
      physicals.lookup id = some "hotspare" ∧ id ∉ drives := by
  simp only [hotspareRestore, List.mem_filter, order.mem_visit, decide_eq_true_eq,
    and_iff_right_iff_imp]
  rintro ⟨hspare, -⟩
  rw [← AList.mem_keys, ← AList.lookup_isSome, hspare]
  rfl

theorem hotspareRestore_nodup : (hotspareRestore order physicals drives).Nodup :=
  ((order.perm _).nodup_iff.mpr physicals.keys_nodup).filter _

theorem hotspare_recorded
    (h : physicalList sysfs.listed array.id array.slaves array.raidDisks = .ok physicals)
    {listed : Table PhysicalId Sysfs.Physical} (hlisted : sysfs.physicals order = .ok listed) :
    ∀ id ∈ hotspareRestore order physicals drives,
      ((listed.lookup id).map fun _ => id) = some id := by
  intro id hid
  obtain ⟨disk, hdisk, rfl⟩ := hotspare_listed h (mem_hotspareRestore.mp hid).1
  obtain ⟨hmembers, hlegible⟩ := Sysfs.listed_of_physicals hlisted
  obtain ⟨table, hrun, hkeys, -⟩ := Sysfs.physicals_ok order hmembers hlegible
  obtain rfl := Except.ok.inj (hlisted.symm.trans hrun)
  have hsome : (listed.lookup disk.id).isSome = true := by
    rw [AList.lookup_isSome, AList.mem_keys, hkeys]
    exact ⟨disk, hdisk, rfl⟩
  obtain ⟨record, hrecord⟩ := Option.isSome_iff_exists.mp hsome
  rw [hrecord]
  rfl

theorem grow_eq (outcome : Command → Nat → Bool) (hdrives : drives ≠ [])
    (hspares : ∀ id ∈ drives, physicals.lookup id = some "hotspare") :
    grow outcome sysfs order physicals drives = (do
      let listed ← Action.lift (sysfs.physicals order)
      regrow outcome (hotspareRestore order physicals drives)
        (fun id => (listed.lookup id).map fun _ => id)
        (raidDevices order physicals drives)) := by
  have hlength : drives.length ≠ 0 := by simpa using hdrives
  have hchecks : Action.forEach drives (fun id => do
      Action.require (id ∈ physicals.keys) (.assertion "disk doesn't belong to logical")
      Action.require (physicals.lookup id = some "hotspare")
        (.assertion "assertion failed!")) = (Action.ret () : Script Unit) := by
    apply Action.forEach_of_quiet
    intro id hid
    have hkey : id ∈ physicals.keys := by
      rw [← AList.mem_keys, ← AList.lookup_isSome, hspares id hid]
      rfl
    rw [Action.require_of_true hkey, Action.require_of_true (hspares id hid)]
    rfl
  unfold grow
  rw [Action.require_of_true hlength, hchecks]
  rfl

end Members

/-! ## Hotspares that are kept -/

/-- What is left behind if growing returns: the array has been grown; and if it
raises for another reason than a hotspare that cannot be put back: the
hotspares `restore` are on the array. -/
def Kept (restore : List PhysicalId) (after : Except Error Unit × State) : Prop :=
  (after.1 = .ok () → ∃ value, (Command.grow value, true) ∈ after.2.commands) ∧
    ∀ e, after.1 = .error e →
      e ≠ .failure "einarc:logical.hotspare_add() failed" →
      ∀ id ∈ restore, id ∈ after.2.attached

/-- The first hotspare stays on, or all come off and the array is grown, unless
one of them cannot be put back. -/
def RegrowthSafe (outcome : Command → Nat → Bool) (restore : List PhysicalId)
    (raidDevices : Int) : Prop :=
  (∃ first ∈ restore.head?, succeeds outcome (.remove first) = false) ∨
    ((∀ id ∈ restore, succeeds outcome (.remove id) = true) ∧
      (succeeds outcome (.grow raidDevices) = true ∨
        ∃ id ∈ restore, succeeds outcome (.add id) = false))

section Kept

variable {outcome : Command → Nat → Bool} {record : PhysicalId → Option PhysicalId}
  {restore : List PhysicalId} {value : Int} {s : State}

theorem removed_eq_nil (h : removed outcome restore ≠ restore) :
    removed outcome restore = [] ↔
      ∃ first ∈ restore.head?, succeeds outcome (.remove first) = false := by
  cases restore with
  | nil => exact absurd rfl h
  | cons first restore =>
      by_cases hfirst : succeeds outcome (.remove first) = true
      · simp [removed, hfirst]
      · simp [removed, hfirst]

theorem regrow_kept_iff (hnodup : restore.Nodup)
    (hrecord : ∀ id ∈ restore, record id = some id)
    (hattached : ∀ id ∈ restore, id ∈ s.attached) (hcommands : s.commands = []) :
    Kept restore (regrow outcome restore record value s) ↔
      RegrowthSafe outcome restore value := by
  by_cases hremoved : removed outcome restore = restore
  · have hall := removed_eq_iff.mp hremoved
    have hfirst : ¬ ∃ first ∈ restore.head?, succeeds outcome (.remove first) = false := by
      rintro ⟨first, hfirst, hfails⟩
      rw [hall first (List.mem_of_mem_head? hfirst)] at hfails
      cases hfails
    obtain ⟨s', hrun, hgrown, -⟩ := regrow_finished hnodup hcommands hrecord hremoved
    rw [hrun, RegrowthSafe, or_iff_right hfirst, and_iff_right hall, ← hgrown]
    by_cases hadds : ∀ id ∈ restore, succeeds outcome (.add id) = true
    · have hnone : ¬ ∃ id ∈ restore, succeeds outcome (.add id) = false := by
        rintro ⟨id, hid, hfails⟩
        rw [hadds id hid] at hfails
        cases hfails
      rw [if_pos hadds, or_iff_left hnone]
      simp [Kept]
    · have hsome : ∃ id ∈ restore, succeeds outcome (.add id) = false := by
        simpa using hadds
      rw [if_neg hadds]
      simp [Kept, hsome]
  · have hall : ¬ ∀ id ∈ restore, succeeds outcome (.remove id) = true :=
      fun h => hremoved (removed_eq_iff.mpr h)
    obtain ⟨s', hrun, hleft, -⟩ :=
      regrow_stopped hnodup hcommands hrecord value hremoved
    rw [hrun, RegrowthSafe, or_iff_left fun h => hall h.1, ← removed_eq_nil hremoved]
    constructor
    · rintro ⟨-, hkept⟩
      have hon := hkept _ rfl (by simp)
      refine List.eq_nil_iff_forall_not_mem.mpr fun id hid => ?_
      have hin : id ∈ s'.attached :=
        hon id ((List.takeWhile_prefix _).subset hid)
      rw [hleft, List.mem_filter] at hin
      simpa [hid] using hin.2
    · intro hnil
      refine ⟨fun h => ?_, fun e _ _ id hid => ?_⟩
      · cases h
      · rw [hleft, hnil]
        simpa using hattached id hid

end Kept

theorem grow_kept_iff {sysfs : Sysfs} {order : Order} {array : MdArray}
    {physicals : Table PhysicalId String} {drives : List PhysicalId}
    {outcome : Command → Nat → Bool} {s : State}
    (hphysicals : physicalList sysfs.listed array.id array.slaves array.raidDisks =
      .ok physicals)
    (hdrives : drives ≠ [])
    (hspares : ∀ id ∈ drives, physicals.lookup id = some "hotspare")
    (hattached : ∀ id, physicals.lookup id = some "hotspare" → id ∈ s.attached)
    (hcommands : s.commands = []) :
    Kept (hotspareRestore order physicals drives)
        (grow outcome sysfs order physicals drives s) ↔
      (∀ listed, sysfs.physicals order ≠ .ok listed) ∨
        RegrowthSafe outcome (hotspareRestore order physicals drives)
          (raidDevices order physicals drives) := by
  have hkept : ∀ id ∈ hotspareRestore order physicals drives, id ∈ s.attached :=
    fun id hid => hattached id (mem_hotspareRestore.mp hid).1
  rw [grow_eq outcome hdrives hspares]
  cases hlisted : sysfs.physicals order with
  | error e =>
      refine iff_of_true ⟨fun h => ?_, fun _ _ _ => hkept⟩ (.inl fun listed h => ?_)
      · cases h
      · cases h
  | ok listed =>
      have hreturns : ¬ ∀ other, Except.ok listed ≠ (.ok other : Except Error _) :=
        fun h => h listed rfl
      rw [or_iff_right hreturns]
      exact regrow_kept_iff hotspareRestore_nodup (hotspare_recorded hphysicals hlisted)
        hkept hcommands

def mirrorOf (slaves : List Slave) : MdArray where
  id := 0
  slaves := slaves
  arrayState := some "clean"
  level := some "raid1"
  raidDisks := some 2
  degraded := some "0"
  syncAction := some "idle"
  syncCompleted := some "none"
  size := 1000

def systemOf (slaves : List Slave) : Sysfs where
  disks := ((((∅ : Table DiskName Nat).insert sdb 1000).insert sdc 1000).insert sdd
    1000).insert sde 1000
  files := fun _ => .sample
  arrays := [mirrorOf slaves]
  ids_nodup := List.nodup_singleton _
  caches := []

def threeSlaves : List Slave :=
  [⟨.disk sdb, some "in_sync"⟩, ⟨.disk sdc, some "in_sync"⟩, ⟨.disk sdd, some "spare"⟩]

def threeMembers : Table PhysicalId String :=
  (((∅ : Table PhysicalId String).insert sdb.id "0").insert sdc.id "0").insert sdd.id
    "hotspare"

def threeAttached : State := ⟨[sdb.id, sdc.id, sdd.id], []⟩

def fourSlaves : List Slave := threeSlaves ++ [⟨.disk sde, some "spare"⟩]

def fourMembers : Table PhysicalId String := threeMembers.insert sde.id "hotspare"

def fourAttached : State := ⟨[sdb.id, sdc.id, sdd.id, sde.id], []⟩

/-- The hotspare `sde` is taken off and put back. -/
theorem fourMembers_kept :
    physicalList (systemOf fourSlaves).listed 0 fourSlaves (some 2) = .ok fourMembers ∧
      hotspareRestore Order.plain fourMembers [sdd.id] = [sde.id] ∧
      Kept (hotspareRestore Order.plain fourMembers [sdd.id])
        (grow (fun _ _ => true) (systemOf fourSlaves) Order.plain fourMembers [sdd.id]
          fourAttached) := by
  have hphysicals : physicalList (systemOf fourSlaves).listed (mirrorOf fourSlaves).id
      (mirrorOf fourSlaves).slaves (mirrorOf fourSlaves).raidDisks = .ok fourMembers := rfl
  refine ⟨hphysicals, by decide +kernel,
    (grow_kept_iff hphysicals (by simp) ?_ ?_ rfl).mpr (.inr ?_)⟩
  · decide +kernel
  · intro id hspare
    have hkey : id ∈ fourMembers.keys := by
      rw [← AList.mem_keys, ← AList.lookup_isSome, hspare]
      rfl
    have hkeys : ∀ id ∈ fourMembers.keys, id ∈ fourAttached.attached := by
      decide +kernel
    exact hkeys id hkey
  · exact .inr ⟨fun id _ => rfl, .inl rfl⟩

/-- The result of `mdadm --grow` is not looked at. -/
theorem threeMembers_not_kept :
    ¬ Kept (hotspareRestore Order.plain threeMembers [sdd.id])
      (grow (fun _ _ => false) (systemOf threeSlaves) Order.plain threeMembers [sdd.id]
        threeAttached) := by
  rintro ⟨hgrown, -⟩
  obtain ⟨value, hmem⟩ := hgrown (by decide +kernel)
  have hcommands : (grow (fun _ _ => false) (systemOf threeSlaves) Order.plain threeMembers
      [sdd.id] threeAttached).2.commands = List.replicate 4 (.grow 3, false) := by
    decide +kernel
  rw [hcommands] at hmem
  simp at hmem

/-! ## The number of devices -/

section Count

variable {sysfs : Sysfs} {order : Order} {array : MdArray}
  {physicals : Table PhysicalId String} {drives : List PhysicalId}

theorem raidDevices_eq (hnodup : drives.Nodup)
    (hspares : ∀ id ∈ drives, physicals.lookup id = some "hotspare") :
    raidDevices order physicals drives =
      (physicals.keys.countP fun id => physicals.lookup id ≠ some "hotspare") +
        drives.length := by
  let spare (id : PhysicalId) : Bool := physicals.lookup id = some "hotspare"
  have hsplit : physicals.keys.length = (physicals.keys.filter spare).length +
      physicals.keys.countP fun id => physicals.lookup id ≠ some "hotspare" := by
    rw [List.length_eq_countP_add_countP spare, List.countP_eq_length_filter]
    congr 2
    funext id
    simp [spare]
  have hselected : ((physicals.keys.filter spare).filter (· ∈ drives)).Perm drives := by
    rw [List.perm_ext_iff_of_nodup ((physicals.keys_nodup.filter _).filter _) hnodup]
    intro id
    simp only [List.mem_filter, decide_eq_true_eq, and_iff_right_iff_imp, spare]
    intro hid
    refine ⟨?_, hspares id hid⟩
    rw [← AList.mem_keys, ← AList.lookup_isSome, hspares id hid]
    rfl
  have hrestore : ((physicals.keys.filter spare).filter (· ∉ drives)).Perm
      (hotspareRestore order physicals drives) := by
    rw [List.perm_ext_iff_of_nodup ((physicals.keys_nodup.filter _).filter _)
      hotspareRestore_nodup]
    intro id
    simp only [hotspareRestore, List.mem_filter, order.mem_visit, decide_eq_true_eq,
      spare, and_assoc]
  have hlength : (physicals.keys.filter spare).length =
      drives.length + (hotspareRestore order physicals drives).length := by
    rw [← hselected.length_eq, ← hrestore.length_eq,
      List.length_eq_countP_add_countP (· ∈ drives), List.countP_eq_length_filter,
      List.countP_eq_length_filter]
    simp
  rw [raidDevices, hsplit, hlength]
  push_cast
  ring

theorem slaveId_injective {slaves : List Slave} (hall : AllListed sysfs.listed slaves)
    (hnodup : (slaves.map (·.name)).Nodup) :
    (slaves.map fun slave => slaveId slave.name).Nodup := by
  refine List.Nodup.map_on (fun slave hslave other hother heq => ?_) hnodup.of_map
  obtain ⟨-, disk, hdisk⟩ := hall slave hslave
  obtain ⟨-, disk', hdisk'⟩ := hall other hother
  rw [hdisk, hdisk'] at heq
  refine List.inj_on_of_nodup_map hnodup hslave hother ?_
  rw [hdisk, hdisk', DiskName.id_injective heq]

theorem members_nodup {slaves : List Slave} (hall : AllListed sysfs.listed slaves)
    (hnodup : (slaves.map (·.name)).Nodup) (id : Nat) (raidDisks : Option Nat) :
    ((members sysfs.listed id slaves raidDisks).map (·.1)).Nodup := by
  rw [members, List.map_append, List.map_map, List.map_map, List.nodup_append]
  refine ⟨slaveId_injective hall hnodup, ?_, ?_⟩
  · refine List.Nodup.map (fun slot slot' heq => ?_) List.nodup_range'
    exact congrArg PhysicalId.right heq
  · rintro member hmember slot hslot rfl
    obtain ⟨slave, hslave, rfl⟩ := List.mem_map.mp hmember
    obtain ⟨i, -, heq⟩ := List.mem_map.mp hslot
    obtain ⟨-, disk, hdisk⟩ := hall slave hslave
    rw [Function.comp_apply, Function.comp_apply, hdisk] at heq
    have hleft : 99 = 0 := congrArg PhysicalId.left heq
    cases hleft

theorem slaveState_eq_hotspare (listed : BlockName → Bool) (id : Nat) (slave : Slave) :
    slaveState listed id slave = "hotspare" ↔ slave.state = some "spare" := by
  have hnumber : toString id ≠ "hotspare" := by
    intro heq
    have hmem : 'h' ∈ (toString id).toList := by
      rw [heq]
      decide
    have hdigit := Pattern.isDigit_toString hmem
    revert hdigit
    decide
  unfold slaveState
  split
  · rename_i hsync
    rw [hsync.1]
    exact iff_of_false hnumber (by simp)
  · split
    · rename_i hspare
      simp [hspare]
    · rename_i hspare
      simp [hspare]

theorem others_count
    (h : physicalList sysfs.listed array.id array.slaves array.raidDisks = .ok physicals)
    (hnodup : (array.slaves.map (·.name)).Nodup) :
    (physicals.keys.countP fun id => physicals.lookup id ≠ some "hotspare") =
      (array.slaves.countP fun slave => slave.state ≠ some "spare") +
        (missingSlots array.slaves array.raidDisks).length := by
  have hall := allListed_of_physicalList h
  have hkeys := members_nodup hall hnodup array.id array.raidDisks
  rw [physicalList_eq hall] at h
  obtain rfl := Except.ok.inj h
  rw [(keys_foldl_insert_perm hkeys).countP_eq, List.countP_map]
  rw [List.countP_congr (q := fun pair : PhysicalId × String => pair.2 ≠ "hotspare") ?_]
  · rw [members, List.countP_append, List.countP_map, List.countP_map]
    congr 1
    · refine List.countP_congr fun slave _ => ?_
      simp [slaveState_eq_hotspare]
    · simp [List.countP_eq_length]
  · intro pair hpair
    simp [lookup_foldl_insert_mem hkeys hpair]

theorem grow_value {outcome : Command → Nat → Bool} {s : State}
    (hphysicals : physicalList sysfs.listed array.id array.slaves array.raidDisks =
      .ok physicals)
    (hdrives : drives ≠ [])
    (hspares : ∀ id ∈ drives, physicals.lookup id = some "hotspare")
    (hcommands : s.commands = []) {value : Int} {succeeded : Bool}
    (hissued : (.grow value, succeeded) ∈
      (grow outcome sysfs order physicals drives s).2.commands) :
    value = raidDevices order physicals drives := by
  rw [grow_eq outcome hdrives hspares] at hissued
  cases hlisted : sysfs.physicals order with
  | error e =>
      rw [hlisted] at hissued
      change (Command.grow value, succeeded) ∈ s.commands at hissued
      rw [hcommands] at hissued
      cases hissued
  | ok listed =>
      rw [hlisted] at hissued
      change (Command.grow value, succeeded) ∈ (regrow outcome _ _ _ s).2.commands at hissued
      have hnodup := @hotspareRestore_nodup order physicals drives
      have hrecord := @hotspare_recorded _ order _ _ drives hphysicals _ hlisted
      by_cases hremoved : removed outcome (hotspareRestore order physicals drives) =
          hotspareRestore order physicals drives
      · obtain ⟨s', hrun, -, honly⟩ := regrow_finished hnodup hcommands hrecord hremoved
        rw [hrun] at hissued
        exact honly value succeeded hissued
      · obtain ⟨s', hrun, -, hnone⟩ := regrow_stopped hnodup hcommands hrecord
          (raidDevices order physicals drives) hremoved
        rw [hrun] at hissued
        exact absurd hissued (hnone value succeeded)

theorem grow_value_iff {outcome : Command → Nat → Bool} {s : State}
    (hphysicals : physicalList sysfs.listed array.id array.slaves array.raidDisks =
      .ok physicals)
    (hnodup : (array.slaves.map (·.name)).Nodup) {r : Nat}
    (hraidDisks : array.raidDisks = some r) (hdrives : drives ≠ [])
    (hdistinct : drives.Nodup)
    (hspares : ∀ id ∈ drives, physicals.lookup id = some "hotspare")
    (hcommands : s.commands = []) {value : Int} {succeeded : Bool}
    (hissued : (.grow value, succeeded) ∈
      (grow outcome sysfs order physicals drives s).2.commands) :
    value = r + drives.length ↔
      (array.slaves.countP fun slave => slave.state ≠ some "spare") = r := by
  rw [grow_value hphysicals hdrives hspares hcommands hissued,
    raidDevices_eq hdistinct hspares, others_count hphysicals hnodup]
  obtain ⟨id, hid⟩ := List.exists_mem_of_ne_nil drives hdrives
  obtain ⟨slave, hslave, -, hstate⟩ := hotspare_slave hphysicals (hspares id hid)
  have hspare := (slaveState_eq_hotspare _ _ _).mp hstate
  have hfewer : (array.slaves.countP fun slave => slave.state ≠ some "spare") <
      array.slaves.length := by
    refine lt_of_le_of_ne List.countP_le_length fun heq => ?_
    have hall := List.countP_eq_length.mp heq slave hslave
    simp [hspare] at hall
  have hslots : (missingSlots array.slaves array.raidDisks).length =
      r - array.slaves.length := by
    simp [missingSlots, hraidDisks]
  rw [hslots]
  omega

end Count

theorem threeMembers_value : ∃ value succeeded, (Command.grow value, succeeded) ∈
    (grow (fun _ _ => true) (systemOf threeSlaves) Order.plain threeMembers [sdd.id]
      threeAttached).2.commands ∧ value = 3 := by
  have hphysicals : physicalList (systemOf threeSlaves).listed (mirrorOf threeSlaves).id
      (mirrorOf threeSlaves).slaves (mirrorOf threeSlaves).raidDisks = .ok threeMembers := rfl
  have hissued : (Command.grow 3, true) ∈ (grow (fun _ _ => true) (systemOf threeSlaves)
      Order.plain threeMembers [sdd.id] threeAttached).2.commands := by
    decide +kernel
  refine ⟨3, true, hissued, ?_⟩
  exact (grow_value_iff hphysicals (by decide +kernel) rfl (by simp) (by simp)
    (by decide +kernel) rfl hissued).mpr (by decide +kernel)

def twoSlaves : List Slave :=
  [⟨.disk sdb, some "in_sync"⟩, ⟨.disk sdd, some "spare"⟩]

def twoMembers : Table PhysicalId String :=
  ((∅ : Table PhysicalId String).insert sdb.id "0").insert sdd.id "hotspare"

/-- The array is told to have the two devices that it has already. -/
theorem twoMembers_not_grown :
    physicalList (systemOf twoSlaves).listed 0 twoSlaves (some 2) = .ok twoMembers ∧
      ¬ ∀ value succeeded, (Command.grow value, succeeded) ∈
        (grow (fun _ _ => true) (systemOf twoSlaves) Order.plain twoMembers [sdd.id]
          ⟨[sdb.id, sdd.id], []⟩).2.commands → value = 2 + 1 := by
  refine ⟨rfl, fun hall => ?_⟩
  have hvalue := hall 2 true (by decide +kernel)
  omega

end OpenSan.Einarc.Growing
