import OpenSan.Controller.Writes
import OpenSan.Foundation.Run

/-!
# Running targets and the store

SCST keeps serving what the last `scstadmin -config` told it.  `Daemon.apply`
returns before that command when nothing is exported, so the two agree after a
call exactly when something is exported or nothing was served before.
-/

namespace OpenSan.Controller

open OpenSan.Foundation
open OpenSan.Scst
open OpenSan.Scst.AccessPattern (withoutName)

/-! ## One call -/

/-- After the call SCST serves the targets of the configuration of the store. -/
def Agrees (call : Applied) : Prop :=
  call.described.map Configuration.targets = .ok call.served

instance (call : Applied) : Decidable (Agrees call) :=
  inferInstanceAs (Decidable (_ = _))

theorem describe_of_nil {host : Host} {patterns : List AccessPattern}
    (credentials : List AuthCredential)
    (h : Configuration.enabledPatterns host patterns = []) :
    Configuration.describe host patterns credentials = .ok ⟨[], []⟩ := by
  unfold Configuration.describe
  rw [h]

/-- The text is empty exactly when nothing is exported. -/
theorem render_eq_empty_iff {host : Host} {patterns : List AccessPattern}
    {credentials : List AuthCredential} {configuration : Configuration}
    (h : Configuration.describe host patterns credentials = .ok configuration) :
    configuration.render = "" ↔
      Configuration.enabledPatterns host patterns = [] := by
  constructor
  · intro hempty
    cases hitems : Configuration.enabledPatterns host patterns with
    | nil => rfl
    | cons first rest =>
        unfold Configuration.describe at h
        rw [hitems] at h
        simp only at h
        split at h
        · cases h
        split at h
        · cases h
        cases h
        simp [Configuration.render, Configuration.describeDevices] at hempty
  · intro hnil
    rw [describe_of_nil credentials hnil] at h
    cases h
    rfl

theorem record_agrees_iff (host : Host) (world : World)
    (hreturned : (Daemon.record host world).result = .ok ()) :
    Agrees (Daemon.record host world) ↔
      ((Daemon.record host world).exports ≠ [] ∨
        (Daemon.record host world).servedBefore = []) := by
  rcases Daemon.applyBody_cases host world with
    ⟨e, hrun⟩ | ⟨configuration, hdescribe, hcase⟩
  · have hresult : (Daemon.applyBody host world).1 = .ok () := hreturned
    rw [hrun] at hresult
    cases hresult
  have hempty := render_eq_empty_iff hdescribe
  simp only [Agrees, Daemon.record, hdescribe]
  rcases hcase with ⟨hrender, hrun⟩ | ⟨hrender, hrun⟩
  · -- nothing is exported, so SCST goes on serving what it served
    have hnil := hempty.mp hrender
    have htargets : configuration.targets = [] := by
      rw [describe_of_nil _ hnil] at hdescribe
      cases hdescribe
      rfl
    rw [hrun]
    simp [Except.map, htargets, hnil, eq_comm]
  · have hnonempty : Configuration.enabledPatterns host world.patterns ≠ [] :=
      fun hnil => hrender (hempty.mpr hnil)
    rw [hrun]
    simp [Except.map, hnonempty]

/-! ## All runs -/

def Genuine (world : World) : Prop :=
  ∀ call ∈ world.applied, ∃ host before, call = Daemon.record host before

def KeepsGenuine (before after : World) : Prop :=
  Genuine before → Genuine after

theorem KeepsGenuine.respects : Respects KeepsGenuine where
  refl := fun _ h => h
  trans := fun _ _ _ hab hbc h => hbc (hab h)
  credentials := fun _ _ h => h
  patterns := fun _ _ h => h
  detach := fun _ _ h => h
  apply := by
    intro host world h call hcall
    rcases List.mem_append.mp hcall with hold | hnew
    · exact h call hold
    · exact ⟨host, world, List.mem_singleton.mp hnew⟩

theorem run_genuine (inputs : List (Host × Event)) :
    Genuine (run step World.empty inputs) := by
  refine run_invariant ?_ ?_ inputs
  · intro world input h
    exact KeepsGenuine.respects.serve input.1 input.2 world h
  · intro call hcall
    cases hcall

/-- In a run whose calls of `Daemon.apply` all return, what SCST serves after a
call is the configuration of the store exactly when the store exports something
or nothing was served before the call. -/
theorem applied_agrees_iff (inputs : List (Host × Event))
    (hreturned : ∀ call ∈ (run step World.empty inputs).applied,
      call.result = .ok ()) :
    ∀ call ∈ (run step World.empty inputs).applied,
      Agrees call ↔ (call.exports ≠ [] ∨ call.servedBefore = []) := by
  intro call hcall
  obtain ⟨host, before, rfl⟩ := run_genuine inputs call hcall
  exact record_agrees_iff host before (hreturned _ hcall)

def oneExport : List (Host × Event) :=
  [(Host.quiet, .pattern (.new
      ⟨some "boot", some "iscsi", some 0, some "1", none, none⟩)),
    (Host.quiet, .pattern (.bind (sampleHash "cfg0")
      (some "/dev/vg12/root")))]

theorem oneExport_agrees :
    (∀ call ∈ (run step World.empty oneExport).applied,
      call.result = .ok ()) ∧
    ∀ call ∈ (run step World.empty oneExport).applied,
      Agrees call ↔ (call.exports ≠ [] ∨ call.servedBefore = []) := by
  have hreturned : ∀ call ∈ (run step World.empty oneExport).applied,
      call.result = .ok () := by
    decide +kernel
  exact ⟨hreturned, applied_agrees_iff oneExport hreturned⟩

/-- Unbinding the last pattern without an open session leaves its target
running, although every call of `Daemon.apply` returns. -/
theorem unbind_leaves_target :
    (∀ call ∈ (run step World.empty
      (oneExport ++ [(Host.quiet, .pattern (.unbind (sampleHash "cfg0")))])).applied,
        call.result = .ok ()) ∧
    ∃ call ∈ (run step World.empty
      (oneExport ++ [(Host.quiet, .pattern (.unbind (sampleHash "cfg0")))])).applied,
        ¬ Agrees call := by
  decide +kernel

/-! ## The factory reset -/

theorem savedPatterns_withoutName (host : Host) {self : AccessPattern.Attrs}
    {name : String} (hname : self.name = some name)
    (patterns : List AccessPattern) :
    withoutName (some name) (AccessPattern.savedPatterns host self patterns) =
      withoutName (some name) patterns := by
  have hkept : withoutName (some name) (AccessPattern.kept self patterns) =
      withoutName (some name) patterns := by
    cases hsection : self.sectionName.isSome <;>
      simp [AccessPattern.kept, hsection, hname, withoutName]
  unfold AccessPattern.savedPatterns
  cases hnew : AccessPattern.new { self with sectionName := none } with
  | error e => exact hkept
  | ok record =>
      obtain ⟨hrecord, -⟩ := AccessPattern.new_eq_ok hnew
      have heq : record.name = name := Option.some.inj (hrecord.symm.trans hname)
      simpa [withoutName, AccessPattern.stored, heq] using hkept

theorem unbind_withoutName (host : Host) (pattern : AccessPattern)
    (world : World) :
    withoutName (some pattern.name) (pattern.unbind host world).2.patterns =
      withoutName (some pattern.name) world.patterns := by
  cases hsessions : pattern.sessions host with
  | error e => simp [AccessPattern.unbind, hsessions]
  | ok targets =>
      have hunbind : (pattern.unbind host world).2 =
          (AccessPattern.save host { pattern.toAttrs with filename := some "" }
            { world with served := world.served.filter fun other =>
              other.name ∉ targets }).2 := by
        simp only [AccessPattern.unbind, Action.bind_run, Action.lift_run,
          hsessions, AccessPattern.forEach_detach_run]
        exact Action.final_thenPure (Q := fun after => after = _) rfl
      have hname : ({ pattern.toAttrs with filename := some "" } :
          AccessPattern.Attrs).name = some pattern.name := rfl
      rw [hunbind, AccessPattern.save_state]
      exact savedPatterns_withoutName host hname world.patterns

theorem forEach_clear {host : Host} {items : List AccessPattern}
    {world after : World}
    (h : (Action.forEach items fun pattern => do
      pattern.unbind host
      pattern.delete) world = (.ok (), after)) :
    after.patterns = world.patterns.filter fun other =>
      other.name ∉ items.map AccessPattern.name := by
  induction items generalizing world with
  | nil =>
      cases h
      simp
  | cons pattern items ih =>
      have hgone := unbind_withoutName host pattern world
      rcases hunbind : pattern.unbind host world with ⟨e | _, between⟩
      · simp [Action.forEach, Action.andThen, hunbind] at h
      · rw [hunbind] at hgone
        have hnext : (Action.forEach items fun pattern => do
            pattern.unbind host
            pattern.delete) { between with
              patterns := withoutName (some pattern.name) between.patterns } =
            (.ok (), after) := by
          simpa [Action.forEach, Action.andThen, hunbind, AccessPattern.delete,
            AccessPattern.deleteByName] using h
        rw [ih hnext, hgone, withoutName, List.filter_filter]
        apply List.filter_congr
        intro other _
        by_cases hname : other.name = pattern.name <;> simp [hname]

theorem clearingPass_patterns {host : Host} {world after : World}
    (h : clearingPass host world = (.ok (), after)) : after.patterns = [] := by
  rw [forEach_clear h, List.filter_eq_nil_iff]
  intro other hother
  simpa using ⟨other, hother, rfl⟩

theorem clearingLoop_fuel (host : Host) (fuel : Nat) (world : World) :
    clearingLoop host (fuel + 1) world = clearingLoop host 1 world := by
  simp only [clearingLoop, Action.bind_run, AccessPattern.list, Action.read_run]
  split
  · rfl
  · rcases hpass : clearingPass host world with ⟨e | _, after⟩
    · simp only [Action.bind_run, hpass]
    · have hempty := clearingPass_patterns hpass
      simp only [Action.bind_run, hpass]
      cases fuel with
      | zero => rfl
      | succ fuel =>
          simp [clearingLoop, AccessPattern.list, hempty]

end OpenSan.Controller
