import OpenSan.Foundation.Action
import OpenSan.Scst.Configuration

/-!
# The store and the daemon

The functions of `scst.lua` that read or write the UCI file or run scstadmin.
The state holds the two kinds of sections in file order and what SCST is
serving.  `save` deletes by name and appends; nothing here is a transaction.
-/

namespace OpenSan.Scst

open OpenSan.Foundation

/-- A call of `Daemon.apply`: the exports and the configuration of the store
at the call, what was served before and after it and how it ended. -/
structure Applied where
  exports : List Configuration.Export
  described : Except Error Configuration
  servedBefore : List Target
  result : Except Error Unit
  served : List Target
  deriving DecidableEq

/-- `applied` records the calls of `Daemon.apply` for statements about whole
runs; no function reads it. -/
structure World where
  patterns : List AccessPattern
  credentials : List AuthCredential
  served : List Target
  applied : List Applied
  deriving DecidableEq

def World.empty : World := ⟨[], [], [], []⟩

abbrev Script (α : Type) := Action World Error α

/-- What `get` reads after `set`: the empty string leaves an option absent. -/
def uciOption (value : String) : Option String :=
  if value = "" then none else some value

namespace AccessPattern

def list : Script (List AccessPattern) := Action.read World.patterns

/-- `M.AccessPattern.find_by`: the first record that fits. -/
def findBy (fits : AccessPattern → Bool) : Script (Option AccessPattern) :=
  Action.read fun world => world.patterns.find? fits

def findBySectionName (sectionName : String) : Script (Option AccessPattern) :=
  findBy fun pattern => pattern.sectionName == some sectionName

def findByName (name : Option String) : Script (Option AccessPattern) :=
  findBy fun pattern => some pattern.name == name

def withoutName (name : Option String) (patterns : List AccessPattern) :
    List AccessPattern :=
  patterns.filter fun pattern => some pattern.name != name

def deleteByName (name : Option String) : Script Unit :=
  Action.modify fun world =>
    { world with patterns := withoutName name world.patterns }

def stored (record : AccessPattern) (sectionName : String) : AccessPattern :=
  { record with
    sectionName := some sectionName
    filename := uciOption (record.filename.getD "") }

def save (host : Host) (self : Attrs) : Script AccessPattern := do
  if self.sectionName.isSome then
    deleteByName self.name
  let record ← Action.lift (new { self with sectionName := none })
  let sectionName ← Action.read fun world =>
    host.uciAdd (world.patterns.map AccessPattern.sectionName)
  Action.modify fun world =>
    { world with patterns := world.patterns ++ [stored record sectionName] }
  pure { record with sectionName := some sectionName }

def delete (self : AccessPattern) : Script Unit := deleteByName (some self.name)

def bind (host : Host) (self : AccessPattern) (filename : String) :
    Script Unit := do
  let _ ← save host { self.toAttrs with filename := some filename }
  pure ()

def sessions (host : Host) (self : AccessPattern) :
    Except Error (List String) :=
  match self.boundVolume host with
  | none => .ok []
  | some filename =>
      match iqn host.hostname filename with
      | .error e => .error e
      | .ok target =>
          (host.liveSessions target).map fun names => names.map fun _ => target

def detach (target : String) : Script Unit :=
  Action.modify fun world =>
    { world with served := world.served.filter fun other => other.name != target }

def unbind (host : Host) (self : AccessPattern) : Script Unit := do
  let targets ← Action.lift (self.sessions host)
  Action.forEach targets detach
  let _ ← save host { self.toAttrs with filename := some "" }
  pure ()

end AccessPattern

namespace AuthCredential

def list : Script (List AuthCredential) := Action.read World.credentials

def findBySectionName (sectionName : String) :
    Script (Option AuthCredential) :=
  Action.read fun world => world.credentials.find? fun credential =>
    credential.sectionName == some sectionName

def deleteByUsernameAndFilename (username filename : String) : Script Unit :=
  Action.modify fun world =>
    { world with
      credentials := world.credentials.filter fun credential =>
        !(credential.username == username && credential.filename == filename) }

/-- `M.AuthCredential:save`.  For a record that already has a section the
source calls a function that `M.AccessPattern` does not have. -/
def save (host : Host) (self : AuthCredential) : Script Unit := do
  if self.sectionName.isSome then
    Action.raise (.nilValue "M.AccessPattern.delete_by_username_and_filename")
  let record ← Action.lift (new none (some self.username) (some self.password)
    (some self.filename))
  Action.modify fun world =>
    { world with
      credentials := world.credentials ++ [{ record with
        sectionName := some (host.uciAdd
          (world.credentials.map AuthCredential.sectionName)) }] }

def delete (self : AuthCredential) : Script Unit :=
  deleteByUsernameAndFilename self.username self.filename

end AuthCredential

namespace Daemon

def check (host : Host) (configuration : String) : Script Unit :=
  Action.require (host.checkConfig configuration = true)
    (.failure "scst:Daemon:check() failed")

def config (host : Host) (configuration : Configuration) : Script Unit := do
  Action.require (host.config configuration.render = true)
    (.failure "system() does not succeed")
  Action.modify fun world => { world with served := configuration.targets }

/-- The body of `M.Daemon.apply`.  An empty text leaves the daemon as it is. -/
def applyBody (host : Host) : Script Unit := do
  let configuration ← Action.query fun world =>
    Configuration.describe host world.patterns world.credentials
  if configuration.render = "" then
    pure ()
  else do
    check host configuration.render
    config host configuration

def record (host : Host) (world : World) : Applied where
  exports := Configuration.enabledPatterns host world.patterns
  described := Configuration.describe host world.patterns world.credentials
  servedBefore := world.served
  result := (applyBody host world).1
  served := (applyBody host world).2.served

def apply (host : Host) : Script Unit := fun world =>
  ((applyBody host world).1, { (applyBody host world).2 with
    applied := world.applied ++ [record host world] })

end Daemon

/-! ## What each operation does to the state -/

namespace AccessPattern

def kept (self : Attrs) (patterns : List AccessPattern) : List AccessPattern :=
  if self.sectionName.isSome then withoutName self.name patterns else patterns

def sectionFor (host : Host) (patterns : List AccessPattern) : String :=
  host.uciAdd (patterns.map AccessPattern.sectionName)

def savedPatterns (host : Host) (self : Attrs)
    (patterns : List AccessPattern) : List AccessPattern :=
  match new { self with sectionName := none } with
  | .ok record => kept self patterns ++
      [stored record (sectionFor host (kept self patterns))]
  | .error _ => kept self patterns

theorem save_state (host : Host) (self : Attrs) (world : World) :
    (save host self world).2 =
      { world with patterns := savedPatterns host self world.patterns } := by
  cases hsection : self.sectionName.isSome <;>
    cases hnew : new { self with sectionName := none } <;>
      simp [save, savedPatterns, kept, sectionFor, deleteByName, hsection, hnew]

def rehome (patterns : List AccessPattern) (self : AccessPattern)
    (filename sectionName : String) : List AccessPattern :=
  withoutName (some self.name) patterns ++
    [{ self with
      sectionName := some sectionName
      filename := uciOption filename }]

theorem new_rehomed (self : AccessPattern) (filename : String) :
    new { self.toAttrs with filename := some filename, sectionName := none } =
      .ok { self with filename := some filename, sectionName := none } := by
  cases self with
  | mk sectionName name targetdriver lun oldname enabled readonly writethrough =>
      cases targetdriver
      rfl

theorem savedPatterns_rehome (host : Host) {self : AccessPattern}
    (hsection : self.sectionName.isSome = true) (filename : String)
    (patterns : List AccessPattern) :
    ∃ sectionName,
      savedPatterns host { self.toAttrs with filename := some filename }
        patterns = rehome patterns self filename sectionName := by
  refine ⟨sectionFor host (withoutName (some self.name) patterns), ?_⟩
  have hkept : kept { self.toAttrs with filename := some filename } patterns =
      withoutName (some self.name) patterns := by
    simp [kept, toAttrs, hsection]
  unfold savedPatterns
  rw [hkept, new_rehomed]
  rfl

theorem save_rehomed_result (host : Host) (self : AccessPattern)
    (filename : String) (world : World) :
    ∃ record, (save host { self.toAttrs with filename := some filename }
      world).1 = .ok record := by
  have hnew := new_rehomed self filename
  cases hsection : self.toAttrs.sectionName.isSome <;>
    simp [save, deleteByName, hsection, hnew]

theorem bind_run (host : Host) {self : AccessPattern}
    (hsection : self.sectionName.isSome = true) (filename : String)
    (world : World) :
    ∃ sectionName, self.bind host filename world =
      (.ok (), { world with
        patterns := rehome world.patterns self filename sectionName }) := by
  obtain ⟨sectionName, hsaved⟩ :=
    savedPatterns_rehome host hsection filename world.patterns
  obtain ⟨record, hrecord⟩ := save_rehomed_result host self filename world
  have hstate := save_state host { self.toAttrs with filename := some filename }
    world
  refine ⟨sectionName, ?_⟩
  simp only [AccessPattern.bind, Action.bind_run]
  rcases hrun : save host { self.toAttrs with filename := some filename } world
    with ⟨result, world'⟩
  rw [hrun] at hrecord hstate
  simp only at hrecord hstate
  subst hrecord
  simp [hstate, hsaved]

theorem forEach_detach_run (targets : List String) (world : World) :
    Action.forEach targets detach world =
      (.ok (), { world with
        served := world.served.filter fun other => other.name ∉ targets }) := by
  induction targets generalizing world with
  | nil => simp [Action.forEach]
  | cons target targets ih =>
      have hdetach : detach target world = (.ok (), { world with
          served := world.served.filter fun other => other.name != target }) := rfl
      simp only [Action.forEach]
      rw [Action.andThen_ok hdetach, ih]
      simp only [List.filter_filter, Prod.mk.injEq, World.mk.injEq, true_and,
        and_true]
      apply List.filter_congr
      intro other _
      by_cases h : other.name = target <;> simp [h]

theorem unbind_run (host : Host) {self : AccessPattern}
    (hsection : self.sectionName.isSome = true) (world : World) :
    (∃ e, self.sessions host = .error e ∧
      self.unbind host world = (.error e, world)) ∨
    ∃ targets sectionName, self.sessions host = .ok targets ∧
      self.unbind host world = (.ok (), { world with
        patterns := rehome world.patterns self "" sectionName
        served := world.served.filter fun other => other.name ∉ targets }) := by
  cases hsessions : self.sessions host with
  | error e =>
      exact .inl ⟨e, rfl, by simp [AccessPattern.unbind, hsessions]⟩
  | ok targets =>
      obtain ⟨sectionName, hbind⟩ := bind_run host hsection "" { world with
        served := world.served.filter fun other => other.name ∉ targets }
      refine .inr ⟨targets, sectionName, rfl, ?_⟩
      have hunfold : self.unbind host world =
          self.bind host "" { world with
            served := world.served.filter fun other => other.name ∉ targets } := by
        simp only [AccessPattern.unbind, AccessPattern.bind, Action.bind_run,
          Action.lift_run, hsessions, forEach_detach_run]
      rw [hunfold, hbind]

end AccessPattern

namespace Daemon

/-- Applying fails and changes nothing, has an empty text and changes nothing,
or makes the daemon serve the configuration of the store. -/
theorem applyBody_cases (host : Host) (world : World) :
    (∃ e, applyBody host world = (.error e, world)) ∨
    ∃ configuration, Configuration.describe host world.patterns
        world.credentials = .ok configuration ∧
      (configuration.render = "" ∧ applyBody host world = (.ok (), world) ∨
        configuration.render ≠ "" ∧ applyBody host world =
          (.ok (), { world with served := configuration.targets })) := by
  cases hdescribe : Configuration.describe host world.patterns
      world.credentials with
  | error e => exact .inl ⟨e, by simp [applyBody, hdescribe]⟩
  | ok configuration =>
      by_cases hempty : configuration.render = ""
      · refine .inr ⟨configuration, rfl, .inl ⟨hempty, ?_⟩⟩
        simp [applyBody, hdescribe, hempty]
      · cases hcheck : host.checkConfig configuration.render with
        | false =>
            exact .inl ⟨_, by
              simp [applyBody, hdescribe, hempty, check, Action.require, hcheck]
              rfl⟩
        | true =>
            cases hconfig : host.config configuration.render with
            | false =>
                exact .inl ⟨_, by
                  simp [applyBody, hdescribe, hempty, check, config, Action.require,
                    hcheck, hconfig]
                  rfl⟩
            | true =>
                refine .inr ⟨configuration, rfl, .inr ⟨hempty, ?_⟩⟩
                simp [applyBody, hdescribe, hempty, check, config, Action.require,
                  hcheck, hconfig]

theorem apply_store (host : Host) (world : World) :
    (apply host world).2.patterns = world.patterns ∧
      (apply host world).2.credentials = world.credentials := by
  rcases applyBody_cases host world with
    ⟨e, h⟩ | ⟨configuration, -, ⟨-, h⟩ | ⟨-, h⟩⟩ <;> simp [apply, h]

theorem apply_eq_ok {host : Host} {world : World}
    (h : (apply host world).1 = .ok ()) :
    ∃ configuration, Configuration.describe host world.patterns
      world.credentials = .ok configuration := by
  rcases applyBody_cases host world with ⟨e, hrun⟩ | ⟨configuration, hdescribe, -⟩
  · have hresult : (applyBody host world).1 = .ok () := h
    rw [hrun] at hresult
    cases hresult
  · exact ⟨configuration, hdescribe⟩

end Daemon

end OpenSan.Scst
