import OpenSan.Scst.Store

/-!
# Requests that write the store

The handlers of `san.lua` for access patterns and credentials, the clean-up of
`matrix.caller` and the factory reset.  A handler returns the error message of
the page it redirects to, if there is one; when it redirects more than once,
the first redirect closes the connection and the handler goes on.  Forms arrive
with their numeric fields already converted: `none` stands for a text that is
not a number.
-/

namespace OpenSan.Controller

open OpenSan.Foundation
open OpenSan.Scst

/-- `find_by_hash`: the last object with the given hash. -/
def findByHash (host : Host) (objHash : String) (objs : List String) :
    Except Error String :=
  match objs.reverse.find? fun obj => host.hash obj == objHash with
  | some obj => .ok obj
  | none => .error (.assertion "unable to find object by hash")

theorem findByHash_eq_ok {host : Host} {objHash obj : String}
    {objs : List String} (h : findByHash host objHash objs = .ok obj) :
    obj ∈ objs ∧ host.hash obj = objHash := by
  unfold findByHash at h
  split at h
  · rename_i found hfound
    obtain rfl := Except.ok.inj h
    exact ⟨List.mem_reverse.mp (List.mem_of_find?_eq_some hfound),
      by simpa using List.find?_some hfound⟩
  · cases h

theorem findByHash_eq_error {host : Host} {objHash obj : String}
    {objs : List String} {e : Error} (h : findByHash host objHash objs = .error e)
    (hobj : obj ∈ objs) : host.hash obj ≠ objHash := by
  unfold findByHash at h
  split at h
  · cases h
  · rename_i hnone
    have hno := List.find?_eq_none.mp hnone obj (List.mem_reverse.mpr hobj)
    simpa using hno

def failed {α : Type} (message : String) : Except Error α → Option String
  | .error e => some (message ++ e.text)
  | .ok _ => none

/-! ## Access patterns -/

structure PatternForm where
  name : Option String
  targetdriver : Option String
  lun : Option Int
  enabled : Option String
  readonly : Option String
  writethrough : Option String
  deriving DecidableEq, Repr

def formFlag : Option String → Flag
  | none => .absent
  | some value => .text value

/-- `access_pattern_attributes`: neither form has a file name. -/
def PatternForm.attrs (form : PatternForm) (sectionName : Option String) :
    AccessPattern.Attrs where
  sectionName := sectionName
  name := form.name
  targetdriver := form.targetdriver
  lun := form.lun
  filename := none
  enabled := formFlag form.enabled
  readonly := formFlag form.readonly
  writethrough := formFlag form.writethrough

def scstAccessPatternNew (host : Host) (form : PatternForm) :
    Script (Option String) := do
  if form.name = some "" then
    pure (some "Access pattern's name is not set")
  else do
    let patterns ← AccessPattern.list
    if patterns.any fun pattern => some pattern.name == form.name then
      pure (some "Access pattern's name already exists")
    else do
      Action.require (form.targetdriver.isSome = true)
        (.assertion "unable to parse out targetdrive")
      Action.require (form.lun.isSome = true)
        (.assertion "unable to parse out numeric LUN")
      match AccessPattern.new (form.attrs none) with
      | .error e => pure (some ("Failed to create access pattern: " ++ e.text))
      | .ok record =>
          match ← Action.pcall (AccessPattern.save host record.toAttrs) with
          | .error e => pure (some ("Failed to save config: " ++ e.text))
          | .ok _ => pure none

def findAccessPatternSectionNameByHash (host : Host) (sectionNameHash : String) :
    Script String := do
  let patterns ← AccessPattern.list
  Action.lift (findByHash host sectionNameHash
    (host.order.visit (patterns.filterMap AccessPattern.sectionName).dedup))

def scstAccessPatternDelete (host : Host) (sectionNameHash : String) :
    Script (Option String) := do
  let sectionName ← findAccessPatternSectionNameByHash host sectionNameHash
  let found ← AccessPattern.findBySectionName sectionName
  match found with
  | none => pure (some "Failed to delete access pattern: unable to get self object")
  | some pattern => do
      pattern.delete
      pure none

/-- `access_pattern_comparison_of_bind_luns`: the LUN is taken on the volume. -/
def lunBusy (patterns : List AccessPattern) (device : String)
    (pattern : AccessPattern) : Bool :=
  patterns.any fun other =>
    other.filename == some device && other.lun == pattern.lun

def lunZeroExists (patterns : List AccessPattern) (device : String) : Bool :=
  patterns.any fun other => other.filename == some device && other.lun == 0

/-- The last part of `scst_access_pattern_bind`: apply, or take the bind back. -/
def applyOrUnbind (host : Host) (name : String) : Script (Option String) := do
  match ← Action.pcall (Daemon.apply host) with
  | .ok _ =>
      match host.cachingApply with
      | .ok _ => pure none
      | .error e => pure (some ("Failed to apply caching policies: " ++ e.text))
  | .error e => do
      let found ← AccessPattern.findByName (some name)
      match found with
      | none => Action.raise (.assertion "unable to get self object")
      | some again => do
          again.unbind host
          Daemon.apply host
          pure (some ("Failed to apply iSCSI configuration: " ++ e.text))

def scstAccessPatternBind (host : Host) (sectionNameHash : String)
    (logicalVolumeSelect : Option String) : Script (Option String) := do
  let sectionName ← findAccessPatternSectionNameByHash host sectionNameHash
  match logicalVolumeSelect with
  | none => pure (some "Logical volume is not selected")
  | some device => do
      let patterns ← AccessPattern.list
      let found ← AccessPattern.findBySectionName sectionName
      let pattern ← Action.lift (nonNil "access_pattern" found)
      if lunBusy patterns device pattern then
        pure (some "This is LUN is busy, please choose another one")
      else if pattern.lun ≠ 0 ∧ lunZeroExists patterns device = false then
        pure (some "AccessPattern with LUN0 has to be binded first")
      else do
        match ← Action.pcall (pattern.bind host device) with
        | .error e => pure (some ("Failed to bind access pattern: " ++ e.text))
        | .ok _ => applyOrUnbind host pattern.name

def scstAccessPatternUnbind (host : Host) (sectionNameHash : String) :
    Script (Option String) := do
  let sectionName ← findAccessPatternSectionNameByHash host sectionNameHash
  let found ← AccessPattern.findBySectionName sectionName
  match found with
  | none => pure (some "Failed to unbind access pattern: unable to get self object")
  | some pattern => do
      match ← Action.pcall (pattern.unbind host) with
      | .error e => pure (some ("Failed to unbind access pattern: " ++ e.text))
      | .ok _ => do
          let applied ← Action.pcall (Daemon.apply host)
          pure (failed "Failed to apply iSCSI configuration: " applied <|>
            failed "Failed to apply caching policies: " host.cachingApply)

def scstAccessPatternEdit (host : Host) (sectionNameHash : String)
    (form : PatternForm) : Script (Option String) := do
  let sectionName ← findAccessPatternSectionNameByHash host sectionNameHash
  let found ← AccessPattern.findBySectionName sectionName
  let pattern ← Action.lift (nonNil "access_pattern" found)
  if form.name = some "" then
    pure (some "Access pattern's name is not set")
  else do
    let taken ← AccessPattern.findByName form.name
    if form.name ≠ some pattern.name ∧ taken.isSome = true then
      pure (some "Access pattern's name already exists")
    else do
      Action.require (form.lun.isSome = true)
        (.assertion "unable to parse out numeric LUN")
      match ← Action.pcall (AccessPattern.save host
          (form.attrs pattern.sectionName)) with
      | .error e => pure (some ("Failed to save config: " ++ e.text))
      | .ok _ => pure none

inductive PatternRequest where
  | new (form : PatternForm)
  | delete (sectionNameHash : String)
  | bind (sectionNameHash : String) (logicalVolumeSelect : Option String)
  | unbind (sectionNameHash : String)
  | edit (sectionNameHash : String) (form : PatternForm)
  deriving DecidableEq, Repr

def PatternRequest.serve (host : Host) : PatternRequest → Script (Option String)
  | .new form => scstAccessPatternNew host form
  | .delete sectionNameHash => scstAccessPatternDelete host sectionNameHash
  | .bind sectionNameHash device =>
      scstAccessPatternBind host sectionNameHash device
  | .unbind sectionNameHash => scstAccessPatternUnbind host sectionNameHash
  | .edit sectionNameHash form =>
      scstAccessPatternEdit host sectionNameHash form

/-! ## Credentials -/

def scstAuthCredentialAdd (host : Host) (logicalVolumeDevice : String)
    (username password : Option String) : Script (Option String) := do
  if username = some "" then
    pure (some "Username is not set")
  else do
    let name ← Action.lift (nonNil "auth_credential_username" username)
    if AuthCredential.usernameIsValid name = false then
      pure (some "Invalid username")
    else do
      let credentials ← AuthCredential.list
      if (Configuration.listFor credentials logicalVolumeDevice).any fun
          credential => credential.username == name then
        pure (some "Such username already exists in current logical volume")
      else do
        let secret ← Action.lift (nonNil "auth_credential_password" password)
        if secret.length < 12 then
          pure (some "Password must not be less than 12 characters long")
        else do
          match AuthCredential.new none (some name) (some secret)
              (some logicalVolumeDevice) with
          | .error e =>
              pure (some ("Failed to create authentication credential: " ++ e.text))
          | .ok record => do
              let saved ← Action.pcall (AuthCredential.save host record)
              match ← Action.pcall (Daemon.apply host) with
              | .ok _ => pure (failed "Failed to save config: " saved)
              | .error e => do
                  AuthCredential.deleteByUsernameAndFilename name
                    logicalVolumeDevice
                  Daemon.apply host
                  pure (some ("Failed to apply iSCSI configuration: " ++ e.text))

def scstAuthCredentialDelete (host : Host) (sectionNameHash : String) :
    Script (Option String) := do
  let credentials ← AuthCredential.list
  let sectionName ← Action.lift (findByHash host sectionNameHash
    (host.order.visit (credentials.filterMap AuthCredential.sectionName).dedup))
  let found ← AuthCredential.findBySectionName sectionName
  let deleted ← Action.pcall (match found with
    | none => Action.raise (.assertion "unable to get self object")
    | some credential => credential.delete)
  let applied ← Action.pcall (Daemon.apply host)
  pure (failed "Failed to delete authentication credential: " deleted <|>
    failed "Failed to apply iSCSI configuration: " applied)

/-! ## Page loads and the factory reset -/

def unknownAccessPatternsFilenameUnbind (host : Host)
    (patterns : List AccessPattern) (devices : List String) : Script Unit :=
  Action.forEach patterns fun pattern =>
    match pattern.filename with
    | none => pure ()
    | some filename =>
        if filename ∈ devices then pure () else pattern.unbind host

/-- The part of `matrix.caller` that writes the store. -/
def pageLoad (host : Host) (devices : List String) : Script Unit := do
  let patterns ← AccessPattern.list
  unknownAccessPatternsFilenameUnbind host patterns devices
  Daemon.apply host

def clearingPass (host : Host) : Script Unit := do
  let patterns ← AccessPattern.list
  Action.forEach patterns fun pattern => do
    pattern.unbind host
    pattern.delete

def clearingLoop (host : Host) : Nat → Script Unit
  | 0 => pure ()
  | fuel + 1 => do
      let patterns ← AccessPattern.list
      if patterns.isEmpty then pure ()
      else do
        clearingPass host
        clearingLoop host fuel

/-- The part of `clearing.lua` that writes the store.  One pass empties it, so
the bound of the loop is never reached (`clearingLoop_fuel`). -/
def clearing (host : Host) : Script Unit := do
  clearingLoop host 2
  Daemon.apply host

inductive Event where
  | pattern (request : PatternRequest)
  | credentialAdd (logicalVolumeDevice : String)
      (username password : Option String)
  | credentialDelete (sectionNameHash : String)
  | pageLoad (devices : List String)
  | clearing
  deriving DecidableEq, Repr

def Event.serve (host : Host) : Event → Script (Option String)
  | .pattern request => request.serve host
  | .credentialAdd device username password =>
      scstAuthCredentialAdd host device username password
  | .credentialDelete sectionNameHash =>
      scstAuthCredentialDelete host sectionNameHash
  | .pageLoad devices => do
      Controller.pageLoad host devices
      pure none
  | .clearing => do
      Controller.clearing host
      pure none

def step (world : World) (input : Host × Event) : World :=
  (input.2.serve input.1 world).2

end OpenSan.Controller
