import OpenSan.Scst.Records

/-!
# The configuration written for scstadmin

`Configuration.dump` joins access patterns and credentials through three
tables: from file names to device counters, from target names to LUN tables and
from LUNs to patterns.  `dump` is that function, producing text.  `describe`
computes the blocks the text is made of, and `dump_eq_render` says that the
text is the rendering of those blocks.
-/

namespace OpenSan.Scst

open OpenSan.Foundation

namespace Configuration

structure Export where
  filename : String
  pattern : AccessPattern
  deriving DecidableEq, Repr

def enabledPatterns (host : Host) (patterns : List AccessPattern) :
    List Export :=
  patterns.filterMap fun pattern =>
    if pattern.enabled then
      (pattern.boundVolume host).map fun filename => ⟨filename, pattern⟩
    else none

/-! ## The text -/

structure HandlerState where
  configuration : String
  fileios : Table String Nat
  counter : Nat
  devices : List String

def deviceText (device filename : String) (writethrough : Bool) : String :=
  "\tDEVICE " ++ device ++ " \x7b\n" ++
    ("\t\tfilename " ++ filename ++ "\n" ++
      ((if writethrough then "\t\twrite_through 1\n" else "") ++ "\t\x7d\n"))

def emitDevice (state : HandlerState) (item : Export) : HandlerState :=
  let device := "fileio" ++ toString state.counter
  { configuration := state.configuration ++
      deviceText device item.filename item.pattern.writethrough
    fileios := state.fileios.insert item.filename state.counter
    counter := state.counter + 1
    devices := state.devices ++ [device] }

def fileioNumber (fileios : Table String Nat) (filename : String) : String :=
  match fileios.lookup filename with
  | some counter => toString counter
  | none => "nil"

abbrev Luns := Table String Export

def addTarget (hostname : Option String) (targets : Table String Luns)
    (item : Export) : Except Error (Table String Luns) :=
  match iqn hostname item.filename with
  | .error e => .error e
  | .ok target =>
      .ok (targets.update target ∅ fun luns =>
        luns.insert (toString item.pattern.lun) item)

def collectTargets (hostname : Option String) :
    List Export → Table String Luns → Except Error (Table String Luns)
  | [], targets => .ok targets
  | item :: items, targets =>
      match addTarget hostname targets item with
      | .error e => .error e
      | .ok targets => collectTargets hostname items targets

def listFor (credentials : List AuthCredential) (filename : String) :
    List AuthCredential :=
  credentials.filter fun credential => credential.filename == filename

def userText (username password : String) : String :=
  "\t\tIncomingUser \"" ++ username ++ " " ++ password ++ "\"\n"

def lunText (lun device : String) (readOnly : Bool) : String :=
  "\t\tLUN " ++ lun ++ " " ++ device ++ " \x7b\n" ++
    ("\t\t\tread_only " ++ (if readOnly then "1" else "0") ++ "\n") ++
    "\t\t\x7d\n"

def emitUsers (configuration : String) :
    List AuthCredential → String
  | [] => configuration
  | credential :: credentials =>
      emitUsers (configuration ++
        userText credential.username credential.password) credentials

def emitLuns (fileios : Table String Nat) (configuration : String) :
    List (Sigma fun _ : String => Export) → String
  | [] => configuration
  | ⟨lun, item⟩ :: luns =>
      emitLuns fileios (configuration ++
        lunText lun ("fileio" ++ fileioNumber fileios item.filename)
          item.pattern.readonly) luns

def targetHeader (target : String) : String :=
  "\tTARGET " ++ target ++ " \x7b\n" ++ "\t\tHeaderDigest None,CRC32C\n" ++
    "\t\tDataDigest None,CRC32C\n"

def targetFooter : String := "\t\tenabled 1\n\t\x7d\n"

/-- One pass of the loop over the targets; `luns["0"]` must be there. -/
def emitTarget (host : Host) (credentials : List AuthCredential)
    (fileios : Table String Nat) (configuration target : String) (luns : Luns) :
    Except Error String :=
  match luns.lookup "0" with
  | none => .error (.nilValue "luns[\"0\"]")
  | some first =>
      let configuration := emitUsers (configuration ++ targetHeader target)
        (listFor credentials first.filename)
      let configuration := emitLuns fileios configuration
        (host.order.visit luns.entries)
      .ok (configuration ++ targetFooter)

def emitTargets (host : Host) (credentials : List AuthCredential)
    (fileios : Table String Nat) (configuration : String) :
    List (Sigma fun _ : String => Luns) → Except Error String
  | [] => .ok configuration
  | ⟨target, luns⟩ :: targets =>
      match emitTarget host credentials fileios configuration target luns with
      | .error e => .error e
      | .ok configuration =>
          emitTargets host credentials fileios configuration targets

/--
`M.Configuration.dump`: the text and the names of the devices in it.  The only
allowed target driver is `iscsi`, so the loop over the drivers of a nonempty
list of patterns runs once.
-/
def dump (host : Host) (patterns : List AccessPattern)
    (credentials : List AuthCredential) :
    Except Error (String × List String) :=
  match enabledPatterns host patterns with
  | [] => .ok ("", [])
  | items@(_ :: _) =>
      let handler := items.foldl emitDevice
        ⟨"" ++ "HANDLER vdisk_fileio \x7b\n", ∅, 1, []⟩
      let configuration := handler.configuration ++ "\x7d\n" ++
        "TARGET_DRIVER iscsi \x7b\n"
      match collectTargets host.hostname items ∅ with
      | .error e => .error e
      | .ok targets =>
          match emitTargets host credentials handler.fileios configuration
              (host.order.visit targets.entries) with
          | .error e => .error e
          | .ok configuration =>
              .ok (configuration ++ "\tenabled 1\n\x7d\n", handler.devices)

end Configuration

/-! ## The blocks -/

structure Device where
  name : String
  filename : String
  writethrough : Bool
  deriving DecidableEq, Repr

structure Lun where
  lun : String
  device : String
  readOnly : Bool
  deriving DecidableEq, Repr

structure Target where
  name : String
  users : List (String × String)
  luns : List Lun
  deriving DecidableEq, Repr

structure Configuration where
  devices : List Device
  targets : List Target
  deriving DecidableEq, Repr

namespace Configuration

def Device.render (device : Device) : String :=
  deviceText device.name device.filename device.writethrough

def Target.render (target : Target) : String :=
  targetHeader target.name ++
    (String.join (target.users.map fun user => userText user.1 user.2) ++
      (String.join (target.luns.map fun entry =>
        lunText entry.lun entry.device entry.readOnly) ++ targetFooter))

def render (configuration : Configuration) : String :=
  if configuration.devices = [] then ""
  else
    "HANDLER vdisk_fileio \x7b\n" ++
      (String.join (configuration.devices.map Device.render) ++
        ("\x7d\n" ++ ("TARGET_DRIVER iscsi \x7b\n" ++
          (String.join (configuration.targets.map Target.render) ++
            "\tenabled 1\n\x7d\n"))))

def describeDevices : Nat → List Export → List Device
  | _, [] => []
  | counter, item :: items =>
      ⟨"fileio" ++ toString counter, item.filename,
        item.pattern.writethrough⟩ :: describeDevices (counter + 1) items

def describeFileios : Nat → List Export → Table String Nat → Table String Nat
  | _, [], fileios => fileios
  | counter, item :: items, fileios =>
      describeFileios (counter + 1) items
        (fileios.insert item.filename counter)

def describeLun (fileios : Table String Nat)
    (entry : Sigma fun _ : String => Export) : Lun :=
  ⟨entry.1, "fileio" ++ fileioNumber fileios entry.2.filename,
    entry.2.pattern.readonly⟩

def describeTarget (host : Host) (credentials : List AuthCredential)
    (fileios : Table String Nat) (target : String) (luns : Luns) :
    Except Error Target :=
  match luns.lookup "0" with
  | none => .error (.nilValue "luns[\"0\"]")
  | some first =>
      .ok ⟨target,
        (listFor credentials first.filename).map fun credential =>
          (credential.username, credential.password),
        (host.order.visit luns.entries).map (describeLun fileios)⟩

def describeTargets (host : Host) (credentials : List AuthCredential)
    (fileios : Table String Nat) :
    List (Sigma fun _ : String => Luns) → Except Error (List Target)
  | [] => .ok []
  | ⟨target, luns⟩ :: targets =>
      match describeTarget host credentials fileios target luns with
      | .error e => .error e
      | .ok block =>
          match describeTargets host credentials fileios targets with
          | .error e => .error e
          | .ok blocks => .ok (block :: blocks)

def describe (host : Host) (patterns : List AccessPattern)
    (credentials : List AuthCredential) : Except Error Configuration :=
  match enabledPatterns host patterns with
  | [] => .ok ⟨[], []⟩
  | items@(_ :: _) =>
      match collectTargets host.hostname items ∅ with
      | .error e => .error e
      | .ok targets =>
          match describeTargets host credentials (describeFileios 1 items ∅)
              (host.order.visit targets.entries) with
          | .error e => .error e
          | .ok blocks => .ok ⟨describeDevices 1 items, blocks⟩

/-! ## The text is the rendering of the blocks -/

private theorem foldl_emitDevice (items : List Export) (state : HandlerState) :
    items.foldl emitDevice state =
      { configuration := state.configuration ++
          String.join ((describeDevices state.counter items).map Device.render)
        fileios := describeFileios state.counter items state.fileios
        counter := state.counter + items.length
        devices := state.devices ++
          (describeDevices state.counter items).map Scst.Device.name } := by
  induction items generalizing state with
  | nil => simp [describeDevices, describeFileios, String.join]
  | cons item items ih =>
      rw [List.foldl_cons, ih]
      simp [emitDevice, describeDevices, describeFileios, Device.render,
        String.join_cons, String.append_assoc, Nat.add_comm, Nat.add_left_comm]

private theorem emitUsers_eq (configuration : String)
    (credentials : List AuthCredential) :
    emitUsers configuration credentials =
      configuration ++ String.join (credentials.map fun credential =>
        userText credential.username credential.password) := by
  induction credentials generalizing configuration with
  | nil => simp [emitUsers, String.join]
  | cons credential credentials ih =>
      simp [emitUsers, ih, String.join_cons, String.append_assoc]

private theorem emitLuns_eq (fileios : Table String Nat) (configuration : String)
    (luns : List (Sigma fun _ : String => Export)) :
    emitLuns fileios configuration luns =
      configuration ++ String.join (luns.map fun entry =>
        lunText (describeLun fileios entry).lun
          (describeLun fileios entry).device
          (describeLun fileios entry).readOnly) := by
  induction luns generalizing configuration with
  | nil => simp [emitLuns, String.join]
  | cons entry luns ih =>
      simp [emitLuns, ih, String.join_cons, String.append_assoc, describeLun]

private theorem emitTarget_eq (host : Host) (credentials : List AuthCredential)
    (fileios : Table String Nat) (configuration target : String) (luns : Luns) :
    emitTarget host credentials fileios configuration target luns =
      (describeTarget host credentials fileios target luns).map fun block =>
        configuration ++ Target.render block := by
  unfold emitTarget describeTarget
  cases luns.lookup "0" with
  | none => rfl
  | some first =>
      simp [Except.map, emitUsers_eq, emitLuns_eq, Target.render,
        String.append_assoc, Function.comp_def]

private theorem emitTargets_eq (host : Host) (credentials : List AuthCredential)
    (fileios : Table String Nat) (configuration : String)
    (targets : List (Sigma fun _ : String => Luns)) :
    emitTargets host credentials fileios configuration targets =
      (describeTargets host credentials fileios targets).map fun blocks =>
        configuration ++ String.join (blocks.map Target.render) := by
  induction targets generalizing configuration with
  | nil => simp [emitTargets, describeTargets, Except.map, String.join]
  | cons entry targets ih =>
      obtain ⟨target, luns⟩ := entry
      simp only [emitTargets, describeTargets, emitTarget_eq]
      cases describeTarget host credentials fileios target luns with
      | error e => rfl
      | ok block =>
          simp only [Except.map, ih]
          cases describeTargets host credentials fileios targets with
          | error e => rfl
          | ok blocks => simp [String.join_cons, String.append_assoc]

theorem dump_eq_render (host : Host) (patterns : List AccessPattern)
    (credentials : List AuthCredential) :
    dump host patterns credentials =
      (describe host patterns credentials).map fun configuration =>
        (configuration.render,
          configuration.devices.map Scst.Device.name) := by
  unfold dump describe
  cases henabled : enabledPatterns host patterns with
  | nil => rfl
  | cons item items =>
      simp only [foldl_emitDevice, emitTargets_eq]
      cases collectTargets host.hostname (item :: items) ∅ with
      | error e => rfl
      | ok targets =>
          simp only
          cases describeTargets host credentials
              (describeFileios 1 (item :: items) ∅)
              (host.order.visit targets.entries) with
          | error e => rfl
          | ok blocks =>
              simp [Except.map, render, describeDevices, String.append_assoc]
              rw [← String.append_assoc]
              rfl

end Configuration

end OpenSan.Scst
