import OpenSan.Foundation.Lua
import OpenSan.Foundation.Pattern

/-!
# Access patterns, credentials and target names

The records of `scst.lua` and the functions of them that neither read nor
write the store.  A section of the UCI file is represented by the record that
`AccessPattern.list` reads from it; `save` writes no section that `list` could
not read back.
-/

namespace OpenSan.Scst

open OpenSan.Foundation

inductive TargetDriver where
  | iscsi
  deriving DecidableEq, Repr

def TargetDriver.ofText : String → Option TargetDriver
  | "iscsi" => some .iscsi
  | _ => none

/-- A flag as it arrives at `AccessPattern:new`: an option of a form or of a
UCI section, or a boolean of an existing record. -/
inductive Flag where
  | absent
  | text (value : String)
  | boolean (value : Bool)
  deriving DecidableEq, Repr

def Flag.isSet : Flag → Bool
  | .absent => false
  | .text value => value == "1"
  | .boolean value => value

structure AccessPattern where
  sectionName : Option String
  name : String
  targetdriver : TargetDriver
  lun : Int
  filename : Option String
  enabled : Bool
  readonly : Bool
  writethrough : Bool
  deriving DecidableEq, Repr

namespace AccessPattern

structure Attrs where
  sectionName : Option String
  name : Option String
  targetdriver : Option String
  lun : Option Int
  filename : Option String
  enabled : Flag
  readonly : Flag
  writethrough : Flag
  deriving DecidableEq, Repr

def new (attrs : Attrs) : Except Error AccessPattern :=
  match attrs.name with
  | none => .error (.assertion "empty name")
  | some name =>
      match attrs.targetdriver.bind TargetDriver.ofText with
      | none => .error (.assertion "unallowed targetdriver")
      | some targetdriver =>
          match attrs.lun with
          | none => .error (.assertion "no LUN")
          | some lun =>
              .ok {
                sectionName := attrs.sectionName
                name, targetdriver, lun
                filename := attrs.filename
                enabled := attrs.enabled.isSet
                readonly := attrs.readonly.isSet
                writethrough := attrs.writethrough.isSet }

def toAttrs (self : AccessPattern) : Attrs where
  sectionName := self.sectionName
  name := some self.name
  targetdriver :=
    match self.targetdriver with
    | .iscsi => some "iscsi"
  lun := some self.lun
  filename := self.filename
  enabled := .boolean self.enabled
  readonly := .boolean self.readonly
  writethrough := .boolean self.writethrough

@[simp] theorem new_toAttrs (self : AccessPattern) :
    new self.toAttrs = .ok self := by
  cases self with
  | mk sectionName name targetdriver lun filename enabled readonly writethrough =>
      cases targetdriver
      rfl

theorem new_eq_ok {attrs : Attrs} {record : AccessPattern}
    (h : new attrs = .ok record) :
    attrs.name = some record.name ∧ attrs.lun = some record.lun ∧
      record.filename = attrs.filename ∧
      record.sectionName = attrs.sectionName := by
  unfold new at h
  split at h
  · cases h
  · rename_i name hname
    split at h
    · cases h
    · split at h
      · cases h
      · rename_i lun hlun
        cases h
        exact ⟨hname, hlun, rfl, rfl⟩

end AccessPattern

structure AuthCredential where
  sectionName : Option String
  username : String
  password : String
  filename : String
  deriving DecidableEq, Repr

namespace AuthCredential

def passwordLength : Nat := 12

def usernameCharacter (c : Char) : Bool :=
  Pattern.alphanumeric c || c == '_' || c == '.' || c == '-'

def usernameIsValid (username : String) : Bool :=
  (Pattern.anchored (Pattern.plus usernameCharacter ++ [.finish])
    username.toList).isSome

def new (sectionName username password filename : Option String) :
    Except Error AuthCredential :=
  match username, password, filename with
  | none, _, _ => .error (.assertion "empty username")
  | some username, password, filename =>
      if usernameIsValid username then
        match password, filename with
        | none, _ => .error (.assertion "empty password")
        | some password, filename =>
            if passwordLength ≤ password.length then
              match filename with
              | none => .error (.assertion "empty filename")
              | some filename => .ok ⟨sectionName, username, password, filename⟩
            else .error (.assertion "incorrect password length")
      else .error (.assertion "invalid username")

end AuthCredential

/-- What the functions of `scst.lua` find outside the store while one request
is served. -/
structure Host where
  /-- `sha2.sha256hex` -/
  hash : String → String
  /-- The hostname option of the system configuration. -/
  hostname : Option String
  /-- `common.file_exists`: `none` when the file cannot be opened. -/
  fileExists : String → Option Bool
  /-- The sessions found under the sysfs directory of a target. -/
  liveSessions : String → Except Error (List String)
  /-- Whether `scstadmin -check_config` ends with `0 warnings`. -/
  checkConfig : String → Bool
  /-- Whether `scstadmin -config` succeeds. -/
  config : String → Bool
  /-- The outcome of `caching.apply`, which never touches the store. -/
  cachingApply : Except Error Unit
  /-- The name `ucicur:add` gives to a new section. -/
  uciAdd : List (Option String) → String
  /-- The order in which `pairs` visits tables. -/
  order : Order

def sampleHash : String → String
  | "cfg0" => "308c0c92a008cf9fc6f9332e9c9454c13be0e7bc4ee21ec2c635f3fb9bf83603"
  | "cfg1" => "991e5b930fd9f8bfd9904b057b8860e4a9c3ba6d63c93f5fb3770bf0ab592f77"
  | name => name

def Host.quiet : Host where
  hash := sampleHash
  hostname := some "opensan"
  fileExists := fun _ => some true
  liveSessions := fun _ => .ok []
  checkConfig := fun _ => true
  config := fun _ => true
  cachingApply := .ok ()
  uciAdd := fun names =>
    (((List.range (names.length + 1)).map fun n => "cfg" ++ toString n).find?
      fun name => some name ∉ names).getD "cfg"
  order := .plain

/-- `M.AccessPattern:is_binded`; the volume it is bound to, if it counts. -/
def AccessPattern.boundVolume (host : Host) (self : AccessPattern) :
    Option String :=
  self.filename.filter fun filename => host.fileExists filename != some false

def iqnCharacter (c : Char) : Bool :=
  Pattern.alphanumeric c || c == '-' || c == ':' || c == '.'

def stripUnallowedCharacters (iqn : List Char) : List Char :=
  iqn.map fun c => if iqnCharacter c then c else '.'

def devicePattern : List Pattern.Item :=
  Pattern.literal "/dev/" ++ Pattern.capture (Pattern.plus Pattern.any) ++
    Pattern.literal "/" ++ Pattern.capture (Pattern.plus Pattern.any) ++
    [.finish]

def iqn (hostname : Option String) (filename : String) :
    Except Error String :=
  match hostname with
  | none => .error (.assertion "unable to retreive hostname")
  | some hostname =>
      match Pattern.anchored devicePattern filename.toList with
      | some [volumeGroupName, logicalVolumeName] =>
          .ok (String.ofList (stripUnallowedCharacters
            ("iqn.2011-03.org.opensan:".toList ++ hostname.toList ++ [':'] ++
              volumeGroupName ++ ['.'] ++ logicalVolumeName)))
      | _ => .error (.assertion "unable to retreive logical volume name")

end OpenSan.Scst
