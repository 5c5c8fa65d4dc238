import Mathlib.Data.List.AList
import OpenSan.Common.Strip
import OpenSan.Einarc.Physicals

/-!
# Block devices and md arrays

What `list_devices` of `einarc.lua` finds under `/sys/block`, and the lists of
arrays and disks that are made from it.  Names that start with `sda` are left
out, so an array may have a slave that is not a listed device.
-/

namespace OpenSan.Einarc

open OpenSan.Foundation OpenSan.Common

/-! ## Names -/

structure DiskName where
  letters : List (Fin 26)
  nonempty : letters ≠ []
  deriving DecidableEq

def sda : DiskName := ⟨[0], by decide⟩

def sdb : DiskName := ⟨[1], by decide⟩

def sdc : DiskName := ⟨[2], by decide⟩

def sdd : DiskName := ⟨[3], by decide⟩

def sde : DiskName := ⟨[4], by decide⟩

def sdz : DiskName := ⟨[25], by decide⟩

def sdaa : DiskName := ⟨[0, 0], by decide⟩

/-- The entries of a `slaves` directory.  `other` stands for the names that
do not start with `sd` and are not of md devices. -/
inductive BlockName where
  | disk (name : DiskName)
  | partition (disk : DiskName) (number : Nat)
  | md (id : Nat)
  | other (name : String)
  deriving DecidableEq

def DiskName.root (name : DiskName) : List Char :=
  name.letters.map fun letter => Char.ofNat (97 + letter.val)

def diskText (name : DiskName) : String := "sd" ++ String.ofList name.root

def scsiSum : List Char → Int
  | [] => 0
  | c :: cs => ((c.toNat : Int) - 97 + 1) + 26 * scsiSum cs

/-- `M.phys_to_scsi`: the number after `0:`.  The digits of a partition are
taken for letters. -/
def physToScsi : BlockName → Except Error Int
  | .disk name => .ok (scsiSum name.root.reverse)
  | .partition disk number =>
      .ok (scsiSum (disk.root ++ (toString number).toList).reverse)
  | .md _ | .other _ => .error (.assertion "Invalid device name")

def DiskName.id (name : DiskName) : PhysicalId :=
  ⟨0, (scsiSum name.root.reverse).toNat⟩

def lookupDrive {α : Type} (table : Table PhysicalId α) (drive : Int) : Option α :=
  if 0 < drive then table.lookup ⟨0, drive.toNat⟩ else none

/-! ## Arrays -/

structure Slave where
  name : BlockName
  state : Option String
  deriving DecidableEq

structure MdArray where
  id : Nat
  slaves : List Slave
  arrayState : Option String
  level : Option String
  raidDisks : Option Nat
  degraded : Option String
  syncAction : Option String
  syncCompleted : Option String
  size : Nat

structure CachePair where
  physical : DiskName
  logicalId : Nat

structure DiskFiles where
  model : Option String
  revision : Option String

def DiskFiles.sample : DiskFiles := ⟨some "ST3500418AS\n", some "CC38\n"⟩

/-- `read_line`: the first line, and `nil` at the end of a file. -/
def readLine (content : Option String) : Option String :=
  content.bind fun text =>
    if text = "" then none else some (String.ofList (text.toList.takeWhile (· ≠ '\n')))

structure Sysfs where
  disks : Table DiskName Nat
  files : DiskName → DiskFiles
  arrays : List MdArray
  ids_nodup : (arrays.map (·.id)).Nodup
  caches : List CachePair

def logicalStatesMap : String → Option String
  | "clean" | "clear" | "active" => some "normal"
  | "inactive" => some "failed"
  | "Not Started" | "degraded" => some "degraded"
  | "resyncing" => some "initializing"
  | "recovering" => some "rebuilding"
  | _ => none

structure LogicalDisk where
  id : Nat
  slaves : List Slave
  raidDisks : Option Nat
  drives : List Int
  state : String
  level : Option String
  capacity : Nat
  cachedBy : Option PhysicalId
  device : String

namespace Sysfs

variable (sysfs : Sysfs) (order : Order)

def listedDisks : List (Sigma fun _ : DiskName => Nat) :=
  sysfs.disks.entries.filter fun entry => entry.1.letters.head? ≠ some 0

def listedArrays : List MdArray :=
  sysfs.arrays.filter fun array => array.slaves ≠ []

/-- The keys of `list_devices()`. -/
def listed : BlockName → Bool
  | .disk name => decide (name ∈ sysfs.listedDisks.map (·.1))
  | .md id => decide (id ∈ sysfs.listedArrays.map (·.id))
  | .partition _ _ | .other _ => false

end Sysfs

def slaveState (listed : BlockName → Bool) (id : Nat) (slave : Slave) : String :=
  if slave.state = some "in_sync" ∧ listed slave.name = true then toString id
  else if slave.state = some "spare" then "hotspare"
  else "failed"

def attachSlave (listed : BlockName → Bool) (id : Nat)
    (physicals : Table PhysicalId String) (slave : Slave) :
    Except Error (Table PhysicalId String) := do
  let name ← nonNil "device" (if listed slave.name then some slave.name else none)
  let drive ← physToScsi name
  pure (physicals.insert ⟨0, drive.toNat⟩ (slaveState listed id slave))

def missingSlots (slaves : List Slave) (raidDisks : Option Nat) : List Nat :=
  List.range' (slaves.length + 1) (raidDisks.getD slaves.length - slaves.length)

def physicalList (listed : BlockName → Bool) (id : Nat) (slaves : List Slave)
    (raidDisks : Option Nat) : Except Error (Table PhysicalId String) := do
  let physicals ← slaves.foldlM (attachSlave listed id) ∅
  pure ((missingSlots slaves raidDisks).foldl
    (fun table i => table.insert ⟨99, i⟩ "failed") physicals)

/-! ## The lists -/

def MdArray.mappedState (array : MdArray) : Option String :=
  array.arrayState.bind logicalStatesMap

def MdArray.finalState (array : MdArray) : Option String :=
  let state := if array.degraded = some "1" then some "degraded" else array.mappedState
  if (state = some "normal" ∨ state = some "degraded") ∧
      array.syncCompleted.isSome ∧ array.syncCompleted ≠ some "none" then
    if array.syncAction = some "reshape" then some "reshaping" else some "rebuilding"
  else state

def MdArray.finalLevel (array : MdArray) : Except Error (Option String) :=
  if array.mappedState ≠ some "failed" then do
    let level ← nonNil "level" array.level
    pure (some (if level.toList.take 4 = "raid".toList then
      String.ofList (level.toList.drop 4) else "linear"))
  else pure array.level

namespace Sysfs

variable (sysfs : Sysfs) (order : Order)

def used : List BlockName :=
  (sysfs.listedArrays.flatMap fun array => array.slaves.map (·.name)) ++
    sysfs.caches.map fun map => .disk map.physical

def cacheOf (id : Nat) : Option CachePair :=
  sysfs.caches.reverse.find? fun map => map.logicalId = id

def deviceOf (id : Nat) : String :=
  if (sysfs.cacheOf id).isSome then "/dev/mapper/flashcachemd" ++ toString id
  else "/dev/md" ++ toString id

def logical (array : MdArray) : Except Error LogicalDisk := do
  let level ← array.finalLevel
  let drives ← array.slaves.mapM fun slave => physToScsi slave.name
  match array.finalState with
  | none => .error (.assertion "unknown state")
  | some state =>
      if state ≠ "failed" ∧ level = none then .error (.assertion "empty level")
      else pure {
        id := array.id, slaves := array.slaves, raidDisks := array.raidDisks
        drives := drives, state := state, level := level
        capacity := array.size
        cachedBy := (sysfs.cacheOf array.id).map fun map => map.physical.id
        device := sysfs.deviceOf array.id }

/-- `M.Logical.list`. -/
def logicals : Except Error (List LogicalDisk) :=
  (order.visit sysfs.listedArrays).mapM sysfs.logical

def memberState (name : DiskName) (state : Option String) (array : MdArray) :
    Except Error (Option String) :=
  if .disk name ∈ array.slaves.map (·.name) then do
    let physicals ← physicalList sysfs.listed array.id array.slaves none
    pure (physicals.lookup name.id)
  else pure state

def diskState (name : DiskName) : Except Error String := do
  let state ← (order.visit sysfs.listedArrays).foldlM
    (sysfs.memberState name) (some "free")
  let state := if sysfs.caches.any (fun map => map.physical.id = name.id) then
      some "cache" else state
  match state with
  | some state => pure state
  | none => .error (.assertion "incorrect state")

structure Physical where
  state : String
  size : Nat
  model : Option String
  revision : Option String
  frawnode : String

/-- The last two calls of `strip` are those of `M.Physical:new`. -/
def physical (name : DiskName) (size : Nat) : Except Error Physical := do
  let model ← strip (some ((readLine (sysfs.files name).model).getD ""))
  let revision ← strip (some ((readLine (sysfs.files name).revision).getD ""))
  let state ← sysfs.diskState order name
  let model ← strip model
  let revision ← strip revision
  pure ⟨state, size, model, revision, "/dev/" ++ diskText name⟩

def addPhysical (table : Table PhysicalId Physical)
    (entry : Sigma fun _ : DiskName => Nat) :
    Except Error (Table PhysicalId Physical) := do
  let physical ← sysfs.physical order entry.1 entry.2
  pure (table.insert entry.1.id physical)

/-- `M.Physical.list`. -/
def physicals : Except Error (Table PhysicalId Physical) :=
  (order.visit sysfs.listedDisks).foldlM (sysfs.addPhysical order) ∅

/-! ## The start of the page -/

/-- `M.Logical:powersaving_disable`, up to its commands. -/
def powersavingDisable (logical : LogicalDisk) : Except Error Unit := do
  let physicals ← sysfs.physicals order
  logical.drives.forM fun drive => do
    let _ ← nonNil "physical" (lookupDrive physicals drive)

end Sysfs

def sanityCheck {α : Type} (physicals : Table PhysicalId α) (logical : LogicalDisk) :
    LogicalDisk :=
  if logical.drives.all fun drive => (lookupDrive physicals drive).isNone then
    { logical with state := "failed" }
  else logical

/-- The calls at the start of `matrix.caller` and `matrix.caller_minimalistic`,
and `physical_list` on each array. -/
def Sysfs.survey (sysfs : Sysfs) (order : Order) :
    Except Error (List (LogicalDisk × Table PhysicalId String)) := do
  let logicals ← sysfs.logicals order
  let physicals ← sysfs.physicals order
  (order.visit logicals).forM (sysfs.powersavingDisable order)
  let checked := logicals.map (sanityCheck physicals)
  (order.visit checked).mapM fun logical => do
    let members ← physicalList sysfs.listed logical.id logical.slaves
      logical.raidDisks
    pure (logical, members)

end OpenSan.Einarc
