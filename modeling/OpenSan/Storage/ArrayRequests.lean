import Mathlib.Data.Nat.Log
import OpenSan.Einarc.Flashcache
import OpenSan.Storage.Requests

/-!
# Requests on arrays and caches

The handlers of `san.lua` that create and delete arrays, add hotspares and bind
and unbind SSD caches.
-/

namespace OpenSan.Storage

open OpenSan.Foundation OpenSan.Einarc
open Controller (findByHash)

/-! ## Names of disks -/

def scsiLetters : Nat → Nat → List Char
  | 0, post => [Char.ofNat (96 + post)]
  | i + 1, post =>
      Char.ofNat (96 + post / 26 ^ (i + 1)) :: scsiLetters i (post % 26 ^ (i + 1))

/-- `M.scsi_to_phys`; the logarithm of 0 is minus infinity. -/
def scsiToPhys (id : PhysicalId) : Except Error String :=
  if id.left = 0 then
    .ok ("sd" ++ String.ofList
      (if id.right = 0 then [] else scsiLetters (Nat.log 26 id.right) id.right))
  else .error (.assertion "Invalid internal ID")

def diskNamed (sysfs : Sysfs) (name : String) : Option DiskName :=
  (sysfs.listedDisks.map (·.1)).find? fun disk => diskText disk = name

def diskOf (sysfs : Sysfs) (id : PhysicalId) : Option DiskName :=
  (sysfs.listedDisks.map (·.1)).find? fun disk => disk.id = id

variable (env : Env)

def findPhysical (id : PhysicalId) : Script (Option DiskName) := do
  let physicals ← Action.query fun m => m.sysfs.physicals env.host.order
  let disk ← Action.read fun m => diskOf m.sysfs id
  pure (if (physicals.lookup id).isSome then disk else none)

def findArray (id : Nat) : Script (Option LogicalDisk) := do
  let logicals ← Action.query fun m => m.sysfs.logicals env.host.order
  pure (logicals.find? fun logical => logical.id = id)

/-! ## mdadm -/

/-- `run`: up to `tries` more attempts. -/
def attempts (command : Command) : Nat → Script Bool
  | 0 => pure false
  | tries + 1 => do
      let succeeded ← system env command
      if succeeded then pure true else attempts command tries

def run (command : Command) : Script Bool := attempts env command 4

/-- `M.Physical:zero_superblock`, for the number of a drive; a negative one is
no id. -/
def zeroSuperblock (drive : Int) : Script Unit := do
  Action.require (0 ≤ drive) (.assertion "unable to get self object")
  let _ ← run env (.zeroSuperblock ⟨0, drive.toNat⟩)
  pure ()

def deleteArray (logical : Option LogicalDisk) : Script Unit := do
  let logical ← Action.lift (nonNil "self" logical)
  let stopped ← run env (.mdadmStop logical.id)
  Action.forEach (env.host.order.visit logical.drives) (zeroSuperblock env)
  Action.require (stopped = true) (.failure "einarc:logical.delete() failed")

def nextMd (sysfs : Sysfs) : Option Nat :=
  (List.range 128).find? fun i => !sysfs.listed (.md i)

def addArray (drives : List PhysicalId) : Script Unit := do
  Action.require (drives.length ≠ 0) (.assertion "drives have to be an array")
  let id ← Action.read fun m => nextMd m.sysfs
  match id with
  | none => Action.raise (.assertion "no available md name found")
  | some id => do
      let disks ← Action.query fun m => drives.mapM fun drive => do
        let name ← scsiToPhys drive
        nonNil "device" (diskNamed m.sysfs name)
      let succeeded ← system env (.mdadmCreate id disks)
      Action.require (succeeded = true) (.failure "einarc:logical.add() failed:")

def addHotspare (logical : Option LogicalDisk) (disk : Option DiskName) :
    Script Unit := do
  let logical ← Action.lift (nonNil "self" logical)
  match disk with
  | none => Action.raise (.assertion "invalid Physical object")
  | some disk => do
      let _ ← run env (.zeroSuperblock disk.id)
      let added ← run env (.mdadmAdd logical.id disk)
      Action.require (added = true) (.failure "einarc:logical.hotspare_add() failed")

/-! ## Caches -/

/-- `flashcache_destroy`: its second half raises before it writes. -/
def destroyCache (disk : DiskName) : Script Unit := do
  let _ ← system env (.flashcacheDestroy disk)
  pure ()

def bindCache (disk : Option DiskName) (logical : Option LogicalDisk)
    (modeName : String) : Script Unit := do
  match disk with
  | none => Action.raise (.assertion "invalid Physical object")
  | some disk => do
      let logical ← Action.lift (nonNil "logical" logical)
      Action.require ((Mode.ofName modeName).isSome = true) (.assertion "unknown mode")
      destroyCache env disk
      let _ ← Action.lift (nonNil "uuid" (env.uuid logical.id))
      systemSucceed env (.writeTrailer disk)
      systemSucceed env (.flashcacheCreate disk logical.id)

def unbindMap (disk : DiskName) (info : CachePair) : Script Unit :=
  if info.physical.id = disk.id then do
    let logical ← findArray env info.logicalId
    let logical ← Action.lift (nonNil "logical" logical)
    let _ ← system env (.dmsetupRemove logical.id)
    let physical ← findPhysical env info.physical.id
    let physical ← Action.lift (nonNil "physical" physical)
    destroyCache env physical
  else pure ()

def unbindCache (disk : Option DiskName) : Script Unit := do
  match disk with
  | none => Action.raise (.assertion "invalid Physical object")
  | some disk => do
      let maps ← Action.read fun m => m.sysfs.caches
      Action.forEach maps (unbindMap env disk)

/-! ## Handlers -/

/-- `is_valid_raid_configuration`: the message of a configuration that is not
valid.  `common.is_odd` tests for even numbers. -/
def raidConfiguration (level : String) (count : Nat) : Except Error (Option String) :=
  let validate (valid : Bool) (message : String) : Except Error (Option String) :=
    .ok (if valid then none else some message)
  match level with
  | "linear" => validate (0 < count) "RAID linear level requires at least one drive"
  | "0" => validate (2 ≤ count) "RAID 0 level requires two or more drives"
  | "1" => validate (2 ≤ count) "RAID 1 level requries two or more drives"
  | "4" => validate (3 ≤ count) "RAID 4 level requires three or more drives"
  | "5" => validate (3 ≤ count) "RAID 5 level requires three or more drives"
  | "6" => validate (4 ≤ count) "RAID 6 level requires four or more drives"
  | "10" => validate (4 ≤ count && count % 2 == 0)
      "RAID 10 level requires odd number of four or more drives"
  | _ => .error (.nilValue "VALIDATORS[ raid_level ]")

def disableNonRaidVolumeGroups (page : Page) : Script Unit := do
  let pvs ← Action.query fun m => physicalVolumes env m
  let groups ← Action.read fun m => volumeGroups env m pvs
  Action.forEach groups fun group =>
    if group.physicalVolumes.any fun pv =>
        page.logicals.any fun logical => logical.device = pv.device then pure ()
    else disableGroup env group.name

def prepareIf (need : Prop) [Decidable need] (path : Path) : Script Unit :=
  if need then prepare env path else pure ()

def prepareNew (page : Page) (logical : LogicalDisk) : Script Unit := do
  let device ← Action.read fun m => devicePath m.sysfs logical.id
  prepareIf env (page.logicals.length = 0) device
  prepareIf env (∀ previous ∈ page.logicals, previous.device ≠ device) device

def einarcLogicalAdd (page : Page) (raidLevel : Option String)
    (drives : Option (List PhysicalId)) : Script (Option String) := do
  match raidLevel, drives with
  | none, _ => pure (some "RAID level is not selected")
  | some _, none => pure (some "Drives are not selected")
  | some level, some drives => do
      match ← Action.lift (raidConfiguration level drives.length) with
      | some message => pure (some message)
      | none => do
          restore env
          disableNonRaidVolumeGroups env page
          match ← Action.pcall (addArray env drives) with
          | .error e => pure (some ("Failed to create logical disk: " ++ e.text))
          | .ok _ => do
              let logicals ← Action.query fun m => m.sysfs.logicals env.host.order
              Action.forEach (env.host.order.visit logicals) (prepareNew env page)
              pure none

/-- The part of `einarc_logical_delete` before the array is looked up: stop the
groups, overwrite the label and unbind the caches. -/
def clearArray (page : Page) (logical : ListedLogical) : Script Unit := do
  Action.forEach page.volumeGroups fun group =>
    if group.physicalVolumes.any fun pv => pv.device = logical.device then
      disableGroup env group.name
    else pure ()
  let _ ← Action.pcall (prepare env logical.device)
  let maps ← Action.read fun m => m.sysfs.caches
  Action.forEach maps fun map =>
    if map.logicalId = logical.id then do
      let disk ← findPhysical env map.physical.id
      unbindCache env disk
    else pure ()

def einarcLogicalDelete (page : Page) (logicalIdHash : String) :
    Script (Option String) := do
  let logical ← Action.lift (findLogical env page logicalIdHash)
  clearArray env page logical
  let array ← findArray env logical.id
  match ← Action.pcall (deleteArray env array) with
  | .error e => pure (some ("Failed to delete logical disk: " ++ e.text))
  | .ok _ => pure none

def findPhysicalId (page : Page) (physicalIdHash : String) :
    Except Error PhysicalId := do
  let text (id : PhysicalId) : String := toString id.left ++ ":" ++ toString id.right
  let found ← findByHash env.host physicalIdHash
    ((env.host.order.visit page.physicals.keys).map text)
  nonNil "physical" (page.physicals.keys.find? fun id => text id = found)

/-- `einarc_logical_hotspare_add`; the sizes of the form give a warning only. -/
def einarcLogicalHotspareAdd (page : Page) (physicalIdHash : String)
    (logicalId : Option Nat) (minimalSize physicalSize : Option ℚ) :
    Script (Option String) := do
  let physicalId ← Action.lift (findPhysicalId env page physicalIdHash)
  match logicalId with
  | none => pure (some "Logical disk is not selected")
  | some logicalId => do
      let minimal ← Action.lift (nonNil "logical_minimal_size" minimalSize)
      let actual ← Action.lift (nonNil "physical_size" physicalSize)
      let message := if minimal < actual then
          some "Newly added dedicated hotspare disk is bigger than needed" else none
      restore env
      disableNonRaidVolumeGroups env page
      let logical ← findArray env logicalId
      let disk ← findPhysical env physicalId
      match ← Action.pcall (addHotspare env logical disk) with
      | .error e => pure (some ("Failed to add dedicated hotspare disk: " ++ e.text))
      | .ok _ => pure message

def einarcLogicalFlashcacheBind (page : Page) (physicalIdHash : String)
    (logicalId : Option Nat) (mode : Option String) : Script (Option String) := do
  let physicalId ← Action.lift (findPhysicalId env page physicalIdHash)
  match logicalId, mode with
  | none, _ => pure (some "Logical disk is not selected")
  | some _, none => pure (some "Caching mode is not selected")
  | some logicalId, some mode => do
      let disk ← findPhysical env physicalId
      let logical ← findArray env logicalId
      match ← Action.pcall (bindCache env disk logical mode) with
      | .error e => pure (some ("Failed to bind SSD cache: " ++ e.text))
      | .ok _ => pure none

def einarcLogicalFlashcacheUnbind (page : Page) (physicalIdHash : String) :
    Script (Option String) := do
  let physicalId ← Action.lift (findPhysicalId env page physicalIdHash)
  let disk ← findPhysical env physicalId
  match ← Action.pcall (unbindCache env disk) with
  | .error e => pure (some ("Failed to unbind SSD cache: " ++ e.text))
  | .ok _ => pure none

end OpenSan.Storage
