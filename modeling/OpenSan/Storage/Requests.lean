import OpenSan.Controller.Requests
import OpenSan.Storage.Page

/-!
# Storage requests

The handlers of `san.lua` for arrays, SSD caches and logical volumes, with the
functions of `lvm.lua` and `einarc.lua` they call.  A handler returns the error
message of the page it redirects to, if there is one.
-/

namespace OpenSan.Storage

open OpenSan.Foundation OpenSan.Einarc
open Controller (findByHash)

variable (env : Env)

/-! ## LVM -/

def prepare (path : Path) : Script Unit := do
  Action.require (isDisk path = true) (.assertion "incorrect disk specified")
  systemSucceed env (.zero path)

def createPv (path : Path) : Script Unit := do
  Action.require (isDisk path = true) (.assertion "incorrect disk specified")
  prepare env path
  systemSucceed env (.pvcreate path)

def disableGroup (group : String) : Script Unit :=
  systemSucceed env (.vgchangeDisable group)

def rescanPvs : Script Unit := do
  let _ ← system env .pvscan
  pure ()

def rescanGroups : Script Unit := do
  let _ ← system env .vgscan
  let _ ← system env .vgchangeActivate
  pure ()

def restore : Script Unit := do
  rescanPvs env
  rescanGroups env
  let _ ← system env .lvscan
  pure ()

def createGroup (pvs : List ListedPv) : Script Unit := do
  Action.require (pvs.length ≠ 0) (.assertion "no physical volumes specified")
  let groups ← Action.read fun m => volumeGroups env m pvs
  Action.require (env.nextVgName ∉ groups.map (·.name))
    (.failure "lvm:VolumeGroup.create(): such name already exists")
  Action.require (∀ pv ∈ pvs, pv.group = none)
    (.failure "lvm:VolumeGroup.create(): disk already is in VolumeGroup")
  systemSucceed env (.vgcreate env.nextVgName (pvs.map (·.device)))

def createVolume (group name : String) (size : ℚ) : Script Unit := do
  Action.require (0 ≤ size) (.assertion "non-positive size specified")
  let succeeded ← system env (.lvcreate ⟨group, name⟩ size)
  Action.require (succeeded = true)
    (.failure "lvm:VolumeGroup:logical_volume() failed: ")

def removeVolume (key : VolumeName) : Script Unit :=
  systemSucceed env (.lvremove key)

/-- `M.Snapshot:resize`, on the size the page shows. -/
def resizeSnapshot (key : VolumeName) (shown size : ℚ) : Script Unit := do
  Action.require (0 ≤ size) (.assertion "non-positive size specified")
  if size ≤ shown then pure ()
  else systemSucceed env (.lvresize key size)

def expectedSize (size extent : ℚ) : Except Error ℚ :=
  if 0 < extent then .ok (size - (size - extent * (size / extent).floor) - extent)
  else .error (.assertion "non-positive extent's size")

def boundsCheck (pv : ListedPv) (logicalSize : ℚ) : Script Unit := do
  let expected ← Action.lift (expectedSize logicalSize pv.extent)
  if pv.total < expected then systemSucceed env (.pvresize pv.device) else pure ()

def findPv (device : Path) : Script (Option ListedPv) := do
  let pvs ← Action.query fun m => physicalVolumes env m
  pure ((env.host.order.visit pvs).find? fun pv => pv.device = device)

/-! ## Adding a volume -/

def findLogical (page : Page) (logicalIdHash : String) : Except Error ListedLogical := do
  let text ← findByHash env.host logicalIdHash
    ((env.host.order.visit page.logicals).map fun logical => toString logical.id)
  nonNil "logical" (page.logicals.find? fun logical => toString logical.id = text)

/-- The last group of the page with a physical volume on the device. -/
def groupOn (page : Page) (device : Path) : Option ListedGroup :=
  page.volumeGroups.reverse.find? fun group =>
    group.physicalVolumes.any fun pv => pv.device = device

/-- The page shows a volume of the group; the loop is over `ipairs`. -/
def hasVolume (page : Page) (group : String) : Bool :=
  page.origins.any fun volume => volume.key.group = group

def createGroupOn (device : Path) : Script (Except String (Option ListedGroup)) := do
  rescanPvs env
  let pv ← findPv env device
  match ← Action.pcall (createGroup env pv.toList) with
  | .error e =>
      pure (.error ("Failed to create VolumeGroup on logical disk: " ++ e.text))
  | .ok _ => do
      rescanPvs env
      rescanGroups env
      let pv ← findPv env device
      let groups ← Action.read fun m => volumeGroups env m pv.toList
      pure (.ok groups.head?)

/-- The branch of `lvm_logical_volume_add` that starts from scratch. -/
def startFromScratch (device : Path) : Script (Except String (Option ListedGroup)) := do
  match ← Action.pcall (createPv env device) with
  | .error e =>
      pure (.error ("Failed to create PhysicalVolume on logical disk: " ++ e.text))
  | .ok _ => createGroupOn env device

def addVolumeTo (page : Page) (group : Option ListedGroup) (name : String) (size : ℚ) :
    Script (Option String) := do
  match group with
  | none => Action.raise (.assertion "unable to find corresponding volume group")
  | some group =>
      if page.origins.any fun volume => volume.key = ⟨group.name, name⟩ then
        pure (some "Logical disk can not contain equally named logical volumes")
      else do
        match ← Action.pcall (createVolume env group.name name size) with
        | .error e => pure (some ("Failed to add logical volume: " ++ e.text))
        | .ok _ => pure none

def addToGroup (page : Page) (logical : ListedLogical) (group : ListedGroup)
    (name : String) (size : ℚ) : Script (Option String) := do
  let pv ← findPv env logical.device
  let pv ← Action.lift (nonNil "physical_volume" pv)
  boundsCheck env pv logical.size
  addVolumeTo env page (some group) name size

def addFromScratch (page : Page) (logical : ListedLogical) (found : Option ListedGroup)
    (name : String) (size : ℚ) : Script (Option String) := do
  Action.forEach found.toList fun group => disableGroup env group.name
  match ← startFromScratch env logical.device with
  | .error message => pure (some message)
  | .ok group => addVolumeTo env page group name size

/-- `lvm_logical_volume_add`, after the checks of the form. -/
def placeVolume (page : Page) (logical : ListedLogical) (name : String) (size : ℚ) :
    Script (Option String) := do
  restore env
  let found := groupOn page logical.device
  match found.filter fun group => hasVolume page group.name with
  | some group => addToGroup env page logical group name size
  | none => addFromScratch env page logical found name size

def lvmLogicalVolumeAdd (page : Page) (logicalIdHash : String) (name : Option String)
    (size : Option ℚ) : Script (Option String) := do
  let logical ← Action.lift (findLogical env page logicalIdHash)
  if name = some "" then
    pure (some "Logical volume name is not set")
  else do
    let name ← Action.lift (nonNil "name" name)
    if Lvm.nameIsValid name = false then
      pure (some "Invalid logical volume name")
    else do
      let size ← Action.lift (nonNil "size" size)
      Action.require (0 < size)
        (.assertion "incorrect non-positive logical volume's size")
      placeVolume env page logical name size

/-! ## Removing a volume -/

def findGroupName (page : Page) (groupHash : String) : Except Error String :=
  findByHash env.host groupHash
    (env.host.order.visit (page.volumeGroups.map (·.name)).dedup)

def findVolumeName (page : Page) (volumeHash : String) : Except Error String :=
  findByHash env.host volumeHash
    (env.host.order.visit (page.volumes.map (·.key.name)).dedup)

/-- `is_last`: the loop over `ipairs` sees the volumes, not the snapshots. -/
def isLast (page : Page) (group name : String) : Bool :=
  !page.origins.any fun volume => volume.key.group = group && volume.key.name ≠ name

/-- The branch of `lvm_logical_volume_remove` for the last volume. -/
def removeLast (page : Page) (group : String) : Script Unit :=
  Action.forEach page.volumeGroups fun listed =>
    if listed.name = group then do
      disableGroup env listed.name
      Action.forEach listed.physicalVolumes fun pv => prepare env pv.device
    else pure ()

def lvmLogicalVolumeRemove (page : Page) (groupHash volumeHash : String) :
    Script (Option String) := do
  let group ← Action.lift (findGroupName env page groupHash)
  let name ← Action.lift (findVolumeName env page volumeHash)
  if isLast page group name then do
    removeLast env page group
    pure none
  else do
    match ← Action.pcall (removeVolume env ⟨group, name⟩) with
    | .error e => pure (some ("Failed to remove logical volume: " ++ e.text))
    | .ok _ => pure none

/-! ## Resizing a snapshot -/

def findVolume (page : Page) (key : VolumeName) : Except Error ListedVolume :=
  match (env.host.order.visit page.volumes).reverse.find? fun volume =>
      volume.key = key with
  | some volume => .ok volume
  | none => .error (.assertion "unable to find original logical volume")

def lvmLogicalVolumeSnapshotResize (page : Page) (groupHash volumeHash : String)
    (sizeNew : Option ℚ) (apply : Except Error Unit) : Script (Option String) := do
  let group ← Action.lift (findGroupName env page groupHash)
  let name ← Action.lift (findVolumeName env page volumeHash)
  let pv ← Action.lift (nonNil "physical_volume"
    ((env.host.order.visit page.physicalVolumes).find? fun pv => pv.group = some group))
  let logical ← Action.lift (nonNil "logical"
    ((env.host.order.visit page.logicals).find? fun logical =>
      logical.device = pv.device))
  boundsCheck env pv logical.size
  let size ← Action.lift (nonNil "size" sizeNew)
  Action.require (0 < size) (.assertion "incorrect non-positive snapshot's size")
  let found ← Action.lift (findVolume env page ⟨group, name⟩)
  if size < found.size then
    pure (some "Snapshot size has to be bigger than it's current size")
  else do
    match ← Action.pcall (resizeSnapshot env ⟨group, name⟩ found.size size) with
    | .error e => pure (some ("Failed to resize snapshot: " ++ e.text))
    | .ok _ =>
        match apply with
        | .error e => pure (some ("Failed to apply iSCSI configuration: " ++ e.text))
        | .ok _ => pure none

end OpenSan.Storage
