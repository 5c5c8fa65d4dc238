import OpenSan.Lvm.Names
import OpenSan.Storage.Machine

/-!
# The lists of LVM and the data of a page

`matrix.caller` reads the arrays, disks, physical volumes, groups and logical
volumes, and the page carries them.  A request that is sent from the page
brings them back as `data`, whatever has happened since.
-/

namespace OpenSan.Storage

open OpenSan.Foundation OpenSan.Einarc

/-! ## Physical volumes and groups -/

def isDisk : Path → Bool
  | .md _ | .flashcache _ => true
  | .other path =>
      let name := Pattern.plus (fun c => c != '/') ++ [Pattern.Item.finish]
      (Pattern.anchored (Pattern.literal "/dev/" ++ name) path.toList).isSome ||
        (Pattern.anchored (Pattern.literal "/dev/mapper/" ++ name) path.toList).isSome

/-- `M.Flashcache.path_cached`: what stands after the second letter of a name
is taken for the number of an array. -/
def pathCached (env : Env) (sysfs : Sysfs) : Path → Path
  | .md id => devicePath sysfs id
  | .flashcache id => .flashcache id
  | .other path =>
      match env.tonumber (String.ofList (path.toList.drop 7)) with
      | some id =>
          if (sysfs.cacheOf id).isSome then
            .other ("/dev/mapper/flashcache" ++ String.ofList (path.toList.drop 5))
          else .other path
      | none => .other path

structure ListedPv where
  device : Path
  group : Option String
  total : ℚ
  extent : ℚ

structure ListedGroup where
  name : String
  physicalVolumes : List ListedPv

def physicalVolumes (env : Env) (m : Machine) : Except Error (List ListedPv) :=
  m.pvs.list.mapM fun pv =>
    let device := pathCached env m.sysfs pv.path
    if isDisk device then .ok ⟨device, pv.group, pv.total, pv.extent⟩
    else .error (.assertion "device is not a disk")

def volumeGroups (env : Env) (m : Machine) (pvs : List ListedPv) : List ListedGroup :=
  (env.host.order.visit m.groups).filterMap fun name =>
    let members := pvs.filter fun pv => pv.group = some name
    if members = [] then none else some ⟨name, members⟩

/-! ## Logical volumes -/

structure ListedVolume where
  key : VolumeName
  size : ℚ

structure ListedOrigin where
  key : VolumeName
  size : ℚ
  snapshots : List ListedVolume

/-- A line of `lvs` that is taken for the header. -/
def isHeader (key : VolumeName) : Bool := key.name = "LV" && key.group = "VG"

/-- The lines of `lvs -O origin`: volumes without an origin come first. -/
def lvsLines (order : Order) (volumes : Volumes) : List Volume :=
  order.visit (volumes.list.filter fun volume => volume.origin.isNone) ++
    order.visit (volumes.list.filter fun volume => volume.origin.isSome)

/-- One round of the loop of `M.LogicalVolume.list`.  A snapshot whose origin
has not been listed is listed as a volume. -/
def listVolume (groups : List String) (result : Table VolumeName ListedOrigin)
    (volume : Volume) : Except Error (Table VolumeName ListedOrigin) :=
  let listedOrigin := volume.origin.bind fun origin =>
    result.lookup ⟨volume.key.group, origin⟩
  if isHeader volume.key then .ok result
  else if volume.active = false then .ok result
  else match listedOrigin with
    | some origin =>
        if volume.key.group ∈ groups then
          .ok (result.insert origin.key { origin with
            snapshots := origin.snapshots ++ [⟨volume.key, volume.size⟩] })
        else .ok result
    | none =>
        if volume.key.group ∈ groups then
          if Lvm.nameIsValid volume.key.name then
            .ok (result.insert volume.key ⟨volume.key, volume.size, []⟩)
          else .error (.failure "lvm:LogicalVolume:new() incorrect name supplied")
        else .ok result

def logicalVolumes (env : Env) (m : Machine) (groups : List ListedGroup) :
    Except Error (List ListedOrigin) := do
  let result ← (lvsLines env.host.order m.volumes).foldlM
    (listVolume (groups.map (·.name))) ∅
  pure (env.host.order.visit (result.entries.map (·.2)))

/-! ## The page -/

structure ListedLogical where
  id : Nat
  device : Path
  size : ℚ

/-- The `data` of a request.  In `logical_volumes` the volumes are the array
part of the table, and the snapshots stand under their devices. -/
structure Page where
  logicals : List ListedLogical
  physicals : Table PhysicalId Sysfs.Physical
  physicalVolumes : List ListedPv
  volumeGroups : List ListedGroup
  origins : List ListedVolume
  snapshots : List ListedVolume

def Page.volumes (page : Page) : List ListedVolume := page.origins ++ page.snapshots

/-- The part of `matrix.caller` that reads what the page carries. -/
def loadPage (env : Env) (m : Machine) : Except Error Page := do
  let _ ← m.sysfs.survey env.host.order
  let logicals ← m.sysfs.logicals env.host.order
  let physicals ← m.sysfs.physicals env.host.order
  let pvs ← physicalVolumes env m
  let groups := volumeGroups env m pvs
  let volumes ← logicalVolumes env m groups
  pure {
    logicals := logicals.map fun logical =>
      ⟨logical.id, devicePath m.sysfs logical.id, logical.capacity⟩
    physicals := physicals
    physicalVolumes := pvs
    volumeGroups := groups
    origins := volumes.map fun volume => ⟨volume.key, volume.size⟩
    snapshots := volumes.flatMap (·.snapshots) }

end OpenSan.Storage
