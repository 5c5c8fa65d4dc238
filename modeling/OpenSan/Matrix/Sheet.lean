import Mathlib.Algebra.Order.Ring.Rat
import Mathlib.Data.List.AList
import OpenSan.Einarc.Physicals
import OpenSan.Foundation.Action
import OpenSan.Foundation.Pattern

/-!
# The table of the main page

`M.overall` of `matrix.lua` lays the disks, arrays, logical volumes, access
patterns and sessions of the system out as the cells of one table.  A cell is
a reference to an object that other tables hold too, so its `rowspan` is a
field of the object and not of the cell.  Line numbers are quotients of counts
and need not be integers; that they are is a theorem about the layout.
-/

namespace OpenSan.Matrix

open OpenSan.Foundation OpenSan.Einarc

/-! ## Greatest common divisors -/

/-- `M.gcd` with a bound on the number of calls. -/
def gcdLoop : Nat → Int → Int → Int
  | 0, x, _ => |x|
  | fuel + 1, x, y => if y = 0 then |x| else gcdLoop fuel y (x.fmod y)

def gcd (x y : Int) : Int := gcdLoop (y.natAbs + 1) x y

/-- `M.lcm`, on the counts of disks, volumes, patterns and sessions as whole numbers.
`Matrix.Divisors` has it on doubles, and the bound up to which the two agree. -/
def lcm (x y : Int) : Int :=
  if x = 0 ∧ y = 0 then 0 else |x * y| / gcd x y

def lcmCount (x y : Nat) : Nat := (lcm x y).toNat

/-! ## Objects -/

/-- The objects a cell can show.  The free disks are shown by copies of their
records, made before anything is changed. -/
inductive Ref where
  | logical (id : Nat)
  | physical (id : PhysicalId)
  | free (id : PhysicalId)
  | volume (device : String)
  | pattern (index : Nat)
  | session (sectionName name : String)
  | group (name : String)
  deriving DecidableEq, Repr

/-- A size in MiB, or the table that `M.mib_humanize` puts in its place. -/
inductive Amount where
  | mib (size : ℚ)
  | human (value unit : String)
  deriving DecidableEq

structure Highlight where
  left : Bool := false
  top : Bool := false
  right : Bool := false
  bottom : Bool := false
  color : Option String := none
  backgroundColor : Option String := none
  deriving DecidableEq, Repr

/-- The fields of an object that the layout and the filters read or write.
`size` is the size of a disk or volume, the capacity of an array and the
allocated space of a volume group. -/
structure Record where
  state : String := ""
  size : Amount := .mib 0
  sizeMib : Option ℚ := none
  rowspan : Option ℚ := none
  colspan : Option Nat := none
  highlight : Option Highlight := none
  logicalId : Option Nat := none
  hotspareAvailability : Option (List Nat) := none
  hotspareMinimalSizes : List (Nat × ℚ) := []
  percentage : Option Int := none
  deletable : Option Bool := none
  resizable : Option Bool := none
  unbindable : Option Bool := none

structure Disk where
  state : String
  size : ℚ

structure VolumeGroup where
  name : String
  allocated : ℚ
  total : ℚ

structure Volume where
  size : ℚ
  group : VolumeGroup
  isSnapshot : Bool
  snapshots : List String

structure Logical where
  physicals : Table PhysicalId String
  cachedBy : Option PhysicalId
  volumes : Table String Volume
  volumeGroup : Option VolumeGroup
  level : Option String
  state : String
  capacity : ℚ

structure Pattern where
  sectionName : String
  name : String
  filename : Option String
  lun : Int
  deriving DecidableEq, Repr

/-- The argument of `M.overall`.  `sessions` holds the names of the sessions of
each section, which are the keys of a table. -/
structure Data where
  physicals : Table PhysicalId Disk
  logicals : Table Nat Logical
  accessPatterns : List Pattern
  sessions : Table String { names : List String // names.Nodup }

def Data.volume (data : Data) (device : String) : Option Volume :=
  data.logicals.entries.findSome? fun e => e.2.volumes.lookup device

def Data.groups (data : Data) : List VolumeGroup :=
  data.logicals.entries.flatMap fun e =>
    e.2.volumeGroup.toList ++ e.2.volumes.entries.map fun v => v.2.group

def Data.sessionNames (data : Data) (sectionName : String) : List String :=
  match data.sessions.lookup sectionName with
  | some names => names.val
  | none => []

/-! ## The sheet -/

inductive Column where
  | logical
  | physical
  | volume
  | pattern
  | session
  deriving DecidableEq, Repr

abbrev Line := Column → Option Ref

def Line.empty : Line := fun _ => none

structure Sheet where
  lines : Table ℚ Line
  records : Ref → Record
  /-- the disks with a record in `data.physicals` -/
  physicals : List PhysicalId
  physicalsFree : List PhysicalId
  /-- the keys of `logical.physicals` -/
  members : Nat → List PhysicalId
  /-- `sessions_avail` of each pattern, empty when the field is not set -/
  sessionsAvail : Nat → List Ref

abbrev Program := Action Sheet Error

namespace Sheet

def cell (s : Sheet) (column : Column) (row : ℚ) : Option Ref :=
  (s.lines.lookup row).bind fun line => line column

def rowspan (s : Sheet) (ref : Ref) : Option ℚ := (s.records ref).rowspan

def update (s : Sheet) (ref : Ref) (f : Record → Record) : Sheet :=
  { s with records := Function.update s.records ref (f (s.records ref)) }

def setLine (s : Sheet) (row : ℚ) (line : Line) : Sheet :=
  { s with lines := s.lines.insert row line }

end Sheet

/-! ## Patterns and their sessions -/

def boundPatterns (data : Data) (device : String) : List (Pattern × Nat) :=
  data.accessPatterns.zipIdx.filter fun entry => entry.1.filename = some device

/-- `logical_volume.access_patterns`, empty when the field is not set. -/
def patternTable (data : Data) (device : String) : Table String Nat :=
  (boundPatterns data device).foldl
    (fun table entry => table.insert entry.1.name entry.2) ∅

def patternsBy (data : Data) (order : Order) (key : Pattern → String) :
    Table String (List (Pattern × Nat)) :=
  uniqueKeys (fun entry => key entry.1) (order.visit data.accessPatterns.zipIdx)

def less (a b : String) : Bool := decide (a < b)

def fillSessionsAvail (data : Data) (order : Order) : Program Unit := do
  let sections := patternsBy data order (·.sectionName)
  Action.forEach (order.visit sections.keys) fun sectionName => do
    let sessionNames := order.visit (data.sessionNames sectionName)
    let first ← Action.lift (nonNil "access_pattern"
      ((sections.lookup sectionName).bind (·.head?)))
    if sessionNames.length > 0 then do
      let sorted ← Action.lift (Sort.sort less sessionNames)
      Action.modify fun s => { s with
        sessionsAvail := Function.update s.sessionsAvail first.2
          (sorted.map (.session sectionName)) }
    else pure ()

/-! ## The lines of one array -/

def countPattern (sessionsAvail : Nat → List Ref) (sessionsMax : Nat)
    (entry : Pattern × Nat) : Nat :=
  if (sessionsAvail entry.2).length > 0 then
    lcmCount (sessionsAvail entry.2).length sessionsMax
  else sessionsMax

/-- The rounds of the loop over the volumes: the values of
`access_patterns_quantity_max` and `sessions_quantity_max`. -/
def countVolume (data : Data) (sessionsAvail : Nat → List Ref)
    (quantityMax : Nat × Nat) (device : String) : Nat × Nat :=
  let bound := boundPatterns data device
  (if bound.length ≠ 0 then lcmCount bound.length quantityMax.1
    else quantityMax.1,
   bound.foldl (countPattern sessionsAvail) quantityMax.2)

def linesQuantity (data : Data) (order : Order) (logical : Logical)
    (sessionsAvail : Nat → List Ref) (physicalsQuantity : Nat) : Nat :=
  let volumesQuantity := logical.volumes.keys.length
  let quantityMax := (order.visit logical.volumes.keys).foldl
    (countVolume data sessionsAvail) (1, 1)
  if volumesQuantity ≠ 0 then
    lcmCount physicalsQuantity (volumesQuantity * quantityMax.1 * quantityMax.2)
  else physicalsQuantity

def fill (offset : ℚ) (column : Column) (ref : Ref) (rowspan : ℚ) :
    Program Unit := do
  let line ← Action.query fun s => nonNil "matrix" (s.lines.lookup offset)
  Action.modify fun s =>
    s.setLine offset (Function.update line column (some ref))
  Action.modify fun s => s.update ref fun r => { r with rowspan := some rowspan }

def ensureLine (offset : ℚ) : Program Unit :=
  Action.modify fun s =>
    if (s.lines.lookup offset).isNone then s.setLine offset Line.empty else s

def cachedMembers (physicals : List PhysicalId) (logical : Logical) :
    List PhysicalId :=
  match logical.cachedBy with
  | none => logical.physicals.keys
  | some id =>
      if id ∈ physicals then logical.physicals.keys.insert id
      else logical.physicals.keys.erase id

def fillLines (currentLine linesQuantity : Nat) : Program Unit :=
  Action.forEach (List.range' currentLine linesQuantity) fun i =>
    Action.modify fun s => s.setLine (i : ℚ) Line.empty

def failedDisk : Record := { state := "failed", size := .mib 0 }

def claimPhysical (logicalId : Nat) (id : PhysicalId) : Program Unit :=
  Action.modify fun s =>
    if id ∈ s.physicals then
      let claimed := if (s.records (.physical id)).state = toString logicalId then
          s.update (.physical id) fun r => { r with state := "allocated" }
        else s
      { claimed with physicalsFree := s.physicalsFree.erase id }
    else
      { s.update (.physical id) fun _ => failedDisk with
        physicals := s.physicals ++ [id] }

def fillPhysicals (order : Order) (logicalId currentLine linesQuantity : Nat) :
    Program Unit := do
  let members ← Action.read fun s => s.members logicalId
  Action.forEach (order.visit members) (claimPhysical logicalId)
  let physicalRowspan : ℚ := linesQuantity / members.length
  let sorted ← Action.query fun s => Physical.sort order
    (fun id => (s.records (.physical id)).state) members
  Action.forEach sorted.zipIdx fun entry =>
    fill (currentLine + entry.2 * physicalRowspan) .physical
      (.physical entry.1) physicalRowspan

/-! ## Logical volumes -/

/-- `(.+).%d%d%d%d.%d%d.%d%d.%d%d.%d%d.%d%d`. -/
def snapshotRegexp : List Pattern.Item :=
  Pattern.capture (Pattern.plus Pattern.any) ++
    [.one Pattern.any, .one Pattern.digit, .one Pattern.digit,
      .one Pattern.digit, .one Pattern.digit] ++
    (List.replicate 5 [Pattern.Item.one Pattern.any, .one Pattern.digit,
      .one Pattern.digit]).flatten

def snapshotOrigin (device : String) : Option String :=
  ((Pattern.search snapshotRegexp device.toList).bind (·.head?)).map
    String.ofList

/-- The order function of the volumes of one array. -/
def volumeBefore (a b : String) : Bool :=
  let aSnapshot := snapshotOrigin a
  let bSnapshot := snapshotOrigin b
  if aSnapshot = some b then false
  else if some a = bSnapshot then true
  else
    match aSnapshot, bSnapshot with
    | some aOrigin, none => less aOrigin b
    | none, some bOrigin => less a bOrigin
    | _, _ => less a b

def fillSessions (refs : List Ref) (apOffset apRowspan : ℚ) : Program Unit := do
  let sessionRowspan : ℚ := apRowspan / refs.length
  Action.forEach refs.zipIdx fun entry => do
    let sOffset := apOffset + entry.2 * sessionRowspan
    ensureLine sOffset
    fill sOffset .session entry.1 sessionRowspan

def fillPattern (table : Table String Nat) (apOffset apRowspan : ℚ)
    (name : String) : Program Unit := do
  ensureLine apOffset
  let index ← Action.lift (nonNil "access_pattern" (table.lookup name))
  fill apOffset .pattern (.pattern index) apRowspan
  let apSessions ← Action.read fun s => s.sessionsAvail index
  if apSessions ≠ [] then fillSessions apSessions apOffset apRowspan
  else pure ()

def fillVolume (data : Data) (order : Order) (offset volumeRowspan : ℚ)
    (device : String) : Program Unit := do
  fill offset .volume (.volume device) volumeRowspan
  let table := patternTable data device
  if table.keys ≠ [] then do
    let patternRowspan : ℚ := volumeRowspan / table.keys.length
    let names ← Action.lift (Sort.sort less (order.visit table.keys))
    Action.forEach names.zipIdx fun entry =>
      fillPattern table (offset + entry.2 * patternRowspan) patternRowspan entry.1
  else pure ()

def fillVolumes (data : Data) (order : Order) (logical : Logical)
    (currentLine linesQuantity : Nat) : Program Unit := do
  let devices ← Action.lift
    (Sort.sort volumeBefore (order.visit logical.volumes.keys))
  let volumeRowspan : ℚ := linesQuantity / logical.volumes.keys.length
  Action.forEach devices.zipIdx fun entry =>
    fillVolume data order (currentLine + entry.2 * volumeRowspan) volumeRowspan
      entry.1

/-! ## All arrays, then what is left -/

def fillLogical (data : Data) (order : Order) (logicalId : Nat)
    (logical : Logical) (currentLine : Nat) : Program Nat := do
  Action.modify fun s => { s with
    members := Function.update s.members logicalId
      (cachedMembers s.physicals logical) }
  let quantity ← Action.read fun s =>
    linesQuantity data order logical s.sessionsAvail (s.members logicalId).length
  fillLines currentLine quantity
  fill currentLine .logical (.logical logicalId) quantity
  fillPhysicals order logicalId currentLine quantity
  fillVolumes data order logical currentLine quantity
  pure (currentLine + quantity)

def fillLogicals (data : Data) (order : Order) :
    List Nat → Nat → Program Nat
  | [], currentLine => pure currentLine
  | logicalId :: logicalIds, currentLine => do
      let logical ← Action.lift (nonNil "logical" (data.logicals.lookup logicalId))
      let futureLine ← fillLogical data order logicalId logical currentLine
      fillLogicals data order logicalIds futureLine

def fillFree (order : Order) (finalLine : Nat) : Program Unit := do
  let sorted ← Action.query fun s => Physical.sort order
    (fun id => (s.records (.free id)).state) s.physicalsFree
  Action.forEach (order.visit sorted).zipIdx fun entry => do
    let currentLine : ℚ := finalLine + entry.2
    Action.modify fun s => s.setLine currentLine
      (Function.update Line.empty .physical (some (.free entry.1)))
    Action.modify fun s =>
      s.update (.free entry.1) fun r => { r with rowspan := some 1 }

/-- The positions of the patterns without a `filename`, sorted by name. -/
def unboundPatterns (data : Data) (order : Order) :
    Except Error (List Nat) := do
  let names := patternsBy data order (·.name)
  let sorted ← Sort.sort less (order.visit names.keys)
  let firsts ← sorted.mapM fun name =>
    nonNil "access_pattern" ((names.lookup name).bind (·.head?))
  pure ((firsts.filter fun entry => entry.1.filename.isNone).map (·.2))

def fillUnbound (data : Data) (order : Order) (finalLine : Nat) :
    Program Unit := do
  let unbound ← Action.lift (unboundPatterns data order)
  Action.forEach unbound.zipIdx fun entry => do
    let currentLine : ℚ := finalLine + entry.2
    ensureLine currentLine
    let hasPhysical ← Action.read fun s => (s.cell .physical currentLine).isSome
    fill currentLine .pattern (.pattern entry.1) 1
    Action.modify fun s => s.update (.pattern entry.1) fun r =>
      { r with colspan := some (if hasPhysical then 2 else 3) }

def Data.record (data : Data) : Ref → Record
  | .physical id | .free id =>
      match data.physicals.lookup id with
      | some disk => { state := disk.state, size := .mib disk.size }
      | none => {}
  | .logical id =>
      match data.logicals.lookup id with
      | some logical => { state := logical.state, size := .mib logical.capacity }
      | none => {}
  | .volume device =>
      match data.volume device with
      | some volume => { size := .mib volume.size }
      | none => {}
  | .group name =>
      match data.groups.find? fun group => group.name = name with
      | some group => { size := .mib group.allocated }
      | none => {}
  | .pattern _ | .session _ _ => {}

def Data.initial (data : Data) : Sheet where
  lines := ∅
  records := data.record
  physicals := data.physicals.keys
  physicalsFree := data.physicals.keys
  members := fun _ => []
  sessionsAvail := fun _ => []

def overall (data : Data) (order : Order) : Program Unit := do
  let logicalIds ← Action.lift
    (Sort.sort (fun a b => decide (a < b)) (order.visit data.logicals.keys))
  fillSessionsAvail data order
  let finalLine ← fillLogicals data order logicalIds 1
  fillFree order finalLine
  fillUnbound data order finalLine

end OpenSan.Matrix
