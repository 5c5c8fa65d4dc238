import OpenSan.Foundation.Action
import OpenSan.Foundation.Lua
import OpenSan.Foundation.Pattern

/-!
# SSD caches

The `Flashcache` part of `einarc.lua`.  A cache binding lives in the table of
the device mapper and in a trailer in the last 100 bytes of the disk.  The
flashcache tools are not part of the repository: `Tools` says what is known of
them.  They may fail, and none of them touches a trailer.
-/

namespace OpenSan.Einarc

open OpenSan.Foundation

inductive Mode where
  | writeThrough
  | writeAround
  | writeBack
  deriving DecidableEq, Repr

namespace Mode

def ofName : String → Option Mode
  | "WRITE_THROUGH" => some .writeThrough
  | "WRITE_AROUND" => some .writeAround
  | "WRITE_BACK" => some .writeBack
  | _ => none

def name : Mode → String
  | .writeThrough => "WRITE_THROUGH"
  | .writeAround => "WRITE_AROUND"
  | .writeBack => "WRITE_BACK"

def letter : Mode → Char
  | .writeThrough => 'T'
  | .writeAround => 'A'
  | .writeBack => 'B'

def ofLetter : Char → Option Mode
  | 'T' => some .writeThrough
  | 'A' => some .writeAround
  | 'B' => some .writeBack
  | _ => none

def loadFirst : Mode → Bool
  | .writeBack => true
  | _ => false

@[simp] theorem ofName_name (mode : Mode) : ofName mode.name = some mode := by
  cases mode <;> rfl

@[simp] theorem ofLetter_letter (mode : Mode) : ofLetter mode.letter = some mode := by
  cases mode <;> rfl

end Mode

structure CacheMap where
  disk : String
  array : Nat
  mode : Mode
  deriving DecidableEq, Repr

/-- What the flashcache tools read and write: the device-mapper table, and the
superblocks of write-back caches, each naming the cached array. -/
structure Kernel where
  maps : List CacheMap
  superblock : String → Option Nat

def Kernel.DiskFree (kernel : Kernel) (disk : String) : Prop :=
  ∀ map ∈ kernel.maps, map.disk ≠ disk

def Kernel.ArrayFree (kernel : Kernel) (array : Nat) : Prop :=
  ∀ map ∈ kernel.maps, map.array ≠ array

structure Tools where
  /-- `flashcache_create`; `none` when it fails -/
  create : Kernel → CacheMap → Option Kernel
  /-- `flashcache_destroy` -/
  destroy : Kernel → String → Kernel
  /-- `dmsetup remove` -/
  remove : Kernel → Nat → Kernel
  /-- `flashcache_load` -/
  load : Kernel → String → Kernel
  create_free : ∀ {kernel map after}, create kernel map = some after →
    kernel.ArrayFree map.array
  create_maps : ∀ {kernel map after}, create kernel map = some after →
    after.maps.Perm (map :: kernel.maps)
  create_superblock : ∀ {kernel map after}, create kernel map = some after →
    map.mode = .writeBack → after.superblock map.disk = some map.array
  create_other : ∀ {kernel map after}, create kernel map = some after →
    ∀ disk, disk ≠ map.disk → after.superblock disk = kernel.superblock disk
  destroy_maps : ∀ kernel disk, (destroy kernel disk).maps = kernel.maps
  destroy_superblock : ∀ kernel disk, kernel.DiskFree disk →
    (destroy kernel disk).superblock disk = none
  destroy_other : ∀ kernel disk other, other ≠ disk →
    (destroy kernel disk).superblock other = kernel.superblock other
  remove_maps : ∀ kernel array, (remove kernel array).maps = kernel.maps ∨
    (remove kernel array).maps =
      kernel.maps.filter fun map => map.array != array
  remove_superblock : ∀ kernel array,
    (remove kernel array).superblock = kernel.superblock
  load_none : ∀ kernel disk, kernel.superblock disk = none →
    load kernel disk = kernel

/-- The disks and arrays of the machine, the UUIDs that mdadm reports for the
arrays and the hash function of the `sha2` library. -/
structure Inventory where
  disks : List String
  arrays : List Nat
  uuid : Nat → List Char
  sha256hex : List Char → List Char
  order : Order

def hexDigit (c : Char) : Bool := Pattern.digit c || ('a' ≤ c && c ≤ 'f')

def uuidPattern : List Pattern.Item :=
  let part := List.replicate 8 (Pattern.Item.one hexDigit)
  part ++ Pattern.literal ":" ++ part ++ Pattern.literal ":" ++ part ++
    Pattern.literal ":" ++ part

/-- What mdadm and the `sha2` library promise: UUIDs of 35 characters in the
usual form, different for different arrays, and hashes of 64 characters. -/
structure Inventory.Sound (inventory : Inventory) : Prop where
  disks_nodup : inventory.disks.Nodup
  arrays_nodup : inventory.arrays.Nodup
  uuid_length : ∀ array ∈ inventory.arrays, (inventory.uuid array).length = 35
  uuid_valid : ∀ array ∈ inventory.arrays,
    (Pattern.search uuidPattern (inventory.uuid array)).isSome = true
  uuid_injective : ∀ first ∈ inventory.arrays, ∀ second ∈ inventory.arrays,
    inventory.uuid first = inventory.uuid second → first = second
  sha_length : ∀ text, (inventory.sha256hex text).length = 64

def metaSize : Nat := 100

structure Machine where
  kernel : Kernel
  trailer : String → List Char
  trailer_length : ∀ disk, (trailer disk).length = metaSize

def writeEnd (tail text : List Char) : List Char :=
  (tail.take (tail.length - text.length) ++ text).drop
    (text.length - tail.length)

theorem writeEnd_length (tail text : List Char) :
    (writeEnd tail text).length = tail.length := by
  simp only [writeEnd, List.length_drop, List.length_append, List.length_take]
  omega

def Machine.write (machine : Machine) (disk : String) (text : List Char) :
    Machine where
  kernel := machine.kernel
  trailer := Function.update machine.trailer disk
    (writeEnd (machine.trailer disk) text)
  trailer_length := by
    intro other
    by_cases h : other = disk
    · subst h
      simp [writeEnd_length, machine.trailer_length]
    · simp [h, machine.trailer_length]

abbrev Command (α : Type) := Action Machine Error α

namespace Flashcache

def onKernel (f : Kernel → Kernel) : Command Unit :=
  Action.modify fun machine => { machine with kernel := f machine.kernel }

/-- `flashcache_destroy_meta`.  Its loop adds the strings `""` and `"\\0"` as
numbers and raises before anything is written. -/
def destroyMeta : Command Unit :=
  Action.raise (.failure
    "attempt to perform arithmetic on local 'metainfo' (a string value)")

def destroy (tools : Tools) (disk : String) : Command Unit := do
  onKernel fun kernel => tools.destroy kernel disk
  let _ ← Action.pcall destroyMeta
  pure ()

def metainfo (inventory : Inventory) (mode : Mode) (array : Nat) : List Char :=
  mode.letter :: (inventory.uuid array ++ inventory.sha256hex
    (inventory.uuid array ++ [mode.letter] ++ "OpenSAN".toList))

def bind (tools : Tools) (inventory : Inventory) (disk : String) (array : Nat)
    (modeName : String) : Command Unit := do
  Action.require (disk ∈ inventory.disks) (.assertion "invalid Physical object")
  Action.require (array ∈ inventory.arrays) (.nilValue "logical")
  match Mode.ofName modeName with
  | none => Action.raise (.assertion "unknown mode")
  | some mode => do
      destroy tools disk
      Action.modify fun machine =>
        machine.write disk (metainfo inventory mode array)
      let created ← Action.read fun machine =>
        tools.create machine.kernel ⟨disk, array, mode⟩
      match created with
      | none => Action.raise (.failure "system() does not succeed")
      | some kernel => onKernel fun _ => kernel

def unbindMap (tools : Tools) (inventory : Inventory) (disk : String)
    (info : CacheMap) : Command Unit :=
  if info.disk = disk then do
    Action.require (info.array ∈ inventory.arrays)
      (.nilValue "M.Logical.list()[ info.logical_id ]")
    onKernel fun kernel => tools.remove kernel info.array
    destroy tools info.disk
  else pure ()

def unbind (tools : Tools) (inventory : Inventory) (disk : String) :
    Command Unit := do
  Action.require (disk ∈ inventory.disks) (.assertion "invalid Physical object")
  let maps ← Action.read fun machine => machine.kernel.maps
  Action.forEach maps (unbindMap tools inventory disk)

def metaread (inventory : Inventory) (trailer : List Char) :
    Option (Mode × List Char) :=
  if trailer.length ≠ metaSize then none
  else
    match trailer with
    | [] => none
    | c :: rest =>
        match Mode.ofLetter c with
        | none => none
        | some mode =>
            let uuid := rest.take 35
            if (Pattern.search uuidPattern uuid).isNone then none
            else if inventory.sha256hex
                (uuid ++ [mode.letter] ++ "OpenSAN".toList) ≠ rest.drop 35 then
              none
            else some (mode, uuid)

def assembleArray (tools : Tools) (inventory : Inventory) (disk : String)
    (mode : Mode) (uuid : List Char) (array : Nat) : Command Unit :=
  if inventory.uuid array = uuid then
    if mode.loadFirst then onKernel fun kernel => tools.load kernel disk
    else bind tools inventory disk array mode.name
  else pure ()

def assembleDisk (tools : Tools) (inventory : Inventory) (disk : String) :
    Command Unit := do
  let found ← Action.read fun machine =>
    metaread inventory (machine.trailer disk)
  match found with
  | none => pure ()
  | some (mode, uuid) =>
      Action.forEach (inventory.order.visit inventory.arrays)
        (assembleArray tools inventory disk mode uuid)

def assemble (tools : Tools) (inventory : Inventory) : Command Unit :=
  Action.forEach (inventory.order.visit inventory.disks)
    (assembleDisk tools inventory)

inductive Request where
  | bind (disk : String) (array : Nat) (modeName : String)
  | unbind (disk : String)
  deriving DecidableEq, Repr

def Request.serve (tools : Tools) (inventory : Inventory) :
    Request → Command Unit
  | .bind disk array modeName => Flashcache.bind tools inventory disk array modeName
  | .unbind disk => Flashcache.unbind tools inventory disk

def step (inventory : Inventory) (machine : Machine)
    (input : Tools × Request) : Machine :=
  (input.2.serve input.1 inventory machine).2

/-- Disk contents survive, the device-mapper table does not. -/
def reboot (machine : Machine) : Machine :=
  { machine with kernel := { machine.kernel with maps := [] } }

/-! ## Trailers -/

theorem metainfo_length {inventory : Inventory} (h : inventory.Sound)
    (mode : Mode) {array : Nat} (harray : array ∈ inventory.arrays) :
    (metainfo inventory mode array).length = metaSize := by
  simp [metainfo, h.uuid_length array harray, h.sha_length, metaSize]

@[simp] theorem write_kernel (machine : Machine) (disk : String)
    (text : List Char) : (machine.write disk text).kernel = machine.kernel := rfl

theorem write_trailer_self (machine : Machine) (disk : String)
    {text : List Char} (h : text.length = metaSize) :
    (machine.write disk text).trailer disk = text := by
  simp [Machine.write, writeEnd, h, machine.trailer_length]

theorem write_trailer_other (machine : Machine) {disk other : String}
    (text : List Char) (h : other ≠ disk) :
    (machine.write disk text).trailer other = machine.trailer other := by
  simp [Machine.write, h]

theorem metaread_eq {inventory : Inventory} (hsha : ∀ text,
    (inventory.sha256hex text).length = 64) (mode : Mode) {uuid : List Char}
    (hlength : uuid.length = 35)
    (hvalid : (Pattern.search uuidPattern uuid).isSome = true) :
    metaread inventory (mode.letter :: (uuid ++ inventory.sha256hex
      (uuid ++ [mode.letter] ++ "OpenSAN".toList))) = some (mode, uuid) := by
  have htake (rest : List Char) : (uuid ++ rest).take 35 = uuid := by
    rw [← hlength, List.take_left]
  have hdrop (rest : List Char) : (uuid ++ rest).drop 35 = rest := by
    rw [← hlength, List.drop_left]
  have hsize : (mode.letter :: (uuid ++ inventory.sha256hex
      (uuid ++ [mode.letter] ++ "OpenSAN".toList))).length = metaSize := by
    simp [hlength, hsha, metaSize]
  have hsome : (Pattern.search uuidPattern uuid).isNone = false := by
    simpa using hvalid
  unfold metaread
  rw [if_neg (by simpa using hsize)]
  simp only [Mode.ofLetter_letter, htake, hdrop, hsome]
  simp

theorem metaread_metainfo {inventory : Inventory} (h : inventory.Sound)
    (mode : Mode) {array : Nat} (harray : array ∈ inventory.arrays) :
    metaread inventory (metainfo inventory mode array) =
      some (mode, inventory.uuid array) :=
  metaread_eq h.sha_length mode (h.uuid_length array harray) (h.uuid_valid array harray)

end Flashcache

end OpenSan.Einarc
