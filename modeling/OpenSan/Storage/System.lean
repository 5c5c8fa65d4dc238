import OpenSan.Foundation.Run
import OpenSan.Storage.ArrayRequests

/-!
# Clients, pages and requests

Any number of clients load pages and send requests.  A request carries the
data of a page that its client has loaded at some time before.
-/

namespace OpenSan.Storage

open OpenSan.Foundation OpenSan.Einarc

inductive Request where
  | logicalAdd (raidLevel : Option String) (drives : Option (List PhysicalId))
  | logicalDelete (logicalIdHash : String)
  | logicalHotspareAdd (physicalIdHash : String) (logicalId : Option Nat)
      (minimalSize physicalSize : Option ℚ)
  | logicalFlashcacheBind (physicalIdHash : String) (logicalId : Option Nat)
      (mode : Option String)
  | logicalFlashcacheUnbind (physicalIdHash : String)
  | logicalVolumeAdd (logicalIdHash : String) (name : Option String)
      (size : Option ℚ)
  | logicalVolumeRemove (groupHash volumeHash : String)
  | logicalVolumeSnapshotResize (groupHash volumeHash : String)
      (size : Option ℚ) (apply : Except Error Unit)

def Request.serve (env : Env) (page : Page) : Request → Script (Option String)
  | .logicalAdd raidLevel drives => einarcLogicalAdd env page raidLevel drives
  | .logicalDelete logicalIdHash => einarcLogicalDelete env page logicalIdHash
  | .logicalHotspareAdd physicalIdHash logicalId minimalSize physicalSize =>
      einarcLogicalHotspareAdd env page physicalIdHash logicalId minimalSize physicalSize
  | .logicalFlashcacheBind physicalIdHash logicalId mode =>
      einarcLogicalFlashcacheBind env page physicalIdHash logicalId mode
  | .logicalFlashcacheUnbind physicalIdHash =>
      einarcLogicalFlashcacheUnbind env page physicalIdHash
  | .logicalVolumeAdd logicalIdHash name size =>
      lvmLogicalVolumeAdd env page logicalIdHash name size
  | .logicalVolumeRemove groupHash volumeHash =>
      lvmLogicalVolumeRemove env page groupHash volumeHash
  | .logicalVolumeSnapshotResize groupHash volumeHash size apply =>
      lvmLogicalVolumeSnapshotResize env page groupHash volumeHash size apply

structure System where
  machine : Machine
  pages : List (Nat × Page)

/-- `submit client number env request`: the client sends the request from the
page with this number.  `other` stands for all that happens outside these
requests. -/
inductive Event where
  | load (client : Nat) (env : Env)
  | submit (client number : Nat) (env : Env) (request : Request)
  | other (change : Machine → Machine)

def System.page (system : System) (client number : Nat) : Option Page :=
  (system.pages[number]?).bind fun entry =>
    if entry.1 = client then some entry.2 else none

def step (system : System) : Event → System
  | .load client env =>
      match loadPage env system.machine with
      | .error _ => system
      | .ok page => { system with pages := system.pages ++ [(client, page)] }
  | .submit client number env request =>
      match system.page client number with
      | none => system
      | some page => { system with
          machine := (request.serve env page system.machine).2 }
  | .other change => { system with machine := change system.machine }

def EveryStep (P : System → Event → Prop) (start : System) (events : List Event) :
    Prop :=
  ∀ before event after, events = before ++ event :: after →
    P (Foundation.run step start before) event

theorem everyStep_of_guarded {guard P : System → Event → Prop}
    (hstep : ∀ system event, guard system event → P system event) {start : System}
    {events : List Event} (h : Guarded guard step start events) :
    EveryStep P start events := by
  intro before event after hevents
  subst hevents
  induction before generalizing start with
  | nil => exact hstep start event h.1
  | cons first before ih => exact ih h.2

/-! ## A small machine -/

/-- SHA-256 of the names on the small machine. -/
def sampleHash : String → String
  | "0" => "5feceb66ffc86f38d952786c6d696c79c2dbc239dd4e91b46729d73a27fb57e9"
  | "1" => "6b86b273ff34fce19d6b804eff5a3f5747ada4eaa22f1d49c01e52ddb7875b4b"
  | "vg1" => "36d8ff99eaf58590a7bcd1ec6f7b99946d86f5457b1578c0218683b6d0975bb8"
  | "VG" => "865ebe39a5ae4ff6fd7e1017fe24e543f77ee425e361b803a15bc448b2eda98e"
  | "LV" => "fcdb0592cd60d991b0b88a18a3755286f595994fa35125dcb61c620d4573c904"
  | "home" => "4ea140588150773ce3aace786aeef7f4049ce100fa649c94fbbddb960f1da942"
  | "mail" => "00d8d3f11739d2f3537099982b4674c29fc59a8fda350fca1379613adbb09119"
  | "snap" => "1c27324f013705cbf0c49f3d3bb103c7069ed5988889d426c10cfc25684f0a31"
  | "0:2" => "9328a9dc66caf8eb870451eb1879730a4281b7693a3dcb87cb2d58d7cfb5bad3"
  | "0:3" => "76d3c2eeff0f7e9320cd69f952486c44d7cb4ec9903e2df44a772a3be0fb3b45"
  | "0:4" => "48f03bc9419d2b283c9d08b0c81861d2a9274e92a062b1597b0874fe098ebd2f"
  | name => name

def sampleArray (id : Nat) (disks : List DiskName) : MdArray where
  id := id
  slaves := disks.map fun disk => ⟨.disk disk, some "in_sync"⟩
  arrayState := some "clean"
  level := some "raid1"
  raidDisks := some disks.length
  degraded := some "0"
  syncAction := some "idle"
  syncCompleted := some "none"
  size := 1000

def sampleEnv (outcome : Command → Nat → Bool) : Env where
  host := { Scst.Host.quiet with hash := sampleHash }
  outcome := outcome
  tonumber := fun text => if '/' ∈ text.toList then none else text.toNat?
  tonumber_path := fun _ h => if_pos h
  uuid := fun _ => some "01234567:89abcdef:01234567:89abcdef"
  newArray := fun id disks => ⟨sampleArray id disks, rfl, by
    simp [sampleArray, Function.comp_def]⟩
  newSize := fun _ => (896, 64)
  maximalSize := fun pv => pv.total
  nextVgName := "vg2"

def sampleMachine (group : String) (volumes : Volumes)
    (h : ∀ volume ∈ volumes.list, volume.key.group = group) : Machine where
  sysfs := {
    disks := (((∅ : Table DiskName Nat).insert sdb 1000).insert sdc 1000).insert sdd 1000
    files := fun _ => .sample
    arrays := [sampleArray 0 [sdb, sdc]]
    ids_nodup := by decide
    caches := [] }
  pvs := ⟨[⟨.md 0, some group, 896, 64⟩], by simp⟩
  volumes := volumes
  destroyed := []
  commands := []
  present := by
    intro pv hpv
    rw [List.mem_singleton.mp hpv]
    exact List.mem_singleton_self 0
  grouped := by
    intro volume hvolume
    simp [h volume hvolume]

def homeAndSnapshot : Machine :=
  sampleMachine "vg1" ⟨[⟨⟨"vg1", "home"⟩, none, 500, true⟩,
    ⟨⟨"vg1", "snap"⟩, some "home", 100, true⟩], by decide, by decide⟩ (by decide)

theorem run_of_result {α : Type} {script : Script α} {m : Machine}
    {result : Except Error α} (h : (script m).1 = result) :
    script m = (result, (script m).2) := by
  rw [← h]

def pageOf (env : Env) (m : Machine) : Page :=
  (loadPage env m).toOption.getD ⟨[], ∅, [], [], [], []⟩

theorem loadPage_pageOf {env : Env} {m : Machine}
    (h : (loadPage env m).toOption.isSome = true) :
    loadPage env m = .ok (pageOf env m) := by
  unfold pageOf
  cases hpage : loadPage env m with
  | error e =>
      rw [hpage] at h
      cases h
  | ok page => rfl

end OpenSan.Storage
