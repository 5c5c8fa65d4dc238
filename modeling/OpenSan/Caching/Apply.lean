import OpenSan.Einarc.AbsentMembers
import OpenSan.Foundation.Action
import OpenSan.Scst.Records

/-!
# The disk write cache follows the access patterns

`caching.apply` visits the arrays and turns the write cache of their disks off
or on.  For each volume on an array it asks only the first pattern in store
order that names the volume, and it does not look at snapshots.  A disk that
`Physical.list` does not return stops the whole loop.
-/

namespace OpenSan.Caching

open OpenSan.Foundation
open OpenSan.Einarc
open OpenSan.Scst

structure VolumeGroup where
  name : String
  physicalVolumes : List String
  deriving DecidableEq, Repr

structure LogicalVolume where
  device : String
  volumeGroup : VolumeGroup
  snapshots : List String
  deriving DecidableEq, Repr

/-- One `sdparm --set WCE=` command for the disks of an array. -/
structure WriteCache where
  logical : Nat
  nodes : List String
  enabled : Bool
  deriving DecidableEq, Repr

/-- What `caching.apply` reads. -/
structure System where
  logicals : Table Nat LogicalDisk
  logicalVolumes : List LogicalVolume
  patterns : List AccessPattern
  sysfs : Sysfs
  order : Order

/-- `physicals[ drive ].frawnode` raises for a drive that is not listed. -/
def frawnodes (system : System) (drives : List Int) : Except Error (List String) := do
  let physicals ← system.sysfs.physicals system.order
  drives.mapM fun drive => do
    let physical ← nonNil "physical" (lookupDrive physicals drive)
    pure physical.frawnode

def setWritecache (system : System) (enabled : Bool) (id : Nat)
    (logical : LogicalDisk) : Action (List WriteCache) Error Unit := do
  let nodes ← Action.lift (frawnodes system logical.drives)
  Action.modify fun commands => commands ++ [⟨id, nodes, enabled⟩]

def findByFilename (patterns : List AccessPattern) (device : String) :
    Option AccessPattern :=
  patterns.find? fun pattern => pattern.filename == some device

def firstWritethrough (patterns : List AccessPattern) (device : String) : Bool :=
  match findByFilename patterns device with
  | some pattern => pattern.writethrough
  | none => false

def writethroughFound (system : System) (logical : LogicalDisk) : Bool :=
  system.logicalVolumes.any fun logicalVolume =>
    logicalVolume.volumeGroup.physicalVolumes.any fun device =>
      device == logical.device &&
        firstWritethrough system.patterns logicalVolume.device

def visit (system : System) (entry : Sigma fun _ : Nat => LogicalDisk) :
    Action (List WriteCache) Error Unit :=
  setWritecache system (!writethroughFound system entry.2) entry.1 entry.2

def apply (system : System) : Action (List WriteCache) Error Unit :=
  Action.forEach (system.order.visit system.logicals.entries) (visit system)

/-! ## Which arrays are reached -/

/-- `Physical.list` returns, and the disks of the array are in it. -/
def Listed (system : System) (logical : LogicalDisk) : Prop :=
  system.sysfs.MembersListed ∧ system.sysfs.DisksLegible ∧
    ∀ drive ∈ logical.drives, ∃ name, system.sysfs.listed (.disk name) = true ∧
      drive = scsiSum name.root.reverse

theorem frawnodes_ok_iff (system : System) (logical : LogicalDisk) :
    (∃ nodes, frawnodes system logical.drives = .ok nodes) ↔ Listed system logical := by
  constructor
  · rintro ⟨nodes, hnodes⟩
    obtain ⟨physicals, hphysicals, hnodes⟩ := bind_eq_ok.mp hnodes
    obtain ⟨hmembers, hlegible⟩ := Sysfs.listed_of_physicals hphysicals
    refine ⟨hmembers, hlegible, fun drive hdrive => ?_⟩
    obtain ⟨node, -, hnode⟩ := (mapM_eq_ok hnodes).1 drive hdrive
    obtain ⟨physical, hphysical, -⟩ := bind_eq_ok.mp hnode
    rw [← Sysfs.lookupDrive_isSome hphysicals drive, nonNil_eq_ok hphysical]
    rfl
  · rintro ⟨hmembers, hlegible, hdrives⟩
    obtain ⟨physicals, hphysicals, -⟩ := Sysfs.physicals_ok system.order hmembers hlegible
    rw [frawnodes, hphysicals, ok_bind]
    refine mapM_ok fun drive hdrive => ?_
    have hsome := (Sysfs.lookupDrive_isSome hphysicals drive).mpr (hdrives drive hdrive)
    obtain ⟨physical, hphysical⟩ := Option.isSome_iff_exists.mp hsome
    exact ⟨physical.frawnode, by rw [hphysical]; rfl⟩

theorem visit_cases (system : System) (entry : Sigma fun _ : Nat => LogicalDisk)
    (commands : List WriteCache) :
    (Listed system entry.2 ∧ ∃ nodes, visit system entry commands =
      (.ok (), commands ++
        [⟨entry.1, nodes, !writethroughFound system entry.2⟩])) ∨
    (¬ Listed system entry.2 ∧ ∃ e,
      visit system entry commands = (.error e, commands)) := by
  cases hnodes : frawnodes system entry.2.drives with
  | ok nodes =>
      exact .inl ⟨(frawnodes_ok_iff system entry.2).mp ⟨nodes, hnodes⟩, nodes,
        by simp [visit, setWritecache, hnodes]⟩
  | error e =>
      refine .inr ⟨fun hlisted => ?_, e, by simp [visit, setWritecache, hnodes]⟩
      obtain ⟨nodes, hok⟩ := (frawnodes_ok_iff system entry.2).mpr hlisted
      rw [hok] at hnodes
      cases hnodes

/-- The loop comes to the array: its disks and those of all arrays visited
before it are listed. -/
def Reached (system : System) (entries : List (Sigma fun _ : Nat => LogicalDisk))
    (id : Nat) : Prop :=
  ∃ logical before after, entries = before ++ ⟨id, logical⟩ :: after ∧
    Listed system logical ∧ ∀ entry ∈ before, Listed system entry.2

theorem reached_cons_iff {system : System} {id : Nat}
    {entry : Sigma fun _ : Nat => LogicalDisk}
    {entries : List (Sigma fun _ : Nat => LogicalDisk)} :
    Reached system (entry :: entries) id ↔
      Listed system entry.2 ∧ (entry.1 = id ∨ Reached system entries id) := by
  constructor
  · rintro ⟨logical, before, after, heq, hlisted, hbefore⟩
    cases before with
    | nil =>
        rw [List.nil_append, List.cons.injEq] at heq
        obtain ⟨rfl, -⟩ := heq
        exact ⟨hlisted, .inl rfl⟩
    | cons first before =>
        rw [List.cons_append, List.cons.injEq] at heq
        obtain ⟨rfl, hrest⟩ := heq
        refine ⟨hbefore entry (by simp), .inr ⟨logical, before, after, hrest,
          hlisted, ?_⟩⟩
        intro other hother
        exact hbefore other (by simp [hother])
  · rintro ⟨hlisted, rfl | ⟨logical, before, after, rfl, hother, hbefore⟩⟩
    · exact ⟨entry.2, [], entries, rfl, hlisted, by simp⟩
    · refine ⟨logical, entry :: before, after, rfl, hother, ?_⟩
      intro other hmem
      rcases List.mem_cons.mp hmem with rfl | hrest
      · exact hlisted
      · exact hbefore other hrest

def Disabled (id : Nat) (commands : List WriteCache) : Prop :=
  ∃ command ∈ commands, command.logical = id ∧ command.enabled = false

theorem disabled_append_singleton {id : Nat} {commands : List WriteCache}
    {command : WriteCache} :
    Disabled id (commands ++ [command]) ↔
      Disabled id commands ∨ (command.logical = id ∧ command.enabled = false) := by
  simp [Disabled, or_and_right, exists_or]

theorem forEach_visit_disabled (system : System)
    (entries : List (Sigma fun _ : Nat => LogicalDisk)) (commands : List WriteCache)
    {id : Nat} {logical : LogicalDisk}
    (hentry : ∀ other, ⟨id, other⟩ ∈ entries → other = logical) :
    Disabled id (Action.forEach entries (visit system) commands).2 ↔
      Disabled id commands ∨
        (Reached system entries id ∧ writethroughFound system logical = true) := by
  induction entries generalizing commands with
  | nil => simp [Action.forEach, Reached]
  | cons entry entries ih =>
      have hrest : ∀ other, ⟨id, other⟩ ∈ entries → other = logical :=
        fun other hother => hentry other (by simp [hother])
      simp only [Action.forEach]
      rw [reached_cons_iff]
      rcases visit_cases system entry commands with
        ⟨hlisted, nodes, hvisit⟩ | ⟨hno, e, hvisit⟩
      · rw [Action.andThen_ok hvisit, ih _ hrest, disabled_append_singleton]
        by_cases hid : entry.1 = id
        · subst hid
          have hsame : entry.2 = logical := hentry entry.2 (by simp)
          have hwritten : (!writethroughFound system entry.2) = false ↔
              writethroughFound system logical = true := by
            simp [hsame]
          simp only [hwritten, true_and, true_or, and_true]
          constructor
          · rintro ((hold | hfound) | ⟨-, hfound⟩)
            · exact .inl hold
            · exact .inr ⟨hlisted, hfound⟩
            · exact .inr ⟨hlisted, hfound⟩
          · rintro (hold | ⟨-, hfound⟩)
            · exact .inl (.inl hold)
            · exact .inl (.inr hfound)
        · simp [hid, hlisted]
      · rw [Action.andThen_error hvisit]
        simp [hno]

/-! ## The policy -/

/-- A write-through pattern is bound to a volume or snapshot of a volume group
with a physical volume on the array. -/
def Wanted (system : System) (logical : LogicalDisk) : Prop :=
  ∃ pattern ∈ system.patterns, pattern.writethrough = true ∧
    ∃ logicalVolume ∈ system.logicalVolumes,
      logical.device ∈ logicalVolume.volumeGroup.physicalVolumes ∧
      ∃ device ∈ logicalVolume.device :: logicalVolume.snapshots,
        pattern.filename = some device

instance (system : System) (logical : LogicalDisk) :
    Decidable (Wanted system logical) := by
  unfold Wanted
  infer_instance

theorem writethroughFound_iff (system : System) (logical : LogicalDisk) :
    writethroughFound system logical = true ↔
      ∃ logicalVolume ∈ system.logicalVolumes,
        logical.device ∈ logicalVolume.volumeGroup.physicalVolumes ∧
          firstWritethrough system.patterns logicalVolume.device = true := by
  simp [writethroughFound]

theorem firstWritethrough_mem {patterns : List AccessPattern} {device : String}
    (h : firstWritethrough patterns device = true) :
    ∃ pattern ∈ patterns, pattern.writethrough = true ∧
      pattern.filename = some device := by
  unfold firstWritethrough findByFilename at h
  split at h
  · rename_i pattern hfind
    refine ⟨pattern, List.mem_of_find?_eq_some hfind, h, ?_⟩
    simpa using List.find?_some hfind
  · cases h

theorem wanted_of_writethroughFound {system : System} {logical : LogicalDisk}
    (h : writethroughFound system logical = true) : Wanted system logical := by
  obtain ⟨logicalVolume, hvolume, hdevice, hfirst⟩ :=
    (writethroughFound_iff system logical).mp h
  obtain ⟨pattern, hpattern, hthrough, hfile⟩ := firstWritethrough_mem hfirst
  exact ⟨pattern, hpattern, hthrough, logicalVolume, hvolume, hdevice,
    logicalVolume.device, by simp, hfile⟩

def mirrorDisk : LogicalDisk where
  id := 0
  slaves := [⟨.disk sdb, some "in_sync"⟩, ⟨.disk sdc, some "in_sync"⟩]
  raidDisks := some 2
  drives := [2, 3]
  state := "normal"
  level := some "1"
  capacity := 1000
  cachedBy := none
  device := "/dev/md0"

def twoDisks : Sysfs where
  disks := ((∅ : Table DiskName Nat).insert sdb 1000).insert sdc 1000
  files := fun _ => .sample
  arrays := []
  ids_nodup := List.nodup_nil
  caches := []

def oneVolume (patterns : List AccessPattern) : System where
  logicals := AList.singleton 0 mirrorDisk
  logicalVolumes := [⟨"/dev/vg12/root", ⟨"vg12", ["/dev/md0"]⟩, []⟩]
  patterns := patterns
  sysfs := twoDisks
  order := .plain

def patternOn (name : String) (lun : Int) (writethrough : Bool) :
    AccessPattern :=
  ⟨some name, name, .iscsi, lun, some "/dev/vg12/root", true, false, writethrough⟩

instance (id : Nat) (commands : List WriteCache) :
    Decidable (Disabled id commands) := by
  unfold Disabled
  infer_instance

end OpenSan.Caching
