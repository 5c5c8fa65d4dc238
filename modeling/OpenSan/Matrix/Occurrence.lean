import OpenSan.Controller.StoreInvariant
import OpenSan.Matrix.Degraded
import OpenSan.Matrix.Shown

/-!
# Nothing disappears from the page

`matrix.caller` unbinds the patterns whose volume is not listed and reads the
store again.  A pattern that stays bound is drawn in the lines of the array
below its volume, so it needs one: a listed volume may lie on no array.
-/

namespace OpenSan.Matrix

open OpenSan.Foundation OpenSan.Einarc

def Pattern.ofStore (pattern : Scst.AccessPattern) : Pattern where
  sectionName := pattern.sectionName.getD ""
  name := pattern.name
  filename := pattern.filename
  lun := pattern.lun

namespace Inventory

variable (inventory : Inventory) (order : Order)

def volumeDevices : List String := inventory.logicalVolumes.flatMap (·.devices)

def overallWith (patterns : List Scst.AccessPattern) : Except Error Sheet := do
  let assembled ← inventory.data order
  let data := { assembled with accessPatterns := patterns.map Pattern.ofStore }
  match overall data order data.initial with
  | (.ok (), sheet) => .ok sheet
  | (.error e, _) => .error e

/-- Every disk of `Physical.list` and every pattern is in one line. -/
def EverythingShown (patterns : List Scst.AccessPattern) : Prop :=
  ∃ sheet, inventory.overallWith order patterns = .ok sheet ∧
    (∀ id ∈ (inventory.physicals order).keys,
      InOneLine sheet (ShowsDisk sheet id)) ∧
    ∀ index, index < patterns.length → InOneLine sheet (ShowsPattern sheet index)

/-- The device is a volume or snapshot in a group whose first physical volume
is an array. -/
def OnArray (device : String) : Prop :=
  ∃ array ∈ inventory.sysfs.listedArrays, ∃ volume ∈ inventory.logicalVolumes,
    volume.volumeGroup.firstDevice = inventory.sysfs.deviceOf array.id ∧
      device ∈ volume.devices

end Inventory

/-! ## The store after the clean-up -/

section Cleanup

open Scst Controller

variable {host : Host} {devices : List String} {world after : World}

structure Cleaned (devices : List String) (before after : List AccessPattern) :
    Prop where
  names : (after.map (·.name)).Nodup
  bound : ∀ pattern ∈ after, ∀ device, pattern.filename = some device →
    pattern ∈ before ∧ device ∈ devices
  kept : ∀ pattern ∈ before, ∀ device, pattern.filename = some device →
    device ∈ devices → pattern ∈ after

private theorem nodup_rehome {patterns : List AccessPattern}
    (h : (patterns.map (·.name)).Nodup) (pattern : AccessPattern)
    (filename sectionName : String) :
    ((AccessPattern.rehome patterns pattern filename sectionName).map
      (·.name)).Nodup := by
  have hothers : ((AccessPattern.withoutName (some pattern.name) patterns).map
      (·.name)).Nodup := h.sublist (List.filter_sublist.map _)
  rw [AccessPattern.rehome, List.map_append, List.nodup_append]
  refine ⟨hothers, by simp, ?_⟩
  intro name hname last hlast
  obtain ⟨other, hother, rfl⟩ := List.mem_map.mp hname
  obtain rfl : last = pattern.name := by simpa using hlast
  exact (mem_withoutName.mp hother).2

private structure Sweeping (devices : List String)
    (old left now : List AccessPattern) : Prop where
  nodup : (now.map (·.name)).Nodup
  bound : ∀ pattern ∈ now, ∀ device, pattern.filename = some device →
    pattern ∈ old ∧ (device ∈ devices ∨ pattern ∈ left)
  kept : ∀ pattern ∈ old, ∀ device, pattern.filename = some device →
    device ∈ devices → pattern ∈ now

private theorem Sweeping.known {old left now : List AccessPattern}
    {item : AccessPattern} (h : Sweeping devices old (item :: left) now)
    (hknown : ∀ device, item.filename = some device → device ∈ devices) :
    Sweeping devices old left now where
  nodup := h.nodup
  bound := by
    intro pattern hpattern device hdevice
    obtain ⟨hold, hlisted | hlater⟩ := h.bound pattern hpattern device hdevice
    · exact ⟨hold, .inl hlisted⟩
    · rcases List.mem_cons.mp hlater with heq | hin
      · exact ⟨hold, .inl (hknown device (heq ▸ hdevice))⟩
      · exact ⟨hold, .inr hin⟩
  kept := h.kept

private theorem Sweeping.unbound {old left now : List AccessPattern}
    {item : AccessPattern} (h : Sweeping devices old (item :: left) now)
    (hnames : (old.map (·.name)).Nodup) (hitem : item ∈ old) {filename : String}
    (hname : item.filename = some filename) (hunlisted : filename ∉ devices)
    (sectionName : String) :
    Sweeping devices old left (AccessPattern.rehome now item "" sectionName) where
  nodup := nodup_rehome h.nodup _ _ _
  bound := by
    intro pattern hpattern device hdevice
    rcases List.mem_append.mp hpattern with hother | hlast
    · obtain ⟨hin, hne⟩ := mem_withoutName.mp hother
      obtain ⟨hold, hknown | hlater⟩ := h.bound pattern hin device hdevice
      · exact ⟨hold, .inl hknown⟩
      · rcases List.mem_cons.mp hlater with heq | hin'
        · exact absurd (congrArg AccessPattern.name heq) hne
        · exact ⟨hold, .inr hin'⟩
    · rw [List.mem_singleton.mp hlast] at hdevice
      simp [uciOption] at hdevice
  kept := by
    intro pattern hpattern device hdevice hdevices
    refine List.mem_append_left _ (mem_withoutName.mpr
      ⟨h.kept pattern hpattern device hdevice hdevices, fun heq => ?_⟩)
    have hsame : pattern = item :=
      List.inj_on_of_nodup_map hnames hpattern hitem heq
    rw [hsame, hname] at hdevice
    cases hdevice
    exact hunlisted hdevices

theorem cleaned (hnames : (world.patterns.map (·.name)).Nodup)
    (hsections : ∀ pattern ∈ world.patterns, pattern.sectionName.isSome = true)
    (hrun : unknownAccessPatternsFilenameUnbind host world.patterns devices world =
      (.ok (), after)) : Cleaned devices world.patterns after.patterns := by
  have hloop : Action.Ensures
      (unknownAccessPatternsFilenameUnbind host world.patterns devices) world _ :=
    Action.Ensures.forEach world.patterns _ (I := fun i (w : World) =>
      Sweeping devices world.patterns (world.patterns.drop i) w.patterns) ?_ ?_
  · have hend := hloop () after hrun
    rw [List.drop_length] at hend
    refine ⟨hend.nodup, fun pattern hpattern device hdevice => ?_, hend.kept⟩
    obtain ⟨hold, hlisted | hlater⟩ := hend.bound pattern hpattern device hdevice
    · exact ⟨hold, hlisted⟩
    · cases hlater
  · exact ⟨hnames, fun pattern hpattern device _ => ⟨hpattern, .inr hpattern⟩,
      fun pattern hpattern _ _ _ => hpattern⟩
  intro i hi w h
  rw [List.drop_eq_getElem_cons hi] at h
  have hitem : world.patterns[i] ∈ world.patterns := List.getElem_mem hi
  cases hname : world.patterns[i].filename with
  | none =>
      intro _ w' hround
      cases hround
      exact h.known (by simp [hname])
  | some filename =>
      by_cases hlisted : filename ∈ devices
      · simp only [if_pos hlisted]
        intro _ w' hround
        cases hround
        refine h.known fun device hdevice => ?_
        rw [hname] at hdevice
        cases hdevice
        exact hlisted
      · simp only [if_neg hlisted]
        intro _ w' hround
        rcases AccessPattern.unbind_run host (hsections _ hitem) w with
          ⟨_, _, herror⟩ | ⟨targets, sectionName, _, hok⟩
        · rw [herror] at hround
          cases hround
        · rw [hok] at hround
          cases hround
          exact h.unbound hnames hitem hname hlisted sectionName

end Cleanup

namespace Inventory

variable {inventory : Inventory} {order : Order}

theorem onArray_iff {data : Data} (hassembled : inventory.Assembled order data)
    (device : String) :
    (∃ e ∈ data.logicals.entries, device ∈ e.2.volumes.keys) ↔
      inventory.OnArray device := by
  constructor
  · rintro ⟨e, he, hdevice⟩
    obtain ⟨array, _, harray, physicals, _, hlogical⟩ :=
      hassembled.sound e.1 e.2 (AList.mem_lookup_iff.mpr he)
    rw [hlogical, mem_volumes] at hdevice
    exact ⟨array, harray, hdevice⟩
  · rintro ⟨array, harray, hdevice⟩
    obtain ⟨logical, hlookup, _, physicals, _, hlogical⟩ :=
      hassembled.complete array harray
    refine ⟨⟨array.id, logical⟩, AList.mem_lookup_iff.mp hlookup, ?_⟩
    rw [hlogical]
    exact mem_volumes.mpr hdevice

/-- Without the clean-up: everything is shown if and only if every slave is a
listed disk and every bound pattern is bound to a volume on an array. -/
theorem everythingShown_store_iff (hslots : inventory.SlotsApart)
    {patterns : List Scst.AccessPattern} (hnames : (patterns.map (·.name)).Nodup) :
    inventory.EverythingShown order patterns ↔ inventory.sysfs.SlavesListed ∧
      ∀ pattern ∈ patterns, ∀ device, pattern.filename = some device →
        inventory.OnArray device := by
  have hshown : inventory.sysfs.SlavesListed → ∃ sheet,
      inventory.overallWith order patterns = .ok sheet ∧
      (∀ id ∈ (inventory.physicals order).keys, InOneLine sheet (ShowsDisk sheet id)) ∧
      ∀ index (hindex : index < patterns.length),
        (InOneLine sheet (ShowsPattern sheet index) ↔
          ∀ device, patterns[index].filename = some device →
            inventory.OnArray device) := by
    intro hlisted
    obtain ⟨assembled, hdata, hassembled⟩ := data_ok order hlisted
    have hold := regular hassembled hlisted hslots
    let data := { assembled with accessPatterns := patterns.map Pattern.ofStore }
    have hregular : data.Regular := by
      refine ⟨hold.members, hold.physicals, hold.volumes, ?_⟩
      rw [List.map_map]
      exact hnames
    obtain ⟨_, sheet, hrun, ids, n, stop, s₁, s₂, hdrawn, hstages⟩ :=
      overall_stages (G := Set.univ) data order
        fun avail havail => hregular.layable (sessions_of_perm havail)
    refine ⟨sheet, ?_, fun id hid => ?_, fun index hindex => ?_⟩
    · rw [overallWith, hdata, ok_bind]
      change (match overall data order data.initial with
        | (.ok (), sheet) => Except.ok sheet
        | (.error e, _) => .error e) = _
      rw [hrun]
    · rw [← hassembled.physicals] at hid
      exact disk_in_one_line hdrawn hstages hregular hid
    · have hpattern : data.accessPatterns[index]? =
          some (Pattern.ofStore patterns[index]) := by
        simp [data, hindex]
      rw [pattern_in_one_line_iff hdrawn hstages hregular hpattern]
      exact forall₂_congr fun device _ => onArray_iff hassembled device
  constructor
  · rintro ⟨sheet, hsheet, _, hpatterns⟩
    obtain ⟨assembled, hdata, _⟩ := bind_eq_ok.mp hsheet
    have hlisted := listed_of_data hdata
    refine ⟨hlisted, fun pattern hpattern => ?_⟩
    obtain ⟨sheet', hsheet', _, hiff⟩ := hshown hlisted
    obtain rfl : sheet = sheet' := Except.ok.inj (hsheet.symm.trans hsheet')
    obtain ⟨index, hindex, rfl⟩ := List.getElem_of_mem hpattern
    exact (hiff index hindex).mp (hpatterns index hindex)
  · rintro ⟨hlisted, hbound⟩
    obtain ⟨sheet, hsheet, hdisks, hiff⟩ := hshown hlisted
    exact ⟨sheet, hsheet, hdisks, fun index hindex =>
      (hiff index hindex).mpr (hbound _ (List.getElem_mem hindex))⟩

/-- After the clean-up everything is shown if and only if every slave is a
listed disk and no pattern is bound to a listed volume that lies on no array. -/
theorem everythingShown_iff (inventory : Inventory) (order : Order)
    (hslots : inventory.SlotsApart) (host : Scst.Host) (world after : Scst.World)
    (hnames : (world.patterns.map (·.name)).Nodup)
    (hsections : ∀ pattern ∈ world.patterns, pattern.sectionName.isSome = true)
    (hrun : Controller.unknownAccessPatternsFilenameUnbind host world.patterns
      inventory.volumeDevices world = (.ok (), after)) :
    inventory.EverythingShown order after.patterns ↔ inventory.sysfs.SlavesListed ∧
      ∀ pattern ∈ world.patterns, ∀ device, pattern.filename = some device →
        device ∈ inventory.volumeDevices → inventory.OnArray device := by
  have hcleaned := cleaned hnames hsections hrun
  rw [everythingShown_store_iff hslots hcleaned.names]
  refine and_congr_right fun _ => ⟨fun h pattern hpattern device hdevice hlisted => ?_,
    fun h pattern hpattern device hdevice => ?_⟩
  · exact h pattern (hcleaned.kept pattern hpattern device hdevice hlisted) device hdevice
  · obtain ⟨hold, hlisted⟩ := hcleaned.bound pattern hpattern device hdevice
    exact h pattern hold device hdevice hlisted

def twoGroups : Inventory where
  sysfs := {
    disks := ((∅ : Table DiskName Nat).insert sdb 1000).insert sdc 1000
    files := fun _ => .sample
    arrays := [{ halfMirror 0 sdb with
      slaves := [⟨.disk sdb, some "in_sync"⟩,
        ⟨.disk sdc, some "in_sync"⟩] }]
    ids_nodup := by decide
    caches := [] }
  disk := fun _ => ⟨"0", 1000⟩
  level := fun _ => some "1"
  state := fun _ => "normal"
  volumeGroups := [⟨⟨"vg0", 100, 900⟩, "/dev/md0"⟩, ⟨⟨"system", 100, 900⟩, "/dev/sda2"⟩]
  logicalVolumes := [⟨"/dev/vg0/a", 100, ⟨⟨"vg0", 100, 900⟩, "/dev/md0"⟩, []⟩,
    ⟨"/dev/system/b", 100, ⟨⟨"system", 100, 900⟩, "/dev/sda2"⟩, []⟩]
  accessPatterns := []
  sessions := ∅
  roles := by decide +kernel
  groupNames := by decide
  devices := by decide
  names := List.nodup_nil

def boundStore (device : String) : Scst.World :=
  { Scst.World.empty with
    patterns := [⟨some "cfg1", "x", .iscsi, 0, some device, true, false, false⟩] }

private theorem twoGroups_slotsApart : twoGroups.SlotsApart := by
  unfold SlotsApart
  decide +kernel

private theorem twoGroups_slavesListed : twoGroups.sysfs.SlavesListed := by
  intro array harray slave hslave
  have hlisted : ∀ array ∈ twoGroups.sysfs.listedArrays, ∀ slave ∈ array.slaves,
      twoGroups.sysfs.listed slave.name = true ∧
        (slave.name = .disk sdb ∨ slave.name = .disk sdc) := by
    decide +kernel
  obtain ⟨hin, hname | hname⟩ := hlisted array harray slave hslave
  · exact ⟨hin, _, hname⟩
  · exact ⟨hin, _, hname⟩

/-- A pattern on the volume of the array is shown, as are both disks. -/
theorem twoGroups_shown :
    twoGroups.SlotsApart ∧ twoGroups.EverythingShown Order.plain
      (boundStore "/dev/vg0/a").patterns := by
  refine ⟨twoGroups_slotsApart, ?_⟩
  refine (everythingShown_iff twoGroups Order.plain twoGroups_slotsApart
    Scst.Host.quiet (boundStore "/dev/vg0/a") (boundStore "/dev/vg0/a") (by decide)
    (by decide) rfl).mpr ⟨twoGroups_slavesListed, fun pattern hpattern device hdevice _ => ?_⟩
  obtain rfl := List.mem_singleton.mp hpattern
  cases hdevice
  unfold OnArray
  decide +kernel

/-- The volume on the system disk is listed, so its pattern stays bound, and it
lies on no array, so the pattern is in no line. -/
theorem twoGroups_not_shown :
    twoGroups.SlotsApart ∧
      (Controller.unknownAccessPatternsFilenameUnbind Scst.Host.quiet
        (boundStore "/dev/system/b").patterns twoGroups.volumeDevices
        (boundStore "/dev/system/b") = (.ok (), boundStore "/dev/system/b")) ∧
      ¬ twoGroups.EverythingShown Order.plain (boundStore "/dev/system/b").patterns := by
  refine ⟨twoGroups_slotsApart, rfl, fun h => ?_⟩
  obtain ⟨_, hbound⟩ := (everythingShown_store_iff twoGroups_slotsApart
    (by decide)).mp h
  have honArray := hbound _ (List.mem_singleton.mpr rfl) "/dev/system/b" rfl
  revert honArray
  unfold OnArray
  decide +kernel

end Inventory

end OpenSan.Matrix
