import Mathlib
import OpenSan.Einarc.AbsentMembers

/-!
# States of arrays

`M.Logical.list` maps the state of an array by a table, compares the number of
missing members with the text `1` and raises on an array for which it finds no
state.
-/

namespace OpenSan.Einarc.Sysfs

open OpenSan.Foundation

variable {sysfs : Sysfs} {order : Order} {array : MdArray}

theorem finalState_of_logical {logical : LogicalDisk}
    (h : sysfs.logical array = .ok logical) : array.finalState = some logical.state := by
  obtain ⟨level, _, h⟩ := bind_eq_ok.mp h
  obtain ⟨drives, _, h⟩ := bind_eq_ok.mp h
  cases hstate : array.finalState with
  | none =>
      rw [hstate] at h
      cases h
  | some state =>
      rw [hstate] at h
      simp only at h
      split at h
      · cases h
      · obtain rfl := Except.ok.inj h
        rfl

theorem drives_of_logical {logical : LogicalDisk} (h : sysfs.logical array = .ok logical) :
    ∀ slave ∈ array.slaves, ∃ drive, physToScsi slave.name = .ok drive := by
  obtain ⟨level, _, h⟩ := bind_eq_ok.mp h
  obtain ⟨drives, hdrives, _⟩ := bind_eq_ok.mp h
  intro slave hslave
  obtain ⟨drive, _, hdrive⟩ := (mapM_eq_ok hdrives).1 slave hslave
  exact ⟨drive, hdrive⟩

/-! ## Degraded arrays -/

/-- An array is listed as degraded, or as one whose members are filled in. -/
def ShownDegraded (logicals : List LogicalDisk) (id : Nat) : Prop :=
  ∃ logical ∈ logicals, logical.id = id ∧
    (logical.state = "degraded" ∨ logical.state = "rebuilding" ∨
      logical.state = "reshaping")

theorem logical_of_mem {logicals : List LogicalDisk} (h : sysfs.logicals order = .ok logicals)
    (harray : array ∈ sysfs.listedArrays) {logical : LogicalDisk} (hmem : logical ∈ logicals)
    (hid : logical.id = array.id) : sysfs.logical array = .ok logical := by
  obtain ⟨other, hother, hrun⟩ := (mapM_eq_ok h).2 logical hmem
  have hother := (order.mem_visit).mp hother
  have hsame : other = array := by
    refine List.inj_on_of_nodup_map sysfs.ids_nodup (List.mem_of_mem_filter hother)
      (List.mem_of_mem_filter harray) ?_
    rw [← (logical_eq_ok hrun).2.1, hid]
  rw [← hsame]
  exact hrun

def Syncing (array : MdArray) : Prop :=
  array.syncCompleted.isSome ∧ array.syncCompleted ≠ some "none"

theorem finalState_normal {state : String} (hmapped : array.mappedState = some "normal")
    (hstate : array.finalState = some state) :
    (state = "degraded" ∨ state = "rebuilding" ∨ state = "reshaping") ↔
      array.degraded = some "1" ∨ Syncing array := by
  unfold MdArray.finalState at hstate
  by_cases hsync : Syncing array
  · have hfilled : state = "rebuilding" ∨ state = "reshaping" := by
      by_cases hdegraded : array.degraded = some "1"
      · simp only [if_pos hdegraded] at hstate
        rw [if_pos ⟨.inr trivial, hsync⟩] at hstate
        split at hstate <;> simp_all
      · simp only [if_neg hdegraded, hmapped] at hstate
        rw [if_pos ⟨.inl trivial, hsync⟩] at hstate
        split at hstate <;> simp_all
    exact ⟨fun _ => .inr hsync, fun _ => .inr hfilled⟩
  · by_cases hdegraded : array.degraded = some "1"
    · simp only [if_pos hdegraded] at hstate
      rw [if_neg fun h => hsync h.2] at hstate
      obtain rfl := Option.some.inj hstate
      exact ⟨fun _ => .inl hdegraded, fun _ => .inl rfl⟩
    · simp only [if_neg hdegraded, hmapped] at hstate
      rw [if_neg fun h => hsync h.2] at hstate
      obtain rfl := Option.some.inj hstate
      simp [hdegraded, hsync]

theorem shownDegraded_iff {logicals : List LogicalDisk}
    (hlogicals : sysfs.logicals order = .ok logicals) (harray : array ∈ sysfs.listedArrays)
    (hstate : array.arrayState = some "clean" ∨ array.arrayState = some "active")
    {missing : Nat} (hdegraded : array.degraded = some (toString missing)) :
    ShownDegraded logicals array.id ↔ missing = 1 ∨ Syncing array := by
  have hmapped : array.mappedState = some "normal" := by
    rcases hstate with hstate | hstate <;> rw [MdArray.mappedState, hstate] <;> rfl
  have hone : array.degraded = some "1" ↔ missing = 1 := by
    rw [hdegraded, Option.some.injEq]
    exact ⟨fun h => Nat.repr_injective h, fun h => h ▸ rfl⟩
  rw [← hone]
  constructor
  · rintro ⟨logical, hmem, hid, hshown⟩
    have hrun := logical_of_mem hlogicals harray hmem hid
    exact (finalState_normal hmapped (finalState_of_logical hrun)).mp hshown
  · intro hcondition
    obtain ⟨logical, hmem, hrun⟩ :=
      (mapM_eq_ok hlogicals).1 array ((order.mem_visit).mpr harray)
    refine ⟨logical, hmem, (logical_eq_ok hrun).2.1, ?_⟩
    exact (finalState_normal hmapped (finalState_of_logical hrun)).mpr hcondition

def raid6Array (missing : Nat) : MdArray where
  id := 0
  slaves := [⟨.disk sdb, some "in_sync"⟩, ⟨.disk sdc, some "in_sync"⟩]
  arrayState := some "clean"
  level := some "raid6"
  raidDisks := some 4
  degraded := some (toString missing)
  syncAction := some "idle"
  syncCompleted := some "none"
  size := 2000

def raid6 (missing : Nat) : Sysfs where
  disks := ((∅ : Table DiskName Nat).insert sdb 1000).insert sdc 1000
  files := fun _ => .sample
  arrays := [raid6Array missing]
  ids_nodup := List.nodup_singleton _
  caches := []

theorem raid6_one_missing : ∃ logicals, (raid6 1).logicals Order.plain = .ok logicals ∧
    ShownDegraded logicals 0 := by
  refine ⟨_, rfl, ?_⟩
  have hlogicals : (raid6 1).logicals Order.plain = .ok _ := rfl
  have harray : raid6Array 1 ∈ (raid6 1).listedArrays := List.mem_singleton_self _
  exact (shownDegraded_iff hlogicals harray (.inl rfl) rfl).mpr (.inl rfl)

theorem raid6_two_missing : ∃ logicals, (raid6 2).logicals Order.plain = .ok logicals ∧
    ¬ ShownDegraded logicals 0 := by
  refine ⟨_, rfl, ?_⟩
  simp [ShownDegraded]

/-! ## Arrays that hide the others -/

/-- The values of `array_state` that the md driver documents. -/
def documentedStates : List String :=
  ["clear", "inactive", "suspended", "readonly", "read-auto", "clean", "active",
    "write-pending", "active-idle"]

def mappedStates : List String := ["clear", "inactive", "clean", "active"]

def scsiName : BlockName → Bool
  | .disk _ | .partition _ _ => true
  | .md _ | .other _ => false

theorem scsiName_iff (name : BlockName) :
    scsiName name = true ↔ ∃ drive, physToScsi name = .ok drive := by
  cases name <;> simp [scsiName, physToScsi]

theorem mappedState_iff {state : String} (hstate : array.arrayState = some state)
    (hdocumented : state ∈ documentedStates) :
    array.mappedState ≠ none ↔ state ∈ mappedStates := by
  rw [MdArray.mappedState, hstate]
  simp only [documentedStates, List.mem_cons, List.not_mem_nil, or_false] at hdocumented
  rcases hdocumented with rfl | rfl | rfl | rfl | rfl | rfl | rfl | rfl | rfl <;>
    decide +kernel

theorem readable_iff
    (hstate : ∃ state ∈ documentedStates, array.arrayState = some state)
    (hlevel : array.level.isSome = true) :
    array.Readable ↔
      (∃ state ∈ mappedStates, array.arrayState = some state) ∨
        array.degraded = some "1" := by
  obtain ⟨state, hdocumented, hstate⟩ := hstate
  have hlevel : array.level ≠ none := Option.isSome_iff_ne_none.mp hlevel
  have hmapped : array.mappedState ≠ none ↔
      ∃ state ∈ mappedStates, array.arrayState = some state := by
    rw [mappedState_iff hstate hdocumented]
    simp [hstate]
  rw [← hmapped]
  constructor
  · rintro (⟨-, hknown⟩ | ⟨hfailed, -⟩)
    · exact hknown
    · exact .inl (by simp [hfailed])
  · intro hknown
    exact .inl ⟨hlevel, hknown⟩

def AllShown (sysfs : Sysfs) (order : Order) : Prop :=
  ∃ logicals, sysfs.logicals order = .ok logicals ∧
    (logicals.map (·.id)).Perm (sysfs.listedArrays.map (·.id))

theorem allShown_of_logical (h : ∀ array ∈ sysfs.listedArrays, ∃ logical,
    sysfs.logical array = .ok logical) : AllShown sysfs order := by
  have hvisit : ∀ array ∈ order.visit sysfs.listedArrays, ∃ logical,
      sysfs.logical array = .ok logical :=
    fun array harray => h array ((order.mem_visit).mp harray)
  obtain ⟨logicals, hlogicals⟩ : ∃ logicals, sysfs.logicals order = .ok logicals :=
    mapM_ok hvisit
  refine ⟨logicals, hlogicals, ?_⟩
  rw [mapM_map_eq _ (·.id) (fun array logical hrun => (logical_eq_ok hrun).2.1) hlogicals]
  exact (order.perm _).map _

def Listable (array : MdArray) : Prop :=
  ((∃ state ∈ mappedStates, array.arrayState = some state) ∨
      array.degraded = some "1") ∧
    ∀ slave ∈ array.slaves, scsiName slave.name = true

theorem allShown_iff (order : Order)
    (hstates : ∀ array ∈ sysfs.listedArrays, ∃ state ∈ documentedStates,
      array.arrayState = some state)
    (hlevels : ∀ array ∈ sysfs.listedArrays, array.level.isSome = true) :
    AllShown sysfs order ↔ ∀ array ∈ sysfs.listedArrays, Listable array := by
  have hknown : ∀ array ∈ sysfs.listedArrays, array.Readable ↔
      (∃ state ∈ mappedStates, array.arrayState = some state) ∨
        array.degraded = some "1" := fun array harray =>
    readable_iff (hstates array harray) (hlevels array harray)
  constructor
  · rintro ⟨logicals, hlogicals, -⟩ array harray
    obtain ⟨logical, -, hrun⟩ :=
      (mapM_eq_ok hlogicals).1 array ((order.mem_visit).mpr harray)
    refine ⟨(hknown array harray).mp (logical_eq_ok hrun).1, fun slave hslave => ?_⟩
    exact (scsiName_iff _).mpr (drives_of_logical hrun slave hslave)
  · intro hlistable
    apply allShown_of_logical
    intro array harray
    obtain ⟨hstate, hslaves⟩ := hlistable array harray
    refine logical_ok ((hknown array harray).mpr hstate) fun slave hslave => ?_
    exact (scsiName_iff _).mp (hslaves slave hslave)

def twoMirrors (state : String) : Sysfs where
  disks := ∅
  files := fun _ => .sample
  arrays := [mirror, { raid6Array 0 with id := 1, arrayState := some state }]
  ids_nodup := List.pairwise_pair.mpr Nat.zero_ne_one
  caches := []

theorem twoMirrors_active_shown : AllShown (twoMirrors "active") Order.plain := by
  refine (allShown_iff Order.plain ?_ ?_).mpr ?_
  · decide +kernel
  · decide +kernel
  · unfold Listable
    decide +kernel

theorem twoMirrors_writePending_hidden : "write-pending" ∈ documentedStates ∧
    ¬ AllShown (twoMirrors "write-pending") Order.plain := by
  refine ⟨by decide +kernel, ?_⟩
  rintro ⟨logicals, hlogicals, -⟩
  cases hlogicals

end OpenSan.Einarc.Sysfs
