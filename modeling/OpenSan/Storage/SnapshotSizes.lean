import Mathlib.Algebra.Order.Ring.Rat
import OpenSan.Storage.Commands

/-!
# Sizes of snapshots

Both guards of a snapshot resize compare the new size with the size on the page
of the request.  A snapshot that has grown since can be made smaller by a size
between the two.
-/

namespace OpenSan.Storage

open OpenSan.Foundation OpenSan.Einarc

variable {env : Env} {page : Page}

theorem findVolume_eq_ok {key : VolumeName} {volume : ListedVolume}
    (h : findVolume env page key = .ok volume) :
    volume ∈ page.volumes ∧ volume.key = key := by
  unfold findVolume at h
  split at h
  · rename_i found hfound
    obtain rfl := Except.ok.inj h
    exact ⟨(env.host.order.mem_visit).mp
      (List.mem_reverse.mp (List.mem_of_find?_eq_some hfound)),
      by simpa using List.find?_some hfound⟩
  · cases h

theorem boundsCheck_volumes (env : Env) (m : Machine) (pv : ListedPv) (size : ℚ) :
    (boundsCheck env pv size m).2.volumes = m.volumes := by
  refine Action.final_lift (Q := fun m' : Machine => m'.volumes = m.volumes)
    (fun _ _ => rfl) fun expected _ => ?_
  refine Action.final_ite (Q := fun m' : Machine => m'.volumes = m.volumes)
    (fun _ => ?_) fun _ => rfl
  rw [systemSucceed_run]
  exact after_of_effect (·.volumes) _ (fun _ _ => rfl) rfl

theorem snapshotResize_volumes (env : Env) (page : Page) (m : Machine)
    (groupHash volumeHash : String) (sizeNew : Option ℚ) (apply : Except Error Unit) :
    let m' := (lvmLogicalVolumeSnapshotResize env page groupHash volumeHash sizeNew
      apply m).2
    m'.volumes = m.volumes ∨ ∃ shown ∈ page.volumes, ∃ size,
      env.host.hash shown.key.group = groupHash ∧
      env.host.hash shown.key.name = volumeHash ∧ sizeNew = some size ∧
      shown.size < size ∧ m'.volumes = m.volumes.resize shown.key size := by
  intro m'
  let Q : Machine → Prop := fun m' => m'.volumes = m.volumes ∨
    ∃ shown ∈ page.volumes, ∃ size, env.host.hash shown.key.group = groupHash ∧
      env.host.hash shown.key.name = volumeHash ∧ sizeNew = some size ∧
      shown.size < size ∧ m'.volumes = m.volumes.resize shown.key size
  change Q m'
  refine Action.final_lift (Q := Q) (fun _ _ => .inl rfl) fun group hgroup => ?_
  refine Action.final_lift (Q := Q) (fun _ _ => .inl rfl) fun name hname => ?_
  refine Action.final_lift (Q := Q) (fun _ _ => .inl rfl) fun pv _ => ?_
  refine Action.final_lift (Q := Q) (fun _ _ => .inl rfl) fun logical _ => ?_
  have hbounds := boundsCheck_volumes env m pv logical.size
  refine Action.final_bind (Q := Q) (fun e m₁ hrun => ?_) fun _ m₁ hrun => ?_
  · rw [hrun] at hbounds
    exact .inl hbounds
  rw [hrun] at hbounds
  refine Action.final_lift (Q := Q) (fun _ _ => .inl hbounds) fun size hsize => ?_
  refine Action.final_require (Q := Q) (fun _ => .inl hbounds) fun _ => ?_
  refine Action.final_lift (Q := Q) (fun _ _ => .inl hbounds) fun found hfound => ?_
  obtain ⟨hmem, hkey⟩ := findVolume_eq_ok hfound
  refine Action.final_ite (Q := Q) (fun _ => .inl hbounds) fun _ => ?_
  refine Action.final_pcall (Q := Q) ?_
  have hresize : Q (resizeSnapshot env ⟨group, name⟩ found.size size m₁).2 := by
    refine Action.final_require (Q := Q) (fun _ => .inl hbounds) fun _ => ?_
    refine Action.final_ite (Q := Q) (fun _ => .inl hbounds) fun hgrows => ?_
    rw [systemSucceed_run]
    cases env.outcome (.lvresize ⟨group, name⟩ size)
        (m₁.issued (.lvresize ⟨group, name⟩ size)) with
    | false => exact .inl hbounds
    | true =>
        refine .inr ⟨found, hmem, size, ?_, ?_, nonNil_eq_ok hsize, not_le.mp hgrows, ?_⟩
        · rw [hkey]
          exact (Controller.findByHash_eq_ok hgroup).2
        · rw [hkey]
          exact (Controller.findByHash_eq_ok hname).2
        · rw [hkey, ← hbounds]
          rfl
  rcases hdone : resizeSnapshot env ⟨group, name⟩ found.size size m₁ with ⟨e | _, m₂⟩
  · rw [hdone] at hresize
    exact hresize
  · rw [hdone] at hresize
    cases apply <;> exact hresize

theorem mem_resize {volumes : Volumes} {volume : Volume} (key : VolumeName) (size : ℚ)
    (h : volume ∈ volumes.list) :
    ∃ volume' ∈ (volumes.resize key size).list, volume'.key = volume.key ∧
      volume'.size = if volume.key = key then size else volume.size :=
  ⟨_, List.mem_map_of_mem h, rfl, rfl⟩

/-! ## Runs -/

def NoShrink (before after : Machine) : Prop :=
  ∀ volume ∈ before.volumes.list, volume.origin.isSome = true →
    ∃ volume' ∈ after.volumes.list, volume'.key = volume.key ∧
      volume.size ≤ volume'.size

def Event.resizes : Event → Bool
  | .submit _ _ _ (.logicalVolumeSnapshotResize ..) => true
  | _ => false

def ResizeKeeps (system : System) (event : Event) : Prop :=
  event.resizes = true → NoShrink system.machine (step system event).machine

/-- The size is at most the one on the page or at least the actual one. -/
def SizeCurrent (volumes : Volumes) (shown : ListedVolume) (size : ℚ) : Prop :=
  size ≤ shown.size ∨ ∀ volume ∈ volumes.list, volume.key = shown.key →
    volume.origin.isSome = true → volume.size ≤ size

instance (volumes : Volumes) (shown : ListedVolume) (size : ℚ) :
    Decidable (SizeCurrent volumes shown size) :=
  inferInstanceAs (Decidable (_ ∨ _))

def ResizeCurrent (system : System) : Event → Prop
  | .submit client number env
      (.logicalVolumeSnapshotResize groupHash volumeHash sizeNew _) =>
      ∀ page ∈ system.page client number, ∀ shown ∈ page.volumes,
        env.host.hash shown.key.group = groupHash →
        env.host.hash shown.key.name = volumeHash →
        ∀ size ∈ sizeNew, SizeCurrent system.machine.volumes shown size
  | _ => True

theorem noShrink_refl (m : Machine) : NoShrink m m :=
  fun volume hvolume _ => ⟨volume, hvolume, rfl, le_rfl⟩

theorem resizeKeeps_of_current (system : System) (event : Event)
    (h : ResizeCurrent system event) : ResizeKeeps system event := by
  intro hresizes
  cases event with
  | load client env => cases hresizes
  | other change => cases hresizes
  | submit client number env request =>
      cases request with
      | logicalVolumeSnapshotResize groupHash volumeHash sizeNew apply =>
          simp only [step]
          cases hpage : system.page client number with
          | none => exact noShrink_refl system.machine
          | some page =>
              intro volume hvolume horigin
              simp only [Request.serve]
              rcases snapshotResize_volumes env page system.machine groupHash volumeHash
                  sizeNew apply with
                hsame | ⟨shown, hshown, size, hgroup, hname, hsize, hgrows, hresize⟩
              · exact ⟨volume, by rw [hsame]; exact hvolume, rfl, le_rfl⟩
              · obtain ⟨volume', hvolume', hkey', hsize'⟩ :=
                  mem_resize shown.key size hvolume
                refine ⟨volume', by rw [hresize]; exact hvolume', hkey', ?_⟩
                rw [hsize']
                by_cases hkey : volume.key = shown.key
                · rw [if_pos hkey]
                  have hcurrent := h page hpage shown hshown hgroup hname size hsize
                  exact hcurrent.resolve_left (not_le.mpr hgrows) volume hvolume hkey
                    horigin
                · rw [if_neg hkey]
      | _ => cases hresizes

/-- In a run in which every requested size is at most the size on the page or
at least the actual size, no snapshot resize makes a snapshot smaller. -/
theorem snapshots_never_shrink (start : System) (events : List Event)
    (h : Guarded ResizeCurrent step start events) :
    EveryStep ResizeKeeps start events :=
  everyStep_of_guarded resizeKeeps_of_current h

def oneSnapshot : System := ⟨homeAndSnapshot, []⟩

def resizeTo (client number : Nat) (size : ℚ) : Event :=
  .submit client number (sampleEnv fun _ _ => true) (.logicalVolumeSnapshotResize
    (sampleHash "vg1") (sampleHash "snap") (some size) (.ok ()))

def twoLoads : List Event :=
  [.load 1 (sampleEnv fun _ _ => true), .load 2 (sampleEnv fun _ _ => true),
    resizeTo 2 1 300]

theorem oneSnapshot_never_shrinks :
    Guarded ResizeCurrent step oneSnapshot (twoLoads ++ [resizeTo 1 0 400]) ∧
      EveryStep ResizeKeeps oneSnapshot (twoLoads ++ [resizeTo 1 0 400]) := by
  have hguarded : Guarded ResizeCurrent step oneSnapshot
      (twoLoads ++ [resizeTo 1 0 400]) := by
    refine ⟨trivial, trivial, ?_, ?_, trivial⟩
    · simp only [ResizeCurrent, resizeTo]
      decide +kernel
    · simp only [ResizeCurrent, resizeTo]
      decide +kernel
  exact ⟨hguarded, snapshots_never_shrink _ _ hguarded⟩

theorem oneSnapshot_shrinks :
    ¬ EveryStep ResizeKeeps oneSnapshot (twoLoads ++ [resizeTo 1 0 200]) := by
  intro h
  have hlast := h twoLoads (resizeTo 1 0 200) [] rfl rfl
  exact absurd hlast (by
    unfold NoShrink
    decide +kernel)

end OpenSan.Storage
