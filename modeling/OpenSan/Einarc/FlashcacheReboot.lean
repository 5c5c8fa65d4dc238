import OpenSan.Einarc.Flashcache
import OpenSan.Foundation.Run

/-!
# Cache bindings and reboots

The trailer of a disk is never erased, so after an unbind it still names the
old array.  This does no harm in write-back mode, where `assemble` loads the
cache from a superblock that `flashcache_destroy` has erased.  `rebootGuard`
describes the calls that keep trailers and live caches in step.
-/

namespace OpenSan.Einarc.Flashcache

open OpenSan.Foundation

/-- Trailers and superblocks name exactly the live caches. -/
structure Recorded (inventory : Inventory) (machine : Machine) : Prop where
  nodup : machine.kernel.maps.Nodup
  one_per_disk : ∀ first ∈ machine.kernel.maps, ∀ second ∈ machine.kernel.maps,
    first.disk = second.disk → first = second
  one_per_array : ∀ first ∈ machine.kernel.maps, ∀ second ∈ machine.kernel.maps,
    first.array = second.array → first = second
  known : ∀ map ∈ machine.kernel.maps,
    map.disk ∈ inventory.disks ∧ map.array ∈ inventory.arrays
  live : ∀ map ∈ machine.kernel.maps,
    metaread inventory (machine.trailer map.disk) =
      some (map.mode, inventory.uuid map.array)
  loadable : ∀ map ∈ machine.kernel.maps, map.mode = .writeBack →
    machine.kernel.superblock map.disk = some map.array
  stale : ∀ disk ∈ inventory.disks, machine.kernel.DiskFree disk →
    ∀ mode, ∀ array ∈ inventory.arrays,
      metaread inventory (machine.trailer disk) =
        some (mode, inventory.uuid array) →
      mode = .writeBack ∧ machine.kernel.superblock disk = none

structure Fresh (inventory : Inventory) (machine : Machine) : Prop where
  maps : machine.kernel.maps = []
  trailers : ∀ disk ∈ inventory.disks, ∀ mode, ∀ array ∈ inventory.arrays,
    metaread inventory (machine.trailer disk) ≠
      some (mode, inventory.uuid array)

theorem Fresh.recorded {inventory : Inventory} {machine : Machine}
    (h : Fresh inventory machine) : Recorded inventory machine where
  nodup := by simp [h.maps]
  one_per_disk := by simp [h.maps]
  one_per_array := by simp [h.maps]
  known := by simp [h.maps]
  live := by simp [h.maps]
  loadable := by simp [h.maps]
  stale := by
    intro disk hdisk _ mode array harray hread
    exact absurd hread (h.trailers disk hdisk mode array harray)

def Removes (tools : Tools) (kernel : Kernel) (array : Nat) : Prop :=
  (tools.remove kernel array).maps =
    kernel.maps.filter fun map => map.array != array

/-- The disk is not in use, and the cache comes up or is a write-back cache; or
the call repeats a live binding of another mode. -/
def BindKept (tools : Tools) (kernel : Kernel) (map : CacheMap) : Prop :=
  (kernel.DiskFree map.disk ∧ (map.mode = .writeBack ∨
    (tools.create (tools.destroy kernel map.disk) map).isSome = true)) ∨
  (map ∈ kernel.maps ∧ map.mode ≠ .writeBack)

def rebootGuard (inventory : Inventory) (machine : Machine)
    (input : Tools × Request) : Prop :=
  match input.2 with
  | .bind disk array modeName =>
      disk ∈ inventory.disks → array ∈ inventory.arrays →
        ∀ mode ∈ Mode.ofName modeName,
          BindKept input.1 machine.kernel ⟨disk, array, mode⟩
  | .unbind disk =>
      disk ∈ inventory.disks → ∀ map ∈ machine.kernel.maps, map.disk = disk →
        if map.mode = .writeBack then
          Removes input.1 machine.kernel map.array
        else (input.1.remove machine.kernel map.array).maps = machine.kernel.maps

instance (tools : Tools) (kernel : Kernel) (array : Nat) :
    Decidable (Removes tools kernel array) :=
  inferInstanceAs (Decidable (_ = _))

instance (kernel : Kernel) (disk : String) : Decidable (kernel.DiskFree disk) :=
  inferInstanceAs (Decidable (∀ map ∈ kernel.maps, _))

instance (tools : Tools) (kernel : Kernel) (map : CacheMap) :
    Decidable (BindKept tools kernel map) :=
  inferInstanceAs (Decidable (_ ∨ _))

instance (inventory : Inventory) (machine : Machine) (input : Tools × Request) :
    Decidable (rebootGuard inventory machine input) := by
  unfold rebootGuard
  cases input.2 <;> infer_instance

/-! ## What the calls do -/

def written (tools : Tools) (inventory : Inventory) (map : CacheMap)
    (machine : Machine) : Machine :=
  ({ machine with kernel := tools.destroy machine.kernel map.disk } :
    Machine).write map.disk (metainfo inventory map.mode map.array)

theorem bind_run (tools : Tools) (inventory : Inventory) {disk : String}
    {array : Nat} {modeName : String} {mode : Mode} (machine : Machine)
    (hdisk : disk ∈ inventory.disks) (harray : array ∈ inventory.arrays)
    (hmode : Mode.ofName modeName = some mode) :
    bind tools inventory disk array modeName machine =
      match tools.create (tools.destroy machine.kernel disk)
          ⟨disk, array, mode⟩ with
      | none => (.error (.failure "system() does not succeed"),
          written tools inventory ⟨disk, array, mode⟩ machine)
      | some kernel => (.ok (),
          { written tools inventory ⟨disk, array, mode⟩ machine with
            kernel := kernel }) := by
  cases hcreate : tools.create (tools.destroy machine.kernel disk)
      ⟨disk, array, mode⟩ with
  | none =>
      simp [bind, Action.require, hdisk, harray, hmode, destroy, destroyMeta,
        onKernel, hcreate, written]
  | some kernel =>
      simp [bind, Action.require, hdisk, harray, hmode, destroy, destroyMeta,
        onKernel, hcreate, written]

theorem bind_refused (tools : Tools) (inventory : Inventory) {disk : String}
    {array : Nat} {modeName : String} (machine : Machine)
    (h : disk ∉ inventory.disks ∨ array ∉ inventory.arrays ∨
      Mode.ofName modeName = none) :
    (bind tools inventory disk array modeName machine).2 = machine := by
  by_cases hdisk : disk ∈ inventory.disks
  · by_cases harray : array ∈ inventory.arrays
    · have hmode : Mode.ofName modeName = none := by tauto
      simp [bind, Action.require, hdisk, harray, hmode]
    · simp [bind, Action.require, hdisk, harray]
  · simp [bind, Action.require, hdisk]

theorem unbindMap_run (tools : Tools) {inventory : Inventory} {map : CacheMap}
    (harray : map.array ∈ inventory.arrays) (machine : Machine) :
    unbindMap tools inventory map.disk map machine =
      (.ok (), { machine with
        kernel := tools.destroy (tools.remove machine.kernel map.array)
          map.disk }) := by
  rw [unbindMap, if_pos rfl, Action.require_of_true harray]
  rfl

theorem unbindMap_other (tools : Tools) (inventory : Inventory) {disk : String}
    {map : CacheMap} (h : map.disk ≠ disk) :
    unbindMap tools inventory disk map = Action.ret () := by
  rw [unbindMap, if_neg h]
  rfl

theorem unbind_run (tools : Tools) {inventory : Inventory} {disk : String}
    {machine : Machine} (h : Recorded inventory machine)
    (hdisk : disk ∈ inventory.disks) :
    (machine.kernel.DiskFree disk ∧
      (unbind tools inventory disk machine).2 = machine) ∨
    ∃ map ∈ machine.kernel.maps, map.disk = disk ∧
      (unbind tools inventory disk machine).2 = { machine with
        kernel := tools.destroy (tools.remove machine.kernel map.array) disk } := by
  have hloop : unbind tools inventory disk machine =
      Action.forEach machine.kernel.maps (unbindMap tools inventory disk)
        machine := by
    rw [unbind, Action.require_of_true hdisk]
    rfl
  rw [hloop]
  by_cases hlive : ∃ map ∈ machine.kernel.maps, map.disk = disk
  · obtain ⟨map, hmap, rfl⟩ := hlive
    refine .inr ⟨map, hmap, rfl, ?_⟩
    rw [Action.forEach_of_single hmap h.nodup, unbindMap_run tools
      (h.known map hmap).2]
    intro other hother hne
    exact unbindMap_other tools inventory fun hsame =>
      hne (h.one_per_disk other hother map hmap hsame)
  · have hfree : machine.kernel.DiskFree disk := by
      simpa [Kernel.DiskFree] using hlive
    refine .inl ⟨hfree, ?_⟩
    rw [Action.forEach_of_quiet]
    · rfl
    · intro map hmap
      exact unbindMap_other tools inventory (hfree map hmap)

/-! ## Every guarded call keeps the record -/

private theorem Recorded.touched {inventory : Inventory} {machine after : Machine}
    (h : Recorded inventory machine) (disk : String)
    (hsub : List.Sublist after.kernel.maps machine.kernel.maps)
    (hothers : ∀ map ∈ machine.kernel.maps, map.disk ≠ disk →
      map ∈ after.kernel.maps)
    (htrailer : ∀ other, other ≠ disk → after.trailer other = machine.trailer other)
    (hblock : ∀ other, other ≠ disk →
      after.kernel.superblock other = machine.kernel.superblock other)
    (hlive : ∀ map ∈ after.kernel.maps, map.disk = disk →
      metaread inventory (after.trailer disk) =
          some (map.mode, inventory.uuid map.array) ∧
        (map.mode = .writeBack → after.kernel.superblock disk = some map.array))
    (hstale : after.kernel.DiskFree disk → ∀ mode, ∀ array ∈ inventory.arrays,
      metaread inventory (after.trailer disk) = some (mode, inventory.uuid array) →
        mode = .writeBack ∧ after.kernel.superblock disk = none) :
    Recorded inventory after where
  nodup := h.nodup.sublist hsub
  one_per_disk := fun first hfirst second hsecond =>
    h.one_per_disk first (hsub.subset hfirst) second (hsub.subset hsecond)
  one_per_array := fun first hfirst second hsecond =>
    h.one_per_array first (hsub.subset hfirst) second (hsub.subset hsecond)
  known := fun map hmap => h.known map (hsub.subset hmap)
  live := by
    intro map hmap
    by_cases heq : map.disk = disk
    · rw [heq]
      exact (hlive map hmap heq).1
    · rw [htrailer map.disk heq]
      exact h.live map (hsub.subset hmap)
  loadable := by
    intro map hmap hmode
    by_cases heq : map.disk = disk
    · rw [heq]
      exact (hlive map hmap heq).2 hmode
    · rw [hblock map.disk heq]
      exact h.loadable map (hsub.subset hmap) hmode
  stale := by
    intro other hother hfree mode array harray hread
    by_cases heq : other = disk
    · subst heq
      exact hstale hfree mode array harray hread
    · have hold : machine.kernel.DiskFree other := fun map hmap hdisk =>
        hfree map (hothers map hmap (hdisk ▸ heq)) hdisk
      rw [htrailer other heq] at hread
      rw [hblock other heq]
      exact h.stale other hother hold mode array harray hread

section Bind

variable {tools : Tools} {inventory : Inventory} {machine : Machine}
  {map : CacheMap}

theorem written_maps :
    (written tools inventory map machine).kernel.maps = machine.kernel.maps :=
  tools.destroy_maps machine.kernel map.disk

theorem written_metaread (hsound : inventory.Sound)
    (harray : map.array ∈ inventory.arrays) :
    metaread inventory ((written tools inventory map machine).trailer map.disk) =
      some (map.mode, inventory.uuid map.array) := by
  rw [written, write_trailer_self _ _ (metainfo_length hsound map.mode harray)]
  exact metaread_metainfo hsound map.mode harray

theorem written_trailer_other {disk : String} (h : disk ≠ map.disk) :
    (written tools inventory map machine).trailer disk = machine.trailer disk :=
  write_trailer_other _ _ h

theorem written_superblock_other {disk : String} (h : disk ≠ map.disk) :
    (written tools inventory map machine).kernel.superblock disk =
      machine.kernel.superblock disk :=
  tools.destroy_other machine.kernel map.disk disk h

theorem Recorded.created (hsound : inventory.Sound)
    (h : Recorded inventory machine) (hdisk : map.disk ∈ inventory.disks)
    (harray : map.array ∈ inventory.arrays)
    (hfree : machine.kernel.DiskFree map.disk) {kernel : Kernel}
    (hcreate : tools.create (tools.destroy machine.kernel map.disk) map =
      some kernel) :
    Recorded inventory
      { written tools inventory map machine with kernel := kernel } := by
  have hperm : kernel.maps.Perm (map :: machine.kernel.maps) := by
    have := tools.create_maps hcreate
    rwa [tools.destroy_maps] at this
  have hmem : ∀ other, other ∈ kernel.maps ↔
      other = map ∨ other ∈ machine.kernel.maps := by
    intro other
    rw [hperm.mem_iff, List.mem_cons]
  have harrayFree : machine.kernel.ArrayFree map.array := by
    intro other hother
    apply tools.create_free hcreate
    rwa [tools.destroy_maps]
  have hblock : ∀ disk, disk ≠ map.disk →
      kernel.superblock disk = machine.kernel.superblock disk := by
    intro disk hne
    rw [tools.create_other hcreate disk hne]
    exact tools.destroy_other machine.kernel map.disk disk hne
  refine ⟨?_, ?_, ?_, ?_, ?_, ?_, ?_⟩
  · rw [hperm.nodup_iff, List.nodup_cons]
    exact ⟨fun hin => hfree map hin rfl, h.nodup⟩
  · intro first hfirst second hsecond heq
    rcases (hmem first).mp hfirst with rfl | hin <;>
      rcases (hmem second).mp hsecond with rfl | hin'
    · rfl
    · exact absurd heq.symm (hfree second hin')
    · exact absurd heq (hfree first hin)
    · exact h.one_per_disk first hin second hin' heq
  · intro first hfirst second hsecond heq
    rcases (hmem first).mp hfirst with rfl | hin <;>
      rcases (hmem second).mp hsecond with rfl | hin'
    · rfl
    · exact absurd heq.symm (harrayFree second hin')
    · exact absurd heq (harrayFree first hin)
    · exact h.one_per_array first hin second hin' heq
  · intro other hother
    rcases (hmem other).mp hother with rfl | hother
    · exact ⟨hdisk, harray⟩
    · exact h.known other hother
  · intro other hother
    rcases (hmem other).mp hother with rfl | hother
    · exact written_metaread hsound harray
    · rw [written_trailer_other (hfree other hother)]
      exact h.live other hother
  · intro other hother hback
    rcases (hmem other).mp hother with rfl | hother
    · exact tools.create_superblock hcreate hback
    · exact (hblock other.disk (hfree other hother)).trans
        (h.loadable other hother hback)
  · intro disk hmemDisk hdiskFree mode array harray' hread
    have hne : disk ≠ map.disk := fun heq =>
      hdiskFree map ((hmem map).mpr (.inl rfl)) heq.symm
    have hold : machine.kernel.DiskFree disk := fun other hother =>
      hdiskFree other ((hmem other).mpr (.inr hother))
    rw [written_trailer_other hne] at hread
    obtain ⟨hback, hnone⟩ := h.stale disk hmemDisk hold mode array harray' hread
    exact ⟨hback, (hblock disk hne).trans hnone⟩

theorem Recorded.notCreated (hsound : inventory.Sound)
    (h : Recorded inventory machine) (harray : map.array ∈ inventory.arrays)
    (hfree : machine.kernel.DiskFree map.disk) (hback : map.mode = .writeBack) :
    Recorded inventory (written tools inventory map machine) := by
  have hmaps : (written tools inventory map machine).kernel.maps =
      machine.kernel.maps := written_maps
  refine h.touched map.disk (hmaps ▸ List.Sublist.refl _)
    (fun other hother _ => hmaps ▸ hother) (fun _ => written_trailer_other)
    (fun _ => written_superblock_other) ?_ ?_
  · intro other hother heq
    rw [hmaps] at hother
    exact absurd heq (hfree other hother)
  · intro _ mode array _ hread
    rw [written_metaread hsound harray] at hread
    obtain ⟨rfl, -⟩ := Prod.mk.inj (Option.some.inj hread)
    exact ⟨hback, tools.destroy_superblock machine.kernel map.disk hfree⟩

theorem Recorded.repeated (hsound : inventory.Sound)
    (h : Recorded inventory machine) (hmap : map ∈ machine.kernel.maps)
    (hback : map.mode ≠ .writeBack) :
    Recorded inventory (written tools inventory map machine) := by
  have hmaps : (written tools inventory map machine).kernel.maps =
      machine.kernel.maps := written_maps
  refine h.touched map.disk (hmaps ▸ List.Sublist.refl _)
    (fun other hother _ => hmaps ▸ hother) (fun _ => written_trailer_other)
    (fun _ => written_superblock_other) ?_ ?_
  · intro other hother heq
    rw [hmaps] at hother
    rw [h.one_per_disk other hother map hmap heq]
    exact ⟨written_metaread hsound (h.known map hmap).2, fun hmode => absurd hmode hback⟩
  · intro hfree
    exact absurd rfl (hfree map (hmaps ▸ hmap))

end Bind

theorem bind_recorded {inventory : Inventory} (hsound : inventory.Sound)
    {tools : Tools} {machine : Machine} (h : Recorded inventory machine)
    {disk : String} {array : Nat} {modeName : String}
    (hguard : rebootGuard inventory machine
      (tools, .bind disk array modeName)) :
    Recorded inventory
      (bind tools inventory disk array modeName machine).2 := by
  by_cases hdisk : disk ∈ inventory.disks
  case neg =>
    rw [bind_refused tools inventory machine (.inl hdisk)]
    exact h
  by_cases harray : array ∈ inventory.arrays
  case neg =>
    rw [bind_refused tools inventory machine (.inr (.inl harray))]
    exact h
  cases hmode : Mode.ofName modeName with
  | none =>
      rw [bind_refused tools inventory machine (.inr (.inr hmode))]
      exact h
  | some mode =>
      have hkept := hguard hdisk harray mode hmode
      rw [bind_run tools inventory machine hdisk harray hmode]
      cases hcreate : tools.create (tools.destroy machine.kernel disk)
          ⟨disk, array, mode⟩ with
      | none =>
          rcases hkept with ⟨hfree, hback | hcreated⟩ | ⟨hlive, hback⟩
          · exact h.notCreated hsound harray hfree hback
          · rw [hcreate] at hcreated
            cases hcreated
          · exact h.repeated hsound hlive hback
      | some kernel =>
          rcases hkept with ⟨hfree, -⟩ | ⟨hlive, -⟩
          · exact h.created hsound hdisk harray hfree hcreate
          · -- the array is already cached, so nothing can be created for it
            have hbusy := tools.create_free hcreate ⟨disk, array, mode⟩
            rw [tools.destroy_maps] at hbusy
            exact absurd rfl (hbusy hlive)

private theorem destroyed_superblock (tools : Tools) (kernel : Kernel)
    {map : CacheMap} (disk : String) (hne : disk ≠ map.disk) :
    (tools.destroy (tools.remove kernel map.array) map.disk).superblock disk =
      kernel.superblock disk := by
  rw [tools.destroy_other _ _ _ hne, tools.remove_superblock]

theorem Recorded.kept {tools : Tools} {inventory : Inventory}
    {machine : Machine} (h : Recorded inventory machine) {map : CacheMap}
    (hmap : map ∈ machine.kernel.maps) (hback : map.mode ≠ .writeBack)
    (hsame : (tools.remove machine.kernel map.array).maps =
      machine.kernel.maps) :
    Recorded inventory { machine with
      kernel := tools.destroy (tools.remove machine.kernel map.array)
        map.disk } := by
  have hmaps : (tools.destroy (tools.remove machine.kernel map.array)
      map.disk).maps = machine.kernel.maps :=
    (tools.destroy_maps _ _).trans hsame
  refine h.touched map.disk (hmaps ▸ List.Sublist.refl _)
    (fun other hother _ => hmaps ▸ hother) (fun _ _ => rfl)
    (destroyed_superblock tools machine.kernel) ?_ ?_
  · intro other hother heq
    rw [hmaps] at hother
    rw [h.one_per_disk other hother map hmap heq]
    exact ⟨h.live map hmap, fun hmode => absurd hmode hback⟩
  · intro hfree
    exact absurd rfl (hfree map (hmaps ▸ hmap))

theorem Recorded.removed {tools : Tools} {inventory : Inventory}
    {machine : Machine} (h : Recorded inventory machine) {map : CacheMap}
    (hmap : map ∈ machine.kernel.maps) (hback : map.mode = .writeBack)
    (hremoves : Removes tools machine.kernel map.array) :
    Recorded inventory { machine with
      kernel := tools.destroy (tools.remove machine.kernel map.array)
        map.disk } := by
  have hmaps : (tools.destroy (tools.remove machine.kernel map.array)
      map.disk).maps =
        machine.kernel.maps.filter fun other => other.array != map.array :=
    (tools.destroy_maps _ _).trans hremoves
  refine h.touched map.disk (hmaps ▸ List.filter_sublist) ?_
    (fun _ _ => rfl) (destroyed_superblock tools machine.kernel) ?_ ?_
  · intro other hother hne
    have harray : other.array ≠ map.array := fun heq =>
      hne (congrArg CacheMap.disk (h.one_per_array other hother map hmap heq))
    rw [hmaps, List.mem_filter]
    exact ⟨hother, by simpa using harray⟩
  · intro other hother heq
    rw [hmaps, List.mem_filter] at hother
    have hsame := h.one_per_disk other hother.1 map hmap heq
    simp [hsame] at hother
  · intro hfree mode array _ hread
    have hlive : metaread inventory (machine.trailer map.disk) = _ := h.live map hmap
    rw [hlive] at hread
    obtain ⟨rfl, -⟩ := Prod.mk.inj (Option.some.inj hread)
    refine ⟨hback, tools.destroy_superblock _ _ ?_⟩
    intro other hother
    exact hfree other (by rwa [tools.destroy_maps])

theorem unbind_recorded {inventory : Inventory} {tools : Tools}
    {machine : Machine} (h : Recorded inventory machine) {disk : String}
    (hguard : rebootGuard inventory machine (tools, .unbind disk)) :
    Recorded inventory (unbind tools inventory disk machine).2 := by
  by_cases hdisk : disk ∈ inventory.disks
  case neg =>
    rw [unbind, Action.require_of_false hdisk]
    exact h
  rcases unbind_run tools h hdisk with ⟨-, hrun⟩ | ⟨map, hmap, rfl, hrun⟩
  · rw [hrun]
    exact h
  · rw [hrun]
    have hcase := hguard hdisk map hmap rfl
    by_cases hback : map.mode = .writeBack
    · rw [if_pos hback] at hcase
      exact h.removed hmap hback hcase
    · rw [if_neg hback] at hcase
      exact h.kept hmap hback hcase

theorem step_recorded {inventory : Inventory} (hsound : inventory.Sound)
    {machine : Machine} {input : Tools × Request}
    (h : Recorded inventory machine)
    (hguard : rebootGuard inventory machine input) :
    Recorded inventory (step inventory machine input) := by
  obtain ⟨tools, request⟩ := input
  cases request with
  | bind disk array modeName => exact bind_recorded hsound h hguard
  | unbind disk => exact unbind_recorded h hguard

/-! ## Assembling after a reboot -/

structure Willing (tools : Tools) : Prop where
  create : ∀ kernel map, kernel.DiskFree map.disk → kernel.ArrayFree map.array →
    (tools.create kernel map).isSome = true
  load_maps : ∀ kernel disk array, kernel.superblock disk = some array →
    kernel.DiskFree disk → kernel.ArrayFree array →
      (tools.load kernel disk).maps.Perm (⟨disk, array, .writeBack⟩ :: kernel.maps)
  load_superblock : ∀ kernel disk,
    (tools.load kernel disk).superblock = kernel.superblock

structure Restoring (before : Machine) (done : List String)
    (machine : Machine) : Prop where
  maps : ∀ map, map ∈ machine.kernel.maps ↔
    map ∈ before.kernel.maps ∧ map.disk ∈ done
  trailer : ∀ disk, disk ∉ done → machine.trailer disk = before.trailer disk
  superblock : ∀ disk, disk ∉ done →
    machine.kernel.superblock disk = before.kernel.superblock disk

theorem restoring_reboot (before : Machine) :
    Restoring before [] (reboot before) where
  maps := by simp [reboot]
  trailer := fun _ _ => rfl
  superblock := fun _ _ => rfl

section Assemble

variable {tools : Tools} {inventory : Inventory} {before machine : Machine}
  {done : List String} {disk : String}

theorem Restoring.diskFree (hr : Restoring before done machine)
    (hnot : disk ∉ done) : machine.kernel.DiskFree disk := by
  intro other hother heq
  exact hnot (heq ▸ ((hr.maps other).mp hother).2)

theorem Restoring.arrayFree (hr : Restoring before done machine)
    (h : Recorded inventory before) {map : CacheMap}
    (hmap : map ∈ before.kernel.maps) (hnot : map.disk ∉ done) :
    machine.kernel.ArrayFree map.array := by
  intro other hother heq
  obtain ⟨hold, hdone⟩ := (hr.maps other).mp hother
  rw [h.one_per_array other hold map hmap heq] at hdone
  exact hnot hdone

theorem Restoring.next (hr : Restoring before done machine) {after : Machine}
    (hmaps : ∀ map, map ∈ after.kernel.maps ↔
      map ∈ machine.kernel.maps ∨ map ∈ before.kernel.maps ∧ map.disk = disk)
    (htrailer : ∀ other, other ≠ disk →
      after.trailer other = machine.trailer other)
    (hblock : ∀ other, other ≠ disk →
      after.kernel.superblock other = machine.kernel.superblock other) :
    Restoring before (disk :: done) after where
  maps := by
    intro map
    rw [hmaps, hr.maps, List.mem_cons]
    tauto
  trailer := by
    intro other hother
    rw [List.mem_cons, not_or] at hother
    rw [htrailer other hother.1, hr.trailer other hother.2]
  superblock := by
    intro other hother
    rw [List.mem_cons, not_or] at hother
    rw [hblock other hother.1, hr.superblock other hother.2]

theorem assembleArray_other (tools : Tools) {inventory : Inventory}
    (disk : String) (mode : Mode) {uuid : List Char} {array : Nat}
    (h : inventory.uuid array ≠ uuid) :
    assembleArray tools inventory disk mode uuid array = Action.ret () := by
  rw [assembleArray, if_neg h]
  rfl

theorem assembleDisk_eq (hsound : inventory.Sound) {mode : Mode} {array : Nat}
    (harray : array ∈ inventory.arrays)
    (hread : metaread inventory (machine.trailer disk) =
      some (mode, inventory.uuid array)) :
    assembleDisk tools inventory disk machine =
      assembleArray tools inventory disk mode (inventory.uuid array) array
        machine := by
  have hnodup : (inventory.order.visit inventory.arrays).Nodup :=
    (inventory.order.perm inventory.arrays).nodup_iff.mpr hsound.arrays_nodup
  have hloop : Action.forEach (inventory.order.visit inventory.arrays)
      (assembleArray tools inventory disk mode (inventory.uuid array)) =
        assembleArray tools inventory disk mode (inventory.uuid array) array := by
    apply Action.forEach_of_single (by simpa using harray) hnodup
    intro other hother hne
    apply assembleArray_other
    intro heq
    exact hne (hsound.uuid_injective other (by simpa using hother) array harray heq)
  rw [← hloop]
  simp only [assembleDisk, Action.bind_run, Action.read_run, hread]

theorem assembleDisk_live (hsound : inventory.Sound) (hwilling : Willing tools)
    (h : Recorded inventory before) (hr : Restoring before done machine)
    {map : CacheMap} (hmap : map ∈ before.kernel.maps) (hnot : map.disk ∉ done) :
    ∃ after, assembleDisk tools inventory map.disk machine = (.ok (), after) ∧
      Restoring before (map.disk :: done) after := by
  obtain ⟨hdisk, harray⟩ := h.known map hmap
  have hread : metaread inventory (machine.trailer map.disk) =
      some (map.mode, inventory.uuid map.array) := by
    rw [hr.trailer map.disk hnot]
    exact h.live map hmap
  have hdiskFree := hr.diskFree hnot
  have harrayFree := hr.arrayFree h hmap hnot
  have honly : ∀ other, other = map ↔
      other ∈ before.kernel.maps ∧ other.disk = map.disk := by
    intro other
    constructor
    · rintro rfl
      exact ⟨hmap, rfl⟩
    · rintro ⟨hother, heq⟩
      exact h.one_per_disk other hother map hmap heq
  rw [assembleDisk_eq hsound harray hread, assembleArray, if_pos rfl]
  by_cases hback : map.mode = .writeBack
  · have hblock : machine.kernel.superblock map.disk = some map.array := by
      rw [hr.superblock map.disk hnot]
      exact h.loadable map hmap hback
    have hself : (⟨map.disk, map.array, .writeBack⟩ : CacheMap) = map := by
      rw [← hback]
    have hperm := hwilling.load_maps machine.kernel map.disk map.array hblock
      hdiskFree harrayFree
    refine ⟨{ machine with kernel := tools.load machine.kernel map.disk }, ?_, ?_⟩
    · rw [hback]
      rfl
    · refine hr.next ?_ (fun _ _ => rfl) ?_
      · intro other
        rw [hperm.mem_iff, hself, List.mem_cons, honly]
        exact or_comm
      · intro other _
        rw [hwilling.load_superblock]
  · have hload : map.mode.loadFirst = false := by
      cases hmode : map.mode <;> simp_all [Mode.loadFirst]
    have hcreated := hwilling.create (tools.destroy machine.kernel map.disk) map
      (by simpa only [Kernel.DiskFree, tools.destroy_maps] using hdiskFree)
      (by simpa only [Kernel.ArrayFree, tools.destroy_maps] using harrayFree)
    obtain ⟨kernel, hkernel⟩ := Option.isSome_iff_exists.mp hcreated
    refine ⟨{ written tools inventory map machine with kernel := kernel }, ?_, ?_⟩
    · rw [hload]
      simp only [Bool.false_eq_true, if_false]
      rw [bind_run tools inventory machine hdisk harray (Mode.ofName_name _),
        hkernel]
    · refine hr.next ?_ (fun other hne => written_trailer_other hne) ?_
      · intro other
        have hperm := tools.create_maps hkernel
        rw [tools.destroy_maps] at hperm
        rw [hperm.mem_iff, List.mem_cons, honly]
        exact or_comm
      · intro other hne
        rw [tools.create_other hkernel other hne]
        exact tools.destroy_other machine.kernel map.disk other hne

theorem assembleDisk_free (hsound : inventory.Sound)
    (h : Recorded inventory before) (hr : Restoring before done machine)
    (hdisk : disk ∈ inventory.disks) (hfree : before.kernel.DiskFree disk)
    (hnot : disk ∉ done) :
    assembleDisk tools inventory disk machine = (.ok (), machine) := by
  cases hread : metaread inventory (machine.trailer disk) with
  | none => simp [assembleDisk, hread]
  | some found =>
      obtain ⟨mode, uuid⟩ := found
      by_cases hknown : ∃ array ∈ inventory.arrays, inventory.uuid array = uuid
      · obtain ⟨array, harray, rfl⟩ := hknown
        rw [assembleDisk_eq hsound harray hread]
        rw [hr.trailer disk hnot] at hread
        obtain ⟨rfl, hnone⟩ := h.stale disk hdisk hfree mode array harray hread
        rw [← hr.superblock disk hnot] at hnone
        simp [assembleArray, Mode.loadFirst, onKernel,
          tools.load_none machine.kernel disk hnone]
      · have hquiet : Action.forEach (inventory.order.visit inventory.arrays)
            (assembleArray tools inventory disk mode uuid) = Action.ret () := by
          apply Action.forEach_of_quiet
          intro array harray
          apply assembleArray_other
          intro heq
          exact hknown ⟨array, by simpa using harray, heq⟩
        simp [assembleDisk, hread, hquiet]

theorem assembleDisk_restoring (hsound : inventory.Sound)
    (hwilling : Willing tools) (h : Recorded inventory before)
    (hr : Restoring before done machine) (hdisk : disk ∈ inventory.disks)
    (hnot : disk ∉ done) :
    ∃ after, assembleDisk tools inventory disk machine = (.ok (), after) ∧
      Restoring before (disk :: done) after := by
  by_cases hlive : ∃ map ∈ before.kernel.maps, map.disk = disk
  · obtain ⟨map, hmap, rfl⟩ := hlive
    exact assembleDisk_live hsound hwilling h hr hmap hnot
  · have hfree : before.kernel.DiskFree disk := by
      simpa [Kernel.DiskFree] using hlive
    refine ⟨machine, assembleDisk_free hsound h hr hdisk hfree hnot, ?_⟩
    refine hr.next ?_ (fun _ _ => rfl) (fun _ _ => rfl)
    intro map
    constructor
    · exact .inl
    · rintro (hmap | ⟨hmap, heq⟩)
      · exact hmap
      · exact absurd heq (hfree map hmap)

end Assemble

theorem forEach_assembleDisk {tools : Tools} {inventory : Inventory}
    {before : Machine} (hsound : inventory.Sound) (hwilling : Willing tools)
    (h : Recorded inventory before) {disks done : List String}
    {machine : Machine} (hdisks : ∀ disk ∈ disks, disk ∈ inventory.disks)
    (hnodup : disks.Nodup) (hnew : ∀ disk ∈ disks, disk ∉ done)
    (hr : Restoring before done machine) :
    ∃ after, Action.forEach disks (assembleDisk tools inventory) machine =
      (.ok (), after) ∧ Restoring before (disks.reverse ++ done) after := by
  induction disks generalizing done machine with
  | nil => exact ⟨machine, rfl, hr⟩
  | cons disk disks ih =>
      obtain ⟨hnot, hrest⟩ := List.nodup_cons.mp hnodup
      obtain ⟨between, hrun, hbetween⟩ := assembleDisk_restoring hsound hwilling h
        hr (hdisks disk (by simp)) (hnew disk (by simp))
      obtain ⟨after, hafter, hdone⟩ := ih
        (fun other hother => hdisks other (by simp [hother])) hrest (by
          intro other hother hin
          rcases List.mem_cons.mp hin with rfl | hin
          · exact hnot hother
          · exact hnew other (by simp [hother]) hin) hbetween
      refine ⟨after, ?_, by simpa using hdone⟩
      simp only [Action.forEach]
      rw [Action.andThen_ok hrun, hafter]

/-- After a reboot `assemble` brings back exactly the caches that were live. -/
theorem Recorded.restored {tools : Tools} {inventory : Inventory}
    {before : Machine} (h : Recorded inventory before)
    (hsound : inventory.Sound) (hwilling : Willing tools) (map : CacheMap) :
    map ∈ (assemble tools inventory (reboot before)).2.kernel.maps ↔
      map ∈ before.kernel.maps := by
  have hdisks : ∀ disk ∈ inventory.order.visit inventory.disks,
      disk ∈ inventory.disks := by simp
  obtain ⟨after, hrun, hdone⟩ := forEach_assembleDisk hsound hwilling h hdisks
    ((inventory.order.perm inventory.disks).nodup_iff.mpr hsound.disks_nodup)
    (by simp) (restoring_reboot before)
  rw [assemble, hrun, hdone.maps]
  constructor
  · exact And.left
  · intro hmap
    exact ⟨hmap, by simpa using (h.known map hmap).1⟩

/-- In every run of guarded calls on fresh disks, a reboot and `assemble` bring
back exactly the caches that were live, in every state of the run. -/
theorem guarded_survives_reboot {inventory : Inventory}
    (hsound : inventory.Sound) {start : Machine}
    (hstart : Fresh inventory start) {inputs : List (Tools × Request)}
    (hrun : Guarded (rebootGuard inventory) (step inventory) start inputs)
    {tools : Tools} (hwilling : Willing tools) (n : Nat) (map : CacheMap) :
    map ∈ (assemble tools inventory
      (reboot (run (step inventory) start (inputs.take n)))).2.kernel.maps ↔
        map ∈ (run (step inventory) start (inputs.take n)).kernel.maps := by
  have h := (hrun.take n).invariant
    (fun _ _ hbefore hguard => step_recorded hsound hbefore hguard)
    hstart.recorded
  exact h.restored hsound hwilling map

/-! ## One disk and one array -/

def Unused (kernel : Kernel) (disk : String) (array : Nat) : Prop :=
  ∀ map ∈ kernel.maps, map.disk ≠ disk ∧ map.array ≠ array

instance (kernel : Kernel) (disk : String) (array : Nat) :
    Decidable (Unused kernel disk array) :=
  inferInstanceAs (Decidable (∀ map ∈ kernel.maps, _))

def sampleTools : Tools where
  create kernel map :=
    if Unused kernel map.disk map.array then
      some ⟨map :: kernel.maps,
        if map.mode = .writeBack then
          Function.update kernel.superblock map.disk (some map.array)
        else kernel.superblock⟩
    else none
  destroy kernel disk :=
    if kernel.DiskFree disk then
      ⟨kernel.maps, Function.update kernel.superblock disk none⟩
    else kernel
  remove kernel array :=
    ⟨kernel.maps.filter fun map => map.array != array, kernel.superblock⟩
  load kernel disk :=
    match kernel.superblock disk with
    | none => kernel
    | some array =>
        if Unused kernel disk array then
          ⟨⟨disk, array, .writeBack⟩ :: kernel.maps, kernel.superblock⟩
        else kernel
  create_free := by
    intro kernel map after h other hother
    split at h
    · rename_i hunused
      exact (hunused other hother).2
    · cases h
  create_maps := by
    intro kernel map after h
    split at h
    · cases h
      exact .refl _
    · cases h
  create_superblock := by
    intro kernel map after h _
    split at h
    · cases h
      simp
    · cases h
  create_other := by
    intro kernel map after h disk hne
    split at h
    · cases h
      by_cases hback : map.mode = .writeBack <;> simp [hback, hne]
    · cases h
  destroy_maps := by
    intro kernel disk
    split <;> rfl
  destroy_superblock := by
    intro kernel disk hfree
    simp [hfree]
  destroy_other := by
    intro kernel disk other hne
    split <;> simp [hne]
  remove_maps := fun _ _ => .inr rfl
  remove_superblock := fun _ _ => rfl
  load_none := by
    intro kernel disk hnone
    simp [hnone]

theorem sampleTools_willing : Willing sampleTools where
  create := by
    intro kernel map hdisk harray
    have hunused : Unused kernel map.disk map.array :=
      fun other hother => ⟨hdisk other hother, harray other hother⟩
    simp [sampleTools, hunused]
  load_maps := by
    intro kernel disk array hblock hdisk harray
    have hunused : Unused kernel disk array :=
      fun other hother => ⟨hdisk other hother, harray other hother⟩
    simp [sampleTools, hblock, hunused]
  load_superblock := by
    intro kernel disk
    simp only [sampleTools]
    split
    · rfl
    · split <;> rfl

def sampleUuid : List Char := "01234567:89abcdef:01234567:89abcdef".toList

/-- SHA-256 of the texts hashed for `sampleUuid`. -/
def sampleSha (text : List Char) : List Char :=
  if text = sampleUuid ++ "TOpenSAN".toList then
    "86224dce417b9e572dce892d94b3122ab521e7570bc81f85b591d91def853251".toList
  else if text = sampleUuid ++ "BOpenSAN".toList then
    "a3849404f14a972f40c45475984291262196a875ea0b551d3c1c97255f68ad2c".toList
  else List.replicate 64 '0'

def sampleInventory : Inventory where
  disks := ["/dev/sdb"]
  arrays := [0]
  uuid := fun _ => sampleUuid
  sha256hex := sampleSha
  order := .plain

theorem sampleInventory_sound : sampleInventory.Sound where
  disks_nodup := by simp [sampleInventory]
  arrays_nodup := by simp [sampleInventory]
  uuid_length := by decide +kernel
  uuid_valid := by decide +kernel
  uuid_injective := by simp [sampleInventory]
  sha_length := by
    intro text
    simp only [sampleInventory, sampleSha]
    split
    · decide
    · split
      · decide
      · simp

def blankMachine : Machine where
  kernel := ⟨[], fun _ => none⟩
  trailer := fun _ => List.replicate metaSize '\x00'
  trailer_length := by simp

theorem blankMachine_fresh : Fresh sampleInventory blankMachine where
  maps := rfl
  trailers := by
    intro disk _ mode array _ hread
    have hnone : metaread sampleInventory (List.replicate metaSize '\x00') =
        none := by
      decide +kernel
    have hread' : metaread sampleInventory (List.replicate metaSize '\x00') =
        some (mode, sampleInventory.uuid array) := hread
    rw [hnone] at hread'
    cases hread'

def backCycle : List (Tools × Request) :=
  [(sampleTools, .bind "/dev/sdb" 0 "WRITE_BACK"),
    (sampleTools, .unbind "/dev/sdb"),
    (sampleTools, .bind "/dev/sdb" 0 "WRITE_THROUGH")]

theorem backCycle_survives_reboot :
    Guarded (rebootGuard sampleInventory) (step sampleInventory) blankMachine
      backCycle ∧
    ∀ map, map ∈ (assemble sampleTools sampleInventory (reboot
        (run (step sampleInventory) blankMachine (backCycle.take 3)))).2.kernel.maps ↔
      map ∈ (run (step sampleInventory) blankMachine
        (backCycle.take 3)).kernel.maps := by
  have hguarded : Guarded (rebootGuard sampleInventory) (step sampleInventory)
      blankMachine backCycle := by
    decide +kernel
  exact ⟨hguarded, guarded_survives_reboot sampleInventory_sound
    blankMachine_fresh hguarded sampleTools_willing 3⟩

/-- A write-through cache that was unbound is bound again after a reboot. -/
theorem unbound_disk_bound_again :
    (run (step sampleInventory) blankMachine
      [(sampleTools, .bind "/dev/sdb" 0 "WRITE_THROUGH"),
        (sampleTools, .unbind "/dev/sdb")]).kernel.maps = [] ∧
    (assemble sampleTools sampleInventory (reboot
      (run (step sampleInventory) blankMachine
        [(sampleTools, .bind "/dev/sdb" 0 "WRITE_THROUGH"),
          (sampleTools, .unbind "/dev/sdb")]))).2.kernel.maps =
      [⟨"/dev/sdb", 0, .writeThrough⟩] := by
  decide +kernel

end OpenSan.Einarc.Flashcache
