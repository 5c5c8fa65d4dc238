import OpenSan.Controller.Writes
import OpenSan.Foundation.Run

/-!
# Names and LUNs stay unique

Every way in which a request rewrites the store is a deletion by name, possibly
followed by one appended record.  Both uniqueness laws survive a deletion, and
an appended record needs a new name and a LUN that is free on its volume.
-/

namespace OpenSan.Controller

open OpenSan.Foundation
open OpenSan.Scst
open OpenSan.Scst.AccessPattern (withoutName rehome)

def LunsApart (first second : AccessPattern) : Prop :=
  ∀ volume, first.filename = some volume → second.filename = some volume →
    first.lun ≠ second.lun

structure StoreOk (patterns : List AccessPattern) : Prop where
  names : (patterns.map AccessPattern.name).Nodup
  luns : patterns.Pairwise LunsApart
  sections : ∀ pattern ∈ patterns, pattern.sectionName.isSome = true

theorem StoreOk.empty : StoreOk [] where
  names := List.nodup_nil
  luns := List.Pairwise.nil
  sections := by simp

theorem StoreOk.sublist {patterns fewer : List AccessPattern}
    (h : StoreOk patterns) (hfewer : List.Sublist fewer patterns) :
    StoreOk fewer where
  names := h.names.sublist (hfewer.map AccessPattern.name)
  luns := h.luns.sublist hfewer
  sections := fun pattern hpattern => h.sections pattern (hfewer.subset hpattern)

theorem StoreOk.withoutName {patterns : List AccessPattern}
    (h : StoreOk patterns) (name : Option String) :
    StoreOk (withoutName name patterns) :=
  h.sublist List.filter_sublist

theorem StoreOk.append {patterns : List AccessPattern} {record : AccessPattern}
    (h : StoreOk patterns) (hsection : record.sectionName.isSome = true)
    (hname : ∀ other ∈ patterns, other.name ≠ record.name)
    (hlun : ∀ other ∈ patterns, LunsApart other record) :
    StoreOk (patterns ++ [record]) where
  names := by
    rw [List.map_append, List.nodup_append]
    refine ⟨h.names, by simp, ?_⟩
    intro name hmem name' hmem' heq
    obtain ⟨other, hother, rfl⟩ := List.mem_map.mp hmem
    simp only [List.map_cons, List.map_nil, List.mem_singleton] at hmem'
    exact hname other hother (heq.trans hmem')
  luns := by
    rw [List.pairwise_append]
    refine ⟨h.luns, List.pairwise_singleton _ _, ?_⟩
    intro other hother last hlast
    rw [List.mem_singleton.mp hlast]
    exact hlun other hother
  sections := by
    intro pattern hpattern
    rcases List.mem_append.mp hpattern with hold | hnew
    · exact h.sections pattern hold
    · rw [List.mem_singleton.mp hnew]
      exact hsection

theorem mem_withoutName {patterns : List AccessPattern} {name : String}
    {other : AccessPattern} :
    other ∈ withoutName (some name) patterns ↔
      other ∈ patterns ∧ other.name ≠ name := by
  simp [withoutName]

theorem StoreOk.rehome {patterns : List AccessPattern}
    {pattern : AccessPattern} {filename sectionName : String}
    (h : StoreOk patterns)
    (hfree : ∀ other ∈ patterns, other.filename = some filename →
      other.lun ≠ pattern.lun) :
    StoreOk (rehome patterns pattern filename sectionName) := by
  refine (h.withoutName (some pattern.name)).append rfl ?_ ?_
  · intro other hother
    exact (mem_withoutName.mp hother).2
  · intro other hother volume hvolume hbound
    have hfilename : filename = volume := by
      by_cases hempty : filename = ""
      · simp [uciOption, hempty] at hbound
      · simpa [uciOption, hempty] using hbound
    rw [← hfilename] at hvolume
    exact hfree other (mem_withoutName.mp hother).1 hvolume

theorem StoreOk.unbound {patterns : List AccessPattern}
    (h : StoreOk patterns) (pattern : AccessPattern) (sectionName : String) :
    StoreOk (AccessPattern.rehome patterns pattern "" sectionName) := by
  refine (h.withoutName (some pattern.name)).append rfl ?_ ?_
  · intro other hother
    exact (mem_withoutName.mp hother).2
  · intro other _ volume _ hbound
    simp [uciOption] at hbound

/-! ## Requests -/

theorem new_storeOk (host : Host) (form : PatternForm) {world : World}
    (h : StoreOk world.patterns) :
    StoreOk (scstAccessPatternNew host form world).2.patterns := by
  rcases new_effect host form world with
    hsame | ⟨record, hsection, hfile, hname, hafter⟩
  · rw [hsame]
    exact h
  · rw [hafter]
    refine h.append hsection hname ?_
    intro other _ volume _ hbound
    rw [hfile] at hbound
    cases hbound

theorem delete_storeOk (host : Host) (sectionNameHash : String) {world : World}
    (h : StoreOk world.patterns) :
    StoreOk (scstAccessPatternDelete host sectionNameHash world).2.patterns := by
  rcases delete_effect host sectionNameHash world with
    hsame | ⟨pattern, -, hafter⟩
  · rw [hsame]
    exact h
  · rw [hafter]
    exact h.withoutName _

theorem unbind_storeOk (host : Host) (sectionNameHash : String) {world : World}
    (h : StoreOk world.patterns) :
    StoreOk (scstAccessPatternUnbind host sectionNameHash world).2.patterns := by
  rcases unbind_effect host sectionNameHash world with
    hsame | ⟨pattern, sectionName, targets, -, -, hafter⟩
  · rw [hsame]
    exact h
  · rw [hafter]
    exact h.unbound pattern sectionName

theorem bind_storeOk (host : Host) (sectionNameHash : String)
    (logicalVolumeSelect : Option String) {world : World}
    (h : StoreOk world.patterns) :
    StoreOk (scstAccessPatternBind host sectionNameHash logicalVolumeSelect
      world).2.patterns := by
  rcases bind_effect host sectionNameHash logicalVolumeSelect world with
    hsame | ⟨pattern, device, sectionName, -, -, hbusy, -, ⟨hafter, -⟩ | hafter⟩
  · rw [hsame]
    exact h
  · rw [hafter]
    refine h.rehome ?_
    intro other hother hbound heq
    have hany : lunBusy world.patterns device pattern = true := by
      rw [lunBusy, List.any_eq_true]
      exact ⟨other, hother, by simp [hbound, heq]⟩
    rw [hbusy] at hany
    cases hany
  · rw [hafter]
    exact h.unbound pattern sectionName

theorem edit_storeOk (host : Host) (sectionNameHash : String)
    (form : PatternForm) {world : World} (h : StoreOk world.patterns) :
    StoreOk
      (scstAccessPatternEdit host sectionNameHash form world).2.patterns := by
  rcases edit_effect host sectionNameHash form world with
    hsame | ⟨pattern, -, -, -, -, hafter |
      ⟨record, ⟨hname, -, hfile, hsection⟩, hafter⟩⟩
  · rw [hsame]
    exact h
  · rw [hafter]
    exact h.withoutName _
  · rw [hafter, hname]
    refine (h.withoutName _).append hsection ?_ ?_
    · intro other hother
      exact (mem_withoutName.mp hother).2
    · intro other _ volume _ hbound
      rw [hfile] at hbound
      cases hbound

theorem PatternRequest.serve_storeOk (host : Host) (request : PatternRequest)
    {world : World} (h : StoreOk world.patterns) :
    StoreOk (request.serve host world).2.patterns := by
  cases request with
  | new form => exact new_storeOk host form h
  | delete sectionNameHash => exact delete_storeOk host sectionNameHash h
  | bind sectionNameHash device => exact bind_storeOk host sectionNameHash device h
  | unbind sectionNameHash => exact unbind_storeOk host sectionNameHash h
  | edit sectionNameHash form => exact edit_storeOk host sectionNameHash form h

/-! ## Loops over the store -/

def KeepsStore (before after : World) : Prop :=
  StoreOk before.patterns → StoreOk after.patterns

theorem KeepsStore.refl (world : World) : KeepsStore world world := id

theorem KeepsStore.trans (a b c : World) (hab : KeepsStore a b)
    (hbc : KeepsStore b c) : KeepsStore a c := hbc ∘ hab

theorem keepsStore_unbind (host : Host) {pattern : AccessPattern}
    (hsection : pattern.sectionName.isSome = true) :
    Action.Evolves KeepsStore (pattern.unbind host) := by
  intro world h
  rcases AccessPattern.unbind_run host hsection world with
    ⟨e, -, hrun⟩ | ⟨targets, sectionName, -, hrun⟩
  · rw [hrun]
    exact h
  · rw [hrun]
    exact h.unbound pattern sectionName

theorem keepsStore_apply (host : Host) :
    Action.Evolves KeepsStore (Daemon.apply host) := by
  intro world h
  rw [(Daemon.apply_store host world).1]
  exact h

theorem pageLoad_storeOk (host : Host) (devices : List String) {world : World}
    (h : StoreOk world.patterns) :
    StoreOk (pageLoad host devices world).2.patterns := by
  have hloop : Action.Evolves KeepsStore
      (unknownAccessPatternsFilenameUnbind host world.patterns devices) := by
    refine Action.evolves_forEach KeepsStore.refl KeepsStore.trans ?_
    intro pattern hpattern
    cases pattern.filename with
    | none => exact Action.evolves_of_state_eq KeepsStore.refl fun _ => rfl
    | some filename =>
        by_cases hknown : filename ∈ devices
        · simp only [if_pos hknown]
          exact Action.evolves_of_state_eq KeepsStore.refl fun _ => rfl
        · simp only [if_neg hknown]
          exact keepsStore_unbind host (h.sections pattern hpattern)
  exact Action.evolves_bind KeepsStore.trans hloop
    (fun _ => keepsStore_apply host) world h

theorem clearingPass_storeOk (host : Host) {world : World}
    (h : StoreOk world.patterns) :
    StoreOk (clearingPass host world).2.patterns := by
  refine Action.evolves_forEach KeepsStore.refl KeepsStore.trans ?_ world h
  intro pattern hpattern
  refine Action.evolves_bind KeepsStore.trans
    (keepsStore_unbind host (h.sections pattern hpattern)) fun _ => ?_
  intro world' h'
  exact h'.withoutName _

theorem clearingLoop_storeOk (host : Host) (fuel : Nat) {world : World}
    (h : StoreOk world.patterns) :
    StoreOk (clearingLoop host fuel world).2.patterns := by
  induction fuel generalizing world with
  | zero => exact h
  | succ fuel ih =>
      refine Action.final_ite (Q := fun after : World => StoreOk after.patterns)
        (fun _ => h) fun _ => ?_
      have hpass := clearingPass_storeOk host h
      refine Action.final_bind (Q := fun after : World => StoreOk after.patterns) ?_ ?_
      · intro e after hrun
        rwa [hrun] at hpass
      · intro _ after hrun
        rw [hrun] at hpass
        exact ih hpass

theorem clearing_storeOk (host : Host) {world : World}
    (h : StoreOk world.patterns) :
    StoreOk (clearing host world).2.patterns := by
  have hloop : Action.Evolves KeepsStore (clearingLoop host 2) :=
    fun _ hbefore => clearingLoop_storeOk host 2 hbefore
  exact Action.evolves_bind KeepsStore.trans hloop
    (fun _ => keepsStore_apply host) world h

/-! ## Credentials do not touch the patterns -/

def SamePatterns (before after : World) : Prop :=
  after.patterns = before.patterns

theorem SamePatterns.respects : RespectsCredentials SamePatterns where
  refl := fun _ => rfl
  trans := fun _ _ _ hab hbc => Eq.trans hbc hab
  credentials := fun _ _ => rfl
  apply := fun host world => (Daemon.apply_store host world).1

/-! ## All runs -/

theorem step_storeOk {world : World} (h : StoreOk world.patterns)
    (input : Host × Event) : StoreOk (step world input).patterns := by
  obtain ⟨host, event⟩ := input
  cases event with
  | pattern request => exact request.serve_storeOk host h
  | credentialAdd device username password =>
      have hsame := SamePatterns.respects.add host device username password world
      exact hsame ▸ h
  | credentialDelete sectionNameHash =>
      have hsame := SamePatterns.respects.delete host sectionNameHash world
      exact hsame ▸ h
  | pageLoad devices =>
      exact Action.final_thenPure
        (Q := fun after : World => StoreOk after.patterns)
        (pageLoad_storeOk host devices h)
  | clearing =>
      exact Action.final_thenPure
        (Q := fun after : World => StoreOk after.patterns)
        (clearing_storeOk host h)

/-- In every reachable store names are distinct, and no two patterns that are
bound to one volume have the same LUN. -/
theorem reachable_unique (inputs : List (Host × Event)) :
    ((run step World.empty inputs).patterns.map AccessPattern.name).Nodup ∧
      (run step World.empty inputs).patterns.Pairwise LunsApart := by
  have h : StoreOk (run step World.empty inputs).patterns :=
    run_invariant (I := fun world : World => StoreOk world.patterns)
      (fun _ input hworld => step_storeOk hworld input) StoreOk.empty inputs
  exact ⟨h.names, h.luns⟩

end OpenSan.Controller
