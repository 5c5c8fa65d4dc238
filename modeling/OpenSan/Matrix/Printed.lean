import OpenSan.Matrix.Chain

/-!
# Printed sizes

`filter_mib_humanize` replaces the size of each object it meets by a table.
An object that is met a second time has no number left to compare, so the
filter returns only if no object is met twice.
-/

namespace OpenSan.Matrix

open OpenSan.Foundation OpenSan.Einarc Sheet

section Printed

variable (data : Data) (sheet : Sheet)

def logicalRefs : Ref → List Ref
  | .logical id => .logical id ::
      ((data.logicals.lookup id).bind (·.volumeGroup)).toList.map fun group =>
        .group group.name
  | ref => [ref]

def lineRefs (k : Nat) : List Ref :=
  (sheet.cell .physical k).toList ++
    (sheet.cell .logical k).toList.flatMap (logicalRefs data) ++
    (sheet.cell .volume k).toList

def printedRefs : List Ref := sheet.lineNumbers.flatMap (lineRefs data sheet)

end Printed

variable {G : Set Ref} {data : Data} {order : Order} {sheet : Sheet}
  {ids : List Nat} {n stop : Nat} {m : Marks}

private theorem forEach_single (ref : Ref) :
    Action.forEach [ref] humanize = humanize ref := by
  funext m
  simp only [Action.forEach, Action.andThen]
  rcases humanize ref m with ⟨_ | _, _⟩ <;> rfl

private theorem onCell_humanize (column : Column) (row : ℚ) :
    onCell sheet column row humanize =
      Action.forEach (sheet.cell column row).toList humanize := by
  unfold onCell
  cases sheet.cell column row with
  | none => rfl
  | some ref => exact (forEach_single ref).symm

theorem filterMibHumanize_eq (hdrawn : Drawn G data order ids n stop sheet) :
    filterMibHumanize data sheet = Action.forEach (printedRefs data sheet) humanize := by
  unfold filterMibHumanize eachLine printedRefs
  rw [Action.forEach_flatMap]
  refine Action.forEach_congr fun k hk => ?_
  have hone := one_le_row hdrawn hk
  have hlogical : onCell sheet .logical k (fun logical => do
      humanize logical
      let entry ← logicalOf data logical
      humanizeGroup entry.2) =
      Action.forEach ((sheet.cell .logical (k : ℚ)).toList.flatMap (logicalRefs data))
        humanize := by
    unfold onCell
    split
    · rename_i ref href
      obtain ⟨id, logical, _, _, _, _, rfl, hblock⟩ := hdrawn.logical_inv hone href
      simp only [href, Option.toList_some, List.flatMap_cons, List.flatMap_nil,
        List.append_nil, logicalRefs, hblock.lookup, Option.bind_some]
      unfold humanizeGroup logicalOf
      funext m
      simp only [Action.forEach, Action.bind_run, Action.andThen]
      rcases humanize (.logical id) m with ⟨_ | _, m'⟩
      · rfl
      · simp only [hblock.lookup, nonNil, Action.lift_run, Action.pure_run]
        cases logical.volumeGroup with
        | none => rfl
        | some group => exact congrFun (forEach_single _).symm m'
    · rename_i hnone
      rw [hnone]
      rfl
  unfold lineRefs
  rw [Action.forEach_append, Action.forEach_append, onCell_humanize, hlogical,
    onCell_humanize]
  funext m
  simp only [Action.bind_run]
  rcases Action.forEach (sheet.cell .physical (k : ℚ)).toList humanize m with ⟨_ | _, _⟩ <;>
    rfl

/-! ## Sizes are printed once -/

private theorem humanize_human {ref : Ref} {value unit : String}
    (h : (m.records ref).size = .human value unit) :
    ∃ e m', humanize ref m = (.error e, m') := by
  refine ⟨.wrongType "size", m, ?_⟩
  simp [humanize, amountOf, h]

private theorem humanize_mib {ref : Ref} {size : ℚ}
    (h : (m.records ref).size = .mib size) :
    humanize ref m = (.ok (), m.update ref fun r =>
      { r with sizeMib := some size, size := mibHumanize size }) := by
  simp [humanize, amountOf, h, setField]

private theorem mibHumanize_human (size : ℚ) :
    ∃ value unit, mibHumanize size = .human value unit := by
  unfold mibHumanize
  split
  · exact ⟨_, _, rfl⟩
  · split
    · exact ⟨_, _, rfl⟩
    · exact ⟨_, _, rfl⟩

private theorem humanize_ok {ref : Ref} {m' : Marks}
    (h : humanize ref m = (.ok (), m')) :
    (∃ value unit, (m'.records ref).size = .human value unit) ∧
      ∀ other, other ≠ ref → m'.records other = m.records other := by
  cases hsize : (m.records ref).size with
  | mib size =>
      rw [humanize_mib hsize] at h
      obtain ⟨value, unit, hhuman⟩ := mibHumanize_human size
      cases h
      refine ⟨⟨value, unit, by simp [Marks.update, hhuman]⟩, fun other hne => ?_⟩
      simp [Marks.update, Function.update_of_ne hne]
  | human value unit =>
      obtain ⟨e, _, hrun⟩ := humanize_human hsize
      rw [hrun] at h
      cases h

private theorem printed_not_met {refs : List Ref} {ref : Ref} {value unit : String}
    {m' : Marks} (hhuman : (m.records ref).size = .human value unit)
    (h : Action.forEach refs humanize m = (.ok (), m')) : ref ∉ refs := by
  induction refs generalizing m with
  | nil => simp
  | cons other refs ih =>
      rcases hrun : humanize other m with ⟨e | ⟨⟩, m₁⟩
      · rw [Action.forEach, Action.andThen_error hrun] at h
        cases h
      rw [Action.forEach, Action.andThen_ok hrun] at h
      have hne : ref ≠ other := by
        rintro rfl
        obtain ⟨e, _, hraise⟩ := humanize_human hhuman
        rw [hraise] at hrun
        cases hrun
      have hkept := (humanize_ok hrun).2 ref hne
      simpa [hne] using ih (by rw [hkept, hhuman]) h

theorem nodup_of_humanized {refs : List Ref} {m' : Marks}
    (h : Action.forEach refs humanize m = (.ok (), m')) : refs.Nodup := by
  induction refs generalizing m with
  | nil => exact List.nodup_nil
  | cons ref refs ih =>
      rcases hrun : humanize ref m with ⟨e | ⟨⟩, m₁⟩
      · rw [Action.forEach, Action.andThen_error hrun] at h
        cases h
      rw [Action.forEach, Action.andThen_ok hrun] at h
      obtain ⟨⟨value, unit, hhuman⟩, _⟩ := humanize_ok hrun
      exact List.nodup_cons.mpr ⟨printed_not_met hhuman h, ih h⟩

theorem humanized_of_nodup {refs : List Ref} (hnodup : refs.Nodup)
    (hsizes : ∀ ref ∈ refs, ∃ size, (m.records ref).size = .mib size) :
    Action.Returns (Action.forEach refs humanize) m fun _ m' =>
      ∀ ref, (m'.records ref).rowspan = (m.records ref).rowspan := by
  induction refs generalizing m with
  | nil => exact Action.Returns.pure fun _ => rfl
  | cons ref refs ih =>
      obtain ⟨hnot, hrest⟩ := List.nodup_cons.mp hnodup
      obtain ⟨size, hsize⟩ := hsizes ref (by simp)
      have hrun := humanize_mib hsize
      obtain ⟨value, m', hloop, hrowspans⟩ := ih hrest fun other hother => by
        have hne : other ≠ ref := fun heq => hnot (heq ▸ hother)
        rw [(humanize_ok hrun).2 other hne]
        exact hsizes other (by simp [hother])
      refine ⟨value, m', by rw [Action.forEach, Action.andThen_ok hrun, hloop], ?_⟩
      intro other
      rw [hrowspans other]
      by_cases heq : other = ref
      · subst heq
        simp [Marks.update]
      · simp [Marks.update, Function.update_of_ne heq]

end OpenSan.Matrix
