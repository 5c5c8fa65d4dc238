import Mathlib.Tactic.FieldSimp
import Mathlib.Tactic.Ring
import OpenSan.Matrix.Divisors
import OpenSan.Matrix.Tiling

/-!
# The layout of the table

The number of lines of an array is a common multiple of the number of its
disks and of the product of three counts that the cells of the volumes, the
patterns and the sessions divide one after the other.  So all rowspans are
integers, and the loops of `overall` tile the columns.
-/

namespace OpenSan.Matrix

open OpenSan.Foundation OpenSan.Einarc Sheet

/-! ## Common multiples -/

theorem lcmCount_eq (x y : Nat) : lcmCount x y = Nat.lcm x y := by
  rw [lcmCount, lcm_eq, Int.toNat_natCast]
  rfl

section Folds

variable {α : Type} {step : Nat → α → Nat}

theorem dvd_foldl_of_dvd (hgrow : ∀ acc x, acc ∣ step acc x) {d init : Nat}
    (hd : d ∣ init) (items : List α) : d ∣ items.foldl step init := by
  induction items generalizing init with
  | nil => exact hd
  | cons item items ih => exact ih (hd.trans (hgrow init item))

theorem dvd_foldl_of_mem (hgrow : ∀ acc x, acc ∣ step acc x) {d : Nat}
    {item : α} {items : List α} (hmem : item ∈ items)
    (hd : ∀ acc, d ∣ step acc item) (init : Nat) :
    d ∣ items.foldl step init := by
  induction items generalizing init with
  | nil => cases hmem
  | cons other items ih =>
      rcases List.mem_cons.mp hmem with heq | hin
      · subst heq
        exact dvd_foldl_of_dvd hgrow (hd init) items
      · exact ih hin (step init other)

theorem foldl_pos (hpos : ∀ acc x, 0 < acc → 0 < step acc x) {init : Nat}
    (hinit : 0 < init) (items : List α) : 0 < items.foldl step init := by
  induction items generalizing init with
  | nil => exact hinit
  | cons item items ih => exact ih (hpos init item hinit)

end Folds

/-- The rows of a volume are divisible by the number of its patterns, and the
rows of each of them by the number of its sessions. -/
def Divisible (data : Data) (avail : Nat → List Ref) (device : String)
    (rows : Nat) : Prop :=
  boundPatterns data device ≠ [] →
    ∃ patternRows, rows = (boundPatterns data device).length * patternRows ∧
      ∀ entry ∈ boundPatterns data device, avail entry.2 ≠ [] →
        (avail entry.2).length ∣ patternRows

private theorem countPattern_dvd (avail : Nat → List Ref) (acc : Nat)
    (entry : Pattern × Nat) : acc ∣ countPattern avail acc entry := by
  unfold countPattern
  split
  · rw [lcmCount_eq]
    exact Nat.dvd_lcm_right _ acc
  · exact dvd_rfl

private theorem length_dvd_countPattern {avail : Nat → List Ref}
    {entry : Pattern × Nat} (h : avail entry.2 ≠ []) (acc : Nat) :
    (avail entry.2).length ∣ countPattern avail acc entry := by
  unfold countPattern
  rw [if_pos (List.length_pos_of_ne_nil h), lcmCount_eq]
  exact Nat.dvd_lcm_left _ acc

private theorem countPattern_pos (avail : Nat → List Ref) (acc : Nat)
    (entry : Pattern × Nat) (h : 0 < acc) : 0 < countPattern avail acc entry := by
  unfold countPattern
  split
  · rename_i hlength
    rw [lcmCount_eq]
    exact Nat.lcm_pos hlength h
  · exact h

section Quantities

variable (data : Data) (avail : Nat → List Ref)

private def patternStep (acc : Nat) (device : String) : Nat :=
  (countVolume data avail (acc, 1) device).1

private def sessionStep (acc : Nat) (device : String) : Nat :=
  (countVolume data avail (1, acc) device).2

private theorem foldl_countVolume (devices : List String) (init : Nat × Nat) :
    devices.foldl (countVolume data avail) init =
      (devices.foldl (patternStep data avail) init.1,
       devices.foldl (sessionStep data avail) init.2) := by
  induction devices generalizing init with
  | nil => rfl
  | cons device devices ih =>
      rw [List.foldl_cons, ih]
      rfl

private theorem patternStep_dvd (acc : Nat) (device : String) :
    acc ∣ patternStep data avail acc device := by
  simp only [patternStep, countVolume]
  split
  · rw [lcmCount_eq]
    exact Nat.dvd_lcm_right _ acc
  · exact dvd_rfl

private theorem sessionStep_dvd (acc : Nat) (device : String) :
    acc ∣ sessionStep data avail acc device :=
  dvd_foldl_of_dvd (countPattern_dvd avail) dvd_rfl _

private theorem quantityMax_spec (devices : List String) :
    let quantityMax := devices.foldl (countVolume data avail) (1, 1)
    0 < quantityMax.1 ∧ 0 < quantityMax.2 ∧
      ∀ device ∈ devices, boundPatterns data device ≠ [] →
        (boundPatterns data device).length ∣ quantityMax.1 ∧
        ∀ entry ∈ boundPatterns data device, avail entry.2 ≠ [] →
          (avail entry.2).length ∣ quantityMax.2 := by
  rw [foldl_countVolume]
  refine ⟨?_, ?_, ?_⟩
  · refine foldl_pos (fun acc device h => ?_) Nat.one_pos devices
    simp only [patternStep, countVolume]
    split
    · rename_i hlength
      rw [lcmCount_eq]
      exact Nat.lcm_pos (Nat.pos_of_ne_zero hlength) h
    · exact h
  · exact foldl_pos (fun acc device h => foldl_pos (countPattern_pos avail) h _)
      Nat.one_pos devices
  · intro device hdevice hbound
    refine ⟨?_, fun entry hentry havail => ?_⟩
    · refine dvd_foldl_of_mem (patternStep_dvd data avail) hdevice
        (fun acc => ?_) 1
      have hlength : (boundPatterns data device).length ≠ 0 := by
        simpa using hbound
      simp only [patternStep, countVolume]
      rw [if_pos hlength, lcmCount_eq]
      exact Nat.dvd_lcm_left _ acc
    · refine dvd_foldl_of_mem (sessionStep_dvd data avail) hdevice
        (fun acc => ?_) 1
      exact dvd_foldl_of_mem (countPattern_dvd avail) hentry
        (length_dvd_countPattern havail) acc

theorem linesQuantity_spec (order : Order) (logical : Logical) {quantity : Nat}
    (hpos : 0 < quantity) :
    let lines := linesQuantity data order logical avail quantity
    0 < lines ∧ quantity ∣ lines ∧
      (logical.volumes.keys ≠ [] →
        ∃ rows, lines = logical.volumes.keys.length * rows ∧
          ∀ device ∈ logical.volumes.keys, Divisible data avail device rows) := by
  intro lines
  obtain ⟨hp, hs, hcounts⟩ :=
    quantityMax_spec data avail (order.visit logical.volumes.keys)
  revert hp hs hcounts
  generalize hmax : (order.visit logical.volumes.keys).foldl
    (countVolume data avail) (1, 1) = quantityMax
  intro hp hs hcounts
  by_cases hnone : logical.volumes.keys = []
  · have hlines : lines = quantity := by
      simp only [lines, linesQuantity, hnone, List.length_nil]
      rfl
    rw [hlines]
    exact ⟨hpos, dvd_rfl, fun h => absurd hnone h⟩
  · have hlength : logical.volumes.keys.length ≠ 0 := by simpa using hnone
    have hlines : lines = Nat.lcm quantity
        (logical.volumes.keys.length * quantityMax.1 * quantityMax.2) := by
      simp only [lines, linesQuantity, hmax]
      rw [if_pos hlength, lcmCount_eq]
    have hproduct : 0 <
        logical.volumes.keys.length * quantityMax.1 * quantityMax.2 :=
      Nat.mul_pos (Nat.mul_pos (Nat.pos_of_ne_zero hlength) hp) hs
    obtain ⟨times, htimes⟩ : logical.volumes.keys.length * quantityMax.1 *
        quantityMax.2 ∣ lines := hlines ▸ Nat.dvd_lcm_right _ _
    refine ⟨hlines ▸ Nat.lcm_pos hpos hproduct, hlines ▸ Nat.dvd_lcm_left _ _,
      fun _ => ⟨quantityMax.1 * quantityMax.2 * times, ?_, ?_⟩⟩
    · rw [htimes]
      ring
    · intro device hdevice hbound
      obtain ⟨hpatterns, hsessions⟩ :=
        hcounts device ((order.mem_visit).mpr hdevice) hbound
      obtain ⟨factor, hfactor⟩ := hpatterns
      refine ⟨factor * quantityMax.2 * times, ?_, fun entry hentry havail => ?_⟩
      · rw [hfactor]
        ring
      · exact ((hsessions entry hentry havail).mul_left factor).mul_right times

end Quantities

end OpenSan.Matrix
