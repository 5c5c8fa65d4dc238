import Mathlib.Data.String.Basic
import OpenSan.Foundation.OriginOrder
import OpenSan.Matrix.Sheet

/-!
# The order of the volumes of an array

The order function that `M.overall` gives to `table.sort` takes a device whose
name ends like a snapshot's for a copy of the device named by the rest.
-/

namespace OpenSan.Matrix

open OpenSan.Foundation

private theorem lt_append {taken rest : List Char} (h : rest ≠ []) :
    taken < taken ++ rest := by
  induction taken with
  | nil =>
      cases rest with
      | nil => exact absurd rfl h
      | cons c rest => exact List.Lex.nil
  | cons c taken ih => exact List.Lex.cons ih

theorem snapshotOrigin_lt {device origin : String}
    (h : snapshotOrigin device = some origin) : origin < device := by
  rw [snapshotOrigin, Option.map_eq_some_iff] at h
  obtain ⟨taken, hfirst, rfl⟩ := h
  obtain ⟨captures, hsearch, hhead⟩ := Option.bind_eq_some_iff.mp hfirst
  have hmatch : Pattern.anchored snapshotRegexp device.toList = some captures := by
    rw [← hsearch]
    exact (Pattern.search_greedy device.toList).symm
  obtain ⟨start, rest, hsplit, hrest, hstart⟩ := Pattern.anchored_greedy hmatch
  obtain rfl : taken = start := Option.some.inj (hhead.symm.trans hstart)
  rw [String.lt_iff_toList_lt, String.toList_ofList, hsplit]
  exact lt_append hrest

theorem volumeBefore_iff (a b : String) :
    volumeBefore a b = true ↔ OriginOrder.Before snapshotOrigin a b := by
  simp only [volumeBefore, OriginOrder.Before]
  by_cases hab : snapshotOrigin a = some b
  · simp [hab]
  · rw [if_neg hab, if_neg hab]
    by_cases hba : snapshotOrigin b = some a
    · simp [hba]
    · rw [if_neg (Ne.symm hba), if_neg hba]
      cases snapshotOrigin a <;> cases snapshotOrigin b <;> simp [less]

/-- The order function is a strict total order of the devices that keeps
snapshots with their origins. -/
def VolumesOrdered (devices : Set String) : Prop :=
  OriginOrder.Ordered snapshotOrigin (fun a b => volumeBefore a b = true) devices

theorem volumesOrdered_iff (devices : Set String) :
    VolumesOrdered devices ↔
      ¬ OriginOrder.Inverted snapshotOrigin devices ∧
        ¬ OriginOrder.Split snapshotOrigin devices := by
  have hbefore : (fun a b => volumeBefore a b = true) =
      OriginOrder.Before snapshotOrigin := by
    funext a b
    exact propext (volumeBefore_iff a b)
  rw [VolumesOrdered, hbefore]
  exact OriginOrder.ordered_iff snapshotOrigin_lt

/-- Snapshots of `foo` and `foo10`: `foo10` stands between its snapshot and the
snapshot of `foo`, which is the later of the two. -/
theorem foo10_snapshots_not_ordered :
    ¬ VolumesOrdered {"foo", "foo10", "foo_2011-06-13_13-13-13",
      "foo10_2011-06-13_13-13-13"} := by
  intro h
  have hcycle := h.trans "foo_2011-06-13_13-13-13" (by simp) "foo10" (by simp)
    "foo10_2011-06-13_13-13-13" (by simp) (by decide +kernel) (by decide +kernel)
  exact absurd hcycle (by decide +kernel)

end OpenSan.Matrix
