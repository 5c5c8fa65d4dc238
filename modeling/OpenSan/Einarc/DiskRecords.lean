import OpenSan.Einarc.AbsentMembers

/-!
# Records of disks

`M.Physical.list` strips the model and the revision of a disk, and `M.Physical:new`
strips the results once more, so a disk with a blank file stops the list.
-/

namespace OpenSan.Einarc

open OpenSan.Foundation OpenSan.Common

namespace Sysfs

variable {sysfs : Sysfs} {order : Order}

/-- `M.Physical.list` returns, with a record of each disk. -/
def DisksDescribed (sysfs : Sysfs) (order : Order) : Prop :=
  ∃ records, sysfs.physicals order = .ok records ∧
    ∀ name, sysfs.listed (.disk name) = true →
      ∃ record, records.lookup name.id = some record ∧ Described (sysfs.files name) record

theorem listed_of_described (h : sysfs.DisksDescribed order) :
    sysfs.MembersListed ∧ sysfs.DisksLegible := by
  obtain ⟨records, hrun, _⟩ := h
  exact listed_of_physicals hrun

end Sysfs

/-- Stripping is right for the texts with a character that is no space, and the disks are
listed if and only if their models and revisions have one. -/
theorem strip_total_iff (str : String) (sysfs : Sysfs) (order : Order) :
    (Stripped str ↔ ¬ Blank str) ∧
      (sysfs.DisksDescribed order ↔ sysfs.MembersListed ∧ sysfs.DisksLegible) := by
  refine ⟨stripped_iff str, Sysfs.listed_of_described, fun ⟨hmembers, hlegible⟩ => ?_⟩
  obtain ⟨records, hrun, _, hrecords⟩ := Sysfs.physicals_ok order hmembers hlegible
  exact ⟨records, hrun, hrecords⟩

def oneDisk (files : DiskFiles) : Sysfs where
  disks := (∅ : Table DiskName Nat).insert sdb 1000
  files := fun _ => files
  arrays := []
  ids_nodup := List.nodup_nil
  caches := []

/-- An empty text gives `nil`, and a disk with a blank revision stops the list. -/
theorem blankRevision_not_described :
    ¬ Stripped "" ∧
      ¬ (oneDisk ⟨some "ST3500418AS\n", some "    \n"⟩).DisksDescribed Order.plain := by
  constructor
  · intro h
    exact (stripped_iff "").mp h (by simp [Blank])
  · intro h
    obtain ⟨_, hrevision⟩ := (Sysfs.listed_of_described h).2 sdb (by decide +kernel)
    apply hrevision
    exact List.all_eq_true.mp (by decide +kernel)

end OpenSan.Einarc
