import OpenSan.Foundation.Pattern

/-!
# Names of volume groups, logical volumes and devices

The naming functions of `lvm.lua`.
-/

namespace OpenSan.Lvm

open OpenSan.Foundation

/-- `M.VolumeGroup.next_vg_name` for a random number (scaled and rounded up)
and a time of day. -/
def nextVgName (random time : Nat) : String :=
  "vg" ++ toString random ++ toString time

def nameCharacter (c : Char) : Bool :=
  Pattern.alphanumeric c || c == '+' || c == '_' || c == '.' || c == '-'

def nameIsValid (name : String) : Bool :=
  if name == "snapshot" || name == "pvmove" then false
  else if (Pattern.search (Pattern.literal "_mlog") name.toList).isSome ||
      (Pattern.search (Pattern.literal "_mimage") name.toList).isSome then
    false
  else if (Pattern.anchored (Pattern.literal "-") name.toList).isSome ||
      (Pattern.anchored (Pattern.literal ".") name.toList).isSome then
    false
  else if (Pattern.anchored (Pattern.plus nameCharacter ++ [.finish])
      name.toList).isNone then
    false
  else true

def vglvDevice (volumeGroupName logicalVolumeName : String) : String :=
  "/dev/" ++ volumeGroupName ++ "/" ++ logicalVolumeName

theorem nameIsValid_characters {name : String} (h : nameIsValid name = true) :
    name.toList ≠ [] ∧ ∀ c ∈ name.toList, nameCharacter c = true := by
  rw [← Pattern.anchored_plus_finish]
  unfold nameIsValid at h
  split at h
  · cases h
  · split at h
    · cases h
    · split at h
      · cases h
      · split at h
        · cases h
        · rename_i hmatch
          simpa [Option.isSome_iff_ne_none] using hmatch

theorem nextVgName_characters (random time : Nat) :
    ∀ c ∈ (nextVgName random time).toList,
      c = 'v' ∨ c = 'g' ∨ c.isDigit = true := by
  intro c hc
  simp only [nextVgName, String.toList_append, List.mem_append] at hc
  rcases hc with (hc | hc) | hc
  · have hvg : c = 'v' ∨ c = 'g' := by simpa using hc
    tauto
  · exact .inr (.inr (Pattern.isDigit_toString hc))
  · exact .inr (.inr (Pattern.isDigit_toString hc))

end OpenSan.Lvm
