import OpenSan.Foundation.Number
import OpenSan.Storage.System

/-!
# Names of devices in the two views

`M.Logical.list` names an array by its own number, `M.Flashcache.path_cached`
takes the number out of the path that LVM reports: what stands after the second
letter of the name, if `tonumber` can read it.
-/

namespace OpenSan.Storage

open OpenSan.Foundation OpenSan.Einarc

def pathNumber (fdevnode : String) : Option ℚ :=
  Number.tonumber (String.ofList (fdevnode.toList.drop 7))

/-- `M.Flashcache.path_cached`, on the text of the path. -/
def pathCachedText (caches : List CachePair) (fdevnode : String) : String :=
  if caches.any fun map => some (map.logicalId : ℚ) = pathNumber fdevnode then
    "/dev/mapper/flashcache" ++ String.ofList (fdevnode.toList.drop 5)
  else fdevnode

/-- The path of array `id` gets the name that the array has, and every other
path stays as it is. -/
def SameName (sysfs : Sysfs) (fdevnode : String) : Prop :=
  (∀ id : Nat, fdevnode = "/dev/md" ++ toString id →
    pathCachedText sysfs.caches fdevnode = sysfs.deviceOf id) ∧
  ((∀ id : Nat, fdevnode ≠ "/dev/md" ++ toString id) →
    pathCachedText sysfs.caches fdevnode = fdevnode)

theorem isSome_cacheOf {sysfs : Sysfs} {id : Nat} :
    (sysfs.cacheOf id).isSome = true ↔ ∃ map ∈ sysfs.caches, map.logicalId = id := by
  simp [Sysfs.cacheOf]

theorem any_caches {sysfs : Sysfs} {id : Nat} {fdevnode : String}
    (h : pathNumber fdevnode = some (id : ℚ)) :
    (sysfs.caches.any fun map => some (map.logicalId : ℚ) = pathNumber fdevnode) =
      (sysfs.cacheOf id).isSome := by
  rw [Bool.eq_iff_iff, isSome_cacheOf]
  simp [h]

theorem drop_md (id : Nat) :
    ("/dev/md" ++ toString id).toList.drop 7 = (toString id).toList := by
  simp [String.toList_append]

theorem pathNumber_md (id : Nat) : pathNumber ("/dev/md" ++ toString id) = some (id : ℚ) := by
  rw [pathNumber, drop_md, String.ofList_toList, Number.tonumber_toString]

theorem pathCachedText_md (sysfs : Sysfs) (id : Nat) :
    pathCachedText sysfs.caches ("/dev/md" ++ toString id) = sysfs.deviceOf id := by
  have hname : String.ofList (("/dev/md" ++ toString id).toList.drop 5) =
      "md" ++ toString id := by
    apply String.toList_injective
    simp [String.toList_append]
  rw [pathCachedText, any_caches (pathNumber_md id), Sysfs.deviceOf, hname]
  by_cases hcached : (sysfs.cacheOf id).isSome = true
  · rw [if_pos hcached, if_pos hcached]
    simp [← String.append_assoc]
  · rw [if_neg hcached, if_neg hcached]

theorem pathCachedText_eq_self {caches : List CachePair} {fdevnode : String} :
    pathCachedText caches fdevnode = fdevnode ↔
      ∀ map ∈ caches, pathNumber fdevnode ≠ some (map.logicalId : ℚ) := by
  unfold pathCachedText
  split
  · rename_i hany
    obtain ⟨map, hmap, heq⟩ := List.any_eq_true.mp hany
    apply iff_of_false
    · -- the prefix is longer than what is cut off
      intro hsame
      have htail : (String.ofList (fdevnode.toList.drop 5)).length = fdevnode.length - 5 := by
        rw [String.length_ofList, List.length_drop, String.length_toList]
      have hprefix : "/dev/mapper/flashcache".length = 22 := by decide
      have hlength := congrArg String.length hsame
      rw [String.length_append, htail, hprefix] at hlength
      omega
    · intro hall
      exact hall map hmap (of_decide_eq_true heq).symm
  · rename_i hany
    apply iff_of_true rfl
    intro map hmap heq
    exact hany (List.any_eq_true.mpr ⟨map, hmap, decide_eq_true heq.symm⟩)

/-- The views agree on a path unless it is not of an md device and `tonumber`
finds the number of a cached array in it. -/
theorem sameName_iff (sysfs : Sysfs) (fdevnode : String) :
    SameName sysfs fdevnode ↔
      (∃ id : Nat, fdevnode = "/dev/md" ++ toString id) ∨
        ∀ map ∈ sysfs.caches, pathNumber fdevnode ≠ some (map.logicalId : ℚ) := by
  by_cases hmd : ∃ id : Nat, fdevnode = "/dev/md" ++ toString id
  · refine iff_of_true ⟨?_, fun hnone => ?_⟩ (.inl hmd)
    · rintro id rfl
      exact pathCachedText_md sysfs id
    · obtain ⟨id, hid⟩ := hmd
      exact absurd hid (hnone id)
  · have hnone : ∀ id : Nat, fdevnode ≠ "/dev/md" ++ toString id := fun id hid => hmd ⟨id, hid⟩
    rw [or_iff_right hmd, ← pathCachedText_eq_self]
    constructor
    · exact fun h => h.2 hnone
    · exact fun h => ⟨fun id hid => absurd hid (hnone id), fun _ => h⟩

def cachedZero : Sysfs where
  disks := ∅
  files := fun _ => .sample
  arrays := [sampleArray 0 [sdc]]
  ids_nodup := List.nodup_singleton _
  caches := [⟨sdb, 0⟩]

/-- The minus sign of `/dev/dm-0` is taken for that of a number. -/
theorem deviceMapper_not_sameName :
    pathCachedText cachedZero.caches "/dev/dm-0" = "/dev/mapper/flashcachedm-0" ∧
      ¬ SameName cachedZero "/dev/dm-0" := by
  have hnumber : pathNumber "/dev/dm-0" = some ((0 : Nat) : ℚ) := by decide +kernel
  constructor
  · simp [pathCachedText, cachedZero, hnumber]
  · intro hsame
    have hself := hsame.2 fun id hid => by
      have hfifth := congrArg (fun text => text.toList[5]?) hid
      simp [String.toList_append] at hfifth
    exact pathCachedText_eq_self.mp hself ⟨sdb, 0⟩ (by simp [cachedZero]) hnumber

/-! ## The paths of the other modules -/

/-- The model of `path_cached` on paths agrees with the one on their texts, if
it reads numbers in the same way. -/
theorem text_pathCached (env : Env) (sysfs : Sysfs)
    (henv : ∀ (text : String) (n : Nat),
      env.tonumber text = some n ↔ Number.tonumber text = some (n : ℚ)) (path : Path) :
    (pathCached env sysfs path).text = pathCachedText sysfs.caches path.text := by
  cases path with
  | md id =>
      have hmd : pathCachedText sysfs.caches (Path.md id).text = sysfs.deviceOf id :=
        pathCachedText_md sysfs id
      rw [hmd]
      exact devicePath_text sysfs id
  | flashcache id =>
      apply Eq.symm
      rw [pathCached, pathCachedText_eq_self]
      intro map _ hnumber
      have hslash : '/' ∈ (String.ofList
          ((Path.flashcache id).text.toList.drop 7)).toList := by
        have htext : (Path.flashcache id).text = "/dev/mapper/flashcachemd" ++ toString id := rfl
        rw [String.toList_ofList, htext, String.toList_append,
          List.drop_append_of_le_length (by decide +kernel)]
        exact List.mem_append_left _ (by decide +kernel)
      have hread := (henv _ map.logicalId).mpr hnumber
      rw [env.tonumber_path _ hslash] at hread
      cases hread
  | other path =>
      have htext : (Path.other path).text = path := rfl
      rw [htext]
      simp only [pathCached]
      cases hread : env.tonumber (String.ofList (path.toList.drop 7)) with
      | some id =>
          rw [pathCachedText, any_caches ((henv _ id).mp hread)]
          by_cases hcached : (sysfs.cacheOf id).isSome = true
          · rw [if_pos hcached]
            simp only [if_pos hcached]
            rfl
          · rw [if_neg hcached]
            simp only [if_neg hcached]
            rfl
      | none =>
          apply Eq.symm
          change pathCachedText sysfs.caches path = path
          rw [pathCachedText_eq_self]
          intro map _ hnumber
          rw [(henv _ map.logicalId).mpr hnumber] at hread
          cases hread

end OpenSan.Storage
