import OpenSan.Matrix.Scan

/-!
# Releasing cache disks

`filter_unbindability_physical_flashcache` runs over the cached arrays and looks
for bound patterns in each round, but it looks at the volumes of all cached
arrays and not only at those of the array of the round.
-/

namespace OpenSan.Matrix

open OpenSan.Foundation OpenSan.Einarc Sheet

variable {data : Data} {order : Order} {sheet : Sheet}

/-! ## Bound patterns -/

/-- No pattern is bound to a volume or snapshot of the array. -/
def Unused (data : Data) (logical : Logical) : Prop :=
  ∀ device ∈ logical.volumes.keys, ∀ pattern ∈ data.accessPatterns,
    pattern.filename ≠ some device

def hasPatterns (data : Data) (logical : Logical) : Bool :=
  logical.volumes.keys.any fun device => (patternTable data device).keys ≠ []

theorem mem_keys_patternTable {device name : String} :
    name ∈ (patternTable data device).keys ↔
      ∃ pattern ∈ data.accessPatterns, pattern.filename = some device ∧ pattern.name = name := by
  have htable : patternTable data device =
      ((boundPatterns data device).map fun entry => (entry.1.name, entry.2)).foldl
        (fun table pair => table.insert pair.1 pair.2) ∅ := by
    rw [List.foldl_map]
    rfl
  rw [htable, mem_keys_foldl_insert, List.map_map]
  constructor
  · rintro (hempty | hin)
    · cases hempty
    · obtain ⟨entry, hentry, rfl⟩ := List.mem_map.mp hin
      obtain ⟨hpattern, hfilename⟩ := filename_of_bound hentry
      exact ⟨entry.1, List.mem_of_getElem? hpattern, hfilename, rfl⟩
  · rintro ⟨pattern, hpattern, hfilename, rfl⟩
    obtain ⟨index, hindex, rfl⟩ := List.getElem_of_mem hpattern
    refine .inr (List.mem_map.mpr ⟨(data.accessPatterns[index], index), ?_, rfl⟩)
    exact List.mem_filter.mpr ⟨List.mem_zipIdx_iff_getElem?.mpr (by simp [hindex]),
      decide_eq_true hfilename⟩

theorem hasPatterns_eq_false {logical : Logical} :
    hasPatterns data logical = false ↔ Unused data logical := by
  have hnone (device : String) : (patternTable data device).keys = [] ↔
      ∀ pattern ∈ data.accessPatterns, pattern.filename ≠ some device := by
    rw [List.eq_nil_iff_forall_not_mem]
    simp only [mem_keys_patternTable, not_exists, not_and]
    exact ⟨fun h pattern hin heq => h pattern.name pattern hin heq rfl,
      fun h _ pattern hin heq _ => h pattern hin heq⟩
  simp [hasPatterns, Unused, hnone]

def busy (data : Data) (id : Nat) : Bool :=
  (data.logicals.lookup id).any fun logical =>
    logical.cachedBy.isSome && hasPatterns data logical

theorem cacheInUse_run {lines ids : List Nat} (h : Walk data sheet lines ids)
    (inUse : Bool) (m : Marks) :
    cacheInUse data sheet lines inUse m = (.ok (inUse || ids.any (busy data)), m) := by
  induction lines generalizing ids inUse with
  | nil =>
      obtain rfl : ids = [] := by simpa [Sheet.cellsIn] using h.cells
      simp [cacheInUse]
  | cons k lines ih =>
      rcases h.cons with ⟨hcell, hwalk⟩ | ⟨id, logical, rest, rfl, hcell, hlogical, hwalk⟩
      · simp only [cacheInUse, hcell]
        exact ih hwalk inUse
      · have hbusy : busy data id = (logical.cachedBy.isSome && hasPatterns data logical) := by
          simp [busy, hlogical]
        rw [List.any_cons, ← Bool.or_assoc, hbusy]
        simp only [cacheInUse, hcell, logicalOf, hlogical]
        exact ih hwalk _

/-! ## The filter -/

def Flagged (value : Bool) (m m' : Marks) : Prop :=
  ∀ ref, (m'.records ref).unbindable = (m.records ref).unbindable ∨
    (m'.records ref).unbindable = some value

theorem Flagged.trans {value : Bool} {m m' m'' : Marks} (h : Flagged value m m')
    (h' : Flagged value m' m'') : Flagged value m m'' := by
  intro ref
  rcases h' ref with hsame | hset
  · rw [hsame]
    exact h ref
  · exact .inr hset

theorem Flagged.kept {value : Bool} {m m' : Marks} (h : Flagged value m m') {ref : Ref}
    (hset : (m.records ref).unbindable = some value) :
    (m'.records ref).unbindable = some value := by
  rcases h ref with hsame | hset'
  · rw [hsame, hset]
  · exact hset'

theorem flagDisk_returns (cache : Option PhysicalId) (value : Bool) (refs : List Ref)
    (m : Marks) :
    Action.Returns (Action.forEach refs fun physical =>
      onlyIf (physical.diskId = cache) <|
        setField physical fun r => { r with unbindable := some value }) m fun _ m' =>
      Flagged value m m' ∧
        ∀ ref ∈ refs, ref.diskId = cache → (m'.records ref).unbindable = some value := by
  induction refs generalizing m with
  | nil => exact Action.Returns.pure ⟨fun _ => .inl rfl, by simp⟩
  | cons ref refs ih =>
      have hround : Action.Returns (onlyIf (decide (ref.diskId = cache)) <|
          setField ref fun r => { r with unbindable := some value }) m fun _ m₁ =>
          Flagged value m m₁ ∧
            (ref.diskId = cache → (m₁.records ref).unbindable = some value) := by
        unfold onlyIf
        split
        · refine Action.Returns.modify ⟨fun other => ?_, fun _ => ?_⟩
          · by_cases heq : other = ref
            · subst heq
              exact .inr (by simp [Marks.update])
            · exact .inl (by simp [Marks.update, heq])
          · simp [Marks.update]
        · rename_i hother
          refine Action.Returns.pure ⟨fun _ => .inl rfl, fun heq => ?_⟩
          exact absurd (decide_eq_true heq) hother
      refine hround.bind ?_
      rintro _ m₁ ⟨hflagged₁, hset₁⟩
      refine (ih m₁).mono ?_
      rintro _ m₂ ⟨hflagged₂, hset₂⟩
      refine ⟨hflagged₁.trans hflagged₂, ?_⟩
      intro other hother hdisk
      rcases List.mem_cons.mp hother with rfl | hin
      · exact hflagged₂.kept (hset₁ hdisk)
      · exact hset₂ other hin hdisk

section Filter

variable (h : Scanned data sheet)

include h in
private theorem anyBusy_run (m : Marks) :
    cacheInUse data sheet sheet.lineNumbers false m =
      (.ok (data.logicals.keys.any (busy data)), m) := by
  obtain ⟨ids, _, hperm, hwalk⟩ := h.walk
  rw [cacheInUse_run hwalk, Bool.false_or, hperm.any_eq]

private theorem flagDisks_returns {ids : List Nat} (value : Bool)
    (hknown : ∀ id ∈ ids, ∃ logical, data.logicals.lookup id = some logical)
    (hvalue : ∀ m, cacheInUse data sheet sheet.lineNumbers false m = (.ok !value, m))
    (m : Marks) :
    Action.Returns (Action.forEach ids fun id => do
        let entry ← logicalOf data (.logical id)
        onlyIf entry.2.cachedBy.isSome do
          let inUse ← cacheInUse data sheet sheet.lineNumbers false
          eachLine sheet fun inner => onCell sheet .physical inner fun physical =>
            onlyIf (physical.diskId = entry.2.cachedBy) <|
              setField physical fun r => { r with unbindable := some !inUse }) m fun _ m' =>
      Flagged value m m' ∧ ∀ id ∈ ids, ∀ logical cache,
        data.logicals.lookup id = some logical → logical.cachedBy = some cache →
        ∀ ref ∈ sheet.cellsIn .physical sheet.lineNumbers, ref.diskId = some cache →
          (m'.records ref).unbindable = some value := by
  induction ids generalizing m with
  | nil => exact Action.Returns.pure ⟨fun _ => .inl rfl, by simp⟩
  | cons id ids ih =>
      obtain ⟨logical, hlogical⟩ := hknown id (by simp)
      have hround : Action.Returns (do
          let entry ← logicalOf data (.logical id)
          onlyIf entry.2.cachedBy.isSome do
            let inUse ← cacheInUse data sheet sheet.lineNumbers false
            eachLine sheet fun inner => onCell sheet .physical inner fun physical =>
              onlyIf (physical.diskId = entry.2.cachedBy) <|
                setField physical fun r => { r with unbindable := some !inUse }) m
          fun _ m₁ => Flagged value m m₁ ∧ ∀ cache, logical.cachedBy = some cache →
            ∀ ref ∈ sheet.cellsIn .physical sheet.lineNumbers, ref.diskId = some cache →
              (m₁.records ref).unbindable = some value := by
        refine logicalOf_bind hlogical ?_
        unfold onlyIf
        split
        · refine Action.Returns.bind (P := fun inUse m₁ => inUse = !value ∧ m₁ = m)
            ⟨_, _, hvalue m, rfl, rfl⟩ ?_
          rintro _ _ ⟨rfl, rfl⟩
          rw [Bool.not_not, eachLine, forEach_onCell]
          refine (flagDisk_returns logical.cachedBy value _ _).mono ?_
          rintro _ m₂ ⟨hflagged, hset⟩
          exact ⟨hflagged, fun cache hcache ref href hdisk =>
            hset ref href (hdisk.trans hcache.symm)⟩
        · rename_i hnone
          refine Action.Returns.pure ⟨fun _ => .inl rfl, fun cache hcache => ?_⟩
          exact absurd (by rw [hcache]; rfl) hnone
      refine hround.bind ?_
      rintro _ m₁ ⟨hflagged₁, hset₁⟩
      refine (ih (fun other hother => hknown other (by simp [hother])) m₁).mono ?_
      rintro _ m₂ ⟨hflagged₂, hset₂⟩
      refine ⟨hflagged₁.trans hflagged₂, ?_⟩
      intro other hother logical' cache hlogical' hcache ref href hdisk
      rcases List.mem_cons.mp hother with rfl | hin
      · rw [hlogical] at hlogical'
        obtain rfl := Option.some.inj hlogical'
        exact hflagged₂.kept (hset₁ cache hcache ref href hdisk)
      · exact hset₂ other hin logical' cache hlogical' hcache ref href hdisk

include h in
theorem filterUnbindabilityPhysicalFlashcache_flags (m : Marks) :
    Action.Returns (filterUnbindabilityPhysicalFlashcache data sheet) m fun _ m' =>
      ∀ id logical cache, data.logicals.lookup id = some logical →
        logical.cachedBy = some cache →
        ∀ ref ∈ sheet.cellsIn .physical sheet.lineNumbers, ref.diskId = some cache →
          (m'.records ref).unbindable = some !data.logicals.keys.any (busy data) := by
  obtain ⟨ids, _, hperm, hwalk⟩ := h.walk
  rw [filterUnbindabilityPhysicalFlashcache, eachLine, forEach_onCell, hwalk.cells,
    Action.forEach_map]
  refine (flagDisks_returns (!data.logicals.keys.any (busy data)) hwalk.known
    (by simpa using anyBusy_run h) m).mono ?_
  rintro _ m' ⟨_, hset⟩ id logical cache hlogical
  apply hset id _ logical cache hlogical
  exact hperm.mem_iff.mpr (AList.mem_keys.mp (AList.lookup_isSome.mp (by rw [hlogical]; rfl)))

end Filter

/-! ## Which cache disks are judged correctly -/

/-- The filter lets the cache disk of an array go if and only if no pattern is
bound to the array. -/
def Released (data : Data) (marks : Marks) (logical : Logical) (cache : PhysicalId) : Prop :=
  (marks.records (.physical cache)).unbindable = some true ↔ Unused data logical

def CachedUnused (data : Data) : Prop :=
  ∀ e ∈ data.logicals.entries, e.2.cachedBy.isSome = true → Unused data e.2

theorem any_busy_eq_false :
    data.logicals.keys.any (busy data) = false ↔ CachedUnused data := by
  rw [List.any_eq_false]
  constructor
  · intro h e he hcached
    have hlookup : data.logicals.lookup e.1 = some e.2 := AList.mem_lookup_iff.mpr he
    have hquiet := h e.1 (AList.mem_keys.mp
      (AList.lookup_isSome.mp (by rw [hlookup]; rfl)))
    rw [← hasPatterns_eq_false]
    simpa [busy, hlookup, hcached] using hquiet
  · intro h id hid
    obtain ⟨logical, hlogical⟩ := Option.isSome_iff_exists.mp
      (AList.lookup_isSome.mpr (AList.mem_keys.mpr hid))
    have hunused := h ⟨id, logical⟩ (AList.mem_lookup_iff.mp hlogical)
    simp only [← hasPatterns_eq_false] at hunused
    simpa [busy, hlogical] using hunused

/-- A cache disk may be released if and only if no cached array is in use. -/
theorem filterUnbindabilityPhysicalFlashcache_unbindable {sheet : Sheet}
    (h : overall data order data.initial = (.ok (), sheet)) (m : Marks) :
    ∃ marks, filterUnbindabilityPhysicalFlashcache data sheet m = (.ok (), marks) ∧
      ∀ id logical cache, data.logicals.lookup id = some logical →
        logical.cachedBy = some cache → cache ∈ data.physicals.keys →
        ((marks.records (.physical cache)).unbindable = some true ↔ CachedUnused data) := by
  have hscanned := overall_scanned h
  obtain ⟨_, marks, hrun, hflags⟩ := filterUnbindabilityPhysicalFlashcache_flags hscanned m
  refine ⟨marks, hrun, fun id logical cache hlogical hcache hdisk => ?_⟩
  -- the cache disk is shown in a line of the array
  have hshown : Ref.physical cache ∈ sheet.cellsIn .physical sheet.lineNumbers := by
    obtain ⟨physicals, hsub, hmembers⟩ := hscanned.members id logical hlogical
    have hmember : cache ∈ sheet.members id := by
      rw [hmembers, cachedMembers, hcache]
      simp only [hsub hdisk, if_true]
      exact List.mem_insert_self
    exact mem_cellsIn.mpr (hscanned.disks id (AList.mem_keys.mp
      (AList.lookup_isSome.mp (by rw [hlogical]; rfl))) cache hmember)
  rw [hflags id logical cache hlogical hcache _ hshown rfl, ← any_busy_eq_false,
    Option.some.injEq, Bool.not_eq_true']

/-- A cache disk is judged correctly if its own array is in use, or if no cached
array is. -/
theorem cacheDisk_released_iff {sheet : Sheet}
    (h : overall data order data.initial = (.ok (), sheet)) (m : Marks) :
    ∃ marks, filterUnbindabilityPhysicalFlashcache data sheet m = (.ok (), marks) ∧
      ∀ id logical cache, data.logicals.lookup id = some logical →
        logical.cachedBy = some cache → cache ∈ data.physicals.keys →
        (Released data marks logical cache ↔ ¬ Unused data logical ∨ CachedUnused data) := by
  obtain ⟨marks, hrun, hflags⟩ := filterUnbindabilityPhysicalFlashcache_unbindable h m
  refine ⟨marks, hrun, fun id logical cache hlogical hcache hdisk => ?_⟩
  have hown : CachedUnused data → Unused data logical := fun hall =>
    hall _ (AList.mem_lookup_iff.mp hlogical) (by rw [hcache]; rfl)
  rw [Released, hflags id logical cache hlogical hcache hdisk]
  constructor
  · intro hiff
    by_cases hunused : Unused data logical
    · exact .inr (hiff.mpr hunused)
    · exact .inl hunused
  · rintro (hused | hall)
    · exact iff_of_false (fun hall => hused (hown hall)) hused
    · exact iff_of_true hall (hown hall)

def idleCached : Logical where
  physicals := (∅ : Table PhysicalId String).insert ⟨0, 2⟩ "0"
  cachedBy := some ⟨0, 4⟩
  volumes := ∅
  volumeGroup := none
  level := some "linear"
  state := "normal"
  capacity := 1000

def boundCached : Logical where
  physicals := (∅ : Table PhysicalId String).insert ⟨0, 3⟩ "1"
  cachedBy := some ⟨0, 5⟩
  volumes := (∅ : Table String Volume).insert "/dev/vg1/a"
    ⟨100, ⟨"vg1", 200, 900⟩, false, []⟩
  volumeGroup := none
  level := some "linear"
  state := "normal"
  capacity := 1000

def twoCaches : Data where
  physicals := [⟨0, 2⟩, ⟨0, 3⟩, ⟨0, 4⟩, ⟨0, 5⟩].foldl
    (fun table id => table.insert id ⟨"allocated", 1000⟩) ∅
  logicals := ((∅ : Table Nat Logical).insert 0 idleCached).insert 1 boundCached
  accessPatterns := [⟨"cfg1", "boot", some "/dev/vg1/a", 0⟩]
  sessions := ∅

private theorem twoCaches_regular : twoCaches.Regular :=
  ⟨by decide, by decide, by decide, by decide⟩

theorem twoCaches_released : ∃ sheet,
    overall twoCaches Order.plain twoCaches.initial = (.ok (), sheet) ∧ ∀ m, ∃ marks,
      filterUnbindabilityPhysicalFlashcache twoCaches sheet m = (.ok (), marks) ∧
      Released twoCaches marks boundCached ⟨0, 5⟩ := by
  obtain ⟨sheet, hrun⟩ := twoCaches_regular.overall_ok Order.plain
  refine ⟨sheet, hrun, fun m => ?_⟩
  obtain ⟨marks, hfilter, hiff⟩ := cacheDisk_released_iff hrun m
  refine ⟨marks, hfilter, (hiff 1 boundCached ⟨0, 5⟩ rfl rfl (by decide)).mpr (.inl ?_)⟩
  unfold Unused
  decide

/-- Nothing is bound to array 0, but its cache disk cannot be released. -/
theorem twoCaches_not_released : ∃ sheet,
    overall twoCaches Order.plain twoCaches.initial = (.ok (), sheet) ∧ ∀ m, ∃ marks,
      filterUnbindabilityPhysicalFlashcache twoCaches sheet m = (.ok (), marks) ∧
      Unused twoCaches idleCached ∧ ¬ Released twoCaches marks idleCached ⟨0, 4⟩ := by
  obtain ⟨sheet, hrun⟩ := twoCaches_regular.overall_ok Order.plain
  refine ⟨sheet, hrun, fun m => ?_⟩
  obtain ⟨marks, hfilter, hflags⟩ := filterUnbindabilityPhysicalFlashcache_unbindable hrun m
  have hunused : Unused twoCaches idleCached := by
    unfold Unused
    decide
  refine ⟨marks, hfilter, hunused, fun hreleased => ?_⟩
  have hall := (hflags 0 idleCached ⟨0, 4⟩ rfl rfl (by decide)).mp (hreleased.mpr hunused)
  have hbound := hall ⟨1, boundCached⟩ (AList.mem_lookup_iff.mp rfl) rfl
  revert hbound
  unfold Unused
  decide

end OpenSan.Matrix
