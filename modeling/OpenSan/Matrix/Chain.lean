import OpenSan.Matrix.TableBorders

/-!
# The chain of filters

All filters of `matrix.caller` before `filter_mib_humanize` return on a table
drawn from a regular input.
-/

namespace OpenSan.Matrix

open OpenSan.Foundation OpenSan.Einarc Sheet

section Early

variable {data : Data} {order : Order} {sheet : Sheet} {ids : List Nat}
  {n stop : Nat} {m : Marks} (hdrawn : Drawn Set.univ data order ids n stop sheet)
  (hregular : data.Regular) (hsnapshots : data.SnapshotsInside)

include hdrawn hregular in
theorem filterBordersHighlight_returns (hspanned : Spanned sheet m)
    (hunmarked : ∀ ref, Unmarked (lit m) ref) :
    Action.Returns (filterBordersHighlight data sheet) m fun _ =>
      Ready sheet.records (shown data sheet) := by
  refine (filterBordersHighlight_paints hdrawn hregular m hspanned fun ref => hunmarked ref).mono
    ?_
  rintro _ m' ⟨hspanned', ⟨harrays, _⟩, _⟩
  refine ⟨hspanned'.rowspans, hspanned'.sizes, ?_⟩
  rintro ref ⟨id, hown⟩
  have hid : id ∈ ids := by
    obtain ⟨logical, hlogical, _⟩ := hown
    rw [hdrawn.perm.mem_iff]
    exact AList.mem_keys.mp (AList.lookup_isSome.mp (by rw [hlogical]; rfl))
  exact (harrays id hid).isSome hown

private theorem alternate_returns {M : Set Ref} {colors : String × String}
    {body : String → Nat → Filter Bool} {lines : List Nat} {second : Bool}
    (h : Ready sheet.records M m)
    (hbody : ∀ color, ∀ k ∈ lines, ∀ m, Ready sheet.records M m →
      Action.Returns (body color k) m fun _ => Ready sheet.records M) :
    Action.Returns (alternate colors body lines second) m fun _ =>
      Ready sheet.records M := by
  induction lines generalizing second m with
  | nil => exact Action.Returns.pure h
  | cons k ks ih =>
      refine (hbody _ k (by simp) m h).bind fun used m' h' => ?_
      exact ih h' fun color other hother => hbody color other (by simp [hother])

include hdrawn hregular in
theorem filterAlternationBorderColors_returns
    (h : Ready sheet.records (shown data sheet) m) :
    Action.Returns (filterAlternationBorderColors data order sheet) m fun _ =>
      Ready sheet.records (shown data sheet) := by
  refine alternate_returns h fun color k hk m₁ h₁ => ?_
  split
  · exact Action.Returns.pure h₁
  rename_i ref href
  obtain ⟨id, logical, start, next, _, _, rfl, hblock⟩ :=
    hdrawn.logical_inv (one_le_row hdrawn hk) href
  refine (h₁.setHighlight (logical_mem_shown hblock.lookup) _).bind fun _ m₂ h₂ => ?_
  refine logicalOf_bind hblock.lookup ?_
  refine (h₂.forEach_keep fun p hp m₃ h₃ => ?_).bind fun _ m₃ h₃ => ?_
  · refine h₃.setHighlight (physical_mem_shown hblock.lookup ?_) _
    rw [order.mem_visit, hdrawn.members id logical hblock.lookup] at hp
    exact hp
  refine (h₃.forEach_keep fun device hdevice m₄ h₄ => ?_).bind fun _ m₄ h₄ => ?_
  · rw [order.mem_visit] at hdevice
    refine (h₄.setHighlight (volume_mem_shown hblock.lookup hdevice) _).bind
      fun _ m₅ h₅ => ?_
    refine h₅.forEach_keep fun bound hbound m₆ h₆ => ?_
    obtain ⟨entry, hentry, hindex⟩ :=
      mem_patternTable hregular.names ((order.mem_visit).mp hbound)
    have hown : ownPattern sheet.sessionsAvail entry.2 ⊆ shown data sheet :=
      ownPattern_subset_shown hblock.lookup hdevice hentry
    rw [hindex] at hown
    refine (h₆.setHighlight (hown (.inl rfl)) _).bind fun _ m₇ h₇ => ?_
    exact h₇.forEach_keep fun session hsession m₈ h₈ =>
      h₈.setHighlight (hown (.inr hsession)) _
  · exact Action.Returns.pure h₄

include hdrawn hregular hsnapshots in
private theorem volume_line {k : Nat} {ref : Ref} (hk : k ∈ sheet.lineNumbers)
    (href : sheet.cell .volume (k : ℚ) = some ref) :
    ∃ id logical device volume, ref = .volume device ∧
      data.logicals.lookup id = some logical ∧ device ∈ logical.volumes.keys ∧
      data.volume device = some volume ∧
      (volume.isSnapshot = false →
        ∀ snapshot ∈ volume.snapshots, snapshot ∈ logical.volumes.keys) := by
  obtain ⟨id, logical, device, hlogical, hdevice, rfl⟩ :=
    hdrawn.volume_inv (one_le_row hdrawn hk) href
  obtain ⟨volume, hlookup, hvolume⟩ := volume_eq_some hregular hlogical hdevice
  refine ⟨id, logical, device, volume, rfl, hlogical, hdevice, hvolume, ?_⟩
  exact hsnapshots ⟨id, logical⟩ (AList.mem_lookup_iff.mp hlogical)
    ⟨device, volume⟩ (AList.mem_lookup_iff.mp hlookup)

include hdrawn hregular hsnapshots in
private theorem eachVolume_returns {M : Set Ref} {body : Ref → String × Volume → Filter Unit}
    (h : Ready sheet.records M m)
    (hbody : ∀ id logical device volume m, data.logicals.lookup id = some logical →
      device ∈ logical.volumes.keys →
      (volume.isSnapshot = false →
        ∀ snapshot ∈ volume.snapshots, snapshot ∈ logical.volumes.keys) →
      Ready sheet.records M m →
      Action.Returns (body (.volume device) (device, volume)) m fun _ =>
        Ready sheet.records M) :
    Action.Returns (eachLine sheet fun k => onCell sheet .volume k fun ref =>
      volumeOf data ref >>= body ref) m fun _ => Ready sheet.records M := by
  refine h.forEach_keep fun k hk m₁ h₁ => h₁.onCell fun ref href => ?_
  obtain ⟨id, logical, device, volume, rfl, hlogical, hdevice, hvolume, hinside⟩ :=
    volume_line hdrawn hregular hsnapshots hk href
  exact volumeOf_bind hvolume
    (hbody id logical device volume m₁ hlogical hdevice hinside h₁)

include hdrawn in
private theorem eachLogical_returns {M : Set Ref} {body : Ref → Nat × Logical → Filter Unit}
    (h : Ready sheet.records M m)
    (hbody : ∀ id logical m, Ready sheet.records M m →
      Action.Returns (body (.logical id) (id, logical)) m fun _ => Ready sheet.records M) :
    Action.Returns (eachLine sheet fun k => onCell sheet .logical k fun ref =>
      logicalOf data ref >>= body ref) m fun _ => Ready sheet.records M := by
  refine h.forEach_keep fun k hk m₁ h₁ => h₁.onCell fun ref href => ?_
  obtain ⟨id, logical, _, _, _, _, rfl, hblock⟩ :=
    hdrawn.logical_inv (one_le_row hdrawn hk) href
  exact logicalOf_bind hblock.lookup (hbody id logical m₁ h₁)

include hdrawn hregular hsnapshots in
theorem filterHighlightSnapshots_returns
    (h : Ready sheet.records (shown data sheet) m) :
    Action.Returns (filterHighlightSnapshots data sheet) m fun _ =>
      Ready sheet.records (shown data sheet) := by
  refine alternate_returns h fun color k hk m₁ h₁ => ?_
  split
  · exact Action.Returns.pure h₁
  rename_i ref href
  obtain ⟨id, logical, device, volume, rfl, hlogical, hdevice, hvolume, hinside⟩ :=
    volume_line hdrawn hregular hsnapshots hk href
  refine volumeOf_bind hvolume ?_
  cases hkind : volume.isSnapshot with
  | true => exact Action.Returns.pure h₁
  | false =>
      refine (h₁.setHighlight (volume_mem_shown hlogical hdevice) _).bind
        fun _ m₂ h₂ => ?_
      refine (h₂.forEach_keep fun snapshot hsnapshot m₃ h₃ => ?_).bind
        fun _ m₃ h₃ => Action.Returns.pure h₃
      exact h₃.setHighlight
        (volume_mem_shown hlogical (hinside hkind snapshot hsnapshot)) _

private theorem backgroundFrom_returns {id : Nat} {logical : Logical}
    {device : String} (hnames : (data.accessPatterns.map (·.name)).Nodup)
    (hlogical : data.logicals.lookup id = some logical)
    (hdevice : device ∈ logical.volumes.keys)
    (h : Ready sheet.records (shown data sheet) m) :
    Action.Returns (backgroundFrom data order device) m fun _ =>
      Ready sheet.records (shown data sheet) := by
  obtain ⟨highlight, hsome⟩ := Option.isSome_iff_exists.mp
    (h.marked _ (volume_mem_shown hlogical hdevice))
  refine Action.Returns.query_bind (by rw [hsome]; rfl) ?_
  refine h.forEach_keep fun bound hbound m₁ h₁ => ?_
  obtain ⟨entry, hentry, hindex⟩ :=
    mem_patternTable hnames ((order.mem_visit).mp hbound)
  rw [← hindex]
  exact h₁.setHighlight
    (ownPattern_subset_shown hlogical hdevice hentry (.inl rfl)) _

include hdrawn hregular hsnapshots in
theorem filterHighlightAccesssPatterns_returns
    (h : Ready sheet.records (shown data sheet) m) :
    Action.Returns (filterHighlightAccesssPatterns data order sheet) m fun _ =>
      Ready sheet.records (shown data sheet) := by
  refine eachVolume_returns hdrawn hregular hsnapshots h
    fun id logical device volume m₁ hlogical hdevice hinside h₁ => h₁.onlyIf fun hkind => ?_
  refine (h₁.onlyIf fun _ => backgroundFrom_returns hregular.names hlogical hdevice
    h₁).bind fun _ m₂ h₂ => ?_
  refine h₂.forEach_keep fun snapshot hsnapshot m₃ h₃ => h₃.onlyIf fun _ => ?_
  exact backgroundFrom_returns hregular.names hlogical
    (hinside (of_decide_eq_true hkind) snapshot hsnapshot) h₃

include hdrawn in
theorem filterHighlightSessions_returns
    (h : Ready sheet.records (shown data sheet) m) :
    Action.Returns (filterHighlightSessions sheet) m fun _ =>
      Ready sheet.records (shown data sheet) := by
  refine alternate_returns h fun color k hk m₁ h₁ => ?_
  split
  · exact Action.Returns.pure h₁
  rename_i ref href
  obtain ⟨id, logical, device, entry, hlogical, hdevice, hentry, hsession⟩ :=
    hdrawn.session_inv (one_le_row hdrawn hk) href
  have hmem : ref ∈ shown data sheet :=
    ownPattern_subset_shown hlogical hdevice hentry (.inr hsession)
  exact (h₁.setHighlight hmem _).bind fun _ m₂ h₂ => Action.Returns.pure h₂

/-! ## Numbers and permissions -/

include hdrawn hregular hsnapshots in
theorem filterVolumeGroupPercentage_returns {M : Set Ref}
    (h : Ready sheet.records M m) :
    Action.Returns (filterVolumeGroupPercentage data sheet) m fun _ =>
      Ready sheet.records M := by
  refine eachVolume_returns hdrawn hregular hsnapshots h
    fun _ _ device volume m₁ _ _ _ h₁ => ?_
  obtain ⟨size, hsize⟩ := hdrawn.sizes (.group volume.group.name)
  refine h₁.amountOf_bind hsize ?_
  exact h₁.setField (fun _ => rfl) (fun _ => rfl) fun _ => rfl

include hdrawn in
theorem filterAddLogicalIdToPhysical_returns {M : Set Ref}
    (h : Ready sheet.records M m) :
    Action.Returns (filterAddLogicalIdToPhysical data order sheet) m fun _ =>
      Ready sheet.records M := by
  refine eachLogical_returns hdrawn h fun id logical m₁ h₁ => ?_
  refine h₁.forEach_keep fun p hp m₂ h₂ => ?_
  exact h₂.setField (fun _ => rfl) (fun _ => rfl) fun _ => rfl

include hdrawn in
private theorem minimalSize_returns {M : Set Ref} {disks : List PhysicalId}
    {minimal : Option ℚ} (h : Ready sheet.records M m) :
    Action.Returns (minimalSize disks minimal) m fun _ => Ready sheet.records M := by
  induction disks generalizing minimal with
  | nil => exact Action.Returns.pure h
  | cons disk disks ih =>
      obtain ⟨size, hsize⟩ := hdrawn.sizes (.physical disk)
      exact h.amountOf_bind hsize ih

include hdrawn in
private theorem hotspares_returns {M : Set Ref} {physical : Ref} {ks : List Nat}
    {found : List (Nat × ℚ)} (hks : ∀ k ∈ ks, k ∈ sheet.lineNumbers)
    (h : Ready sheet.records M m) :
    Action.Returns (hotspares data order sheet physical ks found) m fun _ =>
      Ready sheet.records M := by
  induction ks generalizing found m with
  | nil => exact Action.Returns.pure h
  | cons k ks ih =>
      have hrest : ∀ k ∈ ks, k ∈ sheet.lineNumbers := fun other hother =>
        hks other (by simp [hother])
      unfold hotspares
      split
      · exact ih hrest h
      rename_i ref href
      obtain ⟨id, logical, _, _, _, _, rfl, hblock⟩ :=
        hdrawn.logical_inv (one_le_row hdrawn (hks k (by simp))) href
      refine logicalOf_bind hblock.lookup ?_
      by_cases hlevel : logical.level.any (· ∈ raidlevelsHotspareCompatible) = true
      · rw [if_pos hlevel]
        refine (minimalSize_returns hdrawn h).bind fun minimal m₁ h₁ => ?_
        obtain ⟨size, hsize⟩ := hdrawn.sizes physical
        exact h₁.amountOf_bind hsize (ih hrest h₁)
      · rw [if_neg hlevel]
        exact ih hrest h

include hdrawn in
theorem filterCalculateHotspares_returns {M : Set Ref}
    (h : Ready sheet.records M m) :
    Action.Returns (filterCalculateHotspares data order sheet) m fun _ =>
      Ready sheet.records M := by
  refine h.forEach_keep fun k hk m₁ h₁ => h₁.onCell fun ref href => ?_
  refine Action.Returns.read_bind (h₁.onlyIf fun _ => ?_)
  refine (hotspares_returns hdrawn (fun _ hk => hk) h₁).bind fun found m₂ h₂ => ?_
  by_cases hfound : found = []
  · rw [if_pos hfound]
    exact h₂.setField (fun _ => rfl) (fun _ => rfl) fun _ => rfl
  · rw [if_neg hfound]
    obtain ⟨ids, hsort, _⟩ := Sort.sort_perm less_asymmetric (found.map (·.1))
    refine Action.Returns.lift_bind hsort ?_
    exact h₂.setField (fun _ => rfl) (fun _ => rfl) fun _ => rfl

include hdrawn in
theorem filterCalculateFlashcache_returns {M : Set Ref}
    (h : Ready sheet.records M m) :
    Action.Returns (filterCalculateFlashcache data sheet) m fun _ =>
      Ready sheet.records M := by
  refine eachLogical_returns hdrawn h fun id logical m₁ h₁ => ?_
  exact Action.Returns.modify ⟨h₁.rowspans, h₁.sizes, h₁.marked⟩

include hdrawn in
theorem filterDeletabilityLogical_returns {M : Set Ref}
    (h : Ready sheet.records M m) :
    Action.Returns (filterDeletabilityLogical data sheet) m fun _ =>
      Ready sheet.records M := by
  refine eachLogical_returns hdrawn h fun id logical m₁ h₁ => ?_
  exact h₁.setField (fun _ => rfl) (fun _ => rfl) fun _ => rfl

include hdrawn hregular hsnapshots in
theorem filterDeletabilityLogicalVolume_returns {M : Set Ref}
    (h : Ready sheet.records M m) :
    Action.Returns (filterDeletabilityLogicalVolume data sheet) m fun _ =>
      Ready sheet.records M := by
  refine eachVolume_returns hdrawn hregular hsnapshots h
    fun _ _ device volume m₁ _ _ _ h₁ => ?_
  exact h₁.setField (fun _ => rfl) (fun _ => rfl) fun _ => rfl

include hdrawn hregular hsnapshots in
theorem filterResizabilityLogicalVolume_returns {M : Set Ref}
    (h : Ready sheet.records M m) :
    Action.Returns (filterResizabilityLogicalVolume data sheet) m fun _ =>
      Ready sheet.records M := by
  refine eachVolume_returns hdrawn hregular hsnapshots h
    fun _ _ device volume m₁ _ _ _ h₁ => h₁.onlyIf fun _ => ?_
  exact h₁.setField (fun _ => rfl) (fun _ => rfl) fun _ => rfl

include hdrawn in
theorem filterUnbindabilityAccessPattern_returns {M : Set Ref}
    (h : Ready sheet.records M m) :
    Action.Returns (filterUnbindabilityAccessPattern data sheet) m fun _ =>
      Ready sheet.records M := by
  refine h.forEach_keep fun k hk m₁ h₁ => h₁.onCell fun ref href => ?_
  obtain ⟨index, pattern, rfl, hpattern⟩ := hdrawn.pattern_inv (one_le_row hdrawn hk) href
  have hset : ∀ value : Bool, ∀ m, Ready sheet.records M m →
      Action.Returns (setField (.pattern index) fun r =>
        { r with unbindable := some value }) m fun _ => Ready sheet.records M :=
    fun value m hm => hm.setField (fun _ => rfl) (fun _ => rfl) fun _ => rfl
  refine (hset true m₁ h₁).bind fun _ m₂ h₂ => ?_
  refine patternOf_bind hpattern (h₂.onlyIf fun _ => ?_)
  refine h₂.forEach_keep fun inner hinner m₃ h₃ => h₃.onCell fun other hother => ?_
  obtain ⟨index', pattern', rfl, hpattern'⟩ :=
    hdrawn.pattern_inv (one_le_row hdrawn hinner) hother
  exact patternOf_bind hpattern' (h₃.onlyIf fun _ => hset false m₃ h₃)

include hdrawn in
private theorem cacheInUse_returns {M : Set Ref} {ks : List Nat} {inUse : Bool}
    (hks : ∀ k ∈ ks, k ∈ sheet.lineNumbers) (h : Ready sheet.records M m) :
    Action.Returns (cacheInUse data sheet ks inUse) m fun _ =>
      Ready sheet.records M := by
  induction ks generalizing inUse with
  | nil => exact Action.Returns.pure h
  | cons k ks ih =>
      have hrest : ∀ k ∈ ks, k ∈ sheet.lineNumbers := fun other hother =>
        hks other (by simp [hother])
      unfold cacheInUse
      split
      · exact ih hrest
      rename_i ref href
      obtain ⟨id, logical, _, _, _, _, rfl, hblock⟩ :=
        hdrawn.logical_inv (one_le_row hdrawn (hks k (by simp))) href
      exact logicalOf_bind hblock.lookup (ih hrest)

include hdrawn in
theorem filterUnbindabilityPhysicalFlashcache_returns {M : Set Ref}
    (h : Ready sheet.records M m) :
    Action.Returns (filterUnbindabilityPhysicalFlashcache data sheet) m fun _ =>
      Ready sheet.records M := by
  refine eachLogical_returns hdrawn h fun id logical m₁ h₁ => h₁.onlyIf fun _ => ?_
  refine (cacheInUse_returns hdrawn (fun _ hk => hk) h₁).bind fun inUse m₂ h₂ => ?_
  refine h₂.forEach_keep fun inner _ m₃ h₃ => h₃.onCell fun physical _ => ?_
  exact h₃.onlyIf fun _ => h₃.setField (fun _ => rfl) (fun _ => rfl) fun _ => rfl

include hdrawn hregular hsnapshots in
theorem earlyFilters_returns (hspanned : Spanned sheet m)
    (hunmarked : ∀ ref, Unmarked (lit m) ref) :
    Action.Returns (Action.forEach (earlyFilters data order sheet) fun filter => filter)
      m fun _ => Ready sheet.records (shown data sheet) := by
  refine (filterBordersHighlight_returns hdrawn hregular hspanned hunmarked).bind fun _ _ h => ?_
  refine (filterAlternationBorderColors_returns hdrawn hregular h).bind fun _ _ h => ?_
  refine (filterHighlightSnapshots_returns hdrawn hregular hsnapshots h).bind
    fun _ _ h => ?_
  refine (filterHighlightAccesssPatterns_returns hdrawn hregular hsnapshots h).bind
    fun _ _ h => ?_
  refine (filterHighlightSessions_returns hdrawn h).bind fun _ _ h => ?_
  refine (filterVolumeGroupPercentage_returns hdrawn hregular hsnapshots h).bind
    fun _ _ h => ?_
  refine (filterAddLogicalIdToPhysical_returns hdrawn h).bind fun _ _ h => ?_
  refine (filterCalculateHotspares_returns hdrawn h).bind fun _ _ h => ?_
  refine (filterCalculateFlashcache_returns hdrawn h).bind fun _ _ h => ?_
  refine (filterDeletabilityLogical_returns hdrawn h).bind fun _ _ h => ?_
  refine (filterDeletabilityLogicalVolume_returns hdrawn hregular hsnapshots h).bind
    fun _ _ h => ?_
  refine (filterResizabilityLogicalVolume_returns hdrawn hregular hsnapshots h).bind
    fun _ _ h => ?_
  refine (filterUnbindabilityAccessPattern_returns hdrawn h).bind fun _ _ h => ?_
  refine (filterUnbindabilityPhysicalFlashcache_returns hdrawn h).bind fun _ _ h => ?_
  exact Action.Returns.pure h

end Early

end OpenSan.Matrix
