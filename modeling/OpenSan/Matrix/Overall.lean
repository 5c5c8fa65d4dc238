import OpenSan.Matrix.Blocks

/-!
# The whole table

`overall` draws the blocks of the arrays one below the other, then the free
disks and the patterns that are bound to nothing.
-/

namespace OpenSan.Matrix

open OpenSan.Foundation OpenSan.Einarc Sheet

def memberIds (data : Data) (logical : Logical) : List PhysicalId :=
  cachedMembers data.physicals.keys logical

def own (data : Data) (avail : Nat → List Ref) (id : Nat) : Set Ref :=
  {ref | ∃ logical, data.logicals.lookup id = some logical ∧
    ref ∈ ownLogical data avail id (memberIds data logical) logical.volumes.keys}

def Blocks (G : Set Ref) (data : Data) (avail : Nat → List Ref) (s : Sheet) :
    Nat → List Nat → Nat → Prop
  | start, [], stop => start = stop
  | start, id :: ids, stop => ∃ logical next,
      data.logicals.lookup id = some logical ∧
      CellAt G s .logical (.logical id) start next ∧
      physicalRows G s (memberIds data logical) start next ∧
      volumeRows G data avail s logical.volumes.keys start next ∧
      Blocks G data avail s next ids stop

structure Grown (R : Set Ref) (ids : List Nat) (lo hi : Nat)
    (s s' : Sheet) : Prop where
  cells : ∀ column (row : ℚ), row < lo → s'.cell column row = s.cell column row
  lines : ∀ row : ℚ, row < lo → (s'.HasLine row ↔ s.HasLine row)
  new : ∀ k : Nat, lo ≤ k → k < hi → s'.HasLine k
  blank : ∀ row : ℚ, hi ≤ row → ¬ s'.HasLine row
  rowspans : ∀ ref, ref ∉ R → s'.rowspan ref = s.rowspan ref
  sessionsAvail : s'.sessionsAvail = s.sessionsAvail
  members : ∀ id, id ∉ ids → s'.members id = s.members id

variable {G : Set Ref} {data : Data} {order : Order} {s : Sheet}

theorem cell_eq_none_of_not_hasLine {row : ℚ} (h : ¬ s.HasLine row)
    (column : Column) : s.cell column row = none := by
  have hnone : s.lines.lookup row = none := by
    simpa [HasLine] using h
  simp [cell, hnone]

theorem Grown.agree {R R' : Set Ref} {ids : List Nat} {lo hi lo' hi' : Nat}
    {s' : Sheet} {C : Set Column} (h : Grown R ids lo hi s s') (hle : hi' ≤ lo)
    (hR : Disjoint R' R) : Agree C R' lo' hi' s s' where
  cells column _ row _ hrow' := by
    have hle : (hi' : ℚ) ≤ lo := by exact_mod_cast hle
    exact h.cells column row (by linarith)
  rowspans ref href := h.rowspans ref (Set.disjoint_left.mp hR href)

theorem Grown.trans {R R' : Set Ref} {ids ids' : List Nat} {lo mid hi : Nat}
    {s' s'' : Sheet} (hle : lo ≤ mid) (h : Grown R ids lo mid s s')
    (h' : Grown R' ids' mid hi s' s'') :
    Grown (R ∪ R') (ids ++ ids') lo hi s s'' where
  cells column row hrow := by
    have hle : (lo : ℚ) ≤ mid := by exact_mod_cast hle
    rw [h'.cells column row (by linarith), h.cells column row hrow]
  lines row hrow := by
    have hle : (lo : ℚ) ≤ mid := by exact_mod_cast hle
    rw [h'.lines row (by linarith), h.lines row hrow]
  new k hk hk' := by
    rcases Nat.lt_or_ge k mid with hlt | hge
    · exact (h'.lines k (by exact_mod_cast hlt)).mpr (h.new k hk hlt)
    · exact h'.new k hge hk'
  blank := h'.blank
  rowspans ref href := by
    rw [Set.mem_union, not_or] at href
    rw [h'.rowspans ref href.2, h.rowspans ref href.1]
  sessionsAvail := h'.sessionsAvail.trans h.sessionsAvail
  members id hid := by
    rw [List.mem_append, not_or] at hid
    rw [h'.members id hid.2, h.members id hid.1]

/-! ## One array -/

theorem fillLines_returns {lo lines : Nat}
    (hblank : ∀ row : ℚ, lo ≤ row → ¬ s.HasLine row) :
    Action.Returns (fillLines lo lines) s fun _ s' =>
      Grown ∅ [] lo (lo + lines) s s' ∧ Room Set.univ lo (lo + lines) s' ∧
      s'.physicals = s.physicals := by
  have hloop : Action.Returns (fillLines lo lines) s
      fun _ s' => (Grown ∅ [] lo (lo + (List.range' lo lines).length) s s' ∧
        ∀ column (row : ℚ), lo ≤ row → s'.cell column row = none) ∧
        s'.physicals = s.physicals := by
    refine Action.Returns.forEach _
      (I := fun i s' => (Grown ∅ [] lo (lo + i) s s' ∧
        ∀ column (row : ℚ), lo ≤ row → s'.cell column row = none) ∧
        s'.physicals = s.physicals) ⟨⟨?_, ?_⟩, rfl⟩ ?_
    · exact ⟨fun _ _ _ => rfl, fun _ _ => .rfl, fun k hk hk' => by omega,
        hblank, fun _ _ => rfl, rfl, fun _ _ => rfl⟩
    · exact fun column row hrow => cell_eq_none_of_not_hasLine (hblank row hrow) column
    · rintro i hi s₁ ⟨⟨hgrown, hnone⟩, hphysicals⟩
      refine Action.Returns.modify ⟨⟨?_, ?_⟩, hphysicals⟩
      · rw [List.getElem_range', Nat.one_mul]
        have hq : ((lo + i : Nat) : ℚ) = (lo : ℚ) + i := by push_cast; rfl
        have hi0 : (0 : ℚ) ≤ i := by exact_mod_cast Nat.zero_le i
        constructor
        · intro column row hrow
          rw [cell_setLine, if_neg (by rintro rfl; linarith),
            hgrown.cells column row hrow]
        · intro row hrow
          rw [hasLine_setLine, hgrown.lines row hrow]
          exact or_iff_right (by rintro rfl; linarith)
        · intro k hk hk'
          rw [hasLine_setLine]
          rcases Nat.lt_or_ge k (lo + i) with hlt | hge
          · exact .inr (hgrown.new k hk hlt)
          · exact .inl (by exact_mod_cast (by omega : k = lo + i))
        · intro row hrow
          push_cast at hrow
          rw [hasLine_setLine, not_or]
          exact ⟨by rintro rfl; linarith, hgrown.blank row (by push_cast; linarith)⟩
        · exact hgrown.rowspans
        · exact hgrown.sessionsAvail
        · exact hgrown.members
      · intro column row hrow
        rw [cell_setLine]
        split
        · rfl
        · exact hnone column row hrow
  refine hloop.mono ?_
  rintro _ s' ⟨⟨hgrown, hnone⟩, hphysicals⟩
  rw [List.length_range'] at hgrown
  exact ⟨hgrown, ⟨hgrown.new, fun column _ row hrow _ => hnone column row hrow⟩,
    hphysicals⟩

theorem nodup_memberIds (data : Data) (logical : Logical) :
    (memberIds data logical).Nodup := by
  have hkeys : logical.physicals.keys.Nodup := logical.physicals.keys_nodup
  unfold memberIds cachedMembers
  split
  · exact hkeys
  · split
    · exact hkeys.insert
    · exact hkeys.erase _

theorem mem_memberIds {logical : Logical} {id : PhysicalId}
    (h : id ∈ memberIds data logical) :
    id ∈ logical.physicals.keys ∨
      logical.cachedBy = some id ∧ id ∈ data.physicals.keys := by
  unfold memberIds cachedMembers at h
  split at h
  · exact .inl h
  · rename_i cache hcache
    split at h
    · rename_i hmem
      rcases List.mem_insert_iff.mp h with heq | hold
      · subst heq
        exact .inr ⟨hcache, hmem⟩
      · exact .inl hold
    · exact .inl (List.mem_of_mem_erase h)

theorem Claimed.agree {ids : List PhysicalId} {s' : Sheet} {C : Set Column}
    {R : Set Ref} {lo hi : Nat} (h : Claimed ids s s')
    (hR : ∀ ref ∈ R, ∀ id ∈ ids, ref ≠ .physical id) : Agree C R lo hi s s' where
  cells column _ row _ _ := by simp [cell, h.lines]
  rowspans ref href := h.rowspans ref (hR ref href)

theorem Claimed.room {ids : List PhysicalId} {s' : Sheet} {C : Set Column}
    {lo hi : Nat} (h : Claimed ids s s') (hroom : Room C lo hi s) :
    Room C lo hi s' := by
  refine ⟨?_, ?_⟩
  · simpa only [HasLine, h.lines] using hroom.lines
  · simpa only [cell, h.lines] using hroom.blank

theorem Grown.claimed {R : Set Ref} {ids : List Nat} {disks : List PhysicalId}
    {lo hi : Nat} {s' s'' : Sheet} (h : Grown R ids lo hi s s')
    (h' : Claimed disks s' s'') (hR : ∀ id ∈ disks, .physical id ∈ R) :
    Grown R ids lo hi s s'' where
  cells column row hrow := by
    rw [← h.cells column row hrow]
    simp [cell, h'.lines]
  lines row hrow := by
    rw [← h.lines row hrow]
    simp [HasLine, h'.lines]
  new k hk hk' := by
    have hline := h.new k hk hk'
    rwa [HasLine, ← h'.lines] at hline
  blank row hrow := by
    have hblank := h.blank row hrow
    rwa [HasLine, ← h'.lines] at hblank
  rowspans ref href := by
    rw [← h.rowspans ref href]
    apply h'.rowspans ref
    rintro id hid rfl
    exact href (hR id hid)
  sessionsAvail := h'.sessionsAvail.trans h.sessionsAvail
  members id hid := by rw [h'.members, h.members id hid]

theorem Grown.framed {R R' : Set Ref} {ids : List Nat} {C : Set Column}
    {lo hi : Nat} {s' s'' : Sheet} (h : Grown R ids lo hi s s')
    (h' : Framed C R' lo hi s' s'') (hR : R' ⊆ R) : Grown R ids lo hi s s'' where
  cells column row hrow := by
    rw [h'.cells column row fun _ => .inl hrow, h.cells column row hrow]
  lines row hrow := by rw [h'.outside row (.inl hrow), h.lines row hrow]
  new k hk hk' := h'.inside k (h.new k hk hk')
  blank row hrow := by
    rw [h'.outside row (.inr hrow)]
    exact h.blank row hrow
  rowspans ref href := by
    rw [h'.rowspans ref fun hmem => href (hR hmem), h.rowspans ref href]
  sessionsAvail := h'.sessionsAvail.trans h.sessionsAvail
  members id hid := by rw [h'.members, h.members id hid]

private theorem cachedMembers_eq {physicals : List PhysicalId} {logical : Logical}
    (h : ∀ cache, logical.cachedBy = some cache →
      (cache ∈ physicals ↔ cache ∈ data.physicals.keys)) :
    cachedMembers physicals logical = memberIds data logical := by
  unfold memberIds cachedMembers
  split
  · rfl
  · rename_i cache hcache
    simp only [h cache hcache]

private theorem notMem_ownVolumes {avail : Nat → List Ref} (hsessions : Sessions avail)
    {devices : List String} {ref : Ref}
    (hkind : (∃ id, ref = .logical id) ∨ ∃ p, ref = .physical p) :
    ref ∉ ⋃ device ∈ devices, ownVolume data avail device := by
  intro hmem
  obtain ⟨device, _, hown⟩ := Set.mem_iUnion₂.mp hmem
  rcases mem_ownVolume hsessions hown with h | ⟨_, _, h | ⟨_, _, _, h⟩⟩ <;>
    subst h <;> simp at hkind

theorem fillLogical_returns (order : Order) {id lo : Nat} {logical : Logical}
    (hmembers : cachedMembers s.physicals logical = memberIds data logical)
    (hne : memberIds data logical ≠ [])
    (hnames : (data.accessPatterns.map (·.name)).Nodup)
    (hsessions : Sessions s.sessionsAvail)
    (hblank : ∀ row : ℚ, lo ≤ row → ¬ s.HasLine row) :
    Action.Returns (fillLogical data order id logical lo) s fun next s' =>
      lo < next ∧
      Grown (ownLogical data s.sessionsAvail id (memberIds data logical)
        logical.volumes.keys) [id] lo next s s' ∧
      CellAt G s' .logical (.logical id) lo next ∧
      physicalRows G s' (memberIds data logical) lo next ∧
      volumeRows G data s.sessionsAvail s' logical.volumes.keys lo next ∧
      s'.members id = memberIds data logical ∧
      (∀ p ∈ s.physicals, p ∈ s'.physicals) ∧
      ∀ p ∈ s'.physicals, p ∈ s.physicals ∨ p ∈ memberIds data logical := by
  let R := ownLogical data s.sessionsAvail id (memberIds data logical)
    logical.volumes.keys
  let s₁ : Sheet := { s with
    members := Function.update s.members id (memberIds data logical) }
  have hmembers₁ : s₁.members id = memberIds data logical := by simp [s₁]
  have hlength : 0 < (memberIds data logical).length := List.length_pos_of_ne_nil hne
  obtain ⟨hpos, hdvd, hdiv⟩ :=
    linesQuantity_spec data s.sessionsAvail order logical hlength
  revert hpos hdvd hdiv
  generalize hlines : linesQuantity data order logical s.sessionsAvail
    (memberIds data logical).length = lines
  intro hpos hdvd hdiv
  unfold fillLogical
  refine Action.Returns.modify_bind ?_
  rw [hmembers]
  refine Action.Returns.read_bind ?_
  change Action.Returns _ s₁ _
  rw [show linesQuantity data order logical s₁.sessionsAvail
    (s₁.members id).length = lines by rw [hmembers₁]; exact hlines]
  refine (fillLines_returns (s := s₁) hblank).bind ?_
  rintro _ s₂ ⟨hgrown₂, hroom₂, hphysicals₂⟩
  have hsub : ∀ C : Set Column, C ⊆ Set.univ := fun _ => Set.subset_univ _
  have hstart : Grown R [id] lo (lo + lines) s s₂ := by
    refine ⟨hgrown₂.cells, hgrown₂.lines, hgrown₂.new, hgrown₂.blank,
      fun ref _ => hgrown₂.rowspans ref (by simp), hgrown₂.sessionsAvail,
      fun other hother => ?_⟩
    rw [hgrown₂.members other (by simp)]
    simpa [s₁] using Function.update_of_ne (by simpa using hother) _ _
  have hlt : lo < lo + lines := by omega
  refine (fill_returns (G := G) hlt
    (hroom₂.mono (hsub _) le_rfl le_rfl) (by push_cast; ring)).bind ?_
  rintro _ s₃ ⟨hframe₃, hcell₃⟩
  have hmembers₃ : s₃.members id = memberIds data logical := by
    rw [hframe₃.members, hgrown₂.members id (by simp), hmembers₁]
  have hgrown₃ : Grown R [id] lo (lo + lines) s s₃ :=
    hstart.framed hframe₃ fun ref href => .inl (.inl href)
  have hroom₃ : Room {.physical, .volume, .pattern, .session} lo (lo + lines) s₃ :=
    hframe₃.room (hroom₂.mono (hsub _) le_rfl le_rfl) (.inr (by simp))
  have hphysicals := fillPhysicals_returns (G := G) order id
    (hmembers₃ ▸ nodup_memberIds data logical) (hmembers₃ ▸ hne) hpos
    (hmembers₃ ▸ hdvd) (hroom₃.mono (by simp) le_rfl le_rfl)
  rw [hmembers₃] at hphysicals
  refine hphysicals.bind ?_
  rintro _ s₅ ⟨s₄, hclaimed, hframe₅, hrows₅⟩
  have hgrown₅ : Grown R [id] lo (lo + lines) s s₅ :=
    (hgrown₃.claimed hclaimed fun p hp => .inl (.inr ⟨p, hp, rfl⟩)).framed hframe₅
      fun ref href => .inl (.inr href)
  have havail₅ : s₅.sessionsAvail = s.sessionsAvail := hgrown₅.sessionsAvail
  have hroom₅ : Room {.volume, .pattern, .session} lo (lo + lines) s₅ :=
    hframe₅.room (hclaimed.room (hroom₃.mono (by simp) le_rfl le_rfl))
      (.inr (by simp))
  have hcell₅ : CellAt G s₅ .logical (.logical id) lo (lo + lines) := by
    refine cellAt_stable (C := {.logical}) (R := {.logical id}) rfl rfl s₄ s₅ _ _
      (hframe₅.agree (.inr (by simp)) (Set.disjoint_left.mpr ?_))
      (cellAt_stable (C := {.logical}) (R := {.logical id}) rfl rfl s₃ s₄ _ _
        (hclaimed.agree ?_) hcell₃)
    · rintro ref ⟨rfl, _⟩ ⟨_, _, h⟩
      cases h
    · rintro ref ⟨rfl, _⟩ _ _ h
      cases h
  have hvolumes := fillVolumes_returns (G := G) (s := s₅) order
    hnames (havail₅ ▸ hsessions) hpos (havail₅ ▸ hdiv) hroom₅
  rw [havail₅] at hvolumes
  refine hvolumes.bind ?_
  rintro _ s₆ ⟨hframe₆, hrows₆⟩
  refine Action.Returns.pure ⟨hlt, hgrown₅.framed hframe₆ fun ref href => .inr href,
    ?_, ?_, hrows₆, ?_, ?_, ?_⟩
  · refine cellAt_stable (C := {.logical}) (R := {.logical id}) rfl rfl s₅ s₆ _ _
      (hframe₆.agree (.inr (by simp)) (Set.disjoint_left.mpr ?_)) hcell₅
    rintro ref ⟨rfl, _⟩
    exact notMem_ownVolumes hsessions (.inl ⟨id, rfl⟩)
  · refine physicalRows_stable _ s₅ s₆ _ _
      (hframe₆.agree (.inr (by simp)) (Set.disjoint_left.mpr ?_)) hrows₅
    rintro ref ⟨⟨p, _, rfl⟩, _⟩
    exact notMem_ownVolumes hsessions (.inr ⟨p, rfl⟩)
  · rw [hframe₆.members, hframe₅.members, hclaimed.members, hmembers₃]
  · intro p hp
    rw [hframe₆.physicals, hframe₅.physicals]
    apply hclaimed.kept
    rw [hframe₃.physicals, hphysicals₂]
    exact hp
  · intro p hp
    rw [hframe₆.physicals, hframe₅.physicals] at hp
    rcases hclaimed.added p hp with hold | hnew
    · rw [hframe₃.physicals, hphysicals₂] at hold
      exact .inl hold
    · exact .inr hnew

/-! ## All arrays -/

theorem volumeRows_stable (avail : Nat → List Ref) (devices : List String) :
    Stable {.volume, .pattern, .session}
      ((⋃ device ∈ devices, ownVolume data avail device) ∩ G)
      fun s lo hi => volumeRows G data avail s devices lo hi := by
  intro s s' lo hi hagree h
  obtain ⟨sorted, hperm, hfilled⟩ := h
  refine ⟨sorted, hperm, ?_⟩
  refine filled_stable (C := {.volume, .pattern, .session})
    (ownVolume data avail) (patternRows G data avail) subset_rfl
    (by simp) (fun _ _ => .inl rfl) (fun device hdevice => ?_)
    (fun device _ => patternRows_stable avail device) s s' lo hi hagree hfilled
  exact Set.subset_biUnion_of_mem (u := ownVolume data avail)
    (hperm.mem_iff.mp hdevice)

theorem Blocks.stable {avail : Nat → List Ref} {s' : Sheet} {lo stop : Nat}
    {ids : List Nat} (h : Blocks G data avail s lo ids stop)
    (hagree : ∀ C, Agree C ((⋃ id ∈ ids, own data avail id) ∩ G) 0 stop s s') :
    lo ≤ stop ∧ Blocks G data avail s' lo ids stop := by
  induction ids generalizing lo with
  | nil => exact ⟨le_of_eq h, h⟩
  | cons id ids ih =>
      obtain ⟨logical, next, hlookup, hcell, hphysicals, hvolumes, hrest⟩ := h
      have htail : ∀ C, Agree C ((⋃ id ∈ ids, own data avail id) ∩ G) 0 stop s s' := by
        intro C
        refine (hagree C).mono subset_rfl (Set.inter_subset_inter_left G ?_)
          le_rfl le_rfl
        intro ref href
        obtain ⟨other, hother, hown⟩ := Set.mem_iUnion₂.mp href
        exact Set.mem_iUnion₂.mpr ⟨other, List.mem_cons_of_mem id hother, hown⟩
      obtain ⟨hle, hrest'⟩ := ih hrest htail
      have hhead : ∀ C R, R ⊆ ownLogical data avail id (memberIds data logical)
          logical.volumes.keys → Agree C (R ∩ G) lo next s s' := by
        intro C R hR
        refine (hagree C).mono subset_rfl (Set.inter_subset_inter_left G ?_)
          (Nat.zero_le lo) hle
        intro ref href
        exact Set.mem_iUnion₂.mpr ⟨id, by simp, logical, hlookup, hR href⟩
      refine ⟨hcell.positive.le.trans hle, logical, next, hlookup, ?_, ?_, ?_, hrest'⟩
      · exact cellAt_stable (C := {.logical}) (R := {.logical id}) rfl rfl
          s s' _ _ (hhead _ _ fun ref href => .inl (.inl href)) hcell
      · exact physicalRows_stable _ s s' _ _
          (hhead _ _ fun ref href => .inl (.inr href)) hphysicals
      · exact volumeRows_stable avail _ s s' _ _
          (hhead _ _ fun ref href => .inr href) hvolumes

/-- What is known of the input when rowspans are promised for `G`. -/
structure Layable (G : Set Ref) (data : Data) (avail : Nat → List Ref) :
    Prop where
  members : ∀ id logical, data.logicals.lookup id = some logical →
    memberIds data logical ≠ []
  caches : ∀ id₁ logical₁ id₂ logical₂, data.logicals.lookup id₁ = some logical₁ →
    data.logicals.lookup id₂ = some logical₂ → id₁ ≠ id₂ →
    ∀ cache, logical₁.cachedBy = some cache → cache ∉ logical₂.physicals.keys
  apart : ∀ id₁ id₂, id₁ ≠ id₂ →
    Disjoint (own data avail id₁ ∩ G) (own data avail id₂)
  names : (data.accessPatterns.map (·.name)).Nodup
  sessions : Sessions avail

theorem fillLogicals_returns (order : Order) {ids : List Nat} {lo : Nat}
    (hlay : Layable G data s.sessionsAvail) (hids : ids.Nodup)
    (hlookup : ∀ id ∈ ids, ∃ logical, data.logicals.lookup id = some logical)
    (hkept : ∀ p ∈ data.physicals.keys, p ∈ s.physicals)
    (hadded : ∀ p ∈ s.physicals, p ∈ data.physicals.keys ∨ ∃ id logical,
      id ∉ ids ∧ data.logicals.lookup id = some logical ∧
      p ∈ logical.physicals.keys)
    (hblank : ∀ row : ℚ, lo ≤ row → ¬ s.HasLine row) :
    Action.Returns (fillLogicals data order ids lo) s fun stop s' =>
      Grown (⋃ id ∈ ids, own data s.sessionsAvail id) ids lo stop s s' ∧
      Blocks G data s.sessionsAvail s' lo ids stop ∧
      ∀ id ∈ ids, ∀ logical, data.logicals.lookup id = some logical →
        s'.members id = memberIds data logical := by
  induction ids generalizing s lo with
  | nil =>
      refine Action.Returns.pure ⟨⟨fun _ _ _ => rfl, fun _ _ => .rfl,
        fun k hk hk' => by omega, hblank, fun _ _ => rfl, rfl, fun _ _ => rfl⟩,
        rfl, by simp⟩
  | cons id ids ih =>
      obtain ⟨hnot, hids⟩ := List.nodup_cons.mp hids
      obtain ⟨logical, hlogical⟩ := hlookup id (by simp)
      have hmembers : cachedMembers s.physicals logical = memberIds data logical := by
        refine cachedMembers_eq fun cache hcache => ⟨fun h => ?_, hkept cache⟩
        refine (hadded cache h).resolve_right ?_
        rintro ⟨other, logical', hother, hlogical', hmem⟩
        have hne : id ≠ other := fun heq => hother (heq ▸ List.mem_cons_self)
        exact hlay.caches id logical other logical' hlogical hlogical' hne
          cache hcache hmem
      unfold fillLogicals
      refine Action.Returns.lift_bind (by rw [hlogical]; rfl) ?_
      refine (fillLogical_returns (G := G) order hmembers
        (hlay.members id logical hlogical) hlay.names hlay.sessions hblank).bind ?_
      rintro next s₁ ⟨hlt, hgrown, hcell, hphysicals, hvolumes, hmem, hkept', hadded'⟩
      have havail := hgrown.sessionsAvail
      have hown : ownLogical data s.sessionsAvail id (memberIds data logical)
          logical.volumes.keys = own data s.sessionsAvail id := by
        ext ref
        simp [own, hlogical]
      rw [hown] at hgrown
      have hrest := ih (s := s₁) (havail ▸ hlay) hids
        (fun other hother => hlookup other (by simp [hother]))
        (fun p hp => hkept' p (hkept p hp)) (by
          intro p hp
          rcases hadded' p hp with hold | hnew
          · rcases hadded p hold with hdata | ⟨other, logical', hother, h⟩
            · exact .inl hdata
            · exact .inr ⟨other, logical', fun h => hother (by simp [h]), h⟩
          · rcases mem_memberIds hnew with hkeys | ⟨_, hdata⟩
            · exact .inr ⟨id, logical, hnot, hlogical, hkeys⟩
            · exact .inl hdata) hgrown.blank
      rw [havail] at hrest
      refine hrest.mono ?_
      rintro stop s' ⟨hgrown', hblocks, hmembers'⟩
      have hapart : Disjoint (own data s.sessionsAvail id ∩ G)
          (⋃ other ∈ ids, own data s.sessionsAvail other) := by
        rw [Set.disjoint_iUnion₂_right]
        intro other hother
        exact hlay.apart id other fun heq => hnot (heq ▸ hother)
      refine ⟨?_, ⟨logical, next, hlogical, ?_, ?_, ?_, hblocks⟩, ?_⟩
      · have htrans := hgrown.trans hlt.le hgrown'
        have hunion : own data s.sessionsAvail id ∪
            ⋃ other ∈ ids, own data s.sessionsAvail other =
            ⋃ other ∈ id :: ids, own data s.sessionsAvail other := by
          ext ref
          simp
        rwa [List.singleton_append, hunion] at htrans
      · refine cellAt_stable (C := {.logical}) (R := {.logical id}) rfl rfl
          s₁ s' _ _ (hgrown'.agree le_rfl (hapart.mono_left ?_)) hcell
        exact Set.inter_subset_inter_left G
          (hown ▸ fun ref href => .inl (.inl href))
      · refine physicalRows_stable _ s₁ s' _ _
          (hgrown'.agree le_rfl (hapart.mono_left ?_)) hphysicals
        exact Set.inter_subset_inter_left G
          (hown ▸ fun ref href => .inl (.inr href))
      · refine volumeRows_stable s.sessionsAvail _ s₁ s' _ _
          (hgrown'.agree le_rfl (hapart.mono_left ?_)) hvolumes
        exact Set.inter_subset_inter_left G (hown ▸ fun ref href => .inr href)
      · intro other hother logical' hlogical'
        rcases List.mem_cons.mp hother with heq | hin
        · subst heq
          rw [hgrown'.members other hnot, hmem]
          rw [hlogical] at hlogical'
          rw [Option.some.inj hlogical']
        · exact hmembers' other hin logical' hlogical'

end OpenSan.Matrix
