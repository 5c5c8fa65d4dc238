import OpenSan.Matrix.BlockBorders

/-!
# The borders of the table

Line by line `filter_borders_highlight` marks one block after the other, and then
the free disks.
-/

namespace OpenSan.Matrix

open OpenSan.Foundation OpenSan.Einarc Sheet

variable {data : Data} {order : Order} {sheet : Sheet} {id lo hi : Nat}
  {logical : Logical} {content : Content}

def highlightLine (data : Data) (sheet : Sheet) (k : Nat) : Filter Unit := do
  onCell sheet .physical k checkHighlightsAttribute
  onCell sheet .logical k (highlightLogical data sheet k)

/-! ## The lines of a block -/

theorem onCell_of_some {column : Column} {row : ℚ} {ref : Ref} {body : Ref → Filter Unit}
    (hcell : sheet.cell column row = some ref) : onCell sheet column row body = body ref := by
  simp [onCell, hcell]

theorem onCell_of_none {column : Column} {row : ℚ} {body : Ref → Filter Unit}
    (hcell : sheet.cell column row = none) : onCell sheet column row body = pure () := by
  simp [onCell, hcell]

theorem highlightLine_first (hcells : BlockCells data sheet id logical lo hi content)
    (hnames : (data.accessPatterns.map (·.name)).Nodup)
    (hsessions : Sessions sheet.sessionsAvail)
    (hvolume : ∀ device ∈ content.devices, ∃ volume, data.volume device = some volume) :
    Paints sheet (own data sheet.sessionsAvail id) (highlightLine data sheet lo)
      (AllUnmarked (own data sheet.sessionsAvail id))
      (BlockLit sheet.sessionsAvail id content true) := by
  have hn : 0 < content.members.length := List.length_pos_of_ne_nil hcells.nonempty
  have hmem : .physical content.members[0] ∈ own data sheet.sessionsAvail id :=
    hcells.physical_mem_own (List.getElem_mem hn)
  have hcell₀ : sheet.cell .physical (lo : ℚ) = some (.physical content.members[0]) := by
    simpa using (hcells.physicals 0 hn).shown
  unfold highlightLine
  rw [onCell_of_some hcell₀, onCell_of_some hcells.cell.shown]
  refine Action.Local.seq (Q := BlockWaiting data sheet.sessionsAvail id content) ?_
    (highlightLogical_paints hcells hnames hsessions hvolume)
  apply paints_of_painted
  intro f m hpainted hunmarked
  have hfresh : (f (.physical content.members[0])).getD {} = {} := hunmarked _ hmem
  refine (hpainted.check _).mono fun _ m₁ h₁ => ?_
  rw [hfresh] at h₁
  refine ⟨_, h₁, ⟨fun ref href => ?_, fun _ => Function.update_self ..⟩, fun ref href => ?_⟩
  · by_cases heq : ref = .physical content.members[0]
    · subst heq
      simp [Unmarked]
    · rw [Unmarked, Function.update_of_ne heq]
      exact hunmarked ref href
  · refine Function.update_of_ne ?_ _ _
    rintro rfl
    exact href hmem

theorem highlightLine_rest (hcells : BlockCells data sheet id logical lo hi content) {k : Nat}
    (hlo : lo < k) (hhi : k < hi) :
    Paints sheet (own data sheet.sessionsAvail id) (highlightLine data sheet k)
      (BlockLit sheet.sessionsAvail id content true)
      (BlockLit sheet.sessionsAvail id content true) := by
  have hlogical : sheet.cell .logical (k : ℚ) = none :=
    hcells.cell.alone k (by exact_mod_cast hlo) (by exact_mod_cast hhi)
  unfold highlightLine
  rw [onCell_of_none hlogical]
  apply paints_of_painted
  intro f m hpainted hlit
  cases hcell : sheet.cell .physical (k : ℚ) with
  | none =>
      rw [onCell_of_none hcell]
      exact Action.Returns.pure ⟨f, hpainted, hlit, fun _ _ => rfl⟩
  | some ref =>
      rw [onCell_of_some hcell]
      have hmember : ∃ i, ∃ h : i < content.members.length,
          ref = .physical content.members[i] := by
        obtain ⟨i, hi, hbelow, habove, hat, _⟩ :=
          @Tiled.tile_of_row Set.univ sheet PhysicalId .physical .physical
            (fun _ _ _ => True) lo hi content.rows content.members hcells.positive
            hcells.stop k (by exact_mod_cast hlo.le) (by exact_mod_cast hhi)
            fun i hi => ⟨hcells.physicals i hi, trivial⟩
        exact ⟨i, hi, (hat.eq_of_cell hbelow habove hcell).2⟩
      obtain ⟨i, hi, rfl⟩ := hmember
      refine (hpainted.check _).bind fun _ m₁ h₁ => Action.Returns.pure ?_
      rw [hlit.physicals i hi, Option.getD_some, ← hlit.physicals i hi,
        Function.update_eq_self] at h₁
      exact ⟨f, h₁, hlit, fun _ _ => rfl⟩

theorem highlightLines_paints (hcells : BlockCells data sheet id logical lo hi content)
    (hnames : (data.accessPatterns.map (·.name)).Nodup)
    (hsessions : Sessions sheet.sessionsAvail)
    (hvolume : ∀ device ∈ content.devices, ∃ volume, data.volume device = some volume) :
    Paints sheet (own data sheet.sessionsAvail id)
      (Action.forEach (List.range' lo (hi - lo)) (highlightLine data sheet))
      (AllUnmarked (own data sheet.sessionsAvail id))
      (BlockLit sheet.sessionsAvail id content true) := by
  have hpos := hcells.cell.positive
  obtain ⟨rows, hrows⟩ : ∃ rows, hi - lo = rows + 1 := ⟨hi - lo - 1, by omega⟩
  rw [hrows, List.range'_succ]
  refine (highlightLine_first hcells hnames hsessions hvolume).seq
    (Action.Local.forEach_keep fun k hk => ?_)
  have hk := List.mem_range'_1.mp hk
  exact highlightLine_rest hcells (by omega) (by omega)

/-! ## All lines -/

/-- The block of an array has its marks. -/
def ArrayLit (data : Data) (sheet : Sheet) (id : Nat) (f : Ref → Option Highlight) : Prop :=
  ∃ logical lo hi content, 1 ≤ lo ∧ BlockCells data sheet id logical lo hi content ∧
    BlockLit sheet.sessionsAvail id content true f

theorem arrayLit_within (id : Nat) :
    Action.Within (own data sheet.sessionsAvail id) (ArrayLit data sheet id) := by
  rintro f g hsame ⟨logical, lo, hi, content, hlo, hcells, hlit⟩
  exact ⟨logical, lo, hi, content, hlo, hcells, blockLit_within hcells true f g hsame hlit⟩

theorem ArrayLit.isSome {f : Ref → Option Highlight} (h : ArrayLit data sheet id f) {ref : Ref}
    (href : ref ∈ own data sheet.sessionsAvail id) : (f ref).isSome = true := by
  obtain ⟨_, _, _, _, _, hcells, hlit⟩ := h
  exact isSome_of_blockLit hcells hlit href

theorem highlightBlocks_paints (hregular : data.Regular)
    (hsessions : Sessions sheet.sessionsAvail) {ids : List Nat} (hnodup : ids.Nodup)
    {start n : Nat} (hstart : 1 ≤ start)
    (hblocks : Blocks Set.univ data sheet.sessionsAvail sheet start ids n) :
    Paints sheet (⋃ id ∈ ids, own data sheet.sessionsAvail id)
      (Action.forEach (List.range' start (n - start)) (highlightLine data sheet))
      (fun f => ∀ id ∈ ids, AllUnmarked (own data sheet.sessionsAvail id) f)
      (fun f => ∀ id ∈ ids, ArrayLit data sheet id f) := by
  induction ids generalizing start with
  | nil =>
      obtain rfl : start = n := hblocks
      rw [Nat.sub_self]
      exact fun m hspanned _ => ⟨(), m, rfl, hspanned, by simp, fun _ _ => rfl⟩
  | cons id ids ih =>
      obtain ⟨hnot, hnodup⟩ := List.nodup_cons.mp hnodup
      obtain ⟨logical, next, hlookup, hcell, hphysicals, hvolumes, hrest⟩ := hblocks
      have hmembers : memberIds data logical ≠ [] :=
        hregular.members ⟨id, logical⟩ (AList.mem_lookup_iff.mp hlookup)
      obtain ⟨content, hcells⟩ :=
        Block.cells ⟨hlookup, hcell, hphysicals, hvolumes⟩ hmembers
      have hpos := hcell.positive
      have hle := hrest.le
      have hlines : List.range' start (n - start) =
          List.range' start (next - start) ++ List.range' next (n - next) := by
        rw [show n - start = (next - start) + (n - next) by omega, ← List.range'_append_1,
          Nat.add_sub_cancel' hpos.le]
      have hvolume : ∀ device ∈ content.devices, ∃ volume, data.volume device = some volume := by
        intro device hdevice
        obtain ⟨volume, _, hvolume⟩ := volume_eq_some hregular hlookup
          (hcells.devicesPerm.mem_iff.mp hdevice)
        exact ⟨volume, hvolume⟩
      have hfirst : Paints sheet (own data sheet.sessionsAvail id)
          (Action.forEach (List.range' start (next - start)) (highlightLine data sheet))
          (AllUnmarked (own data sheet.sessionsAvail id)) (ArrayLit data sheet id) :=
        (highlightLines_paints hcells hregular.names hsessions hvolume).mono subset_rfl
          (fun _ hunmarked => hunmarked) fun _ hlit =>
            ⟨logical, start, next, content, hstart, hcells, hlit⟩
      have hlater : Action.Within (⋃ other ∈ ids, own data sheet.sessionsAvail other)
          fun f => ∀ other ∈ ids, AllUnmarked (own data sheet.sessionsAvail other) f :=
        fun f g hsame hall other hother =>
          allUnmarked_within _ f g (fun ref href => hsame ref (Set.mem_biUnion hother href))
            (hall other hother)
      have hapart : Disjoint (own data sheet.sessionsAvail id)
          (⋃ other ∈ ids, own data sheet.sessionsAvail other) := by
        rw [Set.disjoint_iUnion₂_right]
        intro other hother
        have hdiff : id ≠ other := by
          rintro rfl
          exact hnot hother
        simpa using (hregular.layable hsessions).apart id other hdiff
      rw [hlines, Action.forEach_append]
      simpa using hfirst.beside (ih hnodup (by omega) hrest) hlater (arrayLit_within id) hapart

def diskIn (sheet : Sheet) (k : Nat) : Set Ref := {ref | sheet.cell .physical k = some ref}

theorem highlightFree_paints {ids : List Nat} {n stop : Nat}
    (hdrawn : Drawn Set.univ data order ids n stop sheet) :
    Paints sheet (⋃ k ∈ List.range' n (stop - n), diskIn sheet k)
      (Action.forEach (List.range' n (stop - n)) (highlightLine data sheet))
      (fun f => ∀ k ∈ List.range' n (stop - n), AllUnmarked (diskIn sheet k) f)
      (fun f => ∀ k ∈ List.range' n (stop - n), ∀ ref ∈ diskIn sheet k, f ref = some {}) := by
  have hbelow : ∀ {k : Nat}, k ∈ List.range' n (stop - n) → (n : ℚ) ≤ k := by
    intro k hk
    exact_mod_cast (List.mem_range'_1.mp hk).1
  refine Action.Local.forEach (fun k _ => allUnmarked_within _) (fun k _ => ?_) ?_
    fun k hk => ?_
  · intro f g hsame hlit ref href
    rw [hsame ref href, hlit ref href]
  · refine List.Pairwise.imp_of_mem ?_ (List.nodup_range' (s := n) (n := stop - n))
    intro k k' hk hk' hne
    rw [Set.disjoint_left]
    intro ref href href'
    refine hne ?_
    have hrow := hdrawn.once k k' (hbelow hk) (hbelow hk') ref href href'
    exact_mod_cast hrow
  · have hlogical : sheet.cell .logical (k : ℚ) = none :=
      hdrawn.blank .logical (by simp) (by simp) k (hbelow hk)
    unfold highlightLine
    rw [onCell_of_none hlogical]
    apply paints_of_painted
    intro f m hpainted hunmarked
    cases hcell : sheet.cell .physical (k : ℚ) with
    | none =>
        rw [onCell_of_none hcell]
        refine Action.Returns.pure ⟨f, hpainted, fun ref href => ?_, fun _ _ => rfl⟩
        exact absurd (hcell.symm.trans href) (by simp)
    | some ref =>
        rw [onCell_of_some hcell]
        have hfresh : (f ref).getD {} = {} := hunmarked ref hcell
        refine (hpainted.check ref).bind fun _ m₁ h₁ => Action.Returns.pure ?_
        rw [hfresh] at h₁
        refine ⟨_, h₁, fun other hother => ?_, fun other hother => ?_⟩
        · obtain rfl : ref = other := Option.some.inj (hcell.symm.trans hother)
          exact Function.update_self ..
        · refine Function.update_of_ne ?_ _ _
          rintro rfl
          exact hother hcell

theorem filterBordersHighlight_paints {ids : List Nat} {n stop : Nat}
    (hdrawn : Drawn Set.univ data order ids n stop sheet) (hregular : data.Regular) :
    Paints sheet ((⋃ id ∈ ids, own data sheet.sessionsAvail id) ∪
        ⋃ k ∈ List.range' n (stop - n), diskIn sheet k)
      (filterBordersHighlight data sheet) (fun f => ∀ ref, Unmarked f ref)
      (fun f => (∀ id ∈ ids, ArrayLit data sheet id f) ∧
        ∀ k ∈ List.range' n (stop - n), ∀ ref ∈ diskIn sheet k, f ref = some {}) := by
  have hsessions : Sessions sheet.sessionsAvail := sessions_of_perm hdrawn.sessions
  have hone := hdrawn.blocks.le
  have hle := hdrawn.le
  have hnumbers : sheet.lineNumbers = List.range' 1 (n - 1) ++ List.range' n (stop - n) := by
    rw [lineNumbers_eq hdrawn, show stop - 1 = (n - 1) + (stop - n) by omega,
      ← List.range'_append_1, Nat.add_sub_cancel' hone]
  have hblocks := highlightBlocks_paints hregular hsessions
    (hdrawn.perm.nodup_iff.mpr data.logicals.keys_nodup) le_rfl hdrawn.blocks
  have hfree := highlightFree_paints hdrawn
  have hwaiting : Action.Within (⋃ k ∈ List.range' n (stop - n), diskIn sheet k)
      fun f => ∀ k ∈ List.range' n (stop - n), AllUnmarked (diskIn sheet k) f :=
    fun f g hsame hall k hk =>
      allUnmarked_within _ f g (fun ref href => hsame ref (Set.mem_biUnion hk href)) (hall k hk)
  have hdone : Action.Within (⋃ id ∈ ids, own data sheet.sessionsAvail id)
      fun f => ∀ id ∈ ids, ArrayLit data sheet id f :=
    fun f g hsame hall id hid =>
      arrayLit_within id f g (fun ref href => hsame ref (Set.mem_biUnion hid href)) (hall id hid)
  have hapart : Disjoint (⋃ id ∈ ids, own data sheet.sessionsAvail id)
      (⋃ k ∈ List.range' n (stop - n), diskIn sheet k) := by
    rw [Set.disjoint_left]
    intro ref hin hout
    obtain ⟨id, _, hown⟩ := Set.mem_iUnion₂.mp hin
    obtain ⟨k, hk, hcell⟩ := Set.mem_iUnion₂.mp hout
    have hrow : (n : ℚ) ≤ k := by exact_mod_cast (List.mem_range'_1.mp hk).1
    obtain ⟨disk, hdisk⟩ := hdrawn.free k hrow ref hcell
    exact (not_mem_own hsessions hown).1 disk hdisk
  have hall := hblocks.beside hfree hwaiting hdone hapart
  rw [← Action.forEach_append, ← hnumbers] at hall
  exact hall.mono subset_rfl (fun f hunmarked =>
    ⟨fun _ _ ref _ => hunmarked ref, fun _ _ ref _ => hunmarked ref⟩) fun _ hdone => hdone

/-! ## Nothing is marked before -/

def Dark (s s' : Sheet) : Prop :=
  (∀ ref, (s.records ref).highlight = none) → ∀ ref, (s'.records ref).highlight = none

theorem Dark.update (s : Sheet) (ref : Ref) {f : Record → Record}
    (hf : ∀ r, r.highlight = none → (f r).highlight = none) : Dark s (s.update ref f) := by
  intro hdark other
  by_cases heq : other = ref
  · subst heq
    rw [records_update_self]
    exact hf _ (hdark other)
  · simpa [Sheet.update, Function.update_of_ne heq] using hdark other

theorem Dark.arraying : Arraying Dark where
  refl _ hdark := hdark
  trans _ _ _ h h' hdark := h' (h hdark)
  lines _ _ hdark := hdark
  span s ref f hf := Dark.update s ref fun r hr => by
    obtain ⟨rowspan, colspan, heq⟩ := hf r
    rw [heq]
    exact hr
  members _ _ hdark := hdark
  claim logicalId id s := by
    simp only [claimPhysical, Action.modify_run]
    split
    · split
      · exact Dark.update s (.physical id) (f := fun r => { r with state := "allocated" })
          fun _ hr => hr
      · exact fun hdark => hdark
    · exact Dark.update s (.physical id) (f := fun _ => failedDisk) fun _ _ => rfl

theorem dark_initial (data : Data) (ref : Ref) : (data.initial.records ref).highlight = none := by
  cases ref <;> simp only [Data.initial, Data.record]
  all_goals split <;> rfl

theorem Stages.unmarked {ids : List Nat} {n : Nat} {s₁ s₂ s : Sheet}
    (h : Stages data order ids n s₁ s₂ s) (ref : Ref) :
    Unmarked (lit ⟨s.records, ∅⟩) ref := by
  have harrays : Dark s₁ (fillLogicals data order ids 1 s₁).2 :=
    Dark.arraying.fillLogicals ids 1 s₁
  have hrests : Action.Evolves Dark
      (do fillFree order n; fillUnbound data order n : Program Unit) :=
    Dark.arraying.toDrawing.fillRest n
  have hrest := hrests s₂
  rw [h.arrays] at harrays
  rw [h.rest] at hrest
  have hdark : (s.records ref).highlight = none := by
    refine hrest (harrays fun ref => ?_) ref
    rw [h.start]
    exact dark_initial data ref
  rw [Unmarked, lit, hdark]
  rfl

end OpenSan.Matrix
