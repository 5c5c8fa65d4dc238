import OpenSan.Matrix.Complete
import OpenSan.Matrix.Filters

/-!
# Reading the table

What a filter that walks over the lines of the finished table finds in them.
-/

namespace OpenSan.Matrix

open OpenSan.Foundation OpenSan.Einarc Sheet

variable {G : Set Ref} {data : Data} {order : Order} {sheet : Sheet}
  {ids : List Nat} {n stop : Nat}

structure Block (G : Set Ref) (data : Data) (sheet : Sheet) (id : Nat)
    (logical : Logical) (lo hi : Nat) : Prop where
  lookup : data.logicals.lookup id = some logical
  cell : CellAt G sheet .logical (.logical id) lo hi
  physicals : physicalRows G sheet (memberIds data logical) lo hi
  volumes : volumeRows G data sheet.sessionsAvail sheet logical.volumes.keys lo hi

theorem Blocks.block_of_id {id lo : Nat}
    (h : Blocks G data sheet.sessionsAvail sheet lo ids n) (hid : id ∈ ids) :
    ∃ logical start next, lo ≤ start ∧ next ≤ n ∧
      Block G data sheet id logical start next := by
  induction ids generalizing lo with
  | nil => cases hid
  | cons other ids ih =>
      obtain ⟨logical, next, hlookup, hcell, hphysicals, hvolumes, hrest⟩ := h
      rcases List.mem_cons.mp hid with rfl | hin
      · exact ⟨logical, lo, next, le_rfl, hrest.le, hlookup, hcell, hphysicals,
          hvolumes⟩
      · obtain ⟨logical', start, next', hstart, hnext, hblock⟩ := ih hrest hin
        exact ⟨logical', start, next', hcell.positive.le.trans hstart, hnext, hblock⟩

theorem Blocks.block_of_row {lo : Nat} {row : ℚ}
    (h : Blocks G data sheet.sessionsAvail sheet lo ids n) (hlo : lo ≤ row)
    (hhi : row < n) :
    ∃ id logical, ∃ start next : Nat, id ∈ ids ∧ lo ≤ start ∧ next ≤ n ∧
      (start : ℚ) ≤ row ∧ row < (next : ℚ) ∧
      Block G data sheet id logical start next := by
  induction ids generalizing lo with
  | nil =>
      obtain rfl : lo = n := h
      linarith
  | cons id ids ih =>
      obtain ⟨logical, next, hlookup, hcell, hphysicals, hvolumes, hrest⟩ := h
      rcases lt_or_ge row next with hlt | hge
      · exact ⟨id, logical, lo, next, by simp, le_rfl, hrest.le, hlo, hlt, hlookup,
          hcell, hphysicals, hvolumes⟩
      · obtain ⟨other, logical', start, next', hother, hstart, hblock⟩ := ih hrest hge
        exact ⟨other, logical', start, next', by simp [hother],
          hcell.positive.le.trans hstart, hblock⟩

theorem Block.eq_of_row {row : ℚ} {id id' start start' next next' : Nat}
    {logical logical' : Logical}
    (hblock : Block G data sheet id logical start next)
    (hblock' : Block G data sheet id' logical' start' next')
    (hlo : start ≤ row) (hhi : row < next) (hlo' : start' ≤ row)
    (hhi' : row < next') : id = id' := by
  rcases lt_trichotomy start start' with hlt | heq | hgt
  · have hltq : (start : ℚ) < start' := by exact_mod_cast hlt
    have hnone := hblock.cell.alone start' hltq (by linarith)
    rw [hblock'.cell.shown] at hnone
    cases hnone
  · subst heq
    have hsame := hblock.cell.shown
    rw [hblock'.cell.shown] at hsame
    injection hsame with hsame
    injection hsame with hsame
    exact hsame.symm
  · have hgtq : (start' : ℚ) < start := by exact_mod_cast hgt
    have hnone := hblock'.cell.alone start hgtq (by linarith)
    rw [hblock.cell.shown] at hnone
    cases hnone

theorem Sheet.Tiled.tile_of_row {α : Type} {column : Column} {ref : α → Ref}
    {inner : α → Nat → Nat → Prop} {lo hi rows : Nat} {items : List α}
    (hpos : 0 < rows) (hstop : lo + items.length * rows = hi)
    {row : ℚ} (hlo : lo ≤ row) (hhi : row < hi)
    (hcells : ∀ i (hi : i < items.length),
      CellAt G sheet column (ref items[i]) (lo + i * rows) (lo + (i + 1) * rows) ∧
      inner items[i] (lo + i * rows) (lo + (i + 1) * rows)) :
    ∃ i, ∃ hi' : i < items.length, ((lo + i * rows : Nat) : ℚ) ≤ row ∧
      row < ((lo + (i + 1) * rows : Nat) : ℚ) ∧
      CellAt G sheet column (ref items[i]) (lo + i * rows) (lo + (i + 1) * rows) ∧
      inner items[i] (lo + i * rows) (lo + (i + 1) * rows) := by
  have hrows : (0 : ℚ) < rows := by exact_mod_cast hpos
  let i := ⌊(row - lo) / rows⌋.toNat
  have hnonneg : 0 ≤ (row - lo) / rows := div_nonneg (by linarith) hrows.le
  have hfloor : (⌊(row - lo) / rows⌋ : ℚ) = (i : ℚ) := by
    have hcast : (i : Int) = ⌊(row - lo) / rows⌋ :=
      Int.toNat_of_nonneg (Int.floor_nonneg.mpr hnonneg)
    exact_mod_cast hcast.symm
  have hbelow : (lo : ℚ) + i * rows ≤ row := by
    have hle := Int.floor_le ((row - lo) / rows)
    rw [hfloor, le_div_iff₀ hrows] at hle
    linarith
  have habove : row < (lo : ℚ) + (i + 1) * rows := by
    have hlt := Int.lt_floor_add_one ((row - lo) / rows)
    rw [hfloor, div_lt_iff₀ hrows] at hlt
    linarith
  have hi' : i < items.length := by
    by_contra hnot
    have hge : items.length * rows ≤ i * rows := Nat.mul_le_mul_right rows (by omega)
    have hgeq : (hi : ℚ) ≤ lo + i * rows := by
      rw [← hstop]
      exact_mod_cast Nat.add_le_add_left hge lo
    linarith
  obtain ⟨hcell, hin⟩ := hcells i hi'
  exact ⟨i, hi', by push_cast; exact hbelow, by push_cast; exact habove, hcell, hin⟩

theorem Sheet.CellAt.eq_of_cell {column : Column} {ref r : Ref} {lo hi : Nat} {row : ℚ}
    (h : CellAt G sheet column ref lo hi) (hlo : lo ≤ row) (hhi : row < hi)
    (hcell : sheet.cell column row = some r) : row = lo ∧ r = ref := by
  have hrow : row = lo := by
    by_contra hne
    rw [h.alone row (lt_of_le_of_ne hlo (Ne.symm hne)) hhi] at hcell
    cases hcell
  rw [hrow, h.shown] at hcell
  exact ⟨hrow, (Option.some.inj hcell).symm⟩

theorem Sheet.Filled.tile_of_cell {α : Type} {C : Set Column} {column other : Column}
    {ref : α → Ref} {inner : α → Nat → Nat → Prop} {lo hi : Nat} {items : List α}
    (h : Filled G sheet C column ref inner lo items hi) (hother : other ∈ C)
    {row : ℚ} {r : Ref} (hlo : lo ≤ row) (hhi : row < hi)
    (hcell : sheet.cell other row = some r) :
    ∃ item ∈ items, ∃ lo' hi' : Nat, (lo' : ℚ) ≤ row ∧ row < (hi' : ℚ) ∧
      CellAt G sheet column (ref item) lo' hi' ∧ inner item lo' hi' := by
  unfold Filled at h
  by_cases hnil : items = []
  · rw [if_pos hnil] at h
    rw [h other hother row hlo hhi] at hcell
    cases hcell
  rw [if_neg hnil] at h
  obtain ⟨rows, hpos, hstop, hcells⟩ := h
  obtain ⟨i, hi', hbelow, habove, hat, hin⟩ :=
    Tiled.tile_of_row hpos hstop hlo hhi hcells
  exact ⟨items[i], List.getElem_mem hi', _, _, hbelow, habove, hat, hin⟩

theorem Sheet.Filled.once {α : Type} {C : Set Column} {column : Column} {ref : α → Ref}
    {inner : α → Nat → Nat → Prop} {lo hi : Nat} {items : List α}
    (hnodup : (items.map ref).Nodup)
    (h : Filled G sheet C column ref inner lo items hi) (hcolumn : column ∈ C)
    {row row' : ℚ} {r : Ref} (hlo : lo ≤ row) (hhi : row < hi)
    (hlo' : lo ≤ row') (hhi' : row' < hi) (hcell : sheet.cell column row = some r)
    (hcell' : sheet.cell column row' = some r) : row = row' := by
  unfold Filled at h
  by_cases hnil : items = []
  · rw [if_pos hnil] at h
    rw [h column hcolumn row hlo hhi] at hcell
    cases hcell
  rw [if_neg hnil] at h
  obtain ⟨rows, hpos, hstop, hcells⟩ := h
  obtain ⟨i, hi₁, hbelow, habove, hat, _⟩ :=
    Tiled.tile_of_row hpos hstop hlo hhi hcells
  obtain ⟨j, hj₁, hbelow', habove', hat', _⟩ :=
    Tiled.tile_of_row hpos hstop hlo' hhi' hcells
  obtain ⟨hrow, hr⟩ := hat.eq_of_cell hbelow habove hcell
  obtain ⟨hrow', hr'⟩ := hat'.eq_of_cell hbelow' habove' hcell'
  have hij : i = j := by
    have hi₂ : i < (items.map ref).length := by simpa using hi₁
    have hj₂ : j < (items.map ref).length := by simpa using hj₁
    have hsame : (items.map ref)[i] = (items.map ref)[j] := by simp [← hr, ← hr']
    exact hnodup.getElem_inj_iff.mp hsame
  rw [hrow, hrow', hij]

/-! ## The lines -/

theorem lineNumbers_eq_append {n : Nat} (h : ∀ k : Nat, 1 ≤ k → k < n → sheet.HasLine k) :
    ∃ m, sheet.lineNumbers = List.range' 1 (n - 1) ++ (List.range' (1 + (n - 1)) m).takeWhile
      fun k => (sheet.lines.lookup ((k : Nat) : ℚ)).isSome := by
  have hcount : n - 1 ≤ sheet.lines.keys.length := by
    have hnodup : ((List.range' 1 (n - 1)).map fun k : Nat => (k : ℚ)).Nodup :=
      (List.nodup_range').map Nat.cast_injective
    have hsub : ((List.range' 1 (n - 1)).map fun k : Nat => (k : ℚ)) ⊆
        sheet.lines.keys := by
      intro row hrow
      obtain ⟨k, hk, rfl⟩ := List.mem_map.mp hrow
      obtain ⟨hk1, hk2⟩ := List.mem_range'_1.mp hk
      exact AList.mem_keys.mp (AList.lookup_isSome.mp (h k hk1 (by omega)))
    have hle := (List.subperm_of_subset hnodup hsub).length_le
    simpa using hle
  have hall : ∀ k ∈ List.range' 1 (n - 1),
      (sheet.lines.lookup ((k : Nat) : ℚ)).isSome = true := by
    intro k hk
    obtain ⟨hk1, hk2⟩ := List.mem_range'_1.mp hk
    exact h k hk1 (by omega)
  refine ⟨sheet.lines.keys.length - (n - 1), ?_⟩
  rw [Sheet.lineNumbers, ← List.takeWhile_append_of_pos hall, List.range'_append_1,
    Nat.add_sub_cancel' hcount]

theorem lineNumbers_eq (h : Drawn G data order ids n stop sheet) :
    sheet.lineNumbers = List.range' 1 (stop - 1) := by
  obtain ⟨m, hlines⟩ := lineNumbers_eq_append fun k hk hk' => (h.lines k hk).mpr hk'
  have hnone : (List.range' (1 + (stop - 1)) m).takeWhile
      (fun k => (sheet.lines.lookup ((k : Nat) : ℚ)).isSome) = [] := by
    cases m with
    | zero => rfl
    | succ rest =>
        rw [List.range'_succ, List.takeWhile_cons_of_neg]
        intro hline
        have := (h.lines (1 + (stop - 1)) (by omega)).mp hline
        omega
  rw [hlines, hnone, List.append_nil]

theorem mem_lineNumbers (h : Drawn G data order ids n stop sheet) {k : Nat} :
    k ∈ sheet.lineNumbers ↔ 1 ≤ k ∧ k < stop := by
  rw [lineNumbers_eq h, List.mem_range'_1]
  omega

theorem one_le_row (h : Drawn G data order ids n stop sheet) {k : Nat}
    (hk : k ∈ sheet.lineNumbers) : (1 : ℚ) ≤ k := by
  exact_mod_cast ((mem_lineNumbers h).mp hk).1

section Cells

variable (h : Drawn G data order ids n stop sheet) {row : ℚ} {ref : Ref}
  (hrow : 1 ≤ row)

include h hrow

theorem Drawn.block_of_cell {column : Column} (hphysical : column ≠ .physical)
    (hpattern : column ≠ .pattern) (hcell : sheet.cell column row = some ref) :
    ∃ id logical, ∃ start next : Nat, id ∈ ids ∧ 1 ≤ start ∧ next ≤ n ∧
      (start : ℚ) ≤ row ∧ row < (next : ℚ) ∧
      Block G data sheet id logical start next := by
  rcases lt_or_ge row n with hlt | hge
  · exact h.blocks.block_of_row (by exact_mod_cast hrow) hlt
  · rw [h.blank column hphysical hpattern row hge] at hcell
    cases hcell

theorem Drawn.logical_inv (hcell : sheet.cell .logical row = some ref) :
    ∃ id logical, ∃ start next : Nat, id ∈ ids ∧ row = (start : ℚ) ∧
      ref = .logical id ∧ Block G data sheet id logical start next := by
  obtain ⟨id, logical, start, next, hid, _, _, hlo, hhi, hblock⟩ :=
    h.block_of_cell hrow (by simp) (by simp) hcell
  obtain ⟨hstart, href⟩ := hblock.cell.eq_of_cell hlo hhi hcell
  exact ⟨id, logical, start, next, hid, hstart, href, hblock⟩

theorem Drawn.volume_inv (hcell : sheet.cell .volume row = some ref) :
    ∃ id logical device, data.logicals.lookup id = some logical ∧
      device ∈ logical.volumes.keys ∧ ref = .volume device := by
  obtain ⟨id, logical, start, next, _, _, _, hlo, hhi, hblock⟩ :=
    h.block_of_cell hrow (by simp) (by simp) hcell
  obtain ⟨devices, hdevices, hfilled⟩ := hblock.volumes
  obtain ⟨device, hdevice, lo', hi', hlo', hhi', hat, _⟩ :=
    hfilled.tile_of_cell (by simp) hlo hhi hcell
  exact ⟨id, logical, device, hblock.lookup, hdevices.mem_iff.mp hdevice,
    (hat.eq_of_cell hlo' hhi' hcell).2⟩

theorem Drawn.session_inv (hcell : sheet.cell .session row = some ref) :
    ∃ id logical device entry, data.logicals.lookup id = some logical ∧
      device ∈ logical.volumes.keys ∧ entry ∈ boundPatterns data device ∧
      ref ∈ sheet.sessionsAvail entry.2 := by
  obtain ⟨id, logical, start, next, _, _, _, hlo, hhi, hblock⟩ :=
    h.block_of_cell hrow (by simp) (by simp) hcell
  obtain ⟨devices, hdevices, hfilled⟩ := hblock.volumes
  obtain ⟨device, hdevice, lo₁, hi₁, hlo₁, hhi₁, _, indices, hindices, hfilled₁⟩ :=
    hfilled.tile_of_cell (by simp) hlo hhi hcell
  obtain ⟨index, hindex, lo₂, hi₂, hlo₂, hhi₂, _, hfilled₂⟩ :=
    hfilled₁.tile_of_cell (by simp) hlo₁ hhi₁ hcell
  obtain ⟨session, hsession, lo₃, hi₃, hlo₃, hhi₃, hat, _⟩ :=
    hfilled₂.tile_of_cell rfl hlo₂ hhi₂ hcell
  obtain ⟨entry, hentry, rfl⟩ := List.mem_map.mp (hindices.mem_iff.mp hindex)
  refine ⟨id, logical, device, entry, hblock.lookup, hdevices.mem_iff.mp hdevice,
    hentry, ?_⟩
  rw [(hat.eq_of_cell hlo₃ hhi₃ hcell).2]
  exact hsession

theorem Drawn.pattern_inv (hcell : sheet.cell .pattern row = some ref) :
    ∃ index pattern, ref = .pattern index ∧
      data.accessPatterns[index]? = some pattern := by
  rcases lt_or_ge row n with hlt | hge
  · obtain ⟨id, logical, start, next, _, _, _, hlo, hhi, hblock⟩ :=
      h.blocks.block_of_row (by exact_mod_cast hrow) hlt
    obtain ⟨devices, hdevices, hfilled⟩ := hblock.volumes
    obtain ⟨device, hdevice, lo₁, hi₁, hlo₁, hhi₁, _, indices, hindices, hfilled₁⟩ :=
      hfilled.tile_of_cell (by simp) hlo hhi hcell
    obtain ⟨index, hindex, lo₂, hi₂, hlo₂, hhi₂, hat, _⟩ :=
      hfilled₁.tile_of_cell (by simp) hlo₁ hhi₁ hcell
    obtain ⟨entry, hentry, rfl⟩ := List.mem_map.mp (hindices.mem_iff.mp hindex)
    exact ⟨entry.2, entry.1, (hat.eq_of_cell hlo₂ hhi₂ hcell).2,
      (filename_of_bound hentry).1⟩
  · obtain ⟨index, ⟨pattern, hpattern, _⟩, href⟩ := h.patterns row hge ref hcell
    exact ⟨index, pattern, href, hpattern⟩

theorem Drawn.physical_inv (hcell : sheet.cell .physical row = some ref) :
    (∃ id, ref = .free id) ∧ (n : ℚ) ≤ row ∨
      ∃ id logical, ∃ start next : Nat, (start : ℚ) ≤ row ∧ row < (next : ℚ) ∧
        Block G data sheet id logical start next ∧
        ∃ p ∈ memberIds data logical, ref = .physical p := by
  rcases lt_or_ge row n with hlt | hge
  · obtain ⟨id, logical, start, next, _, _, _, hlo, hhi, hblock⟩ :=
      h.blocks.block_of_row (by exact_mod_cast hrow) hlt
    obtain ⟨sorted, hsorted, hfilled⟩ := hblock.physicals
    obtain ⟨p, hp, lo', hi', hlo', hhi', hat, _⟩ :=
      hfilled.tile_of_cell rfl hlo hhi hcell
    exact .inr ⟨id, logical, start, next, hlo, hhi, hblock, p,
      hsorted.mem_iff.mp hp, (hat.eq_of_cell hlo' hhi' hcell).2⟩
  · exact .inl ⟨h.free row hge ref hcell, hge⟩

end Cells

end OpenSan.Matrix
