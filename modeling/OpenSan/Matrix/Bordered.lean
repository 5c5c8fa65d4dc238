import OpenSan.Matrix.Scan

/-!
# Which borders a cell has

The borders of all cells of a block, column by column: only the first cell of a
column has an upper border and only the last a lower one.
-/

namespace OpenSan.Matrix

open OpenSan.Foundation OpenSan.Einarc Sheet

variable {data : Data} {order : Order} {sheet : Sheet} {f : Ref → Option Highlight}
  {lo hi : Nat}

/-- The lines `lo` to `hi - 1` belong to the cell of an object. -/
def Spans (sheet : Sheet) (column : Column) (ref : Ref) (lo hi : Nat) : Prop :=
  sheet.cell column lo = some ref ∧ sheet.rowspan ref = some ((hi : ℚ) - lo)

/-- The cells of a column in the lines `lo` to `hi - 1` are those of the items, with these
borders; `inner` holds of the lines of each. -/
structure Bordered {α : Type} (sheet : Sheet) (f : Ref → Option Highlight) (column : Column)
    (ref : α → Ref) (left : Bool) (right : α → Bool) (inner : α → Nat → Nat → Prop)
    (lo : Nat) (items : List α) (hi : Nat) : Prop where
  cells : sheet.cellsIn column (List.range' lo (hi - lo)) = items.map ref
  lit : ∀ i (h : i < items.length),
    f (ref items[i]) = some (edge left (right items[i]) i items.length)
  lines : ∀ item ∈ items, ∃ start stop : Nat, lo ≤ start ∧ start < stop ∧ stop ≤ hi ∧
    Spans sheet column (ref item) start stop ∧ inner item start stop

section Rows

variable (data : Data) (sheet : Sheet) (f : Ref → Option Highlight)

def sessionBorders (index lo hi : Nat) : Prop :=
  Bordered sheet f .session id false (fun _ => true) (fun _ _ _ => True) lo
    (sheet.sessionsAvail index) hi

def patternBorders (device : String) (lo hi : Nat) : Prop :=
  ∃ indices : List Nat, indices.Perm ((boundPatterns data device).map (·.2)) ∧
    Bordered sheet f .pattern .pattern false
      (fun index => decide (sheet.sessionsAvail index = [])) (sessionBorders sheet f) lo
      indices hi

def volumeBorders (devices : List String) (lo hi : Nat) : Prop :=
  ∃ sorted : List String, sorted.Perm devices ∧
    Bordered sheet f .volume .volume false
      (fun device => decide (boundPatterns data device = [])) (patternBorders data sheet f) lo
      sorted hi

def physicalBorders (members : List PhysicalId) (lo hi : Nat) : Prop :=
  ∃ sorted : List PhysicalId, sorted.Perm members ∧
    Bordered sheet f .physical .physical true (fun _ => false) (fun _ _ _ => True) lo sorted hi

structure BlockBordered (id : Nat) (logical : Logical) (lo hi : Nat) : Prop where
  cell : Spans sheet .logical (.logical id) lo hi
  array : f (.logical id) =
    some { top := true, right := decide (logical.volumes.keys = []), bottom := true }
  physicals : physicalBorders sheet f (memberIds data logical) lo hi
  volumes : volumeBorders data sheet f logical.volumes.keys lo hi

end Rows

/-! ## The cells of a column -/

theorem Sheet.CellAt.cellsIn {G : Set Ref} {column : Column} {ref : Ref}
    (h : CellAt G sheet column ref lo hi) :
    sheet.cellsIn column (List.range' lo (hi - lo)) = [ref] := by
  have hpos := h.positive
  obtain ⟨rows, hrows⟩ : ∃ rows, hi - lo = rows + 1 := ⟨hi - lo - 1, by omega⟩
  rw [hrows, List.range'_succ, cellsIn_cons_some h.shown, Sheet.cellsIn,
    List.filterMap_eq_nil_iff.mpr]
  intro k hk
  have hk := List.mem_range'_1.mp hk
  exact h.alone k (by exact_mod_cast (show lo < k by omega))
    (by exact_mod_cast (show k < hi by omega))

theorem cellsIn_tiles {G : Set Ref} {α : Type} {column : Column} {ref : α → Ref} {rows : Nat}
    {items : List α} (hcells : ∀ i (h : i < items.length),
      CellAt G sheet column (ref items[i]) (lo + i * rows) (lo + (i + 1) * rows)) :
    sheet.cellsIn column (List.range' lo (items.length * rows)) = items.map ref := by
  induction items generalizing lo with
  | nil => simp [Sheet.cellsIn]
  | cons item items ih =>
      have hfirst := (hcells 0 (by simp)).cellsIn
      have hrest : ∀ i (h : i < items.length), CellAt G sheet column (ref items[i])
          (lo + rows + i * rows) (lo + rows + (i + 1) * rows) := by
        intro i hi
        have hcell := hcells (i + 1) (by simpa using hi)
        rw [show lo + (i + 1) * rows = lo + rows + i * rows by ring,
          show lo + (i + 1 + 1) * rows = lo + rows + (i + 1) * rows by ring] at hcell
        simpa using hcell
      have hlines : List.range' lo ((item :: items).length * rows) =
          List.range' lo rows ++ List.range' (lo + rows) (items.length * rows) := by
        rw [List.range'_append_1, List.length_cons]
        congr 1
        ring
      simp only [Nat.zero_mul, Nat.add_zero, Nat.zero_add, Nat.one_mul,
        Nat.add_sub_cancel_left, List.getElem_cons_zero] at hfirst
      rw [hlines, Sheet.cellsIn, List.filterMap_append, ← Sheet.cellsIn, ← Sheet.cellsIn, hfirst,
        ih hrest]
      rfl

theorem bordered_of_tiles {α : Type} {column : Column} {ref : α → Ref} {left : Bool}
    {right : α → Bool} {inner : α → Nat → Nat → Prop} {rows : Nat} {items : List α}
    (hstop : lo + items.length * rows = hi)
    (hcells : ∀ i (h : i < items.length),
      CellAt Set.univ sheet column (ref items[i]) (lo + i * rows) (lo + (i + 1) * rows) ∧
      inner items[i] (lo + i * rows) (lo + (i + 1) * rows))
    (hlit : ∀ i (h : i < items.length),
      f (ref items[i]) = some (edge left (right items[i]) i items.length)) :
    Bordered sheet f column ref left right inner lo items hi where
  cells := by
    rw [show hi - lo = items.length * rows by omega]
    exact cellsIn_tiles fun i h => (hcells i h).1
  lit := hlit
  lines item hitem := by
    obtain ⟨i, h, rfl⟩ := List.getElem_of_mem hitem
    obtain ⟨hcell, hinner⟩ := hcells i h
    have hend : (i + 1) * rows ≤ items.length * rows := Nat.mul_le_mul_right rows h
    exact ⟨_, _, by omega, hcell.positive, by omega, ⟨hcell.shown, hcell.rowspan trivial⟩,
      hinner⟩

theorem bordered_nil {α : Type} {column : Column} {ref : α → Ref} {left : Bool}
    {right : α → Bool} {inner : α → Nat → Nat → Prop}
    (hblank : ∀ row : ℚ, lo ≤ row → row < hi → sheet.cell column row = none) :
    Bordered sheet f column ref left right inner lo [] hi where
  cells := by
    rw [Sheet.cellsIn, List.filterMap_eq_nil_iff.mpr]
    · rfl
    intro k hk
    have hk := List.mem_range'_1.mp hk
    exact hblank k (by exact_mod_cast hk.1) (by exact_mod_cast (show k < hi by omega))
  lit i h := by simp at h
  lines item hitem := by simp at hitem

theorem Sheet.Filled.bordered {α : Type} {C : Set Column} {column : Column} {ref : α → Ref}
    {left : Bool} {right : α → Bool} {drawn inner : α → Nat → Nat → Prop} {items : List α}
    (h : Filled Set.univ sheet C column ref drawn lo items hi) (hcolumn : column ∈ C)
    (hinner : ∀ item ∈ items, ∀ start stop, drawn item start stop → inner item start stop)
    (hlit : ∀ i (h : i < items.length),
      f (ref items[i]) = some (edge left (right items[i]) i items.length)) :
    Bordered sheet f column ref left right inner lo items hi := by
  unfold Filled at h
  by_cases hnil : items = []
  · subst hnil
    rw [if_pos rfl] at h
    exact bordered_nil (h column hcolumn)
  · rw [if_neg hnil] at h
    obtain ⟨rows, _, hstop, hcells⟩ := h
    refine bordered_of_tiles hstop (fun i hi => ?_) hlit
    exact ⟨(hcells i hi).1, hinner _ (List.getElem_mem hi) _ _ (hcells i hi).2⟩

/-! ## The borders of a block -/

theorem PatternLit.sessionBorders {index count i : Nat}
    (hlit : PatternLit sheet.sessionsAvail count i index f)
    (hrows : sessionRows Set.univ sheet.sessionsAvail sheet index lo hi) :
    sessionBorders sheet f index lo hi :=
  hrows.bordered rfl (fun _ _ _ _ _ => trivial) hlit.2

theorem VolumeLit.patternBorders {top bottom : Bool} {device : String} {indices : List Nat}
    (hlit : VolumeLit sheet.sessionsAvail top bottom device indices f)
    (hperm : indices.Perm ((boundPatterns data device).map (·.2)))
    (hfilled : Filled Set.univ sheet {.pattern, .session} .pattern .pattern
      (sessionRows Set.univ sheet.sessionsAvail sheet) lo indices hi) :
    patternBorders data sheet f device lo hi := by
  refine ⟨indices, hperm, hfilled.bordered (by simp) ?_ fun j hj => (hlit.2 j hj).1⟩
  intro index hindex start stop hrows
  obtain ⟨j, hj, rfl⟩ := List.getElem_of_mem hindex
  exact (hlit.2 j hj).sessionBorders hrows

theorem BlockCells.bordered {id : Nat} {logical : Logical} {content : Content}
    (hcells : BlockCells data sheet id logical lo hi content)
    (hlit : BlockLit sheet.sessionsAvail id content true f) :
    BlockBordered data sheet f id logical lo hi where
  cell := ⟨hcells.cell.shown, hcells.cell.rowspan trivial⟩
  array := by
    have hnone : content.devices = [] ↔ logical.volumes.keys = [] := by
      rw [← List.length_eq_zero_iff, ← hcells.length_devices, List.length_eq_zero_iff]
    rw [hlit.logical, decide_eq_decide.mpr hnone]
  physicals := by
    refine ⟨content.members, hcells.perm, bordered_of_tiles hcells.stop
      (fun i hi => ⟨hcells.physicals i hi, trivial⟩) fun i hi => ?_⟩
    rw [hlit.physicals i hi]
    rfl
  volumes := by
    refine ⟨content.devices, hcells.devicesPerm, ?_⟩
    by_cases hnil : content.devices = []
    · rw [hnil]
      exact bordered_nil (hcells.blank hnil)
    refine bordered_of_tiles (hcells.volumesStop hnil) (fun i hi => ⟨hcells.volumes i hi, ?_⟩)
      fun i hi => ?_
    · exact (hlit.volumes i hi).patternBorders (hcells.indicesPerm i hi) (hcells.patterns i hi)
    · have hnone : content.indices i = [] ↔ boundPatterns data content.devices[i] = [] := by
        rw [← List.length_eq_zero_iff, (hcells.indicesPerm i hi).length_eq, List.length_map,
          List.length_eq_zero_iff]
      rw [(hlit.volumes i hi).1, decide_eq_decide.mpr hnone]
      rfl

/-- On a table of a regular input, each cell of a block gets exactly the borders of its
place, and the disks outside of the arrays get none. -/
theorem filterBordersHighlight_exact (data : Data) (order : Order) (hregular : data.Regular) :
    ∃ sheet marks, overall data order data.initial = (.ok (), sheet) ∧
      filterBordersHighlight data sheet ⟨sheet.records, ∅⟩ = (.ok (), marks) ∧
      (∀ index, (sheet.sessionsAvail index).Perm (ownSessions data order index)) ∧
      (∀ id logical, data.logicals.lookup id = some logical → ∃ lo hi,
        lo ∈ sheet.lineNumbers ∧ BlockBordered data sheet (lit marks) id logical lo hi) ∧
      ∀ k ∈ sheet.lineNumbers, ∀ ref, sheet.cell .physical (k : ℚ) = some ref →
        (∀ id logical, data.logicals.lookup id = some logical →
          ∀ p ∈ memberIds data logical, ref ≠ .physical p) → lit marks ref = some {} := by
  obtain ⟨_, sheet, hoverall, ids, n, stop, s₁, s₂, hdrawn, hstages⟩ :=
    overall_stages (G := Set.univ) data order fun avail havail =>
      hregular.layable (sessions_of_perm havail)
  obtain ⟨_, marks, hrun, _, ⟨harrays, hdisks⟩, _⟩ := filterBordersHighlight_paints hdrawn
    hregular ⟨sheet.records, ∅⟩ ⟨fun _ => rfl, fun _ => rfl⟩ hstages.unmarked
  refine ⟨sheet, marks, hoverall, hrun, hdrawn.sessions, fun id logical hlookup => ?_,
    fun k hk ref hcell houtside => ?_⟩
  · have hid : id ∈ ids := hdrawn.perm.mem_iff.mpr
      (AList.mem_keys.mp (AList.lookup_isSome.mp (by rw [hlookup]; rfl)))
    obtain ⟨other, lo, hi, content, hlo, hcells, hlit⟩ := harrays id hid
    obtain rfl : logical = other := Option.some.inj (hlookup.symm.trans hcells.lookup)
    refine ⟨lo, hi, (mem_lineNumbers hdrawn).mpr ⟨hlo, ?_⟩, hcells.bordered hlit⟩
    rw [← hdrawn.lines lo hlo]
    by_contra hline
    have hnone := cell_eq_none_of_not_hasLine hline .logical
    rw [hcells.cell.shown] at hnone
    cases hnone
  · obtain ⟨hone, hstop⟩ := (mem_lineNumbers hdrawn).mp hk
    rcases hdrawn.physical_inv (by exact_mod_cast hone) hcell with
      ⟨_, hbelow⟩ | ⟨id, logical, _, _, _, _, hblock, p, hp, heq⟩
    · have hbelow : n ≤ k := by exact_mod_cast hbelow
      exact hdisks k (List.mem_range'_1.mpr ⟨hbelow, by omega⟩) _ hcell
    · exact absurd heq (houtside id logical hblock.lookup p hp)

theorem sampleData_bordered : ∃ sheet marks,
    overall sampleData Order.plain sampleData.initial = (.ok (), sheet) ∧
      filterBordersHighlight sampleData sheet ⟨sheet.records, ∅⟩ = (.ok (), marks) ∧
      (∀ index, (sheet.sessionsAvail index).Perm
        (ownSessions sampleData Order.plain index)) ∧
      (∀ id logical, sampleData.logicals.lookup id = some logical → ∃ lo hi,
        lo ∈ sheet.lineNumbers ∧
          BlockBordered sampleData sheet (lit marks) id logical lo hi) ∧
      ∀ k ∈ sheet.lineNumbers, ∀ ref, sheet.cell .physical (k : ℚ) = some ref →
        (∀ id logical, sampleData.logicals.lookup id = some logical →
          ∀ p ∈ memberIds sampleData logical, ref ≠ .physical p) →
        lit marks ref = some {} :=
  filterBordersHighlight_exact sampleData Order.plain
    ⟨by decide, by decide, by decide, by decide⟩

end OpenSan.Matrix
