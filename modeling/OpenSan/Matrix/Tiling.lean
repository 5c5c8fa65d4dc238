import Mathlib
import OpenSan.Matrix.Sheet

/-!
# Cells one below the other

Every loop of `overall` that fills a column does the same: it puts the cells
of a list one below the other, each with the same number of rows, and fills
other columns inside the rows of each cell.  `tile_loop` is the rule for all
of them.

A cell owns the objects it shows.  Rowspans are promised for a set `G` of
objects only: an object that two cells own has the rowspan of the later one,
so `G` must leave it out, while the positions of the cells do not depend on it.
-/

namespace OpenSan.Matrix

open OpenSan.Foundation

namespace Sheet

def HasLine (s : Sheet) (row : ℚ) : Prop := (s.lines.lookup row).isSome = true

/-- Integer lines exist and the columns of `C` are empty in rows `lo` to
`hi - 1`. -/
structure Room (C : Set Column) (lo hi : Nat) (s : Sheet) : Prop where
  lines : ∀ k : Nat, lo ≤ k → k < hi → s.HasLine k
  blank : ∀ column ∈ C, ∀ row : ℚ, lo ≤ row → row < hi →
    s.cell column row = none

/-- From `s` to `s'` only cells of the columns `C` in rows `lo` to `hi - 1` and
rowspans of the objects in `R` have changed. -/
structure Framed (C : Set Column) (R : Set Ref) (lo hi : Nat)
    (s s' : Sheet) : Prop where
  cells : ∀ column (row : ℚ), (column ∈ C → row < lo ∨ (hi : ℚ) ≤ row) →
    s'.cell column row = s.cell column row
  rowspans : ∀ ref, ref ∉ R → s'.rowspan ref = s.rowspan ref
  outside : ∀ row : ℚ, row < lo ∨ (hi : ℚ) ≤ row →
    (s'.HasLine row ↔ s.HasLine row)
  inside : ∀ row, s.HasLine row → s'.HasLine row
  members : s'.members = s.members
  sessionsAvail : s'.sessionsAvail = s.sessionsAvail
  physicals : s'.physicals = s.physicals
  physicalsFree : s'.physicalsFree = s.physicalsFree

/-- The two sheets show the same cells in the columns `C` of the rows and give
the objects of `R` the same rowspans. -/
structure Agree (C : Set Column) (R : Set Ref) (lo hi : Nat)
    (s s' : Sheet) : Prop where
  cells : ∀ column ∈ C, ∀ row : ℚ, lo ≤ row → row < hi →
    s'.cell column row = s.cell column row
  rowspans : ∀ ref ∈ R, s'.rowspan ref = s.rowspan ref

def Stable (C : Set Column) (R : Set Ref) (P : Sheet → Nat → Nat → Prop) : Prop :=
  ∀ s s' lo hi, Agree C R lo hi s s' → P s lo hi → P s' lo hi

/-- A cell of the given height, with no other cell of its column in its rows. -/
structure CellAt (G : Set Ref) (s : Sheet) (column : Column) (ref : Ref)
    (lo hi : Nat) : Prop where
  positive : lo < hi
  shown : s.cell column lo = some ref
  rowspan : ref ∈ G → s.rowspan ref = some ((hi : ℚ) - lo)
  alone : ∀ row : ℚ, lo < row → row < hi → s.cell column row = none

/-- The cells of the items fill the rows of a column exactly, one below the
other and equally high; `inner` holds of the rows of each. -/
def Tiled {α : Type} (G : Set Ref) (s : Sheet) (column : Column) (ref : α → Ref)
    (inner : α → Nat → Nat → Prop) (start : Nat) (items : List α)
    (stop : Nat) : Prop :=
  ∃ rows, 0 < rows ∧ start + items.length * rows = stop ∧
    ∀ i (hi : i < items.length),
      CellAt G s column (ref items[i]) (start + i * rows) (start + (i + 1) * rows) ∧
      inner items[i] (start + i * rows) (start + (i + 1) * rows)

/-- A column with items is tiled; without items it is empty, and so are the
other columns of `C`. -/
def Filled {α : Type} (G : Set Ref) (s : Sheet) (C : Set Column) (column : Column)
    (ref : α → Ref) (inner : α → Nat → Nat → Prop) (start : Nat) (items : List α)
    (stop : Nat) : Prop :=
  if items = [] then
    ∀ other ∈ C, ∀ row : ℚ, start ≤ row → row < stop → s.cell other row = none
  else Tiled G s column ref inner start items stop

/-! ## Frames -/

theorem Room.mono {C C' : Set Column} {lo hi lo' hi' : Nat} {s : Sheet}
    (h : Room C lo hi s) (hC : C' ⊆ C) (hlo : lo ≤ lo') (hhi : hi' ≤ hi) :
    Room C' lo' hi' s where
  lines k hk hk' := h.lines k (by omega) (by omega)
  blank column hcolumn row hrow hrow' := by
    have hlo : (lo : ℚ) ≤ lo' := by exact_mod_cast hlo
    have hhi : (hi' : ℚ) ≤ hi := by exact_mod_cast hhi
    exact h.blank column (hC hcolumn) row (by linarith) (by linarith)

theorem Framed.refl {C : Set Column} {R : Set Ref} {lo hi : Nat} {s : Sheet} :
    Framed C R lo hi s s :=
  ⟨fun _ _ _ => rfl, fun _ _ => rfl, fun _ _ => .rfl, fun _ h => h,
    rfl, rfl, rfl, rfl⟩

theorem Framed.mono {C C' : Set Column} {R R' : Set Ref} {lo hi lo' hi' : Nat}
    {s s' : Sheet} (h : Framed C R lo hi s s') (hC : C ⊆ C') (hR : R ⊆ R')
    (hlo : lo' ≤ lo) (hhi : hi ≤ hi') : Framed C' R' lo' hi' s s' := by
  have hlo : (lo' : ℚ) ≤ lo := by exact_mod_cast hlo
  have hhi : (hi : ℚ) ≤ hi' := by exact_mod_cast hhi
  have hrow : ∀ row : ℚ, row < lo' ∨ (hi' : ℚ) ≤ row →
      row < lo ∨ (hi : ℚ) ≤ row := by
    intro row hrow
    rcases hrow with hrow | hrow
    · exact .inl (by linarith)
    · exact .inr (by linarith)
  exact {
    cells := fun column row hout => h.cells column row fun hmem =>
      hrow row (hout (hC hmem))
    rowspans := fun ref href => h.rowspans ref fun hmem => href (hR hmem)
    outside := fun row hout => h.outside row (hrow row hout)
    inside := h.inside
    members := h.members
    sessionsAvail := h.sessionsAvail
    physicals := h.physicals
    physicalsFree := h.physicalsFree }

theorem Framed.trans {C : Set Column} {R : Set Ref} {lo hi : Nat}
    {s s' s'' : Sheet} (h : Framed C R lo hi s s')
    (h' : Framed C R lo hi s' s'') : Framed C R lo hi s s'' where
  cells column row hout := (h'.cells column row hout).trans (h.cells column row hout)
  rowspans ref href := (h'.rowspans ref href).trans (h.rowspans ref href)
  outside row hout := (h'.outside row hout).trans (h.outside row hout)
  inside row hline := h'.inside row (h.inside row hline)
  members := h'.members.trans h.members
  sessionsAvail := h'.sessionsAvail.trans h.sessionsAvail
  physicals := h'.physicals.trans h.physicals
  physicalsFree := h'.physicalsFree.trans h.physicalsFree

theorem Framed.room {C C' : Set Column} {R : Set Ref} {lo hi lo' hi' : Nat}
    {s s' : Sheet} (h : Framed C R lo hi s s') (hroom : Room C' lo' hi' s)
    (hapart : hi ≤ lo' ∨ Disjoint C C') : Room C' lo' hi' s' where
  lines k hk hk' := h.inside k (hroom.lines k hk hk')
  blank column hcolumn row hrow hrow' := by
    rw [h.cells column row ?_, hroom.blank column hcolumn row hrow hrow']
    intro hmem
    rcases hapart with hbefore | hdisjoint
    · have hbefore : (hi : ℚ) ≤ lo' := by exact_mod_cast hbefore
      exact .inr (by linarith)
    · exact absurd hcolumn (Set.disjoint_left.mp hdisjoint hmem)

theorem Framed.agree {C C' : Set Column} {R R' : Set Ref} {lo hi lo' hi' : Nat}
    {s s' : Sheet} (h : Framed C R lo hi s s')
    (hapart : hi' ≤ lo ∨ Disjoint C C') (hR : Disjoint R' R) :
    Agree C' R' lo' hi' s s' where
  cells column hcolumn row hrow hrow' := by
    apply h.cells column row
    intro hmem
    rcases hapart with hbefore | hdisjoint
    · have hbefore : (hi' : ℚ) ≤ lo := by exact_mod_cast hbefore
      exact .inl (by linarith)
    · exact absurd hcolumn (Set.disjoint_left.mp hdisjoint hmem)
  rowspans ref href := h.rowspans ref (Set.disjoint_left.mp hR href)

theorem Agree.mono {C C' : Set Column} {R R' : Set Ref} {lo hi lo' hi' : Nat}
    {s s' : Sheet} (h : Agree C R lo hi s s') (hC : C' ⊆ C) (hR : R' ⊆ R)
    (hlo : lo ≤ lo') (hhi : hi' ≤ hi) : Agree C' R' lo' hi' s s' where
  cells column hcolumn row hrow hrow' := by
    have hlo : (lo : ℚ) ≤ lo' := by exact_mod_cast hlo
    have hhi : (hi' : ℚ) ≤ hi := by exact_mod_cast hhi
    exact h.cells column (hC hcolumn) row (by linarith) (by linarith)
  rowspans ref href := h.rowspans ref (hR href)

/-! ## What depends on its own rows only -/

section Stable

variable {α : Type} {G : Set Ref} {C : Set Column} {R : Set Ref}
  {column : Column} {ref : α → Ref} {inner : Sheet → α → Nat → Nat → Prop}

theorem cellAt_stable {only : Ref} (hcolumn : column ∈ C) (honly : only ∈ R) :
    Stable C (R ∩ G) fun s lo hi => CellAt G s column only lo hi := by
  intro s s' lo hi hagree h
  have hlt : (lo : ℚ) < hi := by exact_mod_cast h.positive
  exact {
    positive := h.positive
    shown := by rw [hagree.cells column hcolumn lo (le_refl _) hlt, h.shown]
    rowspan := fun hG => by
      rw [hagree.rowspans only ⟨honly, hG⟩, h.rowspan hG]
    alone := fun row hrow hrow' => by
      rw [hagree.cells column hcolumn row (le_of_lt hrow) hrow',
        h.alone row hrow hrow'] }

theorem tiled_stable {items : List α} {own : α → Set Ref}
    (hcolumn : column ∈ C) (href : ∀ item ∈ items, ref item ∈ own item)
    (hown : ∀ item ∈ items, own item ⊆ R)
    (hinner : ∀ item ∈ items,
      Stable C (own item ∩ G) fun s lo hi => inner s item lo hi) :
    Stable C (R ∩ G) fun s lo hi => Tiled G s column ref (inner s) lo items hi := by
  intro s s' lo hi hagree h
  obtain ⟨rows, hpos, hstop, hcells⟩ := h
  refine ⟨rows, hpos, hstop, fun i hi => ?_⟩
  obtain ⟨hcell, hin⟩ := hcells i hi
  have hmem : items[i] ∈ items := by simp
  have hlast : (i + 1) * rows ≤ items.length * rows := Nat.mul_le_mul_right rows hi
  have hpart : Agree C (own items[i] ∩ G) (lo + i * rows) (lo + (i + 1) * rows)
      s s' :=
    hagree.mono subset_rfl (Set.inter_subset_inter_left G (hown _ hmem))
      (by omega) (by omega)
  exact ⟨cellAt_stable hcolumn (href _ hmem) s s' _ _ hpart hcell,
    hinner _ hmem s s' _ _ hpart hin⟩

theorem filled_stable {items : List α} (own : α → Set Ref)
    (inner : Sheet → α → Nat → Nat → Prop) {C' : Set Column} (hC : C' ⊆ C)
    (hcolumn : column ∈ C) (href : ∀ item ∈ items, ref item ∈ own item)
    (hown : ∀ item ∈ items, own item ⊆ R)
    (hinner : ∀ item ∈ items,
      Stable C (own item ∩ G) fun s lo hi => inner s item lo hi) :
    Stable C (R ∩ G) fun s lo hi =>
      Filled G s C' column ref (inner s) lo items hi := by
  intro s s' lo hi hagree h
  unfold Filled at h ⊢
  by_cases hnil : items = []
  · rw [if_pos hnil] at h ⊢
    intro other hother row hrow hrow'
    rw [hagree.cells other (hC hother) row hrow hrow', h other hother row hrow hrow']
  · rw [if_neg hnil] at h ⊢
    exact tiled_stable hcolumn href hown hinner s s' lo hi hagree h

end Stable

theorem Tiled.map {α β : Type} {G : Set Ref} {s : Sheet} {column : Column}
    {ref : β → Ref} {inner : β → Nat → Nat → Prop} {f : α → β}
    {start stop : Nat} {items : List α}
    (h : Tiled G s column (fun a => ref (f a)) (fun a => inner (f a)) start
      items stop) :
    Tiled G s column ref inner start (items.map f) stop := by
  obtain ⟨rows, hpos, hstop, hcells⟩ := h
  refine ⟨rows, hpos, by simpa using hstop, fun i hi => ?_⟩
  simpa using hcells i (by simpa using hi)

/-! ## One cell -/

theorem cell_setLine (s : Sheet) (offset row : ℚ) (line : Line)
    (column : Column) :
    (s.setLine offset line).cell column row =
      if row = offset then line column else s.cell column row := by
  unfold cell setLine
  by_cases h : row = offset
  · subst h
    simp [AList.lookup_insert]
  · simp [AList.lookup_insert_ne h, h]

@[simp] theorem cell_update (s : Sheet) (ref : Ref) (f : Record → Record) :
    (s.update ref f).cell = s.cell := rfl

theorem hasLine_setLine (s : Sheet) (offset row : ℚ) (line : Line) :
    (s.setLine offset line).HasLine row ↔ row = offset ∨ s.HasLine row := by
  unfold HasLine setLine
  by_cases h : row = offset
  · subst h
    simp [AList.lookup_insert]
  · simp [AList.lookup_insert_ne h, h]

theorem rowspan_update_ne (s : Sheet) {ref other : Ref} (f : Record → Record)
    (h : other ≠ ref) : (s.update ref f).rowspan other = s.rowspan other := by
  simp [rowspan, update, Function.update_of_ne h]

theorem records_update_self (s : Sheet) (ref : Ref) (f : Record → Record) :
    (s.update ref f).records ref = f (s.records ref) := by
  simp [update]

end Sheet

open Sheet

structure Written (offset : ℚ) (column : Column) (ref : Ref) (rowspan : ℚ)
    (s s' : Sheet) : Prop where
  cells : ∀ other row, s'.cell other row =
    if row = offset ∧ other = column then some ref else s.cell other row
  lines : ∀ row, s'.HasLine row ↔ s.HasLine row
  rowspan : s'.rowspan ref = some rowspan
  rowspans : ∀ other, other ≠ ref → s'.rowspan other = s.rowspan other
  members : s'.members = s.members
  sessionsAvail : s'.sessionsAvail = s.sessionsAvail
  physicals : s'.physicals = s.physicals
  physicalsFree : s'.physicalsFree = s.physicalsFree

theorem fill_written {offset : ℚ} {column : Column} {ref : Ref} {rowspan : ℚ}
    {s : Sheet} (h : s.HasLine offset) :
    Action.Returns (fill offset column ref rowspan) s fun _ =>
      Written offset column ref rowspan s := by
  obtain ⟨line, hline⟩ := Option.isSome_iff_exists.mp h
  refine Action.Returns.query_bind (by rw [hline]; rfl) ?_
  refine Action.Returns.modify_bind (Action.Returns.modify ?_)
  constructor
  · intro other row
    rw [cell_update, cell_setLine]
    by_cases hrow : row = offset
    · subst hrow
      by_cases hother : other = column
      · subst hother
        simp
      · simp [hother, cell, hline]
    · simp [hrow]
  · intro row
    refine (hasLine_setLine s offset row _).trans (or_iff_right_of_imp ?_)
    rintro rfl
    exact h
  · rw [Sheet.rowspan, records_update_self]
  · exact fun other hother => rowspan_update_ne _ _ hother
  all_goals rfl

theorem fill_returns {lo hi : Nat} {column : Column} {ref : Ref} {s : Sheet}
    {G : Set Ref} (hlt : lo < hi) (hroom : Room {column} lo hi s) {rowspan : ℚ}
    (hrowspan : rowspan = hi - lo) :
    Action.Returns (fill lo column ref rowspan) s fun _ s' =>
      Framed {column} {ref} lo hi s s' ∧ CellAt G s' column ref lo hi := by
  have hltq : (lo : ℚ) < hi := by exact_mod_cast hlt
  refine (fill_written (hroom.lines lo le_rfl hlt)).mono ?_
  intro _ s' h
  refine ⟨⟨?_, h.rowspans, fun row _ => h.lines row, fun row => (h.lines row).mpr,
    h.members, h.sessionsAvail, h.physicals, h.physicalsFree⟩, hlt, ?_, ?_, ?_⟩
  · intro other row hout
    rw [h.cells, if_neg]
    rintro ⟨rfl, rfl⟩
    rcases hout rfl with hrow | hrow <;> linarith
  · rw [h.cells, if_pos ⟨rfl, rfl⟩]
  · intro _
    rw [h.rowspan, hrowspan]
  · intro row hrow hrow'
    rw [h.cells, if_neg (fun heq => absurd heq.1 (ne_of_gt hrow))]
    exact hroom.blank column rfl row (le_of_lt hrow) hrow'

theorem ensureLine_returns {offset : ℚ} {s : Sheet} (h : s.HasLine offset) :
    Action.Returns (ensureLine offset) s fun _ s' => s' = s := by
  unfold HasLine at h
  refine Action.Returns.modify (if_neg ?_)
  simp [Option.isSome_iff_ne_none.mp h]

theorem tile_loop {α : Type} {G : Set Ref} {C : Set Column} (column : Column)
    (ref : α → Ref) (own : α → Set Ref) (inner : Sheet → α → Nat → Nat → Prop)
    (items : List α) (body : α × Nat → Program Unit) (start rows : Nat)
    {s : Sheet} (hcolumn : column ∈ C)
    (href : ∀ item ∈ items, ref item ∈ own item)
    (hinner : ∀ item ∈ items,
      Stable C (own item ∩ G) fun s lo hi => inner s item lo hi)
    (happart : items.Pairwise fun a b => Disjoint (own a ∩ G) (own b))
    (hpos : 0 < rows) (hroom : Room C start (start + items.length * rows) s)
    (hbody : ∀ i (hi : i < items.length) s₁,
      s₁.sessionsAvail = s.sessionsAvail →
      Room C (start + i * rows) (start + (i + 1) * rows) s₁ →
      Action.Returns (body (items[i], i)) s₁ fun _ s₂ =>
        Framed C (own items[i]) (start + i * rows) (start + (i + 1) * rows) s₁ s₂ ∧
        CellAt G s₂ column (ref items[i]) (start + i * rows)
          (start + (i + 1) * rows) ∧
        inner s₂ items[i] (start + i * rows) (start + (i + 1) * rows)) :
    Action.Returns (Action.forEach items.zipIdx body) s fun _ s' =>
      Framed C (⋃ item ∈ items, own item) start (start + items.length * rows) s s' ∧
      Tiled G s' column ref (inner s') start items (start + items.length * rows) := by
  have hmul : ∀ {i j : Nat}, i ≤ j → i * rows ≤ j * rows := fun h =>
    Nat.mul_le_mul_right rows h
  -- the invariant after `i` rounds: the first `i` cells stand
  have hloop : Action.Returns (Action.forEach items.zipIdx body) s fun _ s' =>
      Framed C (⋃ item ∈ items, own item) start
        (start + items.zipIdx.length * rows) s s' ∧
      ∀ j (hj : j < items.length), j < items.zipIdx.length →
        CellAt G s' column (ref items[j]) (start + j * rows)
          (start + (j + 1) * rows) ∧
        inner s' items[j] (start + j * rows) (start + (j + 1) * rows) := by
    refine Action.Returns.forEach _
      (I := fun i s' => Framed C (⋃ item ∈ items, own item) start
          (start + i * rows) s s' ∧
        ∀ j (hj : j < items.length), j < i →
          CellAt G s' column (ref items[j]) (start + j * rows)
            (start + (j + 1) * rows) ∧
          inner s' items[j] (start + j * rows) (start + (j + 1) * rows))
      ⟨.refl, fun j _ hj => absurd hj (Nat.not_lt_zero j)⟩ ?_
    rintro i hi s₁ ⟨hframe, hdone⟩
    have hi' : i < items.length := by simpa using hi
    have hnext : (i + 1) * rows ≤ items.length * rows := hmul hi'
    have hroom₁ : Room C (start + i * rows) (start + (i + 1) * rows) s₁ :=
      hframe.room (hroom.mono subset_rfl (by omega) (by omega)) (.inl le_rfl)
    have hround := hbody i hi' s₁ hframe.sessionsAvail hroom₁
    rw [List.getElem_zipIdx, Nat.zero_add]
    refine hround.mono ?_
    rintro _ s₂ ⟨hframe₂, hcell, hin⟩
    refine ⟨?_, fun j hj hji => ?_⟩
    · have hown : own items[i] ⊆ ⋃ item ∈ items, own item :=
        Set.subset_biUnion_of_mem (u := own) (List.getElem_mem hi')
      have hle : i * rows ≤ (i + 1) * rows := hmul (Nat.le_succ i)
      exact (hframe.mono subset_rfl subset_rfl le_rfl (by omega)).trans
        (hframe₂.mono subset_rfl hown (by omega) le_rfl)
    · rcases Nat.lt_succ_iff_lt_or_eq.mp hji with hlt | heq
      · obtain ⟨hcell', hin'⟩ := hdone j hj hlt
        have hagree : Agree C (own items[j] ∩ G) (start + j * rows)
            (start + (j + 1) * rows) s₁ s₂ := by
          apply hframe₂.agree
          · exact .inl (Nat.add_le_add_left (hmul hlt) start)
          · exact List.pairwise_iff_getElem.mp happart j i hj hi' hlt
        have hmem : items[j] ∈ items := List.getElem_mem hj
        exact ⟨cellAt_stable hcolumn (href _ hmem) s₁ s₂ _ _ hagree hcell',
          hinner _ hmem s₁ s₂ _ _ hagree hin'⟩
      · subst heq
        exact ⟨hcell, hin⟩
  refine hloop.mono ?_
  rintro _ s' ⟨hframe, hcells⟩
  rw [List.length_zipIdx] at hframe
  refine ⟨hframe, rows, hpos, rfl, fun i hi => ?_⟩
  exact hcells i hi (by simpa using hi)

end OpenSan.Matrix
