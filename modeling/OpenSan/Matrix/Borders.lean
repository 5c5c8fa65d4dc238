import OpenSan.Foundation.Footprint
import OpenSan.Matrix.Marked

/-!
# The borders of the blocks

`filter_borders_highlight` finds the cells of a block again by adding rowspans.
Every part of it marks objects of its own, so that the marks of a block are put
together from those of its columns.
-/

namespace OpenSan.Matrix

open OpenSan.Foundation OpenSan.Einarc Sheet

def lit (m : Marks) (ref : Ref) : Option Highlight := (m.records ref).highlight

structure Spanned (sheet : Sheet) (m : Marks) : Prop where
  rowspans : ∀ ref, (m.records ref).rowspan = (sheet.records ref).rowspan
  sizes : ∀ ref, (m.records ref).size = (sheet.records ref).size

/-- The program marks objects of `O` only. -/
abbrev Paints (sheet : Sheet) (O : Set Ref) (body : Filter Unit)
    (P Q : (Ref → Option Highlight) → Prop) : Prop :=
  Action.Local lit (Spanned sheet) O body P Q

/-- The borders of cell `i` among `n` cells one below the other. -/
def edge (left right : Bool) (i n : Nat) : Highlight where
  left := left
  right := right
  top := decide (i = 0)
  bottom := decide (i + 1 = n)

def Unmarked (f : Ref → Option Highlight) (ref : Ref) : Prop := (f ref).getD {} = {}

structure Painted (sheet : Sheet) (f : Ref → Option Highlight) (m : Marks) : Prop where
  spanned : Spanned sheet m
  lit_eq : lit m = f

variable {data : Data} {sheet : Sheet} {f : Ref → Option Highlight} {m : Marks}
  {ref : Ref} {h : Highlight}

/-! ## Single marks -/

namespace Painted

theorem update (hpainted : Painted sheet f m) (ref : Ref)
    (mark : Option Highlight → Option Highlight) :
    Painted sheet (Function.update f ref (mark (f ref)))
      (m.update ref fun r => { r with highlight := mark r.highlight }) := by
  obtain ⟨hspanned, rfl⟩ := hpainted
  refine ⟨⟨fun other => ?_, fun other => ?_⟩, funext fun other => ?_⟩
  · by_cases heq : other = ref
    · subst heq
      simp [Marks.update, hspanned.rowspans other]
    · simp [Marks.update, Function.update_of_ne heq, hspanned.rowspans other]
  · by_cases heq : other = ref
    · subst heq
      simp [Marks.update, hspanned.sizes other]
    · simp [Marks.update, Function.update_of_ne heq, hspanned.sizes other]
  · by_cases heq : other = ref
    · subst heq
      simp [lit, Marks.update]
    · simp [lit, Marks.update, Function.update_of_ne heq]

theorem check (hpainted : Painted sheet f m) (ref : Ref) :
    Action.Returns (checkHighlightsAttribute ref) m fun _ =>
      Painted sheet (Function.update f ref (some ((f ref).getD {}))) :=
  Action.Returns.modify (hpainted.update ref fun highlight => some (highlight.getD {}))

theorem set (hpainted : Painted sheet f m) (hlit : f ref = some h)
    (g : Highlight → Highlight) :
    Action.Returns (setHighlight ref g) m fun _ =>
      Painted sheet (Function.update f ref (some (g h))) := by
  have hsome : (m.records ref).highlight = some h := by
    rw [← hlit, ← hpainted.lit_eq]
    rfl
  refine Action.Returns.query_bind (by rw [hsome]; rfl) ?_
  exact Action.Returns.modify (hpainted.update ref fun _ => some (g h))

theorem setIf (hpainted : Painted sheet f m) (hlit : f ref = some h) (condition : Bool)
    (g : Highlight → Highlight) :
    Action.Returns (onlyIf condition (setHighlight ref g)) m fun _ =>
      Painted sheet (Function.update f ref (some (if condition then g h else h))) := by
  cases condition with
  | false =>
      have hsame : Function.update f ref (some h) = f := by
        rw [← hlit, Function.update_eq_self]
      exact Action.Returns.pure (by simpa [hsame] using hpainted)
  | true => exact hpainted.set hlit g

/-- The borders of the first and of the last cell. -/
theorem ends (hpainted : Painted sheet f m) (hlit : f ref = some h) (htop : h.top = false)
    (hbottom : h.bottom = false) (first last : Bool) :
    Action.Returns (do
      onlyIf first (setHighlight ref fun h => { h with top := true })
      onlyIf last (setHighlight ref fun h => { h with bottom := true })) m fun _ =>
        Painted sheet
          (Function.update f ref (some { h with top := first, bottom := last })) := by
  refine (hpainted.setIf hlit _ _).bind fun _ m₁ h₁ => ?_
  refine (h₁.setIf (Function.update_self ..) _ _).mono fun _ m₂ h₂ => ?_
  rw [Function.update_idem] at h₂
  convert h₂ using 3
  obtain ⟨left, top, right, bottom, color, background⟩ := h
  subst htop hbottom
  cases first <;> cases last <;> rfl

theorem rowspanOf_bind {α : Type} {next : ℚ → Filter α} {Q : α → Marks → Prop}
    {rowspan : ℚ} (hpainted : Painted sheet f m)
    (hrowspan : (sheet.records ref).rowspan = some rowspan)
    (hnext : Action.Returns (next rowspan) m Q) :
    Action.Returns (rowspanOf ref >>= next) m Q :=
  Action.Returns.query_bind (by rw [hpainted.spanned.rowspans, hrowspan]; rfl) hnext

theorem of_paints {O : Set Ref} {body : Filter Unit} {P Q : (Ref → Option Highlight) → Prop}
    (hpainted : Painted sheet f m) (hbody : Paints sheet O body P Q) (hP : P f) :
    Action.Returns body m fun _ m' =>
      ∃ f', Painted sheet f' m' ∧ Q f' ∧ ∀ ref ∉ O, f' ref = f ref := by
  obtain ⟨hspanned, rfl⟩ := hpainted
  refine (hbody m hspanned hP).mono fun _ m' hdone => ?_
  exact ⟨lit m', ⟨hdone.1, rfl⟩, hdone.2⟩

end Painted

theorem paints_of_painted {O : Set Ref} {body : Filter Unit}
    {P Q : (Ref → Option Highlight) → Prop}
    (hbody : ∀ f m, Painted sheet f m → P f → Action.Returns body m fun _ m' =>
      ∃ f', Painted sheet f' m' ∧ Q f' ∧ ∀ ref ∉ O, f' ref = f ref) :
    Paints sheet O body P Q := by
  intro m hspanned hP
  refine (hbody (lit m) m ⟨hspanned, rfl⟩ hP).mono fun _ m' hdone => ?_
  obtain ⟨f', hpainted, hQ, hsame⟩ := hdone
  rw [hpainted.lit_eq]
  exact ⟨hpainted.spanned, hQ, hsame⟩

/-! ## Sessions -/

def Stacked (cells : List Ref) (highlight : Nat → Highlight)
    (f : Ref → Option Highlight) : Prop :=
  ∀ i (hi : i < cells.length), f cells[i] = some (highlight i)

private theorem within_ref (ref : Ref) (P : Option Highlight → Prop) :
    Action.Within {ref} fun f : Ref → Option Highlight => P (f ref) := by
  intro f g hsame hP
  rw [hsame ref rfl]
  exact hP

theorem stacked_within (cells : List Ref) (highlight : Nat → Highlight) :
    Action.Within {ref | ref ∈ cells} (Stacked cells highlight) := by
  intro f g hsame hstacked i hi
  rw [hsame _ (List.getElem_mem hi)]
  exact hstacked i hi

private theorem row_eq_first {lo i rows : Nat} (hpos : 0 < rows) :
    ((lo + i * rows : Nat) : ℚ) = lo ↔ i = 0 := by
  rw [Nat.cast_inj, Nat.add_eq_left, Nat.mul_eq_zero]
  omega

private theorem row_eq_last {lo i n rows : Nat} (hpos : 0 < rows) :
    ((lo + i * rows : Nat) : ℚ) = lo + ((n : ℚ) - 1) * rows ↔ i + 1 = n := by
  have hrows : (rows : ℚ) ≠ 0 := by exact_mod_cast hpos.ne'
  have hnext : (i : ℚ) = (n : ℚ) - 1 ↔ i + 1 = n := by
    rw [eq_sub_iff_add_eq]
    norm_cast
  push_cast
  rw [add_right_inj, mul_left_inj' hrows, hnext]

theorem highlightSessions_paints {refs : List Ref} {lo hi : Nat} (hne : refs ≠ [])
    (hnodup : refs.Nodup)
    (hrows : Filled Set.univ sheet {.session} .session id (fun _ _ _ => True) lo refs hi) :
    Paints sheet {ref | ref ∈ refs} (highlightSessions sheet lo refs.length)
      (fun f => ∀ ref ∈ refs, Unmarked f ref)
      (Stacked refs fun i => edge false true i refs.length) := by
  rw [Filled, if_neg hne] at hrows
  obtain ⟨rows, hpos, _, hcells⟩ := tiled_cells hrows
  obtain ⟨hfirst, hrowspan, _⟩ := hcells 0 (List.length_pos_of_ne_nil hne)
  have hround : ∀ i (hi : i < refs.length), Paints sheet {refs[i]}
      (do
        let session ← cellAt sheet .session ((lo + i * rows : Nat) : ℚ)
        checkHighlightsAttribute session
        setHighlight session fun h => { h with right := true }
        onlyIf (((lo + i * rows : Nat) : ℚ) = lo)
          (setHighlight session fun h => { h with top := true })
        onlyIf (((lo + i * rows : Nat) : ℚ) = lo + ((refs.length : ℚ) - 1) * rows)
          (setHighlight session fun h => { h with bottom := true }))
      (fun f => Unmarked f refs[i])
      (fun f => f refs[i] = some (edge false true i refs.length)) := by
    intro i hi
    apply paints_of_painted
    intro f m hpainted hunmarked
    refine cellAt_bind (hcells i hi).1 ?_
    refine (hpainted.check refs[i]).bind fun _ m₁ h₁ => ?_
    rw [show (f refs[i]).getD {} = {} from hunmarked] at h₁
    refine (h₁.set (Function.update_self ..) _).bind fun _ m₂ h₂ => ?_
    refine (h₂.ends (Function.update_self ..) rfl rfl _ _).mono fun _ m₃ h₃ => ?_
    refine ⟨_, h₃, ?_, ?_⟩
    · simp only [Function.update_self, edge, row_eq_first hpos, row_eq_last hpos]
    · intro ref href
      simp only [Function.update_idem]
      exact Function.update_of_ne href _ _
  have hloop := Action.Local.forEach_range (O := fun ref => {ref})
    (P := fun _ ref f => Unmarked f ref)
    (Q := fun i ref f => f ref = some (edge false true i refs.length))
    (fun i hi => within_ref refs[i] fun highlight => highlight.getD {} = {})
    (fun i hi => within_ref refs[i] fun highlight =>
      highlight = some (edge false true i refs.length))
    (hnodup.imp fun hdiff => Set.disjoint_singleton.mpr hdiff) hround
  unfold highlightSessions
  apply paints_of_painted
  intro f m hpainted hunmarked
  refine cellAt_bind (by simpa using hfirst) ?_
  refine hpainted.rowspanOf_bind hrowspan ?_
  simp only [numericFor_cells lo refs.length hpos, Action.forEach_map]
  refine (hpainted.of_paints hloop fun i hi => hunmarked _ (List.getElem_mem hi)).mono ?_
  rintro _ m' ⟨f', hpainted', hstacked, hsame⟩
  refine ⟨f', hpainted', hstacked, fun ref href => hsame ref ?_⟩
  simpa using href

/-! ## Patterns -/

def PatternLit (avail : Nat → List Ref) (count i index : Nat)
    (f : Ref → Option Highlight) : Prop :=
  f (.pattern index) = some (edge false (decide (avail index = [])) i count) ∧
    Stacked (avail index) (fun j => edge false true j (avail index).length) f

theorem patternLit_within (avail : Nat → List Ref) (count i index : Nat) :
    Action.Within (ownPattern avail index) (PatternLit avail count i index) := by
  rintro f g hsame ⟨hpattern, hstacked⟩
  refine ⟨by rw [hsame _ (.inl rfl), hpattern], ?_⟩
  exact stacked_within _ _ f g (fun ref href => hsame ref (.inr href)) hstacked

def AllUnmarked (O : Set Ref) (f : Ref → Option Highlight) : Prop :=
  ∀ ref ∈ O, Unmarked f ref

theorem allUnmarked_within (O : Set Ref) : Action.Within O (AllUnmarked O) := by
  intro f g hsame hall ref href
  rw [Unmarked, hsame ref href]
  exact hall ref href

theorem highlightPattern_paints {index lo hi count i : Nat} {row rowspan : ℚ}
    {pattern : Pattern} (hsessions : Sessions sheet.sessionsAvail)
    (hrow : row + i * rowspan = lo)
    (hpattern : data.accessPatterns[index]? = some pattern)
    (hcell : CellAt Set.univ sheet .pattern (.pattern index) lo hi)
    (hrows : sessionRows Set.univ sheet.sessionsAvail sheet index lo hi) :
    Paints sheet (ownPattern sheet.sessionsAvail index)
      (highlightPattern data sheet row rowspan count i)
      (AllUnmarked (ownPattern sheet.sessionsAvail index))
      (PatternLit sheet.sessionsAvail count i index) := by
  have hapart : ∀ ref ∈ sheet.sessionsAvail index, ref ≠ .pattern index := by
    rintro ref href rfl
    obtain ⟨_, _, hsession⟩ := hsessions.isSession index _ href
    cases hsession
  apply paints_of_painted
  intro f m hpainted hunmarked
  unfold highlightPattern
  simp only [hrow]
  refine cellAt_bind hcell.shown ?_
  refine (hpainted.check _).bind fun _ m₁ h₁ => ?_
  rw [show (f (.pattern index)).getD {} = {} from hunmarked _ (.inl rfl)] at h₁
  refine (h₁.set (Function.update_self ..) _).bind fun _ m₂ h₂ => ?_
  rw [Function.update_idem] at h₂
  refine patternOf_bind hpattern ?_
  have hmiddle : Action.Returns (onlyIf (sheet.sessionsAvail index ≠ []) (do
      setHighlight (.pattern index) fun h => { h with right := false }
      highlightSessions sheet lo (sheet.sessionsAvail index).length)) m₂ fun _ m₃ =>
      ∃ f₃, Painted sheet f₃ m₃ ∧
        f₃ (.pattern index) = some { right := decide (sheet.sessionsAvail index = []) } ∧
        Stacked (sheet.sessionsAvail index)
          (fun j => edge false true j (sheet.sessionsAvail index).length) f₃ ∧
        ∀ ref ∉ ownPattern sheet.sessionsAvail index, f₃ ref = f ref := by
    unfold onlyIf
    by_cases hnil : sheet.sessionsAvail index = []
    · rw [if_neg (by simpa using hnil)]
      refine Action.Returns.pure ⟨_, h₂, by simp [hnil], by simp [Stacked, hnil], ?_⟩
      intro ref href
      exact Function.update_of_ne (fun heq => href (.inl heq)) _ _
    · rw [if_pos (decide_eq_true hnil)]
      refine (h₂.set (Function.update_self ..) _).bind fun _ m₃ h₃ => ?_
      rw [Function.update_idem] at h₃
      have hloop := highlightSessions_paints hnil (hsessions.nodup index) hrows
      refine (h₃.of_paints hloop fun ref href => ?_).mono ?_
      · rw [Unmarked, Function.update_of_ne (hapart ref href)]
        exact hunmarked ref (.inr href)
      · rintro _ m₄ ⟨f₄, h₄, hstacked, hsame⟩
        refine ⟨f₄, h₄, ?_, hstacked, fun ref href => ?_⟩
        · rw [hsame _ fun hin => hapart _ hin rfl, Function.update_self]
          simp [hnil]
        · rw [hsame ref fun hin => href (.inr hin)]
          exact Function.update_of_ne (fun heq => href (.inl heq)) _ _
  refine hmiddle.bind fun _ m₃ hdone => ?_
  obtain ⟨f₃, h₃, hlit, hstacked, hsame⟩ := hdone
  refine (h₃.ends hlit rfl rfl _ _).mono fun _ m₄ h₄ => ?_
  refine ⟨_, h₄, ⟨Function.update_self .., ?_⟩, fun ref href => ?_⟩
  · intro j hj
    rw [Function.update_of_ne (hapart _ (List.getElem_mem hj))]
    exact hstacked j hj
  · have hne : ref ≠ .pattern index := fun heq => href (.inl heq)
    rw [Function.update_of_ne hne, hsame ref href]

/-! ## Volumes -/

def VolumeWaiting (data : Data) (avail : Nat → List Ref) (top : Bool) (device : String)
    (f : Ref → Option Highlight) : Prop :=
  (∃ right, (f (.volume device)).getD {} = { top := top, right := right }) ∧
    AllUnmarked (⋃ entry ∈ boundPatterns data device, ownPattern avail entry.2) f

/-- The highlights of a volume and of its patterns, from top to bottom. -/
def VolumeLit (avail : Nat → List Ref) (top bottom : Bool) (device : String)
    (indices : List Nat) (f : Ref → Option Highlight) : Prop :=
  f (.volume device) =
      some { top := top, right := decide (indices = []), bottom := bottom } ∧
    ∀ j (hj : j < indices.length), PatternLit avail indices.length j indices[j] f

theorem volumeWaiting_within (avail : Nat → List Ref) (top : Bool) (device : String) :
    Action.Within (ownVolume data avail device) (VolumeWaiting data avail top device) := by
  rintro f g hsame ⟨⟨right, hright⟩, hpatterns⟩
  refine ⟨⟨right, by rw [hsame _ (.inl rfl), hright]⟩, ?_⟩
  exact allUnmarked_within _ f g (fun ref href => hsame ref (.inr href)) hpatterns

theorem volumeLit_within (avail : Nat → List Ref) (top bottom : Bool) {device : String}
    {indices : List Nat} (hperm : indices.Perm ((boundPatterns data device).map (·.2))) :
    Action.Within (ownVolume data avail device)
      (VolumeLit avail top bottom device indices) := by
  rintro f g hsame ⟨hvolume, hpatterns⟩
  refine ⟨by rw [hsame _ (.inl rfl), hvolume], fun j hj => ?_⟩
  obtain ⟨entry, hentry, hindex⟩ :=
    List.mem_map.mp (hperm.mem_iff.mp (List.getElem_mem hj))
  refine patternLit_within avail _ j indices[j] f g (fun ref href => ?_) (hpatterns j hj)
  rw [← hindex] at href
  exact hsame ref (.inr (Set.mem_biUnion hentry href))

theorem highlightVolume_paints {device : String} {volume : Volume} {lo hi : Nat}
    {indices : List Nat} (top : Bool) (hnames : (data.accessPatterns.map (·.name)).Nodup)
    (hsessions : Sessions sheet.sessionsAvail) (hvolume : data.volume device = some volume)
    (hcell : sheet.cell .volume lo = some (.volume device))
    (hperm : indices.Perm ((boundPatterns data device).map (·.2)))
    (hfilled : Filled Set.univ sheet {.pattern, .session} .pattern .pattern
      (sessionRows Set.univ sheet.sessionsAvail sheet) lo indices hi) :
    Paints sheet (ownVolume data sheet.sessionsAvail device)
      (highlightVolume data sheet ((hi : ℚ) - lo) lo)
      (VolumeWaiting data sheet.sessionsAvail top device)
      (VolumeLit sheet.sessionsAvail top false device indices) := by
  have hcount : (patternTable data device).keys.length = indices.length := by
    rw [(patternTable_spec _ hnames).1.length_eq, hperm.length_eq]
    simp
  have hbound : ∀ index ∈ indices, ∃ entry ∈ boundPatterns data device,
      entry.2 = index := fun index hindex =>
    List.mem_map.mp (hperm.mem_iff.mp hindex)
  have hown : (⋃ index ∈ indices, ownPattern sheet.sessionsAvail index) ⊆
      ⋃ entry ∈ boundPatterns data device, ownPattern sheet.sessionsAvail entry.2 := by
    intro ref href
    obtain ⟨index, hindex, hin⟩ := Set.mem_iUnion₂.mp href
    obtain ⟨entry, hentry, rfl⟩ := hbound index hindex
    exact Set.mem_biUnion hentry hin
  have hapart : ∀ ref ∈ ⋃ index ∈ indices, ownPattern sheet.sessionsAvail index,
      ref ≠ .volume device := by
    rintro ref href rfl
    obtain ⟨index, _, hin | hin⟩ := Set.mem_iUnion₂.mp href
    · cases hin
    · obtain ⟨_, _, hsession⟩ := hsessions.isSession index _ hin
      cases hsession
  apply paints_of_painted
  rintro f m hpainted ⟨⟨right, hwaiting⟩, hunmarked⟩
  unfold highlightVolume
  refine cellAt_bind hcell ?_
  refine (hpainted.check _).bind fun _ m₁ h₁ => ?_
  rw [hwaiting] at h₁
  refine volumeOf_bind hvolume ?_
  simp only [hcount]
  have hmiddle : Action.Returns (onlyIf (indices.length ≠ 0)
      (Action.forEach (List.range indices.length) (highlightPattern data sheet lo
        (((hi : ℚ) - lo) / indices.length) indices.length))) m₁ fun _ m₂ =>
      ∃ f₂, Painted sheet f₂ m₂ ∧ f₂ (.volume device) = some { top := top, right := right } ∧
        (∀ j (hj : j < indices.length),
          PatternLit sheet.sessionsAvail indices.length j indices[j] f₂) ∧
        ∀ ref ∉ ownVolume data sheet.sessionsAvail device, f₂ ref = f ref := by
    unfold onlyIf
    by_cases hnil : indices = []
    · subst hnil
      rw [if_neg (by simp)]
      refine Action.Returns.pure ⟨_, h₁, by simp, by simp, fun ref href => ?_⟩
      exact Function.update_of_ne (fun heq => href (.inl heq)) _ _
    · rw [if_pos (by simpa using hnil)]
      rw [Filled, if_neg hnil] at hfilled
      obtain ⟨rows, hpos, hstop, hcells⟩ := hfilled
      have hspan := rowspan_eq (List.length_pos_of_ne_nil hnil) hstop
      rw [hspan]
      have hnodup : indices.Nodup := hperm.nodup_iff.mpr (nodup_bound device)
      have hround : ∀ j (hj : j < indices.length),
          Paints sheet (ownPattern sheet.sessionsAvail indices[j])
            (highlightPattern data sheet lo rows indices.length j)
            (AllUnmarked (ownPattern sheet.sessionsAvail indices[j]))
            (PatternLit sheet.sessionsAvail indices.length j indices[j]) := by
        intro j hj
        obtain ⟨hcell', hrows⟩ := hcells j hj
        obtain ⟨entry, hentry, hindex⟩ := hbound indices[j] (List.getElem_mem hj)
        have hpattern := (filename_of_bound hentry).1
        rw [hindex] at hpattern
        exact highlightPattern_paints hsessions (by push_cast; rfl) hpattern hcell' hrows
      have hloop := Action.Local.forEach_range
        (O := ownPattern sheet.sessionsAvail)
        (P := fun _ index => AllUnmarked (ownPattern sheet.sessionsAvail index))
        (Q := PatternLit sheet.sessionsAvail indices.length)
        (fun j hj => allUnmarked_within (ownPattern sheet.sessionsAvail indices[j]))
        (fun j hj => patternLit_within sheet.sessionsAvail indices.length j indices[j])
        (hnodup.imp fun hdiff => ownPattern_apart hsessions hdiff) hround
      refine (h₁.of_paints hloop fun j hj ref href => ?_).mono ?_
      · have hin : ref ∈ ⋃ index ∈ indices, ownPattern sheet.sessionsAvail index :=
          Set.mem_biUnion (List.getElem_mem hj) href
        rw [Unmarked, Function.update_of_ne (hapart ref hin)]
        exact hunmarked ref (hown hin)
      · rintro _ m₂ ⟨f₂, h₂, hpatterns, hsame⟩
        refine ⟨f₂, h₂, ?_, hpatterns, fun ref href => ?_⟩
        · rw [hsame _ fun hin => hapart _ hin rfl, Function.update_self]
        · rw [hsame ref fun hin => href (.inr (hown hin))]
          exact Function.update_of_ne (fun heq => href (.inl heq)) _ _
  refine hmiddle.bind fun _ m₂ hdone => ?_
  obtain ⟨f₂, h₂, hlit, hpatterns, hsame⟩ := hdone
  refine (h₂.set hlit _).mono fun _ m₃ h₃ => ?_
  refine ⟨_, h₃, ⟨?_, fun j hj => ?_⟩, fun ref href => ?_⟩
  · simp
  · refine patternLit_within _ _ j indices[j] f₂ _ (fun ref href => ?_) (hpatterns j hj)
    exact Function.update_of_ne
      (hapart ref (Set.mem_biUnion (List.getElem_mem hj) href)) _ _
  · rw [Function.update_of_ne fun heq => href (.inl heq), hsame ref href]

/-! ## The columns of a block -/

theorem highlightPhysicals_paints {sorted : List PhysicalId} {lo rows : Nat} {future : ℚ}
    (hpos : 0 < rows) (hnodup : sorted.Nodup)
    (hfuture : future = ((lo + sorted.length * rows : Nat) : ℚ))
    (hcells : ∀ i (hi : i < sorted.length),
      sheet.cell .physical ((lo + i * rows : Nat) : ℚ) = some (.physical sorted[i])) :
    Paints sheet {ref | ∃ p ∈ sorted, ref = .physical p}
      (highlightPhysicals sheet lo future rows)
      (fun f => ∀ i (hi : i < sorted.length), ∃ left,
        (f (.physical sorted[i])).getD {} = { left := left, top := decide (i = 0) })
      (fun f => ∀ i (hi : i < sorted.length),
        f (.physical sorted[i]) = some { left := true, top := decide (i = 0) }) := by
  have hround : ∀ i (hi : i < sorted.length), Paints sheet {.physical sorted[i]}
      (do
        let physical ← cellAt sheet .physical ((lo + i * rows : Nat) : ℚ)
        checkHighlightsAttribute physical
        setHighlight physical fun h => { h with left := true })
      (fun f => ∃ left,
        (f (.physical sorted[i])).getD {} = { left := left, top := decide (i = 0) })
      (fun f => f (.physical sorted[i]) = some { left := true, top := decide (i = 0) }) := by
    intro i hi
    apply paints_of_painted
    rintro f m hpainted ⟨left, hleft⟩
    refine cellAt_bind (hcells i hi) ?_
    refine (hpainted.check _).bind fun _ m₁ h₁ => ?_
    rw [hleft] at h₁
    refine (h₁.set (Function.update_self ..) _).mono fun _ m₂ h₂ => ?_
    rw [Function.update_idem] at h₂
    exact ⟨_, h₂, Function.update_self .., fun ref href => Function.update_of_ne href _ _⟩
  have hloop := Action.Local.forEach_range (O := fun p => {Ref.physical p})
    (P := fun i p (f : Ref → Option Highlight) => ∃ left,
      (f (.physical p)).getD {} = { left := left, top := decide (i = 0) })
    (Q := fun i p f => f (.physical p) = some { left := true, top := decide (i = 0) })
    (fun i hi => within_ref (.physical sorted[i]) fun highlight => ∃ left,
      highlight.getD {} = { left := left, top := decide (i = 0) })
    (fun i hi => within_ref (.physical sorted[i]) fun highlight =>
      highlight = some { left := true, top := decide (i = 0) })
    (hnodup.imp fun hdiff => Set.disjoint_singleton.mpr fun heq => hdiff (by injection heq))
    hround
  unfold highlightPhysicals
  rw [hfuture, numericFor_rows lo sorted.length hpos, Action.forEach_map]
  refine hloop.mono ?_ (fun _ hP => hP) fun _ hQ => hQ
  intro ref href
  simpa using href

theorem highlightVolumes_paints {devices : List String} {lo rows : Nat} (future : ℚ)
    {indices : Nat → List Nat} (hnames : (data.accessPatterns.map (·.name)).Nodup)
    (hsessions : Sessions sheet.sessionsAvail) (hpos : 0 < rows) (hnodup : devices.Nodup)
    (hfuture : future = ((lo + devices.length * rows : Nat) : ℚ))
    (hvolume : ∀ device ∈ devices, ∃ volume, data.volume device = some volume)
    (hcells : ∀ i (hi : i < devices.length),
      sheet.cell .volume ((lo + i * rows : Nat) : ℚ) = some (.volume devices[i]) ∧
      (indices i).Perm ((boundPatterns data devices[i]).map (·.2)) ∧
      Filled Set.univ sheet {.pattern, .session} .pattern .pattern
        (sessionRows Set.univ sheet.sessionsAvail sheet) (lo + i * rows) (indices i)
        (lo + (i + 1) * rows)) :
    Paints sheet (⋃ device ∈ devices, ownVolume data sheet.sessionsAvail device)
      (highlightVolumes data sheet lo future rows)
      (fun f => ∀ i (hi : i < devices.length),
        VolumeWaiting data sheet.sessionsAvail (decide (i = 0)) devices[i] f)
      (fun f => ∀ i (hi : i < devices.length),
        VolumeLit sheet.sessionsAvail (decide (i = 0)) false devices[i] (indices i) f) := by
  have hround : ∀ i (hi : i < devices.length),
      Paints sheet (ownVolume data sheet.sessionsAvail devices[i])
        (highlightVolume data sheet rows ((lo + i * rows : Nat) : ℚ))
        (VolumeWaiting data sheet.sessionsAvail (decide (i = 0)) devices[i])
        (VolumeLit sheet.sessionsAvail (decide (i = 0)) false devices[i] (indices i)) := by
    intro i hi
    obtain ⟨hcell, hperm, hfilled⟩ := hcells i hi
    obtain ⟨volume, hvol⟩ := hvolume devices[i] (List.getElem_mem hi)
    have hone := highlightVolume_paints (decide (i = 0)) hnames hsessions hvol hcell hperm
      hfilled
    have hspan : ((lo + (i + 1) * rows : Nat) : ℚ) - ((lo + i * rows : Nat) : ℚ) = rows := by
      push_cast
      ring
    rwa [hspan] at hone
  have hloop := Action.Local.forEach_range
    (O := ownVolume data sheet.sessionsAvail)
    (P := fun i => VolumeWaiting data sheet.sessionsAvail (decide (i = 0)))
    (Q := fun i device =>
      VolumeLit sheet.sessionsAvail (decide (i = 0)) false device (indices i))
    (fun i hi => volumeWaiting_within sheet.sessionsAvail (decide (i = 0)) devices[i])
    (fun i hi => volumeLit_within sheet.sessionsAvail (decide (i = 0)) false
      (hcells i hi).2.1)
    (hnodup.imp fun hdiff => ownVolume_apart hsessions hdiff) hround
  unfold highlightVolumes
  rw [hfuture, numericFor_rows lo devices.length hpos, Action.forEach_map]
  exact hloop

end OpenSan.Matrix
