import OpenSan.Matrix.Overall
import OpenSan.Matrix.Steps

/-!
# The complete table

The sessions are assigned before the arrays are drawn; the free disks and the
unbound patterns are drawn below them.  Neither disturbs the blocks.
-/

namespace OpenSan.Matrix

open OpenSan.Foundation OpenSan.Einarc Sheet

/-! ## Sessions -/

def firstBy (data : Data) (order : Order) (key : Pattern → String)
    (value : String) : Option (Pattern × Nat) :=
  ((patternsBy data order key).lookup value).bind (·.head?)

def firstOf (data : Data) (order : Order) (sectionName : String) :
    Option (Pattern × Nat) :=
  firstBy data order (·.sectionName) sectionName

def ownSessions (data : Data) (order : Order) (index : Nat) : List Ref :=
  match data.accessPatterns[index]? with
  | some pattern =>
      if firstOf data order pattern.sectionName = some (pattern, index) then
        (data.sessionNames pattern.sectionName).map (.session pattern.sectionName)
      else []
  | none => []

variable {data : Data} {order : Order} {s : Sheet}

theorem firstBy_eq_some {key : Pattern → String} {value : String}
    {entry : Pattern × Nat} (h : firstBy data order key value = some entry) :
    data.accessPatterns[entry.2]? = some entry.1 ∧ key entry.1 = value := by
  unfold firstBy patternsBy at h
  rw [lookup_uniqueKeys] at h
  split at h
  · cases h
  · have hmem : entry ∈ (order.visit data.accessPatterns.zipIdx).filter
        fun e => key e.1 = value := List.mem_of_head? h
    obtain ⟨hvisit, hkey⟩ := List.mem_filter.mp hmem
    exact ⟨List.mem_zipIdx_iff_getElem?.mp ((order.mem_visit).mp hvisit),
      of_decide_eq_true hkey⟩

theorem exists_firstBy {key : Pattern → String} {value : String}
    (h : value ∈ (patternsBy data order key).keys) :
    ∃ entry, firstBy data order key value = some entry := by
  obtain ⟨entry, hmem, hkey⟩ := mem_keys_uniqueKeys.mp h
  have hne : (order.visit data.accessPatterns.zipIdx).filter
      (fun e => key e.1 = value) ≠ [] := by
    apply List.ne_nil_of_mem (a := entry)
    exact List.mem_filter.mpr ⟨hmem, decide_eq_true hkey⟩
  unfold firstBy patternsBy
  rw [lookup_uniqueKeys, if_neg hne]
  exact ⟨_, List.head?_eq_some_head hne⟩

theorem mem_ownSessions {index : Nat} {ref : Ref}
    (h : ref ∈ ownSessions data order index) :
    ∃ pattern name, ref = .session pattern.sectionName name ∧
      firstOf data order pattern.sectionName = some (pattern, index) := by
  unfold ownSessions at h
  split at h
  · rename_i pattern _
    split at h
    · rename_i hfirst
      obtain ⟨name, _, rfl⟩ := List.mem_map.mp h
      exact ⟨pattern, name, rfl, hfirst⟩
    · cases h
  · cases h

theorem sessions_of_perm {avail : Nat → List Ref}
    (h : ∀ index, (avail index).Perm (ownSessions data order index)) :
    Sessions avail where
  nodup index := by
    rw [(h index).nodup_iff]
    unfold ownSessions
    split
    · rename_i pattern _
      split
      · have hnames : (data.sessionNames pattern.sectionName).Nodup := by
          unfold Data.sessionNames
          split
          · rename_i names _
            exact names.property
          · exact List.nodup_nil
        exact hnames.map fun a b heq => by
          cases heq
          rfl
      · exact List.nodup_nil
    · exact List.nodup_nil
  isSession index ref href := by
    obtain ⟨pattern, name, heq, _⟩ := mem_ownSessions ((h index).mem_iff.mp href)
    exact ⟨pattern.sectionName, name, heq⟩
  apart i j hne ref href hother := by
    obtain ⟨p, name, heq, hfirst⟩ := mem_ownSessions ((h i).mem_iff.mp href)
    obtain ⟨p', name', heq', hfirst'⟩ := mem_ownSessions ((h j).mem_iff.mp hother)
    rw [heq] at heq'
    injection heq' with hsection _
    rw [hsection, hfirst'] at hfirst
    exact hne (congrArg Prod.snd (Option.some.inj hfirst)).symm

def Served (data : Data) (order : Order) (sections : List String) (index : Nat) : Prop :=
  ∃ sectionName ∈ sections, ∃ pattern,
    firstOf data order sectionName = some (pattern, index)

section Served

variable {data : Data} {order : Order} {sections : List String}
  {sectionName : String} {pattern : Pattern} {first : Nat}

private theorem served_snoc
    (hfirst : firstOf data order sectionName = some (pattern, first)) (index : Nat) :
    Served data order (sections ++ [sectionName]) index ↔
      Served data order sections index ∨ index = first := by
  simp only [Served, List.mem_append, List.mem_singleton]
  constructor
  · rintro ⟨other, hold | rfl, entry, hentry⟩
    · exact .inl ⟨other, hold, entry, hentry⟩
    · rw [hfirst] at hentry
      exact .inr (congrArg Prod.snd (Option.some.inj hentry)).symm
  · rintro (⟨other, hold, hentry⟩ | rfl)
    · exact ⟨other, .inl hold, hentry⟩
    · exact ⟨sectionName, .inr rfl, pattern, hfirst⟩

private theorem not_served_first
    (hfirst : firstOf data order sectionName = some (pattern, first))
    (hnew : sectionName ∉ sections) : ¬ Served data order sections first := by
  rintro ⟨other, hmem, entry, hentry⟩
  obtain ⟨hpattern, hsection⟩ := firstBy_eq_some hfirst
  obtain ⟨hpattern', hsection'⟩ := firstBy_eq_some hentry
  rw [hpattern] at hpattern'
  rw [← Option.some.inj hpattern', hsection] at hsection'
  exact hnew (hsection' ▸ hmem)

private theorem ownSessions_first
    (hfirst : firstOf data order sectionName = some (pattern, first)) :
    ownSessions data order first =
      (data.sessionNames sectionName).map (.session sectionName) := by
  obtain ⟨hpattern, hsection⟩ := firstBy_eq_some hfirst
  simp only [ownSessions, hpattern]
  rw [hsection, if_pos hfirst]

private theorem ownSessions_of_not_served {index : Nat}
    (h : ¬ Served data order
      (order.visit (patternsBy data order (·.sectionName)).keys) index) :
    ownSessions data order index = [] := by
  apply List.eq_nil_iff_forall_not_mem.mpr
  intro ref href
  obtain ⟨pattern, name, _, hfirst⟩ := mem_ownSessions href
  refine h ⟨pattern.sectionName, ?_, pattern, hfirst⟩
  apply (order.mem_visit).mpr
  apply mem_keys_uniqueKeys.mpr
  obtain ⟨hpattern, _⟩ := firstBy_eq_some hfirst
  exact ⟨(pattern, index),
    (order.mem_visit).mpr (List.mem_zipIdx_iff_getElem?.mpr hpattern), rfl⟩

end Served

theorem fillSessionsAvail_returns (data : Data) (order : Order)
    (hnone : ∀ index, s.sessionsAvail index = []) :
    Action.Returns (fillSessionsAvail data order) s fun _ s' =>
      s' = { s with sessionsAvail := s'.sessionsAvail } ∧
      ∀ index, (s'.sessionsAvail index).Perm (ownSessions data order index) := by
  let sections := patternsBy data order (·.sectionName)
  let keys := order.visit sections.keys
  have hkeys : keys.Nodup := (order.perm _).nodup_iff.mpr sections.keys_nodup
  -- the patterns served by the first `i` sections have their sessions
  have hloop : Action.Returns (fillSessionsAvail data order) s fun _ s' =>
      s' = { s with sessionsAvail := s'.sessionsAvail } ∧ ∀ index,
        (Served data order (keys.take keys.length) index →
          (s'.sessionsAvail index).Perm (ownSessions data order index)) ∧
        (¬ Served data order (keys.take keys.length) index →
          s'.sessionsAvail index = []) := by
    refine Action.Returns.forEach keys
      (I := fun i (s' : Sheet) => s' = { s with sessionsAvail := s'.sessionsAvail } ∧
        ∀ index, (Served data order (keys.take i) index →
            (s'.sessionsAvail index).Perm (ownSessions data order index)) ∧
          (¬ Served data order (keys.take i) index → s'.sessionsAvail index = []))
      ⟨rfl, ?_⟩ ?_
    · intro index
      refine ⟨fun h => ?_, fun _ => hnone index⟩
      obtain ⟨sectionName, hmem, _⟩ := h
      simp at hmem
    rintro i hi s₁ ⟨hsame, hserved⟩
    have hmem : keys[i] ∈ sections.keys :=
      (order.mem_visit).mp (List.getElem_mem hi)
    obtain ⟨⟨pattern, first⟩, hfirst⟩ : ∃ entry,
        firstOf data order keys[i] = some entry := exists_firstBy hmem
    have hnext : ∀ index, Served data order (keys.take i ++ [keys[i]]) index ↔
        Served data order (keys.take i) index ∨ index = first := served_snoc hfirst
    have hfresh : ¬ Served data order (keys.take i) first := by
      refine not_served_first hfirst fun htake => ?_
      obtain ⟨j, hj, heq⟩ := List.mem_take_iff_getElem.mp htake
      have : j = i := (hkeys.getElem_inj_iff).mp heq
      omega
    have hfound : nonNil "access_pattern" (firstOf data order keys[i]) =
        .ok (pattern, first) := by
      rw [hfirst]
      rfl
    rw [List.take_succ_eq_append_getElem hi]
    refine Action.Returns.lift_bind hfound ?_
    by_cases hempty : order.visit (data.sessionNames keys[i]) = []
    · rw [if_neg (by simp [hempty])]
      have hnil : data.sessionNames keys[i] = [] := by
        have hperm := order.perm (data.sessionNames keys[i])
        rw [hempty] at hperm
        exact hperm.nil_eq.symm
      refine Action.Returns.pure ⟨hsame, fun index => ?_⟩
      rw [hnext index]
      refine ⟨?_, fun h => (hserved index).2 fun h' => h (.inl h')⟩
      rintro (h | rfl)
      · exact (hserved index).1 h
      · rw [(hserved index).2 hfresh, ownSessions_first hfirst, hnil]
        exact .refl _
    · rw [if_pos (List.length_pos_of_ne_nil hempty)]
      obtain ⟨sorted, hsort, hperm⟩ := Sort.sort_perm
        (less_asymmetric (α := String)) (order.visit (data.sessionNames keys[i]))
      refine Action.Returns.lift_bind hsort ?_
      refine Action.Returns.modify ⟨?_, fun index => ?_⟩
      · rw [hsame]
      · rw [hnext index]
        by_cases hindex : index = first
        · subst hindex
          refine ⟨fun _ => ?_, fun h => absurd (.inr rfl) h⟩
          simp only [Function.update_self]
          rw [ownSessions_first hfirst]
          exact (hperm.trans (order.perm _)).map _
        · simp only [Function.update_of_ne hindex]
          refine ⟨fun h => (hserved index).1 (h.resolve_right hindex),
            fun h => (hserved index).2 fun h' => h (.inl h')⟩
  refine hloop.mono ?_
  rintro _ s' ⟨hsame, hserved⟩
  refine ⟨hsame, fun index => ?_⟩
  rw [List.take_length] at hserved
  by_cases h : Served data order keys index
  · exact (hserved index).1 h
  · rw [(hserved index).2 h, ownSessions_of_not_served h]

/-! ## Free disks and unbound patterns -/

def Unbound (data : Data) (index : Nat) : Prop :=
  ∃ pattern, data.accessPatterns[index]? = some pattern ∧ pattern.filename = none

/-- From `s` to `s'` the lines `n` to `stop - 1` have been added, with free
disks and unbound patterns in them. -/
structure Tail (data : Data) (n stop : Nat) (s s' : Sheet) : Prop where
  cells : ∀ column (row : ℚ), row < n → s'.cell column row = s.cell column row
  lines : ∀ row : ℚ, row < n → (s'.HasLine row ↔ s.HasLine row)
  new : ∀ row : ℚ, n ≤ row →
    (s'.HasLine row ↔ ∃ k : Nat, n ≤ k ∧ k < stop ∧ row = k)
  blank : ∀ column, column ≠ .physical → column ≠ .pattern →
    ∀ row : ℚ, n ≤ row → s'.cell column row = none
  free : ∀ row : ℚ, n ≤ row → ∀ ref, s'.cell .physical row = some ref →
    ∃ id, ref = .free id
  once : ∀ row row' : ℚ, n ≤ row → n ≤ row' → ∀ ref,
    s'.cell .physical row = some ref → s'.cell .physical row' = some ref →
    row = row'
  patterns : ∀ row : ℚ, n ≤ row → ∀ ref, s'.cell .pattern row = some ref →
    ∃ index, Unbound data index ∧ ref = .pattern index
  rowspans : ∀ ref, (∀ id, ref ≠ .free id) →
    (∀ index, Unbound data index → ref ≠ .pattern index) →
    s'.rowspan ref = s.rowspan ref
  sessionsAvail : s'.sessionsAvail = s.sessionsAvail
  members : s'.members = s.members

theorem Tail.refl {n : Nat} (hblank : ∀ row : ℚ, n ≤ row → ¬ s.HasLine row) :
    Tail data n n s s where
  cells _ _ _ := rfl
  lines _ _ := .rfl
  new row hrow := by
    refine iff_of_false (hblank row hrow) ?_
    rintro ⟨k, hk, hk', _⟩
    omega
  blank column _ _ row hrow := cell_eq_none_of_not_hasLine (hblank row hrow) column
  free row hrow ref h := by
    rw [cell_eq_none_of_not_hasLine (hblank row hrow)] at h
    cases h
  once row _ hrow _ ref h := by
    rw [cell_eq_none_of_not_hasLine (hblank row hrow)] at h
    cases h
  patterns row hrow ref h := by
    rw [cell_eq_none_of_not_hasLine (hblank row hrow)] at h
    cases h
  rowspans _ _ _ := rfl
  sessionsAvail := rfl
  members := rfl

theorem Tail.setLine {n stop : Nat} {s' : Sheet} {line : Line} (hle : n ≤ stop)
    (h : Tail data n stop s s')
    (hline : ∀ column, column ≠ .physical → line column = none)
    (hfree : ∀ ref, line .physical = some ref → ∃ id, ref = .free id)
    (honce : ∀ ref, line .physical = some ref → ∀ row : ℚ, n ≤ row →
      s'.cell .physical row ≠ some ref) :
    Tail data n (stop + 1) s (s'.setLine stop line) where
  cells column row hrow := by
    have hle : (n : ℚ) ≤ stop := by exact_mod_cast hle
    rw [cell_setLine, if_neg (by rintro rfl; linarith), h.cells column row hrow]
  lines row hrow := by
    have hle : (n : ℚ) ≤ stop := by exact_mod_cast hle
    rw [hasLine_setLine, h.lines row hrow]
    exact or_iff_right (by rintro rfl; linarith)
  new row hrow := by
    rw [hasLine_setLine, h.new row hrow]
    constructor
    · rintro (rfl | ⟨k, hk, hk', rfl⟩)
      · exact ⟨stop, hle, by omega, rfl⟩
      · exact ⟨k, hk, by omega, rfl⟩
    · rintro ⟨k, hk, hk', rfl⟩
      rcases Nat.lt_succ_iff_lt_or_eq.mp hk' with hlt | heq
      · exact .inr ⟨k, hk, hlt, rfl⟩
      · exact .inl (by rw [heq])
  blank column hphysical hpattern row hrow := by
    rw [cell_setLine]
    split
    · exact hline column hphysical
    · exact h.blank column hphysical hpattern row hrow
  free row hrow ref href := by
    rw [cell_setLine] at href
    split at href
    · exact hfree ref href
    · exact h.free row hrow ref href
  once row row' hrow hrow' ref href href' := by
    rw [cell_setLine] at href href'
    split at href
    · rename_i heq
      split at href'
      · rename_i heq'
        rw [heq, heq']
      · exact absurd href' (honce ref href row' hrow')
    · split at href'
      · exact absurd href (honce ref href' row hrow)
      · exact h.once row row' hrow hrow' ref href href'
  patterns row hrow ref href := by
    rw [cell_setLine] at href
    split at href
    · rw [hline .pattern (by simp)] at href
      cases href
    · exact h.patterns row hrow ref href
  rowspans := h.rowspans
  sessionsAvail := h.sessionsAvail
  members := h.members

theorem Tail.update {n stop : Nat} {s' : Sheet} {ref : Ref}
    {f : Record → Record} (h : Tail data n stop s s')
    (href : (∃ id, ref = .free id) ∨
      ∃ index, Unbound data index ∧ ref = .pattern index) :
    Tail data n stop s (s'.update ref f) :=
  { h with
    rowspans := fun other hfree hunbound => by
      rw [rowspan_update_ne, h.rowspans other hfree hunbound]
      rintro rfl
      rcases href with ⟨id, heq⟩ | ⟨index, hindex, heq⟩
      · exact hfree id heq
      · exact hunbound index hindex heq }

theorem fillFree_returns (data : Data) {n : Nat} (hnodup : s.physicalsFree.Nodup)
    (hblank : ∀ row : ℚ, n ≤ row → ¬ s.HasLine row) :
    Action.Returns (fillFree order n) s fun _ s' =>
      ∃ stop, n ≤ stop ∧ Tail data n stop s s' := by
  obtain ⟨sorted, hsort, hperm⟩ := Physical.sort_perm order
    (fun id => (s.records (.free id)).state) s.physicalsFree
  unfold fillFree
  refine Action.Returns.query_bind hsort ?_
  have hitems : (order.visit sorted).Nodup :=
    ((order.perm sorted).trans hperm).nodup_iff.mpr hnodup
  generalize order.visit sorted = items at hitems ⊢
  -- after `i` rounds the lines show the first `i` disks
  refine (Action.Returns.forEach _
    (I := fun i s' => Tail data n (n + i) s s' ∧
      ∀ row : ℚ, n ≤ row → ∀ id, s'.cell .physical row = some (.free id) →
        id ∈ items.take i) ⟨.refl hblank, ?_⟩ ?_).mono ?_
  · intro row hrow id h
    rw [cell_eq_none_of_not_hasLine (hblank row hrow)] at h
    cases h
  · rintro i hi s₁ ⟨htail, hshown⟩
    have hi' : i < items.length := by simpa using hi
    simp only [List.getElem_zipIdx, Nat.zero_add]
    have hrow : (n : ℚ) + (i : ℚ) = ((n + i : Nat) : ℚ) := by push_cast; rfl
    rw [hrow]
    refine Action.Returns.modify_bind (Action.Returns.modify ⟨?_, ?_⟩)
    · refine (htail.setLine (by omega) ?_ ?_ ?_).update (.inl ⟨_, rfl⟩)
      · intro column hphysical
        rw [Function.update_of_ne hphysical]
        rfl
      · intro ref href
        rw [Function.update_self] at href
        exact ⟨_, (Option.some.inj href).symm⟩
      · intro ref href row hrow hcell
        rw [Function.update_self] at href
        rw [← Option.some.inj href] at hcell
        obtain ⟨j, hj, heq⟩ := List.mem_take_iff_getElem.mp (hshown row hrow _ hcell)
        have : j = i := (hitems.getElem_inj_iff).mp heq
        omega
    · intro row hrow id hcell
      rw [cell_update, cell_setLine] at hcell
      rw [List.take_succ_eq_append_getElem hi', List.mem_append, List.mem_singleton]
      split at hcell
      · rw [Function.update_self] at hcell
        injection hcell with hcell
        injection hcell with hcell
        exact .inr hcell.symm
      · exact .inl (hshown row hrow id hcell)
  · rintro _ s' ⟨htail, _⟩
    exact ⟨_, Nat.le_add_right n _, htail⟩

theorem unboundPatterns_ok (data : Data) (order : Order) :
    ∃ indices, unboundPatterns data order = .ok indices ∧
      ∀ index ∈ indices, Unbound data index := by
  obtain ⟨names, hsort, hperm⟩ := Sort.sort_perm (less_asymmetric (α := String))
    (order.visit (patternsBy data order (·.name)).keys)
  have hfirst : ∀ name ∈ names, ∃ entry,
      firstBy data order (·.name) name = some entry := fun name hname =>
    exists_firstBy ((order.mem_visit).mp (hperm.mem_iff.mp hname))
  have hfirsts : ∃ firsts, (names.mapM fun name => nonNil "access_pattern"
        (firstBy data order (·.name) name)) = .ok firsts ∧
      ∀ entry ∈ firsts, data.accessPatterns[entry.2]? = some entry.1 := by
    clear hsort hperm
    induction names with
    | nil => exact ⟨[], rfl, by simp⟩
    | cons name names ih =>
        obtain ⟨entry, hentry⟩ := hfirst name (by simp)
        obtain ⟨firsts, hrest, hmem⟩ := ih fun other hother =>
          hfirst other (by simp [hother])
        refine ⟨entry :: firsts, ?_, ?_⟩
        · rw [List.mapM_cons, hentry, hrest]
          rfl
        · intro other hother
          rcases List.mem_cons.mp hother with heq | hin
          · rw [heq]
            exact (firstBy_eq_some hentry).1
          · exact hmem other hin
  obtain ⟨firsts, hfirsts, hmem⟩ := hfirsts
  refine ⟨(firsts.filter fun entry => entry.1.filename.isNone).map (·.2), ?_, ?_⟩
  · change (Sort.sort less _ >>= _) = _
    rw [show Sort.sort less _ = _ from hsort, ok_bind]
    change (names.mapM (fun name => nonNil "access_pattern"
      (firstBy data order (·.name) name)) >>= _) = _
    rw [hfirsts, ok_bind]
    rfl
  · intro index hindex
    obtain ⟨entry, hentry, rfl⟩ := List.mem_map.mp hindex
    obtain ⟨hfirsts, hnone⟩ := List.mem_filter.mp hentry
    exact ⟨entry.1, hmem entry hfirsts, Option.isNone_iff_eq_none.mp hnone⟩

theorem fillUnbound_returns {n stop : Nat} {s' : Sheet} (hle : n ≤ stop)
    (htail : Tail data n stop s s') :
    Action.Returns (fillUnbound data order n) s' fun _ s'' =>
      ∃ stop, n ≤ stop ∧ Tail data n stop s s'' := by
  obtain ⟨indices, hok, hunbound⟩ := unboundPatterns_ok data order
  unfold fillUnbound
  refine Action.Returns.lift_bind hok ?_
  refine (Action.Returns.forEach _
    (I := fun i s'' => ∃ stop, n + i ≤ stop ∧ Tail data n stop s s'')
    ⟨stop, hle, htail⟩ ?_).mono ?_
  · rintro i hi s₁ ⟨stop₁, hstop₁, htail₁⟩
    have hindex : Unbound data (indices.zipIdx[i]).1 := by
      apply hunbound
      rw [List.getElem_zipIdx]
      exact List.getElem_mem _
    simp only [List.getElem_zipIdx, Nat.zero_add] at hindex ⊢
    have hrow : (n : ℚ) + (i : ℚ) = ((n + i : Nat) : ℚ) := by push_cast; rfl
    have hn : (n : ℚ) ≤ ((n + i : Nat) : ℚ) := by exact_mod_cast Nat.le_add_right n i
    rw [hrow]
    have hensure : Action.Returns (ensureLine ((n + i : Nat) : ℚ)) s₁ fun _ s₂ =>
        ∃ stop, n + i < stop ∧ Tail data n stop s s₂ := by
      rcases Nat.lt_or_eq_of_le hstop₁ with hlt | heq
      · refine (ensureLine_returns ((htail₁.new _ hn).mpr
          ⟨n + i, by omega, hlt, rfl⟩)).mono ?_
        intro _ _ hsame
        rw [hsame]
        exact ⟨stop₁, hlt, htail₁⟩
      · have hno : ¬ s₁.HasLine ((n + i : Nat) : ℚ) := by
          rw [htail₁.new _ hn]
          rintro ⟨k, _, hk, hrow⟩
          have : n + i = k := by exact_mod_cast hrow
          omega
        refine Action.Returns.modify ⟨stop₁ + 1, by omega, ?_⟩
        rw [if_pos (by simpa [HasLine] using hno), heq]
        exact htail₁.setLine (by omega) (fun _ _ => rfl)
          (fun ref href => by cases href) (fun ref href => by cases href)
    refine hensure.bind ?_
    rintro _ s₂ ⟨stop₂, hstop₂, htail₂⟩
    refine Action.Returns.read_bind ?_
    refine (fill_written ((htail₂.new _ hn).mpr ⟨n + i, by omega, hstop₂, rfl⟩)).bind ?_
    intro _ s₃ hwritten
    refine Action.Returns.modify ⟨stop₂, by omega, ?_⟩
    refine Tail.update ?_ (.inr ⟨_, hindex, rfl⟩)
    have hphysical : ∀ column row, column ≠ .pattern →
        s₃.cell column row = s₂.cell column row := by
      intro column row hcolumn
      rw [hwritten.cells, if_neg fun h => hcolumn h.2]
    constructor
    · intro column row hrow'
      rw [hwritten.cells, if_neg (by rintro ⟨rfl, _⟩; linarith),
        htail₂.cells column row hrow']
    · intro row hrow'
      rw [hwritten.lines, htail₂.lines row hrow']
    · intro row hrow'
      rw [hwritten.lines, htail₂.new row hrow']
    · intro column hcolumn hpattern row hrow'
      rw [hphysical column row hpattern]
      exact htail₂.blank column hcolumn hpattern row hrow'
    · intro row hrow' ref href
      rw [hphysical .physical row (by simp)] at href
      exact htail₂.free row hrow' ref href
    · intro row row' hrow' hrow'' ref href href'
      rw [hphysical .physical _ (by simp)] at href href'
      exact htail₂.once row row' hrow' hrow'' ref href href'
    · intro row hrow' ref href
      rw [hwritten.cells] at href
      split at href
      · exact ⟨_, hindex, (Option.some.inj href).symm⟩
      · exact htail₂.patterns row hrow' ref href
    · intro ref hfree hnot
      rw [hwritten.rowspans ref (hnot _ hindex), htail₂.rowspans ref hfree hnot]
    · rw [hwritten.sessionsAvail, htail₂.sessionsAvail]
    · rw [hwritten.members, htail₂.members]
  · rintro _ s'' ⟨stop, hstop, htail⟩
    exact ⟨stop, by omega, htail⟩

/-! ## The table as a whole -/

/-- The finished table: `n` is the line below the blocks, `stop` the line below
everything. -/
structure Drawn (G : Set Ref) (data : Data) (order : Order) (ids : List Nat)
    (n stop : Nat) (s : Sheet) : Prop where
  perm : ids.Perm data.logicals.keys
  sessions : ∀ index, (s.sessionsAvail index).Perm (ownSessions data order index)
  blocks : Blocks G data s.sessionsAvail s 1 ids n
  members : ∀ id logical, data.logicals.lookup id = some logical →
    s.members id = memberIds data logical
  le : n ≤ stop
  lines : ∀ k : Nat, 1 ≤ k → (s.HasLine k ↔ k < stop)
  blank : ∀ column, column ≠ .physical → column ≠ .pattern →
    ∀ row : ℚ, n ≤ row → s.cell column row = none
  free : ∀ row : ℚ, n ≤ row → ∀ ref, s.cell .physical row = some ref →
    ∃ id, ref = .free id
  once : ∀ row row' : ℚ, n ≤ row → n ≤ row' → ∀ ref,
    s.cell .physical row = some ref → s.cell .physical row' = some ref →
    row = row'
  patterns : ∀ row : ℚ, n ≤ row → ∀ ref, s.cell .pattern row = some ref →
    ∃ index, Unbound data index ∧ ref = .pattern index
  sizes : ∀ ref, ∃ size, (s.records ref).size = .mib size

theorem Blocks.le {G : Set Ref} {avail : Nat → List Ref} {lo stop : Nat}
    {ids : List Nat} (h : Blocks G data avail s lo ids stop) : lo ≤ stop :=
  (Blocks.stable h fun _ => (⟨fun _ _ _ _ _ => rfl, fun _ _ => rfl⟩ : Agree _ _ _ _ s s)).1

theorem not_mem_own {avail : Nat → List Ref} (hsessions : Sessions avail)
    {ref : Ref} {id : Nat} (h : ref ∈ own data avail id) :
    (∀ disk, ref ≠ .free disk) ∧
      ∀ index, Unbound data index → ref ≠ .pattern index := by
  obtain ⟨logical, _, (rfl | ⟨p, _, rfl⟩) | hvolume⟩ := h
  · simp
  · simp
  · obtain ⟨device, _, hown⟩ := Set.mem_iUnion₂.mp hvolume
    rcases mem_ownVolume hsessions hown with rfl | ⟨entry, hentry, rfl | ⟨_, _, _, rfl⟩⟩
    · simp
    · refine ⟨by simp, ?_⟩
      rintro index ⟨pattern, hpattern, hnone⟩ heq
      cases heq
      obtain ⟨hindex, hname⟩ := filename_of_bound hentry
      rw [hindex] at hpattern
      rw [Option.some.inj hpattern, hnone] at hname
      cases hname
    · simp

theorem fillRest_returns {G : Set Ref} (order : Order) {ids : List Nat}
    {n : Nat} {s₁ : Sheet} (hsessions : Sessions s.sessionsAvail)
    (hnodup : s₁.physicalsFree.Nodup)
    (hgrown : Grown (⋃ id ∈ ids, own data s.sessionsAvail id) ids 1 n s s₁)
    (hblocks : Blocks G data s.sessionsAvail s₁ 1 ids n) :
    Action.Returns (do fillFree order n; fillUnbound data order n) s₁ fun _ s' =>
      ∃ stop, n ≤ stop ∧ Tail data n stop s₁ s' ∧
        Blocks G data s.sessionsAvail s' 1 ids n := by
  refine (fillFree_returns data hnodup hgrown.blank).bind ?_
  rintro _ s₂ ⟨stop₂, hle₂, htail₂⟩
  refine (fillUnbound_returns hle₂ htail₂).mono ?_
  rintro _ s₃ ⟨stop, hle, htail⟩
  refine ⟨stop, hle, htail, (hblocks.stable fun C => ⟨?_, ?_⟩).2⟩
  · exact fun column _ row _ hrow => htail.cells column row hrow
  · rintro ref ⟨hown, _⟩
    obtain ⟨id, _, hown⟩ := Set.mem_iUnion₂.mp hown
    obtain ⟨hfree, hunbound⟩ := not_mem_own hsessions hown
    exact htail.rowspans ref hfree hunbound

structure Kept (s s' : Sheet) : Prop where
  free : s'.physicalsFree.Sublist s.physicalsFree
  sizes : ∀ ref, (∃ size, (s.records ref).size = .mib size) →
    ∃ size, (s'.records ref).size = .mib size

theorem Kept.refl (s : Sheet) : Kept s s := ⟨.refl _, fun _ h => h⟩

theorem Kept.trans (a b c : Sheet) (h : Kept a b) (h' : Kept b c) : Kept a c :=
  ⟨h'.free.trans h.free, fun ref hsize => h'.sizes ref (h.sizes ref hsize)⟩

theorem Kept.update (s : Sheet) (ref : Ref) {f : Record → Record}
    (hf : ∀ r, (∃ size, r.size = .mib size) → ∃ size, (f r).size = .mib size) :
    Kept s (s.update ref f) := by
  refine ⟨.refl _, fun other hsize => ?_⟩
  by_cases h : other = ref
  · subst h
    rw [records_update_self]
    exact hf _ hsize
  · simpa [Sheet.update, Function.update_of_ne h] using hsize

theorem Kept.drawing : Drawing Kept where
  refl := Kept.refl
  trans := Kept.trans
  lines _ _ := ⟨.refl _, fun _ h => h⟩
  span s ref f hf := Kept.update s ref fun r hsize => by
    obtain ⟨rowspan, colspan, heq⟩ := hf r
    rw [heq]
    exact hsize

theorem Kept.arraying : Arraying Kept where
  toDrawing := Kept.drawing
  members _ _ := ⟨.refl _, fun _ h => h⟩
  claim logicalId id s := by
    simp only [claimPhysical, Action.modify_run]
    split
    · have hfree : (s.physicalsFree.erase id).Sublist s.physicalsFree :=
        List.erase_sublist
      split
      · exact ⟨hfree, (Kept.update s (.physical id)
          (f := fun r => { r with state := "allocated" }) fun _ h => h).sizes⟩
      · exact ⟨hfree, fun _ h => h⟩
    · exact ⟨.refl _, (Kept.update s (.physical id) (f := fun _ => failedDisk)
        fun _ _ => ⟨0, rfl⟩).sizes⟩

private theorem sizes_initial (data : Data) (ref : Ref) :
    ∃ size, (data.initial.records ref).size = .mib size := by
  cases ref <;> simp only [Data.initial, Data.record]
  case pattern => exact ⟨0, rfl⟩
  case session => exact ⟨0, rfl⟩
  all_goals split <;> exact ⟨_, rfl⟩

/-- The states between the parts of `overall`: before the arrays, below them
and at the end. -/
structure Stages (data : Data) (order : Order) (ids : List Nat) (n : Nat)
    (s₁ s₂ s : Sheet) : Prop where
  start : s₁ = { data.initial with sessionsAvail := s₁.sessionsAvail }
  arrays : fillLogicals data order ids 1 s₁ = (.ok n, s₂)
  blank : ∀ row : ℚ, n ≤ row → ¬ s₂.HasLine row
  rest : (do fillFree order n; fillUnbound data order n : Program Unit) s₂ =
    (.ok (), s)

/-- `overall` returns, and its result is drawn as the layout says. -/
theorem overall_stages {G : Set Ref} (data : Data) (order : Order)
    (hlay : ∀ avail, (∀ index, (avail index).Perm (ownSessions data order index)) →
      Layable G data avail) :
    Action.Returns (overall data order) data.initial fun _ s =>
      ∃ ids n stop s₁ s₂, Drawn G data order ids n stop s ∧
        Stages data order ids n s₁ s₂ s := by
  obtain ⟨ids, hsort, hperm⟩ := Sort.sort_perm (less_asymmetric (α := Nat))
    (order.visit data.logicals.keys)
  have hids : ids.Perm data.logicals.keys := hperm.trans (order.perm _)
  unfold overall
  refine Action.Returns.lift_bind hsort ?_
  refine (fillSessionsAvail_returns data order fun _ => rfl).bind ?_
  rintro _ s₁ ⟨hsame, hsessions⟩
  have hlayable := hlay _ hsessions
  have hphysicals₁ : s₁.physicals = data.physicals.keys := by
    rw [hsame]
    rfl
  have hfree₁ : s₁.physicalsFree.Nodup := by
    rw [hsame]
    exact data.physicals.keys_nodup
  have hblank₁ : ∀ row : ℚ, (1 : Nat) ≤ row → ¬ s₁.HasLine row := by
    intro row _
    rw [hsame]
    simp [HasLine, Data.initial]
  have hlogicals := fillLogicals_returns (G := G) (s := s₁) order hlayable
    (hids.nodup_iff.mpr data.logicals.keys_nodup)
    (by
      intro id hid
      exact Option.isSome_iff_exists.mp
        (AList.lookup_isSome.mpr (AList.mem_keys.mpr (hids.mem_iff.mp hid))))
    (by simp [hphysicals₁]) (by
      intro p hp
      rw [hphysicals₁] at hp
      exact .inl hp) hblank₁
  obtain ⟨n, s₂, hrun, hgrown, hblocks, hmembers⟩ := hlogicals
  have hkept : Kept s₁ (fillLogicals data order ids 1 s₁).2 :=
    Kept.arraying.fillLogicals ids 1 s₁
  rw [hrun] at hkept
  refine Action.Returns.bind (P := fun next s => next = n ∧ s = s₂)
    ⟨n, s₂, hrun, rfl, rfl⟩ ?_
  rintro value s' ⟨hn, hs⟩
  subst hn hs
  obtain ⟨_, s₃, hrest, stop, hle, htail, hblocks₃⟩ := fillRest_returns
    order hlayable.sessions (hkept.free.nodup hfree₁) hgrown hblocks
  refine ⟨_, s₃, hrest, ?_⟩
  have hrests : Action.Evolves Kept
      (do fillFree order value; fillUnbound data order value : Program Unit) :=
    Kept.drawing.fillRest value
  have hkept₃ := hrests s'
  rw [hrest] at hkept₃
  have havail : s₃.sessionsAvail = s₁.sessionsAvail := by
    rw [htail.sessionsAvail, hgrown.sessionsAvail]
  refine ⟨ids, _, stop, s₁, s', ⟨hids, ?_, ?_, ?_, hle, ?_, htail.blank, htail.free,
    htail.once, htail.patterns, ?_⟩, hsame, hrun, hgrown.blank, hrest⟩
  · rw [havail]
    exact hsessions
  · rw [havail]
    exact hblocks₃
  · intro id logical hlogical
    rw [htail.members]
    refine hmembers id (hids.mem_iff.mpr ?_) logical hlogical
    exact AList.mem_keys.mp (AList.lookup_isSome.mp (by rw [hlogical]; rfl))
  · intro k hk
    rcases Nat.lt_or_ge k _ with hlt | hge
    · have hline : s₃.HasLine k :=
        (htail.lines k (by exact_mod_cast hlt)).mpr (hgrown.new k hk hlt)
      exact iff_of_true hline (by omega)
    · rw [htail.new k (by exact_mod_cast hge)]
      constructor
      · rintro ⟨j, _, hj, heq⟩
        have : k = j := by exact_mod_cast heq
        omega
      · exact fun hlt => ⟨k, hge, hlt, rfl⟩
  · intro ref
    refine hkept₃.sizes ref (hkept.sizes ref ?_)
    rw [hsame]
    exact sizes_initial data ref

theorem overall_returns {G : Set Ref} (data : Data) (order : Order)
    (hlay : ∀ avail, (∀ index, (avail index).Perm (ownSessions data order index)) →
      Layable G data avail) :
    Action.Returns (overall data order) data.initial fun _ s =>
      ∃ ids n stop, Drawn G data order ids n stop s := by
  refine (overall_stages data order hlay).mono ?_
  rintro _ s ⟨ids, n, stop, _, _, hdrawn, _⟩
  exact ⟨ids, n, stop, hdrawn⟩

/-! ## The tiling of the table -/

def Logical.claimed (logical : Logical) : List PhysicalId :=
  logical.physicals.keys ++ logical.cachedBy.toList

/-- Every array has a disk in its table (as it is after
`logical.physicals[ logical.cached_by ]` has been set, which is before anything is
drawn), disks and volumes belong to one array each, and the names of the patterns
are distinct. -/
structure Data.Regular (data : Data) : Prop where
  members : ∀ e ∈ data.logicals.entries, memberIds data e.2 ≠ []
  physicals : ∀ e₁ ∈ data.logicals.entries, ∀ e₂ ∈ data.logicals.entries,
    e₁.1 ≠ e₂.1 → ∀ id ∈ e₁.2.claimed, id ∉ e₂.2.claimed
  volumes : ∀ e₁ ∈ data.logicals.entries, ∀ e₂ ∈ data.logicals.entries,
    e₁.1 ≠ e₂.1 → ∀ device ∈ e₁.2.volumes.keys, device ∉ e₂.2.volumes.keys
  names : (data.accessPatterns.map (·.name)).Nodup

theorem mem_claimed {logical : Logical} {id : PhysicalId}
    (h : id ∈ memberIds data logical) : id ∈ logical.claimed := by
  rcases mem_memberIds h with hkeys | ⟨hcache, _⟩
  · exact List.mem_append_left _ hkeys
  · exact List.mem_append_right _ (by simp [hcache])

theorem Data.Regular.layable (h : data.Regular) {avail : Nat → List Ref}
    (hsessions : Sessions avail) : Layable Set.univ data avail where
  members id logical hlogical := h.members ⟨id, logical⟩ (AList.mem_lookup_iff.mp hlogical)
  caches id₁ logical₁ id₂ logical₂ h₁ h₂ hne cache hcache hkeys := by
    refine h.physicals ⟨id₁, logical₁⟩ (AList.mem_lookup_iff.mp h₁)
      ⟨id₂, logical₂⟩ (AList.mem_lookup_iff.mp h₂) hne cache ?_ ?_
    · exact List.mem_append_right _ (by simp [hcache])
    · exact List.mem_append_left _ hkeys
  apart id₁ id₂ hne := by
    rw [Set.inter_univ, Set.disjoint_left]
    rintro ref ⟨logical₁, h₁, hown₁⟩ ⟨logical₂, h₂, hown₂⟩
    have hmem₁ := AList.mem_lookup_iff.mp h₁
    have hmem₂ := AList.mem_lookup_iff.mp h₂
    have hkind : ∀ {devices : List String},
        ref ∈ ⋃ device ∈ devices, ownVolume data avail device →
        (∀ id, ref ≠ .logical id) ∧ ∀ p, ref ≠ .physical p := by
      intro devices hmem
      obtain ⟨device, _, hown⟩ := Set.mem_iUnion₂.mp hmem
      rcases mem_ownVolume hsessions hown with rfl | ⟨_, _, rfl | ⟨_, _, _, rfl⟩⟩ <;>
        simp
    rcases hown₁ with (rfl | ⟨p, hp, rfl⟩) | hvolume₁
    · rcases hown₂ with (heq | ⟨_, _, heq⟩) | hvolume₂
      · injection heq with heq
        exact hne heq
      · cases heq
      · exact (hkind hvolume₂).1 id₁ rfl
    · rcases hown₂ with (heq | ⟨p', hp', heq⟩) | hvolume₂
      · cases heq
      · injection heq with heq
        subst heq
        exact h.physicals _ hmem₁ _ hmem₂ hne p (mem_claimed hp) (mem_claimed hp')
      · exact (hkind hvolume₂).2 p rfl
    · rcases hown₂ with (rfl | ⟨p, _, rfl⟩) | hvolume₂
      · exact (hkind hvolume₁).1 id₂ rfl
      · exact (hkind hvolume₁).2 p rfl
      · obtain ⟨d₁, hd₁, hin₁⟩ := Set.mem_iUnion₂.mp hvolume₁
        obtain ⟨d₂, hd₂, hin₂⟩ := Set.mem_iUnion₂.mp hvolume₂
        have hdiff : d₁ ≠ d₂ := by
          rintro rfl
          exact h.volumes _ hmem₁ _ hmem₂ hne d₁ hd₁ hd₂
        exact Set.disjoint_left.mp (ownVolume_apart hsessions hdiff) hin₁ hin₂
  names := h.names
  sessions := hsessions

/-- In a regular input the lines of each array are tiled, column by column. -/
theorem overall_tiles (data : Data) (order : Order) (h : data.Regular) :
    ∃ s ids stop, overall data order data.initial = (.ok (), s) ∧
      ids.Perm data.logicals.keys ∧
      (∀ index, (s.sessionsAvail index).Perm (ownSessions data order index)) ∧
      Blocks Set.univ data s.sessionsAvail s 1 ids stop := by
  obtain ⟨_, s, hrun, ids, n, stop, hdrawn⟩ := overall_returns (G := Set.univ)
    data order fun avail havail =>
      h.layable (sessions_of_perm havail)
  exact ⟨s, ids, n, hrun, hdrawn.perm, hdrawn.sessions, hdrawn.blocks⟩

def sampleData : Data where
  physicals := [⟨0, 2⟩, ⟨0, 3⟩, ⟨0, 4⟩, ⟨0, 5⟩, ⟨0, 6⟩].foldl
    (fun table id => table.insert id ⟨"free", 1000⟩) ∅
  logicals := ((∅ : Table Nat Logical).insert 0
    { physicals := (∅ : Table PhysicalId String).insert ⟨0, 2⟩ "0"
      cachedBy := none, volumes := ∅, volumeGroup := none
      level := some "linear", state := "normal", capacity := 1000 }).insert 1
    { physicals := ((∅ : Table PhysicalId String).insert ⟨0, 3⟩ "1").insert
        ⟨0, 4⟩ "1"
      cachedBy := some ⟨0, 5⟩
      volumes := ((∅ : Table String Volume).insert "/dev/vg1/a"
        ⟨100, ⟨"vg1", 200, 900⟩, false, []⟩).insert "/dev/vg1/b"
        ⟨100, ⟨"vg1", 200, 900⟩, false, []⟩
      volumeGroup := none
      level := some "1", state := "normal", capacity := 1000 }
  accessPatterns := [⟨"cfg1", "x", some "/dev/vg1/a", 0⟩,
    ⟨"cfg2", "y", some "/dev/vg1/a", 1⟩, ⟨"cfg3", "z", some "/dev/vg1/a", 2⟩]
  sessions := (∅ : Table String { names : List String // names.Nodup }).insert
    "cfg2" ⟨["iqn.a", "iqn.b"], by decide⟩

theorem sampleData_tiles : ∃ s ids stop,
    overall sampleData Order.plain sampleData.initial = (.ok (), s) ∧
      ids.Perm sampleData.logicals.keys ∧
      (∀ index, (s.sessionsAvail index).Perm
        (ownSessions sampleData Order.plain index)) ∧
      Blocks Set.univ sampleData s.sessionsAvail s 1 ids stop :=
  overall_tiles sampleData Order.plain
    ⟨by decide, by decide, by decide, by decide⟩

end OpenSan.Matrix
