import OpenSan.Matrix.Shown

/-!
# The lines of any table

What a walk over the lines of a finished table meets, for every argument on
which `M.overall` returns: the arrays in the order of their ids, each once, and
all disks of each of them.  Nothing is assumed about the argument, so two
arrays may claim one disk and the rows of patterns need not be integers.
-/

namespace OpenSan.Matrix

open OpenSan.Foundation OpenSan.Einarc Sheet

variable {data : Data} {order : Order} {s : Sheet}

structure Sized (data : Data) (s : Sheet) : Prop where
  physicals : ∀ p ∈ data.physicals.keys, p ∈ s.physicals
  sizes : ∀ ref, (s.records ref).size = (data.record ref).size

/-- From `s` to `s'` the cells of the columns `C`, and all cells above `lo`, are
the same, and lines have been added from `lo` to `hi` only. -/
structure Inside (data : Data) (C : Set Column) (lo hi : ℚ) (s s' : Sheet) : Prop where
  cells : ∀ column row, column ∈ C ∨ row < lo → s'.cell column row = s.cell column row
  lines : ∀ row, s.HasLine row → s'.HasLine row
  new : ∀ row, s'.HasLine row → s.HasLine row ∨ lo ≤ row ∧ row < hi
  members : s'.members = s.members
  sized : Sized data s → Sized data s'

def Keeps {α : Type} (data : Data) (C : Set Column) (lo hi : ℚ) (m : Program α) : Prop :=
  ∀ s, Action.Ensures m s fun _ s' => Inside data C lo hi s s'

section Keeps

variable {α β : Type} {C : Set Column} {lo hi : ℚ}

theorem Inside.refl : Inside data C lo hi s s :=
  ⟨fun _ _ _ => rfl, fun _ h => h, fun _ h => .inl h, rfl, fun h => h⟩

theorem Inside.trans {s' s'' : Sheet} (h : Inside data C lo hi s s')
    (h' : Inside data C lo hi s' s'') : Inside data C lo hi s s'' where
  cells column row hkept := (h'.cells column row hkept).trans (h.cells column row hkept)
  lines row hline := h'.lines row (h.lines row hline)
  new row hline := by
    rcases h'.new row hline with hold | hnew
    · exact h.new row hold
    · exact .inr hnew
  members := h'.members.trans h.members
  sized hs := h'.sized (h.sized hs)

theorem Inside.mono {C' : Set Column} {lo' hi' : ℚ} {s' : Sheet}
    (h : Inside data C lo hi s s') (hC : C' ⊆ C) (hlo : lo' ≤ lo) (hhi : hi ≤ hi') :
    Inside data C' lo' hi' s s' where
  cells column row hkept := by
    apply h.cells
    rcases hkept with hin | hrow
    · exact .inl (hC hin)
    · exact .inr (by linarith)
  lines := h.lines
  new row hline := by
    rcases h.new row hline with hold | ⟨hlow, hhigh⟩
    · exact .inl hold
    · exact .inr ⟨by linarith, by linarith⟩
  members := h.members
  sized := h.sized

theorem Keeps.still {m : Program α} (h : ∀ s, (m s).2 = s) : Keeps data C lo hi m := by
  intro s value s' hrun
  have hsame := h s
  rw [hrun] at hsame
  rw [show s' = s from hsame]
  exact Inside.refl

theorem Keeps.bind {first : Program α} {next : α → Program β}
    (hfirst : Keeps data C lo hi first) (hnext : ∀ value, Keeps data C lo hi (next value)) :
    Keeps data C lo hi (first >>= next) := by
  intro s
  refine (hfirst s).bind fun value s₁ h₁ => ?_
  exact (hnext value s₁).mono fun _ s₂ h₂ => h₁.trans h₂

theorem Keeps.lift_bind {result : Except Error α} {next : α → Program β}
    (hnext : ∀ value, result = .ok value → Keeps data C lo hi (next value)) :
    Keeps data C lo hi (Action.lift result >>= next) := by
  intro s
  refine (Action.Ensures.lift (P := fun value s' => result = .ok value ∧ s' = s)
    fun value hvalue => ⟨hvalue, rfl⟩).bind ?_
  rintro value _ ⟨hvalue, rfl⟩
  exact hnext value hvalue _

theorem Keeps.forEach {items : List α} {body : α → Program Unit}
    (hbody : ∀ item ∈ items, Keeps data C lo hi (body item)) :
    Keeps data C lo hi (Action.forEach items body) := by
  intro s
  refine Action.Ensures.forEach items body (I := fun _ s' => Inside data C lo hi s s')
    Inside.refl fun i hi s₁ h₁ => ?_
  exact (hbody items[i] (List.getElem_mem hi) s₁).mono fun _ s₂ h₂ => h₁.trans h₂

theorem Keeps.ite {condition : Prop} [Decidable condition] {yes no : Program α}
    (hyes : Keeps data C lo hi yes) (hno : Keeps data C lo hi no) :
    Keeps data C lo hi (if condition then yes else no) := by
  split
  · exact hyes
  · exact hno

theorem Sized.update {ref : Ref} {f : Record → Record} (h : Sized data s)
    (hf : (f (s.records ref)).size = (s.records ref).size) :
    Sized data (s.update ref f) where
  physicals := h.physicals
  sizes other := by
    by_cases heq : other = ref
    · subst heq
      simp only [Sheet.update, Function.update_self]
      rw [hf, h.sizes]
    · simp only [Sheet.update, Function.update_of_ne heq]
      exact h.sizes other

theorem fill_keeps {offset : ℚ} {column : Column} (ref : Ref) (rowspan : ℚ)
    (hcolumn : column ∉ C) (hlo : lo ≤ offset) :
    Keeps data C lo hi (fill offset column ref rowspan) := by
  intro s
  refine (Action.Ensures.query (P := fun line s' =>
    s.lines.lookup offset = some line ∧ s' = s) fun line hline =>
      ⟨nonNil_eq_ok hline, rfl⟩).bind ?_
  rintro line _ ⟨hline, rfl⟩
  refine (Action.Ensures.modify (P := fun _ s₁ => s₁ = Sheet.setLine _ offset
    (Function.update line column (some ref))) rfl).bind ?_
  rintro _ _ rfl
  refine Action.Ensures.modify ⟨fun other row hkept => ?_, fun row hrow => ?_,
    fun row hrow => .inl ?_, rfl, fun hs => ?_⟩
  · rw [cell_update, cell_setLine]
    split
    · rename_i hrow
      subst hrow
      have hother : other ≠ column := by
        rintro rfl
        rcases hkept with hin | hlt
        · exact hcolumn hin
        · linarith
      rw [Function.update_of_ne hother]
      simp [cell, hline]
    · rfl
  · exact (hasLine_setLine _ _ _ _).mpr (.inr hrow)
  · rcases (hasLine_setLine _ _ _ _).mp hrow with rfl | hold
    · simp [HasLine, hline]
    · exact hold
  · exact Sized.update (s := Sheet.setLine _ _ _) ⟨hs.physicals, hs.sizes⟩ rfl

theorem ensureLine_keeps {offset : ℚ} (hlo : lo ≤ offset) (hhi : offset < hi) :
    Keeps data C lo hi (ensureLine offset) := by
  intro s
  apply Action.Ensures.modify
  split
  · rename_i hnone
    have hblank : ¬ s.HasLine offset := by simpa [HasLine] using hnone
    refine ⟨fun column row _ => ?_, fun row hrow => ?_, fun row hrow => ?_, rfl, fun hs => ?_⟩
    · rw [cell_setLine]
      split
      · rename_i hrow
        rw [hrow, cell_eq_none_of_not_hasLine hblank]
        rfl
      · rfl
    · exact (hasLine_setLine _ _ _ _).mpr (.inr hrow)
    · rcases (hasLine_setLine _ _ _ _).mp hrow with rfl | hold
      · exact .inr ⟨hlo, hhi⟩
      · exact .inl hold
    · exact ⟨hs.physicals, hs.sizes⟩
  · exact Inside.refl

end Keeps

/-! ## The loops of one array -/

section Loops

variable {C : Set Column} {lo hi : ℚ}

theorem part_inside (start : ℚ) {span : ℚ} {i n : Nat} (hi : i < n) (hspan : 0 < span) :
    0 < span / n ∧ start ≤ start + i * (span / n) ∧
      start + i * (span / n) + span / n ≤ start + span := by
  have hn : (0 : ℚ) < n := by exact_mod_cast Nat.zero_lt_of_lt hi
  have hlast : ((i : ℚ) + 1) ≤ n := by exact_mod_cast hi
  have hpart : 0 < span / n := div_pos hspan hn
  have hall : (n : ℚ) * (span / n) = span := by field_simp
  have hsum : ((i : ℚ) + 1) * (span / n) ≤ n * (span / n) :=
    mul_le_mul_of_nonneg_right hlast hpart.le
  refine ⟨hpart, ?_, by linarith⟩
  have hi0 : (0 : ℚ) ≤ i := Nat.cast_nonneg i
  nlinarith

theorem fillSessions_keeps (hC : Column.session ∉ C) {refs : List Ref}
    {apOffset apRowspan : ℚ} (hspan : 0 < apRowspan) (hlo : lo ≤ apOffset)
    (hhi : apOffset + apRowspan ≤ hi) :
    Keeps data C lo hi (fillSessions refs apOffset apRowspan) := by
  apply Keeps.forEach
  intro entry hentry
  obtain ⟨hpart, hlow, hhigh⟩ :=
    part_inside apOffset (List.snd_lt_of_mem_zipIdx hentry) hspan
  simp only [Nat.add_zero] at hpart hlow hhigh
  exact (ensureLine_keeps (by linarith) (by linarith)).bind fun _ =>
    fill_keeps _ _ hC (by linarith)

theorem fillPattern_keeps (hC : Disjoint C {.pattern, .session}) {table : Table String Nat}
    {apOffset apRowspan : ℚ} (hspan : 0 < apRowspan) (hlo : lo ≤ apOffset)
    (hhi : apOffset + apRowspan ≤ hi) (name : String) :
    Keeps data C lo hi (fillPattern table apOffset apRowspan name) := by
  have hpattern : Column.pattern ∉ C := fun hin =>
    Set.disjoint_left.mp hC hin (by simp)
  have hsession : Column.session ∉ C := fun hin =>
    Set.disjoint_left.mp hC hin (by simp)
  refine (ensureLine_keeps hlo (by linarith)).bind fun _ => ?_
  refine Keeps.lift_bind fun index _ => ?_
  refine (fill_keeps _ _ hpattern hlo).bind fun _ => ?_
  refine (Keeps.still fun _ => rfl).bind fun refs => ?_
  exact Keeps.ite (fillSessions_keeps hsession hspan hlo hhi) (Keeps.still fun _ => rfl)

theorem fillVolume_keeps (hC : Disjoint C {.volume, .pattern, .session})
    {offset volumeRowspan : ℚ} (hspan : 0 < volumeRowspan) (hlo : lo ≤ offset)
    (hhi : offset + volumeRowspan ≤ hi) (device : String) :
    Keeps data C lo hi (fillVolume data order offset volumeRowspan device) := by
  have hvolume : Column.volume ∉ C := fun hin =>
    Set.disjoint_left.mp hC hin (by simp)
  refine (fill_keeps _ _ hvolume hlo).bind fun _ => ?_
  refine Keeps.ite ?_ (Keeps.still fun _ => rfl)
  refine Keeps.lift_bind fun names hnames => ?_
  have hlength : names.length = (patternTable data device).keys.length := by
    obtain ⟨sorted, hsort, hperm⟩ := Sort.sort_perm (less_asymmetric (α := String))
      (order.visit (patternTable data device).keys)
    obtain rfl : names = sorted := Except.ok.inj (hnames.symm.trans hsort)
    exact (hperm.trans (order.perm _)).length_eq
  apply Keeps.forEach
  intro entry hentry
  have hindex : entry.2 < (patternTable data device).keys.length := by
    simpa [hlength] using List.snd_lt_of_mem_zipIdx hentry
  obtain ⟨hpart, hlow, hhigh⟩ := part_inside offset hindex hspan
  exact fillPattern_keeps (hC.mono_right (by simp)) hpart (by linarith) (by linarith) _

theorem fillVolumes_keeps (hC : Disjoint C {.volume, .pattern, .session})
    (logical : Logical) {currentLine linesQuantity : Nat} (hlines : 0 < linesQuantity) :
    Keeps data C currentLine (currentLine + linesQuantity)
      (fillVolumes data order logical currentLine linesQuantity) := by
  refine Keeps.lift_bind fun devices hdevices => ?_
  have hlength : devices.length = logical.volumes.keys.length := by
    obtain ⟨sorted, hsort, hperm⟩ := Sort.sort_perm volumeBefore_asymmetric
      (order.visit logical.volumes.keys)
    obtain rfl : devices = sorted := Except.ok.inj (hdevices.symm.trans hsort)
    exact (hperm.trans (order.perm _)).length_eq
  apply Keeps.forEach
  intro entry hentry
  have hindex : entry.2 < logical.volumes.keys.length := by
    simpa [hlength] using List.snd_lt_of_mem_zipIdx hentry
  obtain ⟨hpart, hlow, hhigh⟩ := part_inside (currentLine : ℚ) hindex
    (show (0 : ℚ) < linesQuantity by exact_mod_cast hlines)
  exact fillVolume_keeps hC hpart hlow hhigh _

theorem claimPhysical_keeps (logicalId : Nat) (p : PhysicalId) :
    Keeps data C lo hi (claimPhysical logicalId p) := by
  intro s
  apply Action.Ensures.modify
  split
  · split
    · exact ⟨fun _ _ _ => rfl, fun _ h => h, fun _ h => .inl h, rfl, fun hs =>
        ⟨hs.physicals, (hs.update (f := fun r => { r with state := "allocated" }) rfl).sizes⟩⟩
    · exact ⟨fun _ _ _ => rfl, fun _ h => h, fun _ h => .inl h, rfl, fun hs =>
        ⟨hs.physicals, hs.sizes⟩⟩
  · rename_i hnew
    refine ⟨fun _ _ _ => rfl, fun _ h => h, fun _ h => .inl h, rfl, fun hs => ?_⟩
    -- a disk without a record has the size of the record that it gets
    have hsize : failedDisk.size = (s.records (.physical p)).size := by
      have hmissing : data.physicals.lookup p = none := by
        rw [AList.lookup_eq_none]
        exact fun hin => hnew (hs.physicals p (AList.mem_keys.mp hin))
      rw [hs.sizes, Data.record]
      simp only [hmissing]
      rfl
    exact ⟨fun q hq => List.mem_append_left _ (hs.physicals q hq),
      (hs.update (f := fun _ => failedDisk) hsize).sizes⟩

theorem fillPhysicals_keeps (hC : Column.physical ∉ C) (id : Nat)
    {currentLine linesQuantity : Nat} (hlines : 0 < linesQuantity) :
    Keeps data C currentLine hi (fillPhysicals order id currentLine linesQuantity) := by
  refine (Keeps.still fun _ => rfl).bind fun members => ?_
  refine (Keeps.forEach fun p _ => claimPhysical_keeps id p).bind fun _ => ?_
  refine (Keeps.still fun _ => rfl).bind fun sorted => ?_
  apply Keeps.forEach
  intro entry _
  have hrowspan : (0 : ℚ) ≤ entry.2 * (linesQuantity / members.length) := by positivity
  exact fill_keeps _ _ hC (by linarith)

theorem fillPhysicals_shows (order : Order) (id currentLine : Nat) {rows : Nat}
    (hrows : 0 < rows) (s : Sheet) :
    Action.Ensures (fillPhysicals order id currentLine ((s.members id).length * rows)) s
      fun _ s' => ∀ p ∈ s.members id, ∃ k : Nat, currentLine ≤ k ∧
        k < currentLine + (s.members id).length * rows ∧
        s'.cell .physical k = some (.physical p) := by
  refine (Action.Ensures.read (P := fun members s₁ => members = s.members id ∧ s₁ = s)
    ⟨rfl, rfl⟩).bind ?_
  rintro members _ ⟨rfl, rfl⟩
  rename_i s
  refine (Action.Ensures.of_evolves (R := fun _ _ => True) fun _ => trivial).bind ?_
  intro _ s₁ _
  refine (Action.Ensures.query (P := fun sorted _ => sorted.Perm (s.members id)) ?_).bind ?_
  · intro sorted hsorted
    obtain ⟨sorted', hsort, hperm⟩ := Physical.sort_perm order
      (fun p => (s₁.records (.physical p)).state) (s.members id)
    obtain rfl : sorted = sorted' := Except.ok.inj (hsorted.symm.trans hsort)
    exact hperm
  intro sorted s₂ hperm
  have hspan (hn : 0 < (s.members id).length) :
      (((s.members id).length * rows : Nat) : ℚ) / (s.members id).length = rows := by
    have hn : ((s.members id).length : ℚ) ≠ 0 := by exact_mod_cast hn.ne'
    push_cast
    field_simp
  -- after `i` rounds the lines show the first `i` disks
  have hloop := Action.Ensures.forEach (s := s₂) sorted.zipIdx
    (fun entry => fill (currentLine + entry.2 *
      ((((s.members id).length * rows : Nat) : ℚ) / (s.members id).length)) .physical
      (.physical entry.1) (((s.members id).length * rows : Nat) / (s.members id).length))
    (I := fun i s' => ∀ j (hj : j < sorted.length), j < i →
      s'.cell .physical ((currentLine + j * rows : Nat) : ℚ) = some (.physical sorted[j]))
    (fun j _ hj => by omega) ?_
  · refine hloop.mono fun _ s' hcells p hp => ?_
    obtain ⟨j, hj, rfl⟩ := List.getElem_of_mem (hperm.mem_iff.mpr hp)
    have hcount : sorted.length = (s.members id).length := hperm.length_eq
    have hlast : (j + 1) * rows ≤ (s.members id).length * rows :=
      Nat.mul_le_mul_right rows (by omega)
    have hnext : j * rows + rows ≤ (s.members id).length * rows := by
      rw [Nat.add_mul, Nat.one_mul] at hlast
      exact hlast
    exact ⟨currentLine + j * rows, by omega, by omega, hcells j hj (by simpa using hj)⟩
  · intro i hi s₃ hcells
    have hi' : i < sorted.length := by simpa using hi
    have hpos : 0 < (s.members id).length := by
      rw [← hperm.length_eq]
      omega
    simp only [List.getElem_zipIdx, Nat.zero_add]
    rw [hspan hpos]
    refine fill_ensures.mono fun _ s₄ hwritten j hj hji => ?_
    have hoffset : (currentLine : ℚ) + i * rows = ((currentLine + i * rows : Nat) : ℚ) := by
      push_cast
      rfl
    rw [hwritten.cells, hoffset]
    by_cases heq : j = i
    · subst heq
      simp
    · have hne : currentLine + j * rows ≠ currentLine + i * rows := by
        intro hsame
        exact heq (Nat.eq_of_mul_eq_mul_right hrows (by omega))
      have hrow : ((currentLine + j * rows : Nat) : ℚ) ≠ ((currentLine + i * rows : Nat) : ℚ) := by
        exact_mod_cast hne
      rw [if_neg fun h => hrow h.1]
      exact hcells j hj (by omega)

end Loops

/-! ## The arrays -/

/-- From `s` to `s'` the arrays `ids` have been drawn in the lines from `lo` to
`stop - 1`. -/
structure Arrayed (data : Data) (ids : List Nat) (lo stop : Nat) (s s' : Sheet) : Prop where
  le : lo ≤ stop
  above : ∀ column (row : ℚ), row < lo → s'.cell column row = s.cell column row
  lines : ∀ row, s.HasLine row → s'.HasLine row
  new : ∀ k : Nat, lo ≤ k → k < stop → s'.HasLine k
  blank : ∀ row : ℚ, stop ≤ row → ¬ s'.HasLine row
  heads : (List.range' lo (stop - lo)).filterMap
    (fun k => s'.cell .logical ((k : Nat) : ℚ)) = ids.map .logical
  others : ∀ id, id ∉ ids → s'.members id = s.members id
  members : ∀ id ∈ ids, ∃ logical physicals, data.logicals.lookup id = some logical ∧
    data.physicals.keys ⊆ physicals ∧ s'.members id = cachedMembers physicals logical
  disks : ∀ id ∈ ids, ∀ p ∈ s'.members id, ∃ k : Nat, lo ≤ k ∧ k < stop ∧
    s'.cell .physical k = some (.physical p)
  sized : Sized data s'

theorem Arrayed.trans {ids ids' : List Nat} {lo mid stop : Nat} {s' s'' : Sheet}
    (h : Arrayed data ids lo mid s s') (h' : Arrayed data ids' mid stop s' s'')
    (hapart : ∀ id ∈ ids, id ∉ ids') : Arrayed data (ids ++ ids') lo stop s s'' where
  le := h.le.trans h'.le
  above column row hrow := by
    have hle : (lo : ℚ) ≤ mid := by exact_mod_cast h.le
    rw [h'.above column row (by linarith), h.above column row hrow]
  lines row hrow := h'.lines row (h.lines row hrow)
  new k hk hk' := by
    rcases Nat.lt_or_ge k mid with hlt | hge
    · exact h'.lines k (h.new k hk hlt)
    · exact h'.new k hge hk'
  blank := h'.blank
  heads := by
    have hle := h.le
    have hle' := h'.le
    have hsplit : List.range' lo (stop - lo) =
        List.range' lo (mid - lo) ++ List.range' mid (stop - mid) := by
      rw [show List.range' mid (stop - mid) = List.range' (lo + (mid - lo)) (stop - mid) by
        congr 1; omega, List.range'_append_1]
      congr 1
      omega
    have hfirst : (List.range' lo (mid - lo)).filterMap
        (fun k => s''.cell .logical ((k : Nat) : ℚ)) =
          (List.range' lo (mid - lo)).filterMap fun k => s'.cell .logical ((k : Nat) : ℚ) := by
      apply List.filterMap_congr
      intro k hk
      obtain ⟨_, hlt⟩ := List.mem_range'_1.mp hk
      exact h'.above .logical k (by exact_mod_cast (by omega : k < mid))
    rw [hsplit, List.filterMap_append, hfirst, h.heads, h'.heads, List.map_append]
  others id hid := by
    rw [List.mem_append, not_or] at hid
    rw [h'.others id hid.2, h.others id hid.1]
  members id hid := by
    rcases List.mem_append.mp hid with hin | hin
    · rw [h'.others id (hapart id hin)]
      exact h.members id hin
    · exact h'.members id hin
  disks id hid p hp := by
    rcases List.mem_append.mp hid with hin | hin
    · rw [h'.others id (hapart id hin)] at hp
      obtain ⟨k, hlow, hhigh, hcell⟩ := h.disks id hin p hp
      refine ⟨k, hlow, hhigh.trans_le h'.le, ?_⟩
      rw [h'.above .physical k (by exact_mod_cast hhigh), hcell]
    · obtain ⟨k, hlow, hhigh, hcell⟩ := h'.disks id hin p hp
      exact ⟨k, h.le.trans hlow, hhigh, hcell⟩
  sized := h'.sized

private theorem fillLines_sized (data : Data) (lo lines : Nat) :
    Action.Evolves (fun s s' => Sized data s → Sized data s') (fillLines lo lines) := by
  refine Action.evolves_forEach (fun _ h => h) (fun _ _ _ h h' hs => h' (h hs)) ?_
  intro i _ s hs
  exact ⟨hs.physicals, hs.sizes⟩

private theorem linesQuantity_zero (avail : Nat → List Ref) (logical : Logical) :
    linesQuantity data order logical avail 0 = 0 := by
  unfold linesQuantity
  simp only [lcmCount_eq, Nat.lcm_zero_left]
  split <;> rfl

private theorem filterMap_single {lo lines : Nat} {f : Nat → Option Ref} {ref : Ref}
    (hlines : 0 < lines) (hfirst : f lo = some ref)
    (hrest : ∀ k, lo < k → k < lo + lines → f k = none) :
    (List.range' lo lines).filterMap f = [ref] := by
  obtain ⟨rest, rfl⟩ := Nat.exists_eq_succ_of_ne_zero hlines.ne'
  rw [List.range'_succ, List.filterMap_cons_some hfirst, List.filterMap_eq_nil_iff.mpr]
  intro k hk
  obtain ⟨hlow, hhigh⟩ := List.mem_range'_1.mp hk
  exact hrest k (by omega) (by omega)

private theorem fillBlock_arrayed (data : Data) (order : Order) (logical : Logical) (id : Nat)
    {lo rows : Nat} (hrows : 0 < rows) {lines : Nat} (hlines : lines = (s.members id).length * rows)
    (hpositive : 0 < lines) (hroom : Room Set.univ lo (lo + lines) s)
    (hblank : ∀ row : ℚ, ((lo + lines : Nat) : ℚ) ≤ row → ¬ s.HasLine row) :
    Action.Ensures (do
        fill lo .logical (.logical id) lines
        fillPhysicals order id lo lines
        fillVolumes data order logical lo lines
        pure (lo + lines) : Program Nat) s fun next s' =>
      next = lo + lines ∧
      (∀ column (row : ℚ), row < lo → s'.cell column row = s.cell column row) ∧
      (∀ row, s.HasLine row → s'.HasLine row) ∧
      (∀ row : ℚ, ((lo + lines : Nat) : ℚ) ≤ row → ¬ s'.HasLine row) ∧
      (List.range' lo lines).filterMap (fun k => s'.cell .logical ((k : Nat) : ℚ)) =
        [.logical id] ∧
      s'.members = s.members ∧
      (∀ p ∈ s'.members id, ∃ k : Nat, lo ≤ k ∧ k < lo + lines ∧
        s'.cell .physical k = some (.physical p)) ∧
      (Sized data s → Sized data s') := by
  have hwrite : Action.Ensures (fill lo .logical (.logical id) lines) s fun _ s' =>
      Written lo .logical (.logical id) lines s s' ∧
        Inside data ∅ lo (lo + lines : Nat) s s' :=
    fill_ensures.and (fill_keeps _ _ (Set.notMem_empty _) le_rfl s)
  refine hwrite.bind ?_
  rintro _ s₁ ⟨hwritten, hinside₁⟩
  have hphysicals : Action.Ensures (fillPhysicals order id lo lines) s₁ fun _ s' =>
      Inside data {.logical} lo (lo + lines : Nat) s₁ s' ∧ ∀ p ∈ s₁.members id,
        ∃ k : Nat, lo ≤ k ∧ k < lo + lines ∧ s'.cell .physical k = some (.physical p) := by
    have hshows := fillPhysicals_shows order id lo hrows s₁
    rw [hwritten.members, ← hlines] at hshows
    rw [hwritten.members]
    exact (fillPhysicals_keeps (by simp) id hpositive s₁).and hshows
  refine hphysicals.bind ?_
  rintro _ s₂ ⟨hinside₂, hdisks⟩
  refine (fillVolumes_keeps (C := {.logical, .physical}) (by simp) logical hpositive
    s₂).bind ?_
  intro _ s₃ hinside₃
  push_cast at hinside₁ hinside₂
  have hlater : Inside data {.logical} lo (lo + lines) s₁ s₃ :=
    hinside₂.trans (hinside₃.mono (by simp) le_rfl le_rfl)
  have hall : Inside data ∅ lo (lo + lines) s s₃ :=
    hinside₁.trans (hlater.mono (by simp) le_rfl le_rfl)
  refine Action.Ensures.pure ⟨rfl, fun column row hrow => hall.cells column row (.inr hrow),
    hall.lines, fun row hrow hline => ?_, ?_, hall.members, fun p hp => ?_, hall.sized⟩
  · rcases hall.new row hline with hold | ⟨_, hlt⟩
    · exact hblank row hrow hold
    · push_cast at hrow
      linarith
  · apply filterMap_single hpositive
    · rw [hlater.cells .logical lo (.inl rfl), hwritten.cells]
      simp
    · intro k hlow hhigh
      have hne : ¬ ((k : ℚ) = lo ∧ Column.logical = .logical) := by
        rintro ⟨heq, _⟩
        have : k = lo := by exact_mod_cast heq
        omega
      rw [hlater.cells .logical k (.inl rfl), hwritten.cells, if_neg hne]
      exact hroom.blank .logical (Set.mem_univ _) k (by exact_mod_cast hlow.le)
        (by exact_mod_cast hhigh)
  · rw [hlater.members] at hp
    obtain ⟨k, hlow, hhigh, hcell⟩ := hdisks p hp
    refine ⟨k, hlow, hhigh, ?_⟩
    rw [hinside₃.cells .physical k (.inl (by simp)), hcell]

theorem fillLogical_arrayed {id lo : Nat} {logical : Logical}
    (hlogical : data.logicals.lookup id = some logical)
    (hblank : ∀ row : ℚ, lo ≤ row → ¬ s.HasLine row) (hsized : Sized data s) :
    Action.Ensures (fillLogical data order id logical lo) s fun next s' =>
      Arrayed data [id] lo next s s' := by
  let s₀ : Sheet := { s with
    members := Function.update s.members id (cachedMembers s.physicals logical) }
  have hmembers₀ : s₀.members id = cachedMembers s.physicals logical := by simp [s₀]
  have hsized₀ : Sized data s₀ := ⟨hsized.physicals, hsized.sizes⟩
  unfold fillLogical
  refine (Action.Ensures.modify (P := fun _ s₁ => s₁ = s₀) rfl).bind ?_
  rintro _ _ rfl
  refine (Action.Ensures.read (P := fun quantity s₁ => quantity = linesQuantity data order
    logical s₀.sessionsAvail (s₀.members id).length ∧ s₁ = s₀) ⟨rfl, rfl⟩).bind ?_
  rintro quantity _ ⟨hquantity, rfl⟩
  have hgrow : Action.Returns (fillLines lo quantity) s₀ fun _ s' =>
      Grown ∅ [] lo (lo + quantity) s₀ s' ∧ Room Set.univ lo (lo + quantity) s' ∧
        s'.physicals = s₀.physicals := fillLines_returns hblank
  have hlines := (Action.Ensures.of_returns hgrow).and
    (Action.Ensures.of_evolves (fillLines_sized data lo quantity))
  refine hlines.bind ?_
  rintro _ s₁ ⟨⟨hgrown, hroom, _⟩, hsized₁⟩
  rcases Nat.eq_zero_or_pos quantity with hzero | hpositive
  · -- there is no line for the cell of the array
    subst hzero
    intro value s' hrun
    have hnone : s₁.lines.lookup (lo : ℚ) = none := by
      have hline := hgrown.blank lo (by simp)
      simpa [HasLine] using hline
    simp [fill, hnone, nonNil] at hrun
  · have hcount : 0 < (s₀.members id).length := by
      rcases Nat.eq_zero_or_pos (s₀.members id).length with hnone | hsome
      · rw [hnone, linesQuantity_zero] at hquantity
        omega
      · exact hsome
    obtain ⟨_, ⟨rows, hrows⟩, _⟩ :=
      linesQuantity_spec data s₀.sessionsAvail order logical hcount
    rw [← hquantity] at hrows
    have hmembers₁ : s₁.members id = s₀.members id := hgrown.members id (by simp)
    have hrowsPos : 0 < rows := by
      apply Nat.pos_of_ne_zero
      rintro rfl
      omega
    have hblock := fillBlock_arrayed data order logical id hrowsPos
      (by rw [hmembers₁]; exact hrows) hpositive hroom hgrown.blank
    refine hblock.mono ?_
    rintro _ s₂ ⟨rfl, habove, hkept, hbelow, hheads, hmembers, hdisks, hsized₂⟩
    have hown : s₂.members id = cachedMembers s.physicals logical := by
      rw [hmembers, hmembers₁, hmembers₀]
    exact {
      le := by omega
      above := fun column row hrow => by
        rw [habove column row hrow, hgrown.cells column row hrow]
        rfl
      lines := fun row hrow => hkept row (by
        have hlt : row < lo := not_le.mp fun hge => hblank row hge hrow
        exact (hgrown.lines row hlt).mpr hrow)
      new := fun k hlow hhigh => hkept k (hgrown.new k hlow hhigh)
      blank := hbelow
      heads := by simpa using hheads
      others := fun other hother => by
        rw [hmembers, hgrown.members other (by simp)]
        exact Function.update_of_ne (by simpa using hother) _ _
      members := fun other hother => by
        obtain rfl : other = id := by simpa using hother
        exact ⟨logical, s.physicals, hlogical, hsized.physicals, hown⟩
      disks := fun other hother => by
        obtain rfl : other = id := by simpa using hother
        exact hdisks
      sized := hsized₂ (hsized₁ hsized₀) }

theorem fillLogicals_arrayed {ids : List Nat} {lo : Nat} (hids : ids.Nodup)
    (hblank : ∀ row : ℚ, lo ≤ row → ¬ s.HasLine row) (hsized : Sized data s) :
    Action.Ensures (fillLogicals data order ids lo) s fun stop s' =>
      Arrayed data ids lo stop s s' := by
  induction ids generalizing lo s with
  | nil =>
      refine Action.Ensures.pure ⟨le_rfl, fun _ _ _ => rfl, fun _ h => h,
        fun k hk hk' => by omega, hblank, by simp, fun _ _ => rfl, by simp, by simp, hsized⟩
  | cons id ids ih =>
      obtain ⟨hnot, hids⟩ := List.nodup_cons.mp hids
      unfold fillLogicals
      refine (Action.Ensures.lift (P := fun logical s₁ =>
        data.logicals.lookup id = some logical ∧ s₁ = s) fun logical hlogical =>
          ⟨nonNil_eq_ok hlogical, rfl⟩).bind ?_
      rintro logical _ ⟨hlogical, rfl⟩
      refine (fillLogical_arrayed hlogical hblank hsized).bind ?_
      intro next s₁ hfirst
      refine (ih hids hfirst.blank hfirst.sized).mono ?_
      intro stop s₂ hrest
      exact hfirst.trans hrest (by simpa using hnot)

/-! ## Below the arrays -/

structure Below (data : Data) (n : Nat) (s s' : Sheet) : Prop where
  cells : ∀ column (row : ℚ), row < n → s'.cell column row = s.cell column row
  lines : ∀ row, s.HasLine row → s'.HasLine row
  logicals : (∀ row : ℚ, n ≤ row → s.cell .logical row = none) →
    ∀ row : ℚ, n ≤ row → s'.cell .logical row = none
  members : s'.members = s.members
  sized : Sized data s → Sized data s'

theorem Below.refl {n : Nat} : Below data n s s :=
  ⟨fun _ _ _ => rfl, fun _ h => h, fun h => h, rfl, fun h => h⟩

theorem Below.trans {n : Nat} {s' s'' : Sheet} (h : Below data n s s')
    (h' : Below data n s' s'') : Below data n s s'' :=
  ⟨fun column row hrow => (h'.cells column row hrow).trans (h.cells column row hrow),
    fun row hrow => h'.lines row (h.lines row hrow),
    fun hnone => h'.logicals (h.logicals hnone), h'.members.trans h.members,
    fun hs => h'.sized (h.sized hs)⟩

theorem Inside.below {n : Nat} {hi : ℚ} {s' : Sheet}
    (h : Inside data {.logical} n hi s s') : Below data n s s' where
  cells column row hrow := h.cells column row (.inr hrow)
  lines := h.lines
  logicals hnone row hrow := by rw [h.cells .logical row (.inl rfl), hnone row hrow]
  members := h.members
  sized := h.sized

private theorem forEach_below {α : Type} {n : Nat} {items : List α}
    {body : α → Program Unit} (s : Sheet)
    (hbody : ∀ item s, Action.Ensures (body item) s fun _ s' => Below data n s s') :
    Action.Ensures (Action.forEach items body) s fun _ s' => Below data n s s' := by
  refine Action.Ensures.forEach items body (I := fun _ s' => Below data n s s') Below.refl ?_
  intro i _ s₁ h₁
  exact (hbody items[i] s₁).mono fun _ s₂ h₂ => h₁.trans h₂

theorem fillFree_below (n : Nat) (s : Sheet) :
    Action.Ensures (fillFree order n) s fun _ s' => Below data n s s' := by
  refine (Action.Ensures.query (P := fun _ s₁ => s₁ = s) fun _ _ => rfl).bind ?_
  rintro sorted _ rfl
  apply forEach_below
  intro entry s
  have hrow : (n : ℚ) ≤ n + entry.2 := by simp
  refine (Action.Ensures.modify (P := fun _ s₁ => s₁ = s.setLine _ _) rfl).bind ?_
  rintro _ _ rfl
  refine Action.Ensures.modify ⟨fun column row hlt => ?_, fun row hline => ?_,
    fun hnone row hge => ?_, rfl, fun hs => ?_⟩
  · rw [cell_update, cell_setLine, if_neg (by rintro rfl; linarith)]
  · exact (hasLine_setLine _ _ _ _).mpr (.inr hline)
  · rw [cell_update, cell_setLine]
    split
    · rfl
    · exact hnone row hge
  · exact Sized.update (s := Sheet.setLine _ _ _) ⟨hs.physicals, hs.sizes⟩ rfl

theorem fillUnbound_below (n : Nat) (s : Sheet) :
    Action.Ensures (fillUnbound data order n) s fun _ s' => Below data n s s' := by
  refine (Action.Ensures.lift (P := fun _ s₁ => s₁ = s) fun _ _ => rfl).bind ?_
  rintro unbound _ rfl
  apply forEach_below
  intro entry s
  have hrow : (n : ℚ) ≤ n + entry.2 := by simp
  have hline : Keeps data {.logical} n (n + entry.2 + 1) (ensureLine (n + entry.2)) :=
    ensureLine_keeps hrow (by linarith)
  have hround : Keeps data {.logical} n (n + entry.2 + 1) (do
      ensureLine (n + entry.2)
      let hasPhysical ← Action.read fun s => (s.cell .physical (n + entry.2)).isSome
      fill (n + entry.2) .pattern (.pattern entry.1) 1
      Action.modify fun s => s.update (.pattern entry.1) fun r =>
        { r with colspan := some (if hasPhysical then 2 else 3) } : Program Unit) := by
    refine hline.bind fun _ => ?_
    refine (Keeps.still fun _ => rfl).bind fun hasPhysical => ?_
    refine (fill_keeps _ _ (by simp) hrow).bind fun _ s => ?_
    exact Action.Ensures.modify ⟨fun _ _ _ => rfl, fun _ h => h, fun _ h => .inl h, rfl,
      fun hs => hs.update rfl⟩
  exact (hround s).mono fun _ s' h => h.below

/-! ## The finished table -/

def Sheet.cellsIn (sheet : Sheet) (column : Column) (lines : List Nat) : List Ref :=
  lines.filterMap fun k => sheet.cell column ((k : Nat) : ℚ)

/-- What the filters meet in the lines of a table. -/
structure Scanned (data : Data) (sheet : Sheet) : Prop where
  arrays : ∃ ids : List Nat, ids.Pairwise (· < ·) ∧ ids.Perm data.logicals.keys ∧
    sheet.cellsIn .logical sheet.lineNumbers = ids.map .logical
  members : ∀ id logical, data.logicals.lookup id = some logical → ∃ physicals,
    data.physicals.keys ⊆ physicals ∧ sheet.members id = cachedMembers physicals logical
  disks : ∀ id ∈ data.logicals.keys, ∀ p ∈ sheet.members id, ∃ k ∈ sheet.lineNumbers,
    sheet.cell .physical ((k : Nat) : ℚ) = some (.physical p)
  sizes : ∀ ref, (sheet.records ref).size = (data.record ref).size

theorem sort_increasing {items : List Nat} (hnodup : items.Nodup) :
    ∃ sorted, Sort.sort (fun a b => decide (a < b)) items = .ok sorted ∧
      sorted.Perm items ∧ sorted.Pairwise (· < ·) := by
  obtain ⟨sorted, hsort, hperm, hsorted⟩ :=
    Sort.sort_sorted (less_strictWeak (α := Nat)) items
  refine ⟨sorted, hsort, hperm, ?_⟩
  have hdistinct : sorted.Pairwise (· ≠ ·) := hperm.nodup_iff.mpr hnodup
  refine (hsorted.and hdistinct).imp ?_
  rintro a b ⟨hle, hne⟩
  simp only [decide_eq_false_iff_not, not_lt] at hle
  omega

private theorem initial_sized : Sized data data.initial :=
  ⟨fun _ h => h, fun _ => rfl⟩

theorem overall_scanned {sheet : Sheet}
    (h : overall data order data.initial = (.ok (), sheet)) : Scanned data sheet := by
  obtain ⟨ids, hsort, hperm, hincreasing⟩ :=
    sort_increasing ((order.perm _).nodup_iff.mpr data.logicals.keys_nodup)
  have hids : ids.Perm data.logicals.keys := hperm.trans (order.perm _)
  have hrun : Action.Ensures (overall data order) data.initial fun _ s' =>
      ∃ n s₁ s₂, Arrayed data ids 1 n s₁ s₂ ∧ Below data n s₂ s' := by
    unfold overall
    refine (Action.Ensures.lift (P := fun items s₁ => items = ids ∧ s₁ = data.initial)
      fun items hitems => ⟨Except.ok.inj (hitems.symm.trans hsort), rfl⟩).bind ?_
    rintro _ _ ⟨rfl, rfl⟩
    refine (Action.Ensures.of_returns
      (fillSessionsAvail_returns data order fun _ => rfl)).bind ?_
    rintro _ s₁ ⟨hsame, _⟩
    have hblank : ∀ row : ℚ, (1 : Nat) ≤ row → ¬ s₁.HasLine row := by
      intro row _
      rw [hsame]
      simp [HasLine, Data.initial]
    have hsized : Sized data s₁ := by
      rw [hsame]
      exact ⟨initial_sized.physicals, initial_sized.sizes⟩
    refine (fillLogicals_arrayed (hids.nodup_iff.mpr data.logicals.keys_nodup) hblank
      hsized).bind ?_
    intro n s₂ harrayed
    have hfree : Action.Ensures (fillFree order n) s₂ fun _ s' => Below data n s₂ s' :=
      fillFree_below n s₂
    refine hfree.bind fun _ s₃ h₃ => ?_
    exact (fillUnbound_below n s₃).mono fun _ s₄ h₄ => ⟨n, s₁, s₂, harrayed, h₃.trans h₄⟩
  obtain ⟨n, s₁, s₂, harrayed, hbelow⟩ := hrun () sheet h
  have hlines : ∀ k : Nat, 1 ≤ k → k < n → sheet.HasLine k := fun k hk hk' =>
    hbelow.lines k (harrayed.new k hk hk')
  obtain ⟨m, hnumbers⟩ := lineNumbers_eq_append hlines
  have hone : 1 ≤ n := harrayed.le
  constructor
  · refine ⟨ids, hincreasing, hids, ?_⟩
    have hfirst : (List.range' 1 (n - 1)).filterMap
        (fun k => sheet.cell .logical ((k : Nat) : ℚ)) =
          (List.range' 1 (n - 1)).filterMap fun k => s₂.cell .logical ((k : Nat) : ℚ) := by
      apply List.filterMap_congr
      intro k hk
      obtain ⟨_, hlt⟩ := List.mem_range'_1.mp hk
      exact hbelow.cells .logical k (by exact_mod_cast (by omega : k < n))
    have hnone := hbelow.logicals fun row hrow =>
      cell_eq_none_of_not_hasLine (harrayed.blank row hrow) .logical
    rw [Sheet.cellsIn, hnumbers, List.filterMap_append, hfirst, harrayed.heads,
      List.filterMap_eq_nil_iff.mpr, List.append_nil]
    intro k hk
    obtain ⟨hlow, _⟩ := List.mem_range'_1.mp (List.takeWhile_subset _ hk)
    exact hnone k (by exact_mod_cast (by omega : n ≤ k))
  · intro id logical hlogical
    have hid : id ∈ ids := hids.mem_iff.mpr
      (AList.mem_keys.mp (AList.lookup_isSome.mp (by rw [hlogical]; rfl)))
    obtain ⟨logical', physicals, hlogical', hsub, hmembers⟩ := harrayed.members id hid
    rw [hlogical] at hlogical'
    obtain rfl := Option.some.inj hlogical'
    exact ⟨physicals, hsub, by rw [hbelow.members, hmembers]⟩
  · intro id hid p hp
    rw [hbelow.members] at hp
    obtain ⟨k, hlow, hhigh, hcell⟩ := harrayed.disks id (hids.mem_iff.mpr hid) p hp
    refine ⟨k, ?_, ?_⟩
    · rw [hnumbers, List.mem_append, List.mem_range'_1]
      exact .inl ⟨hlow, by omega⟩
    · rw [hbelow.cells .physical k (by exact_mod_cast hhigh), hcell]
  · exact (hbelow.sized harrayed.sized).sizes

theorem Data.Regular.overall_ok (h : data.Regular) (order : Order) :
    ∃ sheet, overall data order data.initial = (.ok (), sheet) := by
  obtain ⟨_, sheet, hrun, _⟩ := overall_returns (G := Set.univ) data order
    fun avail havail => h.layable (sessions_of_perm havail)
  exact ⟨sheet, hrun⟩

/-! ## Loops over the cells of a column -/

section Walk

variable {sheet : Sheet}

theorem cellsIn_cons_none {column : Column} {k : Nat} {lines : List Nat}
    (h : sheet.cell column ((k : Nat) : ℚ) = none) :
    sheet.cellsIn column (k :: lines) = sheet.cellsIn column lines :=
  List.filterMap_cons_none h

theorem cellsIn_cons_some {column : Column} {k : Nat} {lines : List Nat} {ref : Ref}
    (h : sheet.cell column ((k : Nat) : ℚ) = some ref) :
    sheet.cellsIn column (k :: lines) = ref :: sheet.cellsIn column lines :=
  List.filterMap_cons_some h

theorem mem_cellsIn {column : Column} {lines : List Nat} {ref : Ref} :
    ref ∈ sheet.cellsIn column lines ↔
      ∃ k ∈ lines, sheet.cell column ((k : Nat) : ℚ) = some ref :=
  List.mem_filterMap

theorem forEach_onCell (column : Column) (lines : List Nat) (body : Ref → Filter Unit) :
    Action.forEach lines (fun k => onCell sheet column k body) =
      Action.forEach (sheet.cellsIn column lines) body := by
  induction lines with
  | nil => rfl
  | cons k lines ih =>
      rw [Action.forEach, onCell, ih]
      cases hcell : sheet.cell column ((k : Nat) : ℚ) with
      | none =>
          rw [cellsIn_cons_none hcell]
          rfl
      | some ref =>
          rw [cellsIn_cons_some hcell]
          rfl

structure Walk (data : Data) (sheet : Sheet) (lines ids : List Nat) : Prop where
  cells : sheet.cellsIn .logical lines = ids.map .logical
  known : ∀ id ∈ ids, ∃ logical, data.logicals.lookup id = some logical

theorem Walk.cons {k : Nat} {lines ids : List Nat} (h : Walk data sheet (k :: lines) ids) :
    sheet.cell .logical ((k : Nat) : ℚ) = none ∧ Walk data sheet lines ids ∨
      ∃ id logical rest, ids = id :: rest ∧
        sheet.cell .logical ((k : Nat) : ℚ) = some (.logical id) ∧
        data.logicals.lookup id = some logical ∧ Walk data sheet lines rest := by
  have hcells := h.cells
  cases hcell : sheet.cell .logical ((k : Nat) : ℚ) with
  | none =>
      rw [cellsIn_cons_none hcell] at hcells
      exact .inl ⟨rfl, hcells, h.known⟩
  | some ref =>
      rw [cellsIn_cons_some hcell] at hcells
      cases ids with
      | nil => cases hcells
      | cons id rest =>
          rw [List.map_cons, List.cons.injEq] at hcells
          obtain ⟨logical, hlogical⟩ := h.known id (by simp)
          refine .inr ⟨id, logical, rest, rfl, by rw [hcells.1], hlogical, hcells.2, ?_⟩
          exact fun other hother => h.known other (by simp [hother])

theorem Scanned.walk (h : Scanned data sheet) :
    ∃ ids : List Nat, ids.Pairwise (· < ·) ∧ ids.Perm data.logicals.keys ∧
      Walk data sheet sheet.lineNumbers ids := by
  obtain ⟨ids, hincreasing, hperm, hcells⟩ := h.arrays
  refine ⟨ids, hincreasing, hperm, hcells, fun id hid => ?_⟩
  exact Option.isSome_iff_exists.mp
    (AList.lookup_isSome.mpr (AList.mem_keys.mpr (hperm.mem_iff.mp hid)))

end Walk

end OpenSan.Matrix
