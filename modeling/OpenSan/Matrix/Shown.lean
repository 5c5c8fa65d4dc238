import OpenSan.Matrix.Rendered

/-!
# What the table shows

Every disk with a record and every pattern that is bound to nothing, or to a
volume of an array, is in one line of the table.
-/

namespace OpenSan.Matrix

open OpenSan.Foundation OpenSan.Einarc Sheet

variable {data : Data} {order : Order} {s : Sheet}

/-! ## The disks that stay free -/

structure Quiet (s s' : Sheet) : Prop where
  members : s'.members = s.members
  physicals : s'.physicals = s.physicals
  free : s'.physicalsFree = s.physicalsFree

theorem Quiet.refl (s : Sheet) : Quiet s s := ⟨rfl, rfl, rfl⟩

theorem Quiet.trans (a b c : Sheet) (h : Quiet a b) (h' : Quiet b c) : Quiet a c :=
  ⟨h'.members.trans h.members, h'.physicals.trans h.physicals, h'.free.trans h.free⟩

theorem Quiet.drawing : Drawing Quiet where
  refl := Quiet.refl
  trans := Quiet.trans
  lines _ _ := ⟨rfl, rfl, rfl⟩
  span _ _ _ _ := ⟨rfl, rfl, rfl⟩

structure Freed (ids : List Nat) (s s' : Sheet) : Prop where
  others : ∀ id, id ∉ ids → s'.members id = s.members id
  physicals : ∀ p ∈ s.physicals, p ∈ s'.physicals
  nodup : s.physicalsFree.Nodup → s'.physicalsFree.Nodup
  free : s.physicalsFree.Nodup → ∀ p ∈ s.physicals, (p ∈ s'.physicalsFree ↔
    p ∈ s.physicalsFree ∧ ∀ id ∈ ids, p ∉ s'.members id)

private theorem claimPhysicals_ensures (logicalId : Nat) (items : List PhysicalId)
    (s : Sheet) :
    Action.Ensures (Action.forEach items (claimPhysical logicalId)) s fun _ s' =>
      s'.members = s.members ∧ (∀ p ∈ s.physicals, p ∈ s'.physicals) ∧
      (s.physicalsFree.Nodup → s'.physicalsFree.Nodup ∧ ∀ p ∈ s.physicals,
        (p ∈ s'.physicalsFree ↔ p ∈ s.physicalsFree ∧ p ∉ items)) := by
  have hloop : Action.Ensures (Action.forEach items (claimPhysical logicalId)) s
      fun _ s' => s'.members = s.members ∧ (∀ p ∈ s.physicals, p ∈ s'.physicals) ∧
        (s.physicalsFree.Nodup → s'.physicalsFree.Nodup ∧ ∀ p ∈ s.physicals,
          (p ∈ s'.physicalsFree ↔
            p ∈ s.physicalsFree ∧ p ∉ items.take items.length)) := by
    refine Action.Ensures.forEach _ _ (I := fun i (s' : Sheet) =>
      s'.members = s.members ∧ (∀ p ∈ s.physicals, p ∈ s'.physicals) ∧
        (s.physicalsFree.Nodup → s'.physicalsFree.Nodup ∧ ∀ p ∈ s.physicals,
          (p ∈ s'.physicalsFree ↔ p ∈ s.physicalsFree ∧ p ∉ items.take i))) ?_ ?_
    · exact ⟨rfl, fun _ h => h, fun h => ⟨h, fun p _ => by simp⟩⟩
    rintro i hi s₁ ⟨hmembers, hkept, hfree⟩
    refine Action.Ensures.modify ?_
    have hnext : ∀ p, p ∉ items.take (i + 1) ↔ p ∉ items.take i ∧ p ≠ items[i] := by
      intro p
      rw [List.take_succ_eq_append_getElem hi, List.mem_append, List.mem_singleton,
        not_or]
    split
    · refine ⟨by split <;> exact hmembers, by split <;> exact hkept, fun h => ?_⟩
      obtain ⟨hnodup, hiff⟩ := hfree h
      refine ⟨hnodup.erase _, fun p hp => ?_⟩
      rw [hnodup.mem_erase_iff, hiff p hp, hnext p]
      tauto
    · rename_i hnew
      refine ⟨hmembers, fun p hp => List.mem_append_left _ (hkept p hp), fun h => ?_⟩
      obtain ⟨hnodup, hiff⟩ := hfree h
      refine ⟨hnodup, fun p hp => ?_⟩
      have hne : p ≠ items[i] := fun heq => hnew (heq ▸ hkept p hp)
      rw [hnext p, ← and_assoc]
      exact (hiff p hp).trans (and_iff_left hne).symm
  rw [List.take_length] at hloop
  exact hloop

private theorem fillLogical_freed (data : Data) (order : Order) (id : Nat)
    (logical : Logical) (currentLine : Nat) (s : Sheet) :
    Action.Ensures (fillLogical data order id logical currentLine) s fun _ s' =>
      Freed [id] s s' := by
  unfold fillLogical
  refine (Action.Ensures.modify (P := fun _ s₁ =>
    s₁.physicals = s.physicals ∧ s₁.physicalsFree = s.physicalsFree ∧
      ∀ other, other ≠ id → s₁.members other = s.members other)
    ⟨rfl, rfl, fun other hne => Function.update_of_ne hne _ _⟩).bind ?_
  rintro _ s₁ ⟨hphysicals, hfree, hmembers⟩
  refine (Action.Ensures.read (P := fun _ s₂ => Quiet s₁ s₂) (Quiet.refl s₁)).bind ?_
  intro quantity s₂ hquiet₂
  refine (Action.Ensures.of_evolves (Quiet.drawing.fillLines _ _)).bind ?_
  intro _ s₃ hquiet₃
  refine (Action.Ensures.of_evolves (Quiet.drawing.fill _ _ _ _)).bind ?_
  intro _ s₄ hquiet₄
  have hquiet := (hquiet₂.trans _ _ _ hquiet₃).trans _ _ _ hquiet₄
  have hclaimed : Action.Ensures (fillPhysicals order id currentLine quantity) s₄
      fun _ s₅ => s₅.members = s₄.members ∧
        (∀ p ∈ s₄.physicals, p ∈ s₅.physicals) ∧
        (s₄.physicalsFree.Nodup → s₅.physicalsFree.Nodup ∧ ∀ p ∈ s₄.physicals,
          (p ∈ s₅.physicalsFree ↔ p ∈ s₄.physicalsFree ∧ p ∉ s₄.members id)) := by
    refine (Action.Ensures.read (P := fun members s₅ =>
      members = s₄.members id ∧ s₅ = s₄) ⟨rfl, rfl⟩).bind ?_
    rintro members sheet ⟨hlist, hsheet⟩
    rw [hsheet, hlist]
    refine (claimPhysicals_ensures id _ _).bind ?_
    rintro _ s₅ ⟨hmem, hkept, hclaim⟩
    have hrest : ∀ (sorted : List PhysicalId) (rowspan : ℚ),
        Action.Evolves Quiet (Action.forEach sorted.zipIdx fun entry =>
          fill (currentLine + entry.2 * rowspan) .physical (.physical entry.1)
            rowspan) := fun sorted rowspan =>
      Quiet.drawing.loop fun _ => Quiet.drawing.fill _ _ _ _
    refine (Action.Ensures.query (P := fun _ s₆ => s₆ = s₅) fun _ _ => rfl).bind ?_
    rintro sorted _ rfl
    refine (Action.Ensures.of_evolves (hrest sorted _)).mono ?_
    intro _ s₆ hquiet₆
    rw [hquiet₆.members, hquiet₆.physicals, hquiet₆.free]
    simp only [order.mem_visit] at hclaim
    exact ⟨hmem, hkept, hclaim⟩
  refine hclaimed.bind ?_
  rintro _ s₅ ⟨hmem₅, hkept₅, hclaim₅⟩
  refine (Action.Ensures.of_evolves (Quiet.drawing.fillVolumes _ _ _)).bind ?_
  intro _ s₆ hquiet₆
  refine (Action.Ensures.of_evolves (Quiet.drawing.quiet fun _ => rfl)).mono ?_
  intro _ s₇ hquiet₇
  have hend := hquiet₆.trans _ _ _ hquiet₇
  have hlast : s₇.members = s₁.members :=
    hend.members.trans (hmem₅.trans hquiet.members)
  rw [hquiet.physicals, hphysicals] at hkept₅
  rw [hquiet.physicals, hquiet.free, hphysicals, hfree] at hclaim₅
  refine ⟨fun other hother => ?_, fun p hp => ?_, fun h => ?_, fun h p hp => ?_⟩
  · rw [hlast, hmembers other (by simpa using hother)]
  · rw [hend.physicals]
    exact hkept₅ p hp
  · rw [hend.free]
    exact (hclaim₅ h).1
  · rw [hend.free, (hclaim₅ h).2 p hp, hlast, hquiet.members]
    simp

private theorem fillLogicals_freed (data : Data) (order : Order) {ids : List Nat}
    (hids : ids.Nodup) (currentLine : Nat) (s : Sheet) :
    Action.Ensures (fillLogicals data order ids currentLine) s fun _ s' =>
      Freed ids s s' := by
  induction ids generalizing currentLine s with
  | nil =>
      intro _ _ hrun
      cases hrun
      exact ⟨fun _ _ => rfl, fun _ h => h, id, fun _ p _ => by simp⟩
  | cons id ids ih =>
      obtain ⟨hnot, hids⟩ := List.nodup_cons.mp hids
      unfold fillLogicals
      refine (Action.Ensures.lift (P := fun _ s₁ => s₁ = s) fun _ _ => rfl).bind ?_
      rintro logical _ rfl
      refine (fillLogical_freed data order id logical currentLine _).bind ?_
      intro next s₁ hfirst
      refine (ih hids next s₁).mono ?_
      intro _ s₂ hrest
      have hmembers : s₂.members id = s₁.members id := hrest.others id hnot
      refine ⟨fun other hother => ?_, fun p hp => ?_, fun h => ?_, fun h p hp => ?_⟩
      · rw [List.mem_cons, not_or] at hother
        rw [hrest.others other hother.2, hfirst.others other (by simpa using hother.1)]
      · exact hrest.physicals p (hfirst.physicals p hp)
      · exact hrest.nodup (hfirst.nodup h)
      · rw [hrest.free (hfirst.nodup h) p (hfirst.physicals p hp), hfirst.free h p hp]
        simp only [List.forall_mem_cons, hmembers]
        simp [and_assoc]

/-! ## The lines below the arrays -/

private theorem fillFree_shows {n : Nat} (hblank : ∀ row : ℚ, n ≤ row → ¬ s.HasLine row) :
    Action.Ensures (fillFree order n) s fun _ s' =>
      (∀ id, id ∈ s.physicalsFree ↔
        ∃ k : Nat, n ≤ k ∧ s'.cell .physical k = some (.free id)) ∧
      ∀ row : ℚ, n ≤ row → s'.cell .pattern row = none := by
  obtain ⟨sorted, hsort, hperm⟩ := Physical.sort_perm order
    (fun id => (s.records (.free id)).state) s.physicalsFree
  unfold fillFree
  refine (Action.Ensures.query (P := fun items s₁ => items = sorted ∧ s₁ = s) ?_).bind ?_
  · intro items hitems
    exact ⟨Except.ok.inj (hitems.symm.trans hsort), rfl⟩
  rintro _ s₀ ⟨rfl, rfl⟩
  have hitems : ∀ id, id ∈ s₀.physicalsFree ↔ id ∈ order.visit _ := fun id =>
    (hperm.mem_iff.symm.trans (order.mem_visit).symm)
  simp only [hitems]
  generalize order.visit _ = items
  -- after `i` rounds the lines show the first `i` disks
  have hloop := Action.Ensures.forEach (s := s₀) items.zipIdx
    (fun entry => do
      let currentLine : ℚ := n + entry.2
      Action.modify fun s : Sheet => s.setLine currentLine
        (Function.update Line.empty .physical (some (.free entry.1)))
      (Action.modify fun s : Sheet =>
        s.update (.free entry.1) fun r => { r with rowspan := some 1 } : Program Unit))
    (I := fun i (s' : Sheet) => (∀ row : ℚ, n ≤ row → s'.cell .pattern row = none) ∧
      (∀ row : ℚ, n ≤ row → ∀ id, s'.cell .physical row = some (.free id) →
        id ∈ items.take i) ∧
      ∀ j (hj : j < items.length), j < i →
        s'.cell .physical ((n + j : Nat) : ℚ) = some (.free items[j])) ?_ ?_
  · refine hloop.mono ?_
    rintro _ s' ⟨hpattern, hsound, hcomplete⟩
    refine ⟨fun id => ⟨fun hid => ?_, ?_⟩, hpattern⟩
    · obtain ⟨j, hj, rfl⟩ := List.getElem_of_mem hid
      exact ⟨n + j, Nat.le_add_right n j, hcomplete j hj (by simpa using hj)⟩
    · rintro ⟨k, hk, hcell⟩
      exact List.mem_of_mem_take (hsound k (by exact_mod_cast hk) id hcell)
  · refine ⟨fun row hrow => ?_, fun row hrow id h => ?_, fun j _ hj => by omega⟩
    · exact cell_eq_none_of_not_hasLine (hblank row hrow) _
    · rw [cell_eq_none_of_not_hasLine (hblank row hrow)] at h
      cases h
  · rintro i hi s₁ ⟨hpattern, hsound, hcomplete⟩
    have hi' : i < items.length := by simpa using hi
    simp only [List.getElem_zipIdx, Nat.zero_add]
    have hrow : (n : ℚ) + (i : ℚ) = ((n + i : Nat) : ℚ) := by push_cast; rfl
    rw [hrow]
    refine (Action.Ensures.modify (P := fun _ s₂ => s₂ = s₁.setLine _ _) rfl).bind ?_
    rintro _ _ rfl
    refine Action.Ensures.modify ⟨fun row hrow' => ?_, fun row hrow' id hcell => ?_,
      fun j hj hlt => ?_⟩
    · rw [cell_update, cell_setLine]
      split
      · rfl
      · exact hpattern row hrow'
    · rw [cell_update, cell_setLine] at hcell
      rw [List.take_succ_eq_append_getElem hi', List.mem_append, List.mem_singleton]
      split at hcell
      · rw [Function.update_self] at hcell
        injection hcell with hcell
        injection hcell with hcell
        exact .inr hcell.symm
      · exact .inl (hsound row hrow' id hcell)
    · rw [cell_update, cell_setLine]
      by_cases heq : j = i
      · subst heq
        rw [if_pos rfl, Function.update_self]
      · rw [if_neg (by exact_mod_cast (by omega : n + j ≠ n + i))]
        exact hcomplete j hj (by omega)

private theorem unboundPatterns_complete
    (hnames : (data.accessPatterns.map (·.name)).Nodup) {indices : List Nat}
    (h : unboundPatterns data order = .ok indices) :
    indices.Nodup ∧ ∀ index, Unbound data index → index ∈ indices := by
  obtain ⟨names, hsort, h⟩ := bind_eq_ok.mp h
  obtain ⟨firsts, hfirsts, h⟩ := bind_eq_ok.mp h
  obtain rfl := Except.ok.inj h
  obtain ⟨sorted, hsort', hperm⟩ := Sort.sort_perm (less_asymmetric (α := String))
    (order.visit (patternsBy data order (·.name)).keys)
  obtain rfl : names = sorted := Except.ok.inj (hsort.symm.trans hsort')
  have hfirst : ∀ name entry, nonNil "access_pattern"
      (firstBy data order (·.name) name) = .ok entry →
      data.accessPatterns[entry.2]? = some entry.1 ∧ entry.1.name = name :=
    fun name entry hentry => firstBy_eq_some (nonNil_eq_ok hentry)
  have hmap : firsts.map (fun entry => entry.1.name) = names := by
    rw [mapM_map_eq (fun entry => entry.1.name) (fun name => name)
      (fun name entry hentry => (hfirst name entry hentry).2) hfirsts, List.map_id']
  have hnodup : (firsts.map fun entry => entry.1.name).Nodup := by
    rw [hmap, hperm.nodup_iff, (order.perm _).nodup_iff]
    exact AList.keys_nodup _
  have hindex : ∀ entry ∈ firsts, data.accessPatterns[entry.2]? = some entry.1 := by
    intro entry hentry
    obtain ⟨name, _, hname⟩ := (mapM_eq_ok hfirsts).2 entry hentry
    exact (hfirst name entry hname).1
  constructor
  · refine List.Nodup.map_on ?_ ((List.Nodup.of_map _ hnodup).filter _)
    intro a ha b hb hab
    have hsame := hindex a (List.mem_filter.mp ha).1
    rw [hab, hindex b (List.mem_filter.mp hb).1] at hsame
    exact Prod.ext (Option.some.inj hsame).symm hab
  · rintro index ⟨pattern, hpattern, hnone⟩
    have hkey : pattern.name ∈ names := by
      rw [hperm.mem_iff, order.mem_visit]
      exact mem_keys_uniqueKeys.mpr ⟨(pattern, index),
        (order.mem_visit).mpr (List.mem_zipIdx_iff_getElem?.mpr hpattern), rfl⟩
    rw [← hmap] at hkey
    obtain ⟨entry, hentry, hname⟩ := List.mem_map.mp hkey
    obtain ⟨hlt, hget⟩ := List.getElem?_eq_some_iff.mp hpattern
    obtain ⟨hlt', hget'⟩ := List.getElem?_eq_some_iff.mp (hindex entry hentry)
    have heq : entry.2 = index := by
      have hentry₂ : entry.2 < (data.accessPatterns.map (·.name)).length := by
        simpa using hlt'
      have hindex₂ : index < (data.accessPatterns.map (·.name)).length := by
        simpa using hlt
      have hsame : (data.accessPatterns.map (·.name))[entry.2] =
          (data.accessPatterns.map (·.name))[index] := by
        simp [hget, hget', hname]
      exact hnames.getElem_inj_iff.mp hsame
    refine List.mem_map.mpr ⟨entry, List.mem_filter.mpr ⟨hentry, ?_⟩, heq⟩
    have hsame : entry.1 = pattern := by
      subst heq
      exact hget'.symm.trans hget
    simp [hsame, hnone]

theorem fill_ensures {offset : ℚ} {column : Column} {ref : Ref}
    {rowspan : ℚ} : Action.Ensures (fill offset column ref rowspan) s fun _ =>
      Written offset column ref rowspan s := by
  by_cases hline : s.HasLine offset
  · exact .of_returns (fill_written hline)
  · intro value s' hrun
    have hnone : s.lines.lookup offset = none := by simpa [HasLine] using hline
    simp [fill, hnone, nonNil] at hrun

private theorem fillUnbound_shows {n : Nat} {indices : List Nat}
    (hok : unboundPatterns data order = .ok indices)
    (hblank : ∀ row : ℚ, n ≤ row → s.cell .pattern row = none) :
    Action.Ensures (fillUnbound data order n) s fun _ s' =>
      (∀ row, s'.cell .physical row = s.cell .physical row) ∧
      (∀ row : ℚ, n ≤ row → ∀ ref, s'.cell .pattern row = some ref →
        ∃ j, ∃ hj : j < indices.length, ref = .pattern indices[j] ∧
          row = ((n + j : Nat) : ℚ)) ∧
      ∀ j (hj : j < indices.length),
        s'.cell .pattern ((n + j : Nat) : ℚ) = some (.pattern indices[j]) := by
  unfold fillUnbound
  refine (Action.Ensures.lift (P := fun items s₁ => items = indices ∧ s₁ = s)
    fun items hitems => ⟨Except.ok.inj (hitems.symm.trans hok), rfl⟩).bind ?_
  rintro _ _ ⟨rfl, rfl⟩
  rename_i items s₀
  have hloop := Action.Ensures.forEach (s := s₀) items.zipIdx
    (fun entry => do
      let currentLine : ℚ := n + entry.2
      ensureLine currentLine
      let hasPhysical ← Action.read fun s => (s.cell .physical currentLine).isSome
      fill currentLine .pattern (.pattern entry.1) 1
      Action.modify fun s : Sheet => s.update (.pattern entry.1) fun r =>
        { r with colspan := some (if hasPhysical then 2 else 3) })
    (I := fun i (s' : Sheet) =>
      (∀ row, s'.cell .physical row = s₀.cell .physical row) ∧
      (∀ row : ℚ, n ≤ row → ∀ ref, s'.cell .pattern row = some ref →
        ∃ j, ∃ hj : j < items.length, ref = .pattern items[j] ∧
          row = ((n + j : Nat) : ℚ)) ∧
      ∀ j (hj : j < items.length), j < i →
        s'.cell .pattern ((n + j : Nat) : ℚ) = some (.pattern items[j])) ?_ ?_
  · refine hloop.mono ?_
    rintro _ s' ⟨hphysical, hsound, hcomplete⟩
    exact ⟨hphysical, hsound, fun j hj => hcomplete j hj (by simpa using hj)⟩
  · refine ⟨fun _ => rfl, fun row hrow ref h => ?_, fun j _ hj => by omega⟩
    rw [hblank row hrow] at h
    cases h
  · rintro i hi s₁ ⟨hphysical, hsound, hcomplete⟩
    have hi' : i < items.length := by simpa using hi
    simp only [List.getElem_zipIdx, Nat.zero_add]
    have hrow : (n : ℚ) + (i : ℚ) = ((n + i : Nat) : ℚ) := by push_cast; rfl
    rw [hrow]
    have hensure : Action.Ensures (ensureLine ((n + i : Nat) : ℚ)) s₁ fun _ s₂ =>
        ∀ column row, s₂.cell column row = s₁.cell column row := by
      refine Action.Ensures.modify ?_
      intro column row
      split
      · rename_i hnone
        rw [cell_setLine]
        split
        · rename_i heq
          rw [heq, cell_eq_none_of_not_hasLine (by simpa [HasLine] using hnone)]
          rfl
        · rfl
      · rfl
    refine hensure.bind ?_
    intro _ s₂ hcells₂
    refine (Action.Ensures.read (P := fun _ s₃ => s₃ = s₂) rfl).bind ?_
    rintro hasPhysical _ rfl
    refine fill_ensures.bind ?_
    intro _ s₃ hwritten
    refine Action.Ensures.modify ⟨fun row => ?_, fun row hrow' ref hcell => ?_,
      fun j hj hlt => ?_⟩
    · rw [cell_update, hwritten.cells, if_neg (by simp), hcells₂, hphysical]
    · rw [cell_update, hwritten.cells] at hcell
      split at hcell
      · rename_i heq
        exact ⟨i, hi', (Option.some.inj hcell).symm, heq.1⟩
      · rw [hcells₂] at hcell
        exact hsound row hrow' ref hcell
    · rw [cell_update, hwritten.cells]
      by_cases heq : j = i
      · subst heq
        rw [if_pos ⟨rfl, rfl⟩]
      · rw [if_neg (fun h => by
          have : n + j = n + i := by exact_mod_cast h.1
          omega), hcells₂]
        exact hcomplete j hj (by omega)

/-! ## The lines that show an object -/

def ShowsDisk (sheet : Sheet) (id : PhysicalId) (k : Nat) : Prop :=
  sheet.cell .physical k = some (.physical id) ∨
    sheet.cell .physical k = some (.free id)

def ShowsPattern (sheet : Sheet) (index k : Nat) : Prop :=
  sheet.cell .pattern k = some (.pattern index)

def InOneLine (sheet : Sheet) (shows : Nat → Prop) : Prop :=
  ∃! k, k ∈ sheet.lineNumbers ∧ shows k

theorem Sheet.Filled.tiles {α : Type} [DecidableEq α] {G : Set Ref} {C : Set Column}
    {column : Column} {ref : α → Ref} {inner : α → Nat → Nat → Prop} {lo hi : Nat}
    {items : List α} (h : Filled G s C column ref inner lo items hi)
    (hnodup : items.Nodup) :
    ∃ lower upper : α → Nat,
      (∀ item ∈ items, lo ≤ lower item ∧ upper item ≤ hi ∧
        CellAt G s column (ref item) (lower item) (upper item) ∧
        inner item (lower item) (upper item)) ∧
      ∀ other ∈ C, ∀ (row : ℚ) r, lo ≤ row → row < hi → s.cell other row = some r →
        ∃ item ∈ items, (lower item : ℚ) ≤ row ∧ row < (upper item : ℚ) := by
  unfold Filled at h
  by_cases hnil : items = []
  · rw [if_pos hnil] at h
    refine ⟨fun _ => lo, fun _ => lo, by simp [hnil], ?_⟩
    intro other hother row r hlo hhi hcell
    rw [h other hother row hlo hhi] at hcell
    cases hcell
  rw [if_neg hnil] at h
  obtain ⟨rows, hpos, hstop, hcells⟩ := h
  refine ⟨fun item => lo + items.idxOf item * rows,
    fun item => lo + (items.idxOf item + 1) * rows, fun item hitem => ?_, ?_⟩
  · have hlt := List.idxOf_lt_length_of_mem hitem
    obtain ⟨hcell, hin⟩ := hcells _ hlt
    rw [List.getElem_idxOf] at hcell hin
    have hle : (items.idxOf item + 1) * rows ≤ items.length * rows :=
      Nat.mul_le_mul_right rows hlt
    exact ⟨Nat.le_add_right _ _, hstop ▸ Nat.add_le_add_left hle lo, hcell, hin⟩
  · intro other _ row r hlo hhi _
    obtain ⟨i, hi', hbelow, habove, _, _⟩ := Tiled.tile_of_row hpos hstop hlo hhi hcells
    refine ⟨items[i], List.getElem_mem hi', ?_⟩
    simp only [hnodup.idxOf_getElem i hi']
    exact ⟨hbelow, habove⟩

section Shown

variable {ids : List Nat} {n stop : Nat} {s₁ s₂ sheet : Sheet}
  (hdrawn : Drawn Set.univ data order ids n stop sheet)
  (hstages : Stages data order ids n s₁ s₂ sheet)
  (hregular : data.Regular)

include hdrawn

private theorem mem_lines {k : Nat} {column : Column} {ref : Ref} (hk : 1 ≤ k)
    (hcell : sheet.cell column k = some ref) : k ∈ sheet.lineNumbers := by
  rw [mem_lineNumbers hdrawn]
  refine ⟨hk, (hdrawn.lines k hk).mp ?_⟩
  by_contra hno
  rw [cell_eq_none_of_not_hasLine hno] at hcell
  cases hcell

private theorem one_le_n : 1 ≤ n := hdrawn.blocks.le

/-! ### Disks -/

private theorem member_shown {id : Nat} {logical : Logical} {p : PhysicalId}
    (hlookup : data.logicals.lookup id = some logical)
    (hp : p ∈ memberIds data logical) :
    ∃ k ∈ sheet.lineNumbers, sheet.cell .physical (k : ℚ) = some (.physical p) := by
  have hid : id ∈ ids := hdrawn.perm.mem_iff.mpr
    (AList.mem_keys.mp (AList.lookup_isSome.mp (by rw [hlookup]; rfl)))
  obtain ⟨logical', start, next, hstart, _, hblock⟩ :=
    hdrawn.blocks.block_of_id hid
  rw [hblock.lookup] at hlookup
  obtain rfl := Option.some.inj hlookup
  obtain ⟨sorted, hsorted, hfilled⟩ := hblock.physicals
  obtain ⟨lower, upper, htiles, _⟩ := hfilled.tiles
    (hsorted.nodup_iff.mpr (nodup_memberIds data logical'))
  obtain ⟨hlower, _, hcell, _⟩ := htiles p (hsorted.mem_iff.mpr hp)
  exact ⟨lower p, mem_lines hdrawn (hstart.trans hlower) hcell.shown, hcell.shown⟩

include hstages

private theorem free_iff {p : PhysicalId} (hp : p ∈ data.physicals.keys) :
    p ∈ s₂.physicalsFree ↔
      ∀ e ∈ data.logicals.entries, p ∉ memberIds data e.2 := by
  have hids : ids.Nodup := hdrawn.perm.nodup_iff.mpr data.logicals.keys_nodup
  have hfreed := fillLogicals_freed data order hids 1 s₁ n s₂ hstages.arrays
  have hquiet : Quiet s₂ sheet := by
    have hrest : Action.Evolves Quiet
        (do fillFree order n; fillUnbound data order n : Program Unit) :=
      Quiet.drawing.fillRest n
    have hstep := hrest s₂
    rw [hstages.rest] at hstep
    exact hstep
  have hphysicals : s₁.physicals = data.physicals.keys := by
    rw [hstages.start]
    rfl
  have hfree : s₁.physicalsFree = data.physicals.keys := by
    rw [hstages.start]
    rfl
  rw [hfreed.free (by rw [hfree]; exact data.physicals.keys_nodup) p
    (by rw [hphysicals]; exact hp), hfree, and_iff_right hp, ← hquiet.members]
  constructor
  · intro h e he
    have hlookup : data.logicals.lookup e.1 = some e.2 := AList.mem_lookup_iff.mpr he
    rw [← hdrawn.members e.1 e.2 hlookup]
    refine h e.1 (hdrawn.perm.mem_iff.mpr ?_)
    exact AList.mem_keys.mp (AList.lookup_isSome.mp (by rw [hlookup]; rfl))
  · intro h id hid
    obtain ⟨logical, hlookup⟩ := Option.isSome_iff_exists.mp
      (AList.lookup_isSome.mpr (AList.mem_keys.mpr (hdrawn.perm.mem_iff.mp hid)))
    rw [hdrawn.members id logical hlookup]
    exact h ⟨id, logical⟩ (AList.mem_lookup_iff.mp hlookup)

omit hdrawn in
private theorem rest_shows {indices : List Nat}
    (hok : unboundPatterns data order = .ok indices) :
    (∀ id, id ∈ s₂.physicalsFree ↔
        ∃ k : Nat, n ≤ k ∧ sheet.cell .physical k = some (.free id)) ∧
      (∀ row : ℚ, n ≤ row → ∀ ref, sheet.cell .pattern row = some ref →
        ∃ j, ∃ hj : j < indices.length, ref = .pattern indices[j] ∧
          row = ((n + j : Nat) : ℚ)) ∧
      ∀ j (hj : j < indices.length),
        sheet.cell .pattern ((n + j : Nat) : ℚ) = some (.pattern indices[j]) := by
  have hrest : Action.Ensures (fillFree order n >>= fun _ => fillUnbound data order n) s₂
      fun _ s' => (∀ id, id ∈ s₂.physicalsFree ↔
        ∃ k : Nat, n ≤ k ∧ s'.cell .physical k = some (.free id)) ∧
      (∀ row : ℚ, n ≤ row → ∀ ref, s'.cell .pattern row = some ref →
        ∃ j, ∃ hj : j < indices.length, ref = .pattern indices[j] ∧
          row = ((n + j : Nat) : ℚ)) ∧
      ∀ j (hj : j < indices.length),
        s'.cell .pattern ((n + j : Nat) : ℚ) = some (.pattern indices[j]) := by
    refine (fillFree_shows hstages.blank).bind ?_
    rintro _ s₃ ⟨hfree, hblank⟩
    refine (fillUnbound_shows hok hblank).mono ?_
    rintro _ s₄ ⟨hphysical, hpatterns⟩
    refine ⟨fun id => ?_, hpatterns⟩
    simp only [hfree, hphysical]
  exact hrest () sheet hstages.rest

include hregular

theorem disk_in_one_line {p : PhysicalId} (hp : p ∈ data.physicals.keys) :
    InOneLine sheet (ShowsDisk sheet p) := by
  obtain ⟨indices, hok, _⟩ := unboundPatterns_ok data order
  obtain ⟨hfree, _⟩ := rest_shows hstages hok
  have hone : ∀ {k : Nat}, k ∈ sheet.lineNumbers → (1 : ℚ) ≤ k := one_le_row hdrawn
  by_cases hmember : ∃ e ∈ data.logicals.entries, p ∈ memberIds data e.2
  · obtain ⟨e, he, hin⟩ := hmember
    obtain ⟨k, hk, hcell⟩ := member_shown hdrawn (AList.mem_lookup_iff.mpr he) hin
    refine ⟨k, ⟨hk, .inl hcell⟩, ?_⟩
    rintro k' ⟨hk', hcell' | hcell'⟩
    · exact_mod_cast hdrawn.physical_once hregular (hone hk') (hone hk) hcell' hcell
    · have hlow : (n : ℚ) ≤ k' := by
        rcases hdrawn.physical_inv (hone hk') hcell' with ⟨_, hge⟩ |
          ⟨_, _, _, _, _, _, _, _, _, heq⟩
        · exact hge
        · cases heq
      have hin' := (hfree p).mpr ⟨k', by exact_mod_cast hlow, hcell'⟩
      exact absurd hin ((free_iff hdrawn hstages hp).mp hin' e he)
  · have hnot : p ∈ s₂.physicalsFree := by
      rw [free_iff hdrawn hstages hp]
      exact fun e he hin => hmember ⟨e, he, hin⟩
    obtain ⟨k, hk, hcell⟩ := (hfree p).mp hnot
    have hk1 : 1 ≤ k := (one_le_n hdrawn).trans hk
    refine ⟨k, ⟨mem_lines hdrawn hk1 hcell, .inr hcell⟩, ?_⟩
    rintro k' ⟨hk', hcell' | hcell'⟩
    · rcases hdrawn.physical_inv (hone hk') hcell' with ⟨⟨_, heq⟩, _⟩ |
        ⟨id, logical, _, _, _, _, hblock, q, hq, heq⟩
      · cases heq
      · cases heq
        exact absurd ⟨⟨id, logical⟩, AList.mem_lookup_iff.mp hblock.lookup, hq⟩ hmember
    · exact_mod_cast hdrawn.physical_once hregular (hone hk')
        (by exact_mod_cast hk1) hcell' hcell

/-! ### Patterns -/

omit hdrawn hstages hregular in
private theorem volume_tiles {id start next : Nat} {logical : Logical}
    (hblock : Block Set.univ data sheet id logical start next) :
    ∃ lower upper : String → Nat,
      (∀ device ∈ logical.volumes.keys, start ≤ lower device ∧
        patternRows Set.univ data sheet.sessionsAvail sheet device (lower device)
          (upper device)) ∧
      ∀ (row : ℚ) r, start ≤ row → row < next → sheet.cell .pattern row = some r →
        ∃ device ∈ logical.volumes.keys, (lower device : ℚ) ≤ row ∧
          row < (upper device : ℚ) := by
  obtain ⟨sorted, hsorted, hfilled⟩ := hblock.volumes
  obtain ⟨lower, upper, htiles, hcover⟩ := hfilled.tiles
    (hsorted.nodup_iff.mpr logical.volumes.keys_nodup)
  refine ⟨lower, upper, fun device hdevice => ?_, fun row r hlo hhi hcell => ?_⟩
  · obtain ⟨hlower, _, _, hrows⟩ := htiles device (hsorted.mem_iff.mpr hdevice)
    exact ⟨hlower, hrows⟩
  · obtain ⟨device, hdevice, hrow⟩ := hcover .pattern (by simp) row r hlo hhi hcell
    exact ⟨device, hsorted.mem_iff.mp hdevice, hrow⟩

omit hdrawn hstages hregular in
private theorem mem_bound {device : String} {index : Nat} {pattern : Pattern}
    (hpattern : data.accessPatterns[index]? = some pattern) :
    index ∈ (boundPatterns data device).map (·.2) ↔ pattern.filename = some device := by
  constructor
  · intro hin
    obtain ⟨entry, hentry, rfl⟩ := List.mem_map.mp hin
    obtain ⟨hget, hname⟩ := filename_of_bound hentry
    rw [hpattern] at hget
    rw [Option.some.inj hget]
    exact hname
  · intro hname
    refine List.mem_map.mpr ⟨(pattern, index), ?_, rfl⟩
    exact List.mem_filter.mpr ⟨List.mem_zipIdx_iff_getElem?.mpr hpattern,
      decide_eq_true hname⟩

omit hstages hregular in
private theorem bound_of_row {index : Nat} {pattern : Pattern} {row : ℚ}
    (hpattern : data.accessPatterns[index]? = some pattern) (hlo : 1 ≤ row)
    (hhi : row < n) (hcell : sheet.cell .pattern row = some (.pattern index)) :
    ∃ id logical device, ∃ start next : Nat, pattern.filename = some device ∧
      device ∈ logical.volumes.keys ∧ 1 ≤ start ∧ next ≤ n ∧ (start : ℚ) ≤ row ∧
      row < (next : ℚ) ∧ Block Set.univ data sheet id logical start next := by
  obtain ⟨id, logical, start, next, _, hone, hend, hstart, hnext, hblock⟩ :=
    hdrawn.blocks.block_of_row (by exact_mod_cast hlo) hhi
  obtain ⟨lower, upper, htiles, hcover⟩ := volume_tiles hblock
  obtain ⟨device, hdevice, hlower, hupper⟩ := hcover row _ hstart hnext hcell
  obtain ⟨_, indices, hindices, hfilled⟩ := htiles device hdevice
  obtain ⟨index', hindex', lo', hi', hlo', hhi', hat, _⟩ :=
    hfilled.tile_of_cell (by simp) hlower hupper hcell
  obtain heq := (hat.eq_of_cell hlo' hhi' hcell).2
  cases heq
  exact ⟨id, logical, device, start, next,
    (mem_bound hpattern).mp (hindices.mem_iff.mp hindex'), hdevice, hone, hend, hstart,
    hnext, hblock⟩

omit hstages in
private theorem bound_once {index : Nat} {pattern : Pattern} {row row' : ℚ}
    (hpattern : data.accessPatterns[index]? = some pattern)
    (hlo : 1 ≤ row) (hhi : row < n) (hlo' : 1 ≤ row') (hhi' : row' < n)
    (hcell : sheet.cell .pattern row = some (.pattern index))
    (hcell' : sheet.cell .pattern row' = some (.pattern index)) : row = row' := by
  obtain ⟨id, logical, device, start, next, hname, hdevice, hone, hend, hstart, hnext,
    hblock⟩ := bound_of_row hdrawn hpattern hlo hhi hcell
  obtain ⟨id', logical', device', start', next', hname', hdevice', hone', hend', hstart',
    hnext', hblock'⟩ := bound_of_row hdrawn hpattern hlo' hhi' hcell'
  rw [hname] at hname'
  cases hname'
  obtain ⟨rfl, rfl⟩ :=
    hdrawn.block_of_device hregular hblock hblock' hdevice hdevice' hone hend hone' hend'
  obtain ⟨lower, upper, htiles, hcover⟩ := volume_tiles hblock
  -- both rows are rows of the volume the pattern is bound to
  have hrow : ∀ {row : ℚ}, start ≤ row → row < next →
      sheet.cell .pattern row = some (.pattern index) →
      (lower device : ℚ) ≤ row ∧ row < (upper device : ℚ) := by
    intro row hstart hnext hcell
    obtain ⟨other, hother, hlower, hupper⟩ := hcover row _ hstart hnext hcell
    obtain ⟨_, indices, hindices, hfilled⟩ := htiles other hother
    obtain ⟨index', hindex', lo', hi', hlo', hhi', hat, _⟩ :=
      hfilled.tile_of_cell (by simp) hlower hupper hcell
    obtain heq := (hat.eq_of_cell hlo' hhi' hcell).2
    cases heq
    have hbound := (mem_bound hpattern).mp (hindices.mem_iff.mp hindex')
    rw [hname] at hbound
    cases hbound
    exact ⟨hlower, hupper⟩
  obtain ⟨_, indices, hindices, hfilled⟩ := htiles device hdevice
  obtain ⟨hlower, hupper⟩ := hrow hstart hnext hcell
  obtain ⟨hlower', hupper'⟩ := hrow hstart' hnext' hcell'
  have hnodup : (indices.map Ref.pattern).Nodup :=
    (hindices.nodup_iff.mpr (nodup_bound device)).map fun _ _ heq => by injection heq
  exact hfilled.once hnodup (by simp) hlower hupper hlower' hupper' hcell hcell'

/-- A pattern is in one line if and only if it is bound to nothing or to a
volume of some array. -/
theorem pattern_in_one_line_iff {index : Nat} {pattern : Pattern}
    (hpattern : data.accessPatterns[index]? = some pattern) :
    InOneLine sheet (ShowsPattern sheet index) ↔
      ∀ device, pattern.filename = some device →
        ∃ e ∈ data.logicals.entries, device ∈ e.2.volumes.keys := by
  obtain ⟨indices, hok, hunbound⟩ := unboundPatterns_ok data order
  obtain ⟨hnodup, hcomplete⟩ := unboundPatterns_complete hregular.names hok
  obtain ⟨_, hsound, hshown⟩ := rest_shows hstages hok
  have hone : ∀ {k : Nat}, k ∈ sheet.lineNumbers → (1 : ℚ) ≤ k := one_le_row hdrawn
  -- below the arrays there are unbound patterns only
  have hbelow : ∀ {k : Nat}, (n : ℚ) ≤ k → ShowsPattern sheet index k →
      pattern.filename = none := by
    intro k hk hcell
    obtain ⟨other, ⟨pattern', hpattern', hnone⟩, heq⟩ := hdrawn.patterns k hk _ hcell
    cases heq
    rw [hpattern] at hpattern'
    rw [Option.some.inj hpattern', hnone]
  cases hname : pattern.filename with
  | none =>
      refine iff_of_true ?_ (by simp)
      obtain ⟨j, hj, hindex⟩ := List.getElem_of_mem
        (hcomplete index ⟨pattern, hpattern, hname⟩)
      have hcell := hshown j hj
      rw [hindex] at hcell
      have hn := one_le_n hdrawn
      refine ⟨n + j, ⟨mem_lines hdrawn (by omega) hcell, hcell⟩, ?_⟩
      rintro k ⟨hk, hcell'⟩
      rcases lt_or_ge (k : ℚ) n with hlt | hge
      · obtain ⟨_, _, device, _, _, hdevice, _⟩ :=
          bound_of_row hdrawn hpattern (hone hk) hlt hcell'
        rw [hname] at hdevice
        cases hdevice
      · obtain ⟨j', hj', heq, hrow⟩ := hsound k hge _ hcell'
        injection heq with heq
        rw [← hindex] at heq
        have hjj : j = j' := (hnodup.getElem_inj_iff).mp heq
        rw [hjj]
        exact_mod_cast hrow
  | some device =>
      have habove : ∀ {k : Nat}, ShowsPattern sheet index k → (k : ℚ) < n := by
        intro k hcell
        by_contra hnot
        rw [hbelow (not_lt.mp hnot) hcell] at hname
        cases hname
      simp only [Option.some.injEq, forall_eq']
      constructor
      · rintro ⟨k, ⟨hk, hcell⟩, _⟩
        obtain ⟨id, logical, device', _, _, hdevice, hin, _, _, _, _, hblock⟩ :=
          bound_of_row hdrawn hpattern (hone hk) (habove hcell) hcell
        rw [hname] at hdevice
        cases hdevice
        exact ⟨⟨id, logical⟩, AList.mem_lookup_iff.mp hblock.lookup, hin⟩
      · rintro ⟨e, he, hin⟩
        have hlookup : data.logicals.lookup e.1 = some e.2 := AList.mem_lookup_iff.mpr he
        have hid : e.1 ∈ ids := hdrawn.perm.mem_iff.mpr
          (AList.mem_keys.mp (AList.lookup_isSome.mp (by rw [hlookup]; rfl)))
        obtain ⟨logical, start, next, hstart, _, hblock⟩ :=
          hdrawn.blocks.block_of_id hid
        obtain rfl : e.2 = logical := Option.some.inj (hlookup.symm.trans hblock.lookup)
        obtain ⟨lower, upper, htiles, _⟩ := volume_tiles hblock
        obtain ⟨hlower, bound, hbound, hfilled⟩ := htiles device hin
        obtain ⟨lower', upper', htiles', _⟩ := hfilled.tiles
          (hbound.nodup_iff.mpr (nodup_bound device))
        obtain ⟨hlower', _, hcell, _⟩ := htiles' index
          (hbound.mem_iff.mpr ((mem_bound hpattern).mpr hname))
        have hk1 : 1 ≤ lower' index := by omega
        refine ⟨lower' index, ⟨mem_lines hdrawn hk1 hcell.shown, hcell.shown⟩, ?_⟩
        rintro k ⟨hk, hcell'⟩
        exact_mod_cast bound_once hdrawn hregular hpattern (hone hk) (habove hcell')
          (by exact_mod_cast hk1) (habove hcell.shown) hcell' hcell.shown

end Shown

end OpenSan.Matrix
