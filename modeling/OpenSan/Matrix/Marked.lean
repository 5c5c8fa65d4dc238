import OpenSan.Matrix.Reading

/-!
# What the filters read

The first filter finds the cells of a block again by adding rowspans.  The filters
after it need a `highlight` in every object that is shown and sizes that are still
numbers.
-/

namespace OpenSan.Matrix

open OpenSan.Foundation OpenSan.Einarc Sheet

structure Ready (r₀ : Ref → Record) (M : Set Ref) (m : Marks) : Prop where
  rowspans : ∀ ref, (m.records ref).rowspan = (r₀ ref).rowspan
  sizes : ∀ ref, (m.records ref).size = (r₀ ref).size
  marked : ∀ ref ∈ M, (m.records ref).highlight.isSome = true

variable {r₀ : Ref → Record} {M : Set Ref} {m : Marks} {α : Type}

namespace Ready

theorem update (h : Ready r₀ M m) {ref : Ref} {f : Record → Record}
    (hrowspan : ∀ r, (f r).rowspan = r.rowspan) (hsize : ∀ r, (f r).size = r.size)
    (hmark : ref ∈ M → (f (m.records ref)).highlight.isSome = true) :
    Ready r₀ M (m.update ref f) := by
  refine ⟨fun other => ?_, fun other => ?_, fun other hother => ?_⟩ <;>
    unfold Marks.update <;> by_cases heq : other = ref
  · subst heq
    simp [hrowspan, h.rowspans]
  · simp [Function.update_of_ne heq, h.rowspans]
  · subst heq
    simp [hsize, h.sizes]
  · simp [Function.update_of_ne heq, h.sizes]
  · subst heq
    simpa using hmark hother
  · simpa [Function.update_of_ne heq] using h.marked other hother

theorem setHighlight (h : Ready r₀ M m) {ref : Ref} (href : ref ∈ M)
    (f : Highlight → Highlight) :
    Action.Returns (Matrix.setHighlight ref f) m fun _ => Ready r₀ M := by
  obtain ⟨highlight, hsome⟩ := Option.isSome_iff_exists.mp (h.marked ref href)
  refine Action.Returns.query_bind (by rw [hsome]; rfl) ?_
  exact Action.Returns.modify (h.update (fun _ => rfl) (fun _ => rfl) fun _ => rfl)

theorem setField (h : Ready r₀ M m) {ref : Ref} {f : Record → Record}
    (hrowspan : ∀ r, (f r).rowspan = r.rowspan) (hsize : ∀ r, (f r).size = r.size)
    (hhighlight : ∀ r, (f r).highlight = r.highlight) :
    Action.Returns (Matrix.setField ref f) m fun _ => Ready r₀ M :=
  Action.Returns.modify (h.update hrowspan hsize fun href => by
    rw [hhighlight]
    exact h.marked ref href)

theorem onlyIf {condition : Bool} {body : Filter Unit} (h : Ready r₀ M m)
    (hbody : condition = true → Action.Returns body m fun _ => Ready r₀ M) :
    Action.Returns (Matrix.onlyIf condition body) m fun _ => Ready r₀ M := by
  cases condition with
  | false => exact Action.Returns.pure h
  | true => exact hbody rfl

theorem onCell {sheet : Sheet} {column : Column} {row : ℚ}
    {body : Ref → Filter Unit} (h : Ready r₀ M m)
    (hbody : ∀ ref, sheet.cell column row = some ref →
      Action.Returns (body ref) m fun _ => Ready r₀ M) :
    Action.Returns (Matrix.onCell sheet column row body) m fun _ =>
      Ready r₀ M := by
  unfold Matrix.onCell
  split
  · rename_i ref href
    exact hbody ref href
  · exact Action.Returns.pure h

theorem forEach_keep {items : List α} {body : α → Filter Unit} (h : Ready r₀ M m)
    (hbody : ∀ item ∈ items, ∀ m, Ready r₀ M m →
      Action.Returns (body item) m fun _ => Ready r₀ M) :
    Action.Returns (Action.forEach items body) m fun _ => Ready r₀ M :=
  Action.Returns.forEach_mem h hbody

theorem amountOf_bind {next : ℚ → Filter α} {Q : α → Marks → Prop} {ref : Ref}
    {size : ℚ} (h : Ready r₀ M m) (hsize : (r₀ ref).size = .mib size)
    (hnext : Action.Returns (next size) m Q) :
    Action.Returns (amountOf ref >>= next) m Q :=
  Action.Returns.query_bind (by simp only [h.sizes, hsize]) hnext

end Ready

theorem cellAt_bind {sheet : Sheet} {column : Column} {row : ℚ} {ref : Ref}
    {next : Ref → Filter α} {Q : α → Marks → Prop}
    (hcell : sheet.cell column row = some ref)
    (hnext : Action.Returns (next ref) m Q) :
    Action.Returns (cellAt sheet column row >>= next) m Q :=
  Action.Returns.lift_bind (by rw [hcell]; rfl) hnext

section Lookups

variable {data : Data}

theorem logicalOf_bind {α : Type} {id : Nat} {logical : Logical}
    {next : Nat × Logical → Filter α} {Q : α → Marks → Prop}
    (hlogical : data.logicals.lookup id = some logical)
    (hnext : Action.Returns (next (id, logical)) m Q) :
    Action.Returns (logicalOf data (.logical id) >>= next) m Q := by
  refine Action.Returns.bind (P := fun entry m' => entry = (id, logical) ∧ m' = m) ?_ ?_
  · exact Action.Returns.lift_bind (by rw [hlogical]; rfl)
      (Action.Returns.pure ⟨rfl, rfl⟩)
  · rintro _ _ ⟨rfl, rfl⟩
    exact hnext

theorem volumeOf_bind {α : Type} {device : String} {volume : Volume}
    {next : String × Volume → Filter α} {Q : α → Marks → Prop}
    (hvolume : data.volume device = some volume)
    (hnext : Action.Returns (next (device, volume)) m Q) :
    Action.Returns (volumeOf data (.volume device) >>= next) m Q := by
  refine Action.Returns.bind (P := fun entry m' => entry = (device, volume) ∧ m' = m)
    ?_ ?_
  · exact Action.Returns.lift_bind (by rw [hvolume]; rfl)
      (Action.Returns.pure ⟨rfl, rfl⟩)
  · rintro _ _ ⟨rfl, rfl⟩
    exact hnext

theorem patternOf_bind {α : Type} {index : Nat} {pattern : Pattern}
    {next : Nat × Pattern → Filter α} {Q : α → Marks → Prop}
    (hpattern : data.accessPatterns[index]? = some pattern)
    (hnext : Action.Returns (next (index, pattern)) m Q) :
    Action.Returns (patternOf data (.pattern index) >>= next) m Q := by
  refine Action.Returns.bind (P := fun entry m' => entry = (index, pattern) ∧ m' = m)
    ?_ ?_
  · exact Action.Returns.lift_bind (by rw [hpattern]; rfl)
      (Action.Returns.pure ⟨rfl, rfl⟩)
  · rintro _ _ ⟨rfl, rfl⟩
    exact hnext

end Lookups

/-! ## Numeric loops -/

private theorem numericFor_eq {start stop step : ℚ} {n : Nat} (hpos : 0 < step)
    (hlo : ((n : ℚ) - 1) * step ≤ stop - start) (hhi : stop - start < n * step) :
    numericFor start stop step =
      (List.range n).map fun i : Nat => start + (i : ℚ) * step := by
  have hfloor : ⌊(stop - start) / step⌋ = (n : Int) - 1 := by
    rw [Int.floor_eq_iff]
    push_cast
    rw [le_div_iff₀ hpos, div_lt_iff₀ hpos]
    exact ⟨hlo, by linarith⟩
  unfold numericFor
  rw [hfloor, Int.sub_add_cancel, Int.toNat_natCast]

theorem numericFor_rows (start n : Nat) {rows : Nat} (hpos : 0 < rows) :
    numericFor start ((start + n * rows : Nat) - 1 : ℚ) rows =
      (List.range n).map fun i : Nat => ((start + i * rows : Nat) : ℚ) := by
  have hone : (1 : ℚ) ≤ rows := by exact_mod_cast hpos
  rw [numericFor_eq (n := n) (by linarith) (by push_cast; linarith)
    (by push_cast; linarith)]
  apply List.map_congr_left
  intro i _
  push_cast
  rfl

theorem numericFor_cells (start n : Nat) {rows : Nat} (hpos : 0 < rows) :
    numericFor start ((start : ℚ) + ((n : ℚ) - 1) * rows) rows =
      (List.range n).map fun i : Nat => ((start + i * rows : Nat) : ℚ) := by
  have hone : (1 : ℚ) ≤ rows := by exact_mod_cast hpos
  rw [numericFor_eq (n := n) (by linarith) (by linarith) (by linarith)]
  apply List.map_congr_left
  intro i _
  push_cast
  rfl

/-! ## Cells in equal distances -/

theorem Sheet.CellAt.rowspan_tile {sheet : Sheet} {column : Column} {ref : Ref}
    {start i rows : Nat}
    (h : CellAt Set.univ sheet column ref (start + i * rows) (start + (i + 1) * rows)) :
    (sheet.records ref).rowspan = some (rows : ℚ) := by
  rw [show (sheet.records ref).rowspan = _ from h.rowspan trivial]
  push_cast
  congr 1
  ring

theorem tiled_cells {sheet : Sheet} {column : Column} {ref : α → Ref}
    {inner : α → Nat → Nat → Prop} {start stop : Nat} {items : List α}
    (h : Tiled Set.univ sheet column ref inner start items stop) :
    ∃ rows : Nat, 0 < rows ∧ start + items.length * rows = stop ∧
      ∀ i (hi : i < items.length),
        sheet.cell column ((start + i * rows : Nat) : ℚ) = some (ref items[i]) ∧
        (sheet.records (ref items[i])).rowspan = some (rows : ℚ) ∧
        inner items[i] (start + i * rows) (start + (i + 1) * rows) := by
  obtain ⟨rows, hpos, hstop, hcells⟩ := h
  refine ⟨rows, hpos, hstop, fun i hi => ?_⟩
  obtain ⟨hcell, hin⟩ := hcells i hi
  exact ⟨hcell.shown, hcell.rowspan_tile, hin⟩

/-! ## The filters one after the other -/

def Data.SnapshotsInside (data : Data) : Prop :=
  ∀ e ∈ data.logicals.entries, ∀ v ∈ e.2.volumes.entries, v.2.isSnapshot = false →
    ∀ snapshot ∈ v.2.snapshots, snapshot ∈ e.2.volumes.keys

def shown (data : Data) (sheet : Sheet) : Set Ref :=
  {ref | ∃ id, ref ∈ own data sheet.sessionsAvail id}

section Shown

variable {data : Data} {sheet : Sheet} {id : Nat} {logical : Logical}
  {device : String}

theorem ownVolume_subset_shown (hlogical : data.logicals.lookup id = some logical)
    (hdevice : device ∈ logical.volumes.keys) :
    ownVolume data sheet.sessionsAvail device ⊆ shown data sheet := by
  intro ref href
  exact ⟨id, logical, hlogical, .inr (Set.mem_iUnion₂.mpr ⟨device, hdevice, href⟩)⟩

theorem volume_mem_shown (hlogical : data.logicals.lookup id = some logical)
    (hdevice : device ∈ logical.volumes.keys) :
    Ref.volume device ∈ shown data sheet :=
  ownVolume_subset_shown hlogical hdevice (.inl rfl)

theorem ownPattern_subset_shown (hlogical : data.logicals.lookup id = some logical)
    (hdevice : device ∈ logical.volumes.keys) {entry : Pattern × Nat}
    (hentry : entry ∈ boundPatterns data device) :
    ownPattern sheet.sessionsAvail entry.2 ⊆ shown data sheet := fun _ href =>
  ownVolume_subset_shown hlogical hdevice
    (.inr (Set.mem_iUnion₂.mpr ⟨entry, hentry, href⟩))

theorem physical_mem_shown (hlogical : data.logicals.lookup id = some logical)
    {p : PhysicalId} (hp : p ∈ memberIds data logical) :
    Ref.physical p ∈ shown data sheet :=
  ⟨id, logical, hlogical, .inl (.inr ⟨p, hp, rfl⟩)⟩

theorem logical_mem_shown (hlogical : data.logicals.lookup id = some logical) :
    Ref.logical id ∈ shown data sheet :=
  ⟨id, logical, hlogical, .inl (.inl rfl)⟩

theorem mem_patternTable (hnames : (data.accessPatterns.map (·.name)).Nodup)
    {bound : (_ : String) × Nat} (hbound : bound ∈ (patternTable data device).entries) :
    ∃ entry ∈ boundPatterns data device, entry.2 = bound.2 := by
  obtain ⟨hkeys, hlookup⟩ := patternTable_spec device hnames
  have hsome : (patternTable data device).lookup bound.1 = some bound.2 :=
    AList.mem_lookup_iff.mpr hbound
  have hkey : bound.1 ∈ (patternTable data device).keys :=
    AList.mem_keys.mp (AList.lookup_isSome.mp (by rw [hsome]; rfl))
  obtain ⟨entry, hentry, hname⟩ := List.mem_map.mp (hkeys.mem_iff.mp hkey)
  refine ⟨entry, hentry, ?_⟩
  rw [← hname, hlookup entry hentry] at hsome
  exact Option.some.inj hsome

theorem volume_eq_some (hregular : data.Regular)
    (hlogical : data.logicals.lookup id = some logical)
    (hdevice : device ∈ logical.volumes.keys) :
    ∃ volume, logical.volumes.lookup device = some volume ∧
      data.volume device = some volume := by
  obtain ⟨volume, hvolume⟩ := Option.isSome_iff_exists.mp
    (AList.lookup_isSome.mpr (AList.mem_keys.mpr hdevice))
  refine ⟨volume, hvolume, ?_⟩
  have hentry : ⟨id, logical⟩ ∈ data.logicals.entries := AList.mem_lookup_iff.mp hlogical
  unfold Data.volume
  obtain ⟨found, hfound⟩ : ∃ found, data.logicals.entries.findSome?
      (fun e => e.2.volumes.lookup device) = some found := by
    rw [← Option.isSome_iff_exists, List.findSome?_isSome_iff]
    exact ⟨_, hentry, by rw [hvolume]; rfl⟩
  obtain ⟨e, he, hlookup⟩ := List.exists_of_findSome?_eq_some hfound
  have hsame : e.1 = id := by
    by_contra hne
    refine hregular.volumes e he ⟨id, logical⟩ hentry hne device ?_ hdevice
    exact AList.mem_keys.mp (AList.lookup_isSome.mp (by rw [hlookup]; rfl))
  have he' : data.logicals.lookup e.1 = some e.2 := AList.mem_lookup_iff.mpr he
  rw [hsame, hlogical] at he'
  rw [← Option.some.inj he', hvolume] at hlookup
  rw [hfound, hlookup]

end Shown

end OpenSan.Matrix
