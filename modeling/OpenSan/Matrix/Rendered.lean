import OpenSan.Matrix.Printed

/-!
# When the page is rendered

The filters return on a regular input, and every disk then has the rowspan of
its array.  On an input where two arrays have a member in common
`filter_mib_humanize` raises.
-/

namespace OpenSan.Matrix

open OpenSan.Foundation OpenSan.Einarc Sheet

/-- Each disk in the lines of an array is as high as the lines divided by the
number of disks of the array. -/
def RowspansFit (sheet : Sheet) : Prop :=
  ∀ start ∈ sheet.lineNumbers, ∀ id,
    sheet.cell .logical start = some (.logical id) →
    ∃ height : ℚ, sheet.rowspan (.logical id) = some height ∧
      ∀ row ∈ sheet.lineNumbers, start ≤ row → (row : ℚ) < start + height →
        ∀ ref, sheet.cell .physical row = some ref →
          sheet.rowspan ref = some (height / (sheet.members id).length)

def Data.GroupsApart (data : Data) : Prop :=
  ∀ e₁ ∈ data.logicals.entries, ∀ e₂ ∈ data.logicals.entries,
    ∀ group₁ group₂, e₁.2.volumeGroup = some group₁ → e₂.2.volumeGroup = some group₂ →
      group₁.name = group₂.name → e₁.1 = e₂.1

variable {G : Set Ref} {data : Data} {order : Order} {sheet : Sheet}
  {ids : List Nat} {n stop : Nat}

/-! ## Nothing is shown twice -/

theorem nodup_lineNumbers (sheet : Sheet) : sheet.lineNumbers.Nodup :=
  (List.takeWhile_sublist _).nodup List.nodup_range'

theorem Blocks.logical_once {lo : Nat} {row row' : ℚ} {ref : Ref}
    (h : Blocks G data sheet.sessionsAvail sheet lo ids n) (hnodup : ids.Nodup)
    (hlo : lo ≤ row) (hhi : row < n) (hlo' : lo ≤ row') (hhi' : row' < n)
    (hcell : sheet.cell .logical row = some ref)
    (hcell' : sheet.cell .logical row' = some ref) : row = row' := by
  induction ids generalizing lo with
  | nil =>
      obtain rfl : lo = n := h
      linarith
  | cons id ids ih =>
      obtain ⟨hnot, hnodup⟩ := List.nodup_cons.mp hnodup
      obtain ⟨logical, next, _, hat, _, _, hrest⟩ := h
      -- a row below the first block shows another array
      have hlater : ∀ {row : ℚ}, next ≤ row → row < n →
          sheet.cell .logical row = some ref → ref ≠ .logical id := by
        rintro row hge hlt hsome rfl
        obtain ⟨other, _, start, _, hother, _, _, hstart, hnext, hblock⟩ :=
          hrest.block_of_row hge hlt
        have heq := (hblock.cell.eq_of_cell hstart hnext hsome).2
        cases heq
        exact hnot hother
      rcases lt_or_ge row next with hlt | hge
      · obtain ⟨hrow, href⟩ := hat.eq_of_cell hlo hlt hcell
        rcases lt_or_ge row' next with hlt' | hge'
        · rw [hrow, (hat.eq_of_cell hlo' hlt' hcell').1]
        · exact absurd href (hlater hge' hhi' hcell')
      · rcases lt_or_ge row' next with hlt' | hge'
        · exact absurd (hat.eq_of_cell hlo' hlt' hcell').2 (hlater hge hhi hcell)
        · exact ih hrest hnodup hge hge'

section Once

variable (hdrawn : Drawn Set.univ data order ids n stop sheet)

include hdrawn in
private theorem nodup_ids : ids.Nodup :=
  hdrawn.perm.nodup_iff.mpr data.logicals.keys_nodup

include hdrawn in
theorem Drawn.block_unique {id start start' next next' : Nat}
    {logical logical' : Logical}
    (hblock : Block Set.univ data sheet id logical start next)
    (hblock' : Block Set.univ data sheet id logical' start' next')
    (hlo : 1 ≤ start) (hhi : start < n) (hlo' : 1 ≤ start') (hhi' : start' < n) :
    start = start' ∧ next = next' := by
  have hstart : start = start' := by
    have hrow := hdrawn.blocks.logical_once (nodup_ids hdrawn)
      (by exact_mod_cast hlo) (by exact_mod_cast hhi) (by exact_mod_cast hlo')
      (by exact_mod_cast hhi') hblock.cell.shown hblock'.cell.shown
    exact_mod_cast hrow
  refine ⟨hstart, ?_⟩
  have hspan := (hblock.cell.rowspan trivial).symm.trans (hblock'.cell.rowspan trivial)
  rw [hstart] at hspan
  have heq : (next : ℚ) - start' = next' - start' := Option.some.inj hspan
  have hcast : (next : ℚ) = next' := by linarith
  exact_mod_cast hcast

include hdrawn in
theorem Drawn.block_of_device (hregular : data.Regular)
    {id id' start start' next next' : Nat} {logical logical' : Logical} {device : String}
    (hblock : Block Set.univ data sheet id logical start next)
    (hblock' : Block Set.univ data sheet id' logical' start' next')
    (hdevice : device ∈ logical.volumes.keys) (hdevice' : device ∈ logical'.volumes.keys)
    (hone : 1 ≤ start) (hend : next ≤ n) (hone' : 1 ≤ start') (hend' : next' ≤ n) :
    start = start' ∧ next = next' := by
  have hsame : id = id' := by
    by_contra hne
    exact hregular.volumes ⟨id, logical⟩ (AList.mem_lookup_iff.mp hblock.lookup)
      ⟨id', logical'⟩ (AList.mem_lookup_iff.mp hblock'.lookup) hne device hdevice hdevice'
  subst hsame
  have hpos := hblock.cell.positive
  have hpos' := hblock'.cell.positive
  exact hdrawn.block_unique hblock hblock' hone (by omega) hone' (by omega)

private theorem disk_of_row (h : Drawn G data order ids n stop sheet) {row : ℚ}
    {ref : Ref} (hlo : 1 ≤ row) (hhi : row < n)
    (hcell : sheet.cell .physical row = some ref) :
    ∃ id logical p, ∃ start next : Nat, ref = .physical p ∧
      p ∈ memberIds data logical ∧ 1 ≤ start ∧ next ≤ n ∧ (start : ℚ) ≤ row ∧
      row < (next : ℚ) ∧ Block G data sheet id logical start next := by
  obtain ⟨id, logical, start, next, _, hone, hend, hstart, hnext, hblock⟩ :=
    h.blocks.block_of_row (by exact_mod_cast hlo) hhi
  obtain ⟨sorted, hsorted, hfilled⟩ := hblock.physicals
  obtain ⟨p, hp, lo', hi', hlo', hhi', hat, _⟩ :=
    hfilled.tile_of_cell rfl hstart hnext hcell
  exact ⟨id, logical, p, start, next, (hat.eq_of_cell hlo' hhi' hcell).2,
    hsorted.mem_iff.mp hp, hone, hend, hstart, hnext, hblock⟩

private theorem device_of_row (h : Drawn G data order ids n stop sheet) {row : ℚ}
    {ref : Ref} (hlo : 1 ≤ row) (hcell : sheet.cell .volume row = some ref) :
    ∃ id logical device, ∃ start next : Nat, ref = .volume device ∧
      device ∈ logical.volumes.keys ∧ 1 ≤ start ∧ next ≤ n ∧ (start : ℚ) ≤ row ∧
      row < (next : ℚ) ∧ Block G data sheet id logical start next := by
  obtain ⟨id, logical, start, next, _, hone, hend, hstart, hnext, hblock⟩ :=
    h.block_of_cell hlo (by simp) (by simp) hcell
  obtain ⟨sorted, hsorted, hfilled⟩ := hblock.volumes
  obtain ⟨device, hdevice, lo', hi', hlo', hhi', hat, _⟩ :=
    hfilled.tile_of_cell (by simp) hstart hnext hcell
  exact ⟨id, logical, device, start, next, (hat.eq_of_cell hlo' hhi' hcell).2,
    hsorted.mem_iff.mp hdevice, hone, hend, hstart, hnext, hblock⟩

include hdrawn in
theorem Drawn.physical_once (hregular : data.Regular) {row row' : ℚ} {ref : Ref}
    (hlo : 1 ≤ row) (hlo' : 1 ≤ row')
    (hcell : sheet.cell .physical row = some ref)
    (hcell' : sheet.cell .physical row' = some ref) : row = row' := by
  rcases lt_or_ge row n with hlt | hge
  · obtain ⟨id, logical, p, start, next, rfl, hp, hone, hend, hstart, hnext, hblock⟩ :=
      disk_of_row hdrawn hlo hlt hcell
    have hlt' : row' < n := by
      by_contra hnot
      obtain ⟨_, hfree⟩ := hdrawn.free row' (not_lt.mp hnot) _ hcell'
      cases hfree
    obtain ⟨id', logical', p', start', next', heq, hp', hone', hend', hstart', hnext',
      hblock'⟩ := disk_of_row hdrawn hlo' hlt' hcell'
    cases heq
    have hsame : id = id' := by
      by_contra hne
      exact hregular.physicals ⟨id, logical⟩ (AList.mem_lookup_iff.mp hblock.lookup)
        ⟨id', logical'⟩ (AList.mem_lookup_iff.mp hblock'.lookup) hne p
        (mem_claimed hp) (mem_claimed hp')
    subst hsame
    have hpos := hblock.cell.positive
    have hpos' := hblock'.cell.positive
    obtain ⟨rfl, rfl⟩ :=
      hdrawn.block_unique hblock hblock' hone (by omega) hone' (by omega)
    obtain ⟨sorted, hsorted, hfilled⟩ := hblock.physicals
    have hnodup : (sorted.map Ref.physical).Nodup :=
      (hsorted.nodup_iff.mpr (nodup_memberIds data logical)).map fun _ _ heq => by
        injection heq
    exact hfilled.once hnodup rfl hstart hnext hstart' hnext' hcell hcell'
  · rcases lt_or_ge row' n with hlt' | hge'
    · obtain ⟨_, _, _, _, _, rfl, _⟩ := disk_of_row hdrawn hlo' hlt' hcell'
      obtain ⟨_, hfree⟩ := hdrawn.free row hge _ hcell
      cases hfree
    · exact hdrawn.once row row' hge hge' _ hcell hcell'

include hdrawn in
theorem Drawn.volume_once (hregular : data.Regular) {row row' : ℚ} {ref : Ref}
    (hlo : 1 ≤ row) (hlo' : 1 ≤ row')
    (hcell : sheet.cell .volume row = some ref)
    (hcell' : sheet.cell .volume row' = some ref) : row = row' := by
  obtain ⟨id, logical, device, start, next, rfl, hdevice, hone, hend, hstart, hnext,
    hblock⟩ := device_of_row hdrawn hlo hcell
  obtain ⟨id', logical', device', start', next', heq, hdevice', hone', hend', hstart',
    hnext', hblock'⟩ := device_of_row hdrawn hlo' hcell'
  cases heq
  obtain ⟨rfl, rfl⟩ :=
    hdrawn.block_of_device hregular hblock hblock' hdevice hdevice' hone hend hone' hend'
  obtain ⟨sorted, hsorted, hfilled⟩ := hblock.volumes
  have hnodup : (sorted.map Ref.volume).Nodup :=
    (hsorted.nodup_iff.mpr logical.volumes.keys_nodup).map fun _ _ heq => by
      injection heq
  exact hfilled.once hnodup (by simp) hstart hnext hstart' hnext' hcell hcell'

end Once

/-! ## The refs that are printed -/

def PrintedIn (data : Data) (sheet : Sheet) (k : Nat) : Ref → Prop
  | .physical id => sheet.cell .physical (k : ℚ) = some (.physical id)
  | .free id => sheet.cell .physical (k : ℚ) = some (.free id)
  | .logical id => sheet.cell .logical (k : ℚ) = some (.logical id)
  | .volume device => sheet.cell .volume (k : ℚ) = some (.volume device)
  | .group name => ∃ id logical group, group.name = name ∧
      sheet.cell .logical (k : ℚ) = some (.logical id) ∧
      data.logicals.lookup id = some logical ∧ logical.volumeGroup = some group
  | .pattern _ | .session _ _ => False

section Lines

variable (h : Drawn G data order ids n stop sheet) {k : Nat}
  (hk : k ∈ sheet.lineNumbers)

include h hk

private theorem physicalRefs_nodup :
    ((sheet.cell .physical (k : ℚ)).toList).Nodup ∧
      ∀ ref ∈ (sheet.cell .physical (k : ℚ)).toList, PrintedIn data sheet k ref ∧
        ((∃ id, ref = .physical id) ∨ ∃ id, ref = .free id) := by
  refine ⟨?_, fun ref href => ?_⟩
  · cases sheet.cell .physical (k : ℚ) <;> simp
  · rw [Option.mem_toList] at href
    rcases h.physical_inv (one_le_row h hk) href with ⟨⟨id, rfl⟩, _⟩ |
      ⟨_, _, _, _, _, _, _, p, _, rfl⟩
    · exact ⟨href, .inr ⟨id, rfl⟩⟩
    · exact ⟨href, .inl ⟨p, rfl⟩⟩

private theorem logicalRefs_nodup :
    ((sheet.cell .logical (k : ℚ)).toList.flatMap (logicalRefs data)).Nodup ∧
      ∀ ref ∈ (sheet.cell .logical (k : ℚ)).toList.flatMap (logicalRefs data),
        PrintedIn data sheet k ref ∧
        ((∃ id, ref = .logical id) ∨ ∃ name, ref = .group name) := by
  cases hcell : sheet.cell .logical (k : ℚ) with
  | none => simp
  | some ref =>
      obtain ⟨id, logical, _, _, _, _, rfl, hblock⟩ :=
        h.logical_inv (one_le_row h hk) hcell
      cases hgroup : logical.volumeGroup with
      | none => simp [logicalRefs, hblock.lookup, hgroup, PrintedIn, hcell]
      | some group =>
          simp only [Option.toList_some, List.flatMap_cons, List.flatMap_nil,
            List.append_nil, logicalRefs, hblock.lookup, Option.bind_some, hgroup]
          refine ⟨by simp, ?_⟩
          simp only [List.map_cons, List.map_nil, List.mem_cons, List.not_mem_nil,
            or_false, forall_eq_or_imp, forall_eq]
          exact ⟨⟨hcell, .inl ⟨id, rfl⟩⟩, ⟨id, logical, group, rfl, hcell, hblock.lookup,
            hgroup⟩, .inr ⟨_, rfl⟩⟩

private theorem volumeRefs_nodup :
    ((sheet.cell .volume (k : ℚ)).toList).Nodup ∧
      ∀ ref ∈ (sheet.cell .volume (k : ℚ)).toList, PrintedIn data sheet k ref ∧
        ∃ device, ref = .volume device := by
  refine ⟨?_, fun ref href => ?_⟩
  · cases sheet.cell .volume (k : ℚ) <;> simp
  · rw [Option.mem_toList] at href
    obtain ⟨_, _, device, _, _, rfl⟩ := h.volume_inv (one_le_row h hk) href
    exact ⟨href, device, rfl⟩

private theorem lineRefs_nodup :
    (lineRefs data sheet k).Nodup ∧
      ∀ ref ∈ lineRefs data sheet k, PrintedIn data sheet k ref := by
  obtain ⟨hphysical, hphysicals⟩ := physicalRefs_nodup h hk
  obtain ⟨hlogical, hlogicals⟩ := logicalRefs_nodup h hk
  obtain ⟨hvolume, hvolumes⟩ := volumeRefs_nodup h hk
  unfold lineRefs
  constructor
  · refine (hphysical.append hlogical ?_).append hvolume ?_
    · intro ref href href'
      rcases (hphysicals ref href).2 with ⟨_, rfl⟩ | ⟨_, rfl⟩ <;>
        rcases (hlogicals _ href').2 with ⟨_, heq⟩ | ⟨_, heq⟩ <;> cases heq
    · intro ref href href'
      obtain ⟨_, rfl⟩ := (hvolumes ref href').2
      rcases List.mem_append.mp href with hin | hin
      · rcases (hphysicals _ hin).2 with ⟨_, heq⟩ | ⟨_, heq⟩ <;> cases heq
      · rcases (hlogicals _ hin).2 with ⟨_, heq⟩ | ⟨_, heq⟩ <;> cases heq
  · intro ref href
    simp only [List.mem_append] at href
    rcases href with (hin | hin) | hin
    · exact (hphysicals ref hin).1
    · exact (hlogicals ref hin).1
    · exact (hvolumes ref hin).1

end Lines

theorem nodup_printedRefs (hdrawn : Drawn Set.univ data order ids n stop sheet)
    (hregular : data.Regular) (hgroups : data.GroupsApart) :
    (printedRefs data sheet).Nodup := by
  have hlogical : ∀ {k k' : Nat} {ref : Ref}, k ∈ sheet.lineNumbers →
      k' ∈ sheet.lineNumbers → sheet.cell .logical (k : ℚ) = some ref →
      sheet.cell .logical (k' : ℚ) = some ref → k = k' := by
    intro k k' ref hk hk' hcell hcell'
    have hbelow : ∀ {k : Nat}, sheet.cell .logical (k : ℚ) = some ref →
        (k : ℚ) < n := by
      intro k hsome
      by_contra hnot
      rw [hdrawn.blank .logical (by simp) (by simp) k (not_lt.mp hnot)] at hsome
      cases hsome
    have hrow := hdrawn.blocks.logical_once (nodup_ids hdrawn)
      (by exact_mod_cast one_le_row hdrawn hk) (hbelow hcell)
      (by exact_mod_cast one_le_row hdrawn hk') (hbelow hcell') hcell hcell'
    exact_mod_cast hrow
  have honce : ∀ {k k' : Nat} {ref : Ref}, k ∈ sheet.lineNumbers →
      k' ∈ sheet.lineNumbers → PrintedIn data sheet k ref →
      PrintedIn data sheet k' ref → k = k' := by
    intro k k' ref hk hk' hin hin'
    have hone := one_le_row hdrawn hk
    have hone' := one_le_row hdrawn hk'
    cases ref with
    | physical id => exact_mod_cast hdrawn.physical_once hregular hone hone' hin hin'
    | free id => exact_mod_cast hdrawn.physical_once hregular hone hone' hin hin'
    | logical id => exact hlogical hk hk' hin hin'
    | volume device => exact_mod_cast hdrawn.volume_once hregular hone hone' hin hin'
    | group name =>
        obtain ⟨id, logical, group, hname, hcell, hlookup, hgroup⟩ := hin
        obtain ⟨id', logical', group', hname', hcell', hlookup', hgroup'⟩ := hin'
        have hsame : id = id' := hgroups ⟨id, logical⟩ (AList.mem_lookup_iff.mp hlookup)
          ⟨id', logical'⟩ (AList.mem_lookup_iff.mp hlookup') group group' hgroup hgroup'
          (hname.trans hname'.symm)
        subst hsame
        exact hlogical hk hk' hcell hcell'
    | pattern index => exact hin.elim
    | session sectionName name => exact hin.elim
  unfold printedRefs
  rw [List.nodup_flatMap]
  refine ⟨fun k hk => (lineRefs_nodup hdrawn hk).1, ?_⟩
  refine (nodup_lineNumbers sheet).imp_of_mem fun {k k'} hk hk' hne ref href href' => ?_
  exact hne (honce hk hk' ((lineRefs_nodup hdrawn hk).2 ref href)
    ((lineRefs_nodup hdrawn hk').2 ref href'))

/-! ## The page -/

private theorem rowspansFit_of_drawn
    (hdrawn : Drawn Set.univ data order ids n stop sheet) (hregular : data.Regular)
    {records : Ref → Record}
    (hrowspans : ∀ ref, (records ref).rowspan = (sheet.records ref).rowspan) :
    RowspansFit { sheet with records := records } := by
  intro start hstart id hcell
  have hcell : sheet.cell .logical (start : ℚ) = some (.logical id) := hcell
  obtain ⟨id', logical, start', next, _, hrow, heq, hblock⟩ :=
    hdrawn.logical_inv (one_le_row hdrawn hstart) hcell
  cases heq
  obtain rfl : start = start' := by exact_mod_cast hrow
  refine ⟨(next : ℚ) - start, ?_, ?_⟩
  · exact (hrowspans _).trans (hblock.cell.rowspan trivial)
  intro row _ hlo hhi ref href
  have hhi : (row : ℚ) < next := by linarith
  obtain ⟨sorted, hsorted, hfilled⟩ := hblock.physicals
  have hne : sorted ≠ [] := by
    rintro rfl
    exact hregular.members ⟨id, logical⟩ (AList.mem_lookup_iff.mp hblock.lookup)
      hsorted.symm.eq_nil
  rw [Filled, if_neg hne] at hfilled
  obtain ⟨rows, hpos, hstop, hcells⟩ := hfilled
  obtain ⟨i, hi, hbelow, habove, hat, _⟩ :=
    @Tiled.tile_of_row Set.univ sheet PhysicalId .physical .physical (fun _ _ _ => True)
      start next rows sorted hpos hstop row (by exact_mod_cast hlo) hhi hcells
  obtain ⟨_, rfl⟩ := hat.eq_of_cell hbelow habove href
  have hlength : (sheet.members id).length = sorted.length := by
    rw [hdrawn.members id logical hblock.lookup, hsorted.length_eq]
  have hspan : ((next : ℚ) - start) / sorted.length = rows :=
    rowspan_eq (List.length_pos_of_ne_nil hne) hstop
  change (records (.physical sorted[i])).rowspan = some (_ / _)
  rw [hrowspans, hlength, hspan, hat.rowspan_tile]

/-- On a regular input the page is rendered and the disks have the rowspans
of their arrays. -/
theorem Data.page_renders (hregular : data.Regular) (hsnapshots : data.SnapshotsInside)
    (hgroups : data.GroupsApart) (order : Order) :
    ∃ sheet, data.page order = .ok sheet ∧ RowspansFit sheet := by
  obtain ⟨_, sheet, hoverall, ids, n, stop, s₁, s₂, hdrawn, hstages⟩ :=
    overall_stages (G := Set.univ) data order fun avail havail =>
      hregular.layable (sessions_of_perm havail)
  have hspanned : Spanned sheet ⟨sheet.records, ∅⟩ := ⟨fun _ => rfl, fun _ => rfl⟩
  obtain ⟨_, m₁, hearly, hready₁⟩ :=
    earlyFilters_returns hdrawn hregular hsnapshots hspanned hstages.unmarked
  obtain ⟨_, m₂, hprinted, hrowspans⟩ :=
    humanized_of_nodup (m := m₁) (nodup_printedRefs hdrawn hregular hgroups)
      fun ref _ => by
        rw [hready₁.sizes]
        exact hdrawn.sizes ref
  rw [← filterMibHumanize_eq hdrawn] at hprinted
  refine ⟨{ sheet with records := m₂.records }, ?_, ?_⟩
  · simp [Data.page, hoverall, filterChain, hearly, hprinted]
  · refine rowspansFit_of_drawn hdrawn hregular fun ref => ?_
    rw [hrowspans, hready₁.rowspans]

/-- A disk that is a member of two arrays stops `filter_mib_humanize`. -/
theorem Data.page_raises (hlay : ∀ avail,
      (∀ index, (avail index).Perm (ownSessions data order index)) →
      Layable ∅ data avail)
    {id id' : Nat} {logical logical' : Logical} {p : PhysicalId}
    (hlookup : data.logicals.lookup id = some logical)
    (hlookup' : data.logicals.lookup id' = some logical') (hne : id ≠ id')
    (hp : p ∈ memberIds data logical) (hp' : p ∈ memberIds data logical') :
    ∀ sheet, data.page order ≠ .ok sheet := by
  obtain ⟨_, sheet, hoverall, ids, n, stop, hdrawn⟩ := overall_returns _ _ hlay
  intro final hpage
  -- if the page is rendered, nothing is printed twice
  have hnodup : (printedRefs data sheet).Nodup := by
    simp only [Data.page, hoverall, filterChain, filterMibHumanize_eq hdrawn,
      Action.bind_run] at hpage
    rcases hearly : Action.forEach (earlyFilters data order sheet)
      (fun filter => filter) ⟨sheet.records, ∅⟩ with ⟨e | ⟨⟩, m₁⟩
    · simp [hearly] at hpage
    · rcases hprinted : Action.forEach (printedRefs data sheet) humanize m₁ with
        ⟨e | ⟨⟩, m₂⟩
      · simp [hearly, hprinted] at hpage
      · exact nodup_of_humanized hprinted
  -- but each of the two blocks has a line with the disk
  have hline : ∀ {id : Nat} {logical : Logical},
      data.logicals.lookup id = some logical → p ∈ memberIds data logical →
      ∃ k start next, k ∈ sheet.lineNumbers ∧ start ≤ k ∧ k < next ∧
        Block ∅ data sheet id logical start next ∧
        Ref.physical p ∈ lineRefs data sheet k := by
    intro id logical hlookup hp
    have hid : id ∈ ids := hdrawn.perm.mem_iff.mpr
      (AList.mem_keys.mp (AList.lookup_isSome.mp (by rw [hlookup]; rfl)))
    obtain ⟨logical₁, start, next, hstart, hnext, hblock⟩ :=
      hdrawn.blocks.block_of_id hid
    obtain rfl : logical = logical₁ :=
      Option.some.inj (hlookup.symm.trans hblock.lookup)
    obtain ⟨sorted, hsorted, hfilled⟩ := hblock.physicals
    have hmem : p ∈ sorted := hsorted.mem_iff.mpr hp
    rw [Filled, if_neg (List.ne_nil_of_mem hmem)] at hfilled
    obtain ⟨rows, hpos, hstop, hcells⟩ := hfilled
    obtain ⟨i, hi, rfl⟩ := List.getElem_of_mem hmem
    have hrow : start + (i + 1) * rows ≤ next := by
      rw [← hstop]
      exact Nat.add_le_add_left (Nat.mul_le_mul_right rows hi) start
    have hsucc : (i + 1) * rows = i * rows + rows := by ring
    have hle := hdrawn.le
    refine ⟨start + i * rows, start, next, (mem_lineNumbers hdrawn).mpr ⟨?_, ?_⟩, ?_, ?_,
      hblock, ?_⟩
    · omega
    · omega
    · omega
    · omega
    · have hshown := (hcells i hi).1.shown
      simp only [lineRefs, hshown, Option.toList_some]
      simp
  obtain ⟨k, start, next, hk, hlo, hhi, hblock, hin⟩ := hline hlookup hp
  obtain ⟨k', start', next', hk', hlo', hhi', hblock', hin'⟩ := hline hlookup' hp'
  have hrows : k ≠ k' := by
    rintro rfl
    have hstart : (start : ℚ) ≤ k := by exact_mod_cast hlo
    exact hne (hblock.eq_of_row hblock' hstart (by exact_mod_cast hhi)
      (by exact_mod_cast hlo') (by exact_mod_cast hhi'))
  rw [printedRefs, List.nodup_flatMap] at hnodup
  have hsymm : Std.Symm (Function.onFun List.Disjoint (lineRefs data sheet)) :=
    ⟨fun _ _ h _ hin hin' => h hin' hin⟩
  have hdisjoint : List.Disjoint (lineRefs data sheet k) (lineRefs data sheet k') :=
    hnodup.2.forall hk hk' hrows
  exact hdisjoint hin hin'

end OpenSan.Matrix
