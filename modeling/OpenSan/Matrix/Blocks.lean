import OpenSan.Matrix.Layout

/-!
# The block of one array

From the inside out: the sessions of a pattern, the patterns of a volume, the
volumes and the disks of an array.  Each loop is an instance of `tile_loop`.
-/

namespace OpenSan.Matrix

open OpenSan.Foundation OpenSan.Einarc Sheet

structure Sessions (avail : Nat → List Ref) : Prop where
  nodup : ∀ index, (avail index).Nodup
  isSession : ∀ index, ∀ ref ∈ avail index, ∃ sectionName name,
    ref = .session sectionName name
  apart : ∀ i j, i ≠ j → ∀ ref ∈ avail i, ref ∉ avail j

def ownPattern (avail : Nat → List Ref) (index : Nat) : Set Ref :=
  {.pattern index} ∪ {ref | ref ∈ avail index}

def ownVolume (data : Data) (avail : Nat → List Ref) (device : String) :
    Set Ref :=
  {.volume device} ∪
    ⋃ entry ∈ boundPatterns data device, ownPattern avail entry.2

def ownLogical (data : Data) (avail : Nat → List Ref) (id : Nat)
    (members : List PhysicalId) (devices : List String) : Set Ref :=
  {.logical id} ∪ {ref | ∃ p ∈ members, ref = .physical p} ∪
    ⋃ device ∈ devices, ownVolume data avail device

section Rows

variable (G : Set Ref) (data : Data) (avail : Nat → List Ref) (s : Sheet)

def sessionRows (index start stop : Nat) : Prop :=
  Filled G s {.session} .session id (fun _ _ _ => True) start (avail index) stop

def patternRows (device : String) (start stop : Nat) : Prop :=
  ∃ indices : List Nat, indices.Perm ((boundPatterns data device).map (·.2)) ∧
    Filled G s {.pattern, .session} .pattern .pattern (sessionRows G avail s) start
      indices stop

def volumeRows (devices : List String) (start stop : Nat) : Prop :=
  ∃ sorted : List String, sorted.Perm devices ∧
    Filled G s {.volume, .pattern, .session} .volume .volume
      (patternRows G data avail s) start sorted stop

def physicalRows (members : List PhysicalId) (start stop : Nat) : Prop :=
  ∃ sorted : List PhysicalId, sorted.Perm members ∧
    Filled G s {.physical} .physical .physical (fun _ _ _ => True) start sorted stop

end Rows

variable {G : Set Ref} {data : Data} {order : Order} {s : Sheet}

/-! ## Integer offsets -/

theorem rowspan_eq {lo hi n rows : Nat} (hn : 0 < n)
    (hstop : lo + n * rows = hi) : ((hi : ℚ) - lo) / n = rows := by
  have hn : (n : ℚ) ≠ 0 := by exact_mod_cast Nat.pos_iff_ne_zero.mp hn
  subst hstop
  push_cast
  field_simp
  ring

private theorem offset_eq (lo i rows : Nat) :
    (lo : ℚ) + (i : ℚ) * (rows : ℚ) = ((lo + i * rows : Nat) : ℚ) := by
  push_cast
  ring

private theorem height_eq (lo i rows : Nat) :
    (rows : ℚ) =
      ((lo + (i + 1) * rows : Nat) : ℚ) - ((lo + i * rows : Nat) : ℚ) := by
  push_cast
  ring

private theorem row_lt (lo i : Nat) {rows : Nat} (hpos : 0 < rows) :
    lo + i * rows < lo + (i + 1) * rows := by
  rw [Nat.succ_mul]
  omega

private theorem exists_rows {lo hi n : Nat} (hlt : lo < hi) (hdvd : n ∣ hi - lo) :
    ∃ rows, 0 < rows ∧ 0 < n ∧ lo + n * rows = hi := by
  obtain ⟨rows, hrows⟩ := hdvd
  have hpos : 0 < n * rows := by omega
  exact ⟨rows, Nat.pos_of_mul_pos_left hpos, Nat.pos_of_mul_pos_right hpos,
    by omega⟩

/-! ## Sessions -/

theorem sessionRows_stable (avail : Nat → List Ref) (index : Nat) :
    Stable {.pattern, .session} (ownPattern avail index ∩ G) fun s lo hi =>
      sessionRows G avail s index lo hi := by
  refine filled_stable (fun ref => {ref}) (fun _ _ _ _ => True) (by simp) (by simp)
    (fun _ _ => rfl) ?_ ?_
  · intro ref href
    rw [Set.singleton_subset_iff]
    exact .inr href
  · intro _ _ _ _ _ _ _ _
    trivial

theorem fillSessions_returns {refs : List Ref} {lo hi : Nat} {rowspan : ℚ}
    (hne : refs ≠ []) (hnodup : refs.Nodup) (hlt : lo < hi)
    (hdvd : refs.length ∣ hi - lo) (hrowspan : rowspan = hi - lo)
    (hroom : Room {.session} lo hi s) :
    Action.Returns (fillSessions refs lo rowspan) s fun _ s' =>
      Framed {.session} {ref | ref ∈ refs} lo hi s s' ∧
      Filled G s' {.session} .session id (fun _ _ _ => True) lo refs hi := by
  obtain ⟨rows, hpos, hn, hstop⟩ := exists_rows hlt hdvd
  have hspan : rowspan / refs.length = rows := by
    rw [hrowspan]
    exact rowspan_eq hn hstop
  unfold fillSessions
  simp only [hspan]
  subst hstop
  have hloop := tile_loop (G := G) (C := {.session}) .session id (fun ref => {ref})
    (fun _ _ _ _ => True) refs (fun entry => do
      ensureLine (lo + entry.2 * rows)
      fill (lo + entry.2 * rows) .session entry.1 rows) lo rows
    rfl (fun _ _ => rfl) (fun _ _ _ _ _ _ _ _ => trivial)
    (hnodup.imp fun hab => by
      rw [Set.disjoint_singleton_right]
      exact fun h => hab h.1.symm) hpos hroom (by
      intro i _ s₁ _ hroom₁
      have hline : s₁.HasLine ((lo + i * rows : Nat) : ℚ) :=
        hroom₁.lines _ le_rfl (row_lt lo i hpos)
      simp only [offset_eq]
      refine (ensureLine_returns hline).bind ?_
      rintro _ _ rfl
      refine (fill_returns (G := G) (row_lt lo i hpos) hroom₁
        (height_eq lo i rows)).mono ?_
      rintro _ s₂ ⟨hframe, hcell⟩
      exact ⟨hframe, hcell, trivial⟩)
  refine hloop.mono ?_
  rintro _ s' ⟨hframe, htiled⟩
  refine ⟨hframe.mono subset_rfl ?_ le_rfl le_rfl, ?_⟩
  · intro ref href
    simpa using href
  · rw [Filled, if_neg hne]
    exact htiled

/-! ## Patterns -/

theorem fillPattern_returns {table : Table String Nat} {name : String}
    {index lo hi : Nat} {rowspan : ℚ} (hlookup : table.lookup name = some index)
    (hsessions : Sessions s.sessionsAvail) (hlt : lo < hi)
    (hdvd : s.sessionsAvail index ≠ [] →
      (s.sessionsAvail index).length ∣ hi - lo)
    (hrowspan : rowspan = hi - lo)
    (hroom : Room {.pattern, .session} lo hi s) :
    Action.Returns (fillPattern table lo rowspan name) s fun _ s' =>
      Framed {.pattern, .session} (ownPattern s.sessionsAvail index) lo hi s s' ∧
      CellAt G s' .pattern (.pattern index) lo hi ∧
      sessionRows G s.sessionsAvail s' index lo hi := by
  unfold fillPattern
  refine (ensureLine_returns (hroom.lines lo le_rfl hlt)).bind ?_
  intro _ _ hsame
  rw [hsame]
  refine Action.Returns.lift_bind (by rw [hlookup]; rfl) ?_
  refine (fill_returns (G := G) hlt (hroom.mono (by simp) le_rfl le_rfl)
    hrowspan).bind ?_
  rintro _ s₁ ⟨hframe₁, hcell₁⟩
  have hframe : Framed {.pattern, .session} (ownPattern s.sessionsAvail index)
      lo hi s s₁ :=
    hframe₁.mono (by simp) (fun ref href => .inl href) le_rfl le_rfl
  have hroom₁ : Room {.session} lo hi s₁ :=
    hframe₁.room (hroom.mono (by simp) le_rfl le_rfl) (.inr (by simp))
  refine Action.Returns.read_bind ?_
  rw [hframe₁.sessionsAvail]
  by_cases hnil : s.sessionsAvail index = []
  · rw [if_neg (not_not.mpr hnil)]
    refine Action.Returns.pure ⟨hframe, hcell₁, ?_⟩
    rw [sessionRows, Filled, if_pos hnil]
    exact hroom₁.blank
  · rw [if_pos hnil]
    refine (fillSessions_returns (G := G) hnil (hsessions.nodup index) hlt
      (hdvd hnil) hrowspan hroom₁).mono ?_
    rintro _ s₂ ⟨hframe₂, hfilled⟩
    refine ⟨?_, ?_, ?_⟩
    · exact hframe.trans
        (hframe₂.mono (by simp) (fun ref href => .inr href) le_rfl le_rfl)
    · refine cellAt_stable (C := {.pattern}) (R := {.pattern index}) rfl rfl
        s₁ s₂ lo hi ?_ hcell₁
      refine hframe₂.agree (.inr (by simp)) (Set.disjoint_left.mpr ?_)
      rintro ref ⟨rfl, _⟩ hmem
      obtain ⟨_, _, hsession⟩ := hsessions.isSession index _ hmem
      cases hsession
    · exact hfilled

theorem ownPattern_apart {avail : Nat → List Ref} (hsessions : Sessions avail)
    {i j : Nat} (hne : i ≠ j) : Disjoint (ownPattern avail i) (ownPattern avail j) := by
  rw [Set.disjoint_left]
  rintro ref (rfl | href) (hother | hother)
  · cases hother
    exact hne rfl
  · obtain ⟨_, _, hsession⟩ := hsessions.isSession j _ hother
    cases hsession
  · obtain rfl : ref = .pattern j := hother
    obtain ⟨_, _, hsession⟩ := hsessions.isSession i _ href
    cases hsession
  · exact hsessions.apart i j hne ref href hother

theorem patternTable_spec (device : String)
    (hnames : (data.accessPatterns.map (·.name)).Nodup) :
    (patternTable data device).keys.Perm
        ((boundPatterns data device).map fun entry => entry.1.name) ∧
      ∀ entry ∈ boundPatterns data device,
        (patternTable data device).lookup entry.1.name = some entry.2 := by
  have hnodup : ((boundPatterns data device).map fun entry => entry.1.name).Nodup := by
    have hall : (data.accessPatterns.zipIdx.map fun entry => entry.1.name).Nodup := by
      rw [show (fun entry : Pattern × Nat => entry.1.name) =
        (fun pattern : Pattern => pattern.name) ∘ Prod.fst from rfl,
        ← List.map_map, List.zipIdx_map_fst]
      exact hnames
    exact hall.sublist (List.filter_sublist.map _)
  unfold patternTable
  revert hnodup
  induction boundPatterns data device using List.reverseRecOn with
  | nil => simp
  | append_singleton entries entry ih =>
      intro hnodup
      rw [List.map_append, List.nodup_append] at hnodup
      obtain ⟨hbefore, _, hnew⟩ := hnodup
      obtain ⟨hkeys, hlookup⟩ := ih hbefore
      have hfresh : ∀ other ∈ entries, other.1.name ≠ entry.1.name :=
        fun other hother => hnew _ (List.mem_map_of_mem hother) _ (by simp)
      rw [List.foldl_append]
      refine ⟨?_, ?_⟩
      · have hnot : entry.1.name ∉
            (entries.foldl (fun table entry => table.insert entry.1.name entry.2)
              (∅ : Table String Nat)).keys := by
          intro hmem
          obtain ⟨other, hother, heq⟩ := List.mem_map.mp (hkeys.mem_iff.mp hmem)
          exact hfresh other hother heq
        simp only [List.foldl_cons, List.foldl_nil, AList.keys_insert,
          List.erase_of_not_mem hnot, List.map_append, List.map_cons, List.map_nil]
        exact (hkeys.cons _).trans (List.perm_append_singleton _ _).symm
      · intro other hother
        rcases List.mem_append.mp hother with hold | hlast
        · simp only [List.foldl_cons, List.foldl_nil]
          rw [AList.lookup_insert_ne (hfresh other hold)]
          exact hlookup other hold
        · obtain rfl := List.mem_singleton.mp hlast
          simp [AList.lookup_insert]

/-! ## Volumes -/

def tableIndex (data : Data) (device name : String) : Nat :=
  ((patternTable data device).lookup name).getD 0

section PatternTable

variable {device : String} (hnames : (data.accessPatterns.map (·.name)).Nodup)

include hnames

private theorem tableIndex_entry {name : String}
    (hname : name ∈ (patternTable data device).keys) :
    ∃ entry ∈ boundPatterns data device, entry.1.name = name ∧
      tableIndex data device name = entry.2 := by
  obtain ⟨hkeys, hlookup⟩ := patternTable_spec device hnames
  obtain ⟨entry, hentry, heq⟩ := List.mem_map.mp (hkeys.mem_iff.mp hname)
  refine ⟨entry, hentry, heq, ?_⟩
  rw [tableIndex, ← heq, hlookup entry hentry, Option.getD_some]

private theorem lookup_tableIndex {name : String}
    (hname : name ∈ (patternTable data device).keys) :
    (patternTable data device).lookup name = some (tableIndex data device name) := by
  obtain ⟨entry, hentry, heq, hindex⟩ := tableIndex_entry hnames hname
  rw [hindex, ← heq, (patternTable_spec device hnames).2 entry hentry]

private theorem tableIndex_perm {names : List String}
    (hperm : names.Perm (patternTable data device).keys) :
    (names.map (tableIndex data device)).Perm
      ((boundPatterns data device).map (·.2)) := by
  obtain ⟨hkeys, hlookup⟩ := patternTable_spec device hnames
  refine ((hperm.trans hkeys).map (tableIndex data device)).trans ?_
  rw [List.map_map]
  apply List.Perm.of_eq
  apply List.map_congr_left
  intro entry hentry
  simp [tableIndex, hlookup entry hentry]

private theorem tableIndex_nodup {names : List String}
    (hperm : names.Perm (patternTable data device).keys) :
    (names.map (tableIndex data device)).Nodup := by
  rw [(tableIndex_perm hnames hperm).nodup_iff]
  exact (List.nodup_zipIdx_map_snd data.accessPatterns).sublist
    (List.filter_sublist.map _)

private theorem fillPatterns_returns {names : List String} {lo rows : Nat}
    (hperm : names.Perm (patternTable data device).keys)
    (hsessions : Sessions s.sessionsAvail) (hpos : 0 < rows)
    (hdvd : ∀ entry ∈ boundPatterns data device, s.sessionsAvail entry.2 ≠ [] →
      (s.sessionsAvail entry.2).length ∣ rows)
    (hroom : Room {.pattern, .session} lo (lo + names.length * rows) s) :
    Action.Returns (Action.forEach names.zipIdx fun entry =>
        fillPattern (patternTable data device) (lo + entry.2 * rows) rows entry.1)
      s fun _ s' =>
      Framed {.pattern, .session}
        (⋃ name ∈ names, ownPattern s.sessionsAvail (tableIndex data device name))
        lo (lo + names.length * rows) s s' ∧
      Tiled G s' .pattern (fun name => .pattern (tableIndex data device name))
        (fun name => sessionRows G s.sessionsAvail s' (tableIndex data device name))
        lo names (lo + names.length * rows) := by
  have hapart : names.Pairwise fun a b =>
      Disjoint (ownPattern s.sessionsAvail (tableIndex data device a) ∩ G)
        (ownPattern s.sessionsAvail (tableIndex data device b)) := by
    have hnodup := tableIndex_nodup hnames hperm
    rw [List.Nodup, List.pairwise_map] at hnodup
    exact hnodup.imp fun hab =>
      (ownPattern_apart hsessions hab).mono_left Set.inter_subset_left
  refine tile_loop .pattern (fun name => .pattern (tableIndex data device name))
    (fun name => ownPattern s.sessionsAvail (tableIndex data device name))
    (fun s' name => sessionRows G s.sessionsAvail s' (tableIndex data device name))
    names _ lo rows (by simp) (fun _ _ => .inl rfl)
    (fun name _ => sessionRows_stable s.sessionsAvail _) hapart hpos hroom ?_
  intro i hi s₁ havail hroom₁
  have hmem := hperm.mem_iff.mp (List.getElem_mem hi)
  have hheight : s₁.sessionsAvail (tableIndex data device names[i]) ≠ [] →
      (s₁.sessionsAvail (tableIndex data device names[i])).length ∣
        lo + (i + 1) * rows - (lo + i * rows) := by
    obtain ⟨entry, hentry, _, hindex⟩ := tableIndex_entry hnames hmem
    rw [havail, hindex, Nat.add_sub_add_left, ← Nat.sub_mul,
      Nat.add_sub_cancel_left, Nat.one_mul]
    exact hdvd entry hentry
  have hround := fillPattern_returns (G := G) (lookup_tableIndex hnames hmem)
    (havail ▸ hsessions) (row_lt lo i hpos) hheight (height_eq lo i rows) hroom₁
  rw [havail] at hround
  simp only [offset_eq]
  exact hround

end PatternTable

theorem fillVolume_returns (order : Order) {device : String} {lo hi : Nat} {rowspan : ℚ}
    (hnames : (data.accessPatterns.map (·.name)).Nodup)
    (hsessions : Sessions s.sessionsAvail) (hlt : lo < hi)
    (hdiv : Divisible data s.sessionsAvail device (hi - lo))
    (hrowspan : rowspan = hi - lo)
    (hroom : Room {.volume, .pattern, .session} lo hi s) :
    Action.Returns (fillVolume data order lo rowspan device) s fun _ s' =>
      Framed {.volume, .pattern, .session}
        (ownVolume data s.sessionsAvail device) lo hi s s' ∧
      CellAt G s' .volume (.volume device) lo hi ∧
      patternRows G data s.sessionsAvail s' device lo hi := by
  obtain ⟨hkeys, -⟩ := patternTable_spec device hnames
  have hlength : (patternTable data device).keys.length =
      (boundPatterns data device).length := by simpa using hkeys.length_eq
  have hcolumns : ({.pattern, .session} : Set Column) ⊆
      {.volume, .pattern, .session} := by simp
  unfold fillVolume
  refine (fill_returns (G := G) hlt (hroom.mono (by simp) le_rfl le_rfl)
    hrowspan).bind ?_
  rintro _ s₁ ⟨hframe₁, hcell₁⟩
  have hframe : Framed {.volume, .pattern, .session}
      (ownVolume data s.sessionsAvail device) lo hi s s₁ :=
    hframe₁.mono (by simp) (fun ref href => .inl href) le_rfl le_rfl
  have hroom₁ : Room {.pattern, .session} lo hi s₁ :=
    hframe₁.room (hroom.mono hcolumns le_rfl le_rfl) (.inr (by simp))
  by_cases hbound : boundPatterns data device = []
  · have hnil : (patternTable data device).keys = [] := by
      rw [← List.length_eq_zero_iff, hlength, hbound]
      rfl
    simp only [hnil, ne_eq, not_true_eq_false, if_false]
    refine Action.Returns.pure ⟨hframe, hcell₁, [], by simp [hbound], ?_⟩
    rw [Filled, if_pos rfl]
    exact hroom₁.blank
  · have hne : (patternTable data device).keys ≠ [] := by
      intro hnil
      rw [hnil] at hlength
      exact hbound (List.length_eq_zero_iff.mp hlength.symm)
    obtain ⟨rows, hrows, hdvd⟩ := hdiv hbound
    obtain ⟨names, hsort, hperm⟩ := Sort.sort_perm
      (less_asymmetric (α := String)) (order.visit (patternTable data device).keys)
    have hnamesPerm : names.Perm (patternTable data device).keys :=
      hperm.trans (order.perm _)
    have hcount : names.length = (boundPatterns data device).length := by
      rw [hnamesPerm.length_eq, hlength]
    have hpos : 0 < rows := by
      apply Nat.pos_of_ne_zero
      rintro rfl
      omega
    have hstop : lo + names.length * rows = hi := by
      rw [hcount]
      omega
    have hn : 0 < names.length := by
      rw [hcount]
      exact List.length_pos_of_ne_nil hbound
    have hspan : rowspan / (patternTable data device).keys.length = rows := by
      rw [hrowspan, hlength, ← hcount]
      exact rowspan_eq hn hstop
    rw [if_pos hne]
    simp only [hspan]
    refine Action.Returns.lift_bind hsort ?_
    subst hstop
    have hloop := fillPatterns_returns (G := G) hnames hnamesPerm
      (hframe₁.sessionsAvail.symm ▸ hsessions) hpos
      (hframe₁.sessionsAvail.symm ▸ hdvd) hroom₁
    rw [hframe₁.sessionsAvail] at hloop
    refine hloop.mono ?_
    rintro _ s₂ ⟨hframe₂, htiled⟩
    refine ⟨hframe.trans (hframe₂.mono hcolumns ?_ le_rfl le_rfl), ?_,
      names.map (tableIndex data device), tableIndex_perm hnames hnamesPerm, ?_⟩
    · intro ref href
      obtain ⟨name, hname, href⟩ := Set.mem_iUnion₂.mp href
      obtain ⟨entry, hmem, _, hindex⟩ :=
        tableIndex_entry hnames (hnamesPerm.mem_iff.mp hname)
      rw [hindex] at href
      exact .inr (Set.mem_iUnion₂.mpr ⟨entry, hmem, href⟩)
    · refine cellAt_stable (C := {.volume}) (R := {.volume device}) rfl rfl
        s₁ s₂ lo _ ?_ hcell₁
      refine hframe₂.agree (.inr (by simp)) (Set.disjoint_left.mpr ?_)
      rintro ref ⟨rfl, _⟩ hmem
      obtain ⟨name, _, hown⟩ := Set.mem_iUnion₂.mp hmem
      rcases hown with hpattern | hsession
      · cases hpattern
      · obtain ⟨_, _, hsession⟩ := hsessions.isSession _ _ hsession
        cases hsession
    · rw [Filled, if_neg (by simpa using List.ne_nil_of_length_pos hn)]
      exact htiled.map

theorem filename_of_bound {device : String} {entry : Pattern × Nat}
    (h : entry ∈ boundPatterns data device) :
    data.accessPatterns[entry.2]? = some entry.1 ∧
      entry.1.filename = some device := by
  obtain ⟨hmem, hname⟩ := List.mem_filter.mp h
  exact ⟨List.mem_zipIdx_iff_getElem?.mp hmem, of_decide_eq_true hname⟩

theorem nodup_bound (device : String) :
    ((boundPatterns data device).map (·.2)).Nodup := by
  have hall : (data.accessPatterns.zipIdx.map (·.2)).Nodup := by
    rw [List.zipIdx_map_snd]
    exact List.nodup_range'
  exact hall.sublist (List.filter_sublist.map _)

theorem mem_ownVolume {avail : Nat → List Ref} (hsessions : Sessions avail)
    {device : String} {ref : Ref} (h : ref ∈ ownVolume data avail device) :
    ref = .volume device ∨ ∃ entry ∈ boundPatterns data device,
      ref = .pattern entry.2 ∨ ref ∈ avail entry.2 ∧
        ∃ sectionName name, ref = .session sectionName name := by
  rcases h with rfl | hpattern
  · exact .inl rfl
  · obtain ⟨entry, hentry, rfl | hsession⟩ := Set.mem_iUnion₂.mp hpattern
    · exact .inr ⟨entry, hentry, .inl rfl⟩
    · exact .inr ⟨entry, hentry, .inr
        ⟨hsession, hsessions.isSession entry.2 ref hsession⟩⟩

theorem ownVolume_apart {avail : Nat → List Ref} (hsessions : Sessions avail)
    {a b : String} (hne : a ≠ b) :
    Disjoint (ownVolume data avail a) (ownVolume data avail b) := by
  have hvolume : ∀ c d : String, Ref.volume c ∈ ownVolume data avail d → c = d := by
    intro c d hmem
    rcases mem_ownVolume hsessions hmem with h | ⟨_, _, h | ⟨_, _, _, h⟩⟩
    · injection h
    all_goals cases h
  rw [Set.disjoint_left]
  rintro ref (rfl | href) hother
  · exact hne (hvolume a b hother)
  · rcases hother with rfl | hother
    · exact hne (hvolume b a (.inr href)).symm
    obtain ⟨entry, hentry, hown⟩ := Set.mem_iUnion₂.mp href
    obtain ⟨other, hother, hown'⟩ := Set.mem_iUnion₂.mp hother
    obtain ⟨hindex, hname⟩ := filename_of_bound hentry
    obtain ⟨hindex', hname'⟩ := filename_of_bound hother
    have hdiff : entry.2 ≠ other.2 := by
      intro heq
      rw [heq, hindex'] at hindex
      rw [← Option.some.inj hindex, hname'] at hname
      exact hne (Option.some.inj hname).symm
    exact Set.disjoint_left.mp (ownPattern_apart hsessions hdiff) hown hown'

theorem patternRows_stable (avail : Nat → List Ref) (device : String) :
    Stable {.volume, .pattern, .session} (ownVolume data avail device ∩ G)
      fun s lo hi => patternRows G data avail s device lo hi := by
  intro s s' lo hi hagree h
  obtain ⟨indices, hperm, hfilled⟩ := h
  refine ⟨indices, hperm, ?_⟩
  refine filled_stable (C := {.volume, .pattern, .session})
    (R := ownVolume data avail device) (ownPattern avail)
    (sessionRows G avail) (by simp) (by simp) (fun _ _ => .inl rfl)
    (fun index hindex => ?_) (fun index _ => ?_) s s' lo hi hagree hfilled
  · obtain ⟨entry, hentry, rfl⟩ := List.mem_map.mp (hperm.mem_iff.mp hindex)
    exact fun ref href => .inr (Set.mem_iUnion₂.mpr ⟨entry, hentry, href⟩)
  · intro s s' lo hi hagree h
    exact sessionRows_stable avail index s s' lo hi
      (hagree.mono (by simp) subset_rfl le_rfl le_rfl) h

theorem volumeBefore_asymmetric : Sort.Asymmetric volumeBefore := by
  intro a b h
  simp only [volumeBefore] at h ⊢
  by_cases hab : snapshotOrigin a = some b
  · simp [hab] at h
  · by_cases hba : snapshotOrigin b = some a
    · simp [hba]
    · rw [if_neg hab, if_neg (Ne.symm hba)] at h
      rw [if_neg hba, if_neg (Ne.symm hab)]
      revert h
      cases snapshotOrigin a <;> cases snapshotOrigin b <;>
        exact less_asymmetric (α := String) _ _

theorem fillVolumes_returns (order : Order) {logical : Logical} {lo lines : Nat}
    (hnames : (data.accessPatterns.map (·.name)).Nodup)
    (hsessions : Sessions s.sessionsAvail) (hlines : 0 < lines)
    (hdiv : logical.volumes.keys ≠ [] →
      ∃ rows, lines = logical.volumes.keys.length * rows ∧
        ∀ device ∈ logical.volumes.keys,
          Divisible data s.sessionsAvail device rows)
    (hroom : Room {.volume, .pattern, .session} lo (lo + lines) s) :
    Action.Returns (fillVolumes data order logical lo lines) s fun _ s' =>
      Framed {.volume, .pattern, .session}
        (⋃ device ∈ logical.volumes.keys, ownVolume data s.sessionsAvail device)
        lo (lo + lines) s s' ∧
      volumeRows G data s.sessionsAvail s' logical.volumes.keys lo
        (lo + lines) := by
  obtain ⟨devices, hsort, hperm⟩ := Sort.sort_perm volumeBefore_asymmetric
    (order.visit logical.volumes.keys)
  have hdevices : devices.Perm logical.volumes.keys := hperm.trans (order.perm _)
  unfold fillVolumes
  refine Action.Returns.lift_bind hsort ?_
  by_cases hnone : logical.volumes.keys = []
  · have hnil : devices = [] := by
      rw [hnone] at hdevices
      exact hdevices.eq_nil
    subst hnil
    refine ⟨(), s, rfl, .refl, [], hdevices, ?_⟩
    rw [Filled, if_pos rfl]
    exact hroom.blank
  · obtain ⟨rows, hrows, hdivisible⟩ := hdiv hnone
    have hn : 0 < logical.volumes.keys.length := List.length_pos_of_ne_nil hnone
    have hpos : 0 < rows := by
      apply Nat.pos_of_ne_zero
      rintro rfl
      omega
    have hcount : devices.length = logical.volumes.keys.length := hdevices.length_eq
    have hspan : (lines : ℚ) / logical.volumes.keys.length = rows := by
      have h := rowspan_eq hn
        (show 0 + logical.volumes.keys.length * rows = lines by omega)
      simpa using h
    have hstop : lines = devices.length * rows := by rw [hrows, hcount]
    simp only [hspan]
    subst hstop
    have hloop := tile_loop (G := G) (C := {.volume, .pattern, .session})
      .volume .volume (ownVolume data s.sessionsAvail)
      (fun s' device => patternRows G data s.sessionsAvail s' device) devices
      (fun entry => fillVolume data order (lo + entry.2 * rows) rows entry.1) lo rows
      (by simp) (fun _ _ => .inl rfl)
      (fun device _ => patternRows_stable s.sessionsAvail device)
      (by
        have hnodup : devices.Nodup :=
          hdevices.nodup_iff.mpr logical.volumes.keys_nodup
        exact hnodup.imp fun hab =>
          (ownVolume_apart hsessions hab).mono_left Set.inter_subset_left)
      hpos hroom (by
        intro i hi s₁ havail hroom₁
        have hmem : devices[i] ∈ logical.volumes.keys :=
          hdevices.mem_iff.mp (List.getElem_mem hi)
        have hround := fillVolume_returns (G := G) order hnames
          (havail ▸ hsessions) (row_lt lo i hpos) (by
            rw [havail, Nat.add_sub_add_left, ← Nat.sub_mul,
              Nat.add_sub_cancel_left, Nat.one_mul]
            exact hdivisible _ hmem) (height_eq lo i rows) hroom₁
        rw [havail] at hround
        simp only [offset_eq]
        exact hround)
    refine hloop.mono ?_
    rintro _ s' ⟨hframe, htiled⟩
    refine ⟨hframe.mono subset_rfl ?_ le_rfl le_rfl, devices, hdevices, ?_⟩
    · intro ref href
      obtain ⟨device, hdevice, hown⟩ := Set.mem_iUnion₂.mp href
      exact Set.mem_iUnion₂.mpr ⟨device, hdevices.mem_iff.mp hdevice, hown⟩
    · rw [Filled, if_neg (List.ne_nil_of_length_pos (by omega))]
      exact htiled

/-! ## Disks -/

structure Claimed (ids : List PhysicalId) (s s' : Sheet) : Prop where
  lines : s'.lines = s.lines
  members : s'.members = s.members
  sessionsAvail : s'.sessionsAvail = s.sessionsAvail
  rowspans : ∀ ref, (∀ id ∈ ids, ref ≠ .physical id) →
    s'.rowspan ref = s.rowspan ref
  kept : ∀ id ∈ s.physicals, id ∈ s'.physicals
  added : ∀ id ∈ s'.physicals, id ∈ s.physicals ∨ id ∈ ids

theorem claimPhysical_claimed {ids : List PhysicalId} {id : PhysicalId}
    {logicalId : Nat} {start : Sheet} (hid : id ∈ ids)
    (h : Claimed ids start s) :
    Action.Returns (claimPhysical logicalId id) s fun _ => Claimed ids start := by
  refine Action.Returns.modify ?_
  have hother : ∀ ref : Ref, (∀ id ∈ ids, ref ≠ .physical id) →
      ref ≠ .physical id := fun ref href => href id hid
  split
  · refine ⟨?_, ?_, ?_, fun ref href => ?_, ?_, ?_⟩
    · split <;> exact h.lines
    · split <;> exact h.members
    · split <;> exact h.sessionsAvail
    · rw [← h.rowspans ref href]
      split
      · exact rowspan_update_ne s (fun r => { r with state := "allocated" })
          (hother ref href)
      · rfl
    · split <;> exact h.kept
    · split <;> exact h.added
  · refine ⟨h.lines, h.members, h.sessionsAvail, fun ref href => ?_, ?_, ?_⟩
    · rw [← h.rowspans ref href]
      exact rowspan_update_ne s (fun _ => failedDisk) (hother ref href)
    · exact fun other hother => List.mem_append_left _ (h.kept other hother)
    · intro other hother
      rcases List.mem_append.mp hother with hold | hnew
      · exact h.added other hold
      · rw [List.mem_singleton.mp hnew]
        exact .inr hid

theorem physicalRows_stable (members : List PhysicalId) :
    Stable {.physical} ({ref | ∃ p ∈ members, ref = .physical p} ∩ G)
      fun s lo hi => physicalRows G s members lo hi := by
  intro s s' lo hi hagree h
  obtain ⟨sorted, hperm, hfilled⟩ := h
  refine ⟨sorted, hperm, ?_⟩
  refine filled_stable (C := {.physical})
    (R := {ref | ∃ p ∈ members, ref = .physical p})
    (fun id => {.physical id}) (fun _ _ _ _ => True) subset_rfl rfl
    (fun _ _ => rfl) (fun id hid => ?_) (fun _ _ _ _ _ _ _ _ => trivial)
    s s' lo hi hagree hfilled
  rw [Set.singleton_subset_iff]
  exact ⟨id, hperm.mem_iff.mp hid, rfl⟩

theorem fillPhysicals_returns (order : Order) (id : Nat) {lo lines : Nat}
    (hnodup : (s.members id).Nodup) (hne : s.members id ≠ [])
    (hlines : 0 < lines) (hdvd : (s.members id).length ∣ lines)
    (hroom : Room {.physical} lo (lo + lines) s) :
    Action.Returns (fillPhysicals order id lo lines) s fun _ s' =>
      ∃ s₁, Claimed (s.members id) s s₁ ∧
        Framed {.physical} {ref | ∃ p ∈ s.members id, ref = .physical p}
          lo (lo + lines) s₁ s' ∧
        physicalRows G s' (s.members id) lo (lo + lines) := by
  unfold fillPhysicals
  refine Action.Returns.read_bind ?_
  have hclaim : Action.Returns
      (Action.forEach (order.visit (s.members id)) (claimPhysical id)) s
      fun _ => Claimed (s.members id) s := by
    refine Action.Returns.forEach_mem
      ⟨rfl, rfl, rfl, fun _ _ => rfl, fun _ h => h, fun _ h => .inl h⟩ ?_
    intro p hp s₁ h
    exact claimPhysical_claimed ((order.mem_visit).mp hp) h
  refine hclaim.bind ?_
  intro _ s₁ hclaimed
  obtain ⟨sorted, hsort, hperm⟩ := Physical.sort_perm order
    (fun p => (s₁.records (.physical p)).state) (s.members id)
  refine Action.Returns.query_bind hsort ?_
  have hroom₁ : Room {.physical} lo (lo + lines) s₁ := by
    refine ⟨?_, ?_⟩
    · simp only [HasLine, hclaimed.lines]
      exact hroom.lines
    · simp only [cell, hclaimed.lines]
      exact hroom.blank
  have hn : 0 < (s.members id).length := List.length_pos_of_ne_nil hne
  obtain ⟨rows, hrows⟩ := hdvd
  have hpos : 0 < rows := by
    apply Nat.pos_of_ne_zero
    rintro rfl
    omega
  have hspan : (lines : ℚ) / (s.members id).length = rows := by
    have h := rowspan_eq hn
      (show 0 + (s.members id).length * rows = lines by omega)
    simpa using h
  have hstop : lines = sorted.length * rows := by rw [hrows, hperm.length_eq]
  simp only [hspan]
  subst hstop
  have hloop := tile_loop (G := G) (C := {.physical}) .physical .physical
    (fun p => {.physical p}) (fun _ _ _ _ => True) sorted (fun entry =>
      fill (lo + entry.2 * rows) .physical (.physical entry.1) rows) lo rows
    rfl (fun _ _ => rfl) (fun _ _ _ _ _ _ _ _ => trivial)
    (by
      have hsorted : sorted.Nodup := hperm.nodup_iff.mpr hnodup
      refine hsorted.imp fun hab => ?_
      rw [Set.disjoint_singleton_right]
      rintro ⟨heq, _⟩
      cases heq
      exact hab rfl) hpos hroom₁ (by
      intro i _ s₂ _ hroom₂
      simp only [offset_eq]
      refine (fill_returns (G := G) (row_lt lo i hpos) hroom₂
        (height_eq lo i rows)).mono ?_
      rintro _ s₃ ⟨hframe, hcell⟩
      exact ⟨hframe, hcell, trivial⟩)
  refine hloop.mono ?_
  rintro _ s' ⟨hframe, htiled⟩
  refine ⟨s₁, hclaimed, hframe.mono subset_rfl ?_ le_rfl le_rfl, sorted, hperm, ?_⟩
  · intro ref href
    obtain ⟨p, hp, rfl⟩ := Set.mem_iUnion₂.mp href
    exact ⟨p, hperm.mem_iff.mp hp, rfl⟩
  · rw [Filled, if_neg (List.ne_nil_of_length_pos (by rw [hperm.length_eq]; exact hn))]
    exact htiled

end OpenSan.Matrix
