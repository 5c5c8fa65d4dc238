import OpenSan.Matrix.Borders

/-!
# The borders of a block

The marks that `filter_borders_highlight` leaves in the block of an array, from the
cell of the array to the cells of the sessions.
-/

namespace OpenSan.Matrix

open OpenSan.Foundation OpenSan.Einarc Sheet

variable {data : Data} {order : Order} {sheet : Sheet} {id lo hi : Nat}
  {logical : Logical}

/-! ## The cells of a block -/

/-- The disks, the volumes and their patterns of a block, from top to bottom, with the
heights of a disk and of a volume. -/
structure Content where
  members : List PhysicalId
  rows : Nat
  devices : List String
  volumeRows : Nat
  indices : Nat → List Nat

structure BlockCells (data : Data) (sheet : Sheet) (id : Nat) (logical : Logical)
    (lo hi : Nat) (content : Content) : Prop where
  lookup : data.logicals.lookup id = some logical
  cell : CellAt Set.univ sheet .logical (.logical id) lo hi
  perm : content.members.Perm (memberIds data logical)
  nonempty : content.members ≠ []
  positive : 0 < content.rows
  stop : lo + content.members.length * content.rows = hi
  physicals : ∀ i (h : i < content.members.length), CellAt Set.univ sheet .physical
    (.physical content.members[i]) (lo + i * content.rows) (lo + (i + 1) * content.rows)
  devicesPerm : content.devices.Perm logical.volumes.keys
  blank : content.devices = [] → ∀ row : ℚ, lo ≤ row → row < hi →
    sheet.cell .volume row = none
  volumesPositive : content.devices ≠ [] → 0 < content.volumeRows
  volumesStop : content.devices ≠ [] →
    lo + content.devices.length * content.volumeRows = hi
  volumes : ∀ i (h : i < content.devices.length), CellAt Set.univ sheet .volume
    (.volume content.devices[i]) (lo + i * content.volumeRows)
    (lo + (i + 1) * content.volumeRows)
  indicesPerm : ∀ i (h : i < content.devices.length),
    (content.indices i).Perm ((boundPatterns data content.devices[i]).map (·.2))
  patterns : ∀ i (_ : i < content.devices.length),
    Filled Set.univ sheet {.pattern, .session} .pattern .pattern
      (sessionRows Set.univ sheet.sessionsAvail sheet) (lo + i * content.volumeRows)
      (content.indices i) (lo + (i + 1) * content.volumeRows)

theorem Block.cells (h : Block Set.univ data sheet id logical lo hi)
    (hmembers : memberIds data logical ≠ []) :
    ∃ content, BlockCells data sheet id logical lo hi content := by
  obtain ⟨sorted, hsorted, hphysicals⟩ := h.physicals
  obtain ⟨devices, hdevices, hvolumes⟩ := h.volumes
  have hne : sorted ≠ [] := by
    rintro rfl
    exact hmembers hsorted.symm.eq_nil
  rw [Filled, if_neg hne] at hphysicals
  obtain ⟨rows, hpos, hstop, hcells⟩ := hphysicals
  by_cases hnil : devices = []
  · subst hnil
    rw [Filled, if_pos rfl] at hvolumes
    refine ⟨⟨sorted, rows, [], 0, fun _ => []⟩, h.lookup, h.cell, hsorted, hne, hpos, hstop,
      fun i hi => (hcells i hi).1, hdevices, fun _ => hvolumes .volume (by simp), ?_, ?_, ?_,
      ?_, ?_⟩ <;> simp
  · rw [Filled, if_neg hnil] at hvolumes
    obtain ⟨volumeRows, hvpos, hvstop, hvcells⟩ := hvolumes
    have hpatterns : ∀ i, ∃ indices : List Nat, ∀ hi : i < devices.length,
        indices.Perm ((boundPatterns data devices[i]).map (·.2)) ∧
        Filled Set.univ sheet {.pattern, .session} .pattern .pattern
          (sessionRows Set.univ sheet.sessionsAvail sheet) (lo + i * volumeRows) indices
          (lo + (i + 1) * volumeRows) := by
      intro i
      by_cases hi : i < devices.length
      · obtain ⟨_, indices, hperm, hfilled⟩ := hvcells i hi
        exact ⟨indices, fun _ => ⟨hperm, hfilled⟩⟩
      · exact ⟨[], fun h => absurd h hi⟩
    choose indices hindices using hpatterns
    exact ⟨⟨sorted, rows, devices, volumeRows, indices⟩, h.lookup, h.cell, hsorted, hne, hpos,
      hstop, fun i hi => (hcells i hi).1, hdevices, fun heq => absurd heq hnil, fun _ => hvpos,
      fun _ => hvstop, fun i hi => (hvcells i hi).1, fun i hi => (hindices i hi).1,
      fun i hi => (hindices i hi).2⟩

namespace BlockCells

variable {content : Content} {avail : Nat → List Ref}

theorem own_eq (h : BlockCells data sheet id logical lo hi content) :
    own data avail id = {.logical id} ∪ {ref | ∃ p ∈ content.members, ref = .physical p} ∪
      ⋃ device ∈ content.devices, ownVolume data avail device := by
  ext ref
  simp [own, ownLogical, h.lookup, h.perm.mem_iff, h.devicesPerm.mem_iff]

theorem nodup_members (h : BlockCells data sheet id logical lo hi content) :
    content.members.Nodup :=
  h.perm.nodup_iff.mpr (nodup_memberIds data logical)

theorem nodup_devices (h : BlockCells data sheet id logical lo hi content) :
    content.devices.Nodup :=
  h.devicesPerm.nodup_iff.mpr logical.volumes.keys_nodup

theorem length_devices (h : BlockCells data sheet id logical lo hi content) :
    logical.volumes.keys.length = content.devices.length :=
  h.devicesPerm.length_eq.symm

theorem logical_mem_own (h : BlockCells data sheet id logical lo hi content) :
    .logical id ∈ own data avail id := by
  simp [h.own_eq]

theorem physical_mem_own (h : BlockCells data sheet id logical lo hi content) {p : PhysicalId}
    (hp : p ∈ content.members) : .physical p ∈ own data avail id := by
  simp [h.own_eq, hp]

theorem ownVolume_subset_own (h : BlockCells data sheet id logical lo hi content)
    {device : String} (hdevice : device ∈ content.devices) :
    ownVolume data avail device ⊆ own data avail id := by
  rw [h.own_eq]
  exact fun ref href => .inr (Set.mem_biUnion hdevice href)

theorem volume_mem_own (h : BlockCells data sheet id logical lo hi content) {device : String}
    (hdevice : device ∈ content.devices) : .volume device ∈ own data avail id :=
  h.ownVolume_subset_own hdevice (.inl rfl)

end BlockCells

/-! ## The marks of a block -/

/-- The highlights of a block; the lower borders come last. -/
structure BlockLit (avail : Nat → List Ref) (id : Nat) (content : Content) (closed : Bool)
    (f : Ref → Option Highlight) : Prop where
  logical : f (.logical id) =
    some { top := true, right := decide (content.devices = []), bottom := closed }
  physicals : ∀ i (h : i < content.members.length), f (.physical content.members[i]) =
    some { left := true, top := decide (i = 0),
           bottom := closed && decide (i + 1 = content.members.length) }
  volumes : ∀ i (h : i < content.devices.length),
    VolumeLit avail (decide (i = 0)) (closed && decide (i + 1 = content.devices.length))
      content.devices[i] (content.indices i) f

section Marks

variable {content : Content} {f : Ref → Option Highlight} {m : Marks}
  {avail : Nat → List Ref}

private theorem physical_not_mem (hsessions : Sessions avail) (p : PhysicalId)
    (device : String) : .physical p ∉ ownVolume data avail device := by
  intro hin
  rcases mem_ownVolume hsessions hin with heq | ⟨_, _, heq | ⟨_, _, _, heq⟩⟩ <;> cases heq

private theorem logical_not_mem (hsessions : Sessions avail) (id : Nat)
    (device : String) : .logical id ∉ ownVolume data avail device := by
  intro hin
  rcases mem_ownVolume hsessions hin with heq | ⟨_, _, heq | ⟨_, _, _, heq⟩⟩ <;> cases heq

private theorem volume_not_mem (hsessions : Sessions avail) (device other : String) :
    .volume other ∉ ⋃ entry ∈ boundPatterns data device, ownPattern avail entry.2 := by
  intro hin
  obtain ⟨_, _, heq | hsession⟩ := Set.mem_iUnion₂.mp hin
  · cases heq
  · obtain ⟨_, _, heq⟩ := hsessions.isSession _ _ hsession
    cases heq

private theorem volumeLit_close {top : Bool} {device : String} {indices : List Nat}
    (hsessions : Sessions avail) (h : VolumeLit avail top false device indices f) :
    VolumeLit avail top true device indices (Function.update f (.volume device)
      (some { top := top, right := decide (indices = []), bottom := true })) := by
  refine ⟨Function.update_self .., fun j hj => ?_⟩
  refine patternLit_within avail _ j indices[j] f _ (fun ref href => ?_) (h.2 j hj)
  refine Function.update_of_ne ?_ _ _
  rintro rfl
  rcases href with heq | hin
  · cases heq
  · obtain ⟨_, _, heq⟩ := hsessions.isSession _ _ hin
    cases heq

theorem last_row {lo hi n rows : Nat} {future : ℚ} (hn : 0 < n) (hfuture : future = hi)
    (hstop : lo + n * rows = hi) : future - rows = ((lo + (n - 1) * rows : Nat) : ℚ) := by
  obtain ⟨k, rfl⟩ : ∃ k, n = k + 1 := ⟨n - 1, by omega⟩
  rw [hfuture, ← hstop]
  push_cast
  ring

theorem blockLit_within (h : BlockCells data sheet id logical lo hi content) (closed : Bool) :
    Action.Within (own data avail id) (BlockLit avail id content closed) := by
  rintro f g hsame ⟨hlogical, hphysicals, hvolumes⟩
  refine ⟨?_, fun i hi => ?_, fun i hi => ?_⟩
  · rw [hsame _ h.logical_mem_own, hlogical]
  · rw [hsame _ (h.physical_mem_own (List.getElem_mem hi)), hphysicals i hi]
  · refine volumeLit_within avail _ _ (h.indicesPerm i hi) f g (fun ref href => ?_)
      (hvolumes i hi)
    exact hsame ref (h.ownVolume_subset_own (List.getElem_mem hi) href)

theorem isSome_of_blockLit (h : BlockCells data sheet id logical lo hi content)
    {closed : Bool} (hlit : BlockLit avail id content closed f) {ref : Ref}
    (href : ref ∈ own data avail id) : (f ref).isSome = true := by
  rw [h.own_eq] at href
  rcases href with (rfl | ⟨p, hp, rfl⟩) | hvolume
  · rw [hlit.logical]
    rfl
  · obtain ⟨i, hi, rfl⟩ := List.getElem_of_mem hp
    rw [hlit.physicals i hi]
    rfl
  · obtain ⟨device, hdevice, hown⟩ := Set.mem_iUnion₂.mp hvolume
    obtain ⟨i, hi, rfl⟩ := List.getElem_of_mem hdevice
    obtain ⟨hlitVolume, hpatterns⟩ := hlit.volumes i hi
    rcases hown with rfl | hpattern
    · rw [hlitVolume]
      rfl
    · obtain ⟨entry, hentry, hown⟩ := Set.mem_iUnion₂.mp hpattern
      obtain ⟨j, hj, hindex⟩ := List.getElem_of_mem
        ((h.indicesPerm i hi).mem_iff.mpr (List.mem_map_of_mem hentry))
      obtain ⟨hlitPattern, hstacked⟩ := hpatterns j hj
      rw [hindex] at hlitPattern hstacked
      rcases hown with rfl | hsession
      · rw [hlitPattern]
        rfl
      · obtain ⟨k, hk, rfl⟩ := List.getElem_of_mem hsession
        rw [hstacked k hk]
        rfl

private theorem close_returns (hcells : BlockCells data sheet id logical lo hi content)
    (hsessions : Sessions avail) {quantity : Nat} {future volumeRowspan : ℚ}
    (hfuture : future = hi) (hquantity : quantity = content.devices.length)
    (hspan : content.devices ≠ [] → volumeRowspan = content.volumeRows)
    (hpainted : Painted sheet f m) (hlit : BlockLit avail id content false f) :
    Action.Returns (do
      let lastPhysical ← cellAt sheet .physical (future - content.rows)
      setHighlight lastPhysical fun h => { h with bottom := true }
      setHighlight (.logical id) fun h => { h with bottom := true }
      onlyIf (quantity ≠ 0) do
        let lastVolume ← cellAt sheet .volume (future - volumeRowspan)
        setHighlight lastVolume fun h => { h with bottom := true }) m fun _ m' =>
      ∃ f', Painted sheet f' m' ∧ BlockLit avail id content true f' ∧
        ∀ ref ∉ own data avail id, f' ref = f ref := by
  have hn : 0 < content.members.length := List.length_pos_of_ne_nil hcells.nonempty
  have hlast : content.members.length - 1 < content.members.length := by omega
  rw [last_row hn hfuture hcells.stop]
  refine cellAt_bind (hcells.physicals _ hlast).shown ?_
  refine (hpainted.set (hlit.physicals _ hlast) _).bind fun _ m₁ h₁ => ?_
  have hlogical₁ := hlit.logical
  rw [← Function.update_of_ne (show Ref.logical id ≠ .physical _ by simp) _ f] at hlogical₁
  refine (h₁.set hlogical₁ _).bind fun _ m₂ h₂ => ?_
  generalize hf₂ : Function.update (Function.update f _ _) (Ref.logical id) _ = f₂ at h₂
  have hsame₂ : ∀ ref, ref ≠ .logical id →
      ref ≠ .physical content.members[content.members.length - 1] → f₂ ref = f ref := by
    intro ref hl hp
    rw [← hf₂, Function.update_of_ne hl, Function.update_of_ne hp]
  have hlogical₂ : f₂ (.logical id) =
      some { top := true, right := decide (content.devices = []), bottom := true } := by
    rw [← hf₂, Function.update_self]
  have hphysicals₂ : ∀ i (h : i < content.members.length), f₂ (.physical content.members[i]) =
      some { left := true, top := decide (i = 0),
             bottom := decide (i + 1 = content.members.length) } := by
    intro i hi
    by_cases heq : i = content.members.length - 1
    · subst heq
      rw [← hf₂, Function.update_of_ne (by simp), Function.update_self]
      simp [Nat.sub_add_cancel hn]
    · rw [hsame₂ _ (by simp) fun hsame => heq ?_, hlit.physicals i hi]
      · simp [show ¬ i + 1 = content.members.length by omega]
      · injection hsame with hsame
        exact hcells.nodup_members.getElem_inj_iff.mp hsame
  have hvolumes₂ : ∀ i (h : i < content.devices.length),
      VolumeLit avail (decide (i = 0)) false content.devices[i] (content.indices i) f₂ := by
    intro i hi
    refine volumeLit_within avail _ _ (hcells.indicesPerm i hi) f f₂ (fun ref href => ?_)
      (hlit.volumes i hi)
    refine hsame₂ ref ?_ ?_
    · rintro rfl
      exact logical_not_mem hsessions _ _ href
    · rintro rfl
      exact physical_not_mem hsessions _ _ href
  have hown₂ : ∀ ref ∉ own data avail id, f₂ ref = f ref := by
    intro ref href
    refine hsame₂ ref ?_ ?_
    · rintro rfl
      exact href hcells.logical_mem_own
    · rintro rfl
      exact href (hcells.physical_mem_own (List.getElem_mem hlast))
  subst hquantity
  unfold onlyIf
  by_cases hnil : content.devices = []
  · rw [if_neg (by simp [hnil])]
    refine Action.Returns.pure ⟨f₂, h₂, ⟨hlogical₂, by simpa using hphysicals₂, ?_⟩, hown₂⟩
    simp [hnil]
  · rw [if_pos (by simp [hnil]), hspan hnil]
    have hk : 0 < content.devices.length := List.length_pos_of_ne_nil hnil
    have hlastVolume : content.devices.length - 1 < content.devices.length := by omega
    rw [last_row hk hfuture (hcells.volumesStop hnil)]
    refine cellAt_bind (hcells.volumes _ hlastVolume).shown ?_
    refine (h₂.set (hvolumes₂ _ hlastVolume).1 _).mono fun _ m₃ h₃ => ?_
    refine ⟨_, h₃, ⟨?_, fun i hi => ?_, fun i hi => ?_⟩, fun ref href => ?_⟩
    · rw [Function.update_of_ne (by simp), hlogical₂]
    · rw [Function.update_of_ne (by simp), hphysicals₂ i hi, Bool.true_and]
    · by_cases heq : i = content.devices.length - 1
      · subst heq
        simpa [Nat.sub_add_cancel hk] using volumeLit_close hsessions (hvolumes₂ _ hi)
      · have hopen : (true && decide (i + 1 = content.devices.length)) = false := by
          simp
          omega
        rw [hopen]
        refine volumeLit_within avail _ _ (hcells.indicesPerm i hi) f₂ _ (fun ref href => ?_)
          (hvolumes₂ i hi)
        refine Function.update_of_ne ?_ _ _
        rintro rfl
        have hdiff : content.devices[i] ≠ content.devices[content.devices.length - 1] :=
          fun hsame => heq (hcells.nodup_devices.getElem_inj_iff.mp hsame)
        exact Set.disjoint_left.mp (ownVolume_apart hsessions hdiff) href (.inl rfl)
    · rw [Function.update_of_ne, hown₂ ref href]
      rintro rfl
      exact href (hcells.volume_mem_own (List.getElem_mem hlastVolume))

private theorem columns_returns (hcells : BlockCells data sheet id logical lo hi content)
    (hnames : (data.accessPatterns.map (·.name)).Nodup)
    (hsessions : Sessions sheet.sessionsAvail)
    (hvolume : ∀ device ∈ content.devices, ∃ volume, data.volume device = some volume)
    {volumeRowspan : ℚ}
    (hspan : content.devices ≠ [] → volumeRowspan = content.volumeRows)
    (hpainted : Painted sheet f m)
    (hlogical : f (.logical id) =
      some { top := true, right := decide (content.devices = []) })
    (hphysicals : ∀ i (h : i < content.members.length), ∃ left,
      (f (.physical content.members[i])).getD {} = { left := left, top := decide (i = 0) })
    (hvolumes : ∀ i (h : i < content.devices.length),
      VolumeWaiting data sheet.sessionsAvail (decide (i = 0)) content.devices[i] f) :
    Action.Returns (do
      let height ← rowspanOf (.logical id)
      highlightPhysicals sheet lo (lo + height) content.rows
      onlyIf (content.devices.length ≠ 0)
        (highlightVolumes data sheet lo (lo + height) volumeRowspan)
      let lastPhysical ← cellAt sheet .physical (lo + height - content.rows)
      setHighlight lastPhysical fun h => { h with bottom := true }
      setHighlight (.logical id) fun h => { h with bottom := true }
      onlyIf (content.devices.length ≠ 0) do
        let lastVolume ← cellAt sheet .volume (lo + height - volumeRowspan)
        setHighlight lastVolume fun h => { h with bottom := true }) m fun _ m' =>
      ∃ f', Painted sheet f' m' ∧ BlockLit sheet.sessionsAvail id content true f' ∧
        ∀ ref ∉ own data sheet.sessionsAvail id, f' ref = f ref := by
  have hfuture : (lo : ℚ) + ((hi : ℚ) - lo) = hi := by ring
  refine hpainted.rowspanOf_bind (hcells.cell.rowspan trivial) ?_
  rw [hfuture]
  have hphysicalsLoop := highlightPhysicals_paints hcells.positive
    hcells.nodup_members (by rw [hcells.stop]) fun i hi => (hcells.physicals i hi).shown
  refine (hpainted.of_paints hphysicalsLoop hphysicals).bind ?_
  rintro _ m₁ ⟨f₁, h₁, hphysicals₁, hsame₁⟩
  have hlogical₁ : f₁ (.logical id) =
      some { top := true, right := decide (content.devices = []) } := by
    rw [hsame₁ _ (by simp), hlogical]
  have hvolumes₁ : ∀ i (h : i < content.devices.length),
      VolumeWaiting data sheet.sessionsAvail (decide (i = 0)) content.devices[i] f₁ := by
    intro i hi
    refine volumeWaiting_within _ _ _ f f₁ (fun ref href => hsame₁ ref ?_) (hvolumes i hi)
    rintro ⟨p, _, rfl⟩
    exact physical_not_mem hsessions _ _ href
  have hown₁ : ∀ ref ∉ own data sheet.sessionsAvail id, f₁ ref = f ref := by
    intro ref href
    refine hsame₁ ref ?_
    rintro ⟨p, hp, rfl⟩
    exact href (hcells.physical_mem_own hp)
  -- without volumes the loop over them is left out
  have hloop : Action.Returns (onlyIf (content.devices.length ≠ 0)
      (highlightVolumes data sheet lo hi volumeRowspan)) m₁ fun _ m₂ =>
      ∃ f₂, Painted sheet f₂ m₂ ∧ BlockLit sheet.sessionsAvail id content false f₂ ∧
        ∀ ref ∉ own data sheet.sessionsAvail id, f₂ ref = f ref := by
    unfold onlyIf
    by_cases hnil : content.devices = []
    · rw [if_neg (by simp [hnil])]
      refine Action.Returns.pure ⟨f₁, h₁, ⟨hlogical₁, hphysicals₁, ?_⟩, hown₁⟩
      simp [hnil]
    · rw [if_pos (by simp [hnil]), hspan hnil]
      have hvolumesLoop := highlightVolumes_paints hi hnames hsessions
        (hcells.volumesPositive hnil) hcells.nodup_devices (by rw [hcells.volumesStop hnil])
        hvolume fun i hi =>
          ⟨(hcells.volumes i hi).shown, hcells.indicesPerm i hi, hcells.patterns i hi⟩
      refine (h₁.of_paints hvolumesLoop hvolumes₁).mono ?_
      rintro _ m₂ ⟨f₂, h₂, hvolumes₂, hsame₂⟩
      refine ⟨f₂, h₂, ⟨?_, fun i hi => ?_, hvolumes₂⟩, fun ref href => ?_⟩
      · rw [hsame₂ _ fun hin => ?_, hlogical₁]
        obtain ⟨device, _, hin⟩ := Set.mem_iUnion₂.mp hin
        exact logical_not_mem hsessions _ _ hin
      · rw [hsame₂ _ fun hin => ?_, hphysicals₁ i hi]
        · rfl
        · obtain ⟨device, _, hin⟩ := Set.mem_iUnion₂.mp hin
          exact physical_not_mem hsessions _ _ hin
      · rw [hsame₂ ref fun hin => ?_, hown₁ ref href]
        obtain ⟨device, hdevice, hin⟩ := Set.mem_iUnion₂.mp hin
        exact href (hcells.ownVolume_subset_own hdevice hin)
  refine hloop.bind ?_
  rintro _ m₂ ⟨f₂, h₂, hlit₂, hsame₂⟩
  refine (close_returns hcells hsessions rfl rfl hspan h₂ hlit₂).mono ?_
  rintro _ m₃ ⟨f₃, h₃, hlit₃, hsame₃⟩
  exact ⟨f₃, h₃, hlit₃, fun ref href => by rw [hsame₃ ref href, hsame₂ ref href]⟩

def BlockWaiting (data : Data) (avail : Nat → List Ref) (id : Nat) (content : Content)
    (f : Ref → Option Highlight) : Prop :=
  AllUnmarked (own data avail id) f ∧
    ∀ h : 0 < content.members.length, f (.physical content.members[0]) = some {}

structure Opened (data : Data) (avail : Nat → List Ref) (id : Nat) (content : Content)
    (f f' : Ref → Option Highlight) : Prop where
  logical : f' (.logical id) = some { top := true }
  physicals : ∀ i (h : i < content.members.length), ∃ left,
    (f' (.physical content.members[i])).getD {} = { left := left, top := decide (i = 0) }
  volumes : ∀ device ∈ content.devices, AllUnmarked (ownVolume data avail device) f'
  same : ∀ ref ∉ own data avail id, f' ref = f ref

private theorem opened_of_updates (hcells : BlockCells data sheet id logical lo hi content)
    (hsessions : Sessions avail) (hn : 0 < content.members.length)
    {f' : Ref → Option Highlight} (hunmarked : AllUnmarked (own data avail id) f)
    (hlogical : f' (.logical id) = some { top := true })
    (hfirst : f' (.physical content.members[0]) = some { left := true, top := true })
    (hsame : ∀ ref, ref ≠ .logical id → ref ≠ .physical content.members[0] →
      f' ref = f ref) : Opened data avail id content f f' where
  logical := hlogical
  physicals i hi := by
    by_cases hzero : i = 0
    · subst hzero
      exact ⟨true, by rw [hfirst]; rfl⟩
    · refine ⟨false, ?_⟩
      rw [hsame _ (by simp) fun heq => hzero ?_]
      · rw [decide_eq_false hzero]
        exact hunmarked _ (hcells.physical_mem_own (List.getElem_mem hi))
      · injection heq with heq
        exact hcells.nodup_members.getElem_inj_iff.mp heq
  volumes device hdevice ref href := by
    rw [Unmarked, hsame ref ?_ ?_]
    · exact hunmarked ref (hcells.ownVolume_subset_own hdevice href)
    · rintro rfl
      exact logical_not_mem hsessions _ _ href
    · rintro rfl
      exact physical_not_mem hsessions _ _ href
  same ref href := by
    refine hsame ref ?_ ?_
    · rintro rfl
      exact href hcells.logical_mem_own
    · rintro rfl
      exact href (hcells.physical_mem_own (List.getElem_mem hn))

private theorem Opened.waiting {f' : Ref → Option Highlight}
    (h : Opened data avail id content f f')
    (hcells : BlockCells data sheet id logical lo hi content) (hsessions : Sessions avail)
    (hk : 0 < content.devices.length) (i : Nat) (hi : i < content.devices.length) :
    VolumeWaiting data avail (decide (i = 0)) content.devices[i]
      (Function.update f' (.volume content.devices[0])
        (some { top := true, right := true })) := by
  refine ⟨?_, fun ref href => ?_⟩
  · by_cases hzero : i = 0
    · subst hzero
      exact ⟨true, by simp⟩
    · have hne : content.devices[i] ≠ content.devices[0] :=
        fun heq => hzero (hcells.nodup_devices.getElem_inj_iff.mp heq)
      refine ⟨false, ?_⟩
      rw [Function.update_of_ne (by simpa using hne), decide_eq_false hzero]
      exact h.volumes _ (List.getElem_mem hi) _ (.inl rfl)
  · rw [Unmarked, Function.update_of_ne]
    · exact h.volumes _ (List.getElem_mem hi) ref (.inr href)
    · rintro rfl
      exact volume_not_mem hsessions _ _ href

theorem highlightLogical_paints (hcells : BlockCells data sheet id logical lo hi content)
    (hnames : (data.accessPatterns.map (·.name)).Nodup)
    (hsessions : Sessions sheet.sessionsAvail)
    (hvolume : ∀ device ∈ content.devices, ∃ volume, data.volume device = some volume) :
    Paints sheet (own data sheet.sessionsAvail id)
      (highlightLogical data sheet lo (.logical id))
      (BlockWaiting data sheet.sessionsAvail id content)
      (BlockLit sheet.sessionsAvail id content true) := by
  have hn : 0 < content.members.length := List.length_pos_of_ne_nil hcells.nonempty
  have hcell₀ : sheet.cell .physical (lo : ℚ) = some (.physical content.members[0]) := by
    simpa using (hcells.physicals 0 hn).shown
  have hrowspan₀ := (hcells.physicals 0 hn).rowspan_tile
  apply paints_of_painted
  rintro f m hpainted ⟨hunmarked, hfirst⟩
  unfold highlightLogical
  refine (hpainted.check _).bind fun _ m₁ h₁ => ?_
  rw [show (f (.logical id)).getD {} = {} from hunmarked _ hcells.logical_mem_own] at h₁
  refine cellAt_bind hcell₀ ?_
  have hfirst₁ := hfirst hn
  rw [← Function.update_of_ne (show Ref.physical _ ≠ .logical id by simp) _ f] at hfirst₁
  refine (h₁.set hfirst₁ _).bind fun _ m₂ h₂ => ?_
  refine (h₂.set (Function.update_self ..) _).bind fun _ m₃ h₃ => ?_
  have hlogical₃ : Function.update (Function.update (Function.update f (.logical id) (some {}))
      (.physical content.members[0]) (some { top := true }))
      (.physical content.members[0]) (some { left := true, top := true })
      (.logical id) = some {} := by
    simp
  refine (h₃.set hlogical₃ _).bind fun _ m₄ h₄ => ?_
  generalize hf₄ : Function.update _ (Ref.logical id) _ = f₄ at h₄
  have hopened : Opened data sheet.sessionsAvail id content f f₄ := by
    refine opened_of_updates hcells hsessions hn hunmarked ?_ ?_ fun ref hl hp => ?_
    · rw [← hf₄, Function.update_self]
    · rw [← hf₄]
      simp
    · rw [← hf₄]
      simp [Function.update_of_ne hl, Function.update_of_ne hp]
  refine logicalOf_bind hcells.lookup ?_
  simp only [hcells.length_devices]
  by_cases hnil : content.devices = []
  · rw [if_neg (by simp [hnil])]
    refine Action.Returns.bind (P := fun rowspan m' => rowspan = (0 : ℚ) ∧ m' = m₄)
      (Action.Returns.pure ⟨rfl, rfl⟩) ?_
    rintro _ _ ⟨rfl, rfl⟩
    refine h₄.rowspanOf_bind hrowspan₀ ?_
    rw [if_pos (by simp [hnil])]
    refine (h₄.set hopened.logical _).bind fun _ m₅ h₅ => ?_
    refine (columns_returns hcells hnames hsessions hvolume (fun hne => absurd hnil hne) h₅
      ?_ ?_ ?_).mono ?_
    · simp [hnil]
    · simpa using hopened.physicals
    · simp [hnil]
    · rintro _ m₆ ⟨f₆, h₆, hlit₆, hsame₆⟩
      refine ⟨f₆, h₆, hlit₆, fun ref href => ?_⟩
      rw [hsame₆ ref href, Function.update_of_ne, hopened.same ref href]
      rintro rfl
      exact href hcells.logical_mem_own
  · have hk : 0 < content.devices.length := List.length_pos_of_ne_nil hnil
    have hvcell₀ : sheet.cell .volume (lo : ℚ) = some (.volume content.devices[0]) := by
      simpa using (hcells.volumes 0 hk).shown
    rw [if_pos (by simp [hnil])]
    refine cellAt_bind hvcell₀ ?_
    refine h₄.rowspanOf_bind (hcells.volumes 0 hk).rowspan_tile ?_
    refine h₄.rowspanOf_bind hrowspan₀ ?_
    rw [if_neg (by simp [hnil])]
    refine cellAt_bind hvcell₀ ?_
    refine (h₄.check _).bind fun _ m₅ h₅ => ?_
    have hfresh : (f₄ (.volume content.devices[0])).getD {} = {} :=
      hopened.volumes _ (List.getElem_mem hk) _ (.inl rfl)
    rw [hfresh] at h₅
    refine (h₅.set (Function.update_self ..) _).bind fun _ m₆ h₆ => ?_
    refine (h₆.set (Function.update_self ..) _).bind fun _ m₇ h₇ => ?_
    simp only [Function.update_idem] at h₇
    refine (columns_returns hcells hnames hsessions hvolume (fun _ => rfl) h₇
      ?_ ?_ (hopened.waiting hcells hsessions hk)).mono ?_
    · rw [Function.update_of_ne (by simp), hopened.logical]
      simp [hnil]
    · simpa using hopened.physicals
    · rintro _ m₈ ⟨f₈, h₈, hlit₈, hsame₈⟩
      refine ⟨f₈, h₈, hlit₈, fun ref href => ?_⟩
      rw [hsame₈ ref href, Function.update_of_ne, hopened.same ref href]
      rintro rfl
      exact href (hcells.volume_mem_own (List.getElem_mem hk))

end Marks

end OpenSan.Matrix
