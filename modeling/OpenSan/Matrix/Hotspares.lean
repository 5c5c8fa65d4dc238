import OpenSan.Matrix.Scan

/-!
# Hotspare offers

`filter_calculate_hotspares` offers a free disk to the arrays that it is large
enough for.  It compares the disk with the smallest size in the table of the
members, in which `M.overall` has also put records of size 0 for the missing
members and the record of the cache disk.
-/

namespace OpenSan.Matrix

open OpenSan.Foundation OpenSan.Einarc Sheet

variable {data : Data} {order : Order} {sheet : Sheet}

/-! ## What is offered -/

def compatible (logical : Logical) : Bool :=
  logical.level.any (· ∈ raidlevelsHotspareCompatible)

def diskSize (data : Data) (p : PhysicalId) : ℚ :=
  match data.physicals.lookup p with
  | some disk => disk.size
  | none => 0

/-- The members of an array that are in the inventory, without its cache disk. -/
def presentDisks (data : Data) (logical : Logical) : List PhysicalId :=
  logical.physicals.keys.filter fun p =>
    p ∈ data.physicals.keys ∧ logical.cachedBy ≠ some p

def Smallest (data : Data) (logical : Logical) (least : ℚ) : Prop :=
  (∃ p ∈ presentDisks data logical, diskSize data p = least) ∧
    ∀ p ∈ presentDisks data logical, least ≤ diskSize data p

/-- A disk of this size can stand in for each disk of the array. -/
def Fits (data : Data) (size : ℚ) (id : Nat) : Prop :=
  ∃ logical least, data.logicals.lookup id = some logical ∧ compatible logical = true ∧
    Smallest data logical least ∧ least ≤ size

/-- The record of a free disk has the increasing list of the arrays that it fits,
with the smallest size of each, or no list if there is none. -/
def Offered (data : Data) (size : ℚ) (record : Record) : Prop :=
  match record.hotspareAvailability with
  | none => ∀ id, ¬ Fits data size id
  | some ids => ids ≠ [] ∧ ids.Pairwise (· < ·) ∧ (∀ id, id ∈ ids ↔ Fits data size id) ∧
      ∀ id ∈ ids, ∀ logical, data.logicals.lookup id = some logical →
        ∀ least, record.hotspareMinimalSizes.lookup id = some least ↔
          Smallest data logical least

def FreeCell (sheet : Sheet) (ref : Ref) (size : ℚ) : Prop :=
  ref ∈ sheet.cellsIn .physical sheet.lineNumbers ∧ (sheet.records ref).state = "free" ∧
    (sheet.records ref).size = .mib size

/-! ## The smallest member -/

def leastMember (data : Data) (sheet : Sheet) (order : Order) (id : Nat) : Option ℚ :=
  ((order.visit (sheet.members id)).map (diskSize data)).min?

theorem leastMember_eq_some {id : Nat} {least : ℚ} :
    leastMember data sheet order id = some least ↔
      (∃ p ∈ sheet.members id, diskSize data p = least) ∧
        ∀ p ∈ sheet.members id, least ≤ diskSize data p := by
  simp [leastMember, List.min?_eq_some_iff]

theorem minimalSize_run {m : Marks}
    (hsizes : ∀ p, (m.records (.physical p)).size = .mib (diskSize data p))
    (ids : List PhysicalId) (least : ℚ) :
    minimalSize ids (some least) m =
      (.ok (some ((ids.map (diskSize data)).foldl min least)), m) := by
  induction ids generalizing least with
  | nil => rfl
  | cons id ids ih =>
      have hmin : (if diskSize data id < least then diskSize data id else least) =
          min least (diskSize data id) := by
        rw [min_def]
        split <;> split <;> linarith
      have hround : minimalSize (id :: ids) (some least) m =
          minimalSize ids (some (if diskSize data id < least then diskSize data id
            else least)) m := by
        simp [minimalSize, amountOf, hsizes]
      rw [hround, hmin, ih]
      rfl

theorem leastMember_run (order : Order) (sheet : Sheet) {m : Marks}
    (hsizes : ∀ p, (m.records (.physical p)).size = .mib (diskSize data p)) (id : Nat) :
    minimalSize (order.visit (sheet.members id)) none m =
      (.ok (leastMember data sheet order id), m) := by
  unfold leastMember
  cases order.visit (sheet.members id) with
  | nil => rfl
  | cons p ps =>
      have hround : minimalSize (p :: ps) none m =
          minimalSize ps (some (diskSize data p)) m := by
        simp [minimalSize, amountOf, hsizes]
      rw [hround, minimalSize_run hsizes, List.map_cons, List.min?_cons']

/-! ## The offers of one disk -/

def offer (data : Data) (order : Order) (sheet : Sheet) (size : ℚ) (id : Nat) :
    Option (Nat × ℚ) :=
  (data.logicals.lookup id).bind fun logical =>
    if compatible logical then
      (leastMember data sheet order id).bind fun least =>
        if least ≤ size then some (id, (sizeRound least : ℚ)) else none
    else none

theorem hotspares_run (order : Order) {m : Marks} {lines ids : List Nat}
    (hsizes : ∀ p, (m.records (.physical p)).size = .mib (diskSize data p))
    (h : Walk data sheet lines ids) {physical : Ref} {size : ℚ}
    (hsize : (m.records physical).size = .mib size) (found : List (Nat × ℚ)) :
    hotspares data order sheet physical lines found m =
      (.ok (found ++ ids.filterMap (offer data order sheet size)), m) := by
  induction lines generalizing ids found with
  | nil =>
      obtain rfl : ids = [] := by simpa [Sheet.cellsIn] using h.cells
      simp [hotspares]
  | cons k lines ih =>
      rcases h.cons with ⟨hcell, hwalk⟩ | ⟨id, logical, rest, rfl, hcell, hlogical, hwalk⟩
      · simp only [hotspares, hcell]
        exact ih hwalk found
      · have hround : hotspares data order sheet physical (k :: lines) found m =
            hotspares data order sheet physical lines
              (found ++ (offer data order sheet size id).toList) m := by
          have hleast := leastMember_run order sheet hsizes id
          simp only [hotspares, hcell, logicalOf, hlogical, offer, Option.bind_some]
          by_cases hlevel : compatible logical = true
          · rw [if_pos hlevel]
            change (if compatible logical = true then _ else _ : Filter _) m = _
            rw [if_pos hlevel, Action.bind_run, hleast]
            cases leastMember data sheet order id with
            | none => simp [amountOf, hsize]
            | some least =>
                by_cases hle : least ≤ size
                · simp [amountOf, hsize, hle]
                · simp [amountOf, hsize, hle]
          · rw [if_neg hlevel]
            change (if compatible logical = true then _ else _ : Filter _) m = _
            rw [if_neg hlevel, Option.toList_none, List.append_nil]
        rw [hround, ih hwalk, List.filterMap_cons]
        cases offer data order sheet size id <;> simp

def Stored (found : List (Nat × ℚ)) (record : Record) : Prop :=
  if found = [] then record.hotspareAvailability = none
  else record.hotspareMinimalSizes = found ∧ ∃ ids,
    record.hotspareAvailability = some ids ∧ ids.Perm (found.map (·.1)) ∧
      ids.Pairwise (· < ·)

structure Steady (found : Ref → List (Nat × ℚ)) (m m' : Marks) : Prop where
  sizes : ∀ ref, (m'.records ref).size = (m.records ref).size
  states : ∀ ref, (m'.records ref).state = (m.records ref).state
  stored : ∀ ref, Stored (found ref) (m.records ref) → Stored (found ref) (m'.records ref)

theorem Steady.refl {found : Ref → List (Nat × ℚ)} {m : Marks} : Steady found m m :=
  ⟨fun _ => rfl, fun _ => rfl, fun _ h => h⟩

theorem Steady.trans {found : Ref → List (Nat × ℚ)} {m m' m'' : Marks}
    (h : Steady found m m') (h' : Steady found m' m'') : Steady found m m'' :=
  ⟨fun ref => (h'.sizes ref).trans (h.sizes ref),
    fun ref => (h'.states ref).trans (h.states ref),
    fun ref hs => h'.stored ref (h.stored ref hs)⟩

theorem Steady.store {m : Marks} (found : Ref → List (Nat × ℚ)) (ref : Ref)
    {f : Record → Record} (hsize : (f (m.records ref)).size = (m.records ref).size)
    (hstate : (f (m.records ref)).state = (m.records ref).state)
    (hstored : Stored (found ref) (f (m.records ref))) :
    Steady found m (m.update ref f) ∧ Stored (found ref) ((m.update ref f).records ref) := by
  have hother : ∀ other, other ≠ ref → (m.update ref f).records other = m.records other :=
    fun other hne => Function.update_of_ne hne _ _
  have hself : (m.update ref f).records ref = f (m.records ref) := Function.update_self _ _ _
  refine ⟨⟨fun other => ?_, fun other => ?_, fun other h => ?_⟩, by rwa [hself]⟩
  · by_cases heq : other = ref
    · rw [heq, hself, hsize]
    · rw [hother other heq]
  · by_cases heq : other = ref
    · rw [heq, hself, hstate]
    · rw [hother other heq]
  · by_cases heq : other = ref
    · rw [heq, hself]
      exact hstored
    · rwa [hother other heq]

def offerTo (data : Data) (order : Order) (sheet : Sheet) (physical : Ref) : Filter Unit := do
  let state ← Action.read fun m : Marks => (m.records physical).state
  onlyIf (state = "free") do
    let found ← hotspares data order sheet physical sheet.lineNumbers []
    if found = [] then
      setField physical fun r => { r with hotspareAvailability := none }
    else do
      let ids ← Action.lift
        (Sort.sort (fun a b => decide (a < b)) (found.map (·.1)))
      setField physical fun r => { r with
        hotspareAvailability := some ids
        hotspareMinimalSizes := found }

theorem offerTo_returns {m : Marks} {ids : List Nat} {found : Ref → List (Nat × ℚ)}
    (hsizes : ∀ p, (m.records (.physical p)).size = .mib (diskSize data p))
    (hwalk : Walk data sheet sheet.lineNumbers ids)
    (hnodup : ∀ ref, ((found ref).map (·.1)).Nodup) {ref : Ref} {size : ℚ}
    (hsize : (m.records ref).size = .mib size)
    (hfound : found ref = ids.filterMap (offer data order sheet size)) :
    Action.Returns (offerTo data order sheet ref) m fun _ m' => Steady found m m' ∧
      ((m.records ref).state = "free" → Stored (found ref) (m'.records ref)) := by
  refine Action.Returns.read_bind ?_
  unfold onlyIf
  split
  · have hrun := hotspares_run order hsizes hwalk hsize []
    rw [List.nil_append, ← hfound] at hrun
    refine Action.Returns.bind (P := fun value m' => value = found ref ∧ m' = m)
      ⟨_, _, hrun, rfl, rfl⟩ ?_
    rintro _ _ ⟨rfl, rfl⟩
    by_cases hnone : found ref = []
    · rw [if_pos hnone]
      obtain ⟨hsteady, hstored⟩ := Steady.store found ref
        (f := fun r => { r with hotspareAvailability := none }) rfl rfl (by simp [Stored, hnone])
      exact Action.Returns.modify ⟨hsteady, fun _ => hstored⟩
    · rw [if_neg hnone]
      obtain ⟨sorted, hsort, hperm, hincreasing⟩ := sort_increasing (hnodup ref)
      refine Action.Returns.lift_bind hsort ?_
      obtain ⟨hsteady, hstored⟩ := Steady.store found ref
        (f := fun r => { r with
          hotspareAvailability := some sorted
          hotspareMinimalSizes := found ref }) rfl rfl
        (by rw [Stored, if_neg hnone]; exact ⟨rfl, sorted, rfl, hperm, hincreasing⟩)
      exact Action.Returns.modify ⟨hsteady, fun _ => hstored⟩
  · rename_i hother
    exact Action.Returns.pure ⟨Steady.refl, fun hfree => absurd (decide_eq_true hfree) hother⟩

private theorem offersTo_returns {m : Marks} {ids : List Nat}
    {found : Ref → List (Nat × ℚ)} {size : Ref → ℚ}
    (hsize : ∀ ref, (m.records ref).size = .mib (size ref))
    (hdisks : ∀ p, size (.physical p) = diskSize data p)
    (hwalk : Walk data sheet sheet.lineNumbers ids)
    (hnodup : ∀ ref, ((found ref).map (·.1)).Nodup)
    (hfound : ∀ ref, found ref = ids.filterMap (offer data order sheet (size ref)))
    (refs : List Ref) :
    Action.Returns (Action.forEach refs (offerTo data order sheet)) m fun _ m' =>
      Steady found m m' ∧
        ∀ ref ∈ refs, (m.records ref).state = "free" → Stored (found ref) (m'.records ref) := by
  induction refs generalizing m with
  | nil => exact Action.Returns.pure ⟨Steady.refl, by simp⟩
  | cons ref refs ih =>
      have hsizes (p : PhysicalId) :
          (m.records (.physical p)).size = .mib (diskSize data p) := by
        rw [hsize, hdisks]
      refine (offerTo_returns hsizes hwalk hnodup (hsize ref) (hfound ref)).bind ?_
      rintro _ m₁ ⟨hsteady₁, hstored₁⟩
      have hsize₁ (other : Ref) : (m₁.records other).size = .mib (size other) := by
        rw [hsteady₁.sizes, hsize]
      refine (ih hsize₁).mono ?_
      rintro _ m₂ ⟨hsteady₂, hstored₂⟩
      refine ⟨hsteady₁.trans hsteady₂, ?_⟩
      intro other hother hfree
      rcases List.mem_cons.mp hother with rfl | hin
      · exact hsteady₂.stored other (hstored₁ hfree)
      · exact hstored₂ other hin ((hsteady₁.states other).trans hfree)

theorem offer_fst {size : ℚ} {id : Nat} {entry : Nat × ℚ}
    (h : offer data order sheet size id = some entry) : entry.1 = id := by
  unfold offer at h
  obtain ⟨logical, _, h⟩ := Option.bind_eq_some_iff.mp h
  split at h
  · obtain ⟨least, _, h⟩ := Option.bind_eq_some_iff.mp h
    split at h
    · rw [← Option.some.inj h]
    · cases h
  · cases h

theorem offer_eq_some {size : ℚ} {id : Nat} {entry : Nat × ℚ} :
    offer data order sheet size id = some entry ↔
      ∃ logical least, data.logicals.lookup id = some logical ∧ compatible logical = true ∧
        leastMember data sheet order id = some least ∧ least ≤ size ∧
        entry = (id, (sizeRound least : ℚ)) := by
  simp only [offer, Option.bind_eq_some_iff]
  constructor
  · rintro ⟨logical, hlogical, h⟩
    split at h
    · rename_i hlevel
      obtain ⟨least, hleast, h⟩ := Option.bind_eq_some_iff.mp h
      split at h
      · rename_i hle
        exact ⟨logical, least, hlogical, hlevel, hleast, hle, (Option.some.inj h).symm⟩
      · cases h
    · cases h
  · rintro ⟨logical, least, hlogical, hlevel, hleast, hle, rfl⟩
    exact ⟨logical, hlogical, by simp [hlevel, hleast, hle]⟩

theorem offers_sublist (size : ℚ) (ids : List Nat) :
    ((ids.filterMap (offer data order sheet size)).map (·.1)).Sublist ids := by
  induction ids with
  | nil => simp
  | cons id ids ih =>
      cases hoffer : offer data order sheet size id with
      | none =>
          rw [List.filterMap_cons_none hoffer]
          exact ih.cons id
      | some entry =>
          rw [List.filterMap_cons_some hoffer, List.map_cons, offer_fst hoffer]
          exact ih.cons_cons id

theorem lookup_offers (size : ℚ) (id : Nat) (ids : List Nat) :
    (ids.filterMap (offer data order sheet size)).lookup id =
      if id ∈ ids then (offer data order sheet size id).map (·.2) else none := by
  induction ids with
  | nil => rfl
  | cons other ids ih =>
      by_cases heq : id = other
      · subst heq
        cases hoffer : offer data order sheet size id with
        | none => simp [List.filterMap_cons_none hoffer, ih, hoffer]
        | some entry =>
            obtain ⟨key, value⟩ := entry
            obtain rfl : key = id := offer_fst hoffer
            simp [List.filterMap_cons_some hoffer]
      · cases hoffer : offer data order sheet size other with
        | none => simp [List.filterMap_cons_none hoffer, ih, heq]
        | some entry =>
            obtain ⟨key, value⟩ := entry
            obtain rfl : key = other := offer_fst hoffer
            have hne : (id == key) = false := by simpa using heq
            simp [List.filterMap_cons_some hoffer, List.lookup_cons, hne, ih, heq]

/-! ## Sizes that are not of present members -/

/-- The other sizes in the tables of the members, 0 for a missing member and that
of the cache disk, make no difference to a disk of this size. -/
def Decisive (data : Data) (sheet : Sheet) (size : ℚ) : Prop :=
  ∀ id logical, data.logicals.lookup id = some logical → compatible logical = true →
    ∀ p ∈ sheet.members id, p ∉ presentDisks data logical → diskSize data p ≤ size →
      ∃ q ∈ presentDisks data logical, diskSize data q ≤ diskSize data p

section Decisive

variable (h : Scanned data sheet) {id : Nat} {logical : Logical}
  (hlogical : data.logicals.lookup id = some logical)

include h hlogical in
theorem present_member {p : PhysicalId} (hp : p ∈ presentDisks data logical) :
    p ∈ sheet.members id := by
  obtain ⟨physicals, _, hmembers⟩ := h.members id logical hlogical
  simp only [presentDisks, List.mem_filter, decide_eq_true_eq] at hp
  obtain ⟨hkey, _, hcache⟩ := hp
  rw [hmembers, cachedMembers]
  split
  · exact hkey
  · rename_i cache hcachedBy
    split
    · exact List.mem_insert_of_mem hkey
    · refine (List.mem_erase_of_ne ?_).mpr hkey
      rintro rfl
      exact hcache hcachedBy

include h hlogical in
theorem smallest_leastMember_iff (order : Order) (size : ℚ) :
    (∀ p ∈ sheet.members id, p ∉ presentDisks data logical → diskSize data p ≤ size →
        ∃ q ∈ presentDisks data logical, diskSize data q ≤ diskSize data p) ↔
      ∀ least, leastMember data sheet order id = some least → least ≤ size →
        Smallest data logical least := by
  constructor
  · intro hextra least hleast hle
    obtain ⟨⟨p, hp, rfl⟩, hmin⟩ := leastMember_eq_some.mp hleast
    have hbelow : ∀ q ∈ presentDisks data logical, diskSize data p ≤ diskSize data q :=
      fun q hq => hmin q (present_member h hlogical hq)
    refine ⟨?_, hbelow⟩
    by_cases hpresent : p ∈ presentDisks data logical
    · exact ⟨p, hpresent, rfl⟩
    · obtain ⟨q, hq, hqp⟩ := hextra p hp hpresent hle
      exact ⟨q, hq, le_antisymm hqp (hbelow q hq)⟩
  · intro hsmallest p hp _ hle
    obtain ⟨least, hleast⟩ : ∃ least, leastMember data sheet order id = some least := by
      rw [← Option.isSome_iff_exists, leastMember, List.isSome_min?_iff]
      simpa using List.ne_nil_of_mem ((order.mem_visit).mpr hp)
    have hmin := (leastMember_eq_some.mp hleast).2 p hp
    obtain ⟨⟨q, hq, rfl⟩, _⟩ := hsmallest least hleast (hmin.trans hle)
    exact ⟨q, hq, hmin⟩

end Decisive

theorem Smallest.unique {logical : Logical} {least least' : ℚ}
    (h : Smallest data logical least) (h' : Smallest data logical least') : least = least' := by
  obtain ⟨⟨p, hp, rfl⟩, hmin⟩ := h
  obtain ⟨⟨q, hq, rfl⟩, hmin'⟩ := h'
  exact le_antisymm (hmin q hq) (hmin' p hp)

theorem sizeRound_intCast (n : Int) : sizeRound (n : ℚ) = n := by
  simp [sizeRound]

/-- `Physical.list` rounds sizes down to whole MiB. -/
def WholeSizes (data : Data) : Prop :=
  ∀ p disk, data.physicals.lookup p = some disk → ∃ n : Int, disk.size = n

theorem WholeSizes.sizeRound_diskSize (h : WholeSizes data) (p : PhysicalId) :
    (sizeRound (diskSize data p) : ℚ) = diskSize data p := by
  have hint : ∃ n : Int, diskSize data p = n := by
    unfold diskSize
    split
    · rename_i disk hdisk
      exact h p disk hdisk
    · exact ⟨0, by simp⟩
  obtain ⟨n, hn⟩ := hint
  rw [hn, sizeRound_intCast]

def Taken (data : Data) (order : Order) (sheet : Sheet) (size : ℚ) (id : Nat) : Prop :=
  ∃ logical least, data.logicals.lookup id = some logical ∧ compatible logical = true ∧
    leastMember data sheet order id = some least ∧ least ≤ size

section Offers

variable {ids : List Nat} {size : ℚ} {record : Record}

theorem mem_offers (hids : ids.Perm data.logicals.keys) (id : Nat) :
    id ∈ (ids.filterMap (offer data order sheet size)).map (·.1) ↔
      Taken data order sheet size id := by
  constructor
  · intro h
    obtain ⟨entry, hentry, rfl⟩ := List.mem_map.mp h
    obtain ⟨id, _, hoffer⟩ := List.mem_filterMap.mp hentry
    obtain ⟨logical, least, hlogical, hlevel, hleast, hle, rfl⟩ := offer_eq_some.mp hoffer
    exact ⟨logical, least, hlogical, hlevel, hleast, hle⟩
  · rintro ⟨logical, least, hlogical, hlevel, hleast, hle⟩
    have hid : id ∈ ids := hids.mem_iff.mpr
      (AList.mem_keys.mp (AList.lookup_isSome.mp (by rw [hlogical]; rfl)))
    refine List.mem_map.mpr ⟨(id, (sizeRound least : ℚ)), List.mem_filterMap.mpr
      ⟨id, hid, offer_eq_some.mpr ⟨logical, least, hlogical, hlevel, hleast, hle, rfl⟩⟩, rfl⟩

theorem lookup_taken (hwhole : WholeSizes data) (hids : ids.Perm data.logicals.keys)
    {id : Nat} {logical : Logical} {least : ℚ}
    (hlogical : data.logicals.lookup id = some logical) (hlevel : compatible logical = true)
    (hleast : leastMember data sheet order id = some least) (hle : least ≤ size) :
    (ids.filterMap (offer data order sheet size)).lookup id = some least := by
  have hid : id ∈ ids := hids.mem_iff.mpr
    (AList.mem_keys.mp (AList.lookup_isSome.mp (by rw [hlogical]; rfl)))
  obtain ⟨⟨p, _, rfl⟩, _⟩ := leastMember_eq_some.mp hleast
  rw [lookup_offers, if_pos hid,
    offer_eq_some.mpr ⟨logical, _, hlogical, hlevel, hleast, hle, rfl⟩, Option.map_some,
    hwhole.sizeRound_diskSize]

theorem Stored.offers (hwhole : WholeSizes data) (hids : ids.Perm data.logicals.keys)
    (hstored : Stored (ids.filterMap (offer data order sheet size)) record) :
    record.hotspareAvailability = none ∧ (∀ id, ¬ Taken data order sheet size id) ∨
      ∃ sorted, record.hotspareAvailability = some sorted ∧ sorted ≠ [] ∧
        sorted.Pairwise (· < ·) ∧ (∀ id, id ∈ sorted ↔ Taken data order sheet size id) ∧
        ∀ id logical least, data.logicals.lookup id = some logical →
          compatible logical = true → leastMember data sheet order id = some least →
          least ≤ size → record.hotspareMinimalSizes.lookup id = some least := by
  unfold Stored at hstored
  split at hstored
  · rename_i hnone
    refine .inl ⟨hstored, fun id htaken => ?_⟩
    have hin := (mem_offers hids id).mpr htaken
    simp [hnone] at hin
  · rename_i hsome
    obtain ⟨hsizes, sorted, havailable, hperm, hincreasing⟩ := hstored
    refine .inr ⟨sorted, havailable, fun hnil => hsome ?_, hincreasing, fun id => ?_, ?_⟩
    · rw [hnil] at hperm
      exact List.map_eq_nil_iff.mp hperm.nil_eq.symm
    · rw [hperm.mem_iff, mem_offers hids]
    · intro id logical least hlogical hlevel hleast hle
      rw [hsizes]
      exact lookup_taken hwhole hids hlogical hlevel hleast hle

theorem Fits.taken (h : Scanned data sheet) (order : Order) {id : Nat}
    (hfits : Fits data size id) : Taken data order sheet size id := by
  obtain ⟨logical, least, hlogical, hlevel, ⟨⟨p, hp, rfl⟩, _⟩, hle⟩ := hfits
  have hmember : p ∈ sheet.members id := present_member h hlogical hp
  obtain ⟨least', hleast⟩ : ∃ least, leastMember data sheet order id = some least := by
    rw [← Option.isSome_iff_exists, leastMember, List.isSome_min?_iff]
    simpa using List.ne_nil_of_mem ((order.mem_visit).mpr hmember)
  exact ⟨logical, least', hlogical, hlevel, hleast,
    ((leastMember_eq_some.mp hleast).2 p hmember).trans hle⟩

theorem offered_iff (h : Scanned data sheet) (hwhole : WholeSizes data)
    (hids : ids.Perm data.logicals.keys)
    (hstored : Stored (ids.filterMap (offer data order sheet size)) record) :
    Offered data size record ↔ Decisive data sheet size := by
  have hdecisive : Decisive data sheet size ↔ ∀ id logical,
      data.logicals.lookup id = some logical → compatible logical = true →
      ∀ least, leastMember data sheet order id = some least → least ≤ size →
        Smallest data logical least :=
    forall₂_congr fun id logical => forall₂_congr fun hlogical _ =>
      smallest_leastMember_iff h hlogical order size
  rw [hdecisive, Offered]
  rcases hstored.offers hwhole hids with ⟨havailable, hnone⟩ |
    ⟨sorted, havailable, hne, hincreasing, hmem, hsizes⟩
  · rw [havailable]
    refine iff_of_true (fun id hfits => hnone id (hfits.taken h order)) ?_
    intro id logical hlogical hlevel least hleast hle
    exact absurd ⟨logical, least, hlogical, hlevel, hleast, hle⟩ (hnone id)
  · rw [havailable]
    constructor
    · rintro ⟨_, _, _, hrecorded⟩ id logical hlogical hlevel least hleast hle
      have hid : id ∈ sorted := (hmem id).mpr ⟨logical, least, hlogical, hlevel, hleast, hle⟩
      exact (hrecorded id hid logical hlogical least).mp
        (hsizes id logical least hlogical hlevel hleast hle)
    · intro hsmallest
      refine ⟨hne, hincreasing, fun id => ?_, fun id hid logical hlogical least => ?_⟩
      · rw [hmem]
        constructor
        · rintro ⟨logical, least, hlogical, hlevel, hleast, hle⟩
          exact ⟨logical, least, hlogical, hlevel,
            hsmallest id logical hlogical hlevel least hleast hle, hle⟩
        · exact fun hfits => hfits.taken h order
      · obtain ⟨logical', least', hlogical', hlevel, hleast, hle⟩ := (hmem id).mp hid
        rw [hlogical] at hlogical'
        obtain rfl := Option.some.inj hlogical'
        have hleast' := hsmallest id logical hlogical hlevel least' hleast hle
        rw [hsizes id logical least' hlogical hlevel hleast hle, Option.some.injEq]
        exact ⟨fun heq => heq ▸ hleast', fun hother => hleast'.unique hother⟩

end Offers

theorem record_size (data : Data) (ref : Ref) : ∃ size, (data.record ref).size = .mib size := by
  cases ref <;> simp only [Data.record] <;> first | exact ⟨_, rfl⟩ | (split <;> exact ⟨_, rfl⟩)

theorem record_diskSize (data : Data) (p : PhysicalId) :
    (data.record (.physical p)).size = .mib (diskSize data p) := by
  simp only [Data.record, diskSize]
  cases data.physicals.lookup p <;> rfl

def HotsparesOffered (data : Data) (sheet : Sheet) (marks : Marks) : Prop :=
  ∀ ref size, FreeCell sheet ref size → Offered data size (marks.records ref)

/-- Whether one free disk is offered as it should be depends on its size only. -/
theorem filterCalculateHotspares_offers
    (h : overall data order data.initial = (.ok (), sheet)) (hwhole : WholeSizes data) :
    ∃ marks, filterCalculateHotspares data order sheet ⟨sheet.records, ∅⟩ =
        (.ok (), marks) ∧
      ∀ ref size, FreeCell sheet ref size →
        (Offered data size (marks.records ref) ↔ Decisive data sheet size) := by
  have hscanned := overall_scanned h
  obtain ⟨ids, hincreasing, hids, hwalk⟩ := hscanned.walk
  choose size hrecord using record_size data
  have hsize (ref : Ref) : (sheet.records ref).size = .mib (size ref) := by
    rw [hscanned.sizes, hrecord]
  have hdisks (p : PhysicalId) : size (.physical p) = diskSize data p := by
    have heq := (hrecord (.physical p)).symm.trans (record_diskSize data p)
    exact Amount.mib.inj heq
  have hnodup (ref : Ref) :
      ((ids.filterMap (offer data order sheet (size ref))).map (·.1)).Nodup :=
    (hincreasing.imp fun hlt => ne_of_lt hlt).sublist (offers_sublist (size ref) ids)
  obtain ⟨_, marks, hrun, _, hstored⟩ := offersTo_returns (m := ⟨sheet.records, ∅⟩) hsize
    hdisks hwalk hnodup (fun _ => rfl) (sheet.cellsIn .physical sheet.lineNumbers)
  refine ⟨marks, ?_, ?_⟩
  · rw [← hrun, ← forEach_onCell]
    rfl
  · rintro ref amount ⟨hin, hstate, hamount⟩
    obtain rfl : size ref = amount := Amount.mib.inj ((hsize ref).symm.trans hamount)
    exact offered_iff hscanned hwhole hids (hstored ref hin hstate)

/-- The offers are right if and only if what is in the tables of the members
besides the present members makes no difference to any free disk. -/
theorem hotsparesOffered_iff (h : overall data order data.initial = (.ok (), sheet))
    (hwhole : WholeSizes data) :
    ∃ marks, filterCalculateHotspares data order sheet ⟨sheet.records, ∅⟩ =
        (.ok (), marks) ∧
      (HotsparesOffered data sheet marks ↔
        ∀ ref size, FreeCell sheet ref size → Decisive data sheet size) := by
  obtain ⟨marks, hrun, hoffers⟩ := filterCalculateHotspares_offers h hwhole
  exact ⟨marks, hrun, forall₂_congr fun ref size => forall_congr' (hoffers ref size)⟩

/-! ## Samples -/

def mirrorOf (members : List PhysicalId) : Logical where
  physicals := members.foldl (fun table id => table.insert id "0") ∅
  cachedBy := none
  volumes := ∅
  volumeGroup := none
  level := some "1"
  state := "normal"
  capacity := 900

def mirrored (members : List PhysicalId) (spare : ℚ) : Data where
  physicals := (((∅ : Table PhysicalId Disk).insert ⟨0, 2⟩ ⟨"0", 1000⟩).insert ⟨0, 3⟩
    ⟨"0", 900⟩).insert ⟨0, 4⟩ ⟨"free", spare⟩
  logicals := (∅ : Table Nat Logical).insert 0 (mirrorOf members)
  accessPatterns := []
  sessions := ∅

def mirroredSheet (members : List PhysicalId) (spare : ℚ) : Sheet :=
  (overall (mirrored members spare) Order.plain (mirrored members spare).initial).2

private theorem overall_wholeMirror :
    overall (mirrored [⟨0, 2⟩, ⟨0, 3⟩] 950) Order.plain
        (mirrored [⟨0, 2⟩, ⟨0, 3⟩] 950).initial =
      (.ok (), mirroredSheet [⟨0, 2⟩, ⟨0, 3⟩] 950) :=
  Prod.ext (by with_unfolding_all rfl) rfl

private theorem overall_degradedMirror :
    overall (mirrored [⟨0, 2⟩, ⟨0, 3⟩, ⟨99, 3⟩] 10) Order.plain
        (mirrored [⟨0, 2⟩, ⟨0, 3⟩, ⟨99, 3⟩] 10).initial =
      (.ok (), mirroredSheet [⟨0, 2⟩, ⟨0, 3⟩, ⟨99, 3⟩] 10) :=
  Prod.ext (by with_unfolding_all rfl) rfl

private theorem mirrored_wholeSizes {members : List PhysicalId} {spare : ℚ} (n : Int)
    (h : spare = n) : WholeSizes (mirrored members spare) := by
  intro p disk hdisk
  have hentries : (mirrored members spare).physicals.entries =
      [⟨⟨0, 4⟩, "free", spare⟩, ⟨⟨0, 3⟩, "0", 900⟩, ⟨⟨0, 2⟩, "0", 1000⟩] := rfl
  have hin := AList.mem_lookup_iff.mp hdisk
  rw [hentries] at hin
  simp at hin
  rcases hin with ⟨_, rfl⟩ | ⟨_, rfl⟩ | ⟨_, rfl⟩
  · exact ⟨n, h⟩
  · exact ⟨900, by norm_num⟩
  · exact ⟨1000, by norm_num⟩

private theorem eq_of_lookup_mirrored {members : List PhysicalId} {spare : ℚ} {id : Nat}
    {logical : Logical} (h : (mirrored members spare).logicals.lookup id = some logical) :
    id = 0 ∧ logical = mirrorOf members := by
  have hin := AList.mem_lookup_iff.mp h
  have hentries : (mirrored members spare).logicals.entries = [⟨0, mirrorOf members⟩] := rfl
  rw [hentries, List.mem_singleton] at hin
  cases hin
  exact ⟨rfl, rfl⟩

theorem wholeMirror_offered : ∃ marks,
    filterCalculateHotspares (mirrored [⟨0, 2⟩, ⟨0, 3⟩] 950) Order.plain
        (mirroredSheet [⟨0, 2⟩, ⟨0, 3⟩] 950)
        ⟨(mirroredSheet [⟨0, 2⟩, ⟨0, 3⟩] 950).records, ∅⟩ = (.ok (), marks) ∧
      HotsparesOffered (mirrored [⟨0, 2⟩, ⟨0, 3⟩] 950)
        (mirroredSheet [⟨0, 2⟩, ⟨0, 3⟩] 950) marks := by
  obtain ⟨marks, hrun, hiff⟩ :=
    hotsparesOffered_iff overall_wholeMirror (mirrored_wholeSizes 950 (by norm_num))
  refine ⟨marks, hrun, hiff.mpr ?_⟩
  intro ref size _ id logical hlogical _ p hp hother
  obtain ⟨rfl, rfl⟩ := eq_of_lookup_mirrored hlogical
  have hmembers : (mirroredSheet [⟨0, 2⟩, ⟨0, 3⟩] 950).members 0 = [⟨0, 3⟩, ⟨0, 2⟩] := by
    with_unfolding_all rfl
  have hpresent : presentDisks (mirrored [⟨0, 2⟩, ⟨0, 3⟩] 950)
      (mirrorOf [⟨0, 2⟩, ⟨0, 3⟩]) = [⟨0, 3⟩, ⟨0, 2⟩] := by decide
  rw [hmembers] at hp
  rw [hpresent] at hother
  exact absurd hp hother

/-- A disk of 10 MiB is offered to a mirror of disks of 900 MiB and more. -/
theorem degradedMirror_not_offered : ∃ marks,
    filterCalculateHotspares (mirrored [⟨0, 2⟩, ⟨0, 3⟩, ⟨99, 3⟩] 10) Order.plain
        (mirroredSheet [⟨0, 2⟩, ⟨0, 3⟩, ⟨99, 3⟩] 10)
        ⟨(mirroredSheet [⟨0, 2⟩, ⟨0, 3⟩, ⟨99, 3⟩] 10).records, ∅⟩ = (.ok (), marks) ∧
      ¬ HotsparesOffered (mirrored [⟨0, 2⟩, ⟨0, 3⟩, ⟨99, 3⟩] 10)
        (mirroredSheet [⟨0, 2⟩, ⟨0, 3⟩, ⟨99, 3⟩] 10) marks := by
  obtain ⟨marks, hrun, hoffers⟩ :=
    filterCalculateHotspares_offers overall_degradedMirror (mirrored_wholeSizes 10 (by norm_num))
  refine ⟨marks, hrun, fun hoffered => ?_⟩
  have hcell : (mirroredSheet [⟨0, 2⟩, ⟨0, 3⟩, ⟨99, 3⟩] 10).cell .physical 4 =
      some (.free ⟨0, 4⟩) := by with_unfolding_all rfl
  have hlines : (mirroredSheet [⟨0, 2⟩, ⟨0, 3⟩, ⟨99, 3⟩] 10).lineNumbers = [1, 2, 3, 4] := by
    with_unfolding_all rfl
  have hfree : FreeCell (mirroredSheet [⟨0, 2⟩, ⟨0, 3⟩, ⟨99, 3⟩] 10) (.free ⟨0, 4⟩) 10 :=
    ⟨mem_cellsIn.mpr ⟨4, by simp [hlines], hcell⟩, by with_unfolding_all rfl,
      by with_unfolding_all rfl⟩
  have hmissing : (⟨99, 3⟩ : PhysicalId) ∈
      (mirroredSheet [⟨0, 2⟩, ⟨0, 3⟩, ⟨99, 3⟩] 10).members 0 := by with_unfolding_all decide
  obtain ⟨q, hq, hle⟩ := (hoffers _ _ hfree).mp (hoffered _ _ hfree) 0 _ rfl (by decide) _
    hmissing (by decide) (by decide)
  have hpresent : presentDisks (mirrored [⟨0, 2⟩, ⟨0, 3⟩, ⟨99, 3⟩] 10)
      (mirrorOf [⟨0, 2⟩, ⟨0, 3⟩, ⟨99, 3⟩]) = [⟨0, 3⟩, ⟨0, 2⟩] := by decide
  rw [hpresent] at hq
  simp at hq
  rcases hq with rfl | rfl <;> revert hle <;> decide

end OpenSan.Matrix
