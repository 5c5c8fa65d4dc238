import OpenSan.Einarc.Devices
import OpenSan.Foundation.Numeration

/-!
# Absent members

`Logical:physical_list` tests whether a slave is a listed device and then
uses the device all the same.  The calls at the start of the page therefore
return only if every slave of every array is a listed disk.
-/

namespace OpenSan.Einarc

open OpenSan.Foundation OpenSan.Common

/-! ## Identifiers of disks -/

private theorem letter_toNat (letter : Fin 26) :
    (Char.ofNat (97 + letter.val)).toNat = 97 + letter.val := by
  revert letter
  decide

private theorem scsiSum_letters (letters : List (Fin 26)) :
    scsiSum (letters.map fun letter => Char.ofNat (97 + letter.val)) =
      Numeration.value letters.reverse := by
  induction letters with
  | nil => rfl
  | cons letter letters ih =>
      rw [List.map_cons, scsiSum, ih, letter_toNat, List.reverse_cons, Numeration.value_concat]
      push_cast
      omega

theorem scsiSum_root (name : DiskName) :
    scsiSum name.root.reverse = Numeration.value name.letters := by
  rw [DiskName.root, ← List.map_reverse, scsiSum_letters, List.reverse_reverse]

theorem scsiSum_pos (name : DiskName) : 0 < scsiSum name.root.reverse := by
  rw [scsiSum_root]
  exact_mod_cast Numeration.value_pos name.nonempty

theorem DiskName.id_injective {name name' : DiskName} (h : name.id = name'.id) :
    name = name' := by
  have hsum : Numeration.value name.letters = Numeration.value name'.letters := by
    have hright := congrArg PhysicalId.right h
    simpa [DiskName.id, scsiSum_root] using hright
  have hletters := Numeration.value_injective hsum
  cases name
  cases name'
  simpa using hletters

/-! ## The list of the members -/

section PhysicalList

variable {listed : BlockName → Bool} {id : Nat} {slaves : List Slave}
  {raidDisks : Option Nat}

def AllListed (listed : BlockName → Bool) (slaves : List Slave) : Prop :=
  ∀ slave ∈ slaves, listed slave.name = true ∧ ∃ name, slave.name = .disk name

private theorem slaves_ok (h : AllListed listed slaves) :
    ∃ physicals, slaves.foldlM (attachSlave listed id) ∅ = .ok physicals ∧
      ∀ p, p ∈ physicals.keys ↔
        ∃ slave ∈ slaves, ∃ name, slave.name = .disk name ∧ p = name.id := by
  refine foldlM_ok (fun (done : List Slave) (table : Table PhysicalId String) => ∀ p,
    p ∈ table.keys ↔
      ∃ slave ∈ done, ∃ name, slave.name = .disk name ∧ p = name.id) (by simp) ?_
  intro done slave table hslave htable
  obtain ⟨hlisted, name, hname⟩ := h slave hslave
  refine ⟨table.insert name.id (slaveState listed id slave), ?_, fun p => ?_⟩
  · unfold attachSlave
    rw [if_pos hlisted, hname]
    rfl
  · rw [← AList.mem_keys, AList.mem_insert, AList.mem_keys, htable]
    constructor
    · rintro (rfl | ⟨other, hother, hp⟩)
      · exact ⟨slave, by simp, name, hname, rfl⟩
      · exact ⟨other, by simp [hother], hp⟩
    · rintro ⟨other, hother, name', hname', rfl⟩
      rcases List.mem_append.mp hother with hin | hin
      · exact .inr ⟨other, hin, name', hname', rfl⟩
      · obtain rfl : other = slave := by simpa using hin
        rw [hname] at hname'
        cases hname'
        exact .inl rfl

theorem physicalList_ok (h : AllListed listed slaves) :
    ∃ physicals, physicalList listed id slaves raidDisks = .ok physicals ∧
      ∀ p, p ∈ physicals.keys ↔
        (∃ slave ∈ slaves, ∃ name, slave.name = .disk name ∧ p = name.id) ∨
          ∃ i ∈ missingSlots slaves raidDisks, p = ⟨99, i⟩ := by
  obtain ⟨physicals, hrun, hkeys⟩ := slaves_ok h
  refine ⟨_, by rw [physicalList, hrun]; rfl, fun p => ?_⟩
  have hslots := mem_keys_foldl_insert ((missingSlots slaves raidDisks).map fun i =>
    ((⟨99, i⟩ : PhysicalId), "failed")) physicals p
  rw [List.foldl_map] at hslots
  rw [hslots, hkeys, List.map_map, List.mem_map]
  simp only [Function.comp_apply, eq_comm]

theorem listed_of_physicalList {physicals : Table PhysicalId String}
    (h : physicalList listed id slaves raidDisks = .ok physicals) :
    ∀ slave ∈ slaves, listed slave.name = true ∧ ∃ drive, physToScsi slave.name = .ok drive := by
  intro slave hslave
  obtain ⟨table, hrun, _⟩ := bind_eq_ok.mp h
  obtain ⟨value, next, hround⟩ := foldlM_eq_ok hrun slave hslave
  obtain ⟨name, hname, hround⟩ := bind_eq_ok.mp hround
  have hsome := nonNil_eq_ok hname
  by_cases hlisted : listed slave.name = true
  · rw [if_pos hlisted] at hsome
    obtain ⟨drive, hdrive, _⟩ := bind_eq_ok.mp hround
    exact ⟨hlisted, drive, by rw [Option.some.inj hsome]; exact hdrive⟩
  · rw [if_neg hlisted] at hsome
    cases hsome

end PhysicalList

/-! ## The attributes of an array -/

/-- `M.Logical.list` finds a state and, unless the array has failed, a level. -/
def MdArray.Readable (array : MdArray) : Prop :=
  (array.level ≠ none ∧ (array.mappedState ≠ none ∨ array.degraded = some "1")) ∨
    (array.mappedState = some "failed" ∧ array.degraded ≠ some "1")

theorem MdArray.finalState_eq_none (array : MdArray) :
    array.finalState = none ↔ array.mappedState = none ∧ array.degraded ≠ some "1" := by
  unfold MdArray.finalState
  by_cases hdegraded : array.degraded = some "1"
  · simp only [if_pos hdegraded]
    split <;> [split; skip] <;> simp [hdegraded]
  · simp only [if_neg hdegraded]
    split <;> [split; skip] <;> aesop

theorem MdArray.finalState_eq_failed (array : MdArray) :
    array.finalState = some "failed" ↔
      array.mappedState = some "failed" ∧ array.degraded ≠ some "1" := by
  unfold MdArray.finalState
  by_cases hdegraded : array.degraded = some "1"
  · simp only [if_pos hdegraded]
    split <;> [split; skip] <;> simp [hdegraded]
  · simp only [if_neg hdegraded]
    split <;> [split; skip] <;> aesop

namespace Sysfs

variable {sysfs : Sysfs} {order : Order} {array : MdArray}

theorem logical_eq_ok {logical : LogicalDisk} (h : sysfs.logical array = .ok logical) :
    array.Readable ∧ logical.id = array.id ∧ logical.slaves = array.slaves ∧
      logical.raidDisks = array.raidDisks ∧
      ∀ drive ∈ logical.drives, ∃ slave ∈ array.slaves,
        physToScsi slave.name = .ok drive := by
  obtain ⟨level, hlevel, h⟩ := bind_eq_ok.mp h
  obtain ⟨drives, hdrives, h⟩ := bind_eq_ok.mp h
  cases hstate : array.finalState with
  | none =>
      rw [hstate] at h
      cases h
  | some state =>
      rw [hstate] at h
      simp only at h
      split at h
      · cases h
      rename_i hlevels
      obtain rfl := Except.ok.inj h
      refine ⟨?_, rfl, rfl, rfl, (mapM_eq_ok hdrives).2⟩
      by_cases hfailed : state = "failed"
      · subst hfailed
        exact .inr (array.finalState_eq_failed.mp hstate)
      · have hsome : ¬ (array.mappedState = none ∧ array.degraded ≠ some "1") := by
          rw [← array.finalState_eq_none, hstate]
          simp
        refine .inl ⟨?_, by tauto⟩
        rintro hnone
        unfold MdArray.finalLevel at hlevel
        split at hlevel
        · rw [hnone] at hlevel
          cases hlevel
        · obtain rfl := Except.ok.inj hlevel
          exact hlevels ⟨hfailed, hnone⟩

theorem logical_ok (hreadable : array.Readable)
    (hdrives : ∀ slave ∈ array.slaves, ∃ drive, physToScsi slave.name = .ok drive) :
    ∃ logical, sysfs.logical array = .ok logical := by
  obtain ⟨drives, hrun⟩ : ∃ drives,
      array.slaves.mapM (fun slave => physToScsi slave.name) = .ok drives :=
    mapM_ok hdrives
  have hlevel : ∃ level, array.finalLevel = .ok level ∧
      (array.finalState ≠ some "failed" → level ≠ none) := by
    unfold MdArray.finalLevel
    by_cases hmapped : array.mappedState = some "failed"
    · rw [if_neg (by simpa using hmapped)]
      refine ⟨array.level, rfl, fun hstate => ?_⟩
      rcases hreadable with ⟨hsome, _⟩ | ⟨hfailed, hdegraded⟩
      · exact hsome
      · exact absurd (array.finalState_eq_failed.mpr ⟨hfailed, hdegraded⟩) hstate
    · rw [if_pos hmapped]
      rcases hreadable with ⟨hsome, _⟩ | ⟨hfailed, _⟩
      · obtain ⟨text, htext⟩ := Option.ne_none_iff_exists'.mp hsome
        exact ⟨_, by rw [htext]; rfl, by simp⟩
      · exact absurd hfailed hmapped
  obtain ⟨level, hlevel, hsome⟩ := hlevel
  obtain ⟨state, hstate⟩ : ∃ state, array.finalState = some state := by
    rw [← Option.ne_none_iff_exists', ne_eq, array.finalState_eq_none]
    rcases hreadable with ⟨_, hknown⟩ | ⟨hfailed, _⟩
    · tauto
    · rw [hfailed]
      simp
  unfold logical
  rw [hlevel, hrun]
  simp only [ok_bind, hstate]
  rw [if_neg]
  · exact ⟨_, rfl⟩
  · rintro ⟨hfailed, hnone⟩
    refine hsome ?_ hnone
    rw [hstate]
    simpa using hfailed

/-! ## The lists of arrays and disks -/

def SlavesListed (sysfs : Sysfs) : Prop :=
  ∀ array ∈ sysfs.listedArrays, AllListed sysfs.listed array.slaves

def MembersListed (sysfs : Sysfs) : Prop :=
  ∀ array ∈ sysfs.listedArrays, ∀ disk, sysfs.listed (.disk disk) = true →
    .disk disk ∈ array.slaves.map (·.name) → AllListed sysfs.listed array.slaves

/-- The first line of the file has a character that is no space. -/
def Legible (content : Option String) : Prop := ¬ Blank ((readLine content).getD "")

def DisksLegible (sysfs : Sysfs) : Prop :=
  ∀ name, sysfs.listed (.disk name) = true →
    Legible (sysfs.files name).model ∧ Legible (sysfs.files name).revision

theorem SlavesListed.members (h : sysfs.SlavesListed) : sysfs.MembersListed :=
  fun array harray _ _ _ => h array harray

theorem listed_disk {name : BlockName} (hlisted : sysfs.listed name = true) {drive : Int}
    (hdrive : physToScsi name = .ok drive) : ∃ disk, name = .disk disk := by
  cases name with
  | disk disk => exact ⟨disk, rfl⟩
  | partition disk number => cases hlisted
  | md id => cases hdrive
  | other text => cases hdrive

theorem mem_listedDisks {name : DiskName} :
    sysfs.listed (.disk name) = true ↔ ∃ size, ⟨name, size⟩ ∈ sysfs.listedDisks := by
  simp only [listed, decide_eq_true_eq, List.mem_map]
  constructor
  · rintro ⟨⟨_, size⟩, hentry, rfl⟩
    exact ⟨size, hentry⟩
  · rintro ⟨size, hentry⟩
    exact ⟨_, hentry, rfl⟩

theorem diskState_ok (h : sysfs.MembersListed) {name : DiskName}
    (hname : sysfs.listed (.disk name) = true) :
    ∃ state, sysfs.diskState order name = .ok state := by
  have hstate : ∃ state, (order.visit sysfs.listedArrays).foldlM
      (sysfs.memberState name) (some "free") = .ok state ∧ state ≠ none := by
    refine foldlM_ok (fun (_ : List MdArray) (state : Option String) => state ≠ none)
      (by simp) ?_
    intro _ array state harray hstate
    unfold memberState
    split
    · rename_i hmember
      obtain ⟨slave, hslave, hdisk⟩ := List.mem_map.mp hmember
      obtain ⟨physicals, hrun, hkeys⟩ :=
        physicalList_ok (h array ((order.mem_visit).mp harray) name hname hmember)
      refine ⟨physicals.lookup name.id, by rw [hrun]; rfl, ?_⟩
      rw [← Option.isSome_iff_ne_none, AList.lookup_isSome, AList.mem_keys, hkeys]
      exact .inl ⟨slave, hslave, name, hdisk, rfl⟩
    · exact ⟨state, rfl, hstate⟩
  obtain ⟨state, hrun, hsome⟩ := hstate
  obtain ⟨text, rfl⟩ := Option.ne_none_iff_exists'.mp hsome
  unfold diskState
  rw [hrun, ok_bind]
  by_cases hcache : sysfs.caches.any (fun map => map.physical.id = name.id) = true
  · simp only [if_pos hcache]
    exact ⟨_, rfl⟩
  · simp only [if_neg hcache]
    exact ⟨_, rfl⟩

def shownText (content : Option String) : Option String :=
  some (trimmed ((readLine content).getD ""))

def Described (files : DiskFiles) (record : Physical) : Prop :=
  record.model = shownText files.model ∧ record.revision = shownText files.revision

theorem physical_eq_ok {name : DiskName} {size : Nat} {record : Physical} :
    sysfs.physical order name size = .ok record ↔
      sysfs.diskState order name = .ok record.state ∧ record.size = size ∧
        record.frawnode = "/dev/" ++ diskText name ∧
        Legible (sysfs.files name).model ∧ Legible (sysfs.files name).revision ∧
        Described (sysfs.files name) record := by
  constructor
  · intro h
    simp only [physical, bind_eq_ok] at h
    obtain ⟨model, hmodel, revision, hrevision, state, hstate, model', hmodel',
      revision', hrevision', hrecord⟩ := h
    obtain ⟨hlegible, rfl⟩ := strip_twice_iff.mp (bind_eq_ok.mpr ⟨model, hmodel, hmodel'⟩)
    obtain ⟨hlegible', rfl⟩ :=
      strip_twice_iff.mp (bind_eq_ok.mpr ⟨revision, hrevision, hrevision'⟩)
    obtain rfl := Except.ok.inj hrecord
    exact ⟨hstate, rfl, rfl, hlegible, hlegible', rfl, rfl⟩
  · rintro ⟨hstate, rfl, hnode, hmodel, hrevision, hshown, hshown'⟩
    obtain ⟨model, hfirst, hsecond⟩ := bind_eq_ok.mp (strip_twice_iff.mpr ⟨hmodel, hshown⟩)
    obtain ⟨revision, hfirst', hsecond'⟩ :=
      bind_eq_ok.mp (strip_twice_iff.mpr ⟨hrevision, hshown'⟩)
    rw [physical, hfirst, ok_bind, hfirst', ok_bind, hstate, ok_bind, hsecond,
      ok_bind, hsecond', ok_bind, ← hnode]
    rfl

theorem physical_ok (h : sysfs.MembersListed) (hlegible : sysfs.DisksLegible)
    {name : DiskName} (hname : sysfs.listed (.disk name) = true) (size : Nat) :
    ∃ physical, sysfs.physical order name size = .ok physical := by
  obtain ⟨state, hstate⟩ : ∃ state, sysfs.diskState order name = .ok state :=
    diskState_ok h hname
  obtain ⟨hmodel, hrevision⟩ := hlegible name hname
  exact ⟨⟨state, size, shownText (sysfs.files name).model,
    shownText (sysfs.files name).revision, "/dev/" ++ diskText name⟩,
    physical_eq_ok.mpr ⟨hstate, rfl, rfl, hmodel, hrevision, rfl, rfl⟩⟩

/-- The table has a record of each of the disks `done` and of no other. -/
structure Filled (sysfs : Sysfs) (done : List (Sigma fun _ : DiskName => Nat))
    (table : Table PhysicalId Physical) : Prop where
  keys : ∀ p, p ∈ table.keys ↔ ∃ entry ∈ done, p = entry.1.id
  records : ∀ entry ∈ done, ∃ record, table.lookup entry.1.id = some record ∧
    Described (sysfs.files entry.1) record

theorem Filled.addPhysical (h : sysfs.MembersListed) (hlegible : sysfs.DisksLegible)
    {done : List (Sigma fun _ : DiskName => Nat)} {table : Table PhysicalId Physical}
    (hfilled : Filled sysfs done table) {entry : Sigma fun _ : DiskName => Nat}
    (hlisted : sysfs.listed (.disk entry.1) = true) :
    ∃ next, sysfs.addPhysical order table entry = .ok next ∧
      Filled sysfs (done ++ [entry]) next := by
  obtain ⟨physical, hphysical⟩ : ∃ physical,
      sysfs.physical order entry.1 entry.2 = .ok physical :=
    physical_ok h hlegible hlisted entry.2
  refine ⟨table.insert entry.1.id physical, by rw [Sysfs.addPhysical, hphysical]; rfl, ?_⟩
  constructor
  case keys =>
    intro p
    rw [← AList.mem_keys, AList.mem_insert, AList.mem_keys, hfilled.keys]
    simp only [List.mem_append, List.mem_singleton, or_and_right, exists_or,
      exists_eq_left]
    exact or_comm
  case records =>
    intro other hother
    by_cases heq : other.1.id = entry.1.id
    · rw [DiskName.id_injective heq, AList.lookup_insert]
      exact ⟨_, rfl, (physical_eq_ok.mp hphysical).2.2.2.2.2⟩
    · rw [AList.lookup_insert_ne heq]
      rcases List.mem_append.mp hother with hin | hin
      · exact hfilled.records other hin
      · exact absurd (by rw [List.mem_singleton.mp hin]) heq

theorem physicals_ok (order : Order) (h : sysfs.MembersListed)
    (hlegible : sysfs.DisksLegible) :
    ∃ physicals, sysfs.physicals order = .ok physicals ∧
      (∀ p, p ∈ physicals.keys ↔
        ∃ name, sysfs.listed (.disk name) = true ∧ p = name.id) ∧
      ∀ name, sysfs.listed (.disk name) = true →
        ∃ record, physicals.lookup name.id = some record ∧
          Described (sysfs.files name) record := by
  have hloop : ∃ physicals, (order.visit sysfs.listedDisks).foldlM
      (sysfs.addPhysical order) ∅ = .ok physicals ∧
      Filled sysfs (order.visit sysfs.listedDisks) physicals := by
    refine foldlM_ok (Filled sysfs) ⟨by simp, by simp⟩ ?_
    intro done entry table hentry hfilled
    exact hfilled.addPhysical h hlegible
      (mem_listedDisks.mpr ⟨entry.2, (order.mem_visit).mp hentry⟩)
  obtain ⟨physicals, hrun, hfilled⟩ := hloop
  refine ⟨physicals, hrun, fun p => ?_, fun name hname => ?_⟩
  · rw [hfilled.keys]
    constructor
    · rintro ⟨entry, hentry, rfl⟩
      exact ⟨entry.1, mem_listedDisks.mpr ⟨entry.2, (order.mem_visit).mp hentry⟩, rfl⟩
    · rintro ⟨name, hname, rfl⟩
      obtain ⟨size, hentry⟩ := mem_listedDisks.mp hname
      exact ⟨⟨name, size⟩, (order.mem_visit).mpr hentry, rfl⟩
  · obtain ⟨size, hentry⟩ := mem_listedDisks.mp hname
    exact hfilled.records ⟨name, size⟩ ((order.mem_visit).mpr hentry)

theorem membersListed_of_diskState (order : Order) (h : ∀ name,
    sysfs.listed (.disk name) = true → ∃ state, sysfs.diskState order name = .ok state) :
    sysfs.MembersListed := by
  intro array harray disk hdisk hmember slave hslave
  obtain ⟨_, hdiskState⟩ := h disk hdisk
  obtain ⟨state, hstate, _⟩ := bind_eq_ok.mp hdiskState
  obtain ⟨_, _, hmemberState⟩ := foldlM_eq_ok hstate array ((order.mem_visit).mpr harray)
  rw [memberState, if_pos hmember] at hmemberState
  obtain ⟨members, hmembers, _⟩ := bind_eq_ok.mp hmemberState
  obtain ⟨hlisted, drive, hdrive⟩ := listed_of_physicalList hmembers slave hslave
  exact ⟨hlisted, listed_disk hlisted hdrive⟩

theorem listed_of_physicals {physicals : Table PhysicalId Physical}
    (h : sysfs.physicals order = .ok physicals) :
    sysfs.MembersListed ∧ sysfs.DisksLegible := by
  have hround : ∀ name, sysfs.listed (.disk name) = true →
      ∃ size record, sysfs.physical order name size = .ok record := by
    intro name hname
    obtain ⟨size, hentry⟩ := mem_listedDisks.mp hname
    obtain ⟨_, _, hround⟩ := foldlM_eq_ok h ⟨name, size⟩ ((order.mem_visit).mpr hentry)
    obtain ⟨record, hrecord, _⟩ := bind_eq_ok.mp hround
    exact ⟨size, record, hrecord⟩
  refine ⟨membersListed_of_diskState order fun name hname => ?_, fun name hname => ?_⟩
  · obtain ⟨size, record, hrecord⟩ := hround name hname
    exact ⟨_, (physical_eq_ok.mp hrecord).1⟩
  · obtain ⟨size, record, hrecord⟩ := hround name hname
    obtain ⟨_, _, _, hmodel, hrevision, _⟩ := physical_eq_ok.mp hrecord
    exact ⟨hmodel, hrevision⟩

theorem lookupDrive_isSome {physicals : Table PhysicalId Physical}
    (h : sysfs.physicals order = .ok physicals) (drive : Int) :
    (lookupDrive physicals drive).isSome = true ↔
      ∃ name, sysfs.listed (.disk name) = true ∧ drive = scsiSum name.root.reverse := by
  obtain ⟨hmembers, hlegible⟩ := listed_of_physicals h
  obtain ⟨table, hrun, hkeys, -⟩ := physicals_ok order hmembers hlegible
  obtain rfl := Except.ok.inj (h.symm.trans hrun)
  unfold lookupDrive
  split
  · rename_i hpositive
    rw [AList.lookup_isSome, AList.mem_keys, hkeys]
    refine exists_congr fun name => and_congr_right fun _ => ?_
    have hname := scsiSum_pos name
    rw [DiskName.id, PhysicalId.mk.injEq]
    omega
  · rename_i hnegative
    refine iff_of_false (by simp) ?_
    rintro ⟨name, -, rfl⟩
    exact hnegative (scsiSum_pos name)

/-! ## The start of the page -/

/-- The calls return, an absent slave is reported as failed, and so is an array
whose slaves are all absent. -/
def Tolerated (sysfs : Sysfs) (order : Order) : Prop :=
  ∃ result, sysfs.survey order = .ok result ∧
    (result.map (·.1.id)).Perm (sysfs.listedArrays.map (·.id)) ∧
    (∀ entry ∈ result, ∀ slave ∈ entry.1.slaves, sysfs.listed slave.name = false →
      ∃ drive, physToScsi slave.name = .ok drive ∧
        lookupDrive entry.2 drive = some "failed") ∧
    ∀ entry ∈ result, (∀ slave ∈ entry.1.slaves, sysfs.listed slave.name = false) →
      entry.1.state = "failed"

private theorem physicalLists_ok (sysfs : Sysfs) {logicals : List LogicalDisk}
    (h : ∀ logical ∈ logicals, AllListed sysfs.listed logical.slaves) :
    ∃ result, (logicals.mapM fun logical => do
        let members ← physicalList sysfs.listed logical.id logical.slaves
          logical.raidDisks
        pure (logical, members)) = .ok result ∧
      result.map (·.1) = logicals := by
  obtain ⟨result, hresult⟩ : ∃ result, (logicals.mapM fun logical => do
      let members ← physicalList sysfs.listed logical.id logical.slaves
        logical.raidDisks
      pure (logical, members)) = .ok result := by
    refine mapM_ok fun logical hlogical => ?_
    obtain ⟨members, hmembers, _⟩ := physicalList_ok (h logical hlogical)
    exact ⟨(logical, members), by rw [hmembers]; rfl⟩
  refine ⟨result, hresult, ?_⟩
  rw [mapM_map_eq Prod.fst id ?_ hresult, List.map_id]
  intro logical entry hrun
  obtain ⟨members, _, hpair⟩ := bind_eq_ok.mp hrun
  rw [← Except.ok.inj hpair]
  rfl

private theorem powersavingDisable_ok (hlisted : sysfs.SlavesListed)
    (hlegible : sysfs.DisksLegible)
    (harray : array ∈ sysfs.listedArrays) {logical : LogicalDisk}
    (hlogical : sysfs.logical array = .ok logical) :
    sysfs.powersavingDisable order logical = .ok () := by
  obtain ⟨physicals, hphysicals, _⟩ := physicals_ok order hlisted.members hlegible
  unfold powersavingDisable
  rw [hphysicals, ok_bind, forM_eq_ok]
  intro drive hdrive
  obtain ⟨slave, hslave, hscsi⟩ := (logical_eq_ok hlogical).2.2.2.2 drive hdrive
  obtain ⟨hname, name, hdisk⟩ := hlisted array harray slave hslave
  rw [hdisk] at hname hscsi
  obtain ⟨record, hrecord⟩ := Option.isSome_iff_exists.mp
    ((lookupDrive_isSome hphysicals drive).mpr ⟨name, hname, (Except.ok.inj hscsi).symm⟩)
  rw [hrecord]
  rfl

private theorem sanityCheck_slaves {α : Type} (physicals : Table PhysicalId α)
    (logical : LogicalDisk) :
    (sanityCheck physicals logical).slaves = logical.slaves ∧
      (sanityCheck physicals logical).id = logical.id := by
  unfold sanityCheck
  split
  · exact ⟨rfl, rfl⟩
  · exact ⟨rfl, rfl⟩

private theorem logicals_ok (hreadable : ∀ array ∈ sysfs.listedArrays, array.Readable)
    (hlisted : sysfs.SlavesListed) :
    ∃ logicals, sysfs.logicals order = .ok logicals ∧
      (∀ logical ∈ logicals, ∃ array ∈ sysfs.listedArrays,
        sysfs.logical array = .ok logical) ∧
      logicals.map (·.id) = (order.visit sysfs.listedArrays).map (·.id) := by
  have hlogical : ∀ array ∈ order.visit sysfs.listedArrays, ∃ logical,
      sysfs.logical array = .ok logical := by
    intro array harray
    have harray := (order.mem_visit).mp harray
    refine logical_ok (hreadable array harray) fun slave hslave => ?_
    obtain ⟨_, name, hname⟩ := hlisted array harray slave hslave
    exact ⟨_, by rw [hname]; rfl⟩
  obtain ⟨logicals, hlogicals⟩ : ∃ logicals, sysfs.logicals order = .ok logicals :=
    mapM_ok hlogical
  refine ⟨logicals, hlogicals, fun logical hmem => ?_,
    mapM_map_eq _ _ (fun array logical hrun => (logical_eq_ok hrun).2.1) hlogicals⟩
  obtain ⟨array, harray, hrun⟩ := (mapM_eq_ok hlogicals).2 logical hmem
  exact ⟨array, (order.mem_visit).mp harray, hrun⟩

theorem survey_ok (hreadable : ∀ array ∈ sysfs.listedArrays, array.Readable)
    (hlisted : sysfs.SlavesListed) (hlegible : sysfs.DisksLegible) :
    ∃ result, sysfs.survey order = .ok result ∧
      (result.map (·.1.id)).Perm (sysfs.listedArrays.map (·.id)) ∧
      ∀ entry ∈ result, ∃ array ∈ sysfs.listedArrays, entry.1.slaves = array.slaves := by
  obtain ⟨logicals, hlogicals, hsource, hids⟩ := logicals_ok hreadable hlisted
  obtain ⟨physicals, hphysicals, _⟩ := physicals_ok order hlisted.members hlegible
  have hpower : (order.visit logicals).forM (sysfs.powersavingDisable order) =
      .ok () := by
    rw [forM_eq_ok]
    intro logical hmem
    obtain ⟨array, harray, hrun⟩ := hsource logical ((order.mem_visit).mp hmem)
    exact powersavingDisable_ok hlisted hlegible harray hrun
  let checked := order.visit (logicals.map (sanityCheck physicals))
  have hchecked : ∀ logical ∈ checked, ∃ array ∈ sysfs.listedArrays,
      logical.slaves = array.slaves := by
    intro logical hmem
    obtain ⟨before, hbefore, rfl⟩ := List.mem_map.mp ((order.mem_visit).mp hmem)
    obtain ⟨array, harray, hrun⟩ := hsource before hbefore
    refine ⟨array, harray, ?_⟩
    rw [(sanityCheck_slaves physicals before).1, (logical_eq_ok hrun).2.2.1]
  obtain ⟨result, hresult, hfirst⟩ := physicalLists_ok sysfs
    fun logical hmem => by
      obtain ⟨array, harray, hsame⟩ := hchecked logical hmem
      rw [hsame]
      exact hlisted array harray
  refine ⟨result, ?_, ?_, ?_⟩
  · unfold survey
    rw [hlogicals, ok_bind, hphysicals, ok_bind, hpower, ok_bind]
    exact hresult
  · have hkept : (logicals.map (sanityCheck physicals)).map (·.id) =
        logicals.map (·.id) := by
      rw [List.map_map]
      exact List.map_congr_left fun logical _ => (sanityCheck_slaves physicals logical).2
    have hvisited : result.map (·.1.id) = checked.map (·.id) := by
      rw [← hfirst, List.map_map]
      rfl
    rw [hvisited]
    refine ((order.perm _).map _).trans ?_
    rw [hkept, hids]
    exact (order.perm _).map _
  · intro entry hentry
    have hmem : entry.1 ∈ checked := hfirst ▸ List.mem_map_of_mem hentry
    exact hchecked entry.1 hmem

theorem listed_of_survey {result : List (LogicalDisk × Table PhysicalId String)}
    (hsurvey : sysfs.survey order = .ok result) :
    (∀ array ∈ sysfs.listedArrays, array.Readable) ∧ sysfs.SlavesListed ∧
      sysfs.DisksLegible := by
  obtain ⟨logicals, hlogicals, hsurvey⟩ := bind_eq_ok.mp hsurvey
  obtain ⟨physicals, hphysicals, hsurvey⟩ := bind_eq_ok.mp hsurvey
  obtain ⟨_, _, hsurvey⟩ := bind_eq_ok.mp hsurvey
  have harrays : ∀ array ∈ sysfs.listedArrays, ∃ logical ∈ logicals,
      sysfs.logical array = .ok logical := fun array harray =>
    (mapM_eq_ok hlogicals).1 array ((order.mem_visit).mpr harray)
  refine ⟨fun array harray => ?_, fun array harray slave hslave => ?_,
    (listed_of_physicals hphysicals).2⟩
  · obtain ⟨logical, _, hrun⟩ := harrays array harray
    exact (logical_eq_ok hrun).1
  · obtain ⟨logical, hlogical, hrun⟩ := harrays array harray
    have hchecked : sanityCheck physicals logical ∈
        order.visit (logicals.map (sanityCheck physicals)) :=
      (order.mem_visit).mpr (List.mem_map_of_mem hlogical)
    obtain ⟨_, _, hround⟩ := (mapM_eq_ok hsurvey).1 _ hchecked
    obtain ⟨members, hmembers, _⟩ := bind_eq_ok.mp hround
    have hsame : (sanityCheck physicals logical).slaves = array.slaves := by
      rw [(sanityCheck_slaves physicals logical).1, (logical_eq_ok hrun).2.2.1]
    obtain ⟨hlisted, drive, hdrive⟩ :=
      listed_of_physicalList hmembers slave (hsame ▸ hslave)
    exact ⟨hlisted, listed_disk hlisted hdrive⟩

/-- The calls at the start of the page tolerate an inventory if and only if
all slaves of its arrays are listed disks, and the attributes of the arrays
and of the disks can be read. -/
theorem tolerated_iff (sysfs : Sysfs) (order : Order) :
    sysfs.Tolerated order ↔
      (∀ array ∈ sysfs.listedArrays, array.Readable) ∧ sysfs.SlavesListed ∧
        sysfs.DisksLegible := by
  constructor
  · rintro ⟨result, hsurvey, _⟩
    exact listed_of_survey hsurvey
  · rintro ⟨hreadable, hlisted, hlegible⟩
    obtain ⟨result, hsurvey, hids, hslaves⟩ := survey_ok hreadable hlisted hlegible
    refine ⟨result, hsurvey, hids, fun entry hentry slave hslave habsent => ?_,
      fun entry hentry habsent => ?_⟩
    · obtain ⟨array, harray, hsame⟩ := hslaves entry hentry
      rw [(hlisted array harray slave (hsame ▸ hslave)).1] at habsent
      cases habsent
    · obtain ⟨array, harray, hsame⟩ := hslaves entry hentry
      have hne : array.slaves ≠ [] := by
        have hfilter := (List.mem_filter.mp harray).2
        simpa using hfilter
      obtain ⟨slave, hslave⟩ := List.exists_mem_of_ne_nil _ hne
      have hno := habsent slave (hsame ▸ hslave)
      rw [(hlisted array harray slave hslave).1] at hno
      cases hno

def mirror : MdArray where
  id := 0
  slaves := [⟨.disk sdb, some "in_sync"⟩,
    ⟨.disk sdaa, some "in_sync"⟩]
  arrayState := some "clean"
  level := some "raid1"
  raidDisks := some 2
  degraded := some "0"
  syncAction := some "idle"
  syncCompleted := some "none"
  size := 1000

def manyDisks : Sysfs where
  disks := ((∅ : Table DiskName Nat).insert sdb 1000).insert
    sdaa 1000
  files := fun _ => .sample
  arrays := [mirror]
  ids_nodup := by decide
  caches := []

theorem manyDisks_not_tolerated : ¬ manyDisks.Tolerated Order.plain := by
  rintro ⟨result, hsurvey, _⟩
  have harray : mirror ∈ manyDisks.listedArrays := by
    simp [listedArrays, manyDisks, mirror]
  have hlisted := (listed_of_survey hsurvey).2.1 mirror harray
    ⟨.disk sdaa, some "in_sync"⟩ (by decide +kernel)
  exact absurd hlisted.1 (by decide +kernel)

end Sysfs

end OpenSan.Einarc
