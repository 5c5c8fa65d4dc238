import OpenSan.Storage.Commands
import OpenSan.Storage.FreshPage

/-!
# Deletion of an array that is in use

`mdadm --stop` may be refused.  By then the label of the array is overwritten
and its cache is unbound, and the superblocks of its disks are overwritten all
the same.  A deletion that fails leaves the array intact exactly when it does
not fail.
-/

namespace OpenSan.Storage

open OpenSan.Foundation OpenSan.Einarc

variable {env : Env} {m m' : Machine}

/-! ## Attempts -/

theorem after_issued (command : Command) (succeeded : Bool) :
    (m.after env command succeeded).issued command = m.issued command + 1 := by
  simp [Machine.issued]

theorem after_issued_of_ne {command other : Command} (h : other ≠ command)
    (succeeded : Bool) :
    (m.after env command succeeded).issued other = m.issued other := by
  simp [Machine.issued, Ne.symm h]

def Granted (env : Env) (m : Machine) (command : Command) (tries : Nat) : Prop :=
  ∃ i < tries, env.outcome command (m.issued command + i) = true

theorem granted_succ (env : Env) (m : Machine) (command : Command) (tries : Nat)
    (succeeded : Bool) :
    Granted env m command (tries + 1) ↔
      env.outcome command (m.issued command) = true ∨
        Granted env (m.after env command succeeded) command tries := by
  unfold Granted
  rw [after_issued]
  constructor
  · rintro ⟨i, hi, hgranted⟩
    cases i with
    | zero => exact .inl hgranted
    | succ i =>
        exact .inr ⟨i, by omega, by
          rw [show m.issued command + 1 + i = m.issued command + (i + 1) by omega]
          exact hgranted⟩
  · rintro (hgranted | ⟨i, hi, hgranted⟩)
    · exact ⟨0, by omega, hgranted⟩
    · exact ⟨i + 1, by omega, by
        rw [show m.issued command + (i + 1) = m.issued command + 1 + i by omega]
        exact hgranted⟩

theorem attempts_returns (env : Env) (command : Command) (tries : Nat) (m : Machine) :
    Action.Returns (attempts env command tries) m fun result m' =>
      (result = true ↔ Granted env m command tries) ∧ m.commands <+: m'.commands ∧
        (0 < tries → Ran m m' command) := by
  induction tries generalizing m with
  | zero => exact Action.Returns.pure ⟨by simp [Granted], by simp, by simp⟩
  | succ tries ih =>
      have hran : Ran m (m.after env command (env.outcome command (m.issued command)))
        command := ran_after command _
      have hsplit := granted_succ env m command tries
        (env.outcome command (m.issued command))
      cases houtcome : env.outcome command (m.issued command) with
      | true =>
          rw [houtcome] at hran hsplit
          refine ⟨true, m.after env command true, ?_, ?_, hran.1, fun _ => hran⟩
          · simp [attempts, houtcome]
          · simp [hsplit]
      | false =>
          rw [houtcome] at hran hsplit
          obtain ⟨result, m', hrun, hresult, hlog, _⟩ := ih (m.after env command false)
          refine ⟨result, m', ?_, ?_, hran.1.trans hlog, fun _ =>
            hran.later hlog⟩
          · simp [attempts, houtcome, hrun]
          · simp [hsplit, hresult]

/-! ## Superblocks -/

def superblock (drive : Int) : Command := .zeroSuperblock ⟨0, drive.toNat⟩

theorem zeroSuperblock_returns (env : Env) {drive : Int} (h : 0 ≤ drive) (m : Machine) :
    Action.Returns (zeroSuperblock env drive) m fun _ m' => Ran m m' (superblock drive) := by
  unfold zeroSuperblock
  rw [Action.require_of_true h]
  change Action.Returns (run env (superblock drive) >>= fun _ => pure ()) m _
  refine Action.Returns.bind (attempts_returns env (superblock drive) 4 m) fun _ m₁ hran => ?_
  exact Action.Returns.pure (hran.2.2 (by omega))

theorem superblocks_return (env : Env) {drives : List Int}
    (h : ∀ drive ∈ drives, 0 ≤ drive) (m : Machine) :
    Action.Returns (Action.forEach drives (zeroSuperblock env)) m fun _ m' =>
      m.commands <+: m'.commands ∧ ∀ drive ∈ drives, Ran m m' (superblock drive) := by
  induction drives generalizing m with
  | nil => exact Action.Returns.pure ⟨List.prefix_refl _, by simp⟩
  | cons drive drives ih =>
      refine Action.Returns.bind (zeroSuperblock_returns env (h drive (by simp)) m) ?_
      intro _ m₁ hran
      refine (ih (fun other hother => h other (by simp [hother])) m₁).mono ?_
      rintro _ m₂ ⟨hlog, hlater⟩
      refine ⟨hran.1.trans hlog, fun other hother => ?_⟩
      rcases List.mem_cons.mp hother with rfl | hin
      · exact hran.later hlog
      · exact (hlater other hin).earlier hran.1

/-- `M.Logical:delete` overwrites every superblock and raises when the array was
not stopped. -/
theorem deleteArray_run (env : Env) (array : LogicalDisk)
    (h : ∀ drive ∈ array.drives, 0 ≤ drive) (m : Machine) :
    ∃ result m', deleteArray env (some array) m = (result, m') ∧
      (result = .ok () ↔ Granted env m (.mdadmStop array.id) 4) ∧
      ∀ drive ∈ array.drives, Ran m m' (superblock drive) := by
  obtain ⟨stopped, m₁, hstop, hgranted, hlog, _⟩ :=
    attempts_returns env (.mdadmStop array.id) 4 m
  obtain ⟨_, m₂, hzero, hlog', hran⟩ := superblocks_return env
    (fun drive (hdrive : drive ∈ env.host.order.visit array.drives) =>
      h drive (env.host.order.mem_visit.mp hdrive)) m₁
  have hrun : deleteArray env (some array) m =
      (if stopped = true then .ok ()
        else .error (.failure "einarc:logical.delete() failed"), m₂) := by
    cases stopped <;> simp [deleteArray, nonNil, run, hstop, hzero, Action.require]
  refine ⟨_, m₂, hrun, ?_, ?_⟩
  · rw [← hgranted]
    cases stopped <;> simp
  · intro drive hdrive
    exact (hran drive (env.host.order.mem_visit.mpr hdrive)).earlier hlog

/-! ## The steps before the array is stopped -/

def Clears (_ : Machine) (command : Command) : Prop :=
  command.common = true ∨ ∃ path, command = .zero path

theorem Clears.effect_arrays {command : Command} (h : Clears m command) :
    (m.effect env command).sysfs.arrays = m.sysfs.arrays := by
  cases command with
  | zero path =>
      simp only [Machine.effect]
      split <;> rfl
  | pvcreate path =>
      simp only [Machine.effect, Machine.addPv]
      split <;> rfl
  | vgcreate name paths =>
      simp only [Machine.effect, Machine.addGroup]
      split <;> rfl
  | lvcreate key size =>
      simp only [Machine.effect, Machine.addVolume]
      split <;> rfl
  | mdadmCreate id disks => simp [Clears, Command.common] at h
  | mdadmStop id => simp [Clears, Command.common] at h
  | mdadmAdd id disk => simp [Clears, Command.common] at h
  | _ => rfl

structure Untouched (m m' : Machine) (id : Nat) : Prop where
  arrays : m'.sysfs.arrays = m.sysfs.arrays
  issued : m'.issued (.mdadmStop id) = m.issued (.mdadmStop id)

theorem untouched_of_issues (h : Issues env Clears m m') (id : Nat) :
    Untouched m m' id := by
  refine h.invariant (I := fun m' => Untouched m m' id) ⟨rfl, rfl⟩ ?_
  intro before command succeeded huntouched hclears
  constructor
  · rw [← huntouched.arrays]
    exact after_of_effect (·.sysfs.arrays) succeeded (fun _ _ => rfl)
      hclears.effect_arrays
  · rw [← huntouched.issued]
    refine after_issued_of_ne ?_ succeeded
    rintro rfl
    simp [Clears, Command.common] at hclears

/-! ## The whole request -/

structure LeavesIntact (env : Env) (page : Page) (logicalIdHash : String)
    (array : LogicalDisk) (m : Machine) : Prop where
  superblocks : ∀ e m', deleteArray env (some array) m = (.error e, m') →
    ∀ drive ∈ array.drives, ∀ succeeded, (superblock drive, succeeded) ∉ m.since m'
  label : ∀ text m', einarcLogicalDelete env page logicalIdHash m = (.ok (some text), m') →
    ∀ path, path.place = .array array.id → (.zero path, true) ∉ m.since m'
  cache : ∀ text m', einarcLogicalDelete env page logicalIdHash m = (.ok (some text), m') →
    ∀ map ∈ m.sysfs.caches, map.logicalId = array.id → map ∈ m'.sysfs.caches

theorem findArray_untouched {array : MdArray} (hlisted : m.sysfs.SlavesListed)
    (harray : array ∈ m.sysfs.listedArrays) (huntouched : Untouched m m' array.id) :
    Action.Ensures (findArray env array.id) m' fun found m'' => m'' = m' ∧
      ∃ disk, found = some disk ∧ disk.id = array.id ∧
        ∀ drive ∈ disk.drives, 0 ≤ drive := by
  intro found m'' hrun
  rw [findArray_run, Prod.mk.injEq] at hrun
  obtain ⟨hfound, rfl⟩ := hrun
  refine ⟨rfl, ?_⟩
  have harrays : m'.sysfs.listedArrays = m.sysfs.listedArrays := by
    unfold Sysfs.listedArrays
    rw [huntouched.arrays]
  cases hlogicals : m'.sysfs.logicals env.host.order with
  | error e =>
      rw [hlogicals] at hfound
      cases hfound
  | ok logicals =>
      rw [hlogicals] at hfound
      obtain rfl := Except.ok.inj hfound
      obtain ⟨hleft, hright⟩ := mem_logicals hlogicals
      obtain ⟨disk, hdisk, hread⟩ := hleft array (harrays ▸ harray)
      obtain ⟨other, hother⟩ : ∃ other,
          (logicals.find? fun found => found.id = array.id) = some other := by
        apply Option.isSome_iff_exists.mp
        rw [List.find?_isSome]
        exact ⟨disk, hdisk, by simpa using (Sysfs.logical_eq_ok hread).2.1⟩
      obtain ⟨origin, horigin, hreadOther⟩ :=
        hright other (List.mem_of_find?_eq_some hother)
      refine ⟨other, hother, by simpa using List.find?_some hother, ?_⟩
      exact drives_nonneg hlisted (harrays ▸ horigin) hreadOther

theorem logicalDelete_quiet {page : Page} {logicalIdHash : String}
    {logical : ListedLogical} {array : MdArray} (hlisted : m.sysfs.SlavesListed)
    (harray : array ∈ m.sysfs.listedArrays)
    (hlogical : findLogical env page logicalIdHash = .ok logical)
    (hid : logical.id = array.id) (h : Granted env m (.mdadmStop array.id) 4) :
    Action.Ensures (einarcLogicalDelete env page logicalIdHash) m
      fun message _ => message = none := by
  unfold einarcLogicalDelete
  rw [hlogical]
  change Action.Ensures (clearArray env page logical >>= fun _ => _) m _
  have hclear : Only env Clears (clearArray env page logical) m :=
    only_clearArray (fun _ _ h => .inl (common_of_quiet h)) (fun _ => .inr ⟨_, rfl⟩) page
  refine hclear.ensures.bind fun _ m₁ hissues => ?_
  have huntouched := untouched_of_issues hissues array.id
  rw [hid]
  refine (findArray_untouched hlisted harray huntouched).bind ?_
  rintro _ m₂ ⟨rfl, disk, rfl, hdisk, hdrives⟩
  obtain ⟨result, m₃, hrun, hok, _⟩ := deleteArray_run env disk hdrives m₂
  have hgranted : Granted env m₂ (.mdadmStop disk.id) 4 := by
    unfold Granted at h ⊢
    rw [hdisk, huntouched.issued]
    exact h
  obtain rfl := hok.mpr hgranted
  refine Action.Ensures.of_returns ⟨none, m₃, ?_, rfl⟩
  simp [hrun]

/-- A failed deletion leaves an array of the machine intact if and only if one
of the four attempts to stop it succeeds, so that the deletion does not fail.
The request may come from a page of any age. -/
theorem leavesIntact_iff {live page : Page} {logicalIdHash : String}
    {logical : ListedLogical} {logicals : List LogicalDisk} {array : LogicalDisk}
    (hlive : loadPage env m = .ok live)
    (hlogicals : m.sysfs.logicals env.host.order = .ok logicals)
    (harray : array ∈ logicals)
    (hlogical : findLogical env page logicalIdHash = .ok logical)
    (hid : logical.id = array.id) :
    LeavesIntact env page logicalIdHash array m ↔
      Granted env m (.mdadmStop array.id) 4 := by
  obtain ⟨result, hsurvey⟩ := (loaded_of_loadPage hlive).survey
  have hlisted := (Sysfs.listed_of_survey hsurvey).2.1
  obtain ⟨md, hmd, hread⟩ := (mem_logicals hlogicals).2 array harray
  have hmdId : array.id = md.id := (Sysfs.logical_eq_ok hread).2.1
  have hdrives := drives_nonneg hlisted hmd hread
  constructor
  · intro hintact
    by_contra hrefused
    obtain ⟨outcome, m', hrun, hok, hran⟩ := deleteArray_run env array hdrives m
    cases outcome with
    | ok _ => exact hrefused (hok.mp rfl)
    | error e =>
        obtain ⟨drive, hdrive⟩ := exists_drive hmd hread
        obtain ⟨_, succeeded, hin⟩ := hran drive hdrive
        exact hintact.superblocks e m' hrun drive hdrive succeeded hin
  · intro hgranted
    have hquiet := logicalDelete_quiet hlisted hmd hlogical (hid.trans hmdId)
      (hmdId ▸ hgranted)
    refine ⟨fun e m' hrun => ?_, fun text m' hrun => ?_, fun text m' hrun => ?_⟩
    · obtain ⟨outcome, m'', hdone, hok, _⟩ := deleteArray_run env array hdrives m
      rw [hok.mpr hgranted, hrun] at hdone
      cases hdone
    · cases hquiet _ _ hrun
    · cases hquiet _ _ hrun

def oneVolume : Machine :=
  sampleMachine "vg1" ⟨[⟨⟨"vg1", "home"⟩, none, 500, true⟩], by decide, by decide⟩ (by decide)

def sampleDisk : LogicalDisk where
  id := 0
  slaves := (sampleArray 0 [sdb, sdc]).slaves
  raidDisks := some 2
  drives := [2, 3]
  state := "normal"
  level := some "1"
  capacity := 1000
  cachedBy := none
  device := "/dev/md0"

def busy (stops : Bool) : Env :=
  sampleEnv fun command number => match command with
    | .mdadmStop _ => stops && number == 3
    | _ => true

theorem oneVolume_logicals (stops : Bool) :
    oneVolume.sysfs.logicals (busy stops).host.order = .ok [sampleDisk] := by
  rfl

theorem stopped_intact :
    LeavesIntact (busy true) (pageOf (busy true) oneVolume) (sampleHash "0") sampleDisk
      oneVolume := by
  have hpage : loadPage (busy true) oneVolume = .ok (pageOf (busy true) oneVolume) :=
    loadPage_pageOf (by decide +kernel)
  have hlogical : findLogical (busy true) (pageOf (busy true) oneVolume) (sampleHash "0") =
      .ok ⟨0, .md 0, 1000⟩ := rfl
  have hgranted : Granted (busy true) oneVolume (.mdadmStop 0) 4 :=
    ⟨3, by decide, by decide +kernel⟩
  exact (leavesIntact_iff hpage (oneVolume_logicals true) (by simp) hlogical rfl).mpr
    hgranted

theorem refused_not_intact :
    ¬ LeavesIntact (busy false) (pageOf (busy false) oneVolume) (sampleHash "0") sampleDisk
      oneVolume := by
  intro h
  have hmessage : (einarcLogicalDelete (busy false) (pageOf (busy false) oneVolume)
      (sampleHash "0") oneVolume).1 =
      .ok (some "Failed to delete logical disk: einarc:logical.delete() failed") := by
    decide +kernel
  exact h.label _ _ (run_of_result hmessage) (.md 0) rfl (by decide +kernel)

end OpenSan.Storage
