import Mathlib.Tactic.Linarith
import Mathlib.Tactic.Ring
import OpenSan.Einarc.AbsentMembers
import OpenSan.Storage.ArrayRequests

/-!
# Names and ids of disks

`M.phys_to_scsi` counts the letters of a disk from 1 to 26 and
`M.scsi_to_phys` writes the number in base 26, with the digits 0 to 25.  The
two agree on the names without a `z`.
-/

namespace OpenSan.Storage

open OpenSan.Foundation OpenSan.Einarc

/-! ## From names to ids -/

/-- `^([sh])d(%w+)%d*`. -/
def deviceRegexp : List Pattern.Item :=
  Pattern.capture [.one fun c => c == 's' || c == 'h'] ++ [.one (· == 'd')] ++
    Pattern.capture (Pattern.plus Pattern.alphanumeric) ++ [.star Pattern.digit]

def physToScsiText (name : String) : Except Error Int :=
  match Pattern.anchored deviceRegexp name.toList with
  | some [pre, root] =>
      if pre = ['s'] then .ok (scsiSum root.reverse)
      else .error (.assertion "Only SCSI devices supported")
  | _ => .error (.assertion "Invalid device name")

theorem anchored_deviceRegexp {root : List Char} (hne : root ≠ [])
    (hroot : ∀ c ∈ root, Pattern.alphanumeric c = true) :
    Pattern.anchored deviceRegexp ('s' :: 'd' :: root) = some [['s'], root] := by
  cases root with
  | nil => exact absurd rfl hne
  | cons c root =>
      have hrest : ∀ d ∈ root, Pattern.alphanumeric d = true :=
        fun d hd => hroot d (List.mem_cons_of_mem c hd)
      have hrun : Pattern.expand Pattern.alphanumeric
          (Pattern.matchHere [.closeCapture, .star Pattern.digit])
          ⟨[['s']], some [c]⟩ (root ++ []) = some [['s'], c :: root] := by
        apply Pattern.expand_eq_some hrest
        · simp [Pattern.matchHere, Pattern.expand, Pattern.Captures.close]
        · intro more tail hmore hsplit
          exact absurd (List.append_eq_nil_iff.mp hsplit.symm).1 hmore
      have hc : Pattern.alphanumeric c = true := hroot c List.mem_cons_self
      rw [List.append_nil] at hrun
      rw [← hrun]
      change (if Pattern.alphanumeric c then _ else none) = _
      rw [if_pos hc]
      rfl

theorem physToScsiText_ok {root : List Char} (hne : root ≠ [])
    (hroot : ∀ c ∈ root, Pattern.alphanumeric c = true) :
    physToScsiText (String.ofList ('s' :: 'd' :: root)) = .ok (scsiSum root.reverse) := by
  rw [physToScsiText, String.toList_ofList, anchored_deviceRegexp hne hroot]
  rfl

/-! ## Letters and digits -/

theorem scsiSum_append (xs : List Char) (c : Char) :
    scsiSum (xs ++ [c]) = scsiSum xs + 26 ^ xs.length * ((c.toNat : Int) - 97 + 1) := by
  induction xs with
  | nil => simp [scsiSum]
  | cons x xs ih =>
      rw [List.cons_append, scsiSum, ih, scsiSum, List.length_cons, pow_succ]
      ring

theorem letter_toNat {digit : Nat} (h : digit < 26) :
    (Char.ofNat (96 + digit)).toNat = 96 + digit := by
  revert digit
  decide

theorem scsiLetters_length (i post : Nat) : (scsiLetters i post).length = i + 1 := by
  induction i generalizing post with
  | zero => rfl
  | succ i ih => rw [scsiLetters, List.length_cons, ih]

private theorem first_digit_lt {i post : Nat} (h : post < 26 ^ (i + 1 + 1)) :
    post / 26 ^ (i + 1) < 26 := by
  rw [Nat.div_lt_iff_lt_mul (Nat.pow_pos (by decide)), mul_comm, ← pow_succ]
  exact h

private theorem rest_lt (i post : Nat) : post % 26 ^ (i + 1) < 26 ^ (i + 1) :=
  Nat.mod_lt _ (Nat.pow_pos (by decide))

theorem scsiSum_scsiLetters {i post : Nat} (h : post < 26 ^ (i + 1)) :
    scsiSum (scsiLetters i post).reverse = post := by
  induction i generalizing post with
  | zero =>
      have hletter : (Char.ofNat (96 + post)).toNat = 96 + post :=
        letter_toNat (by simpa using h)
      simp only [scsiLetters, List.reverse_singleton, scsiSum, hletter]
      omega
  | succ i ih =>
      rw [scsiLetters, List.reverse_cons, scsiSum_append, ih (rest_lt i post),
        List.length_reverse, scsiLetters_length, letter_toNat (first_digit_lt h)]
      have hsplit : ((post % 26 ^ (i + 1) : Nat) : Int) +
          26 ^ (i + 1) * ((post / 26 ^ (i + 1) : Nat) : Int) = post := by
        exact_mod_cast Nat.mod_add_div post (26 ^ (i + 1))
      rw [← hsplit]
      push_cast
      ring

theorem scsiToPhys_eq_iff {id : PhysicalId} {disk : DiskName} :
    scsiToPhys id = .ok (diskText disk) ↔
      id.left = 0 ∧ id.right ≠ 0 ∧
        scsiLetters (Nat.log 26 id.right) id.right = disk.root := by
  have hne : disk.root ≠ [] := fun heq => disk.nonempty (List.map_eq_nil_iff.mp heq)
  have htext : ∀ letters : List Char,
      "sd" ++ String.ofList letters = diskText disk ↔ letters = disk.root := by
    intro letters
    constructor
    · intro h
      simpa [diskText] using congrArg String.toList h
    · rintro rfl
      rfl
  by_cases hleft : id.left = 0
  · by_cases hzero : id.right = 0
    · have hempty : "sd" ≠ diskText disk := by
        simpa using (htext []).not.mpr (Ne.symm hne)
      simp [scsiToPhys, hleft, hzero, hempty]
    · simp [scsiToPhys, hleft, hzero, htext]
  · simp [scsiToPhys, hleft]

theorem scsiToPhys_id {id : PhysicalId} {disk : DiskName}
    (h : scsiToPhys id = .ok (diskText disk)) : disk.id = id := by
  obtain ⟨hleft, -, hroot⟩ := scsiToPhys_eq_iff.mp h
  have hsum := scsiSum_scsiLetters (Nat.lt_pow_succ_log_self (by decide) id.right)
  rw [hroot] at hsum
  unfold DiskName.id
  rw [hsum]
  cases id
  simp_all

theorem z_notMem_scsiLetters {i post : Nat} (h : post < 26 ^ (i + 1)) :
    'z' ∉ scsiLetters i post := by
  have hletter : ∀ {digit : Nat}, digit < 26 → 'z' ≠ Char.ofNat (96 + digit) := by
    decide
  induction i generalizing post with
  | zero => simpa [scsiLetters] using hletter (show post < 26 by simpa using h)
  | succ i ih =>
      rw [scsiLetters, List.mem_cons, not_or]
      exact ⟨hletter (first_digit_lt h), ih (rest_lt i post)⟩

private def lettersText (letters : List (Fin 26)) : List Char :=
  letters.map fun letter => Char.ofNat (97 + letter.val)

theorem letterValue (letter : Fin 26) :
    ((Char.ofNat (97 + letter.val)).toNat : Int) - 97 + 1 = letter.val + 1 := by
  revert letter
  decide

private theorem digit_lt {letter : Fin 26} {letters : List (Fin 26)}
    (h : 25 ∉ letter :: letters) : letter.val + 1 < 26 := by
  have hne : letter ≠ 25 := fun heq => h (by simp [heq])
  have hval : letter.val ≠ 25 := fun heq => hne (Fin.ext heq)
  omega

theorem scsiLetters_of_letters {letter : Fin 26} {letters : List (Fin 26)}
    (h : 25 ∉ letter :: letters) : ∃ post : Nat,
      scsiSum (lettersText (letter :: letters)).reverse = post ∧
        26 ^ letters.length ≤ post ∧ post < 26 ^ (letters.length + 1) ∧
        scsiLetters letters.length post = lettersText (letter :: letters) := by
  have hsmall := digit_lt h
  induction letters generalizing letter with
  | nil =>
      refine ⟨letter.val + 1, ?_, ?_, ?_, ?_⟩
      · simp [lettersText, scsiSum, letterValue]
      · simp
      · simpa using hsmall
      · have hcode : 96 + (letter.val + 1) = 97 + letter.val := by omega
        simp [lettersText, scsiLetters, hcode]
  | cons next letters ih =>
      have hnext : 25 ∉ next :: letters := fun hmem => h (List.mem_cons_of_mem letter hmem)
      obtain ⟨post, hsum, -, hlt, hletters⟩ := ih hnext (digit_lt hnext)
      have hlength : (next :: letters).length = letters.length + 1 := rfl
      refine ⟨post + 26 ^ (letters.length + 1) * (letter.val + 1), ?_, ?_, ?_, ?_⟩
      · have hreverse : (lettersText (letter :: next :: letters)).reverse =
            (lettersText (next :: letters)).reverse ++ [Char.ofNat (97 + letter.val)] := by
          simp [lettersText]
        rw [hreverse, scsiSum_append, hsum, letterValue]
        simp [lettersText]
      · rw [hlength]
        nlinarith
      · rw [hlength, pow_succ 26 (letters.length + 1)]
        nlinarith
      · have hcode : 96 + (letter.val + 1) = 97 + letter.val := by omega
        rw [hlength, scsiLetters, Nat.add_mul_div_left _ _ (Nat.pow_pos (by decide)),
          Nat.div_eq_of_lt hlt, Nat.zero_add, hcode, Nat.add_mul_mod_self_left,
          Nat.mod_eq_of_lt hlt, hletters]
        rfl

/-! ## There and back -/

/-- The name that `M.scsi_to_phys` makes of the id of a name.  A negative
number does not match its pattern. -/
def physToScsiToPhys (name : String) : Except Error String := do
  let number ← physToScsiText name
  if 0 ≤ number then scsiToPhys ⟨0, number.toNat⟩
  else .error (.assertion "Invalid internal ID")

theorem root_alphanumeric (disk : DiskName) :
    ∀ c ∈ disk.root, Pattern.alphanumeric c = true := by
  intro c hc
  obtain ⟨letter, -, rfl⟩ := List.mem_map.mp hc
  clear hc
  revert letter
  decide

theorem physToScsiText_disk (disk : DiskName) :
    physToScsiText (diskText disk) = physToScsi (.disk disk) := by
  have hne : disk.root ≠ [] := fun heq => disk.nonempty (List.map_eq_nil_iff.mp heq)
  have htext : diskText disk = String.ofList ('s' :: 'd' :: disk.root) := by
    apply String.toList_injective
    simp [diskText]
  rw [htext, physToScsiText_ok hne (root_alphanumeric disk)]
  rfl

theorem physToScsiToPhys_disk (disk : DiskName) :
    physToScsiToPhys (diskText disk) = scsiToPhys disk.id := by
  rw [physToScsiToPhys, physToScsiText_disk]
  exact if_pos (scsiSum_pos disk).le

private theorem z_mem_root (disk : DiskName) : 'z' ∈ disk.root ↔ 25 ∈ disk.letters := by
  have hletter : ∀ letter : Fin 26, Char.ofNat (97 + letter.val) = 'z' ↔ letter = 25 := by
    decide
  simp [DiskName.root, hletter]

theorem physToScsiToPhys_iff (disk : DiskName) :
    physToScsiToPhys (diskText disk) = .ok (diskText disk) ↔ 'z' ∉ disk.root := by
  rw [physToScsiToPhys_disk, scsiToPhys_eq_iff]
  constructor
  · rintro ⟨-, -, hroot⟩
    rw [← hroot]
    exact z_notMem_scsiLetters (Nat.lt_pow_succ_log_self (by decide) _)
  · intro hz
    rw [z_mem_root] at hz
    obtain ⟨letters, hne⟩ := disk
    cases letters with
    | nil => exact absurd rfl hne
    | cons letter letters =>
        obtain ⟨post, hsum, hle, hlt, hletters⟩ := scsiLetters_of_letters hz
        have hright : (DiskName.id ⟨letter :: letters, hne⟩).right = post := by
          change (scsiSum (lettersText (letter :: letters)).reverse).toNat = post
          rw [hsum, Int.toNat_natCast]
        have hpos : post ≠ 0 := (lt_of_lt_of_le (Nat.pow_pos (by decide)) hle).ne'
        have hlog : Nat.log 26 post = letters.length :=
          Nat.log_eq_of_pow_le_of_lt_pow hle hlt
        rw [hright, hlog]
        exact ⟨rfl, hpos, hletters⟩

/-- `sdz` has the id `0:26`, which is read as the two digits 1 and 0. -/
theorem sdz_not_found_again :
    physToScsiToPhys "sdz" = .ok "sda`" ∧
      ¬ physToScsiToPhys (diskText sdz) = .ok (diskText sdz) := by
  decide +kernel

/-! ## The list of the disks -/

inductive DeviceType where
  | md
  | sd
  deriving DecidableEq

/-- The tests of `list_devices` on an entry of `/sys/block`. -/
def deviceType (ent : String) (hasMd : Bool) : Option DeviceType :=
  if hasMd then some .md
  else if ent.toList.take 3 = "sda".toList then none
  else if ent.toList.take 2 = "sd".toList then some .sd
  else none

theorem diskText_toList (disk : DiskName) :
    (diskText disk).toList = 's' :: 'd' :: disk.root := by
  simp [diskText]

private theorem take_root (disk : DiskName) :
    (diskText disk).toList.take 3 = "sda".toList ↔ disk.letters.head? = some 0 := by
  have hletter : ∀ letter : Fin 26, Char.ofNat (97 + letter.val) = 'a' ↔ letter = 0 := by
    decide
  rw [diskText_toList, DiskName.root]
  cases disk.letters with
  | nil => simp
  | cons letter letters => simp [hletter]

theorem deviceType_disk (disk : DiskName) :
    deviceType (diskText disk) false = some .sd ↔
      (diskText disk).toList.take 3 ≠ "sda".toList := by
  by_cases hroot : (diskText disk).toList.take 3 = "sda".toList
  · simp only [deviceType, Bool.false_eq_true, if_false, if_pos hroot]
    simp [hroot]
  · have htype : (diskText disk).toList.take 2 = "sd".toList := by
      rw [diskText_toList]
      rfl
    simp only [deviceType, Bool.false_eq_true, if_false, if_neg hroot, if_pos htype]
    simpa using hroot

theorem listed_iff_deviceType {sysfs : Sysfs} {disk : DiskName} :
    sysfs.listed (.disk disk) = true ↔
      disk ∈ sysfs.disks.keys ∧ deviceType (diskText disk) false = some .sd := by
  rw [Sysfs.mem_listedDisks, deviceType_disk, Ne, take_root]
  simp only [Sysfs.listedDisks, List.mem_filter, decide_eq_true_eq, exists_and_right]
  refine and_congr_left' ?_
  rw [AList.keys, List.mem_keys]

/-- Every disk but `sda` is listed, with one record, and `sda` has none. -/
def DisksListed (sysfs : Sysfs) (order : Order) : Prop :=
  (∀ disk ∈ sysfs.disks.keys, disk ≠ sda → sysfs.listed (.disk disk) = true) ∧
    ∃ physicals, sysfs.physicals order = .ok physicals ∧
      physicals.keys.Perm ((sysfs.disks.keys.filter (· ≠ sda)).map DiskName.id) ∧
      sda.id ∉ physicals.keys

def RootAlone (sysfs : Sysfs) : Prop :=
  ∀ disk ∈ sysfs.disks.keys, (diskText disk).toList.take 3 = "sda".toList → disk = sda

def DataDisk (sysfs : Sysfs) (name : BlockName) : Prop :=
  ∃ disk ∈ sysfs.disks.keys, disk ≠ sda ∧ name = .disk disk

def DataArrays (sysfs : Sysfs) : Prop :=
  ∀ array ∈ sysfs.listedArrays, (∃ slave ∈ array.slaves, DataDisk sysfs slave.name) →
    ∀ slave ∈ array.slaves, DataDisk sysfs slave.name

theorem rootAlone_iff {sysfs : Sysfs} : RootAlone sysfs ↔
    ∀ disk ∈ sysfs.disks.keys, disk ≠ sda → sysfs.listed (.disk disk) = true := by
  constructor
  · intro h disk hdisk hne
    rw [listed_iff_deviceType, deviceType_disk]
    exact ⟨hdisk, fun hroot => hne (h disk hdisk hroot)⟩
  · intro h disk hdisk hroot
    by_contra hne
    exact (deviceType_disk disk).mp (listed_iff_deviceType.mp (h disk hdisk hne)).2 hroot

theorem sda_not_listed (sysfs : Sysfs) : sysfs.listed (.disk sda) = false := by
  rw [Bool.eq_false_iff]
  intro hlisted
  have htype := (listed_iff_deviceType.mp hlisted).2
  exact absurd htype (by decide +kernel)

theorem RootAlone.listed_iff {sysfs : Sysfs} (h : RootAlone sysfs) {disk : DiskName} :
    sysfs.listed (.disk disk) = true ↔ disk ∈ sysfs.disks.keys ∧ disk ≠ sda := by
  constructor
  · intro hlisted
    refine ⟨(listed_iff_deviceType.mp hlisted).1, ?_⟩
    rintro rfl
    rw [sda_not_listed] at hlisted
    cases hlisted
  · rintro ⟨hdisk, hne⟩
    exact rootAlone_iff.mp h disk hdisk hne

theorem RootAlone.membersListed_iff {sysfs : Sysfs} (h : RootAlone sysfs) :
    sysfs.MembersListed ↔ DataArrays sysfs := by
  constructor
  · rintro hmembers array harray ⟨slave, hslave, disk, hdisk, hne, hname⟩ other hother
    obtain ⟨hlisted, otherDisk, hotherName⟩ := hmembers array harray disk
      (h.listed_iff.mpr ⟨hdisk, hne⟩) (hname ▸ List.mem_map_of_mem hslave) other hother
    rw [hotherName, h.listed_iff] at hlisted
    exact ⟨otherDisk, hlisted.1, hlisted.2, hotherName⟩
  · intro hdata array harray disk hdisk hmember other hother
    obtain ⟨slave, hslave, hname⟩ := List.mem_map.mp hmember
    have hdisk := h.listed_iff.mp hdisk
    obtain ⟨otherDisk, hmem, hne, hotherName⟩ := hdata array harray
      ⟨slave, hslave, disk, hdisk.1, hdisk.2, hname⟩ other hother
    refine ⟨?_, otherDisk, hotherName⟩
    rw [hotherName, h.listed_iff]
    exact ⟨hmem, hne⟩

def DataFiles (sysfs : Sysfs) : Prop :=
  ∀ disk ∈ sysfs.disks.keys, disk ≠ sda →
    Sysfs.Legible (sysfs.files disk).model ∧ Sysfs.Legible (sysfs.files disk).revision

theorem RootAlone.disksLegible_iff {sysfs : Sysfs} (h : RootAlone sysfs) :
    sysfs.DisksLegible ↔ DataFiles sysfs := by
  constructor
  · intro hlegible disk hdisk hne
    exact hlegible disk (h.listed_iff.mpr ⟨hdisk, hne⟩)
  · intro hfiles disk hlisted
    obtain ⟨hdisk, hne⟩ := h.listed_iff.mp hlisted
    exact hfiles disk hdisk hne

def sdaaAttached : Sysfs where
  disks := ((∅ : Table DiskName Nat).insert sda 1000).insert sdaa 1000
  files := fun _ => .sample
  arrays := []
  ids_nodup := List.nodup_nil
  caches := []

end OpenSan.Storage
