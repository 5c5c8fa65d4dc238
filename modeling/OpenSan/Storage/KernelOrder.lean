import Mathlib.Data.List.Perm.Basic
import Mathlib.Data.Set.List
import OpenSan.Einarc.SortedDisks
import OpenSan.Foundation.Double
import OpenSan.Storage.DiskNames

/-!
# Disks in the order of the kernel

The kernel names its disks `sda` to `sdz` and goes on with `sdaa`, and
`M.phys_to_scsi` counts in the same order.  The sum of the letters is a double,
though, and a double of 15 digits is written with an exponent, so that the
disks after `sdrjvlunwluu` have no id.
-/

namespace OpenSan.Storage

open OpenSan.Foundation OpenSan.Einarc

/-! ## Names and their order -/

def isDiskName (name : String) : Bool :=
  match name.toList with
  | 's' :: 'd' :: root => root ≠ [] && root.all fun c => 'a' ≤ c && c ≤ 'z'
  | _ => false

/-- Shorter first, then alphabetical. -/
def KernelBefore (first second : String) : Prop :=
  first.length < second.length ∨ first.length = second.length ∧ first < second

instance : DecidableRel KernelBefore := fun first second =>
  inferInstanceAs (Decidable
    (first.length < second.length ∨ first.length = second.length ∧ first < second))

def lastDisk : String := "sdrjvlunwluu"

/-! ## Ids -/

def letterSum (sum : Double) (i : Nat) : List Char → Double
  | [] => sum
  | c :: cs =>
      letterSum (sum.add ((Double.ofInt ((c.toNat : Int) - 97 + 1)).mul (.ofInt (26 ^ i))))
        (i + 1) cs

/-- `M.phys_to_scsi`, with the numbers of the interpreter. -/
def physToScsiId (name : String) : Except Error String :=
  match Pattern.anchored deviceRegexp name.toList with
  | some [pre, root] =>
      if pre = ['s'] then .ok ("0:" ++ (letterSum (.ofInt 0) 0 root.reverse).toText)
      else .error (.assertion "Only SCSI devices supported")
  | _ => .error (.assertion "Invalid device name")

/-- `M.Physical.split_id`.  The digits in the id of a disk are less than 15, so
that their number is the exact one. -/
def splitDiskId (id : String) : Except Error (Nat × Nat) := splitId (fun number => number) id

def numericPart (name : String) : Except Error Nat := do
  let id ← physToScsiId name
  let parts ← splitDiskId id
  pure parts.2

def sortDisks (first second : String) : Except Error Bool := do
  let id1 ← physToScsiId first
  let id2 ← physToScsiId second
  sortPhysicalIdTexts (fun number => number) id1 id2

def idsBefore (id1 id2 : String) : Bool :=
  numbersBefore (idNumbers (fun number => number) id1) (idNumbers (fun number => number) id2)

def sortIds (ids : List String) : Except Error (List String) := do
  ids.forM checkId
  Sort.sort idsBefore ids

/-! ## The letters of a name -/

private theorem lowercase_letter (letter : Fin 26) :
    'a' ≤ Char.ofNat (97 + letter.val) ∧ Char.ofNat (97 + letter.val) ≤ 'z' := by
  revert letter
  decide

private theorem exists_letter {c : Char} (hc : 'a' ≤ c ∧ c ≤ 'z') :
    ∃ letter : Fin 26, Char.ofNat (97 + letter.val) = c := by
  have hlow : 97 ≤ c.toNat := hc.1
  have hhigh : c.toNat ≤ 122 := hc.2
  refine ⟨⟨c.toNat - 97, by omega⟩, ?_⟩
  have hcode : 97 + (c.toNat - 97) = c.toNat := by omega
  rw [hcode, Char.ofNat_toNat]

private theorem exists_letters {root : List Char}
    (h : ∀ c ∈ root, 'a' ≤ c ∧ c ≤ 'z') : ∃ letters : List (Fin 26),
      letters.map (fun letter => Char.ofNat (97 + letter.val)) = root := by
  have hrange : root ∈ Set.range (List.map fun letter : Fin 26 =>
      Char.ofNat (97 + letter.val)) := by
    rw [Set.range_list_map]
    exact fun c hc => exists_letter (h c hc)
  exact hrange

theorem isDiskName_diskText (disk : DiskName) : isDiskName (diskText disk) = true := by
  have hne : disk.root ≠ [] := fun heq => disk.nonempty (List.map_eq_nil_iff.mp heq)
  have hroot : ∀ c ∈ disk.root, 'a' ≤ c ∧ c ≤ 'z' := by
    intro c hc
    obtain ⟨letter, -, rfl⟩ := List.mem_map.mp hc
    exact lowercase_letter letter
  simp only [isDiskName, diskText_toList]
  simpa [hne] using hroot

theorem exists_disk {name : String} (h : isDiskName name = true) :
    ∃ disk : DiskName, diskText disk = name := by
  unfold isDiskName at h
  split at h
  · rename_i root hname
    simp only [ne_eq, decide_not, Bool.and_eq_true, Bool.not_eq_true', decide_eq_false_iff_not,
      List.all_eq_true, decide_eq_true_eq] at h
    obtain ⟨letters, hletters⟩ := exists_letters h.2
    have hne : letters ≠ [] := by
      rintro rfl
      exact h.1 hletters.symm
    refine ⟨⟨letters, hne⟩, ?_⟩
    apply String.toList_injective
    rw [diskText_toList, hname, DiskName.root, hletters]
  · cases h

theorem exists_disks {names : List String} (h : ∀ name ∈ names, isDiskName name = true) :
    ∃ disks : List DiskName, disks.map diskText = names := by
  have hrange : names ∈ Set.range (List.map diskText) := by
    rw [Set.range_list_map]
    exact fun name hname => exists_disk (h name hname)
  exact hrange

/-! ## The order of the letters -/

private theorem letter_lt_iff (letter letter' : Fin 26) :
    Char.ofNat (97 + letter.val) < Char.ofNat (97 + letter'.val) ↔ letter < letter' := by
  revert letter letter'
  decide +kernel

private theorem letter_eq_iff (letter letter' : Fin 26) :
    Char.ofNat (97 + letter.val) = Char.ofNat (97 + letter'.val) ↔ letter = letter' := by
  revert letter letter'
  decide +kernel

private theorem root_lt_iff (letters letters' : List (Fin 26)) :
    letters.map (fun letter => Char.ofNat (97 + letter.val)) <
        letters'.map (fun letter => Char.ofNat (97 + letter.val)) ↔ letters < letters' := by
  induction letters generalizing letters' with
  | nil => cases letters' with
    | nil => simp
    | cons letter' letters' => simp
  | cons letter letters ih =>
      cases letters' with
      | nil => simp
      | cons letter' letters' =>
          simp only [List.map_cons, List.cons_lt_cons_iff, letter_lt_iff, letter_eq_iff, ih]

theorem kernelBefore_iff_value (disk disk' : DiskName) :
    KernelBefore (diskText disk) (diskText disk') ↔
      Numeration.value disk.letters < Numeration.value disk'.letters := by
  have hlength : ∀ disk : DiskName, (diskText disk).length = disk.letters.length + 2 := by
    intro disk
    rw [← String.length_toList, diskText_toList]
    simp [DiskName.root]
  have hlex : diskText disk < diskText disk' ↔
      List.Lex (· < ·) disk.letters disk'.letters := by
    rw [String.lt_iff_toList_lt, diskText_toList, diskText_toList, ← List.lt_iff_lex_lt]
    simpa [DiskName.root] using root_lt_iff disk.letters disk'.letters
  rw [Numeration.value_lt_iff, List.shortlex_def, KernelBefore, hlength, hlength, hlex]
  simp

/-! ## The sum of the letters -/

theorem letterSum_tracks (letters : List (Fin 26)) (sum : Double) (i n : Nat)
    (hsum : sum.Tracks n) :
    (letterSum sum i (letters.map fun letter => Char.ofNat (97 + letter.val))).Tracks
      (n + 26 ^ i * Numeration.value letters.reverse) := by
  induction letters generalizing sum i n with
  | nil => simpa [letterSum, Numeration.value] using hsum
  | cons letter letters ih =>
      have hletter : (Double.ofInt ((Char.ofNat (97 + letter.val)).toNat - 97 + 1)).Tracks
          (letter.val + 1) := by
        apply Double.tracks_ofInt
        rw [letterValue]
        exact_mod_cast Double.close_self (letter.val + 1)
      have hpower : (Double.ofInt (26 ^ i)).Tracks (26 ^ i) := by
        apply Double.tracks_ofInt
        exact_mod_cast Double.close_self (26 ^ i)
      have hterm := hletter.mul hpower (Nat.succ_pos _) (Nat.pow_pos (by decide))
      have hrest := ih _ (i + 1) _ (hsum.add hterm)
      have hvalue : n + (letter.val + 1) * 26 ^ i +
          26 ^ (i + 1) * Numeration.value letters.reverse =
            n + 26 ^ i * Numeration.value (letter :: letters).reverse := by
        rw [List.reverse_cons, Numeration.value_concat, pow_succ]
        ring
      rw [hvalue] at hrest
      exact hrest

theorem physToScsiId_disk (disk : DiskName) : ∃ sum : Double,
    sum.Tracks (Numeration.value disk.letters) ∧
      physToScsiId (diskText disk) = .ok ("0:" ++ sum.toText) := by
  have hne : disk.root ≠ [] := fun heq => disk.nonempty (List.map_eq_nil_iff.mp heq)
  refine ⟨letterSum (.ofInt 0) 0 disk.root.reverse, ?_, ?_⟩
  · have hzero : (Double.ofInt 0).Tracks 0 := Double.tracks_ofInt (Double.close_self 0)
    have hrun := letterSum_tracks disk.letters.reverse (.ofInt 0) 0 0 hzero
    simpa [DiskName.root, List.map_reverse] using hrun
  · rw [physToScsiId, diskText_toList, anchored_deviceRegexp hne (root_alphanumeric disk)]
    rfl

/-! ## Identifiers -/

private theorem zero_digits : ∀ c ∈ ['0'], Pattern.digit c = true := by
  intro c hc
  obtain rfl := List.mem_singleton.mp hc
  decide

private theorem idText_toList (text : String) :
    ("0:" ++ text).toList = ['0'] ++ ':' :: text.toList := by
  rw [String.toList_append]
  rfl

theorem splitDiskId_toString (n : Nat) : splitDiskId ("0:" ++ toString n) = .ok (0, n) := by
  have hid := idText_toList (toString n)
  have hright : (toString n).toList ≠ [] := by simp
  have hisId := isId_of_split hid (by simp) hright zero_digits fun _ => Pattern.digit_toString
  rw [splitDiskId, splitId, if_pos hisId, idNumbers_eq _ hisId, partNumbers,
    leftPart_eq hid zero_digits, rightPart_eq hid zero_digits, tonumber, tonumber,
    Number.digitsValue_toString]
  rfl

theorem splitId_not_digits {text : String} {c : Char} (hc : c ∈ text.toList)
    (hdigit : Pattern.digit c = false) :
    splitDiskId ("0:" ++ text) = .error (.assertion "incorrect physical id") := by
  have hnot : isId ("0:" ++ text) = false := by
    by_contra hisId
    obtain ⟨left, right, hsplit, -, -, hleft, hright⟩ :=
      split_of_isId (by simpa using hisId)
    have htext : text.toList = right :=
      (rightPart_eq (idText_toList text) zero_digits).symm.trans (rightPart_eq hsplit hleft)
    have htrue := hright c (htext ▸ hc)
    simp [hdigit] at htrue
  rw [splitDiskId, splitId, hnot]
  rfl

/-! ## Ids of the disks up to the last -/

private theorem exists_lastDisk : ∃ last : DiskName,
    lastDisk = diskText last ∧ Numeration.value last.letters = 10 ^ 14 - 1 :=
  ⟨⟨[17, 9, 21, 11, 20, 13, 22, 11, 20, 20], List.cons_ne_nil _ _⟩, by decide +kernel,
    by decide +kernel⟩

theorem kernelBefore_lastDisk_iff (disk : DiskName) :
    KernelBefore lastDisk (diskText disk) ↔ 10 ^ 14 ≤ Numeration.value disk.letters := by
  obtain ⟨last, hlast, hvalue⟩ := exists_lastDisk
  rw [hlast, kernelBefore_iff_value, hvalue]
  omega

theorem physToScsiId_eq {disk : DiskName} (h : ¬ KernelBefore lastDisk (diskText disk)) :
    physToScsiId (diskText disk) =
      .ok ("0:" ++ toString (Numeration.value disk.letters)) := by
  obtain ⟨sum, hsum, hid⟩ := physToScsiId_disk disk
  rw [kernelBefore_lastDisk_iff, not_le] at h
  rw [hid, Double.toText_of_tracks hsum h]

theorem numericPart_eq {disk : DiskName} (h : ¬ KernelBefore lastDisk (diskText disk)) :
    numericPart (diskText disk) = .ok (Numeration.value disk.letters) := by
  rw [numericPart, physToScsiId_eq h, ok_bind, splitDiskId_toString, ok_bind]
  rfl

theorem numericPart_past {disk : DiskName} (h : KernelBefore lastDisk (diskText disk)) :
    numericPart (diskText disk) = .error (.assertion "incorrect physical id") := by
  obtain ⟨sum, hsum, hid⟩ := physToScsiId_disk disk
  obtain ⟨c, hc, hdigit⟩ :=
    Double.toText_not_digits hsum ((kernelBefore_lastDisk_iff disk).mp h)
  rw [numericPart, hid, ok_bind, splitId_not_digits hc hdigit]
  rfl

/-- What the order of the ids means for two disks. -/
def InKernelOrder (first second : String) : Prop :=
  (∃ number number', numericPart first = .ok number ∧ numericPart second = .ok number' ∧
    (KernelBefore first second ↔ number < number')) ∧
  sortDisks first second = .ok (decide (KernelBefore first second)) ∧
  (physToScsiId first = physToScsiId second → first = second)

theorem sortDisks_eq {disk disk' : DiskName}
    (h : ¬ KernelBefore lastDisk (diskText disk))
    (h' : ¬ KernelBefore lastDisk (diskText disk')) :
    sortDisks (diskText disk) (diskText disk') =
      .ok (decide (KernelBefore (diskText disk) (diskText disk'))) := by
  have hfirst := splitDiskId_toString (Numeration.value disk.letters)
  have hsecond := splitDiskId_toString (Numeration.value disk'.letters)
  unfold splitDiskId at hfirst hsecond
  simp only [sortDisks, physToScsiId_eq h, physToScsiId_eq h', ok_bind, sortPhysicalIdTexts,
    hfirst, hsecond, kernelBefore_iff_value]
  rfl

theorem diskText_injective {disk disk' : DiskName}
    (h : Numeration.value disk.letters = Numeration.value disk'.letters) :
    diskText disk = diskText disk' := by
  rw [diskText, diskText, DiskName.root, DiskName.root, Numeration.value_injective h]

theorem inKernelOrder_iff (disk disk' : DiskName) :
    InKernelOrder (diskText disk) (diskText disk') ↔
      ¬ KernelBefore lastDisk (diskText disk) ∧ ¬ KernelBefore lastDisk (diskText disk') := by
  constructor
  · rintro ⟨⟨number, number', hnumber, hnumber', -⟩, -, -⟩
    constructor
    · intro hpast
      rw [numericPart_past hpast] at hnumber
      cases hnumber
    · intro hpast
      rw [numericPart_past hpast] at hnumber'
      cases hnumber'
  · rintro ⟨h, h'⟩
    refine ⟨⟨_, _, numericPart_eq h, numericPart_eq h', kernelBefore_iff_value disk disk'⟩,
      sortDisks_eq h h', ?_⟩
    intro hid
    have hpart : numericPart (diskText disk) = numericPart (diskText disk') := by
      rw [numericPart, numericPart, hid]
    rw [numericPart_eq h, numericPart_eq h'] at hpart
    exact diskText_injective (Except.ok.inj hpart)

/-! ## Every number has a disk -/

theorem exists_diskText {number : Nat} (h : 0 < number) :
    ∃ disk : DiskName, Numeration.value disk.letters = number := by
  obtain ⟨letters, hletters⟩ := Numeration.value_surjective (b := 26) (by decide) number
  refine ⟨⟨letters, ?_⟩, hletters⟩
  rintro rfl
  have hzero : number = 0 := hletters.symm
  omega

theorem numericPart_eq_iff {disk : DiskName} {number : Nat} :
    numericPart (diskText disk) = .ok number ↔
      ¬ KernelBefore lastDisk (diskText disk) ∧ Numeration.value disk.letters = number := by
  by_cases hpast : KernelBefore lastDisk (diskText disk)
  · simp [numericPart_past hpast, hpast]
  · simp [numericPart_eq hpast, hpast]

theorem existsUnique_numericPart {number : Nat} (hpos : 0 < number) (hlt : number < 10 ^ 14) :
    ∃! name, isDiskName name = true ∧ numericPart name = .ok number := by
  obtain ⟨disk, hdisk⟩ := exists_diskText hpos
  have hnot : ¬ KernelBefore lastDisk (diskText disk) := by
    rw [kernelBefore_lastDisk_iff]
    omega
  refine ⟨diskText disk, ⟨isDiskName_diskText disk, ?_⟩, ?_⟩
  · exact numericPart_eq_iff.mpr ⟨hnot, hdisk⟩
  rintro name ⟨hname, hpart⟩
  obtain ⟨disk', rfl⟩ := exists_disk hname
  exact diskText_injective ((numericPart_eq_iff.mp hpart).2.trans hdisk.symm)

/-! ## Exact numbers -/

theorem physToScsiText_value (disk : DiskName) :
    physToScsiText (diskText disk) = .ok (Numeration.value disk.letters : Int) := by
  rw [physToScsiText_disk, physToScsi, scsiSum_root]

theorem existsUnique_physToScsiText {number : Int} (h : 0 < number) :
    ∃! name, isDiskName name = true ∧ physToScsiText name = .ok number := by
  obtain ⟨disk, hdisk⟩ := exists_diskText (show 0 < number.toNat by omega)
  refine ⟨diskText disk, ⟨isDiskName_diskText disk, ?_⟩, ?_⟩
  · rw [physToScsiText_value, hdisk, Int.toNat_of_nonneg h.le]
  · rintro name ⟨hname, hid⟩
    obtain ⟨disk', rfl⟩ := exists_disk hname
    rw [physToScsiText_value] at hid
    have hnumber := Except.ok.inj hid
    exact diskText_injective (by omega)

/-! ## Sorted lists of disks -/

private def idText (disk : DiskName) : String :=
  "0:" ++ toString (Numeration.value disk.letters)

private theorem checkId_idText (disk : DiskName) : checkId (idText disk) = .ok () := by
  have hsplit := splitDiskId_toString (Numeration.value disk.letters)
  unfold splitDiskId splitId at hsplit
  unfold checkId idText
  split at hsplit
  · rename_i hisId
    rw [if_pos hisId]
  · cases hsplit

private theorem idsBefore_idText (disk disk' : DiskName) :
    idsBefore (idText disk) (idText disk') =
      decide (KernelBefore (diskText disk) (diskText disk')) := by
  have hnumbers : ∀ disk : DiskName, idNumbers (fun number => number) (idText disk) =
      (0, Numeration.value disk.letters) := by
    intro disk
    have hsplit := splitDiskId_toString (Numeration.value disk.letters)
    unfold splitDiskId splitId at hsplit
    split at hsplit
    · exact Except.ok.inj hsplit
    · cases hsplit
  simp only [idsBefore, hnumbers, numbersBefore, if_true, kernelBefore_iff_value]

private theorem mapM_physToScsiId {disks : List DiskName}
    (h : ∀ disk ∈ disks, ¬ KernelBefore lastDisk (diskText disk)) :
    (disks.map diskText).mapM physToScsiId = .ok (disks.map idText) := by
  induction disks with
  | nil => rfl
  | cons disk disks ih =>
      have hdisk := physToScsiId_eq (h disk List.mem_cons_self)
      have hrest := ih fun disk' hdisk' => h disk' (List.mem_cons_of_mem disk hdisk')
      rw [List.map_cons, List.mapM_cons, hdisk, hrest]
      rfl

theorem sortIds_names {names : List String}
    (hnames : ∀ name ∈ names, isDiskName name = true ∧ ¬ KernelBefore lastDisk name) :
    ∃ sorted : List String, sorted.Perm names ∧
      sorted.Pairwise (fun first second => ¬ KernelBefore second first) ∧
      ∃ ids, sorted.mapM physToScsiId = .ok ids ∧
        (names.mapM physToScsiId >>= sortIds) = .ok ids := by
  obtain ⟨disks, rfl⟩ := exists_disks fun name hname => (hnames name hname).1
  have hlast : ∀ disk ∈ disks, ¬ KernelBefore lastDisk (diskText disk) :=
    fun disk hdisk => (hnames _ (List.mem_map_of_mem hdisk)).2
  have hweak : Sort.StrictWeak idsBefore :=
    (numbersBefore_strictWeak (ν := Nat)).comap (idNumbers fun number => number)
  obtain ⟨ids, hsort, hperm, hsorted⟩ := Sort.sort_sorted hweak (disks.map idText)
  have hrange : Relation.Comp (fun ids disks => ids = List.map idText disks) List.Perm
      ids disks := by
    rw [List.eq_map_comp_perm]
    exact hperm
  obtain ⟨sorted, rfl, hdisks⟩ := hrange
  refine ⟨sorted.map diskText, hdisks.map diskText, ?_, ?_⟩
  · rw [List.pairwise_map] at hsorted ⊢
    refine hsorted.imp fun {disk disk'} hnot => ?_
    rw [idsBefore_idText] at hnot
    simpa using hnot
  · have hcheck : (disks.map idText).forM checkId = .ok () := by
      rw [forM_eq_ok]
      intro id hid
      obtain ⟨disk, -, rfl⟩ := List.mem_map.mp hid
      exact checkId_idText disk
    refine ⟨sorted.map idText,
      mapM_physToScsiId fun disk hdisk => hlast disk (hdisks.mem_iff.mp hdisk), ?_⟩
    rw [mapM_physToScsiId hlast, ok_bind, sortIds, hcheck, ok_bind, hsort]

/-! ## The order of the ids -/

/-- With exact numbers the ids of all disks have the order of the kernel.  With those of
the interpreter it is the order of the disks up to the last, and no other. -/
theorem ids_inKernelOrder :
    (∀ first second, isDiskName first = true → isDiskName second = true →
      ∃ number number', physToScsiText first = .ok number ∧
        physToScsiText second = .ok number' ∧
        (KernelBefore first second ↔ number < number')) ∧
    (∀ number : Int, 0 < number →
      ∃! name, isDiskName name = true ∧ physToScsiText name = .ok number) ∧
    (∀ first second, isDiskName first = true → isDiskName second = true →
      (InKernelOrder first second ↔
        ¬ KernelBefore lastDisk first ∧ ¬ KernelBefore lastDisk second)) ∧
    (∀ number, 0 < number → number < 10 ^ 14 →
      ∃! name, isDiskName name = true ∧ numericPart name = .ok number) ∧
    ∀ names : List String,
      (∀ name ∈ names, isDiskName name = true ∧ ¬ KernelBefore lastDisk name) →
      ∃ sorted : List String, sorted.Perm names ∧
        sorted.Pairwise (fun first second => ¬ KernelBefore second first) ∧
        ∃ ids, sorted.mapM physToScsiId = .ok ids ∧
          (names.mapM physToScsiId >>= sortIds) = .ok ids := by
  refine ⟨?_, fun number => existsUnique_physToScsiText, ?_,
    fun number => existsUnique_numericPart, fun names => sortIds_names⟩
  · intro first second hfirst hsecond
    obtain ⟨disk, rfl⟩ := exists_disk hfirst
    obtain ⟨disk', rfl⟩ := exists_disk hsecond
    refine ⟨_, _, physToScsiText_value disk, physToScsiText_value disk', ?_⟩
    rw [kernelBefore_iff_value]
    omega
  · intro first second hfirst hsecond
    obtain ⟨disk, rfl⟩ := exists_disk hfirst
    obtain ⟨disk', rfl⟩ := exists_disk hsecond
    exact inKernelOrder_iff disk disk'

/-- The two disks after the last one share the text `0:1e+14`. -/
theorem disksPastLast_oneId :
    isDiskName "sdrjvlunwluv" = true ∧ isDiskName "sdrjvlunwluw" = true ∧
      KernelBefore "sdrjvlunwluv" "sdrjvlunwluw" ∧
      physToScsiId "sdrjvlunwluv" = .ok "0:1e+14" ∧
      physToScsiId "sdrjvlunwluw" = .ok "0:1e+14" ∧
      sortDisks "sdrjvlunwluv" "sdrjvlunwluw" =
        .error (.assertion "incorrect physical id") ∧
      ¬ InKernelOrder "sdrjvlunwluv" "sdrjvlunwluw" := by
  have hfirst : physToScsiId "sdrjvlunwluv" = .ok "0:1e+14" := by decide +kernel
  have hsecond : physToScsiId "sdrjvlunwluw" = .ok "0:1e+14" := by decide +kernel
  refine ⟨by decide +kernel, by decide +kernel, by decide +kernel, hfirst, hsecond,
    by decide +kernel, ?_⟩
  rintro ⟨-, -, hone⟩
  exact absurd (hone (hfirst.trans hsecond.symm)) (by decide)

end OpenSan.Storage
