import Mathlib.Data.Finset.Card
import Mathlib.Data.Nat.Find
import OpenSan.Lvm.Names
import OpenSan.Matrix.Sheet

/-!
# Names of snapshots

`M.LogicalVolume:snapshot` makes the name of a snapshot out of the name of the
volume and the time.  While the name is taken it goes on to the next second,
which it appends to the name that it has already made.  `lvcreate` is not part
of the repository: `Lvcreate` says what is known of it.
-/

namespace OpenSan.Lvm

open OpenSan.Foundation

/-! ## Dates -/

structure DateTime where
  year : Nat
  month : Nat
  day : Nat
  hour : Nat
  minute : Nat
  second : Nat
  year_bounds : 1000 ≤ year ∧ year < 10000
  date_bounds : month ≤ 12 ∧ day ≤ 31
  time_bounds : hour ≤ 23 ∧ minute ≤ 59 ∧ second ≤ 61

def twoDigits (n : Nat) : String := if n < 10 then "0" ++ toString n else toString n

/-- `os.date("_%Y-%m-%d_%H-%M-")`. -/
def DateTime.text (now : DateTime) : String :=
  "_" ++ toString now.year ++ "-" ++ twoDigits now.month ++ "-" ++ twoDigits now.day ++
    "_" ++ twoDigits now.hour ++ "-" ++ twoDigits now.minute ++ "-"

/-! ## The retries -/

structure Output where
  stdout : List String
  stderr : List String

def Output.alreadyExists (output : Output) : Bool :=
  output.stderr.any fun line => (Pattern.search
    (Pattern.literal "already exists in volume group") line.toList).isSome

def Output.created (output : Output) : Bool :=
  output.stdout.any fun line => (Pattern.search (Pattern.literal "Logical volume \"" ++
    Pattern.plus Pattern.any ++ Pattern.literal "\" created") line.toList).isSome

/-- What `snapshot_create` makes of an answer that is not about a taken name. -/
def Output.conclude (output : Output) (name : String) : Except Error String :=
  if output.created then .ok name
  else .error (.failure ("lvm:LogicalVolume:snapshot() failed: " ++
    String.intercalate "\n" output.stdout))

/-- `lvcreate -s -n name -L size device` in a group with the given volumes.  It
may fail for other reasons than a name that is taken. -/
structure Lvcreate (taken : Finset String) where
  answer : (name size device : String) → Output
  exists_iff : ∀ name size device,
    (answer name size device).alreadyExists = true ↔ name ∈ taken

/-- The names that were tried and the name of the new snapshot. -/
structure Attempts where
  tried : List String
  outcome : Except Error String
  deriving DecidableEq

variable {taken : Finset String}

def snapshotCreate (lvcreate : Lvcreate taken) (size device : String) :
    Nat → String → Nat → Option Attempts
  | 0, _, _ => none
  | fuel + 1, name, currentSeconds =>
      let name := name ++ twoDigits currentSeconds
      let output := lvcreate.answer name size device
      if output.alreadyExists then
        (snapshotCreate lvcreate size device fuel name (currentSeconds + 1)).map
          fun attempts => { attempts with tried := name :: attempts.tried }
      else some ⟨[name], output.conclude name⟩

def snapshot (lvcreate : Lvcreate taken) (name device size : String) (now : DateTime)
    (fuel : Nat) : Option Attempts :=
  snapshotCreate lvcreate size device fuel (name ++ now.text) now.second

def attempt (name : String) (seconds : Nat) : Nat → String
  | 0 => name ++ twoDigits seconds
  | k + 1 => attempt (name ++ twoDigits seconds) (seconds + 1) k

/-! ## Termination -/

theorem two_le_length_twoDigits (n : Nat) : 2 ≤ (twoDigits n).length := by
  unfold twoDigits
  split
  · rw [String.length_append]
    have hpos : 0 < (toString n).length := Nat.length_repr_pos
    have hzero : "0".length = 1 := rfl
    omega
  · rename_i hlarge
    by_contra hshort
    have hlength : (toString n).length ≤ 1 := by omega
    have hsmall := (Nat.length_repr_le_iff (n := n) Nat.zero_lt_one).mp hlength
    omega

theorem attempt_succ (name : String) (seconds k : Nat) :
    attempt name seconds (k + 1) =
      attempt name seconds k ++ twoDigits (seconds + k + 1) := by
  induction k generalizing name seconds with
  | zero => rfl
  | succ k ih =>
      rw [attempt, ih, attempt]
      congr 2
      omega

theorem length_attempt_strictMono (name : String) (seconds : Nat) :
    StrictMono fun k => (attempt name seconds k).length := by
  apply strictMono_nat_of_lt_succ
  intro k
  have htwo := two_le_length_twoDigits (seconds + k + 1)
  simp only [attempt_succ, String.length_append]
  omega

theorem attempt_injective (name : String) (seconds : Nat) :
    Function.Injective (attempt name seconds) := by
  intro j k h
  exact (length_attempt_strictMono name seconds).injective (congrArg String.length h)

/-- Among different values there is a first one outside of a finite set. -/
theorem exists_first_free {α : Type} [DecidableEq α] {value : Nat → α}
    (hvalue : Function.Injective value) (used : Finset α) :
    ∃ k ≤ used.card, value k ∉ used ∧ ∀ j < k, value j ∈ used := by
  have hexists : ∃ k ≤ used.card, value k ∉ used := by
    by_contra hnone
    have hsub : (Finset.range (used.card + 1)).image value ⊆ used := by
      intro a ha
      obtain ⟨k, hk, rfl⟩ := Finset.mem_image.mp ha
      by_contra hfree
      exact hnone ⟨k, by simpa [Nat.lt_succ_iff] using hk, hfree⟩
    have hcard := Finset.card_le_card hsub
    rw [Finset.card_image_of_injective _ hvalue, Finset.card_range] at hcard
    omega
  have hfree : ∃ k, value k ∉ used := ⟨_, hexists.choose_spec.2⟩
  refine ⟨Nat.find hfree, ?_, Nat.find_spec hfree, ?_⟩
  · exact (Nat.find_min' hfree hexists.choose_spec.2).trans hexists.choose_spec.1
  · intro j hj
    simpa using Nat.find_min hfree hj

theorem snapshotCreate_eq (lvcreate : Lvcreate taken) (size device : String) {fuel : Nat}
    {name : String} {seconds k : Nat}
    (hbusy : ∀ j < k, attempt name seconds j ∈ taken)
    (hfree : attempt name seconds k ∉ taken) (hfuel : k < fuel) :
    snapshotCreate lvcreate size device fuel name seconds =
      some ⟨(List.range (k + 1)).map (attempt name seconds),
        (lvcreate.answer (attempt name seconds k) size device).conclude
          (attempt name seconds k)⟩ := by
  induction k generalizing fuel name seconds with
  | zero =>
      obtain ⟨fuel, rfl⟩ : ∃ rest, fuel = rest + 1 := ⟨fuel - 1, by omega⟩
      have hanswer : ¬ (lvcreate.answer (attempt name seconds 0) size device).alreadyExists =
          true := by
        rwa [lvcreate.exists_iff]
      rw [snapshotCreate]
      exact if_neg hanswer
  | succ k ih =>
      obtain ⟨fuel, rfl⟩ : ∃ rest, fuel = rest + 1 := ⟨fuel - 1, by omega⟩
      have hanswer : (lvcreate.answer (name ++ twoDigits seconds) size device).alreadyExists =
          true := by
        rw [lvcreate.exists_iff]
        exact hbusy 0 (by omega)
      have hrest := @ih fuel (name ++ twoDigits seconds) (seconds + 1)
        (fun j hj => hbusy (j + 1) (by omega)) hfree (by omega)
      have hnames : (List.range (k + 1 + 1)).map (attempt name seconds) =
          (name ++ twoDigits seconds) ::
            (List.range (k + 1)).map (attempt (name ++ twoDigits seconds) (seconds + 1)) := by
        rw [List.range_succ_eq_map, List.map_cons, List.map_map]
        rfl
      simp only [snapshotCreate, hanswer, if_true, hrest, Option.map_some, hnames]
      rfl

/-- The recursion ends with a name that is free, and tries no name twice. -/
theorem snapshotCreate_terminates (lvcreate : Lvcreate taken) (size device name : String)
    (seconds : Nat) :
    ∃ attempts, (∀ fuel, taken.card < fuel →
        snapshotCreate lvcreate size device fuel name seconds = some attempts) ∧
      attempts.tried.Nodup ∧
      ∀ created, attempts.outcome = .ok created → created ∉ taken := by
  obtain ⟨k, hk, hfree, hbusy⟩ := exists_first_free (attempt_injective name seconds) taken
  refine ⟨_, fun fuel hfuel =>
    snapshotCreate_eq lvcreate size device hbusy hfree (by omega), ?_, ?_⟩
  · exact List.nodup_range.map (attempt_injective name seconds)
  · intro created hcreated
    simp only [Output.conclude] at hcreated
    split at hcreated
    · obtain rfl := Except.ok.inj hcreated
      exact hfree
    · cases hcreated

/-! ## The origin in the name -/

/-- `.%d%d%d%d.%d%d.%d%d.%d%d.%d%d.%d%d`. -/
def stampClasses : List (Char → Bool) :=
  [Pattern.any] ++ List.replicate 4 Pattern.digit ++
    (List.replicate 5 ([Pattern.any] ++ List.replicate 2 Pattern.digit)).flatten

theorem snapshotRegexp_eq : Matrix.snapshotRegexp =
    Pattern.capture (Pattern.plus Pattern.any) ++ stampClasses.map Pattern.Item.one := rfl

theorem length_toString {n k : Nat} (hlow : 10 ^ k ≤ n) (hhigh : n < 10 ^ (k + 1)) :
    (toString n).length = k + 1 := by
  have hle : (toString n).length ≤ k + 1 :=
    (Nat.length_repr_le_iff (Nat.succ_pos k)).mpr hhigh
  have hlt : k < (toString n).length := by
    cases k with
    | zero => exact Nat.length_repr_pos
    | succ k =>
        by_contra hshort
        have hsmall := (Nat.length_repr_le_iff (n := n) (Nat.succ_pos k)).mp (not_lt.mp hshort)
        omega
  omega

theorem accepted_toString {n k : Nat} (hlow : 10 ^ k ≤ n) (hhigh : n < 10 ^ (k + 1)) :
    Pattern.Accepted (List.replicate (k + 1) Pattern.digit) (toString n).toList := by
  rw [Pattern.accepted_replicate]
  constructor
  · rw [String.length_toList, length_toString hlow hhigh]
  · intro c hc
    exact Pattern.digit_toString hc

theorem accepted_twoDigits {n : Nat} (h : n < 100) :
    Pattern.Accepted (List.replicate 2 Pattern.digit) (twoDigits n).toList := by
  rw [Pattern.accepted_replicate]
  unfold twoDigits
  split
  · rename_i hsmall
    have hlength : (toString n).length = 1 := by
      have hle : (toString n).length ≤ 1 :=
        (Nat.length_repr_le_iff Nat.zero_lt_one).mpr hsmall
      have hpos : 0 < (toString n).length := Nat.length_repr_pos
      omega
    constructor
    · rw [String.length_toList, String.length_append, hlength]
      rfl
    · intro c hc
      rw [String.toList_append, List.mem_append] at hc
      cases hc with
      | inl hzero =>
          obtain rfl : c = '0' := by simpa using hzero
          rfl
      | inr hdigit => exact Pattern.digit_toString hdigit
  · rename_i hlarge
    exact Pattern.accepted_replicate.mp
      (accepted_toString (show 10 ^ 1 ≤ n by omega) (by omega))

theorem accepted_stamp (now : DateTime) {seconds : Nat} (h : seconds < 100) :
    Pattern.Accepted stampClasses (now.text ++ twoDigits seconds).toList := by
  have hany (c : Char) : Pattern.Accepted [Pattern.any] [c] := .cons rfl .nil
  have hyear := accepted_toString (n := now.year) (k := 3) now.year_bounds.1 now.year_bounds.2
  have hmonth : now.month < 100 := by have := now.date_bounds; omega
  have hday : now.day < 100 := by have := now.date_bounds; omega
  have hhour : now.hour < 100 := by have := now.time_bounds; omega
  have hminute : now.minute < 100 := by have := now.time_bounds; omega
  have hall := (hany '_').append (hyear.append ((hany '-').append
    ((accepted_twoDigits hmonth).append ((hany '-').append
    ((accepted_twoDigits hday).append ((hany '_').append
    ((accepted_twoDigits hhour).append ((hany '-').append
    ((accepted_twoDigits hminute).append ((hany '-').append
    (accepted_twoDigits h)))))))))))
  simpa [DateTime.text, stampClasses, List.append_assoc] using hall

theorem snapshotOrigin_stamp (device : String) (hdevice : device ≠ "") (now : DateTime)
    {seconds : Nat} (h : seconds < 100) :
    Matrix.snapshotOrigin (device ++ (now.text ++ twoDigits seconds)) = some device := by
  have hcharacters : device.toList ≠ [] := by
    simpa using hdevice
  have hsplit : (device ++ (now.text ++ twoDigits seconds)).toList =
      device.toList ++ (now.text ++ twoDigits seconds).toList := String.toList_append
  rw [Matrix.snapshotOrigin, snapshotRegexp_eq, hsplit,
    Pattern.search_greedy_classes hcharacters (accepted_stamp now h)]
  simp

/-- What the name of a snapshot should be: the volume, the date and two digits
for the seconds, with the volume to be found again. -/
def Named (volumeGroup name : String) (now : DateTime) (snapshotName : String) : Prop :=
  (∃ seconds < 100, snapshotName = name ++ now.text ++ twoDigits seconds) ∧
    Matrix.snapshotOrigin (vglvDevice volumeGroup snapshotName) =
      some (vglvDevice volumeGroup name)

theorem length_twoDigits {n : Nat} (h : n < 100) : (twoDigits n).length = 2 := by
  rw [← String.length_toList, (accepted_twoDigits h).length_eq, List.length_replicate]

theorem attempt_of_created {lvcreate : Lvcreate taken} {size device name : String}
    {seconds fuel : Nat} {attempts : Attempts} {created : String}
    (h : snapshotCreate lvcreate size device fuel name seconds = some attempts)
    (hcreated : attempts.outcome = .ok created) :
    ∃ k, created = attempt name seconds k ∧ created ∉ taken ∧
      ∀ j < k, attempt name seconds j ∈ taken := by
  induction fuel generalizing name seconds attempts with
  | zero => cases h
  | succ fuel ih =>
      simp only [snapshotCreate] at h
      split at h
      · rename_i hanswer
        rw [lvcreate.exists_iff] at hanswer
        obtain ⟨rest, hrest, rfl⟩ := Option.map_eq_some_iff.mp h
        obtain ⟨k, hname, hfree, hbusy⟩ := ih hrest hcreated
        refine ⟨k + 1, hname, hfree, ?_⟩
        intro j hj
        cases j with
        | zero => exact hanswer
        | succ j => exact hbusy j (by omega)
      · rename_i hanswer
        rw [lvcreate.exists_iff] at hanswer
        obtain rfl := Option.some.inj h
        simp only [Output.conclude] at hcreated
        split at hcreated
        · obtain rfl := Except.ok.inj hcreated
          exact ⟨0, rfl, hanswer, by simp⟩
        · cases hcreated

/-- A snapshot is named after its volume unless the first name was taken. -/
theorem snapshot_named_iff {lvcreate : Lvcreate taken} (volumeGroup : String)
    {name device size : String} {now : DateTime} {fuel : Nat} {attempts : Attempts}
    {created : String} (h : snapshot lvcreate name device size now fuel = some attempts)
    (hcreated : attempts.outcome = .ok created) :
    Named volumeGroup name now created ↔
      name ++ now.text ++ twoDigits now.second ∉ taken := by
  obtain ⟨k, rfl, hfree, hbusy⟩ := attempt_of_created h hcreated
  have hsecond : now.second < 100 := by have := now.time_bounds; omega
  cases k with
  | zero =>
      refine iff_of_true ⟨⟨now.second, hsecond, rfl⟩, ?_⟩ hfree
      have hsplit : vglvDevice volumeGroup (attempt (name ++ now.text) now.second 0) =
          vglvDevice volumeGroup name ++ (now.text ++ twoDigits now.second) := by
        simp only [vglvDevice, attempt, String.append_assoc]
      rw [hsplit]
      apply snapshotOrigin_stamp _ _ now hsecond
      simp [vglvDevice]
  | succ k =>
      refine iff_of_false ?_ (not_not.mpr (hbusy 0 (by omega)))
      rintro ⟨⟨seconds, hseconds, hname⟩, _⟩
      have hlonger : (attempt (name ++ now.text) now.second 0).length <
          (attempt (name ++ now.text) now.second (k + 1)).length :=
        length_attempt_strictMono (name ++ now.text) now.second (Nat.succ_pos k)
      rw [hname, attempt] at hlonger
      simp only [String.length_append, length_twoDigits hseconds,
        length_twoDigits hsecond] at hlonger
      omega

/-! ## A name that is taken -/

def Lvcreate.plain (taken : Finset String) : Lvcreate taken where
  answer name _ _ :=
    if name ∈ taken then
      ⟨[], ["  Logical volume \"" ++ name ++ "\" already exists in volume group \"vg12\""]⟩
    else ⟨["  Logical volume \"" ++ name ++ "\" created"], []⟩
  exists_iff := by
    intro name size device
    by_cases h : name ∈ taken
    · have hfound := Pattern.search_literal_isSome "already exists in volume group"
        ("  Logical volume \"" ++ name ++ "\" ").toList " \"vg12\"".toList
      simpa [Output.alreadyExists, h] using hfound
    · simp [Output.alreadyExists, h]

def newYear : DateTime where
  year := 2012
  month := 1
  day := 1
  hour := 10
  minute := 20
  second := 30
  year_bounds := by decide
  date_bounds := by decide
  time_bounds := by decide

/-- The name that the second try gets when the first is taken. -/
theorem collision_not_named :
    nameIsValid "root" = true ∧
      ∃ attempts, snapshot (.plain {"root_2012-01-01_10-20-30"}) "root" "/dev/vg12/root"
          "100" newYear 2 = some attempts ∧
        attempts.tried = ["root_2012-01-01_10-20-30", "root_2012-01-01_10-20-3031"] ∧
        attempts.outcome = .ok "root_2012-01-01_10-20-3031" ∧
        ¬ Named "vg12" "root" newYear "root_2012-01-01_10-20-3031" := by
  refine ⟨by decide +kernel, ⟨["root_2012-01-01_10-20-30", "root_2012-01-01_10-20-3031"],
    .ok "root_2012-01-01_10-20-3031"⟩, by decide +kernel, rfl, rfl, ?_⟩
  rintro ⟨⟨seconds, hseconds, hname⟩, _⟩
  have hlength := congrArg String.length hname
  rw [String.length_append, length_twoDigits hseconds] at hlength
  revert hlength
  decide +kernel

theorem newYear_named :
    ∃ created, snapshot (.plain ∅) "root" "/dev/vg12/root" "100" newYear 1 =
        some ⟨[created], .ok created⟩ ∧
      (Named "vg12" "root" newYear created ↔
        "root" ++ newYear.text ++ twoDigits newYear.second ∉ (∅ : Finset String)) := by
  have hrun : snapshot (.plain ∅) "root" "/dev/vg12/root" "100" newYear 1 =
      some ⟨["root_2012-01-01_10-20-30"], .ok "root_2012-01-01_10-20-30"⟩ := by
    decide +kernel
  exact ⟨_, hrun, snapshot_named_iff "vg12" hrun rfl⟩

end OpenSan.Lvm
