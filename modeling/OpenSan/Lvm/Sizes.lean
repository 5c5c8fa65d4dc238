import Mathlib.Data.Rat.Floor
import OpenSan.Foundation.Fields
import OpenSan.Storage.CachedPaths

/-!
# Sizes of physical volumes and volume groups

`M.PhysicalVolume.list` and `M.VolumeGroup.list` read the lines of `pvdisplay -c`
and `vgdisplay -c`.  Extents are counted in the lines, their size is given in
KiB and that of the device in sectors.
-/

namespace OpenSan.Lvm

open OpenSan.Foundation OpenSan.Einarc

/-! ## The lines -/

def isRecord (line : String) : Bool :=
  (Pattern.search (Pattern.literal ":" ++ .star Pattern.any :: (Pattern.literal ":" ++
    .star Pattern.any :: (Pattern.literal ":" ++ .star Pattern.any :: Pattern.literal ":")))
    line.toList).isSome

def notColon (c : Char) : Bool := c != ':'

def dashDigit (c : Char) : Bool := c == '-' || Pattern.digit c

def dashAlphanumeric (c : Char) : Bool := c == '-' || Pattern.alphanumeric c

def slashAlphanumeric (c : Char) : Bool := c == '/' || Pattern.alphanumeric c

def number : Pattern.Field := ⟨false, Pattern.digit, true⟩

def capturedNumber : Pattern.Field := ⟨true, Pattern.digit, true⟩

def pvFields : List Pattern.Field :=
  [⟨true, notColon, true⟩, ⟨true, notColon, false⟩, capturedNumber, ⟨false, dashDigit, true⟩,
    number, number, ⟨true, dashDigit, true⟩, capturedNumber, capturedNumber, capturedNumber,
    capturedNumber, ⟨false, dashAlphanumeric, true⟩]

def vgFields : List Pattern.Field :=
  [⟨true, notColon, true⟩, ⟨false, slashAlphanumeric, true⟩, number, ⟨false, dashDigit, true⟩,
    number, number, number, ⟨true, dashDigit, true⟩, number, number, number, number,
    capturedNumber, capturedNumber, capturedNumber, capturedNumber,
    ⟨false, dashAlphanumeric, true⟩]

def matchLine (fields : List Pattern.Field) (line : String) : Option (List (List Char)) :=
  Pattern.anchored (.star Number.isSpace :: Pattern.fields fields) line.toList

def fieldNumber (what : String) (text : List Char) : Except Error ℚ :=
  nonNil what (Number.tonumber (String.ofList text))

/-! ## Physical volumes -/

def luaMod (a b : ℚ) : ℚ := a - ⌊a / b⌋ * b

def expectedSize (size extent : ℚ) : Except Error ℚ :=
  if 0 < extent then .ok (size - luaMod size extent - extent)
  else .error (.assertion "non-positive extent's size")

def isDisk (disk : String) : Bool :=
  (Pattern.anchored (Pattern.literal "/dev/" ++ Pattern.plus (· != '/') ++ [.finish])
      disk.toList).isSome ||
    (Pattern.anchored (Pattern.literal "/dev/mapper/" ++ Pattern.plus (· != '/') ++ [.finish])
      disk.toList).isSome

structure PhysicalVolume where
  total : ℚ
  free : ℚ
  allocated : ℚ
  volumes : ℚ
  capacity : ℚ
  unusable : ℚ
  extent : ℚ
  device : String
  volumeGroup : String

/-- The body of the loop of `M.PhysicalVolume.list`, with the checks of
`M.PhysicalVolume:new`. -/
def readPhysicalVolume (caches : List CachePair) (line : String) :
    Except Error PhysicalVolume :=
  match matchLine pvFields line with
  | some [device, volumeGroup, capacity, volumes, extent, total, free, allocated] => do
      let extent ← fieldNumber "extent" extent
      let extent := (if extent = 0 then 4096 else extent) / 1024
      let sectors ← fieldNumber "capacity" capacity
      let unusable := luaMod (sectors * 512) extent
      let capacity ← expectedSize (sectors * 512) extent
      let total ← fieldNumber "total" total
      let free ← fieldNumber "free" free
      let allocated ← fieldNumber "allocated" allocated
      let device := Storage.pathCachedText caches (String.ofList device)
      match Number.tonumber (String.ofList volumes) with
      | none => .error (.assertion "non-number volumes")
      | some volumes =>
          if capacity < 0 then .error (.assertion "non-positive capacity")
          else if isDisk device then
            .ok ⟨total * extent, free * extent, allocated * extent, volumes, capacity,
              unusable, extent, device, String.ofList volumeGroup⟩
          else .error (.assertion "device is not a disk")
  | _ => .error (.nilValue "extent")

def physicalVolumes (caches : List CachePair) (stdout : List String) :
    Except Error (List PhysicalVolume) :=
  (stdout.filter isRecord).mapM (readPhysicalVolume caches)

/-! ## Volume groups -/

structure VolumeGroup where
  name : String
  maxVolume : ℚ
  extent : ℚ
  total : ℚ
  allocated : ℚ
  free : ℚ
  physicalVolumes : List PhysicalVolume

/-- The body of the loop of `M.VolumeGroup.list`, with the checks of
`M.VolumeGroup:new`. -/
def readVolumeGroup (physicalVolumes : List PhysicalVolume)
    (groups : Table String VolumeGroup) (line : String) :
    Except Error (Table String VolumeGroup) :=
  match matchLine vgFields line with
  | some [name, maxVolume, extent, total, allocated, free] => do
      let extent ← fieldNumber "extent" extent
      let members := physicalVolumes.filter fun pv => pv.volumeGroup = String.ofList name
      if members = [] then pure groups
      else do
        let total ← fieldNumber "total" total
        let allocated ← fieldNumber "allocated" allocated
        let free ← fieldNumber "free" free
        match Number.tonumber (String.ofList maxVolume) with
        | none => .error (.assertion "non-number max_volume")
        | some maxVolume =>
            -- the free extents are multiplied by their own number
            pure (groups.insert (String.ofList name) ⟨String.ofList name, maxVolume,
              extent / 1024, total * (extent / 1024), allocated * (extent / 1024),
              free * free, members⟩)
  | _ => .error (.nilValue "extent")

def volumeGroups (order : Order) (physicalVolumes : List PhysicalVolume)
    (stdout : List String) : Except Error (List VolumeGroup) := do
  let groups ← (stdout.filter isRecord).foldlM (readVolumeGroup physicalVolumes) ∅
  pure ((order.visit groups.entries).map (·.2))

/-! ## What LVM prints -/

structure PvLine where
  indent : List Char
  device : List Char
  volumeGroup : List Char
  sectors : Nat
  internalNumber : Int
  status : Nat
  allocatable : Nat
  volumes : Int
  extent : Nat
  total : Nat
  free : Nat
  allocated : Nat
  uuid : List Char
  indent_spaces : ∀ c ∈ indent, Number.isSpace c = true
  device_nonempty : device ≠ []
  device_accepted : ∀ c ∈ device, notColon c = true
  device_start : ∀ c ∈ device.head?, Number.isSpace c = false
  volumeGroup_accepted : ∀ c ∈ volumeGroup, notColon c = true
  uuid_nonempty : uuid ≠ []
  uuid_accepted : ∀ c ∈ uuid, dashAlphanumeric c = true

def natText (n : Nat) : List Char := (toString n).toList

def intText (i : Int) : List Char := (toString i).toList

def PvLine.texts (line : PvLine) : List (List Char) :=
  [line.device, line.volumeGroup, natText line.sectors, intText line.internalNumber,
    natText line.status, natText line.allocatable, intText line.volumes,
    natText line.extent, natText line.total, natText line.free, natText line.allocated,
    line.uuid]

def PvLine.text (line : PvLine) : String :=
  String.ofList (line.indent ++ List.intercalate [':'] line.texts)

structure VgLine where
  indent : List Char
  name : List Char
  access : List Char
  status : Nat
  internalNumber : Int
  maximalLvs : Nat
  currentLvs : Nat
  openLvs : Nat
  maxVolume : Int
  maximalPvs : Nat
  currentPvs : Nat
  actualPvs : Nat
  size : Nat
  extent : Nat
  total : Nat
  allocated : Nat
  free : Nat
  uuid : List Char
  indent_spaces : ∀ c ∈ indent, Number.isSpace c = true
  name_nonempty : name ≠ []
  name_accepted : ∀ c ∈ name, notColon c = true
  name_start : ∀ c ∈ name.head?, Number.isSpace c = false
  access_nonempty : access ≠ []
  access_accepted : ∀ c ∈ access, slashAlphanumeric c = true
  uuid_nonempty : uuid ≠ []
  uuid_accepted : ∀ c ∈ uuid, dashAlphanumeric c = true

def VgLine.texts (line : VgLine) : List (List Char) :=
  [line.name, line.access, natText line.status, intText line.internalNumber,
    natText line.maximalLvs, natText line.currentLvs, natText line.openLvs,
    intText line.maxVolume, natText line.maximalPvs, natText line.currentPvs,
    natText line.actualPvs, natText line.size, natText line.extent, natText line.total,
    natText line.allocated, natText line.free, line.uuid]

def VgLine.text (line : VgLine) : String :=
  String.ofList (line.indent ++ List.intercalate [':'] line.texts)

/-! ## Reading the lines -/

theorem fits_nat (captured : Bool) (n : Nat) :
    (Pattern.Field.mk captured Pattern.digit true).Fits (natText n) where
  accepted := fun _ => Pattern.digit_toString
  nonempty := fun _ => by
    rw [natText, Nat.toString_eq_ofList_toDigits, String.toList_ofList]
    exact Nat.toDigits_ne_nil

theorem intText_cases (i : Int) :
    (∃ n : Nat, i = n ∧ intText i = natText n) ∨
      ∃ n : Nat, i = -(n : Int) ∧ intText i = '-' :: natText n := by
  cases i with
  | ofNat n => exact .inl ⟨n, rfl, rfl⟩
  | negSucc n =>
      refine .inr ⟨n + 1, Int.negSucc_eq n, ?_⟩
      have htext : toString (Int.negSucc n) = "-" ++ toString (n + 1) := rfl
      rw [intText, htext, String.toList_append]
      rfl

theorem fits_int (captured : Bool) (i : Int) :
    (Pattern.Field.mk captured dashDigit true).Fits (intText i) := by
  rcases intText_cases i with ⟨n, _, htext⟩ | ⟨n, _, htext⟩
  · rw [htext]
    refine ⟨fun c hc => ?_, (fits_nat captured n).nonempty⟩
    have hdigit : Pattern.digit c = true := (fits_nat captured n).accepted c hc
    simp [dashDigit, hdigit]
  · rw [htext]
    refine ⟨fun c hc => ?_, fun _ => by simp⟩
    rcases List.mem_cons.mp hc with rfl | hin
    · rfl
    · have hdigit : Pattern.digit c = true := (fits_nat captured n).accepted c hin
      simp [dashDigit, hdigit]

theorem matchLine_eq {entries : List (Pattern.Field × List Char)} {indent : List Char}
    (hindent : ∀ c ∈ indent, Number.isSpace c = true)
    (hstart : ∀ c ∈ (List.intercalate [':'] (entries.map (·.2))).head?,
      Number.isSpace c = false)
    (hfits : ∀ entry ∈ entries, entry.1.Fits entry.2)
    (hcolon : ∀ entry ∈ entries, entry.1.accepts ':' = false) :
    matchLine (entries.map (·.1))
      (String.ofList (indent ++ List.intercalate [':'] (entries.map (·.2)))) =
        some (Pattern.capturedTexts entries) := by
  rw [matchLine, Pattern.anchored, String.toList_ofList]
  apply Pattern.matchHere_star_of_stop hindent hstart
  have hline : Pattern.matchHere (Pattern.fields (entries.map (·.1))) ⟨[], none⟩
      (List.intercalate [':'] (entries.map (·.2))) =
        some ([] ++ Pattern.capturedTexts entries) :=
    Pattern.matchHere_fields hfits hcolon
  simpa using hline

theorem head?_intercalate {text : List Char} {rest : List (List Char)} (h : text ≠ []) :
    (List.intercalate [':'] (text :: rest)).head? = text.head? := by
  cases text with
  | nil => exact absurd rfl h
  | cons c text => cases rest <;> simp [List.intercalate]

private theorem colon_any {items : List Pattern.Item} {rest : List Char}
    (h : ∀ captures, (Pattern.matchHere items captures rest).isSome = true)
    (text : List Char) (captures : Pattern.Captures) :
    (Pattern.matchHere (Pattern.literal ":" ++ .star Pattern.any :: items) captures
      (':' :: (text ++ rest))).isSome = true :=
  Pattern.matchHere_any_isSome (h {}) text

theorem isRecord_of_four (a b c d e : List Char) :
    isRecord (String.ofList (a ++ ':' :: (b ++ ':' :: (c ++ ':' :: (d ++ ':' :: e))))) =
      true := by
  rw [isRecord, String.toList_ofList]
  apply Pattern.search_isSome_of_append
  apply colon_any (colon_any (colon_any _ d) c) b
  intro captures
  rfl

theorem matchLine_pv (line : PvLine) :
    matchLine pvFields line.text = some [line.device, line.volumeGroup,
      natText line.sectors, intText line.volumes, natText line.extent, natText line.total,
      natText line.free, natText line.allocated] := by
  have hstart : ∀ c ∈ (List.intercalate [':'] line.texts).head?,
      Number.isSpace c = false := by
    rw [PvLine.texts, head?_intercalate line.device_nonempty]
    exact line.device_start
  have hline : matchLine ((pvFields.zip line.texts).map (·.1)) (String.ofList (line.indent ++
      List.intercalate [':'] ((pvFields.zip line.texts).map (·.2)))) =
        some (Pattern.capturedTexts (pvFields.zip line.texts)) := by
    apply matchLine_eq line.indent_spaces
    · exact hstart
    · simp only [pvFields, PvLine.texts, List.zip_cons_cons, List.zip_nil_left,
        List.forall_mem_cons]
      exact ⟨⟨line.device_accepted, fun _ => line.device_nonempty⟩,
        ⟨line.volumeGroup_accepted, fun h => nomatch h⟩, fits_nat true _, fits_int false _,
        fits_nat false _, fits_nat false _, fits_int true _, fits_nat true _,
        fits_nat true _, fits_nat true _, fits_nat true _,
        ⟨line.uuid_accepted, fun _ => line.uuid_nonempty⟩, List.forall_mem_nil _⟩
    · simp only [pvFields, PvLine.texts, List.zip_cons_cons, List.zip_nil_left,
        List.forall_mem_cons]
      exact ⟨rfl, rfl, rfl, rfl, rfl, rfl, rfl, rfl, rfl, rfl, rfl, rfl, List.forall_mem_nil _⟩
  exact hline

theorem matchLine_vg (line : VgLine) :
    matchLine vgFields line.text = some [line.name, intText line.maxVolume,
      natText line.extent, natText line.total, natText line.allocated,
      natText line.free] := by
  have hstart : ∀ c ∈ (List.intercalate [':'] line.texts).head?,
      Number.isSpace c = false := by
    rw [VgLine.texts, head?_intercalate line.name_nonempty]
    exact line.name_start
  have hline : matchLine ((vgFields.zip line.texts).map (·.1)) (String.ofList (line.indent ++
      List.intercalate [':'] ((vgFields.zip line.texts).map (·.2)))) =
        some (Pattern.capturedTexts (vgFields.zip line.texts)) := by
    apply matchLine_eq line.indent_spaces
    · exact hstart
    · simp only [vgFields, VgLine.texts, List.zip_cons_cons, List.zip_nil_left,
        List.forall_mem_cons]
      exact ⟨⟨line.name_accepted, fun _ => line.name_nonempty⟩,
        ⟨line.access_accepted, fun _ => line.access_nonempty⟩, fits_nat false _,
        fits_int false _, fits_nat false _, fits_nat false _, fits_nat false _,
        fits_int true _, fits_nat false _, fits_nat false _, fits_nat false _,
        fits_nat false _, fits_nat true _, fits_nat true _, fits_nat true _,
        fits_nat true _, ⟨line.uuid_accepted, fun _ => line.uuid_nonempty⟩,
        List.forall_mem_nil _⟩
    · simp only [vgFields, VgLine.texts, List.zip_cons_cons, List.zip_nil_left,
        List.forall_mem_cons]
      exact ⟨rfl, rfl, rfl, rfl, rfl, rfl, rfl, rfl, rfl, rfl, rfl, rfl, rfl, rfl, rfl, rfl, rfl,
        List.forall_mem_nil _⟩
  exact hline

theorem tonumber_natText (n : Nat) :
    Number.tonumber (String.ofList (natText n)) = some (n : ℚ) := by
  rw [natText, String.ofList_toList, Number.tonumber_toString]

theorem tonumber_intText (i : Int) :
    Number.tonumber (String.ofList (intText i)) = some (i : ℚ) := by
  rcases intText_cases i with ⟨n, hi, htext⟩ | ⟨n, hi, htext⟩
  · rw [htext, tonumber_natText, hi]
    rfl
  · have hfits : (Pattern.Field.mk true Pattern.digit true).Fits (natText n) := fits_nat true n
    rw [htext, Number.tonumber_neg_of_digits hfits.accepted (hfits.nonempty rfl), natText,
      Number.digitsValue_toString, hi]
    push_cast
    rfl

theorem fieldNumber_natText (what : String) (n : Nat) :
    fieldNumber what (natText n) = .ok (n : ℚ) := by
  rw [fieldNumber, tonumber_natText]
  rfl

theorem PvLine.isRecord_text (line : PvLine) : isRecord line.text = true := by
  have htext := isRecord_of_four (line.indent ++ line.device) line.volumeGroup
    (natText line.sectors) (intText line.internalNumber)
    (List.intercalate [':'] (line.texts.drop 4))
  simpa [PvLine.text, PvLine.texts, List.intercalate] using htext

theorem VgLine.isRecord_text (line : VgLine) : isRecord line.text = true := by
  have htext := isRecord_of_four (line.indent ++ line.name) line.access
    (natText line.status) (intText line.internalNumber)
    (List.intercalate [':'] (line.texts.drop 4))
  simpa [VgLine.text, VgLine.texts, List.intercalate] using htext

/-! ## Physical volumes of the lines -/

def PvLine.extentSize (line : PvLine) : ℚ :=
  (if (line.extent : ℚ) = 0 then 4096 else (line.extent : ℚ)) / 1024

def PvLine.mapped (caches : List CachePair) (line : PvLine) : String :=
  Storage.pathCachedText caches (String.ofList line.device)

def PvLine.Accepted (caches : List CachePair) (line : PvLine) : Prop :=
  line.extentSize ≤ line.sectors * 512 ∧ isDisk (line.mapped caches) = true

def PvLine.volume (caches : List CachePair) (line : PvLine) : PhysicalVolume where
  total := line.total * line.extentSize
  free := line.free * line.extentSize
  allocated := line.allocated * line.extentSize
  volumes := line.volumes
  capacity := line.sectors * 512 - luaMod (line.sectors * 512) line.extentSize -
    line.extentSize
  unusable := luaMod (line.sectors * 512) line.extentSize
  extent := line.extentSize
  device := line.mapped caches
  volumeGroup := String.ofList line.volumeGroup

theorem PvLine.extentSize_pos (line : PvLine) : 0 < line.extentSize := by
  unfold PvLine.extentSize
  split
  · norm_num
  · rename_i hne
    have hpos : (0 : ℚ) < line.extent := lt_of_le_of_ne (Nat.cast_nonneg _) (Ne.symm hne)
    positivity

theorem luaMod_nonneg_capacity {size extent : ℚ} (h : 0 < extent) :
    0 ≤ size - luaMod size extent - extent ↔ extent ≤ size := by
  have hcapacity : size - luaMod size extent - extent = ((⌊size / extent⌋ : ℚ) - 1) * extent := by
    rw [luaMod]
    ring
  have hwhole : (1 : ℤ) ≤ ⌊size / extent⌋ ↔ extent ≤ size := by
    rw [Int.le_floor, Int.cast_one, one_le_div h]
  rw [hcapacity, mul_nonneg_iff_of_pos_right h, sub_nonneg, ← hwhole]
  exact_mod_cast Iff.rfl

theorem readPhysicalVolume_text (caches : List CachePair) (line : PvLine) :
    readPhysicalVolume caches line.text =
      if line.sectors * 512 < line.extentSize then
        .error (.assertion "non-positive capacity")
      else if isDisk (line.mapped caches) then .ok (line.volume caches)
      else .error (.assertion "device is not a disk") := by
  have hexpected : expectedSize (line.sectors * 512) line.extentSize =
      .ok (line.volume caches).capacity := if_pos line.extentSize_pos
  have hsmall : (line.volume caches).capacity < 0 ↔ line.sectors * 512 < line.extentSize := by
    rw [← not_le, ← not_le, not_iff_not]
    exact luaMod_nonneg_capacity line.extentSize_pos
  rw [readPhysicalVolume, matchLine_pv]
  simp only [fieldNumber_natText, tonumber_intText, ok_bind]
  change (expectedSize (line.sectors * 512) line.extentSize >>= _) = _
  rw [hexpected, ok_bind, ← PvLine.mapped]
  simp only [hsmall]
  rfl

theorem readPhysicalVolume_eq_ok {caches : List CachePair} {line : PvLine}
    {volume : PhysicalVolume} :
    readPhysicalVolume caches line.text = .ok volume ↔
      line.Accepted caches ∧ line.volume caches = volume := by
  rw [readPhysicalVolume_text, PvLine.Accepted]
  split
  · rename_i hsmall
    simp [not_le.mpr hsmall]
  · rename_i hlarge
    rw [and_assoc, and_iff_right (not_lt.mp hlarge)]
    split <;> simp [*]

theorem physicalVolumes_eq_ok {caches : List CachePair} {stdout : List String}
    {lines : List PvLine} {volumes : List PhysicalVolume}
    (hlines : stdout.filter isRecord = lines.map PvLine.text) :
    physicalVolumes caches stdout = .ok volumes ↔
      (∀ line ∈ lines, line.Accepted caches) ∧ lines.map (PvLine.volume caches) = volumes := by
  rw [physicalVolumes, hlines]
  clear hlines
  induction lines generalizing volumes with
  | nil => simp [pure, Except.pure]
  | cons line lines ih =>
      rw [List.map_cons, List.mapM_cons, bind_eq_ok]
      simp only [readPhysicalVolume_eq_ok, bind_eq_ok, ih, pure, Except.pure,
        List.forall_mem_cons, Except.ok.injEq]
      constructor
      · rintro ⟨_, ⟨haccepted, rfl⟩, _, ⟨hall, rfl⟩, rfl⟩
        exact ⟨⟨haccepted, hall⟩, rfl⟩
      · rintro ⟨⟨haccepted, hall⟩, rfl⟩
        exact ⟨_, ⟨haccepted, rfl⟩, _, ⟨hall, rfl⟩, rfl⟩

/-! ## Volume groups of the lines -/

def VgLine.nameText (line : VgLine) : String := String.ofList line.name

def membersOf (members : List PhysicalVolume) (name : String) : List PhysicalVolume :=
  members.filter fun pv => pv.volumeGroup = name

def VgLine.group (members : List PhysicalVolume) (line : VgLine) : VolumeGroup where
  name := line.nameText
  maxVolume := line.maxVolume
  extent := line.extent / 1024
  total := line.total * (line.extent / 1024)
  allocated := line.allocated * (line.extent / 1024)
  free := line.free * line.free
  physicalVolumes := membersOf members line.nameText

/-- The last line of its group; it is the one that counts. -/
def LastOfName (lines : List VgLine) (line : VgLine) : Prop :=
  lines.reverse.find? (fun other => other.nameText = line.nameText) = some line

def addGroup (members : List PhysicalVolume) (groups : Table String VolumeGroup)
    (line : VgLine) : Table String VolumeGroup :=
  if membersOf members line.nameText = [] then groups
  else groups.insert line.nameText (line.group members)

theorem readVolumeGroup_text (members : List PhysicalVolume)
    (groups : Table String VolumeGroup) (line : VgLine) :
    readVolumeGroup members groups line.text = .ok (addGroup members groups line) := by
  rw [readVolumeGroup, matchLine_vg, addGroup]
  simp only [fieldNumber_natText, tonumber_intText, ok_bind]
  change (if membersOf members line.nameText = [] then _ else _) = _
  split <;> rfl

theorem foldlM_readVolumeGroup (members : List PhysicalVolume)
    (groups : Table String VolumeGroup) (lines : List VgLine) :
    (lines.map VgLine.text).foldlM (readVolumeGroup members) groups =
      .ok (lines.foldl (addGroup members) groups) := by
  induction lines generalizing groups with
  | nil => rfl
  | cons line lines ih =>
      rw [List.map_cons, List.foldlM_cons, readVolumeGroup_text, ok_bind, ih]
      rfl

theorem lookup_foldl_addGroup (members : List PhysicalVolume) (lines : List VgLine)
    (name : String) :
    (lines.foldl (addGroup members) ∅).lookup name =
      if membersOf members name = [] then none
      else (lines.reverse.find? fun line => line.nameText = name).map
        (VgLine.group members) := by
  induction lines using List.reverseRecOn with
  | nil => simp
  | append_singleton lines line ih =>
      rw [List.foldl_append, List.foldl_cons, List.foldl_nil, addGroup, List.reverse_append,
        List.reverse_singleton, List.singleton_append]
      by_cases hname : line.nameText = name
      · subst hname
        rw [List.find?_cons_of_pos (by simp)]
        split
        · rename_i hnone
          rw [ih, if_pos hnone]
        · rw [AList.lookup_insert]
          rfl
      · rw [List.find?_cons_of_neg (by simpa using hname), ← ih]
        split
        · rfl
        · exact AList.lookup_insert_ne (Ne.symm hname)

theorem mem_volumeGroups {order : Order} {members : List PhysicalVolume}
    {stdout : List String} {lines : List VgLine} {groups : List VolumeGroup}
    (hlines : stdout.filter isRecord = lines.map VgLine.text)
    (hgroups : volumeGroups order members stdout = .ok groups) (group : VolumeGroup) :
    group ∈ groups ↔ ∃ line, LastOfName lines line ∧
      membersOf members line.nameText ≠ [] ∧ line.group members = group := by
  have hmembers : groups = (order.visit (lines.foldl (addGroup members) ∅).entries).map
      (·.2) := by
    rw [volumeGroups, hlines, foldlM_readVolumeGroup, ok_bind] at hgroups
    exact (Except.ok.inj hgroups).symm
  have hentry (entry : Sigma fun _ : String => VolumeGroup) :
      entry ∈ (lines.foldl (addGroup members) ∅).entries ↔
        ∃ line, lines.reverse.find? (fun other => other.nameText = entry.1) = some line ∧
          membersOf members entry.1 ≠ [] ∧ line.group members = entry.2 := by
    rw [← AList.mem_lookup_iff, lookup_foldl_addGroup]
    split
    · simp [*]
    · simp [*]
  rw [hmembers, List.mem_map]
  simp only [Order.mem_visit, hentry]
  constructor
  · rintro ⟨⟨name, group⟩, ⟨line, hlast, hmember, hline⟩, rfl⟩
    have hname : line.nameText = name := by simpa using List.find?_some hlast
    subst hname
    exact ⟨line, hlast, hmember, hline⟩
  · rintro ⟨line, hlast, hmember, hline⟩
    exact ⟨⟨line.nameText, group⟩, ⟨line, hlast, hmember, hline⟩, rfl⟩

/-! ## Consistency -/

def Fitting (line : PvLine) (volume : PhysicalVolume) : Prop :=
  volume.total = volume.allocated + volume.free ∧
    ∀ extent : Nat, volume.extent = extent →
      volume.capacity + volume.unusable + extent = (line.sectors * 512 / 2 ^ 20 : Nat)

/-- If the physical volumes are listed, their sizes are consistent, and so are those of
the groups that are listed on any of them. -/
def SizesConsistent (caches : List CachePair) (pvDisplay vgDisplay : List String)
    (pvLines : List PvLine) : Prop :=
  ∀ volumes, physicalVolumes caches pvDisplay = .ok volumes →
    List.Forall₂ Fitting pvLines volumes ∧
    ∀ (order : Order) members groups, members ⊆ volumes →
      volumeGroups order members vgDisplay = .ok groups →
        ∀ group ∈ groups, group.total = group.allocated + group.free

theorem PvLine.extentSize_whole (line : PvLine) :
    (∃ extent : Nat, line.extentSize = extent) ↔ 1024 ∣ line.extent := by
  unfold PvLine.extentSize
  by_cases hzero : line.extent = 0
  · rw [hzero]
    refine iff_of_true ⟨4, ?_⟩ (dvd_zero _)
    norm_num
  · rw [if_neg (Nat.cast_ne_zero.mpr hzero)]
    constructor
    · rintro ⟨extent, hextent⟩
      rw [div_eq_iff (by norm_num)] at hextent
      have hnat : line.extent = extent * 1024 := by exact_mod_cast hextent
      exact ⟨extent, by omega⟩
    · rintro ⟨extent, hextent⟩
      refine ⟨extent, ?_⟩
      rw [div_eq_iff (by norm_num), hextent]
      push_cast
      ring

theorem PvLine.fitting_iff {caches : List CachePair} {line : PvLine}
    (haccepted : line.Accepted caches) (htotal : line.total = line.allocated + line.free) :
    Fitting line (line.volume caches) ↔ ¬ 1024 ∣ line.extent := by
  have hsum : (line.volume caches).total =
      (line.volume caches).allocated + (line.volume caches).free := by
    change (line.total : ℚ) * _ = line.allocated * _ + line.free * _
    rw [htotal]
    push_cast
    ring
  have hbytes : (line.volume caches).capacity + (line.volume caches).unusable +
      line.extentSize = line.sectors * 512 := by
    change line.sectors * 512 - luaMod _ _ - line.extentSize + luaMod _ _ + _ = _
    ring
  rw [Fitting, and_iff_right hsum, ← PvLine.extentSize_whole, not_exists]
  refine forall_congr' fun extent => imp_congr_right fun hextent => ?_
  -- a device that holds an extent is not empty
  have hfits : (1 : ℚ) ≤ line.sectors * 512 := by
    have hpos := line.extentSize_pos
    have hextent' : line.extentSize = extent := hextent
    rw [hextent'] at hpos
    have hone : (1 : ℚ) ≤ extent := by exact_mod_cast hpos
    exact hone.trans (hextent' ▸ haccepted.1)
  rw [iff_false, ← hextent]
  change ¬ (line.volume caches).capacity + (line.volume caches).unusable + line.extentSize = _
  rw [hbytes]
  intro heq
  have hnat : line.sectors * 512 = line.sectors * 512 / 2 ^ 20 := by exact_mod_cast heq
  have hone : 1 ≤ line.sectors * 512 := by exact_mod_cast hfits
  omega

theorem VgLine.group_total {members : List PhysicalVolume} {line : VgLine}
    (htotal : line.total = line.allocated + line.free) :
    (line.group members).total = (line.group members).allocated + (line.group members).free ↔
      line.free = 0 ∨ 1024 * line.free = line.extent := by
  change (line.total : ℚ) * (line.extent / 1024) =
    line.allocated * (line.extent / 1024) + line.free * line.free ↔ _
  have hsplit : (line.total : ℚ) * (line.extent / 1024) =
      line.allocated * (line.extent / 1024) + line.free * (line.extent / 1024) := by
    rw [htotal]
    push_cast
    ring
  rw [hsplit, add_right_inj, mul_eq_mul_left_iff, or_comm, Nat.cast_eq_zero]
  apply or_congr_right
  rw [div_eq_iff (by norm_num)]
  constructor
  · intro h
    have hnat : line.extent = line.free * 1024 := by exact_mod_cast h
    omega
  · intro h
    rw [← h]
    push_cast
    ring

def Populated (pvLines : List PvLine) (line : VgLine) : Prop :=
  ∃ pv ∈ pvLines, String.ofList pv.volumeGroup = line.nameText

theorem membersOf_ne_nil {caches : List CachePair} {pvLines : List PvLine} {line : VgLine} :
    membersOf (pvLines.map (PvLine.volume caches)) line.nameText ≠ [] ↔
      Populated pvLines line := by
  simp [membersOf, Populated, PvLine.volume, List.filter_eq_nil_iff]

section Consistent

variable {caches : List CachePair} {pvDisplay vgDisplay : List String}
  {pvLines : List PvLine} {vgLines : List VgLine}

theorem forall₂_fitting_iff (hall : ∀ line ∈ pvLines, line.Accepted caches)
    (htotal : ∀ line ∈ pvLines, line.total = line.allocated + line.free) :
    List.Forall₂ Fitting pvLines (pvLines.map (PvLine.volume caches)) ↔
      ∀ line ∈ pvLines, ¬ 1024 ∣ line.extent := by
  rw [List.forall₂_map_right_iff, List.forall₂_same]
  exact forall₂_congr fun line hline => line.fitting_iff (hall line hline) (htotal line hline)

theorem groups_consistent_iff {volumes : List PhysicalVolume}
    (hvg : vgDisplay.filter isRecord = vgLines.map VgLine.text)
    (htotal : ∀ line ∈ vgLines, line.total = line.allocated + line.free) :
    (∀ (order : Order) members groups, members ⊆ volumes →
      volumeGroups order members vgDisplay = .ok groups →
        ∀ group ∈ groups, group.total = group.allocated + group.free) ↔
      ∀ line, LastOfName vgLines line → membersOf volumes line.nameText ≠ [] →
        line.free = 0 ∨ 1024 * line.free = line.extent := by
  have hline (line : VgLine) (hlast : LastOfName vgLines line) :
      line.total = line.allocated + line.free :=
    htotal line (List.mem_reverse.mp (List.mem_of_find?_eq_some hlast))
  constructor
  · intro h line hlast hpopulated
    have hgroups : volumeGroups .plain volumes vgDisplay =
        .ok ((Order.plain.visit (vgLines.foldl (addGroup volumes) ∅).entries).map (·.2)) := by
      rw [volumeGroups, hvg, foldlM_readVolumeGroup, ok_bind]
      rfl
    have hlisted := (mem_volumeGroups hvg hgroups _).mpr ⟨line, hlast, hpopulated, rfl⟩
    exact (VgLine.group_total (hline line hlast)).mp
      (h _ _ _ (List.Subset.refl _) hgroups _ hlisted)
  · intro h order members groups hmembers hgroups group hgroup
    obtain ⟨line, hlast, hpopulated, rfl⟩ := (mem_volumeGroups hvg hgroups group).mp hgroup
    refine (VgLine.group_total (hline line hlast)).mpr (h line hlast fun hnone => ?_)
    obtain ⟨pv, hpv⟩ := List.exists_mem_of_ne_nil _ hpopulated
    have hin : pv ∈ membersOf volumes line.nameText :=
      List.mem_filter.mpr ⟨hmembers (List.mem_filter.mp hpv).1, (List.mem_filter.mp hpv).2⟩
    rw [hnone] at hin
    cases hin

end Consistent

/-- The sizes are consistent if and only if the list of the physical volumes is refused,
or no physical volume has an extent of whole MiB and the free extents of every group on
one of them are none or as many as an extent has MiB. -/
theorem sizesConsistent_iff {caches : List CachePair} {pvDisplay vgDisplay : List String}
    {pvLines : List PvLine} {vgLines : List VgLine}
    (hpv : pvDisplay.filter isRecord = pvLines.map PvLine.text)
    (hvg : vgDisplay.filter isRecord = vgLines.map VgLine.text)
    (hpvTotal : ∀ line ∈ pvLines, line.total = line.allocated + line.free)
    (hvgTotal : ∀ line ∈ vgLines, line.total = line.allocated + line.free) :
    SizesConsistent caches pvDisplay vgDisplay pvLines ↔
      (∃ line ∈ pvLines, ¬ line.Accepted caches) ∨
        (∀ line ∈ pvLines, ¬ 1024 ∣ line.extent) ∧
          ∀ line, LastOfName vgLines line → Populated pvLines line →
            line.free = 0 ∨ 1024 * line.free = line.extent := by
  by_cases hall : ∀ line ∈ pvLines, line.Accepted caches
  · have hlisted := (physicalVolumes_eq_ok hpv).mpr ⟨hall, rfl⟩
    have hrefused : ¬ ∃ line ∈ pvLines, ¬ line.Accepted caches := by simpa using hall
    rw [or_iff_right hrefused, ← forall₂_fitting_iff hall hpvTotal]
    simp only [← @membersOf_ne_nil caches]
    rw [← groups_consistent_iff hvg hvgTotal]
    constructor
    · intro h
      exact h _ hlisted
    · intro h volumes hvolumes
      obtain rfl := Except.ok.inj (hlisted.symm.trans hvolumes)
      exact h
  · refine iff_of_true (fun volumes hvolumes => ?_) (.inl (by simpa using hall))
    exact absurd ((physicalVolumes_eq_ok hpv).mp hvolumes).1 hall

def buildPv : PvLine where
  indent := [' ', ' ']
  device := "/dev/sda5".toList
  volumeGroup := "build".toList
  sectors := 485822464
  internalNumber := -1
  status := 8
  allocatable := 8
  volumes := -1
  extent := 4096
  total := 59304
  free := 100
  allocated := 59204
  uuid := "Ph8MnV-X6m3-h3Na-XI3L-H2N5-dVc7-ZU20Sy".toList
  indent_spaces := List.all_eq_true.mp (by decide)
  device_nonempty := by decide +kernel
  device_accepted := List.all_eq_true.mp (by decide +kernel)
  device_start := by rintro c ⟨⟩; rfl
  volumeGroup_accepted := List.all_eq_true.mp (by decide +kernel)
  uuid_nonempty := by decide +kernel
  uuid_accepted := List.all_eq_true.mp (by decide +kernel)

def buildVg : VgLine where
  indent := [' ', ' ']
  name := "build".toList
  access := "r/w".toList
  status := 772
  internalNumber := -1
  maximalLvs := 0
  currentLvs := 3
  openLvs := 3
  maxVolume := -1
  maximalPvs := 0
  currentPvs := 1
  actualPvs := 1
  size := 242909184
  extent := 4096
  total := 59304
  allocated := 59204
  free := 100
  uuid := "L1mhxa-57G6-NKgr-Xy0A-OJIr-zuj5-7CJpkH".toList
  indent_spaces := List.all_eq_true.mp (by decide)
  name_nonempty := by decide +kernel
  name_accepted := List.all_eq_true.mp (by decide +kernel)
  name_start := by rintro c ⟨⟩; rfl
  access_nonempty := by decide +kernel
  access_accepted := List.all_eq_true.mp (by decide +kernel)
  uuid_nonempty := by decide +kernel
  uuid_accepted := List.all_eq_true.mp (by decide +kernel)

example : buildPv.text = "  /dev/sda5:build:485822464:-1:8:8:-1:4096:59304:100:59204:" ++
    "Ph8MnV-X6m3-h3Na-XI3L-H2N5-dVc7-ZU20Sy" := by
  decide +kernel

private theorem buildPv_record : [buildPv.text].filter isRecord = [buildPv].map PvLine.text := by
  rw [List.filter_cons_of_pos buildPv.isRecord_text]
  rfl

private theorem buildVg_record : [buildVg.text].filter isRecord = [buildVg].map VgLine.text := by
  rw [List.filter_cons_of_pos buildVg.isRecord_text]
  rfl

private theorem buildPv_accepted : ∀ line ∈ [buildPv], line.Accepted [] := by
  simp only [List.forall_mem_singleton]
  constructor
  · norm_num [PvLine.extentSize, buildPv]
  · decide +kernel

/-- 237217 MiB, of which 400 are free. -/
theorem build_notConsistent :
    physicalVolumes [] [buildPv.text] = .ok [buildPv.volume []] ∧
      (buildPv.volume []).capacity + (buildPv.volume []).unusable + 4 = 248741101568 ∧
      volumeGroups .plain [buildPv.volume []] [buildVg.text] =
        .ok [buildVg.group [buildPv.volume []]] ∧
      (buildVg.group [buildPv.volume []]).free = 10000 ∧
      ¬ SizesConsistent [] [buildPv.text] [buildVg.text] [buildPv] := by
  refine ⟨(physicalVolumes_eq_ok buildPv_record).mpr ⟨buildPv_accepted, rfl⟩, ?_, ?_, ?_, ?_⟩
  · norm_num [PvLine.volume, PvLine.extentSize, buildPv, luaMod]
  · rw [volumeGroups, buildVg_record, foldlM_readVolumeGroup, ok_bind]
    rfl
  · norm_num [VgLine.group, buildVg]
  · intro h
    have hfitting := (h _ ((physicalVolumes_eq_ok buildPv_record).mpr
      ⟨buildPv_accepted, rfl⟩)).1
    exact (forall₂_fitting_iff buildPv_accepted (by simp [buildPv])).mp hfitting buildPv
      (List.mem_singleton_self _) (by decide)

theorem build_sizesConsistent_iff :
    SizesConsistent [] [buildPv.text] [buildVg.text] [buildPv] ↔
      (∃ line ∈ [buildPv], ¬ line.Accepted []) ∨
        (∀ line ∈ [buildPv], ¬ 1024 ∣ line.extent) ∧
          ∀ line, LastOfName [buildVg] line → Populated [buildPv] line →
            line.free = 0 ∨ 1024 * line.free = line.extent :=
  sizesConsistent_iff buildPv_record buildVg_record (by simp [buildPv]) (by simp [buildVg])

end OpenSan.Lvm
