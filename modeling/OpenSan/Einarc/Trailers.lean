import OpenSan.Einarc.FlashcacheReboot

/-!
# The trailer of a cache disk

`flashcache_metaread` and the writing in `M.Flashcache.bind`, on the content of
a whole disk.  The writer takes its position from the length of the text, the
reader from the constant `META_SIZE`; both count from the end of the disk.
-/

namespace OpenSan.Einarc.Flashcache

open OpenSan.Foundation

/-! ## UUIDs -/

def IsUuid (text : List Char) : Prop :=
  ∃ groups : List (List Char), groups.length = 4 ∧
    (∀ group ∈ groups, group.length = 8 ∧ ∀ c ∈ group, hexDigit c = true) ∧
    text = List.intercalate [':'] groups

def uuidClasses : List (Char → Bool) :=
  let part := List.replicate 8 hexDigit
  part ++ (· == ':') :: (part ++ (· == ':') :: (part ++ (· == ':') :: part))

theorem uuidPattern_eq : uuidPattern = uuidClasses.map Pattern.Item.one := rfl

private theorem intercalate_four (a b c d : List Char) :
    List.intercalate [':'] [a, b, c, d] =
      a ++ ':' :: (b ++ ':' :: (c ++ ':' :: d)) := by
  simp [List.intercalate]

theorem accepted_uuidClasses {text : List Char} :
    Pattern.Accepted uuidClasses text ↔ IsUuid text := by
  simp only [uuidClasses, Pattern.accepted_append, Pattern.accepted_cons,
    Pattern.accepted_replicate, beq_iff_eq]
  constructor
  · rintro ⟨a, _, rfl, ha, _, _, rfl, rfl, b, _, rfl, hb, _, _, rfl, rfl, c, _, rfl, hc,
      _, d, rfl, rfl, hd⟩
    refine ⟨[a, b, c, d], rfl, ?_, (intercalate_four a b c d).symm⟩
    simp only [List.forall_mem_cons]
    exact ⟨ha, hb, hc, hd, by simp⟩
  · rintro ⟨groups, hfour, hgroups, rfl⟩
    obtain ⟨a, b, c, d, rfl⟩ : ∃ a b c d, groups = [a, b, c, d] := by
      rcases groups with _ | ⟨a, _ | ⟨b, _ | ⟨c, _ | ⟨d, _ | ⟨e, rest⟩⟩⟩⟩⟩ <;> simp at hfour
      exact ⟨a, b, c, d, rfl⟩
    simp only [List.forall_mem_cons] at hgroups
    obtain ⟨ha, hb, hc, hd, _⟩ := hgroups
    rw [intercalate_four]
    exact ⟨a, _, rfl, ha, ':', _, rfl, rfl, b, _, rfl, hb, ':', _, rfl, rfl, c, _, rfl, hc,
      ':', d, rfl, rfl, hd⟩

theorem search_uuidPattern {text : List Char} (h : text.length = 35) :
    (Pattern.search uuidPattern text).isSome = true ↔ IsUuid text := by
  rw [uuidPattern_eq, Pattern.search_classes_isSome (by simpa [uuidClasses] using h),
    accepted_uuidClasses]

theorem IsUuid.length_eq {text : List Char} (h : IsUuid text) : text.length = 35 :=
  (accepted_uuidClasses.mpr h).length_eq

/-! ## Reading and writing at the end of a disk -/

/-- A block device is a number of sectors of 512 bytes. -/
structure BlockDevice where
  content : List Char
  sectors : ∃ n, content.length = 512 * (n + 1)

/-- The position after `fd:seek( "end", -n )`.  On a shorter file the call
fails and the position stays at the start. -/
def seekEnd (content : List Char) (n : Nat) : Nat :=
  if n ≤ content.length then content.length - n else 0

/-- `fd:write( text )`, which cannot make a block device longer. -/
def BlockDevice.write (device : BlockDevice) (position : Nat) (text : List Char) :
    BlockDevice where
  content := (device.content.take position ++ text ++
    device.content.drop (position + text.length)).take device.content.length
  sectors := by
    obtain ⟨n, hn⟩ := device.sectors
    refine ⟨n, ?_⟩
    simp only [List.length_take, List.length_append, List.length_drop]
    omega

def trailerText (sha256hex : List Char → List Char) (mode : Mode) (uuid : List Char) :
    List Char :=
  [mode.letter] ++ uuid ++ sha256hex (uuid ++ [mode.letter] ++ "OpenSAN".toList)

def writeTrailer (sha256hex : List Char → List Char) (mode : Mode) (uuid : List Char)
    (device : BlockDevice) : BlockDevice :=
  let metainfo := trailerText sha256hex mode uuid
  device.write (seekEnd device.content metainfo.length) metainfo

def modes : List Mode := [.writeThrough, .writeAround, .writeBack]

/-- A round of the loop over `M.Flashcache.MODES`.  The letter is overwritten by
the name of its mode, with which the later rounds compare their letters. -/
def checkMode (found : String × Bool) (mode : Mode) : String × Bool :=
  if String.singleton mode.letter = found.1 then (mode.name, true) else found

def findMode (order : Order) (first : String) : String × Bool :=
  (order.visit modes).foldl checkMode (first, false)

def flashcacheMetaread (order : Order) (sha256hex : List Char → List Char)
    (content : List Char) : Option (String × List Char) :=
  let metainfo := content.drop (seekEnd content metaSize)
  if metainfo.length ≠ metaSize then none
  else
    let found := findMode order (String.ofList (metainfo.take 1))
    if found.2 = false then none
    else
      let uuid := (metainfo.drop 1).take 35
      if (Pattern.search uuidPattern uuid).isNone then none
      else
        match Mode.ofName found.1 with
        | none => none
        | some mode =>
            if sha256hex (uuid ++ [mode.letter] ++ "OpenSAN".toList) ≠ metainfo.drop 36 then
              none
            else some (found.1, uuid)

/-! ## The loop over the modes -/

private theorem checkMode_name (mode other : Mode) :
    checkMode (mode.name, true) other = (mode.name, true) := by
  cases mode <;> cases other <;> decide

private theorem checkMode_letter (c : Char) (mode : Mode) :
    checkMode (String.singleton c, false) mode =
      if mode.letter = c then (mode.name, true) else (String.singleton c, false) := by
  simp [checkMode, String.singleton_inj]

private theorem foldl_checkMode_name (mode : Mode) (entries : List Mode) :
    entries.foldl checkMode (mode.name, true) = (mode.name, true) := by
  induction entries with
  | nil => rfl
  | cons other entries ih => rw [List.foldl_cons, checkMode_name, ih]

theorem ofLetter_eq_some {c : Char} {mode : Mode} :
    Mode.ofLetter c = some mode ↔ mode.letter = c := by
  constructor
  · intro h
    unfold Mode.ofLetter at h
    split at h <;> cases h <;> rfl
  · rintro rfl
    exact Mode.ofLetter_letter mode

private theorem foldl_checkMode (c : Char) (entries : List Mode) :
    entries.foldl checkMode (String.singleton c, false) =
      match entries.find? fun mode => mode.letter = c with
      | some mode => (mode.name, true)
      | none => (String.singleton c, false) := by
  induction entries with
  | nil => rfl
  | cons mode entries ih =>
      rw [List.foldl_cons, checkMode_letter]
      by_cases hletter : mode.letter = c
      · simp [hletter, foldl_checkMode_name]
      · simpa [hletter] using ih

/-- The order in which the modes are visited makes no difference. -/
theorem findMode_eq (order : Order) (c : Char) :
    findMode order (String.singleton c) =
      match Mode.ofLetter c with
      | some mode => (mode.name, true)
      | none => (String.singleton c, false) := by
  have hall : ∀ mode, mode ∈ order.visit modes := by
    intro mode
    rw [Order.mem_visit]
    cases mode <;> decide
  rw [findMode, foldl_checkMode]
  cases hmode : Mode.ofLetter c with
  | some mode =>
      have hfind : (order.visit modes).find? (fun mode => mode.letter = c) = some mode := by
        obtain ⟨other, hother⟩ : ∃ other,
            (order.visit modes).find? (fun mode => mode.letter = c) = some other := by
          rw [← Option.isSome_iff_exists, List.find?_isSome]
          exact ⟨mode, hall mode, by simpa using ofLetter_eq_some.mp hmode⟩
        have hletter : other.letter = c := by simpa using List.find?_some hother
        rw [← ofLetter_eq_some, hmode] at hletter
        rw [hother, hletter]
      rw [hfind]
  | none =>
      have hfind : (order.visit modes).find? (fun mode => mode.letter = c) = none := by
        rw [List.find?_eq_none]
        intro mode _ hletter
        rw [ofLetter_eq_some.mpr (by simpa using hletter)] at hmode
        cases hmode
      rw [hfind]

/-! ## Both directions -/

theorem length_trailerText {sha256hex : List Char → List Char}
    (hsha : ∀ text, (sha256hex text).length = 64) (mode : Mode) {uuid : List Char}
    (huuid : IsUuid uuid) : (trailerText sha256hex mode uuid).length = metaSize := by
  simp [trailerText, huuid.length_eq, hsha, metaSize]

theorem BlockDevice.metaSize_le (device : BlockDevice) :
    metaSize ≤ device.content.length := by
  obtain ⟨n, hn⟩ := device.sectors
  rw [hn, metaSize]
  omega

theorem drop_writeTrailer {sha256hex : List Char → List Char}
    (hsha : ∀ text, (sha256hex text).length = 64) (mode : Mode) {uuid : List Char}
    (huuid : IsUuid uuid) (device : BlockDevice) :
    (writeTrailer sha256hex mode uuid device).content.drop
        (seekEnd (writeTrailer sha256hex mode uuid device).content metaSize) =
      trailerText sha256hex mode uuid := by
  have htext := length_trailerText hsha mode huuid
  have hroom := device.metaSize_le
  simp only [writeTrailer, BlockDevice.write, htext, seekEnd, if_pos hroom]
  generalize trailerText sha256hex mode uuid = text at htext ⊢
  have hbefore : (device.content.take (device.content.length - metaSize)).length =
      device.content.length - metaSize := by
    simp
  have hafter : device.content.drop
      (device.content.length - metaSize + metaSize) = [] := by
    apply List.drop_of_length_le
    omega
  have hsum : (device.content.take (device.content.length - metaSize) ++ text).length =
      device.content.length := by
    rw [List.length_append, hbefore, htext]
    omega
  rw [hafter, List.append_nil, List.take_of_length_le (le_of_eq hsum), hsum, if_pos hroom]
  exact List.drop_left' hbefore

theorem flashcacheMetaread_eq (inventory : Inventory) (content : List Char) :
    flashcacheMetaread inventory.order inventory.sha256hex content =
      (metaread inventory (content.drop (seekEnd content metaSize))).map
        fun found => (found.1.name, found.2) := by
  unfold flashcacheMetaread metaread
  generalize content.drop (seekEnd content metaSize) = trailer
  by_cases hlength : trailer.length ≠ metaSize
  · rw [if_pos hlength, if_pos hlength]
    rfl
  rw [if_neg hlength, if_neg hlength]
  cases trailer with
  | nil => simp [metaSize] at hlength
  | cons c rest =>
      have hfound := findMode_eq inventory.order c
      change findMode inventory.order (String.ofList ((c :: rest).take 1)) = _ at hfound
      simp only [hfound, List.drop_succ_cons, List.drop_zero]
      cases Mode.ofLetter c with
      | none => rfl
      | some mode =>
          by_cases hvalid : (Pattern.search uuidPattern (rest.take 35)).isNone = true
          · simp [hvalid]
          by_cases hhash : inventory.sha256hex
              (rest.take 35 ++ [mode.letter] ++ "OpenSAN".toList) ≠ rest.drop 35
          · simp_all
          · simp_all

/-- A trailer that is read is the text that `bind` writes. -/
theorem metaread_eq_some {inventory : Inventory} {trailer uuid : List Char} {mode : Mode}
    (h : metaread inventory trailer = some (mode, uuid)) :
    trailer.length = metaSize ∧ IsUuid uuid ∧
      trailer = trailerText inventory.sha256hex mode uuid := by
  unfold metaread at h
  split at h
  · cases h
  rename_i hsize
  have hlength : trailer.length = metaSize := by simpa using hsize
  cases trailer with
  | nil => cases h
  | cons c rest =>
      simp only at h
      split at h
      · cases h
      · rename_i found hfound
        split at h
        · cases h
        · rename_i hvalid
          split at h
          · cases h
          · rename_i hhash
            obtain ⟨rfl, rfl⟩ : found = mode ∧ rest.take 35 = uuid := by simpa using h
            have hletter := ofLetter_eq_some.mp hfound
            have hrest : rest.length = 99 := by
              simpa [metaSize] using hlength
            have htake : (rest.take 35).length = 35 := by
              rw [List.length_take]
              omega
            have huuid : IsUuid (rest.take 35) :=
              (search_uuidPattern htake).mp (by simpa [Option.isSome_iff_ne_none] using hvalid)
            have hsha := not_not.mp hhash
            refine ⟨hlength, huuid, ?_⟩
            rw [trailerText, hsha, hletter]
            simp

/-- What `bind` writes is read back, and nothing else is taken for a trailer. -/
theorem trailer_roundTrip (inventory : Inventory)
    (hsha : ∀ text, (inventory.sha256hex text).length = 64) :
    (∀ mode uuid device, IsUuid uuid →
      flashcacheMetaread inventory.order inventory.sha256hex
        (writeTrailer inventory.sha256hex mode uuid device).content =
          some (mode.name, uuid)) ∧
    ∀ content modeName uuid,
      flashcacheMetaread inventory.order inventory.sha256hex content =
        some (modeName, uuid) →
      ∃ mode : Mode, mode.name = modeName ∧ IsUuid uuid ∧ metaSize ≤ content.length ∧
        content.drop (content.length - metaSize) =
          trailerText inventory.sha256hex mode uuid := by
  constructor
  · intro mode uuid device huuid
    have hread : metaread inventory (trailerText inventory.sha256hex mode uuid) =
        some (mode, uuid) :=
      metaread_eq hsha mode huuid.length_eq
        ((search_uuidPattern huuid.length_eq).mpr huuid)
    rw [flashcacheMetaread_eq, drop_writeTrailer hsha mode huuid device, hread]
    rfl
  · intro content modeName uuid h
    rw [flashcacheMetaread_eq, Option.map_eq_some_iff] at h
    obtain ⟨⟨mode, found⟩, hread, hsame⟩ := h
    obtain ⟨rfl, rfl⟩ := Prod.mk.inj hsame
    obtain ⟨hlength, huuid, htext⟩ := metaread_eq_some hread
    have hlong : metaSize ≤ content.length := by
      rw [List.length_drop] at hlength
      omega
    refine ⟨mode, rfl, huuid, hlong, ?_⟩
    rw [seekEnd, if_pos hlong] at htext
    exact htext

def blankDevice : BlockDevice where
  content := List.replicate 512 '\x00'
  sectors := ⟨0, List.length_replicate⟩

theorem sampleUuid_isUuid : IsUuid sampleUuid :=
  (search_uuidPattern (sampleInventory_sound.uuid_length 0 (by simp [sampleInventory]))).mp
    (sampleInventory_sound.uuid_valid 0 (by simp [sampleInventory]))

theorem sampleTrailer_readBack :
    (∀ text, (sampleInventory.sha256hex text).length = 64) ∧
      flashcacheMetaread .plain sampleSha
        (writeTrailer sampleSha .writeThrough sampleUuid blankDevice).content =
          some ("WRITE_THROUGH", sampleUuid) :=
  ⟨sampleInventory_sound.sha_length,
    (trailer_roundTrip sampleInventory sampleInventory_sound.sha_length).1 .writeThrough
      sampleUuid blankDevice sampleUuid_isUuid⟩

end OpenSan.Einarc.Flashcache
