import OpenSan.Foundation.Pattern
import OpenSan.Foundation.Substitution

/-!
# Base64 text of the page

`b64encode` of `matrix.lua` and `b64decode` of `san.lua`.  Both write the bits of
their input as a text of zeros and ones and cut it anew, in sixes and in eights;
a remainder that is too short is dropped.
-/

namespace OpenSan.Web

open OpenSan.Foundation

def alphabet : List Char :=
  "ABCDEFGHIJKLMNOPQRSTUVWXYZabcdefghijklmnopqrstuvwxyz0123456789+/".toList

/-- A Lua string holds bytes. -/
def IsBytes (text : List Char) : Prop := ∀ c ∈ text, c.toNat < 256

instance (text : List Char) : Decidable (IsBytes text) :=
  decidable_of_iff (text.all (·.toNat < 256) = true) (by simp [IsBytes])

def sixBits (x : List Char) : List Char :=
  if x.length < 6 then [] else (alphabet.drop (binaryValue x)).take 1

def eightBits (x : List Char) : List Char :=
  if x.length ≠ 8 then [] else [Char.ofNat (binaryValue x)]

def paddings : List (List Char) := ["".toList, "==".toList, "=".toList]

def b64encode (data : List Char) : List Char :=
  gsubRuns Pattern.digit 2 6 sixBits
      (data.flatMap (fun x => binary 8 x.toNat) ++ "0000".toList) ++
    (paddings[data.length % 3]?).getD []

def b64decode (data : List Char) : List Char :=
  gsubRuns Pattern.digit 2 8 eightBits
    ((data.filter fun c => c ∈ alphabet || c = '=').flatMap fun x =>
      if x = '=' then [] else binary 6 (alphabet.idxOf x))

/-! ## One character -/

theorem alphabet_length : alphabet.length = 64 := rfl

set_option maxRecDepth 4000 in
theorem alphabet_nodup : alphabet.Nodup := by decide

theorem equals_notMem_alphabet : '=' ∉ alphabet := by decide

theorem digit_of_binary {c : Char} (h : c = '0' ∨ c = '1') : Pattern.digit c = true := by
  rcases h with rfl | rfl <;> rfl

def letter (x : List Char) : Char := (alphabet[binaryValue x]?).getD 'A'

theorem letter_eq {x : List Char} (h : x.length = 6) :
    ∃ hlt : binaryValue x < alphabet.length, letter x = alphabet[binaryValue x] := by
  have hvalue := binaryValue_lt x
  have hlt : binaryValue x < alphabet.length := by
    rw [alphabet_length]
    simpa [h] using hvalue
  exact ⟨hlt, by simp [letter, List.getElem?_eq_getElem hlt]⟩

theorem letter_mem {x : List Char} (h : x.length = 6) : letter x ∈ alphabet := by
  obtain ⟨hlt, hletter⟩ := letter_eq h
  rw [hletter]
  exact List.getElem_mem hlt

theorem sixBits_eq {x : List Char} (h : x.length = 6) : sixBits x = [letter x] := by
  obtain ⟨hlt, hletter⟩ := letter_eq h
  rw [sixBits, if_neg (by omega), hletter, List.drop_eq_getElem_cons hlt]
  rfl

theorem binary_idxOf_letter {x : List Char} (h : x.length = 6)
    (hdigits : ∀ c ∈ x, c = '0' ∨ c = '1') : binary 6 (alphabet.idxOf (letter x)) = x := by
  obtain ⟨hlt, hletter⟩ := letter_eq h
  rw [hletter, alphabet_nodup.idxOf_getElem, ← h]
  exact binary_binaryValue hdigits

theorem eightBits_binary {c : Char} (h : c.toNat < 256) :
    eightBits (binary 8 c.toNat) = [c] := by
  have hvalue : binaryValue (binary 8 c.toNat) = c.toNat := by
    rw [binaryValue_binary]
    exact Nat.mod_eq_of_lt h
  simp [eightBits, hvalue, Char.ofNat_toNat]

/-! ## A whole text -/

def bitsOf (data : List Char) : List Char := data.flatMap fun x => binary 8 x.toNat

theorem bitsOf_length (data : List Char) : (bitsOf data).length = 8 * data.length := by
  simp [bitsOf, List.length_flatMap, Nat.mul_comm]

theorem bitsOf_digits {data : List Char} {c : Char} (h : c ∈ bitsOf data) :
    c = '0' ∨ c = '1' := by
  obtain ⟨x, -, hx⟩ := List.mem_flatMap.mp h
  exact binary_digits hx

theorem exists_sixes (data : List Char) :
    ∃ (sixes : List (List Char)) (zeros : Nat),
      sixes.flatten = bitsOf data ++ List.replicate zeros '0' ∧ zeros < 6 ∧ zeros % 2 = 0 ∧
      (∀ six ∈ sixes, six.length = 6 ∧ ∀ c ∈ six, c = '0' ∨ c = '1') ∧
      b64encode data = sixes.map letter ++ (paddings[data.length % 3]?).getD [] := by
  have hzeros : "0000".toList = List.replicate 4 '0' := rfl
  obtain ⟨sixes, tail, hbits, hsixes, hcount, htail⟩ :=
    exists_blocks (by omega : 0 < 6) (bitsOf data ++ "0000".toList)
  have hlength : (bitsOf data ++ "0000".toList).length = 8 * data.length + 4 := by
    rw [List.length_append, bitsOf_length]
    rfl
  rw [hlength] at hcount htail
  have hshort : tail.length ≤ 4 := by omega
  have hdigits : ∀ c ∈ sixes.flatten ++ tail, c = '0' ∨ c = '1' := by
    intro c hc
    rw [← hbits, List.mem_append] at hc
    rcases hc with hdata | hzero
    · exact bitsOf_digits hdata
    · rw [hzeros] at hzero
      exact .inl (List.eq_of_mem_replicate hzero)
  have hflatten : sixes.flatten = bitsOf data ++ List.replicate (4 - tail.length) '0' := by
    have hprefix := congrArg (List.take sixes.flatten.length) hbits
    have hsize := congrArg List.length hbits
    rw [hlength, List.length_append] at hsize
    rw [List.take_left, hzeros, List.take_append, List.take_replicate,
      List.take_of_length_le (by rw [bitsOf_length]; omega), bitsOf_length] at hprefix
    rw [← hprefix]
    congr 2
    omega
  refine ⟨sixes, 4 - tail.length, hflatten, by omega, by omega, ?_, ?_⟩
  · intro six hsix
    refine ⟨hsixes six hsix, fun c hc => hdigits c ?_⟩
    exact List.mem_append_left _ (List.mem_flatten.mpr ⟨six, hsix, hc⟩)
  · have hletters : sixes.flatMap sixBits = sixes.map letter := by
      rw [List.map_eq_flatMap]
      exact List.flatMap_congr fun six hsix => sixBits_eq (hsixes six hsix)
    have htailShort : tail = [] ∨ 2 ≤ tail.length ∧ tail.length ≤ 6 := by
      rcases Nat.eq_zero_or_pos tail.length with hzero | hpos
      · exact .inl (List.eq_nil_of_length_eq_zero hzero)
      · exact .inr ⟨by omega, by omega⟩
    change gsubRuns Pattern.digit 2 6 sixBits (bitsOf data ++ "0000".toList) ++ _ = _
    rw [hbits, gsubRuns_blocks (by omega) (by omega) hsixes
      (fun c hc => digit_of_binary (hdigits c hc)) htailShort
      (fun _ => by rw [sixBits, if_pos (by omega)]), hletters]

theorem filter_paddings (n : Nat) :
    ((paddings[n % 3]?).getD []).filter (· ∈ alphabet) = [] := by
  have hn : n % 3 = 0 ∨ n % 3 = 1 ∨ n % 3 = 2 := by omega
  rcases hn with h | h | h <;> rw [h] <;> decide

theorem b64decode_eq_filter (text : List Char) :
    b64decode text = gsubRuns Pattern.digit 2 8 eightBits
      ((text.filter (· ∈ alphabet)).flatMap fun x => binary 6 (alphabet.idxOf x)) := by
  rw [b64decode]
  congr 1
  induction text with
  | nil => rfl
  | cons c text ih =>
      by_cases hin : c ∈ alphabet
      · have hne : c ≠ '=' := fun hsame => equals_notMem_alphabet (hsame ▸ hin)
        simpa [hin, hne] using ih
      · by_cases hpad : c = '='
        · simpa [hpad, equals_notMem_alphabet] using ih
        · simpa [hin, hpad] using ih

theorem b64decode_of_filter_eq {data text : List Char} (hdata : IsBytes data)
    (htext : text.filter (· ∈ alphabet) = (b64encode data).filter (· ∈ alphabet)) :
    b64decode text = data := by
  obtain ⟨sixes, zeros, hflatten, hzeros, heven, hsixes, hencode⟩ := exists_sixes data
  have hletters : text.filter (· ∈ alphabet) = sixes.map letter := by
    rw [htext, hencode, List.filter_append, filter_paddings, List.append_nil]
    refine List.filter_eq_self.mpr fun c hc => ?_
    obtain ⟨six, hsix, rfl⟩ := List.mem_map.mp hc
    simpa using letter_mem (hsixes six hsix).1
  have hbits : (sixes.map letter).flatMap (fun x => binary 6 (alphabet.idxOf x)) =
      (data.map fun x => binary 8 x.toNat).flatten ++ List.replicate zeros '0' := by
    rw [← List.flatMap_def, ← bitsOf, ← hflatten, List.flatMap_map]
    have hsame := List.flatMap_congr (f := fun six => binary 6 (alphabet.idxOf (letter six)))
      (g := id) fun six hsix => binary_idxOf_letter (hsixes six hsix).1 (hsixes six hsix).2
    rw [hsame, List.flatMap_id]
  rw [b64decode_eq_filter, hletters, hbits, gsubRuns_blocks (by omega) (by omega)]
  · rw [List.flatMap_map]
    have hbytes := List.flatMap_congr (f := fun x : Char => eightBits (binary 8 x.toNat))
      (g := fun x => [x]) fun x hx => eightBits_binary (hdata x hx)
    rw [hbytes, List.flatMap_singleton']
  · intro block hblock
    obtain ⟨x, -, rfl⟩ := List.mem_map.mp hblock
    exact binary_length 8 x.toNat
  · intro c hc
    rcases List.mem_append.mp hc with hin | hzero
    · obtain ⟨block, hblock, hc⟩ := List.mem_flatten.mp hin
      obtain ⟨x, -, rfl⟩ := List.mem_map.mp hblock
      exact digit_of_binary (binary_digits hc)
    · exact digit_of_binary (.inl (List.eq_of_mem_replicate hzero))
  · rcases Nat.eq_zero_or_pos zeros with rfl | hpos
    · exact .inl rfl
    · right
      rw [List.length_replicate]
      omega
  · intro _
    rw [eightBits, if_pos]
    rw [List.length_replicate]
    omega

theorem b64encode_length (data : List Char) :
    (b64encode data).length = 4 * ((data.length + 2) / 3) := by
  obtain ⟨sixes, zeros, hflatten, hzeros, -, hsixes, hencode⟩ := exists_sixes data
  have hsize : sixes.flatten.length = 6 * sixes.length := by
    have hall : ∀ six ∈ sixes, six.length = 6 := fun six hsix => (hsixes six hsix).1
    rw [List.length_flatten, List.map_congr_left hall, List.map_const', List.sum_replicate_nat,
      Nat.mul_comm]
  rw [hflatten, List.length_append, bitsOf_length, List.length_replicate] at hsize
  rw [hencode, List.length_append, List.length_map]
  have hn : data.length % 3 = 0 ∨ data.length % 3 = 1 ∨ data.length % 3 = 2 := by omega
  rcases hn with h | h | h <;> rw [h] <;> simp [paddings] <;> omega

theorem b64encode_chars {data : List Char} {c : Char} (h : c ∈ b64encode data) :
    c ∈ alphabet ∨ c = '=' := by
  obtain ⟨sixes, zeros, -, -, -, hsixes, hencode⟩ := exists_sixes data
  rw [hencode, List.mem_append] at h
  rcases h with hletter | hpadding
  · obtain ⟨six, hsix, rfl⟩ := List.mem_map.mp hletter
    exact .inl (letter_mem (hsixes six hsix).1)
  · have hn : data.length % 3 = 0 ∨ data.length % 3 = 1 ∨ data.length % 3 = 2 := by omega
    rcases hn with h | h | h <;> rw [h] at hpadding <;> simp [paddings] at hpadding <;>
      exact .inr hpadding

/-- The decoder undoes the encoder, also on a text that lost or gained characters outside
the alphabet, such as the padding and the ends of lines. -/
theorem base64_roundTrip {data text : List Char} (hdata : IsBytes data)
    (htext : text.filter (· ∈ alphabet) = (b64encode data).filter (· ∈ alphabet)) :
    b64decode text = data ∧ (b64encode data).length = 4 * ((data.length + 2) / 3) ∧
      ∀ c ∈ b64encode data, c ∈ alphabet ∨ c = '=' :=
  ⟨b64decode_of_filter_eq hdata htext, b64encode_length data, fun _ hc => b64encode_chars hc⟩

theorem base64_roundTrip_folded :
    b64decode "TWFu\nTQ".toList = "ManM".toList ∧
      (b64encode "ManM".toList).length = 4 * (("ManM".toList.length + 2) / 3) ∧
      ∀ c ∈ b64encode "ManM".toList, c ∈ alphabet ∨ c = '=' :=
  base64_roundTrip (by decide) (by decide)

end OpenSan.Web
