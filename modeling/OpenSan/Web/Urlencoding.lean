import OpenSan.Foundation.Number
import OpenSan.Web.Base64

/-!
# The encoding of form fields

`urldecode` and `urlencode` of `luci.http.protocol`.  The decoder takes a plus for a
space and a percent sign with two hexadecimal digits for the character of that code;
a percent sign without them stays.  The encoder keeps the plus as it is.
-/

namespace OpenSan.Web

open OpenSan.Foundation

def charOfHex (a b : Char) : Option Char := do
  let high ← Number.hexValue a
  let low ← Number.hexValue b
  some (Char.ofNat (16 * high + low))

def percentDecode : List Char → List Char
  | [] => []
  | '%' :: a :: b :: rest =>
      match charOfHex a b with
      | some c => c :: percentDecode rest
      | none => '%' :: percentDecode (a :: b :: rest)
  | c :: rest => c :: percentDecode rest

def plusToSpace (c : Char) : Char := if c = '+' then ' ' else c

def urldecode (str : List Char) (noPlus : Bool) : List Char :=
  percentDecode (if noPlus then str else str.map plusToSpace)

def unreserved (c : Char) : Bool :=
  Pattern.alphanumeric c || c ∈ "$_-.+!*'(),".toList

def hexDigit (n : Nat) : Char := (("0123456789abcdef".toList)[n]?).getD '0'

def urlencode (str : List Char) : List Char :=
  str.flatMap fun c =>
    if unreserved c then [c] else ['%', hexDigit (c.toNat / 16), hexDigit (c.toNat % 16)]

/-! ## Texts that stand for a value -/

/-- The first text is a way to write the second in a form: a space as a plus or by its
code, any other character by its code or, where the form's syntax allows, as it is. -/
inductive Encodes : List Char → List Char → Prop where
  | nil : Encodes [] []
  | plain {c : Char} {encoded text : List Char} :
      c ∉ "+%&;".toList → Number.isSpace c = false → Encodes encoded text →
      Encodes (c :: encoded) (c :: text)
  | plus {encoded text : List Char} : Encodes encoded text → Encodes ('+' :: encoded) (' ' :: text)
  | percent {a b c : Char} {encoded text : List Char} : charOfHex a b = some c →
      Encodes encoded text → Encodes ('%' :: a :: b :: encoded) (c :: text)

theorem percentDecode_cons {c : Char} (h : c ≠ '%') (rest : List Char) :
    percentDecode (c :: rest) = c :: percentDecode rest := by
  rw [percentDecode]
  rintro a b tail rfl
  exact absurd rfl h

theorem percentDecode_hex {a b c : Char} (h : charOfHex a b = some c) (rest : List Char) :
    percentDecode ('%' :: a :: b :: rest) = c :: percentDecode rest := by
  rw [percentDecode, h]

def reserved : List Char := ['%', '&', ';', ' ', '\t', '\n', '\x0b', '\x0c', '\r']

theorem reserved_of_isSpace {c : Char} (h : Number.isSpace c = true) : c ∈ reserved := by
  simp only [Number.isSpace, Bool.or_eq_true, beq_iff_eq] at h
  simp only [reserved, List.mem_cons]
  tauto

theorem plain_of_notMem {c : Char} (h : c ∉ reserved) (hplus : c ≠ '+') :
    c ∉ "+%&;".toList ∧ Number.isSpace c = false := by
  constructor
  · intro hin
    simp only [reserved, List.mem_cons, not_or] at h hin
    simp at hin
    tauto
  · by_contra hspace
    exact h (reserved_of_isSpace (by simpa using hspace))

theorem hexValue_reserved {c : Char} (h : c ∈ '+' :: reserved) : Number.hexValue c = none := by
  have hall : ('+' :: reserved).all (fun d => Number.hexValue d = none) = true := rfl
  simpa using List.all_eq_true.mp hall c h

theorem hexValue_ne {a : Char} {n : Nat} (h : Number.hexValue a = some n) :
    a ∉ "+%&;".toList ∧ Number.isSpace a = false := by
  have hout : a ∉ '+' :: reserved := fun hin => by
    rw [hexValue_reserved hin] at h
    cases h
  simp only [List.mem_cons, not_or] at hout
  exact plain_of_notMem hout.2 hout.1

theorem charOfHex_eq_some {a b c : Char} (h : charOfHex a b = some c) :
    ∃ high low, Number.hexValue a = some high ∧ Number.hexValue b = some low ∧
      c = Char.ofNat (16 * high + low) := by
  simp only [charOfHex, Option.bind_eq_bind, Option.bind_eq_some_iff, Option.some.injEq] at h
  obtain ⟨high, hhigh, low, hlow, rfl⟩ := h
  exact ⟨high, low, hhigh, hlow, rfl⟩

theorem urldecode_encodes {encoded text : List Char} (h : Encodes encoded text) :
    urldecode encoded false = text := by
  unfold urldecode
  induction h with
  | nil => rfl
  | @plain c encoded text hsyntax _ _ ih =>
      have hplus : c ≠ '+' := by
        rintro rfl
        exact hsyntax (by decide)
      have hpercent : c ≠ '%' := by
        rintro rfl
        exact hsyntax (by decide)
      simp only [Bool.false_eq_true, if_false, List.map_cons, plusToSpace, hplus] at ih ⊢
      rw [percentDecode_cons hpercent, ih]
  | plus _ ih =>
      simp only [Bool.false_eq_true, if_false, List.map_cons, plusToSpace, if_true] at ih ⊢
      rw [percentDecode_cons (by decide), ih]
  | @percent a b c encoded text hhex _ ih =>
      obtain ⟨high, low, hhigh, hlow, -⟩ := charOfHex_eq_some hhex
      have ha : plusToSpace a = a := if_neg fun hplus => (hexValue_ne hhigh).1 (by simp [hplus])
      have hb : plusToSpace b = b := if_neg fun hplus => (hexValue_ne hlow).1 (by simp [hplus])
      have hpercent : plusToSpace '%' = '%' := rfl
      simp only [Bool.false_eq_true, if_false, List.map_cons, ha, hb, hpercent] at ih ⊢
      rw [percentDecode_hex hhex, ih]

theorem Encodes.chars {encoded text : List Char} (h : Encodes encoded text) :
    ∀ c ∈ encoded, c ≠ '&' ∧ c ≠ ';' ∧ Number.isSpace c = false := by
  induction h with
  | nil => simp
  | plain hsyntax hspace _ ih =>
      simp only [List.forall_mem_cons]
      refine ⟨⟨?_, ?_, hspace⟩, ih⟩ <;> (rintro rfl; exact hsyntax (by decide))
  | plus _ ih => simpa using ⟨by decide, ih⟩
  | percent hhex _ ih =>
      obtain ⟨high, low, hhigh, hlow, -⟩ := charOfHex_eq_some hhex
      have hdigit : ∀ {d : Char} {n : Nat}, Number.hexValue d = some n →
          d ≠ '&' ∧ d ≠ ';' ∧ Number.isSpace d = false := by
        intro d n hd
        refine ⟨?_, ?_, (hexValue_ne hd).2⟩ <;>
          (rintro rfl; exact (hexValue_ne hd).1 (by decide))
      simp only [List.forall_mem_cons]
      exact ⟨⟨by decide, by decide, rfl⟩, hdigit hhigh, hdigit hlow, ih⟩

/-! ## The encoder -/

theorem hexValue_hexDigit {n : Nat} (h : n < 16) : Number.hexValue (hexDigit n) = some n := by
  have hall : ∀ m < 16, Number.hexValue (hexDigit m) = some m := by decide
  exact hall n h

theorem charOfHex_hexDigit {c : Char} (h : c.toNat < 256) :
    charOfHex (hexDigit (c.toNat / 16)) (hexDigit (c.toNat % 16)) = some c := by
  have hvalue : 16 * (c.toNat / 16) + c.toNat % 16 = c.toNat := Nat.div_add_mod c.toNat 16
  rw [charOfHex, hexValue_hexDigit (by omega), hexValue_hexDigit (by omega)]
  simp [hvalue, Char.ofNat_toNat]

theorem unreserved_spec {c : Char} (h : unreserved c = true) (hplus : c ≠ '+') :
    c ∉ "+%&;".toList ∧ Number.isSpace c = false := by
  have hall : reserved.all (fun d => !unreserved d) = true := rfl
  refine plain_of_notMem (fun hin => ?_) hplus
  simpa [h] using List.all_eq_true.mp hall c hin

theorem encodes_urlencode {str : List Char} (hbytes : IsBytes str) :
    Encodes (urlencode str) (str.map plusToSpace) := by
  induction str with
  | nil => exact .nil
  | cons c str ih =>
      have hrest := ih fun d hd => hbytes d (by simp [hd])
      rw [urlencode, List.flatMap_cons, ← urlencode, List.map_cons]
      by_cases hkept : unreserved c = true
      · rw [if_pos hkept]
        by_cases hplus : c = '+'
        · subst hplus
          exact .plus hrest
        · have hspec := unreserved_spec hkept hplus
          rw [plusToSpace, if_neg hplus]
          exact .plain hspec.1 hspec.2 hrest
      · have hplus : c ≠ '+' := by
          rintro rfl
          exact hkept (by decide)
        rw [if_neg hkept, plusToSpace, if_neg hplus]
        exact .percent (charOfHex_hexDigit (hbytes c (by simp))) hrest

theorem urldecode_urlencode {str : List Char} (hbytes : IsBytes str) :
    urldecode (urlencode str) false = str.map plusToSpace :=
  urldecode_encodes (encodes_urlencode hbytes)

/-- The encoder keeps the plus sign, which the decoder takes for a space: only texts
without one come back. -/
theorem urldecode_urlencode_eq_self_iff {str : List Char} (hbytes : IsBytes str) :
    urldecode (urlencode str) false = str ↔ '+' ∉ str := by
  rw [urldecode_urlencode hbytes]
  constructor
  · intro hsame hplus
    have hspace : '+' ∈ str.map plusToSpace := by rwa [hsame]
    obtain ⟨c, -, hc⟩ := List.mem_map.mp hspace
    unfold plusToSpace at hc
    split at hc
    · cases hc
    · contradiction
  · intro hplus
    have hkept : ∀ c ∈ str, plusToSpace c = c := by
      intro c hc
      rw [plusToSpace, if_neg]
      rintro rfl
      exact hplus hc
    exact (List.map_congr_left hkept).trans (List.map_id' str)

theorem urldecode_urlencode_eq_self_iff_plus :
    urldecode (urlencode "1+1 %".toList) false = "1+1 %".toList ↔ '+' ∉ "1+1 %".toList :=
  urldecode_urlencode_eq_self_iff (by decide)

end OpenSan.Web
