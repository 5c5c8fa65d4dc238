import Mathlib.Data.List.Basic
import Mathlib.Data.List.TakeWhile
import Mathlib.Tactic.Ring

/-!
# Substitution of runs

`string.gsub` for a pattern that is one class, `least` times and then optionally
up to `most` times: the longest run at each place is replaced, and what does not
start such a run stays.  A text cut in blocks of `most` characters is replaced
block by block.
-/

namespace OpenSan.Foundation

/-- The first argument counts the characters of the current run still to be passed. -/
def gsubRunsFrom (accepts : Char → Bool) (least most : Nat)
    (replace : List Char → List Char) : Nat → List Char → List Char
  | _, [] => []
  | passed + 1, _ :: rest => gsubRunsFrom accepts least most replace passed rest
  | 0, c :: rest =>
      let run := ((c :: rest).take most).takeWhile accepts
      if least ≤ run.length then
        replace run ++ gsubRunsFrom accepts least most replace (run.length - 1) rest
      else c :: gsubRunsFrom accepts least most replace 0 rest

def gsubRuns (accepts : Char → Bool) (least most : Nat)
    (replace : List Char → List Char) (text : List Char) : List Char :=
  gsubRunsFrom accepts least most replace 0 text

section Runs

variable {accepts : Char → Bool} {least most : Nat} {replace : List Char → List Char}

theorem gsubRunsFrom_eq_drop (passed : Nat) (text : List Char) :
    gsubRunsFrom accepts least most replace passed text =
      gsubRuns accepts least most replace (text.drop passed) := by
  induction passed generalizing text with
  | zero => rfl
  | succ passed ih =>
      cases text with
      | nil => rfl
      | cons c rest => simpa [gsubRunsFrom] using ih rest

theorem gsubRuns_run (hleast : 0 < least) {run rest : List Char}
    (hrun : ∀ c ∈ run, accepts c = true) (hlength : least ≤ run.length)
    (hfull : run.length = most ∨ run.length ≤ most ∧ rest = []) :
    gsubRuns accepts least most replace (run ++ rest) =
      replace run ++ gsubRuns accepts least most replace rest := by
  obtain ⟨c, tail, rfl⟩ : ∃ c tail, run = c :: tail :=
    List.exists_cons_of_length_pos (by omega)
  have htaken : (((c :: tail) ++ rest).take most).takeWhile accepts = c :: tail := by
    have htake : ((c :: tail) ++ rest).take most = c :: tail := by
      rcases hfull with hsame | ⟨hshort, rfl⟩
      · simp [← hsame]
      · rw [List.append_nil, List.take_of_length_le hshort]
    rw [htake, List.takeWhile_eq_self_iff]
    exact hrun
  rw [gsubRuns, List.cons_append, gsubRunsFrom, ← List.cons_append]
  simp only [htaken, if_pos hlength]
  rw [gsubRunsFrom_eq_drop]
  simp

/-- Blocks of the full length are replaced one after the other, then what is left
over if it is long enough to be matched. -/
theorem gsubRuns_blocks (hleast : 0 < least) (hmost : least ≤ most)
    {blocks : List (List Char)} {tail : List Char}
    (hblocks : ∀ block ∈ blocks, block.length = most)
    (haccepts : ∀ c ∈ blocks.flatten ++ tail, accepts c = true)
    (htail : tail = [] ∨ least ≤ tail.length ∧ tail.length ≤ most)
    (hdropped : tail ≠ [] → replace tail = []) :
    gsubRuns accepts least most replace (blocks.flatten ++ tail) =
      blocks.flatMap replace := by
  induction blocks with
  | nil =>
      rcases htail with rfl | ⟨hlong, hshort⟩
      · rfl
      · have hne : tail ≠ [] := List.ne_nil_of_length_pos (by omega)
        have hrun : gsubRuns accepts least most replace (tail ++ []) =
            replace tail ++ gsubRuns accepts least most replace [] :=
          gsubRuns_run hleast (fun c hc => haccepts c (by simp [hc])) hlong
            (.inr ⟨hshort, rfl⟩)
        simpa [hdropped hne, gsubRuns, gsubRunsFrom] using hrun
  | cons block blocks ih =>
      have hblock : block.length = most := hblocks block (by simp)
      have hrest := ih (fun other hother => hblocks other (by simp [hother]))
        fun c hc => haccepts c (by rw [List.flatten_cons, List.append_assoc]; simp [hc])
      rw [List.flatten_cons, List.append_assoc, gsubRuns_run hleast
        (fun c hc => haccepts c (by simp [hc])) (by omega) (.inl hblock), hrest,
        List.flatMap_cons]

end Runs

theorem exists_blocks {α : Type} {n : Nat} (hn : 0 < n) (items : List α) :
    ∃ blocks tail, items = List.flatten blocks ++ tail ∧
      (∀ block ∈ blocks, block.length = n) ∧ blocks.length = items.length / n ∧
      tail.length = items.length % n := by
  induction hlength : items.length using Nat.strong_induction_on generalizing items with
  | _ length ih =>
      subst hlength
      by_cases hshort : items.length < n
      · exact ⟨[], items, by simp, by simp, by simp [Nat.div_eq_of_lt hshort],
          (Nat.mod_eq_of_lt hshort).symm⟩
      · have hdrop : (items.drop n).length = items.length - n := by simp
        obtain ⟨blocks, tail, hitems, hblocks, hcount, htail⟩ :=
          ih (items.length - n) (by omega) (items.drop n) hdrop
        refine ⟨items.take n :: blocks, tail, ?_, ?_, ?_, ?_⟩
        · rw [List.flatten_cons, List.append_assoc, ← hitems, List.take_append_drop]
        · simpa [Nat.not_lt.mp hshort] using hblocks
        · rw [List.length_cons, hcount, Nat.div_eq_sub_div hn (Nat.not_lt.mp hshort)]
        · rw [htail, ← Nat.mod_eq_sub_mod (Nat.not_lt.mp hshort)]

/-! ## Numbers as digits of two -/

def binary : Nat → Nat → List Char
  | 0, _ => []
  | width + 1, n =>
      (if n % 2 ^ (width + 1) - n % 2 ^ width > 0 then '1' else '0') :: binary width n

def binaryValue : List Char → Nat
  | [] => 0
  | c :: rest => (if c = '1' then 2 ^ rest.length else 0) + binaryValue rest

@[simp] theorem binary_length (width n : Nat) : (binary width n).length = width := by
  induction width with
  | zero => rfl
  | succ width ih => simp [binary, ih]

theorem binary_digits {width n : Nat} {c : Char} (h : c ∈ binary width n) :
    c = '0' ∨ c = '1' := by
  induction width with
  | zero => simp [binary] at h
  | succ width ih =>
      rcases List.mem_cons.mp h with rfl | hrest
      · split
        · exact .inr rfl
        · exact .inl rfl
      · exact ih hrest

theorem binary_mod (width n : Nat) : binary width (n % 2 ^ width) = binary width n := by
  have hgeneral : ∀ k, k ≤ width → binary k (n % 2 ^ width) = binary k n := by
    intro k
    induction k with
    | zero => simp [binary]
    | succ k ih =>
        intro hk
        have hhigh : n % 2 ^ width % 2 ^ (k + 1) = n % 2 ^ (k + 1) :=
          Nat.mod_mod_of_dvd n (Nat.pow_dvd_pow 2 hk)
        have hlow : n % 2 ^ width % 2 ^ k = n % 2 ^ k :=
          Nat.mod_mod_of_dvd n (Nat.pow_dvd_pow 2 (by omega))
        simp [binary, hhigh, hlow, ih (by omega)]
  exact hgeneral width le_rfl

theorem binaryValue_binary (width n : Nat) : binaryValue (binary width n) = n % 2 ^ width := by
  induction width with
  | zero => simp [binary, binaryValue, Nat.mod_one]
  | succ width ih =>
      have hsplit : n % 2 ^ (width + 1) = n % 2 ^ width + 2 ^ width * (n / 2 ^ width % 2) :=
        Nat.mod_mul (x := n) (a := 2 ^ width) (b := 2)
      have hbit : n / 2 ^ width % 2 = 0 ∨ n / 2 ^ width % 2 = 1 := by omega
      have hpos : 0 < 2 ^ width := Nat.two_pow_pos width
      rw [binary, binaryValue, ih, binary_length]
      rcases hbit with hzero | hone
      · simp [hsplit, hzero]
      · simp [hsplit, hone]
        omega

theorem binaryValue_lt (digits : List Char) : binaryValue digits < 2 ^ digits.length := by
  induction digits with
  | nil => simp [binaryValue]
  | cons c rest ih =>
      rw [binaryValue, List.length_cons, Nat.pow_succ]
      split <;> omega

theorem binary_binaryValue {digits : List Char} (h : ∀ c ∈ digits, c = '0' ∨ c = '1') :
    binary digits.length (binaryValue digits) = digits := by
  induction digits with
  | nil => rfl
  | cons c rest ih =>
      have hrest := binaryValue_lt rest
      have hdigits := ih fun other hother => h other (by simp [hother])
      rw [List.length_cons, binary, ← binary_mod rest.length, binaryValue]
      rcases h c (by simp) with rfl | rfl
      · have hwide : binaryValue rest < 2 ^ (rest.length + 1) := by
          rw [Nat.pow_succ]
          omega
        simp [Nat.mod_eq_of_lt hrest, Nat.mod_eq_of_lt hwide, hdigits]
      · have hwide : 2 ^ rest.length + binaryValue rest < 2 ^ (rest.length + 1) := by
          rw [Nat.pow_succ]
          omega
        simp [Nat.mod_eq_of_lt hrest, Nat.mod_eq_of_lt hwide, hdigits]

end OpenSan.Foundation
