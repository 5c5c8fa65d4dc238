import Mathlib.Order.Defs.LinearOrder
import Mathlib.Data.Set.Basic

/-!
# Orders that keep copies with their originals

Some elements of a linear order are copies of an original, which is smaller
than the copy.  `Before` compares an original with its own copies directly,
another element with a copy through the original of the copy, and two elements
of one kind as they are.  `ordered_iff` says for which sets this is a strict
total order in which nothing stands between an original and its copies but
copies of the same original.
-/

namespace OpenSan.Foundation.OriginOrder

variable {α : Type*} [LinearOrder α] (origin : α → Option α)

def Before (a b : α) : Prop :=
  if origin a = some b then False
  else if origin b = some a then True
  else
    match origin a, origin b with
    | some o, none => o < b
    | none, some p => a < p
    | _, _ => a < b

/-- A strict total order on a set that keeps copies with their originals. -/
structure Ordered (before : α → α → Prop) (devices : Set α) : Prop where
  irrefl : ∀ a ∈ devices, ¬ before a a
  asymm : ∀ a ∈ devices, ∀ b ∈ devices, before a b → ¬ before b a
  trans : ∀ a ∈ devices, ∀ b ∈ devices, ∀ c ∈ devices,
    before a b → before b c → before a c
  total : ∀ a ∈ devices, ∀ b ∈ devices, a ≠ b → before a b ∨ before b a
  together : ∀ o ∈ devices, ∀ s ∈ devices, ∀ x ∈ devices, origin s = some o →
    before o x → before x s → origin x = some o

/-- Two copies are ordered against their originals, and an element that is no
copy lies from one original to the other. -/
def Inverted (devices : Set α) : Prop :=
  ∃ s ∈ devices, ∃ t ∈ devices, ∃ n ∈ devices, ∃ o p, origin s = some o ∧
    origin t = some p ∧ origin n = none ∧ o < p ∧ t < s ∧ o ≤ n ∧ n ≤ p

/-- A copy has copies, and another element lies between it and its original or
between it and one of its copies. -/
def Split (devices : Set α) : Prop :=
  ∃ o ∈ devices, ∃ s ∈ devices, ∃ q, origin o = some q ∧ origin s = some o ∧
    ((∃ n ∈ devices, origin n = none ∧ q < n ∧ n < o) ∨
      ∃ x ∈ devices, ∃ p, origin x = some p ∧ p ≠ o ∧ o < x ∧ x < s)

variable {origin} {devices : Set α} {a b c : α}

theorem before_plain (ha : origin a = none) (hb : origin b = none) :
    Before origin a b ↔ a < b := by
  simp [Before, ha, hb]

theorem before_copy {p : α} (ha : origin a = none) (hb : origin b = some p) :
    Before origin a b ↔ a ≤ p := by
  by_cases heq : p = a
  · simp [Before, ha, hb, heq]
  · have hne : a ≠ p := fun h => heq h.symm
    simp [Before, ha, hb, heq, lt_iff_le_and_ne, hne]

theorem copy_before {o : α} (ha : origin a = some o) (hb : origin b = none) :
    Before origin a b ↔ o < b := by
  by_cases heq : o = b
  · simp [Before, ha, heq]
  · simp [Before, ha, hb, heq]

section Smaller

variable (hsmaller : ∀ {s o}, origin s = some o → o < s)

include hsmaller

/-- Two copies are compared as they are, also when one is a copy of the other. -/
theorem copies_before {o p : α} (ha : origin a = some o) (hb : origin b = some p) :
    Before origin a b ↔ a < b := by
  by_cases hab : o = b
  · have hlt : b < a := hab ▸ hsmaller ha
    simp [Before, ha, hab, hlt.not_gt]
  · by_cases hba : p = a
    · have hlt : a < b := hba ▸ hsmaller hb
      simp [Before, ha, hb, hab, hba, hlt]
    · simp [Before, ha, hb, hab, hba]

theorem before_asymm (h : Before origin a b) : ¬ Before origin b a := by
  cases ha : origin a with
  | none =>
      cases hb : origin b with
      | none =>
          rw [before_plain ha hb] at h
          rw [before_plain hb ha]
          exact h.not_gt
      | some p =>
          rw [before_copy ha hb] at h
          rw [copy_before hb ha]
          exact h.not_gt
  | some o =>
      cases hb : origin b with
      | none =>
          rw [copy_before ha hb] at h
          rw [before_copy hb ha]
          exact h.not_ge
      | some p =>
          rw [copies_before hsmaller ha hb] at h
          rw [copies_before hsmaller hb ha]
          exact h.not_gt

theorem before_total (hne : a ≠ b) : Before origin a b ∨ Before origin b a := by
  cases ha : origin a with
  | none =>
      cases hb : origin b with
      | none =>
          rw [before_plain ha hb, before_plain hb ha]
          exact lt_or_gt_of_ne hne
      | some p =>
          rw [before_copy ha hb, copy_before hb ha]
          exact le_or_gt a p
  | some o =>
      cases hb : origin b with
      | none =>
          rw [copy_before ha hb, before_copy hb ha]
          exact lt_or_ge o b
      | some p =>
          rw [copies_before hsmaller ha hb, copies_before hsmaller hb ha]
          exact lt_or_gt_of_ne hne

theorem before_trans (h : ¬ Inverted origin devices) (ha : a ∈ devices)
    (hb : b ∈ devices) (hc : c ∈ devices) (hab : Before origin a b)
    (hbc : Before origin b c) : Before origin a c := by
  cases hoa : origin a with
  | none =>
      cases hob : origin b with
      | none =>
          rw [before_plain hoa hob] at hab
          cases hoc : origin c with
          | none =>
              rw [before_plain hob hoc] at hbc
              rw [before_plain hoa hoc]
              exact hab.trans hbc
          | some r =>
              rw [before_copy hob hoc] at hbc
              rw [before_copy hoa hoc]
              exact hab.le.trans hbc
      | some q =>
          rw [before_copy hoa hob] at hab
          cases hoc : origin c with
          | none =>
              rw [copy_before hob hoc] at hbc
              rw [before_plain hoa hoc]
              exact hab.trans_lt hbc
          | some r =>
              rw [copies_before hsmaller hob hoc] at hbc
              rw [before_copy hoa hoc]
              by_contra hra
              have hra : r < a := not_le.mp hra
              exact h ⟨c, hc, b, hb, a, ha, r, q, hoc, hob, hoa, hra.trans_le hab, hbc,
                hra.le, hab⟩
  | some o =>
      cases hob : origin b with
      | none =>
          rw [copy_before hoa hob] at hab
          cases hoc : origin c with
          | none =>
              rw [before_plain hob hoc] at hbc
              rw [copy_before hoa hoc]
              exact hab.trans hbc
          | some r =>
              rw [before_copy hob hoc] at hbc
              rw [copies_before hsmaller hoa hoc]
              by_contra hca
              have hne : c ≠ a := by
                rintro rfl
                obtain rfl : o = r := Option.some.inj (hoa.symm.trans hoc)
                exact absurd (hab.trans_le hbc) (lt_irrefl o)
              have hca : c < a := lt_of_le_of_ne (not_lt.mp hca) hne
              exact h ⟨a, ha, c, hc, b, hb, o, r, hoa, hoc, hob, hab.trans_le hbc, hca,
                hab.le, hbc⟩
      | some q =>
          rw [copies_before hsmaller hoa hob] at hab
          cases hoc : origin c with
          | none =>
              rw [copy_before hob hoc] at hbc
              rw [copy_before hoa hoc]
              by_contra hoc'
              have hco : c ≤ o := not_lt.mp hoc'
              exact h ⟨b, hb, a, ha, c, hc, q, o, hob, hoa, hoc, hbc.trans_le hco, hab,
                hbc.le, hco⟩
          | some r =>
              rw [copies_before hsmaller hob hoc] at hbc
              rw [copies_before hsmaller hoa hoc]
              exact hab.trans hbc

/-- Only copies of the same original stand between an original and a copy. -/
theorem between_eq (hinverted : ¬ Inverted origin devices) (hsplit : ¬ Split origin devices)
    {o s x : α} (ho : o ∈ devices) (hs : s ∈ devices) (hx : x ∈ devices)
    (hos : origin s = some o) (hox : Before origin o x) (hxs : Before origin x s) :
    origin x = some o := by
  cases hoo : origin o with
  | none =>
      cases hxo : origin x with
      | none =>
          rw [before_plain hoo hxo] at hox
          rw [before_copy hxo hos] at hxs
          exact absurd (hox.trans_le hxs) (lt_irrefl o)
      | some p =>
          rw [before_copy hoo hxo] at hox
          rw [copies_before hsmaller hxo hos] at hxs
          by_contra hne
          have hop : o < p := lt_of_le_of_ne hox fun heq => hne (heq ▸ rfl)
          exact hinverted ⟨s, hs, x, hx, o, ho, o, p, hos, hxo, hoo, hop, hxs, le_rfl, hox⟩
  | some q =>
      cases hxo : origin x with
      | none =>
          rw [copy_before hoo hxo] at hox
          rw [before_copy hxo hos] at hxs
          have hne : x ≠ o := by
            rintro rfl
            rw [hoo] at hxo
            cases hxo
          exact absurd ⟨o, ho, s, hs, q, hoo, hos, .inl
            ⟨x, hx, hxo, hox, lt_of_le_of_ne hxs hne⟩⟩ hsplit
      | some p =>
          rw [copies_before hsmaller hoo hxo] at hox
          rw [copies_before hsmaller hxo hos] at hxs
          by_contra hne
          exact hsplit ⟨o, ho, s, hs, q, hoo, hos, .inr
            ⟨x, hx, p, hxo, fun heq => hne (heq ▸ rfl), hox, hxs⟩⟩

theorem Ordered.not_inverted (h : Ordered origin (Before origin) devices) :
    ¬ Inverted origin devices := by
  rintro ⟨s, hs, t, ht, n, hn, o, p, hos, hot, hon, hop, hts, hle, hle'⟩
  have hnt : Before origin n t := (before_copy hon hot).mpr hle'
  have hbefore : Before origin t s := (copies_before hsmaller hot hos).mpr hts
  rcases hle.eq_or_lt with rfl | hlt
  · have hsame := h.together o hn s hs t ht hos hnt hbefore
    rw [hot] at hsame
    exact hop.ne' (Option.some.inj hsame)
  · have hsn : Before origin s n := (copy_before hos hon).mpr hlt
    have hst := h.trans s hs n hn t ht hsn hnt
    exact h.asymm s hs t ht hst hbefore

theorem Ordered.not_split (h : Ordered origin (Before origin) devices) :
    ¬ Split origin devices := by
  rintro ⟨o, ho, s, hs, q, hoo, hos, ⟨n, hn, hon, hqn, hno⟩ | ⟨x, hx, p, hox, hne, hlt, hlt'⟩⟩
  · have hsame := h.together o ho s hs n hn hos ((copy_before hoo hon).mpr hqn)
      ((before_copy hon hos).mpr hno.le)
    rw [hon] at hsame
    cases hsame
  · have hsame := h.together o ho s hs x hx hos
      ((copies_before hsmaller hoo hox).mpr hlt) ((copies_before hsmaller hox hos).mpr hlt')
    rw [hox] at hsame
    exact hne (Option.some.inj hsame)

theorem ordered_iff :
    Ordered origin (Before origin) devices ↔
      ¬ Inverted origin devices ∧ ¬ Split origin devices := by
  constructor
  · intro h
    exact ⟨h.not_inverted hsmaller, h.not_split hsmaller⟩
  · rintro ⟨hinverted, hsplit⟩
    exact {
      irrefl := fun a _ hbefore => before_asymm hsmaller hbefore hbefore
      asymm := fun a _ b _ hbefore => before_asymm hsmaller hbefore
      trans := fun a ha b hb c hc => before_trans hsmaller hinverted ha hb hc
      total := fun a _ b _ => before_total hsmaller
      together := fun o ho s hs x hx => between_eq hsmaller hinverted hsplit ho hs hx }

end Smaller

end OpenSan.Foundation.OriginOrder
