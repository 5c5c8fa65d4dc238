import Mathlib.Data.List.Basic
import OpenSan.Foundation.Lua

/-!
# Sorting

The quicksort behind `table.sort` of Lua 5.1.  With an order function that is
not an order it may run past the ends of the array, which it reports as an
error.  An asymmetric order function is enough to rule this out, even if it is
not transitive, and the result is then a rearrangement of the input.  With a
strict weak order it is sorted.
-/

namespace OpenSan.Foundation.Sort

variable {α : Type}

def invalidOrder : Error := .failure "invalid order function for sorting"

def outOfRange : Error := .nilValue "element"

/-- Move up from `i` to the first element that is not below the pivot. -/
def scanUp (less : α → α → Bool) (xs : Array α) (pivot : α) (u : Nat) :
    Nat → Nat → Except Error Nat
  | 0, _ => .error invalidOrder
  | fuel + 1, i =>
      match xs[i + 1]? with
      | none => .error outOfRange
      | some x =>
          if less x pivot then
            if u < i + 1 then .error invalidOrder
            else scanUp less xs pivot u fuel (i + 1)
          else .ok (i + 1)

def scanDown (less : α → α → Bool) (xs : Array α) (pivot : α) (l : Nat) :
    Nat → Nat → Except Error Nat
  | 0, _ => .error invalidOrder
  | _ + 1, 0 => .error outOfRange
  | fuel + 1, j + 1 =>
      match xs[j]? with
      | none => .error outOfRange
      | some x =>
          if less pivot x then
            if j < l then .error invalidOrder
            else scanDown less xs pivot l fuel j
          else .ok j

def partition (less : α → α → Bool) (pivot : α) (l u : Nat) :
    Nat → Array α → Nat → Nat → Except Error (Array α × Nat)
  | 0, _, _, _ => .error invalidOrder
  | fuel + 1, xs, i, j =>
      match scanUp less xs pivot u xs.size i, scanDown less xs pivot l xs.size j with
      | .ok i, .ok j =>
          if j < i then .ok (xs, i)
          else partition less pivot l u fuel (xs.swapIfInBounds i j) i j
      | .error e, _ => .error e
      | .ok _, .error e => .error e

def order (less : α → α → Bool) (xs : Array α) (i j : Nat) : Array α :=
  match xs[i]?, xs[j]? with
  | some x, some y => if less y x then xs.swapIfInBounds i j else xs
  | _, _ => xs

def median (less : α → α → Bool) (xs : Array α) (l m u : Nat) : Array α :=
  match xs[l]?, xs[m]? with
  | some x, some y =>
      if less y x then xs.swapIfInBounds m l else order less xs m u
  | _, _ => xs

def auxsort (less : α → α → Bool) :
    Nat → Array α → Nat → Nat → Except Error (Array α)
  | 0, _, _, _ => .error invalidOrder
  | fuel + 1, xs, l, u =>
      if u ≤ l then .ok xs
      else
        let xs := order less xs l u
        if u - l = 1 then .ok xs
        else
          let m := (l + u) / 2
          let xs := median less xs l m u
          if u - l = 2 then .ok xs
          else
            match xs[m]? with
            | none => .error outOfRange
            | some pivot =>
                match partition less pivot l u xs.size
                    (xs.swapIfInBounds m (u - 1)) l (u - 1) with
                | .error e => .error e
                | .ok (xs, i) =>
                    let xs := xs.swapIfInBounds (u - 1) i
                    if i - l < u - i then
                      match auxsort less fuel xs l (i - 1) with
                      | .error e => .error e
                      | .ok xs => auxsort less fuel xs (i + 1) u
                    else
                      match auxsort less fuel xs (i + 1) u with
                      | .error e => .error e
                      | .ok xs => auxsort less fuel xs l (i - 1)

def sort (less : α → α → Bool) (items : List α) : Except Error (List α) :=
  match auxsort less (items.length + 1) items.toArray 0 (items.length - 1) with
  | .error e => .error e
  | .ok xs => .ok xs.toList

/-! ## Asymmetric order functions -/

def Asymmetric (less : α → α → Bool) : Prop :=
  ∀ x y, less x y = true → less y x = false

theorem Asymmetric.irreflexive {less : α → α → Bool} (h : Asymmetric less)
    (x : α) : less x x = false := by
  by_contra hne
  have htrue : less x x = true := by simpa using hne
  rw [h x x htrue] at htrue
  cases htrue

theorem swapIfInBounds_perm (xs : Array α) (i j : Nat) :
    (xs.swapIfInBounds i j).Perm xs := by
  unfold Array.swapIfInBounds
  split
  · split
    · exact Array.swap_perm _ _
    · exact .refl _
  · exact .refl _

theorem getElem?_swapIfInBounds_of_ne (xs : Array α) {i j k : Nat}
    (hi : k ≠ i) (hj : k ≠ j) : (xs.swapIfInBounds i j)[k]? = xs[k]? := by
  unfold Array.swapIfInBounds
  split
  · split
    · rw [Array.getElem?_swap]
      simp [hi.symm, hj.symm]
    · rfl
  · rfl

theorem getElem?_swapIfInBounds_left {xs : Array α} {i j : Nat}
    (hi : i < xs.size) (hj : j < xs.size) :
    (xs.swapIfInBounds i j)[i]? = xs[j]? := by
  simp [Array.swapIfInBounds, hi, hj]

theorem getElem?_swapIfInBounds_right {xs : Array α} {i j : Nat}
    (hi : i < xs.size) (hj : j < xs.size) :
    (xs.swapIfInBounds i j)[j]? = xs[i]? := by
  simp [Array.swapIfInBounds, hi, hj]

/-- Only the positions from `l` to `u` have changed, and what they hold comes
from these positions. -/
structure Rearranged (l u : Nat) (xs ys : Array α) : Prop where
  perm : ys.Perm xs
  outside : ∀ k, k < l ∨ u < k → ys[k]? = xs[k]?
  inside : ∀ k, l ≤ k → k ≤ u → ∃ k', l ≤ k' ∧ k' ≤ u ∧ ys[k]? = xs[k']?

theorem Rearranged.refl (l u : Nat) (xs : Array α) : Rearranged l u xs xs where
  perm := .refl xs
  outside := fun _ _ => rfl
  inside := fun k hl hu => ⟨k, hl, hu, rfl⟩

theorem Rearranged.trans {l u : Nat} {xs ys zs : Array α} (first : Rearranged l u xs ys)
    (second : Rearranged l u ys zs) : Rearranged l u xs zs where
  perm := second.perm.trans first.perm
  outside := fun k hk => (second.outside k hk).trans (first.outside k hk)
  inside := by
    intro k hl hu
    obtain ⟨k', hl', hu', hk'⟩ := second.inside k hl hu
    obtain ⟨k'', hl'', hu'', hk''⟩ := first.inside k' hl' hu'
    exact ⟨k'', hl'', hu'', hk'.trans hk''⟩

theorem Rearranged.widen {l u l' u' : Nat} {xs ys : Array α} (h : Rearranged l' u' xs ys)
    (hl : l ≤ l') (hu : u' ≤ u) : Rearranged l u xs ys where
  perm := h.perm
  outside := fun k hk => h.outside k (by omega)
  inside := by
    intro k hlk hku
    by_cases hin : l' ≤ k ∧ k ≤ u'
    · obtain ⟨k', hl', hu', hk'⟩ := h.inside k hin.1 hin.2
      exact ⟨k', by omega, by omega, hk'⟩
    · exact ⟨k, hlk, hku, h.outside k (by omega)⟩

theorem Rearranged.size_eq {l u : Nat} {xs ys : Array α} (h : Rearranged l u xs ys) :
    ys.size = xs.size := h.perm.size_eq

theorem Rearranged.forall_range {l u : Nat} {xs ys : Array α} (h : Rearranged l u xs ys)
    {P : α → Prop} {a b : Nat} (hrange : b < l ∨ u < a ∨ a ≤ l ∧ u ≤ b)
    (hall : ∀ k x, a ≤ k → k ≤ b → xs[k]? = some x → P x) :
    ∀ k x, a ≤ k → k ≤ b → ys[k]? = some x → P x := by
  intro k x ha hb hx
  by_cases hin : l ≤ k ∧ k ≤ u
  · obtain ⟨k', hl', hu', hk'⟩ := h.inside k hin.1 hin.2
    exact hall k' x (by omega) (by omega) (hk' ▸ hx)
  · exact hall k x ha hb (h.outside k (by omega) ▸ hx)

theorem swap_rearranged {l u i j : Nat} {xs : Array α} (hsize : u < xs.size)
    (hli : l ≤ i) (hiu : i ≤ u) (hlj : l ≤ j) (hju : j ≤ u) :
    Rearranged l u xs (xs.swapIfInBounds i j) where
  perm := swapIfInBounds_perm xs i j
  outside := fun k hk =>
    getElem?_swapIfInBounds_of_ne xs (by omega) (by omega)
  inside := by
    intro k hlk hku
    by_cases hki : k = i
    · subst hki
      exact ⟨j, hlj, hju, getElem?_swapIfInBounds_left (by omega) (by omega)⟩
    · by_cases hkj : k = j
      · subst hkj
        exact ⟨i, hli, hiu, getElem?_swapIfInBounds_right (by omega) (by omega)⟩
      · exact ⟨k, hlk, hku, getElem?_swapIfInBounds_of_ne xs hki hkj⟩

theorem order_rearranged {less : α → α → Bool} {l u i j : Nat} {xs : Array α}
    (hsize : u < xs.size) (hli : l ≤ i) (hiu : i ≤ u) (hlj : l ≤ j) (hju : j ≤ u) :
    Rearranged l u xs (order less xs i j) := by
  unfold order
  split
  · split
    · exact swap_rearranged hsize hli hiu hlj hju
    · exact .refl l u xs
  · exact .refl l u xs

theorem median_rearranged {less : α → α → Bool} {l u m : Nat} {xs : Array α}
    (hsize : u < xs.size) (hlm : l ≤ m) (hmu : m ≤ u) :
    Rearranged l u xs (median less xs l m u) := by
  unfold median
  split
  · split
    · exact swap_rearranged hsize hlm hmu (le_refl l) (Nat.le_trans hlm hmu)
    · exact order_rearranged hsize hlm hmu (Nat.le_trans hlm hmu) (le_refl u)
  · exact .refl l u xs

section Asymmetric

variable {less : α → α → Bool}

theorem scanUp_spec {xs : Array α} {pivot : α} {u : Nat}
    (hpivot : less pivot pivot = false) (hu : u < xs.size)
    (hend : xs[u - 1]? = some pivot) {fuel i : Nat} (hi : i < u - 1)
    (hfuel : u - i ≤ fuel) :
    ∃ i', scanUp less xs pivot u fuel i = .ok i' ∧ i < i' ∧ i' ≤ u - 1 ∧
      (∀ k x, i < k → k < i' → xs[k]? = some x → less x pivot = true) ∧
      ∀ x, xs[i']? = some x → less x pivot = false := by
  induction fuel generalizing i with
  | zero => omega
  | succ fuel ih =>
      have hbound : i + 1 < xs.size := by omega
      have hnext : xs[i + 1]? = some xs[i + 1] := Array.getElem?_eq_getElem hbound
      simp only [scanUp, hnext]
      by_cases hbelow : less xs[i + 1] pivot = true
      · have hne : i + 1 ≠ u - 1 := by
          intro heq
          have hsame : xs[i + 1]? = some pivot := by rw [heq]; exact hend
          rw [hnext] at hsame
          rw [Option.some.inj hsame, hpivot] at hbelow
          cases hbelow
        rw [if_pos hbelow, if_neg (by omega)]
        obtain ⟨i', hrun, hlow, hhigh, hpassed, hstop⟩ := @ih (i + 1) (by omega) (by omega)
        refine ⟨i', hrun, by omega, hhigh, ?_, hstop⟩
        intro k x hik hki' hx
        by_cases heq : k = i + 1
        · subst heq
          rw [hnext] at hx
          exact Option.some.inj hx ▸ hbelow
        · exact hpassed k x (by omega) hki' hx
      · rw [if_neg hbelow]
        refine ⟨i + 1, rfl, by omega, by omega, ?_, ?_⟩
        · intro k x hik hki'
          omega
        · intro x hx
          rw [hnext] at hx
          rw [← Option.some.inj hx]
          simpa using hbelow

theorem scanDown_spec {xs : Array α} {pivot first : α} {l : Nat}
    (hfirst : xs[l]? = some first) (hlow : less pivot first = false)
    {fuel j : Nat} (hj : l < j) (hsize : j ≤ xs.size) (hfuel : j - l ≤ fuel) :
    ∃ j', scanDown less xs pivot l fuel j = .ok j' ∧ l ≤ j' ∧ j' < j ∧
      (∀ k x, j' < k → k < j → xs[k]? = some x → less pivot x = true) ∧
      ∀ x, xs[j']? = some x → less pivot x = false := by
  induction fuel generalizing j with
  | zero => omega
  | succ fuel ih =>
      cases j with
      | zero => omega
      | succ j =>
          have hbound : j < xs.size := by omega
          have hnext : xs[j]? = some xs[j] := Array.getElem?_eq_getElem hbound
          simp only [scanDown, hnext]
          by_cases habove : less pivot xs[j] = true
          · have hne : j ≠ l := by
              rintro rfl
              rw [hnext] at hfirst
              rw [Option.some.inj hfirst, hlow] at habove
              cases habove
            rw [if_pos habove, if_neg (by omega)]
            obtain ⟨j', hrun, hge, hlt, hpassed, hstop⟩ :=
              @ih j (by omega) (by omega) (by omega)
            refine ⟨j', hrun, hge, by omega, ?_, hstop⟩
            intro k x hj'k hkj hx
            by_cases heq : k = j
            · subst heq
              rw [hnext] at hx
              exact Option.some.inj hx ▸ habove
            · exact hpassed k x hj'k (by omega) hx
          · rw [if_neg habove]
            refine ⟨j, rfl, by omega, by omega, ?_, ?_⟩
            · intro k x hjk hkj
              omega
            · intro x hx
              rw [hnext] at hx
              rw [← Option.some.inj hx]
              simpa using habove

theorem partition_spec (hasymm : Asymmetric less) {pivot : α} {l u : Nat} {fuel : Nat}
    {xs : Array α} {i j : Nat} (hu : u < xs.size) (hend : xs[u - 1]? = some pivot)
    (hli : l ≤ i) (hi : i < u - 1) (hlj : l < j) (hj : j ≤ u - 1) (hfuel : j < fuel)
    (hbelow : ∀ k x, l ≤ k → k ≤ i → xs[k]? = some x → less pivot x = false)
    (habove : ∀ k x, j ≤ k → k ≤ u → xs[k]? = some x → less x pivot = false) :
    ∃ ys i', partition less pivot l u fuel xs i j = .ok (ys, i') ∧
      Rearranged l u xs ys ∧ l < i' ∧ i' ≤ u - 1 ∧ ys[u - 1]? = some pivot ∧
      (∀ k x, l ≤ k → k < i' → ys[k]? = some x → less pivot x = false) ∧
      ∀ k x, i' ≤ k → k ≤ u → ys[k]? = some x → less x pivot = false := by
  induction fuel generalizing xs i j with
  | zero => omega
  | succ fuel ih =>
      have hfirst : xs[l]? = some xs[l] := Array.getElem?_eq_getElem (by omega)
      obtain ⟨i', hup, hii, hiu, hpassedUp, hstopUp⟩ :=
        scanUp_spec (hasymm.irreflexive pivot) hu hend hi (show u - i ≤ xs.size by omega)
      obtain ⟨j', hdown, hlj', hjj, hpassedDown, hstopDown⟩ :=
        scanDown_spec hfirst (hbelow l _ (le_refl l) hli hfirst) hlj (by omega)
          (show j - l ≤ xs.size by omega)
      have hlow : ∀ k x, l ≤ k → k < i' → xs[k]? = some x → less pivot x = false := by
        intro k x hlk hki hx
        by_cases hle : k ≤ i
        · exact hbelow k x hlk hle hx
        · exact hasymm _ _ (hpassedUp k x (by omega) hki hx)
      have hhigh : ∀ k x, j' < k → k ≤ u → xs[k]? = some x → less x pivot = false := by
        intro k x hjk hku hx
        by_cases hle : j ≤ k
        · exact habove k x hle hku hx
        · exact hasymm _ _ (hpassedDown k x hjk (by omega) hx)
      simp only [partition, hup, hdown]
      by_cases hmeet : j' < i'
      · rw [if_pos hmeet]
        exact ⟨xs, i', rfl, .refl l u xs, by omega, hiu, hend, hlow,
          fun k x hik hku hx => hhigh k x (by omega) hku hx⟩
      · rw [if_neg hmeet]
        have hsize : (xs.swapIfInBounds i' j').size = xs.size := by simp
        have hleft : (xs.swapIfInBounds i' j')[i']? = xs[j']? :=
          getElem?_swapIfInBounds_left (by omega) (by omega)
        have hright : (xs.swapIfInBounds i' j')[j']? = xs[i']? :=
          getElem?_swapIfInBounds_right (by omega) (by omega)
        have hother : ∀ k, k ≠ i' → k ≠ j' → (xs.swapIfInBounds i' j')[k]? = xs[k]? :=
          fun k => getElem?_swapIfInBounds_of_ne xs
        obtain ⟨ys, i'', hrun, hrearranged, hbounds⟩ := @ih (xs.swapIfInBounds i' j') i' j'
          (by omega) (by rw [hother _ (by omega) (by omega)]; exact hend)
          (by omega) (by omega) (by omega) (by omega) (by omega)
          (by
            intro k x hlk hki hx
            by_cases heq : k = i'
            · subst heq
              rw [hleft] at hx
              exact hstopDown x hx
            · rw [hother k heq (by omega)] at hx
              exact hlow k x hlk (by omega) hx)
          (by
            intro k x hjk hku hx
            by_cases heq : k = j'
            · subst heq
              rw [hright] at hx
              exact hstopUp x hx
            · rw [hother k (by omega) heq] at hx
              exact hhigh k x (by omega) hku hx)
        exact ⟨ys, i'', hrun,
          (swap_rearranged hu (by omega) (by omega) (by omega) (by omega)).trans hrearranged,
          hbounds⟩

theorem order_spec (hasymm : Asymmetric less) {xs : Array α} {i j : Nat}
    (hi : i < xs.size) (hj : j < xs.size) :
    ∃ x y, (order less xs i j)[i]? = some x ∧ (order less xs i j)[j]? = some y ∧
      less y x = false := by
  simp only [order, Array.getElem?_eq_getElem hi, Array.getElem?_eq_getElem hj]
  by_cases hless : less xs[j] xs[i] = true
  · rw [if_pos hless, getElem?_swapIfInBounds_left hi hj,
      getElem?_swapIfInBounds_right hi hj]
    exact ⟨xs[j], xs[i], Array.getElem?_eq_getElem hj,
      Array.getElem?_eq_getElem hi, hasymm _ _ hless⟩
  · rw [if_neg hless]
    exact ⟨xs[i], xs[j], Array.getElem?_eq_getElem hi,
      Array.getElem?_eq_getElem hj, by simpa using hless⟩

/-- After the median step the middle element is between the first and the last. -/
theorem median_spec (hasymm : Asymmetric less) {xs : Array α} {l m u : Nat}
    (hlm : l < m) (hmu : m < u) (hu : u < xs.size) {x z : α}
    (hx : xs[l]? = some x) (hz : xs[u]? = some z) (hzx : less z x = false) :
    ∃ first pivot last, (median less xs l m u)[l]? = some first ∧
      (median less xs l m u)[m]? = some pivot ∧ (median less xs l m u)[u]? = some last ∧
      less pivot first = false ∧ less last pivot = false := by
  have hl : l < xs.size := by omega
  have hm : m < xs.size := by omega
  simp only [median, hx, Array.getElem?_eq_getElem hm]
  by_cases hless : less xs[m] x = true
  · rw [if_pos hless, getElem?_swapIfInBounds_left hm hl,
      getElem?_swapIfInBounds_right hm hl,
      getElem?_swapIfInBounds_of_ne _ (by omega) (by omega)]
    exact ⟨xs[m], x, z, Array.getElem?_eq_getElem hm, hx, hz, hasymm _ _ hless, hzx⟩
  · rw [if_neg hless]
    simp only [order, Array.getElem?_eq_getElem hm, hz]
    by_cases hlast : less z xs[m] = true
    · rw [if_pos hlast, getElem?_swapIfInBounds_of_ne _ (by omega) (by omega),
        getElem?_swapIfInBounds_left hm hu, getElem?_swapIfInBounds_right hm hu]
      exact ⟨x, z, xs[m], hx, hz, Array.getElem?_eq_getElem hm, hzx, hasymm _ _ hlast⟩
    · rw [if_neg hlast]
      exact ⟨x, xs[m], z, hx, Array.getElem?_eq_getElem hm, hz, by simpa using hless,
        by simpa using hlast⟩

def SortedOn (less : α → α → Bool) (xs : Array α) (l u : Nat) : Prop :=
  ∀ j k x y, l ≤ j → j < k → k ≤ u → xs[j]? = some x → xs[k]? = some y → less y x = false

structure Separated (less : α → α → Bool) (xs : Array α) (l i u : Nat) (pivot : α) :
    Prop where
  pivot_eq : xs[i]? = some pivot
  below : ∀ k x, l ≤ k → k ≤ i - 1 → xs[k]? = some x → less pivot x = false
  above : ∀ k x, i + 1 ≤ k → k ≤ u → xs[k]? = some x → less x pivot = false

theorem auxsort_round (hasymm : Asymmetric less) {xs : Array α} {l u : Nat}
    (hu : u < xs.size) (hlong : l + 2 < u) :
    ∃ qs i pivot, Rearranged l u xs qs ∧ l < i ∧ i ≤ u - 1 ∧
      Separated less qs l i u pivot ∧
      ∀ fuel, auxsort less (fuel + 1) xs l u =
        if i - l < u - i then
          match auxsort less fuel qs l (i - 1) with
          | .error e => .error e
          | .ok ys => auxsort less fuel ys (i + 1) u
        else
          match auxsort less fuel qs (i + 1) u with
          | .error e => .error e
          | .ok ys => auxsort less fuel ys l (i - 1) := by
  have horder : Rearranged l u xs (order less xs l u) :=
    order_rearranged hu (le_refl l) (by omega) (by omega) (le_refl u)
  have hsize₁ := horder.size_eq
  obtain ⟨x, z, hx, hz, hzx⟩ := order_spec hasymm (show l < xs.size by omega) hu
  have hmedian : Rearranged l u xs (median less (order less xs l u) l ((l + u) / 2) u) :=
    horder.trans (median_rearranged (by omega) (by omega) (by omega))
  have hsize₂ := hmedian.size_eq
  obtain ⟨first, pivot, last, hfirst, hpivot, hlast, hlow, hhigh⟩ := median_spec hasymm
    (show l < (l + u) / 2 by omega) (show (l + u) / 2 < u by omega) (by omega) hx hz hzx
  generalize hms : median less (order less xs l u) l ((l + u) / 2) u = ms
    at hmedian hsize₂ hfirst hpivot hlast
  -- the pivot is put next to the last element, where it stops the scan up
  have hswap : Rearranged l u xs (ms.swapIfInBounds ((l + u) / 2) (u - 1)) :=
    hmedian.trans (swap_rearranged (by omega) (by omega) (by omega) (by omega) (by omega))
  have hsize₃ := hswap.size_eq
  have hend : (ms.swapIfInBounds ((l + u) / 2) (u - 1))[u - 1]? = some pivot := by
    rw [getElem?_swapIfInBounds_right (by omega) (by omega)]
    exact hpivot
  have hstart : (ms.swapIfInBounds ((l + u) / 2) (u - 1))[l]? = some first := by
    rw [getElem?_swapIfInBounds_of_ne _ (by omega) (by omega)]
    exact hfirst
  have hstop : (ms.swapIfInBounds ((l + u) / 2) (u - 1))[u]? = some last := by
    rw [getElem?_swapIfInBounds_of_ne _ (by omega) (by omega)]
    exact hlast
  obtain ⟨ps, i, hrun, hparted, hli, hiu, hps, hbelow, habove⟩ :=
    partition_spec hasymm (show u < (ms.swapIfInBounds ((l + u) / 2) (u - 1)).size by omega)
      hend (le_refl l) (by omega) (by omega) (le_refl (u - 1)) (show u - 1 < ms.size by omega)
      (by
        intro k y hlk hkl hy
        obtain rfl : k = l := by omega
        rw [hstart] at hy
        exact Option.some.inj hy ▸ hlow)
      (by
        intro k y huk hku hy
        by_cases heq : k = u
        · subst heq
          rw [hstop] at hy
          exact Option.some.inj hy ▸ hhigh
        · obtain rfl : k = u - 1 := by omega
          rw [hend] at hy
          exact Option.some.inj hy ▸ hasymm.irreflexive pivot)
  have hparted := hswap.trans hparted
  have hsize₄ := hparted.size_eq
  have hlastSwap : Rearranged l u ps (ps.swapIfInBounds (u - 1) i) :=
    swap_rearranged (by omega) (by omega) (by omega) (by omega) (by omega)
  have hat : (ps.swapIfInBounds (u - 1) i)[i]? = some pivot := by
    rw [getElem?_swapIfInBounds_right (by omega) (by omega)]
    exact hps
  refine ⟨ps.swapIfInBounds (u - 1) i, i, pivot, hparted.trans hlastSwap, hli, hiu,
    ⟨hat, ?_, ?_⟩, ?_⟩
  · intro k y hlk hki hy
    rw [getElem?_swapIfInBounds_of_ne _ (by omega) (by omega)] at hy
    exact hbelow k y hlk (by omega) hy
  · intro k y hik hku hy
    by_cases heq : k = u - 1
    · subst heq
      rw [getElem?_swapIfInBounds_left (by omega) (by omega)] at hy
      exact habove i y (le_refl i) (by omega) hy
    · rw [getElem?_swapIfInBounds_of_ne _ heq (by omega)] at hy
      exact habove k y (by omega) hku hy
  · intro fuel
    rw [auxsort, if_neg (by omega)]
    simp only [if_neg (show ¬ u - l = 1 by omega), if_neg (show ¬ u - l = 2 by omega), hms,
      hpivot, hrun]

theorem Separated.of_rearranged {xs ys : Array α} {l i u a b : Nat} {pivot : α}
    (h : Separated less xs l i u pivot) (hli : l < i) (hchange : Rearranged a b xs ys)
    (hrange : a = l ∧ b = i - 1 ∨ a = i + 1 ∧ b = u) : Separated less ys l i u pivot where
  pivot_eq := (hchange.outside i (by omega)).trans h.pivot_eq
  below := hchange.forall_range (by omega) h.below
  above := hchange.forall_range (by omega) h.above

theorem SortedOn.of_rearranged {xs ys : Array α} {l u a b : Nat} (h : SortedOn less xs l u)
    (hchange : Rearranged a b xs ys) (hrange : u < a ∨ b < l) : SortedOn less ys l u := by
  intro j k x y hlj hjk hku hx hy
  rw [hchange.outside j (by omega)] at hx
  rw [hchange.outside k (by omega)] at hy
  exact h j k x y hlj hjk hku hx hy

/-- An order function as `table.sort` expects it: what is not comparable to a
third element is not comparable to each other. -/
structure StrictWeak (less : α → α → Bool) : Prop where
  asymmetric : Asymmetric less
  cotransitive : ∀ x y z, less x z = true → less x y = true ∨ less y z = true

theorem StrictWeak.not_less_trans (h : StrictWeak less) {x y z : α}
    (hyx : less y x = false) (hzy : less z y = false) : less z x = false := by
  by_contra hne
  rcases h.cotransitive z y x (by simpa using hne) with hless | hless
  · rw [hzy] at hless
    cases hless
  · rw [hyx] at hless
    cases hless

theorem StrictWeak.comap {β : Type} (h : StrictWeak less) (f : β → α) :
    StrictWeak fun x y => less (f x) (f y) where
  asymmetric := fun x y => h.asymmetric (f x) (f y)
  cotransitive := fun x y z => h.cotransitive (f x) (f y) (f z)

theorem Separated.sortedOn (hweak : StrictWeak less) {xs : Array α} {l i u : Nat} {pivot : α}
    (h : Separated less xs l i u pivot) (hleft : SortedOn less xs l (i - 1))
    (hright : SortedOn less xs (i + 1) u) : SortedOn less xs l u := by
  intro j k x y hlj hjk hku hx hy
  by_cases hki : k < i
  · exact hleft j k x y hlj hjk (by omega) hx hy
  by_cases hij : i < j
  · exact hright j k x y hij hjk hku hx hy
  have hpivot := h.pivot_eq
  have hlow : less pivot x = false := by
    by_cases heq : j = i
    · subst heq
      rw [hpivot] at hx
      exact Option.some.inj hx ▸ hweak.asymmetric.irreflexive pivot
    · exact h.below j x hlj (by omega) hx
  have hhigh : less y pivot = false := by
    by_cases heq : k = i
    · subst heq
      rw [hpivot] at hy
      exact Option.some.inj hy ▸ hweak.asymmetric.irreflexive pivot
    · exact h.above k y (by omega) hku hy
  exact hweak.not_less_trans hlow hhigh

theorem sortedOn_short {xs : Array α} {l u : Nat} (h : u ≤ l) : SortedOn less xs l u := by
  intro j k x y hlj hjk hku
  omega

theorem sortedOn_two (hasymm : Asymmetric less) {xs : Array α} {l : Nat}
    (hu : l + 1 < xs.size) : SortedOn less (order less xs l (l + 1)) l (l + 1) := by
  obtain ⟨x, z, hx, hz, hzx⟩ := order_spec hasymm (show l < xs.size by omega) hu
  intro j k y y' hlj hjk hku hy hy'
  obtain ⟨rfl, rfl⟩ : j = l ∧ k = l + 1 := by omega
  rw [hx] at hy
  rw [hz] at hy'
  rw [← Option.some.inj hy, ← Option.some.inj hy']
  exact hzx

theorem sortedOn_three (hweak : StrictWeak less) {xs : Array α} {l : Nat}
    (hu : l + 2 < xs.size) {x z : α} (hx : xs[l]? = some x) (hz : xs[l + 2]? = some z)
    (hzx : less z x = false) :
    SortedOn less (median less xs l (l + 1) (l + 2)) l (l + 2) := by
  obtain ⟨first, pivot, last, hfirst, hpivot, hlast, hlow, hhigh⟩ :=
    median_spec hweak.asymmetric (show l < l + 1 by omega) (show l + 1 < l + 2 by omega) hu
      hx hz hzx
  have hends := hweak.not_less_trans hlow hhigh
  intro j k y y' hlj hjk hku hy hy'
  obtain ⟨rfl, rfl⟩ | ⟨rfl, rfl⟩ | ⟨rfl, rfl⟩ :
      j = l ∧ k = l + 1 ∨ j = l ∧ k = l + 2 ∨ j = l + 1 ∧ k = l + 2 := by omega
  · simp_all
  · simp_all
  · simp_all

theorem auxsort_spec (hasymm : Asymmetric less) {fuel : Nat} {xs : Array α}
    {l u : Nat} (hu : u < xs.size ∨ u ≤ l) (hfuel : u - l < fuel) :
    ∃ ys, auxsort less fuel xs l u = .ok ys ∧ Rearranged l u xs ys ∧
      (StrictWeak less → SortedOn less ys l u) := by
  induction fuel generalizing xs l u with
  | zero => omega
  | succ fuel ih =>
      by_cases hdone : u ≤ l
      · rw [auxsort, if_pos hdone]
        exact ⟨xs, rfl, .refl l u xs, fun _ => sortedOn_short hdone⟩
      replace hu : u < xs.size := by omega
      by_cases htwo : u = l + 1
      · subst htwo
        rw [auxsort, if_neg hdone]
        simp only [if_pos (show l + 1 - l = 1 by omega)]
        exact ⟨_, rfl, order_rearranged hu (le_refl l) (by omega) (by omega) (le_refl _),
          fun _ => sortedOn_two hasymm hu⟩
      by_cases hthree : u = l + 2
      · subst hthree
        obtain ⟨x, z, hx, hz, hzx⟩ := order_spec hasymm (show l < xs.size by omega) hu
        have horder : Rearranged l (l + 2) xs (order less xs l (l + 2)) :=
          order_rearranged hu (le_refl l) (by omega) (by omega) (le_refl _)
        have hsize := horder.size_eq
        have hmiddle : (l + (l + 2)) / 2 = l + 1 := by omega
        rw [auxsort, if_neg hdone]
        simp only [if_neg (show ¬ l + 2 - l = 1 by omega),
          if_pos (show l + 2 - l = 2 by omega), hmiddle]
        exact ⟨_, rfl, horder.trans (median_rearranged (by omega) (by omega) (by omega)),
          fun hweak => sortedOn_three hweak (by omega) hx hz hzx⟩
      obtain ⟨qs, i, pivot, hqs, hli, hiu, hsplit, hround⟩ :=
        auxsort_round hasymm hu (show l + 2 < u by omega)
      have hsize := hqs.size_eq
      rw [hround fuel]
      by_cases hsmall : i - l < u - i
      · rw [if_pos hsmall]
        obtain ⟨ys, hys, hleft, hleftSorted⟩ := @ih qs l (i - 1) (by omega) (by omega)
        rw [hys]
        have hsizeys := hleft.size_eq
        obtain ⟨zs, hzs, hright, hrightSorted⟩ := @ih ys (i + 1) u (by omega) (by omega)
        refine ⟨zs, hzs, hqs.trans ((hleft.widen (le_refl l) (by omega)).trans
          (hright.widen (by omega) (le_refl u))), fun hweak => ?_⟩
        exact ((hsplit.of_rearranged hli hleft (by omega)).of_rearranged hli hright
          (by omega)).sortedOn hweak
          ((hleftSorted hweak).of_rearranged hright (by omega)) (hrightSorted hweak)
      · rw [if_neg hsmall]
        obtain ⟨ys, hys, hright, hrightSorted⟩ := @ih qs (i + 1) u (by omega) (by omega)
        rw [hys]
        have hsizeys := hright.size_eq
        obtain ⟨zs, hzs, hleft, hleftSorted⟩ := @ih ys l (i - 1) (by omega) (by omega)
        refine ⟨zs, hzs, hqs.trans ((hright.widen (by omega) (le_refl u)).trans
          (hleft.widen (le_refl l) (by omega))), fun hweak => ?_⟩
        exact ((hsplit.of_rearranged hli hright (by omega)).of_rearranged hli hleft
          (by omega)).sortedOn hweak (hleftSorted hweak)
          ((hrightSorted hweak).of_rearranged hleft (by omega))

end Asymmetric

theorem sort_eq {less : α → α → Bool} (hasymm : Asymmetric less) (items : List α) :
    ∃ sorted, sort less items = .ok sorted ∧ sorted.Perm items ∧
      (StrictWeak less → sorted.Pairwise fun x y => less y x = false) := by
  have hbound : items.length - 1 < items.toArray.size ∨
      items.length - 1 ≤ 0 := by
    simp only [List.size_toArray]
    omega
  obtain ⟨ys, hrun, hrearranged, hsorted⟩ := auxsort_spec hasymm hbound
    (show items.length - 1 - 0 < items.length + 1 by omega)
  have hsize := hrearranged.size_eq
  refine ⟨ys.toList, by simp only [sort, hrun],
    by simpa using Array.perm_iff_toList_perm.mp hrearranged.perm, fun hweak => ?_⟩
  rw [List.pairwise_iff_getElem]
  intro j k hj hk hjk
  have hlast : k ≤ items.length - 1 := by
    simp only [Array.length_toList, hsize, List.size_toArray] at hk
    omega
  apply hsorted hweak j k _ _ (Nat.zero_le j) hjk hlast
  · simp
  · simp

/-- With an asymmetric order function `table.sort` returns a rearrangement. -/
theorem sort_perm {less : α → α → Bool} (hasymm : Asymmetric less)
    (items : List α) :
    ∃ sorted, sort less items = .ok sorted ∧ sorted.Perm items := by
  obtain ⟨sorted, hrun, hperm, _⟩ := sort_eq hasymm items
  exact ⟨sorted, hrun, hperm⟩

/-- With a strict weak order it returns a sorted rearrangement. -/
theorem sort_sorted {less : α → α → Bool} (hweak : StrictWeak less) (items : List α) :
    ∃ sorted, sort less items = .ok sorted ∧ sorted.Perm items ∧
      sorted.Pairwise fun x y => less y x = false := by
  obtain ⟨sorted, hrun, hperm, hsorted⟩ := sort_eq hweak.asymmetric items
  exact ⟨sorted, hrun, hperm, hsorted hweak⟩

end OpenSan.Foundation.Sort
