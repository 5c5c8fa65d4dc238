import Mathlib
import OpenSan.Foundation.Action

/-!
# Programs that keep to their places

`view` reads a state as a function from places to values.  A program is local to
a set of places when it changes the values of no other places.  Rounds of a loop
that are local to disjoint sets do not disturb each other.
-/

namespace OpenSan.Foundation.Action

variable {σ ε α β ι ν : Type}

/-- `P` depends on the places of `O` only. -/
def Within (O : Set ι) (P : (ι → ν) → Prop) : Prop :=
  ∀ f g, (∀ i ∈ O, g i = f i) → P f → P g

/-- From `P` the program returns, with `Q`, and nothing outside of `O` has changed. -/
def Local (view : σ → ι → ν) (inv : σ → Prop) (O : Set ι) (m : Action σ ε α)
    (P Q : (ι → ν) → Prop) : Prop :=
  ∀ s, inv s → P (view s) →
    Returns m s fun _ s' => inv s' ∧ Q (view s') ∧ ∀ i ∉ O, view s' i = view s i

theorem Within.mono {O O' : Set ι} {P : (ι → ν) → Prop} (h : Within O P) (hsub : O ⊆ O') :
    Within O' P :=
  fun f g hsame => h f g fun i hi => hsame i (hsub hi)

theorem Within.and {O : Set ι} {P Q : (ι → ν) → Prop} (h : Within O P) (h' : Within O Q) :
    Within O fun f => P f ∧ Q f :=
  fun f g hsame hboth => ⟨h f g hsame hboth.1, h' f g hsame hboth.2⟩

namespace Local

variable {view : σ → ι → ν} {inv : σ → Prop} {O : Set ι} {m : Action σ ε α}
  {P Q : (ι → ν) → Prop}

theorem mono {O' : Set ι} {P' Q' : (ι → ν) → Prop} (h : Local view inv O m P Q)
    (hO : O ⊆ O') (hP : ∀ f, P' f → P f) (hQ : ∀ f, Q f → Q' f) :
    Local view inv O' m P' Q' := by
  intro s hinv hP'
  refine (h s hinv (hP _ hP')).mono fun _ s' hdone => ?_
  obtain ⟨hinv', hQ', hsame⟩ := hdone
  exact ⟨hinv', hQ _ hQ', fun i hi => hsame i fun hin => hi (hO hin)⟩

/-- The program keeps what depends on other places. -/
theorem frame {O' : Set ι} {F : (ι → ν) → Prop} (h : Local view inv O m P Q)
    (hF : Within O' F) (hdisjoint : Disjoint O O') :
    Local view inv O m (fun f => P f ∧ F f) fun f => Q f ∧ F f := by
  rintro s hinv ⟨hP, hkept⟩
  refine (h s hinv hP).mono fun _ s' hdone => ?_
  obtain ⟨hinv', hQ, hsame⟩ := hdone
  refine ⟨hinv', ⟨hQ, ?_⟩, hsame⟩
  exact hF _ _ (fun i hi => hsame i (Set.disjoint_right.mp hdisjoint hi)) hkept

theorem seq {next : Action σ ε β} {R : (ι → ν) → Prop} (h : Local view inv O m P Q)
    (hnext : Local view inv O next Q R) : Local view inv O (m >>= fun _ => next) P R := by
  intro s hinv hP
  obtain ⟨value, s₁, hrun₁, hinv₁, hQ, hsame₁⟩ := h s hinv hP
  obtain ⟨value', s₂, hrun₂, hinv₂, hR, hsame₂⟩ := hnext s₁ hinv₁ hQ
  refine ⟨value', s₂, ?_, hinv₂, hR, fun i hi => ?_⟩
  · rw [← hrun₂]
    exact andThen_ok hrun₁
  · rw [hsame₂ i hi, hsame₁ i hi]

theorem forEach_keep {items : List β} {body : β → Action σ ε Unit}
    (hbody : ∀ item ∈ items, Local view inv O (body item) P P) :
    Local view inv O (Action.forEach items body) P P := by
  induction items with
  | nil => exact fun s hinv hP => ⟨(), s, rfl, hinv, hP, fun _ _ => rfl⟩
  | cons item items ih =>
      have hrest := ih fun other hin => hbody other (List.mem_cons_of_mem item hin)
      exact (hbody item List.mem_cons_self).seq hrest

theorem beside {O' : Set ι} {next : Action σ ε β} {P' Q' : (ι → ν) → Prop}
    (h : Local view inv O m P Q) (hnext : Local view inv O' next P' Q') (hP' : Within O' P')
    (hQ : Within O Q) (hdisjoint : Disjoint O O') :
    Local view inv (O ∪ O') (m >>= fun _ => next) (fun f => P f ∧ P' f)
      fun f => Q f ∧ Q' f := by
  have hfirst : Local view inv (O ∪ O') m (fun f => P f ∧ P' f) fun f => Q f ∧ P' f :=
    (h.frame hP' hdisjoint).mono Set.subset_union_left (fun _ hP => hP) fun _ hQ => hQ
  have hsecond : Local view inv (O ∪ O') next (fun f => Q f ∧ P' f) fun f => Q f ∧ Q' f :=
    (hnext.frame hQ hdisjoint.symm).mono Set.subset_union_right
      (fun _ hP => And.symm hP) fun _ hQ => And.symm hQ
  exact hfirst.seq hsecond

theorem forEach {items : List β} {body : β → Action σ ε Unit} {O : β → Set ι}
    {P Q : β → (ι → ν) → Prop} (hP : ∀ item ∈ items, Within (O item) (P item))
    (hQ : ∀ item ∈ items, Within (O item) (Q item))
    (hapart : items.Pairwise fun item other => Disjoint (O item) (O other))
    (hbody : ∀ item ∈ items, Local view inv (O item) (body item) (P item) (Q item)) :
    Local view inv (⋃ item ∈ items, O item) (Action.forEach items body)
      (fun f => ∀ item ∈ items, P item f) fun f => ∀ item ∈ items, Q item f := by
  induction items with
  | nil => exact fun s hinv _ => ⟨(), s, rfl, hinv, by simp, fun _ _ => rfl⟩
  | cons item items ih =>
      obtain ⟨hfirst, hrest⟩ := List.pairwise_cons.mp hapart
      have hbelow : Disjoint (O item) (⋃ other ∈ items, O other) := by
        rw [Set.disjoint_iUnion₂_right]
        exact hfirst
      have htail := ih (fun other hin => hP other (List.mem_cons_of_mem item hin))
        (fun other hin => hQ other (List.mem_cons_of_mem item hin)) hrest
        fun other hin => hbody other (List.mem_cons_of_mem item hin)
      have hlater : Within (⋃ other ∈ items, O other) fun f => ∀ other ∈ items, P other f :=
        fun f g hsame hall other hin =>
          hP other (List.mem_cons_of_mem item hin) f g
            (fun i hi => hsame i (Set.mem_biUnion hin hi)) (hall other hin)
      have hloop := (hbody item List.mem_cons_self).beside htail hlater
        (hQ item List.mem_cons_self) hbelow
      simpa [Action.forEach, bind_eq_andThen] using hloop

theorem forEach_range {items : List β} {body : Nat → Action σ ε Unit} {O : β → Set ι}
    {P Q : Nat → β → (ι → ν) → Prop}
    (hP : ∀ i (hi : i < items.length), Within (O items[i]) (P i items[i]))
    (hQ : ∀ i (hi : i < items.length), Within (O items[i]) (Q i items[i]))
    (hapart : items.Pairwise fun item other => Disjoint (O item) (O other))
    (hbody : ∀ i (hi : i < items.length),
      Local view inv (O items[i]) (body i) (P i items[i]) (Q i items[i])) :
    Local view inv (⋃ item ∈ items, O item)
      (Action.forEach (List.range items.length) body)
      (fun f => ∀ i (hi : i < items.length), P i items[i] f)
      fun f => ∀ i (hi : i < items.length), Q i items[i] f := by
  have hrange : List.range items.length = (List.finRange items.length).map Fin.val := by
    simp
  rw [hrange, forEach_map]
  have hpositions : (List.finRange items.length).Pairwise fun i j =>
      Disjoint (O items[i]) (O items[j]) := by
    rw [List.pairwise_iff_getElem] at hapart ⊢
    intro i j hi hj hlt
    simp only [List.length_finRange] at hi hj
    simpa using hapart i j hi hj hlt
  have hloop : Local view inv (⋃ i ∈ List.finRange items.length, O items[i])
      (Action.forEach (List.finRange items.length) fun i => body i)
      (fun f => ∀ i ∈ List.finRange items.length, P i items[i] f)
      fun f => ∀ i ∈ List.finRange items.length, Q i items[i] f :=
    forEach (fun i _ => hP i i.isLt) (fun i _ => hQ i i.isLt) hpositions
      fun i _ => hbody i i.isLt
  refine hloop.mono ?_ (fun f h i _ => h i i.isLt) fun f h i hi =>
    h ⟨i, hi⟩ (List.mem_finRange _)
  intro place hplace
  obtain ⟨i, _, hin⟩ := Set.mem_iUnion₂.mp hplace
  exact Set.mem_biUnion (List.getElem_mem i.isLt) hin

end Local

end OpenSan.Foundation.Action
