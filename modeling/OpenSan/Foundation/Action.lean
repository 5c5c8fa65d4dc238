import Mathlib.Data.List.Basic

/-!
# Stateful programs that may raise

An `Action` reads and writes a state and either returns a value or raises an
error.  A raised error does not undo what was written before it, and `pcall`
turns the error into a value without touching the state.  This is the reading
of a script whose statements are external effects: there is no transaction.
-/

namespace OpenSan.Foundation

def Action (σ ε α : Type) : Type := σ → Except ε α × σ

namespace Action

variable {σ ε α β : Type}

def ret (value : α) : Action σ ε α := fun s => (.ok value, s)

def andThen (first : Action σ ε α) (next : α → Action σ ε β) : Action σ ε β :=
  fun s =>
    match first s with
    | (.ok value, s') => next value s'
    | (.error e, s') => (.error e, s')

instance : Monad (Action σ ε) where
  pure := ret
  bind := andThen

def raise (e : ε) : Action σ ε α := fun s => (.error e, s)

def pcall (m : Action σ ε α) : Action σ ε (Except ε α) :=
  fun s => (.ok (m s).1, (m s).2)

def read (f : σ → α) : Action σ ε α := fun s => (.ok (f s), s)

def query (f : σ → Except ε α) : Action σ ε α := fun s => (f s, s)

def modify (f : σ → σ) : Action σ ε Unit := fun s => (.ok (), f s)

def lift (result : Except ε α) : Action σ ε α := fun s => (result, s)

def require (condition : Prop) [Decidable condition] (e : ε) :
    Action σ ε Unit :=
  if condition then ret () else raise e

def forEach : List α → (α → Action σ ε Unit) → Action σ ε Unit
  | [], _ => ret ()
  | item :: items, body => andThen (body item) fun _ => forEach items body

@[simp] theorem pure_run (value : α) (s : σ) :
    (pure value : Action σ ε α) s = (.ok value, s) := rfl

@[simp] theorem ret_run (value : α) (s : σ) :
    (ret value : Action σ ε α) s = (.ok value, s) := rfl

@[simp] theorem raise_run (e : ε) (s : σ) :
    (raise e : Action σ ε α) s = (.error e, s) := rfl

@[simp] theorem pcall_run (m : Action σ ε α) (s : σ) :
    pcall m s = (.ok (m s).1, (m s).2) := rfl

@[simp] theorem read_run (f : σ → α) (s : σ) :
    (read f : Action σ ε α) s = (.ok (f s), s) := rfl

@[simp] theorem query_run (f : σ → Except ε α) (s : σ) :
    query f s = (f s, s) := rfl

@[simp] theorem modify_run (f : σ → σ) (s : σ) :
    (modify f : Action σ ε Unit) s = (.ok (), f s) := rfl

@[simp] theorem lift_run (result : Except ε α) (s : σ) :
    (lift result : Action σ ε α) s = (result, s) := rfl

theorem require_of_true {condition : Prop} [Decidable condition]
    (h : condition) (e : ε) : (require condition e : Action σ ε Unit) = ret () :=
  if_pos h

theorem require_of_false {condition : Prop} [Decidable condition]
    (h : ¬ condition) (e : ε) :
    (require condition e : Action σ ε Unit) = raise e :=
  if_neg h

@[simp] theorem bind_run (first : Action σ ε α) (next : α → Action σ ε β)
    (s : σ) :
    (first >>= next) s =
      match first s with
      | (.ok value, s') => next value s'
      | (.error e, s') => (.error e, s') := rfl

theorem bind_eq_andThen (first : Action σ ε α) (next : α → Action σ ε β) :
    first >>= next = andThen first next := rfl

theorem andThen_ok {first : Action σ ε α} {next : α → Action σ ε β}
    {s s' : σ} {value : α} (h : first s = (.ok value, s')) :
    andThen first next s = next value s' := by
  simp [andThen, h]

theorem andThen_error {first : Action σ ε α} {next : α → Action σ ε β}
    {s s' : σ} {e : ε} (h : first s = (.error e, s')) :
    andThen first next s = (.error e, s') := by
  simp [andThen, h]

theorem forEach_append (xs ys : List α) (body : α → Action σ ε Unit) :
    forEach (xs ++ ys) body = (forEach xs body >>= fun _ => forEach ys body) := by
  induction xs with
  | nil => rfl
  | cons x xs ih =>
      funext s
      simp only [List.cons_append, forEach, ih, bind_eq_andThen, andThen]
      rcases body x s with ⟨_ | _, _⟩ <;> rfl

theorem forEach_flatMap (items : List β) (f : β → List α)
    (body : α → Action σ ε Unit) :
    forEach (items.flatMap f) body = forEach items fun item => forEach (f item) body := by
  induction items with
  | nil => rfl
  | cons item items ih =>
      rw [List.flatMap_cons, forEach_append, ih]
      rfl

theorem forEach_map (items : List β) (f : β → α) (body : α → Action σ ε Unit) :
    forEach (items.map f) body = forEach items fun item => body (f item) := by
  induction items with
  | nil => rfl
  | cons item items ih =>
      rw [List.map_cons, forEach, forEach, ih]

theorem forEach_congr {items : List α} {body body' : α → Action σ ε Unit}
    (h : ∀ item ∈ items, body item = body' item) :
    forEach items body = forEach items body' := by
  induction items with
  | nil => rfl
  | cons item items ih =>
      rw [forEach, forEach, h item (by simp), ih fun other hother =>
        h other (by simp [hother])]

theorem forEach_of_quiet {items : List α} {body : α → Action σ ε Unit}
    (h : ∀ item ∈ items, body item = ret ()) : forEach items body = ret () := by
  induction items with
  | nil => rfl
  | cons item items ih =>
      have hrest := ih fun other hother => h other (by simp [hother])
      simp only [forEach, h item (by simp), hrest]
      rfl

theorem forEach_of_single {items : List α} {body : α → Action σ ε Unit}
    {only : α} (hmem : only ∈ items) (hnodup : items.Nodup)
    (h : ∀ item ∈ items, item ≠ only → body item = ret ()) :
    forEach items body = body only := by
  induction items with
  | nil => cases hmem
  | cons item items ih =>
      obtain ⟨hnot, hrest⟩ := List.nodup_cons.mp hnodup
      simp only [forEach]
      by_cases heq : item = only
      · subst heq
        have hquiet : forEach items body = ret () := by
          apply forEach_of_quiet
          intro other hother
          exact h other (by simp [hother]) fun hsame => hnot (hsame ▸ hother)
        funext s
        rcases hrun : body item s with ⟨e | ⟨⟩, s'⟩
        · rw [andThen_error hrun]
        · rw [andThen_ok hrun, hquiet]
          rfl
      · have hmem' : only ∈ items := by
          rcases List.mem_cons.mp hmem with hsame | hin
          · exact absurd hsame.symm heq
          · exact hin
        have hlater := ih hmem' hrest fun other hother hne =>
          h other (by simp [hother]) hne
        rw [h item (by simp) heq, hlater]
        rfl

/-! ## The state a program leaves behind

The rules below follow the text of a program and ask for a property of the
final state in each place where it can stop.
-/

section Final

variable {Q : σ → Prop} {s : σ}

theorem final_read {f : σ → α} {next : α → Action σ ε β}
    (h : Q (next (f s) s).2) : Q ((read f >>= next) s).2 := h

theorem final_pcall {m : Action σ ε α} {next : Except ε α → Action σ ε β}
    (h : Q (next (m s).1 (m s).2).2) : Q ((pcall m >>= next) s).2 := h

theorem final_lift {result : Except ε α} {next : α → Action σ ε β}
    (herror : ∀ e, result = .error e → Q s)
    (hok : ∀ value, result = .ok value → Q (next value s).2) :
    Q ((lift result >>= next) s).2 := by
  cases result with
  | error e => exact herror e rfl
  | ok value => exact hok value rfl

theorem final_require {condition : Prop} [Decidable condition] {e : ε}
    {next : Unit → Action σ ε β} (hno : ¬ condition → Q s)
    (hyes : condition → Q (next () s).2) :
    Q ((require condition e >>= next) s).2 := by
  unfold require
  by_cases h : condition
  · rw [if_pos h]
    exact hyes h
  · rw [if_neg h]
    exact hno h

theorem final_ite {condition : Prop} [Decidable condition]
    {yes no : Action σ ε α} (hyes : condition → Q (yes s).2)
    (hno : ¬ condition → Q (no s).2) :
    Q ((if condition then yes else no) s).2 := by
  by_cases h : condition
  · rw [if_pos h]
    exact hyes h
  · rw [if_neg h]
    exact hno h

theorem final_bind {first : Action σ ε α} {next : α → Action σ ε β}
    (herror : ∀ e s', first s = (.error e, s') → Q s')
    (hok : ∀ value s', first s = (.ok value, s') → Q (next value s').2) :
    Q ((first >>= next) s).2 := by
  rcases hrun : first s with ⟨e | value, s'⟩
  · simpa [hrun] using herror e s' hrun
  · simpa [hrun] using hok value s' hrun

theorem final_thenPure {first : Action σ ε α} {value : β}
    (h : Q (first s).2) : Q ((first >>= fun _ => pure value) s).2 := by
  rcases hrun : first s with ⟨e | result, s'⟩ <;> simpa [hrun] using h

end Final

/-! ## What a program can do to the state -/

/-- Whatever its result, the program moves the state along `R`. -/
def Evolves (R : σ → σ → Prop) (m : Action σ ε α) : Prop :=
  ∀ s, R s (m s).2

section Evolves

variable {R : σ → σ → Prop} (hrefl : ∀ s, R s s)
  (htrans : ∀ a b c, R a b → R b c → R a c)

include hrefl in
theorem evolves_of_state_eq {m : Action σ ε α} (h : ∀ s, (m s).2 = s) :
    Evolves R m := by
  intro s
  rw [h s]
  exact hrefl s

include htrans in
theorem evolves_bind {first : Action σ ε α} {next : α → Action σ ε β}
    (hfirst : Evolves R first) (hnext : ∀ value, Evolves R (next value)) :
    Evolves R (first >>= next) := by
  intro s
  rw [bind_eq_andThen]
  have h₁ := hfirst s
  rcases hrun : first s with ⟨value | value, s'⟩
  · rw [andThen_error hrun]
    simpa [hrun] using h₁
  · rw [andThen_ok hrun]
    rw [hrun] at h₁
    exact htrans s s' _ h₁ (hnext value s')

theorem evolves_ite {condition : Prop} [Decidable condition]
    {yes no : Action σ ε α} (hyes : Evolves R yes) (hno : Evolves R no) :
    Evolves R (if condition then yes else no) := by
  by_cases h : condition
  · rw [if_pos h]
    exact hyes
  · rw [if_neg h]
    exact hno

theorem evolves_pcall {m : Action σ ε α} (h : Evolves R m) :
    Evolves R (pcall m) := h

include hrefl htrans in
theorem evolves_forEach {items : List α} {body : α → Action σ ε Unit}
    (hbody : ∀ item ∈ items, Evolves R (body item)) :
    Evolves R (forEach items body) := by
  induction items with
  | nil => exact evolves_of_state_eq hrefl (fun _ => rfl)
  | cons item items ih =>
      refine evolves_bind htrans (hbody item (by simp)) fun _ => ih ?_
      intro other hother
      exact hbody other (by simp [hother])

end Evolves

/-! ## Programs that return

`Returns m s Q`: started in `s` the program does not raise, and `Q` holds of
the value and the state at its end.
-/

def Returns (m : Action σ ε α) (s : σ) (Q : α → σ → Prop) : Prop :=
  ∃ value s', m s = (.ok value, s') ∧ Q value s'

namespace Returns

variable {Q : α → σ → Prop} {s : σ}

theorem mono {m : Action σ ε α} {P : α → σ → Prop} (h : Returns m s P)
    (himp : ∀ value s', P value s' → Q value s') : Returns m s Q := by
  obtain ⟨value, s', hrun, hp⟩ := h
  exact ⟨value, s', hrun, himp value s' hp⟩

theorem bind {first : Action σ ε β} {next : β → Action σ ε α}
    {P : β → σ → Prop} (hfirst : Returns first s P)
    (hnext : ∀ value s', P value s' → Returns (next value) s' Q) :
    Returns (first >>= next) s Q := by
  obtain ⟨value, s', hrun, hp⟩ := hfirst
  obtain ⟨result, s'', hrun', hq⟩ := hnext value s' hp
  exact ⟨result, s'', by rw [bind_run, hrun, ← hrun'], hq⟩

theorem pure {value : α} (h : Q value s) :
    Returns (Pure.pure value : Action σ ε α) s Q :=
  ⟨value, s, rfl, h⟩

theorem modify {f : σ → σ} {P : Unit → σ → Prop} (h : P () (f s)) :
    Returns (Action.modify f : Action σ ε Unit) s P :=
  ⟨(), f s, rfl, h⟩

theorem read_bind {f : σ → β} {next : β → Action σ ε α}
    (h : Returns (next (f s)) s Q) : Returns (read f >>= next) s Q := h

theorem modify_bind {f : σ → σ} {next : Unit → Action σ ε α}
    (h : Returns (next ()) (f s) Q) : Returns (Action.modify f >>= next) s Q := h

theorem lift_bind {result : Except ε β} {value : β} {next : β → Action σ ε α}
    (hok : result = .ok value) (h : Returns (next value) s Q) :
    Returns (lift result >>= next) s Q := by
  subst hok
  exact h

theorem query_bind {f : σ → Except ε β} {value : β} {next : β → Action σ ε α}
    (hok : f s = .ok value) (h : Returns (next value) s Q) :
    Returns (query f >>= next) s Q := by
  obtain ⟨result, s', hrun, hq⟩ := h
  exact ⟨result, s', by rw [bind_run, query_run, hok, ← hrun], hq⟩

/-- The rule for loops: an invariant that counts the finished rounds. -/
theorem forEach (items : List β) {body : β → Action σ ε Unit}
    {I : Nat → σ → Prop} (h0 : I 0 s)
    (hstep : ∀ i (hi : i < items.length) s, I i s →
      Returns (body items[i]) s fun _ => I (i + 1)) :
    Returns (Action.forEach items body) s fun _ => I items.length := by
  induction items generalizing I s with
  | nil => exact ⟨(), s, rfl, h0⟩
  | cons item items ih =>
      obtain ⟨_, s₁, hrun, h1⟩ := hstep 0 (by simp) s h0
      obtain ⟨value, s₂, hrest, h2⟩ := ih (I := fun i => I (i + 1)) h1
        fun i hi => hstep (i + 1) (by simpa using hi)
      refine ⟨value, s₂, ?_, h2⟩
      rw [← hrest]
      exact andThen_ok hrun

theorem forEach_mem {items : List β} {body : β → Action σ ε Unit}
    {I : σ → Prop} (h0 : I s)
    (hstep : ∀ item ∈ items, ∀ s, I s → Returns (body item) s fun _ => I) :
    Returns (Action.forEach items body) s fun _ => I :=
  forEach items (I := fun _ => I) h0 fun i hi => hstep items[i] (by simp)

end Returns

/-! ## Programs that may raise

`Ensures m s Q`: if the program started in `s` returns, `Q` holds of the value
and the state at its end.
-/

def Ensures (m : Action σ ε α) (s : σ) (Q : α → σ → Prop) : Prop :=
  ∀ value s', m s = (.ok value, s') → Q value s'

namespace Ensures

variable {Q : α → σ → Prop} {s : σ}

theorem mono {m : Action σ ε α} {P : α → σ → Prop} (h : Ensures m s P)
    (himp : ∀ value s', P value s' → Q value s') : Ensures m s Q :=
  fun value s' hrun => himp value s' (h value s' hrun)

theorem pure {value : α} (h : Q value s) :
    Ensures (Pure.pure value : Action σ ε α) s Q := by
  intro other s' hrun
  cases hrun
  exact h

theorem and {m : Action σ ε α} {P : α → σ → Prop} (h : Ensures m s P)
    (h' : Ensures m s Q) : Ensures m s fun value s' => P value s' ∧ Q value s' :=
  fun value s' hrun => ⟨h value s' hrun, h' value s' hrun⟩

theorem bind {first : Action σ ε β} {next : β → Action σ ε α}
    {P : β → σ → Prop} (hfirst : Ensures first s P)
    (hnext : ∀ value s', P value s' → Ensures (next value) s' Q) :
    Ensures (first >>= next) s Q := by
  intro value s' hrun
  rw [bind_run] at hrun
  rcases hfst : first s with ⟨e | middle, s₁⟩
  · rw [hfst] at hrun
    cases hrun
  · rw [hfst] at hrun
    exact hnext middle s₁ (hfirst middle s₁ hfst) value s' hrun

theorem of_returns {m : Action σ ε α} (h : Returns m s Q) : Ensures m s Q := by
  obtain ⟨value, s', hrun, hq⟩ := h
  intro other s'' hother
  rw [hrun] at hother
  cases hother
  exact hq

theorem of_evolves {R : σ → σ → Prop} {m : Action σ ε α} (h : Evolves R m) :
    Ensures m s fun _ s' => R s s' := by
  intro value s' hrun
  have hstep := h s
  rw [hrun] at hstep
  exact hstep

theorem modify {f : σ → σ} {P : Unit → σ → Prop} (h : P () (f s)) :
    Ensures (Action.modify f : Action σ ε Unit) s P := by
  intro value s' hrun
  cases hrun
  exact h

theorem lift {result : Except ε α} {P : α → σ → Prop}
    (h : ∀ value, result = .ok value → P value s) :
    Ensures (Action.lift result : Action σ ε α) s P := by
  intro value s' hrun
  rw [lift_run] at hrun
  cases hrun
  exact h value rfl

theorem query {f : σ → Except ε α} {P : α → σ → Prop}
    (h : ∀ value, f s = .ok value → P value s) :
    Ensures (Action.query f) s P := by
  intro value s' hrun
  rw [query_run, Prod.mk.injEq] at hrun
  obtain ⟨hvalue, rfl⟩ := hrun
  exact h value hvalue

theorem read {f : σ → α} {P : α → σ → Prop} (h : P (f s) s) :
    Ensures (Action.read f : Action σ ε α) s P := by
  intro value s' hrun
  cases hrun
  exact h

theorem forEach (items : List β) (body : β → Action σ ε Unit)
    {I : Nat → σ → Prop} (h0 : I 0 s)
    (hstep : ∀ i (hi : i < items.length) s, I i s →
      Ensures (body items[i]) s fun _ => I (i + 1)) :
    Ensures (Action.forEach items body) s fun _ => I items.length := by
  induction items generalizing I s with
  | nil =>
      intro value s' hrun
      cases hrun
      exact h0
  | cons item items ih =>
      have hfirst := hstep 0 (by simp) s h0
      have hrest : ∀ s', I 1 s' → Ensures (Action.forEach items body) s'
          fun _ => I (items.length + 1) := fun s' h1 =>
        ih (I := fun i => I (i + 1)) h1 fun i hi => hstep (i + 1) (by simpa using hi)
      exact hfirst.bind fun _ s' h1 => hrest s' h1

end Ensures

end Action

end OpenSan.Foundation
