import OpenSan.Matrix.Sheet

/-!
# The steps of the layout

`overall` draws the table in a few kinds of steps: it changes the lines, it sets
spans, it sets the members of an array and it takes disks from the free ones.  A
relation that all of them keep holds between the table before and after.
-/

namespace OpenSan.Matrix

open OpenSan.Foundation OpenSan.Einarc Action

def Spanning (f : Record → Record) : Prop :=
  ∀ r, ∃ rowspan colspan, f r = { r with rowspan := rowspan, colspan := colspan }

structure Drawing (R : Sheet → Sheet → Prop) : Prop where
  refl : ∀ s, R s s
  trans : ∀ a b c, R a b → R b c → R a c
  lines : ∀ s lines, R s { s with lines := lines }
  span : ∀ s ref f, Spanning f → R s (s.update ref f)

structure Arraying (R : Sheet → Sheet → Prop) : Prop extends Drawing R where
  members : ∀ s members, R s { s with members := members }
  claim : ∀ logicalId id, Evolves R (claimPhysical logicalId id)

variable {R : Sheet → Sheet → Prop} {data : Data} {order : Order}

namespace Drawing

variable (h : Drawing R)

include h

theorem quiet {α : Type} {m : Program α} (hm : ∀ s, (m s).2 = s) : Evolves R m :=
  evolves_of_state_eq h.refl hm

theorem bind {α β : Type} {first : Program α} {next : α → Program β}
    (hfirst : Evolves R first) (hnext : ∀ value, Evolves R (next value)) :
    Evolves R (first >>= next) :=
  evolves_bind h.trans hfirst hnext

theorem loop {α : Type} {items : List α} {body : α → Program Unit}
    (hbody : ∀ item, Evolves R (body item)) : Evolves R (forEach items body) :=
  evolves_forEach h.refl h.trans fun item _ => hbody item

theorem fill (offset : ℚ) (column : Column) (ref : Ref) (rowspan : ℚ) :
    Evolves R (fill offset column ref rowspan) := by
  refine h.bind (h.quiet fun _ => rfl) fun line => ?_
  refine h.bind (fun s => h.lines s _) fun _ s => ?_
  exact h.span s ref (fun r => { r with rowspan := some rowspan }) fun r => ⟨_, r.colspan, rfl⟩

theorem ensureLine (offset : ℚ) : Evolves R (ensureLine offset) := by
  intro s
  simp only [Matrix.ensureLine, modify_run]
  split
  · exact h.lines s _
  · exact h.refl s

theorem fillLines (currentLine linesQuantity : Nat) :
    Evolves R (fillLines currentLine linesQuantity) :=
  h.loop fun _ s => h.lines s _

theorem fillVolumes (logical : Logical) (currentLine linesQuantity : Nat) :
    Evolves R (fillVolumes data order logical currentLine linesQuantity) := by
  refine h.bind (h.quiet fun _ => rfl) fun devices => h.loop fun entry => ?_
  refine h.bind (h.fill _ _ _ _) fun _ => evolves_ite ?_ (h.quiet fun _ => rfl)
  refine h.bind (h.quiet fun _ => rfl) fun names => h.loop fun name => ?_
  refine h.bind (h.ensureLine _) fun _ => ?_
  refine h.bind (h.quiet fun _ => rfl) fun index => ?_
  refine h.bind (h.fill _ _ _ _) fun _ => ?_
  refine h.bind (h.quiet fun _ => rfl) fun refs =>
    evolves_ite (h.loop fun session => ?_) (h.quiet fun _ => rfl)
  exact h.bind (h.ensureLine _) fun _ => h.fill _ _ _ _

theorem fillRest (n : Nat) :
    Evolves R (do fillFree order n; fillUnbound data order n : Program Unit) := by
  refine h.bind ?_ fun _ => ?_
  · refine h.bind (h.quiet fun _ => rfl) fun sorted => h.loop fun entry => ?_
    refine h.bind (fun s => h.lines s _) fun _ s => ?_
    exact h.span s _ (fun r => { r with rowspan := some 1 }) fun r => ⟨_, r.colspan, rfl⟩
  · refine h.bind (h.quiet fun _ => rfl) fun unbound => h.loop fun entry => ?_
    refine h.bind (h.ensureLine _) fun _ => ?_
    refine h.bind (h.quiet fun _ => rfl) fun hasPhysical => ?_
    refine h.bind (h.fill _ _ _ _) fun _ s => ?_
    exact h.span s _ (fun r => { r with colspan := some (if hasPhysical then 2 else 3) })
      fun r => ⟨r.rowspan, _, rfl⟩

end Drawing

namespace Arraying

variable (h : Arraying R)

include h

theorem fillPhysicals (logicalId currentLine linesQuantity : Nat) :
    Evolves R (fillPhysicals order logicalId currentLine linesQuantity) := by
  refine h.bind (h.quiet fun _ => rfl) fun members => ?_
  refine h.bind (h.loop (h.claim logicalId)) fun _ => ?_
  refine h.bind (h.quiet fun _ => rfl) fun sorted => ?_
  exact h.loop fun entry => h.fill _ _ _ _

theorem fillLogical (id : Nat) (logical : Logical) (currentLine : Nat) :
    Evolves R (fillLogical data order id logical currentLine) := by
  refine h.bind (fun s => h.members s _) fun _ => ?_
  refine h.bind (h.quiet fun _ => rfl) fun quantity => ?_
  refine h.bind (h.fillLines _ _) fun _ => ?_
  refine h.bind (h.fill _ _ _ _) fun _ => ?_
  refine h.bind (h.fillPhysicals _ _ _) fun _ => ?_
  refine h.bind (h.fillVolumes _ _ _) fun _ => ?_
  exact h.quiet fun _ => rfl

theorem fillLogicals (ids : List Nat) (currentLine : Nat) :
    Evolves R (fillLogicals data order ids currentLine) := by
  induction ids generalizing currentLine with
  | nil => exact h.quiet fun _ => rfl
  | cons id ids ih =>
      refine h.bind (h.quiet fun _ => rfl) fun logical => ?_
      exact h.bind (h.fillLogical id logical _) fun next => ih next

end Arraying

end OpenSan.Matrix
