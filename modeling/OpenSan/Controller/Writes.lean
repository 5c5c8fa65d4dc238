import OpenSan.Controller.Effects

/-!
# Every event is a sequence of primitive writes

A relation between states that is respected by each primitive write (replacing
the patterns or the credentials, removing a target, a call of `Daemon.apply`)
is respected by every event, whatever fails on the way.
-/

namespace OpenSan.Controller

open OpenSan.Foundation
open OpenSan.Scst
open OpenSan.Scst.AccessPattern (withoutName)

structure RespectsApply (R : World → World → Prop) : Prop where
  refl : ∀ world, R world world
  trans : ∀ a b c, R a b → R b c → R a c
  apply : ∀ host, Action.Evolves R (Daemon.apply host)

structure RespectsCredentials (R : World → World → Prop) : Prop
    extends RespectsApply R where
  credentials : ∀ world credentials,
    R world { world with credentials := credentials }

structure RespectsPatterns (R : World → World → Prop) : Prop
    extends RespectsApply R where
  patterns : ∀ world patterns, R world { world with patterns := patterns }
  detach : ∀ target, Action.Evolves R (AccessPattern.detach target)

structure Respects (R : World → World → Prop) : Prop
    extends RespectsCredentials R, RespectsPatterns R

section Credentials

variable {R : World → World → Prop} (h : RespectsCredentials R) (host : Host)

include h

theorem RespectsCredentials.save (credential : AuthCredential) :
    Action.Evolves R (credential.save host) := by
  intro world
  cases hsection : credential.sectionName with
  | none =>
      simp only [AuthCredential.save, hsection, Option.isSome_none]
      exact Action.final_lift (fun _ _ => h.refl world)
        fun _ _ => h.credentials world _
  | some sectionName =>
      simp only [AuthCredential.save, hsection, Option.isSome_some]
      exact h.refl world

theorem RespectsCredentials.add (device : String)
    (username password : Option String) :
    Action.Evolves R (scstAuthCredentialAdd host device username password) := by
  intro world
  have hrefl := h.refl world
  refine Action.final_ite (fun _ => hrefl) fun _ => ?_
  refine Action.final_lift (fun _ _ => hrefl) fun name _ => ?_
  refine Action.final_ite (fun _ => hrefl) fun _ => ?_
  refine Action.final_read (Action.final_ite (fun _ => hrefl) fun _ => ?_)
  refine Action.final_lift (fun _ _ => hrefl) fun secret _ => ?_
  refine Action.final_ite (fun _ => hrefl) fun _ => ?_
  cases AuthCredential.new none (some name) (some secret) (some device) with
  | error e => exact hrefl
  | ok record =>
      have hsaved := h.save host record world
      have happly := h.trans _ _ _ hsaved (h.apply host _)
      refine Action.final_pcall (Action.final_pcall ?_)
      cases (Daemon.apply host (AuthCredential.save host record world).2).1 with
      | ok _ => exact happly
      | error e =>
          refine Action.final_thenPure ?_
          exact h.trans _ _ _ happly
            (h.trans _ _ _ (h.credentials _ _) (h.apply host _))

theorem RespectsCredentials.delete (sectionNameHash : String) :
    Action.Evolves R (scstAuthCredentialDelete host sectionNameHash) := by
  intro world
  refine Action.final_read ?_
  refine Action.final_lift (fun _ _ => h.refl world) fun sectionName _ => ?_
  refine Action.final_read ?_
  cases world.credentials.find? fun credential =>
      credential.sectionName == some sectionName with
  | none => exact h.apply host world
  | some credential =>
      exact h.trans _ _ _ (h.credentials world _)
        (h.apply host (credential.delete world).2)

end Credentials

section Patterns

variable {R : World → World → Prop} (h : RespectsPatterns R) (host : Host)

include h

theorem RespectsPatterns.quiet {α : Type} {m : Script α}
    (hm : ∀ s, (m s).2 = s) : Action.Evolves R m :=
  Action.evolves_of_state_eq h.refl hm

theorem RespectsPatterns.save (self : AccessPattern.Attrs) :
    Action.Evolves R (AccessPattern.save host self) := by
  intro world
  rw [AccessPattern.save_state]
  exact h.patterns world _

theorem RespectsPatterns.unbind (pattern : AccessPattern) :
    Action.Evolves R (pattern.unbind host) := by
  refine Action.evolves_bind h.trans (h.quiet fun _ => rfl) fun targets => ?_
  refine Action.evolves_bind h.trans ?_ fun _ => ?_
  · exact Action.evolves_forEach h.refl h.trans fun target _ => h.detach target
  · exact Action.evolves_bind h.trans (h.save host _) fun _ => h.quiet fun _ => rfl

theorem RespectsPatterns.delete (pattern : AccessPattern) :
    Action.Evolves R pattern.delete :=
  fun world => h.patterns world _

theorem RespectsPatterns.findSection (sectionNameHash : String) :
    Action.Evolves R (findAccessPatternSectionNameByHash host sectionNameHash) :=
  h.quiet fun _ => rfl

theorem RespectsPatterns.new (form : PatternForm) :
    Action.Evolves R (scstAccessPatternNew host form) := by
  intro world
  rcases new_effect host form world with hsame | ⟨record, -, -, -, hafter⟩
  · rw [hsame]
    exact h.refl world
  · rw [hafter]
    exact h.patterns world _

theorem RespectsPatterns.deletePattern (sectionNameHash : String) :
    Action.Evolves R (scstAccessPatternDelete host sectionNameHash) := by
  intro world
  rcases delete_effect host sectionNameHash world with hsame | ⟨pattern, -, hafter⟩
  · rw [hsame]
    exact h.refl world
  · rw [hafter]
    exact h.patterns world _

theorem RespectsPatterns.edit (sectionNameHash : String) (form : PatternForm) :
    Action.Evolves R (scstAccessPatternEdit host sectionNameHash form) := by
  intro world
  rcases edit_effect host sectionNameHash form world with
    hsame | ⟨pattern, -, -, -, -, hafter | ⟨record, -, hafter⟩⟩
  · rw [hsame]
    exact h.refl world
  · rw [hafter]
    exact h.patterns world _
  · rw [hafter]
    exact h.patterns world _

theorem RespectsPatterns.unbindPattern (sectionNameHash : String) :
    Action.Evolves R (scstAccessPatternUnbind host sectionNameHash) := by
  refine Action.evolves_bind h.trans (h.findSection host _) fun _ => ?_
  refine Action.evolves_bind h.trans (h.quiet fun _ => rfl) fun found => ?_
  cases found with
  | none => exact h.quiet fun _ => rfl
  | some pattern =>
      refine Action.evolves_bind h.trans
        (Action.evolves_pcall (h.unbind host pattern)) fun result => ?_
      cases result with
      | error e => exact h.quiet fun _ => rfl
      | ok _ =>
          exact Action.evolves_bind h.trans
            (Action.evolves_pcall (h.apply host)) fun _ => h.quiet fun _ => rfl

theorem RespectsPatterns.applyOrUnbind (name : String) :
    Action.Evolves R (applyOrUnbind host name) := by
  refine Action.evolves_bind h.trans (Action.evolves_pcall (h.apply host))
    fun result => ?_
  cases result with
  | ok _ => cases host.cachingApply <;> exact h.quiet fun _ => rfl
  | error e =>
      refine Action.evolves_bind h.trans (h.quiet fun _ => rfl) fun found => ?_
      cases found with
      | none => exact h.quiet fun _ => rfl
      | some again =>
          refine Action.evolves_bind h.trans (h.unbind host again) fun _ => ?_
          exact Action.evolves_bind h.trans (h.apply host)
            fun _ => h.quiet fun _ => rfl

theorem RespectsPatterns.bindPattern (sectionNameHash : String)
    (logicalVolumeSelect : Option String) :
    Action.Evolves R
      (scstAccessPatternBind host sectionNameHash logicalVolumeSelect) := by
  refine Action.evolves_bind h.trans (h.findSection host _) fun _ => ?_
  cases logicalVolumeSelect with
  | none => exact h.quiet fun _ => rfl
  | some device =>
      refine Action.evolves_bind h.trans (h.quiet fun _ => rfl) fun _ => ?_
      refine Action.evolves_bind h.trans (h.quiet fun _ => rfl) fun _ => ?_
      refine Action.evolves_bind h.trans (h.quiet fun _ => rfl) fun pattern => ?_
      split
      · exact h.quiet fun _ => rfl
      split
      · exact h.quiet fun _ => rfl
      have hbind : Action.Evolves R (pattern.bind host device) :=
        Action.evolves_bind h.trans (h.save host _) fun _ => h.quiet fun _ => rfl
      refine Action.evolves_bind h.trans (Action.evolves_pcall hbind)
        fun result => ?_
      cases result with
      | error e => exact h.quiet fun _ => rfl
      | ok _ => exact h.applyOrUnbind host pattern.name

theorem RespectsPatterns.pageLoad (devices : List String) :
    Action.Evolves R (pageLoad host devices) := by
  refine Action.evolves_bind h.trans (h.quiet fun _ => rfl) fun patterns => ?_
  refine Action.evolves_bind h.trans ?_ fun _ => h.apply host
  refine Action.evolves_forEach h.refl h.trans fun pattern _ => ?_
  cases pattern.filename with
  | none => exact h.quiet fun _ => rfl
  | some filename =>
      simp only
      split
      · exact h.quiet fun _ => rfl
      · exact h.unbind host pattern

theorem RespectsPatterns.clearingLoop (fuel : Nat) :
    Action.Evolves R (clearingLoop host fuel) := by
  induction fuel with
  | zero => exact h.quiet fun _ => rfl
  | succ fuel ih =>
      refine Action.evolves_bind h.trans (h.quiet fun _ => rfl) fun patterns => ?_
      split
      · exact h.quiet fun _ => rfl
      refine Action.evolves_bind h.trans ?_ fun _ => ih
      refine Action.evolves_bind h.trans (h.quiet fun _ => rfl) fun patterns => ?_
      refine Action.evolves_forEach h.refl h.trans fun pattern _ => ?_
      exact Action.evolves_bind h.trans (h.unbind host pattern)
        fun _ => h.delete pattern

theorem RespectsPatterns.serve (request : PatternRequest) :
    Action.Evolves R (request.serve host) := by
  cases request with
  | new form => exact h.new host form
  | delete sectionNameHash => exact h.deletePattern host sectionNameHash
  | bind sectionNameHash device => exact h.bindPattern host sectionNameHash device
  | unbind sectionNameHash => exact h.unbindPattern host sectionNameHash
  | edit sectionNameHash form => exact h.edit host sectionNameHash form

theorem RespectsPatterns.clearing : Action.Evolves R (clearing host) :=
  Action.evolves_bind h.trans (h.clearingLoop host 2) fun _ => h.apply host

end Patterns

theorem Respects.serve {R : World → World → Prop} (h : Respects R) (host : Host)
    (event : Event) : Action.Evolves R (event.serve host) := by
  cases event with
  | pattern request => exact h.toRespectsPatterns.serve host request
  | credentialAdd device username password =>
      exact h.toRespectsCredentials.add host device username password
  | credentialDelete sectionNameHash =>
      exact h.toRespectsCredentials.delete host sectionNameHash
  | pageLoad devices =>
      exact Action.evolves_bind h.trans (h.toRespectsPatterns.pageLoad host devices)
        fun _ => h.toRespectsPatterns.quiet fun _ => rfl
  | clearing =>
      exact Action.evolves_bind h.trans (h.toRespectsPatterns.clearing host)
        fun _ => h.toRespectsPatterns.quiet fun _ => rfl

end OpenSan.Controller
