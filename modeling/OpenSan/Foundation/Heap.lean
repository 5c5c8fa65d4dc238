import Mathlib.Logic.Relation
import OpenSan.Foundation.Literals
import OpenSan.Foundation.Lua

/-!
# Tables that are shared

A variable of a script that holds a table holds a reference to it.  A heap is the list of
the tables made so far, and the place of a table in it is its identity.
-/

namespace OpenSan.Foundation

inductive Datum where
  | scalar (value : Scalar)
  | table (place : Nat)
  deriving DecidableEq

abbrev Entry := Sigma fun _ : Datum => Datum

structure Object (μ : Type) where
  entries : Table Datum Datum
  metatable : Option μ

abbrev Heap (μ : Type) := List (Object μ)

variable {μ : Type}

def Datum.rename (f : Nat → Nat) : Datum → Datum
  | .scalar value => .scalar value
  | .table place => .table (f place)

def Datum.Within (size : Nat) : Datum → Prop
  | .scalar _ => True
  | .table place => place < size

instance (size : Nat) : DecidablePred (Datum.Within size)
  | .scalar _ => inferInstanceAs (Decidable True)
  | .table place => inferInstanceAs (Decidable (place < size))

theorem Datum.Within.mono {size larger : Nat} (hle : size ≤ larger) {datum : Datum}
    (h : datum.Within size) : datum.Within larger := by
  cases datum with
  | scalar value => trivial
  | table place => exact Nat.lt_of_lt_of_le h hle

def Entry.Within (size : Nat) (entry : Entry) : Prop :=
  entry.1.Within size ∧ entry.2.Within size

def Heap.Closed (heap : Heap μ) : Prop :=
  ∀ object ∈ heap, ∀ entry ∈ object.entries.entries, Entry.Within heap.length entry

def Heap.Refers (heap : Heap μ) (place next : Nat) : Prop :=
  ∃ object, heap[place]? = some object ∧
    ∃ entry ∈ object.entries.entries, entry.1 = .table next ∨ entry.2 = .table next

/-- The tables that are met from a datum. -/
def Heap.Reaches (heap : Heap μ) : Datum → Nat → Prop
  | .scalar _, _ => False
  | .table first, place => Relation.ReflTransGen heap.Refers first place

theorem Heap.Reaches.next {heap : Heap μ} {datum : Datum} {place next : Nat}
    (h : heap.Reaches datum place) (hnext : heap.Refers place next) : heap.Reaches datum next := by
  cases datum with
  | scalar value => exact h.elim
  | table first => exact Relation.ReflTransGen.tail h hnext

theorem Heap.Reaches.through {heap : Heap μ} {datum : Datum} {first place : Nat}
    {object : Object μ} (hobject : heap[first]? = some object) {entry : Entry}
    (hentry : entry ∈ object.entries.entries) (hdatum : datum = entry.1 ∨ datum = entry.2)
    (h : heap.Reaches datum place) : heap.Reaches (.table first) place := by
  cases datum with
  | scalar value => exact h.elim
  | table next =>
      refine Relation.ReflTransGen.head ⟨object, hobject, entry, hentry, ?_⟩ h
      rcases hdatum with hkey | hvalue
      · exact .inl hkey.symm
      · exact .inr hvalue.symm

theorem Heap.Closed.refers {heap : Heap μ} (h : heap.Closed) {place next : Nat}
    (hrefers : heap.Refers place next) : next < heap.length := by
  obtain ⟨object, hobject, entry, hentry, hdatum⟩ := hrefers
  have hwithin := h object (List.mem_of_getElem? hobject) entry hentry
  rcases hdatum with hkey | hvalue
  · simpa [hkey, Datum.Within] using hwithin.1
  · simpa [hvalue, Datum.Within] using hwithin.2

theorem Heap.Closed.reaches {heap : Heap μ} (h : heap.Closed) {datum : Datum}
    (hdatum : datum.Within heap.length) {place : Nat} (hreaches : heap.Reaches datum place) :
    place < heap.length := by
  cases datum with
  | scalar value => exact hreaches.elim
  | table first =>
      cases hreaches with
      | refl => exact hdatum
      | tail _ hnext => exact h.refers hnext

end OpenSan.Foundation
