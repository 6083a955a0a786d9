import Stencil.Value.Basic

/-!
# `Stencil.Value.Store`: enumerators and how far they have come

A store holds the enumerators that values name. Each goes over a list of values: `next` gives
the value it stands at and moves on, `reset` puts it back to the first one. A handle that was
made by `fresh` is valid from then on; one that names nothing enumerates nothing.

`next_reset` says that a reset enumerator starts over, `find?_next_of_ne` and
`find?_reset_of_ne` that the others stay as they are.
-/

set_option autoImplicit false

namespace Stencil

/-- A list of values and the end of it that has not been given yet. -/
structure Enumerator where
  values : List Value
  remaining : List Value
deriving Inhabited

namespace Enumerator

/-- An enumerator that stands at the first of some values. -/
def atStart (values : List Value) : Enumerator :=
  ⟨values, values⟩

/-- The value that comes next. -/
def current? (e : Enumerator) : Option Value :=
  e.remaining.head?

/-- The enumerator after one more value; at the end it stays where it is. -/
def advance (e : Enumerator) : Enumerator :=
  { e with remaining := e.remaining.tail }

/-- The enumerator after all its values. -/
def exhaust (e : Enumerator) : Enumerator :=
  { e with remaining := [] }

/-- The enumerator at its first value. -/
def rewind (e : Enumerator) : Enumerator :=
  .atStart e.values

end Enumerator

/-- The enumerators that values name. -/
structure Store where
  enumerators : Array Enumerator
deriving Inhabited

namespace Store

/-- A store without enumerators. -/
def empty : Store := ⟨#[]⟩

/-- The enumerator that a handle names. -/
def find? (s : Store) (h : Handle) : Option Enumerator :=
  s.enumerators[h.index]?

/-- Adds an enumerator that stands at the first of some values. -/
def fresh (s : Store) (values : List Value) : Handle × Store :=
  (⟨s.enumerators.size⟩, ⟨s.enumerators.push (.atStart values)⟩)

/-- Replaces the enumerator that a handle names. -/
def update (s : Store) (h : Handle) (f : Enumerator → Enumerator) : Store :=
  ⟨s.enumerators.modify h.index f⟩

/-- The next value of an enumerator, and the store after it was given. -/
def next (s : Store) (h : Handle) : Option Value × Store :=
  match s.find? h with
  | none => (none, s)
  | some e => (e.current?, s.update h Enumerator.advance)

/-- The store with an enumerator put back to its first value. -/
def reset (s : Store) (h : Handle) : Store :=
  s.update h Enumerator.rewind

/-- The values that an enumerator has not given yet. -/
def remaining (s : Store) (h : Handle) : List Value :=
  match s.find? h with
  | none => []
  | some e => e.remaining

/-- Takes all remaining values of an enumerator. -/
def drain (s : Store) (h : Handle) : List Value × Store :=
  (s.remaining h, s.update h Enumerator.exhaust)

/-- The updated enumerator is the one that was there with the update done to it. -/
theorem find?_update_self (s : Store) (h : Handle) (f : Enumerator → Enumerator) :
    (s.update h f).find? h = (s.find? h).map f := by
  simp [find?, update, Array.getElem?_modify]

/-- An update leaves every other enumerator as it is. -/
theorem find?_update_of_ne (s : Store) {h k : Handle} (f : Enumerator → Enumerator)
    (hne : k ≠ h) : (s.update h f).find? k = s.find? k := by
  -- Handles differ only by their indices.
  have : h.index ≠ k.index := by
    intro heq
    apply hne
    cases h
    cases k
    simp_all
  simp [find?, update, Array.getElem?_modify, this]

/-- A step leaves every other enumerator where it stands. -/
theorem find?_next_of_ne (s : Store) {h k : Handle} (hne : k ≠ h) :
    (s.next h).2.find? k = s.find? k := by
  unfold next
  split
  · rfl
  · exact s.find?_update_of_ne _ hne

/-- A reset leaves every other enumerator where it stands. -/
theorem find?_reset_of_ne (s : Store) {h k : Handle} (hne : k ≠ h) :
    (s.reset h).find? k = s.find? k :=
  s.find?_update_of_ne _ hne

/-- After a reset an enumerator gives the first of its values. -/
theorem next_reset (s : Store) (h : Handle) :
    ((s.reset h).next h).1 = (s.find? h).bind (·.values.head?) := by
  unfold next
  rw [reset, find?_update_self]
  cases s.find? h with
  | none => rfl
  | some e => simp [Enumerator.rewind, Enumerator.atStart, Enumerator.current?]

end Store

end Stencil
