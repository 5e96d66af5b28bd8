import Mathlib.Tactic.Common

/-!
# Heaps of objects

A heap gives every object an identity that is never used again: `alloc` takes the next one, `free`
releases an object, and reading a released object returns `none`. The field `fresh` says that
nothing lives at or above the counter, so a new object differs from all the others.
-/

namespace Lispmob

/-- Objects of type `α` by identity. -/
@[ext] structure Heap (α : Type) where
  /-- The identity the next object will get. -/
  next : Nat
  /-- The live objects. -/
  cell : Nat → Option α
  /-- Nothing lives at an identity that was not given out. -/
  fresh : ∀ i, next ≤ i → cell i = none

namespace Heap

variable {α : Type} {i : Nat} {a : α}

/-- The heap without objects. -/
def empty : Heap α :=
  ⟨0, fun _ => none, fun _ _ => rfl⟩

/-- Create an object, at `h.next`. -/
def alloc (h : Heap α) (a : α) : Heap α where
  next := h.next + 1
  cell i := if i = h.next then some a else h.cell i
  fresh i hi := by
    rw [if_neg (by omega)]
    exact h.fresh i (by omega)

/-- Change a live object; nothing happens at an identity that is not live. -/
def modify (h : Heap α) (i : Nat) (f : α → α) : Heap α where
  next := h.next
  cell j := if j = i then (h.cell i).map f else h.cell j
  fresh j hj := by
    by_cases hji : j = i
    · rw [if_pos hji, ← hji, h.fresh j hj, Option.map_none]
    · rw [if_neg hji, h.fresh j hj]

/-- Release an object. -/
def free (h : Heap α) (i : Nat) : Heap α where
  next := h.next
  cell j := if j = i then none else h.cell j
  fresh j hj := by
    rw [h.fresh j hj, ite_self]

@[simp] theorem empty_cell (i : Nat) : (empty : Heap α).cell i = none := rfl

@[simp] theorem alloc_next (h : Heap α) (a : α) : (h.alloc a).next = h.next + 1 := rfl

@[simp] theorem modify_next (h : Heap α) (i : Nat) (f : α → α) : (h.modify i f).next = h.next :=
  rfl

@[simp] theorem free_next (h : Heap α) (i : Nat) : (h.free i).next = h.next := rfl

theorem alloc_cell (h : Heap α) (a : α) (i : Nat) :
    (h.alloc a).cell i = if i = h.next then some a else h.cell i := rfl

theorem modify_cell (h : Heap α) (i j : Nat) (f : α → α) :
    (h.modify i f).cell j = if j = i then (h.cell i).map f else h.cell j := rfl

theorem free_cell (h : Heap α) (i j : Nat) :
    (h.free i).cell j = if j = i then none else h.cell j := rfl

/-- Changing the object created last is creating it changed. -/
theorem alloc_modify (h : Heap α) (a : α) (f : α → α) :
    (h.alloc a).modify h.next f = h.alloc (f a) := by
  ext i b
  · rfl
  · simp only [modify_cell, alloc_cell, if_true, Option.map_some]
    split_ifs <;> rfl

theorem modify_modify (h : Heap α) (i : Nat) (f g : α → α) :
    (h.modify i f).modify i g = h.modify i (g ∘ f) := by
  ext j b
  · rfl
  · simp only [modify_cell, if_true]
    split_ifs <;> simp

theorem modify_free (h : Heap α) (i : Nat) (f : α → α) : (h.modify i f).free i = h.free i := by
  ext j b
  · rfl
  · simp only [modify_cell, free_cell]
    split_ifs <;> rfl

theorem lt_next {h : Heap α} (hi : h.cell i = some a) : i < h.next := by
  by_contra hlt
  rw [h.fresh i (by omega)] at hi
  cases hi

/-- Something holds of every live object. -/
def All (h : Heap α) (P : Nat → α → Prop) : Prop :=
  ∀ i a, h.cell i = some a → P i a

instance (h : Heap α) (P : Nat → α → Prop) [∀ i a, Decidable (P i a)] : Decidable (h.All P) :=
  decidable_of_iff (∀ i < h.next, (h.cell i).all (fun a => decide (P i a)) = true)
    ⟨fun hall i a hi => by simpa [hi] using hall i (lt_next hi), fun hall i _ => by
      cases hi : h.cell i with
      | none => rfl
      | some a => simpa using hall i a hi⟩

instance (h : Heap α) (P : Nat → α → Prop) [∀ i a, Decidable (P i a)] :
    Decidable (∀ i a, h.cell i = some a → P i a) :=
  inferInstanceAs (Decidable (h.All P))

variable {h : Heap α} {P : Nat → α → Prop}

theorem All.alloc (hall : h.All P) (ha : P h.next a) : (h.alloc a).All P := by
  intro i b hi
  rw [alloc_cell] at hi
  split_ifs at hi with heq
  · cases hi
    exact heq ▸ ha
  · exact hall i b hi

theorem All.modify (hall : h.All P) {f : α → α} (hf : ∀ a, P i a → P i (f a)) :
    (h.modify i f).All P := by
  intro j b hj
  rw [modify_cell] at hj
  split_ifs at hj with heq
  · obtain ⟨a, ha, rfl⟩ := Option.map_eq_some_iff.mp hj
    exact heq ▸ hf a (hall i a ha)
  · exact hall j b hj

theorem All.free (hall : h.All P) (i : Nat) : (h.free i).All P := by
  intro j b hj
  rw [free_cell] at hj
  split_ifs at hj
  exact hall j b hj

end Heap

end Lispmob
