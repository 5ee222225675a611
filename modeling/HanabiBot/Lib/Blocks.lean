import Mathlib.Data.List.Basic
import Mathlib.Data.Nat.Notation
import Mathlib.Tactic.TypeStar

/-! # Growable arrays, and references into them

A growable array keeps its elements in one block of memory, with room for `capacity` of them. To
add an element beyond that, it moves all of them to a new block, and the references into the old one
dangle. Blocks are numbered as they are allocated; a `Growth` is the policy of the allocator, which
may give more room than it is asked for.

As long as there is room, block and capacity stay (`push_in_place`), and so does what a reference
refers to (`RefersTo.push`). -/

namespace HanabiBot.Lib.Blocks

/-- How much room is allocated for a request. -/
structure Growth where
  room : ℕ → ℕ
  enough : ∀ n, n ≤ room n

/-- A place in a block. -/
structure Ref where
  block : ℕ
  index : ℕ
deriving DecidableEq, Repr

structure Growable (α : Type*) where
  block : ℕ
  elems : List α
  capacity : ℕ
deriving DecidableEq, Repr

namespace Growable
variable {α : Type*}

/-- An array that has allocated nothing. -/
def empty : Growable α := ⟨0, [], 0⟩

/-- Makes room for `n` elements. Here and below, `next` is the next block. -/
def reserve (a : Growth) (next n : ℕ) (v : Growable α) : Growable α × ℕ :=
  if n ≤ v.capacity then (v, next) else (⟨next, v.elems, a.room n⟩, next + 1)

/-- Adds an element at the end. -/
def push (a : Growth) (next : ℕ) (v : Growable α) (x : α) : Growable α × ℕ :=
  if v.elems.length < v.capacity then ({ v with elems := v.elems ++ [x] }, next)
  else (⟨next, v.elems ++ [x], a.room (v.elems.length + 1)⟩, next + 1)

/-- Adds elements one after the other. -/
def pushAll (a : Growth) : ℕ → Growable α → List α → Growable α × ℕ
  | next, v, [] => (v, next)
  | next, v, x :: xs => pushAll a (v.push a next x).2 (v.push a next x).1 xs

/-- The reference to the last element. -/
def back (v : Growable α) : Ref := ⟨v.block, v.elems.length - 1⟩

/-- The reference is into this array, to the element `x`. -/
def RefersTo (v : Growable α) (r : Ref) (x : α) : Prop :=
  v.block = r.block ∧ v.elems[r.index]? = some x

variable {a : Growth} {next : ℕ} {v : Growable α}

theorem le_reserve_capacity (n : ℕ) : n ≤ (v.reserve a next n).1.capacity := by
  unfold reserve
  split_ifs with h
  · exact h
  · exact a.enough n

@[simp] theorem reserve_elems (n : ℕ) : (v.reserve a next n).1.elems = v.elems := by
  unfold reserve
  split_ifs <;> rfl

/-- **An addition stays in the block** if there is room. -/
theorem push_in_place (h : v.elems.length < v.capacity) (x : α) :
    v.push a next x = ({ v with elems := v.elems ++ [x] }, next) := if_pos h

@[simp] theorem push_elems (x : α) : (v.push a next x).1.elems = v.elems ++ [x] := by
  unfold push
  split_ifs <;> rfl

theorem pushAll_in_place {xs : List α} : ∀ {v : Growable α},
    v.elems.length + xs.length ≤ v.capacity →
      v.pushAll a next xs = ({ v with elems := v.elems ++ xs }, next) := by
  induction xs with
  | nil =>
    intro v _
    rw [pushAll, List.append_nil]
  | cons x xs ih =>
    intro v h
    rw [List.length_cons] at h
    have hroom : (v.elems ++ [x]).length + xs.length ≤ v.capacity := by
      rw [List.length_append, List.length_singleton]
      omega
    rw [pushAll, push_in_place (by omega)]
    exact (ih (v := { v with elems := v.elems ++ [x] }) hroom).trans (by simp)

/-- The references into an array survive an addition in its block. -/
theorem RefersTo.push {r : Ref} {y : α} (hr : v.RefersTo r y) (x : α) :
    ({ v with elems := v.elems ++ [x] } : Growable α).RefersTo r y :=
  ⟨hr.1, (List.getElem?_append_left (List.getElem?_eq_some_iff.mp hr.2).1).trans hr.2⟩

theorem back_concat (v : Growable α) (x : α) :
    ({ v with elems := v.elems ++ [x] } : Growable α).back = ⟨v.block, v.elems.length⟩ := by
  rw [back, List.length_append, List.length_singleton, Nat.add_sub_cancel]

/-- The reference to the element just added. -/
theorem refersTo_concat (v : Growable α) (x : α) :
    ({ v with elems := v.elems ++ [x] } : Growable α).RefersTo ⟨v.block, v.elems.length⟩ x :=
  ⟨rfl, List.getElem?_concat_length ..⟩

end Growable

end HanabiBot.Lib.Blocks
