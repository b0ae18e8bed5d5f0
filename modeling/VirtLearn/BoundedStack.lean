import Mathlib.Data.List.Basic

/-!
# Bounded stacks

A last-in, first-out store of at most `capacity` items. The items are kept oldest first, so that
the position of an item does not change while it is stored, and the bound is part of the type.
-/

namespace VirtLearn

universe u

/-- At most `capacity` items, the oldest first. -/
structure BoundedStack (Item : Type u) (capacity : ℕ) where
  items : List Item
  /-- The stack never holds more than its capacity. -/
  bounded : items.length ≤ capacity

namespace BoundedStack

variable {Item : Type u} {capacity : ℕ}

def empty : BoundedStack Item capacity :=
  ⟨[], Nat.zero_le _⟩

def height (stack : BoundedStack Item capacity) : ℕ :=
  stack.items.length

def top? (stack : BoundedStack Item capacity) : Option Item :=
  stack.items.getLast?

/-- Store one more item; a full stack is left as it is. -/
def push (stack : BoundedStack Item capacity) (item : Item) : BoundedStack Item capacity :=
  if room : stack.items.length < capacity then
    ⟨stack.items ++ [item], by simpa [Nat.succ_le_iff] using room⟩
  else stack

def pop (stack : BoundedStack Item capacity) : BoundedStack Item capacity :=
  ⟨stack.items.dropLast, by
    have := stack.bounded
    simp only [List.length_dropLast]
    omega⟩

theorem height_le (stack : BoundedStack Item capacity) : stack.height ≤ capacity :=
  stack.bounded

theorem items_push {stack : BoundedStack Item capacity} (room : stack.height < capacity)
    (item : Item) : (stack.push item).items = stack.items ++ [item] := by
  rw [height] at room
  simp [push, room]

theorem top?_eq_none_iff {stack : BoundedStack Item capacity} :
    stack.top? = none ↔ stack.height = 0 := by
  simp [top?, height]

theorem items_of_top? {stack : BoundedStack Item capacity} {item : Item}
    (top : stack.top? = some item) : stack.items = stack.pop.items ++ [item] := by
  rcases List.getLast?_eq_some_iff.mp top with ⟨before, shape⟩
  simp [pop, shape]

end BoundedStack

end VirtLearn
