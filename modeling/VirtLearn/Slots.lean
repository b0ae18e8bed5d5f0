import Mathlib.Data.List.Basic
import Mathlib.Logic.Function.Basic

/-!
# Arrays filled from the front

An array is a function on indices, of which the first `count` slots are in use. `listed` is the
list of their contents; writing behind them leaves it as it is, and taking the next slot into use
appends what that slot holds.
-/

namespace VirtLearn

universe u

/-- The contents of the first `count` slots. -/
def listed {Item : Type u} (slots : ℕ → Item) (count : ℕ) : List Item :=
  (List.range count).map slots

variable {Item : Type u} {slots : ℕ → Item} {count index : ℕ} {item : Item}

@[simp]
theorem listed_zero (slots : ℕ → Item) : listed slots 0 = [] :=
  rfl

@[simp]
theorem length_listed (slots : ℕ → Item) (count : ℕ) : (listed slots count).length = count := by
  simp [listed]

theorem listed_succ (slots : ℕ → Item) (count : ℕ) :
    listed slots (count + 1) = listed slots count ++ [slots count] := by
  simp [listed, List.range_succ]

theorem mem_listed : item ∈ listed slots count ↔ ∃ index < count, slots index = item := by
  simp [listed]

theorem getElem_listed (inside : index < (listed slots count).length) :
    (listed slots count)[index] = slots index := by
  simp [listed]

theorem listed_update_of_le (behind : count ≤ index) (slots : ℕ → Item) (item : Item) :
    listed (Function.update slots index item) count = listed slots count := by
  apply List.map_congr_left
  intro earlier earlier_mem
  have below := List.mem_range.mp earlier_mem
  exact Function.update_of_ne (by omega) _ _

theorem listed_update_succ (slots : ℕ → Item) (count : ℕ) (item : Item) :
    listed (Function.update slots count item) (count + 1) = listed slots count ++ [item] := by
  rw [listed_succ, listed_update_of_le (Nat.le_refl _), Function.update_self]

end VirtLearn
