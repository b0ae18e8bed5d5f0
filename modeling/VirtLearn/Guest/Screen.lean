import Mathlib.Data.List.Basic
import VirtLearn.Machine.Memory

/-!
# The text screen

What the screen is for, in its own terms: places are numbered row by row in rows of 80, a line feed
goes to the first place of the next row, and any other character is shown where the screen is at
and moves it on. `echo` is the text as a typewriter would copy it, which starts a new line at each
character in the first column.

A place is counted in 63 bits, half of the bytes of the address space.
-/

namespace VirtLearn.Guest.Screen

def columns : ℕ :=
  80

def places : ℕ :=
  2 ^ 63

def nextRow (place : ℕ) : ℕ :=
  (place / columns + 1) * columns % places

def advance (place : ℕ) (char : Byte) : ℕ :=
  if char = 10 then nextRow place else (place + 1) % places

def echo : ℕ → List Byte → List Byte
  | _, [] => []
  | place, char :: rest =>
      (if char = 10 then [] else if place % columns = 0 then [10, char] else [char]) ++
        echo (advance place char) rest

theorem advance_lt (place : ℕ) (char : Byte) : advance place char < places := by
  rw [advance, nextRow, places]
  split <;> omega

theorem foldl_advance_lt {place : ℕ} (inSpace : place < places) (text : List Byte) :
    text.foldl advance place < places := by
  induction text generalizing place with
  | nil => exact inSpace
  | cons char rest ih => exact ih (advance_lt place char)

theorem echo_append (place : ℕ) (first second : List Byte) :
    echo place (first ++ second) = echo place first ++ echo (first.foldl advance place) second := by
  induction first generalizing place with
  | nil => rfl
  | cons char rest ih => simp [echo, ih]

/-- Nothing but line feeds comes or goes. -/
theorem filter_echo (place : ℕ) (text : List Byte) :
    (echo place text).filter (· ≠ 10) = text.filter (· ≠ 10) := by
  induction text generalizing place with
  | nil => rfl
  | cons char rest ih =>
      rw [echo, List.filter_append, ih]
      split
      case isTrue newline => simp [newline]
      case isFalse shown =>
        have alone : ([char] : List Byte).filter (· ≠ 10) = [char] :=
          List.filter_eq_self.mpr (by simpa using shown)
        have kept : (if place % columns = 0 then [10, char] else [char]).filter (· ≠ 10) =
            [char] := by
          split
          · exact alone
          · exact alone
        rw [kept, ← alone, ← List.filter_append]
        rfl

end VirtLearn.Guest.Screen
