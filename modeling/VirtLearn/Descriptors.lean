import Mathlib.Data.Int.Notation
import Mathlib.Data.List.Count
import Mathlib.Data.List.Perm.Basic

/-!
# File descriptors opened and closed

What a function does to file descriptors, as the list of those it was given and the list of the
values it called `close` with. A call that is to give a descriptor gives -1 if it fails.
-/

namespace VirtLearn

structure Descriptors where
  opened : List ℤ := []
  closed : List ℤ := []
deriving DecidableEq

namespace Descriptors

variable {descriptors : Descriptors} {fd : ℤ}

/-- The result of a call that gives a descriptor. -/
def opens (descriptors : Descriptors) (fd : ℤ) : Descriptors :=
  if fd = -1 then descriptors else { descriptors with opened := descriptors.opened ++ [fd] }

def closes (descriptors : Descriptors) (fd : ℤ) : Descriptors :=
  { descriptors with closed := descriptors.closed ++ [fd] }

/-- Every descriptor has been closed, at least as often as it was given out. -/
def NoneLeft (descriptors : Descriptors) : Prop :=
  ∀ fd ∈ descriptors.opened, descriptors.opened.count fd ≤ descriptors.closed.count fd

/-- Every descriptor has been closed, exactly as often as it was given out, and nothing else. -/
structure Settled (descriptors : Descriptors) : Prop where
  once : ∀ fd ∈ descriptors.opened, descriptors.closed.count fd = descriptors.opened.count fd
  nothingElse : ∀ fd ∈ descriptors.closed, fd ∈ descriptors.opened

theorem opened_opens_of_ne (succeeded : fd ≠ -1) :
    (descriptors.opens fd).opened = descriptors.opened ++ [fd] := by
  rw [opens, if_neg succeeded]

theorem opens_of_eq (failed : fd = -1) : descriptors.opens fd = descriptors :=
  if_pos failed

theorem mem_opens {other : ℤ} (given : other ∈ descriptors.opened) :
    other ∈ (descriptors.opens fd).opened := by
  rw [opens]
  split
  · exact given
  · exact List.mem_append_left _ given

/-- A call that fails gives nothing to close. -/
theorem failure_not_mem_opens (before : -1 ∉ descriptors.opened) :
    -1 ∉ (descriptors.opens fd).opened := by
  rw [opens]
  split
  · exact before
  · rename_i succeeded
    simp [before, Ne.symm succeeded]

@[simp]
theorem closed_opens : (descriptors.opens fd).closed = descriptors.closed := by
  rw [opens]
  split <;> rfl

theorem settled_iff_perm : descriptors.Settled ↔ descriptors.closed.Perm descriptors.opened := by
  constructor
  · rintro ⟨once, nothingElse⟩
    rw [List.perm_iff_count]
    intro fd
    by_cases given : fd ∈ descriptors.opened
    · exact once fd given
    · have never : fd ∉ descriptors.closed := fun closed => given (nothingElse fd closed)
      rw [List.count_eq_zero_of_not_mem given, List.count_eq_zero_of_not_mem never]
  · intro same
    exact ⟨fun fd _ => List.perm_iff_count.mp same fd, fun fd => same.mem_iff.mp⟩

/-- Closing what is held in the opposite order leaves nothing behind. -/
theorem settled_reverse (held : List ℤ) : Settled { opened := held, closed := held.reverse } :=
  settled_iff_perm.mpr held.reverse_perm

theorem Settled.length_eq (settled : descriptors.Settled) :
    descriptors.closed.length = descriptors.opened.length :=
  (settled_iff_perm.mp settled).length_eq

/-- Where nothing is closed, nothing may have been opened. -/
theorem noneLeft_iff_of_closed_eq_nil (unclosed : descriptors.closed = []) :
    descriptors.NoneLeft ↔ descriptors.opened = [] := by
  constructor
  · intro none_left
    rw [List.eq_nil_iff_forall_not_mem]
    intro fd given
    have closed := none_left fd given
    rw [unclosed, List.count_nil] at closed
    exact absurd (List.count_pos_iff.mpr given) (Nat.not_lt.mpr closed)
  · intro nothing fd given
    rw [nothing] at given
    cases given

end Descriptors

end VirtLearn
