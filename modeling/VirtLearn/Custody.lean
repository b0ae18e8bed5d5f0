import Mathlib.Data.List.Range

/-!
# Custody

Objects are named by the count of those issued before. `Custody issued kept` says that each of them
is with exactly one of its keepers, who have the objects `kept` among them: whatever is handed on is
neither lost nor doubled.
-/

namespace VirtLearn

/-- Every object issued so far is kept, and kept once. -/
def Custody (issued : ℕ) (kept : List ℕ) : Prop :=
  kept.Perm (List.range issued)

namespace Custody

variable {issued object : ℕ} {kept later : List ℕ}

theorem empty : Custody 0 [] :=
  List.Perm.refl _

/-- Objects go from keeper to keeper. -/
theorem handOn (custody : Custody issued kept) (moved : later.Perm kept) : Custody issued later :=
  moved.trans custody

/-- A new object is with one of the keepers. -/
theorem issue (custody : Custody issued kept) (moved : later.Perm (issued :: kept)) :
    Custody (issued + 1) later := by
  have behind : (issued :: kept).Perm (List.range issued ++ [issued]) :=
    (List.Perm.cons issued custody).trans (List.perm_append_singleton issued _).symm
  rw [Custody, List.range_succ]
  exact moved.trans behind

theorem nodup (custody : Custody issued kept) : kept.Nodup :=
  custody.nodup_iff.mpr List.nodup_range

theorem mem_iff (custody : Custody issued kept) : object ∈ kept ↔ object < issued := by
  rw [List.Perm.mem_iff custody, List.mem_range]

end Custody

end VirtLearn
