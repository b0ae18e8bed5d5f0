import Mathlib.Data.List.Induction
import Mathlib.Data.List.Nodup

/-!
# Overwriting commands

Each command of a sequence overwrites some of the cells of a state, with values that do not depend
on the state. After the sequence a cell holds what the last command writing it left there, or what
it held at the start. A cell is given by the observation of its value.
-/

namespace VirtLearn

universe u v w

section LastWrite

variable {Command : Type u} {Value : Type v} {write : Command → Option Value}
  {commands : List Command}

/-- What the last of the commands that write a cell leaves there. -/
def lastWrite (write : Command → Option Value) (commands : List Command) : Option Value :=
  (commands.filterMap write).getLast?

@[simp]
theorem lastWrite_nil : lastWrite write [] = none :=
  rfl

theorem lastWrite_concat (command : Command) :
    lastWrite write (commands ++ [command]) = (write command).or (lastWrite write commands) := by
  rw [lastWrite, List.filterMap_append, List.getLast?_append]
  cases written : write command <;> simp [lastWrite, written]

theorem lastWrite_eq_none_iff :
    lastWrite write commands = none ↔ ∀ command ∈ commands, write command = none := by
  rw [lastWrite, List.getLast?_eq_none_iff, List.filterMap_eq_nil_iff]

/-- Where every write of a cell is of one kind, the last command of that kind decides. -/
theorem lastWrite_of_ite {writes : Command → Prop} [DecidablePred writes] {value : Command → Value}
    (write_eq : ∀ command ∈ commands, write command =
      if writes command then some (value command) else none) :
    lastWrite write commands =
      (commands.filter fun command => writes command).getLast?.map value := by
  induction commands using List.reverseRecOn with
  | nil => rfl
  | append_singleton commands command ih =>
      rw [lastWrite_concat, write_eq command (by simp), List.filter_append, List.getLast?_append,
        ih fun earlier earlier_mem => write_eq earlier (List.mem_append_left _ earlier_mem)]
      by_cases written : writes command <;> simp [written]

/-- Where no cell is written twice, a cell holds what the one command for it wrote. -/
theorem lastWrite_eq_some_iff_of_nodup {Key : Type w} [DecidableEq Key] {key : Command → Key}
    (value : Command → Value) (distinct : (commands.map key).Nodup) (place : Key) (found : Value) :
    lastWrite (fun command => if key command = place then some (value command) else none)
        commands = some found ↔
      ∃ command ∈ commands, key command = place ∧ value command = found := by
  have listed : ∀ result, lastWrite
      (fun command => if key command = place then some (value command) else none) commands =
        some result → ∃ command ∈ commands, key command = place ∧ value command = result := by
    intro result last
    rcases List.mem_filterMap.mp (List.mem_of_getLast? last) with ⟨command, mem, written⟩
    split at written
    case isTrue here => exact ⟨command, mem, here, Option.some.inj written⟩
    case isFalse elsewhere => cases written
  constructor
  · exact listed found
  · rintro ⟨command, mem, here, rfl⟩
    cases last : lastWrite
      (fun command => if key command = place then some (value command) else none) commands with
    | none =>
        have unwritten := lastWrite_eq_none_iff.mp last command mem
        rw [if_pos here] at unwritten
        cases unwritten
    | some result =>
        rcases listed result last with ⟨other, otherMem, alsoHere, rfl⟩
        have same : other = command :=
          List.inj_on_of_nodup_map distinct otherMem mem (alsoHere.trans here.symm)
        rw [same]

end LastWrite

section Observe

variable {State : Type w} {Command : Type u} {Value : Type v} {observe : State → Value}
  {step : State → Command → State} {write : Command → Option Value} {Good : State → Prop}
  {Fine : Command → Prop}

/-- After a run of overwriting commands a cell holds what the last write left, or is as before. -/
theorem observe_foldl
    (steps : ∀ state command, Good state → Fine command → Good (step state command) ∧
      observe (step state command) = (write command).getD (observe state))
    {state : State} (good : Good state) {commands : List Command}
    (fine : ∀ command ∈ commands, Fine command) :
    Good (commands.foldl step state) ∧
      observe (commands.foldl step state) = (lastWrite write commands).getD (observe state) := by
  induction commands using List.reverseRecOn with
  | nil => exact ⟨good, rfl⟩
  | append_singleton commands command ih =>
      rcases ih fun earlier earlier_mem => fine earlier (List.mem_append_left _ earlier_mem) with
        ⟨kept, observed⟩
      rw [List.foldl_append, List.foldl_cons, List.foldl_nil]
      rcases steps _ command kept (fine command (by simp)) with ⟨keptOn, overwritten⟩
      refine ⟨keptOn, ?_⟩
      rw [overwritten, observed, lastWrite_concat]
      cases write command <;> simp

theorem observe_foldl_of_steps
    (steps : ∀ state command,
      observe (step state command) = (write command).getD (observe state))
    (state : State) (commands : List Command) :
    observe (commands.foldl step state) = (lastWrite write commands).getD (observe state) :=
  (@observe_foldl _ _ _ observe step write (fun _ => True) (fun _ => True)
    (fun state command _ _ => ⟨trivial, steps state command⟩) state trivial commands
    fun _ _ => trivial).2

end Observe

end VirtLearn
