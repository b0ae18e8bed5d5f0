import Mathlib.Logic.Relation
import Mathlib.Order.WellFounded

/-!
# Loops that leave with a result

A loop is given by its body: one round either returns to the loop head with a new state or leaves
with a result. `Loop.run` executes a bounded number of rounds, `Loop.Exits` says that some number
of rounds suffices, and `Loop.Reaches` collects the states seen at the loop head.

The rules at the end are the ones verification conditions are built from: a loop that leaves does
so from a state at its head, an invariant of the head holds wherever the loop gets, and a rank that
decreases in every round gives termination.
-/

namespace VirtLearn

universe u v w

namespace Loop

variable {State : Type u} {Result : Type v} {body : State → State ⊕ Result}

/-- Execute at most `fuel` rounds; `none` means that the rounds ran out. -/
def run (body : State → State ⊕ Result) : ℕ → State → Option Result
  | 0, _ => none
  | fuel + 1, state =>
      match body state with
      | .inl next => run body fuel next
      | .inr result => some result

/-- The loop leaves with `result` after finitely many rounds. -/
def Exits (body : State → State ⊕ Result) (state : State) (result : Result) : Prop :=
  ∃ fuel, run body fuel state = some result

/-- `next` is seen at the head of the loop after zero or more rounds. -/
abbrev Reaches (body : State → State ⊕ Result) : State → State → Prop :=
  Relation.ReflTransGen fun state next => body state = .inl next

@[simp]
theorem run_zero (state : State) : run body 0 state = none :=
  rfl

theorem run_succ_of_inl {state next : State} (round : body state = .inl next) (fuel : ℕ) :
    run body (fuel + 1) state = run body fuel next := by
  simp [run, round]

theorem run_succ_of_inr {state : State} {result : Result} (leaves : body state = .inr result)
    (fuel : ℕ) : run body (fuel + 1) state = some result := by
  simp [run, leaves]

theorem exits_of_inr {state : State} {result : Result} (leaves : body state = .inr result) :
    Exits body state result :=
  ⟨1, run_succ_of_inr leaves 0⟩

theorem exits_of_inl {state next : State} {result : Result} (round : body state = .inl next)
    (rest : Exits body next result) : Exits body state result := by
  rcases rest with ⟨fuel, done⟩
  exact ⟨fuel + 1, by rw [run_succ_of_inl round, done]⟩

theorem Exits.exists_reaches {state : State} {result : Result} (exits : Exits body state result) :
    ∃ last, Reaches body state last ∧ body last = .inr result := by
  rcases exits with ⟨fuel, done⟩
  induction fuel generalizing state with
  | zero => simp at done
  | succ fuel ih =>
      rcases round : body state with next | final
      · rw [run_succ_of_inl round] at done
        rcases ih done with ⟨last, path, leaves⟩
        exact ⟨last, path.head round, leaves⟩
      · rw [run_succ_of_inr round] at done
        cases Option.some.inj done
        exact ⟨state, .refl, round⟩

theorem Reaches.invariant {holds : State → Prop} {state next : State}
    (path : Reaches body state next) (initial : holds state)
    (preserved : ∀ before after, holds before → body before = .inl after → holds after) :
    holds next := by
  induction path with
  | refl => exact initial
  | tail _ round ih => exact preserved _ _ ih round

/-- A rank that decreases in every round started under the invariant gives termination. -/
theorem exists_exits_of_rank {Rank : Type w} [LT Rank] [WellFoundedLT Rank] (rank : State → Rank)
    {holds : State → Prop} {state : State} (initial : holds state)
    (preserved : ∀ before after, holds before → body before = .inl after → holds after)
    (decreases : ∀ before after, holds before → body before = .inl after →
      rank after < rank before) :
    ∃ result, Exits body state result := by
  induction measured : rank state using WellFoundedLT.induction generalizing state with
  | ind bound ih =>
      subst bound
      rcases round : body state with next | result
      · have later := preserved state next initial round
        rcases ih (rank next) (decreases state next initial round) later rfl with ⟨result, exits⟩
        exact ⟨result, exits_of_inl round exits⟩
      · exact ⟨result, exits_of_inr round⟩

end Loop

end VirtLearn
