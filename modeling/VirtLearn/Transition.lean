import Mathlib.Data.List.Basic

/-!
# Labelled transition systems and services

A `System` takes partial, labelled steps from one initial state. Its reachable states are
relative to a condition on the steps: `Reachable allowed` collects the states of the runs all of
whose steps are allowed in the state they are taken from. With `anyAction` these are all runs.

A `Service` also answers each call. Forward simulation between two services is proved once, call
by call, and carried to every sequence of calls by `Simulation.run`.
-/

namespace VirtLearn

universe u v w x

/-- A deterministic transition system; a step that is not enabled has no successor. -/
structure System (State : Type u) (Action : Type v) where
  initial : State
  step : State → Action → Option State

/-- The condition on steps that excludes none. -/
def anyAction {State : Type u} {Action : Type v} (_ : State) (_ : Action) : Prop :=
  True

namespace System

variable {State : Type u} {Action : Type v} {system : System State Action}
  {allowed : State → Action → Prop}

/-- States of runs whose steps all meet `allowed`. -/
inductive Reachable (system : System State Action) (allowed : State → Action → Prop) :
    State → Prop where
  | initial : Reachable system allowed system.initial
  | step {before after : State} {action : Action} (earlier : Reachable system allowed before)
      (permitted : allowed before action) (taken : system.step before action = some after) :
      Reachable system allowed after

/-- What holds initially and is kept by every allowed step holds of every reachable state. -/
theorem Reachable.invariant {holds : State → Prop} {state : State}
    (reachable : system.Reachable allowed state) (initial : holds system.initial)
    (preserved : ∀ before action after, holds before → allowed before action →
      system.step before action = some after → holds after) : holds state := by
  induction reachable with
  | initial => exact initial
  | step _ permitted taken ih => exact preserved _ _ _ ih permitted taken

theorem Reachable.mono {weaker : State → Action → Prop} {state : State}
    (reachable : system.Reachable allowed state)
    (weakens : ∀ state action, allowed state action → weaker state action) :
    system.Reachable weaker state := by
  induction reachable with
  | initial => exact .initial
  | step _ permitted taken ih => exact ih.step (weakens _ _ permitted) taken

/-- Execute a list of actions. -/
def run (system : System State Action) : State → List Action → Option State
  | state, [] => some state
  | state, action :: rest => (system.step state action).bind fun next => system.run next rest

@[simp]
theorem run_nil (state : State) : system.run state [] = some state :=
  rfl

theorem run_of_step {state next : State} {action : Action}
    (taken : system.step state action = some next) (rest : List Action) :
    system.run state (action :: rest) = system.run next rest := by
  rw [run, taken, Option.bind_some]

theorem run_append (state : State) (first second : List Action) :
    system.run state (first ++ second) =
      (system.run state first).bind fun next => system.run next second := by
  induction first generalizing state with
  | nil => rfl
  | cons action rest ih =>
      simp only [List.cons_append, run]
      cases system.step state action with
      | none => rfl
      | some next => exact ih next

theorem run_concat {state middle after : State} {actions : List Action} {action : Action}
    (ran : system.run state actions = some middle)
    (taken : system.step middle action = some after) :
    system.run state (actions ++ [action]) = some after := by
  simp [run_append, ran, run, taken]

/-- The actions can be taken one after the other, each allowed where it is taken. -/
def Follows (system : System State Action) (allowed : State → Action → Prop) :
    State → List Action → State → Prop
  | state, [], last => last = state
  | state, action :: rest, last =>
      allowed state action ∧
        ∃ next, system.step state action = some next ∧ system.Follows allowed next rest last

/-- Each action is allowed in whatever state those before it lead to. -/
def Permits (system : System State Action) (allowed : State → Action → Prop) :
    State → List Action → Prop
  | _, [] => True
  | state, action :: rest =>
      allowed state action ∧
        ∀ next, system.step state action = some next → system.Permits allowed next rest

theorem Permits.mono {weaker : State → Action → Prop} {actions : List Action} {state : State}
    (permits : system.Permits allowed state actions)
    (weakens : ∀ state action, allowed state action → weaker state action) :
    system.Permits weaker state actions := by
  induction actions generalizing state with
  | nil => trivial
  | cons action rest ih =>
      rcases permits with ⟨permitted, onward⟩
      exact ⟨weakens _ _ permitted, fun next taken => ih (onward next taken)⟩

/-- What holds at the start and is kept by the given steps permits whatever it implies of them. -/
theorem permits_of_invariant {holds : State → Prop} {actions : List Action} {state : State}
    (initial : holds state)
    (permitted : ∀ before, ∀ action ∈ actions, holds before → allowed before action)
    (preserved : ∀ before, ∀ action ∈ actions, ∀ after, holds before →
      system.step before action = some after → holds after) :
    system.Permits allowed state actions := by
  induction actions generalizing state with
  | nil => trivial
  | cons action rest ih =>
      have first : action ∈ action :: rest := List.mem_cons_self
      refine ⟨permitted state action first initial, ?_⟩
      intro next taken
      apply ih (preserved state action first next initial taken)
      · intro before other listed
        exact permitted before other (List.mem_cons_of_mem _ listed)
      · intro before other listed
        exact preserved before other (List.mem_cons_of_mem _ listed)

theorem permits_append {first second : List Action} {state : State} :
    system.Permits allowed state (first ++ second) ↔
      system.Permits allowed state first ∧
        ∀ last, system.run state first = some last → system.Permits allowed last second := by
  induction first generalizing state with
  | nil => simp [Permits]
  | cons action rest ih =>
      rw [List.cons_append, Permits, Permits, run]
      constructor
      · rintro ⟨permitted, onward⟩
        refine ⟨⟨permitted, fun next taken => (ih.mp (onward next taken)).1⟩, ?_⟩
        intro last ran
        rw [Option.bind_eq_some_iff] at ran
        rcases ran with ⟨next, taken, ran⟩
        exact (ih.mp (onward next taken)).2 last ran
      · rintro ⟨⟨permitted, onward⟩, behind⟩
        refine ⟨permitted, fun next taken => ih.mpr ⟨onward next taken, ?_⟩⟩
        intro last ran
        apply behind last
        rw [taken, Option.bind_some, ran]

theorem Reachable.follows {actions : List Action} {before after : State}
    (reachable : system.Reachable allowed before)
    (follows : system.Follows allowed before actions after) : system.Reachable allowed after := by
  induction actions generalizing before with
  | nil =>
      cases follows
      exact reachable
  | cons action rest ih =>
      rcases follows with ⟨permitted, next, taken, later⟩
      exact ih (reachable.step permitted taken) later

theorem Reachable.run {actions : List Action} {before after : State}
    (reachable : system.Reachable anyAction before)
    (ran : system.run before actions = some after) : system.Reachable anyAction after := by
  induction actions generalizing before with
  | nil =>
      cases ran
      exact reachable
  | cons action rest ih =>
      rw [System.run, Option.bind_eq_some_iff] at ran
      rcases ran with ⟨next, taken, ran⟩
      exact ih (reachable.step trivial taken) ran

end System

/-- A deterministic service: a call may fault, else it gives a new state and a response. -/
structure Service (State : Type u) (Call : Type v) (Response : Type w) where
  initial : State
  serve : State → Call → Option (State × Response)

namespace Service

variable {State : Type u} {Call : Type v} {Response : Type w}

def runFrom (service : Service State Call Response) :
    State → List Call → Option (State × List Response)
  | state, [] => some (state, [])
  | state, call :: rest =>
      (service.serve state call).bind fun (next, response) =>
        (service.runFrom next rest).map fun (last, responses) => (last, response :: responses)

/-- Serve the calls in order from the initial state. -/
def run (service : Service State Call Response) (calls : List Call) :
    Option (State × List Response) :=
  service.runFrom service.initial calls

theorem runFrom_cons {service : Service State Call Response} {state next last : State}
    {call : Call} {response : Response} {calls : List Call} {responses : List Response}
    (served : service.serve state call = some (next, response))
    (rest : service.runFrom next calls = some (last, responses)) :
    service.runFrom state (call :: calls) = some (last, response :: responses) := by
  simp [runFrom, served, rest]

end Service

/-- The implementation follows the specification call by call with the same responses. -/
structure Simulation {State : Type u} {Abstract : Type x} {Call : Type v} {Response : Type w}
    (implementation : Service State Call Response)
    (specification : Service Abstract Call Response) (related : State → Abstract → Prop) :
    Prop where
  /-- The initial states are related. -/
  initial : related implementation.initial specification.initial
  /-- From related states each call ends in related states with one response on both sides. -/
  serve : ∀ state abstract call, related state abstract →
    ∃ next after response, implementation.serve state call = some (next, response) ∧
      specification.serve abstract call = some (after, response) ∧ related next after

namespace Simulation

variable {State : Type u} {Abstract : Type x} {Call : Type v} {Response : Type w}
  {implementation : Service State Call Response}
  {specification : Service Abstract Call Response} {related : State → Abstract → Prop}

theorem runFrom (simulation : Simulation implementation specification related) {state : State}
    {abstract : Abstract} (start : related state abstract) (calls : List Call) :
    ∃ last final responses, implementation.runFrom state calls = some (last, responses) ∧
      specification.runFrom abstract calls = some (final, responses) ∧ related last final := by
  induction calls generalizing state abstract with
  | nil => exact ⟨state, abstract, [], rfl, rfl, start⟩
  | cons call rest ih =>
      rcases simulation.serve state abstract call start with
        ⟨next, after, response, served, specified, kept⟩
      rcases ih kept with ⟨last, final, responses, ran, specifiedRun, related_last⟩
      exact ⟨last, final, response :: responses, Service.runFrom_cons served ran,
        Service.runFrom_cons specified specifiedRun, related_last⟩

/-- Over any sequence of calls both sides answer alike and end in related states. -/
theorem run (simulation : Simulation implementation specification related) (calls : List Call) :
    ∃ last final responses, implementation.run calls = some (last, responses) ∧
      specification.run calls = some (final, responses) ∧ related last final :=
  simulation.runFrom simulation.initial calls

end Simulation

end VirtLearn
