import Mathlib.Data.BitVec

/-!
# Events and the faults of their delivery

A processor delivers an exception or interrupt by a number of checks and accesses, each of which may
fault. Then the fault is delivered instead, or a double fault, or the processor shuts down, by how
severe the two are. What an attempt to deliver one event does is a parameter here.

What comes of a fault is more severe than the event that it was raised for, so a few attempts are
enough (`deliver_of_error`).
-/

namespace VirtLearn

universe u

/-- Where an event comes from; `INT n` is a software interrupt. -/
inductive Source where
  | external
  | exception
  | software
deriving DecidableEq

structure Event where
  vector : BitVec 8
  source : Source
  error : Option (BitVec 32) := none
deriving DecidableEq

inductive Severity where
  | benign
  | contributory
  | pageFault
  | doubleFault
deriving DecidableEq

namespace Severity

/-- How many more events may come of one. -/
def rank : Severity → ℕ
  | benign => 3
  | contributory => 2
  | pageFault => 1
  | doubleFault => 0

end Severity

namespace Event

def exception (vector : BitVec 8) (error : BitVec 32) : Event where
  vector
  source := .exception
  error := some error

def doubleFault : Event :=
  exception 8 0

/-- Only exceptions are more than benign. -/
def severity (event : Event) : Severity :=
  if event.source ≠ .exception then .benign
  else if event.vector = 8 then .doubleFault
  else if event.vector ∈ [0x0, 0xa, 0xb, 0xc, 0xd, 0x15] then .contributory
  else if event.vector ∈ [0xe, 0x14] then .pageFault
  else .benign

/-- The fault is one that the checks of a delivery raise. -/
def FromDelivery (fault : Event) : Prop :=
  fault.severity = .contributory ∨ fault.severity = .pageFault

/-- What is delivered after a fault in the delivery of an event, if anything is. -/
def escalate (event fault : Event) : Option Event :=
  match event.severity, fault.severity with
  | .doubleFault, .benign => some fault
  | .doubleFault, _ => none
  | .pageFault, .contributory => some doubleFault
  | .pageFault, .pageFault => some doubleFault
  | .contributory, .contributory => some doubleFault
  | _, _ => some fault

theorem eq_doubleFault_of_severity {event : Event} (severe : event.severity = .doubleFault) :
    event.source = .exception ∧ event.vector = 8 := by
  rw [severity] at severe
  split at severe
  case isTrue => cases severe
  case isFalse raised =>
    split at severe
    case isTrue double => exact ⟨not_not.mp raised, double⟩
    case isFalse =>
      split at severe
      case isTrue => cases severe
      case isFalse =>
        split at severe
        case isTrue => cases severe
        case isFalse => cases severe

theorem rank_escalate {event fault next : Event} (raised : fault.FromDelivery)
    (escalated : event.escalate fault = some next) :
    next.severity.rank < event.severity.rank := by
  have double : doubleFault.severity = .doubleFault := rfl
  rw [escalate] at escalated
  rcases raised with raised | raised <;>
    cases severe : event.severity <;>
    simp only [severe, raised, Option.some.injEq, reduceCtorEq] at escalated <;>
    subst escalated <;>
    simp [raised, double, Severity.rank]

end Event

section Delivery

variable {α : Type u}

/-- The attempts to deliver an event, within a number of them: what it ends with, or `none` when
the processor shuts down. -/
def deliverWithin (attempt : Event → Except Event α) : ℕ → Event → Option (Event × α)
  | 0, _ => none
  | fuel + 1, event =>
      match attempt event with
      | .ok entered => some (event, entered)
      | .error fault => (event.escalate fault).bind (deliverWithin attempt fuel)

def deliver (attempt : Event → Except Event α) : Event → Option (Event × α) :=
  deliverWithin attempt 4

variable {attempt : Event → Except Event α} {event fault next : Event} {entered : α}

/-- More attempts than the rank of the event change nothing. -/
theorem deliverWithin_eq
    (raises : ∀ event fault, attempt event = .error fault → fault.FromDelivery) {fuel more : ℕ}
    (enough : event.severity.rank < fuel) (enoughToo : event.severity.rank < more) :
    deliverWithin attempt fuel event = deliverWithin attempt more event := by
  induction fuel generalizing event more with
  | zero => omega
  | succ fuel ih =>
      cases more with
      | zero => omega
      | succ more =>
          rw [deliverWithin, deliverWithin]
          cases tried : attempt event with
          | ok entered => rfl
          | error fault =>
              simp only
              cases escalated : event.escalate fault with
              | none => rfl
              | some next =>
                  have severer := Event.rank_escalate (raises event fault tried) escalated
                  exact ih (by omega) (by omega)

theorem deliver_of_ok (tried : attempt event = .ok entered) :
    deliver attempt event = some (event, entered) := by
  rw [deliver, deliverWithin, tried]

/-- After a fault, the event that it escalates to is delivered. -/
theorem deliver_of_error
    (raises : ∀ event fault, attempt event = .error fault → fault.FromDelivery)
    (tried : attempt event = .error fault) (escalated : event.escalate fault = some next) :
    deliver attempt event = deliver attempt next := by
  have severer := Event.rank_escalate (raises event fault tried) escalated
  have bounded : event.severity.rank ≤ 3 := by cases event.severity <;> decide
  rw [deliver, deliverWithin, tried]
  simp only [escalated, Option.bind_some]
  exact deliverWithin_eq raises (by omega) (by omega)

end Delivery

end VirtLearn
