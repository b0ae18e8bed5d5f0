import VirtLearn.Counter
import VirtLearn.Virtio.Interleaving

/-!
# Messages in flight

A message is counted by the driver from the write on and by the device from its handler on; in
between it is in one of the queues, unless the queue has refused it: then the driver goes on
counting what nobody has. Hence the two counters always differ by what is in flight
(`buffers_modEq`) and what was refused, and a request of the only reader finds the count of its
own posting on the device exactly if there is nothing of either kind
(`inbuf_answered_in_order`). Nothing in the code brings that about: the two queues are not ordered
against each other, and the driver does not look whether a request was queued.
-/

namespace VirtLearn.Virtio

/-! ### Conservation -/

/--
The driver counts what the device has stored, what is under way to or from it, and what never
came into the queue.
-/
def Ledger.Balanced (ledger : Ledger) : Prop :=
  ledger.buffers.toNat ≡
    ledger.rcvCount.toNat + ledger.sent + ledger.answered + ledger.refused [MOD 2 ^ 32]

theorem Ledger.Balanced.moves {before after : Ledger} {action : Step}
    (balanced : before.Balanced) (moves : before.Moves action after) : after.Balanced := by
  have up := @Counter.toNat_add_one_modEq 32
  have down := @Counter.toNat_sub_one_modEq 32
  simp only [Ledger.Balanced, Nat.ModEq] at *
  cases moves with
  | still => exact balanced
  | readPost => exact balanced
  | readFinish => exact balanced
  | @write answer =>
      have counted := up before.buffers
      cases answer.added
      · simp only [Bool.false_eq_true, if_false]
        omega
      · simp only [if_true]
        omega
  | handleOutbuf _ pending =>
      have counted := up before.rcvCount
      simp only
      omega
  | handleInbuf =>
      have counted := down before.rcvCount
      simp only
      omega
  | inbufCb pending =>
      have counted := down before.buffers
      simp only
      omega

/-- No write loses its request between counting and queueing it. -/
def Step.Added : Step → Prop
  | .write answer _ => answer.added = true
  | _ => True

theorem Ledger.Moves.refused_eq {before after : Ledger} {action : Step}
    (moves : before.Moves action after) (added : action.Added) :
    after.refused = before.refused := by
  cases moves with
  | write =>
      simp only [Step.Added] at added
      simp [added]
  | _ => rfl

section Reachable

variable {beyond : ℕ → UInt8} {state : Interleaved} {allowed : Interleaved → Step → Prop}

theorem balanced_of_reachable (reachable : (interleaving beyond).Reachable allowed state) :
    state.ledger.Balanced := by
  apply reachable.invariant
  · rfl
  · intro before action after balanced _ taken
    exact balanced.moves (ledger_moves taken)

theorem refused_of_reachable (added : ∀ state action, allowed state action → action.Added)
    (reachable : (interleaving beyond).Reachable allowed state) : state.ledger.refused = 0 := by
  apply reachable.invariant
  · rfl
  · intro before action after none permitted taken
    rw [(ledger_moves taken).refused_eq (added before action permitted), none]

def completeWrites (_ : Interleaved) : Step → Prop
  | .write answer _ => answer.allocated = true ∧ answer.added = true
  | _ => True

/-- For any clients and any interleaving, no message is lost or counted twice. -/
theorem buffers_modEq (reachable : (interleaving beyond).Reachable completeWrites state) :
    state.driver.buffers.toNat ≡ state.device.rcvCount.toNat +
      state.driver.vqTx.avail.length + state.driver.vqRx.used.length [MOD 2 ^ 32] := by
  have none_refused : state.ledger.refused = 0 := by
    apply refused_of_reachable ?_ reachable
    intro state action complete
    cases action with
    | write => exact complete.2
    | _ => trivial
  have balanced := balanced_of_reachable reachable
  rw [Ledger.Balanced, none_refused] at balanced
  exact balanced

theorem buffers_modEq_three : ∃ state : Interleaved,
    state.driver.buffers.toNat = 3 ∧ state.device.rcvCount.toNat = 1 ∧
      state.driver.buffers.toNat ≡ state.device.rcvCount.toNat +
        state.driver.vqTx.avail.length + state.driver.vqRx.used.length [MOD 2 ^ 32] := by
  have follows : ∃ state, (interleaving fun _ => 0).Follows completeWrites {}
      [.write {} [1, 2], .write {} [3], .handleOutbuf {}, .write {} [4, 5]] state ∧
        state.driver.buffers.toNat = 3 ∧ state.device.rcvCount.toNat = 1 :=
    ⟨_, ⟨⟨rfl, rfl⟩, _, rfl, ⟨rfl, rfl⟩, _, rfl, trivial, _, rfl, ⟨rfl, rfl⟩, _, rfl, rfl⟩, rfl,
      rfl⟩
  rcases follows with ⟨state, follows, buffers, rcvCount⟩
  exact ⟨state, buffers, rcvCount, buffers_modEq (System.Reachable.initial.follows follows)⟩

/-! ### Order -/

/-- One client, which blocks in each of its calls. -/
def oneClient (state : Interleaved) : Step → Prop
  | .write _ _ => state.clients.waiting = 0
  | .readPost _ => state.clients.waiting = 0
  | _ => True

/--
The device answers an inbuf request only when it has served every outbuf request, and when the
queue has refused none so far.
-/
def storesFirst (state : Interleaved) : Step → Prop
  | .handleInbuf status =>
      status.up = true → state.driver.vqTx.avail = [] ∧ state.refused = 0
  | _ => True

/-- At most one request is anywhere between its read and its return, and it is up to date. -/
structure Ledger.Alone (ledger : Ledger) : Prop where
  single : ledger.waiting ≤ 1
  underway : ledger.asked + ledger.answered + ledger.ready ≤ ledger.waiting
  recorded : ledger.posted.length = ledger.asked
  current : ∀ value ∈ ledger.posted, value = ledger.buffers

/-- The step is one that a client waiting for its read cannot take. -/
def Ledger.Blocks (ledger : Ledger) : Step → Prop
  | .write _ _ => ledger.waiting = 0
  | .readPost _ => ledger.waiting = 0
  | _ => True

theorem Ledger.Alone.moves {before after : Ledger} {action : Step} (alone : before.Alone)
    (moves : before.Moves action after) (blocks : before.Blocks action) : after.Alone := by
  rcases alone with ⟨single, underway, recorded, current⟩
  cases moves with
  | still => exact ⟨single, underway, recorded, current⟩
  | write =>
      have idle : before.posted = [] := by
        apply List.eq_nil_of_length_eq_zero
        simp only [Ledger.Blocks] at blocks
        omega
      exact ⟨single, underway, recorded, by simp [idle]⟩
  | @readPost answer =>
      simp only [Ledger.Blocks] at blocks
      have idle : before.posted = [] := by
        apply List.eq_nil_of_length_eq_zero
        omega
      have none_asked : before.asked = 0 := by omega
      cases answer.added <;> refine ⟨?_, ?_, ?_, ?_⟩ <;> simp [idle, none_asked, blocks] <;> omega
  | readFinish waits signalled =>
      refine ⟨?_, ?_, recorded, current⟩
      · simp only
        omega
      · simp only
        omega
  | handleOutbuf => exact ⟨single, underway, recorded, current⟩
  | handleInbuf _ pending =>
      refine ⟨single, ?_, ?_, ?_⟩
      · simp only
        omega
      · simp [recorded, pending]
      · intro value value_mem
        exact current value (List.mem_of_mem_tail value_mem)
  | inbufCb pending =>
      have idle : before.posted = [] := by
        apply List.eq_nil_of_length_eq_zero
        omega
      refine ⟨single, ?_, recorded, by simp [idle]⟩
      simp only
      omega

theorem alone_of_reachable (reachable : (interleaving beyond).Reachable allowed state)
    (client : ∀ state action, allowed state action → oneClient state action) :
    state.ledger.Alone := by
  apply reachable.invariant
  · exact ⟨Nat.zero_le _, Nat.le_refl _, rfl, by simp [interleaving, Interleaved.ledger]⟩
  · intro before action after alone permitted taken
    apply alone.moves (ledger_moves taken)
    have one := client before action permitted
    cases action with
    | write => exact one
    | readPost => exact one
    | _ => trivial

theorem head?_posted (reachable : (interleaving beyond).Reachable oneClient state)
    (asked : state.driver.vqRx.avail ≠ []) :
    state.posted.head? = some state.driver.buffers ∧ state.driver.vqRx.used = [] := by
  rcases alone_of_reachable reachable fun _ _ => id with ⟨single, underway, recorded, current⟩
  have some_asked : 0 < state.driver.vqRx.avail.length := List.length_pos_iff.mpr asked
  simp only [Interleaved.ledger] at single underway recorded current
  constructor
  · cases posted : state.posted with
    | nil =>
        simp only [posted, List.length_nil] at recorded
        omega
    | cons value rest => simp [current value (by simp [posted])]
  · apply List.eq_nil_of_length_eq_zero
    omega

theorem head?_posted_eq_rcvCount_iff
    (reachable : (interleaving beyond).Reachable oneClient state)
    (asked : state.driver.vqRx.avail ≠ []) :
    state.posted.head? = some state.device.rcvCount ↔
      2 ^ 32 ∣ state.driver.vqTx.avail.length + state.refused := by
  rcases head?_posted reachable asked with ⟨current, collected⟩
  have balanced := balanced_of_reachable reachable
  simp only [Ledger.Balanced, Interleaved.ledger, collected, List.length_nil, Nat.ModEq]
    at balanced
  have inWord := state.driver.buffers.isLt
  have onDevice := state.device.rcvCount.isLt
  rw [current, Option.some.injEq, ← BitVec.toNat_inj]
  omega

/--
In every run of one client in which the device stores first, and answers only while no write has
been refused, each inbuf request finds on the device the value `buffers` had at its posting. Without
that condition it finds it exactly if the outbuf requests under way and those refused so far are
together a multiple of `2 ^ 32`, so in practice none.
-/
theorem inbuf_answered_in_order (beyond : ℕ → UInt8) :
    (∀ state status after,
      (interleaving beyond).Reachable
          (fun state action => oneClient state action ∧ storesFirst state action) state →
        storesFirst state (.handleInbuf status) → status.up = true →
        (interleaving beyond).step state (.handleInbuf status) = some after →
        state.posted.head? = some state.device.rcvCount) ∧
    ∀ state, (interleaving beyond).Reachable oneClient state → state.driver.vqRx.avail ≠ [] →
      (state.posted.head? = some state.device.rcvCount ↔
        2 ^ 32 ∣ state.driver.vqTx.avail.length + state.refused) := by
  constructor
  · intro state status after reachable permitted up taken
    rcases Option.map_eq_some_iff.mp taken with ⟨link, served, _⟩
    rcases Link.serveInbuf_cases served with ⟨down, _⟩ | ⟨vqe, rest, _, avail, _⟩
    · rw [up] at down
      cases down
    · have asked : state.driver.vqRx.avail ≠ [] := by
        intro none_asked
        rw [Interleaved.link, none_asked] at avail
        cases avail
      have client := reachable.mono fun _ _ both => both.1
      rcases permitted up with ⟨served, none_refused⟩
      rw [head?_posted_eq_rcvCount_iff client asked, served, none_refused]
      exact Nat.dvd_zero _
  · intro state reachable asked
    exact head?_posted_eq_rcvCount_iff reachable asked

theorem inbuf_answered_in_order_stored : ∃ state : Interleaved,
    state.device.rcvCount = 1 ∧ state.posted.head? = some state.device.rcvCount := by
  have follows : ∃ state, (interleaving fun _ => 0).Follows
      (fun state action => oneClient state action ∧ storesFirst state action) {}
      [.write {} [1, 2, 3], .handleOutbuf {}, .readPost {}] state ∧
        state.device.rcvCount = 1 ∧ (state.driver.vqTx.avail = [] ∧ state.refused = 0) ∧
        ∃ after, (interleaving fun _ => 0).step state (.handleInbuf {}) = some after :=
    ⟨_, ⟨⟨rfl, trivial⟩, _, rfl, ⟨trivial, trivial⟩, _, rfl, ⟨rfl, trivial⟩, _, rfl, rfl⟩, rfl,
      ⟨rfl, rfl⟩, _, rfl⟩
  rcases follows with ⟨state, follows, stored, idle, after, taken⟩
  exact ⟨state, stored, (inbuf_answered_in_order fun _ => 0).1 state {} after
    (System.Reachable.initial.follows follows) (fun _ => idle) rfl taken⟩

/-- The device may serve the request of a read before the write that came first. -/
theorem inbuf_overtakes_outbuf :
    ¬∀ state, (interleaving fun _ => 0).Reachable oneClient state →
      state.driver.vqRx.avail ≠ [] → state.posted.head? = some state.device.rcvCount := by
  intro ordered
  have follows : ∃ state, (interleaving fun _ => 0).Follows oneClient {}
      [.write {} [1, 2, 3], .readPost {}] state ∧
        state.device.rcvCount = 0 ∧ state.posted = [1] ∧ state.driver.vqRx.avail ≠ [] :=
    ⟨_, ⟨rfl, _, rfl, rfl, _, rfl, rfl⟩, rfl, rfl, List.cons_ne_nil _ _⟩
  rcases follows with ⟨state, follows, stored, posted, asked⟩
  have inOrder := ordered state (System.Reachable.initial.follows follows) asked
  rw [posted, stored] at inOrder
  cases inOrder

end Reachable

end VirtLearn.Virtio
