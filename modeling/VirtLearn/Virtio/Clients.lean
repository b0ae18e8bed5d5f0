import VirtLearn.Counter
import VirtLearn.Transition
import VirtLearn.Virtio.Driver

/-!
# Concurrent readers and writers

Any number of clients share one driver device. A write is one step; a read is split at
`wait_for_completion`; the callback of the receive queue is a step of its own, and the device may
use any posted request at any time, with any answer.

The check `buffers < 1` of a read and the decrement in the callback are separate steps, and the
part of a read after the wait looks at `buf_lens[buffers]`. So the counter and the indices stay in
range under a discipline of the clients (`cautious`), and each breach of it puts the driver at the
mercy of the device and the scheduler (`inRange_of_cautious`).
-/

namespace VirtLearn.Virtio

/-- The shared driver device, and the number of reads between their request and their return. -/
structure Clients where
  driver : VirtioCustomDevice := virtioCustdevProbe
  waiting : ℕ := 0

/-- One step of a client, of the device or of an interrupt. -/
inductive ClientStep where
  | write (answer : WriteAnswer) (data : List UInt8)
  | readPost (answer : ReadAnswer)
  | readFinish (uncopied : ℕ)
  | use (position : ℕ) (filled : List UInt8) (len : ℕ)
  | useOutbuf
  | inbufCb
  | outbufCb

/-- The steps that do not depend on what clients call. -/
def ClientStep.Internal : ClientStep → Prop
  | .write _ _ => False
  | .readPost _ => False
  | _ => True

namespace Clients

/-- A complete write. -/
def write (answer : WriteAnswer) (data : List UInt8) (state : Clients) : Clients :=
  { state with driver := (virtioCustdevWrite answer data state.driver).vcust }

/-- A read up to its wait. -/
def readPost (answer : ReadAnswer) (state : Clients) : Clients :=
  match virtioCustdevReadPost answer state.driver with
  | (.returned _, driver) => { state with driver }
  | (.waiting, driver) => { driver, waiting := state.waiting + 1 }

/-- The rest of a read, once a completion has been signalled. -/
def readFinish (beyond : ℕ → UInt8) (uncopied : ℕ) (state : Clients) : Option Clients :=
  if 0 < state.waiting ∧ 0 < state.driver.dataReady then
    let driver := { state.driver with dataReady := state.driver.dataReady - 1 }
    some
      { driver := (virtioCustdevReadFinish beyond uncopied driver).vcust
        waiting := state.waiting - 1 }
  else none

/-- The device uses one of the requests posted by reads. -/
def use (position : ℕ) (filled : List UInt8) (len : ℕ) (state : Clients) : Option Clients :=
  state.driver.vqRx.avail[position]?.map fun vqe =>
    let vq : VirtQueue :=
      { state.driver.vqRx with avail := state.driver.vqRx.avail.eraseIdx position }
    { state with driver := { state.driver with vqRx := vq.push vqe filled len } }

/-- The device uses the oldest request queued by a write. -/
def useOutbuf (state : Clients) : Option Clients :=
  state.driver.vqTx.pop.map fun (vqe, vq) =>
    { state with driver := { state.driver with vqTx := vq.push vqe [] 0 } }

/-- The interrupt of the receive queue, which the ring raises for a used buffer. -/
def inbufCb (state : Clients) : Option Clients :=
  if state.driver.vqRx.used = [] then none
  else some { state with driver := virtioCustdevInbufCb state.driver }

/-- The interrupt of the transmit queue. -/
def outbufCb (state : Clients) : Clients :=
  { state with driver := virtioCustdevOutbufCb state.driver }

end Clients

/-- The shared driver device under all its clients. -/
def clients (beyond : ℕ → UInt8) : System Clients ClientStep where
  initial := {}
  step state
    | .write answer data => some (state.write answer data)
    | .readPost answer => some (state.readPost answer)
    | .readFinish uncopied => state.readFinish beyond uncopied
    | .use position filled len => state.use position filled len
    | .useOutbuf => state.useOutbuf
    | .inbufCb => state.inbufCb
    | .outbufCb => some state.outbufCb

/-! ### What a step does to the counts -/

/-- What the clients count, and the entries of `buf_lens` they looked at. -/
structure Usage where
  /-- `driver.buffers` -/
  buffers : BitVec 32
  /-- Inbuf requests posted and not yet collected by the callback. -/
  outstanding : ℕ
  /-- Completions signalled and not yet waited for. -/
  ready : ℕ
  /-- Reads between their request and their return. -/
  waiting : ℕ
  lenUses : List ℕ

def Clients.usage (state : Clients) : Usage where
  buffers := state.driver.buffers
  outstanding := state.driver.vqRx.avail.length + state.driver.vqRx.used.length
  ready := state.driver.dataReady
  waiting := state.waiting
  lenUses := state.driver.lenUses

/-- What a step can do to the counts, with the guard it took. -/
inductive Usage.Moves (before : Usage) : ClientStep → Usage → Prop where
  | still (action : ClientStep) : Moves before action before
  | write {answer : WriteAnswer} {data : List UInt8}
      (room : before.buffers.toNat < virtioCustdevBuffers) (allocated : answer.allocated = true) :
      Moves before (.write answer data)
        { before with
          buffers := before.buffers + 1
          lenUses := before.lenUses ++ [before.buffers.toNat] }
  | readFail {answer : ReadAnswer} (filled : 0 < before.buffers.toNat) :
      Moves before (.readPost answer)
        { before with lenUses := before.lenUses ++ [(before.buffers - 1).toNat] }
  | readPost {answer : ReadAnswer} (filled : 0 < before.buffers.toNat)
      (allocated : answer.allocated = true) :
      Moves before (.readPost answer)
        { before with
          outstanding :=
            if answer.added then before.outstanding + 1 else before.outstanding
          waiting := before.waiting + 1
          lenUses := before.lenUses ++
            [(before.buffers - 1).toNat, (before.buffers - 1).toNat] }
  | readFinish {uncopied : ℕ} {lenUses : List ℕ} (waits : 0 < before.waiting)
      (signalled : 0 < before.ready)
      (looked : ∀ index ∈ lenUses, index ∈ before.lenUses ∨ index = before.buffers.toNat)
      (found : before.buffers.toNat ∈ lenUses) :
      Moves before (.readFinish uncopied)
        { before with ready := before.ready - 1, waiting := before.waiting - 1, lenUses }
  | inbufCb {outstanding : ℕ} (pending : before.outstanding = outstanding + 1) :
      Moves before .inbufCb
        { before with
          buffers := before.buffers - 1
          outstanding
          ready := before.ready + 1 }

section Moves

variable {beyond : ℕ → UInt8} {before after : Clients}

theorem usage_write (answer : WriteAnswer) (data : List UInt8) (state : Clients) :
    state.usage.Moves (.write answer data) (state.write answer data).usage := by
  by_cases full : virtioCustdevBuffers ≤ state.driver.buffers.toNat
  · rw [Clients.write, virtioCustdevWrite_of_full answer data full]
    exact .still _
  · have room : state.driver.buffers.toNat < virtioCustdevBuffers := by omega
    cases allocated : answer.allocated with
    | false =>
        have same : (virtioCustdevWrite answer data state.driver).vcust = state.driver := by
          simp [virtioCustdevWrite, full, allocated]
        rw [Clients.write, same]
        exact .still _
    | true =>
        rw [Clients.write, (virtioCustdevWrite_of_room data allocated room).2]
        exact .write room allocated

theorem usage_readPost (answer : ReadAnswer) (state : Clients) :
    state.usage.Moves (.readPost answer) (state.readPost answer).usage := by
  by_cases empty : state.driver.buffers.toNat = 0
  · rw [Clients.readPost, virtioCustdevReadPost_of_empty answer empty]
    exact .still _
  · have filled : 0 < state.driver.buffers.toNat := by omega
    cases allocated : answer.allocated with
    | false =>
        rw [Clients.readPost, virtioCustdevReadPost_of_unallocated allocated filled]
        exact .readFail filled
    | true =>
        have move : state.usage.Moves (.readPost answer) _ := .readPost filled allocated
        rw [Clients.readPost, virtioCustdevReadPost_of_filled allocated filled]
        cases added : answer.added <;>
          simpa [Clients.usage, added, VirtQueue.add, Nat.add_right_comm] using move

theorem usage_readFinish {uncopied : ℕ}
    (finished : before.readFinish beyond uncopied = some after) :
    before.usage.Moves (.readFinish uncopied) after.usage := by
  rw [Clients.readFinish] at finished
  split at finished
  case isTrue enabled =>
    cases Option.some.inj finished
    let driver := { before.driver with dataReady := before.driver.dataReady - 1 }
    have looked := @lenUses_virtioCustdevReadFinish driver beyond uncopied
    have found := @mem_lenUses_virtioCustdevReadFinish driver beyond uncopied
    have move : before.usage.Moves (.readFinish uncopied) _ :=
      .readFinish enabled.1 enabled.2 looked found
    simpa [Clients.usage, driver] using move
  case isFalse => cases finished

theorem usage_use {position len : ℕ} {filled : List UInt8}
    (used : before.use position filled len = some after) : after.usage = before.usage := by
  rcases Option.map_eq_some_iff.mp used with ⟨vqe, found, rfl⟩
  have inside := (List.getElem?_eq_some_iff.mp found).1
  simp only [Clients.usage, VirtQueue.push, List.length_eraseIdx_of_lt inside,
    List.length_append, List.length_singleton]
  congr 1
  omega

theorem usage_inbufCb (collected : before.inbufCb = some after) :
    before.usage.Moves .inbufCb after.usage := by
  rw [Clients.inbufCb] at collected
  split at collected
  case isTrue => cases collected
  case isFalse answered =>
    cases Option.some.inj collected
    cases used : before.driver.vqRx.used with
    | nil => exact absurd used answered
    | cons first rest =>
        have pending : before.usage.outstanding =
            before.driver.vqRx.avail.length + rest.length + 1 := by
          simp [Clients.usage, used, Nat.add_assoc]
        have move : before.usage.Moves .inbufCb _ := .inbufCb pending
        simpa [Clients.usage, virtioCustdevInbufCb, VirtQueue.getBuf, used] using move

theorem usage_moves {action : ClientStep}
    (taken : (clients beyond).step before action = some after) :
    before.usage.Moves action after.usage := by
  cases action with
  | write answer data =>
      cases Option.some.inj taken
      exact usage_write answer data before
  | readPost answer =>
      cases Option.some.inj taken
      exact usage_readPost answer before
  | readFinish uncopied => exact usage_readFinish taken
  | use position filled len =>
      rw [usage_use taken]
      exact .still _
  | useOutbuf =>
      rcases Option.map_eq_some_iff.mp taken with ⟨popped, _, rfl⟩
      exact .still _
  | inbufCb => exact usage_inbufCb taken
  | outbufCb =>
      cases Option.some.inj taken
      exact .still _

end Moves

/-! ### The range of the counter -/

/-- `buffers` is in `0..1024` and every index used on `buf_lens` is in `0..1023`. -/
def Usage.InRange (usage : Usage) : Prop :=
  usage.buffers.toNat ≤ virtioCustdevBuffers ∧ ∀ index ∈ usage.lenUses, index < virtioCustdevBuffers

/--
The discipline: a read is posted only while fewer requests are outstanding than messages counted,
and the last slot is filled only when no completed read has yet to copy its message out.
-/
def cautious (state : Clients) : ClientStep → Prop
  | .readPost answer =>
      answer.allocated = true → answer.added = true → 0 < state.driver.buffers.toNat →
        state.driver.vqRx.avail.length + state.driver.vqRx.used.length <
          state.driver.buffers.toNat
  | .write answer _ =>
      answer.allocated = true → state.driver.buffers.toNat + 1 = virtioCustdevBuffers →
        state.driver.dataReady = 0
  | _ => True

/-- Every outstanding request has a message counted for it. -/
structure Usage.Covered (usage : Usage) : Prop where
  bounded : usage.buffers.toNat ≤ virtioCustdevBuffers
  covered : usage.outstanding ≤ usage.buffers.toNat
  owed : usage.outstanding + usage.ready ≤ usage.waiting

/-- A request that gets posted finds a message counted for it. -/
def Usage.Covers (usage : Usage) : ClientStep → Prop
  | .readPost answer =>
      answer.allocated = true → answer.added = true → 0 < usage.buffers.toNat →
        usage.outstanding < usage.buffers.toNat
  | _ => True

theorem Usage.Covered.moves {before after : Usage} {action : ClientStep} (covered : before.Covered)
    (moves : before.Moves action after) (covers : before.Covers action) : after.Covered := by
  rcases covered with ⟨bounded, covered, owed⟩
  cases moves with
  | still => exact ⟨bounded, covered, owed⟩
  | write room =>
      simp only [virtioCustdevBuffers] at room
      have counted := Counter.toNat_add_one (show before.buffers.toNat + 1 < 2 ^ 32 by omega)
      refine ⟨?_, ?_, owed⟩
      · simp only [virtioCustdevBuffers]
        omega
      · simp only
        omega
  | readFail => exact ⟨bounded, covered, owed⟩
  | @readPost answer filled allocated =>
      cases added : answer.added with
      | false => exact ⟨bounded, covered, Nat.le_succ_of_le owed⟩
      | true =>
          have some_free := covers allocated added filled
          refine ⟨bounded, some_free, ?_⟩
          simp only [if_true]
          omega
  | readFinish waits signalled =>
      refine ⟨bounded, covered, ?_⟩
      simp only
      omega
  | inbufCb pending =>
      have counted := Counter.toNat_sub_one (show 0 < before.buffers.toNat by omega)
      refine ⟨?_, ?_, ?_⟩
      · simp only
        omega
      · simp only
        omega
      · simp only
        omega

/-- While a completed read has yet to copy its message out, the table is not full. -/
structure Usage.Ranged (usage : Usage) : Prop extends usage.Covered where
  settled : 0 < usage.ready → usage.buffers.toNat < virtioCustdevBuffers
  inside : ∀ index ∈ usage.lenUses, index < virtioCustdevBuffers

/-- The last slot is filled only when no completed read has yet to copy its message out. -/
def Usage.Spares (usage : Usage) : ClientStep → Prop
  | .write answer _ =>
      answer.allocated = true → usage.buffers.toNat + 1 = virtioCustdevBuffers → usage.ready = 0
  | _ => True

theorem Usage.Ranged.moves {before after : Usage} {action : ClientStep} (ranged : before.Ranged)
    (moves : before.Moves action after) (covers : before.Covers action)
    (spares : before.Spares action) : after.Ranged := by
  have covered := ranged.toCovered.moves moves covers
  rcases ranged with ⟨⟨bounded, paired, owed⟩, settled, inside⟩
  cases moves with
  | still => exact ⟨covered, settled, inside⟩
  | write room allocated =>
      refine ⟨covered, ?_, ?_⟩
      · intro ready
        have notLast : before.buffers.toNat + 1 ≠ virtioCustdevBuffers := by
          intro last
          exact absurd (spares allocated last) (Nat.ne_of_gt ready)
        have counted := Counter.toNat_add_one
          (show before.buffers.toNat + 1 < 2 ^ 32 by
            simp only [virtioCustdevBuffers] at room
            omega)
        simp only
        omega
      · intro index index_mem
        rcases List.mem_append.mp index_mem with old | new
        · exact inside index old
        · rw [List.mem_singleton.mp new]
          exact room
  | readFail filled =>
      refine ⟨covered, settled, ?_⟩
      intro index index_mem
      rcases List.mem_append.mp index_mem with old | new
      · exact inside index old
      · rw [List.mem_singleton.mp new, Counter.toNat_sub_one filled]
        omega
  | readPost filled =>
      refine ⟨covered, settled, ?_⟩
      intro index index_mem
      rcases List.mem_append.mp index_mem with old | new
      · exact inside index old
      · simp only [List.mem_cons, List.not_mem_nil, or_false, or_self] at new
        rw [new, Counter.toNat_sub_one filled]
        omega
  | readFinish _ signalled looked =>
      refine ⟨covered, fun _ => settled signalled, ?_⟩
      intro index index_mem
      rcases looked index index_mem with old | rfl
      · exact inside index old
      · exact settled signalled
  | inbufCb pending =>
      have counted := Counter.toNat_sub_one (show 0 < before.buffers.toNat by omega)
      refine ⟨covered, ?_, inside⟩
      intro _
      simp only
      omega

section Reachable

variable {beyond : ℕ → UInt8} {state : Clients}

theorem ranged_of_cautious (reachable : (clients beyond).Reachable cautious state) :
    state.usage.Ranged := by
  apply reachable.invariant
  · exact
      { bounded := Nat.zero_le _
        covered := Nat.le_refl _
        owed := Nat.le_refl _
        settled := fun ready => absurd ready (Nat.lt_irrefl _)
        inside := by simp [clients, Clients.usage, virtioCustdevProbe] }
  · intro before action after ranged permitted taken
    apply ranged.moves (usage_moves taken)
    · cases action with
      | readPost => exact permitted
      | _ => trivial
    · cases action with
      | write => exact permitted
      | _ => trivial

/-! ### What a breach of the discipline leads to -/

/-- As long as a request is outstanding, the device and the ring can bring about a callback. -/
theorem exists_callback (beyond : ℕ → UInt8) (pending : 0 < state.usage.outstanding) :
    ∃ steps next, (∀ action ∈ steps, action.Internal) ∧
      (clients beyond).run state steps = some next ∧
      next.driver.buffers = state.driver.buffers - 1 ∧
      next.usage.outstanding + 1 = state.usage.outstanding := by
  simp only [Clients.usage] at pending ⊢
  cases used : state.driver.vqRx.used with
  | cons first rest =>
      refine ⟨[.inbufCb], { state with driver := virtioCustdevInbufCb state.driver }, ?_, ?_, rfl,
        ?_⟩
      · simp [ClientStep.Internal]
      · simp [System.run, clients, Clients.inbufCb, used]
      · simp [virtioCustdevInbufCb, VirtQueue.getBuf, used]
        omega
  | nil =>
      cases avail : state.driver.vqRx.avail with
      | nil => simp [used, avail] at pending
      | cons vqe rest =>
          let driver := { state.driver with vqRx := { avail := rest, used := [⟨vqe, [], 0⟩] } }
          refine ⟨[.use 0 [] 0, .inbufCb], { state with driver := virtioCustdevInbufCb driver },
            ?_, ?_, rfl, ?_⟩
          · simp [ClientStep.Internal]
          · simp [System.run, clients, Clients.use, Clients.inbufCb, avail, used, VirtQueue.push,
              driver]
          · simp [virtioCustdevInbufCb, VirtQueue.getBuf, driver]

/-- With more requests outstanding than messages counted, the callbacks wrap the counter. -/
theorem exists_wrap (beyond : ℕ → UInt8) (state : Clients)
    (uncovered : state.driver.buffers.toNat < state.usage.outstanding) :
    ∃ steps last, (∀ action ∈ steps, action.Internal) ∧
      (clients beyond).run state steps = some last ∧ ¬last.usage.InRange := by
  induction counted : state.driver.buffers.toNat generalizing state with
  | zero =>
      rcases exists_callback beyond (Nat.lt_of_le_of_lt (Nat.zero_le _) uncovered) with
        ⟨steps, next, internal, ran, wrapped, _⟩
      refine ⟨steps, next, internal, ran, ?_⟩
      rintro ⟨bounded, _⟩
      simp only [Clients.usage, wrapped, Counter.toNat_sub_one_of_zero counted,
        virtioCustdevBuffers] at bounded
      omega
  | succ count ih =>
      rcases exists_callback beyond (Nat.lt_of_le_of_lt (Nat.zero_le _) uncovered) with
        ⟨steps, next, internal, ran, counted_down, collected⟩
      have fewer : next.driver.buffers.toNat = count := by
        rw [counted_down, Counter.toNat_sub_one (by omega)]
        omega
      rcases ih next (by omega) fewer with ⟨more, last, internal_more, ran_more, out⟩
      refine ⟨steps ++ more, last, ?_, ?_, out⟩
      · intro action action_mem
        rcases List.mem_append.mp action_mem with first | second
        · exact internal action first
        · exact internal_more action second
      · rw [System.run_append, ran, Option.bind_some, ran_more]

/-- A read posted without a message counted for it exposes the counter. -/
theorem uncovered_of_readPost {answer : ReadAnswer} (allocated : answer.allocated = true)
    (added : answer.added = true) (filled : 0 < state.driver.buffers.toNat)
    (breach : state.driver.buffers.toNat ≤ state.usage.outstanding) :
    (state.readPost answer).driver.buffers.toNat < (state.readPost answer).usage.outstanding := by
  simp only [Clients.usage] at breach
  rw [Clients.readPost, virtioCustdevReadPost_of_filled allocated filled]
  simp [Clients.usage, added, VirtQueue.add]
  omega

theorem exists_readFinish (beyond : ℕ → UInt8) (waits : 0 < state.waiting)
    (ready : 0 < state.driver.dataReady) :
    ∃ after, state.readFinish beyond 0 = some after ∧
      state.driver.buffers.toNat ∈ after.driver.lenUses := by
  let driver := { state.driver with dataReady := state.driver.dataReady - 1 }
  have found := @mem_lenUses_virtioCustdevReadFinish driver beyond 0
  have finished : state.readFinish beyond 0 = some
      { driver := (virtioCustdevReadFinish beyond 0 driver).vcust
        waiting := state.waiting - 1 } := by
    simp [Clients.readFinish, waits, ready, driver]
  exact ⟨_, finished, found⟩

/-- A write into the last slot lets a completed read look behind the table. -/
theorem exists_outside_of_write {answer : WriteAnswer} (data : List UInt8) (beyond : ℕ → UInt8)
    (allocated : answer.allocated = true)
    (last : state.driver.buffers.toNat + 1 = virtioCustdevBuffers)
    (waits : 0 < state.waiting) (ready : 0 < state.driver.dataReady) :
    ∃ after, (state.write answer data).readFinish beyond 0 = some after ∧
      ¬after.usage.InRange := by
  have room : state.driver.buffers.toNat < virtioCustdevBuffers := by omega
  have written := (virtioCustdevWrite_of_room data allocated room).2
  have full : (state.write answer data).driver.buffers.toNat = virtioCustdevBuffers := by
    simp only [virtioCustdevBuffers] at last
    rw [Clients.write, written, Counter.toNat_add_one (by omega), last, virtioCustdevBuffers]
  have stillReady : 0 < (state.write answer data).driver.dataReady := by
    rw [Clients.write, written]
    exact ready
  have stillWaits : 0 < (state.write answer data).waiting := waits
  rcases exists_readFinish beyond stillWaits stillReady with ⟨after, finished, looked⟩
  refine ⟨after, finished, ?_⟩
  rintro ⟨_, inside⟩
  have outside := inside _ looked
  rw [full] at outside
  exact absurd outside (Nat.lt_irrefl _)

/--
In every run of clients that keep the discipline, the counter and every index stay in range; and
from a state of such a run, a client that breaches it leaves the driver in a state from which the
device, the callback and the return of reads alone can take one of them out of range.
-/
theorem inRange_of_cautious (beyond : ℕ → UInt8) :
    (∀ state, (clients beyond).Reachable cautious state → state.usage.InRange) ∧
    ∀ state action next, (clients beyond).Reachable cautious state → ¬cautious state action →
      (clients beyond).step state action = some next →
      ∃ steps last, (∀ action ∈ steps, action.Internal) ∧
        (clients beyond).run next steps = some last ∧ ¬last.usage.InRange := by
  constructor
  · intro state reachable
    have ranged := ranged_of_cautious reachable
    exact ⟨ranged.bounded, ranged.inside⟩
  · intro state action next reachable breach taken
    cases action with
    | readPost answer =>
        simp only [cautious, Classical.not_imp, Nat.not_lt] at breach
        rcases breach with ⟨allocated, added, filled, breach⟩
        cases Option.some.inj taken
        exact exists_wrap beyond _ (uncovered_of_readPost allocated added filled breach)
    | write answer data =>
        simp only [cautious, Classical.not_imp] at breach
        rcases breach with ⟨allocated, last, ready⟩
        have owed := (ranged_of_cautious reachable).owed
        simp only [Clients.usage] at owed
        cases Option.some.inj taken
        rcases exists_outside_of_write data beyond allocated last (by omega) (by omega) with
          ⟨after, finished, out⟩
        refine ⟨[.readFinish 0], after, by simp [ClientStep.Internal], ?_, out⟩
        simp [System.run, clients, finished]
    | _ => exact absurd trivial breach

theorem inRange_of_cautious_one : ∃ state : Clients,
    state.driver.lenUses = [0, 0, 0, 0, 0] ∧ state.usage.InRange := by
  have follows : ∃ state, (clients fun _ => 0).Follows cautious {}
      [.write {} [7], .readPost {}, .use 0 [7] 1, .inbufCb, .readFinish 0] state ∧
        state.driver.lenUses = [0, 0, 0, 0, 0] :=
    ⟨_, ⟨fun _ _ => rfl, _, rfl, fun _ _ _ => Nat.one_pos, _, rfl, trivial, _, rfl,
      trivial, _, rfl, trivial, _, rfl, rfl⟩, rfl⟩
  rcases follows with ⟨state, follows, looked⟩
  exact ⟨state, looked,
    (inRange_of_cautious fun _ => 0).1 state (System.Reachable.initial.follows follows)⟩

/-- Two readers that both pass the check for one message take the counter below zero. -/
theorem counter_wraps : ¬∀ state, (clients fun _ => 0).Reachable anyAction state →
    state.usage.InRange := by
  intro inRange
  have follows : ∃ state, (clients fun _ => 0).Follows anyAction {}
      [.write {} [7], .readPost {}, .readPost {}, .use 0 [7] 1, .use 0 [7] 1, .inbufCb, .inbufCb]
        state ∧ state.driver.buffers = 0xffffffff :=
    ⟨_, ⟨trivial, _, rfl, trivial, _, rfl, trivial, _, rfl, trivial, _, rfl, trivial, _, rfl,
      trivial, _, rfl, trivial, _, rfl, rfl⟩, rfl⟩
  rcases follows with ⟨state, follows, wrapped⟩
  have bounded := (inRange state (System.Reachable.initial.follows follows)).1
  simp [Clients.usage, wrapped, virtioCustdevBuffers] at bounded

end Reachable

end VirtLearn.Virtio
