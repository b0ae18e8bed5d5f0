import VirtLearn.Virtio.Clients
import VirtLearn.Virtio.Link

/-!
# Clients, device and callbacks interleaved

The two queues are separate channels, so the device may serve their notifications in any order
and the callbacks come whenever they come. `interleaving` takes every step the parties can take;
what holds of all clients, or of one client that blocks in each call, is a matter of the
condition under which its reachable states are considered. The device of this repository is one
of the devices `clients` allows (`clients_of_reachable`).
-/

namespace VirtLearn.Virtio

/--
Clients and device, for each inbuf request available the value `buffers` had then, and how many
writes have counted a request that the queue then refused.
-/
structure Interleaved where
  clients : Clients := {}
  device : VirtIOCustdev := virtioCustdevDeviceRealize
  posted : List (BitVec 32) := []
  refused : ℕ := 0

/-- One step of a client, of the device or of an interrupt. -/
inductive Step where
  | write (answer : WriteAnswer) (data : List UInt8)
  | readPost (answer : ReadAnswer)
  | readFinish (uncopied : ℕ)
  | handleOutbuf (status : QueueStatus)
  | handleInbuf (status : QueueStatus)
  | outbufCb
  | inbufCb

namespace Interleaved

def driver (state : Interleaved) : VirtioCustomDevice :=
  state.clients.driver

def link (state : Interleaved) : Link :=
  { driver := state.driver, device := state.device }

def setLink (state : Interleaved) (link : Link) : Interleaved :=
  { state with
    clients := { state.clients with driver := link.driver }
    device := link.device }

/--
A write. `virtio_custdev_write` has counted the buffer when it calls `virtqueue_add_outbuf`, and
it drops the result of that call.
-/
def write (answer : WriteAnswer) (data : List UInt8) (state : Interleaved) : Interleaved :=
  { state with
    clients := state.clients.write answer data
    refused :=
      if state.driver.buffers.toNat < virtioCustdevBuffers ∧ answer.allocated ∧ !answer.added then
        state.refused + 1
      else state.refused }

/-- A read up to its wait; the ghost list follows the requests made available. -/
def readPost (answer : ReadAnswer) (state : Interleaved) : Interleaved :=
  { state with
    clients := state.clients.readPost answer
    posted :=
      match (virtioCustdevReadPost answer state.driver).1 with
      | .returned _ => state.posted
      | .waiting =>
          if answer.added then state.posted ++ [state.driver.buffers] else state.posted }

/-- The inbuf handler; past its early returns the oldest request is answered. -/
def handleInbuf (beyond : ℕ → UInt8) (status : QueueStatus) (state : Interleaved) :
    Option Interleaved :=
  (state.link.serveInbuf beyond status).map fun link =>
    { state.setLink link with
      posted := if status.up then state.posted.tail else state.posted }

end Interleaved

def interleaving (beyond : ℕ → UInt8) : System Interleaved Step where
  initial := {}
  step state
    | .write answer data => some (state.write answer data)
    | .readPost answer => some (state.readPost answer)
    | .readFinish uncopied =>
        (state.clients.readFinish beyond uncopied).map fun clients => { state with clients }
    | .handleOutbuf status => (state.link.serveOutbuf status).map state.setLink
    | .handleInbuf status => state.handleInbuf beyond status
    | .outbufCb => some { state with clients := state.clients.outbufCb }
    | .inbufCb => state.clients.inbufCb.map fun clients => { state with clients }

/-! ### What a step does to the counts -/

/-- What the parties count and what is in flight between them. -/
structure Ledger where
  /-- `driver.buffers` -/
  buffers : BitVec 32
  /-- `device.rcv_count` -/
  rcvCount : BitVec 32
  /-- Outbuf requests not yet popped by the device. -/
  sent : ℕ
  /-- Outbuf requests that were counted and never queued. -/
  refused : ℕ
  /-- Inbuf requests not yet popped by the device. -/
  asked : ℕ
  /-- Inbuf requests used by the device and not yet collected by the driver. -/
  answered : ℕ
  /-- Completions signalled and not yet waited for. -/
  ready : ℕ
  /-- Reads between their request and their return. -/
  waiting : ℕ
  /-- The value of `buffers` when each inbuf request was made. -/
  posted : List (BitVec 32)

def Interleaved.ledger (state : Interleaved) : Ledger where
  buffers := state.driver.buffers
  rcvCount := state.device.rcvCount
  sent := state.driver.vqTx.avail.length
  refused := state.refused
  asked := state.driver.vqRx.avail.length
  answered := state.driver.vqRx.used.length
  ready := state.driver.dataReady
  waiting := state.clients.waiting
  posted := state.posted

/-- The step leaves the counts alone, or it is one of the six ways to move a message on. -/
inductive Ledger.Moves (before : Ledger) : Step → Ledger → Prop where
  | still (action : Step) : Moves before action before
  | write {answer : WriteAnswer} {data : List UInt8}
      (room : before.buffers.toNat < virtioCustdevBuffers) (allocated : answer.allocated = true) :
      Moves before (.write answer data)
        { before with
          buffers := before.buffers + 1
          sent := if answer.added then before.sent + 1 else before.sent
          refused := if answer.added then before.refused else before.refused + 1 }
  | readPost {answer : ReadAnswer} (filled : 0 < before.buffers.toNat)
      (allocated : answer.allocated = true) :
      Moves before (.readPost answer)
        { before with
          asked := if answer.added then before.asked + 1 else before.asked
          waiting := before.waiting + 1
          posted := if answer.added then before.posted ++ [before.buffers] else before.posted }
  | readFinish {uncopied : ℕ} (waits : 0 < before.waiting) (signalled : 0 < before.ready) :
      Moves before (.readFinish uncopied)
        { before with ready := before.ready - 1, waiting := before.waiting - 1 }
  | handleOutbuf {status : QueueStatus} {sent : ℕ} (up : status.up = true)
      (pending : before.sent = sent + 1) :
      Moves before (.handleOutbuf status)
        { before with rcvCount := before.rcvCount + 1, sent }
  | handleInbuf {status : QueueStatus} {asked : ℕ} (up : status.up = true)
      (pending : before.asked = asked + 1) :
      Moves before (.handleInbuf status)
        { before with
          rcvCount := before.rcvCount - 1
          asked
          answered := before.answered + 1
          posted := before.posted.tail }
  | inbufCb {answered : ℕ} (pending : before.answered = answered + 1) :
      Moves before .inbufCb
        { before with
          buffers := before.buffers - 1
          answered
          ready := before.ready + 1 }

section Moves

variable {beyond : ℕ → UInt8} {before after : Interleaved}

theorem moves_write (answer : WriteAnswer) (data : List UInt8) (state : Interleaved) :
    state.ledger.Moves (.write answer data) (state.write answer data).ledger := by
  by_cases full : virtioCustdevBuffers ≤ state.clients.driver.buffers.toNat
  · have counted : ¬state.driver.buffers.toNat < virtioCustdevBuffers := Nat.not_lt.mpr full
    simp only [Interleaved.write, Clients.write, virtioCustdevWrite_of_full answer data full,
      counted, false_and, if_false]
    exact .still _
  · have room : state.clients.driver.buffers.toNat < virtioCustdevBuffers := by omega
    cases allocated : answer.allocated with
    | false =>
        have same : (virtioCustdevWrite answer data state.clients.driver).vcust =
            state.clients.driver := by
          simp [virtioCustdevWrite, full, allocated]
        simp only [Interleaved.write, Clients.write, same, allocated, Bool.false_eq_true,
          false_and, and_false, if_false]
        exact .still _
    | true =>
        have move : state.ledger.Moves (.write answer data) _ := .write room allocated
        rw [Interleaved.write, Clients.write, (virtioCustdevWrite_of_room data allocated room).2]
        cases added : answer.added <;>
          simpa [Interleaved.ledger, Interleaved.driver, added, allocated, room, VirtQueue.add]
            using move

theorem moves_readPost (answer : ReadAnswer) (state : Interleaved) :
    state.ledger.Moves (.readPost answer) (state.readPost answer).ledger := by
  by_cases empty : state.clients.driver.buffers.toNat = 0
  · simp only [Interleaved.readPost, Clients.readPost, Interleaved.driver,
      virtioCustdevReadPost_of_empty answer empty]
    exact .still _
  · have filled : 0 < state.clients.driver.buffers.toNat := by omega
    cases allocated : answer.allocated with
    | false =>
        simp only [Interleaved.readPost, Clients.readPost, Interleaved.driver,
          virtioCustdevReadPost_of_unallocated allocated filled]
        exact .still _
    | true =>
        have move : state.ledger.Moves (.readPost answer) _ := .readPost filled allocated
        simp only [Interleaved.readPost, Clients.readPost, Interleaved.driver,
          virtioCustdevReadPost_of_filled allocated filled]
        cases added : answer.added <;>
          simpa [Interleaved.ledger, Interleaved.driver, added, VirtQueue.add] using move

theorem moves_readFinish {uncopied : ℕ} {clients : Clients}
    (finished : before.clients.readFinish beyond uncopied = some clients) :
    before.ledger.Moves (.readFinish uncopied) { before with clients }.ledger := by
  rw [Clients.readFinish] at finished
  split at finished
  case isTrue enabled =>
    cases Option.some.inj finished
    have move : before.ledger.Moves (.readFinish uncopied) _ := .readFinish enabled.1 enabled.2
    simpa [Interleaved.ledger, Interleaved.driver] using move
  case isFalse => cases finished

theorem moves_handleOutbuf {status : QueueStatus} {link : Link}
    (served : before.link.serveOutbuf status = some link) :
    before.ledger.Moves (.handleOutbuf status) (before.setLink link).ledger := by
  rcases Link.serveOutbuf_cases served with ⟨_, rfl⟩ | ⟨vqe, rest, up, avail, rfl⟩
  · exact .still _
  · have pending : before.ledger.sent = rest.length + 1 := by
      rw [Interleaved.ledger, ← List.length_cons, ← avail, Interleaved.link]
    have move : before.ledger.Moves (.handleOutbuf status) _ := .handleOutbuf up pending
    exact move

theorem moves_handleInbuf {status : QueueStatus}
    (handled : before.handleInbuf beyond status = some after) :
    before.ledger.Moves (.handleInbuf status) after.ledger := by
  rcases Option.map_eq_some_iff.mp handled with ⟨link, served, rfl⟩
  rcases Link.serveInbuf_cases served with ⟨down, rfl⟩ | ⟨vqe, rest, up, avail, rfl⟩
  · simp only [down]
    exact .still _
  · have pending : before.ledger.asked = rest.length + 1 := by
      rw [Interleaved.ledger, ← List.length_cons, ← avail, Interleaved.link]
    have move : before.ledger.Moves (.handleInbuf status) _ := .handleInbuf up pending
    simpa [Interleaved.ledger, Interleaved.driver, Interleaved.link, Interleaved.setLink, up]
      using move

theorem moves_inbufCb {clients : Clients} (collected : before.clients.inbufCb = some clients) :
    before.ledger.Moves .inbufCb { before with clients }.ledger := by
  rw [Clients.inbufCb] at collected
  split at collected
  case isTrue => cases collected
  case isFalse answered =>
    cases Option.some.inj collected
    cases used : before.clients.driver.vqRx.used with
    | nil => exact absurd used answered
    | cons first rest =>
        have pending : before.ledger.answered = rest.length + 1 := by
          simp [Interleaved.ledger, Interleaved.driver, used]
        have move : before.ledger.Moves .inbufCb _ := .inbufCb pending
        simpa [Interleaved.ledger, Interleaved.driver, virtioCustdevInbufCb, VirtQueue.getBuf,
          used] using move

theorem ledger_moves {action : Step}
    (taken : (interleaving beyond).step before action = some after) :
    before.ledger.Moves action after.ledger := by
  cases action with
  | write answer data =>
      cases Option.some.inj taken
      exact moves_write answer data before
  | readPost answer =>
      cases Option.some.inj taken
      exact moves_readPost answer before
  | readFinish uncopied =>
      rcases Option.map_eq_some_iff.mp taken with ⟨clients, finished, rfl⟩
      exact moves_readFinish finished
  | handleOutbuf status =>
      rcases Option.map_eq_some_iff.mp taken with ⟨link, served, rfl⟩
      exact moves_handleOutbuf served
  | handleInbuf status => exact moves_handleInbuf taken
  | outbufCb =>
      cases Option.some.inj taken
      have same : { before with clients := before.clients.outbufCb }.ledger = before.ledger := by
        cases used : before.clients.driver.vqTx.used <;>
          simp [Interleaved.ledger, Interleaved.driver, Clients.outbufCb, virtioCustdevOutbufCb,
            VirtQueue.getBuf, used]
      rw [same]
      exact .still _
  | inbufCb =>
      rcases Option.map_eq_some_iff.mp taken with ⟨clients, collected, rfl⟩
      exact moves_inbufCb collected

/-! ### The device among all devices -/

theorem clients_of_step {action : Step}
    (taken : (interleaving beyond).step before action = some after) :
    after.clients = before.clients ∨
      ∃ step, (clients beyond).step before.clients step = some after.clients := by
  cases action with
  | write answer data =>
      cases Option.some.inj taken
      exact Or.inr ⟨.write answer data, rfl⟩
  | readPost answer =>
      cases Option.some.inj taken
      exact Or.inr ⟨.readPost answer, rfl⟩
  | readFinish uncopied =>
      rcases Option.map_eq_some_iff.mp taken with ⟨_, finished, rfl⟩
      exact Or.inr ⟨.readFinish uncopied, finished⟩
  | handleOutbuf status =>
      rcases Option.map_eq_some_iff.mp taken with ⟨link, served, rfl⟩
      rcases Link.serveOutbuf_cases served with ⟨_, rfl⟩ | ⟨vqe, rest, _, avail, rfl⟩
      · exact Or.inl rfl
      · have queued : before.clients.driver.vqTx.avail = vqe :: rest := avail
        right
        refine ⟨.useOutbuf, ?_⟩
        simp [clients, Clients.useOutbuf, VirtQueue.pop, queued, VirtQueue.push,
          Interleaved.setLink, Interleaved.link, Interleaved.driver]
  | handleInbuf status =>
      rcases Option.map_eq_some_iff.mp taken with ⟨link, served, rfl⟩
      rcases Link.serveInbuf_cases served with ⟨_, rfl⟩ | ⟨vqe, rest, _, avail, rfl⟩
      · exact Or.inl rfl
      · have queued : before.clients.driver.vqRx.avail = vqe :: rest := avail
        right
        refine ⟨.use 0 (before.device.answer beyond vqe) vqe.inIovLen, ?_⟩
        simp [clients, Clients.use, queued, VirtQueue.push, Interleaved.setLink,
          Interleaved.link, Interleaved.driver]
  | outbufCb =>
      cases Option.some.inj taken
      exact Or.inr ⟨.outbufCb, rfl⟩
  | inbufCb =>
      rcases Option.map_eq_some_iff.mp taken with ⟨_, collected, rfl⟩
      exact Or.inr ⟨.inbufCb, collected⟩

/-- Every state the clients see with this device is one they can see with some device. -/
theorem clients_of_reachable {allowed : Interleaved → Step → Prop} {state : Interleaved}
    (reachable : (interleaving beyond).Reachable allowed state) :
    (clients beyond).Reachable anyAction state.clients := by
  apply reachable.invariant
  · exact .initial
  · intro before action after seen _ taken
    rcases clients_of_step taken with same | ⟨step, stepped⟩
    · rw [same]
      exact seen
    · exact seen.step trivial stepped

end Moves

end VirtLearn.Virtio
