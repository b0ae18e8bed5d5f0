import VirtLearn.Virtio.Clients
import VirtLearn.Virtio.MessageBuffers

/-!
# What the file operations tell their callers

A caller of `virtio_custdev_write` learns from the value returned whether its message is on its
way. The function has four points of failure: two of them return a positive number, one is not
looked at, and the message is counted before the last (`tellsTruth_iff`).

A caller of `virtio_custdev_read` says how much room there is in its buffer. The function never
looks at that number; how much it copies was decided by whoever wrote the message
(`reads_respect_count`).
-/

namespace VirtLearn.Virtio

/-! ### Writes -/

/-- One message of this length is new in the transmit queue, in `buffers` and in `buf_lens`. -/
structure AddsMessage (before after : VirtioCustomDevice) (length : ℕ) : Prop where
  queued : ∃ vqe : VirtQueueElement, vqe.message.length = length ∧
    after.vqTx = before.vqTx.add vqe
  counted : after.buffers.toNat = before.buffers.toNat + 1
  stored : after.lenAt before.buffers.toNat = length
  kept : ∀ index, index ≠ before.buffers.toNat → after.lenAt index = before.lenAt index

/-- A positive result is the length of the one message added; any other adds none. -/
def TellsTruth (before : VirtioCustomDevice) (result : WriteResult) : Prop :=
  if 0 < result.ret then ∃ length : ℕ, result.ret = length ∧ AddsMessage before result.vcust length
  else result.vcust.buffers = before.buffers ∧ result.vcust.vqTx = before.vqTx

section Writes

variable {answer : WriteAnswer} {data : List UInt8} {vcust : VirtioCustomDevice}

theorem virtioCustdevWrite_of_unallocated (room : vcust.buffers.toNat < virtioCustdevBuffers)
    (unallocated : answer.allocated = false) :
    virtioCustdevWrite answer data vcust = { ret := 1, kicked := false, vcust } := by
  simp [virtioCustdevWrite, Nat.not_le_of_lt room, unallocated]

theorem ret_virtioCustdevWrite_of_room (room : vcust.buffers.toNat < virtioCustdevBuffers)
    (allocated : answer.allocated = true) :
    (virtioCustdevWrite answer data vcust).ret =
      (BitVec.ofNat 64 (data.length - answer.uncopied)).toInt := by
  simp [virtioCustdevWrite, Nat.not_le_of_lt room, allocated]

theorem buffers_virtioCustdevWrite_of_room (room : vcust.buffers.toNat < virtioCustdevBuffers)
    (allocated : answer.allocated = true) :
    (virtioCustdevWrite answer data vcust).vcust.buffers.toNat = vcust.buffers.toNat + 1 := by
  rw [(virtioCustdevWrite_of_room data allocated room).2]
  simp only [virtioCustdevBuffers] at room
  exact Counter.toNat_add_one (by omega)

theorem length_add_ne (vq : VirtQueue) (vqe : VirtQueueElement) : vq ≠ vq.add vqe := by
  intro same
  have lengths := congrArg (fun vq => vq.avail.length) same
  simp [VirtQueue.add] at lengths

/-- The message that a write queues is the part of the data whose length fits an `unsigned`. -/
theorem length_queued (data : List UInt8) (uncopied : ℕ) :
    ((data.take (data.length - uncopied)).take ((data.length - uncopied) % 2 ^ 32)).length =
      (data.length - uncopied) % 2 ^ 32 := by
  have cut := Nat.mod_le (data.length - uncopied) (2 ^ 32)
  rw [List.length_take, List.length_take]
  omega

theorem addsMessage_virtioCustdevWrite (room : vcust.buffers.toNat < virtioCustdevBuffers)
    (allocated : answer.allocated = true) (added : answer.added = true)
    (short : data.length - answer.uncopied < 2 ^ 32) :
    AddsMessage vcust (virtioCustdevWrite answer data vcust).vcust
      (data.length - answer.uncopied) where
  queued := by
    refine ⟨_, ?_, by rw [(virtioCustdevWrite_of_room data allocated room).2, added, if_pos rfl]⟩
    rw [VirtQueueElement.message, List.flatten_singleton, length_queued, Nat.mod_eq_of_lt short]
  counted := buffers_virtioCustdevWrite_of_room room allocated
  stored := by
    rw [(virtioCustdevWrite_of_room data allocated room).2]
    simp only [VirtioCustomDevice.lenAt, Function.update_self, BitVec.toNat_ofNat]
    exact Nat.mod_eq_of_lt short
  kept := by
    intro index other
    rw [(virtioCustdevWrite_of_room data allocated room).2]
    simp [VirtioCustomDevice.lenAt, Function.update_of_ne other]

/-- A message counted with a positive result is a short one that the ring has taken. -/
theorem short_of_addsMessage {length : ℕ} (room : vcust.buffers.toNat < virtioCustdevBuffers)
    (allocated : answer.allocated = true)
    (adds : AddsMessage vcust (virtioCustdevWrite answer data vcust).vcust length) :
    answer.added = true ∧ length < 2 ^ 32 := by
  have stored := adds.stored
  refine ⟨?_, stored ▸ BitVec.isLt _⟩
  by_contra refused
  rcases adds.queued with ⟨vqe, _, queued⟩
  rw [(virtioCustdevWrite_of_room data allocated room).2] at queued
  simp only [refused, if_false] at queued
  exact length_add_ne _ _ queued

theorem toInt_ofNat_of_lt {count : ℕ} (small : count < 2 ^ 63) :
    (BitVec.ofNat 64 count).toInt = count := by
  rw [BitVec.toInt_eq_toNat_cond, BitVec.toNat_ofNat, Nat.mod_eq_of_lt (by omega)]
  rw [if_pos (by omega)]

theorem toInt_ofNat_of_le {count : ℕ} (large : 2 ^ 63 ≤ count) (inWord : count < 2 ^ 64) :
    (BitVec.ofNat 64 count).toInt < 0 := by
  rw [BitVec.toInt_eq_toNat_cond, BitVec.toNat_ofNat, Nat.mod_eq_of_lt inWord]
  rw [if_neg (by omega)]
  omega

/--
For every state of the driver, every count and every outcome of the calls on the way, the result
of a write tells the truth if and only if a slot was free, the memory was allocated, the ring took
the message, and the bytes copied are at least one and fewer than `2 ^ 32`.
-/
theorem tellsTruth_iff (answer : WriteAnswer) (vcust : VirtioCustomDevice)
    (counted : data.length < 2 ^ 64) :
    TellsTruth vcust (virtioCustdevWrite answer data vcust) ↔
      vcust.buffers.toNat < virtioCustdevBuffers ∧ answer.allocated = true ∧
        answer.added = true ∧ 0 < data.length - answer.uncopied ∧
        data.length - answer.uncopied < 2 ^ 32 := by
  constructor
  · intro truth
    by_cases room : vcust.buffers.toNat < virtioCustdevBuffers
    · cases allocated : answer.allocated with
      | false =>
          -- the caller is told that one byte was written
          rw [virtioCustdevWrite_of_unallocated room allocated, TellsTruth,
            if_pos Int.one_pos] at truth
          rcases truth with ⟨_, _, adds⟩
          have grown := adds.counted
          simp at grown
      | true =>
          have grown := @buffers_virtioCustdevWrite_of_room _ data _ room allocated
          rw [TellsTruth, ret_virtioCustdevWrite_of_room room allocated] at truth
          split at truth
          case isFalse =>
            rw [truth.1] at grown
            simp at grown
          case isTrue positive =>
            rcases truth with ⟨length, same, adds⟩
            rcases short_of_addsMessage room allocated adds with ⟨added, short⟩
            have small : data.length - answer.uncopied < 2 ^ 63 := by
              by_contra large
              have negative := toInt_ofNat_of_le (Nat.not_lt.mp large) (by omega)
              omega
            rw [toInt_ofNat_of_lt small] at same positive
            exact ⟨room, rfl, added, by omega, by omega⟩
    · -- the caller is told that 28 bytes were written
      rw [virtioCustdevWrite_of_full answer data (Nat.not_lt.mp room), TellsTruth,
        if_pos (by simp [enospc])] at truth
      rcases truth with ⟨_, _, adds⟩
      have grown := adds.counted
      simp at grown
  · rintro ⟨room, allocated, added, some_copied, short⟩
    have told := @ret_virtioCustdevWrite_of_room _ data _ room allocated
    rw [toInt_ofNat_of_lt (by omega)] at told
    rw [TellsTruth, told, if_pos (by omega)]
    exact ⟨_, rfl, addsMessage_virtioCustdevWrite room allocated added short⟩

theorem tellsTruth_of_byte : TellsTruth {} (virtioCustdevWrite {} [7] {}) :=
  (tellsTruth_iff {} {} (by decide)).mpr (by decide)

/-- A write into a full table returns 28, the number of bytes of a message that is not there. -/
theorem not_tellsTruth_of_full :
    ¬TellsTruth { buffers := 1024 } (virtioCustdevWrite {} [7] { buffers := 1024 }) := by
  rw [TellsTruth, if_pos (by decide)]
  rintro ⟨length, _, adds⟩
  have grown := adds.counted
  revert grown
  decide

end Writes

/-! ### Reads -/

/-- The shared driver device, each of whose steps carries a `count`, that of the read it is of. -/
def countedClients (beyond : ℕ → UInt8) : System Clients (ClientStep × ℕ) where
  initial := (clients beyond).initial
  step state action := (clients beyond).step state action.1

/-- A read waits and has been signalled. -/
def Clients.Resumes (state : Clients) : Prop :=
  0 < state.waiting ∧ 0 < state.driver.dataReady

/-- The outcome of a read that resumes. -/
def Clients.finished (beyond : ℕ → UInt8) (uncopied : ℕ) (state : Clients) : ReadResult :=
  virtioCustdevReadFinish beyond uncopied
    { state.driver with dataReady := state.driver.dataReady - 1 }

/-- Where the step is one of a read, what the user gets is at most what was asked for. -/
def RespectsCount (beyond : ℕ → UInt8) (state : Clients) : ClientStep × ℕ → Prop
  | (.readPost answer, count) =>
      ∀ ret, (virtioCustdevReadPost answer state.driver).1 = .returned ret → ret ≤ count
  | (.readFinish uncopied, count) =>
      state.Resumes →
        (state.finished beyond uncopied).copied.length ≤ count ∧
          (state.finished beyond uncopied).ret ≤ count
  | _ => True

/-- A read that resumes has room for the entry of `buf_lens` that the counter leads to. -/
def FitsCount (state : Clients) : ClientStep × ℕ → Prop
  | (.readFinish uncopied, count) =>
      state.Resumes → state.driver.lenAt state.driver.buffers.toNat ≤ count + uncopied
  | _ => True

/-- Every write of the steps copies at most `limit` bytes and every read asks for that many. -/
def WritesWithin (limit : ℕ) (steps : List (ClientStep × ℕ)) : Prop :=
  ∀ step ∈ steps,
    match step with
    | (.write answer data, _) => data.length - answer.uncopied ≤ limit
    | (.readFinish _, count) => limit ≤ count
    | _ => True

section Reads

variable {beyond : ℕ → UInt8} {state after : Clients}

theorem readFinish_of_resumes {uncopied : ℕ} (resumes : state.Resumes) :
    state.readFinish beyond uncopied =
      some { driver := (state.finished beyond uncopied).vcust, waiting := state.waiting - 1 } :=
  if_pos resumes

/-- Before it waits, a read returns 0 or an error. -/
theorem ret_virtioCustdevReadPost {answer : ReadAnswer} {vcust : VirtioCustomDevice} {ret : ℤ}
    (returned : (virtioCustdevReadPost answer vcust).1 = .returned ret) : ret ≤ 0 := by
  by_cases empty : vcust.buffers.toNat = 0
  · rw [virtioCustdevReadPost_of_empty answer empty] at returned
    cases returned
    exact le_refl 0
  · have filled : 0 < vcust.buffers.toNat := Nat.pos_of_ne_zero empty
    cases allocated : answer.allocated with
    | false =>
        rw [virtioCustdevReadPost_of_unallocated allocated filled] at returned
        cases returned
        decide
    | true =>
        rw [virtioCustdevReadPost_of_filled allocated filled] at returned
        cases returned

theorem respectsCount_iff_fitsCount (beyond : ℕ → UInt8) (state : Clients)
    (step : ClientStep × ℕ) : RespectsCount beyond state step ↔ FitsCount state step := by
  rcases step with ⟨action, count⟩
  cases action with
  | readPost answer =>
      refine ⟨fun _ => trivial, ?_⟩
      intro _ ret returned
      have bounded := ret_virtioCustdevReadPost returned
      omega
  | readFinish uncopied =>
      have lengths := @lengths_virtioCustdevReadFinish
        { state.driver with dataReady := state.driver.dataReady - 1 } beyond uncopied
      have entry : VirtioCustomDevice.lenAt
          { state.driver with dataReady := state.driver.dataReady - 1 }
            state.driver.buffers.toNat = state.driver.lenAt state.driver.buffers.toNat := rfl
      simp only [entry] at lengths
      rw [RespectsCount, FitsCount, Clients.finished, lengths.1, lengths.2]
      constructor
      · intro respects resumes
        have bounded := (respects resumes).1
        omega
      · intro fits resumes
        have bounded := fits resumes
        omega
  | _ => exact Iff.rfl

/-- The correction of a partial copy only lowers an entry of `buf_lens`. -/
theorem lenAt_virtioCustdevReadFinish_le (beyond : ℕ → UInt8) (uncopied : ℕ)
    (vcust : VirtioCustomDevice) (index : ℕ) :
    (virtioCustdevReadFinish beyond uncopied vcust).vcust.lenAt index ≤ vcust.lenAt index := by
  by_cases current : index = vcust.buffers.toNat
  · have lengths := @lengths_virtioCustdevReadFinish vcust beyond uncopied
    have told : (virtioCustdevReadFinish beyond uncopied vcust).ret =
        (virtioCustdevReadFinish beyond uncopied vcust).vcust.lenAt vcust.buffers.toNat := rfl
    rw [current]
    omega
  · simp only [virtioCustdevReadFinish]
    split
    · simp [VirtioCustomDevice.noteLen, VirtioCustomDevice.lenAt, Function.update_of_ne current]
    · exact Nat.le_refl _

theorem lenAt_virtioCustdevWrite_le (answer : WriteAnswer) (data : List UInt8)
    (vcust : VirtioCustomDevice) (index : ℕ) :
    (virtioCustdevWrite answer data vcust).vcust.lenAt index ≤
      max (data.length - answer.uncopied) (vcust.lenAt index) := by
  by_cases room : vcust.buffers.toNat < virtioCustdevBuffers
  · cases allocated : answer.allocated with
    | false =>
        rw [virtioCustdevWrite_of_unallocated room allocated]
        exact Nat.le_max_right _ _
    | true =>
        rw [(virtioCustdevWrite_of_room data allocated room).2]
        simp only [VirtioCustomDevice.lenAt]
        by_cases written : index = vcust.buffers.toNat
        · rw [written, Function.update_self, BitVec.toNat_ofNat]
          exact le_trans (Nat.mod_le _ _) (Nat.le_max_left _ _)
        · rw [Function.update_of_ne written]
          exact Nat.le_max_right _ _
  · rw [virtioCustdevWrite_of_full answer data (Nat.not_lt.mp room)]
    exact Nat.le_max_right _ _

theorem bufLens_readPost (answer : ReadAnswer) (state : Clients) :
    (state.readPost answer).driver.bufLens = state.driver.bufLens := by
  by_cases empty : state.driver.buffers.toNat = 0
  · rw [Clients.readPost, virtioCustdevReadPost_of_empty answer empty]
  · have filled : 0 < state.driver.buffers.toNat := Nat.pos_of_ne_zero empty
    cases allocated : answer.allocated with
    | false =>
        rw [Clients.readPost, virtioCustdevReadPost_of_unallocated allocated filled]
        rfl
    | true => rw [Clients.readPost, virtioCustdevReadPost_of_filled allocated filled]

/-- Only a write raises an entry of `buf_lens`, and to no more than its own length. -/
theorem lenAt_le_of_step {limit : ℕ} {action : ClientStep}
    (within : ∀ answer data, action = .write answer data → data.length - answer.uncopied ≤ limit)
    (bounded : ∀ index, state.driver.lenAt index ≤ limit)
    (taken : (clients beyond).step state action = some after) (index : ℕ) :
    after.driver.lenAt index ≤ limit := by
  have before := bounded index
  cases action with
  | write answer data =>
      cases Option.some.inj taken
      apply le_trans (lenAt_virtioCustdevWrite_le answer data state.driver index)
      exact max_le (within answer data rfl) before
  | readPost answer =>
      cases Option.some.inj taken
      rw [VirtioCustomDevice.lenAt, bufLens_readPost]
      exact before
  | readFinish uncopied =>
      by_cases resumes : state.Resumes
      · have stepped : state.readFinish beyond uncopied = some after := taken
        rw [readFinish_of_resumes resumes] at stepped
        cases Option.some.inj stepped
        exact le_trans (lenAt_virtioCustdevReadFinish_le beyond uncopied _ index) before
      · have stuck : state.readFinish beyond uncopied = none := if_neg resumes
        have stepped : state.readFinish beyond uncopied = some after := taken
        rw [stuck] at stepped
        cases stepped
  | use position filled len =>
      rcases Option.map_eq_some_iff.mp taken with ⟨vqe, _, rfl⟩
      exact before
  | useOutbuf =>
      rcases Option.map_eq_some_iff.mp taken with ⟨popped, _, rfl⟩
      exact before
  | inbufCb =>
      have stepped : state.inbufCb = some after := taken
      rw [Clients.inbufCb] at stepped
      split at stepped
      case isTrue => cases stepped
      case isFalse =>
        cases Option.some.inj stepped
        exact before
  | outbufCb =>
      cases Option.some.inj taken
      exact before

/-- Short writes leave no entry that a read with enough room could not take. -/
theorem permits_fitsCount {limit : ℕ} {steps : List (ClientStep × ℕ)}
    (within : WritesWithin limit steps) :
    (countedClients beyond).Permits FitsCount (countedClients beyond).initial steps := by
  let Bounded (state : Clients) := ∀ index, state.driver.lenAt index ≤ limit
  apply @System.permits_of_invariant _ _ _ _ Bounded
  · intro index
    exact Nat.zero_le limit
  · rintro before ⟨action, count⟩ listed bounded
    have step_within := within _ listed
    cases action with
    | readFinish uncopied =>
        intro _
        exact le_trans (bounded _) (le_trans step_within (Nat.le_add_right _ _))
    | _ => trivial
  · rintro before ⟨action, count⟩ listed after bounded taken
    have step_within := within _ listed
    apply lenAt_le_of_step ?_ bounded taken
    rintro answer data rfl
    exact step_within

/--
In every run of writes, reads and callbacks, every read gives its caller at most what was asked
for if and only if each read, when it resumes, has room for the entry of `buf_lens` that the
counter then leads to, less what `copy_to_user` leaves out. So it is in every run whose writes are
all no longer than the room of each read.
-/
theorem reads_respect_count (beyond : ℕ → UInt8) (steps : List (ClientStep × ℕ)) :
    ((countedClients beyond).Permits (RespectsCount beyond) (countedClients beyond).initial steps ↔
      (countedClients beyond).Permits FitsCount (countedClients beyond).initial steps) ∧
    ∀ limit, WritesWithin limit steps →
      (countedClients beyond).Permits (RespectsCount beyond)
        (countedClients beyond).initial steps := by
  have same := respectsCount_iff_fitsCount beyond
  refine ⟨⟨?_, ?_⟩, ?_⟩
  · intro permits
    exact permits.mono fun state step => (same state step).mp
  · intro permits
    exact permits.mono fun state step => (same state step).mpr
  · intro limit within
    exact (permits_fitsCount within).mono fun state step => (same state step).mpr

/-- A read with room for one byte is given the two of the message that was written. -/
theorem not_respectsCount_of_long : ¬(countedClients fun _ => 0).Permits
    (RespectsCount fun _ => 0) (countedClients fun _ => 0).initial
      [(.write {} [1, 2], 0), (.readPost {}, 1), (.use 0 [1, 2] 2, 0), (.inbufCb, 0),
        (.readFinish 0, 1)] := by
  rintro ⟨_, onward⟩
  rcases onward _ rfl with ⟨_, onward⟩
  rcases onward _ rfl with ⟨_, onward⟩
  rcases onward _ rfl with ⟨_, onward⟩
  rcases onward _ rfl with ⟨respects, _⟩
  have overrun := (respects ⟨by decide, by decide⟩).1
  revert overrun
  decide

end Reads

end VirtLearn.Virtio
