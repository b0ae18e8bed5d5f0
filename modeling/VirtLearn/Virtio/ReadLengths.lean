import VirtLearn.Virtio.Clients

/-!
# The length a read returns

A read looks its message's length up before it posts the request and again, through the shared
counter, when it copies the answer out. With one reader and one writer, the second look-up finds
the same entry only if no write came in between: a write before the callback moves the counter to
the entry of that write, and a write after the callback moves it to an entry nobody has written
for this message. `KeepsLength` spells the three cases out.
-/

namespace VirtLearn.Virtio

structure WriteCall where
  answer : WriteAnswer := {}
  data : List UInt8

def WriteCall.count (call : WriteCall) : ℕ :=
  call.data.length - call.answer.uncopied

/-- The counts of the writes that get a slot when `room` slots are free. -/
def acceptedCounts (room : ℕ) (calls : List WriteCall) : List ℕ :=
  ((calls.filter fun call => call.answer.allocated).take room).map WriteCall.count

def writeSteps (calls : List WriteCall) : List ClientStep :=
  calls.map fun call => .write call.answer call.data

/-- Writes of these counts have gone through, from `before` to `after`. -/
structure Written (counts : List ℕ) (before after : VirtioCustomDevice) : Prop where
  counted : after.buffers.toNat = before.buffers.toNat + counts.length
  stored : ∀ k (inside : k < counts.length),
    after.lenAt (before.buffers.toNat + k) = counts[k] % 2 ^ 32
  kept : ∀ index, index < before.buffers.toNat ∨ before.buffers.toNat + counts.length ≤ index →
    after.lenAt index = before.lenAt index

namespace Written

variable {counts more : List ℕ} {before middle after : VirtioCustomDevice}

theorem refl (vcust : VirtioCustomDevice) : Written [] vcust vcust where
  counted := rfl
  stored := by simp
  kept := fun _ _ => rfl

theorem trans (first : Written counts before middle) (second : Written more middle after) :
    Written (counts ++ more) before after := by
  have counted := first.counted
  refine ⟨?_, ?_, ?_⟩
  · rw [second.counted, counted, List.length_append, Nat.add_assoc]
  · intro k inside
    rw [List.length_append] at inside
    by_cases early : k < counts.length
    · rw [second.kept _ (Or.inl (by omega)), first.stored k early, List.getElem_append_left early]
    · have late := second.stored (k - counts.length) (by omega)
      rw [List.getElem_append_right (by omega), ← late, counted]
      congr 1
      omega
  · intro index outside
    rw [List.length_append] at outside
    rw [second.kept index (by omega), first.kept index (by omega)]

theorem of_same {other : VirtioCustomDevice} (written : Written counts before after)
    (buffers : other.buffers = before.buffers) (bufLens : other.bufLens = before.bufLens) :
    Written counts other after := by
  rcases written with ⟨counted, stored, kept⟩
  have lenAt : ∀ index, other.lenAt index = before.lenAt index := by
    intro index
    rw [VirtioCustomDevice.lenAt, bufLens, VirtioCustomDevice.lenAt]
  rw [← buffers] at counted stored kept
  exact ⟨counted, stored, fun index outside => (kept index outside).trans (lenAt index).symm⟩

theorem single {call : WriteCall} (allocated : call.answer.allocated = true)
    (room : before.buffers.toNat < virtioCustdevBuffers) :
    Written [call.count] before (virtioCustdevWrite call.answer call.data before).vcust := by
  simp only [virtioCustdevBuffers] at room
  rw [(virtioCustdevWrite_of_room call.data allocated room).2]
  refine ⟨?_, ?_, ?_⟩
  · rw [Counter.toNat_add_one (by omega), List.length_singleton]
  · intro k inside
    have first : k = 0 := by simpa using inside
    subst first
    simp [VirtioCustomDevice.lenAt, WriteCall.count]
  · intro index outside
    rw [List.length_singleton] at outside
    have other : index ≠ before.buffers.toNat := by omega
    simp only [VirtioCustomDevice.lenAt, Function.update_of_ne other]

end Written

theorem acceptedCounts_zero (calls : List WriteCall) : acceptedCounts 0 calls = [] := by
  simp [acceptedCounts]

theorem acceptedCounts_cons_of_unallocated {call : WriteCall}
    (unallocated : call.answer.allocated = false) (room : ℕ) (rest : List WriteCall) :
    acceptedCounts room (call :: rest) = acceptedCounts room rest := by
  simp [acceptedCounts, unallocated]

theorem acceptedCounts_cons {call : WriteCall} (allocated : call.answer.allocated = true)
    (room : ℕ) (rest : List WriteCall) :
    acceptedCounts (room + 1) (call :: rest) = call.count :: acceptedCounts room rest := by
  simp [acceptedCounts, allocated]

theorem length_acceptedCounts_le (room : ℕ) (calls : List WriteCall) :
    (acceptedCounts room calls).length ≤ room := by
  simp only [acceptedCounts, List.length_map, List.length_take]
  exact Nat.min_le_left _ _

theorem acceptedCounts_append (room : ℕ) (early late : List WriteCall) :
    acceptedCounts room (early ++ late) = acceptedCounts room early ++
      acceptedCounts (room - (acceptedCounts room early).length) late := by
  simp only [acceptedCounts, List.filter_append, List.take_append, List.map_append,
    List.length_map, List.length_take]
  congr 3
  omega

section Reads

variable {beyond : ℕ → UInt8}

theorem run_writeSteps (beyond : ℕ → UInt8) (calls : List WriteCall) (state : Clients)
    (bounded : state.driver.buffers.toNat ≤ virtioCustdevBuffers) :
    ∃ driver, (clients beyond).run state (writeSteps calls) = some { state with driver } ∧
      Written (acceptedCounts (virtioCustdevBuffers - state.driver.buffers.toNat) calls)
        state.driver driver ∧
      driver.vqRx = state.driver.vqRx ∧ driver.dataReady = state.driver.dataReady := by
  induction calls generalizing state with
  | nil =>
      refine ⟨state.driver, rfl, ?_, rfl, rfl⟩
      simpa [acceptedCounts] using Written.refl state.driver
  | cons call rest ih =>
      have taken : (clients beyond).step state (.write call.answer call.data) =
          some (state.write call.answer call.data) := rfl
      rw [writeSteps, List.map_cons, System.run_of_step taken]
      rcases Nat.lt_or_eq_of_le bounded with room | full
      · cases allocated : call.answer.allocated with
        | false =>
            have same : (virtioCustdevWrite call.answer call.data state.driver).vcust =
                state.driver := by
              simp [virtioCustdevWrite, Nat.not_le_of_lt room, allocated]
            rw [Clients.write, same, acceptedCounts_cons_of_unallocated allocated]
            exact ih state bounded
        | true =>
            have written : Written _ state.driver (state.write call.answer call.data).driver :=
              Written.single allocated room
            have next := written.counted
            rw [List.length_singleton] at next
            rcases ih (state.write call.answer call.data) (by omega) with
              ⟨driver, ran, later, vqRx, dataReady⟩
            have free : virtioCustdevBuffers - state.driver.buffers.toNat =
                virtioCustdevBuffers - (state.driver.buffers.toNat + 1) + 1 := by omega
            rw [next] at later
            rw [free, acceptedCounts_cons allocated]
            refine ⟨driver, ran, written.trans later, ?_, ?_⟩
            · rw [vqRx, Clients.write, (virtioCustdevWrite_of_room call.data allocated room).2]
            · rw [dataReady, Clients.write,
                (virtioCustdevWrite_of_room call.data allocated room).2]
      · have refused : virtioCustdevBuffers ≤ state.driver.buffers.toNat := Nat.le_of_eq full.symm
        have none_free : virtioCustdevBuffers - state.driver.buffers.toNat = 0 := by omega
        have later := ih state bounded
        rw [none_free, acceptedCounts_zero] at later
        rw [Clients.write, virtioCustdevWrite_of_full _ _ refused, none_free, acceptedCounts_zero]
        exact later

/-! ### One reader -/

def oneReader (state : Clients) : ClientStep → Prop
  | .readPost _ => state.waiting = 0
  | _ => True

/-- At most one read waits, and a message is counted for its request. -/
structure Usage.Single (usage : Usage) : Prop extends usage.Covered where
  single : usage.waiting ≤ 1

def Usage.Blocks (usage : Usage) : ClientStep → Prop
  | .readPost _ => usage.waiting = 0
  | _ => True

theorem Usage.Single.moves {before after : Usage} {action : ClientStep} (alone : before.Single)
    (moves : before.Moves action after) (blocks : before.Blocks action) : after.Single := by
  rcases alone with ⟨covered, single⟩
  have covers : before.Covers action := by
    have owed := covered.owed
    cases action with
    | readPost =>
        simp only [Usage.Blocks] at blocks
        intro _ _ filled
        omega
    | _ => trivial
  refine ⟨covered.moves moves covers, ?_⟩
  cases moves with
  | readPost =>
      simp only [Usage.Blocks] at blocks
      simp only
      omega
  | readFinish =>
      simp only
      omega
  | _ => exact single

theorem single_of_oneReader {state : Clients}
    (reachable : (clients beyond).Reachable oneReader state) : state.usage.Single := by
  apply reachable.invariant
  · exact ⟨⟨Nat.zero_le _, Nat.le_refl _, Nat.le_refl _⟩, Nat.zero_le _⟩
  · intro before action after alone permitted taken
    apply alone.moves (usage_moves taken)
    cases action with
    | readPost => exact permitted
    | _ => trivial

/-! ### One read among writes -/

/--
The parts of one read, with the writes that go through between its posting and its callback,
before and after the device uses the request, and between its callback and its copy-out.
-/
def readAmong (early middle late : List WriteCall) (filled : List UInt8) : List ClientStep :=
  .readPost {} :: (writeSteps early ++ .use 0 filled filled.length ::
    (writeSteps middle ++ .inbufCb :: writeSteps late))

def postedSize (vcust : VirtioCustomDevice) : ℕ :=
  vcust.lenAt (vcust.buffers - 1).toNat

/--
The entry that the shared counter leads to at the copy-out has, less the bytes not copied, the
size that was posted. `between` are the writes up to the callback and `late` those after it; the
entry is that of the read itself if none was accepted, that of the last write `between` if none
was accepted later, and else one that has not been written since the posting.
-/
def KeepsLength (vcust : VirtioCustomDevice) (between late : List WriteCall) (uncopied : ℕ) :
    Prop :=
  let counts := acceptedCounts (virtioCustdevBuffers - vcust.buffers.toNat) between
  let last := vcust.buffers.toNat - 1 + counts.length
  match counts.getLast?, acceptedCounts (virtioCustdevBuffers - last) late with
  | none, [] => postedSize vcust - uncopied = postedSize vcust
  | some count, [] => count % 2 ^ 32 - uncopied = postedSize vcust
  | _, later => vcust.lenAt (last + later.length) - uncopied = postedSize vcust

theorem keepsLength_iff {before middle collected last : VirtioCustomDevice}
    {between late : List WriteCall} (uncopied : ℕ) (filled : 0 < before.buffers.toNat)
    (writtenBetween : Written
      (acceptedCounts (virtioCustdevBuffers - before.buffers.toNat) between) before middle)
    (same : ∀ index, collected.lenAt index = middle.lenAt index)
    (counted : collected.buffers = middle.buffers - 1)
    (writtenLate : Written
      (acceptedCounts (virtioCustdevBuffers - collected.buffers.toNat) late) collected last) :
    last.lenAt last.buffers.toNat - uncopied = postedSize before ↔
      KeepsLength before between late uncopied := by
  have moved : collected.buffers.toNat = before.buffers.toNat - 1 +
      (acceptedCounts (virtioCustdevBuffers - before.buffers.toNat) between).length := by
    have sum := writtenBetween.counted
    rw [counted, Counter.toNat_sub_one (by omega)]
    omega
  simp only [KeepsLength, ← moved]
  generalize acceptedCounts (virtioCustdevBuffers - before.buffers.toNat) between = counts at *
  generalize acceptedCounts (virtioCustdevBuffers - collected.buffers.toNat) late = later at *
  have found := writtenLate.kept (collected.buffers.toNat + later.length) (Or.inr (Nat.le_refl _))
  rw [writtenLate.counted, found, same]
  cases later with
  | cons first rest =>
      have untouched := writtenBetween.kept (collected.buffers.toNat + (first :: rest).length)
        (Or.inr (by rw [List.length_cons]; omega))
      rw [untouched]
      cases counts.getLast? <;> exact Iff.rfl
  | nil =>
      rcases List.eq_nil_or_concat counts with rfl | ⟨others, count, rfl⟩
      · have own := writtenBetween.kept collected.buffers.toNat
          (Or.inl (by rw [moved, List.length_nil]; omega))
        simp only [List.length_nil, Nat.add_zero] at moved ⊢
        rw [own, List.getLast?_nil, postedSize, Counter.toNat_sub_one filled, moved]
      · rw [List.concat_eq_append] at *
        have stored := writtenBetween.stored others.length (by simp)
        have index : before.buffers.toNat + others.length = collected.buffers.toNat := by
          rw [moved, List.length_append, List.length_singleton]
          omega
        rw [index, List.getElem_concat_length] at stored
        · rw [List.length_nil, Nat.add_zero, stored, List.getLast?_concat]
        · rfl

theorem Written.bounded {calls : List WriteCall} {before after : VirtioCustomDevice}
    (written : Written
      (acceptedCounts (virtioCustdevBuffers - before.buffers.toNat) calls) before after)
    (bounded : before.buffers.toNat ≤ virtioCustdevBuffers) :
    after.buffers.toNat ≤ virtioCustdevBuffers := by
  have fits := length_acceptedCounts_le (virtioCustdevBuffers - before.buffers.toNat) calls
  rw [written.counted]
  omega

/-- A read among writes runs to its copy-out, where it finds the length described. -/
theorem run_readAmong {state : Clients} (beyond : ℕ → UInt8) (alone : state.usage.Single)
    (idle : state.waiting = 0) (filled : 0 < state.driver.buffers.toNat)
    (early middle late : List WriteCall) (data : List UInt8) (uncopied : ℕ) :
    ∃ last, (clients beyond).run state (readAmong early middle late data) = some last ∧
      0 < last.waiting ∧ 0 < last.driver.dataReady ∧
      (last.driver.lenAt last.driver.buffers.toNat - uncopied = postedSize state.driver ↔
        KeepsLength state.driver (early ++ middle) late uncopied) := by
  have owed := alone.owed
  have bounded : state.driver.buffers.toNat ≤ virtioCustdevBuffers := alone.bounded
  simp only [Clients.usage, idle] at owed
  have availNil : state.driver.vqRx.avail = [] := List.eq_nil_of_length_eq_zero (by omega)
  have usedNil : state.driver.vqRx.used = [] := List.eq_nil_of_length_eq_zero (by omega)
  let request : VirtQueueElement := { inSg := [postedSize state.driver] }
  let postedDriver := { state.driver with
    vqRx := { avail := [request] }
    lenUses := state.driver.lenUses ++
      [(state.driver.buffers - 1).toNat, (state.driver.buffers - 1).toNat] }
  have posting : (clients beyond).step state (.readPost {}) =
      some { driver := postedDriver, waiting := 1 } := by
    have posted := @virtioCustdevReadPost_of_filled state.driver {} rfl filled
    simp only [clients, Clients.readPost, posted, if_true, VirtQueue.add, availNil, usedNil, idle,
      List.nil_append, postedDriver, request, postedSize]
  rcases run_writeSteps beyond early { driver := postedDriver, waiting := 1 } bounded with
    ⟨sent, ranEarly, writtenEarly, vqRx, _⟩
  have boundedEarly := writtenEarly.bounded bounded
  let answered := { sent with vqRx := { avail := [], used := [⟨request, data, data.length⟩] } }
  have answering : (clients beyond).step { driver := sent, waiting := 1 }
      (.use 0 data data.length) = some { driver := answered, waiting := 1 } := by
    simp [clients, Clients.use, vqRx, postedDriver, VirtQueue.push, answered]
  rcases run_writeSteps beyond middle { driver := answered, waiting := 1 } boundedEarly with
    ⟨sent', ranMiddle, writtenMiddle, vqRx', _⟩
  let collected := virtioCustdevInbufCb sent'
  have collecting : (clients beyond).step { driver := sent', waiting := 1 } .inbufCb =
      some { driver := collected, waiting := 1 } := by
    simp [clients, Clients.inbufCb, vqRx', answered, collected]
  have between : Written
      (acceptedCounts (virtioCustdevBuffers - state.driver.buffers.toNat) (early ++ middle))
      state.driver sent' := by
    have writtenBoth := (writtenEarly.trans (writtenMiddle.of_same rfl rfl)).of_same
      (show state.driver.buffers = postedDriver.buffers from rfl) rfl
    rw [acceptedCounts_append]
    have free : virtioCustdevBuffers - sent.buffers.toNat =
        virtioCustdevBuffers - state.driver.buffers.toNat -
          (acceptedCounts (virtioCustdevBuffers - state.driver.buffers.toNat) early).length := by
      have counted := writtenEarly.counted
      simp only [postedDriver] at counted
      omega
    rw [← free]
    exact writtenBoth
  have boundedCollected : collected.buffers.toNat ≤ virtioCustdevBuffers := by
    have bound := writtenMiddle.bounded boundedEarly
    have positive : 0 < sent'.buffers.toNat := by
      rw [between.counted]
      omega
    have counted : collected.buffers.toNat = sent'.buffers.toNat - 1 :=
      Counter.toNat_sub_one positive
    omega
  rcases run_writeSteps beyond late { driver := collected, waiting := 1 } boundedCollected with
    ⟨final, ranLate, writtenLate, _, ready⟩
  have same : ∀ index, collected.lenAt index = sent'.lenAt index := fun _ => rfl
  have counted : collected.buffers = sent'.buffers - 1 := rfl
  refine ⟨{ driver := final, waiting := 1 }, ?_, Nat.one_pos, ?_,
    keepsLength_iff uncopied filled between same counted writtenLate⟩
  · rw [readAmong, System.run_of_step posting, System.run_append, ranEarly, Option.bind_some,
      System.run_of_step answering, System.run_append, ranMiddle, Option.bind_some,
      System.run_of_step collecting, ranLate]
  · rw [ready]
    exact Nat.succ_pos _

/--
For one reader and one writer, a read that runs among any writes copies and returns the size of
the buffer it posted if and only if the length is kept, whatever the device fills in.
-/
theorem read_returns_posted_iff {state : Clients}
    (reachable : (clients beyond).Reachable oneReader state) (idle : state.waiting = 0)
    (filled : 0 < state.driver.buffers.toNat) (early middle late : List WriteCall)
    (data : List UInt8) (uncopied : ℕ) :
    ∃ last, (clients beyond).run state (readAmong early middle late data) = some last ∧
      (last.readFinish beyond uncopied).isSome ∧
      let result := virtioCustdevReadFinish beyond uncopied
        { last.driver with dataReady := last.driver.dataReady - 1 }
      (result.copied.length = postedSize state.driver ∧ result.ret = postedSize state.driver ↔
        KeepsLength state.driver (early ++ middle) late uncopied) := by
  rcases run_readAmong beyond (single_of_oneReader reachable) idle filled early middle late data
    uncopied with ⟨last, ran, waits, ready, kept⟩
  refine ⟨last, ran, ?_, ?_⟩
  · simp [Clients.readFinish, waits, ready]
  · let driver := { last.driver with dataReady := last.driver.dataReady - 1 }
    rcases @lengths_virtioCustdevReadFinish driver beyond uncopied with ⟨copied, ret⟩
    rw [← kept]
    constructor
    · rintro ⟨copiedPosted, _⟩
      rw [← copiedPosted]
      exact copied.symm
    · intro same
      exact ⟨copied.trans same, ret.trans (congrArg Nat.cast same)⟩

/-- Two writes come before the callback; the second one has the size that was posted. -/
theorem read_returns_posted_three : ∃ last : Clients, last.driver.buffers = 2 ∧
    let result := virtioCustdevReadFinish (fun _ => 0) 0
      { last.driver with dataReady := last.driver.dataReady - 1 }
    result.copied.length = 3 ∧ result.ret = 3 := by
  have follows : ∃ state, (clients fun _ => 0).Follows oneReader {} [.write {} [1, 2, 3]] state ∧
      state.waiting = 0 ∧ 0 < state.driver.buffers.toNat ∧ postedSize state.driver = 3 ∧
      KeepsLength state.driver [{ data := [4, 5] }, { data := [6, 7, 8] }] [] 0 ∧
      ((clients fun _ => 0).run state (readAmong [{ data := [4, 5] }] [{ data := [6, 7, 8] }] []
        [1, 2, 3])).map (·.driver.buffers) = some 2 :=
    ⟨_, ⟨trivial, _, rfl, rfl⟩, rfl, Nat.one_pos, rfl, rfl, rfl⟩
  rcases follows with ⟨state, follows, idle, filled, posted, kept, counted⟩
  rcases read_returns_posted_iff (System.Reachable.initial.follows follows) idle filled
    [{ data := [4, 5] }] [{ data := [6, 7, 8] }] [] [1, 2, 3] 0 with ⟨last, ran, _, returns⟩
  rw [posted] at returns
  rw [ran] at counted
  exact ⟨last, Option.some.inj counted, returns.mpr kept⟩

/-- A write of five bytes while the read of three waits makes the read return five. -/
theorem read_returns_length_of_write :
    ¬∀ state, (clients fun _ => 0).Reachable oneReader state → state.waiting = 0 →
      0 < state.driver.buffers.toNat → ∀ early middle late data last,
      data.length = postedSize state.driver →
      (clients fun _ => 0).run state (readAmong early middle late data) = some last →
      (virtioCustdevReadFinish (fun _ => 0) 0
        { last.driver with dataReady := last.driver.dataReady - 1 }).ret =
          postedSize state.driver := by
  intro returns
  have follows : ∃ state last,
      (clients fun _ => 0).Follows oneReader {} [.write {} [1, 2, 3]] state ∧
      state.waiting = 0 ∧ 0 < state.driver.buffers.toNat ∧ postedSize state.driver = 3 ∧
      (clients fun _ => 0).run state
        (readAmong [{ data := [1, 2, 3, 4, 5] }] [] [] [1, 2, 3]) = some last ∧
      (virtioCustdevReadFinish (fun _ => 0) 0
        { last.driver with dataReady := last.driver.dataReady - 1 }).ret = 5 :=
    ⟨_, _, ⟨trivial, _, rfl, rfl⟩, rfl, Nat.one_pos, rfl, rfl, rfl⟩
  rcases follows with ⟨state, last, follows, idle, filled, posted, ran, five⟩
  have three := returns state (System.Reachable.initial.follows follows) idle filled _ _ _ _ last
    (by rw [posted]; rfl) ran
  rw [five, posted] at three
  cases three

end Reads

end VirtLearn.Virtio
