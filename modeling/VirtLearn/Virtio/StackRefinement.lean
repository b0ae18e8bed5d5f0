import VirtLearn.BoundedStack
import VirtLearn.Transition
import VirtLearn.Virtio.Link

/-!
# The link as a bounded stack

With every kick served before the driver goes on, one client sees a last-in, first-out store of
byte strings. The specification is a service over `BoundedStack`; the link simulates it call by
call, and `Simulation.run` carries this to every sequence of calls.

The two sides keep the stack separately: the device holds the bytes (`Holds`) and the driver the
lengths. `Represents` relates both to one stack.
-/

namespace VirtLearn.Virtio

/-- `MAX_RW_COUNT`, at which the kernel cuts the count of a write before it calls the driver. -/
def maxRwCount : ℕ :=
  0x7ffff000

/-- The bytes of one write as the kernel passes them on, at least one. -/
structure UserWrite where
  data : List UInt8
  carries : data ≠ []
  capped : data.length ≤ maxRwCount

inductive Call where
  | write (message : UserWrite)
  | read

/-- What a call gives back: its return value and the bytes put into the client's buffer. -/
structure Response where
  ret : ℤ
  delivered : List UInt8 := []
deriving DecidableEq

/-- The store the client is meant to see. -/
abbrev MessageStack :=
  BoundedStack (List UInt8) virtioCustdevBuffers

def stackService : Service MessageStack Call Response where
  initial := .empty
  serve stack
    | .write message =>
        if stack.height = virtioCustdevBuffers then some (stack, { ret := enospc })
        else some (stack.push message.data, { ret := message.data.length })
    | .read =>
        match stack.top? with
        | none => some (stack, { ret := 0 })
        | some item => some (stack.pop, { ret := item.length, delivered := item })

namespace Link

/-- A write whose kick, if it gets that far, is served and called back before it returns. -/
def write (message : UserWrite) (link : Link) : Option (Link × Response) :=
  let result := virtioCustdevWrite {} message.data link.driver
  let link := { link with driver := result.vcust }
  if result.kicked then
    (link.serveOutbuf {}).map fun link =>
      ({ link with driver := virtioCustdevOutbufCb link.driver }, { ret := result.ret })
  else some (link, { ret := result.ret })

/-- A read whose kick is served and called back before it waits for the completion. -/
def read (beyond : ℕ → UInt8) (link : Link) : Option (Link × Response) :=
  match virtioCustdevReadPost {} link.driver with
  | (.returned ret, vcust) => some ({ link with driver := vcust }, { ret })
  | (.waiting, vcust) =>
      ({ link with driver := vcust }.serveInbuf beyond {}).bind fun link =>
        let vcust := virtioCustdevInbufCb link.driver
        if vcust.dataReady = 0 then none
        else
          let vcust := { vcust with dataReady := vcust.dataReady - 1 }
          let result := virtioCustdevReadFinish beyond 0 vcust
          some ({ link with driver := result.vcust },
            { ret := result.ret, delivered := result.copied })

/-- The implementation: driver and device after probe and realize, called by one client. -/
def service (beyond : ℕ → UInt8) : Service Link Call Response where
  initial := initial
  serve link
    | .write message => link.write message
    | .read => link.read beyond

end Link

def storedBlock (item : List UInt8) : Block :=
  ⟨item.length, item⟩

/--
Between two calls: the device holds the messages, the driver counts them and knows their lengths,
and nothing is in flight.
-/
structure Represents (link : Link) (stack : MessageStack) : Prop where
  holds : Holds link.device (stack.items.map storedBlock)
  counted : link.driver.buffers.toNat = stack.height
  lengths : ∀ k (stored : k < stack.items.length),
    (link.driver.bufLens k).toNat = stack.items[k].length
  txIdle : link.driver.vqTx = {}
  rxIdle : link.driver.vqRx = {}
  settled : link.driver.dataReady = 0

theorem represents_initial : Represents Link.initial .empty where
  holds := holds_virtioCustdevDeviceRealize
  counted := rfl
  lengths := by simp [BoundedStack.empty]
  txIdle := rfl
  rxIdle := rfl
  settled := rfl

namespace UserWrite

variable (message : UserWrite)

theorem length_lt : message.data.length < 2 ^ 32 := by
  have capped := message.capped
  simp only [maxRwCount] at capped
  omega

def request : VirtQueueElement :=
  { outSg := [message.data] }

theorem storedBlock_request :
    Block.mk message.request.outIovLen
        (iovToBuf message.request.outSg message.request.outIovLen) =
      storedBlock message.data := by
  simp [request, VirtQueueElement.outIovLen, iovToBuf, storedBlock]

end UserWrite

/-- A write with room, seen from the driver: the request is queued and its length recorded. -/
theorem virtioCustdevWrite_of_userWrite {vcust : VirtioCustomDevice} (message : UserWrite)
    (room : vcust.buffers.toNat < virtioCustdevBuffers) :
    virtioCustdevWrite {} message.data vcust =
      { ret := message.data.length
        kicked := true
        vcust :=
          { vcust with
            vqTx := vcust.vqTx.add message.request
            buffers := vcust.buffers + 1
            bufLens := Function.update vcust.bufLens vcust.buffers.toNat
              (BitVec.ofNat 32 message.data.length)
            lenUses := vcust.lenUses ++ [vcust.buffers.toNat] } } := by
  have notFull : ¬virtioCustdevBuffers ≤ vcust.buffers.toNat := by omega
  have short := message.length_lt
  have positive : (BitVec.ofNat 64 message.data.length).toInt = message.data.length := by
    rw [BitVec.toInt_eq_toNat_of_lt, BitVec.toNat_ofNat, Nat.mod_eq_of_lt (by omega)]
    rw [BitVec.toNat_ofNat, Nat.mod_eq_of_lt (by omega)]
    omega
  simp only [virtioCustdevWrite, notFull, if_false, if_true, Bool.not_true, Bool.false_eq_true,
    Nat.sub_zero, List.take_length, Nat.mod_eq_of_lt short, positive, UserWrite.request,
    VirtioCustomDevice.noteLen, VirtioCustomDevice.setLen]

def requestFor (length : ℕ) : VirtQueueElement :=
  { inSg := [length] }

namespace Link

variable {link : Link} {beyond : ℕ → UInt8}

theorem write_of_room (message : UserWrite) (idle : link.driver.vqTx = {})
    (room : link.driver.buffers.toNat < virtioCustdevBuffers) :
    link.write message = some
      ({ driver :=
          { link.driver with
            buffers := link.driver.buffers + 1
            bufLens := Function.update link.driver.bufLens link.driver.buffers.toNat
              (BitVec.ofNat 32 message.data.length)
            lenUses := link.driver.lenUses ++ [link.driver.buffers.toNat] }
         device := link.device.storeMessage message.request },
        { ret := message.data.length }) := by
  rw [write, virtioCustdevWrite_of_userWrite message room]
  simp only [if_true]
  rw [serveOutbuf_of_up rfl (by rw [idle]; rfl)]
  simp [virtioCustdevOutbufCb, VirtQueue.getBuf, VirtQueue.add, idle]

/-- The buffer of a served request, as long as the message it asked for. -/
def answered (beyond : ℕ → UInt8) (link : Link) (length : ℕ) : UsedElement :=
  ⟨requestFor length, link.device.answer beyond (requestFor length), length⟩

theorem read_of_filled (idle : link.driver.vqRx = {}) (settled : link.driver.dataReady = 0)
    (filled : 0 < link.driver.buffers.toNat) {index length : ℕ}
    (last : index = (link.driver.buffers - 1).toNat) (known : link.driver.lenAt index = length) :
    link.read beyond = some
      ({ driver :=
          { link.driver with
            buffers := link.driver.buffers - 1
            readData := some (link.answered beyond length)
            lenUses := link.driver.lenUses ++ [index, index] ++ [index, index] }
         device := link.device.dropMessage },
        { ret := length
          delivered := readBuffer beyond (link.answered beyond length).buffer length }) := by
  rw [read, virtioCustdevReadPost_of_filled rfl filled, ← last, known]
  simp only [if_true]
  rw [serveInbuf_of_up rfl (by rw [idle]; rfl)]
  simp only [idle, VirtQueue.add, List.nil_append, Option.bind_some, virtioCustdevInbufCb,
    VirtQueue.getBuf, settled, Nat.zero_add, Nat.one_ne_zero, if_false,
    virtioCustdevReadFinish_of_copied, ← last]
  rw [VirtioCustomDevice.lenAt] at known ⊢
  simp [known, answered, requestFor, VirtQueueElement.inIovLen]

end Link

/-- A live message of the right length answers its request completely. -/
theorem delivered_of_answer {beyond : ℕ → UInt8} {link : Link} {item : List UInt8}
    (answer : link.device.answer beyond (requestFor item.length) =
      iovFromBuf beyond [item.length] item item.length) :
    readBuffer beyond (link.answered beyond item.length).buffer item.length = item := by
  rw [Link.answered, answer, UsedElement.buffer]
  simp [requestFor, iovFromBuf, readBuffer_length]

namespace Represents

variable {link : Link} {stack : MessageStack} {beyond : ℕ → UInt8}

theorem write_of_full (represents : Represents link stack)
    (full : stack.height = virtioCustdevBuffers) (message : UserWrite) :
    link.write message = some (link, { ret := enospc }) := by
  have refused : virtioCustdevBuffers ≤ link.driver.buffers.toNat := by
    rw [represents.counted]
    exact Nat.le_of_eq full.symm
  simp [Link.write, virtioCustdevWrite_of_full _ _ refused]

theorem read_of_empty (represents : Represents link stack) (empty : stack.height = 0) :
    link.read beyond = some (link, { ret := 0 }) := by
  have none_counted : link.driver.buffers.toNat = 0 := by
    rw [represents.counted]
    exact empty
  simp [Link.read, virtioCustdevReadPost_of_empty _ none_counted]

theorem write_of_room (represents : Represents link stack)
    (room : stack.height < virtioCustdevBuffers) (message : UserWrite) :
    ∃ after, link.write message = some (after, { ret := message.data.length }) ∧
      Represents after (stack.push message.data) := by
  rcases represents with ⟨holds, counted, lengths, txIdle, rxIdle, settled⟩
  have pushed := BoundedStack.items_push room message.data
  have driverRoom : link.driver.buffers.toNat < virtioCustdevBuffers := by
    rw [counted]
    exact room
  refine ⟨_, Link.write_of_room message txIdle driverRoom, ?_, ?_, ?_, txIdle, rxIdle, settled⟩
  · have deviceRoom : (stack.items.map storedBlock).length < virtioCustdevBuffers := by
      simpa [BoundedStack.height] using room
    have stored := (holds.storeMessage message.request deviceRoom).1
    rw [message.storedBlock_request] at stored
    simpa [pushed] using stored
  · simp only [virtioCustdevBuffers] at driverRoom
    simp only [BoundedStack.height, pushed, List.length_append, List.length_singleton]
    rw [Counter.toNat_add_one (by omega), counted, BoundedStack.height]
  · intro k stored
    simp only [pushed, List.length_append, List.length_singleton] at stored
    rw [BoundedStack.height] at counted
    rcases Nat.lt_succ_iff_lt_or_eq.mp stored with below | rfl
    · have old : k ≠ link.driver.buffers.toNat := by omega
      simp [pushed, Function.update_of_ne old, lengths k below, List.getElem_append_left below]
    · simp only [pushed, List.getElem_concat_length, ← counted, Function.update_self,
        BitVec.toNat_ofNat, Nat.mod_eq_of_lt message.length_lt]

theorem read_of_top (represents : Represents link stack) {item : List UInt8}
    (top : stack.top? = some item) :
    ∃ after, link.read beyond = some (after, { ret := item.length, delivered := item }) ∧
      Represents after stack.pop := by
  rcases represents with ⟨holds, counted, lengths, txIdle, rxIdle, settled⟩
  have shape := BoundedStack.items_of_top? top
  have height : link.driver.buffers.toNat = stack.pop.items.length + 1 := by
    rw [counted, BoundedStack.height, shape, List.length_append, List.length_singleton]
  have last : stack.pop.items.length = (link.driver.buffers - 1).toNat := by
    rw [Counter.toNat_sub_one (by omega)]
    omega
  have known : link.driver.lenAt stack.pop.items.length = item.length := by
    rw [VirtioCustomDevice.lenAt, lengths _ (by simp [shape])]
    simp [shape]
  rw [shape, List.map_append] at holds
  rcases holds.dropMessage with ⟨dropped, _, answer⟩
  have served : link.read beyond = _ := Link.read_of_filled rxIdle settled (by omega) last known
  rw [delivered_of_answer (answer beyond (requestFor item.length))] at served
  refine ⟨_, served, dropped, ?_, ?_, txIdle, rxIdle, settled⟩
  · exact last.symm
  · intro k stored
    simp [lengths k (by simp [shape]; omega), shape, List.getElem_append_left stored]

end Represents

theorem simulation_stackService (beyond : ℕ → UInt8) :
    Simulation (Link.service beyond) stackService Represents where
  initial := represents_initial
  serve link stack call represents := by
    cases call with
    | write message =>
        rcases Nat.lt_or_eq_of_le stack.height_le with room | full
        · rcases represents.write_of_room room message with ⟨after, served, kept⟩
          refine ⟨after, stack.push message.data, _, served, ?_, kept⟩
          simp [stackService, Nat.ne_of_lt room]
        · refine ⟨link, stack, _, represents.write_of_full full message, ?_, represents⟩
          simp [stackService, full]
    | read =>
        cases top : stack.top? with
        | none =>
            have empty := BoundedStack.top?_eq_none_iff.mp top
            refine ⟨link, stack, _, represents.read_of_empty empty, ?_, represents⟩
            simp [stackService, top]
        | some item =>
            rcases represents.read_of_top top with ⟨after, served, kept⟩
            refine ⟨after, stack.pop, _, served, ?_, kept⟩
            simp [stackService, top]

/--
Over every sequence of calls the link answers as the bounded stack does. Both sides count the
height of the stack and the driver knows every length; a read of the empty stack and a write to
the full one leave the link exactly as it was.
-/
theorem link_refines_stack (beyond : ℕ → UInt8) (calls : List Call) :
    ∃ link stack responses,
      (Link.service beyond).run calls = some (link, responses) ∧
      stackService.run calls = some (stack, responses) ∧
      link.driver.buffers.toNat = stack.height ∧
      link.device.rcvCount.toNat = stack.height ∧
      (∀ k (stored : k < stack.items.length),
        (link.driver.bufLens k).toNat = stack.items[k].length) ∧
      (stack.height = 0 → (Link.service beyond).serve link .read = some (link, { ret := 0 })) ∧
      (stack.height = virtioCustdevBuffers → ∀ message,
        (Link.service beyond).serve link (.write message) = some (link, { ret := enospc })) := by
  rcases (simulation_stackService beyond).run calls with
    ⟨link, stack, responses, ran, specified, represents⟩
  refine ⟨link, stack, responses, ran, specified, represents.counted, ?_, represents.lengths,
    represents.read_of_empty, represents.write_of_full⟩
  rw [represents.holds.count, List.length_map, BoundedStack.height]

/-- Two writes and two reads: the second message comes back first. -/
example : ((Link.service fun _ => 0).run
    [.write ⟨[1, 2], by decide, by decide⟩, .write ⟨[3], by decide, by decide⟩, .read, .read]).map
      Prod.snd = some [{ ret := 2 }, { ret := 1 }, { ret := 1, delivered := [3] },
        { ret := 2, delivered := [1, 2] }] :=
  rfl

end VirtLearn.Virtio
