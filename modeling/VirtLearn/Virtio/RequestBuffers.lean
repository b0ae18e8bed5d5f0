import VirtLearn.Custody
import VirtLearn.Virtio.Clients

/-!
# The buffers behind the requests

Every request of the driver is for a buffer that it allocates. A write hands its buffer to the
transmit queue, and `virtio_custdev_outbuf_cb` frees it; a read hands `rcv_buf` to the receive
queue, copies from `read_data`, which the callback sets, and frees its own `rcv_buf`.

`tracked` runs the driver together with where its buffers are. The part of a read behind its wait
is four steps, between which other reads, the device and the callbacks run: it is woken, it takes
`read_data` and the length as the arguments of `copy_to_user`, the copy ends, and it frees its
buffer and returns. Taken one after the other they are `virtioCustdevReadFinish`
(`run_readFinish`), so that the runs of `clients` are among those of `tracked`.

No buffer is freed twice or while it is in the transmit queue, whatever the clients do. That a read
frees no buffer that the device may still write to, and copies from no buffer that is freed, takes
reads that keep out of each other's way (`exclusive`).
-/

namespace VirtLearn.Virtio

/-- A read inside `copy_to_user`: its own buffer, the one copied from, and the bytes asked for. -/
structure CopyingRead where
  own : ℕ
  source : Option ℕ
  length : ℕ

/--
Where the buffers are, named by the count of those allocated before. The receive queue (`asked` and
`answered`) and `readData` only refer to buffers of reads, which keep them until they return.
-/
structure RequestBuffers where
  issued : ℕ := 0
  /-- Outbuf requests that the device has not used. -/
  sending : List ℕ := []
  /-- Outbuf requests that the device has used and the callback not collected. -/
  sent : List ℕ := []
  /-- Writes whose request was not added to the queue. -/
  stranded : List ℕ := []
  /-- `rcv_buf` of each read that waits for a completion. -/
  waiting : List ℕ := []
  /-- Reads whose wait is over and that have not looked at `read_data`. -/
  woken : List ℕ := []
  copying : List CopyingRead := []
  /-- Reads that have copied and have their own buffer to free. -/
  copied : List ℕ := []
  asked : List ℕ := []
  answered : List ℕ := []
  readData : Option ℕ := none
  freed : List ℕ := []
  /-- A read was copying from a buffer when it was freed or after, or from none. -/
  staleCopy : Bool := false

namespace RequestBuffers

variable (buffers : RequestBuffers)

/-- The buffer `to_send` of a write. -/
def write (answer : WriteAnswer) (vcust : VirtioCustomDevice) : RequestBuffers :=
  if virtioCustdevBuffers ≤ vcust.buffers.toNat then buffers
  else if !answer.allocated then buffers
  else if answer.added then
    { buffers with
      issued := buffers.issued + 1
      sending := buffers.sending ++ [buffers.issued] }
  else
    -- the result of `virtqueue_add_outbuf` is ignored, and nobody frees the buffer
    { buffers with
      issued := buffers.issued + 1
      stranded := buffers.stranded ++ [buffers.issued] }

/-- The buffer `rcv_buf` of a read, up to its wait. -/
def readPost (answer : ReadAnswer) (vcust : VirtioCustomDevice) : RequestBuffers :=
  if vcust.buffers.toNat < 1 then buffers
  else if !answer.allocated then buffers
  else
    { buffers with
      issued := buffers.issued + 1
      waiting := buffers.waiting ++ [buffers.issued]
      asked := if answer.added then buffers.asked ++ [buffers.issued] else buffers.asked }

/-- One of the reads that wait goes on. -/
def wake (position : ℕ) : Option RequestBuffers :=
  buffers.waiting[position]?.map fun own =>
    { buffers with
      waiting := buffers.waiting.eraseIdx position
      woken := buffers.woken ++ [own] }

/-- One of the reads that were woken begins to copy from where `read_data` points. -/
def copyStart (length position : ℕ) : Option RequestBuffers :=
  buffers.woken[position]?.map fun own =>
    { buffers with
      woken := buffers.woken.eraseIdx position
      copying := buffers.copying ++ [{ own, source := buffers.readData, length }] }

/-- One of the copies ends. -/
def copyEnd (position : ℕ) : Option RequestBuffers :=
  buffers.copying[position]?.map fun read =>
    { buffers with
      copying := buffers.copying.eraseIdx position
      copied := buffers.copied ++ [read.own]
      staleCopy := buffers.staleCopy || read.source.all (· ∈ buffers.freed) }

/-- One of the reads that have copied frees its own buffer. -/
def readReturn (position : ℕ) : Option RequestBuffers :=
  buffers.copied[position]?.map fun own =>
    { buffers with
      copied := buffers.copied.eraseIdx position
      freed := buffers.freed ++ [own] }

def use (position : ℕ) : Option RequestBuffers :=
  buffers.asked[position]?.map fun buffer =>
    { buffers with
      asked := buffers.asked.eraseIdx position
      answered := buffers.answered ++ [buffer] }

def useOutbuf : RequestBuffers :=
  { buffers with
    sending := buffers.sending.tail
    sent := buffers.sent ++ buffers.sending.head?.toList }

def inbufCb : RequestBuffers :=
  { buffers with
    answered := buffers.answered.tail
    readData := buffers.answered.head? }

def outbufCb : RequestBuffers :=
  { buffers with
    sent := buffers.sent.tail
    freed := buffers.freed ++ buffers.sent.head?.toList }

/-- The buffers of the reads between their request and their return. -/
def reading : List ℕ :=
  buffers.waiting ++ buffers.woken ++ buffers.copying.map CopyingRead.own ++ buffers.copied

/-- The buffers by their keepers: transmit requests, refused writes, reads, and nobody. -/
def kept : List ℕ :=
  buffers.sending ++ buffers.sent ++ buffers.stranded ++ buffers.reading ++ buffers.freed

/-- Nothing freed is still in the receive queue, and every copy was from a live buffer. -/
structure Sound : Prop where
  queued : ∀ buffer ∈ buffers.freed, buffer ∉ buffers.asked ++ buffers.answered
  copied : buffers.staleCopy = false

end RequestBuffers

/-- The driver, with the buffers of its requests. -/
structure Tracked where
  driver : VirtioCustomDevice := virtioCustdevProbe
  buffers : RequestBuffers := {}

/-- One step of a client, of the device or of an interrupt; a read is named by its position. -/
inductive TrackedStep where
  | write (answer : WriteAnswer) (data : List UInt8)
  | readPost (answer : ReadAnswer)
  | wake (position : ℕ)
  | copyStart (position : ℕ)
  | copyEnd (position uncopied : ℕ)
  | readReturn (position : ℕ)
  | use (position : ℕ) (filled : List UInt8) (len : ℕ)
  | useOutbuf
  | inbufCb
  | outbufCb

/-- The steps that do not depend on what clients call. -/
def TrackedStep.Internal : TrackedStep → Prop
  | .write _ _ => False
  | .readPost _ => False
  | _ => True

namespace Tracked

variable (state : Tracked)

def write (answer : WriteAnswer) (data : List UInt8) : Tracked where
  driver := (virtioCustdevWrite answer data state.driver).vcust
  buffers := state.buffers.write answer state.driver

def readPost (answer : ReadAnswer) : Tracked where
  driver := (virtioCustdevReadPost answer state.driver).2
  buffers := state.buffers.readPost answer state.driver

def wake (position : ℕ) : Option Tracked :=
  if 0 < state.driver.dataReady then
    (state.buffers.wake position).map fun buffers =>
      { driver := { state.driver with dataReady := state.driver.dataReady - 1 }, buffers }
  else none

def copyStart (position : ℕ) : Option Tracked :=
  let index := state.driver.buffers.toNat
  (state.buffers.copyStart (state.driver.lenAt index) position).map fun buffers =>
    { driver := state.driver.noteLen index, buffers }

def copyEnd (position uncopied : ℕ) : Option Tracked :=
  state.buffers.copying[position]?.bind fun read =>
    (state.buffers.copyEnd position).map fun buffers =>
      { driver := virtioCustdevReadCorrect (min uncopied read.length) state.driver, buffers }

def readReturn (position : ℕ) : Option Tracked :=
  (state.buffers.readReturn position).map fun buffers =>
    { driver := state.driver.noteLen state.driver.buffers.toNat, buffers }

/-- A step of the device or of an interrupt, as the clients see it. -/
def onDriver (step : Clients → Option Clients) (buffers : Option RequestBuffers) :
    Option Tracked :=
  (step { driver := state.driver }).bind fun next =>
    buffers.map fun buffers => { driver := next.driver, buffers }

end Tracked

/-- The driver under all its clients, with every step of a read behind its wait. -/
def tracked : System Tracked TrackedStep where
  initial := {}
  step state
    | .write answer data => some (state.write answer data)
    | .readPost answer => some (state.readPost answer)
    | .wake position => state.wake position
    | .copyStart position => state.copyStart position
    | .copyEnd position uncopied => state.copyEnd position uncopied
    | .readReturn position => state.readReturn position
    | .use position filled len =>
        state.onDriver (Clients.use position filled len) (state.buffers.use position)
    | .useOutbuf => state.onDriver Clients.useOutbuf (some state.buffers.useOutbuf)
    | .inbufCb => state.onDriver Clients.inbufCb (some state.buffers.inbufCb)
    | .outbufCb =>
        state.onDriver (fun state => some state.outbufCb) (some state.buffers.outbufCb)

/-! ### What a step does to the queues and the buffers -/

/-- The lengths of the driver's queues and its completions, with the buffers. -/
structure Outline where
  asked : ℕ
  answered : ℕ
  sending : ℕ
  sent : ℕ
  ready : ℕ
  buffers : RequestBuffers

def Tracked.outline (state : Tracked) : Outline where
  asked := state.driver.vqRx.avail.length
  answered := state.driver.vqRx.used.length
  sending := state.driver.vqTx.avail.length
  sent := state.driver.vqTx.used.length
  ready := state.driver.dataReady
  buffers := state.buffers

/-- Every request in a queue has its buffer. -/
structure Outline.Aligned (outline : Outline) : Prop where
  asked : outline.buffers.asked.length = outline.asked
  answered : outline.buffers.answered.length = outline.answered
  sending : outline.buffers.sending.length = outline.sending
  sent : outline.buffers.sent.length = outline.sent

/-- A step leaves all of this alone, or it is one of the eleven ways to hand a buffer on. -/
inductive Tracked.Moves (before : Tracked) : TrackedStep → Outline → Prop where
  | still (action : TrackedStep) : Moves before action before.outline
  | send {answer : WriteAnswer} {data : List UInt8} (added : answer.added = true) :
      Moves before (.write answer data)
        { before.outline with
          sending := before.outline.sending + 1
          buffers := { before.buffers with
            issued := before.buffers.issued + 1
            sending := before.buffers.sending ++ [before.buffers.issued] } }
  | strand {answer : WriteAnswer} {data : List UInt8} (refused : answer.added = false) :
      Moves before (.write answer data)
        { before.outline with
          buffers := { before.buffers with
            issued := before.buffers.issued + 1
            stranded := before.buffers.stranded ++ [before.buffers.issued] } }
  | post {answer : ReadAnswer} (filled : 0 < before.driver.buffers.toNat)
      (allocated : answer.allocated = true) :
      Moves before (.readPost answer)
        { before.outline with
          asked := if answer.added then before.outline.asked + 1 else before.outline.asked
          buffers := { before.buffers with
            issued := before.buffers.issued + 1
            waiting := before.buffers.waiting ++ [before.buffers.issued]
            asked :=
              if answer.added then before.buffers.asked ++ [before.buffers.issued]
              else before.buffers.asked } }
  | wake {position own : ℕ} (found : before.buffers.waiting[position]? = some own)
      (signalled : 0 < before.outline.ready) :
      Moves before (.wake position)
        { before.outline with
          ready := before.outline.ready - 1
          buffers := { before.buffers with
            waiting := before.buffers.waiting.eraseIdx position
            woken := before.buffers.woken ++ [own] } }
  | copyStart {position own length : ℕ} (found : before.buffers.woken[position]? = some own) :
      Moves before (.copyStart position)
        { before.outline with
          buffers := { before.buffers with
            woken := before.buffers.woken.eraseIdx position
            copying := before.buffers.copying ++
              [{ own, source := before.buffers.readData, length }] } }
  | copyEnd {position uncopied : ℕ} {read : CopyingRead}
      (found : before.buffers.copying[position]? = some read) :
      Moves before (.copyEnd position uncopied)
        { before.outline with
          buffers := { before.buffers with
            copying := before.buffers.copying.eraseIdx position
            copied := before.buffers.copied ++ [read.own]
            staleCopy := before.buffers.staleCopy ||
              read.source.all (· ∈ before.buffers.freed) } }
  | readReturn {position own : ℕ} (found : before.buffers.copied[position]? = some own) :
      Moves before (.readReturn position)
        { before.outline with
          buffers := { before.buffers with
            copied := before.buffers.copied.eraseIdx position
            freed := before.buffers.freed ++ [own] } }
  | use {position len buffer : ℕ} {filled : List UInt8}
      (found : before.buffers.asked[position]? = some buffer) :
      Moves before (.use position filled len)
        { before.outline with
          asked := before.outline.asked - 1
          answered := before.outline.answered + 1
          buffers := { before.buffers with
            asked := before.buffers.asked.eraseIdx position
            answered := before.buffers.answered ++ [buffer] } }
  | useOutbuf {buffer : ℕ} {rest : List ℕ} (first : before.buffers.sending = buffer :: rest) :
      Moves before .useOutbuf
        { before.outline with
          sending := before.outline.sending - 1
          sent := before.outline.sent + 1
          buffers := { before.buffers with
            sending := rest
            sent := before.buffers.sent ++ [buffer] } }
  | inbufCb {buffer : ℕ} {rest : List ℕ} (first : before.buffers.answered = buffer :: rest) :
      Moves before .inbufCb
        { before.outline with
          answered := before.outline.answered - 1
          ready := before.outline.ready + 1
          buffers := { before.buffers with answered := rest, readData := some buffer } }
  | outbufCb {buffer : ℕ} {rest : List ℕ} (first : before.buffers.sent = buffer :: rest) :
      Moves before .outbufCb
        { before.outline with
          sent := before.outline.sent - 1
          buffers := { before.buffers with
            sent := rest
            freed := before.buffers.freed ++ [buffer] } }

section Moves

variable {before after : Tracked}

theorem outline_write (state : Tracked) (answer : WriteAnswer) (data : List UInt8) :
    state.Moves (.write answer data) (state.write answer data).outline := by
  by_cases full : virtioCustdevBuffers ≤ state.driver.buffers.toNat
  · rw [Tracked.write, virtioCustdevWrite_of_full answer data full, RequestBuffers.write,
      if_pos full]
    exact .still _
  · have room : state.driver.buffers.toNat < virtioCustdevBuffers := by omega
    cases allocated : answer.allocated with
    | false =>
        have same : (virtioCustdevWrite answer data state.driver).vcust = state.driver := by
          simp [virtioCustdevWrite, full, allocated]
        have kept : state.buffers.write answer state.driver = state.buffers := by
          simp [RequestBuffers.write, allocated]
        rw [Tracked.write, same, kept]
        exact .still _
    | true =>
        rw [Tracked.write, (virtioCustdevWrite_of_room data allocated room).2,
          RequestBuffers.write, if_neg full]
        cases added : answer.added with
        | false =>
            have move : state.Moves (.write answer data) _ := .strand added
            simpa [allocated, Tracked.outline] using move
        | true =>
            have move : state.Moves (.write answer data) _ := .send added
            simpa [allocated, Tracked.outline, VirtQueue.add] using move

theorem outline_readPost (state : Tracked) (answer : ReadAnswer) :
    state.Moves (.readPost answer) (state.readPost answer).outline := by
  by_cases empty : state.driver.buffers.toNat = 0
  · have kept : state.buffers.readPost answer state.driver = state.buffers := by
      simp [RequestBuffers.readPost, empty]
    rw [Tracked.readPost, virtioCustdevReadPost_of_empty answer empty, kept]
    exact .still _
  · have filled : 0 < state.driver.buffers.toNat := by omega
    have notEmpty : ¬state.driver.buffers.toNat < 1 := by omega
    cases allocated : answer.allocated with
    | false =>
        have kept : state.buffers.readPost answer state.driver = state.buffers := by
          simp [RequestBuffers.readPost, allocated]
        rw [Tracked.readPost, virtioCustdevReadPost_of_unallocated allocated filled, kept]
        exact .still _
    | true =>
        have move : state.Moves (.readPost answer) _ := .post filled allocated
        rw [Tracked.readPost, virtioCustdevReadPost_of_filled allocated filled,
          RequestBuffers.readPost, if_neg notEmpty]
        cases added : answer.added <;>
          simpa [allocated, added, Tracked.outline, VirtQueue.add] using move

theorem outline_wake {position : ℕ} (woken : before.wake position = some after) :
    before.Moves (.wake position) after.outline := by
  rw [Tracked.wake] at woken
  split at woken
  case isTrue signalled =>
    rcases Option.map_eq_some_iff.mp woken with ⟨buffers, handed, rfl⟩
    rcases Option.map_eq_some_iff.mp handed with ⟨own, found, rfl⟩
    exact .wake found signalled
  case isFalse => cases woken

theorem outline_copyStart {position : ℕ} (started : before.copyStart position = some after) :
    before.Moves (.copyStart position) after.outline := by
  rcases Option.map_eq_some_iff.mp started with ⟨buffers, handed, rfl⟩
  rcases Option.map_eq_some_iff.mp handed with ⟨own, found, rfl⟩
  exact .copyStart found

theorem outline_copyEnd {position uncopied : ℕ}
    (ended : before.copyEnd position uncopied = some after) :
    before.Moves (.copyEnd position uncopied) after.outline := by
  rcases Option.bind_eq_some_iff.mp ended with ⟨read, found, ended⟩
  rw [RequestBuffers.copyEnd, found] at ended
  cases Option.some.inj ended
  have move : before.Moves (.copyEnd position uncopied) _ := .copyEnd found
  simpa [Tracked.outline] using move

theorem outline_readReturn {position : ℕ} (returned : before.readReturn position = some after) :
    before.Moves (.readReturn position) after.outline := by
  rcases Option.map_eq_some_iff.mp returned with ⟨buffers, handed, rfl⟩
  rcases Option.map_eq_some_iff.mp handed with ⟨own, found, rfl⟩
  exact .readReturn found

theorem outline_use {position len : ℕ} {filled : List UInt8}
    (used : before.onDriver (Clients.use position filled len) (before.buffers.use position) =
      some after) :
    before.Moves (.use position filled len) after.outline := by
  rcases Option.bind_eq_some_iff.mp used with ⟨clients, posted, handed⟩
  rcases Option.map_eq_some_iff.mp handed with ⟨buffers, followed, rfl⟩
  rcases Option.map_eq_some_iff.mp followed with ⟨buffer, found, rfl⟩
  rcases Option.map_eq_some_iff.mp posted with ⟨vqe, avail, rfl⟩
  have inside := (List.getElem?_eq_some_iff.mp avail).1
  have move : before.Moves (.use position filled len) _ := .use found
  simpa [Tracked.outline, VirtQueue.push, List.length_eraseIdx_of_lt inside] using move

theorem outline_useOutbuf (aligned : before.outline.Aligned)
    (used : before.onDriver Clients.useOutbuf (some before.buffers.useOutbuf) = some after) :
    before.Moves .useOutbuf after.outline := by
  have sending := aligned.sending
  rcases Option.bind_eq_some_iff.mp used with ⟨clients, stepped, handed⟩
  cases Option.some.inj handed
  rcases Option.map_eq_some_iff.mp stepped with ⟨⟨vqe, vq⟩, popped, rfl⟩
  change before.driver.vqTx.pop = some (vqe, vq) at popped
  rw [VirtQueue.pop] at popped
  cases avail : before.driver.vqTx.avail with
  | nil => simp [avail] at popped
  | cons oldest others =>
      rw [avail] at popped
      cases Option.some.inj popped
      cases kept : before.buffers.sending with
      | nil => simp [Tracked.outline, kept, avail] at sending
      | cons buffer rest =>
          have move : before.Moves .useOutbuf _ := .useOutbuf kept
          simpa [Tracked.outline, VirtQueue.push, RequestBuffers.useOutbuf, kept, avail] using move

theorem outline_inbufCb (aligned : before.outline.Aligned)
    (collected : before.onDriver Clients.inbufCb (some before.buffers.inbufCb) = some after) :
    before.Moves .inbufCb after.outline := by
  have answered := aligned.answered
  rcases Option.bind_eq_some_iff.mp collected with ⟨clients, stepped, handed⟩
  cases Option.some.inj handed
  simp only [Clients.inbufCb] at stepped
  split at stepped
  case isTrue => cases stepped
  case isFalse =>
    cases Option.some.inj stepped
    cases used : before.driver.vqRx.used with
    | nil => contradiction
    | cons oldest others =>
        cases kept : before.buffers.answered with
        | nil => simp [Tracked.outline, kept, used] at answered
        | cons buffer rest =>
            have move : before.Moves .inbufCb _ := .inbufCb kept
            simpa [Tracked.outline, virtioCustdevInbufCb, VirtQueue.getBuf,
              RequestBuffers.inbufCb, kept, used] using move

theorem outline_outbufCb (aligned : before.outline.Aligned) :
    before.Moves .outbufCb
      (Tracked.outline
        { driver := virtioCustdevOutbufCb before.driver
          buffers := before.buffers.outbufCb }) := by
  have sent := aligned.sent
  cases kept : before.buffers.sent with
  | nil =>
      have none_used : before.driver.vqTx.used = [] := by
        simpa [Tracked.outline, kept, eq_comm] using sent
      have same : before.outline = Tracked.outline
          { driver := virtioCustdevOutbufCb before.driver
            buffers := before.buffers.outbufCb } := by
        simp [Tracked.outline, virtioCustdevOutbufCb, VirtQueue.getBuf,
          RequestBuffers.outbufCb, kept, none_used]
        rw [← kept]
      rw [← same]
      exact .still _
  | cons buffer rest =>
      cases used : before.driver.vqTx.used with
      | nil => simp [Tracked.outline, kept, used] at sent
      | cons oldest others =>
          have move : before.Moves .outbufCb _ := .outbufCb kept
          simpa [Tracked.outline, virtioCustdevOutbufCb, VirtQueue.getBuf,
            RequestBuffers.outbufCb, kept, used] using move

theorem moves_tracked {action : TrackedStep} (aligned : before.outline.Aligned)
    (taken : tracked.step before action = some after) : before.Moves action after.outline := by
  cases action with
  | write answer data =>
      cases Option.some.inj taken
      exact outline_write before answer data
  | readPost answer =>
      cases Option.some.inj taken
      exact outline_readPost before answer
  | wake position => exact outline_wake taken
  | copyStart position => exact outline_copyStart taken
  | copyEnd position uncopied => exact outline_copyEnd taken
  | readReturn position => exact outline_readReturn taken
  | use position filled len => exact outline_use taken
  | useOutbuf => exact outline_useOutbuf aligned taken
  | inbufCb => exact outline_inbufCb aligned taken
  | outbufCb =>
      cases Option.some.inj taken
      exact outline_outbufCb aligned

/-! ### Every buffer has one keeper -/

theorem Outline.Aligned.moves {action : TrackedStep} {outline : Outline}
    (aligned : before.outline.Aligned) (moves : before.Moves action outline) :
    outline.Aligned := by
  rcases aligned with ⟨asked, answered, sending, sent⟩
  change before.buffers.asked.length = _ at asked
  change before.buffers.answered.length = _ at answered
  change before.buffers.sending.length = _ at sending
  change before.buffers.sent.length = _ at sent
  cases moves with
  | still => exact ⟨asked, answered, sending, sent⟩
  | send => exact ⟨asked, answered, by simp [sending], sent⟩
  | strand => exact ⟨asked, answered, sending, sent⟩
  | @post answer =>
      refine ⟨?_, answered, sending, sent⟩
      cases answer.added <;> simp [asked]
  | wake => exact ⟨asked, answered, sending, sent⟩
  | copyStart => exact ⟨asked, answered, sending, sent⟩
  | copyEnd => exact ⟨asked, answered, sending, sent⟩
  | readReturn => exact ⟨asked, answered, sending, sent⟩
  | use found =>
      have inside := (List.getElem?_eq_some_iff.mp found).1
      exact ⟨by simp [List.length_eraseIdx_of_lt inside, asked], by simp [answered], sending, sent⟩
  | useOutbuf first =>
      rw [first, List.length_cons] at sending
      exact ⟨asked, answered, by simp [← sending], by simp [sent]⟩
  | inbufCb first =>
      rw [first, List.length_cons] at answered
      exact ⟨asked, by simp [← answered], sending, sent⟩
  | outbufCb first =>
      rw [first, List.length_cons] at sent
      exact ⟨asked, answered, sending, by simp [← sent]⟩

/-- What is taken out of a list and what stays. -/
theorem perm_of_found {α : Type} {items : List α} {position : ℕ} {item : α}
    (found : items[position]? = some item) :
    (item :: items.eraseIdx position).Perm items := by
  rcases List.getElem?_eq_some_iff.mp found with ⟨inside, rfl⟩
  exact List.getElem_cons_eraseIdx_perm inside

theorem custody_moves {action : TrackedStep} {outline : Outline}
    (custody : Custody before.buffers.issued before.buffers.kept)
    (moves : before.Moves action outline) :
    Custody outline.buffers.issued outline.buffers.kept := by
  cases moves with
  | still => exact custody
  | send =>
      apply custody.issue
      simp only [RequestBuffers.kept, RequestBuffers.reading]
      grind
  | strand =>
      apply custody.issue
      simp only [RequestBuffers.kept, RequestBuffers.reading]
      grind
  | post =>
      apply custody.issue
      simp only [RequestBuffers.kept, RequestBuffers.reading]
      grind
  | wake found =>
      apply custody.handOn
      have taken := perm_of_found found
      simp only [RequestBuffers.kept, RequestBuffers.reading]
      grind
  | copyStart found =>
      apply custody.handOn
      have taken := perm_of_found found
      simp only [RequestBuffers.kept, RequestBuffers.reading, List.map_append, List.map_cons,
        List.map_nil]
      grind
  | copyEnd found =>
      apply custody.handOn
      have taken := (perm_of_found found).map CopyingRead.own
      simp only [List.map_cons] at taken
      simp only [RequestBuffers.kept, RequestBuffers.reading]
      grind
  | readReturn found =>
      apply custody.handOn
      have taken := perm_of_found found
      simp only [RequestBuffers.kept, RequestBuffers.reading]
      grind
  | use => exact custody
  | useOutbuf first =>
      apply custody.handOn
      simp only [RequestBuffers.kept, RequestBuffers.reading, first]
      grind
  | inbufCb => exact custody
  | outbufCb first =>
      apply custody.handOn
      simp only [RequestBuffers.kept, RequestBuffers.reading, first]
      grind

end Moves

section Reachable

variable {state : Tracked}

theorem accounted_of_reachable {allowed : Tracked → TrackedStep → Prop}
    (reachable : tracked.Reachable allowed state) :
    state.outline.Aligned ∧ Custody state.buffers.issued state.buffers.kept := by
  apply reachable.invariant
  · exact ⟨⟨rfl, rfl, rfl, rfl⟩, Custody.empty⟩
  · rintro before action after ⟨aligned, custody⟩ _ taken
    have moves := moves_tracked aligned taken
    exact ⟨aligned.moves moves, custody_moves custody moves⟩

/-! ### A read that nothing comes between -/

/-- The steps of a read behind its wait. -/
def finishSteps (buffers : RequestBuffers) (position uncopied : ℕ) : List TrackedStep :=
  [.wake position, .copyStart buffers.woken.length, .copyEnd buffers.copying.length uncopied,
    .readReturn buffers.copied.length]

/-- Where the buffers are when the read at `position`, of the buffer `own`, has returned. -/
def RequestBuffers.finished (buffers : RequestBuffers) (position own : ℕ) : RequestBuffers :=
  { buffers with
    waiting := buffers.waiting.eraseIdx position
    freed := buffers.freed ++ [own]
    staleCopy := buffers.staleCopy || buffers.readData.all (· ∈ buffers.freed) }

theorem eraseIdx_concat {α : Type} (items : List α) (item : α) :
    (items ++ [item]).eraseIdx items.length = items := by
  rw [List.eraseIdx_append_of_length_le (Nat.le_refl _)]
  simp

theorem run_readFinish {position own : ℕ} (beyond : ℕ → UInt8) (uncopied : ℕ)
    (found : state.buffers.waiting[position]? = some own)
    (signalled : 0 < state.driver.dataReady) :
    tracked.run state (finishSteps state.buffers position uncopied) = some
      { driver := (virtioCustdevReadFinish beyond uncopied
          { state.driver with dataReady := state.driver.dataReady - 1 }).vcust
        buffers := state.buffers.finished position own } := by
  rw [vcust_virtioCustdevReadFinish]
  have woken : tracked.step state (.wake position) = some
      { driver := { state.driver with dataReady := state.driver.dataReady - 1 }
        buffers := { state.buffers with
          waiting := state.buffers.waiting.eraseIdx position
          woken := state.buffers.woken ++ [own] } } := by
    simp [tracked, Tracked.wake, signalled, RequestBuffers.wake, found]
  rw [finishSteps, System.run_of_step woken]
  simp [System.run, tracked, Tracked.copyStart, Tracked.copyEnd, Tracked.readReturn,
    RequestBuffers.copyStart, RequestBuffers.copyEnd, RequestBuffers.readReturn,
    RequestBuffers.finished, eraseIdx_concat, VirtioCustomDevice.lenAt,
    VirtioCustomDevice.noteLen]

/-- The rest of a read as one step is four steps here, and every other step is the same. -/
theorem exists_run_of_step {beyond : ℕ → UInt8} {before after : Clients} {action : ClientStep}
    (aligned : state.outline.Aligned) (same : state.driver = before.driver)
    (waits : state.buffers.waiting.length = before.waiting)
    (taken : (clients beyond).step before action = some after) :
    ∃ steps last, tracked.run state steps = some last ∧ last.driver = after.driver ∧
      last.buffers.waiting.length = after.waiting := by
  rcases before with ⟨driver, waiting⟩
  cases same
  cases waits
  cases action with
  | write answer data =>
      cases Option.some.inj taken
      refine ⟨[.write answer data], state.write answer data, rfl, rfl, ?_⟩
      simp only [Tracked.write, RequestBuffers.write, Clients.write]
      split_ifs <;> rfl
  | readPost answer =>
      cases Option.some.inj taken
      refine ⟨[.readPost answer], state.readPost answer, rfl, ?_⟩
      by_cases empty : state.driver.buffers.toNat = 0
      · simp [Tracked.readPost, RequestBuffers.readPost, Clients.readPost,
          virtioCustdevReadPost_of_empty answer empty, empty]
      · have filled : 0 < state.driver.buffers.toNat := by omega
        cases allocated : answer.allocated with
        | false =>
            simp [Tracked.readPost, RequestBuffers.readPost, Clients.readPost,
              virtioCustdevReadPost_of_unallocated allocated filled, allocated]
        | true =>
            simp [Tracked.readPost, RequestBuffers.readPost, Clients.readPost,
              virtioCustdevReadPost_of_filled allocated filled, allocated, empty]
  | readFinish uncopied =>
      simp only [clients, Clients.readFinish] at taken
      split at taken
      case isTrue enabled =>
        cases Option.some.inj taken
        have found := List.getElem?_eq_getElem enabled.1
        refine ⟨_, _, run_readFinish beyond uncopied found enabled.2, rfl, ?_⟩
        simp [RequestBuffers.finished]
      case isFalse => cases taken
  | use position filled len =>
      have posted : Clients.use position filled len { driver := state.driver } =
          some { after with waiting := 0 } := by
        rcases Option.map_eq_some_iff.mp taken with ⟨vqe, avail, rfl⟩
        simp only [Clients.use, avail, Option.map_some]
      rcases Option.map_eq_some_iff.mp taken with ⟨vqe, avail, rfl⟩
      have asked := aligned.asked
      change state.buffers.asked.length = state.driver.vqRx.avail.length at asked
      have inside := (List.getElem?_eq_some_iff.mp avail).1
      rw [← asked] at inside
      refine ⟨[.use position filled len],
        { driver := _
          buffers := { state.buffers with
            asked := state.buffers.asked.eraseIdx position
            answered := state.buffers.answered ++ [state.buffers.asked[position]] } },
        ?_, rfl, rfl⟩
      rw [System.run, tracked]
      simp only [Tracked.onDriver, posted, RequestBuffers.use, List.getElem?_eq_getElem inside,
        Option.map_some, Option.bind_some]
      rfl
  | useOutbuf =>
      rcases Option.map_eq_some_iff.mp taken with ⟨⟨vqe, vq⟩, popped, rfl⟩
      refine ⟨[.useOutbuf], { driver := _, buffers := state.buffers.useOutbuf }, ?_, rfl, rfl⟩
      rw [System.run, tracked]
      simp only [Tracked.onDriver, Clients.useOutbuf, popped, Option.map_some, Option.bind_some]
      rfl
  | inbufCb =>
      simp only [clients, Clients.inbufCb] at taken
      split at taken
      case isTrue => cases taken
      case isFalse answered =>
        cases Option.some.inj taken
        refine ⟨[.inbufCb], { driver := _, buffers := state.buffers.inbufCb }, ?_, rfl, rfl⟩
        rw [System.run, tracked]
        simp only [Tracked.onDriver, Clients.inbufCb, if_neg answered, Option.map_some,
          Option.bind_some]
        rfl
  | outbufCb =>
      cases Option.some.inj taken
      exact ⟨[.outbufCb], _, rfl, rfl, rfl⟩

/-- So `tracked` says of every state of the clients where its buffers may be. -/
theorem exists_tracked_of_reachable {beyond : ℕ → UInt8} {now : Clients}
    (reachable : (clients beyond).Reachable anyAction now) :
    ∃ state, tracked.Reachable anyAction state ∧ state.driver = now.driver ∧
      state.buffers.waiting.length = now.waiting := by
  induction reachable with
  | initial => exact ⟨{}, .initial, rfl, rfl⟩
  | @step before after action _ _ taken ih =>
      rcases ih with ⟨state, earlier, same, waits⟩
      have aligned := (accounted_of_reachable earlier).1
      rcases exists_run_of_step aligned same waits taken with ⟨steps, last, ran, driver, waiting⟩
      exact ⟨last, earlier.run ran, driver, waiting⟩

end Reachable

end VirtLearn.Virtio
