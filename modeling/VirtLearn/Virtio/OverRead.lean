import VirtLearn.Virtio.DeviceSafety

/-!
# How much the device reads of a message

The table holds pointers without lengths: a block is as large as the message stored in it, and an
answer copies as many bytes out of it as the request has room for. The guest chooses both numbers,
one in each of two notifications, and the device compares them nowhere.
-/

namespace VirtLearn.Virtio

/-- The bytes of the messages stored after `notes` and not yet answered with, the oldest first. -/
def messagesAfter (notes : List Notification) : List (List UInt8) :=
  notes.foldl
    (fun messages note =>
      if note.status.up then
        match note.queue with
        | .outbuf => messages ++ [iovToBuf note.element.outSg note.element.outIovLen]
        | .inbuf => messages.dropLast
      else messages) []

def topAfter (notes : List Notification) : List UInt8 :=
  (messagesAfter notes).getLast?.getD []

/-- After `before`, the notification is served and asks for a message that the table holds. -/
def Notification.AsksAfter (before : List Notification) (next : Notification) : Prop :=
  next.status.up = true ∧ next.queue = .inbuf ∧ WithinBounds (before ++ [next])

/-- What the device gives back for `next` after `before`. -/
def answerTo (beyond : ℕ → UInt8) (before : List Notification) (next : Notification) :
    Option UsedElement := do
  let vcust ← (guestDriven beyond).run virtioCustdevDeviceRealize before
  let (_, vq) ← virtioCustdevHandleInbuf beyond next.status vcust { avail := [next.element] }
  vq.used.head?

/-- Every answer of the run consists of bytes of the message on top, and so does its length. -/
def AnswersWithin (beyond : ℕ → UInt8) (notes : List Notification) : Prop :=
  ∀ before next, before ++ [next] <+: notes → next.AsksAfter before →
    ∃ used, answerTo beyond before next = some used ∧ used.filled <+: topAfter before ∧
      used.len ≤ (topAfter before).length

/-- Every request for a message asks for at most the length of the message on top. -/
def AsksWithin (notes : List Notification) : Prop :=
  ∀ before next, before ++ [next] <+: notes → next.AsksAfter before →
    next.element.inIovLen ≤ (topAfter before).length

theorem messagesAfter_concat (notes : List Notification) (note : Notification) :
    messagesAfter (notes ++ [note]) =
      if note.status.up then
        match note.queue with
        | .outbuf => messagesAfter notes ++ [iovToBuf note.element.outSg note.element.outIovLen]
        | .inbuf => (messagesAfter notes).dropLast
      else messagesAfter notes := by
  rw [messagesAfter, List.foldl_append]
  rfl

/-- What a served notification does to the bytes held. -/
theorem Consistent.map_data_notify {beyond : ℕ → UInt8} {notes : List Notification}
    {note : Notification} {vcust after : VirtIOCustdev} {messages held : List Block}
    (consistent : Consistent notes vcust messages)
    (same : messages.map Block.data = messagesAfter notes)
    (served : Virtio.notify beyond vcust note = some after)
    (kept : Consistent (notes ++ [note]) after held) :
    held.map Block.data = messagesAfter (notes ++ [note]) := by
  have height := consistent.height
  have heightAfter := kept.height
  rw [messagesAfter_concat]
  cases up : note.status.up with
  | false =>
      rw [notify_of_down up] at served
      cases served
      rw [kept.holds.unique consistent.holds, same]
      rfl
  | true =>
      cases queue : note.queue with
      | outbuf =>
          rw [notify_outbuf up queue] at served
          cases served
          simp [servedCount_concat, queue, up] at heightAfter
          have bounded := kept.holds.bounded
          have stored := (consistent.holds.storeMessage note.element (by omega)).1
          rw [kept.holds.unique stored, List.map_append, same]
          rfl
      | inbuf =>
          rw [notify_inbuf up queue] at served
          cases served
          simp [servedCount_concat, queue, up] at heightAfter
          rcases List.eq_nil_or_concat messages with rfl | ⟨below, top, rfl⟩
          · simp only [List.length_nil] at height
            omega
          · have holds := consistent.holds
            rw [List.concat_eq_append] at holds same
            rw [kept.holds.unique holds.dropMessage.1, ← same, List.map_append]
            simp

/-- Where a run in bounds stands: the device holds the messages the guest has stored. -/
theorem exists_consistent (beyond : ℕ → UInt8) {notes : List Notification}
    (within : WithinBounds notes) :
    ∃ vcust messages, (guestDriven beyond).run virtioCustdevDeviceRealize notes = some vcust ∧
      Consistent notes vcust messages ∧ messages.map Block.data = messagesAfter notes := by
  induction notes using List.reverseRecOn with
  | nil =>
      refine ⟨virtioCustdevDeviceRealize, [], rfl, ?_, rfl⟩
      exact ⟨holds_virtioCustdevDeviceRealize, rfl, by simp [virtioCustdevDeviceRealize]⟩
  | append_singleton notes note ih =>
      rcases withinBounds_concat.mp within with ⟨within, inBounds⟩
      rcases ih within with ⟨vcust, messages, ran, consistent, same⟩
      rcases consistent.notify beyond inBounds with ⟨after, held, served, kept⟩
      refine ⟨after, held, System.run_concat ran served, kept, ?_⟩
      exact consistent.map_data_notify same served kept

/-- The answer is read from the message on top, with the length the request asks for. -/
theorem answerTo_of_asks (beyond : ℕ → UInt8) {before : List Notification} {next : Notification}
    (asks : next.AsksAfter before) :
    answerTo beyond before next = some
      ⟨next.element, iovFromBuf beyond next.element.inSg (topAfter before) next.element.inIovLen,
        next.element.inIovLen⟩ := by
  rcases asks with ⟨up, queue, within⟩
  rcases withinBounds_concat.mp within with ⟨within, inBounds⟩
  rcases exists_consistent beyond within with ⟨vcust, messages, ran, consistent, same⟩
  have height := consistent.height
  have bound := inBounds up
  simp only [queue] at bound
  rcases List.eq_nil_or_concat messages with rfl | ⟨below, top, rfl⟩
  · simp only [List.length_nil] at height
    omega
  · have holds := consistent.holds
    rw [List.concat_eq_append] at holds same
    have top_eq : topAfter before = top.data := by
      simp [topAfter, ← same]
    have served :
        virtioCustdevHandleInbuf beyond next.status vcust { avail := [next.element] } = _ :=
      virtioCustdevHandleInbuf_of_up up rfl
    simp [answerTo, ran, served, holds.dropMessage.2.2, top_eq]

/-- An answer stays within a message exactly when the length asked for does. -/
theorem iovFromBuf_within_iff (beyond : ℕ → UInt8) (inSg : List ℕ) (stored : List UInt8)
    (bytes : ℕ) :
    iovFromBuf beyond inSg stored bytes <+: stored ∧ bytes ≤ stored.length ↔
      bytes ≤ stored.length := by
  constructor
  · exact And.right
  · intro within
    refine ⟨?_, within⟩
    rw [iovFromBuf, readBuffer_of_le beyond (by omega)]
    exact List.take_prefix _ _

/--
For every sequence of notifications by the guest: every answer consists of bytes of the message on
top, and reports no more than its length, if and only if every request asks for no more than that.
-/
theorem answersWithin_iff_asksWithin (beyond : ℕ → UInt8) (notes : List Notification) :
    AnswersWithin beyond notes ↔ AsksWithin notes := by
  constructor
  · intro answers before next isPrefix asks
    rcases answers before next isPrefix asks with ⟨used, answered, _, within⟩
    rw [answerTo_of_asks beyond asks] at answered
    cases answered
    exact within
  · intro requests before next isPrefix asks
    refine ⟨_, answerTo_of_asks beyond asks, ?_⟩
    exact (iovFromBuf_within_iff beyond _ _ _).mpr (requests before next isPrefix asks)

/-- One byte is stored and two are asked for: the second one is not of the message. -/
theorem answer_leaves_message : ¬∀ beyond notes, AnswersWithin beyond notes := by
  intro claimed
  have within : WithinBounds ([{ queue := .outbuf, element := { outSg := [[7]] } }] ++
      [{ queue := .inbuf, element := { inSg := [2] } }]) := by
    rw [withinBounds_concat]
    refine ⟨?_, ?_⟩
    · exact withinBounds_concat.mpr ⟨withinBounds_nil, fun _ => by decide⟩
    · exact fun _ => by decide
  rcases claimed (fun _ => 0) _ _ _ List.prefix_rfl ⟨rfl, rfl, within⟩ with
    ⟨used, answered, _, bounded⟩
  cases answered
  revert bounded
  decide

end VirtLearn.Virtio
