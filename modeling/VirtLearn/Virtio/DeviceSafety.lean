import Mathlib.Data.List.Induction
import VirtLearn.Transition
import VirtLearn.Virtio.Device

/-!
# The device under an arbitrary guest

The guest decides which queue it notifies and what request it makes available there. Nothing in
the handlers compares `rcv_count` with the size of the table, so the table is used within its
bounds exactly as long as the guest itself keeps the difference of stores and loads between 0
and `VIRTIO_CUSTDEV_BUFFERS`.
-/

namespace VirtLearn.Virtio

/-- The queue a notification is for, by the handler it is served by. -/
inductive QueueName where
  | outbuf
  | inbuf
deriving DecidableEq

/-- One notification by the guest, with the request it has made available. -/
structure Notification where
  queue : QueueName
  element : VirtQueueElement
  status : QueueStatus := {}
deriving DecidableEq

def notify (beyond : ℕ → UInt8) (vcust : VirtIOCustdev) (note : Notification) :
    Option VirtIOCustdev :=
  let vq : VirtQueue := { avail := [note.element] }
  match note.queue with
  | .outbuf => (virtioCustdevHandleOutbuf note.status vcust vq).map Prod.fst
  | .inbuf => (virtioCustdevHandleInbuf beyond note.status vcust vq).map Prod.fst

section Notify

variable {beyond : ℕ → UInt8} {vcust : VirtIOCustdev} {note : Notification}

theorem notify_of_down (down : note.status.up = false) :
    notify beyond vcust note = some vcust := by
  cases queue : note.queue <;>
    simp [notify, queue, virtioCustdevHandleOutbuf_of_down down,
      virtioCustdevHandleInbuf_of_down down]

theorem notify_outbuf (up : note.status.up = true) (queue : note.queue = .outbuf) :
    notify beyond vcust note = some (vcust.storeMessage note.element) := by
  have served : virtioCustdevHandleOutbuf note.status vcust { avail := [note.element] } = _ :=
    virtioCustdevHandleOutbuf_of_up up rfl
  simp [notify, queue, served]

theorem notify_inbuf (up : note.status.up = true) (queue : note.queue = .inbuf) :
    notify beyond vcust note = some vcust.dropMessage := by
  have served :
      virtioCustdevHandleInbuf beyond note.status vcust { avail := [note.element] } = _ :=
    virtioCustdevHandleInbuf_of_up up rfl
  simp [notify, queue, served]

theorem notify_cases (beyond : ℕ → UInt8) (vcust : VirtIOCustdev) (note : Notification) :
    notify beyond vcust note = some vcust ∨
      notify beyond vcust note = some (vcust.storeMessage note.element) ∨
      notify beyond vcust note = some vcust.dropMessage := by
  cases up : note.status.up with
  | false => exact Or.inl (notify_of_down up)
  | true =>
      cases queue : note.queue with
      | outbuf => exact Or.inr (Or.inl (notify_outbuf up queue))
      | inbuf => exact Or.inr (Or.inr (notify_inbuf up queue))

theorem slotUses_notify (beyond : ℕ → UInt8) (vcust : VirtIOCustdev) (note : Notification) :
    ∃ after, notify beyond vcust note = some after ∧
      ∀ use ∈ vcust.slotUses, use ∈ after.slotUses := by
  rcases notify_cases beyond vcust note with served | served | served
  · exact ⟨_, served, fun _ use_mem => use_mem⟩
  · rcases vcust.slotUses_storeMessage note.element with ⟨live, uses⟩
    exact ⟨_, served, fun use use_mem => by rw [uses]; exact List.mem_append_left _ use_mem⟩
  · rcases vcust.slotUses_dropMessage with ⟨live, uses⟩
    exact ⟨_, served, fun use use_mem => by rw [uses]; exact List.mem_append_left _ use_mem⟩

end Notify

def guestDriven (beyond : ℕ → UInt8) : System VirtIOCustdev Notification where
  initial := virtioCustdevDeviceRealize
  step := notify beyond

/-- The notifications among `notes` for `queue` that pass the early returns of its handler. -/
def servedCount (queue : QueueName) (notes : List Notification) : ℕ :=
  notes.countP fun note => note.queue = queue && note.status.up

/-- The guest notifies a store only into a table with room and a load only from a filled one. -/
def InBounds (before : List Notification) (next : Notification) : Prop :=
  next.status.up = true →
    match next.queue with
    | .outbuf => servedCount .outbuf before < servedCount .inbuf before + virtioCustdevBuffers
    | .inbuf => servedCount .inbuf before < servedCount .outbuf before

/-- Every notification of the sequence is in bounds after those before it. -/
def WithinBounds (notes : List Notification) : Prop :=
  ∀ before next, before ++ [next] <+: notes → InBounds before next

theorem withinBounds_nil : WithinBounds [] := by
  intro before next isPrefix
  simp at isPrefix

theorem withinBounds_concat {notes : List Notification} {note : Notification} :
    WithinBounds (notes ++ [note]) ↔ WithinBounds notes ∧ InBounds notes note := by
  constructor
  · intro within
    refine ⟨?_, within notes note List.prefix_rfl⟩
    intro before next isPrefix
    exact within before next (isPrefix.trans (List.prefix_append _ _))
  · rintro ⟨within, last⟩ before next isPrefix
    rcases List.prefix_concat_iff.mp isPrefix with same | earlier
    · rcases List.append_inj' same rfl with ⟨rfl, sameNote⟩
      cases List.singleton_inj.mp sameNote
      exact last
    · exact within before next earlier

theorem servedCount_concat (queue : QueueName) (notes : List Notification) (note : Notification) :
    servedCount queue (notes ++ [note]) =
      servedCount queue notes + if note.queue = queue ∧ note.status.up = true then 1 else 0 := by
  simp [servedCount, List.countP_append, List.countP_singleton]

/-- Where a run of the device stands after `notes`, all in bounds so far. -/
structure Consistent (notes : List Notification) (vcust : VirtIOCustdev)
    (messages : List Block) : Prop where
  holds : Holds vcust messages
  height : messages.length + servedCount .inbuf notes = servedCount .outbuf notes
  valid : ∀ use ∈ vcust.slotUses, use.Valid

namespace Consistent

variable (beyond : ℕ → UInt8) {notes : List Notification} {note : Notification}
  {vcust : VirtIOCustdev} {messages : List Block}

/-- A notification in bounds is served and keeps the table and the counts together. -/
theorem notify (consistent : Consistent notes vcust messages) (inBounds : InBounds notes note) :
    ∃ after held, Virtio.notify beyond vcust note = some after ∧
      Consistent (notes ++ [note]) after held := by
  rcases consistent with ⟨holds, height, valid⟩
  cases up : note.status.up with
  | false =>
      refine ⟨vcust, messages, notify_of_down up, holds, ?_, valid⟩
      simpa [servedCount_concat, up] using height
  | true =>
      have bound := inBounds up
      cases queue : note.queue with
      | outbuf =>
          simp only [queue] at bound
          have stored := holds.storeMessage note.element (by omega)
          refine ⟨_, _, notify_outbuf up queue, stored.1, ?_, ?_⟩
          · simp only [servedCount_concat, queue, up, List.length_append, List.length_singleton]
            simp
            omega
          · intro use use_mem
            rw [stored.2, List.mem_append] at use_mem
            rcases use_mem with earlier | new
            · exact valid use earlier
            · simp only [List.mem_cons, List.not_mem_nil, or_false] at new
              rcases new with rfl | rfl
              · simp only [SlotUse.Valid]
                omega
              · exact ⟨by omega, rfl⟩
      | inbuf =>
          simp only [queue] at bound
          rcases List.eq_nil_or_concat messages with rfl | ⟨held, top, rfl⟩
          · simp only [List.length_nil] at height
            omega
          · rw [List.concat_eq_append] at holds height
            have dropped := holds.dropMessage
            have bounded := holds.bounded
            simp only [List.length_append, List.length_singleton] at height bounded
            refine ⟨_, held, notify_inbuf up queue, dropped.1, ?_, ?_⟩
            · simp only [servedCount_concat, queue, up]
              simp
              omega
            · intro use use_mem
              rw [dropped.2.1, List.mem_append] at use_mem
              rcases use_mem with earlier | new
              · exact valid use earlier
              · simp only [List.mem_cons, List.not_mem_nil, or_false, or_self] at new
                subst new
                exact ⟨by omega, rfl⟩

/-- A notification out of bounds is served too, with a use of the table that is not valid. -/
theorem notify_invalid (consistent : Consistent notes vcust messages)
    (outOfBounds : ¬InBounds notes note) :
    ∃ after, Virtio.notify beyond vcust note = some after ∧
      ∃ use ∈ after.slotUses, ¬use.Valid := by
  rcases consistent with ⟨holds, height, valid⟩
  have counted := holds.count
  simp only [InBounds, Classical.not_imp] at outOfBounds
  rcases outOfBounds with ⟨up, bound⟩
  cases queue : note.queue with
  | outbuf =>
      simp only [queue] at bound
      rcases vcust.slotUses_storeMessage note.element with ⟨live, uses⟩
      refine ⟨_, notify_outbuf up queue, .store vcust.rcvCount.toNat, by simp [uses], ?_⟩
      simp only [SlotUse.Valid]
      omega
  | inbuf =>
      -- the unsigned `rcv_count - 1` of an empty table is the largest index
      simp only [queue] at bound
      rcases vcust.slotUses_dropMessage with ⟨live, uses⟩
      refine ⟨_, notify_inbuf up queue, .load vcust.lastBuf live, by simp [uses], ?_⟩
      rintro ⟨inside, _⟩
      rw [VirtIOCustdev.lastBuf, Counter.toNat_sub_one_of_zero (by omega)] at inside
      simp [virtioCustdevBuffers] at inside

end Consistent

theorem run_guestDriven (beyond : ℕ → UInt8) (notes : List Notification) :
    ∃ vcust, (guestDriven beyond).run virtioCustdevDeviceRealize notes = some vcust ∧
      (WithinBounds notes → ∃ messages, Consistent notes vcust messages) ∧
      (¬WithinBounds notes → ∃ use ∈ vcust.slotUses, ¬use.Valid) := by
  induction notes using List.reverseRecOn with
  | nil =>
      refine ⟨_, System.run_nil _, ?_, fun outside => absurd withinBounds_nil outside⟩
      intro _
      exact ⟨[], holds_virtioCustdevDeviceRealize, rfl, by simp [virtioCustdevDeviceRealize]⟩
  | append_singleton notes note ih =>
      rcases ih with ⟨vcust, ran, consistent, invalid⟩
      rw [withinBounds_concat]
      by_cases within : WithinBounds notes
      · rcases consistent within with ⟨messages, consistent⟩
        by_cases inBounds : InBounds notes note
        · rcases consistent.notify beyond inBounds with ⟨after, held, served, kept⟩
          exact ⟨after, System.run_concat ran served, fun _ => ⟨held, kept⟩,
            fun outside => absurd ⟨within, inBounds⟩ outside⟩
        · rcases consistent.notify_invalid beyond inBounds with ⟨after, served, use⟩
          exact ⟨after, System.run_concat ran served, fun inside => absurd inside.2 inBounds,
            fun _ => use⟩
      · rcases slotUses_notify beyond vcust note with ⟨after, served, kept⟩
        rcases invalid within with ⟨use, use_mem, notValid⟩
        exact ⟨after, System.run_concat ran served, fun inside => absurd inside.1 within,
          fun _ => ⟨use, kept use use_mem, notValid⟩⟩

/--
For every sequence of notifications by the guest, the device uses its table within bounds and
loads only stored messages if and only if every notification is in bounds. While it does,
`rcv_count` is the number of stores less the number of loads and at most the size of the table.
-/
theorem slotUses_valid_iff_withinBounds (beyond : ℕ → UInt8) (notes : List Notification) :
    ∃ vcust, (guestDriven beyond).run virtioCustdevDeviceRealize notes = some vcust ∧
      ((∀ use ∈ vcust.slotUses, use.Valid) ↔ WithinBounds notes) ∧
      (WithinBounds notes →
        vcust.rcvCount.toNat + servedCount .inbuf notes = servedCount .outbuf notes ∧
          vcust.rcvCount.toNat ≤ virtioCustdevBuffers) := by
  rcases run_guestDriven beyond notes with ⟨vcust, ran, consistent, invalid⟩
  refine ⟨vcust, ran, ⟨?_, ?_⟩, ?_⟩
  · intro valid
    by_contra outside
    rcases invalid outside with ⟨use, use_mem, notValid⟩
    exact notValid (valid use use_mem)
  · intro within
    rcases consistent within with ⟨messages, consistent⟩
    exact consistent.valid
  · intro within
    rcases consistent within with ⟨messages, holds, height, _⟩
    rw [holds.count]
    exact ⟨height, holds.bounded⟩

/-- A guest that only asks for a message reads the slot before the table. -/
theorem slotUses_of_empty_load : ∃ vcust,
    (guestDriven fun _ => 0).run virtioCustdevDeviceRealize
        [{ queue := .inbuf, element := { inSg := [16] } }] = some vcust ∧
      ¬∀ use ∈ vcust.slotUses, use.Valid := by
  refine ⟨_, rfl, ?_⟩
  decide

end VirtLearn.Virtio
