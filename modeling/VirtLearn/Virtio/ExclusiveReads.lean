import VirtLearn.Virtio.RequestBuffers

/-!
# Reads that keep out of each other's way

`read_data` and `data_ready` are shared by all readers, so a completion wakes whichever of them the
scheduler picks, not the one whose buffer was answered, and a reader that was woken copies from
wherever `read_data` points when it gets to it. The buffers are safe under the discipline that a
read posts its request only when none is outstanding, every completion has been waited for, and
every read that was woken is done with its copy or copies from its own buffer (`exclusive`). Each
breach lets the device, the callback and the readers free a buffer that is still in the receive
queue or copy from one that is freed.
-/

namespace VirtLearn.Virtio

/--
A request is posted only when the receive queue and `data_ready` are empty, and no other read has
yet to look at `read_data` or copies from a buffer of another read.
-/
def exclusive (state : Tracked) (action : TrackedStep) : Prop :=
  match action with
  | .readPost answer =>
      answer.allocated = true → answer.added = true → 0 < state.driver.buffers.toNat →
        state.driver.vqRx.avail = [] ∧ state.driver.vqRx.used = [] ∧
          state.driver.dataReady = 0 ∧ state.buffers.woken = [] ∧
          ∀ read ∈ state.buffers.copying, read.source = some read.own
  | _ => True

/-- The reads that copy from a buffer other than their own. -/
def borrowing (copying : List CopyingRead) : ℕ :=
  copying.countP fun read => read.source ≠ some read.own

/-- At most one request, completion or read depends on a buffer, which a read that waits holds. -/
structure Outline.Exclusive (outline : Outline) : Prop where
  single : outline.asked + outline.answered + outline.ready + outline.buffers.woken.length +
    borrowing outline.buffers.copying ≤ 1
  held : ∀ buffer ∈ outline.buffers.asked ++ outline.buffers.answered,
    buffer ∈ outline.buffers.waiting
  source : 0 < outline.ready →
    ∃ buffer, outline.buffers.readData = some buffer ∧ buffer ∈ outline.buffers.waiting
  woken : ∀ own ∈ outline.buffers.woken, ∃ buffer, outline.buffers.readData = some buffer ∧
    (buffer = own ∨ buffer ∈ outline.buffers.waiting)
  copying : ∀ read ∈ outline.buffers.copying, ∃ buffer, read.source = some buffer ∧
    (buffer = read.own ∨ buffer ∈ outline.buffers.waiting)
  copied : outline.buffers.staleCopy = false

section Exclusive

variable {state before after : Tracked}

theorem not_freed_of_reading {buffers : RequestBuffers} {buffer : ℕ}
    (custody : Custody buffers.issued buffers.kept) (reading : buffer ∈ buffers.reading) :
    buffer ∉ buffers.freed := by
  intro freed
  have once := custody.nodup
  simp only [RequestBuffers.kept, List.nodup_append] at once
  have listed : buffer ∈ buffers.sending ++ buffers.sent ++ buffers.stranded ++ buffers.reading :=
    List.mem_append_right _ reading
  exact once.2.2 buffer listed buffer freed rfl

theorem not_freed_of_waiting {buffers : RequestBuffers} {buffer : ℕ}
    (custody : Custody buffers.issued buffers.kept) (waiting : buffer ∈ buffers.waiting) :
    buffer ∉ buffers.freed := by
  apply not_freed_of_reading custody
  simp [RequestBuffers.reading, waiting]

theorem borrowing_eq_zero_iff {copying : List CopyingRead} :
    borrowing copying = 0 ↔ ∀ read ∈ copying, read.source = some read.own := by
  simp [borrowing, List.countP_eq_zero]

theorem borrowing_concat_le (copying : List CopyingRead) (read : CopyingRead) :
    borrowing (copying ++ [read]) ≤ borrowing copying + 1 := by
  simp only [borrowing, List.countP_append]
  exact Nat.add_le_add_left List.countP_le_length _

theorem borrowing_eraseIdx_le (copying : List CopyingRead) (position : ℕ) :
    borrowing (copying.eraseIdx position) ≤ borrowing copying :=
  (List.eraseIdx_sublist _ _).countP_le

theorem Outline.Exclusive.moves {action : TrackedStep} {outline : Outline}
    (exclusive_before : before.outline.Exclusive) (aligned : before.outline.Aligned)
    (custody : Custody before.buffers.issued before.buffers.kept)
    (permitted : exclusive before action) (moves : before.Moves action outline) :
    outline.Exclusive := by
  rcases exclusive_before with ⟨single, held, source, woken, copying, copied⟩
  rcases aligned with ⟨asked, answered, -, -⟩
  change before.buffers.asked.length = _ at asked
  change before.buffers.answered.length = _ at answered
  change before.outline.asked + before.outline.answered + before.outline.ready +
    before.buffers.woken.length + borrowing before.buffers.copying ≤ 1 at single
  change ∀ buffer ∈ before.buffers.asked ++ before.buffers.answered,
    buffer ∈ before.buffers.waiting at held
  change ∀ own ∈ before.buffers.woken, ∃ buffer, before.buffers.readData = some buffer ∧
    (buffer = own ∨ buffer ∈ before.buffers.waiting) at woken
  change ∀ read ∈ before.buffers.copying, ∃ buffer, read.source = some buffer ∧
    (buffer = read.own ∨ buffer ∈ before.buffers.waiting) at copying
  cases moves with
  | still => exact ⟨single, held, source, woken, copying, copied⟩
  | send => exact ⟨single, held, source, woken, copying, copied⟩
  | strand => exact ⟨single, held, source, woken, copying, copied⟩
  | @post answer filled allocated =>
      have sourceNext : 0 < before.outline.ready → ∃ buffer,
          before.buffers.readData = some buffer ∧
            buffer ∈ before.buffers.waiting ++ [before.buffers.issued] := by
        intro ready
        rcases source ready with ⟨buffer, read, waiting⟩
        exact ⟨buffer, read, List.mem_append_left _ waiting⟩
      have wokenNext : ∀ own ∈ before.buffers.woken, ∃ buffer,
          before.buffers.readData = some buffer ∧
            (buffer = own ∨ buffer ∈ before.buffers.waiting ++ [before.buffers.issued]) := by
        intro own listed
        rcases woken own listed with ⟨buffer, read, held⟩
        exact ⟨buffer, read, held.imp_right (List.mem_append_left _)⟩
      have copyingNext : ∀ read ∈ before.buffers.copying, ∃ buffer, read.source = some buffer ∧
          (buffer = read.own ∨ buffer ∈ before.buffers.waiting ++ [before.buffers.issued]) := by
        intro read listed
        rcases copying read listed with ⟨buffer, source, held⟩
        exact ⟨buffer, source, held.imp_right (List.mem_append_left _)⟩
      cases added : answer.added with
      | false =>
          refine ⟨single, ?_, sourceNext, wokenNext, copyingNext, copied⟩
          intro buffer listed
          exact List.mem_append_left _ (held buffer listed)
      | true =>
          -- nothing else is under way, so the new request is the only one
          rcases permitted allocated added filled with ⟨avail, used, ready, wokenNone, own⟩
          have askedNone : before.outline.asked = 0 := by simp [Tracked.outline, avail]
          have answeredNone : before.outline.answered = 0 := by simp [Tracked.outline, used]
          have readyNone : before.outline.ready = 0 := ready
          have borrowingNone := borrowing_eq_zero_iff.mpr own
          refine ⟨?_, ?_, sourceNext, wokenNext, copyingNext, copied⟩
          · change (if true = true then before.outline.asked + 1 else before.outline.asked) +
              before.outline.answered + before.outline.ready + before.buffers.woken.length +
              borrowing before.buffers.copying ≤ 1
            simp [askedNone, answeredNone, readyNone, wokenNone, borrowingNone]
          · simp only [if_true]
            intro buffer listed
            rw [askedNone, List.length_eq_zero_iff] at asked
            rw [answeredNone, List.length_eq_zero_iff] at answered
            simp only [asked, answered, List.nil_append, List.append_nil,
              List.mem_singleton] at listed
            simp [listed]
  | @wake position own found signalled =>
      -- the one completion is waited for, so no request is under way
      have askedNone : before.buffers.asked = [] := by
        rw [← List.length_eq_zero_iff]
        omega
      have answeredNone : before.buffers.answered = [] := by
        rw [← List.length_eq_zero_iff]
        omega
      have wokenNone : before.buffers.woken = [] := by
        rw [← List.length_eq_zero_iff]
        omega
      have borrowingNone : borrowing before.buffers.copying = 0 := by omega
      refine ⟨?_, ?_, ?_, ?_, ?_, copied⟩
      · change before.outline.asked + before.outline.answered + (before.outline.ready - 1) +
          (before.buffers.woken ++ [own]).length + borrowing before.buffers.copying ≤ 1
        simp only [List.length_append, List.length_singleton]
        omega
      · simp [askedNone, answeredNone]
      · simp only
        omega
      · simp only [wokenNone, List.nil_append, List.mem_singleton]
        rintro _ rfl
        rcases source signalled with ⟨buffer, read, waiting⟩
        refine ⟨buffer, read, ?_⟩
        have taken := (perm_of_found found).mem_iff.mpr waiting
        exact List.mem_cons.mp taken
      · intro read listed
        exact ⟨read.own, borrowing_eq_zero_iff.mp borrowingNone read listed, Or.inl rfl⟩
  | @copyStart position own length found =>
      -- the read that was woken is all that is under way
      have inside := (List.getElem?_eq_some_iff.mp found).1
      have askedNone : before.buffers.asked = [] := by
        rw [← List.length_eq_zero_iff]
        omega
      have answeredNone : before.buffers.answered = [] := by
        rw [← List.length_eq_zero_iff]
        omega
      refine ⟨?_, ?_, ?_, ?_, ?_, copied⟩
      · change before.outline.asked + before.outline.answered + before.outline.ready +
          (before.buffers.woken.eraseIdx position).length +
          borrowing (before.buffers.copying ++
            [{ own, source := before.buffers.readData, length }]) ≤ 1
        have more := borrowing_concat_le before.buffers.copying
          { own, source := before.buffers.readData, length }
        rw [List.length_eraseIdx_of_lt inside]
        omega
      · simp [askedNone, answeredNone]
      · simp only
        omega
      · intro other listed
        exact woken other (List.mem_of_mem_eraseIdx listed)
      · intro read listed
        rcases List.mem_append.mp listed with listed | listed
        · exact copying read listed
        · rw [List.mem_singleton] at listed
          subst listed
          exact woken own (List.mem_of_getElem? found)
  | @copyEnd position uncopied read found =>
      have listed := List.mem_of_getElem? found
      rcases copying read listed with ⟨buffer, source_eq, held_by⟩
      have live : buffer ∉ before.buffers.freed := by
        rcases held_by with rfl | waiting
        · apply not_freed_of_reading custody
          have mapped : read.own ∈ before.buffers.copying.map CopyingRead.own :=
            List.mem_map_of_mem listed
          simp only [RequestBuffers.reading, List.mem_append]
          exact Or.inl (Or.inr mapped)
        · exact not_freed_of_waiting custody waiting
      refine ⟨?_, held, source, woken, ?_, ?_⟩
      · change before.outline.asked + before.outline.answered + before.outline.ready +
          before.buffers.woken.length + borrowing (before.buffers.copying.eraseIdx position) ≤ 1
        have fewer := borrowing_eraseIdx_le before.buffers.copying position
        omega
      · intro other listed
        exact copying other (List.mem_of_mem_eraseIdx listed)
      · have notStale : before.buffers.staleCopy = false := copied
        simp [notStale, source_eq, live]
  | readReturn => exact ⟨single, held, source, woken, copying, copied⟩
  | @use position len buffer filled found =>
      have inside := (List.getElem?_eq_some_iff.mp found).1
      refine ⟨?_, ?_, source, woken, copying, copied⟩
      · change before.outline.asked - 1 + (before.outline.answered + 1) + before.outline.ready +
          before.buffers.woken.length + borrowing before.buffers.copying ≤ 1
        omega
      · intro other listed
        simp only [List.mem_append, List.mem_singleton] at listed
        apply held
        rcases listed with asked | answered | rfl
        · exact List.mem_append_left _ (List.mem_of_mem_eraseIdx asked)
        · exact List.mem_append_right _ answered
        · exact List.mem_append_left _ (List.mem_of_getElem? found)
  | useOutbuf => exact ⟨single, held, source, woken, copying, copied⟩
  | @inbufCb buffer rest first =>
      -- `read_data` changes, but no read that was woken has yet to look at it
      have collected : before.outline.answered = rest.length + 1 := by
        rw [← answered, first, List.length_cons]
      have wokenNone : before.buffers.woken = [] := by
        rw [← List.length_eq_zero_iff]
        omega
      refine ⟨?_, ?_, ?_, ?_, copying, copied⟩
      · change before.outline.asked + (before.outline.answered - 1) +
          (before.outline.ready + 1) + before.buffers.woken.length +
          borrowing before.buffers.copying ≤ 1
        omega
      · intro other listed
        apply held
        rw [first]
        grind
      · intro _
        refine ⟨buffer, rfl, held buffer ?_⟩
        simp [first]
      · simp [wokenNone]
  | outbufCb => exact ⟨single, held, source, woken, copying, copied⟩

theorem exclusive_of_reachable (reachable : tracked.Reachable exclusive state) :
    state.outline.Aligned ∧ Custody state.buffers.issued state.buffers.kept ∧
      state.outline.Exclusive := by
  apply reachable.invariant
  · refine ⟨⟨rfl, rfl, rfl, rfl⟩, Custody.empty, Nat.zero_le _, ?_, ?_, ?_, ?_, rfl⟩
    · intro buffer listed
      cases listed
    · intro ready
      cases ready
    · intro own listed
      cases listed
    · intro read listed
      cases listed
  · rintro before action after ⟨aligned, custody, kept⟩ permitted taken
    have moves := moves_tracked aligned taken
    exact ⟨aligned.moves moves, custody_moves custody moves,
      kept.moves aligned custody permitted moves⟩

/-! ### What a breach leads to -/

/-- The device, the callback and the reads that wait can go on to where a freed buffer is in the
receive queue or was copied from. -/
def CanGoWrong (state : Tracked) : Prop :=
  ∃ steps last, (∀ action ∈ steps, action.Internal) ∧ tracked.run state steps = some last ∧
    ¬last.buffers.Sound

theorem CanGoWrong.of_run {steps : List TrackedStep} {next : Tracked} (wrong : CanGoWrong next)
    (internal : ∀ action ∈ steps, action.Internal) (ran : tracked.run state steps = some next) :
    CanGoWrong state := by
  rcases wrong with ⟨later, last, internalLater, ranLater, unsound⟩
  refine ⟨steps ++ later, last, ?_, ?_, unsound⟩
  · intro action listed
    rcases List.mem_append.mp listed with first | second
    · exact internal action first
    · exact internalLater action second
  · rw [System.run_append, ran, Option.bind_some, ranLater]

theorem internal_finishSteps {buffers : RequestBuffers} {position uncopied : ℕ} :
    ∀ action ∈ finishSteps buffers position uncopied, action.Internal := by
  simp [finishSteps, TrackedStep.Internal]

/-- A copy that was stale is not forgotten. -/
theorem canGoWrong_of_stale {steps : List TrackedStep}
    (internal : ∀ action ∈ steps, action.Internal)
    (stale : ∃ last, tracked.run state steps = some last ∧ last.buffers.staleCopy = true) :
    CanGoWrong state := by
  rcases stale with ⟨last, ran, copied⟩
  refine ⟨steps, last, internal, ran, ?_⟩
  intro sound
  rw [sound.copied] at copied
  cases copied

/-- With a completion at hand, a read whose own request is in the queue can go on to its return. -/
theorem canGoWrong_of_ready {position buffer : ℕ}
    (found : state.buffers.waiting[position]? = some buffer)
    (queued : buffer ∈ state.buffers.asked ++ state.buffers.answered)
    (ready : 0 < state.driver.dataReady) : CanGoWrong state := by
  refine ⟨_, _, internal_finishSteps, run_readFinish (fun _ => 0) 0 found ready, ?_⟩
  intro sound
  exact sound.queued buffer (by simp [RequestBuffers.finished]) queued

/-- With an answer at hand, the callback signals a completion. -/
theorem exists_ready_of_answered {first : ℕ} {rest : List ℕ} (aligned : state.outline.Aligned)
    (answered : state.buffers.answered = first :: rest) :
    ∃ next, tracked.step state .inbufCb = some next ∧ 0 < next.driver.dataReady ∧
      next.buffers = { state.buffers with answered := rest, readData := some first } := by
  have used : state.driver.vqRx.used ≠ [] := by
    intro none_used
    have counted := aligned.answered
    simp [Tracked.outline, none_used, answered] at counted
  refine ⟨{ driver := virtioCustdevInbufCb state.driver, buffers := state.buffers.inbufCb }, ?_,
    Nat.succ_pos _, ?_⟩
  · simp [tracked, Tracked.onDriver, Clients.inbufCb, used]
  · simp [RequestBuffers.inbufCb, answered]

/-- With a request at hand, the device uses it, and the callback signals a completion. -/
theorem exists_ready_of_asked {first : ℕ} {rest : List ℕ} (aligned : state.outline.Aligned)
    (asked : state.buffers.asked = first :: rest) (answered : state.buffers.answered = []) :
    ∃ next, tracked.run state [.use 0 [] 0, .inbufCb] = some next ∧ 0 < next.driver.dataReady ∧
      next.buffers = { state.buffers with asked := rest, readData := some first } := by
  cases avail : state.driver.vqRx.avail with
  | nil =>
      have counted := aligned.asked
      change state.buffers.asked.length = state.driver.vqRx.avail.length at counted
      simp [asked, avail] at counted
  | cons vqe others =>
      have stepped : ∃ used, tracked.step state (.use 0 [] 0) = some used ∧
          used.buffers = { state.buffers with asked := rest, answered := [first] } := by
        simp [tracked, Tracked.onDriver, Clients.use, avail, RequestBuffers.use, asked, answered]
      rcases stepped with ⟨used, taken, buffers⟩
      have alignedNext := aligned.moves (moves_tracked aligned taken)
      have answeredNext : used.buffers.answered = [first] := by rw [buffers]
      rcases exists_ready_of_answered alignedNext answeredNext with
        ⟨next, collected, ready, buffersNext⟩
      refine ⟨next, ?_, ready, ?_⟩
      · rw [System.run_of_step taken, System.run_of_step collected, System.run_nil]
      · simp only [buffersNext, buffers, answered]

theorem canGoWrong_of_answered {position buffer first : ℕ} {rest : List ℕ}
    (aligned : state.outline.Aligned) (found : state.buffers.waiting[position]? = some buffer)
    (queued : buffer ∈ state.buffers.asked) (answered : state.buffers.answered = first :: rest) :
    CanGoWrong state := by
  rcases exists_ready_of_answered aligned answered with ⟨next, collected, ready, buffers⟩
  have ran : tracked.run state [.inbufCb] = some next := by
    rw [System.run_of_step collected, System.run_nil]
  refine CanGoWrong.of_run ?_ (by simp [TrackedStep.Internal]) ran
  apply @canGoWrong_of_ready _ position buffer
  · rw [buffers, found]
  · rw [buffers]
    exact List.mem_append_left _ queued
  · exact ready

/-- The device uses another request first. -/
theorem canGoWrong_of_asked {position buffer first : ℕ} {rest : List ℕ}
    (aligned : state.outline.Aligned) (found : state.buffers.waiting[position]? = some buffer)
    (asked : state.buffers.asked = first :: rest) (queued : buffer ∈ rest)
    (answered : state.buffers.answered = []) : CanGoWrong state := by
  rcases exists_ready_of_asked aligned asked answered with ⟨next, ran, ready, buffers⟩
  refine CanGoWrong.of_run ?_ (by simp [TrackedStep.Internal]) ran
  apply @canGoWrong_of_ready _ position buffer
  · rw [buffers, found]
  · rw [buffers]
    exact List.mem_append_left _ queued
  · exact ready

/-- A read that has yet to look at `read_data` finds the buffer of a read that has returned. -/
theorem canGoWrong_of_woken {position reader index buffer : ℕ} (aligned : state.outline.Aligned)
    (woken : state.buffers.woken[index]? = some reader)
    (found : state.buffers.waiting[position]? = some buffer)
    (asked : state.buffers.asked = [buffer]) (answered : state.buffers.answered = []) :
    CanGoWrong state := by
  rcases exists_ready_of_asked aligned asked answered with ⟨next, ran, ready, buffers⟩
  have foundNext : next.buffers.waiting[position]? = some buffer := by rw [buffers, found]
  have wokenNext : next.buffers.woken[index]? = some reader := by rw [buffers, woken]
  have dataNext : next.buffers.readData = some buffer := by rw [buffers]
  refine CanGoWrong.of_run ?_ (by simp [TrackedStep.Internal]) ran
  have stale : ∃ last, tracked.run next (finishSteps next.buffers position 0 ++
      [.copyStart index, .copyEnd next.buffers.copying.length 0]) = some last ∧
        last.buffers.staleCopy = true := by
    rw [System.run_append, run_readFinish (fun _ => 0) 0 foundNext ready]
    simp [System.run, tracked, Tracked.copyStart, RequestBuffers.copyStart, Tracked.copyEnd,
      RequestBuffers.copyEnd, RequestBuffers.finished, wokenNext, dataNext]
  exact canGoWrong_of_stale (by simp [finishSteps, TrackedStep.Internal]) stale

/-- A read that copies from the buffer of another one is overtaken by that one's return. -/
theorem canGoWrong_of_copying {position index buffer other : ℕ} {read : CopyingRead}
    (aligned : state.outline.Aligned) (copying : state.buffers.copying[index]? = some read)
    (source : read.source = some buffer)
    (found : state.buffers.waiting[position]? = some buffer)
    (asked : state.buffers.asked = [other]) (answered : state.buffers.answered = []) :
    CanGoWrong state := by
  rcases exists_ready_of_asked aligned asked answered with ⟨next, ran, ready, buffers⟩
  have foundNext : next.buffers.waiting[position]? = some buffer := by rw [buffers, found]
  have copyingNext : next.buffers.copying[index]? = some read := by rw [buffers, copying]
  refine CanGoWrong.of_run ?_ (by simp [TrackedStep.Internal]) ran
  have stale : ∃ last, tracked.run next (finishSteps next.buffers position 0 ++
      [.copyEnd index 0]) = some last ∧ last.buffers.staleCopy = true := by
    rw [System.run_append, run_readFinish (fun _ => 0) 0 foundNext ready]
    simp [System.run, tracked, Tracked.copyEnd, RequestBuffers.copyEnd, RequestBuffers.finished,
      copyingNext, source]
  exact canGoWrong_of_stale (by simp [finishSteps, TrackedStep.Internal]) stale

/-- What a read that is let in leaves. -/
theorem posted_of_added {answer : ReadAnswer} {next : Tracked} (allocated : answer.allocated = true)
    (added : answer.added = true) (filled : 0 < state.driver.buffers.toNat)
    (taken : tracked.step state (.readPost answer) = some next) :
    next.buffers = { state.buffers with
        issued := state.buffers.issued + 1
        waiting := state.buffers.waiting ++ [state.buffers.issued]
        asked := state.buffers.asked ++ [state.buffers.issued] } ∧
      next.driver.dataReady = state.driver.dataReady := by
  have notEmpty : ¬state.driver.buffers.toNat < 1 := by omega
  cases Option.some.inj taken
  constructor
  · simp [Tracked.readPost, RequestBuffers.readPost, notEmpty, allocated, added]
  · simp [Tracked.readPost, virtioCustdevReadPost_of_filled allocated filled]

/-- A request that joins another, a completion not waited for, or a read not done, is a race. -/
theorem canGoWrong_of_breach {answer : ReadAnswer} {next : Tracked}
    (reachable : tracked.Reachable exclusive state)
    (breach : ¬exclusive state (.readPost answer))
    (taken : tracked.step state (.readPost answer) = some next) : CanGoWrong next := by
  rcases exclusive_of_reachable reachable with ⟨aligned, -, kept⟩
  simp only [exclusive, Classical.not_imp] at breach
  rcases breach with ⟨allocated, added, filled, busy⟩
  have alignedNext := aligned.moves (moves_tracked aligned taken)
  rcases posted_of_added allocated added filled taken with ⟨buffers, sameReady⟩
  have found : next.buffers.waiting[state.buffers.waiting.length]? = some state.buffers.issued := by
    simp [buffers]
  have queued : state.buffers.issued ∈ next.buffers.asked := by simp [buffers]
  by_cases ready : 0 < state.driver.dataReady
  · exact canGoWrong_of_ready found (List.mem_append_left _ queued) (by omega)
  cases used : state.buffers.answered with
  | cons oldest others =>
      have answeredNext : next.buffers.answered = oldest :: others := by simp [buffers, used]
      exact canGoWrong_of_answered alignedNext found queued answeredNext
  | nil =>
      have answeredNext : next.buffers.answered = [] := by simp [buffers, used]
      cases avail : state.buffers.asked with
      | cons oldest others =>
          have askedNext : next.buffers.asked = oldest :: (others ++ [state.buffers.issued]) := by
            simp [buffers, avail]
          exact canGoWrong_of_asked alignedNext found askedNext (by simp) answeredNext
      | nil =>
          -- the new request is the only one, and its completion comes before the other read is done
          have askedNext : next.buffers.asked = [state.buffers.issued] := by simp [buffers, avail]
          cases woken : state.buffers.woken with
          | cons reader others =>
              have wokenNext : next.buffers.woken[0]? = some reader := by simp [buffers, woken]
              exact canGoWrong_of_woken alignedNext wokenNext found askedNext answeredNext
          | nil =>
              have borrowed : ∃ read ∈ state.buffers.copying, read.source ≠ some read.own := by
                by_contra none_borrows
                simp only [not_exists, not_and, not_not] at none_borrows
                have noneAsked := aligned.asked
                have noneAnswered := aligned.answered
                simp only [Tracked.outline, avail, used, List.length_nil, eq_comm,
                  List.length_eq_zero_iff] at noneAsked noneAnswered
                exact busy ⟨noneAsked, noneAnswered, by omega, woken, none_borrows⟩
              rcases borrowed with ⟨read, listed, other⟩
              rcases kept.copying read listed with ⟨buffer, source, own | waiting⟩
              · exact absurd (own ▸ source) other
              · rcases List.getElem?_of_mem listed with ⟨index, copying⟩
                have copyingNext : next.buffers.copying[index]? = some read := by
                  simpa [buffers] using copying
                have waitingNext : buffer ∈ next.buffers.waiting := by
                  rw [buffers]
                  exact List.mem_append_left _ waiting
                rcases List.getElem?_of_mem waitingNext with ⟨position, foundOther⟩
                exact canGoWrong_of_copying alignedNext copyingNext source foundOther askedNext
                  answeredNext

/--
In every run of clients that keep the discipline, no read frees a buffer of the receive queue or
copies from a freed one; and from a state of such a run, a read that breaches it leaves the driver
in a state from which the device, the callback and the reads that wait alone can make it so.
-/
theorem sound_of_exclusive :
    (∀ state, tracked.Reachable exclusive state → state.buffers.Sound) ∧
    ∀ state action next, tracked.Reachable exclusive state → ¬exclusive state action →
      tracked.step state action = some next →
      ∃ steps last, (∀ action ∈ steps, action.Internal) ∧
        tracked.run next steps = some last ∧ ¬last.buffers.Sound := by
  constructor
  · intro state reachable
    rcases exclusive_of_reachable reachable with ⟨-, custody, exclusive⟩
    refine ⟨?_, exclusive.copied⟩
    intro buffer freed listed
    exact not_freed_of_waiting custody (exclusive.held buffer listed) freed
  · intro state action next reachable breach taken
    cases action with
    | readPost answer => exact canGoWrong_of_breach reachable breach taken
    | _ => exact absurd trivial breach

/-- A second read posts its request while the first one copies from its own buffer. -/
theorem sound_of_exclusive_two : ∃ state : Tracked,
    state.buffers.freed = [2] ∧ state.buffers.asked = [3] ∧ state.buffers.Sound := by
  have follows : ∃ state, tracked.Follows exclusive {}
      [.write {} [7], .write {} [8], .readPost {}, .use 0 [7] 1, .inbufCb, .wake 0, .copyStart 0,
        .readPost {}, .copyEnd 0 0, .readReturn 0] state ∧
        state.buffers.freed = [2] ∧ state.buffers.asked = [3] := by
    refine ⟨_, ⟨trivial, _, rfl, trivial, _, rfl, fun _ _ _ => ⟨rfl, rfl, rfl, rfl, ?_⟩, _, rfl,
      trivial, _, rfl, trivial, _, rfl, trivial, _, rfl, trivial, _, rfl,
      fun _ _ _ => ⟨rfl, rfl, rfl, rfl, ?_⟩, _, rfl, trivial, _, rfl, trivial, _, rfl, rfl⟩,
      rfl, rfl⟩
    · intro read listed
      cases listed
    · intro read listed
      cases List.mem_singleton.mp listed
      rfl
  rcases follows with ⟨state, follows, freed, asked⟩
  exact ⟨state, freed, asked,
    sound_of_exclusive.1 state (System.Reachable.initial.follows follows)⟩

end Exclusive

end VirtLearn.Virtio
