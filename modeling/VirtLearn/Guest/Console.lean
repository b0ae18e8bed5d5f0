import VirtLearn.Guest.Printing
import VirtLearn.Guest.Screen
import VirtLearn.Kvm.Mmio
import VirtLearn.Transition

/-!
# From the guest's text to the output of the host

The guest's text routines with the virtual machine monitor behind the bus: each store that no
memory slot takes is one MMIO exit, with the address of the store and its bytes. Addresses are
physical ones: the pages of the text routines and of video memory are mapped to themselves.

Between the calls the guest may do what it likes, as long as it leaves the cursor alone and makes
no exits of its own.
-/

namespace VirtLearn.Guest

open Assembly Register Kvm

/-- The guest on its machine, and the monitor. -/
structure Console where
  guest : Machine
  vmm : Vmm

/-- The guest's own business, or a call of a text routine. -/
inductive Activity where
  | program (next : Machine)
  | puts (text : List Byte)
  | println

def Activity.text : Activity → List Byte
  | .program _ => []
  | .puts text => text
  | .println => [10]

def textOf (activities : List Activity) : List Byte :=
  activities.flatMap Activity.text

theorem textOf_cons (activity : Activity) (rest : List Activity) :
    textOf (activity :: rest) = activity.text ++ textOf rest :=
  List.flatMap_cons

theorem textOf_append (first second : List Activity) :
    textOf (first ++ second) = textOf first ++ textOf second :=
  List.flatMap_append

def exitOf (write : BusWrite) : MmioExit :=
  { physAddr := write.address
    data := write.bytes
    len := BitVec.ofNat 32 write.bytes.length
    isWrite := 1 }

/-- The guest after its own business: the cursor is as it was, and nothing went out. -/
def unattended (symbols : Symbols) (guest next : Machine) : Machine :=
  { next with
    ram := guest.ram
    memory := fun place =>
      if Within place symbols.videoCurrent 8 then guest.memory place else next.memory place
    writes := guest.writes }

/-- Call a routine, and give its exits to the monitor. -/
def Console.enter (replies : Replies) (routine : Routine Unit) (console : Console) :
    Option Console :=
  (call routine console.guest).map fun (_, after) =>
    { guest := after
      vmm := console.vmm.serve replies
        ((after.writes.drop console.guest.writes.length).map exitOf) }

/-- The guest runs as long as the monitor does. -/
def session (symbols : Symbols) (replies : Replies) (initial : Console) :
    System Console Activity where
  initial
  step := fun console activity =>
    if console.vmm.exited.isSome then none
    else
      match activity with
      | .program next => some { console with guest := unattended symbols console.guest next }
      | .puts text => console.enter replies (puts symbols (text.length + 1))
      | .println => console.enter replies (println symbols)

def handsOver (symbols : Symbols) (console : Console) : Activity → Prop
  | .puts text =>
      console.guest.registers rsi ≠ 0#64 ∧
        StringAt symbols console.guest text (console.guest.registers rsi)
  | _ => True

def InWindow (cursor : Address) : Prop :=
  0xb8000 ≤ cursor ∧ cursor ≤ 0xb9ff0

instance (cursor : Address) : Decidable (InWindow cursor) :=
  inferInstanceAs (Decidable (_ ∧ _))

def cursorAt (place : ℕ) : Address :=
  0xb8000 + BitVec.ofNat 64 (2 * place)

/-! ### The screen and the cursor -/

theorem cursorAt_mod (place : ℕ) : cursorAt (place % Screen.places) = cursorAt place := by
  apply BitVec.eq_of_toNat_eq
  simp only [cursorAt, Screen.places, BitVec.toNat_add, BitVec.toNat_ofNat]
  omega

theorem cursorAt_sub (place : ℕ) : cursorAt place - 0xb8000 = BitVec.ofNat 64 (2 * place) := by
  rw [cursorAt, BitVec.add_comm, BitVec.add_sub_cancel]

theorem column_cursorAt {place : ℕ} (inSpace : place < Screen.places) :
    (cursorAt place - 0xb8000) % 160 = 0 ↔ place % Screen.columns = 0 := by
  rw [Screen.places] at inSpace
  have fits : 2 * place < 18446744073709551616 := by omega
  rw [cursorAt_sub, Screen.columns, ← BitVec.toNat_inj]
  simp only [BitVec.ofNat_eq_ofNat, BitVec.toNat_umod, BitVec.toNat_ofNat, Nat.reduceMod,
    Nat.reducePow, Nat.mod_eq_of_lt fits]
  omega

theorem nextCursor_cursorAt {place : ℕ} {char : Byte} (inSpace : place < Screen.places)
    (shown : char ≠ 10 → InWindow (cursorAt place)) :
    nextCursor (cursorAt place) char = cursorAt (Screen.advance place char) := by
  rw [nextCursor, Screen.advance]
  split
  case isTrue =>
    rw [Screen.nextRow, cursorAt_mod, cursorAt_sub]
    rw [Screen.places] at inSpace
    apply BitVec.eq_of_toNat_eq
    simp only [cursorAt, Screen.columns, BitVec.ofNat_eq_ofNat, BitVec.toNat_add,
      BitVec.toNat_sub, BitVec.toNat_umod, BitVec.toNat_ofNat, Nat.reduceMod, Nat.reducePow]
    omega
  case isFalse other =>
    rw [if_pos (shown other).2, cursorAt_mod]
    apply BitVec.eq_of_toNat_eq
    simp only [cursorAt, BitVec.ofNat_eq_ofNat, BitVec.toNat_add, BitVec.toNat_ofNat]
    omega

theorem foldl_nextCursor {place : ℕ} {text : List Byte} (inSpace : place < Screen.places)
    (window : EveryCharAt InWindow (cursorAt place) text) :
    text.foldl nextCursor (cursorAt place) = cursorAt (text.foldl Screen.advance place) := by
  induction text generalizing place with
  | nil => rfl
  | cons char rest ih =>
      rcases window with ⟨shown, window⟩
      have next := nextCursor_cursorAt inSpace shown
      rw [next] at window
      rw [List.foldl_cons, List.foldl_cons, next]
      exact ih (Screen.advance_lt place char) window

/-! ### The monitor -/

theorem not_inSlots_of_inWindow {cursor : Address} (inWindow : InWindow cursor) :
    inSlots cursor = false := by
  rcases inWindow with ⟨above, below⟩
  rw [BitVec.le_def] at above below
  simp only [BitVec.ofNat_eq_ofNat, BitVec.toNat_ofNat, Nat.reduceMod, Nat.reducePow] at above below
  simp only [inSlots, decide_eq_false_iff_not]
  omega

/-- The stores of a text in video memory come out as the screen's echo. -/
theorem serve_stores {replies : Replies} {vmm : Vmm} {place : ℕ} {text : List Byte}
    (running : vmm.exited = none) (inSpace : place < Screen.places)
    (window : EveryCharAt InWindow (cursorAt place) text) :
    vmm.serve replies ((stores (cursorAt place) text).map exitOf) =
      { vmm with stdout := vmm.stdout ++ Screen.echo place text } := by
  induction text generalizing vmm place with
  | nil => simp [stores, Screen.echo, Vmm.serve]
  | cons char rest ih =>
      rcases window with ⟨shown, window⟩
      rw [nextCursor_cursorAt inSpace shown] at window
      rw [stores, nextCursor_cursorAt inSpace shown, List.map_append, Vmm.serve_append, Screen.echo]
      by_cases newline : char = 10
      · have none_stored : ¬(char ≠ 10 ∧ cursorAt place ≤ 0xb9ff0) := fun both => both.1 newline
        rw [if_neg none_stored, if_pos newline]
        exact ih running (Screen.advance_lt place char) window
      · have inWindow := shown newline
        have video : 0xb8000 ≤ cursorAt place ∧ cursorAt place ≤ 0xba000 :=
          ⟨inWindow.1, BitVec.le_trans inWindow.2 (by decide)⟩
        have shown : vmm.mmio replies (exitOf ⟨cursorAt place, [char, 0x0f]⟩) =
            { vmm with
              stdout := vmm.stdout ++
                if place % Screen.columns = 0 then [10, char] else [char] } := by
          rw [Vmm.mmio_of_video video]
          simp only [exitOf, column_cursorAt inSpace]
          split <;> simp
        rw [if_pos ⟨newline, inWindow.2⟩, if_neg newline, List.map_singleton,
          Vmm.serve_singleton running, shown, ← List.append_assoc]
        exact ih running (Screen.advance_lt place char) window

/-! ### One activity -/

/-- The guest has its memory slots and its cursor, and the monitor runs. -/
structure Ready (symbols : Symbols) (console : Console) (place : ℕ) : Prop where
  ram : console.guest.ram = inSlots
  cursor : cursor symbols console.guest = cursorAt place
  running : console.vmm.exited = none

theorem inSlots_videoCurrent (symbols : Symbols) : inSlots symbols.videoCurrent = true := by
  have linked := symbols.linked
  simp only [inSlots, decide_eq_true_eq]
  omega

section

variable {symbols : Symbols} {replies : Replies} {initial console : Console} {place : ℕ}

theorem Ready.inRam (ready : Ready symbols console place) :
    console.guest.ram symbols.videoCurrent = true := by
  rw [ready.ram]
  exact inSlots_videoCurrent symbols

theorem Ready.off {text : List Byte} (ready : Ready symbols console place)
    (window : EveryCharAt InWindow (cursorAt place) text) :
    EveryCharAt (OffRam console.guest) (Guest.cursor symbols console.guest) text := by
  rw [ready.cursor]
  apply window.mono
  intro cursor inWindow _
  rw [ready.ram]
  exact not_inSlots_of_inWindow inWindow

/-- A call that prints a text gives the monitor the stores of the text. -/
theorem enter_of_prints {changed : List Register} {routine : Routine Unit} {text : List Byte}
    (ready : Ready symbols console place)
    (off : EveryCharAt (OffRam console.guest) (cursor symbols console.guest) text)
    (prints : wp (call routine)
      (fun _ after => OnlyRegisters changed (printedText symbols console.guest text) after)
      console.guest) :
    ∃ next, console.enter replies routine = some next ∧ next.guest.ram = inSlots ∧
      cursor symbols next.guest = text.foldl nextCursor (cursorAt place) ∧
      next.vmm = console.vmm.serve replies ((stores (cursorAt place) text).map exitOf) ∧
      ∀ register, register ∉ changed →
        next.guest.registers register = console.guest.registers register := by
  rcases prints with ⟨_, after, ends, only⟩
  refine ⟨_, by simp only [Console.enter, ends, Option.map_some]; rfl, ?_, ?_, ?_, ?_⟩
  · rw [only.ram, ram_printedText, ready.ram]
  · rw [cursor, only.memory, ← ready.cursor, ← cursor_printedText ready.inRam text, cursor]
  · rw [only.writes, writes_printedText ready.inRam off, List.drop_left, ready.cursor]
  · intro register kept
    rw [only.registers register kept, registers_printedText]

/-- A call that prints a text in video memory has it echoed. -/
theorem echoed_of_prints {changed : List Register} {routine : Routine Unit} {text : List Byte}
    (ready : Ready symbols console place) (inSpace : place < Screen.places)
    (window : EveryCharAt InWindow (cursorAt place) text)
    (prints : wp (call routine)
      (fun _ after => OnlyRegisters changed (printedText symbols console.guest text) after)
      console.guest) :
    ∃ next, console.enter replies routine = some next ∧
      Ready symbols next (text.foldl Screen.advance place) ∧
      next.vmm = { console.vmm with stdout := console.vmm.stdout ++ Screen.echo place text } ∧
      ∀ register, register ∉ changed →
        next.guest.registers register = console.guest.registers register := by
  rcases @enter_of_prints _ replies _ _ _ _ _ ready (ready.off window) prints with
    ⟨next, entered, ram, cursor, vmm, registers⟩
  rw [foldl_nextCursor inSpace window] at cursor
  rw [serve_stores ready.running inSpace window] at vmm
  exact ⟨next, entered, ⟨ram, cursor, by rw [vmm]; exact ready.running⟩, vmm, registers⟩

/-- A string handed to `puts` in video memory is echoed, and all registers but `rsi` are kept. -/
theorem step_puts {text : List Byte} (ready : Ready symbols console place)
    (inSpace : place < Screen.places) (hands : handsOver symbols console (.puts text))
    (window : EveryCharAt InWindow (cursorAt place) text) :
    ∃ next, (session symbols replies initial).step console (.puts text) = some next ∧
      Ready symbols next (text.foldl Screen.advance place) ∧
      next.vmm = { console.vmm with stdout := console.vmm.stdout ++ Screen.echo place text } ∧
      ∀ register, register ≠ rsi →
        next.guest.registers register = console.guest.registers register := by
  rcases hands with ⟨nonzero, string⟩
  have prints := wp_call_puts ready.inRam string nonzero (ready.off window)
    (Nat.lt_succ_self text.length)
  rcases @echoed_of_prints _ replies _ _ _ _ _ ready inSpace window prints with
    ⟨next, entered, readyNext, vmm, registers⟩
  refine ⟨next, ?_, readyNext, vmm, fun register other => registers register (by simp [other])⟩
  simp [session, ready.running, entered]

theorem step_session {activity : Activity} (ready : Ready symbols console place)
    (inSpace : place < Screen.places) (hands : handsOver symbols console activity)
    (window : EveryCharAt InWindow (cursorAt place) activity.text) :
    ∃ next, (session symbols replies initial).step console activity = some next ∧
      Ready symbols next (activity.text.foldl Screen.advance place) ∧
      next.vmm =
        { console.vmm with stdout := console.vmm.stdout ++ Screen.echo place activity.text } := by
  cases activity with
  | program next =>
      refine ⟨{ console with guest := unattended symbols console.guest next }, ?_, ?_, ?_⟩
      · simp [session, ready.running]
      · refine ⟨ready.ram, ?_, ready.running⟩
        rw [Activity.text, List.foldl_nil, ← ready.cursor]
        apply Memory.read_congr (by decide)
        intro place within
        simp only [unattended]
        rw [if_pos (by exact within)]
      · simp [Activity.text, Screen.echo]
  | puts text =>
      rcases step_puts ready inSpace hands window with ⟨next, taken, readyNext, vmm, _⟩
      exact ⟨next, taken, readyNext, vmm⟩
  | println =>
      rcases @echoed_of_prints _ replies _ _ _ _ _ ready inSpace window
        (wp_call_println ready.inRam) with ⟨next, entered, readyNext, vmm, _⟩
      refine ⟨next, ?_, readyNext, vmm⟩
      simp [session, ready.running, entered]

/-! ### Runs -/

theorem run_session {activities : List Activity} (ready : Ready symbols console place)
    (inSpace : place < Screen.places)
    (permits : (session symbols replies initial).Permits (handsOver symbols) console activities)
    (window : EveryCharAt InWindow (cursorAt place) (textOf activities)) :
    ∃ last, (session symbols replies initial).run console activities = some last ∧
      Ready symbols last ((textOf activities).foldl Screen.advance place) ∧
      last.vmm =
        { console.vmm with
          stdout := console.vmm.stdout ++ Screen.echo place (textOf activities) } := by
  induction activities generalizing console place with
  | nil => exact ⟨console, rfl, ready, by simp [textOf, Screen.echo]⟩
  | cons activity rest ih =>
      rcases permits with ⟨hands, onward⟩
      rw [textOf_cons, everyCharAt_append] at window
      rcases window with ⟨first, later⟩
      rcases step_session ready inSpace hands first with ⟨next, taken, readyNext, vmm⟩
      rw [foldl_nextCursor inSpace first] at later
      rcases ih readyNext (Screen.foldl_advance_lt inSpace activity.text) (onward next taken) later
        with ⟨last, ran, readyLast, vmmLast⟩
      refine ⟨last, ?_, ?_, ?_⟩
      · rw [System.run_of_step taken, ran]
      · rw [textOf_cons, List.foldl_append]
        exact readyLast
      · rw [vmmLast, vmm, textOf_cons, Screen.echo_append, ← List.append_assoc]

end

/--
For every run from a console whose cursor is at 0xb8000, in which every character but the line
feeds finds the cursor in the window: the monitor's output is the echo of the text, in which
nothing but line feeds comes or goes; the cursor ends at the place the text leads to; and every
call of `puts` keeps `rax` and `rbx`.
-/
theorem console_echoes (symbols : Symbols) (replies : Replies) {start : Console}
    (ram : start.guest.ram = inSlots) (home : cursor symbols start.guest = 0xb8000)
    (running : start.vmm.exited = none) {activities : List Activity}
    (permits : (session symbols replies start).Permits (handsOver symbols) start activities)
    (window : EveryCharAt InWindow 0xb8000 (textOf activities)) :
    (∃ last, (session symbols replies start).run start activities = some last ∧
      last.vmm.stdout = start.vmm.stdout ++ Screen.echo 0 (textOf activities) ∧
      cursor symbols last.guest = cursorAt ((textOf activities).foldl Screen.advance 0)) ∧
    (Screen.echo 0 (textOf activities)).filter (· ≠ 10) = (textOf activities).filter (· ≠ 10) ∧
    ∀ earlier text later, activities = earlier ++ .puts text :: later →
      ∃ before after, (session symbols replies start).run start earlier = some before ∧
        (session symbols replies start).step before (.puts text) = some after ∧
        after.guest.registers rax = before.guest.registers rax ∧
        after.guest.registers rbx = before.guest.registers rbx := by
  have origin : cursorAt 0 = 0xb8000 := by decide
  have ready : Ready symbols start 0 := ⟨ram, by rw [home, origin], running⟩
  have inSpace : 0 < Screen.places := by decide
  rw [← origin] at window
  refine ⟨?_, Screen.filter_echo 0 _, ?_⟩
  · rcases run_session ready inSpace permits window with ⟨last, ran, readyLast, vmm⟩
    exact ⟨last, ran, by rw [vmm], readyLast.cursor⟩
  · rintro earlier text later rfl
    rw [textOf_append, textOf_cons, everyCharAt_append, everyCharAt_append] at window
    rcases window with ⟨before, during, _⟩
    rcases System.permits_append.mp permits with ⟨permitsEarlier, onward⟩
    rcases run_session ready inSpace permitsEarlier before with ⟨middle, ran, readyMiddle, _⟩
    have hands := (onward middle ran).1
    rw [foldl_nextCursor inSpace before] at during
    rcases step_puts readyMiddle (Screen.foldl_advance_lt inSpace _) hands during with
      ⟨after, taken, _, _, registers⟩
    exact ⟨middle, after, ran, taken, registers rax (by decide), registers rbx (by decide)⟩

/-! ### Runs on fixed text -/

def blank : Memory :=
  fun _ => 0

/-- The guest right after loading, with a string in memory and its address in `rsi`. -/
def loaded (address : Address) (text : List Byte) : Machine where
  registers := fun register => if register = rsi then address else 0
  ram := inSlots
  memory := ((blank.write 0x10040 (0xb8000 : BitVec 64))).store address text

def image : Symbols where
  videoCurrent := 0x10040
  linked := by decide

theorem stringAt_loaded {text : List Byte} (machine : Machine) (ram : machine.ram = inSlots)
    (short : text.length < 0x1000) (nulFree : 0 ∉ text)
    (terminated : machine.memory.load 0x20000 (text.length + 1) = text ++ [0]) :
    StringAt image machine text 0x20000 where
  terminated := terminated
  nulFree := nulFree
  inRam := by
    intro place within
    rw [ram]
    simp only [Within] at within
    simp only [inSlots, decide_eq_true_eq]
    bv_omega
  apart := by
    intro place within
    simp only [Within, image] at within ⊢
    bv_omega
  short := by omega

def twoLines : Console where
  guest := loaded 0x20000 [65, 10, 66]
  vmm := {}

theorem console_echoes_twoLines : ∃ last,
    (session image {} twoLines).run twoLines [.puts [65, 10, 66], .println] = some last ∧
      last.vmm.stdout = [10, 65, 10, 66] := by
  have home : cursor image twoLines.guest = 0xb8000 := by decide
  have string : StringAt image twoLines.guest [65, 10, 66] 0x20000 :=
    stringAt_loaded _ rfl (by decide) (by decide) (by decide)
  have permits : (session image {} twoLines).Permits (handsOver image) twoLines
      [.puts [65, 10, 66], .println] :=
    ⟨⟨by decide, string⟩, fun _ _ => ⟨trivial, fun _ _ => trivial⟩⟩
  have window : EveryCharAt InWindow 0xb8000 (textOf [.puts [65, 10, 66], .println]) :=
    ⟨fun _ => by decide, fun shown => absurd rfl shown, fun _ => by decide,
      fun shown => absurd rfl shown, trivial⟩
  have shown : Screen.echo 0 (textOf [.puts [65, 10, 66], .println]) = [10, 65, 10, 66] := by
    decide
  rcases (@console_echoes image {} twoLines rfl home rfl _ permits window).1 with
    ⟨last, ran, stdout, _⟩
  rw [shown] at stdout
  exact ⟨last, ran, stdout⟩

theorem everyCharAt_replicate (allowed : Address → Prop) (cursor : Address) (count : ℕ) :
    EveryCharAt allowed cursor (List.replicate count 10) := by
  induction count generalizing cursor with
  | zero => trivial
  | succ count ih => exact ⟨fun shown => absurd rfl shown, ih _⟩

theorem foldl_advance_replicate {count : ℕ} (fits : count * Screen.columns < Screen.places) :
    (List.replicate count 10).foldl Screen.advance 0 = count * Screen.columns := by
  induction count with
  | zero => rfl
  | succ count ih =>
      have earlier : count * Screen.columns < Screen.places := by
        rw [Nat.succ_mul] at fits
        omega
      rw [List.replicate_succ', List.foldl_append, ih earlier, List.foldl_cons, List.foldl_nil,
        Screen.advance, if_pos rfl, Screen.nextRow, Nat.mul_div_cancel _ (by decide),
        Nat.mod_eq_of_lt fits]

theorem echo_replicate (place count : ℕ) : Screen.echo place (List.replicate count 10) = [] := by
  induction count generalizing place with
  | zero => rfl
  | succ count ih => rw [List.replicate_succ, Screen.echo, if_pos rfl, ih, List.append_nil]

theorem textOf_replicate (count : ℕ) :
    textOf (List.replicate count .println) = List.replicate count 10 := by
  induction count with
  | zero => rfl
  | succ count ih => rw [List.replicate_succ, textOf_cons, ih]; rfl

def home : Console where
  guest := loaded 0 []
  vmm := {}

theorem permits_replicate {symbols : Symbols} {replies : Replies} {initial console : Console}
    (count : ℕ) : (session symbols replies initial).Permits (handsOver symbols) console
      (List.replicate count .println) := by
  induction count generalizing console with
  | zero => trivial
  | succ count ih => exact ⟨trivial, fun _ _ => ih⟩

/-- Line feeds take the cursor down without any output. -/
theorem run_replicate {count : ℕ} (fits : count * Screen.columns < Screen.places) :
    ∃ middle, (session image {} home).run home (List.replicate count .println) = some middle ∧
      Ready image middle (count * Screen.columns) ∧ middle.vmm = {} := by
  have ready : Ready image home 0 := ⟨rfl, by decide, rfl⟩
  have window : EveryCharAt InWindow (cursorAt 0) (textOf (List.replicate count .println)) := by
    rw [textOf_replicate]
    exact everyCharAt_replicate _ _ _
  rcases run_session ready (by decide) (permits_replicate count) window with
    ⟨middle, ran, readyMiddle, vmm⟩
  rw [textOf_replicate] at readyMiddle vmm
  rw [foldl_advance_replicate fits] at readyMiddle
  rw [echo_replicate] at vmm
  exact ⟨middle, ran, readyMiddle, vmm⟩

/-- A character at an address without memory, out of the window, ends the monitor. -/
theorem step_puts_outside {console : Console} {place : ℕ} (ready : Ready image console place)
    (low : cursorAt place = 128) (monitor : console.vmm = {})
    (hands : handsOver image console (.puts [65])) :
    ∃ next, (session image {} home).step console (.puts [65]) = some next ∧
      next.vmm = Vmm.mmio {} (exitOf ⟨128, [65, 0x0f]⟩) {} := by
  have off : EveryCharAt (OffRam console.guest) (cursor image console.guest) [65] := by
    rw [ready.cursor, low]
    refine ⟨fun _ _ => ?_, trivial⟩
    rw [ready.ram]
    decide
  rcases hands with ⟨nonzero, string⟩
  rcases @enter_of_prints _ {} _ _ _ _ _ ready off
    (wp_call_puts ready.inRam string nonzero off (Nat.lt_succ_self _)) with
    ⟨next, entered, _, _, vmm, _⟩
  refine ⟨next, ?_, ?_⟩
  · simp only [session, ready.running]
    exact entered
  · rw [vmm, low, monitor]
    rfl

def letter : Activity :=
  .program (loaded 0x20000 [65])

theorem handsOver_letter {console : Console} (ram : console.guest.ram = inSlots) :
    handsOver image
      { console with guest := unattended image console.guest (loaded 0x20000 [65]) }
      (.puts [65]) := by
  have nonzero : (0x20000 : Address) ≠ 0#64 := by decide
  refine ⟨nonzero, ?_⟩
  apply stringAt_loaded
  · exact ram
  · decide
  · decide
  · have loads : (loaded 0x20000 [65]).memory.load 0x20000 2 = [65, 0] := by decide
    apply Eq.trans ?_ loads
    apply Memory.load_congr (by decide)
    intro place within
    have within : Within place 0x20000 2 := within
    have apart : ¬Within place image.videoCurrent 8 := by
      simp only [Within, image] at within ⊢
      bv_omega
    exact if_neg apart

def downAndPrint (count : ℕ) : List Activity :=
  List.replicate count .println ++ [letter, .puts [65]]

theorem step_letter {console : Console} (running : console.vmm.exited = none) :
    (session image {} home).step console letter =
      some { console with guest := unattended image console.guest (loaded 0x20000 [65]) } := by
  simp [session, running, letter]

theorem permits_downAndPrint {count : ℕ} (fits : count * Screen.columns < Screen.places) :
    (session image {} home).Permits (handsOver image) home (downAndPrint count) := by
  rcases run_replicate fits with ⟨middle, ran, ready, _⟩
  apply System.permits_append.mpr
  refine ⟨permits_replicate count, ?_⟩
  intro last ranLast
  rw [ran] at ranLast
  cases ranLast
  refine ⟨trivial, ?_⟩
  intro next taken
  rw [step_letter ready.running] at taken
  cases taken
  exact ⟨handsOver_letter ready.ram, fun _ _ => trivial⟩

/-- Where the line feeds lead to 128, the letter is lost. -/
theorem run_downAndPrint {count : ℕ} (fits : count * Screen.columns < Screen.places)
    (low : cursorAt (count * Screen.columns) = 128) :
    ∃ last, (session image {} home).run home (downAndPrint count) = some last ∧
      last.vmm = Vmm.mmio {} (exitOf ⟨128, [65, 0x0f]⟩) {} := by
  rcases run_replicate fits with ⟨middle, ran, ready, vmm⟩
  have hands := handsOver_letter ready.ram
  have readyLetter : Ready image
      { middle with guest := unattended image middle.guest (loaded 0x20000 [65]) }
      (count * Screen.columns) := by
    rcases @step_session image {} home middle _ letter ready
      (Nat.lt_of_lt_of_le fits (Nat.le_refl _)) trivial trivial with ⟨next, taken, readyNext, _⟩
    rw [step_letter ready.running] at taken
    cases taken
    exact readyNext
  rcases step_puts_outside readyLetter low vmm hands with ⟨last, taken, lost⟩
  refine ⟨last, ?_, lost⟩
  rw [downAndPrint, System.run_append, ran, Option.bind_some,
    System.run_of_step (step_letter ready.running), System.run_of_step taken, System.run_nil]

theorem textOf_downAndPrint (count : ℕ) :
    textOf (downAndPrint count) = List.replicate count 10 ++ [65] := by
  rw [downAndPrint, textOf_append, textOf_replicate]
  rfl

theorem console_leaves_video :
    ¬∀ (symbols : Symbols) (replies : Replies) (start : Console) (activities : List Activity),
      start.guest.ram = inSlots → cursor symbols start.guest = 0xb8000 → start.vmm = {} →
      (session symbols replies start).Permits (handsOver symbols) start activities →
      EveryCharAt (· ≤ 0xb9ff0) 0xb8000 (textOf activities) →
        ∃ last, (session symbols replies start).run start activities = some last ∧
          last.vmm.stdout.filter (· ≠ 10) = (textOf activities).filter (· ≠ 10) := by
  intro claimed
  -- so many rows down, the cursor has gone around the address space to 128
  have exists_count : ∃ count, count * Screen.columns < Screen.places ∧
      cursorAt (count * Screen.columns) = 128 := ⟨115292150460679988, by decide, by decide⟩
  rcases exists_count with ⟨count, fits, low⟩
  have upTo : EveryCharAt (· ≤ 0xb9ff0) 0xb8000 (textOf (downAndPrint count)) := by
    have origin : cursorAt 0 = 0xb8000 := by decide
    rw [textOf_downAndPrint, everyCharAt_append, ← origin,
      foldl_nextCursor (by decide) (everyCharAt_replicate _ _ _), foldl_advance_replicate fits, low]
    exact ⟨everyCharAt_replicate _ _ _, fun _ => by decide, trivial⟩
  rcases claimed image {} home (downAndPrint count) rfl (by decide) rfl (permits_downAndPrint fits)
    upTo with ⟨last, ran, kept⟩
  rcases run_downAndPrint fits low with ⟨lost, ranLost, vmm⟩
  rw [ranLost] at ran
  cases ran
  have text : (textOf (downAndPrint count)).filter (· ≠ 10) = [65] := by
    rw [textOf_downAndPrint, List.filter_append, List.filter_replicate]
    rfl
  rw [vmm, text] at kept
  have complaint : (Vmm.mmio {} (exitOf ⟨128, [65, 0x0f]⟩) {}).stdout.filter (· ≠ 10) ≠ [65] := by
    decide +kernel
  exact complaint kept

end VirtLearn.Guest
