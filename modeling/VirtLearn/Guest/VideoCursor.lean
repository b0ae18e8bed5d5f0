import Mathlib.Data.List.Induction
import VirtLearn.Guest.Console

/-!
# The cursor of the text routines

A line feed advances the cursor without a look at the end of the screen, so the cursor leaves the
screen, and comes around only after some `2 ^ 56` line feeds. Any other character is stored only up
to `0xb9ff0`. With fewer than `2 ^ 50` characters the cursor is therefore above the start of video
memory and no store is behind its end.

The calls here are those of `__putc`, `__println` and `__puts`, with the guest's own business
between them. Video memory has no memory slot behind it: stores to it go out on the bus.
-/

namespace VirtLearn.Guest

open Assembly Register

/-- The guest's own business, or a call of a text routine. -/
inductive TextCall where
  | program (next : Machine)
  | putc (char : Byte)
  | println
  | puts (text : List Byte)

def TextCall.text : TextCall → List Byte
  | .program _ => []
  | .putc char => [char]
  | .println => [10]
  | .puts text => text

/-- The characters that some calls print. -/
def charsOf (calls : List TextCall) : List Byte :=
  calls.flatMap TextCall.text

/-- The guest makes its calls one after the other. -/
def textCalls (symbols : Symbols) (initial : Machine) : System Machine TextCall where
  initial
  step machine
    | .program next => some (unattended symbols machine next)
    | .putc _ => (call (putc symbols) machine).map Prod.snd
    | .println => (call (println symbols) machine).map Prod.snd
    | .puts text => (call (puts symbols (text.length + 1)) machine).map Prod.snd

/-- What a call finds in `rsi`. -/
def passes (symbols : Symbols) (machine : Machine) : TextCall → Prop
  | .putc char => machine.get 8 rsi = char
  | .puts text =>
      machine.registers rsi ≠ 0#64 ∧ StringAt symbols machine text (machine.registers rsi)
  | _ => True

/-- Where the characters of a text take the cursor from the start of video memory. -/
def cursorAfter (text : List Byte) : Address :=
  text.foldl nextCursor 0xb8000

/-- A character and its attribute in one store, inside the two pages of video memory. -/
structure ScreenStore (write : BusWrite) : Prop where
  attributed : ∃ char, write.bytes = [char, 0x0f]
  above : 0xb8000 ≤ write.address.toNat
  below : write.address.toNat + 2 ≤ 0xba000

/-- What `count` characters can do to the cursor. -/
structure Advanced (count : ℕ) (cursor : Address) : Prop where
  even : 2 ∣ cursor.toNat
  above : 0xb8000 ≤ cursor.toNat
  bounded : cursor.toNat ≤ 0xb8000 + 160 * count

/-! ### One character -/

section

variable {cursor : Address} {count : ℕ} {char : Byte}

theorem advanced_home : Advanced 0 0xb8000 :=
  ⟨by decide, by decide, by decide⟩

theorem Advanced.lt (advanced : Advanced count cursor) (few : count ≤ 2 ^ 50) :
    cursor.toNat + 160 < 2 ^ 64 := by
  have bounded := advanced.bounded
  omega

/-- A line feed goes to the start of the next row. -/
theorem toNat_nextCursor_newline (above : 0xb8000 ≤ cursor.toNat)
    (room : cursor.toNat + 160 < 2 ^ 64) :
    (nextCursor cursor 10).toNat = 0xb8000 + 160 * ((cursor.toNat - 0xb8000) / 160 + 1) := by
  have offset : (cursor - 0xb8000).toNat = cursor.toNat - 0xb8000 := by
    rw [BitVec.toNat_sub_of_le (BitVec.le_def.mpr (by simpa using above))]
    simp
  have column : ((cursor - 0xb8000) % 160).toNat = (cursor.toNat - 0xb8000) % 160 := by
    rw [BitVec.toNat_umod, offset]
    simp
  have below := Nat.mod_lt (cursor.toNat - 0xb8000) (by decide : 160 > 0)
  have step : (160 - (cursor - 0xb8000) % 160).toNat =
      160 - (cursor.toNat - 0xb8000) % 160 := by
    rw [BitVec.toNat_sub_of_le (BitVec.le_def.mpr (by rw [column]; exact Nat.le_of_lt below)),
      column]
    simp
  rw [nextCursor, if_pos rfl, BitVec.toNat_add, step]
  omega

/-- Any other character goes to the next place, or nowhere from the end of the screen. -/
theorem toNat_nextCursor_of_ne (shown : char ≠ 10) :
    (nextCursor cursor char).toNat =
      if cursor.toNat ≤ 0xb9ff0 then cursor.toNat + 2 else cursor.toNat := by
  rw [nextCursor, if_neg shown]
  by_cases room : cursor ≤ 0xb9ff0
  · have small : cursor.toNat ≤ 0xb9ff0 := by simpa using BitVec.le_def.mp room
    rw [if_pos room, if_pos small, BitVec.toNat_add]
    simp
    omega
  · have large : ¬cursor.toNat ≤ 0xb9ff0 := by simpa [BitVec.le_def] using room
    rw [if_neg room, if_neg large]

theorem Advanced.nextCursor (advanced : Advanced count cursor) (few : count ≤ 2 ^ 50)
    (char : Byte) : Advanced (count + 1) (nextCursor cursor char) := by
  have room := advanced.lt few
  rcases advanced with ⟨even, above, bounded⟩
  by_cases newline : char = 10
  · have next := toNat_nextCursor_newline above room
    rw [← newline] at next
    exact ⟨by omega, by omega, by omega⟩
  · have next := @toNat_nextCursor_of_ne cursor char newline
    split at next
    · exact ⟨by omega, by omega, by omega⟩
    · exact ⟨by omega, by omega, by omega⟩

/-- The store of a character shown is inside video memory. -/
theorem Advanced.screenStore (advanced : Advanced count cursor) (room : cursor ≤ 0xb9ff0) :
    ScreenStore ⟨cursor, [char, 0x0f]⟩ where
  attributed := ⟨char, rfl⟩
  above := advanced.above
  below := by
    have small : cursor.toNat ≤ 0xb9ff0 := by simpa using BitVec.le_def.mp room
    simp only
    omega

/-! ### A text -/

theorem Advanced.foldl {text : List Byte} (advanced : Advanced count cursor)
    (few : count + text.length ≤ 2 ^ 50) :
    Advanced (count + text.length) (text.foldl Guest.nextCursor cursor) := by
  induction text generalizing count cursor with
  | nil => exact advanced
  | cons char rest ih =>
      rw [List.length_cons] at few ⊢
      have later := ih (advanced.nextCursor (by omega) char) (by omega)
      rw [Nat.add_assoc, Nat.add_comm 1] at later
      exact later

theorem advanced_cursorAfter {text : List Byte} (few : text.length ≤ 2 ^ 50) :
    Advanced text.length (cursorAfter text) := by
  have advanced := advanced_home.foldl (by rw [Nat.zero_add]; exact few)
  rw [Nat.zero_add] at advanced
  exact advanced

theorem stores_append (cursor : Address) (first second : List Byte) :
    stores cursor (first ++ second) =
      stores cursor first ++ stores (first.foldl Guest.nextCursor cursor) second := by
  induction first generalizing cursor with
  | nil => rfl
  | cons char rest ih => simp only [List.cons_append, stores, ih, List.append_assoc,
      List.foldl_cons]

theorem Advanced.stores {text : List Byte} (advanced : Advanced count cursor)
    (few : count + text.length ≤ 2 ^ 50) :
    ∀ write ∈ Guest.stores cursor text, ScreenStore write := by
  induction text generalizing count cursor with
  | nil => simp [Guest.stores]
  | cons char rest ih =>
      rw [List.length_cons] at few
      intro write stored
      rw [Guest.stores, List.mem_append] at stored
      rcases stored with first | later
      · split at first
        case isTrue shown =>
          rw [List.mem_singleton.mp first]
          exact advanced.screenStore shown.2
        case isFalse => cases first
      · exact ih (advanced.nextCursor (by omega) char) (by omega) write later

/-- Behind the end of the screen nothing is stored any more. -/
theorem Advanced.stores_of_beyond {text : List Byte} (advanced : Advanced count cursor)
    (few : count + text.length ≤ 2 ^ 50) (beyond : 0xb9ff0 < cursor.toNat) :
    Guest.stores cursor text = [] := by
  induction text generalizing count cursor with
  | nil => rfl
  | cons char rest ih =>
      rw [List.length_cons] at few
      have hidden : ¬(char ≠ 10 ∧ cursor ≤ 0xb9ff0) := by
        rintro ⟨_, room⟩
        have small : cursor.toNat ≤ 0xb9ff0 := by simpa using BitVec.le_def.mp room
        omega
      have stays : 0xb9ff0 < (Guest.nextCursor cursor char).toNat := by
        by_cases newline : char = 10
        · rw [newline, toNat_nextCursor_newline advanced.above (advanced.lt (by omega))]
          omega
        · rw [toNat_nextCursor_of_ne newline, if_neg (by omega)]
          exact beyond
      rw [Guest.stores, if_neg hidden, List.nil_append]
      exact ih (advanced.nextCursor (by omega) char) (by omega) stays

theorem Advanced.everyCharAt {text : List Byte} (advanced : Advanced count cursor)
    (few : count + text.length ≤ 2 ^ 50) :
    EveryCharAt (fun place => 0xb8000 ≤ place.toNat) cursor text := by
  induction text generalizing count cursor with
  | nil => trivial
  | cons char rest ih =>
      rw [List.length_cons] at few
      refine ⟨fun _ => advanced.above, ?_⟩
      exact ih (advanced.nextCursor (by omega) char) (by omega)

end

/-! ### Runs -/

/-- The cursor is in memory, and video memory is not. -/
structure HasScreen (symbols : Symbols) (machine : Machine) : Prop where
  inRam : machine.ram symbols.videoCurrent = true
  video : ∀ place : Address, 0xb8000 ≤ place.toNat → place.toNat < 0xba000 →
    machine.ram place = false

namespace HasScreen

variable {symbols : Symbols} {machine : Machine}

theorem congr {other : Machine} (screen : HasScreen symbols machine)
    (ram : other.ram = machine.ram) : HasScreen symbols other := by
  rcases screen with ⟨inRam, video⟩
  exact ⟨by rw [ram]; exact inRam, by rw [ram]; exact video⟩

theorem offRam (screen : HasScreen symbols machine) {text : List Byte} {cursor : Address}
    (every : EveryCharAt (fun place => 0xb8000 ≤ place.toNat) cursor text) :
    EveryCharAt (OffRam machine) cursor text := by
  apply every.mono
  intro place above room
  have small : place.toNat ≤ 0xb9ff0 := by simpa using BitVec.le_def.mp room
  exact screen.video place above (by omega)

end HasScreen

section

variable {symbols : Symbols} {initial machine : Machine} {count : ℕ}

/-- What is left of a call that prints a text: the cursor, and the stores on the bus. -/
theorem printed_of_prints {changed : List Register} {routine : Routine Unit} {text : List Byte}
    (screen : HasScreen symbols machine)
    (off : EveryCharAt (OffRam machine) (cursor symbols machine) text)
    (prints : wp (call routine)
      (fun _ after => OnlyRegisters changed (printedText symbols machine text) after) machine) :
    ∃ next, (call routine machine).map Prod.snd = some next ∧ next.ram = machine.ram ∧
      cursor symbols next = text.foldl nextCursor (cursor symbols machine) ∧
      next.writes = machine.writes ++ stores (cursor symbols machine) text := by
  rcases prints with ⟨_, after, ends, only⟩
  refine ⟨after, by rw [ends]; rfl, ?_, ?_, ?_⟩
  · rw [only.ram, ram_printedText]
  · rw [cursor, only.memory, ← cursor_printedText screen.inRam text, cursor]
  · rw [only.writes, writes_printedText screen.inRam off]

theorem step_textCalls {textCall : TextCall} (screen : HasScreen symbols machine)
    (every : EveryCharAt (fun place => 0xb8000 ≤ place.toNat) (cursor symbols machine)
      textCall.text)
    (passed : passes symbols machine textCall) :
    ∃ next, (textCalls symbols initial).step machine textCall = some next ∧
      next.ram = machine.ram ∧
      cursor symbols next = textCall.text.foldl nextCursor (cursor symbols machine) ∧
      next.writes = machine.writes ++ stores (cursor symbols machine) textCall.text := by
  have off := screen.offRam every
  cases textCall with
  | program next =>
      refine ⟨unattended symbols machine next, rfl, rfl, ?_, by simp [TextCall.text, stores,
        unattended]⟩
      apply Memory.read_congr (by decide)
      intro place within
      exact if_pos within
  | putc char =>
      have prints : wp (call (putc symbols)) (fun _ after => OnlyRegisters [rax, rsi]
          (printedText symbols machine [char]) after) machine := wp_call_putc screen.inRam passed
      exact printed_of_prints screen off prints
  | println => exact printed_of_prints screen off (wp_call_println screen.inRam)
  | puts text =>
      rcases passed with ⟨nonzero, string⟩
      exact printed_of_prints screen off
        (wp_call_puts screen.inRam string nonzero off (Nat.lt_succ_self _))

theorem run_textCalls {calls : List TextCall} (screen : HasScreen symbols machine)
    (advanced : Advanced count (cursor symbols machine))
    (few : count + (charsOf calls).length ≤ 2 ^ 50)
    (permits : (textCalls symbols initial).Permits (passes symbols) machine calls) :
    ∃ last, (textCalls symbols initial).run machine calls = some last ∧
      cursor symbols last = (charsOf calls).foldl nextCursor (cursor symbols machine) ∧
      last.writes = machine.writes ++ stores (cursor symbols machine) (charsOf calls) := by
  induction calls generalizing machine count with
  | nil => exact ⟨machine, rfl, rfl, by simp [charsOf, stores]⟩
  | cons textCall rest ih =>
      rcases permits with ⟨passed, onward⟩
      have split : charsOf (textCall :: rest) = textCall.text ++ charsOf rest :=
        List.flatMap_cons
      rw [split, List.length_append] at few
      rcases @step_textCalls _ initial _ _ screen (advanced.everyCharAt (by omega)) passed with
        ⟨next, taken, ram, moved, stored⟩
      have later := advanced.foldl (show count + textCall.text.length ≤ 2 ^ 50 by omega)
      rw [← moved] at later
      rcases ih (screen.congr ram) later (by omega) (onward next taken) with
        ⟨last, ran, cursorLast, writesLast⟩
      refine ⟨last, ?_, ?_, ?_⟩
      · rw [System.run_of_step taken, ran]
      · rw [cursorLast, moved, split, List.foldl_append]
      · rw [writesLast, stored, moved, split, stores_append, List.append_assoc]

/--
For every run of fewer than `2 ^ 50` characters from a cursor at the start of video memory: the
cursor is where the characters lead to and the stores are those of the characters; after each
character the cursor is even and not below the start; every store is of a character with its
attribute, inside video memory; a line feed moves the cursor on, to the start of a row; and once
the cursor is behind the end of the screen nothing is stored.
-/
theorem video_cursor_invariant {start : Machine} (screen : HasScreen symbols start)
    (home : cursor symbols start = 0xb8000) {calls : List TextCall}
    (permits : (textCalls symbols start).Permits (passes symbols) start calls)
    (few : (charsOf calls).length < 2 ^ 50) :
    (∃ last, (textCalls symbols start).run start calls = some last ∧
      cursor symbols last = cursorAfter (charsOf calls) ∧
      last.writes = start.writes ++ stores 0xb8000 (charsOf calls)) ∧
    (∀ before, before <+: charsOf calls →
      2 ∣ (cursorAfter before).toNat ∧ 0xb8000 ≤ (cursorAfter before).toNat) ∧
    (∀ write ∈ stores 0xb8000 (charsOf calls), ScreenStore write) ∧
    (∀ before, before ++ [10] <+: charsOf calls →
      (cursorAfter before).toNat < (cursorAfter (before ++ [10])).toNat ∧
        160 ∣ (cursorAfter (before ++ [10])).toNat - 0xb8000) ∧
    ∀ before, before <+: charsOf calls → 0xb9ff0 < (cursorAfter before).toNat →
      stores 0xb8000 (charsOf calls) = stores 0xb8000 before := by
  have shorter : ∀ before, before <+: charsOf calls → before.length ≤ 2 ^ 50 := by
    intro before isPrefix
    have bound := isPrefix.length_le
    omega
  refine ⟨?_, ?_, ?_, ?_, ?_⟩
  · have advanced : Advanced 0 (cursor symbols start) := home ▸ advanced_home
    rcases run_textCalls screen advanced (by omega) permits with ⟨last, ran, moved, stored⟩
    rw [home] at moved stored
    exact ⟨last, ran, moved, stored⟩
  · intro before isPrefix
    have advanced := advanced_cursorAfter (shorter before isPrefix)
    exact ⟨advanced.even, advanced.above⟩
  · exact advanced_home.stores (by omega)
  · intro before isPrefix
    have advanced := advanced_cursorAfter
      (shorter before ((List.prefix_append _ _).trans isPrefix))
    have room := advanced.lt (shorter before ((List.prefix_append _ _).trans isPrefix))
    have above := advanced.above
    have next := toNat_nextCursor_newline above room
    have moved : cursorAfter (before ++ [10]) = nextCursor (cursorAfter before) 10 := by
      rw [cursorAfter, List.foldl_append]
      rfl
    rw [moved, next]
    exact ⟨by omega, by omega⟩
  · rintro before ⟨later, spelled⟩ beyond
    rw [← spelled, stores_append]
    have lengths : (charsOf calls).length = before.length + later.length := by
      rw [← spelled, List.length_append]
    have advanced := advanced_cursorAfter (show before.length ≤ 2 ^ 50 by omega)
    have silent := advanced.stores_of_beyond (show before.length + later.length ≤ 2 ^ 50 by omega)
      beyond
    rw [← cursorAfter, silent, List.append_nil]

/-- A letter and a line feed. -/
theorem video_cursor_invariant_two : ∃ start last : Machine,
    (textCalls image start).run start [.putc 65, .println] = some last ∧
      cursor image last = 0xb80a0 := by
  let start : Machine := (loaded 0 []).put rsi (65 : BitVec 64)
  have screen : HasScreen image start := by
    refine ⟨by decide, ?_⟩
    intro place above below
    simp only [start, Machine.put_ram, loaded, Kvm.inSlots, decide_eq_false_iff_not]
    omega
  have letter : start.get 8 rsi = 65 := by decide
  have permits : (textCalls image start).Permits (passes image) start [.putc 65, .println] :=
    ⟨letter, fun _ _ => ⟨trivial, fun _ _ => trivial⟩⟩
  rcases (video_cursor_invariant screen (by decide) permits (by decide)).1 with
    ⟨last, ran, moved, _⟩
  refine ⟨start, last, ran, ?_⟩
  rw [moved]
  decide

end

end VirtLearn.Guest
