import VirtLearn.Guest.Outputs

/-!
# Handlers that report an exception

The handlers of `handler64.S` that print where an exception occurred and then spin. All but two are
copies of one another and read the stack as it is with an error code on top. They are right where
the processor pushes one and elsewhere print the code and the stack segment for the instruction and
the stack pointer. The handler of `#DF` reads between two words.
-/

namespace VirtLearn.Guest

open Assembly Register

section Routines

variable (symbols : HandlerSymbols) (fuel : ℕ)

/-- What most handlers have in common; they differ in their messages. This and the handlers below
end before their `jmp .`, behind which nothing is executed. -/
def reportHandler (first second third : Label) : Routine Unit :=
  outputs symbols fuel
    [.puts first, .qword 8, .println, .puts second, .qword 0, .println, .puts third, .qword 32,
      .println]

def deHandler : Routine Unit :=
  reportHandler symbols fuel .demsg1 .demsg2 .demsg3

def nmiHandler : Routine Unit :=
  reportHandler symbols fuel .nmimsg1 .nmimsg2 .nmimsg3

def ofHandler : Routine Unit :=
  reportHandler symbols fuel .ofmsg1 .ofmsg2 .ofmsg3

def udHandler : Routine Unit :=
  reportHandler symbols fuel .udmsg1 .udmsg2 .udmsg3

/-- The third message is that of `UD_handler`. -/
def nmHandler : Routine Unit :=
  reportHandler symbols fuel .nmmsg1 .nmmsg2 .udmsg3

def dfHandler : Routine Unit :=
  outputs symbols fuel [.puts .dfmsg1, .qword 4, .println]

def tsHandler : Routine Unit :=
  reportHandler symbols fuel .tsmsg1 .tsmsg2 .tsmsg3

def npHandler : Routine Unit :=
  reportHandler symbols fuel .npmsg1 .npmsg2 .npmsg3

def gpHandler : Routine Unit :=
  reportHandler symbols fuel .gmsg1 .gmsg2 .gmsg3

def mcHandler : Routine Unit :=
  reportHandler symbols fuel .mcmsg1 .mcmsg2 .mcmsg3

def pfHandler (cr2 : BitVec 64) : Routine Unit := do
  addRsp8
  outputs symbols fuel [.puts .pfMsg1, .println, .puts .pfMsg2]
  movFromStack 0 rsi
  movFromStack 4 rdi
  printQword symbols fuel
  outputs symbols fuel [.println, .puts .pfMsg3]
  mov 64 (.imm cr2) (.reg rsi)
  mov 64 (.reg rsi) (.reg rdi)
  shr 64 32 (.reg rdi)
  printQword symbols fuel
  outputs symbols fuel [.println]

end Routines

/-- The exceptions whose handlers print where they occurred. -/
inductive Exception where
  | de | nmi | of | ud | nm | df | ts | np | gp | mc | pf
deriving DecidableEq

/-- What the processor saves, and the error code of the exception. -/
structure Interrupted where
  rip : BitVec 64
  cs : BitVec 64
  rflags : BitVec 64
  rsp : BitVec 64
  ss : BitVec 64
  error : BitVec 64

/-- The words that the processor pushes for every interrupt, on top of the stack. -/
def Interrupted.frame (context : Interrupted) (rest : List StackItem) : List StackItem :=
  .word context.rip :: .word context.cs :: .word context.rflags :: .word context.rsp ::
    .word context.ss :: rest

/-- The values in a report. -/
structure Reported where
  occurAt : BitVec 64
  error : BitVec 64
  rsp : BitVec 64
  cr2 : BitVec 64

namespace Exception

/-- The processor pushes an error code. -/
def pushesError : Exception → Bool
  | df | ts | np | gp | pf => true
  | _ => false

/-- The stack that the handler finds. -/
def frame (exception : Exception) (context : Interrupted) (rest : List StackItem) :
    List StackItem :=
  (if exception.pushesError then [.word context.error] else []) ++ context.frame rest

def handler (symbols : HandlerSymbols) (fuel : ℕ) (cr2 : BitVec 64) : Exception → Routine Unit
  | de => deHandler symbols fuel
  | nmi => nmiHandler symbols fuel
  | of => ofHandler symbols fuel
  | ud => udHandler symbols fuel
  | nm => nmHandler symbols fuel
  | df => dfHandler symbols fuel
  | ts => tsHandler symbols fuel
  | np => npHandler symbols fuel
  | gp => gpHandler symbols fuel
  | mc => mcHandler symbols fuel
  | pf => pfHandler symbols fuel cr2

/-- A report in three lines. -/
def threeLines (first second third : Label) (reported : Reported) : List Byte :=
  first.chars ++ qwordText reported.occurAt ++ [10] ++ second.chars ++ qwordText reported.error ++
    [10] ++ third.chars ++ qwordText reported.rsp ++ [10]

/-- The text of a report. -/
def report (reported : Reported) : Exception → List Byte
  | de => threeLines .demsg1 .demsg2 .demsg3 reported
  | nmi => threeLines .nmimsg1 .nmimsg2 .nmimsg3 reported
  | of => threeLines .ofmsg1 .ofmsg2 .ofmsg3 reported
  | ud => threeLines .udmsg1 .udmsg2 .udmsg3 reported
  | nm => threeLines .nmmsg1 .nmmsg2 .udmsg3 reported
  | df => Label.dfmsg1.chars ++ qwordText reported.occurAt ++ [10]
  | ts => threeLines .tsmsg1 .tsmsg2 .tsmsg3 reported
  | np => threeLines .npmsg1 .npmsg2 .npmsg3 reported
  | gp => threeLines .gmsg1 .gmsg2 .gmsg3 reported
  | mc => threeLines .mcmsg1 .mcmsg2 .mcmsg3 reported
  | pf =>
      Label.pfMsg1.chars ++ [10] ++ Label.pfMsg2.chars ++ qwordText reported.occurAt ++ [10] ++
        Label.pfMsg3.chars ++ qwordText reported.cr2 ++ [10]

/-- The handler displays where the exception occurred, and the stack pointer if it has a line for
it, for every image that is loaded and whatever is on the screen. -/
def Reports (symbols : HandlerSymbols) (exception : Exception) (context : Interrupted) : Prop :=
  ∀ (machine : Machine) (rest : List StackItem) (cr2 : BitVec 64) (fuel : ℕ),
    OutputReady symbols machine → machine.stack = exception.frame context rest → 64 ≤ fuel →
      ∃ error, wp (exception.handler symbols fuel cr2)
        (fun _ after =>
          Displays symbols machine
            (exception.report ⟨context.rip, error, context.rsp, cr2⟩) after)
        machine

/-- The values that the handler displays. -/
def found (exception : Exception) (context : Interrupted) (cr2 : BitVec 64) : Reported :=
  match exception with
  | df => ⟨context.rip.setWidth 32 ++ context.error.extractLsb' 32 32, context.error, context.rsp,
      cr2⟩
  | ts | np | gp | pf => ⟨context.rip, context.error, context.rsp, cr2⟩
  | _ => ⟨context.cs, context.rip, context.ss, cr2⟩

/-- There is no error code to be missed, or what is read in its place is the same. -/
def ReportsWhen (context : Interrupted) : Exception → Prop
  | ts | np | gp | pf => True
  | df => context.rip.setWidth 32 ++ context.error.extractLsb' 32 32 = context.rip
  | _ => context.cs = context.rip ∧ context.ss = context.rsp

end Exception

section

variable {symbols : HandlerSymbols} {machine : Machine} {fuel : ℕ}

theorem wp_outputs_displays {list : List Output} (ready : OutputReady symbols machine)
    (fine : ∀ output ∈ list, output.Fine machine) (enough : 64 ≤ fuel)
    (few : 64 * list.length ≤ 2 ^ 48) :
    wp (outputs symbols fuel list)
      (fun _ after => Displays symbols machine (textOfOutputs machine list) after) machine := by
  apply (wp_outputs ready (Shows.refl symbols machine) fine enough (by simpa using few)).mono
  rintro _ after ⟨shown, _⟩
  exact shown.displays

/-- The three values on the stack that most handlers read. -/
theorem wp_reportHandler {first second third : Label} {reported : Reported}
    (ready : OutputReady symbols machine) (enough : 64 ≤ fuel)
    (occurAt : stackQword machine.stack 8 = some reported.occurAt)
    (error : stackQword machine.stack 0 = some reported.error)
    (rsp : stackQword machine.stack 32 = some reported.rsp) :
    wp (reportHandler symbols fuel first second third)
      (fun _ after =>
        Displays symbols machine (Exception.threeLines first second third reported) after)
      machine := by
  have fine : ∀ output ∈ [Output.puts first, .qword 8, .println, .puts second, .qword 0, .println,
      .puts third, .qword 32, .println], output.Fine machine := by
    simp [Output.Fine, occurAt, error, rsp]
  apply (wp_outputs_displays ready fine enough (by simp)).mono
  intro _ after displays
  have text : textOfOutputs machine [Output.puts first, .qword 8, .println, .puts second, .qword 0,
      .println, .puts third, .qword 32, .println] =
        Exception.threeLines first second third reported := by
    simp [textOfOutputs, Output.text, Exception.threeLines, occurAt, error, rsp]
  rwa [text] at displays

/-- What lies between the error code and the instruction pointer is taken for the latter. -/
theorem wp_dfHandler {error rip : BitVec 64} {rest : List StackItem}
    (ready : OutputReady symbols machine)
    (top : machine.stack = .word error :: .word rip :: rest) (enough : 64 ≤ fuel) :
    wp (dfHandler symbols fuel)
      (fun _ after =>
        Displays symbols machine (Label.dfmsg1.chars ++
          qwordText (rip.setWidth 32 ++ error.extractLsb' 32 32) ++ [10]) after)
      machine := by
  have read : stackQword machine.stack 4 =
      some (rip.setWidth 32 ++ error.extractLsb' 32 32) := by
    rw [top]
    exact stackQword_four error rip rest
  have fine : ∀ output ∈ [Output.puts .dfmsg1, .qword 4, .println], output.Fine machine := by
    simp [Output.Fine, read]
  apply (wp_outputs_displays ready fine enough (by simp)).mono
  intro _ after displays
  have text : textOfOutputs machine [Output.puts .dfmsg1, .qword 4, .println] =
      Label.dfmsg1.chars ++ qwordText (rip.setWidth 32 ++ error.extractLsb' 32 32) ++ [10] := by
    simp [textOfOutputs, Output.text, read]
  rwa [text] at displays

theorem Displays.ofStack {stack : List StackItem} {text : List Byte} {after : Machine}
    (displays : Displays symbols (machine.withStack stack) text after) :
    Displays symbols machine text after := by
  rcases displays with ⟨memory, writes⟩
  rw [printedText_withStack] at memory writes
  exact ⟨memory, writes⟩

/-- The error code is dropped first. -/
theorem wp_pfHandler {error rip cs cr2 : BitVec 64} {rest : List StackItem}
    (ready : OutputReady symbols machine)
    (top : machine.stack = .word error :: .word rip :: .word cs :: rest) (enough : 64 ≤ fuel) :
    wp (pfHandler symbols fuel cr2)
      (fun _ after =>
        Displays symbols machine (Label.pfMsg1.chars ++ [10] ++ Label.pfMsg2.chars ++
          qwordText rip ++ [10] ++ Label.pfMsg3.chars ++ qwordText cr2 ++ [10]) after)
      machine := by
  have readyHere := ready.withStack (.word rip :: .word cs :: rest)
  have listed : rsi ∈ [rax, rcx, rsi, rdi] := by decide
  have listedToo : rdi ∈ [rax, rcx, rsi, rdi] := by decide
  have length := length_textOfOutputs_le (machine.withStack (.word rip :: .word cs :: rest))
  have greeting := length [.puts .pfMsg1, .println, .puts .pfMsg2]
  have prompt := length [.println, .puts .pfMsg3]
  simp only [List.length_cons, List.length_nil] at greeting prompt
  simp only [pfHandler, wp_bind, wp_addRsp8 top]
  -- the messages, and the instruction pointer
  apply (wp_outputs readyHere (Shows.refl symbols _) (by simp [Output.Fine]) enough
    (by simp)).mono
  rintro _ greeted ⟨shown, -⟩
  rw [List.nil_append] at shown
  have stack : greeted.stack = .word rip :: .word cs :: rest := shown.stack
  have first : stackQword greeted.stack 0 = some rip := by
    rw [stack]
    exact stackQword_zero rip _
  rw [wp_movFromStack first]
  have second : stackQword (greeted.put rsi rip).stack 4 =
      some (cs.setWidth 32 ++ rip.extractLsb' 32 32) := by
    have kept : (greeted.put rsi rip).stack = greeted.stack := rfl
    rw [kept, stack]
    exact stackQword_four rip cs rest
  rw [wp_movFromStack second]
  have passed : ((greeted.put rsi rip).put rdi
      (cs.setWidth 32 ++ rip.extractLsb' 32 32)).registers rsi = rip := by
    simp
  apply (wp_printQwordShown readyHere ((shown.put listed rip).put listedToo _) passed enough
    (by omega)).mono
  rintro _ located ⟨shown, -⟩
  -- the next message, and the address
  apply (wp_outputs readyHere shown (by simp [Output.Fine]) enough
    (by simp only [List.length_append, length_qwordText]; simp; omega)).mono
  rintro _ between ⟨shown, -⟩
  simp only [mov, shr, wp_bind, wp_fetch_imm, wp_fetch_reg, wp_assign_reg, wp_setFlags]
  have loaded : ∀ (copy high : BitVec 64) (zf cf : Bool),
      ((((between.put rsi cr2).put rdi copy).put rdi high).withFlags zf cf).registers rsi =
        cr2 := by
    simp
  apply (wp_printQwordShown readyHere
    ((((shown.put listed cr2).put listedToo _).put listedToo _).withFlags _ _) (loaded _ _ _ _)
    enough (by simp only [List.length_append, length_qwordText]; omega)).mono
  rintro _ addressed ⟨shown, -⟩
  apply (wp_outputs readyHere shown (by simp [Output.Fine]) enough
    (by simp only [List.length_append, length_qwordText]; simp; omega)).mono
  rintro _ after ⟨shown, -⟩
  have displayed := shown.displays.ofStack
  have whole : textOfOutputs (machine.withStack (.word rip :: .word cs :: rest))
      [.puts .pfMsg1, .println, .puts .pfMsg2] ++ qwordText rip ++
      textOfOutputs (machine.withStack (.word rip :: .word cs :: rest)) [.println, .puts .pfMsg3] ++
      qwordText cr2 ++
      textOfOutputs (machine.withStack (.word rip :: .word cs :: rest)) [.println] =
        Label.pfMsg1.chars ++ [10] ++ Label.pfMsg2.chars ++ qwordText rip ++ [10] ++
          Label.pfMsg3.chars ++ qwordText cr2 ++ [10] := by
    simp [textOfOutputs, Output.text]
  rwa [whole] at displayed

/-- What each handler displays. -/
theorem wp_handler {exception : Exception} {context : Interrupted} {rest : List StackItem}
    (ready : OutputReady symbols machine)
    (top : machine.stack = exception.frame context rest) (cr2 : BitVec 64) (enough : 64 ≤ fuel) :
    wp (exception.handler symbols fuel cr2)
      (fun _ after =>
        Displays symbols machine (exception.report (exception.found context cr2)) after)
      machine := by
  cases exception with
  | df => exact wp_dfHandler ready top enough
  | pf => exact wp_pfHandler ready top enough
  | _ =>
      apply wp_reportHandler ready enough
      all_goals
        rw [top]
        simp [Exception.frame, Exception.pushesError, Interrupted.frame, Exception.found]

end

/-! ### Which of them are right -/

namespace Exception

theorem threeLines_inj {first second third : Label} {reported reportedToo : Reported}
    (same : threeLines first second third reported = threeLines first second third reportedToo) :
    reported.occurAt = reportedToo.occurAt ∧ reported.rsp = reportedToo.rsp := by
  simp only [threeLines, List.append_assoc] at same
  rcases qwordText_append_inj (List.append_cancel_left same) with ⟨occurAt, same⟩
  rcases qwordText_append_inj (List.append_cancel_left (List.append_cancel_left same))
    with ⟨-, same⟩
  rcases qwordText_append_inj (List.append_cancel_left (List.append_cancel_left same))
    with ⟨rsp, -⟩
  exact ⟨occurAt, rsp⟩

theorem lineFeeds_report (exception : Exception) (reported reportedToo : Reported) :
    lineFeeds (exception.report reported) = lineFeeds (exception.report reportedToo) := by
  cases exception <;>
    simp only [report, threeLines, lineFeeds_append, lineFeeds_qwordText]

theorem room_threeLines (first second third : Label) (reported : Reported) :
    160 * (threeLines first second third reported).count 10 +
      2 * (threeLines first second third reported).length ≤ 0x1ff0 := by
  have short := length_chars_le first
  have shortSecond := length_chars_le second
  have shortThird := length_chars_le third
  simp [threeLines]
  omega

/-- A report fits on the screen. -/
theorem room_report (exception : Exception) (reported : Reported) :
    160 * (exception.report reported).count 10 + 2 * (exception.report reported).length ≤
      0x1ff0 := by
  cases exception with
  | df =>
      have short := length_chars_le .dfmsg1
      simp [report]
      omega
  | pf =>
      have short := length_chars_le .pfMsg1
      have shortSecond := length_chars_le .pfMsg2
      have shortThird := length_chars_le .pfMsg3
      simp [report]
      omega
  | _ => exact room_threeLines _ _ _ reported

/-- The values found are the right ones under the condition, whatever is said of the error code. -/
theorem report_found {exception : Exception} {context : Interrupted}
    (holds : exception.ReportsWhen context) (cr2 : BitVec 64) :
    exception.report (exception.found context cr2) =
      exception.report ⟨context.rip, (exception.found context cr2).error, context.rsp, cr2⟩ := by
  cases exception <;> simp_all [ReportsWhen, found, report]

/-- A report tells apart the values in question. -/
theorem reportsWhen_of_report_eq {exception : Exception} {context : Interrupted}
    {error cr2 : BitVec 64}
    (same : exception.report ⟨context.rip, error, context.rsp, cr2⟩ =
      exception.report (exception.found context cr2)) : exception.ReportsWhen context := by
  cases exception with
  | df =>
      simp only [report, List.append_assoc] at same
      exact (qwordText_append_inj (List.append_cancel_left same)).1.symm
  | ts | np | gp | pf => trivial
  | _ =>
      rcases threeLines_inj same with ⟨occurAt, rsp⟩
      exact ⟨occurAt.symm, rsp.symm⟩

theorem reportsWhen_of_reports {symbols : HandlerSymbols} {machine : Machine}
    {exception : Exception} {context : Interrupted} (ready : OutputReady symbols machine)
    (reports : exception.Reports symbols context) : exception.ReportsWhen context := by
  have readyHome := ready.atHome (exception.frame context [])
  rcases reports _ [] 0 64 readyHome rfl (le_refl _) with ⟨error, displays⟩
  apply reportsWhen_of_report_eq
  exact eq_of_displays readyHome (cursor_atHome _) (lineFeeds_report exception _ _)
    (room_report exception _) displays (wp_handler readyHome rfl 0 (le_refl _))

/-- A handler is right exactly if the error code that it reads is there or makes no difference. -/
theorem reports_iff_reportsWhen {symbols : HandlerSymbols} {machine : Machine}
    (ready : OutputReady symbols machine) (exception : Exception) (context : Interrupted) :
    exception.Reports symbols context ↔ exception.ReportsWhen context := by
  constructor
  · exact reportsWhen_of_reports ready
  · intro holds machine rest cr2 fuel ready top enough
    refine ⟨(exception.found context cr2).error, ?_⟩
    rw [← report_found holds cr2]
    exact wp_handler ready top cr2 enough

theorem gp_reports : gp.Reports handlerImage ⟨0x100234, 0x28, 0x10002, 0x7fe00, 0x30, 0x58⟩ :=
  (reports_iff_reportsWhen (outputReady_handlerMachine blank) gp _).mpr trivial

/-- Where a division went wrong, `DE_handler` prints the code segment. -/
theorem not_de_reports :
    ¬de.Reports handlerImage ⟨0x100234, 0x28, 0x10002, 0x7fe00, 0x30, 0⟩ := by
  intro reports
  have same := (reportsWhen_of_reports (outputReady_handlerMachine blank) reports).1
  exact absurd same (by decide)

end Exception

end VirtLearn.Guest
