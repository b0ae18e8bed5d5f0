import VirtLearn.Kvm.Mmio
import VirtLearn.Transition

/-!
# The run loop of the monitor

The loop at the end of `main` of `vm.c` runs the virtual CPU and serves what it comes back with.
What `KVM_RUN` gives is the action of a step (`Return`), so that a run of the system is one run of
the program, whatever the guest does.
-/

namespace VirtLearn.Kvm

/-- `run->io`, with the byte that it has the offset of. -/
structure IoExit where
  out : Bool
  size : Byte
  port : BitVec 16
  count : BitVec 32
  data : Byte

/-- What `KVM_RUN` comes back with: a failure, or an exit. -/
inductive Return where
  | failed (strerror : String)
  | io (exit : IoExit)
  | mmio (exit : MmioExit) (replies : Replies)
  | shutdown
  | unknown (hardwareExitReason : BitVec 64)
  | systemEvent
  | failEntry (hardwareEntryFailureReason : BitVec 64)
  | internalError (suberror : BitVec 32)
  | hlt
  | other (exitReason : BitVec 32)

/-- The program, with its complaints and the number of characters it has waited for. -/
structure Monitor where
  vmm : Vmm := {}
  stderr : String := ""
  getchars : ℕ := 0

/-- `run->io` asks for a character on the serial line. -/
def IoExit.IsSerial (exit : IoExit) : Prop :=
  exit.out = true ∧ exit.size = 1 ∧ exit.port = 0x3f8 ∧ exit.count = 1

instance (exit : IoExit) : Decidable exit.IsSerial :=
  inferInstanceAs (Decidable (_ ∧ _))

def MmioExit.IsVideo (exit : MmioExit) : Prop :=
  0xb8000 ≤ exit.physAddr ∧ exit.physAddr ≤ 0xba000

instance (exit : MmioExit) : Decidable exit.IsVideo :=
  inferInstanceAs (Decidable (_ ∧ _))

namespace Monitor

/-- `errx(1, ...)` of the program with this name. -/
def errx (name text : String) (monitor : Monitor) : Monitor :=
  { monitor with
    vmm := { monitor.vmm with exited := some 1 }
    stderr := monitor.stderr ++ name ++ ": " ++ text ++ "\n" }

/-- One round of the loop. -/
def serve (name : String) (monitor : Monitor) : Return → Monitor
  | .failed strerror => monitor.errx name ("KVM_RUN: " ++ strerror)
  | .io exit =>
      if exit.IsSerial then { monitor with vmm := monitor.vmm.putchar exit.data }
      else
        let vmm := monitor.vmm.printf
          ("port:0x" ++ hex exit.port ++ " size:" ++ toString exit.size.toNat ++ " count:" ++
            toString exit.count.toInt ++ "\n")
        { monitor with vmm }.errx name "unhandled KVM_EXIT_IO"
  | .mmio exit replies =>
      { monitor with
        vmm := monitor.vmm.mmio replies exit
        getchars := monitor.getchars + if exit.physAddr = 0x8000000 then 1 else 0 }
  | .shutdown => monitor
  | .unknown hardwareExitReason =>
      { monitor with
        stderr := monitor.stderr ++ "KVM: unknown exit,hardware reason " ++
          hex hardwareExitReason ++ "\n" }
  | .systemEvent => monitor
  | .failEntry reason =>
      monitor.errx name ("KVM_EXIT_FAIL_ENTRY: hardware_entry_failure_reason =0x" ++ hex reason)
  | .internalError suberror =>
      monitor.errx name ("KVM_EXIT_INTERNAL_ERROR: suberror =0x" ++ hex suberror)
  | .hlt =>
      { monitor with vmm := { monitor.vmm.printf "KVM_EXIT_HLT\n" with exited := some 0 } }
  | .other exitReason => monitor.errx name ("exit_reason =0x" ++ hex exitReason ++ "\n")

/-- The monitor serves one after the other, until the program ends. -/
def serveAll (name : String) (monitor : Monitor) (backs : List Return) : Monitor :=
  backs.foldl
    (fun monitor back => if monitor.vmm.exited.isSome then monitor else monitor.serve name back)
    monitor

end Monitor

/-- The loop: it takes no step once the program has ended. -/
def runLoop (name : String) (initial : Monitor) : System Monitor Return where
  initial
  step := fun monitor back =>
    if monitor.vmm.exited.isSome then none else some (monitor.serve name back)

/-! ### What each round does -/

namespace Return

/-- The status with which the program ends, if it does. -/
def status : Return → Option ℤ
  | .failed _ | .failEntry _ | .internalError _ | .other _ => some 1
  | .io exit => if exit.IsSerial then none else some 1
  | .mmio exit _ => if exit.IsVideo ∨ exit.physAddr = 0x8000000 then none else some (-1)
  | .shutdown | .unknown _ | .systemEvent => none
  | .hlt => some 0

/-- The guest has stored to the address of the doorbell, or has loaded from it. -/
def Rings : Return → Prop
  | .mmio exit _ => exit.physAddr = 0x8000000
  | _ => False

instance (back : Return) : Decidable back.Rings := by
  cases back <;> unfold Rings <;> infer_instance

end Return

section Rounds

variable {name : String} {monitor : Monitor}

theorem Vmm.exited_mmio (vmm : Vmm) (replies : Replies) (exit : MmioExit) :
    (vmm.mmio replies exit).exited =
      if exit.IsVideo ∨ exit.physAddr = 0x8000000 then vmm.exited else some (-1) := by
  rw [mmio]
  by_cases video : exit.IsVideo
  · rw [if_pos (by exact video), if_pos (Or.inl video)]
    split <;> rfl
  · rw [if_neg (by exact video)]
    by_cases doorbell : exit.physAddr = 0x8000000
    · rw [if_pos doorbell, if_pos (Or.inr doorbell)]
      split <;> rfl
    · rw [if_neg doorbell, if_neg (not_or.mpr ⟨video, doorbell⟩)]

theorem Vmm.irqefd_mmio (vmm : Vmm) (replies : Replies) (exit : MmioExit) :
    (vmm.mmio replies exit).irqefd =
      vmm.irqefd ++ if exit.physAddr = 0x8000000 then [1] else [] := by
  rw [mmio]
  by_cases video : exit.IsVideo
  · have elsewhere : exit.physAddr ≠ 0x8000000 := by
      rintro doorbell
      rw [MmioExit.IsVideo, doorbell] at video
      exact absurd video.2 (by decide)
    rw [if_pos (by exact video), if_neg elsewhere, List.append_nil]
    split <;> rfl
  · rw [if_neg (by exact video)]
    by_cases doorbell : exit.physAddr = 0x8000000
    · rw [if_pos doorbell, if_pos doorbell]
      split <;> rfl
    · rw [if_neg doorbell, if_neg doorbell, List.append_nil]
      rfl

theorem exited_serve (running : monitor.vmm.exited = none) (back : Return) :
    (monitor.serve name back).vmm.exited = back.status := by
  cases back with
  | io exit =>
      simp only [Monitor.serve, Return.status]
      split
      · exact running
      · rfl
  | mmio exit replies =>
      simp only [Monitor.serve, Return.status, Vmm.exited_mmio, running]
  | shutdown => exact running
  | unknown _ => exact running
  | systemEvent => exact running
  | failed _ => rfl
  | failEntry _ => rfl
  | internalError _ => rfl
  | hlt => rfl
  | other _ => rfl

/-- A round raises an interrupt, and waits for a character, exactly for the doorbell. -/
theorem irqefd_serve (back : Return) :
    (monitor.serve name back).vmm.irqefd =
        monitor.vmm.irqefd ++ (if back.Rings then [1] else []) ∧
      (monitor.serve name back).getchars =
        monitor.getchars + if back.Rings then 1 else 0 := by
  cases back with
  | io exit =>
      have silent : ¬(Return.io exit).Rings := not_false
      rw [if_neg silent, if_neg silent, List.append_nil]
      simp only [Monitor.serve]
      split <;> exact ⟨rfl, rfl⟩
  | mmio exit replies => exact ⟨Vmm.irqefd_mmio _ _ _, rfl⟩
  | _ => exact ⟨(List.append_nil _).symm, rfl⟩

theorem step_runLoop {initial : Monitor} (running : monitor.vmm.exited = none) (back : Return) :
    (runLoop name initial).step monitor back = some (monitor.serve name back) := by
  simp [runLoop, running]

theorem run_runLoop_of_exited {initial last : Monitor} {backs : List Return} {status : ℤ}
    (ended : monitor.vmm.exited = some status)
    (ran : (runLoop name initial).run monitor backs = some last) : backs = [] ∧ last = monitor := by
  cases backs with
  | nil => exact ⟨rfl, (Option.some.inj ran).symm⟩
  | cons back rest => simp [System.run, runLoop, ended] at ran

theorem serveAll_of_exited (ended : monitor.vmm.exited.isSome = true) (backs : List Return) :
    monitor.serveAll name backs = monitor := by
  induction backs with
  | nil => rfl
  | cons back rest ih =>
      rw [Monitor.serveAll, List.foldl_cons, if_pos ended]
      exact ih

theorem serveAll_cons (running : monitor.vmm.exited = none) (back : Return) (rest : List Return) :
    monitor.serveAll name (back :: rest) = (monitor.serve name back).serveAll name rest := by
  have onward : ¬monitor.vmm.exited.isSome = true := by simp [running]
  rw [Monitor.serveAll, List.foldl_cons, if_neg onward]
  rfl

/-- An exit that ends the program is the last one. -/
theorem serveAll_of_ends (running : monitor.vmm.exited = none) {back : Return} {status : ℤ}
    (ends : back.status = some status) (rest : List Return) :
    monitor.serveAll name (back :: rest) = monitor.serve name back := by
  rw [serveAll_cons running, serveAll_of_exited]
  rw [exited_serve running, ends]
  rfl

theorem serveAll_of_goesOn (running : monitor.vmm.exited = none) {backs : List Return}
    (goesOn : ∀ back ∈ backs, back.status = none) (silent : ∀ back ∈ backs, ¬back.Rings) :
    (monitor.serveAll name backs).vmm.exited = none ∧
      (monitor.serveAll name backs).vmm.irqefd = monitor.vmm.irqefd := by
  induction backs generalizing monitor with
  | nil => exact ⟨running, rfl⟩
  | cons back rest ih =>
      have onward : (monitor.serve name back).vmm.exited = none := by
        rw [exited_serve running]
        exact goesOn back List.mem_cons_self
      rcases ih onward (fun other listed => goesOn other (List.mem_cons_of_mem _ listed))
        (fun other listed => silent other (List.mem_cons_of_mem _ listed)) with ⟨exited, irqefd⟩
      rw [serveAll_cons running]
      refine ⟨exited, irqefd.trans ?_⟩
      rw [(irqefd_serve back).1, if_neg (silent back List.mem_cons_self), List.append_nil]

end Rounds

/-! ### Whole runs -/

section Runs

variable {name : String} {initial monitor last : Monitor} {backs : List Return}

/-- The loop goes on as long as nothing ends the program. -/
theorem run_runLoop_of_goesOn (running : monitor.vmm.exited = none)
    (goesOn : ∀ back ∈ backs, back.status = none) :
    ∃ last, (runLoop name initial).run monitor backs = some last ∧ last.vmm.exited = none := by
  induction backs generalizing monitor with
  | nil => exact ⟨monitor, rfl, running⟩
  | cons back rest ih =>
      have onward : (monitor.serve name back).vmm.exited = none := by
        rw [exited_serve running]
        exact goesOn back List.mem_cons_self
      rw [System.run_of_step (step_runLoop running back)]
      exact ih onward fun other listed => goesOn other (List.mem_cons_of_mem _ listed)

/-- What has been printed stays. -/
theorem prefix_serve (back : Return) :
    monitor.vmm.stdout <+: (monitor.serve name back).vmm.stdout := by
  cases back with
  | io exit =>
      simp only [Monitor.serve]
      split <;> exact List.prefix_append _ _
  | mmio exit replies =>
      simp only [Monitor.serve, Vmm.mmio]
      split
      · split
        · exact (List.prefix_append _ _).trans (List.prefix_append _ _)
        · exact List.prefix_append _ _
      · split
        · split
          · exact (List.prefix_append _ _).trans (List.prefix_append _ _)
          · exact List.prefix_append _ _
        · exact (List.prefix_append _ _).trans (List.prefix_append _ _)
  | hlt => exact List.prefix_append _ _
  | _ => exact List.prefix_refl _

theorem status_eq_zero_iff (back : Return) : back.status = some 0 ↔ back = .hlt := by
  cases back with
  | io exit =>
      simp only [Return.status]
      split <;> simp
  | mmio exit replies =>
      simp only [Return.status]
      split <;> simp
  | _ => simp [Return.status]

/-- What a run of the loop comes to. -/
structure Outcomes (monitor : Monitor) (backs : List Return) (last : Monitor) : Prop where
  exited : last.vmm.exited = backs.getLast?.bind Return.status
  earlier : ∀ back ∈ backs.dropLast, back.status = none
  irqefd : last.vmm.irqefd =
    monitor.vmm.irqefd ++ List.replicate (backs.countP (Return.Rings ·)) 1
  getchars : last.getchars = monitor.getchars + backs.countP (Return.Rings ·)
  stdout : monitor.vmm.stdout <+: last.vmm.stdout

theorem outcomes_run (running : monitor.vmm.exited = none)
    (ran : (runLoop name initial).run monitor backs = some last) :
    Outcomes monitor backs last := by
  induction backs generalizing monitor with
  | nil =>
      cases ran
      exact ⟨running, by simp, by simp, by simp, List.prefix_refl _⟩
  | cons back rest ih =>
      rw [System.run_of_step (step_runLoop running back)] at ran
      have exited := @exited_serve name _ running back
      have rung := @irqefd_serve name monitor back
      have printed := @prefix_serve name monitor back
      cases status : back.status with
      | some code =>
          rw [status] at exited
          -- the program has ended with this exit, so that there is no other
          rcases run_runLoop_of_exited exited ran with ⟨rfl, rfl⟩
          refine ⟨?_, ?_, ?_, ?_, printed⟩
          · rw [exited]
            exact status.symm
          · intro other listed
            exact absurd listed List.not_mem_nil
          · rw [rung.1]
            by_cases rings : back.Rings <;> simp [rings]
          · rw [rung.2]
            by_cases rings : back.Rings <;> simp [rings]
      | none =>
          rw [status] at exited
          have behind := ih exited ran
          refine ⟨?_, ?_, ?_, ?_, printed.trans behind.stdout⟩
          · rw [behind.exited]
            cases rest with
            | nil => exact status.symm
            | cons next later => rfl
          · intro other listed
            cases rest with
            | nil => exact absurd listed List.not_mem_nil
            | cons next later =>
                rcases List.mem_cons.mp listed with rfl | listed
                · exact status
                · exact behind.earlier other listed
          · rw [behind.irqefd, rung.1]
            by_cases rings : back.Rings <;> simp [rings, List.replicate_succ]
          · rw [behind.getchars, rung.2]
            by_cases rings : back.Rings
            · simp [rings]
              omega
            · simp [rings]

/--
Whatever the guest does: the program has ended exactly if the last exit asks for it, which no
earlier one did, and with status 0 exactly if that is a `HLT`. It has raised one interrupt, and
waited for one character, for each use of the doorbell, and has taken back nothing that it printed.
-/
theorem run_monitor (running : monitor.vmm.exited = none)
    (ran : (runLoop name initial).run monitor backs = some last) :
    Outcomes monitor backs last ∧
      (last.vmm.exited = some 0 ↔ backs.getLast? = some .hlt) ∧
      (last.vmm.exited = none ↔ ∀ back ∈ backs, back.status = none) := by
  have outcomes := outcomes_run running ran
  refine ⟨outcomes, ?_, ?_⟩
  · rw [outcomes.exited, Option.bind_eq_some_iff]
    simp [status_eq_zero_iff]
  · rw [outcomes.exited]
    constructor
    · intro goesOn back listed
      by_cases final : some back = backs.getLast?
      · rw [← final] at goesOn
        exact goesOn
      · apply outcomes.earlier
        exact List.mem_dropLast_of_mem_of_ne_getLast? listed final
    · intro goesOn
      cases final : backs.getLast? with
      | none => rfl
      | some back => exact goesOn back (List.mem_of_getLast? final)

/-- The doorbell, a triple fault, and `HLT`. -/
def doorbellAndHalt : List Return :=
  [.mmio ⟨0x8000000, [0x7d, 0x7d], 8, 1⟩ {}, .shutdown, .hlt]

theorem run_monitor_doorbellAndHalt :
    ∃ last, (runLoop "vm" {}).run {} doorbellAndHalt = some last ∧
      last.vmm.exited = some 0 ∧ last.vmm.irqefd = [1] ∧ last.getchars = 1 := by
  refine ⟨_, rfl, ?_⟩
  have outcomes := @run_monitor "vm" {} {} _ doorbellAndHalt rfl rfl
  exact ⟨outcomes.2.1.mpr rfl, outcomes.1.irqefd, outcomes.1.getchars⟩

end Runs

end VirtLearn.Kvm
