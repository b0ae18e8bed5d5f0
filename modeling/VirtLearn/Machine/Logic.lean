import VirtLearn.Machine.Assembly

/-!
# Total correctness of routines

`wp routine post` holds of the states from which the routine ends, without a fault, in a state that
meets `post`. The rules compute it instruction by instruction; a routine called is replaced by what
is known of it with `wp.mono`, and a loop with `wp_loop`.
-/

namespace VirtLearn

universe u v

variable {α : Type} {β : Type} {width : ℕ}

/-- The routine ends in a state that meets the postcondition. -/
def wp (routine : Routine α) (post : α → Machine → Prop) (machine : Machine) : Prop :=
  ∃ value after, routine machine = some (value, after) ∧ post value after

theorem wp.mono {routine : Routine α} {post weaker : α → Machine → Prop} {machine : Machine}
    (holds : wp routine post machine)
    (weakens : ∀ value after, post value after → weaker value after) :
    wp routine weaker machine := by
  rcases holds with ⟨value, after, ends, met⟩
  exact ⟨value, after, ends, weakens value after met⟩

theorem wp_iff_of_ends {routine : Routine α} {post : α → Machine → Prop} {machine after : Machine}
    {value : α} (ends : routine machine = some (value, after)) :
    wp routine post machine ↔ post value after := by
  rw [wp, ends]
  constructor
  · rintro ⟨_, _, same, met⟩
    cases same
    exact met
  · intro met
    exact ⟨value, after, rfl, met⟩

/-- `after` differs from `before` in the flags and in some registers only. -/
structure OnlyRegisters (changed : List Register) (before after : Machine) : Prop where
  registers : ∀ register, register ∉ changed → after.registers register = before.registers register
  stack : after.stack = before.stack
  ram : after.ram = before.ram
  memory : after.memory = before.memory
  writes : after.writes = before.writes

theorem OnlyRegisters.trans {changed : List Register} {before between after : Machine}
    (earlier : OnlyRegisters changed before between) (later : OnlyRegisters changed between after) :
    OnlyRegisters changed before after where
  registers := by
    intro register kept
    exact (later.registers register kept).trans (earlier.registers register kept)
  stack := later.stack.trans earlier.stack
  ram := later.ram.trans earlier.ram
  memory := later.memory.trans earlier.memory
  writes := later.writes.trans earlier.writes

theorem OnlyRegisters.mono {changed more : List Register} {before after : Machine}
    (only : OnlyRegisters changed before after) (covered : changed ⊆ more) :
    OnlyRegisters more before after :=
  ⟨fun register kept => only.registers register fun listed => kept (covered listed), only.stack,
    only.ram, only.memory, only.writes⟩

theorem OnlyRegisters.refl (changed : List Register) (machine : Machine) :
    OnlyRegisters changed machine machine :=
  ⟨fun _ _ => rfl, rfl, rfl, rfl, rfl⟩

namespace Machine

variable {machine : Machine}

@[simp]
theorem merge_qword (old value : BitVec 64) : merge old value = value := by
  simp [merge]

theorem setWidth_merge {narrow : ℕ} (fits : narrow ≤ width) (register : width ≤ 64)
    (old : BitVec 64) (value : BitVec width) :
    (merge old value).setWidth narrow = value.setWidth narrow := by
  apply BitVec.eq_of_getLsbD_eq
  intro index below
  have inValue : index < width := by omega
  have inRegister : index < 64 := by omega
  rw [merge]
  split
  · simp [below, inRegister]
  · simp [below, inRegister, inValue]

@[simp]
theorem get_qword (register : Register) : machine.get 64 register = machine.registers register := by
  simp [get]

@[simp]
theorem registers_put (register : Register) (value : BitVec width) (other : Register) :
    (machine.put register value).registers other =
      if other = register then merge (machine.registers register) value
      else machine.registers other := by
  simp [put, Function.update_apply]

@[simp]
theorem get_put_self (fits : width ≤ 64) (register : Register) (value : BitVec width) :
    (machine.put register value).get width register = value := by
  simp [get, setWidth_merge (Nat.le_refl width) fits]

@[simp]
theorem get_put_of_ne {register other : Register} (different : other ≠ register) (narrow : ℕ)
    (value : BitVec width) :
    (machine.put register value).get narrow other = machine.get narrow other := by
  simp [get, different]

@[simp]
theorem get_withFlags (zf cf : Bool) (register : Register) :
    (machine.withFlags zf cf).get width register = machine.get width register :=
  rfl

@[simp]
theorem get_withStack (stack : List StackItem) (register : Register) :
    (machine.withStack stack).get width register = machine.get width register :=
  rfl

theorem poke_eq (machine : Machine) (address : Address) (value : BitVec width) :
    machine.poke address value =
      { machine with
        memory :=
          if machine.ram address then machine.memory.write address value else machine.memory
        writes :=
          if machine.ram address then machine.writes
          else machine.writes ++ [⟨address, bytesOf (width / 8) value.toNat⟩] } := by
  rw [poke]
  split <;> rfl

@[simp]
theorem registers_poke (address : Address) (value : BitVec width) :
    (machine.poke address value).registers = machine.registers := by
  rw [poke_eq]

@[simp]
theorem zf_poke (address : Address) (value : BitVec width) :
    (machine.poke address value).zf = machine.zf := by
  rw [poke_eq]

@[simp]
theorem cf_poke (address : Address) (value : BitVec width) :
    (machine.poke address value).cf = machine.cf := by
  rw [poke_eq]

@[simp]
theorem stack_poke (address : Address) (value : BitVec width) :
    (machine.poke address value).stack = machine.stack := by
  rw [poke_eq]

@[simp]
theorem ram_poke (address : Address) (value : BitVec width) :
    (machine.poke address value).ram = machine.ram := by
  rw [poke_eq]

theorem memory_poke (address : Address) (value : BitVec width) :
    (machine.poke address value).memory =
      if machine.ram address then machine.memory.write address value else machine.memory := by
  rw [poke_eq]

theorem writes_poke (address : Address) (value : BitVec width) :
    (machine.poke address value).writes =
      if machine.ram address then machine.writes
      else machine.writes ++ [⟨address, bytesOf (width / 8) value.toNat⟩] := by
  rw [poke_eq]

theorem get_poke (narrow : ℕ) (register : Register) (address : Address) (value : BitVec width) :
    (machine.poke address value).get narrow register = machine.get narrow register := by
  simp [get]

theorem poke_of_ram {address : Address} (ram : machine.ram address = true)
    (value : BitVec width) :
    machine.poke address value =
      { machine with memory := machine.memory.write address value } := by
  simp [poke, ram]

theorem poke_withStack (machine : Machine) (stack : List StackItem) (address : Address)
    (value : BitVec width) :
    (machine.withStack stack).poke address value =
      (machine.poke address value).withStack stack := by
  rw [poke_eq, poke_eq]
  rfl

end Machine

namespace OnlyRegisters

variable {changed : List Register} {before after : Machine}

theorem put (only : OnlyRegisters changed before after) {register : Register}
    (listed : register ∈ changed) (value : BitVec width) :
    OnlyRegisters changed before (after.put register value) where
  registers := by
    intro other kept
    have different : other ≠ register := fun same => kept (same ▸ listed)
    simp [different, only.registers other kept]
  stack := only.stack
  ram := only.ram
  memory := only.memory
  writes := only.writes

theorem withFlags (only : OnlyRegisters changed before after) (zf cf : Bool) :
    OnlyRegisters changed before (after.withFlags zf cf) :=
  ⟨only.registers, only.stack, only.ram, only.memory, only.writes⟩

/-- A register that is pushed and popped again is as it was. -/
theorem restored {register : Register} {pushed stack : List StackItem}
    (only : OnlyRegisters (register :: changed) (before.withStack pushed) after) :
    OnlyRegisters changed (before.withStack stack)
      ((after.withStack stack).put register (before.registers register)) where
  registers := by
    intro other kept
    by_cases same : other = register
    · simp [same]
    · have unlisted : other ∉ register :: changed := by simp [same, kept]
      simpa [same] using only.registers other unlisted
  stack := rfl
  ram := only.ram
  memory := only.memory
  writes := only.writes

/-- One store keeps states that differ in registers only alike. -/
theorem poke (only : OnlyRegisters changed before after) (address : Address)
    (value : BitVec width) :
    OnlyRegisters changed (before.poke address value) (after.poke address value) where
  registers := by
    intro register kept
    simp [only.registers register kept]
  stack := by simp [only.stack]
  ram := by simp [only.ram]
  memory := by simp [Machine.memory_poke, only.memory, only.ram]
  writes := by simp [Machine.writes_poke, only.writes, only.ram]

end OnlyRegisters

namespace Assembly

variable {post : Unit → Machine → Prop} {machine : Machine}

@[simp]
theorem wp_pure (value : α) (post : α → Machine → Prop) :
    wp (pure value) post machine ↔ post value machine :=
  wp_iff_of_ends rfl

@[simp]
theorem wp_bind (first : Routine α) (second : α → Routine β) (post : β → Machine → Prop) :
    wp (first >>= second) post machine ↔
      wp first (fun value after => wp (second value) post after) machine := by
  simp only [wp, bind, StateT.bind, Option.bind_eq_some_iff]
  constructor
  · rintro ⟨value, after, ⟨⟨middle, between⟩, begins, ends⟩, met⟩
    exact ⟨middle, between, begins, value, after, ends, met⟩
  · rintro ⟨middle, between, begins, value, after, ends, met⟩
    exact ⟨value, after, ⟨⟨middle, between⟩, begins, ends⟩, met⟩

@[simp]
theorem wp_map (routine : Routine α) (change : α → β) (post : β → Machine → Prop) :
    wp (change <$> routine) post machine ↔
      wp routine (fun value after => post (change value) after) machine := by
  rw [map_eq_pure_bind, wp_bind]
  simp

@[simp]
theorem wp_get (post : Machine → Machine → Prop) :
    wp get post machine ↔ post machine machine :=
  wp_iff_of_ends rfl

@[simp]
theorem wp_set (next : Machine) (post : PUnit → Machine → Prop) :
    wp (set next) post machine ↔ post ⟨⟩ next :=
  wp_iff_of_ends rfl

@[simp]
theorem wp_modify (change : Machine → Machine) (post : PUnit → Machine → Prop) :
    wp (modify change) post machine ↔ post ⟨⟩ (change machine) :=
  wp_iff_of_ends rfl

@[simp]
theorem wp_ite (condition : Prop) [Decidable condition] (yes no : Routine α)
    (post : α → Machine → Prop) :
    wp (if condition then yes else no) post machine ↔
      if condition then wp yes post machine else wp no post machine := by
  split <;> rfl

@[simp]
theorem not_wp_failure (post : α → Machine → Prop) : ¬wp failure post machine := by
  rintro ⟨value, after, ends, _⟩
  cases ends

/-! ### Operands -/

@[simp]
theorem wp_fetch_imm (value : BitVec width) (post : BitVec width → Machine → Prop) :
    wp (fetch (.imm value)) post machine ↔ post value machine := by
  simp [fetch]

@[simp]
theorem wp_fetch_reg (register : Register) (post : BitVec width → Machine → Prop) :
    wp (fetch (.reg register)) post machine ↔ post (machine.get width register) machine := by
  simp [fetch]

@[simp]
theorem wp_fetch_mem (displacement : Address) (base index : Option Register)
    (post : BitVec width → Machine → Prop) :
    wp (fetch (.mem displacement base index)) post machine ↔
      machine.ram (machine.effective displacement base index) = true ∧
        post (machine.memory.read width (machine.effective displacement base index)) machine := by
  simp only [fetch, wp_bind, wp_get, wp_ite, wp_pure]
  split <;> simp_all

@[simp]
theorem wp_assign_reg (register : Register) (value : BitVec width) :
    wp (assign (.reg register) value) post machine ↔ post () (machine.put register value) := by
  simp [assign]

@[simp]
theorem wp_assign_mem (displacement : Address) (base index : Option Register)
    (value : BitVec width) :
    wp (assign (.mem displacement base index) value) post machine ↔
      post () (machine.poke (machine.effective displacement base index) value) := by
  simp [assign]

/-! ### Instructions -/

attribute [simp] mov bitwise and_ or_ test add sub cmp neg inc dec bt rdmsr shl shr shrCl shrd movzx
  cmovz setnz sidt sgdt

@[simp]
theorem wp_setFlags (zf cf : Bool) :
    wp (setFlags zf cf) post machine ↔ post () (machine.withFlags zf cf) := by
  simp [setFlags]

@[simp]
theorem wp_push (register : Register) :
    wp (push register) post machine ↔
      post () (machine.withStack (.word (machine.registers register) :: machine.stack)) := by
  simp [push]

@[simp]
theorem wp_pop (register : Register) :
    wp (pop register) post machine ↔
      ∃ value rest, machine.stack = .word value :: rest ∧
        post () ((machine.withStack rest).put register value) := by
  simp only [pop, wp_bind, wp_get]
  split
  case h_1 value rest top => simp [top]
  case h_2 other =>
    constructor
    · intro failed
      exact absurd failed (not_wp_failure _)
    · rintro ⟨value, rest, top, _⟩
      exact absurd top (other value rest)

theorem wp_div {source : Register} (small : machine.registers .rdx = 0)
    (nonzero : machine.registers source ≠ 0) :
    wp (div (.reg source)) post machine ↔
      post () ((machine.put .rax (machine.registers .rax / machine.registers source)).put .rdx
        (machine.registers .rax % machine.registers source)) := by
  have fits : ¬2 ^ 64 ≤ (machine.registers .rax).toNat / (machine.registers source).toNat :=
    Nat.not_le.mpr (Nat.lt_of_le_of_lt (Nat.div_le_self _ _) (BitVec.isLt _))
  have quotient : BitVec.ofNat 64
      ((machine.registers .rax).toNat / (machine.registers source).toNat) =
        machine.registers .rax / machine.registers source := by
    apply BitVec.eq_of_toNat_eq
    rw [BitVec.toNat_ofNat, BitVec.toNat_udiv, Nat.mod_eq_of_lt (Nat.not_le.mp fits)]
  have remainder : BitVec.ofNat 64
      ((machine.registers .rax).toNat % (machine.registers source).toNat) =
        machine.registers .rax % machine.registers source := by
    rw [← BitVec.toNat_umod, BitVec.ofNat_toNat, BitVec.setWidth_eq]
  simp only [div, wp_bind, wp_fetch_reg, Machine.get_qword, wp_get, small, BitVec.ofNat_eq_ofNat,
    BitVec.toNat_ofNat, Nat.zero_mod, Nat.zero_mul, Nat.zero_add]
  simp only [BitVec.ofNat_eq_ofNat] at nonzero
  simp only [nonzero, fits, or_self, if_false, wp_bind, wp_assign_reg, quotient, remainder]

/-- A routine may be called where it gives its stack back as it found it. -/
theorem wp_call {routine : Routine Unit}
    (holds : wp routine
      (fun _ after => after.stack = .returnAddress :: machine.stack ∧
        post () (after.withStack machine.stack))
      (machine.withStack (.returnAddress :: machine.stack))) :
    wp (call routine) post machine := by
  simp only [call, wp_bind, wp_modify, wp_get]
  apply holds.mono
  rintro _ after ⟨top, met⟩
  simp [top, met]

/-- Calling a routine whose effect is known up to some registers. -/
theorem wp_call_of_only {changed : List Register} {effect : Machine} {routine : Routine Unit}
    (same : effect.stack = machine.stack)
    (holds : wp routine
      (fun _ after =>
        OnlyRegisters changed (effect.withStack (.returnAddress :: machine.stack)) after)
      (machine.withStack (.returnAddress :: machine.stack))) :
    wp (call routine) (fun _ after => OnlyRegisters changed effect after) machine := by
  apply wp_call
  apply holds.mono
  intro _ after only
  exact ⟨only.stack, only.registers, same.symm, only.ram, only.memory, only.writes⟩

/-! ### Loops -/

@[simp]
theorem wp_jz (post : Bool → Machine → Prop) : wp jz post machine ↔ post machine.zf machine := by
  simp [jz]

@[simp]
theorem wp_jnz (post : Bool → Machine → Prop) :
    wp jnz post machine ↔ post (!machine.zf) machine := by
  simp [jnz]

@[simp]
theorem wp_jnc (post : Bool → Machine → Prop) :
    wp jnc post machine ↔ post (!machine.cf) machine := by
  simp [jnc]

@[simp]
theorem wp_ja (post : Bool → Machine → Prop) :
    wp ja post machine ↔ post (!machine.cf && !machine.zf) machine := by
  simp [ja]

/--
A loop ends in its postcondition if a bound on the rounds left decreases in every round that asks
for another, and there is fuel for the rounds.
-/
theorem wp_loop {body : Routine Bool} (holds : ℕ → Machine → Prop)
    (round : ∀ left before, holds left before →
      wp body
        (fun again after => if again then ∃ fewer < left, holds fewer after else post () after)
        before)
    {left fuel : ℕ} (initial : holds left machine) (enough : left < fuel) :
    wp (loop body fuel) post machine := by
  induction fuel generalizing left machine with
  | zero => exact absurd enough (Nat.not_lt_zero left)
  | succ fuel ih =>
      rw [loop, wp_bind]
      apply (round left machine initial).mono
      intro again after met
      cases again with
      | false => simpa using met
      | true =>
          rcases met with ⟨fewer, below, holds⟩
          have rest : fewer < fuel := by omega
          simpa using ih holds rest

/-! ### Where memory is -/

/-- The routine leaves it as it is which addresses have memory behind them. -/
def KeepsRam (routine : Routine α) : Prop :=
  ∀ machine value after, routine machine = some (value, after) → after.ram = machine.ram

theorem KeepsRam.wp {routine : Routine α} (keeps : KeepsRam routine)
    {post : α → Machine → Prop} (holds : wp routine post machine) :
    wp routine (fun value after => after.ram = machine.ram ∧ post value after) machine := by
  rcases holds with ⟨value, after, ends, met⟩
  exact ⟨value, after, ends, keeps machine value after ends, met⟩

theorem keepsRam_pure (value : α) : KeepsRam (pure value) := by
  intro machine result after ends
  cases ends
  rfl

theorem keepsRam_failure : KeepsRam (failure : Routine α) := by
  intro machine result after ends
  cases ends

theorem keepsRam_get : KeepsRam get := by
  intro machine result after ends
  cases ends
  rfl

theorem keepsRam_modify {change : Machine → Machine}
    (keeps : ∀ machine, (change machine).ram = machine.ram) : KeepsRam (modify change) := by
  intro machine result after ends
  cases ends
  exact keeps machine

theorem keepsRam_bind {first : Routine α} {second : α → Routine β} (earlier : KeepsRam first)
    (later : ∀ value, KeepsRam (second value)) : KeepsRam (first >>= second) := by
  intro machine result after ends
  simp only [bind, StateT.bind, Option.bind_eq_some_iff] at ends
  rcases ends with ⟨⟨middle, between⟩, begins, ends⟩
  exact (later middle between result after ends).trans (earlier machine middle between begins)

theorem keepsRam_ite {condition : Prop} [Decidable condition] {yes no : Routine α}
    (keepsYes : KeepsRam yes) (keepsNo : KeepsRam no) :
    KeepsRam (if condition then yes else no) := by
  split
  · exact keepsYes
  · exact keepsNo

theorem keepsRam_fetch (operand : Operand width) : KeepsRam (fetch operand) := by
  cases operand with
  | imm value => exact keepsRam_pure value
  | reg register => exact keepsRam_bind keepsRam_get fun _ => keepsRam_pure _
  | mem displacement base index =>
      exact keepsRam_bind keepsRam_get fun _ => keepsRam_ite (keepsRam_pure _) keepsRam_failure

theorem keepsRam_assign (operand : Operand width) (value : BitVec width) :
    KeepsRam (assign operand value) := by
  cases operand with
  | imm _ => exact keepsRam_failure
  | reg register => exact keepsRam_modify fun _ => rfl
  | mem displacement base index => exact keepsRam_modify fun _ => Machine.ram_poke _ _

theorem keepsRam_setFlags (zf cf : Bool) : KeepsRam (setFlags zf cf) :=
  keepsRam_modify fun _ => rfl

theorem keepsRam_mov (source destination : Operand width) :
    KeepsRam (mov width source destination) :=
  keepsRam_bind (keepsRam_fetch _) fun _ => keepsRam_assign _ _

theorem keepsRam_bitwise (operation : BitVec width → BitVec width → BitVec width)
    (source destination : Operand width) : KeepsRam (bitwise operation source destination) :=
  keepsRam_bind (keepsRam_fetch _) fun _ => keepsRam_bind (keepsRam_fetch _) fun _ =>
    keepsRam_bind (keepsRam_assign _ _) fun _ => keepsRam_setFlags _ _

theorem keepsRam_shl (count : ℕ) (destination : Operand width) :
    KeepsRam (shl width count destination) :=
  keepsRam_bind (keepsRam_fetch _) fun _ => keepsRam_bind (keepsRam_assign _ _) fun _ =>
    keepsRam_setFlags _ _

theorem keepsRam_shr (count : ℕ) (destination : Operand width) :
    KeepsRam (shr width count destination) :=
  keepsRam_bind (keepsRam_fetch _) fun _ => keepsRam_bind (keepsRam_assign _ _) fun _ =>
    keepsRam_setFlags _ _

theorem keepsRam_cmovz (source destination : Operand width) :
    KeepsRam (cmovz width source destination) :=
  keepsRam_bind (keepsRam_fetch _) fun _ => keepsRam_bind (keepsRam_fetch _) fun _ =>
    keepsRam_bind keepsRam_get fun _ => keepsRam_assign _ _

theorem keepsRam_setnz (destination : Operand 8) : KeepsRam (setnz destination) :=
  keepsRam_bind keepsRam_get fun _ => keepsRam_assign _ _

theorem keepsRam_shrd (count : ℕ) (undefined : BitVec width) (source destination : Operand width) :
    KeepsRam (shrd width count undefined source destination) := by
  refine keepsRam_bind (keepsRam_fetch _) fun _ => keepsRam_bind (keepsRam_fetch _) fun _ =>
    keepsRam_bind keepsRam_get fun _ => keepsRam_ite ?_ ?_
  · exact keepsRam_bind (keepsRam_assign _ _) fun _ => keepsRam_setFlags _ _
  · exact keepsRam_bind (keepsRam_assign _ _) fun _ =>
      keepsRam_ite (keepsRam_setFlags _ _) (keepsRam_setFlags _ _)

/-- `sidt` and `sgdt`. -/
theorem keepsRam_sidt (limit : BitVec 16) (base destination : Address) :
    KeepsRam (sidt limit base destination) :=
  keepsRam_bind (keepsRam_assign _ _) fun _ => keepsRam_assign _ _

theorem keepsRam_call {routine : Routine Unit} (keeps : KeepsRam routine) :
    KeepsRam (call routine) := by
  refine keepsRam_bind (keepsRam_modify fun _ => rfl) fun _ => keepsRam_bind keeps fun _ => ?_
  intro machine result after ends
  simp only [bind, StateT.bind, Option.bind_eq_some_iff] at ends
  rcases ends with ⟨⟨same, between⟩, begins, ends⟩
  cases begins
  rcases top : machine.stack with _ | ⟨_ | _, rest⟩
  · rw [top] at ends
    cases ends
  · rw [top] at ends
    cases ends
  · rw [top] at ends
    cases ends
    rfl

end Assembly

end VirtLearn
