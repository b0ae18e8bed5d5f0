import VirtLearn.Machine.Logic

/-!
# Operands on the stack

Instructions that address the stack relative to `rsp`, as the handlers of interrupts do. What they
find are the bytes of the words on top of the stack, up to a return address.
-/

namespace VirtLearn

def stackBytes : List StackItem → List Byte
  | .word value :: rest => bytesOf 8 value.toNat ++ stackBytes rest
  | _ => []

/-- The 64 bits at this many bytes above `rsp`. -/
def stackQword (stack : List StackItem) (offset : ℕ) : Option (BitVec 64) :=
  let bytes := ((stackBytes stack).drop offset).take 8
  if bytes.length = 8 then some (BitVec.ofNat 64 (valueOf bytes)) else none

namespace Assembly

/-- `mov` of 64 bits at an offset from `rsp`. -/
def movFromStack (offset : ℕ) (destination : Register) : Routine Unit := do
  let machine ← get
  match stackQword machine.stack offset with
  | some value => set (machine.put destination value)
  | none => failure

/-- `add $8, %rsp`: the word on top of the stack is dropped. -/
def addRsp8 : Routine Unit := do
  let machine ← get
  match machine.stack with
  | .word _ :: rest => set (machine.withStack rest)
  | _ => failure

/-- `btsl` of a bit of the word with this many words above it; the bit goes to the carry flag. -/
def btslStack (bit above : ℕ) : Routine Unit := do
  let machine ← get
  match machine.stack[above]? with
  | some (.word value) =>
      set ((machine.withStack
        (machine.stack.set above (.word (value ||| BitVec.twoPow 64 (bit % 32))))).withFlags
          machine.zf (value.getLsbD (bit % 32)))
  | _ => failure

/-- `btr` of a bit of a register, likewise. -/
def btr (bit : ℕ) (destination : Register) : Routine Unit := do
  let machine ← get
  let value := machine.registers destination
  set ((machine.put destination (value &&& ~~~BitVec.twoPow 64 bit)).withFlags machine.zf
    (value.getLsbD bit))

end Assembly

theorem take_bytesOf (count more value : ℕ) :
    (bytesOf (count + more) value).take count = bytesOf count value := by
  induction count generalizing value with
  | zero => simp [bytesOf]
  | succ count ih => rw [Nat.succ_add, bytesOf, List.take_succ_cons, ih, bytesOf]

theorem drop_bytesOf (count more value : ℕ) :
    (bytesOf (count + more) value).drop count = bytesOf more (value / 256 ^ count) := by
  induction count generalizing value with
  | zero => simp
  | succ count ih =>
      rw [Nat.succ_add, bytesOf, List.drop_succ_cons, ih, Nat.div_div_eq_div_mul, Nat.pow_succ']

@[simp]
theorem stackQword_zero (value : BitVec 64) (rest : List StackItem) :
    stackQword (.word value :: rest) 0 = some value := by
  have first : ((stackBytes (.word value :: rest)).drop 0).take 8 = bytesOf 8 value.toNat := by
    rw [List.drop_zero, stackBytes, List.take_append_of_le_length (by simp)]
    exact take_bytesOf 8 0 _
  have bound := value.isLt
  rw [stackQword, first]
  simp only [length_bytesOf, if_true, valueOf_bytesOf]
  congr 1
  apply BitVec.eq_of_toNat_eq
  rw [BitVec.toNat_ofNat]
  omega

@[simp]
theorem stackQword_add (value : BitVec 64) (rest : List StackItem) (offset : ℕ) :
    stackQword (.word value :: rest) (offset + 8) = stackQword rest offset := by
  have behind : (stackBytes (.word value :: rest)).drop (offset + 8) =
      (stackBytes rest).drop offset := by
    rw [stackBytes, Nat.add_comm, ← List.drop_drop, List.drop_left' (length_bytesOf 8 _)]
  rw [stackQword, stackQword, behind]

/-- Between two words lie the upper half of the first and the lower half of the second. -/
theorem stackQword_four (first second : BitVec 64) (rest : List StackItem) :
    stackQword (.word first :: .word second :: rest) 4 =
      some (second.setWidth 32 ++ first.extractLsb' 32 32) := by
  have bytes : ((stackBytes (.word first :: .word second :: rest)).drop 4).take 8 =
      bytesOf 4 (first.toNat / 256 ^ 4) ++ bytesOf 4 second.toNat := by
    rw [stackBytes, stackBytes, List.drop_append_of_le_length (by simp), drop_bytesOf 4 4]
    rw [List.take_append, List.take_of_length_le (by simp), length_bytesOf,
      List.take_append_of_le_length (by simp), take_bytesOf 4 4]
  have bound := first.isLt
  rw [stackQword, bytes]
  simp only [List.length_append, length_bytesOf, if_true, valueOf_append, valueOf_bytesOf]
  congr 1
  apply BitVec.eq_of_toNat_eq
  rw [BitVec.toNat_append, BitVec.toNat_ofNat, BitVec.extractLsb'_toNat, BitVec.toNat_setWidth,
    ← Nat.shiftLeft_add_eq_or_of_lt (Nat.mod_lt _ (by decide)), Nat.shiftLeft_eq,
    Nat.shiftRight_eq_div_pow]
  omega

namespace Assembly

variable {post : Unit → Machine → Prop} {machine : Machine}

theorem wp_movFromStack {offset : ℕ} {value : BitVec 64}
    (found : stackQword machine.stack offset = some value) (destination : Register) :
    wp (movFromStack offset destination) post machine ↔
      post () (machine.put destination value) := by
  simp only [movFromStack, wp_bind, wp_get, found, wp_set]

@[simp]
theorem wp_btr (bit : ℕ) (destination : Register) :
    wp (btr bit destination) post machine ↔
      post () ((machine.put destination
        (machine.registers destination &&& ~~~BitVec.twoPow 64 bit)).withFlags machine.zf
          ((machine.registers destination).getLsbD bit)) := by
  simp only [btr, wp_bind, wp_get, wp_set]

theorem wp_btslStack {above : ℕ} {value : BitVec 64}
    (found : machine.stack[above]? = some (.word value)) (bit : ℕ) :
    wp (btslStack bit above) post machine ↔
      post () ((machine.withStack
        (machine.stack.set above (.word (value ||| BitVec.twoPow 64 (bit % 32))))).withFlags
          machine.zf (value.getLsbD (bit % 32))) := by
  simp only [btslStack, wp_bind, wp_get, found, wp_set]

theorem wp_addRsp8 {value : BitVec 64} {rest : List StackItem}
    (top : machine.stack = .word value :: rest) :
    wp addRsp8 post machine ↔ post () (machine.withStack rest) := by
  simp only [addRsp8, wp_bind, wp_get, top, wp_set]

end Assembly

end VirtLearn
