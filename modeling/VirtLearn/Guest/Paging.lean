import VirtLearn.Machine.Logic

/-!
# Setting up the page tables

`page64.S`: the routines that clear pages and `init_paging`, which runs in 32-bit mode before paging
is turned on. Registers are used in their lower halves, and effective addresses have 32 bits.
-/

namespace VirtLearn.Guest

open Assembly Register

/-! The bits of an entry, from `page.h`. -/

def pageP : BitVec 32 :=
  0x1

def pageRW : BitVec 32 :=
  0x2

def pageUS : BitVec 32 :=
  0x4

def pagePWT : BitVec 32 :=
  0x8

def pagePCD : BitVec 32 :=
  0x10

def pagePS : BitVec 32 :=
  0x80

def ia32ApicBase : BitVec 32 :=
  0x1b

/-- `movdqu` to a displacement from `esi` and `eax`. -/
def movdqu (source : BitVec 128) (displacement : BitVec 32) : Routine Unit :=
  modify fun machine =>
    machine.poke ((displacement + machine.get 32 rsi + machine.get 32 rax).setWidth 64) source

/-- One round of `clear_4K_page_loop`: whether it jumps back. -/
def clear4KPageLoop (xmm1 : BitVec 128) : Routine Bool := do
  movdqu xmm1 (-16)
  movdqu xmm1 (-32)
  movdqu xmm1 (-48)
  movdqu xmm1 (-64)
  movdqu xmm1 (-80)
  movdqu xmm1 (-96)
  movdqu xmm1 (-112)
  movdqu xmm1 (-128)
  sub 32 (.imm 128) (.reg rax)
  jnz

/-- `clear_4K_page`, within a number of rounds of its loop. -/
def clear4KPage (fuel : ℕ) : Routine Unit := do
  -- `pxor %xmm1, %xmm1`
  let xmm1 : BitVec 128 := 0
  mov 32 (.imm 4096) (.reg rax)
  loop (clear4KPageLoop xmm1) fuel

/-- One round of `clear_4k_pages_loop`: whether it jumps back. -/
def clear4kPagesLoop (fuel : ℕ) : Routine Bool := do
  call (clear4KPage fuel)
  add 32 (.imm 0x1000) (.reg rsi)
  dec 32 (.reg rdi)
  jnz

def clear4kPages (fuel : ℕ) : Routine Unit := do
  test 32 (.reg rdi) (.reg rdi)
  unless ← jz do
    loop (clear4kPagesLoop fuel) fuel

def movl (value : BitVec 32) (address : Address) : BitVec 32 × Address :=
  (value, address)

/-- The `movl` instructions of `init_paging` in order, each with its constant and its address. -/
def pageTableStores : List (BitVec 32 × Address) :=
  [
    movl (0x201000 ||| pageRW ||| pageUS ||| pageP) 0x200000,
    movl 0x0 0x200004,
    movl (0x202000 ||| pageRW ||| pageP) (0x200000 + 0x1FF * 8),
    movl 0x0 (0x200000 + 0x1FF * 8 + 4),
    movl (0x300000 ||| pageRW ||| pageUS ||| pageP) (0x200000 + 0xff * 8),
    movl 0 (0x200000 + 0xff * 8 + 4),
    movl (0x203000 ||| pageRW ||| pageUS ||| pageP) 0x201000,
    movl 0x0 0x201004,
    movl (0x205000 ||| pageRW ||| pageUS ||| pageP) 0x203000,
    movl 0 0x203004,
    movl (0x200000 ||| pagePS ||| pageRW ||| pageP) (0x203000 + 1 * 8),
    movl 0 (0x203000 + 1 * 8 + 4),
    movl (0x207000 ||| pageRW ||| pageP) (0x203000 + 2 * 8),
    movl 0 (0x203000 + 2 * 8 + 4),
    movl (0x8000000 ||| pagePS ||| pageUS ||| pageRW ||| pageP) (0x203000 + 0x40 * 8),
    movl 0 (0x203000 + 0x40 * 8 + 4),
    movl (0xfee00000 ||| pagePCD ||| pagePWT ||| pagePS ||| pageRW ||| pageP) (0x203000 + 4 * 8),
    movl 0 (0x203000 + 4 * 8 + 4),
    movl (0x204000 ||| pageRW ||| pageUS ||| pageP) (0x202000 + 0x1e0 * 8),
    movl 0 (0x202000 + 0x1e0 * 8 + 4),
    movl (0x206000 ||| pageRW ||| pageP) 0x204000,
    movl 0 0x204004,
    movl (0x208000 ||| pageRW ||| pageP) (0x204000 + 0x80 * 8),
    movl 0 (0x204000 + 0x80 * 8 + 4),
    movl (0x209000 ||| pageRW ||| pageP) (0x202000 + 0x1ff * 8),
    movl 0x0 (0x202000 + 0x1ff * 8 + 4),
    movl (0x301000 ||| pageRW ||| pageUS ||| pageP) (0x300000 + 0x1fc * 8),
    movl 0 (0x300000 + 0x1fc * 8 + 4),
    movl (0x302000 ||| pageRW ||| pageUS ||| pageP) (0x300000 + 0x1ff * 8),
    movl 0 (0x300000 + 0x1ff * 8 + 4),
    movl (0x800000 ||| pagePS ||| pageRW ||| pageUS ||| pagePS) 0x301000,
    movl 0 0x301004,
    movl (0x303000 ||| pageRW ||| pageUS ||| pageP) (0x302000 + 0x1ff * 8),
    movl 0x0 (0x302000 + 0x1ff * 8 + 4),
    movl (0xa00000 ||| pagePS ||| pageRW ||| pageP) (0x209000 + 0x1ff * 8),
    movl 0 (0x209000 + 0x1ff * 8 + 4),
    movl (0x0 ||| pageRW ||| pageUS) (0x205000 + 8),
    movl 0 (0x205000 + 4),
    movl (0x09000 ||| pageRW ||| pageUS ||| pageP) (0x205000 + 8 * 0x9),
    movl 0 (0x205000 + 8 * 0x9 + 4),
    movl (0x0a000 ||| pageRW ||| pageUS ||| pageP) (0x205000 + 8 * 0xa),
    movl 0 (0x205000 + 8 * 0xa + 4),
    movl (0x0b000 ||| pageRW ||| pageUS ||| pageP) (0x205000 + 8 * 0xb),
    movl 0 (0x205000 + 8 * 0xb + 4),
    movl (0x0c000 ||| pageRW ||| pageUS ||| pageP) (0x205000 + 8 * 0xc),
    movl 0 (0x205000 + 8 * 0xc + 4),
    movl (0x0d000 ||| pageRW ||| pageUS ||| pageP) (0x205000 + 8 * 0xd),
    movl 0 (0x205000 + 8 * 0xd + 4),
    movl (0x0e000 ||| pageRW ||| pageUS ||| pageP) (0x205000 + 8 * 0xe),
    movl 0 (0x205000 + 8 * 0xe + 4),
    movl (0x0f000 ||| pageRW ||| pageUS ||| pageP) (0x205000 + 8 * 0xf),
    movl 0 (0x205000 + 8 * 0xf + 4),
    movl (0x10000 ||| pageRW ||| pageUS ||| pageP) (0x205000 + 8 * 0x10),
    movl 0 (0x205000 + 8 * 0x10 + 4),
    movl (0x11000 ||| pageRW ||| pageUS ||| pageP) (0x205000 + 8 * 0x11),
    movl 0 (0x205000 + 8 * 0x11 + 4),
    movl (0x12000 ||| pageRW ||| pageUS ||| pageP) (0x205000 + 8 * 0x12),
    movl 0 (0x205000 + 8 * 0x12 + 4),
    movl (0x13000 ||| pageRW ||| pageUS ||| pageP) (0x205000 + 8 * 0x13),
    movl 0 (0x205000 + 8 * 0x13 + 4),
    movl (0x14000 ||| pageRW ||| pageUS ||| pageP) (0x205000 + 8 * 0x14),
    movl 0 (0x205000 + 8 * 0x14 + 4),
    movl (0x15000 ||| pageRW ||| pageUS ||| pageP) (0x205000 + 8 * 0x15),
    movl 0 (0x205000 + 8 * 0x15 + 4),
    movl (0x16000 ||| pageRW ||| pageUS ||| pageP) (0x205000 + 8 * 0x16),
    movl 0 (0x205000 + 8 * 0x16 + 4),
    movl (0x17000 ||| pageRW ||| pageUS ||| pageP) (0x205000 + 8 * 0x17),
    movl 0 (0x205000 + 8 * 0x17 + 4),
    movl (0x18000 ||| pageRW ||| pageUS ||| pageP) (0x205000 + 8 * 0x18),
    movl 0 (0x205000 + 8 * 0x18 + 4),
    movl (0x19000 ||| pageRW ||| pageUS ||| pageP) (0x205000 + 8 * 0x19),
    movl 0 (0x205000 + 8 * 0x19 + 4),
    movl (0x20000 ||| pageRW ||| pageUS ||| pageP) (0x205000 + 8 * 0x20),
    movl 0 (0x205000 + 8 * 0x20 + 4),
    movl (0xb8000 ||| pageRW ||| pageUS ||| pageP) (0x205000 + 0xb8 * 8),
    movl 0 (0x205000 + 0xb8 * 8 + 4),
    movl (0xb9000 ||| pageRW ||| pageUS ||| pageP) (0x205000 + 0xb9 * 8),
    movl 0 (0x205000 + 0xb9 * 8 + 4),
    movl (0x410000 ||| pageRW ||| pageP) 0x206000,
    movl 0 0x206004,
    movl (0x411000 ||| pageRW ||| pageP) (0x206000 + 8),
    movl 0 (0x206000 + 1 * 8 + 4),
    movl (0x412000 ||| pageRW ||| pageP) 0x208000,
    movl 0 0x208004,
    movl (0x413000 ||| pageRW ||| pageP) (0x208000 + 8 * 1),
    movl 0 (0x208000 + 1 * 8 + 4),
    movl (0x414000 ||| pageRW ||| pageUS ||| pageP) 0x303000,
    movl 0 (0x303000 + 4),
    movl (0x415000 ||| pageRW ||| pageUS ||| pageP) (0x303000 + 1 * 8),
    movl 0 (0x303000 + 1 * 8 + 4),
    movl (0x416000 ||| pageRW ||| pageUS ||| pageP) (0x303000 + 2 * 8),
    movl 0 (0x303000 + 2 * 8 + 4),
    movl (0x417000 ||| pageRW ||| pageUS ||| pageP) (0x303000 + 3 * 8),
    movl 0 (0x303000 + 3 * 8 + 4)
  ]

def movls : List (BitVec 32 × Address) → Routine Unit
  | [] => pure ()
  | (value, address) :: rest => do
      mov 32 (.imm value) (.symbol address)
      movls rest

/-- `init_paging`, given what `rdmsr` reads. -/
def initPaging (msrs : BitVec 32 → BitVec 64) (fuel : ℕ) : Routine Unit := do
  mov 32 (.imm ia32ApicBase) (.reg rcx)
  rdmsr msrs
  bt 32 8 (.reg rax)
  unless ← jnc do
    mov 32 (.imm 0x200000) (.reg rsi)
    mov 32 (.imm 15) (.reg rdi)
    call (clear4kPages fuel)
    mov 32 (.imm 0x201000) (.reg rsi)
    mov 32 (.imm 3) (.reg rdi)
    call (clear4kPages fuel)
    mov 32 (.imm 0x300000) (.reg rsi)
    mov 32 (.imm 5) (.reg rdi)
    call (clear4kPages fuel)
    movls pageTableStores

end VirtLearn.Guest
