import VirtLearn.Machine.Logic

/-!
# The text routines of the guest

`libs64.S` up to `__puts`: the cursor `video_current` into the video memory, one character, one
line, one string.
-/

namespace VirtLearn.Guest

open Assembly Register

/-- The symbols of the image, which is linked from 0x10000 on and lies in the first memory slot. -/
structure Symbols where
  videoCurrent : Address
  linked : 0x10000 ≤ videoCurrent.toNat ∧ videoCurrent.toNat + 8 ≤ 0x87000

variable (symbols : Symbols)

def getCurrentColumn : Routine Unit := do
  push rbx
  push rdx
  mov 64 (.imm 0) (.reg rdx)
  mov 64 (.symbol symbols.videoCurrent) (.reg rax)
  sub 64 (.imm 0xb8000) (.reg rax)
  mov 64 (.imm (80 * 2)) (.reg rbx)
  div (.reg rbx)
  mov 64 (.reg rdx) (.reg rax)
  pop rdx
  pop rbx

def writeChar : Routine Unit := do
  push rbx
  mov 64 (.imm symbols.videoCurrent) (.reg rbx)
  or_ 16 (.imm 0x0f00) (.reg rsi)
  cmp 16 (.imm 0xf0a) (.reg rsi)
  if ← jnz then
    mov 64 (.behind rbx) (.reg rax)
    cmp 64 (.imm 0xb9ff0) (.reg rax)
    unless ← ja do
      mov 16 (.reg rsi) (.behind rax)
      add 64 (.imm 2) (.reg rax)
  else
    call (getCurrentColumn symbols)
    neg 64 (.reg rax)
    add 64 (.imm (80 * 2)) (.reg rax)
    add 64 (.behind rbx) (.reg rax)
  mov 64 (.reg rax) (.behind rbx)
  pop rbx

def putc : Routine Unit := do
  and_ 64 (.imm 0x00ff) (.reg rsi)
  call (writeChar symbols)

def println : Routine Unit := do
  mov 16 (.imm 10) (.reg rsi)
  call (putc symbols)

/-- One round of `do_puts_loop`: whether it jumps back. -/
def doPutsLoop : Routine Bool := do
  mov 8 (.behind rbx) (.reg rax)
  test 8 (.reg rax) (.reg rax)
  if ← jz then return false
  mov 64 (.reg rax) (.reg rsi)
  call (putc symbols)
  inc 64 (.reg rbx)
  return true

/-- `__puts`, within a number of rounds of its loop. -/
def puts (fuel : ℕ) : Routine Unit := do
  push rbx
  push rax
  mov 64 (.reg rsi) (.reg rbx)
  test 64 (.reg rbx) (.reg rbx)
  unless ← jz do
    loop (doPutsLoop symbols) fuel
  pop rax
  pop rbx

end VirtLearn.Guest
