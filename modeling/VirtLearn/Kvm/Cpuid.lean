import VirtLearn.Loop

/-!
# The CPUID table of a virtual CPU

`vm_init_cpuid` from `vm.c`: it enumerates the CPUID leaves of the host into a table of 100
entries and hands the table to `KVM_SET_CPUID2`. `__get_cpuid` and `__get_cpuid_count` are taken
to fill all four registers from one function of leaf and sub-leaf.

Four loops are nested in one: `round` is one evaluation of the head of whichever of them the
program is in, with the part of the body up to the next head.
-/

namespace VirtLearn.Kvm

def kvmMaxCpuidEntries : ℕ :=
  100

def kvmCpuidFlagSignifcantIndex : BitVec 32 :=
  1

structure CpuidRegs where
  eax : BitVec 32 := 0
  ebx : BitVec 32 := 0
  ecx : BitVec 32 := 0
  edx : BitVec 32 := 0
deriving DecidableEq

/-- What the host answers to each leaf and sub-leaf. -/
abbrev Host :=
  BitVec 32 → BitVec 32 → CpuidRegs

structure KvmCpuidEntry2 where
  function : BitVec 32 := 0
  index : BitVec 32 := 0
  flags : BitVec 32 := 0
  regs : CpuidRegs := {}
deriving DecidableEq

/-- The loop the program is in: over the basic leaves, inside a leaf, or over the extended ones. -/
inductive Point where
  | basic
  | subleaves
  | counted
  | extended
deriving DecidableEq

/-- The local variables; `c` is the index of the entry that the pointer `c` points to. -/
structure Locals where
  point : Point
  limit : BitVec 32
  i : BitVec 32
  j : BitVec 32 := 0
  times : BitVec 32 := 0
  cpuidI : BitVec 32 := 0
  c : ℕ := 0
  entries : ℕ → KvmCpuidEntry2 := fun _ => {}

/-- How the function ends: it gives up, calls the ioctl, or writes outside of the table. -/
inductive Outcome where
  | failed (stderr : String)
  | setCpuid2 (nent : BitVec 32) (entries : ℕ → KvmCpuidEntry2)
  | overrun (index : ℕ)

/-- The `%x` format. -/
def hex {width : ℕ} (value : BitVec width) : String :=
  String.ofList (Nat.toDigits 16 value.toNat)

/-- The complaint of the loops over leaves. -/
def unsupportedLevel (limit : BitVec 32) : String :=
  "unsupported level value: 0x" ++ hex limit ++ "\n"

/-- The complaint of the loops over sub-leaves. -/
def noSpace (i j : BitVec 32) : String :=
  "cpuid_data is full, no space for cpuid(eax:0x" ++ hex i ++ ",ecx:0x" ++ hex j ++ ")\n"

namespace Locals

/-- `cpuid_i == KVM_MAX_CPUID_ENTRIES` -/
def full (locals : Locals) : Prop :=
  locals.cpuidI = BitVec.ofNat 32 kvmMaxCpuidEntries

instance (locals : Locals) : Decidable locals.full :=
  inferInstanceAs (Decidable (_ = _))

/-- `c = &cpuid_data.entries[cpuid_i++]` -/
def allot (locals : Locals) : Locals :=
  { locals with c := locals.cpuidI.toNat, cpuidI := locals.cpuidI + 1 }

/-- Write `*c` and go on. -/
def store (locals : Locals) (entry : KvmCpuidEntry2) (rest : Locals → Locals ⊕ Outcome) :
    Locals ⊕ Outcome :=
  if locals.c < kvmMaxCpuidEntries then
    rest { locals with entries := Function.update locals.entries locals.c entry }
  else .inr (.overrun locals.c)

/-- Leave the loop over the sub-leaves of leaf `i`. -/
def leave (locals : Locals) : Locals :=
  { locals with point := .basic, i := locals.i + 1 }

/-- A leaf without sub-leaves: its index is not written, and an empty one gives its entry back. -/
def plainLeaf (host : Host) (locals : Locals) : Locals ⊕ Outcome :=
  let entry :=
    { locals.entries locals.c with function := locals.i, flags := 0, regs := host locals.i 0 }
  locals.store entry fun locals =>
    let locals :=
      if (locals.entries locals.c).regs = {} then { locals with cpuidI := locals.cpuidI - 1 }
      else locals
    .inl { locals with i := locals.i + 1 }

def basicLeaf (host : Host) (locals : Locals) : Locals ⊕ Outcome :=
  if locals.i ≤ locals.limit then
    if locals.full then .inr (.failed (unsupportedLevel locals.limit))
    else
      let locals := locals.allot
      if locals.i = 4 ∨ locals.i = 0xb ∨ locals.i = 0xd then
        .inl { locals with point := .subleaves, j := 0 }
      else if locals.i = 7 ∨ locals.i = 0x14 then
        let entry : KvmCpuidEntry2 :=
          { function := locals.i
            index := 0
            flags := kvmCpuidFlagSignifcantIndex
            regs := host locals.i 0 }
        locals.store entry fun locals =>
          .inl { locals with
            point := .counted
            times := (locals.entries locals.c).regs.eax
            j := 1 }
      else locals.plainLeaf host
  else
    .inl { locals with
      point := .extended
      limit := (host 0x80000000 0).eax
      i := 0x80000000 }

/-- The tests behind the `cpuid` of a sub-leaf: it ends the leaf, keeps the entry, or neither. -/
def afterSubleaf (locals : Locals) : Locals ⊕ Outcome :=
  let regs := (locals.entries locals.c).regs
  if locals.i = 4 ∧ regs.eax = 0 then .inl locals.leave
  else if locals.i = 0xb ∧ regs.ecx &&& 0xff00 = 0 then .inl locals.leave
  else if locals.i = 0x1f ∧ regs.ecx &&& 0xff00 = 0 then .inl locals.leave
  else if locals.i = 0xd ∧ regs.eax = 0 then .inl { locals with j := locals.j + 1 }
  else if locals.full then .inr (.failed (noSpace locals.i locals.j))
  else .inl { locals.allot with j := locals.j + 1 }

/-- The loop over the sub-leaves of the leaves 4, 0xb and 0xd; it has code for 0x1f, too. -/
def subleaf (host : Host) (locals : Locals) : Locals ⊕ Outcome :=
  if locals.i = 0xd ∧ locals.j = 64 then .inl locals.leave
  else if locals.i = 0x1f ∧ locals.j = 64 then .inl locals.leave
  else
    let entry : KvmCpuidEntry2 :=
      { function := locals.i
        index := locals.j
        flags := kvmCpuidFlagSignifcantIndex
        regs := host locals.i locals.j }
    locals.store entry afterSubleaf

/-- The loop over the sub-leaves that leaves 7 and 0x14 count themselves. -/
def countedSubleaf (host : Host) (locals : Locals) : Locals ⊕ Outcome :=
  if locals.j ≤ locals.times then
    if locals.full then .inr (.failed (noSpace locals.i locals.j))
    else
      let entry : KvmCpuidEntry2 :=
        { function := locals.i
          index := locals.j
          flags := kvmCpuidFlagSignifcantIndex
          regs := host locals.i locals.j }
      locals.allot.store entry fun locals => .inl { locals with j := locals.j + 1 }
  else .inl locals.leave

/-- The loop over the extended leaves, and the call of the ioctl behind it. -/
def extendedLeaf (host : Host) (locals : Locals) : Locals ⊕ Outcome :=
  if locals.i ≤ locals.limit then
    if locals.full then .inr (.failed (unsupportedLevel locals.limit))
    else locals.allot.plainLeaf host
  else .inr (.setCpuid2 locals.cpuidI locals.entries)

end Locals

/-- From one loop head to the next. -/
def round (host : Host) (locals : Locals) : Locals ⊕ Outcome :=
  match locals.point with
  | .basic => locals.basicLeaf host
  | .subleaves => locals.subleaf host
  | .counted => locals.countedSubleaf host
  | .extended => locals.extendedLeaf host

def start (host : Host) : Locals :=
  { point := .basic, limit := (host 0 0).eax, i := 0 }

/-- `vm_init_cpuid`, within a number of rounds. -/
def vmInitCpuid (host : Host) (fuel : ℕ) : Option Outcome :=
  Loop.run (round host) fuel (start host)

end VirtLearn.Kvm
