import VirtLearn.BitFields
import VirtLearn.Vmx.RunVcpu

/-!
# The segments of the guest

`setup_guest_regs` copies the registers of a configuration into the virtual CPU and its control
block. The attributes of a segment are packed into one word by `svm_segment_access_rights`, in the
layout that the kernel's `SVM_SELECTOR_*` constants give.

The two bits of the privilege level are taken from `s`, so the attributes of a segment in use can be
read back if and only if its privilege level is the same number (`attributes_round_trip_iff`).
-/

namespace VirtLearn.Vmx

open Register

structure Segment where
  base : BitVec 64
  limit : BitVec 32
  selector : BitVec 16
  type : BitVec 8
  present : BitVec 8
  dpl : BitVec 8
  db : BitVec 8
  s : BitVec 8
  l : BitVec 8
  g : BitVec 8
  avl : BitVec 8
  unusable : BitVec 8
deriving DecidableEq, Inhabited

structure Descriptor where
  base : BitVec 64
  limit : BitVec 16
deriving Inhabited

structure UserRegs where
  rax : BitVec 64
  rbx : BitVec 64
  rcx : BitVec 64
  rdx : BitVec 64
  rsi : BitVec 64
  rdi : BitVec 64
  rsp : BitVec 64
  rbp : BitVec 64
  r8 : BitVec 64
  r9 : BitVec 64
  r10 : BitVec 64
  r11 : BitVec 64
  r12 : BitVec 64
  r13 : BitVec 64
  r14 : BitVec 64
  r15 : BitVec 64
  rip : BitVec 64
  rflags : BitVec 64
deriving Inhabited

/-- The system registers that are copied. -/
structure SysRegs where
  cs : Segment
  ds : Segment
  es : Segment
  fs : Segment
  gs : Segment
  ss : Segment
  tr : Segment
  gdt : Descriptor
  idt : Descriptor
  cr0 : BitVec 64
  cr3 : BitVec 64
  cr4 : BitVec 64
  efer : BitVec 64
deriving Inhabited

structure SvmConfig where
  svmUserRegs : UserRegs
  svmSysRegs : SysRegs

/-- A segment register in the control block. -/
structure VmcbSeg where
  selector : BitVec 16
  attrib : BitVec 16
  limit : BitVec 32
  base : BitVec 64
deriving Inhabited

/-- The part of the state save area that is written. -/
structure VmcbSaveArea where
  cs : VmcbSeg
  ds : VmcbSeg
  es : VmcbSeg
  fs : VmcbSeg
  gs : VmcbSeg
  ss : VmcbSeg
  tr : VmcbSeg
  gdtr : VmcbSeg
  idtr : VmcbSeg
  cpl : BitVec 8
  efer : BitVec 64
  cr4 : BitVec 64
  cr3 : BitVec 64
  cr0 : BitVec 64
  dr7 : BitVec 64
  dr6 : BitVec 64
  rflags : BitVec 64
  rip : BitVec 64
  rsp : BitVec 64
  star : BitVec 64
  lstar : BitVec 64
  cstar : BitVec 64
  sfmask : BitVec 64
  kernelGsBase : BitVec 64
deriving Inhabited

structure SvmVcpu where
  asid : ℕ
  regs : ℕ → BitVec 64
  save : VmcbSaveArea
deriving Inhabited

/-- What is read from the host: model-specific registers, selectors and descriptor tables. -/
structure HostState where
  gsBase : BitVec 64
  fsBase : BitVec 64
  kernelGsBase : BitVec 64
  star : BitVec 64
  lstar : BitVec 64
  cstar : BitVec 64
  syscallMask : BitVec 64
  gs : BitVec 16
  fs : BitVec 16
  gdtRw : BitVec 64
  gdtr : Descriptor
  idtr : Descriptor
deriving Inhabited

/-! ### Access rights -/

def svmSelectorTypeMask : BitVec 8 :=
  0xf

def svmSelectorSShift : ℕ :=
  4

def svmSelectorDplShift : ℕ :=
  5

def svmSelectorPShift : ℕ :=
  7

def svmSelectorAvlShift : ℕ :=
  8

def svmSelectorLShift : ℕ :=
  9

def svmSelectorDbShift : ℕ :=
  10

def svmSelectorGShift : ℕ :=
  11

/-- `svm_segment_access_rights`; the masked bytes are promoted before they are shifted. -/
def svmSegmentAccessRights (var : Segment) : BitVec 32 :=
  if var.unusable ≠ 0 ∨ var.present = 0 then 1 <<< 16
  else
    let ar := (var.type &&& svmSelectorTypeMask).setWidth 32
    let ar := ar ||| (var.s &&& 1).setWidth 32 <<< svmSelectorSShift
    -- the mask is that of a privilege level, the field is not
    let ar := ar ||| (var.s &&& 3).setWidth 32 <<< svmSelectorDplShift
    let ar := ar ||| (var.present &&& 1).setWidth 32 <<< svmSelectorPShift
    let ar := ar ||| (var.avl &&& 1).setWidth 32 <<< svmSelectorAvlShift
    let ar := ar ||| (var.l &&& 1).setWidth 32 <<< svmSelectorLShift
    let ar := ar ||| (var.db &&& 1).setWidth 32 <<< svmSelectorDbShift
    ar ||| (var.g &&& 1).setWidth 32 <<< svmSelectorGShift

/-! ### Setting up the guest -/

/-- `vmsave_load_state`, less what it prints. -/
def vmsaveLoadState (host : HostState) (save : VmcbSaveArea) : VmcbSaveArea :=
  { save with
    kernelGsBase := host.kernelGsBase
    star := host.star
    lstar := host.lstar
    cstar := host.cstar
    sfmask := host.syscallMask
    gs := { save.gs with selector := host.gs, base := host.gsBase }
    fs := { save.fs with selector := host.fs, base := host.fsBase } }

def svmDtSet (host : HostState) (save : VmcbSaveArea) : VmcbSaveArea :=
  { save with
    gdtr := { save.gdtr with base := host.gdtRw, limit := host.gdtr.limit.setWidth 32 }
    idtr := { save.idtr with base := host.idtr.base, limit := host.idtr.limit.setWidth 32 } }

/-- The assignments to `svm->regs`, in their order. -/
def userRegValues (user : UserRegs) : List (ℕ × BitVec 64) :=
  [(vcpuRegs rax, user.rax), (vcpuRegs rbx, user.rbx), (vcpuRegs rcx, user.rcx),
    (vcpuRegs rdx, user.rdx), (vcpuRegs rsi, user.rsi), (vcpuRegs rdi, user.rdi),
    (vcpuRegs rdi, user.rdi), (vcpuRegs rbp, user.rbp), (vcpuRegs r8, user.r8),
    (vcpuRegs r9, user.r9), (vcpuRegs r10, user.r10), (vcpuRegs r11, user.r11),
    (vcpuRegs r12, user.r12), (vcpuRegs r13, user.r13), (vcpuRegs r14, user.r14),
    (vcpuRegs r15, user.r15), (vcpuRegsRip, user.rip), (vcpuRegsRsp, user.rsp)]

/-- The four assignments there are for each segment but `tr`. -/
def storeSegment (segment : Segment) : VmcbSeg where
  base := segment.base
  limit := segment.limit
  selector := segment.selector
  attrib := (svmSegmentAccessRights segment).setWidth 16

def storeDescriptor (descriptor : Descriptor) (seg : VmcbSeg) : VmcbSeg :=
  { seg with base := descriptor.base, limit := descriptor.limit.setWidth 32 }

def setupGuestRegs (host : HostState) (svm : SvmVcpu) (conf : SvmConfig) : SvmVcpu :=
  let user := conf.svmUserRegs
  let sys := conf.svmSysRegs
  let save :=
    { svm.save with
      rip := user.rip
      rsp := user.rsp
      rflags := user.rflags
      cr0 := sys.cr0
      cr3 := sys.cr3
      cr4 := sys.cr4
      efer := sys.efer
      dr7 := 0
      dr6 := 0
      cpl := 0
      cs := storeSegment sys.cs
      ds := storeSegment sys.ds
      es := storeSegment sys.es
      gs := storeSegment sys.gs
      fs := storeSegment sys.fs
      ss := storeSegment sys.ss
      gdtr := storeDescriptor sys.gdt svm.save.gdtr
      idtr := storeDescriptor sys.idt svm.save.idtr
      tr :=
        { svm.save.tr with
          base := sys.tr.base
          attrib := (svmSegmentAccessRights sys.tr).setWidth 16
          limit := sys.tr.limit } }
  { asid := 1
    regs := (userRegValues user).foldl (fun regs value => Function.update regs value.1 value.2)
      svm.regs
    save := svmDtSet host (vmsaveLoadState host save) }

/-! ### Reading the attributes back -/

inductive SegmentRegister where
  | cs
  | ds
  | es
  | fs
  | gs
  | ss
  | tr
deriving DecidableEq

def SysRegs.segment (sys : SysRegs) : SegmentRegister → Segment
  | .cs => sys.cs
  | .ds => sys.ds
  | .es => sys.es
  | .fs => sys.fs
  | .gs => sys.gs
  | .ss => sys.ss
  | .tr => sys.tr

def VmcbSaveArea.segment (save : VmcbSaveArea) : SegmentRegister → VmcbSeg
  | .cs => save.cs
  | .ds => save.ds
  | .es => save.es
  | .fs => save.fs
  | .gs => save.gs
  | .ss => save.ss
  | .tr => save.tr

structure Attributes where
  type : ℕ
  s : ℕ
  dpl : ℕ
  present : ℕ
  avl : ℕ
  l : ℕ
  db : ℕ
  g : ℕ
deriving DecidableEq

def Segment.attributes (segment : Segment) : Attributes where
  type := segment.type.toNat
  s := segment.s.toNat
  dpl := segment.dpl.toNat
  present := segment.present.toNat
  avl := segment.avl.toNat
  l := segment.l.toNat
  db := segment.db.toNat
  g := segment.g.toNat

/-- The attributes in a word, by the layout of the processor. -/
def Attributes.decode (attrib : BitVec 16) : Attributes where
  type := BitField.get ⟨0, 4⟩ attrib.toNat
  s := BitField.get ⟨4, 1⟩ attrib.toNat
  dpl := BitField.get ⟨5, 2⟩ attrib.toNat
  present := BitField.get ⟨7, 1⟩ attrib.toNat
  avl := BitField.get ⟨8, 1⟩ attrib.toNat
  l := BitField.get ⟨9, 1⟩ attrib.toNat
  db := BitField.get ⟨10, 1⟩ attrib.toNat
  g := BitField.get ⟨11, 1⟩ attrib.toNat

/-- A segment in use, each of whose attributes fits its field. -/
structure Segment.InUse (segment : Segment) : Prop where
  present : segment.present = 1
  usable : segment.unusable = 0
  type : segment.type.toNat < 16
  dpl : segment.dpl.toNat < 4
  s : segment.s.toNat < 2
  avl : segment.avl.toNat < 2
  l : segment.l.toNat < 2
  db : segment.db.toNat < 2
  g : segment.g.toNat < 2

section RoundTrip

variable {segment : Segment}

/-- The fields that the word is packed from, with their values. -/
def packedFields (segment : Segment) : List (BitField × ℕ) :=
  [(⟨0, 4⟩, segment.type.toNat), (⟨4, 1⟩, segment.s.toNat), (⟨5, 2⟩, segment.s.toNat),
    (⟨7, 1⟩, segment.present.toNat), (⟨8, 1⟩, segment.avl.toNat), (⟨9, 1⟩, segment.l.toNat),
    (⟨10, 1⟩, segment.db.toNat), (⟨11, 1⟩, segment.g.toNat)]

theorem packedFields_apart (segment : Segment) :
    ((packedFields segment).map Prod.fst).Pairwise BitField.Apart := by
  change List.Pairwise BitField.Apart [⟨0, 4⟩, ⟨4, 1⟩, ⟨5, 2⟩, ⟨7, 1⟩, ⟨8, 1⟩, ⟨9, 1⟩, ⟨10, 1⟩,
    ⟨11, 1⟩]
  decide

theorem toNat_svmSegmentAccessRights (usable : segment.unusable = 0)
    (present : segment.present ≠ 0) :
    (svmSegmentAccessRights segment).toNat = BitField.packed (packedFields segment) := by
  have unmoved : ((segment.type &&& svmSelectorTypeMask).setWidth 32).toNat =
      BitField.put ⟨0, 4⟩ segment.type.toNat := by
    have masked : svmSelectorTypeMask.toNat = 2 ^ 4 - 1 := rfl
    rw [← BitField.toNat_put segment.type (by decide) masked (show 0 + 4 ≤ 32 by decide),
      BitVec.shiftLeft_zero]
  have flag : ∀ (byte : BitVec 8) (shift : ℕ), shift + 1 ≤ 32 →
      ((byte &&& 1).setWidth 32 <<< shift).toNat = BitField.put ⟨shift, 1⟩ byte.toNat :=
    fun byte _ fits => BitField.toNat_put byte (by decide) rfl fits
  have level : ((segment.s &&& 3).setWidth 32 <<< svmSelectorDplShift).toNat =
      BitField.put ⟨5, 2⟩ segment.s.toNat :=
    BitField.toNat_put segment.s (by decide) rfl (show 5 + 2 ≤ 32 by decide)
  rw [svmSegmentAccessRights, if_neg (not_or.mpr ⟨not_not_intro usable, present⟩)]
  simp only [BitVec.toNat_or, unmoved, level]
  rw [flag _ svmSelectorSShift (by decide), flag _ svmSelectorPShift (by decide),
    flag _ svmSelectorAvlShift (by decide), flag _ svmSelectorLShift (by decide),
    flag _ svmSelectorDbShift (by decide), flag _ svmSelectorGShift (by decide)]
  simp only [BitField.packed, packedFields, List.foldl_cons, List.foldl_nil, Nat.zero_or]
  rfl

/-- Each field of the stored word has the value it was packed from. -/
theorem get_svmSegmentAccessRights (usable : segment.unusable = 0) (present : segment.present ≠ 0)
    {field : BitField} {value : ℕ} (listed : (field, value) ∈ packedFields segment) :
    field.get ((svmSegmentAccessRights segment).setWidth 16).toNat = value % 2 ^ field.width := by
  have inside : ∀ other ∈ (packedFields segment).map Prod.fst, other.shift + other.width ≤ 16 := by
    change ∀ other ∈ ([⟨0, 4⟩, ⟨4, 1⟩, ⟨5, 2⟩, ⟨7, 1⟩, ⟨8, 1⟩, ⟨9, 1⟩, ⟨10, 1⟩, ⟨11, 1⟩] :
      List BitField), other.shift + other.width ≤ 16
    decide
  rw [BitVec.toNat_setWidth, BitField.get_mod_two_pow (inside _ (List.mem_map_of_mem listed)),
    toNat_svmSegmentAccessRights usable present]
  exact BitField.get_packed (packedFields_apart segment) listed

theorem attrib_setupGuestRegs (host : HostState) (svm : SvmVcpu) (conf : SvmConfig)
    (register : SegmentRegister) :
    ((setupGuestRegs host svm conf).save.segment register).attrib =
      (svmSegmentAccessRights (conf.svmSysRegs.segment register)).setWidth 16 := by
  cases register <;> rfl

theorem decode_svmSegmentAccessRights (inUse : segment.InUse) :
    Attributes.decode ((svmSegmentAccessRights segment).setWidth 16) =
      { segment.attributes with dpl := segment.s.toNat } := by
  have present : segment.present ≠ 0 := by
    rw [inUse.present]
    decide
  have read : ∀ {field : BitField} {value : ℕ}, (field, value) ∈ packedFields segment →
      value < 2 ^ field.width →
      field.get ((svmSegmentAccessRights segment).setWidth 16).toNat = value := by
    intro field value listed fits
    rw [get_svmSegmentAccessRights inUse.usable present listed, Nat.mod_eq_of_lt fits]
  have set : segment.present.toNat < 2 := by
    rw [inUse.present]
    decide
  have level : segment.s.toNat < 2 ^ 2 := Nat.lt_trans inUse.s (by decide)
  simp only [Attributes.decode, Segment.attributes, Attributes.mk.injEq]
  refine ⟨read ?_ inUse.type, read ?_ inUse.s, read ?_ level, read ?_ set, read ?_ inUse.avl,
    read ?_ inUse.l, read ?_ inUse.db, read ?_ inUse.g⟩
  all_goals simp [packedFields]

/--
For every configuration, virtual CPU and host, and each of the seven segments that is in use with
attributes that fit: the attributes that are stored decode to those of the segment, but for the
privilege level, which is `s`. So they round-trip if and only if the two are the same number.
-/
theorem attributes_round_trip_iff (host : HostState) (svm : SvmVcpu) (conf : SvmConfig)
    (register : SegmentRegister) (inUse : (conf.svmSysRegs.segment register).InUse) :
    Attributes.decode ((setupGuestRegs host svm conf).save.segment register).attrib =
        (conf.svmSysRegs.segment register).attributes ↔
      (conf.svmSysRegs.segment register).dpl = (conf.svmSysRegs.segment register).s := by
  rw [attrib_setupGuestRegs, decode_svmSegmentAccessRights inUse]
  constructor
  · intro same
    apply BitVec.eq_of_toNat_eq
    exact (congrArg Attributes.dpl same).symm
  · intro same
    rw [← same]
    rfl

/-- What `svm_config_init` makes `cs` and `tr`. -/
def initialSysRegs : SysRegs :=
  { (default : SysRegs) with
    cs :=
      { (default : Segment) with
        limit := 0xffffffff, type := 0xb, s := 1, present := 1, l := 1, g := 1 }
    tr := { (default : Segment) with limit := 0xff, type := 0xb, present := 1 } }

theorem inUse_initialSysRegs :
    (initialSysRegs.segment .cs).InUse ∧ (initialSysRegs.segment .tr).InUse :=
  ⟨⟨rfl, rfl, by decide, by decide, by decide, by decide, by decide, by decide, by decide⟩,
    ⟨rfl, rfl, by decide, by decide, by decide, by decide, by decide, by decide, by decide⟩⟩

theorem attributes_round_trip_initialSysRegs :
    Attributes.decode
        ((setupGuestRegs default default ⟨default, initialSysRegs⟩).save.segment .tr).attrib =
        (initialSysRegs.segment .tr).attributes ∧
      Attributes.decode
        ((setupGuestRegs default default ⟨default, initialSysRegs⟩).save.segment .cs).attrib ≠
        (initialSysRegs.segment .cs).attributes :=
  ⟨(attributes_round_trip_iff default default ⟨default, initialSysRegs⟩ .tr
      inUse_initialSysRegs.2).mpr rfl,
    (attributes_round_trip_iff default default ⟨default, initialSysRegs⟩ .cs
      inUse_initialSysRegs.1).not.mpr (by decide)⟩

/-- The code segment of the kernel, of level 0, is stored as one of level 1. -/
theorem not_attributes_round_trip : ¬∀ (host : HostState) (svm : SvmVcpu) (conf : SvmConfig)
    (register : SegmentRegister), (conf.svmSysRegs.segment register).InUse →
      Attributes.decode ((setupGuestRegs host svm conf).save.segment register).attrib =
        (conf.svmSysRegs.segment register).attributes := by
  intro claimed
  have kept := claimed default default ⟨default, initialSysRegs⟩ .cs inUse_initialSysRegs.1
  rw [attrib_setupGuestRegs, decode_svmSegmentAccessRights inUse_initialSysRegs.1] at kept
  exact absurd kept (by decide)

end RoundTrip

end VirtLearn.Vmx
