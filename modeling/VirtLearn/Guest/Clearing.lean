import VirtLearn.Guest.Paging
import VirtLearn.Machine.Regions

/-!
# Clearing pages

`clear_4K_page` stores zeros from the end of a page down, eight stores of 16 bytes a round, and
`clear_4k_pages` calls it for one page after the other. Both leave memory cleared where they should
and change nothing else but the registers they count with.
-/

namespace VirtLearn

variable {width count offset : ℕ} {machine : Machine} {base : Address}

/-- The machine with a range of memory set to 0. -/
@[simps -fullyApplied]
def Machine.cleared (machine : Machine) (base : Address) (count : ℕ) : Machine :=
  { machine with memory := machine.memory.clear base count }

@[simp]
theorem Machine.get_cleared (register : Register) :
    (machine.cleared base count).get width register = machine.get width register :=
  rfl

theorem Machine.cleared_zero (machine : Machine) (base : Address) :
    machine.cleared base 0 = machine := by
  have same : machine.memory.clear base 0 = machine.memory := by
    funext place
    exact Memory.clear_of_not_within (Nat.not_lt_zero _)
  rw [cleared, same]

theorem Machine.poke_zero (small : width / 8 ≤ 2 ^ 64) (inRam : machine.ram base = true) :
    machine.poke base (0 : BitVec width) = machine.cleared base (width / 8) := by
  rw [poke, if_pos inRam, Memory.write_zero small, cleared]

theorem OnlyRegisters.cleared {changed : List Register} {before after : Machine}
    (only : OnlyRegisters changed before after) (base : Address) (count : ℕ) :
    OnlyRegisters changed (before.cleared base count) (after.cleared base count) :=
  ⟨only.registers, only.stack, only.ram, congrArg (fun memory => Memory.clear memory base count)
    only.memory, only.writes⟩

theorem Machine.cleared_cleared (fits : offset + count ≤ 2 ^ 64) :
    (machine.cleared (base + BitVec.ofNat 64 offset) count).cleared base offset =
      machine.cleared base (offset + count) := by
  simp only [cleared, Memory.clear_clear fits]

theorem Machine.cleared_behind (fits : offset + count ≤ 2 ^ 64) :
    (machine.cleared base offset).cleared (base + BitVec.ofNat 64 offset) count =
      machine.cleared base (offset + count) := by
  rw [← cleared_cleared fits]
  simp only [cleared, Memory.clear_comm _ base]

namespace Guest

open Assembly Register

variable {post : Unit → Machine → Prop} {start low high : ℕ}

/-- A range of addresses below 4 GiB has memory behind it. -/
def Backed (machine : Machine) (start size : ℕ) : Prop :=
  ∀ place, start ≤ place → place < start + size → machine.ram (BitVec.ofNat 64 place) = true

theorem Backed.mono {size less later : ℕ} (backed : Backed machine start size)
    (above : start ≤ later) (below : later + less ≤ start + size) : Backed machine later less :=
  fun place from_ to_ => backed place (by omega) (by omega)

/-- A store of zeros right before a cleared range that ends at `high`. -/
theorem wp_movdqu {distance : ℕ} (begins : (machine.get 32 rsi).toNat = start)
    (ends : start + (machine.get 32 rax).toNat = high) (room : 16 ≤ distance)
    (small : distance ≤ (machine.get 32 rax).toNat) (fits : high ≤ 2 ^ 32)
    (inRam : machine.ram (BitVec.ofNat 64 (high - distance)) = true) :
    wp (movdqu 0 (-BitVec.ofNat 32 distance)) post
        (machine.cleared (BitVec.ofNat 64 (high - (distance - 16))) (distance - 16)) ↔
      post () (machine.cleared (BitVec.ofNat 64 (high - distance)) distance) := by
  have order : -BitVec.ofNat 32 distance + machine.get 32 rsi + machine.get 32 rax =
      machine.get 32 rsi + machine.get 32 rax - BitVec.ofNat 32 distance := by
    rw [BitVec.add_assoc, BitVec.add_comm, ← BitVec.sub_eq_add_neg]
  have target : (-BitVec.ofNat 32 distance + machine.get 32 rsi + machine.get 32 rax).setWidth 64 =
      BitVec.ofNat 64 (high - distance) := by
    have value : (machine.get 32 rsi + machine.get 32 rax - BitVec.ofNat 32 distance).toNat =
        high - distance := by
      rw [BitVec.toNat_sub, BitVec.toNat_add, begins, ends, BitVec.toNat_ofNat]
      omega
    rw [order, ← value, BitVec.ofNat_toNat]
  have behind : BitVec.ofNat 64 (high - (distance - 16)) =
      BitVec.ofNat 64 (high - distance) + BitVec.ofNat 64 16 := by
    rw [← BitVec.ofNat_add]
    congr 1
    omega
  have whole : 16 + (distance - 16) = distance := by omega
  simp only [movdqu, wp_modify, Machine.get_cleared]
  rw [target, Machine.poke_zero (by decide) (by exact inRam), behind,
    Machine.cleared_cleared (by omega), whole]

theorem wp_clear4KPageLoop {rounds : ℕ} (begins : (machine.get 32 rsi).toNat = start)
    (left : (machine.get 32 rax).toNat = 128 * (rounds + 1))
    (backed : Backed machine start (128 * (rounds + 1)))
    (fits : start + 128 * (rounds + 1) ≤ 2 ^ 32) :
    wp (clear4KPageLoop 0)
      (fun again after => again = decide (0 < rounds) ∧
        (after.get 32 rax).toNat = 128 * rounds ∧
        OnlyRegisters [rax] (machine.cleared (BitVec.ofNat 64 (start + 128 * rounds)) 128) after)
      machine := by
  have store : ∀ (distance : ℕ) (post : Unit → Machine → Prop), 16 ≤ distance → distance ≤ 128 →
      (wp (movdqu 0 (-BitVec.ofNat 32 distance)) post
          (machine.cleared (BitVec.ofNat 64 (start + 128 * (rounds + 1) - (distance - 16)))
            (distance - 16)) ↔
        post () (machine.cleared (BitVec.ofNat 64 (start + 128 * (rounds + 1) - distance))
          distance)) := by
    intro distance post room small
    exact wp_movdqu begins (by rw [left]) room (by omega) fits (backed _ (by omega) (by omega))
  have fromTop : wp (clear4KPageLoop 0)
      (fun again after => again = decide (0 < rounds) ∧
        (after.get 32 rax).toNat = 128 * rounds ∧
        OnlyRegisters [rax] (machine.cleared (BitVec.ofNat 64 (start + 128 * rounds)) 128) after)
      (machine.cleared (BitVec.ofNat 64 (start + 128 * (rounds + 1) - 0)) 0) := by
    simp only [clear4KPageLoop, wp_bind]
    apply (store 16 _ (by decide) (by decide)).mpr
    apply (store 32 _ (by decide) (by decide)).mpr
    apply (store 48 _ (by decide) (by decide)).mpr
    apply (store 64 _ (by decide) (by decide)).mpr
    apply (store 80 _ (by decide) (by decide)).mpr
    apply (store 96 _ (by decide) (by decide)).mpr
    apply (store 112 _ (by decide) (by decide)).mpr
    apply (store 128 _ (by decide) (by decide)).mpr
    have bottom : start + 128 * (rounds + 1) - 128 = start + 128 * rounds := by omega
    have less : (machine.get 32 rax - 128).toNat = 128 * rounds := by
      rw [BitVec.toNat_sub, left]
      simp
      omega
    rw [bottom]
    simp only [sub, wp_bind, wp_fetch_imm, wp_fetch_reg, Machine.get_cleared, wp_assign_reg,
      wp_setFlags, wp_jnz, Machine.get_withFlags, Machine.get_put_self (by decide : 32 ≤ 64)]
    refine ⟨?_, less, ((OnlyRegisters.refl _ _).put (by simp) _).withFlags _ _⟩
    have zero_iff : machine.get 32 rax - 128 = 0 ↔ rounds = 0 := by
      rw [← BitVec.toNat_inj, less]
      simp
    simp only [Machine.withFlags_zf, beq_eq_decide, zero_iff, Nat.pos_iff_ne_zero, decide_not]
  rwa [Machine.cleared_zero] at fromTop

theorem wp_clear4KPage {fuel : ℕ} (begins : (machine.get 32 rsi).toNat = start)
    (backed : Backed machine start 4096) (fits : start + 4096 ≤ 2 ^ 32) (enough : 32 < fuel) :
    wp (clear4KPage fuel)
      (fun _ after => OnlyRegisters [rax] (machine.cleared (BitVec.ofNat 64 start) 4096) after)
      machine := by
  simp only [clear4KPage, mov, wp_bind, wp_fetch_imm, wp_assign_reg]
  -- as many rounds are left as `eax` has times 128, and what is above is clear
  apply wp_loop
    (fun left before => 0 < left ∧ left ≤ 32 ∧ (before.get 32 rax).toNat = 128 * left ∧
      OnlyRegisters [rax]
        (machine.cleared (BitVec.ofNat 64 (start + 128 * left)) (4096 - 128 * left)) before)
  · rintro left before ⟨positive, below, counted, only⟩
    rcases Nat.exists_eq_add_of_lt positive with ⟨rounds, rfl⟩
    rw [Nat.zero_add] at below counted only ⊢
    have same : (before.get 32 rsi).toNat = start := by
      rw [← begins, Machine.get, Machine.get, only.registers rsi (by decide)]
      rfl
    have backedHere : Backed before start (128 * (rounds + 1)) := by
      intro place above ends
      rw [only.ram]
      exact backed place above (by omega)
    apply (wp_clear4KPageLoop same counted backedHere (by omega)).mono
    rintro again after ⟨rfl, countedOn, onlyThen⟩
    have joined : OnlyRegisters [rax]
        (machine.cleared (BitVec.ofNat 64 (start + 128 * rounds)) (4096 - 128 * rounds)) after := by
      have both := (only.cleared (BitVec.ofNat 64 (start + 128 * rounds)) 128).trans onlyThen
      have size : 128 + (4096 - (128 * rounds + 128)) = 4096 - 128 * rounds := by omega
      rwa [Nat.mul_succ, ← Nat.add_assoc, BitVec.ofNat_add, Machine.cleared_cleared (by omega),
        size] at both
    split
    case isTrue more => exact ⟨rounds, by omega, by simpa using more, by omega, countedOn, joined⟩
    case isFalse last =>
      have none_left : rounds = 0 := by simpa using last
      simpa [none_left] using joined
  · refine ⟨by decide, Nat.le_refl 32, by simp, ?_⟩
    rw [show 4096 - 128 * 32 = 0 from rfl, Machine.cleared_zero]
    exact (OnlyRegisters.refl _ _).put (by simp) _
  · exact enough

/-- A round of `clear_4k_pages_loop` clears a page and goes on to the next. -/
theorem wp_clear4kPagesLoop {fuel pages : ℕ} (begins : (machine.get 32 rsi).toNat = start)
    (left : (machine.get 32 rdi).toNat = pages + 1) (backed : Backed machine start 4096)
    (fits : start + 4096 ≤ 2 ^ 32) (enough : 32 < fuel) :
    wp (clear4kPagesLoop fuel)
      (fun again after => again = decide (0 < pages) ∧
        (after.get 32 rsi).toNat = (start + 4096) % 2 ^ 32 ∧
        (after.get 32 rdi).toNat = pages ∧
        OnlyRegisters [rax, rsi, rdi] (machine.cleared (BitVec.ofNat 64 start) 4096) after)
      machine := by
  simp only [clear4kPagesLoop, wp_bind]
  have called : wp (call (clear4KPage fuel))
      (fun _ after => OnlyRegisters [rax] (machine.cleared (BitVec.ofNat 64 start) 4096) after)
      machine := by
    refine wp_call_of_only (by rfl) ?_
    exact @wp_clear4KPage (machine.withStack _) _ _ begins backed fits enough
  apply called.mono
  intro _ after only
  have source : after.get 32 rsi = machine.get 32 rsi := by
    rw [Machine.get, Machine.get, only.registers rsi (by decide)]
    rfl
  have counter : after.get 32 rdi = machine.get 32 rdi := by
    rw [Machine.get, Machine.get, only.registers rdi (by decide)]
    rfl
  have next : (machine.get 32 rsi + 0x1000).toNat = (start + 4096) % 2 ^ 32 := by
    rw [BitVec.toNat_add, begins]
    rfl
  have fewer : (machine.get 32 rdi - 1).toNat = pages := by
    rw [BitVec.toNat_sub, left]
    have bound := (machine.get 32 rdi).isLt
    simp
    omega
  have zero_iff : machine.get 32 rdi - 1 = 0 ↔ pages = 0 := by
    rw [← BitVec.toNat_inj, fewer]
    simp
  have more : OnlyRegisters [rax, rsi, rdi] (machine.cleared (BitVec.ofNat 64 start) 4096) after :=
    only.mono (by simp)
  simp only [add, dec, wp_bind, wp_fetch_imm, wp_fetch_reg, wp_assign_reg, wp_setFlags, wp_get,
    wp_jnz, Machine.get_withFlags, Machine.get_put_self (by decide : 32 ≤ 64),
    Machine.get_put_of_ne (by decide : rdi ≠ rsi), Machine.get_put_of_ne (by decide : rsi ≠ rdi),
    source, counter]
  refine ⟨?_, next, fewer, ?_⟩
  · simp only [Machine.withFlags_zf, beq_eq_decide, zero_iff, Nat.pos_iff_ne_zero, decide_not]
  · exact (((more.put (by simp) _).withFlags _ _).put (by simp) _).withFlags _ _

/-- `clear_4k_pages` clears as many pages from `esi` on as `edi` says. -/
theorem wp_clear4kPages {fuel pages : ℕ} (begins : (machine.get 32 rsi).toNat = start)
    (counted : (machine.get 32 rdi).toNat = pages) (backed : Backed machine start (4096 * pages))
    (fits : start + 4096 * pages ≤ 2 ^ 32) (enough : 32 < fuel) (enoughPages : pages < fuel) :
    wp (clear4kPages fuel)
      (fun _ after => OnlyRegisters [rax, rsi, rdi]
        (machine.cleared (BitVec.ofNat 64 start) (4096 * pages)) after)
      machine := by
  simp only [clear4kPages, test, wp_bind, wp_fetch_reg, wp_setFlags, wp_jz, BitVec.and_self]
  have zero_iff : (machine.withFlags (machine.get 32 rdi == 0) false).zf = true ↔ pages = 0 := by
    rw [Machine.withFlags_zf, beq_iff_eq, ← BitVec.toNat_inj, counted]
    rfl
  rcases Nat.eq_zero_or_pos pages with rfl | positive
  · rw [if_pos (zero_iff.mpr rfl), wp_pure, Nat.mul_zero, Machine.cleared_zero]
    exact (OnlyRegisters.refl _ _).withFlags _ _
  · rw [if_neg (mt zero_iff.mp (Nat.ne_of_gt positive))]
    apply wp_loop
      (fun left before => 0 < left ∧ ∃ finished, finished + left = pages ∧
        (before.get 32 rsi).toNat = start + 4096 * finished ∧ (before.get 32 rdi).toNat = left ∧
        OnlyRegisters [rax, rsi, rdi] (machine.cleared (BitVec.ofNat 64 start) (4096 * finished))
          before)
    · rintro left before ⟨leftPositive, finished, sum, beginsHere, countedHere, only⟩
      rcases Nat.exists_eq_add_of_lt leftPositive with ⟨rest, rfl⟩
      rw [Nat.zero_add] at sum countedHere ⊢
      have upTo : 4096 * (finished + 1) ≤ 4096 * pages := Nat.mul_le_mul_left 4096 (by omega)
      rw [Nat.mul_succ] at upTo
      have backedHere : Backed before (start + 4096 * finished) 4096 := by
        intro place above below
        rw [only.ram]
        exact backed place (by omega) (by omega)
      apply (wp_clear4kPagesLoop beginsHere countedHere backedHere (by omega) enough).mono
      rintro again after ⟨rfl, beginsNext, countedNext, onlyThen⟩
      have joined : OnlyRegisters [rax, rsi, rdi]
          (machine.cleared (BitVec.ofNat 64 start) (4096 * finished + 4096)) after := by
        have both := (only.cleared (BitVec.ofNat 64 (start + 4096 * finished)) 4096).trans onlyThen
        rwa [BitVec.ofNat_add, Machine.cleared_behind (by omega)] at both
      split
      case isTrue more =>
        have another : 0 < rest := by simpa using more
        have upToNext : 4096 * (finished + 1 + 1) ≤ 4096 * pages :=
          Nat.mul_le_mul_left 4096 (by omega)
        rw [Nat.mul_succ, Nat.mul_succ] at upToNext
        refine ⟨rest, by omega, another, finished + 1, by omega, ?_, countedNext, joined⟩
        rw [beginsNext, Nat.mod_eq_of_lt (by omega), Nat.mul_succ, Nat.add_assoc]
      case isFalse last =>
        have none_left : rest = 0 := by simpa using last
        rwa [← sum, none_left]
    · refine ⟨positive, 0, Nat.zero_add pages, begins, counted, ?_⟩
      rw [Nat.mul_zero, Machine.cleared_zero]
      exact (OnlyRegisters.refl _ _).withFlags _ _
    · exact enoughPages

theorem within_ofNat_iff {place : Address} {size : ℕ} (fits : start + size ≤ 2 ^ 32) :
    Within place (BitVec.ofNat 64 start) size ↔
      start ≤ place.toNat ∧ place.toNat < start + size := by
  have bound := place.isLt
  have value : (BitVec.ofNat 64 start).toNat = start := by
    rw [BitVec.toNat_ofNat, Nat.mod_eq_of_lt (by omega)]
  rw [Within, BitVec.toNat_sub, value]
  omega

/-- `clear_4k_pages` ends with the bytes of the pages 0 and with all others as they were, and stores
nowhere else: without pages, nowhere at all. -/
theorem clear4kPages_exact {fuel : ℕ}
    (fits : (machine.get 32 rsi).toNat + 4096 * (machine.get 32 rdi).toNat ≤ 2 ^ 32)
    (backed : Backed machine (machine.get 32 rsi).toNat (4096 * (machine.get 32 rdi).toNat))
    (enough : 32 < fuel) (enoughPages : (machine.get 32 rdi).toNat < fuel) :
    wp (clear4kPages fuel)
      (fun _ after =>
        (∀ place : Address, (machine.get 32 rsi).toNat ≤ place.toNat →
          place.toNat < (machine.get 32 rsi).toNat + 4096 * (machine.get 32 rdi).toNat →
            after.memory place = 0) ∧
        (∀ place : Address, ¬((machine.get 32 rsi).toNat ≤ place.toNat ∧
          place.toNat < (machine.get 32 rsi).toNat + 4096 * (machine.get 32 rdi).toNat) →
            after.memory place = machine.memory place) ∧
        after.writes = machine.writes ∧ after.stack = machine.stack ∧
        (machine.get 32 rdi = 0 → after.memory = machine.memory))
      machine := by
  apply (wp_clear4kPages rfl rfl backed fits enough enoughPages).mono
  intro _ after only
  have cleared : ∀ place : Address, (machine.get 32 rsi).toNat ≤ place.toNat →
      place.toNat < (machine.get 32 rsi).toNat + 4096 * (machine.get 32 rdi).toNat →
        after.memory place = 0 := by
    intro place above below
    rw [only.memory]
    exact Memory.clear_of_within ((within_ofNat_iff fits).mpr ⟨above, below⟩)
  have kept : ∀ place : Address, ¬((machine.get 32 rsi).toNat ≤ place.toNat ∧
      place.toNat < (machine.get 32 rsi).toNat + 4096 * (machine.get 32 rdi).toNat) →
        after.memory place = machine.memory place := by
    intro place outside
    rw [only.memory]
    exact Memory.clear_of_not_within (mt (within_ofNat_iff fits).mp outside)
  refine ⟨cleared, kept, only.writes, only.stack, ?_⟩
  intro none_
  funext place
  apply kept
  rw [none_]
  simp

/-- Two pages from 0x201000 on. -/
theorem clear4kPages_two :
    wp (clear4kPages 33)
      (fun _ after =>
        (∀ place : Address, 0x201000 ≤ place.toNat → place.toNat < 0x201000 + 4096 * 2 →
          after.memory place = 0) ∧
        (∀ place : Address, ¬(0x201000 ≤ place.toNat ∧ place.toNat < 0x201000 + 4096 * 2) →
          after.memory place = 0xff) ∧
        after.writes = [] ∧ after.stack = [] ∧
        ((2 : BitVec 32) = 0 → after.memory = fun _ => 0xff))
      { registers := fun register => if register = rsi then 0x201000 else 2
        ram := fun _ => true
        memory := fun _ => 0xff } :=
  @clear4kPages_exact _ _ (by decide) (fun _ _ _ => rfl) (by decide) (by decide)

end Guest

end VirtLearn
