import TrustedGateway.Vqueue

/-!
# The extent of a ring

`vring_size` rounds up the length of the descriptor table and the avail ring, counted from the
start of the table; `vqueue_vring_setup` rounds up the address at which they end.  The two agree
when the table starts on a page, and otherwise only if the rounding comes to the same page.
Nothing in the set-up asks where in its page the table starts.
-/

namespace TrustedGateway

variable {M : Type}

/-- Rounding up to a multiple of the alignment of the rings. -/
def pageUp (n : ℕ) : ℕ := (n + 4095) / 4096 * 4096

/-- The bytes of a descriptor table and an avail ring with its event word. -/
def tableAndAvailLen (num : ℕ) : ℕ := 16 * num + (4 + 2 * num + 2)

/-- The three parts of a ring follow each other, and the last one ends within the size of the
ring.  The avail ring has two half words in front of its entries and the used event behind
them, the used ring two half words in front and the avail event behind. -/
structure RingFits (vq : Vqueue) : Prop where
  desc : vq.vring.desc = vq.vringAddr
  avail : vq.vring.desc.toNat + 16 * vq.vring.num ≤ vq.vring.avail.toNat
  used : vq.vring.avail.toNat + (4 + 2 * vq.vring.num + 2) ≤ vq.vring.used.toNat
  ends : vq.vring.used.toNat + (4 + 8 * vq.vring.num + 2) ≤ vq.vringAddr.toNat + vq.vringSz.toNat

/-- The table starts so early in its page that the end of the avail ring is rounded up to where
it would be for a table at the start of a page, and that is an address. -/
structure RoundsAlike (vaddr : Word) (num : ℕ) : Prop where
  page : vaddr.toNat % 4096 + tableAndAvailLen num ≤ pageUp (tableAndAvailLen num)
  addr : pageUp (vaddr.toNat + tableAndAvailLen num) < 2 ^ 32

/-! ## The arithmetic of the set-up -/

theorem le_pageUp (n : ℕ) : n ≤ pageUp n := by
  simp only [pageUp]
  omega

theorem pageUp_lt (n : ℕ) : pageUp n < n + 4096 := by
  simp only [pageUp]
  omega

theorem pageUp_lt_iff (n : ℕ) : pageUp n < 2 ^ 32 ↔ n + 4095 < 2 ^ 32 := by
  simp only [pageUp]
  omega

/-- Rounding up commutes with whole pages. -/
theorem pageUp_mul_add (k n : ℕ) : pageUp (4096 * k + n) = 4096 * k + pageUp n := by
  simp only [pageUp]
  omega

/-- Rounding the sum up exceeds rounding the second part up unless the offset in the page leaves
room for it. -/
theorem pageUp_add_le_iff (a n : ℕ) :
    pageUp (a + n) ≤ a + pageUp n ↔ a % 4096 + n ≤ pageUp n := by
  have ha := Nat.div_add_mod a 4096
  have hr := Nat.mod_lt a (show 0 < 4096 by decide)
  generalize a / 4096 = k at ha
  generalize a % 4096 = r at ha hr ⊢
  subst ha
  rw [Nat.add_assoc, pageUp_mul_add]
  simp only [pageUp]
  omega

theorem toNat_and_not_pageMask (y : Word) :
    (y &&& ~~~(4096 - 1 : Word)).toNat = y.toNat / 4096 * 4096 := by
  -- masking out the low twelve bits is shifting them out and back
  have hmask : y &&& ~~~(4096 - 1 : Word) = (y >>> 12) <<< 12 := by
    apply BitVec.eq_of_getLsbD_eq
    intro i hi
    have hbit : (~~~(4096 - 1 : Word)).getLsbD i = decide (12 ≤ i) := by
      revert i
      decide
    rw [BitVec.getLsbD_and, hbit, BitVec.getLsbD_shiftLeft, BitVec.getLsbD_ushiftRight]
    by_cases h : 12 ≤ i
    · simp [h, hi, not_lt.mpr h]
    · simp [h, not_le.mp h]
  have hy := y.isLt
  rw [hmask, BitVec.toNat_shiftLeft, BitVec.toNat_ushiftRight, Nat.shiftRight_eq_div_pow,
    Nat.shiftLeft_eq]
  omega

section Places

variable {num : ℕ}

theorem toNat_vringAvailAt (vaddr : Word) (num : ℕ) :
    (vringAvailAt vaddr num).toNat = (vaddr.toNat + 16 * num) % 2 ^ 32 := by
  rw [vringAvailAt, BitVec.toNat_add, BitVec.toNat_ofNat, Nat.add_mod_mod, Nat.mul_comm]

theorem toNat_vringUsedAt (vaddr : Word) (num : ℕ) :
    (vringUsedAt vaddr num 4096).toNat =
      (vaddr.toNat + tableAndAvailLen num + 4095) % 2 ^ 32 / 4096 * 4096 := by
  have hsum : vringAvailAt vaddr num + 4 + BitVec.ofNat 32 (2 * num) + 2 + 4096 - 1 =
      BitVec.ofNat 32 (vaddr.toNat + num * 16 + 4 + 2 * num + 2 + 4095) := by
    simp only [vringAvailAt, BitVec.ofNat_add, BitVec.ofNat_toNat, BitVec.setWidth_eq]
    rw [BitVec.sub_eq_add_neg, BitVec.add_assoc _ 4096 _]
    rfl
  have hlen : vaddr.toNat + num * 16 + 4 + 2 * num + 2 + 4095 =
      vaddr.toNat + tableAndAvailLen num + 4095 := by
    rw [tableAndAvailLen]
    omega
  rw [vringUsedAt, toNat_and_not_pageMask, hsum, BitVec.toNat_ofNat, hlen]

theorem toNat_vringSize (hnum : num ≤ 256) :
    (vringSize num 4096).toNat = pageUp (tableAndAvailLen num) + (4 + 8 * num + 2) := by
  have hsum : (16 * BitVec.ofNat 32 num + 2 * (3 + BitVec.ofNat 32 num) + 4096 - 1 : Word) =
      BitVec.ofNat 32 (16 * num + 2 * (3 + num) + 4095) := by
    simp only [BitVec.ofNat_add, BitVec.ofNat_mul]
    rw [BitVec.sub_eq_add_neg, BitVec.add_assoc _ 4096 _]
    rfl
  have hlen : 16 * num + 2 * (3 + num) + 4095 = tableAndAvailLen num + 4095 := by
    rw [tableAndAvailLen]
    omega
  have hsmall : tableAndAvailLen num ≤ 4614 := by
    rw [tableAndAvailLen]
    omega
  have hup := pageUp_lt (tableAndAvailLen num)
  have hround : (BitVec.ofNat 32 (tableAndAvailLen num + 4095) &&& ~~~(4096 - 1 : Word)) =
      BitVec.ofNat 32 (pageUp (tableAndAvailLen num)) := by
    apply BitVec.eq_of_toNat_eq
    have hsum' : tableAndAvailLen num + 4095 < 2 ^ 32 := by omega
    have hup' : pageUp (tableAndAvailLen num) < 2 ^ 32 := by omega
    rw [toNat_and_not_pageMask, BitVec.toNat_ofNat, BitVec.toNat_ofNat, Nat.mod_eq_of_lt hsum',
      Nat.mod_eq_of_lt hup', pageUp]
  have hall : vringSize num 4096 =
      BitVec.ofNat 32 (pageUp (tableAndAvailLen num) + 2 * 3 + 8 * num) := by
    simp only [vringSize]
    rw [hsum, hlen, hround, BitVec.ofNat_add, BitVec.ofNat_add, BitVec.ofNat_mul, BitVec.ofNat_mul]
    rfl
  rw [hall, BitVec.toNat_ofNat, Nat.mod_eq_of_lt (by omega)]
  omega

/-- The extent in numbers: the used ring lies behind the avail ring and ends within the size
exactly if the two roundings come to the same page. -/
theorem extent_iff (hnum : num ≤ 256) (vaddr : Word) :
    (vaddr.toNat + 16 * num ≤ (vringAvailAt vaddr num).toNat ∧
      (vringAvailAt vaddr num).toNat + (4 + 2 * num + 2) ≤ (vringUsedAt vaddr num 4096).toNat ∧
      (vringUsedAt vaddr num 4096).toNat + (4 + 8 * num + 2) ≤
        vaddr.toNat + (vringSize num 4096).toNat) ↔ RoundsAlike vaddr num := by
  have hlen : vaddr.toNat + tableAndAvailLen num =
      vaddr.toNat + 16 * num + (4 + 2 * num + 2) := by
    rw [tableAndAvailLen]
    omega
  rw [toNat_vringSize hnum, toNat_vringAvailAt, toNat_vringUsedAt]
  by_cases hwrap : vaddr.toNat + tableAndAvailLen num + 4095 < 2 ^ 32
  · rw [Nat.mod_eq_of_lt (by omega), Nat.mod_eq_of_lt hwrap, ← pageUp]
    have hle := le_pageUp (vaddr.toNat + tableAndAvailLen num)
    have hpage := pageUp_add_le_iff vaddr.toNat (tableAndAvailLen num)
    constructor
    · rintro ⟨-, -, h⟩
      exact ⟨hpage.mp (by omega), (pageUp_lt_iff _).mpr hwrap⟩
    · rintro ⟨h, -⟩
      exact ⟨le_rfl, by omega, by have := hpage.mpr h; omega⟩
  · -- a sum that wraps puts one of the rings in front of the table
    constructor
    · rintro ⟨h₁, h₂, -⟩
      exfalso
      rw [le_antisymm (Nat.mod_le _ _) h₁] at h₂
      omega
    · rintro ⟨-, h⟩
      exact absurd ((pageUp_lt_iff _).mp h) hwrap

end Places

/-! ## Rings that are accepted -/

section Setup

variable {mmu : CoreMmu M} {m : M} {vq : Vqueue} {descPa availPa usedPa : Word}

/-- A set-up that succeeds has found the table and has passed the layout check. -/
theorem ringLayoutOk_of_accepted (h : (vqueueVringSetup mmu m vq descPa availPa usedPa).1 = 0) :
    setupVaddr mmu m vq descPa ≠ 0 ∧
      RingLayoutOk mmu (setupMmu mmu m vq descPa) (setupVaddr mmu m vq descPa) vq.vring.num
        vq.vringAlign availPa usedPa := by
  simp only [vqueueVringSetup] at h
  split at h
  · cases h
  · rename_i hva
    refine ⟨hva, ?_⟩
    split at h
    · cases h
    · rename_i hl
      simp only [not_or, not_not] at hl
      exact hl

/-- **The extent of an accepted ring.** -/
theorem ringFits_iff (hnum : 1 ≤ vq.vring.num ∧ vq.vring.num ≤ 256)
    (halign : vq.vringAlign = 4096)
    (hok : (vqueueVringSetup mmu m vq descPa availPa usedPa).1 = 0) :
    RingFits (vqueueVringSetup mmu m vq descPa availPa usedPa).2.1 ↔
      RoundsAlike (setupVaddr mmu m vq descPa) vq.vring.num := by
  obtain ⟨hva, hlayout⟩ := ringLayoutOk_of_accepted hok
  rw [vqueueVringSetup_of_ok hva hlayout, halign]
  generalize setupVaddr mmu m vq descPa = vaddr
  rw [← extent_iff hnum.2 vaddr]
  constructor
  · rintro ⟨-, h₁, h₂, h₃⟩
    exact ⟨h₁, h₂, h₃⟩
  · rintro ⟨h₁, h₂, h₃⟩
    exact ⟨rfl, h₁, h₂, h₃⟩

end Setup

/-- A queue of `num` entries before its rings are set up. -/
def queueOf (num : ℕ) : Vqueue where
  vring := ⟨num, 256, 0, 0, 0⟩
  vringAddr := 0
  vringSz := 0
  vringAlign := 4096
  lastAvailIdx := 0
  shared := RingMem.zero
  taken := []
  returned := []

/-- A full-size ring whose table starts a page. -/
theorem ringFits_page :
    (vqueueVringSetup flatMmu () (queueOf 256) 0x10000000 0x10001000 0x10002000).1 = 0 ∧
      (RingFits (vqueueVringSetup flatMmu () (queueOf 256) 0x10000000 0x10001000 0x10002000).2.1 ↔
        RoundsAlike 0x10000000 256) :=
  ⟨by decide, ringFits_iff (by decide) rfl (by decide)⟩

/-- A full-size ring whose table starts late in its page is accepted, and its used ring ends
512 bytes behind `vring_sz`. -/
theorem ring_exceeds_size :
    let r := vqueueVringSetup flatMmu () (queueOf 256) 0x10000e00 0x10001e00 0x10003000
    r.1 = 0 ∧ r.2.1.vring.used.toNat + (4 + 8 * 256 + 2) =
      r.2.1.vringAddr.toNat + r.2.1.vringSz.toNat + 512 := by
  decide

end TrustedGateway
