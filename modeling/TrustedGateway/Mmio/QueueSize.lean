import TrustedGateway.Mmio.DeviceInv

/-!
# Ring sizes under register writes

The avail and used indices are 16-bit counters that never stop, and a slot is a counter modulo
the size of the ring.  At the wrap of the counter this is the next slot only if the size divides
`65536`.  `virtio_queue_set_num` accepts every size up to 256.

A size comes by the size register, or by the ready register from the 16 bits that the size
register has staged; the two need not be the same number.
-/

namespace TrustedGateway

open StepSystem

variable {M : Type}

/-- Consecutive counters select consecutive slots of a ring of `num` entries, at the wrap
too. -/
def SlotsConsecutive (num : ℕ) : Prop :=
  ∀ i : Half, (i + 1).toNat % num = (i.toNat % num + 1) % num

theorem slotsConsecutive_of_dvd {num : ℕ} (h : num ∣ 65536) : SlotsConsecutive num := by
  intro i
  have hi : (i + 1).toNat = (i.toNat + 1) % 65536 := by
    rw [BitVec.toNat_add]
    rfl
  rw [hi, Nat.mod_mod_of_dvd _ h, Nat.mod_add_mod]

/-- A ring size that can be used. -/
structure SizeUsable (num : ℕ) : Prop where
  pos : 1 ≤ num
  le : num ≤ 256
  dvd : num ∣ 65536
  slots : SlotsConsecutive num

/-- All queues have usable sizes. -/
def SizesUsable (d : Dev M) : Prop := ∀ q, SizeUsable (d.vdev.vq q).vring.num

/-- A new size is usable if it divides `65536`. -/
theorem Resizes.sizeUsable_iff {vq : Vqueue} {num : ℤ} (h : Resizes vq num) :
    SizeUsable (virtioQueueSetNumVq vq num).vring.num ↔ num.toNat ∣ 65536 := by
  obtain ⟨hpos, hle, -⟩ := h.toNat
  rw [virtioQueueSetNumVq_of_resizes h]
  exact ⟨fun hu => hu.dvd, fun hd => ⟨hpos, hle, hd, slotsConsecutive_of_dvd hd⟩⟩

theorem sizeUsable_setNum_iff {vq : Vqueue} {num : ℤ} (hu : SizeUsable vq.vring.num) :
    SizeUsable (virtioQueueSetNumVq vq num).vring.num ↔
      ¬ Resizes vq num ∨ num.toNat ∣ 65536 := by
  by_cases hr : Resizes vq num
  · rw [hr.sizeUsable_iff]
    simp [hr]
  · rw [virtioQueueSetNumVq_of_not_resizes hr]
    exact iff_of_true hu (.inl hr)

theorem sizeUsable_default : SizeUsable virtioNetQueueDefaultSize :=
  ⟨by decide, by decide, by decide, slotsConsecutive_of_dvd (by decide)⟩

/-- The accesses that keep the sizes usable: a size that a queue takes over, from the size
register or from what it has staged, divides `65536`. -/
def sizeGuard (d : Dev M) (a : Access) : Prop :=
  let vq := d.vdev.vq d.vdev.queueSel
  let r := d.mmio.vqs d.vdev.queueSel
  match a.target with
  | some (.queueNum, v) => ¬ Resizes vq v.toInt ∨ v.toInt.toNat ∣ 65536
  | some (.queueReady, v) => v = 0 ∨ ¬ Resizes vq r.num.toNat ∨ r.num.toNat ∣ 65536
  | _ => True

instance (d : Dev M) (a : Access) : Decidable (sizeGuard d a) := by
  unfold sizeGuard
  generalize a.target = o
  rcases o with _ | ⟨r, v⟩
  · exact .isTrue trivial
  · cases r <;> dsimp only <;> infer_instance

/-- **One access keeps the sizes usable exactly when it is guarded.** -/
theorem sizesUsable_iff_sizeGuard {mmu : CoreMmu M} {d d' : Dev M} {a : Access}
    (hi : DeviceInv d) (hu : SizesUsable d) (h : mmioStep mmu d a = .ok d') :
    SizesUsable d' ↔ sizeGuard d a := by
  have he := effect_of_mmioStep h
  have hupd := @forall_update_iff (fun vq => SizeUsable vq.vring.num) d.vdev.vq hu d.vdev.queueSel
  unfold sizeGuard
  generalize a.target = o at he
  cases he with
  | num v => exact (hupd _).trans (sizeUsable_setNum_iff (hu _))
  | ready v =>
    by_cases hv : v = 0
    · have hvq : (writeQueueReady mmu d v).vdev.vq = d.vdev.vq := by
        rw [writeQueueReady_of_zero mmu d hv]
        rfl
      rw [SizesUsable, hvq]
      exact iff_of_true hu (.inl hv)
    · rw [SizesUsable, vq_writeQueueReady mmu d hv, hupd, (num_readyVq _ _ _ _).1,
        sizeUsable_setNum_iff (hu _), Int.toNat_natCast]
      exact ⟨.inr, fun h => h.resolve_left hv⟩
  | notify v q hn =>
    refine iff_of_true (fun q' => ?_) trivial
    rw [(vring_virtioQueueNotify hn q').1]
    exact hu q'
  | status v hs =>
    refine iff_of_true (fun q => ?_) trivial
    rw [(statusWritten_of_writeStatus hs).vq]
    by_cases hz : v.setWidth 8 = 0
    · rw [if_pos hz, (num_virtioResetVq _).1, (hi.queue q).numDefault]
      exact sizeUsable_default
    · rw [if_neg hz]
      exact hu q
  | quiet o hq hn hr hs =>
    have hg : SizesUsable d' := by
      intro q
      rw [hq.vq]
      exact hu q
    refine ⟨fun _ => ?_, fun _ => hg⟩
    split
    · exact absurd rfl (hn _)
    · exact absurd rfl (hr _)
    · trivial

theorem sizesUsable_init (m : M) (shared : QIdx → RingMem) : SizesUsable (Dev.init m shared) :=
  fun _ => sizeUsable_default

/-- **Ring sizes along runs.**  Whatever registers the normal world accesses, the sizes of the
queues are usable in every state of the run exactly when every access of it is guarded. -/
theorem sizesUsable_always_iff (mmu : CoreMmu M) (m : M) (shared : QIdx → RingMem)
    (as : List Access) (d : Dev M) (h : MmioRun mmu (Dev.init m shared) as d) :
    Always (mmioStep mmu) SizesUsable (Dev.init m shared) as ↔
      Run (mmioStep mmu) sizeGuard (Dev.init m shared) as d :=
  h.iff_always (fun _ _ _ hi hs => deviceInv_mmioStep hi hs)
    (fun _ _ _ hi hu hs => sizesUsable_iff_sizeGuard hi hu hs) (deviceInv_init m shared)
    (sizesUsable_init m shared)

/-- A driver that sets a queue up with the largest size. -/
theorem sizesUsable_always_setUpQueue :
    ∃ d, MmioRun flatMmu (Dev.init () fun _ => .zero) setUpQueue d ∧
      Always (mmioStep flatMmu) SizesUsable (Dev.init () fun _ => .zero) setUpQueue := by
  obtain ⟨d, hd, -⟩ : ∃ d, Run (mmioStep flatMmu) sizeGuard
      (Dev.init () fun _ => .zero) setUpQueue d ∧ (d.vdev.vq 0).vring.num = 256 :=
    exists_run_of_exec (by decide)
  have hr : MmioRun flatMmu (Dev.init () fun _ => .zero) setUpQueue d :=
    hd.mono fun _ _ _ => trivial
  exact ⟨d, hr, (sizesUsable_always_iff flatMmu () _ setUpQueue d hr).mpr hd⟩

/-- A size of three is taken over from the size register, and also from the low half of a size
that the register itself was refused with; then `65535` and the counter after it select the same
slot. -/
theorem size_of_three_accepted :
    (∃ d, MmioRun flatMmu (Dev.init () fun _ => .zero) [.toReg .queueNum 3] d ∧
        (d.vdev.vq 0).vring.num = 3) ∧
      (∃ d, MmioRun flatMmu (Dev.init () fun _ => .zero)
          [.toReg .queueNum 0x10003, .toReg .queueReady 1] d ∧ (d.vdev.vq 0).vring.num = 3) ∧
      (65535 : Half).toNat % 3 = 0 ∧ ((65535 : Half) + 1).toNat % 3 = 0 :=
  ⟨exists_run_of_exec (by decide), exists_run_of_exec (by decide), by decide, by decide⟩

end TrustedGateway
