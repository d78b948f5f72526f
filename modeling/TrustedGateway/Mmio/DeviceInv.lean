import TrustedGateway.Mmio.RingLayout

/-!
# What every access leaves alone

The identity of the device (its features, its configuration, the default size and
alignment of its queues) never changes, and the ring pointers of a queue are null exactly
when no ring is set up.
-/

namespace TrustedGateway

open StepSystem

variable {M : Type}

/-- The invariant of a queue.  A set-up compares the pointers with translated addresses and
so never leaves a null pointer behind. -/
structure QueueInv (vq : Vqueue) : Prop where
  align : vq.vringAlign = BitVec.ofNat 32 smallPageSize
  numDefault : vq.vring.numDefault = virtioNetQueueDefaultSize
  num : vq.vring.num ≠ 0
  down : vq.vringAddr = 0 → vq.vring.desc = 0 ∧ vq.vring.avail = 0 ∧ vq.vring.used = 0
  up : vq.vringAddr ≠ 0 → vq.vring.avail ≠ 0 ∧ vq.vring.used ≠ 0

/-- The invariant of the device under accesses. -/
structure DeviceInv (d : Dev M) : Prop where
  hostFeatures : d.vdev.hostFeatures = vnicHostFeatures
  generation : d.vdev.generation = 0
  deviceId : d.vdev.deviceId = 1
  linkStatus : d.vnet.status = virtioNetSLinkUp
  config : virtioNetGetConfig d.vnet = virtioNetGetConfig vnetInit
  queue : ∀ q, QueueInv (d.vdev.vq q)

/-! ## Queues -/

theorem ne_zero_of_checkRingLayout {mmu : CoreMmu M} {m : M} {pa va : Word}
    (h : checkRingLayout mmu m pa va = 0) : va ≠ 0 := by
  simp only [checkRingLayout] at h
  split at h
  · exact absurd h (by decide)
  · rename_i hz
    split at h
    · rename_i hva
      exact hva ▸ hz
    · exact absurd h (by decide)

variable {vq : Vqueue}

theorem QueueInv.congr {vq' : Vqueue} (h : QueueInv vq) (hv : vq'.vring = vq.vring)
    (ha : vq'.vringAddr = vq.vringAddr) (hal : vq'.vringAlign = vq.vringAlign) : QueueInv vq' := by
  refine ⟨hal.trans h.align, by rw [hv]; exact h.numDefault, by rw [hv]; exact h.num, ?_, ?_⟩
  · rw [ha, hv]
    exact h.down
  · rw [ha, hv]
    exact h.up

theorem QueueInv.setNum (h : QueueInv vq) (num : ℤ) : QueueInv (virtioQueueSetNumVq vq num) := by
  by_cases hr : Resizes vq num
  · rw [virtioQueueSetNumVq_of_resizes hr]
    exact ⟨h.align, h.numDefault, hr.toNat.1.ne', h.down, h.up⟩
  · rw [virtioQueueSetNumVq_of_not_resizes hr]
    exact h

theorem QueueInv.setup (h : QueueInv vq) (mmu : CoreMmu M) (m : M) (descPa availPa usedPa : Word) :
    QueueInv (vqueueVringSetup mmu m vq descPa availPa usedPa).2.1 := by
  by_cases hv : setupVaddr mmu m vq descPa = 0
  · rw [vqueueVringSetup_of_unmapped hv]
    exact h.congr rfl rfl rfl
  · by_cases hl : RingLayoutOk mmu (setupMmu mmu m vq descPa) (setupVaddr mmu m vq descPa)
        vq.vring.num vq.vringAlign availPa usedPa
    · rw [vqueueVringSetup_of_ok hv hl]
      refine ⟨h.align, h.numDefault, h.num, fun h0 => absurd h0 hv, fun _ => ?_⟩
      exact ⟨ne_zero_of_checkRingLayout hl.1, ne_zero_of_checkRingLayout hl.2⟩
    · rw [vqueueVringSetup_of_mismatch hv hl]
      exact ⟨h.align, h.numDefault, h.num, fun _ => ⟨rfl, rfl, rfl⟩, fun h0 => absurd rfl h0⟩

theorem QueueInv.ready (h : QueueInv vq) (mmu : CoreMmu M) (m : M) (r : MmioQueue) :
    QueueInv (readyVq mmu m vq r) := by
  have hs := h.setNum r.num.toNat
  rw [readyVq, if_neg hs.num]
  exact hs.setup mmu m _ _ _

/-- A reset clears the ring and restores the default size. -/
theorem QueueInv.virtioResetVq_eq (h : QueueInv vq) :
    virtioResetVq vq = { vq with
      vringAddr := 0
      vringSz := 0
      lastAvailIdx := 0
      vring := ⟨virtioNetQueueDefaultSize, virtioNetQueueDefaultSize, 0, 0, 0⟩ } := by
  by_cases h0 : vq.vringAddr = 0
  · obtain ⟨hd, ha, hu⟩ := h.down h0
    simp only [virtioResetVq, vqueueVringTeardown, if_pos h0, hd, ha, hu, h.numDefault]
  · simp only [virtioResetVq, vqueueVringTeardown, if_neg h0, h.numDefault]

theorem virtioNetQueueDefaultSize_ne_zero : virtioNetQueueDefaultSize ≠ 0 := by decide

theorem QueueInv.reset (h : QueueInv vq) : QueueInv (virtioResetVq vq) := by
  rw [h.virtioResetVq_eq]
  exact ⟨h.align, rfl, virtioNetQueueDefaultSize_ne_zero, fun _ => ⟨rfl, rfl, rfl⟩,
    fun h0 => absurd rfl h0⟩

/-! ## Accesses -/

theorem deviceInv_statusTail {d : Dev M} (h : DeviceInv d) (s : Byte) :
    DeviceInv (statusTail d s) := by
  obtain ⟨b, hb⟩ := statusTail_eq d s
  rw [hb]
  by_cases h0 : s = 0
  · simp only [if_pos h0]
    exact { h with queue := fun q => (h.queue q).reset }
  · simp only [if_neg h0]
    exact { h with }

theorem deviceInv_mmioStep {mmu : CoreMmu M} {d d' : Dev M} {a : Access} (hi : DeviceInv d)
    (h : mmioStep mmu d a = .ok d') : DeviceInv d' := by
  have he := effect_of_mmioStep h
  generalize a.target = o at he
  cases he with
  | num v =>
    exact { hi with
      queue := (forall_update_iff hi.queue d.vdev.queueSel _).mpr ((hi.queue _).setNum _) }
  | ready v =>
    by_cases hv : v = 0
    · rw [writeQueueReady_of_zero mmu d hv]
      exact { hi with }
    · rw [writeQueueReady_of_ne mmu d hv]
      exact { hi with
        queue := (forall_update_iff hi.queue d.vdev.queueSel _).mpr ((hi.queue _).ready _ _ _) }
  | notify v q hn =>
    have hq : ∀ q', QueueInv (d'.vdev.vq q') := by
      intro q'
      obtain ⟨h₁, h₂, h₃⟩ := vring_virtioQueueNotify hn q'
      exact (hi.queue q').congr h₁ h₂ h₃
    simp only [virtioQueueNotify] at hn
    split at hn
    · cases hn
      exact hi
    · split at hn
      · cases hn
      · cases hn
        exact { hi with queue := hq }
  | status v hs =>
    rcases writeStatus_eq_ok hs with ⟨-, -, rfl⟩ | ⟨-, rfl⟩
    · have ha : DeviceInv (d.accept (d.mmio.driverFeatures &&& d.vdev.hostFeatures)) :=
        { hi with }
      exact deviceInv_statusTail ha _
    · exact deviceInv_statusTail hi _
  | quiet o hq _ _ _ =>
    refine ⟨hq.hostFeatures.trans hi.hostFeatures, hq.generation.trans hi.generation,
      hq.deviceId.trans hi.deviceId, ?_, ?_, fun q => ?_⟩
    · rw [hq.vnet]
      exact hi.linkStatus
    · rw [hq.vnet]
      exact hi.config
    · rw [hq.vq]
      exact hi.queue q

theorem deviceInv_init (m : M) (shared : QIdx → RingMem) : DeviceInv (Dev.init m shared) :=
  ⟨rfl, rfl, rfl, rfl, rfl, fun _ =>
    ⟨rfl, rfl, virtioNetQueueDefaultSize_ne_zero, fun _ => ⟨rfl, rfl, rfl⟩,
      fun h0 => absurd rfl h0⟩⟩

end TrustedGateway
