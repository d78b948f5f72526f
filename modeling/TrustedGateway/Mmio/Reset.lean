import TrustedGateway.Mmio.DeviceInv

/-!
# What a reset leaves behind

A status write of zero resets the device, but not all of the register file: the feature
selectors, the feature words and the staged size and addresses of each queue stay, and so
do the mappings made for earlier set-ups.  `SameResidue` compares two devices by what of
this a later access can bring to light; `ObsEq` compares them by everything an access can
bring to light.
-/

namespace TrustedGateway

open StepSystem

variable {M : Type}

/-! ## Observations -/

/-- Address and pointers of both rings. -/
def Dev.setUps (d : Dev M) : QIdx → Word × Vring :=
  fun q => ((d.vdev.vq q).vringAddr, (d.vdev.vq q).vring)

/-- What a sequence of accesses shows: the answer and the queue set-ups after each access,
and the abort if there is one. -/
def observe (mmu : CoreMmu M) :
    Dev M → List Access → List (Option Word × (QIdx → Word × Vring)) × Option Abort
  | _, [] => ([], none)
  | d, a :: as =>
    match vnicEmuCheck mmu d a with
    | .error e => ([], some e)
    | .ok (v, d') => ((v, d'.setUps) :: (observe mmu d' as).1, (observe mmu d' as).2)

/-- The size a staged value stands for; with `none` the queue keeps the size it has. -/
def acceptedNum (n : Half) : Option ℕ :=
  if n.toNat = 0 ∨ vnicVqMaxSize < n.toNat then none else some n.toNat

/-- Two register records that lead to the same set-ups. -/
structure SameStaged (r₁ r₂ : MmioQueue) : Prop where
  num : acceptedNum r₁.num = acceptedNum r₂.num
  desc : r₁.desc.lo = r₂.desc.lo
  avail : r₁.avail.lo = r₂.avail.lo
  used : r₁.used.lo = r₂.used.lo

/-- Two devices agree on what a reset does not clear.  Of the feature words only the bit
that the version test really looks at can be noticed. -/
structure SameResidue (d₁ d₂ : Dev M) : Prop where
  mmu : d₁.mmu = d₂.mmu
  hostFeaturesSel : d₁.mmio.hostFeaturesSel = d₂.mmio.hostFeaturesSel
  guestFeaturesSel : d₁.mmio.guestFeaturesSel = d₂.mmio.guestFeaturesSel
  mac : (d₁.mmio.guestFeatures 0).getLsbD virtioNetFMac =
    (d₂.mmio.guestFeatures 0).getLsbD virtioNetFMac
  staged : ∀ q, SameStaged (d₁.mmio.vqs q) (d₂.mmio.vqs q)

/-- Two queues with the same ring. -/
structure SameRing (vq₁ vq₂ : Vqueue) : Prop where
  vring : vq₁.vring = vq₂.vring
  vringAddr : vq₁.vringAddr = vq₂.vringAddr
  vringAlign : vq₁.vringAlign = vq₂.vringAlign
  num : vq₁.vring.num ≠ 0
  numDefault : vq₁.vring.numDefault ≠ 0

/-- Two devices no access can tell apart. -/
structure ObsEq (d₁ d₂ : Dev M) : Prop extends SameResidue d₁ d₂ where
  enabled : ∀ q, (d₁.mmio.vqs q).enabled = (d₂.mmio.vqs q).enabled
  status : d₁.vdev.status = d₂.vdev.status
  isr : d₁.vdev.isr = d₂.vdev.isr
  queueSel : d₁.vdev.queueSel = d₂.vdev.queueSel
  hostFeatures : d₁.vdev.hostFeatures = d₂.vdev.hostFeatures
  generation : d₁.vdev.generation = d₂.vdev.generation
  deviceId : d₁.vdev.deviceId = d₂.vdev.deviceId
  config : virtioNetGetConfig d₁.vnet = virtioNetGetConfig d₂.vnet
  ring : ∀ q, SameRing (d₁.vdev.vq q) (d₂.vdev.vq q)

variable {d₁ d₂ : Dev M} {vq₁ vq₂ : Vqueue}

theorem ObsEq.setUps (h : ObsEq d₁ d₂) : d₁.setUps = d₂.setUps := by
  funext q
  simp only [Dev.setUps, (h.ring q).vring, (h.ring q).vringAddr]

/-- Two families that are related everywhere stay so when related members replace the
same one of each. -/
theorem forall_update₂ {α : Type} {R : α → α → Prop} {f g : QIdx → α}
    (h : ∀ q, R (f q) (g q)) (q : QIdx) {a b : α} (hab : R a b) :
    ∀ q', R (Function.update f q a q') (Function.update g q b q') := by
  intro q'
  by_cases hq : q' = q
  · subst hq
    simpa using hab
  · simpa [hq] using h q'

/-! ## Queues -/

theorem SameRing.setNum (h : SameRing vq₁ vq₂) (num : ℤ) :
    SameRing (virtioQueueSetNumVq vq₁ num) (virtioQueueSetNumVq vq₂ num) := by
  have hr : Resizes vq₂ num ↔ Resizes vq₁ num := by
    simp only [Resizes, queueNumRefused, h.vring]
  by_cases hn : Resizes vq₁ num
  · rw [virtioQueueSetNumVq_of_resizes hn, virtioQueueSetNumVq_of_resizes (hr.mpr hn)]
    exact ⟨by simp only [h.vring], h.vringAddr, h.vringAlign, hn.toNat.1.ne', h.numDefault⟩
  · rw [virtioQueueSetNumVq_of_not_resizes hn,
      virtioQueueSetNumVq_of_not_resizes (fun hn' => hn (hr.mp hn'))]
    exact h

/-- On a queue that exists, a staged size does what `acceptedNum` says. -/
theorem virtioQueueSetNumVq_staged {vq : Vqueue} (h : vq.vring.num ≠ 0) (n : Half) :
    virtioQueueSetNumVq vq n.toNat =
      { vq with vring := { vq.vring with num := (acceptedNum n).getD vq.vring.num } } := by
  by_cases hn : n.toNat = 0 ∨ vnicVqMaxSize < n.toNat
  · have hr : queueNumRefused vq n.toNat := by
      simp only [queueNumRefused, h, iff_false]
      omega
    rw [virtioQueueSetNumVq, if_pos hr, acceptedNum, if_pos hn]
    rfl
  · have hr : ¬ queueNumRefused vq n.toNat := by
      simp only [queueNumRefused, h, iff_false]
      omega
    rw [virtioQueueSetNumVq, if_neg hr, acceptedNum, if_neg hn]
    rfl

theorem SameRing.setStagedNum {n₁ n₂ : Half} (h : SameRing vq₁ vq₂)
    (hn : acceptedNum n₁ = acceptedNum n₂) :
    SameRing (virtioQueueSetNumVq vq₁ n₁.toNat) (virtioQueueSetNumVq vq₂ n₂.toNat) := by
  have h₂ : vq₂.vring.num ≠ 0 := h.vring ▸ h.num
  have hs := h.setNum n₁.toNat
  have he : virtioQueueSetNumVq vq₂ n₁.toNat = virtioQueueSetNumVq vq₂ n₂.toNat := by
    rw [virtioQueueSetNumVq_staged h₂, virtioQueueSetNumVq_staged h₂, hn]
  rwa [he] at hs

theorem SameRing.setup (h : SameRing vq₁ vq₂) (mmu : CoreMmu M) (m : M)
    (descPa availPa usedPa : Word) :
    SameRing (vqueueVringSetup mmu m vq₁ descPa availPa usedPa).2.1
        (vqueueVringSetup mmu m vq₂ descPa availPa usedPa).2.1 ∧
      setupMmu mmu m vq₁ descPa = setupMmu mmu m vq₂ descPa := by
  have hm : setupMmu mmu m vq₁ descPa = setupMmu mmu m vq₂ descPa := by
    simp only [setupMmu, h.vring, h.vringAlign]
  have ha : setupVaddr mmu m vq₁ descPa = setupVaddr mmu m vq₂ descPa := by
    simp only [setupVaddr, h.vring, h.vringAlign]
  refine ⟨?_, hm⟩
  by_cases hv : setupVaddr mmu m vq₁ descPa = 0
  · rw [vqueueVringSetup_of_unmapped hv, vqueueVringSetup_of_unmapped (ha ▸ hv)]
    exact ⟨h.vring, h.vringAddr, h.vringAlign, h.num, h.numDefault⟩
  · by_cases hl : RingLayoutOk mmu (setupMmu mmu m vq₁ descPa) (setupVaddr mmu m vq₁ descPa)
        vq₁.vring.num vq₁.vringAlign availPa usedPa
    · rw [vqueueVringSetup_of_ok hv hl, vqueueVringSetup_of_ok (ha ▸ hv)
        (by rw [← hm, ← ha, ← h.vring, ← h.vringAlign]; exact hl)]
      exact ⟨by simp only [ha, h.vring, h.vringAlign], ha, h.vringAlign, h.num, h.numDefault⟩
    · rw [vqueueVringSetup_of_mismatch hv hl, vqueueVringSetup_of_mismatch (ha ▸ hv)
        (by rw [← hm, ← ha, ← h.vring, ← h.vringAlign]; exact hl)]
      exact ⟨by simp only [h.vring], rfl, h.vringAlign, h.num, h.numDefault⟩

/-- Enabling queues with the same ring from registers that stage the same. -/
theorem SameRing.ready {r₁ r₂ : MmioQueue} (h : SameRing vq₁ vq₂) (mmu : CoreMmu M) (m : M)
    (hr : SameStaged r₁ r₂) :
    SameRing (readyVq mmu m vq₁ r₁) (readyVq mmu m vq₂ r₂) ∧
      readyMmu mmu m vq₁ r₁ = readyMmu mmu m vq₂ r₂ := by
  have hs := h.setStagedNum hr.num
  have hn₂ : (virtioQueueSetNumVq vq₂ r₂.num.toNat).vring.num ≠ 0 := hs.vring ▸ hs.num
  simp only [readyVq, readyMmu, if_neg hs.num, if_neg hn₂, RegPair.paddr_eq, hr.desc, hr.avail,
    hr.used]
  exact hs.setup mmu m _ _ _

theorem SameRing.reset (h : SameRing vq₁ vq₂) :
    SameRing (virtioResetVq vq₁) (virtioResetVq vq₂) := by
  have h₂ : vq₂.vringAddr = vq₁.vringAddr := h.vringAddr.symm
  by_cases h0 : vq₁.vringAddr = 0
  · simp only [virtioResetVq, vqueueVringTeardown, h₂, if_pos h0]
    exact ⟨by simp only [h.vring], rfl, h.vringAlign, h.numDefault, h.numDefault⟩
  · simp only [virtioResetVq, vqueueVringTeardown, h₂, if_neg h0]
    exact ⟨by simp only [h.vring], rfl, h.vringAlign, h.numDefault, h.numDefault⟩

/-! ## Writes -/

theorem ObsEq.updMmioQueue (h : ObsEq d₁ d₂) {f : MmioQueue → MmioQueue}
    (hf : ∀ r₁ r₂, SameStaged r₁ r₂ → r₁.enabled = r₂.enabled →
      SameStaged (f r₁) (f r₂) ∧ (f r₁).enabled = (f r₂).enabled) :
    ObsEq (d₁.updMmioQueue f) (d₂.updMmioQueue f) := by
  have hq := forall_update₂ (R := fun r₁ r₂ => SameStaged r₁ r₂ ∧ r₁.enabled = r₂.enabled)
    (fun q => ⟨h.staged q, h.enabled q⟩) d₂.vdev.queueSel
    (hf _ _ (h.staged d₂.vdev.queueSel) (h.enabled d₂.vdev.queueSel))
  simp only [Dev.updMmioQueue, h.queueSel]
  exact { h with
    staged := fun q => (hq q).1
    enabled := fun q => (hq q).2 }

theorem ObsEq.statusTail (h : ObsEq d₁ d₂) (s : Byte) :
    ObsEq (statusTail d₁ s) (statusTail d₂ s) := by
  obtain ⟨b₁, hb₁⟩ := statusTail_eq d₁ s
  obtain ⟨b₂, hb₂⟩ := statusTail_eq d₂ s
  rw [hb₁, hb₂]
  by_cases h0 : s = 0
  · simp only [if_pos h0]
    exact { h with
      staged := fun q =>
        ⟨(h.staged q).num, (h.staged q).desc, (h.staged q).avail, (h.staged q).used⟩
      enabled := fun _ => rfl
      status := rfl
      isr := rfl
      queueSel := rfl
      ring := fun q => (h.ring q).reset }
  · simp only [if_neg h0]
    exact { h with status := rfl }

/-- The version test of the source looks at one bit of the low feature word. -/
theorem offered_and_iff (r : Mmio) (host : BitVec 64) :
    (r.driverFeatures &&& host) &&& BitVec.ofNat 64 virtioFVersion1 = 0 ↔
      ((r.guestFeatures 0).getLsbD virtioNetFMac && host.getLsbD virtioNetFMac) = false := by
  have h32 : BitVec.ofNat 64 virtioFVersion1 = BitVec.twoPow 64 virtioNetFMac := by decide
  have hbit : r.driverFeatures.getLsbD virtioNetFMac =
      (r.guestFeatures 0).getLsbD virtioNetFMac := by
    simp [Mmio.driverFeatures, virtioNetFMac]
  rw [h32, BitVec.and_twoPow, BitVec.getLsbD_and, hbit]
  cases (r.guestFeatures 0).getLsbD virtioNetFMac && host.getLsbD virtioNetFMac
  · simp
  · simp only [if_true, iff_false, Bool.true_eq_false]
    decide

section

variable (h : ObsEq d₁ d₂)
include h

theorem ObsEq.writeStatus (v : Word) : SameEnd ObsEq (writeStatus d₁ v) (writeStatus d₂ v) := by
  by_cases hv : v.setWidth 8 &&& virtioConfigSFeaturesOk ≠ 0
  · simp only [TrustedGateway.writeStatus, if_pos hv, virtioSetFeatures, h.status]
    by_cases hs : d₂.vdev.status &&& virtioConfigSFeaturesOk ≠ 0
    · simp only [if_pos hs]
      exact h.statusTail _
    · simp only [if_neg hs, virtioSetFeaturesNocheck]
      have hiff : (d₁.mmio.driverFeatures &&& d₁.vdev.hostFeatures) &&&
            BitVec.ofNat 64 virtioFVersion1 = 0 ↔
          (d₂.mmio.driverFeatures &&& d₂.vdev.hostFeatures) &&&
            BitVec.ofNat 64 virtioFVersion1 = 0 := by
        rw [offered_and_iff, offered_and_iff, h.mac, h.hostFeatures]
      by_cases ha : (d₂.mmio.driverFeatures &&& d₂.vdev.hostFeatures) &&&
            BitVec.ofNat 64 virtioFVersion1 = 0
      · simp only [ne_eq, hiff.mpr ha, ha, not_true, if_false]
        rfl
      · have ha₁ : ¬ (d₁.mmio.driverFeatures &&& d₁.vdev.hostFeatures) &&&
            BitVec.ofNat 64 virtioFVersion1 = 0 := fun ha₁ => ha (hiff.mp ha₁)
        simp only [ne_eq, ha₁, ha, not_false_eq_true, if_true]
        refine ObsEq.statusTail ?_ _
        exact { h with }
  · simp only [TrustedGateway.writeStatus, if_neg hv]
    exact h.statusTail _

theorem ObsEq.queueNotify (q : QIdx) :
    SameEnd ObsEq (virtioQueueNotify d₁ q) (virtioQueueNotify d₂ q) := by
  have hr := h.ring q
  by_cases h0 : (d₂.vdev.vq q).vringAddr = 0
  · simp only [virtioQueueNotify, hr.vringAddr, if_pos h0]
    exact h
  · simp only [virtioQueueNotify, vqueueNapiSignalAvail, Vqueue.setUsedFlags, hr.vringAddr,
      if_neg h0, hr.vring]
    by_cases hu : (d₂.vdev.vq q).vring.used = 0
    · simp only [if_pos hu]
      rfl
    · simp only [if_neg hu]
      exact { h with
        ring := forall_update₂ h.ring q
          ⟨rfl, rfl, hr.vringAlign, hr.vring ▸ hr.num, hr.vring ▸ hr.numDefault⟩ }

theorem ObsEq.configWrite (offset : ℕ) (v : Word) (size : ℕ) :
    SameEnd ObsEq (virtioConfigWrite d₁ offset v size) (virtioConfigWrite d₂ offset v size) := by
  simp only [virtioConfigWrite]
  split
  · exact h
  · split
    · exact { h with }
    · rfl

theorem ObsEq.queueNum (v : Word) :
    ObsEq ((virtioQueueSetNum d₁ d₁.vdev.queueSel v.toInt).updMmioQueue
        ({ · with num := v.setWidth 16 }))
      ((virtioQueueSetNum d₂ d₂.vdev.queueSel v.toInt).updMmioQueue
        ({ · with num := v.setWidth 16 })) := by
  refine ObsEq.updMmioQueue ?_ fun r₁ r₂ hr he => ⟨⟨rfl, hr.desc, hr.avail, hr.used⟩, he⟩
  simp only [virtioQueueSetNum, Dev.setVq, h.queueSel]
  exact { h with queueSel := rfl, ring := forall_update₂ h.ring _ ((h.ring _).setNum _) }

theorem ObsEq.queueReady (mmu : CoreMmu M) (v : Word) :
    ObsEq (writeQueueReady mmu d₁ v) (writeQueueReady mmu d₂ v) := by
  have hen : ∀ b, ∀ r₁ r₂ : MmioQueue, SameStaged r₁ r₂ → r₁.enabled = r₂.enabled →
      SameStaged { r₁ with enabled := b } { r₂ with enabled := b } ∧ b = b :=
    fun b r₁ r₂ hr _ => ⟨⟨hr.num, hr.desc, hr.avail, hr.used⟩, rfl⟩
  by_cases hv : v = 0
  · rw [writeQueueReady_of_zero mmu d₁ hv, writeQueueReady_of_zero mmu d₂ hv]
    exact h.updMmioQueue (hen false)
  · rw [writeQueueReady_of_ne mmu d₁ hv, writeQueueReady_of_ne mmu d₂ hv]
    refine ObsEq.updMmioQueue ?_ (hen true)
    simp only [h.queueSel, h.mmu]
    have hr := (h.ring d₂.vdev.queueSel).ready mmu d₂.mmu (h.staged d₂.vdev.queueSel)
    exact { h with mmu := hr.2, queueSel := rfl, ring := forall_update₂ h.ring _ hr.1 }

theorem ObsEq.driverFeatures (v : Word) :
    (Function.update d₁.mmio.guestFeatures d₁.mmio.guestFeaturesSel v 0).getLsbD virtioNetFMac =
      (Function.update d₂.mmio.guestFeatures d₂.mmio.guestFeaturesSel v 0).getLsbD
        virtioNetFMac := by
  rw [h.guestFeaturesSel]
  by_cases h0 : (0 : Fin 2) = d₂.mmio.guestFeaturesSel
  · rw [← h0, Function.update_self, Function.update_self]
  · rw [Function.update_of_ne h0, Function.update_of_ne h0, h.mac]

theorem ObsEq.kickNw : ObsEq (vnicKickNw d₁) (vnicKickNw d₂) := by
  simp only [vnicKickNw, h.isr]
  split
  · exact h
  · exact { h with }

/-- A write ends alike on devices that look alike. -/
theorem ObsEq.mmioWrite (mmu : CoreMmu M) (offset value : Word) (size : ℕ) :
    SameEnd ObsEq (vnicHandleMmioWrite mmu d₁ offset value size)
      (vnicHandleMmioWrite mmu d₂ offset value size) := by
  simp only [vnicHandleMmioWrite]
  by_cases hc : virtioMmioConfig ≤ offset
  · simp only [if_pos hc]
    exact h.configWrite _ _ _
  · simp only [if_neg hc]
    by_cases hs : size = 4
    · simp only [hs, ne_eq, not_true, if_false]
      cases ho : Reg.ofOffset offset with
      | none => exact h
      | some r =>
        cases r
        case status => exact h.writeStatus value
        case queueReady => exact h.queueReady mmu value
        case queueNum => exact h.queueNum value
        case deviceFeaturesSel => exact { h with hostFeaturesSel := rfl }
        case driverFeatures => exact { h with mac := h.driverFeatures value }
        case driverFeaturesSel => exact { h with guestFeaturesSel := rfl }
        case interruptAck =>
          refine ObsEq.kickNw ?_
          exact { h with isr := by simp only [h.isr] }
        case queueSel =>
          dsimp only
          split
          · exact { h with queueSel := rfl }
          · exact h
        case queueNotify =>
          dsimp only
          split
          · exact h.queueNotify _
          · exact h
        case queueDescLow =>
          exact h.updMmioQueue fun _ _ hr he => ⟨⟨hr.num, rfl, hr.avail, hr.used⟩, he⟩
        case queueDescHigh =>
          exact h.updMmioQueue fun _ _ hr he => ⟨⟨hr.num, hr.desc, hr.avail, hr.used⟩, he⟩
        case queueAvailLow =>
          exact h.updMmioQueue fun _ _ hr he => ⟨⟨hr.num, hr.desc, rfl, hr.used⟩, he⟩
        case queueAvailHigh =>
          exact h.updMmioQueue fun _ _ hr he => ⟨⟨hr.num, hr.desc, hr.avail, hr.used⟩, he⟩
        case queueUsedLow =>
          exact h.updMmioQueue fun _ _ hr he => ⟨⟨hr.num, hr.desc, hr.avail, rfl⟩, he⟩
        case queueUsedHigh =>
          exact h.updMmioQueue fun _ _ hr he => ⟨⟨hr.num, hr.desc, hr.avail, hr.used⟩, he⟩
        all_goals exact h
    · simp only [ne_eq, hs, not_false_eq_true, if_true]
      exact h

/-! ## Reads -/

/-- The configuration space is refreshed before it is read, so nothing that was written to
it comes back. -/
theorem ObsEq.configRead (offset size : ℕ) (ho : offset + 4 < 2 ^ 32) :
    SameEnd (SameTag ObsEq) (virtioConfigRead d₁ offset size)
      (virtioConfigRead d₂ offset size) := by
  by_cases hlen : configLen < addSize offset size
  · simp only [virtioConfigRead, if_pos hlen]
    exact ⟨rfl, h⟩
  · simp only [virtioConfigRead, if_neg hlen, h.config]
    have hfresh : ∀ k, offset + k < configLen → ∀ old : Byte,
        (if offset + k < configLen then virtioNetGetConfig d₂.vnet (offset + k) else old) =
          virtioNetGetConfig d₂.vnet (offset + k) := fun k hk _ => if_pos hk
    simp only [addSize, configLen] at hlen hfresh ⊢
    split
    · rw [hfresh 0 (by omega), hfresh 0 (by omega)]
      exact ⟨rfl, { h with }⟩
    · rw [hfresh 0 (by omega), hfresh 0 (by omega), hfresh 1 (by omega), hfresh 1 (by omega)]
      exact ⟨rfl, { h with }⟩
    · rw [hfresh 0 (by omega), hfresh 0 (by omega), hfresh 1 (by omega), hfresh 1 (by omega),
        hfresh 2 (by omega), hfresh 2 (by omega), hfresh 3 (by omega), hfresh 3 (by omega)]
      exact ⟨rfl, { h with }⟩
    · rfl

/-- A read answers alike on devices that look alike. -/
theorem ObsEq.mmioRead (offset : Word) (size : ℕ) :
    SameEnd (SameTag ObsEq) (vnicHandleMmioRead d₁ offset size)
      (vnicHandleMmioRead d₂ offset size) := by
  simp only [vnicHandleMmioRead]
  by_cases hc : virtioMmioConfig ≤ offset
  · simp only [if_pos hc]
    refine h.configRead _ _ ?_
    rw [BitVec.toNat_sub_of_le hc]
    have hlt := offset.isLt
    have hbase : virtioMmioConfig.toNat = 256 := rfl
    omega
  · simp only [if_neg hc]
    by_cases hs : size = 4
    · simp only [hs, ne_eq, not_true, if_false]
      cases ho : Reg.ofOffset offset with
      | none => exact ⟨rfl, h⟩
      | some r =>
        cases r
        case deviceId => exact ⟨by simp only [h.deviceId], h⟩
        case deviceFeatures => exact ⟨by simp only [h.hostFeatures, h.hostFeaturesSel], h⟩
        case queueNumMax =>
          simp only [h.queueSel, (h.ring d₂.vdev.queueSel).vring]
          split <;> exact ⟨rfl, h⟩
        case queueReady =>
          exact ⟨by simp only [h.queueSel, h.enabled], h⟩
        case interruptStatus => exact ⟨by simp only [h.isr], h⟩
        case status => exact ⟨by simp only [h.status], h⟩
        case configGeneration => exact ⟨h.generation, h⟩
        all_goals exact ⟨rfl, h⟩
    · simp only [ne_eq, hs, not_false_eq_true, if_true]
      exact ⟨rfl, h⟩

/-- **An access answers alike on devices that look alike**, and they still do
afterwards. -/
theorem sameEnd_vnicEmuCheck (mmu : CoreMmu M) (a : Access) :
    SameEnd (SameTag ObsEq) (vnicEmuCheck mmu d₁ a) (vnicEmuCheck mmu d₂ a) := by
  cases a with
  | write offset value size =>
    have hw := h.mmioWrite mmu offset value size
    simp only [vnicEmuCheck]
    cases h₁ : vnicHandleMmioWrite mmu d₁ offset value size <;>
      cases h₂ : vnicHandleMmioWrite mmu d₂ offset value size <;>
      simp only [h₁, h₂, SameEnd] at hw ⊢
    · exact hw
    · exact ⟨rfl, hw⟩
  | read offset size sign =>
    simp only [vnicEmuCheck]
    by_cases hs : size = 1 ∨ size = 2 ∨ size = 4
    · have hr := h.mmioRead offset size
      simp only [if_pos hs]
      cases h₁ : vnicHandleMmioRead d₁ offset size <;>
        cases h₂ : vnicHandleMmioRead d₂ offset size <;>
        simp only [h₁, h₂, SameEnd] at hr ⊢
      · exact hr
      · exact ⟨by simp only [hr.1], hr.2⟩
    · simp only [if_neg hs]
      rfl

end

theorem observe_eq_of_obsEq (mmu : CoreMmu M) (as : List Access) (h : ObsEq d₁ d₂) :
    observe mmu d₁ as = observe mmu d₂ as := by
  induction as generalizing d₁ d₂ with
  | nil => rfl
  | cons a as ih =>
    have hs := sameEnd_vnicEmuCheck h mmu a
    simp only [observe]
    rcases h₁ : vnicEmuCheck mmu d₁ a with e₁ | ⟨v₁, d₁'⟩ <;>
      rcases h₂ : vnicEmuCheck mmu d₂ a with e₂ | ⟨v₂, d₂'⟩ <;>
      simp only [h₁, h₂, SameEnd, SameTag] at hs ⊢
    · rw [hs]
    · rw [hs.1, hs.2.setUps, ih hs.2]

/-! ## Resets -/

/-- A device in which nothing is set up, selected or pending. -/
structure Blank (d : Dev M) : Prop where
  enabled : ∀ q, (d.mmio.vqs q).enabled = false
  status : d.vdev.status = 0
  isr : d.vdev.isr = 0
  queueSel : d.vdev.queueSel = 0
  vringAddr : ∀ q, (d.vdev.vq q).vringAddr = 0
  vring : ∀ q, (d.vdev.vq q).vring =
    ⟨virtioNetQueueDefaultSize, virtioNetQueueDefaultSize, 0, 0, 0⟩

theorem blank_init (m : M) (shared : QIdx → RingMem) : Blank (Dev.init m shared) :=
  ⟨fun _ => rfl, rfl, rfl, rfl, fun _ => rfl, fun _ => rfl⟩

theorem blank_reset {d : Dev M} (h : DeviceInv d) : Blank (statusTail d 0) := by
  obtain ⟨b, hb⟩ := statusTail_eq d 0
  rw [hb]
  refine ⟨fun _ => rfl, rfl, rfl, rfl, fun q => ?_, fun q => ?_⟩ <;>
    simp only [if_true, (h.queue q).virtioResetVq_eq]

/-- Blank devices with the same residue look alike. -/
theorem obsEq_of_blank (hi₁ : DeviceInv d₁) (hi₂ : DeviceInv d₂) (h₁ : Blank d₁) (h₂ : Blank d₂)
    (hr : SameResidue d₁ d₂) : ObsEq d₁ d₂ :=
  { hr with
    enabled := fun q => (h₁.enabled q).trans (h₂.enabled q).symm
    status := h₁.status.trans h₂.status.symm
    isr := h₁.isr.trans h₂.isr.symm
    queueSel := h₁.queueSel.trans h₂.queueSel.symm
    hostFeatures := hi₁.hostFeatures.trans hi₂.hostFeatures.symm
    generation := hi₁.generation.trans hi₂.generation.symm
    deviceId := hi₁.deviceId.trans hi₂.deviceId.symm
    config := hi₁.config.trans hi₂.config.symm
    ring := fun q =>
      { vring := (h₁.vring q).trans (h₂.vring q).symm
        vringAddr := (h₁.vringAddr q).trans (h₂.vringAddr q).symm
        vringAlign := (hi₁.queue q).align.trans (hi₂.queue q).align.symm
        num := (hi₁.queue q).num
        numDefault := (hi₁.queue q).numDefault.trans_ne virtioNetQueueDefaultSize_ne_zero } }

/-- A reset keeps the residue. -/
theorem SameResidue.reset_left (h : SameResidue d₁ d₂) : SameResidue (statusTail d₁ 0) d₂ := by
  obtain ⟨b, hb⟩ := statusTail_eq d₁ 0
  rw [hb]
  exact { h with
    staged := fun q =>
      ⟨(h.staged q).num, (h.staged q).desc, (h.staged q).avail, (h.staged q).used⟩ }

theorem SameResidue.reset_right (h : SameResidue d₁ d₂) : SameResidue d₁ (statusTail d₂ 0) := by
  obtain ⟨b, hb⟩ := statusTail_eq d₂ 0
  rw [hb]
  exact { h with
    staged := fun q =>
      ⟨(h.staged q).num, (h.staged q).desc, (h.staged q).avail, (h.staged q).used⟩ }

/-- A status write of zero is a reset and nothing else. -/
theorem mmioStep_status_zero (mmu : CoreMmu M) (d : Dev M) :
    mmioStep mmu d (.toReg .status 0) = .ok (statusTail d 0) := by
  simp only [mmioStep, vnicEmuCheck, vnicHandleMmioWrite, if_neg (Reg.offset_lt _),
    Reg.ofOffset_offset, ne_eq, not_true, if_false, writeStatus]
  rfl

theorem deviceInv_of_run {mmu : CoreMmu M} {m : M} {shared : QIdx → RingMem}
    {as : List Access} {d : Dev M} (h : MmioRun mmu (Dev.init m shared) as d) : DeviceInv d :=
  h.inv (fun _ _ _ hi _ hs => deviceInv_mmioStep hi hs) (deviceInv_init m shared)

/-- **Reset and the residue.**  Two histories that end in a reset and had the same residue
before it cannot be told apart by any further accesses; and if the residue was that of a
fresh device, the device cannot be told from that one. -/
theorem observe_eq_of_sameResidue (mmu : CoreMmu M) (m₁ m₂ : M) (shared₁ shared₂ : QIdx → RingMem)
    (as₁ as₂ : List Access) (d₁ d₂ e₁ e₂ : Dev M)
    (h₁ : MmioRun mmu (Dev.init m₁ shared₁) as₁ d₁) (h₂ : MmioRun mmu (Dev.init m₂ shared₂) as₂ d₂)
    (hr₁ : mmioStep mmu d₁ (.toReg .status 0) = .ok e₁)
    (hr₂ : mmioStep mmu d₂ (.toReg .status 0) = .ok e₂) :
    (SameResidue d₁ d₂ → ∀ as, observe mmu e₁ as = observe mmu e₂ as) ∧
      ∀ m shared, SameResidue d₁ (Dev.init m shared) →
        ∀ as, observe mmu e₁ as = observe mmu (Dev.init m shared) as := by
  rw [mmioStep_status_zero] at hr₁ hr₂
  cases hr₁
  cases hr₂
  have hi₁ := deviceInv_of_run h₁
  have hi₂ := deviceInv_of_run h₂
  refine ⟨fun hr as => ?_, fun m shared hr as => ?_⟩
  · exact observe_eq_of_obsEq mmu as (obsEq_of_blank (deviceInv_statusTail hi₁ 0)
      (deviceInv_statusTail hi₂ 0) (blank_reset hi₁) (blank_reset hi₂) hr.reset_left.reset_right)
  · exact observe_eq_of_obsEq mmu as (obsEq_of_blank (deviceInv_statusTail hi₁ 0)
      (deviceInv_init m shared) (blank_reset hi₁) (blank_init m shared) hr.reset_left)

/-- A driver that was started and has acknowledged its interrupts leaves a fresh device
behind when it resets. -/
theorem observe_eq_of_started :
    ∃ d e, MmioRun flatMmu (Dev.init () fun _ => .zero)
        [.toReg .status 3, .toReg .queueSel 1, .toReg .interruptAck 1] d ∧
      mmioStep flatMmu d (.toReg .status 0) = .ok e ∧
      ∀ as, observe flatMmu e as = observe flatMmu (Dev.init () fun _ => .zero) as := by
  refine ⟨_, _, .cons trivial rfl (.cons trivial rfl (.cons trivial rfl (.nil _))),
    mmioStep_status_zero _ _, ?_⟩
  refine (observe_eq_of_sameResidue flatMmu () () (fun _ => .zero) (fun _ => .zero)
    [.toReg .status 3, .toReg .queueSel 1, .toReg .interruptAck 1] [] _ _ _ _
    (.cons trivial rfl (.cons trivial rfl (.cons trivial rfl (.nil _)))) (.nil _)
    (mmioStep_status_zero _ _) (mmioStep_status_zero _ _)).2 () (fun _ => .zero) ?_
  exact ⟨rfl, rfl, rfl, rfl, fun _ => ⟨rfl, rfl, rfl, rfl⟩⟩

/-- After a reset, `QUEUE_READY` alone brings back the ring of the previous driver; on a
device without that history it does not. -/
theorem not_observe_eq_of_staged_addresses :
    ¬ ∀ as₁ as₂ e₁ e₂,
      MmioRun flatMmu (Dev.init () fun _ => .zero) (as₁ ++ [.toReg .status 0]) e₁ →
      MmioRun flatMmu (Dev.init () fun _ => .zero) (as₂ ++ [.toReg .status 0]) e₂ →
      ∀ as, observe flatMmu e₁ as = observe flatMmu e₂ as := by
  intro h
  obtain ⟨e₁, hr₁, ho₁⟩ : ∃ e, MmioRun flatMmu (Dev.init () fun _ => .zero)
      (setUpQueue ++ [.toReg .status 0]) e ∧
      (observe flatMmu e [.toReg .queueReady 1]).1.map (fun p => (p.2 0).1) = [0x10000000] :=
    exists_run_of_exec (by decide)
  obtain ⟨e₂, hr₂, ho₂⟩ : ∃ e, MmioRun flatMmu (Dev.init () fun _ => .zero)
      ([] ++ [.toReg .status 0]) e ∧
      (observe flatMmu e [.toReg .queueReady 1]).1.map (fun p => (p.2 0).1) = [0] :=
    exists_run_of_exec (by decide)
  have heq := h setUpQueue [] e₁ e₂ hr₁ hr₂ [.toReg .queueReady 1]
  rw [heq, ho₂] at ho₁
  exact absurd ho₁ (by decide)

end TrustedGateway
