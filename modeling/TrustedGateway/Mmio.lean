import TrustedGateway.Lib.Run
import TrustedGateway.Virtio

/-!
# The MMIO transport

The register file the normal world drives the device through (`virtio-mmio.c`).  An
offset is decoded into a register once, by `Reg.ofOffset`; the handlers then are case
distinctions over registers.

## Main definitions

* `Reg`, `Reg.ofOffset` — the registers and their offsets.
* `vnicHandleMmioWrite`, `vnicHandleMmioRead`, `vnicEmuCheck` — the handlers.
* `Access`, `mmioStep` — one trapped access as a step of the device.
-/

namespace TrustedGateway

open StepSystem

/-- The registers of `virtio_mmio.h` below the configuration space. -/
inductive Reg
  | magicValue | version | deviceId | vendorId
  | deviceFeatures | deviceFeaturesSel | driverFeatures | driverFeaturesSel
  | guestPageSize | queueSel | queueNumMax | queueNum | queueAlign | queuePfn
  | queueReady | queueNotify | interruptStatus | interruptAck | status
  | queueDescLow | queueDescHigh | queueAvailLow | queueAvailHigh
  | queueUsedLow | queueUsedHigh | configGeneration
  deriving DecidableEq, Repr

/-- `VIRTIO_MMIO_CONFIG`. -/
def virtioMmioConfig : Word := 0x100

namespace Reg

/-- The offset of a register. -/
def offset : Reg → Word
  | magicValue => 0x000 | version => 0x004 | deviceId => 0x008 | vendorId => 0x00c
  | deviceFeatures => 0x010 | deviceFeaturesSel => 0x014
  | driverFeatures => 0x020 | driverFeaturesSel => 0x024
  | guestPageSize => 0x028 | queueSel => 0x030 | queueNumMax => 0x034 | queueNum => 0x038
  | queueAlign => 0x03c | queuePfn => 0x040 | queueReady => 0x044 | queueNotify => 0x050
  | interruptStatus => 0x060 | interruptAck => 0x064 | status => 0x070
  | queueDescLow => 0x080 | queueDescHigh => 0x084
  | queueAvailLow => 0x090 | queueAvailHigh => 0x094
  | queueUsedLow => 0x0a0 | queueUsedHigh => 0x0a4 | configGeneration => 0x0fc

def all : List Reg :=
  [magicValue, version, deviceId, vendorId, deviceFeatures, deviceFeaturesSel,
    driverFeatures, driverFeaturesSel, guestPageSize, queueSel, queueNumMax, queueNum,
    queueAlign, queuePfn, queueReady, queueNotify, interruptStatus, interruptAck, status,
    queueDescLow, queueDescHigh, queueAvailLow, queueAvailHigh, queueUsedLow,
    queueUsedHigh, configGeneration]

/-- The register at an offset; other offsets below the configuration space are
invalid. -/
def ofOffset (off : Word) : Option Reg := all.find? fun r => r.offset = off

@[simp] theorem ofOffset_offset (r : Reg) : ofOffset r.offset = some r := by
  cases r <;> decide

theorem offset_of_ofOffset {off : Word} {r : Reg} (h : ofOffset off = some r) :
    off = r.offset := by
  have := List.find?_some h
  exact (of_decide_eq_true this).symm

theorem offset_lt (r : Reg) : ¬ virtioMmioConfig ≤ r.offset := by
  cases r <;> decide

end Reg

variable {M : Type}

/-! ## Writes -/

/-- Update the transport's record of the selected queue. -/
def Dev.updMmioQueue (d : Dev M) (f : MmioQueue → MmioQueue) : Dev M :=
  { d with mmio := { d.mmio with
    vqs := Function.update d.mmio.vqs d.vdev.queueSel (f (d.mmio.vqs d.vdev.queueSel)) } }

/-- `virtio_mmio_soft_reset`. -/
def virtioMmioSoftReset (d : Dev M) : Dev M :=
  { d with mmio := { d.mmio with vqs := fun q => { d.mmio.vqs q with enabled := false } } }

/-- The `VIRTIO_MMIO_QUEUE_READY` case. -/
def writeQueueReady (mmu : CoreMmu M) (d : Dev M) (value : Word) : Dev M :=
  if value ≠ 0 then
    let q := d.vdev.queueSel
    let r := d.mmio.vqs q
    let d := virtioQueueSetNum d q (r.num.toNat : ℤ)
    let d := virtioQueueSetRings mmu d q r.desc.paddr r.avail.paddr r.used.paddr
    d.updMmioQueue ({ · with enabled := true })
  else d.updMmioQueue ({ · with enabled := false })

/-- The feature word the driver has written so far. -/
def Mmio.driverFeatures (r : Mmio) : BitVec 64 :=
  (r.guestFeatures 1).setWidth 64 <<< 32 ||| (r.guestFeatures 0).setWidth 64

/-- The end of the `VIRTIO_MMIO_STATUS` case: set the status, and reset if it is zero. -/
def statusTail (d : Dev M) (s : Byte) : Dev M :=
  if (virtioSetStatus d s).vdev.status = 0 then
    virtioMmioSoftReset (virtioReset (virtioSetStatus d s))
  else virtioSetStatus d s

/-- The `VIRTIO_MMIO_STATUS` case. -/
def writeStatus (d : Dev M) (value : Word) : Except Abort (Dev M) :=
  if value.setWidth 8 &&& virtioConfigSFeaturesOk ≠ 0 then
    match virtioSetFeatures d d.mmio.driverFeatures with
    | .error a => .error a
    | .ok (_, d) => .ok (statusTail d (value.setWidth 8))
  else .ok (statusTail d (value.setWidth 8))

/-- `vnic_handle_mmio_write`. -/
def vnicHandleMmioWrite (mmu : CoreMmu M) (d : Dev M) (offset value : Word) (size : ℕ) :
    Except Abort (Dev M) :=
  if virtioMmioConfig ≤ offset then
    virtioConfigWrite d (offset - virtioMmioConfig).toNat value size
  else if size ≠ 4 then .ok d
  else
    match Reg.ofOffset offset with
    | some .deviceFeaturesSel =>
      .ok { d with mmio := { d.mmio with hostFeaturesSel := if value ≠ 0 then 1 else 0 } }
    | some .driverFeatures =>
      .ok { d with mmio := { d.mmio with
        guestFeatures := Function.update d.mmio.guestFeatures d.mmio.guestFeaturesSel value } }
    | some .driverFeaturesSel =>
      .ok { d with mmio := { d.mmio with guestFeaturesSel := if value ≠ 0 then 1 else 0 } }
    | some .queueSel =>
      if h : value.toNat < 2 then
        .ok { d with vdev := { d.vdev with queueSel := ⟨value.toNat, h⟩ } }
      else .ok d
    | some .queueNum =>
      let d := virtioQueueSetNum d d.vdev.queueSel value.toInt
      .ok (d.updMmioQueue ({ · with num := value.setWidth 16 }))
    | some .queueReady => .ok (writeQueueReady mmu d value)
    | some .queueNotify =>
      if h : value.toNat < 2 then virtioQueueNotify d ⟨value.toNat, h⟩ else .ok d
    | some .interruptAck =>
      .ok (vnicKickNw { d with vdev := { d.vdev with
        isr := d.vdev.isr &&& ~~~(value.setWidth 8) } })
    | some .status => writeStatus d value
    | some .queueDescLow =>
      .ok (d.updMmioQueue fun r => { r with desc := { r.desc with lo := value } })
    | some .queueDescHigh =>
      .ok (d.updMmioQueue fun r => { r with desc := { r.desc with hi := value } })
    | some .queueAvailLow =>
      .ok (d.updMmioQueue fun r => { r with avail := { r.avail with lo := value } })
    | some .queueAvailHigh =>
      .ok (d.updMmioQueue fun r => { r with avail := { r.avail with hi := value } })
    | some .queueUsedLow =>
      .ok (d.updMmioQueue fun r => { r with used := { r.used with lo := value } })
    | some .queueUsedHigh =>
      .ok (d.updMmioQueue fun r => { r with used := { r.used with hi := value } })
    -- legacy, read-only and invalid registers are logged and left alone
    | _ => .ok d

/-! ## Reads -/

def virtMagic : Word := 0x74726976
def virtVersion : Word := 2
def virtVendor : Word := 0x554D4551

/-- `vnic_handle_mmio_read`; reading the configuration space refreshes it. -/
def vnicHandleMmioRead (d : Dev M) (offset : Word) (size : ℕ) : Except Abort (Word × Dev M) :=
  if virtioMmioConfig ≤ offset then
    virtioConfigRead d (offset - virtioMmioConfig).toNat size
  else if size ≠ 4 then .ok (0, d)
  else
    match Reg.ofOffset offset with
    | some .magicValue => .ok (virtMagic, d)
    | some .version => .ok (virtVersion, d)
    | some .deviceId => .ok (d.vdev.deviceId.setWidth 32, d)
    | some .vendorId => .ok (virtVendor, d)
    | some .deviceFeatures =>
      .ok ((d.vdev.hostFeatures >>> (32 * d.mmio.hostFeaturesSel.val)).setWidth 32, d)
    | some .queueNumMax =>
      if (d.vdev.vq d.vdev.queueSel).vring.num = 0 then .ok (0, d)
      else .ok (BitVec.ofNat 32 vnicVqMaxSize, d)
    | some .queueReady =>
      .ok (if (d.mmio.vqs d.vdev.queueSel).enabled then 1 else 0, d)
    | some .interruptStatus => .ok (d.vdev.isr.setWidth 32, d)
    | some .status => .ok (d.vdev.status.setWidth 32, d)
    | some .configGeneration => .ok (d.vdev.generation, d)
    -- legacy, write-only and invalid registers read as zero
    | _ => .ok (0, d)

/-- Narrow a value to the access width, and sign-extend it if asked to. -/
def narrowRead (v : Word) (size : ℕ) (sign : Bool) : Word :=
  match size with
  | 1 => if sign then (v.setWidth 8).signExtend 32 else (v.setWidth 8).setWidth 32
  | 2 => if sign then (v.setWidth 16).signExtend 32 else (v.setWidth 16).setWidth 32
  | _ => v

/-! ## Accesses -/

/-- A trapped access of the normal world to the register block. -/
inductive Access
  | write (offset value : Word) (size : ℕ)
  | read (offset : Word) (size : ℕ) (sign : Bool)
  deriving DecidableEq, Repr

/-- `vnic_emu_check`: the value a read gives back, and the device. -/
def vnicEmuCheck (mmu : CoreMmu M) (d : Dev M) : Access → Except Abort (Option Word × Dev M)
  | .write offset value size =>
    match vnicHandleMmioWrite mmu d offset value size with
    | .error a => .error a
    | .ok d => .ok (none, d)
  | .read offset size sign =>
    if size = 1 ∨ size = 2 ∨ size = 4 then
      match vnicHandleMmioRead d offset size with
      | .error a => .error a
      | .ok (v, d) => .ok (some (narrowRead v size sign), d)
    else .error (.panic "Invalid read width")

/-- An access as a step of the device. -/
def mmioStep (mmu : CoreMmu M) (d : Dev M) (a : Access) : Except Abort (Dev M) :=
  match vnicEmuCheck mmu d a with
  | .error e => .error e
  | .ok (_, d) => .ok d

/-- A full-width write to a register. -/
abbrev Access.toReg (r : Reg) (value : Word) : Access := .write r.offset value 4

/-- The register an access writes, with the value, if it is a full-width write to one. -/
def Access.target : Access → Option (Reg × Word)
  | .write offset value size =>
    if size = 4 then (Reg.ofOffset offset).map (·, value) else none
  | .read .. => none

/-- The accesses lead from one state of the device to another without a panic. -/
abbrev MmioRun (mmu : CoreMmu M) : Dev M → List Access → Dev M → Prop :=
  Run (mmioStep mmu) fun _ _ => True

/-! ## Specifications of the queue and status registers -/

@[simp] theorem vq_updMmioQueue (d : Dev M) (f : MmioQueue → MmioQueue) :
    (d.updMmioQueue f).vdev.vq = d.vdev.vq := rfl

/-- The selected queue after `QUEUE_READY`, before `enabled` is set. -/
def readyVq (mmu : CoreMmu M) (m : M) (vq : Vqueue) (r : MmioQueue) : Vqueue :=
  let vq := virtioQueueSetNumVq vq (r.num.toNat : ℤ)
  if vq.vring.num = 0 then vq
  else (vqueueVringSetup mmu m vq r.desc.paddr r.avail.paddr r.used.paddr).2.1

/-- The MMU after `QUEUE_READY`. -/
def readyMmu (mmu : CoreMmu M) (m : M) (vq : Vqueue) (r : MmioQueue) : M :=
  let vq := virtioQueueSetNumVq vq (r.num.toNat : ℤ)
  if vq.vring.num = 0 then m else setupMmu mmu m vq r.desc.paddr

variable {d d' : Dev M} {size : ℕ} {v : Word}

theorem writeQueueReady_of_zero (mmu : CoreMmu M) (d : Dev M) (hv : v = 0) :
    writeQueueReady mmu d v = d.updMmioQueue ({ · with enabled := false }) :=
  if_neg (not_not.mpr hv)

/-- Enabling touches the selected queue, its registers and the MMU. -/
theorem writeQueueReady_of_ne (mmu : CoreMmu M) (d : Dev M) (hv : v ≠ 0) :
    writeQueueReady mmu d v =
      Dev.updMmioQueue { d with
        mmu := readyMmu mmu d.mmu (d.vdev.vq d.vdev.queueSel) (d.mmio.vqs d.vdev.queueSel)
        vdev := { d.vdev with
          vq := Function.update d.vdev.vq d.vdev.queueSel
            (readyVq mmu d.mmu (d.vdev.vq d.vdev.queueSel) (d.mmio.vqs d.vdev.queueSel)) } }
        ({ · with enabled := true }) := by
  rw [writeQueueReady, if_pos hv]
  simp only [virtioQueueSetRings, virtioQueueSetNum, vq_setVq_self]
  unfold readyVq readyMmu
  by_cases h0 : (virtioQueueSetNumVq (d.vdev.vq d.vdev.queueSel)
      ((d.mmio.vqs d.vdev.queueSel).num.toNat : ℤ)).vring.num = 0
  · simp only [if_pos h0]
    rfl
  · simp only [if_neg h0, mmu_vqueueVringSetup, Dev.setVq, Function.update_idem]

theorem vq_writeQueueReady (mmu : CoreMmu M) (d : Dev M) (hv : v ≠ 0) :
    (writeQueueReady mmu d v).vdev.vq =
      Function.update d.vdev.vq d.vdev.queueSel
        (readyVq mmu d.mmu (d.vdev.vq d.vdev.queueSel) (d.mmio.vqs d.vdev.queueSel)) := by
  rw [writeQueueReady_of_ne mmu d hv]
  rfl

theorem enabled_updMmioQueue (d : Dev M) (b : Bool) (q : QIdx) :
    ((d.updMmioQueue ({ · with enabled := b })).mmio.vqs q).enabled =
      if q = d.vdev.queueSel then b else (d.mmio.vqs q).enabled := by
  by_cases hq : q = d.vdev.queueSel
  · subst hq
    simp [Dev.updMmioQueue]
  · simp [Dev.updMmioQueue, hq]

theorem enabled_writeQueueReady (mmu : CoreMmu M) (d : Dev M) (v : Word) (q : QIdx) :
    ((writeQueueReady mmu d v).mmio.vqs q).enabled =
      if q = d.vdev.queueSel then decide (v ≠ 0) else (d.mmio.vqs q).enabled := by
  by_cases hv : v = 0
  · rw [writeQueueReady_of_zero mmu d hv, enabled_updMmioQueue, decide_eq_false (not_not.mpr hv)]
  · rw [writeQueueReady_of_ne mmu d hv, enabled_updMmioQueue, decide_eq_true hv]

/-- Whether a status write starts a negotiation. -/
def Negotiates (d : Dev M) (s : Byte) : Prop :=
  s &&& virtioConfigSFeaturesOk ≠ 0 ∧ d.vdev.status &&& virtioConfigSFeaturesOk = 0

instance (d : Dev M) (s : Byte) : Decidable (Negotiates d s) :=
  inferInstanceAs (Decidable (_ ∧ _))

/-- The device after a status write with low byte `s`, field by field. -/
structure StatusWritten (d : Dev M) (s : Byte) (d' : Dev M) : Prop where
  status : d'.vdev.status = s
  vq : d'.vdev.vq = if s = 0 then fun q => virtioResetVq (d.vdev.vq q) else d.vdev.vq
  enabled : ∀ q, (d'.mmio.vqs q).enabled = (decide (s ≠ 0) && (d.mmio.vqs q).enabled)
  guestFeatures : d'.vdev.guestFeatures =
    if s = 0 then 0
    else if Negotiates d s then d.mmio.driverFeatures &&& d.vdev.hostFeatures
    else d.vdev.guestFeatures
  accepted : Negotiates d s →
    (d.mmio.driverFeatures &&& d.vdev.hostFeatures) &&& BitVec.ofNat 64 virtioFVersion1 ≠ 0
  hostFeatures : d'.vdev.hostFeatures = d.vdev.hostFeatures
  mmu : d'.mmu = d.mmu
  linkStatus : d'.vnet.status = d.vnet.status
  napi : d'.napi = if virtioNetStarted d.vnet s then napiSchedule d.napi else d.napi

theorem virtioSetStatus_eq (d : Dev M) (s : Byte) :
    ∃ b, virtioSetStatus d s =
      { d with
        vdev := { d.vdev with status := s, started := b }
        napi := if virtioNetStarted d.vnet s then napiSchedule d.napi else d.napi } := by
  unfold virtioSetStatus virtioNetSetStatus
  by_cases ho : d.vdev.status &&& virtioConfigSDriverOk ≠ s &&& virtioConfigSDriverOk
  · simp only [if_pos ho]
    by_cases hn : virtioNetStarted d.vnet s = true
    · exact ⟨s &&& virtioConfigSDriverOk ≠ 0, by simp [hn, Dev.setStatus, Dev.schedule]⟩
    · exact ⟨s &&& virtioConfigSDriverOk ≠ 0, by simp [hn, Dev.setStatus]⟩
  · simp only [if_neg ho]
    by_cases hn : virtioNetStarted d.vnet s = true
    · exact ⟨d.vdev.started, by simp [hn, Dev.setStatus, Dev.schedule]⟩
    · exact ⟨d.vdev.started, by simp [hn, Dev.setStatus]⟩

theorem virtioNetStarted_zero (n : Vnet) : virtioNetStarted n 0 = false := by
  simp [virtioNetStarted]

theorem virtioReset_eq (d : Dev M) :
    virtioReset d = { d with vdev := { d.vdev with
      started := false
      guestFeatures := 0
      queueSel := 0
      status := 0
      isr := 0
      vq := fun q => virtioResetVq (d.vdev.vq q) } } := by
  obtain ⟨b, hb⟩ := virtioSetStatus_eq d 0
  simp only [virtioReset, hb, virtioNetStarted_zero, vnicKickNw, if_true, Bool.false_eq_true,
    if_false]

/-- What the tail of a status write leaves behind. -/
theorem statusTail_eq (d : Dev M) (s : Byte) :
    ∃ b, statusTail d s =
      { d with
        vdev := if s = 0 then
            { d.vdev with
              started := false
              guestFeatures := 0
              queueSel := 0
              status := 0
              isr := 0
              vq := fun q => virtioResetVq (d.vdev.vq q) }
          else { d.vdev with status := s, started := b }
        mmio := if s = 0 then
            { d.mmio with vqs := fun q => { d.mmio.vqs q with enabled := false } }
          else d.mmio
        napi := if virtioNetStarted d.vnet s then napiSchedule d.napi else d.napi } := by
  obtain ⟨b, hb⟩ := virtioSetStatus_eq d s
  refine ⟨b, ?_⟩
  rw [statusTail, virtioReset_eq, hb]
  by_cases h0 : s = 0
  · subst h0
    simp only [if_true, virtioMmioSoftReset, virtioNetStarted_zero, Bool.false_eq_true, if_false]
  · simp only [if_neg h0]

/-- The device with newly accepted features. -/
def Dev.accept (d : Dev M) (features : BitVec 64) : Dev M :=
  { d with
    vnet := { d.vnet with currGuestOffloads := 0 }
    vdev := { d.vdev with guestFeatures := features } }

/-- The features a status write accepts: those of a negotiation, or the old ones. -/
theorem writeStatus_eq_ok (h : writeStatus d v = .ok d') :
    (Negotiates d (v.setWidth 8) ∧
      (d.mmio.driverFeatures &&& d.vdev.hostFeatures) &&&
        BitVec.ofNat 64 virtioFVersion1 ≠ 0 ∧
      d' = statusTail (d.accept (d.mmio.driverFeatures &&& d.vdev.hostFeatures))
        (v.setWidth 8)) ∨
      (¬ Negotiates d (v.setWidth 8) ∧ d' = statusTail d (v.setWidth 8)) := by
  unfold writeStatus at h
  by_cases hv : v.setWidth 8 &&& virtioConfigSFeaturesOk ≠ 0
  · rw [if_pos hv, virtioSetFeatures] at h
    by_cases hd : d.vdev.status &&& virtioConfigSFeaturesOk ≠ 0
    · rw [if_pos hd] at h
      cases h
      exact .inr ⟨fun hn => hd hn.2, rfl⟩
    · rw [if_neg hd, virtioSetFeaturesNocheck] at h
      by_cases ha : (d.mmio.driverFeatures &&& d.vdev.hostFeatures) &&&
          BitVec.ofNat 64 virtioFVersion1 ≠ 0
      · simp only [if_pos ha, virtioNetGuestOffloadsByFeatures_eq] at h
        cases h
        exact .inl ⟨⟨hv, not_not.mp hd⟩, ha, rfl⟩
      · simp only [if_neg ha] at h
        cases h
  · rw [if_neg hv] at h
    cases h
    exact .inr ⟨fun hn => hv hn.1, rfl⟩

theorem statusWritten_of_writeStatus (h : writeStatus d v = .ok d') :
    StatusWritten d (v.setWidth 8) d' := by
  rcases writeStatus_eq_ok h with ⟨hn, ha, rfl⟩ | ⟨hn, rfl⟩
  · obtain ⟨b, hb⟩ := statusTail_eq
      (d.accept (d.mmio.driverFeatures &&& d.vdev.hostFeatures)) (v.setWidth 8)
    have h0 : v.setWidth 8 ≠ 0 := by
      intro h0
      rw [Negotiates, h0] at hn
      exact hn.1 (BitVec.zero_and)
    rw [hb]
    simp only [if_neg h0]
    refine ⟨rfl, by rw [if_neg h0]; rfl, fun q => ?_, ?_, fun _ => ha, rfl, rfl, rfl, rfl⟩
    · rw [decide_eq_true h0, Bool.true_and]
      rfl
    · rw [if_neg h0, if_pos hn]
      rfl
  · obtain ⟨b, hb⟩ := statusTail_eq d (v.setWidth 8)
    rw [hb]
    by_cases h0 : v.setWidth 8 = 0
    · simp only [h0, if_true]
      exact ⟨rfl, by simp, fun q => by simp, by simp, fun h => absurd (h0 ▸ h) hn,
        rfl, rfl, rfl, rfl⟩
    · simp only [if_neg h0]
      refine ⟨rfl, (if_neg h0).symm, fun q => ?_, ?_, fun h => absurd h hn,
        rfl, rfl, rfl, rfl⟩
      · rw [decide_eq_true h0, Bool.true_and]
      · rw [if_neg h0, if_neg hn]

/-! ## What an access can do

Four registers act on the queues, the status or the scheduling state.  Every other access
is quiet: it changes selectors, addresses, the interrupt status or the configuration
buffer only. -/

/-- What a quiet access leaves alone. -/
structure Quiet (d d' : Dev M) : Prop where
  mmu : d'.mmu = d.mmu
  vq : d'.vdev.vq = d.vdev.vq
  status : d'.vdev.status = d.vdev.status
  guestFeatures : d'.vdev.guestFeatures = d.vdev.guestFeatures
  hostFeatures : d'.vdev.hostFeatures = d.vdev.hostFeatures
  enabled : ∀ q, (d'.mmio.vqs q).enabled = (d.mmio.vqs q).enabled
  vnet : d'.vnet = d.vnet
  napi : d'.napi = d.napi
  generation : d'.vdev.generation = d.vdev.generation
  deviceId : d'.vdev.deviceId = d.vdev.deviceId

theorem Quiet.refl (d : Dev M) : Quiet d d :=
  ⟨rfl, rfl, rfl, rfl, rfl, fun _ => rfl, rfl, rfl, rfl, rfl⟩

/-- The device after an access, by the register the access writes. -/
inductive Effect (mmu : CoreMmu M) (d : Dev M) : Option (Reg × Word) → Dev M → Prop
  | num (v : Word) :
      Effect mmu d (some (.queueNum, v))
        ((virtioQueueSetNum d d.vdev.queueSel v.toInt).updMmioQueue
          ({ · with num := v.setWidth 16 }))
  | ready (v : Word) : Effect mmu d (some (.queueReady, v)) (writeQueueReady mmu d v)
  | notify {d' : Dev M} (v : Word) (q : QIdx) (h : virtioQueueNotify d q = .ok d')
      (hq : q.val = v.toNat) : Effect mmu d (some (.queueNotify, v)) d'
  | status {d' : Dev M} (v : Word) (h : writeStatus d v = .ok d') :
      Effect mmu d (some (.status, v)) d'
  | quiet {d' : Dev M} (o : Option (Reg × Word)) (h : Quiet d d')
      (hn : ∀ v, o ≠ some (.queueNum, v)) (hr : ∀ v, o ≠ some (.queueReady, v))
      (hs : ∀ v, o ≠ some (.status, v)) : Effect mmu d o d'

theorem Quiet.trans {d₁ d₂ d₃ : Dev M} (h₁ : Quiet d₁ d₂) (h₂ : Quiet d₂ d₃) :
    Quiet d₁ d₃ where
  mmu := h₂.mmu.trans h₁.mmu
  vq := h₂.vq.trans h₁.vq
  status := h₂.status.trans h₁.status
  guestFeatures := h₂.guestFeatures.trans h₁.guestFeatures
  hostFeatures := h₂.hostFeatures.trans h₁.hostFeatures
  enabled q := (h₂.enabled q).trans (h₁.enabled q)
  vnet := h₂.vnet.trans h₁.vnet
  napi := h₂.napi.trans h₁.napi
  generation := h₂.generation.trans h₁.generation
  deviceId := h₂.deviceId.trans h₁.deviceId

theorem Quiet.updMmioQueue (d : Dev M) {f : MmioQueue → MmioQueue}
    (hf : ∀ r, (f r).enabled = r.enabled) : Quiet d (d.updMmioQueue f) := by
  refine ⟨rfl, rfl, rfl, rfl, rfl, fun q => ?_, rfl, rfl, rfl, rfl⟩
  by_cases hq : q = d.vdev.queueSel
  · subst hq
    simp [Dev.updMmioQueue, hf]
  · simp [Dev.updMmioQueue, hq]

theorem quiet_vnicKickNw (d : Dev M) : Quiet d (vnicKickNw d) := by
  unfold vnicKickNw
  split
  · exact .refl d
  · exact ⟨rfl, rfl, rfl, rfl, rfl, fun _ => rfl, rfl, rfl, rfl, rfl⟩

theorem quiet_virtioConfigRead {offset : ℕ} (h : virtioConfigRead d offset size = .ok (v, d')) :
    Quiet d d' := by
  unfold virtioConfigRead at h
  split at h
  · cases h; exact .refl d
  · simp only at h
    split at h <;> cases h <;> exact ⟨rfl, rfl, rfl, rfl, rfl, fun _ => rfl, rfl, rfl, rfl, rfl⟩

theorem quiet_virtioConfigWrite {offset : ℕ} (h : virtioConfigWrite d offset v size = .ok d') :
    Quiet d d' := by
  unfold virtioConfigWrite at h
  split at h
  · cases h; exact .refl d
  · split at h
    · cases h; exact ⟨rfl, rfl, rfl, rfl, rfl, fun _ => rfl, rfl, rfl, rfl, rfl⟩
    · cases h

theorem quiet_vnicHandleMmioRead {offset : Word}
    (h : vnicHandleMmioRead d offset size = .ok (v, d')) : Quiet d d' := by
  unfold vnicHandleMmioRead at h
  split at h
  · exact quiet_virtioConfigRead h
  · split at h
    · cases h; exact .refl d
    · split at h
      case h_6 => split at h <;> cases h <;> exact .refl d
      all_goals cases h; exact .refl d

/-- **What a write can do.** -/
theorem effect_of_write {mmu : CoreMmu M} {offset value : Word}
    (h : vnicHandleMmioWrite mmu d offset value size = .ok d') :
    Effect mmu d (Access.write offset value size).target d' := by
  unfold vnicHandleMmioWrite at h
  split at h
  · rename_i hc
    have hnone : (Access.write offset value size).target = none := by
      by_cases hs : size = 4
      · simp only [Access.target, hs, if_true, Option.map_eq_none_iff]
        cases ho : Reg.ofOffset offset with
        | none => rfl
        | some r =>
          rw [Reg.offset_of_ofOffset ho] at hc
          exact absurd hc r.offset_lt
      · simp [Access.target, hs]
    rw [hnone]
    exact .quiet none (quiet_virtioConfigWrite h) nofun nofun nofun
  · split at h
    · rename_i hs
      cases h
      simp only [Access.target, hs, if_false]
      exact .quiet none (.refl d) nofun nofun nofun
    · rename_i hs
      have hs : size = 4 := not_not.mp hs
      cases ho : Reg.ofOffset offset with
      | none =>
        simp only [ho] at h
        cases h
        simp only [Access.target, ho, hs, if_true, Option.map_none]
        exact .quiet none (.refl d) nofun nofun nofun
      | some r =>
        simp only [Access.target, ho, hs, if_true, Option.map_some]
        simp only [ho] at h
        cases r
        case queueNum => cases h; exact .num value
        case queueReady => cases h; exact .ready value
        case status => exact .status value h
        case queueNotify =>
          simp only at h
          split at h
          · exact .notify value _ h rfl
          · cases h
            exact .quiet _ (.refl d) (by simp) (by simp) (by simp)
        all_goals refine .quiet _ ?_ (by simp) (by simp) (by simp)
        case interruptAck =>
          cases h
          refine Quiet.trans ?_ (quiet_vnicKickNw _)
          exact ⟨rfl, rfl, rfl, rfl, rfl, fun _ => rfl, rfl, rfl, rfl, rfl⟩
        case queueSel =>
          simp only at h
          split at h <;> cases h <;>
            exact ⟨rfl, rfl, rfl, rfl, rfl, fun _ => rfl, rfl, rfl, rfl, rfl⟩
        case queueDescLow | queueDescHigh | queueAvailLow | queueAvailHigh | queueUsedLow
            | queueUsedHigh =>
          cases h
          exact .updMmioQueue d fun _ => rfl
        all_goals cases h; exact ⟨rfl, rfl, rfl, rfl, rfl, fun _ => rfl, rfl, rfl, rfl, rfl⟩

/-- **What an access can do.** -/
theorem effect_of_mmioStep {mmu : CoreMmu M} {a : Access} (h : mmioStep mmu d a = .ok d') :
    Effect mmu d a.target d' := by
  cases a with
  | write offset value size =>
    simp only [mmioStep, vnicEmuCheck] at h
    cases hw : vnicHandleMmioWrite mmu d offset value size with
    | error e => simp only [hw] at h; cases h
    | ok d₁ =>
      simp only [hw] at h
      cases h
      exact effect_of_write hw
  | read offset size sign =>
    refine .quiet none ?_ nofun nofun nofun
    simp only [mmioStep, vnicEmuCheck] at h
    split at h
    · cases h
    · rename_i v d₁ hv
      cases h
      split at hv
      · cases hr : vnicHandleMmioRead d offset size with
        | error e => simp only [hr] at hv; cases hv
        | ok p =>
          simp only [hr] at hv
          cases hv
          exact quiet_vnicHandleMmioRead hr
      · cases hv

end TrustedGateway
