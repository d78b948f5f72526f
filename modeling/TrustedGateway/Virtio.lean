import Mathlib.Data.Fin.VecNotation
import TrustedGateway.Napi
import TrustedGateway.Vqueue

/-!
# The virtio device

The transport-independent part of the virtual NIC (`virtio.c`, and what it calls of
`virtio-net.c` and `vnic.c`): status, features, interrupts, configuration space and the
two queues.

## Main definitions

* `Dev` — the device with its MMIO registers, queues and NAPI context.
* `virtioSetStatus`, `virtioReset`, `virtioSetFeatures` — the status machine.
* `virtioQueueSetNum`, `virtioQueueSetRings`, `virtioQueueNotify` — the queues.
* `Dev.init` — the state `vnic_init` leaves behind.
-/

namespace TrustedGateway

/-! ## Constants -/

def virtioConfigSDriverOk : Byte := 4
def virtioConfigSFeaturesOk : Byte := 8
def virtioNetSLinkUp : Half := 1
/-- A bit number; `virtioSetFeaturesNocheck` uses it as a mask. -/
def virtioFVersion1 : ℕ := 32
def virtioNetFMtu : ℕ := 3
def virtioNetFMac : ℕ := 5
def virtioNetFStatus : ℕ := 16
def vnicVqMaxSize : ℕ := 256
def virtioNetQueueDefaultSize : ℕ := 256
def configLen : ℕ := 12
def einval : ℤ := 22

/-- The index of a queue: `0` receives for the normal world, `1` transmits. -/
abbrev QIdx := Fin 2

instance neZeroTwo : NeZero 2 := ⟨two_ne_zero⟩

/-! ## State -/

/-- A 64-bit register written in two halves. -/
structure RegPair where
  lo : Word
  hi : Word
  deriving DecidableEq, Repr

/-- The value of the register, narrowed to a `paddr_t` as the set-up call does. -/
def RegPair.paddr (r : RegPair) : Word :=
  ((r.hi.setWidth 64 <<< 32 ||| r.lo.setWidth 64 : BitVec 64)).setWidth 32

@[simp] theorem RegPair.paddr_eq (r : RegPair) : r.paddr = r.lo := by
  ext i hi
  simp only [RegPair.paddr, BitVec.getElem_setWidth, BitVec.getLsbD_or,
    BitVec.getLsbD_shiftLeft, BitVec.getLsbD_setWidth]
  simp [hi, show i < 64 by omega]

/-- `VirtIOMMIOQueue`: the transport's own notion of a queue. -/
structure MmioQueue where
  num : Half
  enabled : Bool
  desc : RegPair
  avail : RegPair
  used : RegPair
  deriving DecidableEq, Repr

/-- `mmio_t`: the register file of the transport. -/
structure Mmio where
  hostFeaturesSel : Fin 2
  guestFeaturesSel : Fin 2
  guestFeatures : Fin 2 → Word
  vqs : QIdx → MmioQueue

/-- `vdev_t`. -/
structure Vdev where
  status : Byte
  isr : Byte
  queueSel : QIdx
  guestFeatures : BitVec 64
  hostFeatures : BitVec 64
  config : ℕ → Byte
  generation : Word
  vq : QIdx → Vqueue
  deviceId : Half
  started : Bool

/-- `vnet_t`. -/
structure Vnet where
  mac : Fin 6 → Byte
  status : Half
  mtu : Half
  txBurst : Word
  rxBurst : Word
  currGuestOffloads : BitVec 64

/-- The device side of `vnic_t`.  `mmu` is the state of the address translation, `irqs`
counts the calls of `irq_raise`. -/
structure Dev (M : Type) where
  mmu : M
  mmio : Mmio
  vdev : Vdev
  vnet : Vnet
  napi : Napi
  irqs : ℕ

variable {M : Type}

namespace Dev

/-- Replace one queue. -/
def setVq (d : Dev M) (q : QIdx) (vq : Vqueue) : Dev M :=
  { d with vdev := { d.vdev with vq := Function.update d.vdev.vq q vq } }

def setStatus (d : Dev M) (status : Byte) : Dev M :=
  { d with vdev := { d.vdev with status := status } }

def schedule (d : Dev M) : Dev M := { d with napi := napiSchedule d.napi }

end Dev

@[simp] theorem vq_setVq_self (d : Dev M) (q : QIdx) (vq : Vqueue) :
    (d.setVq q vq).vdev.vq q = vq := by simp [Dev.setVq]

@[simp] theorem vq_setVq_of_ne (d : Dev M) {q q' : QIdx} (h : q' ≠ q) (vq : Vqueue) :
    (d.setVq q vq).vdev.vq q' = d.vdev.vq q' := by simp [Dev.setVq, h]

/-! ## Interrupts -/

/-- `vnic_kick_nw`. -/
def vnicKickNw (d : Dev M) : Dev M :=
  if d.vdev.isr = 0 then d else { d with irqs := d.irqs + 1 }

/-- `virtio_set_isr`. -/
def virtioSetIsr (d : Dev M) (value : Byte) : Dev M :=
  if d.vdev.isr &&& value = value then d
  else { d with vdev := { d.vdev with isr := d.vdev.isr ||| value } }

/-- `virtio_notify`. -/
def virtioNotify (d : Dev M) : Dev M := vnicKickNw (virtioSetIsr d 0x1)

/-- `vnic_vq_kick_cb`.  The negation binds tighter than the mask. -/
def vnicVqKickCb (d : Dev M) (q : QIdx) : Except Abort (Dev M) :=
  match (d.vdev.vq q).derefAvail with
  | .error a => .error a
  | .ok avail =>
    if (if avail.flags = 0 then (1 : Half) else 0) &&& vringAvailFNoInterrupt ≠ 0 then
      .ok (virtioNotify d)
    else .ok d

/-- A call leaves queue `q` as `vq`, and kicks the normal world if it has a reason to. -/
structure PutBack (d : Dev M) (q : QIdx) (vq : Vqueue) (kicks : Prop) (d' : Dev M) : Prop where
  kicked : kicks → vnicVqKickCb (d.setVq q vq) q = .ok d'
  silent : ¬ kicks → d' = d.setVq q vq

/-! ## Status -/

/-- `virtio_net_started`. -/
def virtioNetStarted (n : Vnet) (status : Byte) : Bool :=
  status &&& virtioConfigSDriverOk ≠ 0 ∧ n.status &&& virtioNetSLinkUp ≠ 0

/-- `virtio_net_set_status`. -/
def virtioNetSetStatus (d : Dev M) (status : Byte) : Dev M :=
  if virtioNetStarted d.vnet status then d.schedule else d

/-- `virtio_set_status`; `virtio_validate_features` always succeeds. -/
def virtioSetStatus (d : Dev M) (val : Byte) : Dev M :=
  let d :=
    if d.vdev.status &&& virtioConfigSDriverOk ≠ val &&& virtioConfigSDriverOk then
      { d with vdev := { d.vdev with started := val &&& virtioConfigSDriverOk ≠ 0 } }
    else d
  (virtioNetSetStatus d val).setStatus val

/-- What `virtio_reset` does to a queue. -/
def virtioResetVq (vq : Vqueue) : Vqueue :=
  let vq := vqueueVringTeardown vq
  { vq with vring := { vq.vring with num := vq.vring.numDefault } }

/-- `virtio_reset`. -/
def virtioReset (d : Dev M) : Dev M :=
  let d := virtioSetStatus d 0
  let d := { d with vdev := { d.vdev with
    started := false
    guestFeatures := 0
    queueSel := 0
    status := 0
    isr := 0 } }
  let d := vnicKickNw d
  { d with vdev := { d.vdev with vq := fun q => virtioResetVq (d.vdev.vq q) } }

/-! ## Features -/

/-- `virtio_net_guest_offloads_by_features`; the mask of offloads is empty. -/
def virtioNetGuestOffloadsByFeatures (features : Word) : BitVec 64 :=
  0 &&& features.setWidth 64

@[simp] theorem virtioNetGuestOffloadsByFeatures_eq (features : Word) :
    virtioNetGuestOffloadsByFeatures features = 0 := BitVec.zero_and

/-- `virtio_set_features_nocheck`. -/
def virtioSetFeaturesNocheck (d : Dev M) (val : BitVec 64) : Except Abort (ℤ × Dev M) :=
  let bad := val &&& ~~~d.vdev.hostFeatures ≠ 0
  let val := val &&& d.vdev.hostFeatures
  let d := { d with
    vnet := { d.vnet with currGuestOffloads := virtioNetGuestOffloadsByFeatures (val.setWidth 32) }
    vdev := { d.vdev with guestFeatures := val } }
  if d.vdev.guestFeatures &&& BitVec.ofNat 64 virtioFVersion1 ≠ 0 then
    .ok (if bad then -1 else 0, d)
  else .error (.panic "Seems that VERSION_1 negotiation has failed!")

/-- `virtio_set_features`. -/
def virtioSetFeatures (d : Dev M) (val : BitVec 64) : Except Abort (ℤ × Dev M) :=
  if d.vdev.status &&& virtioConfigSFeaturesOk ≠ 0 then .ok (-einval, d)
  else virtioSetFeaturesNocheck d val

/-! ## Configuration space -/

/-- The `k`-th byte of a little-endian value. -/
def leByte {w : ℕ} (v : BitVec w) (k : ℕ) : Byte := (v >>> (8 * k)).setWidth 8

/-- `virtio_net_get_config`: the bytes of the packed `struct virtio_net_config`. -/
def virtioNetGetConfig (n : Vnet) : ℕ → Byte := fun k =>
  if h : k < 6 then n.mac ⟨k, h⟩
  else if k < 8 then leByte n.status (k - 6)
  else if k < 10 then leByte (1 : Half) (k - 8)
  else leByte n.mtu (k - 10)

/-- `virtio_config_read`. -/
def virtioConfigRead (d : Dev M) (offset size : ℕ) : Except Abort (Word × Dev M) :=
  if configLen < addSize offset size then .ok (0, d)
  else
    let fresh := virtioNetGetConfig d.vnet
    let d := { d with vdev := { d.vdev with
      config := fun k => if k < configLen then fresh k else d.vdev.config k } }
    let b := fun k => (d.vdev.config (offset + k)).setWidth 32
    match size with
    | 1 => .ok (b 0, d)
    | 2 => .ok (b 0 ||| b 1 <<< 8, d)
    | 4 => .ok (b 0 ||| b 1 <<< 8 ||| b 2 <<< 16 ||| b 3 <<< 24, d)
    | _ => .error (.panic "invalid read width")

/-- `virtio_config_write`. -/
def virtioConfigWrite (d : Dev M) (offset : ℕ) (value : Word) (size : ℕ) :
    Except Abort (Dev M) :=
  if configLen < addSize offset size then .ok d
  else if size = 1 ∨ size = 2 ∨ size = 4 then
    .ok { d with vdev := { d.vdev with
      config := fun k =>
        if offset ≤ k ∧ k < offset + size then leByte value (k - offset) else d.vdev.config k } }
  else .error (.panic "invalid write width")

/-! ## Queues -/

/-- Whether `virtio_queue_set_num` refuses a size. -/
def queueNumRefused (vq : Vqueue) (num : ℤ) : Prop :=
  ¬ (num = 0 ↔ vq.vring.num = 0) ∨ num > vnicVqMaxSize ∨ num < 0

instance (vq : Vqueue) (num : ℤ) : Decidable (queueNumRefused vq num) :=
  inferInstanceAs (Decidable (_ ∨ _))

/-- `virtio_queue_set_num` on a queue. -/
def virtioQueueSetNumVq (vq : Vqueue) (num : ℤ) : Vqueue :=
  if queueNumRefused vq num then vq
  else { vq with vring := { vq.vring with num := num.toNat } }

/-- `virtio_queue_set_num`. -/
def virtioQueueSetNum (d : Dev M) (q : QIdx) (num : ℤ) : Dev M :=
  d.setVq q (virtioQueueSetNumVq (d.vdev.vq q) num)

/-- `virtio_queue_set_rings`; a failed set-up is only logged. -/
def virtioQueueSetRings (mmu : CoreMmu M) (d : Dev M) (q : QIdx) (desc avail used : Word) :
    Dev M :=
  if (d.vdev.vq q).vring.num = 0 then d
  else
    let (_, vq, m) := vqueueVringSetup mmu d.mmu (d.vdev.vq q) desc avail used
    { d.setVq q vq with mmu := m }

/-- `virtio_queue_notify` with `vnic_vq_notify_cb`. -/
def virtioQueueNotify (d : Dev M) (q : QIdx) : Except Abort (Dev M) :=
  if (d.vdev.vq q).vringAddr = 0 then .ok d
  else
    match vqueueNapiSignalAvail (d.vdev.vq q) with
    | .error a => .error a
    | .ok vq => .ok (d.setVq q vq).schedule

/-! ## The initial device -/

/-- `virtio_add_feature`. -/
def virtioAddFeature (features : BitVec 64) (fbit : ℕ) : BitVec 64 := features ||| 1 <<< fbit

/-- `vnic_vdev_init_feature_bits`. -/
def vnicHostFeatures : BitVec 64 :=
  virtioAddFeature (virtioAddFeature (virtioAddFeature (virtioAddFeature 0
    virtioFVersion1) virtioNetFMtu) virtioNetFMac) virtioNetFStatus

/-- `vqueue_init` on a zeroed queue; `shared` is whatever the normal world holds. -/
def vqueueInit (num : ℕ) (align : Word) (shared : RingMem) : Vqueue where
  vring := ⟨num, num, 0, 0, 0⟩
  vringAddr := 0
  vringSz := 0
  vringAlign := align
  lastAvailIdx := 0
  shared := shared
  taken := []
  returned := []

/-- `vnic_init_config` and `vnic_vnet_init`. -/
def vnetInit : Vnet where
  mac := ![0x00, 0x19, 0xb8, 0x08, 0x40, 0x78]
  status := virtioNetSLinkUp
  mtu := 1500
  txBurst := 256
  rxBurst := 256
  currGuestOffloads := 0

/-- The device after `vnic_init`, with `napi_enable` done. -/
def Dev.init (m : M) (shared : QIdx → RingMem) : Dev M where
  mmu := m
  mmio :=
    { hostFeaturesSel := 0
      guestFeaturesSel := 0
      guestFeatures := fun _ => 0
      vqs := fun _ => ⟨0, false, ⟨0, 0⟩, ⟨0, 0⟩, ⟨0, 0⟩⟩ }
  vdev :=
    { status := 0
      isr := 0
      queueSel := 0
      guestFeatures := 0
      hostFeatures := vnicHostFeatures
      config := virtioNetGetConfig vnetInit
      generation := 0
      vq := fun q => vqueueInit virtioNetQueueDefaultSize (BitVec.ofNat 32 smallPageSize) (shared q)
      deviceId := 1
      started := false }
  vnet := vnetInit
  napi := ⟨false, false, false, false, false⟩
  irqs := 0

end TrustedGateway
