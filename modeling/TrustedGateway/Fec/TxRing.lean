import TrustedGateway.EthBuf
import TrustedGateway.Lib.Ring
import Mathlib.Tactic.Ring

/-!
# The transmit ring

The FEC takes frames from a ring of descriptors (`imx_fec.c`).  `bd.cur` is the next descriptor
to fill and `pending_tx` the next one to reclaim; both are addresses, and how many descriptors
are in use is only in their distance.  One descriptor always stays free.

A submitted frame is kept in `tx_skbuff` until `fec_txq` finds its descriptor done or the ring is
reset.  Frames whose buffer cannot be handed to the hardware are freed at once, and
`fec_enet_start_xmit` accepts them all the same.

The functions are put together from the pieces between two accesses to `bd.cur`, `pending_tx` and
the queue's stopped flag.  The checksum fields that `fec_enet_clear_csum` clears are part of the
frame, whose bytes are not modelled; it always returns 0.

## Main definitions

* `BdProp`, `TxDev` — where the ring lies, and the settings of the device.
* `Txq` — the ring, the stopped flag, and a log of what was done to descriptors and frames.
* `fecEnetStartXmit`, `fecTxq`, `fecRestartSw2Tx` — the three routes of a frame.
* `SubmitsTo` — what a submission can come to.
* `BdProp.addr` — the descriptors by number; `BdProp.freeTxdescNum_addr` says what the count of
  free descriptors is.
-/

namespace TrustedGateway

open RingWindow

/-! ## Descriptors -/

def bdEnetTxReady : Half := 0x8000
def bdScWrap : Half := 0x2000
def bdEnetTxIntr : Half := 0x1000
def bdEnetTxLast : Half := 0x0800
def bdEnetTxTc : Half := 0x0400
def bdEnetTxInt : Word := 0x40000000
def bdEnetTxPins : Word := 0x10000000
def bdEnetTxIins : Word := 0x08000000

/-- `BSTGW_TXC_BUDGET`. -/
def bstgwTxcBudget : ℕ := 128

/-- `TX_RING_SIZE`. -/
def txRingSize : ℕ := 512

/-- `struct bufdesc_prop`: where a ring lies.  A ring of one descriptor could never send. -/
structure BdProp where
  base : ℕ
  dsizeLog2 : ℕ
  ringSize : ℕ
  one_lt_ringSize : 1 < ringSize

namespace BdProp

def dsize (bd : BdProp) : ℕ := 2 ^ bd.dsizeLog2

def last (bd : BdProp) : ℕ := bd.base + (bd.ringSize - 1) * bd.dsize

end BdProp

/-- `struct bufdesc_ex`; the last two fields are only used with `bufdesc_ex`. -/
structure Bufdesc where
  cbdDatlen : Half
  cbdSc : Half
  cbdBufaddr : Word
  cbdEsc : Word
  cbdBdu : Word
  deriving DecidableEq, Repr

/-- `fec_enet_get_nextdesc`. -/
def fecEnetGetNextdesc (bdp : ℕ) (bd : BdProp) : ℕ :=
  if bd.last ≤ bdp then bd.base else bdp + bd.dsize

/-- `fec_enet_get_bd_index`. -/
def fecEnetGetBdIndex (bdp : ℕ) (bd : BdProp) : ℤ := ((bdp : ℤ) - bd.base) >>> bd.dsizeLog2

/-- `fec_enet_get_free_txdesc_num`, for the two addresses it reads. -/
def fecEnetGetFreeTxdescNum (bd : BdProp) (pendingTx cur : ℕ) : ℤ :=
  let entries := ((pendingTx : ℤ) - cur) >>> bd.dsizeLog2 - 1
  if 0 ≤ entries then entries else entries + bd.ringSize

/-- `tx_stop_threshold`, as `fec_enet_alloc_queue` sets it. -/
def txStopThreshold : ℤ := 0

/-- `tx_wake_threshold`, as `fec_enet_alloc_queue` sets it. -/
def txWakeThreshold (bd : BdProp) : ℤ := (bd.ringSize - txStopThreshold) / 2

/-! ## Frames and the ring -/

/-- `struct sk_buff`, as far as it decides about a descriptor. -/
structure Skb where
  buf : BufId
  data : ℕ
  headlen : ℕ
  nrFrags : ℕ
  csumPartial : Bool
  deriving DecidableEq, Repr

/-- `netdev_tx_t`. -/
inductive NetdevTx
  | ok | busy
  deriving DecidableEq, Repr

/-- What is done to descriptors and frames: a frame is handed to the hardware, a descriptor is
taken back together with what `tx_skbuff` holds for it, the hardware is kicked, a frame goes back
to the pool, the egress queue's handler is called, and the ring is reset. -/
inductive TxOp
  | trigger (index : ℕ) (skb : Skb)
  | reclaim (index : ℕ) (skb : Option Skb)
  | kick
  | kfree (skb : Skb)
  | notify
  | reset
  deriving DecidableEq, Repr

/-- The settings of the device that matter here; `bounce` is `caligned_tx_bounce`. -/
structure TxDev where
  bd : BdProp
  txAlign : ℕ
  bufdescEx : Bool
  bounce : ℕ → ℕ

/-- The ring of the device. -/
def fecTxDev : TxDev where
  bd := { base := 0x4000, dsizeLog2 := 3, ringSize := txRingSize, one_lt_ringSize := by decide }
  txAlign := 0xf
  bufdescEx := false
  bounce := fun i => 0x80000 + 2048 * i

/-- `struct fec_enet_priv_tx_q`, and the stopped flag of the egress queue.  Descriptors are found
by their address. -/
structure Txq where
  cur : ℕ
  pendingTx : ℕ
  desc : ℕ → Bufdesc
  txSkbuff : ℕ → Option Skb
  stopped : Bool
  log : List TxOp

/-- What the address translation and the cache operation answer. -/
structure TxEnv where
  virtToPhys : ℕ → Word
  cacheClean : ℕ → Half → Bool

namespace Txq

def logOp (q : Txq) (op : TxOp) : Txq := { q with log := q.log ++ [op] }

/-- `dev_kfree_skb_any`. -/
def kfree (q : Txq) (skb : Skb) : Txq := q.logOp (.kfree skb)

def setDesc (q : Txq) (bdp : ℕ) (b : Bufdesc) : Txq :=
  { q with desc := Function.update q.desc bdp b }

def setSc (q : Txq) (bdp : ℕ) (sc : Half) : Txq :=
  q.setDesc bdp { q.desc bdp with cbdSc := sc }

def setCur (q : Txq) (bdp : ℕ) : Txq := { q with cur := bdp }

def setPendingTx (q : Txq) (bdp : ℕ) : Txq := { q with pendingTx := bdp }

def setStopped (q : Txq) (b : Bool) : Txq := { q with stopped := b }

end Txq

/-! ## Submission -/

section Submit

variable (d : TxDev)

/-- The buffer the hardware reads the frame from. -/
def txBufaddr (skb : Skb) (index : ℕ) : ℕ :=
  if skb.data &&& d.txAlign ≠ 0 then d.bounce index else skb.data

/-- The descriptor of a frame without fragments, up to `cbd_sc`. -/
def txFillDesc (b : Bufdesc) (skb : Skb) (addr : Word) : Bufdesc :=
  let b := { b with cbdBufaddr := addr, cbdDatlen := BitVec.ofNat 16 skb.headlen }
  if d.bufdescEx then
    { b with
      cbdBdu := 0
      cbdEsc := if skb.csumPartial then bdEnetTxInt ||| (bdEnetTxPins ||| bdEnetTxIins)
        else bdEnetTxInt }
  else b

/-- `cbd_sc` of a frame without fragments. -/
def txStatus (bdp : ℕ) : Half :=
  bdEnetTxTc ||| bdEnetTxReady ||| (if bdp = d.bd.last then bdScWrap else 0) |||
    (bdEnetTxIntr ||| bdEnetTxLast)

/-- The index of a descriptor, as it is used for the arrays. -/
def txIndex (bdp : ℕ) : ℕ := (fecEnetGetBdIndex bdp d.bd).toNat

/-- `fec_trigger_tx` up to the store of `bd.cur`. -/
def fecTriggerTxFill (q : Txq) (cbdSc : Half) (firstBdp : ℕ) (skb : Skb) (index : ℕ) : Txq :=
  let q := { q with txSkbuff := Function.update q.txSkbuff index (some skb) }
  (q.setSc firstBdp cbdSc).logOp (.trigger index skb)

/-- `fec_enet_txq_submit_skb` between the count of the free descriptors and the store of
`bd.cur`: the address to store, if the frame is handed to the hardware. -/
def txSubmit (env : TxEnv) (q : Txq) (skb : Skb) : Except Abort (Option ℕ × Txq) :=
  let bdp := q.cur
  let bufaddr := txBufaddr d skb (txIndex d bdp)
  let addr := env.virtToPhys bufaddr
  if addr = 0 ∨ !env.cacheClean bufaddr (BitVec.ofNat 16 skb.headlen) then
    .ok (none, q.kfree skb)
  else if skb.nrFrags ≠ 0 then .error (.panic "scatter gather I/O not implemented")
  else
    let q := q.setDesc bdp (txFillDesc d (q.desc bdp) skb addr)
    .ok (some (fecEnetGetNextdesc bdp d.bd),
      fecTriggerTxFill q (txStatus d bdp) bdp skb (txIndex d bdp))

/-- A frame without fragments is freed at once, or it is handed to the hardware. -/
theorem txSubmit_eq (env : TxEnv) (q : Txq) {skb : Skb} (hfrags : skb.nrFrags = 0) :
    txSubmit d env q skb = .ok (none, q.kfree skb) ∨
    ∃ b, txSubmit d env q skb = .ok (some (fecEnetGetNextdesc q.cur d.bd),
      fecTriggerTxFill (q.setDesc q.cur b) (txStatus d q.cur) q.cur skb (txIndex d q.cur)) := by
  unfold txSubmit
  dsimp only
  split
  · exact .inl rfl
  · rw [if_neg (not_not.mpr hfrags)]
    exact .inr ⟨_, rfl⟩

/-- `fec_enet_txq_submit_skb`. -/
def fecEnetTxqSubmitSkb (env : TxEnv) (q : Txq) (skb : Skb) : Except Abort (NetdevTx × Txq) :=
  if fecEnetGetFreeTxdescNum d.bd q.pendingTx q.cur < 1 then .ok (.busy, q)
  else
    match txSubmit d env q skb with
    | .error a => .error a
    | .ok (none, q) => .ok (.ok, q)
    | .ok (some next, q) => .ok (.ok, q.setCur next)

/-- A frame with fragments is freed at once, or it stops the machine. -/
theorem txSubmit_of_frags (env : TxEnv) (q : Txq) {skb : Skb} (hfrags : skb.nrFrags ≠ 0) :
    txSubmit d env q skb = .ok (none, q.kfree skb) ∨ ∃ a, txSubmit d env q skb = .error a := by
  unfold txSubmit
  dsimp only
  split
  · exact .inl rfl
  · exact .inr ⟨_, rfl⟩

/-- What a submission can come to. -/
inductive SubmitsTo (q : Txq) (skb : Skb) : NetdevTx → Txq → Prop
  | busy (hfree : fecEnetGetFreeTxdescNum d.bd q.pendingTx q.cur < 1) : SubmitsTo q skb .busy q
  | kfree : SubmitsTo q skb .ok (q.kfree skb)
  | trigger (hfree : 1 ≤ fecEnetGetFreeTxdescNum d.bd q.pendingTx q.cur) (b : Bufdesc) :
      SubmitsTo q skb .ok
        ((fecTriggerTxFill (q.setDesc q.cur b) (txStatus d q.cur) q.cur skb
          (txIndex d q.cur)).setCur (fecEnetGetNextdesc q.cur d.bd))

theorem submitsTo_of_ok {env : TxEnv} {q q' : Txq} {skb : Skb} {r : NetdevTx}
    (hs : fecEnetTxqSubmitSkb d env q skb = .ok (r, q')) : SubmitsTo d q skb r q' := by
  unfold fecEnetTxqSubmitSkb at hs
  split at hs
  · rename_i hfree
    cases hs
    exact .busy hfree
  rename_i hfree
  by_cases hfrags : skb.nrFrags = 0
  · rcases txSubmit_eq d env q hfrags with heq | ⟨b, heq⟩
    · rw [heq] at hs
      cases hs
      exact .kfree
    · rw [heq] at hs
      cases hs
      exact .trigger (not_lt.mp hfree) b
  · rcases txSubmit_of_frags d env q hfrags with heq | ⟨a, heq⟩
    · rw [heq] at hs
      cases hs
      exact .kfree
    · rw [heq] at hs
      cases hs

/-- `fec_enet_start_xmit`. -/
def fecEnetStartXmit (env : TxEnv) (q : Txq) (skb : Skb) : Except Abort (NetdevTx × Txq) :=
  match fecEnetTxqSubmitSkb d env q skb with
  | .error a => .error a
  | .ok (.busy, q) => .ok (.busy, q)
  | .ok (.ok, q) =>
    if fecEnetGetFreeTxdescNum d.bd q.pendingTx q.cur ≤ txStopThreshold then
      .ok (.ok, q.setStopped true)
    else .ok (.ok, q)

/-- A submission, after which the queue may be stopped. -/
theorem startXmit_of_ok {env : TxEnv} {q q' : Txq} {skb : Skb} {r : NetdevTx}
    (hs : fecEnetStartXmit d env q skb = .ok (r, q')) :
    ∃ q₁, SubmitsTo d q skb r q₁ ∧ (q' = q₁ ∨ q' = q₁.setStopped true) := by
  unfold fecEnetStartXmit at hs
  split at hs
  · cases hs
  · rename_i q₁ hsub
    cases hs
    exact ⟨q', submitsTo_of_ok d hsub, .inl rfl⟩
  · rename_i q₁ hsub
    split at hs
    · cases hs
      exact ⟨q₁, submitsTo_of_ok d hsub, .inr rfl⟩
    · cases hs
      exact ⟨q', submitsTo_of_ok d hsub, .inl rfl⟩

end Submit

/-! ## Completion -/

section Complete

variable (d : TxDev)

/-- `cbd_sc` of a descriptor that is not in use. -/
def txIdleStatus (bdp : ℕ) : Half := if bdp = d.bd.last then bdScWrap else 0

/-- A round of `fec_txq` up to the store of `pending_tx`, for a descriptor that is done. -/
def txReclaim (q : Txq) (bdp : ℕ) : Txq :=
  let index := txIndex d bdp
  let skb := q.txSkbuff index
  let q := q.setDesc bdp { q.desc bdp with cbdSc := txIdleStatus d bdp, cbdBufaddr := 0 }
  let q := { q with txSkbuff := Function.update q.txSkbuff index none }
  let q := q.logOp (.reclaim index skb)
  match skb with
  | none => q
  | some skb => q.kfree skb

/-- `fec_txq` at a descriptor that is not done: the hardware may have missed it (ERR006358).
`active` is what `reg_desc_active` reads. -/
def txNotDone (active : Bool) (q : Txq) : Txq := if active then q else q.logOp .kick

/-- `netif_tx_wake_queue`. -/
def Txq.netifTxWakeQueue (q : Txq) : Txq :=
  if q.stopped then (q.setStopped false).logOp .notify else q

/-- The wake-up test of `fec_txq`. -/
def txWakeTest (q : Txq) : Txq :=
  if q.stopped ∧ txWakeThreshold d.bd ≤ fecEnetGetFreeTxdescNum d.bd q.pendingTx q.cur then
    q.netifTxWakeQueue
  else q

theorem txWakeTest_of_not_stopped {q : Txq} (h : q.stopped = false) : txWakeTest d q = q := by
  rw [txWakeTest, if_neg]
  rw [h]
  exact fun hs => Bool.false_ne_true hs.1

@[simp]
theorem pendingTx_txWakeTest (q : Txq) : (txWakeTest d q).pendingTx = q.pendingTx := by
  unfold txWakeTest Txq.netifTxWakeQueue
  repeat' split
  all_goals rfl

/-- The loop of `fec_txq`, with what is left of the budget: the number of descriptors that were
reclaimed, and the ring. -/
def fecTxqLoop (active : Bool) : ℕ → ℕ → Txq → ℕ × Txq
  | 0, _, q => (0, q)
  | left + 1, bdp, q =>
    if bdp = q.cur then (0, q)
    else if (q.desc bdp).cbdSc &&& bdEnetTxReady ≠ 0 then (0, txNotDone active q)
    else
      let next := fecEnetGetNextdesc bdp d.bd
      let r := fecTxqLoop active left next
        (txWakeTest d ((txReclaim d q bdp).setPendingTx next))
      (r.1 + 1, r.2)

/-- `fec_txq`. -/
def fecTxq (active : Bool) (q : Txq) : ℕ × Txq :=
  fecTxqLoop d active bstgwTxcBudget q.pendingTx q

end Complete

/-! ## Reset -/

section Reset

variable (d : TxDev)

/-- Free the frame of a descriptor. -/
def txDropSkb (q : Txq) (i : ℕ) : Txq :=
  match q.txSkbuff i with
  | none => q
  | some skb => { q.kfree skb with txSkbuff := Function.update q.txSkbuff i none }

/-- A round of `reset_tx_queue`. -/
def resetTxDesc (x : ℕ × Txq) (i : ℕ) : ℕ × Txq :=
  let bdp := x.1
  let q := x.2
  let q := if (q.desc bdp).cbdBufaddr ≠ 0 then q.setDesc bdp { q.desc bdp with cbdBufaddr := 0 }
    else q
  (fecEnetGetNextdesc bdp d.bd, (txDropSkb q i).setSc bdp (txIdleStatus d bdp))

/-- `reset_tx_queue`. -/
def resetTxQueue (q : Txq) : Txq :=
  let q := ((q.setCur d.bd.base).setPendingTx d.bd.base).logOp .reset
  ((List.range d.bd.ringSize).foldl (resetTxDesc d) (d.bd.base, q)).2

/-- `fec_enet_reset_skb`. -/
def fecEnetResetSkb (q : Txq) : Txq := (List.range d.bd.ringSize).foldl txDropSkb q

/-- The part of `fec_restart_sw_2` that is about the transmit ring. -/
def fecRestartSw2Tx (q : Txq) : Txq := fecEnetResetSkb d (resetTxQueue d q)

end Reset

/-! ## Addresses in the ring -/

namespace BdProp

variable {bd : BdProp} {p c i : ℕ}

theorem ringSize_pos (bd : BdProp) : 0 < bd.ringSize := Nat.zero_lt_of_lt bd.one_lt_ringSize

/-- The address of a descriptor. -/
def addr (bd : BdProp) (i : ℕ) : ℕ := bd.base + i * bd.dsize

theorem addr_zero : bd.addr 0 = bd.base := by rw [addr, Nat.zero_mul, Nat.add_zero]

theorem dsize_pos : 0 < bd.dsize := Nat.two_pow_pos _

theorem addr_inj {j : ℕ} : bd.addr i = bd.addr j ↔ i = j := by
  rw [addr, addr, Nat.add_right_inj, Nat.mul_left_inj dsize_pos.ne']

/-- The distance of two descriptors. -/
theorem shiftRight_addr (p c : ℕ) :
    ((bd.addr p : ℤ) - bd.addr c) >>> bd.dsizeLog2 = (p : ℤ) - c := by
  have hmul : (bd.addr p : ℤ) - bd.addr c = ((p : ℤ) - c) * (2 ^ bd.dsizeLog2 : ℕ) := by
    simp only [addr, dsize]
    push_cast
    ring
  have hne : ((2 ^ bd.dsizeLog2 : ℕ) : ℤ) ≠ 0 := by exact_mod_cast (Nat.two_pow_pos _).ne'
  rw [hmul, Int.shiftRight_eq_div_pow, Int.mul_ediv_cancel _ hne]

theorem bdIndex_addr : fecEnetGetBdIndex (bd.addr i) bd = i := by
  have h : ((bd.addr i : ℤ) - bd.addr 0) >>> bd.dsizeLog2 = (i : ℤ) - (0 : ℕ) :=
    shiftRight_addr i 0
  rw [addr_zero] at h
  rw [fecEnetGetBdIndex, h]
  simp

/-- The descriptor after the last one is the first one. -/
theorem nextdesc_addr (hi : i < bd.ringSize) :
    fecEnetGetNextdesc (bd.addr i) bd = bd.addr (idx bd.ringSize i 1) := by
  have hle : bd.last ≤ bd.addr i ↔ bd.ringSize - 1 ≤ i := by
    rw [last, addr, Nat.add_le_add_iff_left, Nat.mul_le_mul_right_iff dsize_pos]
  rw [fecEnetGetNextdesc, idx]
  split
  · rw [if_neg (by omega), show i + 1 - bd.ringSize = 0 by omega, addr_zero]
  · rw [if_pos (by omega), addr, addr]
    ring

/-- What the count of free descriptors is. -/
theorem freeTxdescNum_addr (hp : p < bd.ringSize) :
    fecEnetGetFreeTxdescNum bd (bd.addr p) (bd.addr c) =
      (bd.ringSize : ℤ) - 1 - gap bd.ringSize p c := by
  simp only [fecEnetGetFreeTxdescNum, shiftRight_addr, gap]
  split <;> split <;> omega

end BdProp

end TrustedGateway
