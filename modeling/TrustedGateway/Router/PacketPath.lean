import TrustedGateway.Lib.Run
import TrustedGateway.Machine

/-!
# The buffers of the packet path

All packets are in buffers of one pool.  A buffer is free, or it is in one of these places: in the
receive or the transmit ring of the FEC, in its input queue, in one of the two egress queues, or
with one of the three workers, in a burst that is being received, collected or routed.  This module
counts the buffers of every place.

The workers are the receive poll of the FEC, its poll for routing and transmission, and the poll of
the virtual NIC.  Their steps may interleave in any way.  A queue's entries are dropped only after
its reader has handled them, so that the entries of a queue are those that wait and those whose
buffers have moved on.

`bstgw_ethpool_buf_alloc` panics when no buffer is free.  The pool has room for the rings and the
egress queues, and for 68 buffers more; but the input queue alone takes 224.
-/

namespace TrustedGateway

open StepSystem

namespace Router

/-- The two interfaces, which have a worker each that routes packets. -/
inductive Netif
  | fec
  | vnic
  deriving DecidableEq, Repr

/-- An egress queue: entries that wait, and entries whose packets were sent but not dropped yet. -/
structure EgressCount where
  waiting : ℕ
  sent : ℕ
  deriving DecidableEq, Repr

def EgressCount.count (q : EgressCount) : ℕ := q.waiting + q.sent

/-- A batch in `router_if_input`: packets to come, rows of the output array, and new buffers. -/
structure BatchCount where
  hand : ℕ
  toFec : ℕ
  toVnic : ℕ
  fresh : ℕ
  deriving DecidableEq, Repr

def BatchCount.packets (b : BatchCount) : ℕ := b.hand + b.toFec + b.toVnic

def BatchCount.row (b : BatchCount) : Netif → ℕ
  | .fec => b.toFec
  | .vnic => b.toVnic

def BatchCount.setRow (b : BatchCount) (n : ℕ) : Netif → BatchCount
  | .fec => { b with toFec := n }
  | .vnic => { b with toVnic := n }

structure PathState where
  /-- The free list of the pool. -/
  free : ℕ
  rxRing : ℕ
  txRing : ℕ
  /-- `rx_burst_bufs` of `fec_rxq`. -/
  rxBurst : ℕ
  /-- Entries of `in_queue` that wait. -/
  inWaiting : ℕ
  /-- Entries of `in_queue` that are being routed. -/
  inTaken : ℕ
  /-- `frames` of `virtio_net_flush_tx`, with `burst` and `num_packets`. -/
  frames : ℕ
  burst : ℕ
  numPackets : ℕ
  fecEgress : EgressCount
  vnicEgress : EgressCount
  fecBatch : BatchCount
  vnicBatch : BatchCount
  deriving DecidableEq, Repr

namespace PathState

variable (s : PathState)

def egress : Netif → EgressCount
  | .fec => s.fecEgress
  | .vnic => s.vnicEgress

def setEgress (q : EgressCount) : Netif → PathState
  | .fec => { s with fecEgress := q }
  | .vnic => { s with vnicEgress := q }

def batch : Netif → BatchCount
  | .fec => s.fecBatch
  | .vnic => s.vnicBatch

def setBatch (b : BatchCount) : Netif → PathState
  | .fec => { s with fecBatch := b }
  | .vnic => { s with vnicBatch := b }

end PathState

def ringSize : ℕ := 512
def egressCapacity : ℕ := 512
def inQueueCapacity : ℕ := 224
def rxBurstSz : ℕ := 32
def txBurst : ℕ := 256
def txQueueDefaultSize : ℕ := 256

/-- How many of `n` buffers `bstgw_pktq_locked_bulk_add_buff` adds. -/
def willAdd (n capacity count : ℕ) : ℕ := if n ≤ capacity - count then n else capacity - count

/-- `bstgw_ethpool_buf_alloc`. -/
def allocBuf (s : PathState) : Except Abort PathState :=
  if s.free = 0 then .error (.panic "poll_buf_alloc OOM") else .ok { s with free := s.free - 1 }

/-- Buffers are added to an egress queue, and those that do not fit are freed. -/
def enqueueBufs (s : PathState) (n : ℕ) (i : Netif) : PathState :=
  let add := willAdd n egressCapacity (s.egress i).count
  let s := { s with free := s.free + (n - add) }
  s.setEgress { s.egress i with waiting := (s.egress i).waiting + add } i

/-- What happens while a batch is routed. -/
inductive RouteAct
  /-- A packet is freed. -/
  | drop
  /-- A packet goes to a row of the output array. -/
  | collect (i : Netif)
  /-- A packet is made an ARP reply and queued. -/
  | reply (i : Netif)
  /-- A buffer is allocated, for an ARP request or by the firewall. -/
  | request
  /-- The new buffer is queued. -/
  | send (i : Netif)
  /-- The new buffer is freed. -/
  | discard
  /-- A row of the output array is queued. -/
  | flush (i : Netif)
  deriving DecidableEq, Repr

/-- The steps of the workers. -/
inductive PathInput
  /-- `fec_rxq` copies a frame into a new buffer. -/
  | rxFrame
  /-- `fec_rxq` adds its burst to `in_queue`. -/
  | rxFlush
  /-- `fec_txq` frees the buffer of a descriptor. -/
  | txComplete
  /-- `fec_route_xmit_napi` passes `n` entries of `in_queue` to the router. -/
  | routeBegin (n : ℕ)
  /-- It drops these entries. -/
  | routeEnd
  /-- `fec_xmit_handler` puts a packet into the transmit ring. -/
  | xmit
  /-- A packet that cannot be mapped for the FEC is freed. -/
  | xmitDrop
  /-- `router_pktq_tx` drops what was sent. -/
  | xmitEnd
  /-- `virtio_net_flush_tx` fixes its burst; the normal world offers `avail` packets. -/
  | vnicBegin (avail : ℕ)
  /-- It takes a packet into a new buffer, which is freed again if the packet is no good. -/
  | vnicFrame (ok : Bool)
  /-- It finds no packet, or gives up. -/
  | vnicStop (fail : Bool)
  /-- It passes the frames to the router. -/
  | vnicRoute
  /-- `virtio_net_receive` frees a packet that it has copied or dropped. -/
  | deliver
  /-- `router_pktq_tx` drops what was delivered. -/
  | deliverEnd
  | route (p : Netif) (a : RouteAct)
  deriving DecidableEq, Repr

/-- One action of the router on a batch. -/
def routeAct (s : PathState) (p : Netif) : RouteAct → Except Abort PathState
  | .drop =>
    .ok ({ s with free := s.free + 1 }.setBatch
      { s.batch p with hand := (s.batch p).hand - 1 } p)
  | .collect i =>
    let b := { s.batch p with hand := (s.batch p).hand - 1 }
    .ok (s.setBatch (b.setRow (b.row i + 1) i) p)
  | .reply i =>
    .ok (enqueueBufs (s.setBatch { s.batch p with hand := (s.batch p).hand - 1 } p) 1 i)
  | .request =>
    (allocBuf s).map fun s => s.setBatch { s.batch p with fresh := (s.batch p).fresh + 1 } p
  | .send i =>
    .ok (enqueueBufs (s.setBatch { s.batch p with fresh := (s.batch p).fresh - 1 } p) 1 i)
  | .discard =>
    .ok ({ s with free := s.free + 1 }.setBatch
      { s.batch p with fresh := (s.batch p).fresh - 1 } p)
  | .flush i =>
    .ok (enqueueBufs (s.setBatch ((s.batch p).setRow 0 i) p) ((s.batch p).row i) i)

/-- The frames of the virtual NIC are passed to the router. -/
def passFrames (s : PathState) : PathState :=
  { s with frames := 0, burst := 0, numPackets := 0, vnicBatch := ⟨s.frames, 0, 0, 0⟩ }

def pathStep (s : PathState) : PathInput → Except Abort PathState
  | .rxFrame => (allocBuf s).map fun s => { s with rxBurst := s.rxBurst + 1 }
  | .rxFlush =>
    let add := willAdd s.rxBurst inQueueCapacity (s.inWaiting + s.inTaken)
    .ok { s with
      rxBurst := 0
      inWaiting := s.inWaiting + add
      free := s.free + (s.rxBurst - add) }
  | .txComplete => .ok { s with txRing := s.txRing - 1, free := s.free + 1 }
  | .routeBegin n =>
    .ok { s with
      inWaiting := s.inWaiting - n
      inTaken := n
      fecBatch := ⟨n, 0, 0, 0⟩ }
  | .routeEnd => .ok { s with inTaken := 0 }
  | .xmit =>
    .ok { s with
      txRing := s.txRing + 1
      fecEgress := ⟨s.fecEgress.waiting - 1, s.fecEgress.sent + 1⟩ }
  | .xmitDrop =>
    .ok { s with
      free := s.free + 1
      fecEgress := ⟨s.fecEgress.waiting - 1, s.fecEgress.sent + 1⟩ }
  | .xmitEnd => .ok { s with fecEgress := { s.fecEgress with sent := 0 } }
  | .vnicBegin avail =>
    let refBurst := egressCapacity - s.fecEgress.count
    if refBurst < txQueueDefaultSize / 2 then .ok s
    else .ok { s with burst := min (min txBurst refBurst) avail, numPackets := 0 }
  | .vnicFrame ok =>
    (allocBuf s).map fun s =>
      if ok then { s with frames := s.frames + 1, numPackets := s.numPackets + 1 }
      else { s with free := s.free + 1, numPackets := s.numPackets + 1 }
  | .vnicStop fail =>
    (allocBuf s).map fun s =>
      if fail then
        { s with free := s.free + 1 + s.frames, frames := 0, burst := 0, numPackets := 0 }
      else passFrames { s with free := s.free + 1 }
  | .vnicRoute => .ok (passFrames s)
  | .deliver =>
    .ok { s with
      free := s.free + 1
      vnicEgress := ⟨s.vnicEgress.waiting - 1, s.vnicEgress.sent + 1⟩ }
  | .deliverEnd => .ok { s with vnicEgress := { s.vnicEgress with sent := 0 } }
  | .route p a => routeAct s p a

/-- An action is due: there is a packet or a new buffer it is about, and rows are queued after all
packets have been handled. -/
def RouteAllows (b : BatchCount) : RouteAct → Prop
  | .drop | .collect _ | .reply _ => 0 < b.hand ∧ b.fresh = 0
  | .request => 0 < b.hand ∧ b.fresh = 0
  | .send _ | .discard => 0 < b.fresh
  | .flush _ => b.hand = 0 ∧ b.fresh = 0

/-- A worker makes its steps in the order of its program. -/
def PathAllows (s : PathState) : PathInput → Prop
  | .rxFrame => s.rxBurst < rxBurstSz
  | .rxFlush => True
  | .txComplete => s.rxBurst = 0 ∧ 0 < s.txRing
  | .routeBegin n =>
    s.inTaken = 0 ∧ s.fecEgress.sent = 0 ∧ 0 < n ∧ n ≤ s.inWaiting ∧ n ≤ 3 * rxBurstSz
  | .routeEnd => s.fecBatch = ⟨0, 0, 0, 0⟩
  | .xmit => s.inTaken = 0 ∧ 0 < s.fecEgress.waiting ∧ s.txRing < ringSize - 1
  | .xmitDrop => s.inTaken = 0 ∧ 0 < s.fecEgress.waiting ∧ s.txRing < ringSize - 1
  | .xmitEnd => s.inTaken = 0
  | .vnicBegin avail =>
    s.burst = 0 ∧ s.vnicBatch = ⟨0, 0, 0, 0⟩ ∧ s.vnicEgress.sent = 0 ∧ 0 < avail
  | .vnicFrame _ | .vnicStop _ => s.numPackets < s.burst
  | .vnicRoute => 0 < s.burst ∧ s.numPackets = s.burst
  | .deliver =>
    s.burst = 0 ∧ s.vnicBatch = ⟨0, 0, 0, 0⟩ ∧ 0 < s.vnicEgress.waiting
  | .deliverEnd => s.burst = 0 ∧ s.vnicBatch = ⟨0, 0, 0, 0⟩
  | .route p a => RouteAllows (s.batch p) a

instance (b : BatchCount) (a : RouteAct) : Decidable (RouteAllows b a) := by
  cases a <;> dsimp only [RouteAllows] <;> infer_instance

instance (s : PathState) (inp : PathInput) : Decidable (PathAllows s inp) := by
  cases inp <;> dsimp only [PathAllows] <;> infer_instance

/-- The steps that call `bstgw_ethpool_buf_alloc`. -/
def PathInput.allocates : PathInput → Bool
  | .rxFrame | .vnicFrame _ | .vnicStop _ | .route _ .request => true
  | _ => false

/-- The drivers and the router have put in a buffer for each entry of the rings and egress queues,
and `extra` more. -/
def poolCapacity (extra : ℕ) : ℕ := ringSize + ringSize + 2 * egressCapacity + extra

/-- The pool at boot: the receive ring has its buffers, and all others are free. -/
def pathStart (extra : ℕ) : PathState where
  free := poolCapacity extra - ringSize
  rxRing := ringSize
  txRing := 0
  rxBurst := 0
  inWaiting := 0
  inTaken := 0
  frames := 0
  burst := 0
  numPackets := 0
  fecEgress := ⟨0, 0⟩
  vnicEgress := ⟨0, 0⟩
  fecBatch := ⟨0, 0, 0, 0⟩
  vnicBatch := ⟨0, 0, 0, 0⟩

/-- What `init_trusted_router` adds. -/
def routerExtra : ℕ := 2 + 2 + 64

/-- The buffers in the input queue and with the workers. -/
def busy (s : PathState) : ℕ :=
  s.rxBurst + s.inWaiting + s.frames + s.fecBatch.packets + s.fecBatch.fresh +
    s.vnicBatch.packets + s.vnicBatch.fresh

/-- The buffers that are in use. -/
def inUse (s : PathState) : ℕ :=
  s.rxRing + s.txRing + s.fecEgress.waiting + s.vnicEgress.waiting + busy s

/-! ## All buffers are somewhere -/

/-- The buffers add up, and the places keep their bounds. -/
structure PathInv (extra : ℕ) (s : PathState) : Prop where
  total : s.free + inUse s = poolCapacity extra
  rxRing : s.rxRing = 512
  txRing : s.txRing ≤ 511
  fecEgress : s.fecEgress.count ≤ 512
  vnicEgress : s.vnicEgress.count ≤ 512
  rxBurst : s.rxBurst ≤ 32
  inQueue : s.inWaiting + s.inTaken ≤ 224
  fecBatch : s.fecBatch.packets ≤ s.inTaken
  fecFresh : s.fecBatch.fresh ≤ 1
  vnicBatch : s.vnicBatch.packets ≤ 256
  vnicFresh : s.vnicBatch.fresh ≤ 1
  frames : s.frames ≤ s.numPackets ∧ s.numPackets ≤ s.burst ∧ s.burst ≤ 256
  collecting : 0 < s.burst → s.vnicBatch = ⟨0, 0, 0, 0⟩
  waiting : s.inTaken = 0 → s.fecBatch = ⟨0, 0, 0, 0⟩

theorem willAdd_le (n capacity count : ℕ) : willAdd n capacity count ≤ n := by
  unfold willAdd
  split <;> omega

theorem add_willAdd_le {n capacity count : ℕ} (h : count ≤ capacity) :
    count + willAdd n capacity count ≤ capacity := by
  unfold willAdd
  split <;> omega

theorem map_allocBuf {s s' : PathState} {f : PathState → PathState}
    (h : (allocBuf s).map f = .ok s') : 0 < s.free ∧ s' = f { s with free := s.free - 1 } := by
  unfold allocBuf at h
  split at h
  · cases h
  · next hne => exact ⟨Nat.pos_of_ne_zero hne, (Except.ok.inj h).symm⟩

section Steps

variable {extra : ℕ} {s s' : PathState}

theorem PathInv.start (extra : ℕ) : PathInv extra (pathStart extra) := by
  refine ⟨?_, rfl, ?_, ?_, ?_, ?_, ?_, ?_, ?_, ?_, ?_, ?_, fun _ => rfl, fun _ => rfl⟩ <;>
    simp [pathStart, inUse, busy, poolCapacity, ringSize, egressCapacity, BatchCount.packets,
      EgressCount.count]
  omega

/-- The pool, the egress queues and one batch after an action of the router. -/
def PathState.routed (s : PathState) (p : Netif) (free : ℕ) (fec vnic : EgressCount)
    (b : BatchCount) : PathState :=
  { s with free := free, fecEgress := fec, vnicEgress := vnic }.setBatch b p

/-- What every action of the router keeps: no buffer gets lost, queues are not overfilled, and a
batch does not grow. -/
structure Routed (s : PathState) (p : Netif) (free : ℕ) (fec vnic : EgressCount) (b : BatchCount) :
    Prop where
  total : free + fec.waiting + vnic.waiting + b.packets + b.fresh =
    s.free + s.fecEgress.waiting + s.vnicEgress.waiting + (s.batch p).packets + (s.batch p).fresh
  fec : fec.count ≤ 512
  vnic : vnic.count ≤ 512
  packets : b.packets ≤ (s.batch p).packets
  fresh : b.fresh ≤ 1
  idle : s.batch p = ⟨0, 0, 0, 0⟩ → b = ⟨0, 0, 0, 0⟩

theorem Routed.pathInv {p : Netif} {free : ℕ} {fec vnic : EgressCount} {b : BatchCount}
    (hr : Routed s p free fec vnic b) (h : PathInv extra s) :
    PathInv extra (s.routed p free fec vnic b) := by
  have htotal := h.total
  have hr' := hr.total
  simp only [inUse, busy] at htotal
  cases p with
  | fec =>
    refine { h with
      total := ?_
      fecEgress := hr.fec
      vnicEgress := hr.vnic
      fecBatch := hr.packets.trans h.fecBatch
      fecFresh := hr.fresh
      waiting := fun ht => hr.idle (h.waiting ht) }
    simp only [PathState.batch] at hr'
    simp only [inUse, busy, PathState.routed, PathState.setBatch]
    omega
  | vnic =>
    refine { h with
      total := ?_
      fecEgress := hr.fec
      vnicEgress := hr.vnic
      vnicBatch := hr.packets.trans h.vnicBatch
      vnicFresh := hr.fresh
      collecting := fun hb => hr.idle (h.collecting hb) }
    simp only [PathState.batch] at hr'
    simp only [inUse, busy, PathState.routed, PathState.setBatch]
    omega

/-- Adding `n` buffers to an egress queue, from a batch that has lost them. -/
theorem exists_routed_enqueueBufs (h : PathInv extra s) {p : Netif} {b : BatchCount} {n : ℕ}
    (i : Netif) (hn : b.packets + b.fresh + n = (s.batch p).packets + (s.batch p).fresh)
    (hpk : b.packets ≤ (s.batch p).packets) (hfresh : b.fresh ≤ 1)
    (hidle : s.batch p = ⟨0, 0, 0, 0⟩ → b = ⟨0, 0, 0, 0⟩) :
    ∃ free fec vnic, enqueueBufs (s.setBatch b p) n i = s.routed p free fec vnic b ∧
      Routed s p free fec vnic b := by
  have hle := willAdd_le n egressCapacity (s.egress i).count
  cases i with
  | fec =>
    have hroom := add_willAdd_le (n := n) h.fecEgress
    refine ⟨_, _, _, by cases p <;> rfl, ?_, ?_, h.vnicEgress, hpk, hfresh, hidle⟩
    · cases p <;> simp only [PathState.setBatch, PathState.egress, PathState.batch] at * <;> omega
    · cases p <;> simp only [PathState.setBatch, PathState.egress, EgressCount.count,
        egressCapacity] at * <;> omega
  | vnic =>
    have hroom := add_willAdd_le (n := n) h.vnicEgress
    refine ⟨_, _, _, by cases p <;> rfl, ?_, h.fecEgress, ?_, hpk, hfresh, hidle⟩
    · cases p <;> simp only [PathState.setBatch, PathState.egress, PathState.batch] at * <;> omega
    · cases p <;> simp only [PathState.setBatch, PathState.egress, EgressCount.count,
        egressCapacity] at * <;> omega

theorem PathInv.fresh (h : PathInv extra s) (p : Netif) : (s.batch p).fresh ≤ 1 := by
  cases p
  · exact h.fecFresh
  · exact h.vnicFresh

/-- An action that leaves the queues alone. -/
theorem Routed.of_batch (h : PathInv extra s) {p : Netif} {free : ℕ} {b : BatchCount}
    (htotal : free + b.packets + b.fresh = s.free + (s.batch p).packets + (s.batch p).fresh)
    (hpk : b.packets ≤ (s.batch p).packets) (hfresh : b.fresh ≤ 1)
    (hidle : s.batch p = ⟨0, 0, 0, 0⟩ → b = ⟨0, 0, 0, 0⟩) :
    Routed s p free s.fecEgress s.vnicEgress b :=
  ⟨by omega, h.fecEgress, h.vnicEgress, hpk, hfresh, hidle⟩

theorem exists_routed (h : PathInv extra s) {p : Netif} {a : RouteAct}
    (hallow : RouteAllows (s.batch p) a) (hstep : routeAct s p a = .ok s') :
    ∃ free fec vnic b, s' = s.routed p free fec vnic b ∧ Routed s p free fec vnic b := by
  have hfresh := h.fresh p
  -- only a flush is allowed for a batch that is done
  have hidle : ∀ {b : BatchCount}, (∀ i, a ≠ .flush i) → s.batch p = ⟨0, 0, 0, 0⟩ →
      b = ⟨0, 0, 0, 0⟩ := by
    intro b ha hb
    rw [hb] at hallow
    cases a <;> simp_all [RouteAllows]
  have hqueue : ∀ {b : BatchCount} {n : ℕ} (i : Netif),
      routeAct s p a = .ok (enqueueBufs (s.setBatch b p) n i) →
      (∃ free fec vnic, enqueueBufs (s.setBatch b p) n i = s.routed p free fec vnic b ∧
        Routed s p free fec vnic b) →
      ∃ free fec vnic b, s' = s.routed p free fec vnic b ∧ Routed s p free fec vnic b := by
    rintro b n i heq ⟨free, fec, vnic, hs, hr⟩
    rw [hstep] at heq
    exact ⟨free, fec, vnic, b, (Except.ok.inj heq).trans hs, hr⟩
  cases a with
  | drop =>
    cases hstep
    obtain ⟨hhand, -⟩ := hallow
    refine ⟨_, _, _, _, rfl, .of_batch h ?_ ?_ hfresh (hidle (by simp))⟩ <;>
      simp only [BatchCount.packets] <;> omega
  | collect i =>
    cases hstep
    obtain ⟨hhand, -⟩ := hallow
    refine ⟨_, _, _, _, rfl, .of_batch h ?_ ?_ ?_ (hidle (by simp))⟩ <;>
      cases i <;> simp only [BatchCount.packets, BatchCount.setRow, BatchCount.row] <;> omega
  | reply i =>
    obtain ⟨hhand, -⟩ := hallow
    refine hqueue i rfl (exists_routed_enqueueBufs h i ?_ ?_ hfresh (hidle (by simp))) <;>
      simp only [BatchCount.packets] <;> omega
  | request =>
    obtain ⟨-, hnone⟩ := hallow
    obtain ⟨hpos, rfl⟩ := map_allocBuf hstep
    refine ⟨_, _, _, _, rfl, .of_batch h ?_ ?_ ?_ (hidle (by simp))⟩ <;>
      cases p <;> simp only [BatchCount.packets, PathState.batch] at * <;> omega
  | send i =>
    refine hqueue i rfl (exists_routed_enqueueBufs h i ?_ ?_ ?_ (hidle (by simp))) <;>
      simp only [BatchCount.packets, RouteAllows] at * <;> omega
  | discard =>
    cases hstep
    refine ⟨_, _, _, _, rfl, .of_batch h ?_ ?_ ?_ (hidle (by simp))⟩ <;>
      simp only [BatchCount.packets, RouteAllows] at * <;> omega
  | flush i =>
    refine hqueue i rfl (exists_routed_enqueueBufs h i ?_ ?_ ?_ fun hb => ?_)
    rotate_right
    · rw [hb]
      cases i <;> rfl
    all_goals
      cases i <;> simp only [BatchCount.packets, BatchCount.setRow, BatchCount.row] <;> omega

theorem PathInv.passFrames (h : PathInv extra s) (hburst : 0 < s.burst) :
    PathInv extra (passFrames s) := by
  have htotal := h.total
  have hframes := h.frames
  simp only [inUse, busy] at htotal
  rw [h.collecting hburst] at htotal
  refine { h with
    total := ?_
    vnicBatch := ?_
    vnicFresh := Nat.zero_le _
    frames := by simp [Router.passFrames]
    collecting := by simp [Router.passFrames] }
  all_goals simp only [inUse, busy, BatchCount.packets, Router.passFrames] at *
  all_goals omega

/-- A step keeps the buffers together. -/
theorem PathInv.step (h : PathInv extra s) {inp : PathInput} (hallow : PathAllows s inp)
    (hstep : pathStep s inp = .ok s') : PathInv extra s' := by
  have htotal := h.total
  simp only [inUse, busy] at htotal
  cases inp with
  | rxFrame =>
    obtain ⟨hpos, rfl⟩ := map_allocBuf hstep
    refine { h with total := ?_, rxBurst := hallow }
    simp only [inUse, busy]
    omega
  | rxFlush =>
    cases hstep
    have hle := willAdd_le s.rxBurst inQueueCapacity (s.inWaiting + s.inTaken)
    have hroom := add_willAdd_le (n := s.rxBurst) h.inQueue
    refine { h with total := ?_, rxBurst := Nat.zero_le _, inQueue := ?_ }
    · simp only [inUse, busy]
      omega
    · simp only [inQueueCapacity] at *
      omega
  | txComplete =>
    cases hstep
    obtain ⟨-, hpos⟩ := hallow
    refine { h with total := ?_, txRing := (Nat.sub_le _ _).trans h.txRing }
    simp only [inUse, busy]
    omega
  | routeBegin n =>
    cases hstep
    obtain ⟨htaken, -, hpos, hn, -⟩ := hallow
    have hin := h.inQueue
    rw [h.waiting htaken] at htotal
    refine { h with
      total := ?_
      inQueue := ?_
      fecBatch := le_rfl
      fecFresh := Nat.zero_le _
      waiting := fun h0 => absurd h0 hpos.ne' }
    all_goals simp only [inUse, busy, BatchCount.packets] at *
    all_goals omega
  | routeEnd =>
    cases hstep
    refine { h with
      inQueue := (Nat.le_add_right _ _).trans h.inQueue
      fecBatch := le_of_eq ?_
      waiting := fun _ => hallow }
    rw [show s.fecBatch = _ from hallow]
    rfl
  | xmit =>
    cases hstep
    obtain ⟨-, hpos, hring⟩ := hallow
    have hcount := h.fecEgress
    refine { h with total := ?_, txRing := ?_, fecEgress := ?_ }
    all_goals simp only [inUse, busy, EgressCount.count, ringSize] at *
    all_goals omega
  | xmitDrop =>
    cases hstep
    obtain ⟨-, hpos, -⟩ := hallow
    have hcount := h.fecEgress
    refine { h with total := ?_, fecEgress := ?_ }
    all_goals simp only [inUse, busy, EgressCount.count] at *
    all_goals omega
  | xmitEnd =>
    cases hstep
    exact { h with fecEgress := (Nat.le_add_right _ _).trans h.fecEgress }
  | vnicBegin avail =>
    obtain ⟨hburst, hbatch, -, -⟩ := hallow
    simp only [pathStep] at hstep
    split at hstep
    · cases hstep
      exact h
    · cases hstep
      have hframes := h.frames
      refine { h with frames := ⟨?_, ?_, ?_⟩, collecting := fun _ => hbatch }
      all_goals simp only [txBurst]
      all_goals omega
  | vnicFrame ok =>
    obtain ⟨hpos, rfl⟩ := map_allocBuf hstep
    have hlt : s.numPackets < s.burst := hallow
    have hframes := h.frames
    cases ok
    · refine { h with total := ?_, frames := ⟨?_, ?_, ?_⟩ }
      all_goals simp only [inUse, busy, Bool.false_eq_true, if_false]
      all_goals omega
    · refine { h with total := ?_, frames := ⟨?_, ?_, ?_⟩ }
      all_goals simp only [inUse, busy, if_true]
      all_goals omega
  | vnicStop fail =>
    obtain ⟨hpos, rfl⟩ := map_allocBuf hstep
    have hlt : s.numPackets < s.burst := hallow
    have hback : PathInv extra { s with free := s.free - 1 + 1 } := by
      rw [Nat.sub_add_cancel hpos]
      exact h
    cases fail
    · exact hback.passFrames (Nat.zero_lt_of_lt hlt)
    · refine { h with total := ?_, frames := by simp, collecting := by simp }
      simp only [inUse, busy, if_true]
      omega
  | vnicRoute =>
    cases hstep
    exact h.passFrames hallow.1
  | deliver =>
    cases hstep
    obtain ⟨-, -, hpos⟩ := hallow
    have hcount := h.vnicEgress
    refine { h with total := ?_, vnicEgress := ?_ }
    all_goals simp only [inUse, busy, EgressCount.count] at *
    all_goals omega
  | deliverEnd =>
    cases hstep
    exact { h with vnicEgress := (Nat.le_add_right _ _).trans h.vnicEgress }
  | route p a =>
    obtain ⟨free, fec, vnic, b, rfl, hr⟩ := exists_routed h hallow hstep
    exact hr.pathInv h

/-- A run keeps the buffers together. -/
theorem PathInv.run {is : List PathInput}
    (hr : Run pathStep PathAllows (pathStart extra) is s) : PathInv extra s :=
  hr.inv (fun _ _ _ h hallow hstep => h.step hallow hstep) (.start extra)

/-- Only an allocation from an empty pool panics. -/
theorem exists_ok_pathStep {inp : PathInput} (h : inp.allocates = true → 0 < s.free) :
    ∃ s', pathStep s inp = .ok s' := by
  have halloc : inp.allocates = true → allocBuf s = .ok { s with free := s.free - 1 } :=
    fun ha => if_neg (h ha).ne'
  cases inp with
  | rxFrame | vnicFrame ok | vnicStop fail => exact ⟨_, by rw [pathStep, halloc rfl]; rfl⟩
  | vnicBegin avail =>
    simp only [pathStep]
    split <;> exact ⟨_, rfl⟩
  | route p a =>
    cases a with
    | request => exact ⟨_, by rw [pathStep, routeAct, halloc rfl]; rfl⟩
    | _ => exact ⟨_, rfl⟩
  | _ => exact ⟨_, rfl⟩

/-- The rings and egress queues take at most their share of the pool, but for one descriptor. -/
theorem PathInv.inUse_lt (h : PathInv extra s) (hbusy : busy s ≤ extra) :
    inUse s < poolCapacity extra := by
  have hrx := h.rxRing
  have htx := h.txRing
  have hfec := h.fecEgress
  have hvnic := h.vnicEgress
  simp only [inUse, poolCapacity, ringSize, egressCapacity, EgressCount.count] at *
  omega

/-- The input queue and the bursts take at most 514 buffers. -/
theorem PathInv.busy_le (h : PathInv extra s) : busy s ≤ 514 := by
  have hrx := h.rxBurst
  have hin := h.inQueue
  have hfec := h.fecBatch
  have hfecFresh := h.fecFresh
  have hvnic := h.vnicBatch
  have hvnicFresh := h.vnicFresh
  have hframes := h.frames
  simp only [busy]
  -- frames are collected only after the last batch is done
  rcases Nat.eq_zero_or_pos s.burst with h0 | hpos
  · omega
  · rw [h.collecting hpos] at *
    simp only [BatchCount.packets] at *
    omega

end Steps

/-- **The pool has a free buffer**, in every state of every run, if the input queue and the bursts
take no more than what `init_trusted_router` has added for them. -/
theorem pool_suffices {is : List PathInput} {s : PathState}
    (hr : Run pathStep PathAllows (pathStart routerExtra) is s) {inp : PathInput}
    (hallow : PathAllows s inp) (hbusy : inp.allocates = true → busy s ≤ routerExtra) :
    (inp.allocates = true → inUse s < poolCapacity routerExtra) ∧
      ∃ s', pathStep s inp = .ok s' ∧
        Run pathStep PathAllows (pathStart routerExtra) (is ++ [inp]) s' := by
  have h := PathInv.run hr
  have hlt := fun ha => h.inUse_lt (hbusy ha)
  have hfree : inp.allocates = true → 0 < s.free := by
    intro ha
    have htotal := h.total
    have hin := hlt ha
    omega
  obtain ⟨s', hs⟩ := exists_ok_pathStep hfree
  exact ⟨hlt, s', hs, hr.snoc hallow hs⟩

/-- A frame is received while the virtual NIC collects a burst. -/
theorem pool_suffices_two : ∃ s s', Run pathStep PathAllows (pathStart routerExtra)
    [.vnicBegin 2, .vnicFrame true, .rxFrame] s' ∧ busy s = 1 ∧ pathStep s .rxFrame = .ok s' := by
  obtain ⟨s, hr, hs⟩ : ∃ s, Run pathStep PathAllows (pathStart routerExtra)
      [.vnicBegin 2, .vnicFrame true] s ∧ (busy s, s.rxBurst) = (1, 0) :=
    exists_run_of_exec (by decide +kernel)
  obtain ⟨hbusy, hburst⟩ := Prod.mk.inj hs
  have hallow : PathAllows s .rxFrame := by
    rw [PathAllows, hburst]
    decide
  obtain ⟨-, s', hs', hr'⟩ := pool_suffices hr hallow fun _ => by
    rw [hbusy]
    decide
  exact ⟨s, s', hr', hbusy, hs'⟩

/-! ## The pool runs dry -/

/-- The virtual NIC sends `n` packets to the FEC. -/
def sendBurst (n : ℕ) : List PathInput :=
  .vnicBegin n :: (List.replicate n (.vnicFrame true) ++ .vnicRoute ::
    (List.replicate n (.route .vnic (.collect .fec)) ++ [.route .vnic (.flush .fec)]))

/-- The FEC puts `n` of them into its transmit ring. -/
def xmitBurst (n : ℕ) : List PathInput := List.replicate n .xmit ++ [.xmitEnd]

/-- The FEC receives `n` packets. -/
def receiveBurst (n : ℕ) : List PathInput := List.replicate n .rxFrame ++ [.rxFlush]

/-- They are routed to the virtual NIC. -/
def routeBurst (n : ℕ) : List PathInput :=
  .routeBegin n :: (List.replicate n (.route .fec (.collect .vnic)) ++
    [.route .fec (.flush .vnic), .routeEnd])

/-- The transmit ring and the egress queues are filled, and then 69 frames arrive. -/
def drain : List PathInput :=
  sendBurst 256 ++ xmitBurst 256 ++ sendBurst 255 ++ xmitBurst 255 ++ sendBurst 256 ++
    sendBurst 256 ++ (List.replicate 16 (receiveBurst 32 ++ routeBurst 32)).flatten ++
    receiveBurst 32 ++ receiveBurst 32 ++ List.replicate 5 .rxFrame

/-- The next frame finds no buffer, with less than a third of the input queue in use. -/
theorem pool_runs_dry : ∃ s, Run pathStep PathAllows (pathStart routerExtra) drain s ∧
    (inUse s = poolCapacity routerExtra ∧ s.inWaiting = 64) ∧ PathAllows s .rxFrame ∧
    pathStep s .rxFrame = .error (.panic "poll_buf_alloc OOM") := by
  obtain ⟨s, hr, hs⟩ : ∃ s, Run pathStep PathAllows (pathStart routerExtra) drain s ∧
      (inUse s, s.inWaiting, s.rxBurst, s.free) = (2116, 64, 5, 0) :=
    exists_run_of_exec (by decide +kernel)
  simp only [Prod.mk.injEq] at hs
  obtain ⟨huse, hin, hburst, hfree⟩ := hs
  refine ⟨s, hr, ⟨huse, hin⟩, ?_, ?_⟩
  · rw [PathAllows, hburst]
    decide
  · rw [pathStep, allocBuf, if_pos hfree]
    rfl

end Router

end TrustedGateway
