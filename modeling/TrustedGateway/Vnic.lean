import TrustedGateway.Mmio
import TrustedGateway.PktQueue
import TrustedGateway.VirtioNet

/-!
# The virtual NIC among its neighbours

Three parties act on the device: the normal world accesses registers and rewrites its own
memory, the router's workers put packets into the egress queue, and the device's worker polls
(`vnic.c`, and what it meets of `worker.c` and `npf_router.c`).  No lock orders them, so a
poll is cut into the points between which anything may happen.  A call of
`virtio_net_flush_tx` or `router_pktq_tx` is one step.

## Main definitions

* `Vnic` — the device, the egress queue, and where the worker is.
* `vnicPollStep` — what the worker does next.
* `pktqDoMenqueue` — packets routed towards the device.
* `vnicStep` — one step of one party.
-/

namespace TrustedGateway

variable {M : Type}

/-! ## Polling -/

/-- Where the worker of the device is: waiting for `SCHED`, or in front of the named part of
`vnic_poll`.  `pkts` and `events` are the locals of the loop, `ret` is the last return value of
`router_pktq_tx`. -/
inductive PollAt
  | idle
  | maskRx
  | maskTx
  | flushTx (pkts : ℤ)
  | pktqTx (pkts : ℤ) (events : Bool)
  | complete (ret : ℤ)
  | rearmTx (ret : ℤ)
  | rearmRx
  deriving DecidableEq, Repr

structure Vnic (M : Type) where
  net : Net M
  egress : PktQueue
  worker : PollAt

namespace Vnic

def setVq (v : Vnic M) (q : QIdx) (vq : Vqueue) : Vnic M :=
  { v with net := { v.net with dev := v.net.dev.setVq q vq } }

def setNapi (v : Vnic M) (n : Napi) : Vnic M :=
  { v with net := { v.net with dev := { v.net.dev with napi := n } } }

def schedule (v : Vnic M) : Vnic M := v.setNapi (napiSchedule v.net.dev.napi)

/-- The worker goes on at `p`. -/
def goto (v : Vnic M) (p : PollAt) : Vnic M := { v with worker := p }

end Vnic

/-- Whether a return value counts as an event. -/
def isEvent (ret : ℤ) : Bool := 0 < ret ∨ ret = virtioNapiRetry

theorem isEvent_iff {ret : ℤ} : isEvent ret ↔ 0 < ret ∨ ret = virtioNapiRetry := by
  simp only [isEvent, decide_eq_true_eq]

/-- `vnic_xmit_handler`. -/
def vnicXmitHandler (env : Env) (w : Net M) (pkts : List (Option BufId)) :
    Except Abort (ℤ × Net M) :=
  if (w.dev.vdev.vq 1).vringAddr = 0 then .ok (0, w) else virtioNetReceive env w pkts

/-- `router_pktq_tx`; the device is not an external interface. -/
def routerPktqTx (env : Env) (w : Net M) (pq : PktQueue) : Except Abort (ℤ × Net M × PktQueue) :=
  let pktburst := pq.contigBufs
  if pktburst = 0 then .ok (0, w, pq)
  else
    match vnicXmitHandler env w (pq.window pktburst) with
    | .error a => .error a
    | .ok (sent, w) => .ok (sent, w, if sent ≤ 0 then pq else pq.dropBufs sent.toNat)

/-- Ask the normal world not to notify a queue. -/
def maskQueue (v : Vnic M) (q : QIdx) (p : PollAt) : Except Abort (Vnic M) :=
  match (v.net.dev.vdev.vq q).setUsedFlags (· ||| vringUsedFNoNotify) with
  | .error a => .error a
  | .ok vq => .ok ((v.setVq q vq).goto p)

/-- Ask for notifications of a queue again, unless there is work in it; `p` is where the
worker goes on when there is none. -/
def rearmQueue (v : Vnic M) (q : QIdx) (p : PollAt) : Except Abort (Vnic M) :=
  match vqueueNumOfAvailBufAndNotify (v.net.dev.vdev.vq q) with
  | .error a => .error a
  | .ok (num, vq) =>
    .ok (if num ≠ 0 then ((v.setVq q vq).schedule).goto .idle else (v.setVq q vq).goto p)

/-- What the worker does next: `worker_run` around `vnic_poll`.  A poll that has used up its
budget is followed by another one. -/
def vnicPollStep (env : Env) (v : Vnic M) : Except Abort (Vnic M) :=
  match v.worker with
  | .idle =>
    if v.net.dev.napi.sched then
      .ok ((v.setNapi { v.net.dev.napi with doNotify := false }).goto .maskRx)
    else .ok v
  | .maskRx => maskQueue v 0 .maskTx
  | .maskTx => maskQueue v 1 (.flushTx 0)
  | .flushTx pkts =>
    match virtioNetFlushTx env v.net with
    | .error a => .error a
    | .ok (ret, w) =>
      .ok { v with
        net := w
        worker := .pktqTx (if 0 < ret then pkts + ret else pkts) (isEvent ret) }
  | .pktqTx pkts events =>
    match routerPktqTx env v.net v.egress with
    | .error a => .error a
    | .ok (ret, w, pq) =>
      .ok ⟨w, pq,
        if ¬ (events || isEvent ret) then .complete ret
        else if pkts < pollBudget then .flushTx pkts else .maskRx⟩
  | .complete ret =>
    let (done, n) := napiComplete v.net.dev.napi
    .ok ((v.setNapi n).goto (if done then .rearmTx ret else .idle))
  | .rearmTx ret => rearmQueue v 1 (if ret = virtioNoAvail then .rearmRx else .idle)
  | .rearmRx => rearmQueue v 0 .idle

/-! ## The other parties -/

/-- `pktq_do_menqueue` towards the device: queue what fits, free the rest, and schedule the
device unless it is its own worker that routes. -/
def pktqDoMenqueue (v : Vnic M) (own : Bool) (pkts : List BufId) : Vnic M :=
  let (negr, pq) := v.egress.bulkAddBuff pkts
  let v := { v with
    egress := pq
    net := { v.net with pool := v.net.pool.bufFreeAll (pkts.drop negr) } }
  if negr = 0 ∨ own then v else v.schedule

/-- A step of one party: the normal world accesses a register, or writes to its rings and its
data memory; a worker routes packets towards the device; the device's worker goes on. -/
inductive VnicEvent
  | mmio (a : Access)
  | guest (shared : QIdx → RingMem) (nw : ℕ → Byte)
  | enqueue (own : Bool) (pkts : List BufId)
  | poll (env : Env)

/-- The normal world writes to its memory. -/
def guestWrites (v : Vnic M) (shared : QIdx → RingMem) (nw : ℕ → Byte) : Vnic M :=
  { v with net := { v.net with
    nw := nw
    dev := { v.net.dev with vdev := { v.net.dev.vdev with
      vq := fun q => { v.net.dev.vdev.vq q with shared := shared q } } } } }

/-- One step of the system. -/
def vnicStep (mmu : CoreMmu M) (v : Vnic M) : VnicEvent → Except Abort (Vnic M)
  | .mmio a =>
    match mmioStep mmu v.net.dev a with
    | .error e => .error e
    | .ok d => .ok { v with net := { v.net with dev := d } }
  | .guest shared nw => .ok (guestWrites v shared nw)
  | .enqueue own pkts => .ok (pktqDoMenqueue v own pkts)
  | .poll env => vnicPollStep env v

/-- The system after `vnic_init`, with what happens to be in the two memories. -/
def Vnic.init (m : M) (shared : QIdx → RingMem) (pool : EthPool) (sec : SecMem) (nw : ℕ → Byte)
    (egress : PktQueue) : Vnic M where
  net := ⟨Dev.init m shared, pool, sec, nw, []⟩
  egress := egress
  worker := .idle

end TrustedGateway
