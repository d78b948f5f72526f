import TrustedGateway.Lib.Batch
import TrustedGateway.EthBuf
import TrustedGateway.Virtio

/-!
# The data path of the virtual NIC

`virtio_net_receive` moves packets of the router into receive buffers of the normal world,
`virtio_net_flush_tx` moves transmit buffers of the normal world into frames for the
router.  Both are batch loops with many exits; the loop is `BatchLoop.batch`, the loop body
is cut where the source changes from looking at a chain to acting on it.

The normal world leaves its rings and buffers alone while a call runs.  Its data memory and
its rings are kept apart: `nw` is the former, the rings are in the queues.

## Main definitions

* `Net` — the device with the packet buffers and the data memory of both worlds.
* `virtioNetReceive` — `rxPrepare` finds the packet, `rxFill` fills a chain with it.
* `virtioNetFlushTx` — `txInspect` judges a chain, `txBody` acts on the verdict.
-/

namespace TrustedGateway

open FlatMemory BatchLoop

/-- A frame in the array for the router.  Its chain and the `memcpy` calls that filled the
local header and the buffer are specification-only. -/
structure Frame where
  buf : BufId
  chain : List Piece
  hdrCalls : List Memcpy
  dataCalls : List Memcpy

/-- The device, the packet buffers and the data memories.  `handed` lists the frames the
router has been given. -/
structure Net (M : Type) where
  dev : Dev M
  pool : EthPool
  sec : SecMem
  nw : ℕ → Byte
  handed : List Frame

/-- What a call meets outside of its own state: the address translation, the value an
uninitialised local of `vqueue_map_iovs` happens to have, the bytes an uninitialised header
happens to have, the room in the router's queues, and whether `malloc` succeeds. -/
structure Env where
  va : Word → Word
  uninit : Half → ℤ
  stack : ℕ → Byte
  refBurst : Word
  mallocOk : Bool

/-- `sizeof(struct virtio_net_hdr_v1)`. -/
def vnetHdrLen : ℕ := 12

variable {M : Type}

/-! ## Gateway to normal world -/

def maxRxIovs : ℕ := 1

/-- The header before every packet: all zero but `num_buffers`, which is one. -/
def rxVnetHdr : ℕ → Byte := fun k => if k = 10 then 1 else 0

/-- The loop state of `virtio_net_receive`. -/
structure RxState where
  vq : Vqueue
  pool : EthPool
  sec : SecMem
  nw : ℕ → Byte
  processed : ℕ
  enqueued : ℕ

/-- Give a packet up. -/
def RxState.dropBuf (s : RxState) (b : BufId) : RxState :=
  { s with pool := s.pool.bufFree b, processed := s.processed + 1 }

/-- The part of an iteration before the queue is touched: the packet to deliver, in one
buffer and not empty, or nothing. -/
def rxPrepare (s : RxState) : Option BufId → Except Abort (Option BufId × RxState)
  | none => .ok (none, { s with processed := s.processed + 1 })
  | some b =>
    match ethbufLinearize s.pool s.sec b with
    | .error a => .error a
    | .ok (ret, pool, sec) =>
      let s := { s with pool := pool, sec := sec }
      if ret ≠ 0 then .ok (none, s.dropBuf b)
      else if (s.pool.eb b).dataLen = 0 then .ok (none, s.dropBuf b)
      else .ok (some b, s)

/-- What became of a chain that was taken for a packet. -/
structure RxFill where
  ok : Bool
  out : VqueueIovs
  nw : ℕ → Byte
  hdrCalls : List Memcpy
  dataCalls : List Memcpy

/-- The part of an iteration that looks at the chain: check its length, map it, and copy
the header and the packet `e` with bytes `src`.  Without merged receive buffers only the
first descriptor counts. -/
def rxFill (env : Env) (idx : Half) (buf : VqueueBuf) (e : EthBuf) (src nw : ℕ → Byte) :
    RxFill :=
  match buf.outIovs.pieces with
  | [] => ⟨false, buf.outIovs, nw, [], []⟩
  | p :: _ =>
    if p.iov.len.toNat < addSize vnetHdrLen e.dataLen.toNat then
      ⟨false, buf.outIovs, nw, [], []⟩
    else
      let (ret, out) := vqueueMapIovs env.va (env.uninit idx) buf.outIovs
      if ret ≠ noError then ⟨false, out, nw, [], []⟩
      else
        let iovs := out.iovs.take 1
        let h := membufToKernIovec nw iovs rxVnetHdr (some 0) vnetHdrLen
        if h.ret ≠ BitVec.ofNat 32 vnetHdrLen then
          ⟨false, vqueueUnmapIovs out, h.mem, h.calls, []⟩
        else
          let d := membufToKernIovecSkipBegin h.mem iovs src (ethbufDataPtr e 0)
            e.dataLen.toNat vnetHdrLen
          ⟨d.ret = e.dataLen, vqueueUnmapIovs out, d.mem, h.calls, d.calls⟩

/-- The part of an iteration with a packet in `b`: take a chain, fill it, give it back. -/
def rxDeliver (env : Env) (rxBurst : Word) (s : RxState) (b : BufId) :
    Except Abort (Next ℤ × RxState) :=
  match vqueueGetAvailBuf s.vq (VqueueBuf.empty 0 maxRxIovs) with
  | .error a => .error a
  | .ok (ret, buf, vq) =>
    if ret ≠ noError then .ok (.brk, { s with vq := vq })
    else
      let e := s.pool.eb b
      let f := rxFill env s.vq.lastAvailIdx buf e (s.sec b) s.nw
      match vqueueAddBuf vq { buf with outIovs := f.out }
          (if f.ok then BitVec.ofNat 32 vnetHdrLen + e.dataLen else 0) with
      | .error a => .error a
      | .ok (_, vq) =>
        let s := { s with vq := vq, nw := f.nw }
        if f.ok then
          let s := { s.dropBuf b with enqueued := s.enqueued + 1 }
          .ok (if rxBurst.toNat ≤ s.processed then .brk else .cont, s)
        else .ok (.brk, s)

/-- One iteration. -/
def rxBody (env : Env) (rxBurst : Word) (s : RxState) (ob : Option BufId) :
    Except Abort (Next ℤ × RxState) :=
  match rxPrepare s ob with
  | .error a => .error a
  | .ok (none, s) => .ok (.cont, s)
  | .ok (some b, s) => rxDeliver env rxBurst s b

/-- `virtio_net_can_receive`. -/
def virtioNetCanReceive (d : Dev M) : Prop :=
  ¬ ((d.vdev.vq 0).vringAddr = 0 ∨ d.vdev.status &&& virtioConfigSDriverOk = 0)

instance (d : Dev M) : Decidable (virtioNetCanReceive d) :=
  inferInstanceAs (Decidable (¬ _))

/-- The loop state at the start. -/
def Net.rxStart (w : Net M) : RxState := ⟨w.dev.vdev.vq 0, w.pool, w.sec, w.nw, 0, 0⟩

/-- Take the loop state over. -/
def Net.rxFinish (w : Net M) (s : RxState) : Net M :=
  { w with dev := w.dev.setVq 0 s.vq, pool := s.pool, sec := s.sec, nw := s.nw }

/-- `virtio_net_receive`. -/
def virtioNetReceive (env : Env) (w : Net M) (ethbufs : List (Option BufId)) :
    Except Abort (ℤ × Net M) :=
  if ¬ virtioNetCanReceive w.dev then .ok (-1, w)
  else
    match vqueueNumOfAvailBuf (w.dev.vdev.vq 0) with
    | .error a => .error a
    | .ok space =>
      if space = 0 then .ok (virtioNoAvail, w)
      else if space.toNat < virtioNetQueueDefaultSize / 2 then .ok (virtioNapiRetry, w)
      else
        match batch (rxBody env w.dev.vnet.rxBurst) ethbufs w.rxStart with
        | .error a => .error a
        | .ok (_, s) =>
          let w := w.rxFinish s
          if 0 < s.enqueued then
            match vnicVqKickCb w.dev 0 with
            | .error a => .error a
            | .ok d => .ok (s.processed, { w with dev := d })
          else .ok (s.processed, w)

/-! ## Normal world to gateway -/

def maxTxIovs : ℕ := 4

/-- The loop state of `virtio_net_flush_tx`. -/
structure TxState where
  vq : Vqueue
  pool : EthPool
  sec : SecMem
  frames : List Frame
  numPackets : ℕ

/-- What is to be done with a chain: give up the whole batch, give the chain back, or give
it back and pass the frame on. -/
inductive TxVerdict
  | abort (ret : ℤ)
  | drop
  | queue
  deriving DecidableEq, Repr

/-- What was found about a chain, with the `memcpy` calls made so far. -/
structure TxRead where
  verdict : TxVerdict
  inn : VqueueIovs
  hdrCalls : List Memcpy
  dataCalls : List Memcpy

/-- `total_pckt_len`. -/
def txTotal (buf : VqueueBuf) : Word := buf.inIovs.len - BitVec.ofNat 32 vnetHdrLen

/-- The length checks on a chain whose first descriptor has length `len0`. -/
def txLenOk (buf : VqueueBuf) (len0 : Word) : Prop :=
  ¬ (len0.toNat < vnetHdrLen ∨ txTotal buf = 0 ∨ txTotal buf < 42 ∨
    bstgwDefaultBufSize - 2 < txTotal buf)

instance (buf : VqueueBuf) (len0 : Word) : Decidable (txLenOk buf len0) :=
  inferInstanceAs (Decidable (¬ _))

/-- The part of an iteration that looks at the chain.  Which bytes are copied where does
not depend on what the frame's buffer holds; its data starts at offset `2`. -/
def txInspect (env : Env) (idx : Half) (nw : ℕ → Byte) (buf : VqueueBuf) : TxRead :=
  match buf.inIovs.pieces with
  | [] => ⟨.abort errInvalidArgs, buf.inIovs, [], []⟩
  | p :: _ =>
    let (ret, inn) := vqueueMapIovs env.va (env.uninit idx) buf.inIovs
    if ret ≠ noError then ⟨.abort ret, inn, [], []⟩
    else if ¬ txLenOk buf p.iov.len then ⟨.drop, inn, [], []⟩
    else
      let h := kernIovecToMembuf env.stack (some 0) vnetHdrLen inn.iovs nw
      if h.ret ≠ BitVec.ofNat 32 vnetHdrLen then ⟨.abort errInvalidArgs, inn, h.calls, []⟩
      else if h.mem 0 ≠ 0 ∨ h.mem 1 ≠ 0 then ⟨.abort errInvalidArgs, inn, h.calls, []⟩
      else
        let d := iovecCopiesSkipBegin inn.iovs (some 2) (txTotal buf).toNat vnetHdrLen
        ⟨if d.1 ≠ txTotal buf then .abort errGeneric else .queue, inn, h.calls, d.2⟩

/-- What a queued chain leaves in the buffer of its frame is what
`kern_iovec_to_membuf_skip_begin` leaves there. -/
theorem gather_txInspect_of_queue (env : Env) (idx : Half) (nw : ℕ → Byte) (buf : VqueueBuf)
    (dst : ℕ → Byte) (h : (txInspect env idx nw buf).verdict = .queue) :
    gather nw (txInspect env idx nw buf).dataCalls dst =
      (kernIovecToMembufSkipBegin dst (some 2) (txTotal buf).toNat
        (txInspect env idx nw buf).inn.iovs vnetHdrLen nw).mem := by
  revert h
  simp only [txInspect]
  -- every exit but the last one has another verdict
  repeat' split
  all_goals rintro ⟨⟩
  rfl

/-- Leave the function: every frame of the batch goes back to the pool. -/
def TxState.giveUp (s : TxState) (b : BufId) : TxState :=
  { s with pool := (s.pool.bufFree b).bufFreeAll (s.frames.map (·.buf)) }

/-- One iteration. -/
def txBody (env : Env) (nw : ℕ → Byte) (s : TxState) (_ : ℕ) :
    Except Abort (Next ℤ × TxState) :=
  match s.pool.bufAlloc with
  | .error a => .error a
  | .ok (b, pool) =>
    let e := { pool.eb b with dataOff := 2, packetType := rtePtypeL2Mask }
    let s := { s with pool := pool.setEb b e }
    match vqueueGetAvailBuf s.vq (VqueueBuf.empty maxTxIovs 0) with
    | .error a => .error a
    | .ok (ret, buf, vq) =>
      if ret = errNotEnoughBuffer then .ok (.brk, { s with pool := s.pool.bufFree b })
      else if ret ≠ noError then .ok (.ret ret, { s.giveUp b with vq := vq })
      else
        let r := txInspect env s.vq.lastAvailIdx nw buf
        let sec := Function.update s.sec b (gather nw r.dataCalls (s.sec b))
        match r.verdict with
        | .abort ret => .ok (.ret ret, { s.giveUp b with vq := vq, sec := sec })
        | v =>
          match vqueueAddBuf vq { buf with inIovs := vqueueUnmapIovs r.inn }
              (BitVec.ofNat 32 vnetHdrLen + txTotal buf) with
          | .error a => .error a
          | .ok (_, vq) =>
            let s := { s with vq := vq, numPackets := s.numPackets + 1 }
            if v = .drop then .ok (.cont, { s with pool := s.pool.bufFree b })
            else
              .ok (.cont, { s with
                pool := s.pool.setEb b { e with dataLen := txTotal buf }
                sec := sec
                frames := s.frames ++ [⟨b, r.inn.pieces, r.hdrCalls, r.dataCalls⟩] })

/-- The loop state at the start. -/
def Net.txStart (w : Net M) : TxState := ⟨w.dev.vdev.vq 1, w.pool, w.sec, [], 0⟩

/-- Take the loop state over. -/
def Net.txFinish (w : Net M) (s : TxState) : Net M :=
  { w with dev := w.dev.setVq 1 s.vq, pool := s.pool, sec := s.sec }

/-- How many chains a call looks at. -/
def txBurst (env : Env) (d : Dev M) (dataAvail : Half) : ℕ :=
  min (min d.vnet.txBurst.toNat env.refBurst.toNat) dataAvail.toNat

/-- `virtio_net_flush_tx`.  The loop tests its counter at the end, so it makes one round at
least.  What the router does with the frames is not part of the call. -/
def virtioNetFlushTx (env : Env) (w : Net M) : Except Abort (ℤ × Net M) :=
  if w.dev.vdev.status &&& virtioConfigSDriverOk = 0 then .ok (0, w)
  else
    match vqueueNumOfAvailBuf (w.dev.vdev.vq 1) with
    | .error a => .error a
    | .ok dataAvail =>
      if dataAvail = 0 then .ok (virtioNoAvail, w)
      else if env.refBurst.toNat < virtioNetQueueDefaultSize / 2 then .ok (virtioNapiRetry, w)
      else if ¬ env.mallocOk then .ok (errNoMemory, w)
      else
        match batch (txBody env w.nw) (List.range (max (txBurst env w.dev dataAvail) 1))
            w.txStart with
        | .error a => .error a
        | .ok (some ret, s) => .ok (ret, w.txFinish s)
        | .ok (none, s) =>
          let w := { w.txFinish s with handed := w.handed ++ s.frames }
          if 0 < s.numPackets then
            match vnicVqKickCb w.dev 1 with
            | .error a => .error a
            | .ok d => .ok (s.numPackets, { w with dev := d })
          else .ok (s.numPackets, w)

/-! ## The calls cut at their loops -/

/-- The checks in front of the loop of `virtio_net_receive`, which answer at once or let it
start. -/
def rxEntry (d : Dev M) : Except Abort (ℤ ⊕ Half) :=
  if ¬ virtioNetCanReceive d then .ok (.inl (-1))
  else
    match vqueueNumOfAvailBuf (d.vdev.vq 0) with
    | .error a => .error a
    | .ok space =>
      .ok (
        if space = 0 then .inl virtioNoAvail
        else if space.toNat < virtioNetQueueDefaultSize / 2 then .inl virtioNapiRetry
        else .inr space)

/-- The loop with what follows it. -/
def rxLoop (env : Env) (w : Net M) (bufs : List (Option BufId)) : Except Abort (ℤ × Net M) :=
  match batch (rxBody env w.dev.vnet.rxBurst) bufs w.rxStart with
  | .error a => .error a
  | .ok (_, s) =>
    if 0 < s.enqueued then
      match vnicVqKickCb (w.rxFinish s).dev 0 with
      | .error a => .error a
      | .ok d => .ok (s.processed, { w.rxFinish s with dev := d })
    else .ok (s.processed, w.rxFinish s)

theorem virtioNetReceive_eq (env : Env) (w : Net M) (bufs : List (Option BufId)) :
    virtioNetReceive env w bufs =
      match rxEntry w.dev with
      | .error a => .error a
      | .ok (.inl r) => .ok (r, w)
      | .ok (.inr _) => rxLoop env w bufs := by
  rw [virtioNetReceive, rxEntry]
  cases vqueueNumOfAvailBuf (w.dev.vdev.vq 0) <;> dsimp only <;> split_ifs <;> rfl

theorem rxEntry_nonpos {d : Dev M} {r : ℤ} (h : rxEntry d = .ok (.inl r)) : r ≤ 0 := by
  rw [rxEntry] at h
  split at h
  · cases h
    decide
  split at h
  · cases h
  split_ifs at h <;> cases h <;> decide

/-- The checks in front of the loop of `virtio_net_flush_tx`. -/
def txEntry (env : Env) (d : Dev M) : Except Abort (ℤ ⊕ Half) :=
  if d.vdev.status &&& virtioConfigSDriverOk = 0 then .ok (.inl 0)
  else
    match vqueueNumOfAvailBuf (d.vdev.vq 1) with
    | .error a => .error a
    | .ok dataAvail =>
      .ok (
        if dataAvail = 0 then .inl virtioNoAvail
        else if env.refBurst.toNat < virtioNetQueueDefaultSize / 2 then .inl virtioNapiRetry
        else if ¬ env.mallocOk then .inl errNoMemory
        else .inr dataAvail)

/-- What follows the loop.  The frames are handed over before the kick here and after it in
the source; no other part of the call comes in between. -/
def txEnd (w : Net M) : Option ℤ × TxState → Except Abort (ℤ × Net M)
  | (some ret, s) => .ok (ret, w.txFinish s)
  | (none, s) =>
    let w := { w.txFinish s with handed := w.handed ++ s.frames }
    if 0 < s.numPackets then
      match vnicVqKickCb w.dev 1 with
      | .error a => .error a
      | .ok d => .ok (s.numPackets, { w with dev := d })
    else .ok (s.numPackets, w)

theorem virtioNetFlushTx_eq (env : Env) (w : Net M) :
    virtioNetFlushTx env w =
      match txEntry env w.dev with
      | .error a => .error a
      | .ok (.inl r) => .ok (r, w)
      | .ok (.inr dataAvail) =>
        match batch (txBody env w.nw) (List.range (max (txBurst env w.dev dataAvail) 1))
            w.txStart with
        | .error a => .error a
        | .ok p => txEnd w p := by
  rw [virtioNetFlushTx, txEntry]
  cases vqueueNumOfAvailBuf (w.dev.vdev.vq 1) <;> dsimp only <;> split_ifs <;> try rfl
  dsimp only
  rcases batch (txBody env w.nw) _ w.txStart with a | ⟨_ | r, s⟩ <;> rfl

/-- The end of both calls: a kick if one is due. -/
theorem kicked_eq_ok {w w' : Net M} {num : ℕ} {q : QIdx} {r r' : ℤ} (h : (if 0 < num then
        match vnicVqKickCb w.dev q with
        | .error a => .error a
        | .ok d => .ok (r, { w with dev := d })
      else .ok (r, w)) = (.ok (r', w') : Except Abort (ℤ × Net M))) :
    r' = r ∧ ∃ d, w' = { w with dev := d } ∧ (0 < num → vnicVqKickCb w.dev q = .ok d) ∧
      (¬ 0 < num → d = w.dev) := by
  split at h
  · rename_i hpos
    split at h
    · cases h
    rename_i d hkick
    cases h
    exact ⟨rfl, d, rfl, fun _ => hkick, fun hno => absurd hpos hno⟩
  · rename_i hpos
    cases h
    exact ⟨rfl, w.dev, rfl, fun hyes => absurd hyes hpos, fun _ => rfl⟩

/-! ## A running device

A device as a driver leaves it that has set both queues up with `256` entries, and a pool in
which buffer `0` holds a packet of `60` bytes. -/

/-- Ring memory with the given descriptors, the first `idx` of them available. -/
def RingMem.offer (descs : List VringDesc) (idx : Half) : RingMem where
  desc k := descs.getD k ⟨0, 0, 0, 0⟩
  avail := ⟨0, idx, fun k => BitVec.ofNat 16 k⟩
  used := ⟨0, 0, fun _ => ⟨0, 0⟩⟩

/-- A queue that is set up at `addr`. -/
def Vqueue.running (addr : Word) (shared : RingMem) : Vqueue :=
  { vqueueInit virtioNetQueueDefaultSize (BitVec.ofNat 32 smallPageSize) shared with
    vring := ⟨virtioNetQueueDefaultSize, virtioNetQueueDefaultSize, addr, addr + 0x1000,
      addr + 0x2000⟩
    vringAddr := addr }

def EthPool.sample : EthPool where
  eb b := ⟨none, rtePtypeL2Mask, 0, 0, if b = 0 then 60 else 0, 2, bstgwDefaultBufSize, 0⟩
  freeList := [1, 2, 3]
  inuseList := [0]
  capacity := 4
  released := []
  nodup := by decide

/-- The device with what the normal world put into the two rings. -/
def Net.running (rx tx : RingMem) : Net Unit where
  dev := { (Dev.init () fun _ => .zero).setStatus 0x0f with
    vdev := { ((Dev.init () fun _ => .zero).setStatus 0x0f).vdev with
      vq := ![.running 0x10000000 rx, .running 0x10010000 tx] } }
  pool := .sample
  sec _ _ := 0
  nw _ := 0
  handed := []

/-- The board: a flat map of the normal world's memory, and room in the router's queues. -/
def Env.board : Env where
  va := flatMmu.getVa ()
  uninit _ := errGeneric
  stack _ := 0
  refBurst := 256
  mallocOk := true

end TrustedGateway
