import TrustedGateway.EthBuf.Geometry
import TrustedGateway.EthBuf.Linearize
import TrustedGateway.PktQueue

/-!
# The receive loop of the FEC

`fec_rxq` walks over the descriptors that the NIC has filled.  It copies a good frame into a new
buffer of the pool, without the checksum at its end and the two bytes that the NIC puts in front,
and collects the buffers of a burst.  A full burst goes to the input queue, and what does not fit
there is freed.

Three constants limit a frame: the NIC is told to receive up to 1984 bytes, a buffer takes 2048, and
`fec_enet_copybreak` copies up to 1518.  The loop takes a refusal of `fec_enet_copybreak` for a lack
of memory and panics.  A good frame of more than 1520 bytes, such as a VLAN frame of full size,
therefore stops the gateway.

The loop runs in sections: a look at one descriptor with the processing of its frame, and the end
of a burst.  Between the sections the NIC fills descriptors, and other workers take packets from the
queue and use the pool.

## Main definitions

* `fecEnetCopybreak`, `rxFrame`, `fecRxqLook`, `fecRxqFlush` — the functions.
* `RxWorld` — what the others may do in between.
* `Accounts` — every frame was copied without its first two and last four bytes, and every copy is
  in the burst or was queued or freed once.

## Main results

* `rxqStep_of_fits`, `rxqStep_of_not_fits` — one section.
* `receive_iff` — the frames for which the loop does what it should.
-/

namespace TrustedGateway

open FlatMemory StepSystem

namespace FecRx

/-! ## The functions -/

def bdEnetRxEmpty : Half := 0x8000
def bdScWrap : Half := 0x2000
def bdEnetRxLast : Half := 0x0800
def bdEnetRxLg : Half := 0x0020
def bdEnetRxNo : Half := 0x0010
def bdEnetRxSh : Half := 0x0008
def bdEnetRxCr : Half := 0x0004
def bdEnetRxOv : Half := 0x0002
def bdEnetRxCl : Half := 0x0001
def copybreakDefault : Word := 1518
def bstgwRxBurstSz : ℕ := 32

/-- `struct bufdesc`, without the address of its buffer. -/
structure BufDesc where
  cbdSc : Half
  cbdDatlen : Half
  deriving DecidableEq, Repr

/-- What does not change: the ring with its buffers, and whether the NIC aligns frames
(`FEC_QUIRK_HAS_RACC`). -/
structure RxDev where
  ringSize : ℕ
  rxSkbuff : ℕ → BufId
  hasRacc : Bool

/-- What the loop shares with the NIC and with other workers. -/
structure RxShared where
  pool : EthPool
  sec : SecMem
  desc : ℕ → BufDesc
  inQueue : PktQueue
  noKick : Bool

/-- The sections: a look at a descriptor, and the end of a burst, in the loop or after it. -/
inductive RxPhase
  | look
  | flush (last : Bool)
  deriving DecidableEq, Repr

/-- The variables of `fec_rxq`.  The burst is `rx_burst_bufs` up to `nburst_pkts`. -/
structure RxRun where
  bdp : ℕ
  pktReceived : ℕ
  budget : ℕ
  burstSz : ℕ
  burst : List BufId
  phase : RxPhase
  deriving DecidableEq, Repr

/-- What happened to packets: a frame was copied, with the bytes that the NIC received; a copy was
queued or freed, with its data at that time; or the context was scheduled. -/
inductive RxLog
  | copied (b : BufId) (received : List Byte)
  | queued (b : BufId) (data : List Byte)
  | freed (b : BufId) (data : List Byte)
  | schedule
  deriving DecidableEq, Repr

structure RxqState where
  shared : RxShared
  /-- `rxq->bd.cur`. -/
  cur : ℕ
  run : Option RxRun
  /-- What the last call returned. -/
  ret : ℤ
  log : List RxLog

/-- `fec_enet_copybreak`: the new buffer with the copy, or `none` for `false`. -/
def fecEnetCopybreak (w : RxShared) (skb : BufId) (length : Word) :
    Except Abort (Option (BufId × RxShared)) :=
  if copybreakDefault < length then .ok none
  else
    match w.pool.bufAlloc with
    | .error a => .error a
    | .ok (newSkb, pool) =>
      .ok (some (newSkb, { w with
        pool := pool
        sec := Function.update w.sec newSkb (copy (w.sec newSkb) (pool.eb newSkb).dataOff.toNat
          (w.sec skb) (pool.eb skb).dataOff.toNat length.toNat) }))

variable (dev : RxDev)

/-- A good frame: copy it, and set the header of the new buffer. -/
def rxFrame (w : RxShared) (bdp : ℕ) : Except Abort (BufId × RxShared) :=
  let length := (w.desc bdp).cbdDatlen.setWidth 32 - 4
  match fecEnetCopybreak w (dev.rxSkbuff bdp) length with
  | .error a => .error a
  | .ok none => .error (.panic "fec_enet_copybreak() failed")
  | .ok (some (skb, w)) =>
    match skbPut (w.pool.eb skb) length with
    | .error a => .error a
    | .ok e =>
      let e := if dev.hasRacc then (ethbufPrecut e 2).2 else e
      .ok (skb, { w with pool := w.pool.setEb skb { e with packetType := rtePtypeL2Mask } })

/-- The bits that make a frame a bad one.  `BD_ENET_RX_LAST` is inverted before. -/
def rxErrors : Half :=
  bdEnetRxLg ||| bdEnetRxSh ||| bdEnetRxNo ||| bdEnetRxCr ||| bdEnetRxOv ||| bdEnetRxLast |||
    bdEnetRxCl

def BufDesc.good (d : BufDesc) : Bool := (d.cbdSc ^^^ bdEnetRxLast) &&& rxErrors = 0

/-- `fec_enet_get_nextdesc`. -/
def fecEnetGetNextdesc (bdp : ℕ) : ℕ := if dev.ringSize - 1 ≤ bdp then 0 else bdp + 1

/-- What the NIC has received for a descriptor. -/
def received (w : RxShared) (bdp : ℕ) : List Byte :=
  slice (w.sec (dev.rxSkbuff bdp)) (w.pool.eb (dev.rxSkbuff bdp)).dataOff.toNat
    (w.desc bdp).cbdDatlen.toNat

/-- The return. -/
def finish (s : RxqState) (r : RxRun) : RxqState :=
  { s with cur := r.bdp, run := none, ret := r.pktReceived }

/-- Behind `rx_processing_done`: the NIC gets the descriptor back. -/
def rxProcessingDone (s : RxqState) (r : RxRun) : RxqState :=
  let wrap := if r.bdp = dev.ringSize - 1 then bdScWrap else 0
  let d := { s.shared.desc r.bdp with cbdSc := bdEnetRxEmpty ||| wrap }
  { s with
    shared := { s.shared with desc := Function.update s.shared.desc r.bdp d }
    run := some { r with
      bdp := fecEnetGetNextdesc dev r.bdp
      phase := if r.burstSz ≤ r.burst.length then .flush false else .look } }

/-- The descriptor belongs to the loop: it is not empty, and the budget is not used up. -/
def turn (w : RxShared) (r : RxRun) : Bool :=
  (w.desc r.bdp).cbdSc &&& bdEnetRxEmpty = 0 && decide (r.pktReceived < r.budget)

/-- The test of the loop, and its body for one descriptor.  The burst array has 64 entries. -/
def fecRxqLook (s : RxqState) (r : RxRun) : Except Abort RxqState :=
  if ¬ turn s.shared r then
    .ok (if 0 < r.burst.length then { s with run := some { r with phase := .flush true } }
      else finish s r)
  else
    let r := { r with pktReceived := r.pktReceived + 1 }
    if ¬ (s.shared.desc r.bdp).good then .ok (rxProcessingDone dev s r)
    else
      match rxFrame dev s.shared r.bdp with
      | .error a => .error a
      | .ok (skb, w) =>
        if 2 * bstgwRxBurstSz ≤ r.burst.length then .error .wildPointer
        else
          .ok (rxProcessingDone dev
            { s with
              shared := w
              log := s.log ++ [.copied skb (received dev s.shared r.bdp)] }
            { r with burst := r.burst ++ [skb] })

/-- The data of a packet. -/
def RxShared.data (w : RxShared) (b : BufId) : List Byte := packetData w.pool.eb w.sec b

/-- The end of a burst: what does not fit into the queue is freed. -/
def fecRxqFlush (s : RxqState) (r : RxRun) (last : Bool) : RxqState :=
  let (nbufs, q) := s.shared.inQueue.bulkAddBuff r.burst
  let s' := { s with
    shared := { s.shared with
      inQueue := q
      pool := s.shared.pool.bufFreeAll (r.burst.drop nbufs)
      noKick := true }
    log := s.log ++ (r.burst.take nbufs).map (fun b => .queued b (s.shared.data b)) ++
      (r.burst.drop nbufs).map (fun b => .freed b (s.shared.data b)) ++
      if s.shared.noKick then [] else [.schedule] }
  if last then finish s' { r with burst := [] }
  else { s' with run := some { r with burst := [], phase := .look } }

/-- A call of `fec_rxq`, or its next section, with what it finds then. -/
inductive RxInput
  | call (budget : ℤ)
  | go (w : RxShared)

def rxqStep (s : RxqState) : RxInput → Except Abort RxqState
  | .call budget =>
    if budget < 0 then .ok { s with ret := 0 }
    else .ok { s with run := some ⟨s.cur, 0, budget.toNat,
      if budget.toNat ≤ bstgwRxBurstSz then budget.toNat else bstgwRxBurstSz, [], .look⟩ }
  | .go w =>
    match s.run with
    | none => .ok s
    | some r =>
      match r.phase with
      | .look => fecRxqLook dev { s with shared := w } r
      | .flush last => .ok (fecRxqFlush { s with shared := w } r last)

/-! ## What is asked for -/

/-- The lengths that the NIC reports: 64 to 1984 bytes, as `FEC_FTRL` says, and two in front. -/
def WithinLimits (d : BufDesc) : Prop := 66 ≤ d.cbdDatlen.toNat ∧ d.cbdDatlen.toNat ≤ 1986

instance (d : BufDesc) : Decidable (WithinLimits d) := inferInstanceAs (Decidable (_ ∧ _))

/-- The next look is at a good frame. -/
def handles (w : RxShared) (r : RxRun) : Bool :=
  decide (r.phase = .look) && turn w r && (w.desc r.bdp).good

/-- What the others leave: the packets of the burst as they were and in use, and free buffers
without data, as `bstgw_ethpool_buf_free` leaves them.  For a good frame there is a free buffer, the
buffer of the descriptor is in use, and the NIC keeps to its limits. -/
def RxWorld (s : RxqState) (r : RxRun) (w : RxShared) : Prop :=
  (∀ b ∈ r.burst, b ∉ w.pool.freeList ∧ w.data b = s.shared.data b) ∧
  (∀ b ∈ w.pool.freeList, (w.pool.eb b).dataLen = 0 ∧ (w.pool.eb b).dataOff = 0 ∧
    (w.pool.eb b).bufCap = bstgwDefaultBufSize) ∧
  (handles w r → w.pool.freeList ≠ [] ∧ dev.rxSkbuff r.bdp ∉ w.pool.freeList ∧
    WithinLimits (w.desc r.bdp))

instance (s : RxqState) (r : RxRun) (w : RxShared) : Decidable (RxWorld dev s r w) :=
  inferInstanceAs (Decidable (_ ∧ _ ∧ _))

/-- A call comes when the last one is over, and then section follows on section. -/
def RxAllows (s : RxqState) : RxInput → Prop
  | .call _ => s.run = none
  | .go w => ∃ r ∈ s.run, RxWorld dev s r w

instance (s : RxqState) : (inp : RxInput) → Decidable (RxAllows dev s inp)
  | .call _ => inferInstanceAs (Decidable (s.run = none))
  | .go w => inferInstanceAs (Decidable (∃ r ∈ s.run, RxWorld dev s r w))

/-- A frame without the two bytes in front and the checksum. -/
def frame (received : List Byte) : List Byte := (received.take (received.length - 4)).drop 2

def RxLog.copied? : RxLog → Option (BufId × List Byte)
  | .copied b received => some (b, frame received)
  | _ => none

def RxLog.settled? : RxLog → Option (BufId × List Byte)
  | .queued b data | .freed b data => some (b, data)
  | _ => none

namespace RxqState

/-- The packets in the burst. -/
def burst (s : RxqState) : List BufId := s.run.elim [] RxRun.burst

/-- **The account of the packets**: what was copied was queued or freed, once and in this order, or
is in the burst, and it has always been the frame that was received. -/
def Accounts (s : RxqState) : Prop :=
  s.log.filterMap RxLog.copied? =
    s.log.filterMap RxLog.settled? ++ s.burst.map fun b => (b, s.shared.data b)

end RxqState

def RxPhase.left : RxPhase → ℕ
  | .look => 1
  | .flush false => 2
  | .flush true => 0

/-- How much a call has still to do. -/
def RxRun.left (r : RxRun) : ℕ := 2 * (r.budget - r.pktReceived) + r.phase.left

/-- A section does what it should: it does not abort, the account is right afterwards, and the call
comes closer to its end. -/
def RxqOk (s : RxqState) (inp : RxInput) : Prop :=
  ∃ s', rxqStep dev s inp = .ok s' ∧ s'.Accounts ∧
    ∀ r r', s.run = some r → s'.run = some r' → r'.left < r.left

/-- A good frame has at most 1520 bytes, which makes 1522 with the two in front. -/
def Fits (s : RxqState) : RxInput → Prop
  | .call _ => True
  | .go w => ∀ r ∈ s.run, handles w r → (w.desc r.bdp).cbdDatlen.toNat ≤ 1522

instance (s : RxqState) : (inp : RxInput) → Decidable (Fits s inp)
  | .call _ => inferInstanceAs (Decidable True)
  | .go w => inferInstanceAs (Decidable (∀ r ∈ s.run, handles w r → _))

/-! ## A good frame -/

section Frame

variable {dev} {w : RxShared} {bdp : ℕ}

theorem toNat_length {d : Half} (h : 4 ≤ d.toNat) :
    (d.setWidth 32 - 4 : Word).toNat = d.toNat - 4 := by
  bv_omega

/-- A frame that is too long for the copy. -/
theorem rxFrame_of_long (h : 1522 < (w.desc bdp).cbdDatlen.toNat) :
    rxFrame dev w bdp = .error (.panic "fec_enet_copybreak() failed") := by
  have hlen := toNat_length (d := (w.desc bdp).cbdDatlen) (by omega)
  have hlong : copybreakDefault < (w.desc bdp).cbdDatlen.setWidth 32 - 4 := by
    rw [BitVec.lt_def, hlen]
    have : copybreakDefault.toNat = 1518 := rfl
    omega
  simp only [rxFrame, fecEnetCopybreak, if_pos hlong]

/-- The header of an empty buffer after `skb_put` and `skb_pull`. -/
theorem skbPut_precut {e : EthBuf} {length : Word} (hlen : e.dataLen = 0) (hoff : e.dataOff = 0)
    (hcap : e.bufCap = bstgwDefaultBufSize) (hlo : 2 ≤ length.toNat) (hhi : length.toNat ≤ 2048) :
    ∃ e', skbPut e length = .ok e' ∧ (ethbufPrecut e' 2).2.dataOff.toNat = 2 ∧
      (ethbufPrecut e' 2).2.dataLen.toNat = length.toNat - 2 := by
  obtain ⟨next, packetType, l2Len, l3Len, dataLen, dataOff, bufCap, privFlags⟩ := e
  dsimp only at hlen hoff hcap
  subst hlen hoff hcap
  have hroom : ¬ bstgwDefaultBufSize - (0 + 0) < length := by
    unfold bstgwDefaultBufSize
    bv_omega
  have hcut : ¬ (0 + length : Word) < 2 := by bv_omega
  refine ⟨_, if_neg hroom, ?_, ?_⟩
  · rw [ethbufPrecut, if_neg hcut]
    rfl
  · rw [ethbufPrecut, if_neg hcut]
    dsimp only
    bv_omega

theorem exists_bufAlloc {p : EthPool} (h : p.freeList ≠ []) :
    ∃ b p', p.bufAlloc = .ok (b, p') ∧ b ∈ p.freeList ∧ p'.eb = p.eb := by
  unfold EthPool.bufAlloc
  split
  · next hnil => exact absurd hnil h
  · next b rest hl => exact ⟨b, _, rfl, hl ▸ List.mem_cons_self, rfl⟩

/-- A frame that fits: the new buffer has its data, and no other packet changes. -/
theorem rxFrame_of_short (hracc : dev.hasRacc = true)
    (hempty : ∀ b ∈ w.pool.freeList, (w.pool.eb b).dataLen = 0 ∧ (w.pool.eb b).dataOff = 0 ∧
      (w.pool.eb b).bufCap = bstgwDefaultBufSize)
    (hfree : w.pool.freeList ≠ []) (hlo : 6 ≤ (w.desc bdp).cbdDatlen.toNat)
    (hhi : (w.desc bdp).cbdDatlen.toNat ≤ 1522) :
    ∃ skb w', rxFrame dev w bdp = .ok (skb, w') ∧ skb ∈ w.pool.freeList ∧
      w'.data skb = frame (received dev w bdp) ∧ ∀ b, b ≠ skb → w'.data b = w.data b := by
  obtain ⟨skb, pool, halloc, hmem, heb⟩ := exists_bufAlloc hfree
  obtain ⟨hlen, hoff, hcap⟩ := hempty skb hmem
  have hn := toNat_length (d := (w.desc bdp).cbdDatlen) (by omega)
  generalize hL : (w.desc bdp).cbdDatlen.setWidth 32 - 4 = length at hn
  have hshort : ¬ copybreakDefault < length := by
    rw [BitVec.lt_def, hn]
    have : copybreakDefault.toNat = 1518 := rfl
    omega
  obtain ⟨e, hput, hoff', hlen'⟩ := skbPut_precut hlen hoff hcap
    (show 2 ≤ length.toNat by omega) (by omega)
  have hdata : ∀ b, b ≠ skb → (pool.setEb skb { (ethbufPrecut e 2).2 with
      packetType := rtePtypeL2Mask }).eb b = w.pool.eb b := by
    intro b hb
    rw [EthPool.eb_setEb_of_ne _ hb, heb]
  refine ⟨skb, { w with
      pool := pool.setEb skb { (ethbufPrecut e 2).2 with packetType := rtePtypeL2Mask }
      sec := Function.update w.sec skb (copy (w.sec skb) 0 (w.sec (dev.rxSkbuff bdp))
        (w.pool.eb (dev.rxSkbuff bdp)).dataOff.toNat length.toNat) }, ?_, hmem, ?_, ?_⟩
  · simp only [rxFrame, fecEnetCopybreak, hL, if_neg hshort, halloc, heb, hput, hracc, if_true,
      hoff]
    rfl
  · simp only [RxShared.data, packetData, EthPool.eb_setEb_self, Function.update_self, hoff', hlen']
    -- the data starts at the third byte of the copy
    rw [← drop_slice _ 0 _ 2 (by omega), slice_copy_self, frame, received, length_slice,
      take_slice _ _ _ _ (by omega), hn]
  · intro b hb
    simp only [RxShared.data, packetData, hdata b hb, Function.update_of_ne hb]

end Frame

/-! ## One section -/

/-- The invariant: the account is right, and the burst array has room for the next packet. -/
structure RxqInv (s : RxqState) : Prop where
  accounts : s.Accounts
  burstSz : ∀ r, s.run = some r → r.burstSz ≤ bstgwRxBurstSz
  room : ∀ r, s.run = some r → r.phase = .look → r.burst.length < bstgwRxBurstSz

section Step

variable {dev} {s : RxqState} {r : RxRun} {w : RxShared} {inp : RxInput}

/-- The account, of the parts that it is made of. -/
def Balanced (log : List RxLog) (burst : List BufId) (w : RxShared) : Prop :=
  log.filterMap RxLog.copied? =
    log.filterMap RxLog.settled? ++ burst.map fun b => (b, w.data b)

theorem accounts_iff (hrun : s.run = some r) : s.Accounts ↔ Balanced s.log r.burst s.shared := by
  rw [RxqState.Accounts, RxqState.burst, hrun]
  rfl

/-- The others leave the account alone. -/
theorem Balanced.world (h : Balanced s.log r.burst s.shared) (hw : RxWorld dev s r w) :
    Balanced s.log r.burst w := by
  have hmap : (r.burst.map fun b => (b, w.data b)) = r.burst.map fun b => (b, s.shared.data b) :=
    List.map_congr_left fun b hb => by rw [(hw.1 b hb).2]
  rw [Balanced, hmap]
  exact h

/-- A copy is entered. -/
theorem Balanced.copied {log : List RxLog} {burst : List BufId} {w' : RxShared} {skb : BufId}
    {bytes : List Byte} (h : Balanced log burst w) (hskb : w'.data skb = frame bytes)
    (hothers : ∀ b ∈ burst, w'.data b = w.data b) :
    Balanced (log ++ [.copied skb bytes]) (burst ++ [skb]) w' := by
  have hmap : (burst.map fun b => (b, w'.data b)) = burst.map fun b => (b, w.data b) :=
    List.map_congr_left fun b hb => by rw [hothers b hb]
  unfold Balanced at *
  simp [RxLog.copied?, RxLog.settled?, h, hmap, hskb]

/-- The packets of a burst are settled. -/
theorem Balanced.settled {log : List RxLog} {burst : List BufId} (h : Balanced log burst w) (n : ℕ)
    (kick : Bool) (w' : RxShared) :
    Balanced (log ++ (burst.take n).map (fun b => .queued b (w.data b)) ++
      (burst.drop n).map (fun b => .freed b (w.data b)) ++
      if kick then [] else [.schedule]) [] w' := by
  have hkick : ∀ f : RxLog → Option (BufId × List Byte), f .schedule = none →
      (if kick then [] else [RxLog.schedule]).filterMap f = [] := by
    intro f hf
    cases kick <;> simp [hf]
  have hsplit : (burst.take n).map (fun b => (b, w.data b)) ++
      (burst.drop n).map (fun b => (b, w.data b)) = burst.map fun b => (b, w.data b) := by
    rw [← List.map_append, List.take_append_drop]
  unfold Balanced at *
  simp only [List.filterMap_append, hkick RxLog.copied? rfl, hkick RxLog.settled? rfl,
    List.filterMap_map, Function.comp_def, RxLog.copied?, RxLog.settled?, List.append_nil,
    List.map_nil, List.filterMap_none, List.filterMap_eq_map', List.append_assoc, hsplit]
  exact h

/-- The invariant while the call goes on. -/
theorem RxqInv.of_run {s' : RxqState} (hrun : s'.run = some r)
    (hbal : Balanced s'.log r.burst s'.shared) (hsz : r.burstSz ≤ bstgwRxBurstSz)
    (hroom : r.phase = .look → r.burst.length < bstgwRxBurstSz) : RxqInv s' where
  accounts := (accounts_iff hrun).mpr hbal
  burstSz := by
    intro r' hr'
    rw [hrun] at hr'
    cases hr'
    exact hsz
  room := by
    intro r' hr'
    rw [hrun] at hr'
    cases hr'
    exact hroom

/-- The invariant when the call is over. -/
theorem RxqInv.of_none {s' : RxqState} (hrun : s'.run = none)
    (hbal : Balanced s'.log [] s'.shared) : RxqInv s' where
  accounts := by
    rw [RxqState.Accounts, RxqState.burst, hrun]
    exact hbal
  burstSz := by simp [hrun]
  room := by simp [hrun]

/-- A section that went well. -/
def Advances (r : RxRun) (s' : RxqState) : Prop :=
  RxqInv s' ∧ ∀ r', s'.run = some r' → r'.left < r.left

/-- Behind `rx_processing_done`. -/
theorem advances_rxProcessingDone {s : RxqState} {burst : List BufId}
    (hturn : r.pktReceived < r.budget) (hlook : r.phase = .look)
    (hbal : Balanced s.log burst s.shared) (hsz : r.burstSz ≤ bstgwRxBurstSz) :
    Advances r (rxProcessingDone dev s
      { r with pktReceived := r.pktReceived + 1, burst := burst }) := by
  refine ⟨.of_run rfl hbal hsz fun hphase => ?_, ?_⟩
  · dsimp only at hphase ⊢
    split at hphase
    · cases hphase
    · omega
  · rintro _ ⟨⟩
    simp only [RxRun.left, hlook]
    split_ifs <;> simp only [RxPhase.left] <;> omega

/-- A look at a descriptor whose frame fits. -/
theorem fecRxqLook_of_fits (hracc : dev.hasRacc = true) (hrun : s.run = some r) (h : RxqInv s)
    (hlook : r.phase = .look) (hw : RxWorld dev s r w)
    (hfit : handles w r → (w.desc r.bdp).cbdDatlen.toNat ≤ 1522) :
    ∃ s', fecRxqLook dev { s with shared := w } r = .ok s' ∧ Advances r s' := by
  have hbal := ((accounts_iff hrun).mp h.accounts).world hw
  have hsz := h.burstSz r hrun
  unfold fecRxqLook
  by_cases hturn : turn w r = true
  · have hbudget : r.pktReceived < r.budget := by
      simp only [turn, Bool.and_eq_true, decide_eq_true_eq] at hturn
      exact hturn.2
    rw [if_neg (not_not.mpr hturn)]
    by_cases hgood : (w.desc r.bdp).good = true
    · have hhandles : handles w r = true := by simp [handles, hlook, hturn, hgood]
      obtain ⟨hfree, -, hlo, -⟩ := hw.2.2 hhandles
      obtain ⟨skb, w', hframe, hskb, hdata, hothers⟩ :=
        rxFrame_of_short hracc hw.2.1 hfree (by omega) (hfit hhandles)
      have hne : ∀ b ∈ r.burst, w'.data b = w.data b := by
        intro b hb
        refine hothers b fun heq => (hw.1 b hb).1 ?_
        rwa [heq]
      have hroom := h.room r hrun hlook
      have hidx : ¬ 2 * bstgwRxBurstSz ≤ r.burst.length := by omega
      refine ⟨rxProcessingDone dev
        { s with shared := w', log := s.log ++ [.copied skb (received dev w r.bdp)] }
        { r with pktReceived := r.pktReceived + 1, burst := r.burst ++ [skb] }, ?_,
        advances_rxProcessingDone hbudget hlook (hbal.copied hdata hne) hsz⟩
      simp only [hgood, not_true, if_false, hframe, if_neg hidx]
    · refine ⟨rxProcessingDone dev { s with shared := w }
        { r with pktReceived := r.pktReceived + 1 }, ?_,
        advances_rxProcessingDone hbudget hlook hbal hsz⟩
      rw [if_pos hgood]
  · rw [if_pos hturn]
    refine ⟨_, rfl, ?_⟩
    split
    · have hleave : RxPhase.flush true ≠ .look := by decide
      refine ⟨.of_run rfl hbal hsz fun hphase => absurd hphase hleave, ?_⟩
      rintro _ ⟨⟩
      simp [RxRun.left, RxPhase.left, hlook]
    · next hnone =>
      have hnil : r.burst = [] := List.length_eq_zero_iff.mp (by omega)
      refine ⟨.of_none rfl (hnil ▸ hbal), ?_⟩
      rintro _ ⟨⟩

/-- The end of a burst. -/
theorem advances_fecRxqFlush (hrun : s.run = some r) (h : RxqInv s) {last : Bool}
    (hflush : r.phase = .flush last) (hw : RxWorld dev s r w) :
    Advances r (fecRxqFlush { s with shared := w } r last) := by
  have hbal := ((accounts_iff hrun).mp h.accounts).world hw
  have hsz := h.burstSz r hrun
  cases last with
  | false =>
    refine ⟨.of_run rfl (hbal.settled _ _ _) hsz fun _ => Nat.zero_lt_succ _, ?_⟩
    rintro _ ⟨⟩
    simp [RxRun.left, RxPhase.left, hflush]
  | true =>
    refine ⟨.of_none rfl (hbal.settled _ _ _), ?_⟩
    rintro _ ⟨⟩

/-- A section that may happen and whose frame fits. -/
theorem rxqStep_of_fits (hracc : dev.hasRacc = true) (h : RxqInv s) (ha : RxAllows dev s inp)
    (hf : Fits s inp) :
    ∃ s', rxqStep dev s inp = .ok s' ∧ RxqInv s' ∧
      ∀ r r', s.run = some r → s'.run = some r' → r'.left < r.left := by
  cases inp with
  | call budget =>
    have hidle : s.run = none := ha
    have hbal : Balanced s.log [] s.shared := by
      have hacc := h.accounts
      rwa [RxqState.Accounts, RxqState.burst, hidle] at hacc
    rw [rxqStep]
    split
    · exact ⟨_, rfl, .of_none hidle hbal, by simp [hidle]⟩
    · refine ⟨_, rfl, .of_run rfl hbal ?_ fun _ => Nat.zero_lt_succ _, by simp [hidle]⟩
      dsimp only
      split <;> omega
  | go w =>
    obtain ⟨r, hrun, hw⟩ := ha
    rw [Option.mem_def] at hrun
    have hadv : ∃ s', rxqStep dev s (.go w) = .ok s' ∧ Advances r s' := by
      simp only [rxqStep, hrun]
      cases hphase : r.phase with
      | look => exact fecRxqLook_of_fits hracc hrun h hphase hw (hf r hrun)
      | flush last => exact ⟨_, rfl, advances_fecRxqFlush hrun h hphase hw⟩
    obtain ⟨s', hstep, hinv, hleft⟩ := hadv
    refine ⟨s', hstep, hinv, fun r₁ r' hr₁ => ?_⟩
    rw [hrun] at hr₁
    cases hr₁
    exact hleft r'

/-- A frame that does not fit panics. -/
theorem rxqStep_of_not_fits (hf : ¬ Fits s inp) :
    rxqStep dev s inp = .error (.panic "fec_enet_copybreak() failed") := by
  cases inp with
  | call budget => exact absurd trivial hf
  | go w =>
    simp only [Fits, Option.mem_def, not_forall, Nat.not_le] at hf
    obtain ⟨r, hrun, hhandles, hlong⟩ := hf
    simp only [handles, Bool.and_eq_true, decide_eq_true_eq] at hhandles
    obtain ⟨⟨hlook, hturn⟩, hgood⟩ := hhandles
    simp only [rxqStep, hrun, hlook, fecRxqLook, hturn, hgood, not_true, if_false,
      rxFrame_of_long hlong]

end Step

/-- **The receive loop.**  Let `fec_rxq` be called again and again, with the NIC and the others at
work in between.  Every section of every call ends without an abort and with the right account
exactly if every good frame has at most 1520 bytes. -/
theorem receive_iff (hracc : dev.hasRacc = true) {s₀ : RxqState} (hidle : s₀.run = none)
    (hlog : s₀.log = []) {is : List RxInput}
    (hallow : EachStep (rxqStep dev) (RxAllows dev) s₀ is) :
    EachStep (rxqStep dev) (RxqOk dev) s₀ is ↔ EachStep (rxqStep dev) Fits s₀ is := by
  have hneed : ∀ s inp, RxqOk dev s inp → Fits s inp := by
    rintro s inp ⟨s', hstep, -⟩
    by_contra hf
    rw [rxqStep_of_not_fits hf] at hstep
    cases hstep
  have h0 : RxqInv s₀ := by
    refine .of_none hidle ?_
    rw [hlog]
    rfl
  refine eachStep_iff (I := RxqInv) (fun s inp s' h ha hok hs => ?_) (fun s inp h ha => ?_)
    hallow h0
  · obtain ⟨s₁, hstep, hinv, -⟩ := rxqStep_of_fits hracc h ha (hneed s inp hok)
    rw [hs] at hstep
    cases hstep
    exact hinv
  · refine ⟨hneed s inp, fun hf => ?_⟩
    obtain ⟨s', hstep, hinv, hleft⟩ := rxqStep_of_fits hracc h ha hf
    exact ⟨s', hstep, hinv.accounts, hleft⟩

section Demo

/-- Four descriptors with the buffers 100 to 103. -/
def demoDev : RxDev := ⟨4, (100 + ·), true⟩

/-- Two free buffers. -/
def demoPool : EthPool where
  eb := fun _ => ⟨none, 0, 0, 0, 0, 0, bstgwDefaultBufSize, 0⟩
  freeList := [1, 2]
  inuseList := [100, 101, 102, 103]
  capacity := 6
  released := []
  nodup := by decide

/-- The NIC has filled these descriptors, and the queue has room for one packet. -/
def demoShared (ds : List BufDesc) : RxShared where
  pool := demoPool
  sec := fun b k => BitVec.ofNat 8 (b + k)
  desc := fun i => ds.getD i ⟨bdEnetRxEmpty, 0⟩
  inQueue := ⟨0, 0, 0, 1, fun _ => none⟩
  noKick := false

def demoIdle (ds : List BufDesc) : RxqState := ⟨demoShared ds, 0, none, 0, []⟩

/-- Sections of a call, with nobody else at work. -/
def alone : ℕ → RxqState → List RxInput
  | 0, _ => []
  | n + 1, s =>
    .go s.shared :: match rxqStep demoDev s (.go s.shared) with
      | .ok s' => alone n s'
      | .error _ => []

/-- A call with the budget of the driver. -/
def demoCall (n : ℕ) (ds : List BufDesc) : List RxInput :=
  .call 96 :: match rxqStep demoDev (demoIdle ds) (.call 96) with
    | .ok s => alone n s
    | .error _ => []

/-- A good frame of 64 bytes, one with a wrong checksum, and a good one of 98 bytes. -/
def demoFrames : List BufDesc := [⟨0x0800, 66⟩, ⟨0x0804, 66⟩, ⟨0x0800, 100⟩]

/-- Both good frames are copied; one is queued, and one is freed. -/
theorem receive_demoFrames :
    EachStep (rxqStep demoDev) (RxqOk demoDev) (demoIdle demoFrames) (demoCall 5 demoFrames) :=
  (receive_iff demoDev rfl rfl rfl (by decide +kernel)).mpr (by decide +kernel)

/-- A VLAN frame of 1522 bytes is within the limits and panics. -/
theorem receive_vlan :
    EachStep (rxqStep demoDev) (RxAllows demoDev) (demoIdle [⟨0x0800, 1524⟩])
      (demoCall 1 [⟨0x0800, 1524⟩]) ∧
    (∃ s, rxqStep demoDev (demoIdle [⟨0x0800, 1524⟩]) (.call 96) = .ok s ∧
      rxqStep demoDev s (.go s.shared) = .error (.panic "fec_enet_copybreak() failed")) ∧
    ¬ EachStep (rxqStep demoDev) (RxqOk demoDev) (demoIdle [⟨0x0800, 1524⟩])
      (demoCall 1 [⟨0x0800, 1524⟩]) := by
  obtain ⟨s, hcall, hpanic⟩ : ∃ s, rxqStep demoDev (demoIdle [⟨0x0800, 1524⟩]) (.call 96) = .ok s ∧
      rxqStep demoDev s (.go s.shared) = .error (.panic "fec_enet_copybreak() failed") :=
    ⟨_, rfl, rxqStep_of_not_fits (by decide +kernel)⟩
  refine ⟨by decide +kernel, ⟨s, hcall, hpanic⟩, fun h => ?_⟩
  have hrest := h.2 s hcall
  rw [hcall] at hrest
  obtain ⟨s', hstep, -⟩ := hrest.1
  rw [hpanic] at hstep
  cases hstep

end Demo

end FecRx

end TrustedGateway
