import TrustedGateway.Fec.TxOwnership

/-!
# Stopping and waking the egress queue

`fec_enet_start_xmit` runs on the transmitting worker and `fec_txq` on the completing one, without
a common lock.  The first one stops the egress queue when it finds no free descriptor, the second
one wakes it when it has freed enough of them; each decides on its own copies of `bd.cur` and
`pending_tx`.  Here the two functions take one step for each access to `bd.cur`, `pending_tx` and
the stopped flag, and the steps interleave.

A stopped queue is woken by the reclaim of a descriptor, so it must not be stopped once the last
descriptor is reclaimed.  The code does not exclude that: the transmitting worker can find the
ring full, and store the flag after everything has been sent and reclaimed.
-/

namespace TrustedGateway

open StepSystem RingWindow

/-! ## The two functions -/

/-- What `fec_enet_start_xmit` does next. -/
inductive XmitPc
  | idle
  | submit (env : TxEnv) (skb : Skb)
  | submitCur (env : TxEnv) (skb : Skb) (pending : ℕ)
  | fill (env : TxEnv) (skb : Skb)
  | setCur (next : ℕ)
  | check
  | checkCur (pending : ℕ)
  | stop

/-- What `fec_txq` does next; `left` rounds may follow the present one. -/
inductive CompPc
  | idle
  | start
  | loop (bdp left : ℕ)
  | status (bdp left : ℕ)
  | publish (bdp left : ℕ)
  | testStopped (bdp left : ℕ)
  | freePending (bdp left : ℕ)
  | freeCur (bdp left pending : ℕ)
  | wake (bdp left : ℕ)
  | notify (bdp left : ℕ)

def XmitPc.isIdle : XmitPc → Bool
  | idle => true
  | _ => false

/-- The position of the completing worker was read, and the flag is not stored yet. -/
def XmitPc.isDeciding : XmitPc → Bool
  | checkCur _ | stop => true
  | _ => false

def CompPc.isIdle : CompPc → Bool
  | idle => true
  | _ => false

/-- The next access stores the address to `pending_tx`. -/
def CompPc.publishes (addr : ℕ) : CompPc → Bool
  | publish bdp _ => bdp = addr
  | _ => false

/-- The end of a round. -/
def CompPc.afterRound (bdp : ℕ) : ℕ → CompPc
  | 0 => idle
  | left + 1 => loop bdp left

/-- The ring and the two workers. -/
structure TxFine where
  q : Txq
  xmit : XmitPc
  comp : CompPc

/-- A step of `fec_enet_start_xmit`. -/
def xmitStep (d : TxDev) (s : TxFine) : Except Abort TxFine :=
  match s.xmit with
  | .idle => .ok s
  | .submit env skb => .ok { s with xmit := .submitCur env skb s.q.pendingTx }
  | .submitCur env skb pending =>
    if fecEnetGetFreeTxdescNum d.bd pending s.q.cur < 1 then .ok { s with xmit := .idle }
    else .ok { s with xmit := .fill env skb }
  | .fill env skb =>
    match txSubmit d env s.q skb with
    | .error a => .error a
    | .ok (none, q) => .ok { s with q := q, xmit := .check }
    | .ok (some next, q) => .ok { s with q := q, xmit := .setCur next }
  | .setCur next => .ok { s with q := s.q.setCur next, xmit := .check }
  | .check => .ok { s with xmit := .checkCur s.q.pendingTx }
  | .checkCur pending =>
    if fecEnetGetFreeTxdescNum d.bd pending s.q.cur ≤ txStopThreshold then
      .ok { s with xmit := .stop }
    else .ok { s with xmit := .idle }
  | .stop => .ok { s with q := s.q.setStopped true, xmit := .idle }

/-- A step of `fec_txq`. -/
def txqStep (d : TxDev) (active : Bool) (s : TxFine) : TxFine :=
  match s.comp with
  | .idle => s
  | .start => { s with comp := .loop s.q.pendingTx (bstgwTxcBudget - 1) }
  | .loop bdp left => { s with comp := if bdp = s.q.cur then .idle else .status bdp left }
  | .status bdp left =>
    if (s.q.desc bdp).cbdSc &&& bdEnetTxReady ≠ 0 then
      { s with q := txNotDone active s.q, comp := .idle }
    else
      { s with q := txReclaim d s.q bdp, comp := .publish (fecEnetGetNextdesc bdp d.bd) left }
  | .publish bdp left => { s with q := s.q.setPendingTx bdp, comp := .testStopped bdp left }
  | .testStopped bdp left =>
    { s with comp := if s.q.stopped then .freePending bdp left else .afterRound bdp left }
  | .freePending bdp left => { s with comp := .freeCur bdp left s.q.pendingTx }
  | .freeCur bdp left pending =>
    { s with
      comp := if txWakeThreshold d.bd ≤ fecEnetGetFreeTxdescNum d.bd pending s.q.cur then
        .wake bdp left else .afterRound bdp left }
  | .wake bdp left =>
    -- the compare-and-exchange of `netif_tx_wake_queue`
    if s.q.stopped then { s with q := s.q.setStopped false, comp := .notify bdp left }
    else { s with comp := .afterRound bdp left }
  | .notify bdp left => { s with q := s.q.logOp .notify, comp := .afterRound bdp left }

/-- Calls and steps of the two functions, and writes of the hardware to a descriptor. -/
inductive FineAction
  | xmit (env : TxEnv) (skb : Skb)
  | xmitStep
  | txq
  | txqStep (active : Bool)
  | complete (bdp : ℕ) (sc : Half)

def fineStep (d : TxDev) (s : TxFine) : FineAction → Except Abort TxFine
  | .xmit env skb => .ok { s with xmit := .submit env skb }
  | .xmitStep => xmitStep d s
  | .txq => .ok { s with comp := .start }
  | .txqStep active => .ok (txqStep d active s)
  | .complete bdp sc => .ok { s with q := s.q.setSc bdp sc }

/-- Each worker calls its function again when it has returned; frames are not chained. -/
def FineAllows (s : TxFine) : FineAction → Prop
  | .xmit _ skb => s.xmit.isIdle = true ∧ skb.nrFrags = 0
  | .xmitStep => s.xmit.isIdle = false
  | .txq => s.comp.isIdle = true
  | .txqStep _ => s.comp.isIdle = false
  | .complete .. => True

instance (s : TxFine) (a : FineAction) : Decidable (FineAllows s a) := by
  cases a <;> dsimp only [FineAllows] <;> infer_instance

/-- The last descriptor in use is given up while the other worker decides about the flag. -/
def LateReclaim (s : TxFine) : FineAction → Prop
  | .txqStep _ => s.comp.publishes s.q.cur = true ∧ s.xmit.isDeciding = true
  | _ => False

instance (s : TxFine) (a : FineAction) : Decidable (LateReclaim s a) := by
  cases a <;> dsimp only [LateReclaim] <;> infer_instance

/-- The queue is stopped, nobody is at work, and nothing will be reclaimed. -/
def TxFine.Stalled (s : TxFine) : Prop :=
  s.xmit.isIdle = true ∧ s.comp.isIdle = true ∧ s.q.stopped = true ∧ s.q.pendingTx = s.q.cur

/-! ## The steps make up the functions -/

section Whole

variable {d : TxDev} {q : Txq} {x : XmitPc} {c : CompPc}

/-- One step of `fec_enet_start_xmit`. -/
theorem run_xmitStep {s t : TxFine} (hi : s.xmit.isIdle = false) (hs : xmitStep d s = .ok t) :
    Run (fineStep d) FineAllows s [.xmitStep] t :=
  .cons hi hs (.nil t)

/-- One step of `fec_txq`. -/
theorem run_txqStep (active : Bool) {s t : TxFine} (hi : s.comp.isIdle = false)
    (hs : txqStep d active s = t) : Run (fineStep d) FineAllows s [.txqStep active] t :=
  .cons hi (congrArg Except.ok hs) (.nil t)

/-- A submission up to the descriptor. -/
theorem fill_steps (env : TxEnv) {skb : Skb} (hfrags : skb.nrFrags = 0)
    (hfree : ¬ fecEnetGetFreeTxdescNum d.bd q.pendingTx q.cur < 1) :
    Run (fineStep d) FineAllows ⟨q, .idle, c⟩ [.xmit env skb, .xmitStep, .xmitStep]
      ⟨q, .fill env skb, c⟩ :=
  .cons ⟨rfl, hfrags⟩ rfl (.cons rfl rfl (.cons rfl (if_neg hfree) (.nil _)))

/-- `fec_enet_txq_submit_skb`, and where it leaves `fec_enet_start_xmit`. -/
theorem submit_steps {env : TxEnv} {q' : Txq} {skb : Skb} {r : NetdevTx}
    (hfrags : skb.nrFrags = 0) (hs : fecEnetTxqSubmitSkb d env q skb = .ok (r, q'))
    (c : CompPc) :
    ∃ as, Run (fineStep d) FineAllows ⟨q, .idle, c⟩ as
      ⟨q', if r = .ok then .check else .idle, c⟩ := by
  unfold fecEnetTxqSubmitSkb at hs
  split at hs
  · rename_i hfree
    cases hs
    exact ⟨[.xmit env skb, .xmitStep, .xmitStep],
      .cons ⟨rfl, hfrags⟩ rfl (.cons rfl rfl (.cons rfl (if_pos hfree) (.nil _)))⟩
  · rename_i hfree
    have hfill := fill_steps (c := c) env hfrags hfree
    rcases txSubmit_eq d env q hfrags with heq | ⟨b, heq⟩ <;> rw [heq] at hs <;> cases hs
    · exact ⟨_, hfill.append (run_xmitStep rfl (by simp only [xmitStep, heq]; rfl))⟩
    · have hstep : xmitStep d ⟨q, .fill env skb, c⟩ = .ok ⟨fecTriggerTxFill
          (q.setDesc q.cur b) (txStatus d q.cur) q.cur skb (txIndex d q.cur),
          .setCur (fecEnetGetNextdesc q.cur d.bd), c⟩ := by
        simp only [xmitStep, heq]
      exact ⟨_, (hfill.append (run_xmitStep rfl hstep)).append (run_xmitStep rfl rfl)⟩

/-- `fec_enet_start_xmit`, uninterrupted. -/
theorem startXmit_steps {env : TxEnv} {q' : Txq} {skb : Skb} {r : NetdevTx}
    (hfrags : skb.nrFrags = 0) (hs : fecEnetStartXmit d env q skb = .ok (r, q')) (c : CompPc) :
    ∃ as, Run (fineStep d) FineAllows ⟨q, .idle, c⟩ as ⟨q', .idle, c⟩ := by
  unfold fecEnetStartXmit at hs
  split at hs
  · cases hs
  · rename_i q₁ hsub
    cases hs
    exact submit_steps hfrags hsub c
  · rename_i q₁ hsub
    obtain ⟨as, hr⟩ := submit_steps hfrags hsub c
    split at hs <;> rename_i hfree <;> cases hs
    · refine ⟨as ++ [.xmitStep, .xmitStep, .xmitStep], hr.append ?_⟩
      exact .cons rfl rfl (.cons rfl (if_pos hfree) (.cons rfl rfl (.nil _)))
    · refine ⟨as ++ [.xmitStep, .xmitStep], hr.append ?_⟩
      exact .cons rfl rfl (.cons rfl (if_neg hfree) (.nil _))

theorem startXmit_steps_first : ∃ q q' as, Run (fineStep fecTxDev) FineAllows ⟨q, .idle, .idle⟩ as
    ⟨q', .idle, .idle⟩ ∧ outstanding q'.log = some [(0, sampleSkb 7)] := by
  have hs : fecEnetStartXmit fecTxDev (sampleEnv true)
      (TxSys.fresh fecTxDev (fun _ => ⟨0, 0, 0, 0, 0⟩) false).q (sampleSkb 7) = .ok (_, _) := rfl
  obtain ⟨as, hr⟩ := startXmit_steps rfl hs .idle
  exact ⟨_, _, as, hr, rfl⟩

/-- The wake-up test. -/
theorem wakeTest_steps (q : Txq) (x : XmitPc) (bdp left : ℕ) :
    ∃ as, Run (fineStep d) FineAllows ⟨q, x, .testStopped bdp left⟩ as
      ⟨txWakeTest d q, x, .afterRound bdp left⟩ := by
  cases hstop : q.stopped with
  | false => exact ⟨_, run_txqStep true rfl (by simp [txqStep, txWakeTest, hstop])⟩
  | true =>
    have htest : txqStep d true ⟨q, x, .testStopped bdp left⟩ =
        ⟨q, x, .freePending bdp left⟩ := by
      simp [txqStep, hstop]
    have hread := (run_txqStep true rfl htest).append (run_txqStep true rfl rfl)
    by_cases hfree : txWakeThreshold d.bd ≤ fecEnetGetFreeTxdescNum d.bd q.pendingTx q.cur
    · have hcount : txqStep d true ⟨q, x, .freeCur bdp left q.pendingTx⟩ =
          ⟨q, x, .wake bdp left⟩ := by
        simp [txqStep, hfree]
      have hwake : txqStep d true ⟨q, x, .wake bdp left⟩ =
          ⟨q.setStopped false, x, .notify bdp left⟩ := by
        simp [txqStep, hstop]
      have hq : txWakeTest d q = (q.setStopped false).logOp .notify := by
        rw [txWakeTest, if_pos ⟨hstop, hfree⟩, Txq.netifTxWakeQueue, if_pos hstop]
      rw [hq]
      exact ⟨_, ((hread.append (run_txqStep true rfl hcount)).append
        (run_txqStep true rfl hwake)).append (run_txqStep true rfl rfl)⟩
    · have hcount : txqStep d true ⟨q, x, .freeCur bdp left q.pendingTx⟩ =
          ⟨txWakeTest d q, x, .afterRound bdp left⟩ := by
        simp [txqStep, txWakeTest, hfree]
      exact ⟨_, hread.append (run_txqStep true rfl hcount)⟩

/-- A round for a descriptor that is done. -/
theorem round_steps {bdp : ℕ} (hne : bdp ≠ q.cur)
    (hdone : ¬ (q.desc bdp).cbdSc &&& bdEnetTxReady ≠ 0) (left : ℕ) :
    ∃ as, Run (fineStep d) FineAllows ⟨q, x, .loop bdp left⟩ as
      ⟨txWakeTest d ((txReclaim d q bdp).setPendingTx (fecEnetGetNextdesc bdp d.bd)), x,
        .afterRound (fecEnetGetNextdesc bdp d.bd) left⟩ := by
  have hloop : txqStep d true ⟨q, x, .loop bdp left⟩ = ⟨q, x, .status bdp left⟩ := by
    simp [txqStep, hne]
  have hstatus : txqStep d true ⟨q, x, .status bdp left⟩ =
      ⟨txReclaim d q bdp, x, .publish (fecEnetGetNextdesc bdp d.bd) left⟩ := if_neg hdone
  obtain ⟨as, hr⟩ := wakeTest_steps (d := d)
    ((txReclaim d q bdp).setPendingTx (fecEnetGetNextdesc bdp d.bd)) x
    (fecEnetGetNextdesc bdp d.bd) left
  exact ⟨_, (((run_txqStep true rfl hloop).append (run_txqStep true rfl hstatus)).append
    (run_txqStep true rfl rfl)).append hr⟩

/-- The loop of `fec_txq` with `n` rounds left. -/
theorem txqLoop_steps (active : Bool) (n bdp : ℕ) (q : Txq) (x : XmitPc) :
    ∃ as, Run (fineStep d) FineAllows ⟨q, x, .afterRound bdp n⟩ as
      ⟨(fecTxqLoop d active n bdp q).2, x, .idle⟩ := by
  induction n generalizing bdp q with
  | zero => exact ⟨[], .nil _⟩
  | succ left ih =>
    rw [fecTxqLoop]
    by_cases heq : bdp = q.cur
    · rw [if_pos heq]
      exact ⟨_, run_txqStep active rfl (by simp [txqStep, CompPc.afterRound, heq])⟩
    · rw [if_neg heq]
      by_cases hready : (q.desc bdp).cbdSc &&& bdEnetTxReady ≠ 0
      · rw [if_pos hready]
        have hloop : txqStep d active ⟨q, x, .loop bdp left⟩ = ⟨q, x, .status bdp left⟩ := by
          simp [txqStep, heq]
        have hstatus : txqStep d active ⟨q, x, .status bdp left⟩ =
            ⟨txNotDone active q, x, .idle⟩ := if_pos hready
        exact ⟨_, (run_txqStep active rfl hloop).append (run_txqStep active rfl hstatus)⟩
      · rw [if_neg hready]
        obtain ⟨as, hr⟩ := round_steps (d := d) (x := x) heq hready left
        obtain ⟨bs, hr'⟩ := ih (fecEnetGetNextdesc bdp d.bd)
          (txWakeTest d ((txReclaim d q bdp).setPendingTx (fecEnetGetNextdesc bdp d.bd)))
        exact ⟨as ++ bs, hr.append hr'⟩

/-- `fec_txq`, uninterrupted. -/
theorem txq_steps (active : Bool) (q : Txq) (x : XmitPc) :
    ∃ as, Run (fineStep d) FineAllows ⟨q, x, .idle⟩ as ⟨(fecTxq d active q).2, x, .idle⟩ := by
  obtain ⟨as, hr⟩ := txqLoop_steps (d := d) active bstgwTxcBudget q.pendingTx q x
  exact ⟨.txq :: .txqStep active :: as, .cons rfl rfl (.cons rfl rfl hr)⟩

end Whole

/-! ## Distances in the ring -/

namespace BdProp

variable {bd : BdProp} {p c : ℕ}

/-- An address of a descriptor of the ring. -/
def Mem (bd : BdProp) (a : ℕ) : Prop := ∃ i < bd.ringSize, a = bd.addr i

/-- How many descriptors are in use. -/
def used (bd : BdProp) (p c : ℕ) : ℕ :=
  gap bd.ringSize (fecEnetGetBdIndex p bd).toNat (fecEnetGetBdIndex c bd).toNat

theorem used_addr (i j : ℕ) : bd.used (bd.addr i) (bd.addr j) = gap bd.ringSize i j := by
  rw [used, bdIndex_addr, bdIndex_addr, Int.toNat_natCast, Int.toNat_natCast]

theorem Mem.next (hp : bd.Mem p) : bd.Mem (fecEnetGetNextdesc p bd) := by
  obtain ⟨i, hi, rfl⟩ := hp
  exact ⟨_, idx_lt hi bd.ringSize_pos, nextdesc_addr hi⟩

theorem Mem.free_eq (hp : bd.Mem p) (hc : bd.Mem c) :
    fecEnetGetFreeTxdescNum bd p c = (bd.ringSize : ℤ) - 1 - bd.used p c := by
  obtain ⟨i, hi, rfl⟩ := hp
  obtain ⟨j, -, rfl⟩ := hc
  rw [used_addr, freeTxdescNum_addr hi]

theorem Mem.used_lt (hp : bd.Mem p) (hc : bd.Mem c) : bd.used p c < bd.ringSize := by
  obtain ⟨i, hi, rfl⟩ := hp
  obtain ⟨j, hj, rfl⟩ := hc
  rw [used_addr]
  exact gap_lt hi hj

theorem Mem.used_eq_zero (hp : bd.Mem p) (hc : bd.Mem c) : bd.used p c = 0 ↔ p = c := by
  obtain ⟨i, hi, rfl⟩ := hp
  obtain ⟨j, -, rfl⟩ := hc
  rw [used_addr, gap_eq_zero hi, addr_inj]

theorem Mem.used_next_right (hp : bd.Mem p) (hc : bd.Mem c) (h : bd.used p c + 1 < bd.ringSize) :
    bd.used p (fecEnetGetNextdesc c bd) = bd.used p c + 1 := by
  obtain ⟨i, hi, rfl⟩ := hp
  obtain ⟨j, hj, rfl⟩ := hc
  rw [used_addr] at h
  rw [nextdesc_addr hj, used_addr, used_addr, gap_idx_one_right hi hj h]

theorem Mem.used_next_left (hp : bd.Mem p) (hc : bd.Mem c) (h : bd.used p c ≠ 0) :
    bd.used (fecEnetGetNextdesc p bd) c + 1 = bd.used p c := by
  obtain ⟨i, hi, rfl⟩ := hp
  obtain ⟨j, hj, rfl⟩ := hc
  rw [used_addr] at h
  rw [nextdesc_addr hi, used_addr, used_addr, gap_idx_one_left hi hj h]

end BdProp

/-! ## A queue that is stopped will be woken -/

/-- The wake-up test of the last reclaim is still to be made. -/
def CompPc.isWaking : CompPc → Bool
  | testStopped .. | freePending .. | freeCur .. | wake .. => true
  | _ => false

theorem CompPc.not_isWaking {c : CompPc} (h : c.isIdle = true) : c.isWaking = false := by
  cases c with
  | idle => rfl
  | _ => cases h

/-- What the transmitting worker's copies say. -/
def XmitOk (bd : BdProp) (q : Txq) : XmitPc → Prop
  | .submitCur _ _ p => bd.Mem p ∧ bd.used q.pendingTx q.cur ≤ bd.used p q.cur
  | .fill .. => bd.used q.pendingTx q.cur + 1 < bd.ringSize
  | .setCur next =>
    bd.used q.pendingTx q.cur + 1 < bd.ringSize ∧ next = fecEnetGetNextdesc q.cur bd
  | .checkCur p => bd.Mem p ∧ (bd.used p q.cur + 1 = bd.ringSize → q.pendingTx ≠ q.cur)
  | .stop => q.pendingTx ≠ q.cur
  | .idle | .submit .. | .check => True

/-- What the completing worker's copies say. -/
def CompOk (bd : BdProp) (q : Txq) : CompPc → Prop
  | .loop bdp _ | .testStopped bdp _ | .freePending bdp _ | .wake bdp _ | .notify bdp _ =>
    bdp = q.pendingTx
  | .status bdp _ => bdp = q.pendingTx ∧ q.pendingTx ≠ q.cur
  | .publish bdp _ => bdp = fecEnetGetNextdesc q.pendingTx bd ∧ q.pendingTx ≠ q.cur
  | .freeCur bdp _ p => bdp = q.pendingTx ∧ p = q.pendingTx
  | .idle | .start => True

/-- The invariant: an empty ring and a stopped queue are only found before the wake-up test. -/
structure Wakes (d : TxDev) (s : TxFine) : Prop where
  pending : d.bd.Mem s.q.pendingTx
  cur : d.bd.Mem s.q.cur
  xmit : XmitOk d.bd s.q s.xmit
  comp : CompOk d.bd s.q s.comp
  awake : s.q.stopped = true → s.q.pendingTx = s.q.cur → s.comp.isWaking = true

section Wakes

variable {d : TxDev} {s t : TxFine}

variable {bd : BdProp} {q q' : Txq}

theorem XmitOk.congr {x : XmitPc} (h : XmitOk bd q x) (hp : q'.pendingTx = q.pendingTx)
    (hc : q'.cur = q.cur) : XmitOk bd q' x := by
  cases x <;> simp only [XmitOk, hp, hc] at h ⊢ <;> exact h

theorem CompOk.congr {c : CompPc} (h : CompOk bd q c) (hp : q'.pendingTx = q.pendingTx)
    (hc : q'.cur = q.cur) : CompOk bd q' c := by
  cases c <;> simp only [CompOk, hp, hc] at h ⊢ <;> exact h

/-- A reclaim makes room.  A worker that decides about the flag must not see the last one. -/
theorem XmitOk.publish {x : XmitPc} (h : XmitOk bd q x) (hp : bd.Mem q.pendingTx)
    (hc : bd.Mem q.cur) (hne : q.pendingTx ≠ q.cur)
    (hlate : x.isDeciding = true → fecEnetGetNextdesc q.pendingTx bd ≠ q.cur) :
    XmitOk bd (q.setPendingTx (fecEnetGetNextdesc q.pendingTx bd)) x := by
  have hused := hp.used_next_left hc fun h0 => hne ((hp.used_eq_zero hc).mp h0)
  cases x with
  | idle | submit | check => trivial
  | submitCur env skb p =>
    obtain ⟨hmem, hle⟩ := h
    refine ⟨hmem, ?_⟩
    show bd.used (fecEnetGetNextdesc q.pendingTx bd) q.cur ≤ bd.used p q.cur
    omega
  | fill env skb =>
    have hlt : bd.used q.pendingTx q.cur + 1 < bd.ringSize := h
    show bd.used (fecEnetGetNextdesc q.pendingTx bd) q.cur + 1 < bd.ringSize
    omega
  | setCur next =>
    obtain ⟨hlt, hnext⟩ := h
    refine ⟨?_, hnext⟩
    show bd.used (fecEnetGetNextdesc q.pendingTx bd) q.cur + 1 < bd.ringSize
    omega
  | checkCur p => exact ⟨h.1, fun _ => hlate rfl⟩
  | stop => exact hlate rfl

/-- The shared variables. -/
def Txq.shared (q : Txq) : ℕ × ℕ × Bool := (q.pendingTx, q.cur, q.stopped)

theorem shared_txSubmit {env : TxEnv} {skb : Skb} {r : Option ℕ}
    (hs : txSubmit d env q skb = .ok (r, q')) :
    q'.shared = q.shared ∧ (r = none ∨ r = some (fecEnetGetNextdesc q.cur d.bd)) := by
  unfold txSubmit at hs
  dsimp only at hs
  split at hs
  · cases hs
    exact ⟨rfl, .inl rfl⟩
  · split at hs
    · cases hs
    · cases hs
      exact ⟨rfl, .inr rfl⟩

theorem shared_txReclaim (q : Txq) (bdp : ℕ) : (txReclaim d q bdp).shared = q.shared := by
  simp only [txReclaim]
  split <;> rfl

theorem shared_txNotDone (active : Bool) (q : Txq) : (txNotDone active q).shared = q.shared := by
  cases active <;> rfl

namespace Wakes

/-- The part of the invariant that only looks at the shared variables. -/
theorem of_shared {q : Txq} {x : XmitPc} {c : CompPc} (h : Wakes d s)
    (hq : q.shared = s.q.shared) (hx : XmitOk d.bd s.q x) (hc : CompOk d.bd s.q c)
    (hw : s.comp.isWaking = true → s.q.stopped = true → s.q.pendingTx = s.q.cur →
      c.isWaking = true) : Wakes d ⟨q, x, c⟩ := by
  obtain ⟨hp, hrest⟩ := Prod.mk.inj hq
  obtain ⟨hcur, hstop⟩ := Prod.mk.inj hrest
  refine ⟨?_, ?_, hx.congr hp hcur, hc.congr hp hcur, ?_⟩
  · exact hp ▸ h.pending
  · exact hcur ▸ h.cur
  · intro hs hpc
    dsimp only at hs hpc
    rw [hstop] at hs
    rw [hp, hcur] at hpc
    exact hw (h.awake hs hpc) hs hpc

/-- The transmitting worker. -/
theorem xmitStep (h : Wakes d s) (hs : xmitStep d s = .ok t) : Wakes d t := by
  obtain ⟨q, x, c⟩ := s
  have hpend : d.bd.Mem q.pendingTx := h.pending
  have hcur : d.bd.Mem q.cur := h.cur
  have hx : XmitOk d.bd q x := h.xmit
  have hkeep : ∀ x', XmitOk d.bd q x' → Wakes d ⟨q, x', c⟩ := fun x' hx' =>
    h.of_shared rfl hx' h.comp fun hw _ _ => hw
  unfold TrustedGateway.xmitStep at hs
  cases x with
  | idle =>
    cases hs
    exact h
  | submit env skb =>
    cases hs
    exact hkeep _ ⟨hpend, le_rfl⟩
  | submitCur env skb p =>
    obtain ⟨hmem, hle⟩ := hx
    dsimp only at hs
    split at hs
    · cases hs
      exact hkeep _ trivial
    · rename_i hfree
      cases hs
      rw [hmem.free_eq hcur] at hfree
      exact hkeep _ (show d.bd.used q.pendingTx q.cur + 1 < d.bd.ringSize by omega)
  | fill env skb =>
    dsimp only at hs
    split at hs
    · cases hs
    · rename_i q' hsub
      cases hs
      obtain ⟨hsh, -⟩ := shared_txSubmit hsub
      exact h.of_shared hsh trivial h.comp fun hw _ _ => hw
    · rename_i next q' hsub
      cases hs
      obtain ⟨hsh, hr | hr⟩ := shared_txSubmit hsub
      · cases hr
      · cases hr
        exact h.of_shared hsh ⟨hx, rfl⟩ h.comp fun hw _ _ => hw
  | setCur next =>
    cases hs
    obtain ⟨hused, rfl⟩ := hx
    have hgrow := hpend.used_next_right hcur hused
    -- the ring is not empty afterwards
    have hne : q.pendingTx ≠ fecEnetGetNextdesc q.cur d.bd := by
      rw [Ne, ← hpend.used_eq_zero hcur.next]
      omega
    refine ⟨hpend, hcur.next, trivial, ?_, fun _ hpc => absurd hpc hne⟩
    have hc : CompOk d.bd q c := h.comp
    cases c <;> first | exact hc | exact ⟨hc.1, hne⟩
  | check =>
    cases hs
    refine hkeep _ ⟨hpend, fun (hfull : d.bd.used q.pendingTx q.cur + 1 = _) hpc => ?_⟩
    have hzero := (hpend.used_eq_zero hcur).mpr hpc
    have := d.bd.one_lt_ringSize
    omega
  | checkCur p =>
    obtain ⟨hmem, himp⟩ := hx
    dsimp only at hs
    split at hs
    · rename_i hfree
      cases hs
      rw [hmem.free_eq hcur, txStopThreshold] at hfree
      have hlt := hmem.used_lt hcur
      exact hkeep _ (himp (by omega))
    · cases hs
      exact hkeep _ trivial
  | stop =>
    cases hs
    exact ⟨hpend, hcur, trivial, h.comp.congr rfl rfl, fun _ hpc => absurd hpc hx⟩

/-- The completing worker. -/
theorem txqStep (h : Wakes d s) (active : Bool) (hl : ¬ LateReclaim s (.txqStep active)) :
    Wakes d (txqStep d active s) := by
  obtain ⟨q, x, c⟩ := s
  have hpend : d.bd.Mem q.pendingTx := h.pending
  have hcur : d.bd.Mem q.cur := h.cur
  have hx : XmitOk d.bd q x := h.xmit
  have hc : CompOk d.bd q c := h.comp
  have hkeep : ∀ c', CompOk d.bd q c' →
      (c.isWaking = true → q.stopped = true → q.pendingTx = q.cur → c'.isWaking = true) →
      Wakes d ⟨q, x, c'⟩ := fun c' hc' hw => h.of_shared rfl h.xmit hc' hw
  have hround : ∀ bdp left, bdp = q.pendingTx → CompOk d.bd q (.afterRound bdp left) := by
    intro bdp left hbdp
    cases left with
    | zero => exact trivial
    | succ left => exact hbdp
  unfold TrustedGateway.txqStep
  cases c with
  | idle => exact h
  | start => exact hkeep _ rfl fun hw => by cases hw
  | loop bdp left =>
    dsimp only
    split
    · exact hkeep _ trivial fun hw => by cases hw
    · rename_i hne
      exact hkeep _ ⟨hc, fun hpc => hne (hc.trans hpc)⟩ fun hw => by cases hw
  | status bdp left =>
    obtain ⟨rfl, hne⟩ := hc
    dsimp only
    split
    · exact h.of_shared (shared_txNotDone active q) h.xmit trivial fun hw => by cases hw
    · exact h.of_shared (shared_txReclaim q q.pendingTx) h.xmit ⟨rfl, hne⟩ fun hw => by cases hw
  | publish bdp left =>
    obtain ⟨rfl, hne⟩ := hc
    refine ⟨hpend.next, hcur, hx.publish hpend hcur hne ?_, rfl, fun _ _ => rfl⟩
    intro hd heq
    exact hl ⟨decide_eq_true heq, hd⟩
  | testStopped bdp left =>
    dsimp only
    split
    · exact hkeep _ hc fun _ _ _ => rfl
    · rename_i hstop
      exact hkeep _ (hround bdp left hc) fun _ hs => absurd hs hstop
  | freePending bdp left => exact hkeep _ ⟨hc, rfl⟩ fun _ _ _ => rfl
  | freeCur bdp left p =>
    obtain ⟨hbdp, rfl⟩ := hc
    dsimp only
    split
    · exact hkeep _ hbdp fun _ _ _ => rfl
    · rename_i hfree
      refine hkeep _ (hround bdp left hbdp) fun _ _ hpc => absurd ?_ hfree
      have hzero := (hpend.used_eq_zero hcur).mpr hpc
      rw [hpend.free_eq hcur, hzero, txWakeThreshold, txStopThreshold]
      have := d.bd.one_lt_ringSize
      omega
  | wake bdp left =>
    dsimp only
    split
    · exact ⟨hpend, hcur, h.xmit.congr rfl rfl, hc, fun hs => by cases hs⟩
    · rename_i hstop
      exact hkeep _ (hround bdp left hc) fun _ hs => absurd hs hstop
  | notify bdp left =>
    exact h.of_shared rfl h.xmit (hround bdp left hc) fun hw => by cases hw

end Wakes

/-- **The step lemma.** -/
theorem Wakes.step {a : FineAction} (h : Wakes d s) (ha : FineAllows s a)
    (hl : ¬ LateReclaim s a) (hs : fineStep d s a = .ok t) : Wakes d t := by
  cases a with
  | xmit env skb =>
    cases hs
    exact h.of_shared rfl trivial h.comp fun hw _ _ => hw
  | xmitStep => exact h.xmitStep hs
  | txq =>
    cases hs
    refine h.of_shared rfl h.xmit trivial fun hw => ?_
    rw [CompPc.not_isWaking ha] at hw
    cases hw
  | txqStep active =>
    cases hs
    exact h.txqStep active hl
  | complete bdp sc =>
    cases hs
    exact h.of_shared rfl h.xmit h.comp fun hw _ _ => hw

end Wakes

/-- One frame is sent and reclaimed. -/
def sendAndReclaim : List FineAction :=
  [.xmit (sampleEnv true) (sampleSkb 7)] ++ List.replicate 6 .xmitStep ++
    [.complete 0x4000 0x1c00, .txq] ++ List.replicate 6 (.txqStep true)

section Stall

variable {d : TxDev}

/-- A frame without fragments. -/
def plainSkb : Skb := ⟨0, 0, 60, 0, false⟩

/-- Every buffer can be handed to the hardware. -/
def plainEnv : TxEnv := ⟨fun _ => 1, fun _ _ => true⟩

variable {j : ℕ} {q : Txq} {s : TxFine}

/-- A frame is sent, and the positions are compared. -/
theorem send_steps {c : CompPc} (hp : d.bd.Mem q.pendingTx) (hc : d.bd.Mem q.cur)
    (hused : d.bd.used q.pendingTx q.cur + 1 < d.bd.ringSize) :
    ∃ as q', Run (fineStep d) FineAllows ⟨q, .idle, c⟩ as ⟨q', .checkCur q'.pendingTx, c⟩ ∧
      q'.shared = (q.pendingTx, fecEnetGetNextdesc q.cur d.bd, q.stopped) := by
  have hfree : ¬ fecEnetGetFreeTxdescNum d.bd q.pendingTx q.cur < 1 := by
    rw [hp.free_eq hc]
    omega
  have hfill : Run (fineStep d) FineAllows ⟨q, .idle, c⟩ _ ⟨q, .fill plainEnv plainSkb, c⟩ :=
    fill_steps plainEnv rfl hfree
  have hsub : txSubmit d plainEnv q plainSkb = .ok (some (fecEnetGetNextdesc q.cur d.bd),
      fecTriggerTxFill (q.setDesc q.cur (txFillDesc d (q.desc q.cur) plainSkb 1))
        (txStatus d q.cur) q.cur plainSkb (txIndex d q.cur)) := rfl
  have hstep : xmitStep d ⟨q, .fill plainEnv plainSkb, c⟩ = .ok ⟨fecTriggerTxFill
      (q.setDesc q.cur (txFillDesc d (q.desc q.cur) plainSkb 1)) (txStatus d q.cur) q.cur plainSkb
      (txIndex d q.cur), .setCur (fecEnetGetNextdesc q.cur d.bd), c⟩ := by
    simp only [xmitStep, hsub]
  exact ⟨_, _, ((hfill.append (run_xmitStep rfl hstep)).append (run_xmitStep rfl rfl)).append
    (run_xmitStep rfl rfl), rfl⟩

/-- The positions while descriptors `0`, …, `k - 1` are in use. -/
def Filled (d : TxDev) (q : Txq) (k : ℕ) : Prop :=
  q.shared = (d.bd.addr 0, d.bd.addr k, false)

/-- One more frame, up to the comparison. -/
theorem Filled.send {k : ℕ} (h : Filled d q k) (hk : k + 1 < d.bd.ringSize) :
    ∃ as q', Run (fineStep d) FineAllows ⟨q, .idle, .idle⟩ as
        ⟨q', .checkCur q'.pendingTx, .idle⟩ ∧
      Filled d q' (k + 1) ∧
      fecEnetGetFreeTxdescNum d.bd q'.pendingTx q'.cur = (d.bd.ringSize : ℤ) - 1 - (k + 1) := by
  simp only [Filled, Txq.shared, Prod.mk.injEq] at h
  obtain ⟨hp, hc, hstop⟩ := h
  have hgap : ∀ j, gap d.bd.ringSize 0 j = j := fun j => by
    rw [gap, if_pos (Nat.zero_le j), Nat.sub_zero]
  have hnext : fecEnetGetNextdesc q.cur d.bd = d.bd.addr (k + 1) := by
    rw [hc, BdProp.nextdesc_addr (by omega), idx, if_pos hk]
  have hroom : d.bd.used q.pendingTx q.cur + 1 < d.bd.ringSize := by
    rw [hp, hc, BdProp.used_addr, hgap]
    exact hk
  obtain ⟨as, q', hr, hq'⟩ :=
    send_steps (c := .idle) ⟨0, d.bd.ringSize_pos, hp⟩ ⟨k, by omega, hc⟩ hroom
  rw [hp, hnext, hstop] at hq'
  refine ⟨as, q', hr, hq', ?_⟩
  simp only [Txq.shared, Prod.mk.injEq] at hq'
  rw [hq'.1, hq'.2.1, BdProp.freeTxdescNum_addr d.bd.ringSize_pos, hgap]
  push_cast
  rfl

/-- Frames are sent until one more fills the ring. -/
theorem Filled.fill (h : Filled d q 0) {k : ℕ} (hk : k + 1 < d.bd.ringSize) :
    ∃ as q', Run (fineStep d) FineAllows ⟨q, .idle, .idle⟩ as ⟨q', .idle, .idle⟩ ∧
      Filled d q' k := by
  induction k with
  | zero => exact ⟨[], q, .nil _, h⟩
  | succ k ih =>
    obtain ⟨as, q₁, hr₁, hq₁⟩ := ih (by omega)
    obtain ⟨bs, q₂, hr₂, hq₂, hfree⟩ := hq₁.send (by omega)
    have hcheck : xmitStep d ⟨q₂, .checkCur q₂.pendingTx, .idle⟩ = .ok ⟨q₂, .idle, .idle⟩ := by
      refine if_neg ?_
      rw [hfree, txStopThreshold]
      omega
    exact ⟨_, q₂, (hr₁.append hr₂).append (run_xmitStep rfl hcheck), hq₂⟩

/-- With the last frame the transmitting worker finds the ring full, and is interrupted. -/
theorem Filled.full (h : Filled d q 0) :
    ∃ as q', Run (fineStep d) FineAllows ⟨q, .idle, .idle⟩ as ⟨q', .stop, .idle⟩ ∧
      Filled d q' (d.bd.ringSize - 1) := by
  have hlt := d.bd.one_lt_ringSize
  obtain ⟨as, q₁, hr₁, hq₁⟩ := h.fill (k := d.bd.ringSize - 2) (by omega)
  obtain ⟨bs, q₂, hr₂, hq₂, hfree⟩ := hq₁.send (by omega)
  have hcheck : xmitStep d ⟨q₂, .checkCur q₂.pendingTx, .idle⟩ = .ok ⟨q₂, .stop, .idle⟩ := by
    refine if_pos ?_
    rw [hfree, txStopThreshold]
    omega
  refine ⟨_, q₂, (hr₁.append hr₂).append (run_xmitStep rfl hcheck), ?_⟩
  rwa [show d.bd.ringSize - 1 = d.bd.ringSize - 2 + 1 by omega]

/-- The completing worker before descriptor `j`, with the queue not stopped yet. -/
structure Draining (d : TxDev) (j : ℕ) (s : TxFine) : Prop where
  xmit : s.xmit = .stop
  shared : s.q.shared = (d.bd.addr j, d.bd.addr (d.bd.ringSize - 1), false)
  comp : ∃ n, s.comp = .afterRound (d.bd.addr j) n

/-- The completing worker goes into its loop, or is in it already. -/
theorem Draining.enter (h : Draining d j s) :
    ∃ as left, Run (fineStep d) FineAllows s as { s with comp := .loop (d.bd.addr j) left } := by
  obtain ⟨q, x, c⟩ := s
  obtain ⟨-, hq, n, hc⟩ := h
  dsimp only at hc hq
  subst hc
  cases n with
  | succ left => exact ⟨[], left, .nil _⟩
  | zero =>
    have hp : q.pendingTx = d.bd.addr j := congrArg Prod.fst hq
    have hstart : txqStep d true ⟨q, x, .start⟩ =
        ⟨q, x, .loop (d.bd.addr j) (bstgwTxcBudget - 1)⟩ := by
      rw [← hp]
      rfl
    have hcall : Run (fineStep d) FineAllows ⟨q, x, .idle⟩ [.txq] ⟨q, x, .start⟩ :=
      .cons rfl rfl (.nil _)
    exact ⟨_, _, hcall.append (run_txqStep true rfl hstart)⟩

/-- One descriptor is sent and reclaimed; the test finds the queue not stopped. -/
theorem Draining.next (h : Draining d j s) (hj : j + 1 < d.bd.ringSize) :
    ∃ as t, Run (fineStep d) FineAllows s as t ∧ Draining d (j + 1) t := by
  obtain ⟨as, left, hr⟩ := h.enter
  obtain ⟨q, x, c⟩ := s
  obtain ⟨hx, hq, -⟩ := h
  simp only [Txq.shared, Prod.mk.injEq] at hq hx
  obtain ⟨hp, hc, hstop⟩ := hq
  have hnext : fecEnetGetNextdesc (d.bd.addr j) d.bd = d.bd.addr (j + 1) := by
    rw [BdProp.nextdesc_addr (by omega), idx, if_pos hj]
  have hcomplete : Run (fineStep d) FineAllows ⟨q, x, .loop (d.bd.addr j) left⟩
      [.complete (d.bd.addr j) 0] ⟨q.setSc (d.bd.addr j) 0, x, .loop (d.bd.addr j) left⟩ :=
    .cons trivial rfl (.nil _)
  have hne : d.bd.addr j ≠ (q.setSc (d.bd.addr j) 0).cur := by
    show d.bd.addr j ≠ q.cur
    rw [hc, Ne, BdProp.addr_inj]
    omega
  have hdone : ¬ ((q.setSc (d.bd.addr j) 0).desc (d.bd.addr j)).cbdSc &&& bdEnetTxReady ≠ 0 := by
    simp [Txq.setSc, Txq.setDesc]
  obtain ⟨bs, hround⟩ := round_steps (d := d) (x := x) hne hdone left
  refine ⟨_, _, (hr.append hcomplete).append hround, hx, ?_, left, by rw [hnext]⟩
  have hsh := shared_txReclaim (d := d) (q.setSc (d.bd.addr j) 0) (d.bd.addr j)
  simp only [Txq.shared, Prod.mk.injEq] at hsh
  have hrun : ((txReclaim d (q.setSc (d.bd.addr j) 0) (d.bd.addr j)).setPendingTx
      (fecEnetGetNextdesc (d.bd.addr j) d.bd)).stopped = false := hsh.2.2.trans hstop
  show (txWakeTest d _).shared = _
  rw [txWakeTest_of_not_stopped d hrun]
  exact Prod.ext hnext (Prod.ext (hsh.2.1.trans hc) hrun)

/-- The ring is drained. -/
theorem Draining.drain (h : Draining d 0 s) (hj : j < d.bd.ringSize) :
    ∃ as t, Run (fineStep d) FineAllows s as t ∧ Draining d j t := by
  induction j with
  | zero => exact ⟨[], s, .nil s, h⟩
  | succ j ih =>
    obtain ⟨as, t, hr, ht⟩ := ih (by omega)
    obtain ⟨bs, u, hr', hu⟩ := ht.next hj
    exact ⟨as ++ bs, u, hr.append hr', hu⟩

/-- Every ring can stall: it is filled, drained, and then the queue is stopped. -/
theorem exists_stall (hq : q.shared = (d.bd.base, d.bd.base, false)) :
    ∃ as s, Run (fineStep d) FineAllows ⟨q, .idle, .idle⟩ as s ∧ s.Stalled := by
  have h0 : Filled d q 0 := by rw [Filled, BdProp.addr_zero, hq]
  obtain ⟨as, q₁, hr₁, hq₁⟩ := h0.full
  have hdrain : Draining d 0 ⟨q₁, .stop, .idle⟩ := ⟨rfl, hq₁, 0, rfl⟩
  obtain ⟨bs, t, hr₂, ht⟩ := hdrain.drain (j := d.bd.ringSize - 1)
    (Nat.sub_lt d.bd.ringSize_pos Nat.one_pos)
  obtain ⟨cs, left, hr₃⟩ := ht.enter
  obtain ⟨q₂, x, c⟩ := t
  obtain ⟨hx, hq₂, -⟩ := ht
  dsimp only at hx hq₂ hr₃
  subst hx
  simp only [Txq.shared, Prod.mk.injEq] at hq₂
  obtain ⟨hp, hc, -⟩ := hq₂
  have hend : txqStep d true ⟨q₂, .stop, .loop (d.bd.addr (d.bd.ringSize - 1)) left⟩ =
      ⟨q₂, .stop, .idle⟩ := by
    simp [txqStep, hc]
  have hstop : Run (fineStep d) FineAllows ⟨q₂, .stop, .idle⟩ [.xmitStep]
      ⟨q₂.setStopped true, .idle, .idle⟩ := run_xmitStep rfl rfl
  exact ⟨_, _, ((hr₁.append hr₂).append hr₃).append ((run_txqStep true rfl hend).append hstop),
    rfl, rfl, rfl, hp.trans hc.symm⟩

end Stall

end TrustedGateway
