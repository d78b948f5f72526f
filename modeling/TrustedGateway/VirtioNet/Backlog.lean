import TrustedGateway.Mmio
import TrustedGateway.VirtioNet.Accounting
import TrustedGateway.VirtioNet.Interrupts

/-!
# What a call does to the backlog

How many chains wait in a queue decides what the callers of the two batch functions do next.
A call never touches the other queue or the status; a call that reports progress has taken
chains off its own queue, and a call that asks for a retry has done nothing at all.

## Main results

* `virtioNetFlushTx_flushed` — what `virtio_net_flush_tx` does to the backlog.
* `virtioNetReceive_received` — what `virtio_net_receive` does to it.
-/

namespace TrustedGateway

open BatchLoop StepSystem

variable {M : Type} {env : Env}

/-! ## Counting chains -/

/-- How many chains wait in the queue. -/
def Vqueue.waiting (vq : Vqueue) : ℕ := (vq.shared.avail.idx - vq.lastAvailIdx).toNat

variable {d d' : Dev M} {k : ℕ} {ks : List ℕ} {n : Next ℤ} {nw : ℕ → Byte} {r : ℤ} {s s' : TxState}
  {vq : Vqueue} {w w' : Net M}

theorem numOfAvailBuf_eq (h : vq.vring.avail ≠ 0) :
    vqueueNumOfAvailBuf vq = .ok (vq.shared.avail.idx - vq.lastAvailIdx) := by
  rw [vqueueNumOfAvailBuf, Vqueue.derefAvail, if_neg h]
  rfl

theorem numOfAvailBuf_eq_ok {n : Half} (h : vqueueNumOfAvailBuf vq = .ok n) :
    vq.vring.avail ≠ 0 ∧ n.toNat = vq.waiting := by
  by_cases hn : vq.vring.avail = 0
  · rw [vqueueNumOfAvailBuf, Vqueue.derefAvail, if_pos hn] at h
    cases h
  · rw [numOfAvailBuf_eq hn] at h
    cases h
    exact ⟨hn, rfl⟩

theorem Vqueue.waiting_eq_zero_iff : vq.waiting = 0 ↔ vq.lastAvailIdx = vq.shared.avail.idx := by
  rw [waiting]
  constructor
  · intro h
    have h0 : vq.shared.avail.idx - vq.lastAvailIdx = 0 := BitVec.eq_of_toNat_eq h
    exact (sub_eq_zero.mp h0).symm
  · intro h
    rw [h, sub_self]
    rfl

/-- Taking a chain lowers the count. -/
theorem Vqueue.waiting_took (h : vq.lastAvailIdx ≠ vq.shared.avail.idx) :
    vq.took.waiting + 1 = vq.waiting := by
  have hpos : vq.waiting ≠ 0 := fun h0 => h (waiting_eq_zero_iff.mp h0)
  simp only [waiting, took] at hpos ⊢
  bv_omega

theorem quiet_vnicVqKickCb {q : QIdx} (h : vnicVqKickCb d q = .ok d') : Quiet d d' := by
  rw [vnicVqKickCb_eq_ok h]
  split
  · rw [virtioNotify_eq, virtioSetIsr]
    split <;> exact ⟨rfl, rfl, rfl, rfl, rfl, fun _ => rfl, rfl, rfl, rfl, rfl⟩
  · exact .refl d

theorem PutBack.quiet {q : QIdx} {kicks : Prop} (h : PutBack d q vq kicks d') :
    Quiet (d.setVq q vq) d' := by
  by_cases hk : kicks
  · exact quiet_vnicVqKickCb (h.kicked hk)
  · rw [h.silent hk]
    exact .refl _

/-- What a call leaves alone that works on queue `q`. -/
structure LeavesRest (q : QIdx) (d d' : Dev M) : Prop where
  other : ∀ q', q' ≠ q → d'.vdev.vq q' = d.vdev.vq q'
  addr : (d'.vdev.vq q).vringAddr = (d.vdev.vq q).vringAddr
  status : d'.vdev.status = d.vdev.status

theorem LeavesRest.refl (q : QIdx) (d : Dev M) : LeavesRest q d d := ⟨fun _ _ => rfl, rfl, rfl⟩

theorem PutBack.leavesRest {q : QIdx} {kicks : Prop} (h : PutBack d q vq kicks d')
    (ha : vq.vringAddr = (d.vdev.vq q).vringAddr) : LeavesRest q d d' := by
  refine ⟨?_, ?_, h.quiet.status⟩
  · intro q' hq
    rw [h.quiet.vq, vq_setVq_of_ne d hq]
  · rw [h.vq_eq, ha]

/-! ## Transmitting -/

/-- There are chains to transmit, and not enough room in the router for a burst. -/
@[mk_iff]
structure TxRetries (room : Word) (d : Dev M) : Prop where
  driverOk : d.vdev.status &&& virtioConfigSDriverOk ≠ 0
  ring : (d.vdev.vq 1).vring.avail ≠ 0
  some : (d.vdev.vq 1).waiting ≠ 0
  room : room.toNat < virtioNetQueueDefaultSize / 2

instance (room : Word) (d : Dev M) : Decidable (TxRetries room d) :=
  decidable_of_iff _ (txRetries_iff room d).symm

/-- The loop of `virtio_net_flush_tx`: what was taken has been counted. -/
structure TxCounts (vq : Vqueue) (s : TxState) : Prop where
  addr : s.vq.vringAddr = vq.vringAddr
  frames : s.frames.length ≤ s.numPackets
  chains : s.numPackets + s.vq.waiting ≤ vq.waiting

/-- An iteration leaves the queue where it is. -/
theorem vringAddr_txBody (h : txBody env nw s k = .ok (n, s')) :
    s'.vq.vringAddr = s.vq.vringAddr := by
  obtain ⟨b, pool, ret, buf, vq', -, -, ht⟩ := txBody_turn h
  cases ht <;> rfl

theorem txCounts_txBody (hs : TxCounts vq s) (h : txBody env nw s k = .ok (n, s')) :
    TxCounts vq s' := by
  obtain ⟨ha, hf, hc⟩ := hs
  rw [← vringAddr_txBody h] at ha
  obtain ⟨b, pool, ret, buf, vq', -, -, ht⟩ := txBody_turn h
  cases ht with
  | idle | closed => exact ⟨ha, hf, hc⟩
  | lost hr ht | gaveUp r hr ht =>
    have hw := Vqueue.waiting_took ht.more
    exact ⟨ha, hf, show s.numPackets + s.vq.took.waiting ≤ _ by omega⟩
  | dropped hr ht =>
    have hw := Vqueue.waiting_took ht.more
    exact ⟨ha, Nat.le_succ_of_le hf, show s.numPackets + 1 + s.vq.took.waiting ≤ _ by omega⟩
  | queued p ps hr ht =>
    have hw := Vqueue.waiting_took ht.more
    refine ⟨ha, ?_, show s.numPackets + 1 + s.vq.took.waiting ≤ _ by omega⟩
    rw [List.length_append]
    exact Nat.succ_le_succ hf

/-- A chain that makes the call give up is gone from the queue, unless the queue is down. -/
theorem txBody_ret_waiting (h : txBody env nw s k = .ok (.ret r, s')) :
    r = errChannelClosed ∨ s'.vq.waiting < s.vq.waiting := by
  obtain ⟨b, pool, ret, buf, vq', -, -, ht⟩ := txBody_turn h
  cases ht with
  | closed hr => exact .inl hr
  | lost hr ht | gaveUp r hr ht =>
    have hw := Vqueue.waiting_took ht.more
    exact .inr (show s.vq.took.waiting < _ by omega)

/-- The verdict that gives a batch up is an error, provided that the local that may be read
before it is set does not happen to be positive. -/
theorem txInspect_abort_nonpos {idx : Half} {buf : VqueueBuf} (hu : env.uninit idx ≤ 0)
    (h : (txInspect env idx nw buf).verdict = .abort r) : r ≤ 0 := by
  have hmap : ∀ l, (vqueueMapIovs env.va (env.uninit idx) l).1 ≤ 0 := by
    intro l
    simp only [vqueueMapIovs]
    split
    · exact le_refl _
    · exact hu
  revert h
  simp only [txInspect]
  repeat' split
  all_goals rintro ⟨⟩
  all_goals first | exact hmap _ | decide

theorem txBody_ret_nonpos (hu : ∀ idx, env.uninit idx ≤ 0)
    (h : txBody env nw s k = .ok (.ret r, s')) : r ≤ 0 := by
  simp only [txBody] at h
  split at h
  · cases h
  split at h
  · cases h
  rename_i ret buf vq hq
  split at h
  · cases h
  split at h
  · cases h
    rcases getAvailBuf_cases hq with ⟨-, ⟨rfl, -⟩ | ⟨rfl, -⟩⟩ | ht
    · decide
    · decide
    · rcases ht.walked.1.code with h | h | h <;> rw [h] <;> decide
  split at h
  · rename_i ret' hv
    cases h
    exact txInspect_abort_nonpos (hu _) hv
  · split at h
    · cases h
    split at h <;> cases h

/-- What `virtio_net_flush_tx` does to the backlog when it returns `r`. -/
structure Flushed (env : Env) (w : Net M) (r : ℤ) (w' : Net M) : Prop where
  rest : LeavesRest 1 w.dev w'.dev
  le : (w'.dev.vdev.vq 1).waiting ≤ (w.dev.vdev.vq 1).waiting
  progress : 0 < r → (w'.dev.vdev.vq 1).waiting < (w.dev.vdev.vq 1).waiting
  retry : r = virtioNapiRetry →
    (w'.dev.vdev.vq 1).waiting < (w.dev.vdev.vq 1).waiting ∨ TxRetries env.refBurst w.dev
  handed : w.handed.length < w'.handed.length →
    (w'.dev.vdev.vq 1).waiting < (w.dev.vdev.vq 1).waiting
  packets : (∀ idx, env.uninit idx ≤ 0) → 0 < r →
    r + (w'.dev.vdev.vq 1).waiting ≤ (w.dev.vdev.vq 1).waiting

/-- A call that changes nothing. -/
theorem Flushed.same (hr : r ≤ 0) (hretry : r = virtioNapiRetry → TxRetries env.refBurst w.dev) :
    Flushed env w r w where
  rest := .refl 1 w.dev
  le := le_rfl
  progress h := absurd h (not_lt.mpr hr)
  retry h := .inr (hretry h)
  handed h := absurd h (lt_irrefl _)
  packets _ h := absurd h (not_lt.mpr hr)

/-- The loop keeps its counts, up to the iteration in which it gives up. -/
theorem txCounts_txLoop {o : Option ℤ} (hloop : batch (txBody env w.nw) ks w.txStart = .ok (o, s)) :
    (∀ k t, Visits (txBody env w.nw) ks w.txStart k t → TxCounts (w.dev.vdev.vq 1) t) ∧
      TxCounts (w.dev.vdev.vq 1) s := by
  have h0 : TxCounts (w.dev.vdev.vq 1) w.txStart := ⟨rfl, le_rfl, by simp [Net.txStart]⟩
  have hinv := batch_inv ks w.txStart h0
    fun t k n t' _ ht (hb : txBody env w.nw t k = .ok (n, t')) => txCounts_txBody ht hb
  exact ⟨hinv.1, hinv.2 o s hloop⟩

/-- A loop that gave up. -/
theorem flushed_txEnd_some {ret : ℤ}
    (hloop : batch (txBody env w.nw) ks w.txStart = .ok (some ret, s))
    (h : txEnd w (some ret, s) = .ok (r, w')) : Flushed env w r w' := by
  obtain ⟨hvisits, ha, hf, hc⟩ := txCounts_txLoop hloop
  have hput := (txEnd_eq_ok h).1
  obtain ⟨k, u, hv, hu⟩ := exists_visit_of_ret hloop
  have hcu := (hvisits k u hv).chains
  have hend := txBody_ret_waiting hu
  cases h
  refine ⟨hput.leavesRest ha, ?_, ?_, ?_, fun h => absurd h (lt_irrefl _), ?_⟩ <;> rw [hput.vq_eq]
  · omega
  · intro hpos
    rcases hend with rfl | hlt
    · exact absurd hpos (by decide)
    · omega
  · rintro rfl
    rcases hend with hr | hlt
    · exact absurd hr (by decide)
    · exact .inl (by omega)
  · intro hun hpos
    exact absurd hpos (not_lt.mpr (txBody_ret_nonpos hun hu))

/-- A loop that came to its end. -/
theorem flushed_txEnd_none (hloop : batch (txBody env w.nw) ks w.txStart = .ok (none, s))
    (h : txEnd w (none, s) = .ok (r, w')) : Flushed env w r w' := by
  obtain ⟨-, ha, hf, hc⟩ := txCounts_txLoop hloop
  obtain ⟨hput, hr, hh, -⟩ := txEnd_eq_ok h
  rw [Option.getD_none] at hr
  refine ⟨hput.leavesRest ha, ?_, ?_, ?_, ?_, ?_⟩ <;> rw [hput.vq_eq]
  · omega
  · intro hpos
    omega
  · intro hretry
    simp only [virtioNapiRetry] at hretry
    omega
  · intro hlt
    rw [hh, if_pos rfl, List.length_append] at hlt
    omega
  · intro _ _
    omega

theorem flushed_txEnd {o : Option ℤ} (hloop : batch (txBody env w.nw) ks w.txStart = .ok (o, s))
    (h : txEnd w (o, s) = .ok (r, w')) : Flushed env w r w' := by
  cases o with
  | some ret => exact flushed_txEnd_some hloop h
  | none => exact flushed_txEnd_none hloop h

/-- **What `virtio_net_flush_tx` does to the backlog.** -/
theorem virtioNetFlushTx_flushed (h : virtioNetFlushTx env w = .ok (r, w')) :
    Flushed env w r w' := by
  rw [virtioNetFlushTx_eq] at h
  split at h
  · cases h
  · rename_i r' hentry
    cases h
    rw [txEntry] at hentry
    split at hentry
    · cases hentry
      exact .same le_rfl fun h => absurd h (by decide)
    rename_i hok
    split at hentry
    · cases hentry
    rename_i dataAvail havail
    obtain ⟨hring, hnum⟩ := numOfAvailBuf_eq_ok havail
    split_ifs at hentry with hne hroom <;> cases hentry
    · exact .same (by decide) fun h => absurd h (by decide)
    · refine .same (by decide) fun _ => ⟨hok, hring, ?_, hroom⟩
      rw [← hnum]
      exact fun h0 => hne (BitVec.eq_of_toNat_eq h0)
    · exact .same (by decide) fun h => absurd h (by decide)
  · split at h
    · cases h
    rename_i p hp
    exact flushed_txEnd hp h

/-- On such a backlog the call asks for a retry. -/
theorem TxRetries.flushTx (h : TxRetries env.refBurst w.dev) :
    virtioNetFlushTx env w = .ok (virtioNapiRetry, w) := by
  have hne : ¬ (w.dev.vdev.vq 1).shared.avail.idx - (w.dev.vdev.vq 1).lastAvailIdx = 0 := by
    intro h0
    apply h.some
    rw [Vqueue.waiting, h0]
    rfl
  simp only [virtioNetFlushTx, if_neg h.driverOk, numOfAvailBuf_eq h.ring, if_neg hne,
    if_pos h.room]

/-! ## Receiving -/

/-- There are packets to deliver and chains to deliver them to, but not enough for a burst. -/
@[mk_iff]
structure RxRetries (d : Dev M) : Prop where
  ready : virtioNetCanReceive d
  ring : (d.vdev.vq 0).vring.avail ≠ 0
  some : (d.vdev.vq 0).waiting ≠ 0
  few : (d.vdev.vq 0).waiting < virtioNetQueueDefaultSize / 2

instance (d : Dev M) : Decidable (RxRetries d) :=
  decidable_of_iff _ (rxRetries_iff d).symm

/-- Only the receive queue and the status matter. -/
theorem RxRetries.congr (h : RxRetries d) (hrx : d'.vdev.vq 0 = d.vdev.vq 0)
    (hst : d'.vdev.status = d.vdev.status) : RxRetries d' := by
  obtain ⟨h₁, h₂, h₃, h₄⟩ := h
  rw [virtioNetCanReceive] at h₁
  constructor
  · rw [virtioNetCanReceive, hrx, hst]
    exact h₁
  · rwa [hrx]
  · rwa [hrx]
  · rwa [hrx]

/-- What `virtio_net_receive` does to the backlog when it returns `r`. -/
structure Received (w : Net M) (r : ℤ) (w' : Net M) : Prop where
  rest : LeavesRest 0 w.dev w'.dev
  retry : r = virtioNapiRetry → RxRetries w.dev

/-- An iteration leaves the queue where it is. -/
theorem vringAddr_rxBody {rxBurst : Word} {s s' : RxState} {ob : Option BufId}
    (h : rxBody env rxBurst s ob = .ok (n, s')) : s'.vq.vringAddr = s.vq.vringAddr := by
  rcases rxBody_turn h with ⟨-, hp⟩ | ⟨b, t, hp, ht⟩
  · rw [(rxPrepare_keeps hp).1]
  · rw [← (rxPrepare_keeps hp).1]
    cases ht <;> rfl

/-- **What `virtio_net_receive` does to the backlog.** -/
theorem virtioNetReceive_received {bufs : List (Option BufId)}
    (h : virtioNetReceive env w bufs = .ok (r, w')) : Received w r w' := by
  rcases virtioNetReceive_cases h with ⟨-, hs⟩ | ⟨-, o, s, hloop, rfl, hput⟩
  rotate_left
  · have hinv := batch_inv (I := fun t => t.vq.vringAddr = (w.dev.vdev.vq 0).vringAddr) bufs
      w.rxStart rfl fun t a n t' _ ht (hb : rxBody env w.dev.vnet.rxBurst t a = .ok (n, t')) =>
        (vringAddr_rxBody hb).trans ht
    refine ⟨hput.leavesRest (hinv.2 o s hloop), fun hr => ?_⟩
    simp only [virtioNapiRetry] at hr
    omega
  · rw [virtioNetReceive_eq] at h
    split at h
    · cases h
    · rename_i r' hentry
      cases h
      refine ⟨.refl 0 _, ?_⟩
      rw [rxEntry] at hentry
      split at hentry
      · cases hentry
        exact fun h => absurd h (by decide)
      rename_i hcan
      split at hentry
      · cases hentry
      rename_i space hspace
      obtain ⟨hring, hnum⟩ := numOfAvailBuf_eq_ok hspace
      split_ifs at hentry with hne hfew <;> cases hentry
      · exact fun h => absurd h (by decide)
      · refine fun _ => ⟨not_not.mp hcan, hring, ?_, hnum ▸ hfew⟩
        rw [← hnum]
        exact fun h0 => hne (BitVec.eq_of_toNat_eq h0)
    · rename_i space hentry
      exact absurd (rxStarts_iff.mpr ⟨space, hentry⟩) hs

/-- On such a backlog the call asks for a retry. -/
theorem RxRetries.receive (h : RxRetries w.dev) (bufs : List (Option BufId)) :
    virtioNetReceive env w bufs = .ok (virtioNapiRetry, w) := by
  have hne : ¬ (w.dev.vdev.vq 0).shared.avail.idx - (w.dev.vdev.vq 0).lastAvailIdx = 0 := by
    intro h0
    apply h.some
    rw [Vqueue.waiting, h0]
    rfl
  simp only [virtioNetReceive, h.ready, not_true, if_false, numOfAvailBuf_eq h.ring, if_neg hne]
  exact if_pos h.few

end TrustedGateway
