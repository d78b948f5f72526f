import TrustedGateway.VirtioNet.Accounting

/-!
# Completion interrupts

A call that put something on the used ring ends with a kick, from which `vnic_vq_kick_cb`
makes an interrupt unless the driver has asked for none.  Two things come in between: the
callback tests `!flags & NO_INTERRUPT`, which is a test for `flags == 0`, and some ways out of
the loops miss the kick.
-/

namespace TrustedGateway

open BatchLoop StepSystem

variable {M : Type} {env : Env}

/-- The driver's flags of a queue. -/
def Net.availFlags (w : Net M) (q : QIdx) : Half := (w.dev.vdev.vq q).shared.avail.flags

/-- If a used entry was added on the way from `w` to `w'` and the driver does not suppress
interrupts, the interrupt status is set and the normal world has been kicked. -/
def Notified (w w' : Net M) (q : QIdx) : Prop :=
  (w.dev.vdev.vq q).returned.length < (w'.dev.vdev.vq q).returned.length →
    w.availFlags q &&& vringAvailFNoInterrupt = 0 →
    w'.dev.vdev.isr &&& 1 = 1 ∧ w.dev.irqs < w'.dev.irqs

/-! ## The kick -/

/-- **What a kick does**: an interrupt when the flags are all clear, and nothing otherwise. -/
theorem vnicVqKickCb_eq_ok {d d' : Dev M} {q : QIdx} (h : vnicVqKickCb d q = .ok d') :
    d' = if (d.vdev.vq q).shared.avail.flags = 0 then virtioNotify d else d := by
  simp only [vnicVqKickCb, Vqueue.derefAvail] at h
  split at h
  · cases h
  rename_i avail hd
  split at hd
  · cases hd
  cases hd
  by_cases hf : (d.vdev.vq q).shared.avail.flags = 0
  · rw [if_pos hf, if_pos (by decide)] at h
    rw [if_pos hf]
    cases h
    rfl
  · rw [if_neg hf, if_neg (by decide)] at h
    rw [if_neg hf]
    cases h
    rfl

theorem isr_virtioSetIsr (d : Dev M) : (virtioSetIsr d 1).vdev.isr &&& 1 = 1 := by
  simp only [virtioSetIsr]
  split
  · assumption
  · have hor : ∀ b : Byte, (b ||| 1) &&& 1 = 1 := by decide
    exact hor _

theorem virtioNotify_eq (d : Dev M) :
    virtioNotify d = { virtioSetIsr d 1 with irqs := d.irqs + 1 } := by
  have hne : (virtioSetIsr d 1).vdev.isr ≠ 0 := by
    intro h0
    have hbit := isr_virtioSetIsr d
    rw [h0] at hbit
    exact absurd hbit (by decide)
  have hirq : (virtioSetIsr d 1).irqs = d.irqs := by
    simp only [virtioSetIsr]
    split <;> rfl
  rw [virtioNotify, vnicKickNw, if_neg hne, hirq]

/-- The end of a call: the queue is put back, and the kick is made or missed. -/
theorem notified_iff_of_putBack {kicks : Prop} {w w' : Net M} {q : QIdx} {vq : Vqueue}
    (havail : vq.shared.avail.flags = w.availFlags q) (h : PutBack w.dev q vq kicks w'.dev) :
    Notified w w' q ↔
      ((w.dev.vdev.vq q).returned.length < vq.returned.length →
        w.availFlags q &&& vringAvailFNoInterrupt = 0 → w.availFlags q = 0 ∧ kicks) := by
  have hirqs : (w.dev.setVq q vq).irqs = w.dev.irqs := rfl
  rw [Notified, h.vq_eq]
  refine imp_congr_right fun _ => imp_congr_right fun _ => ?_
  by_cases hk : kicks
  · have hdev := vnicVqKickCb_eq_ok (h.kicked hk)
    rw [vq_setVq_self, havail] at hdev
    by_cases hf : w.availFlags q = 0
    · rw [if_pos hf, virtioNotify_eq] at hdev
      rw [hdev]
      exact iff_of_true ⟨isr_virtioSetIsr _, Nat.lt_succ_self _⟩ ⟨hf, hk⟩
    · rw [if_neg hf] at hdev
      rw [hdev, hirqs]
      exact iff_of_false (fun h => lt_irrefl _ h.2) fun h => hf h.1
  · rw [h.silent hk, hirqs]
    exact iff_of_false (fun h => lt_irrefl _ h.2) fun h => hk h.2

/-! ## Receiving -/

/-- The iteration gives a head back. -/
def RxReturns (s : RxState) (ob : Option BufId) : Prop :=
  ∃ b s', rxPrepare s ob = .ok (some b, s') ∧ s'.vq.More ∧ s'.vq.nextDesc.RxOk

/-- The iteration delivers its packet. -/
def RxSends (env : Env) (s : RxState) (ob : Option BufId) : Prop :=
  ∃ b s', rxPrepare s ob = .ok (some b, s') ∧ s'.vq.More ∧ s'.vq.nextDesc.RxOk ∧
    RxDelivers env s'.vq.nextDesc (s'.pool.eb b)

/-- What an iteration adds to the used ring, and to the number of delivered packets. -/
theorem rxBody_counts {rxBurst : Word} {s s' : RxState} {ob : Option BufId} {n : Next ℤ}
    (h : rxBody env rxBurst s ob = .ok (n, s')) :
    s'.vq.shared.avail = s.vq.shared.avail ∧
    ((RxReturns s ob ∧ s'.vq.returned.length = s.vq.returned.length + 1) ∨
      (¬ RxReturns s ob ∧ s'.vq.returned.length = s.vq.returned.length)) ∧
    ((RxSends env s ob ∧ s'.enqueued = s.enqueued + 1) ∨
      (¬ RxSends env s ob ∧ s'.enqueued = s.enqueued)) := by
  rcases rxBody_turn h with ⟨-, hp⟩ | ⟨b, t, hp, ht⟩
  · obtain ⟨hvq, -, henq⟩ := rxPrepare_keeps hp
    rw [hvq, henq]
    refine ⟨rfl, .inr ⟨?_, rfl⟩, .inr ⟨?_, rfl⟩⟩
    · rintro ⟨b, t, ht, -⟩
      rw [hp] at ht
      cases ht
    · rintro ⟨b, t, ht, -⟩
      rw [hp] at ht
      cases ht
  obtain ⟨hvq, -, henq⟩ := rxPrepare_keeps hp
  rw [← hvq, ← henq, RxReturns, exists_prepared_iff hp, RxSends, exists_prepared_iff hp]
  cases ht with
  | idle hnone => exact ⟨rfl, .inr ⟨fun h => hnone h.1, rfl⟩, .inr ⟨fun h => hnone h.1, rfl⟩⟩
  | lost hmore hbad => exact ⟨rfl, .inr ⟨fun h => hbad h.2, rfl⟩, .inr ⟨fun h => hbad h.2.1, rfl⟩⟩
  | refused hmore hgood hno =>
    exact ⟨rfl, .inl ⟨⟨hmore, hgood⟩, by simp [Vqueue.gave, Vqueue.took]⟩,
      .inr ⟨fun h => hno h.2.2, rfl⟩⟩
  | delivered hmore hgood hyes =>
    exact ⟨rfl, .inl ⟨⟨hmore, hgood⟩, by simp [Vqueue.gave, Vqueue.took]⟩,
      .inl ⟨⟨hmore, hgood, hyes⟩, rfl⟩⟩

/-! ## Transmitting -/

/-- The iteration gives a head back. -/
def TxReturns (env : Env) (nw : ℕ → Byte) (s : TxState) : Prop :=
  ∃ buf vq, vqueueGetAvailBuf s.vq (VqueueBuf.empty maxTxIovs 0) = .ok (noError, buf, vq) ∧
    (TxQueues env nw buf ∨ TxDrops env s.vq.lastAvailIdx buf)

theorem txBody_counts {nw : ℕ → Byte} {s s' : TxState} {k : ℕ} {n : Next ℤ}
    (h : txBody env nw s k = .ok (n, s')) :
    s'.vq.shared.avail = s.vq.shared.avail ∧
    ((TxReturns env nw s ∧ s'.vq.returned.length = s.vq.returned.length + 1 ∧
        s'.numPackets = s.numPackets + 1) ∨
      (¬ TxReturns env nw s ∧ s'.vq.returned.length = s.vq.returned.length ∧
        s'.numPackets = s.numPackets)) := by
  obtain ⟨b, pool, ret, buf, vq, -, hq, ht⟩ := txBody_turn h
  have hiff : TxReturns env nw s ↔
      ret = noError ∧ (TxQueues env nw buf ∨ TxDrops env s.vq.lastAvailIdx buf) := by
    constructor
    · rintro ⟨buf', vq', hq', h⟩
      rw [hq] at hq'
      cases hq'
      exact ⟨rfl, h⟩
    · rintro ⟨rfl, h⟩
      exact ⟨buf, vq, hq, h⟩
  rw [hiff]
  cases ht with
  | idle hr | closed hr =>
    refine ⟨rfl, .inr ⟨?_, rfl, rfl⟩⟩
    rintro ⟨rfl, -⟩
    exact absurd hr (by decide)
  | lost hr => exact ⟨rfl, .inr ⟨fun h => hr h.1, rfl, rfl⟩⟩
  | gaveUp r hr ht hno hno' => exact ⟨rfl, .inr ⟨fun h => h.2.elim hno hno', rfl, rfl⟩⟩
  | dropped hr ht hyes =>
    exact ⟨rfl, .inl ⟨⟨hr, .inr hyes⟩, by simp [Vqueue.gave, Vqueue.took], rfl⟩⟩
  | queued p ps hr ht hps hmap hlen hplain =>
    exact ⟨rfl, .inl ⟨⟨hr, .inl ((txQueues_iff hps).mpr ⟨hmap, hlen, hplain⟩)⟩,
      by simp [Vqueue.gave, Vqueue.took], rfl⟩⟩

/-! ## The calls -/

namespace NetCall

/-- Some iteration of the call gives a head back. -/
def Adds (env : Env) (w : Net M) : NetCall → Prop
  | receive bufs => ∃ ob s, RxVisits env w bufs ob s ∧ RxReturns s ob
  | flushTx => ∃ s, TxVisits env w s ∧ TxReturns env w.nw s

/-- A packet is delivered; the batch is not given up. -/
def Kicks (env : Env) (w : Net M) : NetCall → Prop
  | receive bufs => ∃ ob s, RxVisits env w bufs ob s ∧ RxSends env s ob
  | flushTx => ∀ s, TxVisits env w s → ¬ TxGivesUp env w.nw s

end NetCall

theorem notified_receive_iff {w w' : Net M} {bufs : List (Option BufId)} {r : ℤ}
    (h : virtioNetReceive env w bufs = .ok (r, w')) :
    Notified w w' 0 ↔ ((NetCall.receive bufs).Adds env w →
      w.availFlags 0 &&& vringAvailFNoInterrupt = 0 →
        w.availFlags 0 = 0 ∧ (NetCall.receive bufs).Kicks env w) := by
  rcases virtioNetReceive_cases h with ⟨rfl, hno⟩ | ⟨hs, o, s, hloop, -, hend⟩
  · refine iff_of_true (fun hlt => absurd hlt (lt_irrefl _)) ?_
    rintro ⟨ob, s, hv, -⟩
    exact absurd hv.1 hno
  have havail : s.vq.shared.avail = (w.dev.vdev.vq 0).shared.avail :=
    (batch_inv (I := fun t => t.vq.shared.avail = (w.dev.vdev.vq 0).shared.avail) bufs w.rxStart
      rfl fun t ob n t' _ hI hb => (rxBody_counts hb).1.trans hI).2 o s hloop
  have hadds : (w.dev.vdev.vq 0).returned.length < s.vq.returned.length ↔
      (NetCall.receive bufs).Adds env w := by
    refine (batch_lt_iff (f := fun t => t.vq.returned.length) (p := RxReturns) bufs w.rxStart
      (fun ob t n t' hb => (rxBody_counts hb).2.1) hloop).trans ?_
    exact ⟨fun ⟨ob, u, hv, hp⟩ => ⟨ob, u, ⟨hs, hv⟩, hp⟩, fun ⟨ob, u, hv, hp⟩ => ⟨ob, u, hv.2, hp⟩⟩
  have hkicks : 0 < s.enqueued ↔ (NetCall.receive bufs).Kicks env w := by
    refine (batch_lt_iff (f := fun t => t.enqueued) (p := RxSends env) bufs w.rxStart
      (fun ob t n t' hb => (rxBody_counts hb).2.2) hloop).trans ?_
    exact ⟨fun ⟨ob, u, hv, hp⟩ => ⟨ob, u, ⟨hs, hv⟩, hp⟩, fun ⟨ob, u, hv, hp⟩ => ⟨ob, u, hv.2, hp⟩⟩
  rw [← hadds, ← hkicks]
  exact notified_iff_of_putBack (congrArg VringAvail.flags havail) hend

theorem notified_flushTx_iff {w w' : Net M} {r : ℤ} (h : virtioNetFlushTx env w = .ok (r, w')) :
    Notified w w' 1 ↔ (NetCall.flushTx.Adds env w →
      w.availFlags 1 &&& vringAvailFNoInterrupt = 0 →
        w.availFlags 1 = 0 ∧ NetCall.flushTx.Kicks env w) := by
  rcases virtioNetFlushTx_cases h with ⟨rfl, hno⟩ | ⟨dataAvail, ⟨o, s⟩, hstart, hloop, hend⟩
  · refine iff_of_true (fun hlt => absurd hlt (lt_irrefl _)) ?_
    rintro ⟨s, ⟨dataAvail, k, hs, -⟩, -⟩
    exact absurd hs (hno dataAvail)
  have hvisits : ∀ p : TxState → Prop, (∃ k u, Visits (txBody env w.nw)
      (List.range (max (txBurst env w.dev dataAvail) 1)) w.txStart k u ∧ p u) ↔
      ∃ u, TxVisits env w u ∧ p u := by
    intro p
    constructor
    · rintro ⟨k, u, hv, hp⟩
      exact ⟨u, hstart.visits_iff.mpr ⟨k, hv⟩, hp⟩
    · rintro ⟨u, hv, hp⟩
      obtain ⟨k, hv⟩ := hstart.visits_iff.mp hv
      exact ⟨k, u, hv, hp⟩
  have havail : s.vq.shared.avail = (w.dev.vdev.vq 1).shared.avail :=
    (batch_inv (I := fun t => t.vq.shared.avail = (w.dev.vdev.vq 1).shared.avail) _ w.txStart
      rfl fun t k n t' _ hI hb => (txBody_counts hb).1.trans hI).2 o s hloop
  have hadds : (w.dev.vdev.vq 1).returned.length < s.vq.returned.length ↔
      NetCall.flushTx.Adds env w := by
    refine (batch_lt_iff (f := fun t => t.vq.returned.length) (p := fun t _ => TxReturns env w.nw t)
      _ w.txStart (fun k t n t' hb => ?_) hloop).trans (hvisits _)
    exact (txBody_counts hb).2.imp (fun h => ⟨h.1, h.2.1⟩) fun h => ⟨h.1, h.2.1⟩
  have hnum : 0 < s.numPackets ↔ NetCall.flushTx.Adds env w := by
    refine (batch_lt_iff (f := fun t => t.numPackets) (p := fun t _ => TxReturns env w.nw t)
      _ w.txStart (fun k t n t' hb => ?_) hloop).trans (hvisits _)
    exact (txBody_counts hb).2.imp (fun h => ⟨h.1, h.2.2⟩) fun h => ⟨h.1, h.2.2⟩
  have hkicks : NetCall.flushTx.Kicks env w ↔ o = none := by
    rw [← not_iff_not, ← ne_eq o none, hstart.givesUp_iff hloop]
    simp only [NetCall.Kicks, not_forall, not_not, exists_prop]
  refine (notified_iff_of_putBack (congrArg VringAvail.flags havail) (txEnd_eq_ok hend).1).trans ?_
  rw [hkicks, hadds]
  refine imp_congr_right fun ha => imp_congr_right fun _ => ?_
  simp [hnum.mpr ha]

end TrustedGateway
