import TrustedGateway.Lib.While
import TrustedGateway.VirtioNet.Backlog
import TrustedGateway.Vnic

/-!
# When a poll comes to an end

The loop of `vnic_poll` goes on as long as one of its two calls reports an event, and a
request for a retry is an event.  With nobody else taking a step, a retry that is due once is
due for ever: nothing in the loop makes room in the router or offers receive chains.  Apart
from that every event is progress.  A round that transmits takes chains off the transmit
queue, and may put packets into the egress queue of the device itself; a round that does not
transmit takes packets out of it.

A poll alone meets a router whose decisions are open: `Round` says where the frames of a round
end up.

## Main results

* `Rounded.lowers` — a round that is not stuck and not the last one lowers the pair of the two
  backlogs.
* `Rounded.stuck` — a round that is stuck asks for a retry and leaves the loop stuck.
* `poll_returns_iff_never_stuck` — the loop is left exactly when it never gets stuck.
-/

namespace TrustedGateway

open WhileLoop

variable {M : Type}

/-! ## The loop -/

/-- The device, and how many packets the router's queue still takes. -/
structure Polling (M : Type) where
  vnic : Vnic M
  room : Word

/-- What a round meets: the answers to its calls, and what the router makes of the frames it
is handed.  `back` are those routed back to the device, `room` is what the others leave of the
router's queue; the router may rewrite and free what it gets. -/
structure Round where
  env : Env
  back : List BufId
  room : Word
  pool : EthPool → EthPool
  sec : SecMem → SecMem

namespace Polling

/-- The environment of the calls. -/
def callEnv (p : Polling M) (e : Round) : Env := { e.env with refBurst := p.room }

/-- The router deals with the frames of a round. -/
def routed (v : Vnic M) (e : Round) : Polling M where
  vnic := pktqDoMenqueue { v with net := { v.net with
    pool := e.pool v.net.pool, sec := e.sec v.net.sec } } true e.back
  room := e.room

/-- The worker is in front of another round. -/
def inLoop (p : Polling M) : Bool :=
  match p.vnic.worker with
  | .flushTx _ => true
  | _ => false

/-- The packets counted so far. -/
def pkts (p : Polling M) : ℤ :=
  match p.vnic.worker with
  | .flushTx pkts => pkts
  | _ => 0

/-- The packets counted after the first call of a round returned `r`. -/
def counted (p : Polling M) (r : ℤ) : ℤ := if 0 < r then p.pkts + r else p.pkts

/-- The chains that wait for transmission. -/
def toSend (p : Polling M) : ℕ := (p.vnic.net.dev.vdev.vq 1).waiting

end Polling

/-- One round of the loop of `vnic_poll`. -/
def pollRound (e : Round) (p : Polling M) : Except Abort (Polling M) :=
  match vnicPollStep (p.callEnv e) p.vnic with
  | .error a => .error a
  | .ok v =>
    let p : Polling M :=
      if p.vnic.net.handed.length < v.net.handed.length then .routed v e else ⟨v, p.room⟩
    match vnicPollStep (p.callEnv e) p.vnic with
    | .error a => .error a
    | .ok v => .ok ⟨v, p.room⟩

/-- Packets wait for receive chains, and there are some, but too few for a burst. -/
@[mk_iff]
structure RxStuck (v : Vnic M) : Prop where
  packets : v.egress.count ≠ 0
  ring : (v.net.dev.vdev.vq 1).vringAddr ≠ 0
  retries : RxRetries v.net.dev

instance (v : Vnic M) : Decidable (RxStuck v) :=
  decidable_of_iff _ (rxStuck_iff v).symm

/-- One of the two calls of a round asks for a retry. -/
def Stuck (p : Polling M) : Prop := TxRetries p.room p.vnic.net.dev ∨ RxStuck p.vnic

instance (p : Polling M) : Decidable (Stuck p) := inferInstanceAs (Decidable (_ ∨ _))

/-! ## The second half of a round -/

/-- What `router_pktq_tx` does to the backlogs when it returns `r`. -/
structure Drained (v : Vnic M) (r : ℤ) (w' : Net M) (pq' : PktQueue) : Prop where
  rest : LeavesRest 0 v.net.dev w'.dev
  le : pq'.count ≤ v.egress.count
  progress : 0 < r → pq'.count < v.egress.count
  retry : r = virtioNapiRetry → RxStuck v

variable {es : ℕ → Round} {n : ℕ} {p p' : Polling M} {v : Vnic M}

theorem routerPktqTx_drained {env : Env} {r : ℤ} {w' : Net M} {pq' : PktQueue}
    (h : routerPktqTx env v.net v.egress = .ok (r, w', pq')) : Drained v r w' pq' := by
  simp only [routerPktqTx] at h
  split at h
  · cases h
    exact ⟨.refl 0 _, le_rfl, fun h => absurd h (lt_irrefl _), fun h => absurd h (by decide)⟩
  rename_i hne
  have hcount : v.egress.count ≠ 0 := fun h0 =>
    hne ((PktQueue.contigBufs_eq_zero_iff _).mpr h0)
  split at h
  · cases h
  rename_i sent w hx
  simp only [Except.ok.injEq, Prod.mk.injEq] at h
  obtain ⟨rfl, rfl, rfl⟩ := h
  have hdrop : (if sent ≤ 0 then v.egress else v.egress.dropBufs sent.toNat).count ≤
      v.egress.count ∧ (0 < sent →
        (if sent ≤ 0 then v.egress else v.egress.dropBufs sent.toNat).count < v.egress.count) := by
    split
    · exact ⟨le_rfl, fun h => by omega⟩
    · simp only [PktQueue.dropBufs]
      exact ⟨by omega, fun _ => by omega⟩
  rw [vnicXmitHandler] at hx
  split at hx
  · cases hx
    exact ⟨.refl 0 _, hdrop.1, hdrop.2, fun h => absurd h (by decide)⟩
  rename_i hring
  have hr := virtioNetReceive_received hx
  exact ⟨hr.rest, hdrop.1, hdrop.2, fun h => ⟨hcount, hring, hr.retry h⟩⟩

theorem RxStuck.pktqTx (h : RxStuck v) (env : Env) :
    routerPktqTx env v.net v.egress = .ok (virtioNapiRetry, v.net, v.egress) := by
  have hne : ¬ v.egress.contigBufs = 0 := fun h0 =>
    h.packets ((PktQueue.contigBufs_eq_zero_iff _).mp h0)
  simp only [routerPktqTx, if_neg hne, vnicXmitHandler, if_neg h.ring, h.retries.receive]
  rfl

/-- Only the egress queue, the receive queue, the status and the address of the transmit queue
matter. -/
theorem RxStuck.congr {v' : Vnic M} (h : RxStuck v) (hpq : v.egress.count ≤ v'.egress.count)
    (hd : LeavesRest 1 v.net.dev v'.net.dev) : RxStuck v' := by
  obtain ⟨hc, ha, hr⟩ := h
  refine ⟨by omega, ?_, hr.congr (hd.other 0 (by decide)) hd.status⟩
  rw [hd.addr]
  exact ha

theorem RxStuck.congr_rev {v' : Vnic M} (h : RxStuck v') (hpq : v'.egress.count ≤ v.egress.count)
    (hd : LeavesRest 1 v.net.dev v'.net.dev) : RxStuck v := by
  refine h.congr hpq ⟨?_, hd.addr.symm, hd.status.symm⟩
  intro q hq
  exact (hd.other q hq).symm

/-! ## One round -/

/-- **What a round does**: it transmits, the router deals with the frames, and packets of the
egress queue are delivered.  `p₁` is the state in between. -/
structure Rounded (e : Round) (p p' p₁ : Polling M) (r₁ r₂ : ℤ) : Prop where
  start : p.vnic.worker = .flushTx p.pkts
  flushed : Flushed (p.callEnv e) p.vnic.net r₁ p₁.vnic.net
  egress : p.vnic.egress.count ≤ p₁.vnic.egress.count
  quiet : p₁.toSend = p.toSend → p₁.vnic.egress.count = p.vnic.egress.count ∧ p₁.room = p.room
  drained : Drained p₁.vnic r₂ p'.vnic.net p'.vnic.egress
  txRetries : TxRetries p.room p.vnic.net.dev →
    r₁ = virtioNapiRetry ∧ p₁.vnic.net.dev = p.vnic.net.dev
  rxStuck : RxStuck p₁.vnic →
    r₂ = virtioNapiRetry ∧ p'.vnic.net = p₁.vnic.net ∧ p'.vnic.egress = p₁.vnic.egress
  room : p'.room = p₁.room
  worker : p'.vnic.worker =
    if ¬ (isEvent r₁ || isEvent r₂) then .complete r₂
    else if p.counted r₁ < pollBudget then .flushTx (p.counted r₁)
    else .maskRx

theorem Flushed.congr {env : Env} {w w₁ w₂ : Net M} {r : ℤ} (h : Flushed env w r w₁)
    (hd : w₂.dev = w₁.dev) (hh : w₂.handed = w₁.handed) : Flushed env w r w₂ := by
  obtain ⟨h₁, h₂, h₃, h₄, h₅, h₆⟩ := h
  rw [← hd] at h₁ h₂ h₃ h₄ h₅ h₆
  rw [← hh] at h₅
  exact ⟨h₁, h₂, h₃, h₄, h₅, h₆⟩

/-- Routing touches the egress queue and the buffers only. -/
theorem routed_keeps (v : Vnic M) (e : Round) :
    (Polling.routed v e).vnic.net.dev = v.net.dev ∧
      (Polling.routed v e).vnic.net.handed = v.net.handed ∧
      (Polling.routed v e).vnic.worker = v.worker ∧
      v.egress.count ≤ (Polling.routed v e).vnic.egress.count := by
  simp only [Polling.routed, pktqDoMenqueue, or_true, if_true, PktQueue.bulkAddBuff, true_and]
  exact Nat.le_add_right _ _

theorem pollRound_rounded {e : Round} (hg : p.inLoop) (h : pollRound e p = .ok p') :
    ∃ p₁ r₁ r₂, Rounded e p p' p₁ r₁ r₂ := by
  obtain ⟨pkts, hw⟩ : ∃ pkts, p.vnic.worker = .flushTx pkts := by
    simp only [Polling.inLoop] at hg
    split at hg
    · exact ⟨_, by assumption⟩
    · cases hg
  have hpkts : p.pkts = pkts := by simp only [Polling.pkts, hw]
  simp only [pollRound, vnicPollStep, hw] at h
  split at h
  · cases h
  rename_i v hv
  split at hv
  · cases hv
  rename_i r₁ w hflush
  have hfl := virtioNetFlushTx_flushed hflush
  obtain ⟨p₁, hp₁⟩ : ∃ p₁ : Polling M, (if p.vnic.net.handed.length < v.net.handed.length then
      Polling.routed v e else ⟨v, p.room⟩) = p₁ := ⟨_, rfl⟩
  rw [hp₁] at h
  cases hv
  -- whatever the router does, the device is as the first call left it
  have hkeep : p₁.vnic.net.dev = w.dev ∧ p₁.vnic.net.handed = w.handed ∧
      p₁.vnic.worker = .pktqTx (if 0 < r₁ then pkts + r₁ else pkts) (isEvent r₁) ∧
      p.vnic.egress.count ≤ p₁.vnic.egress.count := by
    by_cases hlt : p.vnic.net.handed.length < w.handed.length
    · rw [if_pos hlt] at hp₁
      subst hp₁
      exact routed_keeps _ e
    · rw [if_neg hlt] at hp₁
      subst hp₁
      exact ⟨rfl, rfl, rfl, le_rfl⟩
  obtain ⟨hdev, hhanded, hworker, hegress⟩ := hkeep
  rw [hworker] at h
  split at h
  · cases h
  rename_i v₂ hv₂
  cases h
  dsimp only at hv₂
  split at hv₂
  · cases hv₂
  rename_i r₂ w₂ pq hdrain
  cases hv₂
  refine ⟨p₁, r₁, r₂, hw.trans (by rw [hpkts]), hfl.congr hdev hhanded, hegress, ?_,
    routerPktqTx_drained hdrain, ?_, ?_, rfl, by rw [Polling.counted, hpkts]⟩
  · intro hsame
    rw [if_neg] at hp₁
    · subst hp₁
      exact ⟨rfl, rfl⟩
    · intro hlt
      have hless := hfl.handed hlt
      simp only [Polling.toSend, hdev] at hsame
      omega
  · intro hretries
    have hcall : virtioNetFlushTx (p.callEnv e) p.vnic.net = .ok (virtioNapiRetry, p.vnic.net) :=
      TxRetries.flushTx hretries
    rw [hflush] at hcall
    cases hcall
    exact ⟨rfl, hdev⟩
  · intro hstuck
    rw [hstuck.pktqTx] at hdrain
    cases hdrain
    exact ⟨rfl, rfl, rfl⟩

/-! ## Rounds that go on -/

section

variable {e : Round} {p p' p₁ : Polling M} {r₁ r₂ : ℤ}

section

variable (h : Rounded e p p' p₁ r₁ r₂)
include h

/-- A round that is not the last one has had an event. -/
theorem Rounded.event (hg : p'.inLoop) : isEvent r₁ ∨ isEvent r₂ := by
  by_contra hno
  have hw := h.worker
  rw [if_pos (by simpa using hno)] at hw
  rw [Polling.inLoop, hw] at hg
  cases hg

/-- A round with an event is not the last one before the budget is used up. -/
theorem Rounded.goes_on (he : isEvent r₁ ∨ isEvent r₂) (hb : p.counted r₁ < pollBudget) :
    p'.inLoop := by
  have hw := h.worker
  rw [if_neg (by simpa [or_iff_not_imp_left] using he), if_pos hb] at hw
  rw [Polling.inLoop, hw]

theorem Rounded.pkts_eq (hg : p'.inLoop) : p'.pkts = p.counted r₁ := by
  have hw := h.worker
  rw [if_neg (by simpa [or_iff_not_imp_left] using h.event hg)] at hw
  split at hw
  · simp only [Polling.pkts, hw]
  · rw [Polling.inLoop, hw] at hg
    cases hg

/-- **Progress.**  A round that is not stuck and not the last one takes chains off the transmit
queue, or leaves them and takes packets out of the egress queue. -/
theorem Rounded.lowers (hs : ¬ Stuck p) (hg : p'.inLoop) :
    Prod.Lex (· < ·) (· < ·) (p'.toSend, p'.vnic.egress.count)
      (p.toSend, p.vnic.egress.count) := by
  have hsend : p'.toSend = p₁.toSend := by
    simp only [Polling.toSend, h.drained.rest.other 1 (by decide)]
  have hle : p₁.toSend ≤ p.toSend := h.flushed.le
  rcases Nat.lt_or_eq_of_le hle with hlt | heq
  · exact .left _ _ (by omega)
  rw [hsend, heq]
  apply Prod.Lex.right
  obtain ⟨hcount, -⟩ := h.quiet heq
  rw [← hcount]
  -- nothing was transmitted, so the event was one of the second call
  have hno : ¬ isEvent r₁ := by
    rw [isEvent_iff]
    rintro (hpos | hretry)
    · exact absurd (h.flushed.progress hpos) (by simp only [Polling.toSend] at heq; omega)
    · rcases h.flushed.retry hretry with hlt | hr
      · simp only [Polling.toSend] at heq
        omega
      · exact hs (.inl hr)
  rcases isEvent_iff.mp ((h.event hg).resolve_left hno) with hpos | hretry
  · exact h.drained.progress hpos
  · have hstuck := h.drained.retry hretry
    exact absurd (.inr (hstuck.congr_rev hcount.le h.flushed.rest)) hs

/-- **No way out.**  A round that is stuck asks for a retry, and the next one is stuck. -/
theorem Rounded.stuck (hs : Stuck p) : (isEvent r₁ ∨ isEvent r₂) ∧ Stuck p' := by
  rcases hs with htx | hrx
  · obtain ⟨rfl, hdev⟩ := h.txRetries htx
    refine ⟨.inl (by decide), .inl ?_⟩
    have hroom : p'.room = p.room := by
      rw [h.room, (h.quiet (by simp only [Polling.toSend, hdev])).2]
    have hvq : p'.vnic.net.dev.vdev.vq 1 = p.vnic.net.dev.vdev.vq 1 := by
      rw [h.drained.rest.other 1 (by decide), hdev]
    obtain ⟨h₁, h₂, h₃, h₄⟩ := htx
    refine ⟨?_, by rwa [hvq], by rwa [hvq], by rwa [hroom]⟩
    rwa [h.drained.rest.status, hdev]
  · have hrx₁ : RxStuck p₁.vnic := hrx.congr h.egress h.flushed.rest
    obtain ⟨rfl, hnet, hpq⟩ := h.rxStuck hrx₁
    refine ⟨.inr (by decide), .inr ⟨?_, ?_, ?_⟩⟩
    · rw [hpq]
      exact hrx₁.packets
    · rw [hnet]
      exact hrx₁.ring
    · rw [hnet]
      exact hrx₁.retries

/-- The budget is never used up: what is counted has been taken off the transmit queue. -/
theorem Rounded.pkts_le (hu : ∀ idx, e.env.uninit idx ≤ 0) :
    p.counted r₁ + p'.toSend ≤ p.pkts + p.toSend := by
  have hsend : p'.toSend = p₁.toSend := by
    simp only [Polling.toSend, h.drained.rest.other 1 (by decide)]
  have hle : p₁.toSend ≤ p.toSend := h.flushed.le
  rw [hsend, Polling.counted]
  split
  · rename_i hpos
    have hpaid : r₁ + (p₁.toSend : ℤ) ≤ p.toSend := h.flushed.packets hu hpos
    omega
  · omega

end

end

/-! ## The poll -/

/-- The packets counted and the chains that wait are as many as a queue can announce, at
most. -/
def Polling.Bounded (p : Polling M) : Prop := p.pkts + p.toSend < 2 ^ 16

/-- The loop of `vnic_poll`. -/
abbrev PollReturns (es : ℕ → Round) (p : Polling M) : Prop :=
  Returns (fun n => pollRound (es n)) Polling.inLoop p

abbrev PollStarts (es : ℕ → Round) (p : Polling M) (n : ℕ) (p' : Polling M) : Prop :=
  Starts (fun n => pollRound (es n)) Polling.inLoop p n p'

theorem pollReturns_of_never_stuck
    (h : ∀ n p', PollStarts es p n p' → ¬ Stuck p' ∧ ∀ a, pollRound (es n) p' ≠ .error a) :
    PollReturns es p := by
  refine returns_of_measure (WellFounded.prod_lex Nat.lt_wfRel.wf Nat.lt_wfRel.wf)
    (fun q => (q.toSend, q.vnic.egress.count)) ?_
  intro n t ht
  obtain ⟨hs, hok⟩ := h n t ht
  cases hround : pollRound (es n) t with
  | error a => exact absurd hround (hok a)
  | ok t' =>
    obtain ⟨p₁, r₁, r₂, hr⟩ := pollRound_rounded ht.2 hround
    exact ⟨t', rfl, hr.lowers hs⟩

theorem bounded_of_starts (hu : ∀ n idx, (es n).env.uninit idx ≤ 0) (h0 : p.Bounded)
    (h : PollStarts es p n p') : p'.Bounded := by
  refine h.inv h0 ?_
  intro m u u' hg hb hround hg'
  obtain ⟨p₁, r₁, r₂, hr⟩ := pollRound_rounded hg hround
  have hle := hr.pkts_le (hu m)
  rw [Polling.Bounded, hr.pkts_eq hg']
  rw [Polling.Bounded] at hb
  omega

theorem never_stuck_of_pollReturns (hu : ∀ n idx, (es n).env.uninit idx ≤ 0) (h0 : p.Bounded)
    (h : PollReturns es p) (hp : PollStarts es p n p') : ¬ Stuck p' := by
  intro hs
  refine not_returns_of_stays (I := fun u => Stuck u ∧ u.Bounded) hp
    ⟨hs, bounded_of_starts hu h0 hp⟩ ?_ h
  rintro m u u' hg ⟨hsu, hbu⟩ hround
  obtain ⟨p₁, r₁, r₂, hr⟩ := pollRound_rounded hg hround
  obtain ⟨hevent, hs'⟩ := hr.stuck hsu
  have hle := hr.pkts_le (hu m)
  simp only [Polling.Bounded] at hbu
  have hg' : u'.inLoop := by
    apply hr.goes_on hevent
    simp only [pollBudget]
    omega
  refine ⟨hg', hs', ?_⟩
  rw [Polling.Bounded, hr.pkts_eq hg']
  omega

/-- **When a poll ends.**  A poll that nobody disturbs, started on any rings and any egress
queue, leaves its loop if no round is started stuck and none aborts.  Conversely, if the poll
leaves its loop, no round was started stuck and none aborted; here the local that
`vqueue_map_iovs` may return uninitialised must not pass for a number of packets. -/
theorem poll_returns_iff_never_stuck (es : ℕ → Round) (v : Vnic M) (room : Word)
    (hstart : v.worker = .flushTx 0) :
    ((∀ n p, PollStarts es ⟨v, room⟩ n p → ¬ Stuck p ∧ ∀ a, pollRound (es n) p ≠ .error a) →
      PollReturns es ⟨v, room⟩) ∧
    ((∀ n idx, (es n).env.uninit idx ≤ 0) → PollReturns es ⟨v, room⟩ →
      ∀ n p, PollStarts es ⟨v, room⟩ n p → ¬ Stuck p ∧ ∀ a, pollRound (es n) p ≠ .error a) := by
  refine ⟨pollReturns_of_never_stuck, ?_⟩
  intro hu hret n p hp
  have h0 : Polling.Bounded ⟨v, room⟩ := by
    simp only [Polling.Bounded, Polling.pkts, hstart, Polling.toSend, Vqueue.waiting]
    omega
  refine ⟨never_stuck_of_pollReturns hu h0 hret hp, ?_⟩
  intro a ha
  obtain ⟨t, ht⟩ := hret.body_ok hp
  rw [ha] at ht
  cases ht

/-! ### Polls of a running device -/

/-- Round after round, the router sends nothing back and has as much room as before. -/
def Round.plain : Round := ⟨.board, [], 256, id, id⟩

/-- A device in front of its first round, with `count` packets for the normal world. -/
def Polling.sample (rx tx : Vqueue) (count : ℕ) (room : Word) : Polling Unit where
  vnic := {
    net := { Net.running .zero .zero with
      dev := ((Net.running .zero .zero).dev.setVq 0 rx).setVq 1 tx }
    egress := ⟨0, count, count, 256, fun _ => some 0⟩
    worker := .flushTx 0 }
  room := room

/-- The poll leaves its loop within `n` rounds, none of which is started stuck. -/
def Polling.endsWithin (e : Round) : ℕ → Polling M → Bool
  | 0, p => !p.inLoop
  | n + 1, p =>
    !p.inLoop || !decide (Stuck p) && (pollRound e p).toOption.any (endsWithin e n)

theorem fine_of_endsWithin {e : Round} (h : p.endsWithin e n) {k : ℕ}
    (hp : PollStarts (fun _ => e) p k p') : ¬ Stuck p' ∧ ∀ a, pollRound e p' ≠ .error a := by
  have hends : ∃ m, p'.endsWithin e m := by
    refine hp.inv (I := fun u => ∃ m, u.endsWithin e m) ⟨n, h⟩ ?_
    rintro m u u' hg ⟨k, hk⟩ hround -
    cases k with
    | zero => simp [Polling.endsWithin, hg] at hk
    | succ k =>
      simp only [Polling.endsWithin, hg, hround, Bool.not_true, Bool.false_or,
        Bool.and_eq_true] at hk
      exact ⟨k, by simpa [Except.toOption] using hk.2⟩
  obtain ⟨m, hm⟩ := hends
  cases m with
  | zero => simp [Polling.endsWithin, hp.2] at hm
  | succ m =>
    simp only [Polling.endsWithin, hp.2, Bool.not_true, Bool.false_or, Bool.and_eq_true,
      Bool.not_eq_true', decide_eq_false_iff_not] at hm
    refine ⟨hm.1, fun a ha => ?_⟩
    rw [ha] at hm
    exact absurd hm.2 (by simp [Except.toOption])

/-- One chain is transmitted in the first round, and a packet finds no receive chain in the
second. -/
theorem poll_returns_after_two_rounds :
    PollReturns (fun _ => .plain) (.sample (.running 0x10000000 .zero)
      (.running 0x10010000 (.offer [⟨0x20000000, 72, 0, 0⟩] 1)) 1 256) := by
  refine (poll_returns_iff_never_stuck (fun _ => .plain) _ _ rfl).1 ?_
  intro n p hp
  exact fine_of_endsWithin (n := 2) (by decide +kernel) hp

/-- All `64` entries of a queue that was set up with `256` and then shrunk are offered. -/
def Vqueue.short : Vqueue := virtioQueueSetNumVq (.running 0x10000000 (.offer [] 64)) 64

/-- A receive queue of `64` entries is accepted, and a poll that finds all of them offered and
a packet to deliver never ends; nor does one that finds a chain to transmit and little room in
the router. -/
theorem poll_never_returns :
    Vqueue.short.vring.num = 64 ∧
      (∀ n, ∃ p, PollStarts (fun _ => .plain)
        (.sample .short (.running 0x10010000 .zero) 1 256) n p) ∧
      ∀ n, ∃ p, PollStarts (fun _ => .plain)
        (.sample (.running 0x10000000 .zero)
          (.running 0x10010000 (.offer [⟨0x20000000, 72, 0, 0⟩] 1)) 0 127) n p := by
  have hstay : ∀ p : Polling Unit, p.inLoop → pollRound .plain p = .ok p →
      ∀ n, ∃ p', PollStarts (fun _ => .plain) p n p' := by
    intro p hg hsame n
    refine ⟨p, ?_, hg⟩
    induction n with
    | zero => rfl
    | succ n ih => rw [rounds_succ_of_go ih hg, hsame]
  exact ⟨rfl, hstay _ rfl rfl, hstay _ rfl rfl⟩

end TrustedGateway
