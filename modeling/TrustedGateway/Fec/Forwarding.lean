import TrustedGateway.Napi.Wakeup

/-!
# The forwarding worker of the FEC

The context `route_tx_napi` moves received packets to the router and routed packets to the wire.
Those who bring packets schedule it, unless the flag `no_kick` says that somebody has done so
already; the poll clears the flag once it has completed and then looks at both queues again.

Here the context meets all who use it: bursts of `fec_rxq`, packets and notifications from other
workers, the wake-ups of the egress queue, and the calls of `fec_enet_open_sw` and of the link
adjustments.  Who has put packets into a queue is then before its test of the queue's stop flag,
before its test of `no_kick`, or before its call of `napi_schedule`; how many are where is all that
matters.

A request that is dropped while `no_kick` stays set is never repeated.  That happens on a link
restart under traffic, and in four more ways that `Careful` excludes.
-/

namespace TrustedGateway

open StepSystem

/-! ## The system -/

/-- What the link functions do to the context and to the egress queue, one access at a time.
`disableTry` is a call of `napi_disable` that waits. -/
inductive LinkOp
  | stop
  | start
  | wake
  | enable
  | disable
  | disableTry
  deriving DecidableEq, Repr

/-- The link functions: `fec_enet_open_sw`, and those around a restart and a stop of the device
(`fec_enet_adjust_link_sw_restart_pre` and so on). -/
inductive LinkCall
  | openSw
  | restartPre
  | restartPost
  | stopPre
  | stopPost (shuttingDown : Bool)
  deriving DecidableEq, Repr

/-- What a link function does, apart from what it does to `rx_napi`.  `netif_tx_disable` stops the
queue as `netif_tx_stop_queue` does. -/
def LinkCall.ops : LinkCall → List LinkOp
  | openSw => [.enable, .start]
  | restartPre | stopPre => [.stop, .disable]
  | restartPost => [.enable, .wake]
  | stopPost shuttingDown => if shuttingDown then [] else [.enable]

/-- The context with its worker and its device.  `nEgr`, `nTas` and `nSched` count the parties in
front of the test of `stopped`, in front of the test of `no_kick`, and in front of
`napi_schedule`.  `link` is the rest of the link function that runs. -/
structure FwdSys where
  sys : WSys RouteSt FecRoute
  nEgr : ℕ
  nTas : ℕ
  nSched : ℕ
  link : List LinkOp

inductive FwdAction
  | run
  | step (t : RouteRound)
  | notify
  | rxq (pkts : List BufId)
  | enqueue (pkts : List BufId)
  | egrNtfy
  | testAndSet
  | schedule
  | wake
  | call (c : LinkCall)
  | link

namespace FwdSys

def setRoute (s : FwdSys) (r : FecRoute) : FwdSys := { s with sys := { s.sys with dev := r } }

def setStopped (s : FwdSys) (b : Bool) : FwdSys := s.setRoute { s.sys.dev with stopped := b }

/-- A step of the context's own parties. -/
def sysStep (s : FwdSys) (a : WAction FecRoute RouteRound) : Except Abort FwdSys :=
  (wStep fecRouteXmitNapi s.sys a).map fun sys => { s with sys := sys }

/-- The end of a burst in `fec_rxq`: what does not fit into the queue is freed. -/
def fecRxq (s : FwdSys) (pkts : List BufId) : FwdSys :=
  { s.setRoute { s.sys.dev with inQueue := (s.sys.dev.inQueue.bulkAddBuff pkts).2 } with
    nTas := s.nTas + 1 }

/-- `pktq_do_menqueue` of another worker: there is nothing to notify if no packet fits. -/
def enqueue (s : FwdSys) (pkts : List BufId) : FwdSys :=
  let r := s.sys.dev.egress.bulkAddBuff pkts
  { s.setRoute { s.sys.dev with egress := r.2 } with
    nEgr := if r.1 = 0 then s.nEgr else s.nEgr + 1 }

/-- `fec_egr_ntfy_handler` up to `bstgw_fec_schedule_xmit`. -/
def egrNtfy (s : FwdSys) : FwdSys :=
  { s with
    nEgr := s.nEgr - 1
    nTas := if s.sys.dev.stopped then s.nTas else s.nTas + 1 }

/-- The test of `no_kick`. -/
def testAndSet (s : FwdSys) : FwdSys :=
  { s.setRoute { s.sys.dev with noKick := true } with
    nTas := s.nTas - 1
    nSched := if s.sys.dev.noKick then s.nSched else s.nSched + 1 }

/-- `netif_tx_wake_queue` up to the notification. -/
def netifTxWakeQueue (s : FwdSys) : FwdSys :=
  { s.setStopped false with nEgr := if s.sys.dev.stopped then s.nEgr + 1 else s.nEgr }

/-- A section of `napi_disable`, which is repeated until it returns. -/
def disabling (s : FwdSys) (a : WAction FecRoute RouteRound) (ops : List LinkOp) :
    Except Abort FwdSys :=
  (s.sysStep a).map fun s => { s with link := if s.sys.quiet then ops else .disableTry :: ops }

end FwdSys

/-- A step of the link function that runs. -/
def linkOpStep (s : FwdSys) (ops : List LinkOp) : LinkOp → Except Abort FwdSys
  | .stop => .ok { s.setStopped true with link := ops }
  | .start => .ok { s.setStopped false with link := ops }
  | .wake => .ok { s.netifTxWakeQueue with link := ops }
  | .enable => (s.sysStep .enable).map fun s => { s with link := ops }
  | .disable => s.disabling .disable ops
  | .disableTry => s.disabling .disableTry ops

/-- A step of the system. -/
def fwdStep (s : FwdSys) : FwdAction → Except Abort FwdSys
  | .run => s.sysStep .run
  | .step t => s.sysStep (.step t)
  | .notify => s.sysStep .notify
  | .rxq pkts => .ok (s.fecRxq pkts)
  | .enqueue pkts => .ok (s.enqueue pkts)
  | .egrNtfy => .ok s.egrNtfy
  | .testAndSet => .ok s.testAndSet
  | .schedule => (s.sysStep .schedule).map fun s => { s with nSched := s.nSched - 1 }
  | .wake => .ok s.netifTxWakeQueue
  | .call c => .ok { s with link := c.ops }
  | .link =>
    match s.link with
    | [] => .ok s
    | op :: ops => linkOpStep s ops op

/-- Which steps are possible.  One link function runs at a time. -/
def FwdAllows (s : FwdSys) : FwdAction → Prop
  | .run => WAllows s.sys (.run : WAction FecRoute RouteRound)
  | .step t => WAllows s.sys (.step t)
  | .egrNtfy => 0 < s.nEgr
  | .testAndSet => 0 < s.nTas
  | .schedule => 0 < s.nSched
  | .call _ => s.link = []
  | _ => True

instance (s : FwdSys) (a : FwdAction) : Decidable (FwdAllows s a) := by
  cases a <;> dsimp only [FwdAllows] <;> infer_instance

/-- The device after `fec_probe`: both queues are empty, and the egress queue is stopped. -/
def FecRoute.init (capacity : ℕ) (inPkt egrPkt : ℕ → Option BufId) : FecRoute where
  inQueue := ⟨0, 0, 0, 224, inPkt⟩
  egress := ⟨0, 0, 0, capacity, egrPkt⟩
  stopped := true
  noKick := false

def fwdInit (r : FecRoute) : FwdSys := ⟨wInit r, 0, 0, 0, []⟩

/-! ## What is asked for -/

namespace FwdSys

/-- Nobody is between a queue and the call of `napi_schedule`, and no poll executes. -/
def Settled (s : FwdSys) : Prop :=
  s.nEgr = 0 ∧ s.nTas = 0 ∧ s.nSched = 0 ∧ s.sys.worker.poll? = none

/-- There are packets that the context has to forward. -/
def HasWork (s : FwdSys) : Prop :=
  s.sys.dev.inQueue.count ≠ 0 ∨ (s.sys.dev.egress.count ≠ 0 ∧ s.sys.dev.stopped = false)

/-- Where nobody is on the way and the context is enabled, it is scheduled if it has work. -/
def NotForgotten (s : FwdSys) : Prop :=
  s.Settled → s.sys.napi.disable = false → s.HasWork → s.sys.napi.sched = true

instance (s : FwdSys) : Decidable s.Settled :=
  inferInstanceAs (Decidable (s.nEgr = 0 ∧ s.nTas = 0 ∧ s.nSched = 0 ∧ s.sys.worker.poll? = none))

instance (s : FwdSys) : Decidable s.HasWork :=
  inferInstanceAs (Decidable
    (s.sys.dev.inQueue.count ≠ 0 ∨ (s.sys.dev.egress.count ≠ 0 ∧ s.sys.dev.stopped = false)))

instance (s : FwdSys) : Decidable s.NotForgotten :=
  inferInstanceAs (Decidable
    (s.Settled → s.sys.napi.disable = false → s.HasWork → s.sys.napi.sched = true))

end FwdSys

/-- The poll drops no request: `is_empty` holds no garbage when the egress queue is looked at, and
a disabled context is not scheduled. -/
def carefulTest (n : Napi) (t : RouteRound) : RouteSt → Bool
  | .testEgress _ => !t.garbage
  | .reschedule _ => !n.disable
  | _ => true

/-- A careful step of the poll, which does not reach the budget either. -/
def CarefulPoll (n : Napi) (st : RouteSt) (t : RouteRound) (r : FecRoute) : Prop :=
  BelowBudget st t r ∧ carefulTest n t st = true

/-- The same for the link functions: the egress queue is started while it is empty, and
`napi_disable` does not find the context scheduled without a worker. -/
def CarefulLink (s : FwdSys) : LinkOp → Prop
  | .start => s.sys.dev.egress.count = 0
  | .disable | .disableTry => s.sys.napi.sched = true → s.sys.napi.wActive = true
  | _ => True

/-- The steps that drop no request. -/
def Careful (s : FwdSys) : FwdAction → Prop
  | .step t => ∀ st ∈ s.sys.worker.poll?, CarefulPoll s.sys.napi st t s.sys.dev
  | .schedule => s.sys.napi.disable = false
  | .link => ∀ op ∈ s.link.head?, CarefulLink s op
  | _ => True

instance (n : Napi) (st : RouteSt) (t : RouteRound) (r : FecRoute) :
    Decidable (CarefulPoll n st t r) :=
  inferInstanceAs (Decidable (BelowBudget st t r ∧ carefulTest n t st = true))

instance (s : FwdSys) (op : LinkOp) : Decidable (CarefulLink s op) := by
  cases op <;> dsimp only [CarefulLink] <;> infer_instance

instance (s : FwdSys) (a : FwdAction) : Decidable (Careful s a) := by
  cases a <;> dsimp only [Careful] <;> infer_instance

/-! ## The invariant -/

namespace RouteSt

/-- The poll is about to clear `no_kick` or has set it and is about to schedule. -/
def kicks : RouteSt → Bool
  | clearKick _ | reschedule _ => true
  | _ => false

/-- The poll has completed and will still see what is in the egress queue. -/
def checksEgress : RouteSt → Bool
  | clearKick _ | testStopped _ | testEgress _ | rerun _ | reschedule _ => true
  | _ => false

/-- The same for the input queue. -/
def checksInput : RouteSt → Bool
  | testInput _ => true
  | st => st.checksEgress

def setsKick : RouteSt → Bool
  | setKick _ => true
  | _ => false

theorem checksInput_of_checksEgress {st : RouteSt} (h : st.checksEgress = true) :
    st.checksInput = true := by
  cases st with
  | testInput => rfl
  | _ => exact h

theorem checksEgress_of_kicks {st : RouteSt} (h : st.kicks = true) : st.checksEgress = true := by
  cases st with
  | clearKick | reschedule => rfl
  | _ => cases h

theorem checksInput_of_kicks {st : RouteSt} (h : st.kicks = true) : st.checksInput = true :=
  checksInput_of_checksEgress (checksEgress_of_kicks h)

end RouteSt

namespace FwdSys

/-- The context is scheduled, or somebody is about to schedule it. -/
def Pending (s : FwdSys) : Prop := s.sys.napi.sched = true ∨ 0 < s.nSched

/-- The poll that runs is at a place in `p`. -/
def At (s : FwdSys) (p : RouteSt → Bool) : Prop := ∃ st ∈ s.sys.worker.poll?, p st = true

theorem At.mono {s : FwdSys} {p q : RouteSt → Bool} (h : s.At p)
    (hpq : ∀ {st}, p st = true → q st = true) : s.At q := by
  obtain ⟨st, hst, hp⟩ := h
  exact ⟨st, hst, hpq hp⟩

end FwdSys

/-- Packets that can be forwarded are noticed. -/
structure Kept (s : FwdSys) : Prop where
  worker : WorkerInv (P := fecRouteXmitNapi) BelowBudget s.sys
  setKick : s.At RouteSt.setsKick → s.sys.napi.sched = true
  kick : s.sys.dev.noKick = true → s.Pending ∨ s.At RouteSt.kicks
  input : s.sys.dev.inQueue.count ≠ 0 → 0 < s.nTas ∨ s.Pending ∨ s.At RouteSt.checksInput
  egress : s.sys.dev.egress.count ≠ 0 → s.sys.dev.stopped = false →
    0 < s.nEgr ∨ 0 < s.nTas ∨ s.Pending ∨ s.At RouteSt.checksEgress

namespace Kept

variable {s s' : FwdSys}

theorem init (capacity : ℕ) (inPkt egrPkt : ℕ → Option BufId) :
    Kept (fwdInit (.init capacity inPkt egrPkt)) where
  worker := WorkerInv.init (P := fecRouteXmitNapi) _
  setKick h := by
    obtain ⟨st, hst, -⟩ := h
    cases hst
  kick h := by cases h
  input h := absurd rfl h
  egress h := absurd rfl h

/-- While the context is scheduled there is nothing more to it. -/
theorem of_sched (hinv : WorkerInv (P := fecRouteXmitNapi) BelowBudget s.sys)
    (hsched : s.sys.napi.sched = true) : Kept s :=
  ⟨hinv, fun _ => hsched, fun _ => .inl (.inl hsched), fun _ => .inr (.inl (.inl hsched)),
    fun _ _ => .inr (.inr (.inl (.inl hsched)))⟩

variable {st : RouteSt} {sys' : WSys RouteSt FecRoute}

/-- A poll that has not completed runs while the context is scheduled. -/
theorem sched_of_polling (h : Kept s) (hw : s.sys.worker = .polling st)
    (hc : st.completed = false) : s.sys.napi.sched = true := by
  obtain ⟨b, hst, hb⟩ := h.worker.polling st hw
  exact hb ((fecRouteXmitNapi_reaches hst).1.trans hc)

theorem at_iff (hw : s.sys.worker = .polling st) {p : RouteSt → Bool} : s.At p ↔ p st = true := by
  constructor
  · rintro ⟨st', hst', hp⟩
    rw [hw] at hst'
    cases hst'
    exact hp
  · intro hp
    exact ⟨st, by rw [hw]; rfl, hp⟩

/-- Where the poll is does not count if it is not in `p`. -/
theorem resolve {p : RouteSt → Bool} (hw : s.sys.worker = .polling st) (hp : p st = false)
    (h : s.Pending ∨ s.At p) : s.Pending :=
  h.resolve_right fun hat => Bool.false_ne_true (hp.symm.trans ((at_iff hw).mp hat))

/-- The poll moves on behind `napi_complete`. -/
theorem goto {r : FecRoute} (hinv : WorkerInv (P := fecRouteXmitNapi) BelowBudget
      { s.sys with dev := r, worker := .polling st }) (hst : st.setsKick = false)
    (hkick : r.noKick = true → s.Pending ∨ st.kicks = true)
    (hinput : r.inQueue.count ≠ 0 → 0 < s.nTas ∨ s.Pending ∨ st.checksInput = true)
    (hegress : r.egress.count ≠ 0 → r.stopped = false →
      0 < s.nEgr ∨ 0 < s.nTas ∨ s.Pending ∨ st.checksEgress = true) :
    Kept { s with sys := { s.sys with dev := r, worker := .polling st } } := by
  refine ⟨hinv, fun hat => ?_, fun hk => ?_, fun hq => ?_, fun hq hstop => ?_⟩
  · exact absurd (hst.symm.trans ((at_iff rfl).mp hat)) Bool.false_ne_true
  · exact (hkick hk).imp id (at_iff rfl).mpr
  · exact (hinput hq).imp id (Or.imp id (at_iff rfl).mpr)
  · exact (hegress hq hstop).imp id (Or.imp id (Or.imp id (at_iff rfl).mpr))

/-- It moves on and has both queues still to look at. -/
theorem goto_before_tests {r : FecRoute} (hinv : WorkerInv (P := fecRouteXmitNapi) BelowBudget
      { s.sys with dev := r, worker := .polling st }) (hst : st.setsKick = false)
    (hkick : r.noKick = true → s.Pending ∨ st.kicks = true) (hinput : st.checksInput = true)
    (hegress : st.checksEgress = true) :
    Kept { s with sys := { s.sys with dev := r, worker := .polling st } } :=
  goto hinv hst hkick (fun _ => .inr (.inr hinput)) fun _ _ => .inr (.inr (.inr hegress))

/-- The worker moves on outside of the poll function, or leaves it. -/
theorem outside (h : Kept s) (hno : ¬ s.At RouteSt.checksInput)
    (hinv : WorkerInv (P := fecRouteXmitNapi) BelowBudget sys') (hdev : sys'.dev = s.sys.dev)
    (hsched : sys'.napi.sched = s.sys.napi.sched) (hpoll : sys'.worker.poll? = none) :
    Kept { s with sys := sys' } := by
  have hpending : s.Pending → FwdSys.Pending { s with sys := sys' } :=
    fun hp => hp.imp hsched.trans id
  refine ⟨hinv, ?_, fun hk => ?_, fun hq => ?_, fun hq hstop => ?_⟩
  · rintro ⟨st, hst, -⟩
    rw [hpoll] at hst
    cases hst
  · rw [hdev] at hk
    exact .inl (hpending ((h.kick hk).resolve_right fun hat =>
      hno (hat.mono RouteSt.checksInput_of_kicks)))
  · rw [hdev] at hq
    exact (h.input hq).imp id fun hp => .inl (hpending (hp.resolve_right hno))
  · rw [hdev] at hq hstop
    exact (h.egress hq hstop).imp id (Or.imp id fun hp =>
      .inl (hpending (hp.resolve_right fun hat =>
        hno (hat.mono RouteSt.checksInput_of_checksEgress))))

/-- `napi_complete`.  Either it is followed by the tests of both queues, or the context stays
scheduled. -/
theorem complete (h : Kept s) {pkts : ℤ} (hw : s.sys.worker = .polling (RouteSt.complete pkts))
    (hst : st = if (napiComplete s.sys.napi).1 then .clearKick pkts else .setKick pkts)
    (hinv : WorkerInv (P := fecRouteXmitNapi) BelowBudget
      { s.sys with napi := (napiComplete s.sys.napi).2, worker := .polling st }) :
    Kept { s with sys :=
      { s.sys with napi := (napiComplete s.sys.napi).2, worker := .polling st } } := by
  have hsched : s.sys.napi.sched = true := h.sched_of_polling hw rfl
  cases hdone : (napiComplete s.sys.napi).1 with
  | true =>
    rw [hdone] at hst
    subst hst
    refine ⟨hinv, fun hat => ?_, fun _ => .inr ((at_iff rfl).mpr rfl),
      fun _ => .inr (.inr ((at_iff rfl).mpr rfl)),
      fun _ _ => .inr (.inr (.inr ((at_iff rfl).mpr rfl)))⟩
    have hset : RouteSt.setsKick (.clearKick pkts) = true := (at_iff rfl).mp hat
    cases hset
  | false => exact of_sched hinv ((sched_napiComplete_of_not_done hdone).trans hsched)

/-- The poll returns. -/
theorem done (h : Kept s) {pkts : ℤ} (hw : s.sys.worker = .polling (RouteSt.done pkts))
    (hinv : WorkerInv (P := fecRouteXmitNapi) BelowBudget sys')
    (hs : (if pollBudget ≤ pkts then .ok { s.sys with worker := .enter }
      else if pkts < 0 then .ok { s.sys with worker := .out }
      else .ok { s.sys with worker := .recycle 4000 } : Except Abort _) = .ok sys') :
    Kept { s with sys := sys' } := by
  have hno : ¬ s.At RouteSt.checksInput := fun hat => by cases (at_iff hw).mp hat
  split at hs
  · cases hs
    exact h.outside hno hinv rfl rfl rfl
  · split at hs
    all_goals
      cases hs
      exact h.outside hno hinv rfl rfl rfl

/-- **A step of the poll.**  Up to `napi_complete` the context is scheduled.  After that each test
either finds nothing or leads to the next one, and the last word is `napi_schedule`. -/
theorem pollStep (h : Kept s) {t : RouteRound} (hw : s.sys.worker = .polling st)
    (hcare : CarefulPoll s.sys.napi st t s.sys.dev)
    (hs : pollStep fecRouteXmitNapi s.sys t st = .ok sys') : Kept { s with sys := sys' } := by
  have hinv : WorkerInv (P := fecRouteXmitNapi) BelowBudget sys' :=
    h.worker.pollStep completesOnce_fecRouteXmitNapi hw hcare.1 hs
  have hkick (hst : st.kicks = false) (hk : s.sys.dev.noKick = true) : s.Pending :=
    resolve hw hst (h.kick hk)
  cases st with
  | input | receive | dropInput | egress | queued | transmit | dropEgress =>
    cases hs
    exact of_sched hinv (h.sched_of_polling hw rfl)
  | complete pkts =>
    cases hs
    exact h.complete hw rfl hinv
  | clearKick pkts =>
    cases hs
    exact goto_before_tests hinv rfl (fun hk => by cases hk) rfl rfl
  | testStopped pkts =>
    cases hs
    dsimp only at hinv ⊢
    split at hinv
    · rename_i hstop
      rw [if_pos hstop]
      refine goto hinv rfl (fun hk => .inl (hkick rfl hk)) (fun _ => .inr (.inr rfl)) ?_
      intro _ hrun
      rw [hstop] at hrun
      cases hrun
    · rename_i hstop
      rw [if_neg hstop]
      exact goto_before_tests hinv rfl (fun hk => .inl (hkick rfl hk)) rfl rfl
  | testEgress pkts =>
    have hgarbage : t.garbage = false := (Bool.not_eq_true' _).mp hcare.2
    cases hs
    dsimp only at hinv ⊢
    rw [hgarbage, Bool.false_or] at hinv ⊢
    split at hinv
    · rename_i hne
      rw [if_pos hne]
      exact goto_before_tests hinv rfl (fun hk => .inl (hkick rfl hk)) rfl rfl
    · rename_i hempty
      rw [if_neg hempty]
      refine goto hinv rfl (fun hk => .inl (hkick rfl hk)) (fun _ => .inr (.inr rfl)) ?_
      intro hne
      exact absurd (by simpa [PktQueue.isEmpty] using hempty) hne
  | testInput pkts =>
    cases hs
    dsimp only at hinv ⊢
    split at hinv
    · rename_i hne
      rw [if_pos hne]
      exact goto_before_tests hinv rfl (fun hk => .inl (hkick rfl hk)) rfl rfl
    · rename_i hempty
      rw [if_neg hempty]
      refine goto hinv rfl (fun hk => .inl (hkick rfl hk)) (fun hne => ?_) (fun hne hstop => ?_)
      · exact absurd (by simpa [PktQueue.isEmpty] using hempty) hne
      · exact (h.egress hne hstop).imp id (Or.imp id fun hp => .inl (resolve hw rfl hp))
  | rerun pkts =>
    cases hs
    dsimp only at hinv ⊢
    split at hinv
    · rename_i hk
      rw [if_pos hk]
      exact goto hinv rfl (fun _ => .inl (hkick rfl hk)) (fun _ => .inr (.inl (hkick rfl hk)))
        (fun _ _ => .inr (.inr (.inl (hkick rfl hk))))
    · rename_i hk
      rw [if_neg hk]
      exact goto_before_tests hinv rfl (fun _ => .inr rfl) rfl rfl
  | reschedule pkts =>
    have henabled : s.sys.napi.disable = false := (Bool.not_eq_true' _).mp hcare.2
    cases hs
    exact of_sched hinv (sched_napiSchedule_of_enabled henabled)
  | setKick pkts =>
    cases hs
    exact of_sched hinv (h.setKick ((at_iff hw).mpr rfl))
  | done pkts => exact h.done hw hinv hs

theorem not_at (hpoll : s.sys.worker.poll? = none) (p : RouteSt → Bool) : ¬ s.At p := by
  rintro ⟨st, hst, -⟩
  rw [hpoll] at hst
  cases hst

section

variable (h : Kept s)
include h

/-- A step of the worker. -/
theorem workerRunStep {t : RouteRound} (hcan : s.sys.worker.canStep (s.sys.waitMtx = none) = true)
    (hcare : ∀ st ∈ s.sys.worker.poll?, CarefulPoll s.sys.napi st t s.sys.dev)
    (hs : workerRunStep fecRouteXmitNapi s.sys t = .ok sys') : Kept { s with sys := sys' } := by
  have hinv : WorkerInv (P := fecRouteXmitNapi) BelowBudget sys' :=
    h.worker.workerRunStep completesOnce_fecRouteXmitNapi hcan (fun st hst => (hcare st hst).1) hs
  cases hw : s.sys.worker with
  | polling st =>
    have hs' : TrustedGateway.pollStep fecRouteXmitNapi s.sys t st = .ok sys' := by
      rw [← hs]
      simp only [TrustedGateway.workerRunStep, hw]
    exact h.pollStep hw (hcare st (by rw [hw]; rfl)) hs'
  | enter =>
    have hsched : s.sys.napi.sched = true := h.worker.willPoll (by rw [hw]; rfl)
    simp only [TrustedGateway.workerRunStep, hw] at hs
    cases hs
    exact of_sched hinv hsched
  | off | activate | tryLock | head | toSleep | asleep | toPoll | recycle | out =>
    have hpoll : s.sys.worker.poll? = none := by
      rw [hw]
      rfl
    obtain ⟨hdev, hsched, hpoll'⟩ := workerRunStep_outside hpoll (by rw [hw]; rfl) hs
    exact h.outside (not_at hpoll _) hinv hdev hsched hpoll'

/-- Steps that leave the device, `SCHED`, the poll and the parties on their way as they are. -/
theorem congr (hinv : WorkerInv (P := fecRouteXmitNapi) BelowBudget s'.sys)
    (hdev : s'.sys.dev = s.sys.dev) (hsched : s'.sys.napi.sched = s.sys.napi.sched)
    (hpoll : s'.sys.worker.poll? = s.sys.worker.poll?)
    (hn : s'.nEgr = s.nEgr ∧ s'.nTas = s.nTas ∧ s'.nSched = s.nSched) : Kept s' := by
  obtain ⟨hEgr, hTas, hSched⟩ := hn
  have hat : ∀ p, s'.At p ↔ s.At p := by
    intro p
    unfold FwdSys.At
    rw [hpoll]
  have hpending : s'.Pending ↔ s.Pending := by
    unfold FwdSys.Pending
    rw [hsched, hSched]
  refine ⟨hinv, ?_, ?_, ?_, ?_⟩
  · rw [hat, hsched]
    exact h.setKick
  · rw [hat, hpending, hdev]
    exact h.kick
  · rw [hat, hpending, hdev, hTas]
    exact h.input
  · rw [hat, hpending, hdev, hEgr, hTas]
    exact h.egress

/-- A burst of received packets. -/
theorem fecRxq (pkts : List BufId) : Kept (s.fecRxq pkts) :=
  ⟨h.worker.env _, h.setKick, h.kick, fun _ => .inl (Nat.succ_pos _),
    fun _ _ => .inr (.inl (Nat.succ_pos _))⟩

/-- Packets from another worker. -/
theorem enqueue (pkts : List BufId) : Kept (s.enqueue pkts) := by
  refine ⟨h.worker.env _, h.setKick, h.kick, h.input, fun hq hstop => ?_⟩
  show 0 < (if (s.sys.dev.egress.bulkAddBuff pkts).1 = 0 then s.nEgr else s.nEgr + 1) ∨ _
  split
  · rename_i hnone
    refine h.egress ?_ hstop
    have hq' : s.sys.dev.egress.count + (s.sys.dev.egress.bulkAddBuff pkts).1 ≠ 0 := hq
    rwa [hnone] at hq'
  · exact .inl (Nat.succ_pos _)

/-- The notification of the egress queue. -/
theorem egrNtfy : Kept s.egrNtfy := by
  have hTas : s.nTas ≤ s.egrNtfy.nTas := by
    show s.nTas ≤ if s.sys.dev.stopped then s.nTas else s.nTas + 1
    split <;> omega
  refine ⟨h.worker, h.setKick, h.kick, fun hq => ?_, fun _ hstop => .inr (.inl ?_)⟩
  · exact (h.input hq).imp (fun hpos => lt_of_lt_of_le hpos hTas) id
  · have hstop' : s.sys.dev.stopped = false := hstop
    show 0 < if s.sys.dev.stopped then s.nTas else s.nTas + 1
    rw [hstop']
    exact Nat.succ_pos _

/-- The test of `no_kick`: who finds it set relies on who has set it. -/
theorem testAndSet : Kept s.testAndSet := by
  have hkick : s.testAndSet.Pending ∨ s.testAndSet.At RouteSt.kicks := by
    show (s.sys.napi.sched = true ∨ 0 < if s.sys.dev.noKick then s.nSched else s.nSched + 1) ∨ _
    split
    · rename_i hk
      exact h.kick hk
    · exact .inl (.inr (Nat.succ_pos _))
  exact ⟨h.worker.env _, h.setKick, fun _ => hkick,
    fun _ => .inr (hkick.imp id fun hat => hat.mono RouteSt.checksInput_of_kicks),
    fun _ _ => .inr (.inr (hkick.imp id fun hat => hat.mono RouteSt.checksEgress_of_kicks))⟩

/-- The egress queue is woken. -/
theorem netifTxWakeQueue : Kept s.netifTxWakeQueue := by
  refine ⟨h.worker.env _, h.setKick, h.kick, h.input, fun hq _ => ?_⟩
  show 0 < (if s.sys.dev.stopped then s.nEgr + 1 else s.nEgr) ∨ _
  split
  · exact .inl (Nat.succ_pos _)
  · rename_i hrun
    exact h.egress hq (Bool.eq_false_of_not_eq_true hrun)

theorem setLink (ops : List LinkOp) : Kept { s with link := ops } :=
  ⟨h.worker, h.setKick, h.kick, h.input, h.egress⟩

/-- A section of `napi_disable`. -/
theorem disabling {a : WAction FecRoute RouteRound} {ops : List LinkOp}
    (hstep : ∀ sys', wStep fecRouteXmitNapi s.sys a = .ok sys' →
      WorkerInv (P := fecRouteXmitNapi) BelowBudget sys' ∧ sys'.dev = s.sys.dev ∧
        sys'.worker = s.sys.worker ∧ sys'.napi.sched = s.sys.napi.sched)
    (hs : s.disabling a ops = .ok s') : Kept s' := by
  obtain ⟨s₁, hs₁, rfl⟩ := exists_ok_of_map hs
  obtain ⟨sys', hsys, rfl⟩ := exists_ok_of_map hs₁
  obtain ⟨hinv, hdev, hworker, hsched⟩ := hstep sys' hsys
  exact h.congr hinv hdev hsched (congrArg WorkerPc.poll? hworker) ⟨rfl, rfl, rfl⟩

/-- A step of a link function. -/
theorem linkOpStep {ops : List LinkOp} {op : LinkOp} (hcare : CarefulLink s op)
    (hs : linkOpStep s ops op = .ok s') : Kept s' := by
  cases op with
  | stop =>
    cases hs
    exact ⟨h.worker.env _, h.setKick, h.kick, h.input, fun _ hstop => (by cases hstop)⟩
  | start =>
    cases hs
    exact ⟨h.worker.env _, h.setKick, h.kick, h.input, fun hq _ => absurd hcare hq⟩
  | wake =>
    cases hs
    exact h.netifTxWakeQueue.setLink ops
  | enable =>
    obtain ⟨s₁, hs₁, rfl⟩ := exists_ok_of_map hs
    obtain ⟨sys', hsys, rfl⟩ := exists_ok_of_map hs₁
    obtain ⟨n, hn, rfl⟩ := exists_ok_of_map hsys
    have hsched : n.sched = s.sys.napi.sched := by
      obtain ⟨-, -, rfl⟩ := napiEnable_ok hn
      rfl
    exact h.congr (h.worker.enable hn) rfl hsched rfl ⟨rfl, rfl, rfl⟩
  | disable =>
    refine h.disabling (fun sys' hsys => ?_) hs
    obtain ⟨hdev, hworker, hsched⟩ := disableStep_frame hsys
    exact ⟨h.worker.disableStep hsys, hdev, hworker, hsched hcare⟩
  | disableTry =>
    refine h.disabling (fun sys' hsys => ?_) hs
    obtain ⟨hdev, hworker, hsched⟩ := disableTryStep_frame hsys
    exact ⟨h.worker.disableTryStep hsys, hdev, hworker, hsched hcare⟩

/-- **A careful step keeps the invariant.** -/
theorem step {a : FwdAction} (ha : FwdAllows s a) (hcare : Careful s a)
    (hs : fwdStep s a = .ok s') :
    Kept s' := by
  cases a with
  | run =>
    cases hs
    have hpoll : s.sys.worker.poll? = none := WorkerPc.poll?_of_isOff ha
    exact h.outside (not_at hpoll _)
      (h.worker.step completesOnce_fecRouteXmitNapi (a := .run) ha trivial rfl) rfl rfl rfl
  | step t =>
    obtain ⟨sys', hsys, rfl⟩ := exists_ok_of_map hs
    exact h.workerRunStep ha hcare hsys
  | notify =>
    cases hs
    obtain ⟨hdev, hsched, hpoll⟩ := notifyStep_frame s.sys
    exact h.congr h.worker.notifyStep hdev hsched hpoll ⟨rfl, rfl, rfl⟩
  | rxq pkts =>
    cases hs
    exact h.fecRxq pkts
  | enqueue pkts =>
    cases hs
    exact h.enqueue pkts
  | egrNtfy =>
    cases hs
    exact h.egrNtfy
  | testAndSet =>
    cases hs
    exact h.testAndSet
  | schedule =>
    cases hs
    exact of_sched h.worker.schedule (sched_napiSchedule_of_enabled hcare)
  | wake =>
    cases hs
    exact h.netifTxWakeQueue
  | call c =>
    cases hs
    exact h.setLink c.ops
  | link =>
    cases hl : s.link with
    | nil =>
      simp only [fwdStep, hl] at hs
      cases hs
      exact h
    | cons op ops =>
      simp only [fwdStep, hl] at hs
      exact h.linkOpStep (hcare op (by rw [hl]; rfl)) hs

theorem notForgotten : s.NotForgotten := by
  rintro ⟨hEgr, hTas, hSched, hpoll⟩ - hwork
  have hpending : s.Pending → s.sys.napi.sched = true := by
    rintro (hs | hpos)
    · exact hs
    · omega
  rcases hwork with hq | ⟨hq, hstop⟩
  · rcases h.input hq with hpos | hp | hat
    · omega
    · exact hpending hp
    · exact absurd hat (not_at hpoll _)
  · rcases h.egress hq hstop with hpos | hpos | hp | hat
    · omega
    · omega
    · exact hpending hp
    · exact absurd hat (not_at hpoll _)

end

end Kept

/-- **The forwarding worker is not forgotten** in a run of careful steps. -/
theorem forwarding_not_forgotten (capacity : ℕ) (inPkt egrPkt : ℕ → Option BufId)
    {as : List FwdAction} {s : FwdSys}
    (hr : Run fwdStep (fun s a => FwdAllows s a ∧ Careful s a)
      (fwdInit (.init capacity inPkt egrPkt)) as s) : s.NotForgotten := by
  have h : Kept s :=
    hr.inv (fun _ _ _ hI hg hs => hI.step hg.1 hg.2 hs) (Kept.init capacity inPkt egrPkt)
  exact h.notForgotten

/-- The FEC with an egress queue of 128 packets. -/
def sampleFwd : FwdSys := fwdInit (.init 128 (fun _ => none) (fun _ => none))

/-- A worker is registered and nothing is routed back. -/
def plainRound : RouteRound := ⟨true, [], 0, false, false⟩

/-- The interface is opened, its worker goes to sleep, and a burst is received. -/
def openAndReceive : List FwdAction :=
  [.call .openSw, .link, .link, .run, .step plainRound, .step plainRound, .step plainRound,
    .step plainRound, .rxq [1, 2], .testAndSet, .schedule]

theorem forwarding_not_forgotten_burst :
    ∃ s, Run fwdStep (fun s a => FwdAllows s a ∧ Careful s a) sampleFwd openAndReceive s ∧
      s.Settled ∧ s.HasWork ∧ s.sys.napi.sched = true := by
  obtain ⟨s, hr, hs⟩ : ∃ s, Run fwdStep (fun s a => FwdAllows s a ∧ Careful s a) sampleFwd
      openAndReceive s ∧
        decide (s.Settled ∧ s.sys.napi.disable = false ∧ s.HasWork) = true :=
    exists_run_of_exec (by decide +kernel)
  obtain ⟨hset, henabled, hwork⟩ := of_decide_eq_true hs
  exact ⟨s, hr, hset, hwork, forwarding_not_forgotten 128 _ _ hr hset henabled hwork⟩

/-! ## A link restart under traffic -/

/-- `no_kick` is set, but nobody has scheduled the context or will. -/
structure FwdSys.Forgotten (s : FwdSys) : Prop where
  noKick : s.sys.dev.noKick = true
  nSched : s.nSched = 0
  sched : s.sys.napi.sched = false
  poll : s.sys.worker.poll? = none
  willPoll : s.sys.worker.willPoll = false

/-- The interface is opened, a burst is received, and the worker starts. -/
def openAndStart : List FwdAction :=
  [.call .openSw, .link, .link, .rxq [1, 2], .testAndSet, .schedule, .run]

/-- The next burst finds `no_kick` set.  A link restart stops the egress queue and disables the
context. -/
def burstAndRestart : List FwdAction :=
  [.rxq [3], .testAndSet, .call .restartPre, .link, .link]

/-- `napi_disable` returns.  The end of the restart enables the context and wakes the egress queue,
and this finds `no_kick` set, too. -/
def restartEnds : List FwdAction :=
  [.link, .call .restartPost, .link, .link, .egrNtfy, .testAndSet]

def workerSteps (n : ℕ) : List FwdAction := List.replicate n (.step plainRound)

/-- A poll has forwarded the first burst and is about to complete when the next one comes and the
link is restarted.  It completes, finds the burst, sets `no_kick` and schedules the disabled
context. -/
def restartUnderTraffic : List FwdAction :=
  openAndStart ++ workerSteps 10 ++ burstAndRestart ++ workerSteps 7 ++ restartEnds

theorem burst_forgotten_on_restart :
    ∃ s, Run fwdStep FwdAllows sampleFwd restartUnderTraffic s ∧ ¬ s.NotForgotten ∧
      s.sys.dev.inQueue.count = 1 ∧ s.Forgotten := by
  obtain ⟨s, hr, hs⟩ : ∃ s, Run fwdStep FwdAllows sampleFwd restartUnderTraffic s ∧
      decide (¬ s.NotForgotten ∧ s.sys.dev.inQueue.count = 1 ∧ s.sys.dev.noKick = true ∧
        s.nSched = 0 ∧ s.sys.napi.sched = false ∧ s.sys.worker.poll? = none ∧
          s.sys.worker.willPoll = false) = true :=
    exists_run_of_exec (by decide +kernel)
  obtain ⟨hnot, hq, hk, hn, hsched, hpoll, hwill⟩ := of_decide_eq_true hs
  exact ⟨s, hr, hnot, hq, hk, hn, hsched, hpoll, hwill⟩

end TrustedGateway
