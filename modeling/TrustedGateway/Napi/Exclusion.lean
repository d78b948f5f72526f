import TrustedGateway.Napi.Wakeup

/-!
# Polls and `napi_disable`

`napi_disable` waits for `SCHED` to be clear and takes that for "not polling and not going to".  A
worker polls again without looking at `SCHED` when a poll has used up its budget, so this rests on
what the poll functions return.  For `vnic_poll` and `fec_enet_napi_q1` it holds.
`fec_route_xmit_napi` may complete and still return the budget or more; the next poll then starts
although the context is not scheduled, and possibly disabled.
-/

namespace TrustedGateway

open StepSystem

/-! ## The three poll functions -/

inductive Polled
  | vnic
  | fecRx
  | fecRoute
  deriving DecidableEq, Repr

namespace Polled

def fn : Polled → PollFn
  | vnic => vnicPoll
  | fecRx => fecEnetNapiQ1
  | fecRoute => fecRouteXmitNapi

/-- The poll is behind its `napi_complete`. -/
def completed : (k : Polled) → k.fn.St → Bool
  | vnic => VnicPollSt.completed
  | fecRx => FecPollSt.completed
  | fecRoute => RouteSt.completed

/-- What the poll function may meet: `fec_route_xmit_napi` must not send as many packets as the
budget in one poll. -/
def Fits : (k : Polled) → k.fn.St → k.fn.In → k.fn.Dev → Prop
  | vnic => vnicPoll.anything
  | fecRx => fecEnetNapiQ1.anything
  | fecRoute => BelowBudget

theorem completesOnce (k : Polled) : CompletesOnce k.Fits := by
  cases k with
  | vnic => exact completesOnce_vnicPoll
  | fecRx => exact completesOnce_fecEnetNapiQ1
  | fecRoute => exact completesOnce_fecRouteXmitNapi

theorem completed_of_reaches (k : Polled) {st : k.fn.St} {b : Bool} (h : Reaches k.Fits st b) :
    b = k.completed st := by
  cases k with
  | vnic => exact (vnicPoll_reaches h).1
  | fecRx => exact (fecEnetNapiQ1_reaches h).1
  | fecRoute => exact (fecRouteXmitNapi_reaches h).1

end Polled

/-! ## Exclusion -/

/-- The worker starts a poll only while `SCHED` is set, and from the return of `napi_disable` to
the next `napi_enable` it neither starts one nor is in one before its `napi_complete`. -/
structure UnderSched (k : Polled) (s : k.fn.Sys) : Prop where
  starts : s.worker.isEnter = true → s.napi.sched = true
  quiet : s.quiet = true →
    s.worker.isEnter = false ∧ ∀ st, s.worker = .polling st → k.completed st = true

theorem UnderSched.of_inv {k : Polled} {s : k.fn.Sys} (h : WorkerInv k.Fits s) :
    UnderSched k s := by
  have hstarts : s.worker.isEnter = true → s.napi.sched = true :=
    fun hw => h.willPoll (WorkerPc.willPoll_of_isEnter hw)
  refine ⟨hstarts, fun hq => ?_⟩
  obtain ⟨-, hsched⟩ := h.quiet hq
  constructor
  · by_contra hw
    rw [hstarts (Bool.eq_true_of_not_eq_false hw)] at hsched
    cases hsched
  · intro st hst
    obtain ⟨b, hreach, hb⟩ := h.polling st hst
    have hc := k.completed_of_reaches hreach
    cases b with
    | true => exact hc.symm
    | false =>
      rw [hb rfl] at hsched
      cases hsched

/-- **Polls happen under `SCHED`**, if no poll of `fec_route_xmit_napi` reaches the budget. -/
theorem polls_under_sched (k : Polled) (dev : k.fn.Dev) {as : List k.fn.Action} {s : k.fn.Sys}
    (hr : Run (wStep k.fn) (fun s a => WAllows s a ∧ Meets k.Fits s a) (wInit dev) as s) :
    UnderSched k s :=
  UnderSched.of_inv ((WorkerInv.init dev).run k.completesOnce hr)

/-- A device with nothing to forward. -/
def idleRoute : FecRoute where
  inQueue := ⟨0, 0, 0, 224, fun _ => none⟩
  egress := ⟨0, 0, 0, 128, fun k => some k⟩
  stopped := false
  noKick := false

/-- The same after another worker has filled the egress queue. -/
def loadedRoute : FecRoute :=
  { idleRoute with egress := { idleRoute.egress with count := 128 } }

/-- All packets of a burst can be sent. -/
def sendAll : RouteRound := ⟨true, [], 128, false, false⟩

/-- The context is enabled and scheduled, and its worker starts and enters the poll. -/
def startRoute : List (WAction FecRoute RouteRound) :=
  [.enable, .schedule, .run, .step sendAll, .step sendAll, .step sendAll, .step sendAll,
    .step sendAll]

/-- The egress queue is filled, and a round of the poll sends the packets. -/
def sendRound : List (WAction FecRoute RouteRound) :=
  [.env loadedRoute, .step sendAll, .step sendAll, .step sendAll, .step sendAll, .step sendAll]

/-- A round without packets, then the poll completes and returns. -/
def finishRoute : List (WAction FecRoute RouteRound) :=
  List.replicate 9 (.step sendAll)

theorem polls_under_sched_route :
    ∃ s, Run (wStep fecRouteXmitNapi)
        (fun s a => WAllows s a ∧ Meets (P := fecRouteXmitNapi) BelowBudget s a)
        (wInit idleRoute) (startRoute ++ sendRound ++ finishRoute ++ [.disable]) s ∧
      s.quiet = true ∧ UnderSched .fecRoute s := by
  obtain ⟨s, hr, hq⟩ : ∃ s, Run (wStep fecRouteXmitNapi)
      (fun s a => WAllows s a ∧ Meets (P := fecRouteXmitNapi) BelowBudget s a)
      (wInit idleRoute) (startRoute ++ sendRound ++ finishRoute ++ [.disable]) s ∧
      s.quiet = true := exists_run_of_exec (by decide +kernel)
  exact ⟨s, hr, hq, polls_under_sched .fecRoute idleRoute hr⟩

/-! ## A poll that reaches the budget -/

/-- The worker polls, and has counted `pkts`. -/
def pollingRoute (r : FecRoute) (pkts : ℤ) (noInput : Bool) : fecRouteXmitNapi.Sys where
  napi := ⟨true, false, false, true, false⟩
  dev := r
  isWaiting := false
  waitMtx := none
  worker := .polling (.input pkts noInput false)
  notifier := .idle
  disablers := 0
  quiet := false

/-- The device after a round. -/
def sentRoute : FecRoute := { loadedRoute with egress := loadedRoute.egress.dropBufs 128 }

theorem run_sendRound (r : FecRoute) (pkts : ℤ) (noInput : Bool) :
    Run (wStep fecRouteXmitNapi) WAllows (pollingRoute r pkts noInput) sendRound
      (pollingRoute sentRoute (pkts + 128) (!noInput)) := by
  cases noInput <;> exact exec_eq_some_iff.mp rfl

/-- As long as packets come in, the poll goes on. -/
theorem run_sendRounds (m : ℕ) (r : FecRoute) (pkts : ℤ) (noInput : Bool) :
    ∃ noInput', Run (wStep fecRouteXmitNapi) WAllows (pollingRoute r pkts noInput)
      (List.replicate (m + 1) sendRound).flatten
      (pollingRoute sentRoute (pkts + 128 * (m + 1)) noInput') := by
  induction m generalizing r pkts noInput with
  | zero => exact ⟨!noInput, by simpa using run_sendRound r pkts noInput⟩
  | succ m ih =>
    obtain ⟨noInput', hr⟩ := ih sentRoute (pkts + 128) (!noInput)
    refine ⟨noInput', ?_⟩
    have hpkts : pkts + 128 * ((m + 1 : ℕ) + 1) = pkts + 128 + 128 * (m + 1) := by
      push_cast
      omega
    rw [hpkts]
    exact (run_sendRound r pkts noInput).append hr

/-- A poll that sends 782 times 128 packets and completes, and a call of `napi_disable`. -/
def untilBudget : List (WAction FecRoute RouteRound) :=
  startRoute ++ (List.replicate 782 sendRound).flatten ++ finishRoute ++ [.disable]

/-- Its context is disabled, and the worker starts the next poll. -/
theorem poll_starts_while_disabled :
    ∃ s, Run (wStep fecRouteXmitNapi) WAllows (wInit idleRoute) untilBudget s ∧
      s.quiet = true ∧ s.napi.sched = false ∧ startsPoll s (.step sendAll) = true ∧
        ¬ UnderSched .fecRoute s := by
  have hstart : Run (wStep fecRouteXmitNapi) WAllows (wInit idleRoute) startRoute
      (pollingRoute idleRoute 0 false) := exec_eq_some_iff.mp rfl
  obtain ⟨noInput, hsend⟩ := run_sendRounds 781 idleRoute 0 false
  obtain ⟨s, hend, hs⟩ : ∃ s, Run (wStep fecRouteXmitNapi) WAllows
      (pollingRoute sentRoute (0 + 128 * ((781 : ℕ) + 1)) noInput) (finishRoute ++ [.disable]) s ∧
        (s.quiet, s.napi.sched, s.worker.isEnter) = (true, false, true) := by
    cases noInput <;> exact exists_run_of_exec (by decide +kernel)
  obtain ⟨hq, hsched, hw⟩ : s.quiet = true ∧ s.napi.sched = false ∧ s.worker.isEnter = true := by
    simpa using hs
  refine ⟨s, ?_, hq, hsched, hw, fun h => ?_⟩
  · rw [untilBudget, List.append_assoc]
    exact (hstart.append hsend).append hend
  · exact absurd (hw.symm.trans (h.quiet hq).1) (by decide)

end TrustedGateway
