import TrustedGateway.Fec.TxRing
import TrustedGateway.Napi.Worker
import TrustedGateway.Vnic

/-!
# The poll functions

The three functions that workers call: `vnic_poll` of the virtual NIC, and `fec_enet_napi_q1` and
`fec_route_xmit_napi` of the FEC driver.  They are cut at the accesses to state that others can
change, and what they find there is an input of the step.

`vnic_poll` and `fec_enet_napi_q1` call `napi_complete` at most once, and only in a round that they
began below the budget.  `fec_route_xmit_napi` never looks at its budget: it completes when there
is nothing left to do, whatever it has counted by then.
-/

namespace TrustedGateway

/-! ## Poll functions that complete once -/

section Discipline

variable {P : PollFn} (G : P.St → P.In → P.Dev → Prop)

/-- The states a poll function gets to while what it meets is in `G`, and whether it has called
`napi_complete` by then. -/
inductive Reaches : P.St → Bool → Prop
  | start : Reaches P.start false
  | work {st next b} (hop : P.op st = .work next) (h : Reaches st b) {t d} (hG : G st t d) :
      Reaches (next t d).1 b
  | complete {st next b} (hop : P.op st = .complete next) (h : Reaches st b) (r : Bool) :
      Reaches (next r) true
  | schedule {st next b} (hop : P.op st = .schedule next) (h : Reaches st b) : Reaches next b

/-- What the next operation leads to is in `I`, from a state with `b`. -/
def PollOp.Leads {σ δ ι : Type} (G : ι → δ → Prop) (I : σ → Bool → Prop) (b : Bool) :
    PollOp σ δ ι → Prop
  | work next => ∀ t d, G t d → I (next t d).1 b
  | complete next => ∀ r, I (next r) true
  | schedule next => I next b
  | ret _ | panic _ => True

variable {G} in
/-- Invariants of a poll function. -/
theorem Reaches.inv {I : P.St → Bool → Prop} (hstart : I P.start false)
    (hstep : ∀ st b, I st b → (P.op st).Leads (G st) I b) {st : P.St} {b : Bool}
    (h : Reaches G st b) : I st b := by
  induction h with
  | start => exact hstart
  | work hop _ hG ih =>
    have hl := hstep _ _ ih
    rw [hop] at hl
    exact hl _ _ hG
  | complete hop _ r ih =>
    have hl := hstep _ _ ih
    rw [hop] at hl
    exact hl r
  | schedule hop _ ih =>
    have hl := hstep _ _ ih
    rw [hop] at hl
    exact hl

/-- The poll function calls `napi_complete` at most once, and returns less than the budget
whenever it did. -/
def CompletesOnce : Prop :=
  ∀ st, Reaches G st true →
    (∀ next, P.op st ≠ .complete next) ∧ ∀ pkts, P.op st = .ret pkts → pkts < pollBudget

/-- What the poll function meets in a step is in `G`. -/
def Meets (s : P.Sys) : P.Action → Prop
  | .step t => ∀ st ∈ s.worker.poll?, G st t s.dev
  | _ => True

instance decidableMeets [∀ st t d, Decidable (G st t d)] (s : P.Sys) (a : P.Action) :
    Decidable (Meets G s a) := by
  cases a <;> dsimp only [Meets] <;> infer_instance

end Discipline

/-- Anything can happen. -/
def PollFn.anything (P : PollFn) : P.St → P.In → P.Dev → Prop := fun _ _ _ => True

theorem meets_anything {P : PollFn} (s : P.Sys) (a : P.Action) : Meets P.anything s a := by
  cases a with
  | step t => exact fun _ _ => trivial
  | _ => trivial

/-! ## The virtual NIC -/

/-- Where `vnic_poll` is; the locals are those of `PollAt`.  It returns in two places: after
`napi_complete`, and when the budget is used up. -/
inductive VnicPollSt
  | maskRx
  | maskTx
  | flushTx (pkts : ℤ)
  | pktqTx (pkts : ℤ) (events : Bool)
  | complete (pkts ret : ℤ)
  | rearmTx (pkts ret : ℤ)
  | rearmRx (pkts : ℤ)
  | reschedule (pkts : ℤ)
  | done (pkts : ℤ)
  | exhausted (pkts : ℤ)
  deriving DecidableEq, Repr

/-- `vnic_poll`.  The input is what `virtio_net_flush_tx`, `router_pktq_tx` or
`vqueue_num_of_avail_buf_and_notify` returns. -/
def vnicPollOp : VnicPollSt → PollOp VnicPollSt Unit ℤ
  | .maskRx => .work fun _ d => (.maskTx, d)
  | .maskTx => .work fun _ d => (.flushTx 0, d)
  | .flushTx pkts =>
    .work fun ret d => (.pktqTx (if 0 < ret then pkts + ret else pkts) (isEvent ret), d)
  | .pktqTx pkts events =>
    .work fun ret d =>
      (if ¬ (events || isEvent ret) then .complete pkts ret
        else if pkts < pollBudget then .flushTx pkts else .exhausted pkts, d)
  | .complete pkts ret => .complete fun done => if done then .rearmTx pkts ret else .done pkts
  | .rearmTx pkts ret =>
    .work fun num d =>
      (if num ≠ 0 then .reschedule pkts
        else if ret = virtioNoAvail then .rearmRx pkts else .done pkts, d)
  | .rearmRx pkts =>
    .work fun num d => (if num ≠ 0 then .reschedule pkts else .done pkts, d)
  | .reschedule pkts => .schedule (.done pkts)
  | .done pkts | .exhausted pkts => .ret pkts

def vnicPoll : PollFn := ⟨VnicPollSt, Unit, ℤ, .maskRx, vnicPollOp, 640⟩

namespace VnicPollSt

/-- It has called `napi_complete`. -/
def completed : VnicPollSt → Bool
  | rearmTx _ _ | rearmRx _ | reschedule _ | done _ => true
  | _ => false

/-- What holds of the count of packets.  A round that found nothing has not added to it. -/
def ok : VnicPollSt → Prop
  | maskRx | maskTx => True
  | pktqTx pkts events => 0 ≤ pkts ∧ (events = false → pkts < pollBudget)
  | exhausted pkts => pollBudget ≤ pkts
  | flushTx pkts | complete pkts _ | rearmTx pkts _ | rearmRx pkts | reschedule pkts
  | done pkts => 0 ≤ pkts ∧ pkts < pollBudget

end VnicPollSt

/-- What a step of `vnic_poll` keeps. -/
theorem vnicPollOp_leads (st : VnicPollSt) (hok : st.ok) :
    (vnicPollOp st).Leads (fun _ _ => True) (fun st b => b = st.completed ∧ st.ok)
      st.completed := by
  cases st with
  | maskRx => exact fun _ _ _ => ⟨rfl, trivial⟩
  | maskTx => exact fun _ _ _ => ⟨rfl, le_refl 0, show (0 : ℤ) < 100000 by decide⟩
  | flushTx pkts =>
    intro ret _ _
    refine ⟨rfl, ?_, fun hev => ?_⟩
    · split
      · rename_i hret
        exact add_nonneg hok.1 hret.le
      · exact hok.1
    · have hret : ¬ 0 < ret := fun hret => by
        rw [isEvent_iff.mpr (.inl hret)] at hev
        cases hev
      rw [if_neg hret]
      exact hok.2
  | pktqTx pkts events =>
    intro ret _ _
    dsimp only
    split
    · rename_i hev
      exact ⟨rfl, hok.1, hok.2 (by simp_all)⟩
    · split
      · rename_i hlt
        exact ⟨rfl, hok.1, hlt⟩
      · rename_i hge
        exact ⟨rfl, not_lt.mp hge⟩
  | complete pkts ret =>
    rintro (_ | _)
    · exact ⟨rfl, hok⟩
    · exact ⟨rfl, hok⟩
  | rearmTx pkts ret =>
    intro num _ _
    dsimp only
    split
    · exact ⟨rfl, hok⟩
    · split <;> exact ⟨rfl, hok⟩
  | rearmRx pkts =>
    intro num _ _
    dsimp only
    split <;> exact ⟨rfl, hok⟩
  | reschedule pkts => exact ⟨rfl, hok⟩
  | done pkts | exhausted pkts => trivial

/-- `vnic_poll` completes in a round that found nothing, which began below the budget. -/
theorem vnicPoll_reaches {st : VnicPollSt} {b : Bool} (h : Reaches vnicPoll.anything st b) :
    b = st.completed ∧ st.ok :=
  Reaches.inv (P := vnicPoll) (I := fun st b => b = VnicPollSt.completed st ∧ VnicPollSt.ok st)
    ⟨rfl, trivial⟩ (fun st _ hst => hst.1 ▸ vnicPollOp_leads st hst.2) h

theorem completesOnce_vnicPoll : CompletesOnce vnicPoll.anything := by
  intro (st : VnicPollSt) h
  obtain ⟨hc, hok⟩ := vnicPoll_reaches h
  cases st with
  | rearmTx | rearmRx | reschedule =>
    exact ⟨fun _ hop => (by cases hop), fun _ hop => (by cases hop)⟩
  | done pkts =>
    refine ⟨fun _ hop => (by cases hop), fun _ hop => ?_⟩
    cases hop
    exact hok.2
  | maskRx | maskTx | flushTx | pktqTx | complete | exhausted => cases hc

/-! ## The receive context of the FEC -/

/-- `BSTGW_RX_BUDGET`. -/
def bstgwRxBudget : ℤ := 96

/-- `fep->events`: the events kept for the next round. -/
structure FecEvents where
  rxf : Bool
  txf : Bool
  deriving DecidableEq, Repr

/-- What `fec_enet_napi_q1` meets: the two bits of `FEC_IEVENT`, and how many descriptors
`fec_rxq` or `fec_txq` handles. -/
structure FecRound where
  rxf : Bool
  txf : Bool
  handled : ℤ
  deriving DecidableEq, Repr

/-- Where `fec_enet_napi_q1` is; it returns in two places, too. -/
inductive FecPollSt
  | events (pkts : ℤ)
  | rxq (pkts : ℤ) (txf : Bool)
  | txq (pkts : ℤ)
  | complete (pkts : ℤ)
  | rearm (pkts : ℤ)
  | done (pkts : ℤ)
  | exhausted (pkts : ℤ)
  deriving DecidableEq, Repr

/-- The end of a round. -/
def fecRoundEnd (pkts : ℤ) (ev : FecEvents) : FecPollSt × FecEvents :=
  if pkts < pollBudget then (.events pkts, ev) else (.exhausted pkts, { ev with rxf := true })

/-- `fec_enet_napi_q1`; its `budget` is never 0. -/
def fecEnetNapiQ1Op : FecPollSt → PollOp FecPollSt FecEvents FecRound
  | .events pkts =>
    .work fun t ev =>
      let rxf := t.rxf || ev.rxf
      let txf := t.txf || ev.txf
      (if !rxf && !txf then .complete pkts else .rxq pkts txf, ⟨false, false⟩)
  | .rxq pkts txf =>
    .work fun t ev =>
      let ev := { ev with rxf := ev.rxf || decide (bstgwRxBudget ≤ t.handled) }
      if txf then (.txq (pkts + t.handled), ev) else fecRoundEnd (pkts + t.handled) ev
  | .txq pkts =>
    .work fun t ev =>
      fecRoundEnd pkts { ev with txf := ev.txf || decide ((bstgwTxcBudget : ℤ) ≤ t.handled) }
  | .complete pkts => .complete fun done => if done then .rearm pkts else .done pkts
  | .rearm pkts => .work fun _ ev => (.done pkts, ev)
  | .done pkts | .exhausted pkts => .ret pkts

def fecEnetNapiQ1 : PollFn :=
  ⟨FecPollSt, FecEvents, FecRound, .events 0, fecEnetNapiQ1Op, 640⟩

namespace FecPollSt

def completed : FecPollSt → Bool
  | rearm _ | done _ => true
  | _ => false

/-- A round begins below the budget. -/
def ok : FecPollSt → Prop
  | events pkts | complete pkts | rearm pkts | done pkts => pkts < pollBudget
  | exhausted pkts => pollBudget ≤ pkts
  | rxq _ _ | txq _ => True

end FecPollSt

theorem fecRoundEnd_ok (pkts : ℤ) (ev : FecEvents) :
    (fecRoundEnd pkts ev).1.completed = false ∧ (fecRoundEnd pkts ev).1.ok := by
  unfold fecRoundEnd
  split
  · rename_i hlt
    exact ⟨rfl, hlt⟩
  · rename_i hge
    exact ⟨rfl, not_lt.mp hge⟩

/-- What a step of `fec_enet_napi_q1` keeps. -/
theorem fecEnetNapiQ1Op_leads (st : FecPollSt) (hok : st.ok) :
    (fecEnetNapiQ1Op st).Leads (fun _ _ => True) (fun st b => b = st.completed ∧ st.ok)
      st.completed := by
  cases st with
  | events pkts =>
    intro t ev _
    dsimp only
    split
    · exact ⟨rfl, hok⟩
    · exact ⟨rfl, trivial⟩
  | rxq pkts txf =>
    intro t ev _
    dsimp only
    split
    · exact ⟨rfl, trivial⟩
    · obtain ⟨hc, hok⟩ := fecRoundEnd_ok (pkts + t.handled)
        { ev with rxf := ev.rxf || decide (bstgwRxBudget ≤ t.handled) }
      exact ⟨hc.symm, hok⟩
  | txq pkts =>
    intro t ev _
    obtain ⟨hc, hok⟩ := fecRoundEnd_ok pkts
      { ev with txf := ev.txf || decide ((bstgwTxcBudget : ℤ) ≤ t.handled) }
    exact ⟨hc.symm, hok⟩
  | complete pkts =>
    rintro (_ | _)
    · exact ⟨rfl, hok⟩
    · exact ⟨rfl, hok⟩
  | rearm pkts => exact fun _ _ _ => ⟨rfl, hok⟩
  | done pkts | exhausted pkts => trivial

theorem fecEnetNapiQ1_reaches {st : FecPollSt} {b : Bool}
    (h : Reaches fecEnetNapiQ1.anything st b) : b = st.completed ∧ st.ok :=
  Reaches.inv (P := fecEnetNapiQ1) (I := fun st b => b = FecPollSt.completed st ∧ FecPollSt.ok st)
    ⟨rfl, show (0 : ℤ) < 100000 by decide⟩
    (fun st _ hst => hst.1 ▸ fecEnetNapiQ1Op_leads st hst.2) h

theorem completesOnce_fecEnetNapiQ1 : CompletesOnce fecEnetNapiQ1.anything := by
  intro (st : FecPollSt) h
  obtain ⟨hc, hok⟩ := fecEnetNapiQ1_reaches h
  cases st with
  | rearm => exact ⟨fun _ hop => (by cases hop), fun _ hop => (by cases hop)⟩
  | done pkts =>
    refine ⟨fun _ hop => (by cases hop), fun _ hop => ?_⟩
    cases hop
    exact hok
  | events | rxq | txq | complete | exhausted => cases hc

/-! ## The forwarding context of the FEC -/

/-- `3 * BSTGW_RX_BURST_SZ`. -/
def routeBurst : ℕ := 96

/-- What `fec_route_xmit_napi` works on: the packets received, those to be sent, whether sending is
stopped, and the flag that keeps others from scheduling the context. -/
structure FecRoute where
  inQueue : PktQueue
  egress : PktQueue
  stopped : Bool
  noKick : Bool

/-- What it meets: whether `fec_rx_handler` finds a router worker, the packets that this one routes
back to the FEC, how many packets `fec_xmit_handler` sends and whether the descriptor ring got so
full that the egress queue is stopped, and what the uninitialised `is_empty` holds. -/
structure RouteRound where
  registered : Bool
  hairpin : List BufId
  sent : ℕ
  full : Bool
  garbage : Bool
  deriving DecidableEq, Repr

/-- Where `fec_route_xmit_napi` is. -/
inductive RouteSt
  | input (pkts : ℤ) (noInput noEgress : Bool)
  | receive (pkts : ℤ) (burst : ℕ) (noEgress : Bool)
  | dropInput (pkts nrcv : ℤ) (burst : ℕ) (noEgress : Bool)
  | egress (pkts nrcv : ℤ) (noInput noEgress : Bool)
  | queued (pkts nrcv : ℤ) (noInput : Bool)
  | transmit (pkts nrcv : ℤ) (noInput : Bool) (burst : ℕ)
  | dropEgress (pkts nrcv : ℤ) (noInput : Bool) (sent : ℕ)
  | complete (pkts : ℤ)
  | clearKick (pkts : ℤ)
  | testStopped (pkts : ℤ)
  | testEgress (pkts : ℤ)
  | testInput (pkts : ℤ)
  | rerun (pkts : ℤ)
  | reschedule (pkts : ℤ)
  | setKick (pkts : ℤ)
  | done (pkts : ℤ)
  deriving DecidableEq, Repr

/-- The end of a round of the loop. -/
def routeRoundEnd (pkts nrcv : ℤ) (nsent : ℕ) (noInput noEgress : Bool) : RouteSt :=
  if nrcv ≠ 0 ∨ nsent ≠ 0 then .input pkts noInput noEgress else .complete pkts

/-- `fec_rx_handler`. -/
def fecRxHandler (t : RouteRound) (r : FecRoute) : ℤ × FecRoute :=
  if t.registered then (0, { r with egress := (r.egress.bulkAddBuff t.hairpin).2 }) else (-1, r)

/-- `fec_route_xmit_napi`.  Where `router_pktq_tx` returns 0, the second number of `routeRoundEnd`
is 0. -/
def fecRouteXmitNapiOp : RouteSt → PollOp RouteSt FecRoute RouteRound
  | .input pkts noInput noEgress =>
    .work fun _ r =>
      (if noInput then .egress pkts 0 false noEgress
        else if r.inQueue.contigBufs = 0 then .egress pkts 0 true noEgress
        else .receive pkts (min r.inQueue.contigBufs routeBurst) noEgress, r)
  | .receive pkts burst noEgress =>
    .work fun t r =>
      let h := fecRxHandler t r
      (.dropInput (pkts + h.1) h.1 burst noEgress, h.2)
  | .dropInput pkts nrcv burst noEgress =>
    .work fun _ r =>
      (.egress pkts nrcv (nrcv = 0) noEgress, { r with inQueue := r.inQueue.dropBufs burst })
  | .egress pkts nrcv noInput noEgress =>
    .work fun _ r =>
      (if noEgress then routeRoundEnd pkts nrcv 0 noInput false
        else if r.stopped then routeRoundEnd pkts nrcv 0 noInput true
        else .queued pkts nrcv noInput, r)
  | .queued pkts nrcv noInput =>
    .work fun _ r =>
      (if r.egress.contigBufs = 0 then routeRoundEnd pkts nrcv 0 noInput true
        else .transmit pkts nrcv noInput r.egress.contigBufs, r)
  | .transmit pkts nrcv noInput burst =>
    .work fun t r =>
      let sent := min t.sent burst
      (if sent = 0 then routeRoundEnd pkts nrcv 0 noInput true
        else .dropEgress pkts nrcv noInput sent, { r with stopped := r.stopped || t.full })
  | .dropEgress pkts nrcv noInput sent =>
    .work fun _ r =>
      (routeRoundEnd (pkts + sent) nrcv sent noInput false,
        { r with egress := r.egress.dropBufs sent })
  | .complete pkts => .complete fun done => if done then .clearKick pkts else .setKick pkts
  | .clearKick pkts => .work fun _ r => (.testStopped pkts, { r with noKick := false })
  | .testStopped pkts =>
    .work fun _ r => (if r.stopped then .testInput pkts else .testEgress pkts, r)
  | .testEgress pkts =>
    .work fun t r =>
      (if !(t.garbage || r.egress.isEmpty) then .rerun pkts else .testInput pkts, r)
  | .testInput pkts =>
    .work fun _ r => (if !r.inQueue.isEmpty then .rerun pkts else .done pkts, r)
  | .rerun pkts =>
    .work fun _ r =>
      (if r.noKick then .done pkts else .reschedule pkts, { r with noKick := true })
  | .reschedule pkts => .schedule (.done pkts)
  | .setKick pkts => .work fun _ r => (.done pkts, { r with noKick := true })
  | .done pkts => .ret pkts

def fecRouteXmitNapi : PollFn :=
  ⟨RouteSt, FecRoute, RouteRound, .input 0 false false, fecRouteXmitNapiOp, 4000⟩

namespace RouteSt

def completed : RouteSt → Bool
  | clearKick _ | testStopped _ | testEgress _ | testInput _ | rerun _ | reschedule _ | setKick _
  | done _ => true
  | _ => false

/-- What the poll has counted. -/
def count : RouteSt → ℤ
  | input pkts _ _ | receive pkts _ _ | dropInput pkts _ _ _ | egress pkts _ _ _
  | queued pkts _ _ | transmit pkts _ _ _ | complete pkts | clearKick pkts | testStopped pkts
  | testEgress pkts | testInput pkts | rerun pkts | reschedule pkts | setKick pkts
  | done pkts => pkts
  | dropEgress pkts _ _ sent => pkts + sent

end RouteSt

/-- The poll has sent less than the budget, with what it is about to send. -/
def BelowBudget : RouteSt → RouteRound → FecRoute → Prop
  | .transmit pkts _ _ burst, t, _ => pkts + (min t.sent burst : ℕ) < pollBudget
  | _, _, _ => True

instance decidableBelowBudget (st : RouteSt) (t : RouteRound) (r : FecRoute) :
    Decidable (BelowBudget st t r) := by
  cases st <;> dsimp only [BelowBudget] <;> infer_instance

instance (s : fecRouteXmitNapi.Sys) (a : fecRouteXmitNapi.Action) :
    Decidable (Meets (P := fecRouteXmitNapi) BelowBudget s a) :=
  @decidableMeets fecRouteXmitNapi BelowBudget decidableBelowBudget s a

theorem routeRoundEnd_ok (pkts nrcv : ℤ) (nsent : ℕ) (noInput noEgress : Bool) :
    (routeRoundEnd pkts nrcv nsent noInput noEgress).completed = false ∧
      (routeRoundEnd pkts nrcv nsent noInput noEgress).count = pkts := by
  unfold routeRoundEnd
  split <;> exact ⟨rfl, rfl⟩

theorem fecRxHandler_nonpos (t : RouteRound) (r : FecRoute) : (fecRxHandler t r).1 ≤ 0 := by
  unfold fecRxHandler
  split
  · exact le_refl 0
  · exact show (-1 : ℤ) ≤ 0 by decide

/-- What a step of `fec_route_xmit_napi` keeps. -/
theorem fecRouteXmitNapiOp_leads (st : RouteSt) (hlt : st.count < pollBudget) :
    (fecRouteXmitNapiOp st).Leads (BelowBudget st)
      (fun st b => b = st.completed ∧ st.count < pollBudget) st.completed := by
  have hend : ∀ pkts nrcv nsent noInput noEgress, pkts < pollBudget →
      false = (routeRoundEnd pkts nrcv nsent noInput noEgress).completed ∧
        (routeRoundEnd pkts nrcv nsent noInput noEgress).count < pollBudget := by
    intro pkts nrcv nsent noInput noEgress hlt
    obtain ⟨hc, hcount⟩ := routeRoundEnd_ok pkts nrcv nsent noInput noEgress
    exact ⟨hc.symm, hcount.trans_lt hlt⟩
  cases st with
  | input pkts noInput noEgress =>
    intro t r _
    dsimp only
    split
    · exact ⟨rfl, hlt⟩
    · split <;> exact ⟨rfl, hlt⟩
  | receive pkts burst noEgress =>
    intro t r _
    exact ⟨rfl, lt_of_le_of_lt (add_le_of_nonpos_right (fecRxHandler_nonpos t r)) hlt⟩
  | dropInput pkts nrcv burst noEgress => exact fun _ _ _ => ⟨rfl, hlt⟩
  | egress pkts nrcv noInput noEgress =>
    intro t r _
    dsimp only
    split
    · exact hend _ _ _ _ _ hlt
    · split
      · exact hend _ _ _ _ _ hlt
      · exact ⟨rfl, hlt⟩
  | queued pkts nrcv noInput =>
    intro t r _
    dsimp only
    split
    · exact hend _ _ _ _ _ hlt
    · exact ⟨rfl, hlt⟩
  | transmit pkts nrcv noInput burst =>
    intro t r hbelow
    dsimp only
    split
    · exact hend _ _ _ _ _ hlt
    · exact ⟨rfl, hbelow⟩
  | dropEgress pkts nrcv noInput sent => exact fun _ _ _ => hend _ _ _ _ _ hlt
  | complete pkts =>
    rintro (_ | _)
    · exact ⟨rfl, hlt⟩
    · exact ⟨rfl, hlt⟩
  | clearKick pkts | setKick pkts => exact fun _ _ _ => ⟨rfl, hlt⟩
  | testStopped pkts | testEgress pkts | testInput pkts | rerun pkts =>
    intro t r _
    dsimp only
    split <;> exact ⟨rfl, hlt⟩
  | reschedule pkts => exact ⟨rfl, hlt⟩
  | done pkts => trivial

theorem fecRouteXmitNapi_reaches {st : RouteSt} {b : Bool}
    (h : Reaches (P := fecRouteXmitNapi) BelowBudget st b) :
    b = st.completed ∧ st.count < pollBudget :=
  Reaches.inv (P := fecRouteXmitNapi)
    (I := fun st b => b = RouteSt.completed st ∧ RouteSt.count st < pollBudget)
    ⟨rfl, show (0 : ℤ) < 100000 by decide⟩
    (fun st _ hst => hst.1 ▸ fecRouteXmitNapiOp_leads st hst.2) h

theorem completesOnce_fecRouteXmitNapi :
    CompletesOnce (P := fecRouteXmitNapi) BelowBudget := by
  intro (st : RouteSt) h
  obtain ⟨hc, hlt⟩ := fecRouteXmitNapi_reaches h
  cases st with
  | clearKick | testStopped | testEgress | testInput | rerun | reschedule | setKick =>
    exact ⟨fun _ hop => (by cases hop), fun _ hop => (by cases hop)⟩
  | done pkts =>
    refine ⟨fun _ hop => (by cases hop), fun _ hop => ?_⟩
    cases hop
    exact hlt
  | input | receive | dropInput | egress | queued | transmit | dropEgress | complete => cases hc

end TrustedGateway
