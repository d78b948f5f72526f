import TrustedGateway.VirtioNet.Backlog
import TrustedGateway.Vnic.FineSteps

/-!
# No work is left behind

A device that is not polled has to be woken by whoever brings work.  The driver looks at a
flag first, and the worker that clears the flag looks at the queue again; packets of other
workers wake the device unconditionally; the `MISSED` bit keeps what happens during a poll.
The flag of the receive queue is cleared only by a poll that could not deliver a packet for
want of chains, so that everything hangs on what the last poll has seen.

The write of the status register does not fit in: it wakes the device first and makes it ready
after that.  A poll that runs in between finds a device that is not ready, leaves the flag of
the receive queue as it is, and is not repeated.

## Main results

* `wakeInv_step` — what every step of every party keeps.
* `no_lost_wakeup_of_settled` — in every settled run no wake-up is lost.
* `lost_wakeup` — a run that is not settled and loses one.
-/

namespace TrustedGateway

open BatchLoop StepSystem

variable {M : Type}

/-! ## The property -/

/-- The driver has announced that it is ready. -/
def Nic.Ready (l : Nic M) : Prop := l.net.dev.vdev.status &&& virtioConfigSDriverOk ≠ 0

instance (l : Nic M) : Decidable l.Ready := inferInstanceAs (Decidable (_ ≠ _))

/-- The worker is in `vnic_poll`. -/
def WorkerAt.executes : WorkerAt → Bool
  | .idle => false
  | _ => true

/-- Nobody is half-way through anything. -/
@[mk_iff]
structure Nic.AtRest (l : Nic M) : Prop where
  worker : ¬ l.worker.executes
  driver : ∀ q, l.driver q = .quiet
  enqueues : l.enqueues = 0

instance (l : Nic M) : Decidable l.AtRest :=
  decidable_of_iff _ (Nic.atRest_iff l).symm

/-- A device in use: both rings are set up, the driver is ready and the link is up. -/
@[mk_iff]
structure Nic.InUse (l : Nic M) : Prop where
  rings : ∀ q, (l.vq q).vringAddr ≠ 0
  ready : l.Ready
  link : l.net.dev.vnet.status &&& virtioNetSLinkUp ≠ 0

instance (l : Nic M) : Decidable l.InUse :=
  decidable_of_iff _ (Nic.inUse_iff l).symm

/-- There are chains to transmit, or packets and chains to deliver them to. -/
def Nic.HasWork (l : Nic M) : Prop :=
  (l.vq 1).waiting ≠ 0 ∨ l.egress.count ≠ 0 ∧ (l.vq 0).waiting ≠ 0

instance (l : Nic M) : Decidable l.HasWork := inferInstanceAs (Decidable (_ ∨ _))

/-- A device in use that is at rest and has work to do is scheduled. -/
def NoLostWakeup (l : Nic M) : Prop := l.InUse → l.AtRest → l.HasWork → l.napi.sched

instance (l : Nic M) : Decidable (NoLostWakeup l) := inferInstanceAs (Decidable (_ → _ → _ → _))

/-! ## Guards -/

/-- The packet fits into a buffer of the pool, and the receive chain that is next is one
writable descriptor that takes any such packet. -/
def RxTakesAny (env : Env) : Except Abort (Option BufId × RxState) → Prop
  | .ok (some b, s) => s.vq.More →
      (s.pool.eb b).dataLen ≤ bstgwDefaultBufSize ∧ s.vq.nextDesc.RxOk ∧
        vnetHdrLen + bstgwDefaultBufSize.toNat ≤ s.vq.nextDesc.len.toNat ∧
        env.va (s.vq.nextDesc.addr.setWidth 32) ≠ 0
  | _ => True

instance (vq : Vqueue) : Decidable vq.More := inferInstanceAs (Decidable (_ ∧ _))

instance (env : Env) : ∀ x, Decidable (RxTakesAny env x)
  | .ok (some _, _) => inferInstanceAs (Decidable (_ → _ ∧ _ ∧ _ ∧ _))
  | .ok (none, _) => isTrue trivial
  | .error _ => isTrue trivial

/-- What the worker finds in the rings and in the egress queue. -/
def WorkerFinds (env : Env) (l : Nic M) : WorkerAt → Prop
  | .rxLoop _ _ (ob :: _) processed enqueued =>
    RxTakesAny env (rxPrepare (l.rxState processed enqueued) ob)
  | _ => True

instance (env : Env) (l : Nic M) (p : WorkerAt) : Decidable (WorkerFinds env l p) := by
  cases p with
  | rxLoop pkts events bufs processed enqueued =>
    cases bufs <;> dsimp only [WorkerFinds] <;> infer_instance
  | _ => dsimp only [WorkerFinds]; infer_instance

/-- A conforming driver: the index of a ring does not overtake itself, the receive chains are
as they should be, and the device is not reset. -/
def Conforming (l : Nic M) : NicEvent → Prop
  | .publish q _ _ _ num _ => (l.vq q).waiting + num < 2 ^ 16
  | .setStatus val => val ≠ 0
  | .poll env _ => WorkerFinds env l l.worker
  | _ => True

instance (l : Nic M) (e : NicEvent) : Decidable (Conforming l e) := by
  cases e <;> dsimp only [Conforming] <;> infer_instance

/-- `DRIVER_OK` is not announced without being stored. -/
def Nic.StatusSettled (l : Nic M) : Prop :=
  ∀ val ∈ l.statusWrite, val &&& virtioConfigSDriverOk ≠ 0 → l.Ready

instance (l : Nic M) : Decidable l.StatusSettled :=
  inferInstanceAs (Decidable (∀ val ∈ l.statusWrite, _))

/-- The worker does not take a step while `DRIVER_OK` is announced but not stored. -/
def Settled (l : Nic M) : NicEvent → Prop
  | .poll _ _ => l.StatusSettled
  | _ => True

instance (l : Nic M) (e : NicEvent) : Decidable (Settled l e) := by
  cases e <;> dsimp only [Settled] <;> infer_instance

/-! ## Who wakes the device -/

/-- The driver is going to notify when it publishes a chain, or has decided to. -/
def Nic.Armed (l : Nic M) (q : QIdx) : Prop :=
  match l.driver q with
  | .quiet => (l.vq q).waiting = 0 ∧ ¬ (l.vq q).Masked
  | .published => ¬ (l.vq q).Masked
  | _ => True

/-- The egress queue is empty, or a worker that filled it is going to wake the device. -/
def Nic.EgressSafe (l : Nic M) : Prop := l.egress.count = 0 ∨ 0 < l.enqueues

/-- What has been settled about the other queue when queue `q` is rearmed. -/
def Nic.Owed (l : Nic M) (q : QIdx) (ret : ℤ) : Prop :=
  if q = 1 then l.EgressSafe ∨ ret = virtioNoAvail else l.Armed 1

/-- The flag has not been set since it was cleared, or who set it is going to wake the
device. -/
def Nic.Open (l : Nic M) (q : QIdx) : Prop := ¬ (l.vq q).Masked ∨ l.driver q = .signalled

/-- Who is going to wake the device, by the position of the worker.  During a poll it is
`napi_complete` that has to come out right. -/
def Covered (l : Nic M) : WorkerAt → Prop
  | .idle => l.napi.sched ∨ l.Armed 1 ∧ (l.EgressSafe ∨ l.Armed 0)
  | .complete ret => l.napi.missed ∨ l.EgressSafe ∨ ret = virtioNoAvail
  | .rearm q ret => l.napi.sched ∨ l.Owed q ret
  | .clear q ret => l.napi.sched ∨ l.Owed q ret
  | .recheck q ret => l.napi.sched ∨ l.Owed q ret ∧ l.Open q
  | _ => True

/-- The position is between the start of a poll and `napi_complete`. -/
def WorkerAt.polls : WorkerAt → Bool
  | .idle | .rearm _ _ | .clear _ _ | .recheck _ _ | .remask _ | .reschedule => false
  | _ => true

/-- `virtio_net_receive` is going to report progress. -/
def Promising (l : Nic M) : WorkerAt → Prop
  | .xmit _ _ bufs => bufs ≠ []
  | .rxLoop _ _ bufs processed _ => 0 < processed ∨ bufs ≠ [] ∧ (l.vq 0).waiting ≠ 0
  | .rxDone _ _ processed _ => 0 < processed
  | _ => True

/-- The device has been woken, and will not forget it at the end of a poll. -/
def Primed (l : Nic M) : Prop :=
  l.napi.sched ∧ ∀ ret, l.worker = .complete ret → l.napi.missed

/-- What holds all along. -/
structure WakeInv (l : Nic M) : Prop where
  rings : ∀ q, (l.vq q).vringAddr ≠ 0
  enabled : l.napi.disable = false
  link : l.net.dev.vnet.status &&& virtioNetSLinkUp ≠ 0
  polls : l.worker.polls → l.napi.sched
  promising : Promising l l.worker
  announced : ∀ val ∈ l.statusWrite, val &&& virtioConfigSDriverOk ≠ 0 → l.Ready ∨ Primed l
  covered : l.Ready → Covered l l.worker

variable {l l' : Nic M}

theorem Primed.covered (h : Primed l) : Covered l l.worker := by
  obtain ⟨hs, hm⟩ := h
  cases hw : l.worker with
  | idle => exact .inl hs
  | complete ret => exact .inl (hm ret hw)
  | rearm q ret | clear q ret | recheck q ret => exact .inl hs
  | _ => trivial

/-- A device in use that is at rest is awake, or whoever brings work wakes it. -/
theorem WakeInv.noLostWakeup (h : WakeInv l) : NoLostWakeup l := by
  intro huse hrest hwork
  have hidle : l.worker = .idle := by
    have hw := hrest.worker
    cases hp : l.worker with
    | idle => rfl
    | _ => rw [hp] at hw; exact absurd rfl hw
  have hc := h.covered huse.ready
  rw [hidle] at hc
  have hnone : ∀ q, l.Armed q → (l.vq q).waiting = 0 := by
    intro q ha
    rw [Nic.Armed, hrest.driver q] at ha
    exact ha.1
  rcases hc with hs | ⟨htx, hrx⟩
  · exact hs
  rcases hwork with hsend | ⟨hpkts, hchains⟩
  · exact absurd (hnone 1 htx) hsend
  · rcases hrx with (h0 | hpos) | harm
    · exact absurd h0 hpkts
    · rw [hrest.enqueues] at hpos
      exact absurd hpos (lt_irrefl 0)
    · exact absurd (hnone 0 harm) hchains

/-! ## The other parties -/

/-- What a step of another party leaves alone. -/
structure Aside (l l' : Nic M) : Prop where
  worker : l'.worker = l.worker
  addr : ∀ q, (l'.vq q).vringAddr = (l.vq q).vringAddr
  vnet : l'.net.dev.vnet = l.net.dev.vnet
  status : l'.net.dev.vdev.status = l.net.dev.vdev.status
  rx : (l.vq 0).waiting ≠ 0 → (l'.vq 0).waiting ≠ 0

theorem Aside.promising (h : Aside l l') (hi : WakeInv l) : Promising l' l'.worker := by
  have hp := hi.promising
  rw [h.worker]
  cases hw : l.worker with
  | rxLoop pkts events bufs processed enqueued =>
    rw [hw] at hp
    exact hp.imp_right fun hb => ⟨hb.1, h.rx hb.2⟩
  | xmit pkts events bufs | rxDone pkts events processed enqueued =>
    rw [hw] at hp
    exact hp
  | _ => trivial

/-- A step that wakes the device. -/
theorem Aside.woken (h : Aside l l') (hi : WakeInv l) (hn : l'.napi = napiSchedule l.napi) :
    WakeInv l' := by
  have hs : l'.napi.sched := by
    rw [hn, sched_napiSchedule, hi.enabled]
    exact Bool.or_true _
  have hm : l.napi.sched → l'.napi.missed := by
    intro hl
    rw [hn]
    exact missed_napiSchedule hi.enabled hl
  have hprimed : Primed l' := by
    refine ⟨hs, fun ret hw => hm (hi.polls ?_)⟩
    rw [← h.worker, hw]
    rfl
  refine ⟨?_, ?_, ?_, fun _ => hs, h.promising hi, fun _ _ _ => .inr hprimed,
    fun _ => hprimed.covered⟩
  · intro q
    rw [h.addr]
    exact hi.rings q
  · rw [hn, disable_napiSchedule]
    exact hi.enabled
  · rw [h.vnet]
    exact hi.link

/-- A step that does not: whoever was going to wake the device still is. -/
theorem Aside.calm (h : Aside l l') (hi : WakeInv l) (hn : l'.napi = l.napi)
    (hsw : ∀ val ∈ l'.statusWrite, val &&& virtioConfigSDriverOk ≠ 0 → val ∈ l.statusWrite)
    (hsafe : l.EgressSafe → l'.EgressSafe) (harm : ∀ q, l.Armed q → l'.Armed q)
    (hopen : ∀ q, l.Open q → l'.Open q) : WakeInv l' := by
  have howed : ∀ q ret, l.Owed q ret → l'.Owed q ret := by
    intro q ret ho
    rw [Nic.Owed] at ho ⊢
    split at ho <;> rename_i hq
    · rw [if_pos hq]
      exact ho.imp_left hsafe
    · rw [if_neg hq]
      exact harm 1 ho
  refine ⟨?_, ?_, ?_, ?_, h.promising hi, ?_, ?_⟩
  · intro q
    rw [h.addr]
    exact hi.rings q
  · rw [hn]
    exact hi.enabled
  · rw [h.vnet]
    exact hi.link
  · rw [h.worker, hn]
    exact hi.polls
  · intro val hv hok
    rw [Nic.Ready, h.status, Primed, hn, h.worker]
    exact hi.announced val (hsw val hv hok) hok
  · intro hready
    rw [Nic.Ready, h.status] at hready
    have hc := hi.covered hready
    rw [h.worker]
    cases hw : l.worker with
    | idle =>
      rw [hw] at hc
      rw [Covered, hn]
      exact hc.imp_right fun ⟨h₁, h₀⟩ => ⟨harm 1 h₁, h₀.imp hsafe (harm 0)⟩
    | complete ret =>
      rw [hw] at hc
      rw [Covered, hn]
      exact hc.imp_right fun h => h.imp_left hsafe
    | rearm q ret | clear q ret =>
      rw [hw] at hc
      rw [Covered, hn]
      exact hc.imp_right (howed q ret)
    | recheck q ret =>
      rw [hw] at hc
      rw [Covered, hn]
      exact hc.imp_right fun ⟨ho, hq⟩ => ⟨howed q ret ho, hopen q hq⟩
    | _ => trivial

/-- A calm step of the driver of one queue. -/
theorem Aside.drove {q : QIdx} (h : Aside l l') (hi : WakeInv l) (hn : l'.napi = l.napi)
    (hsw : l'.statusWrite = l.statusWrite) (hpq : l'.egress = l.egress)
    (henq : l'.enqueues = l.enqueues)
    (hother : ∀ q', q' ≠ q → l'.vq q' = l.vq q' ∧ l'.driver q' = l.driver q')
    (harm : l.Armed q → l'.Armed q) (hopen : l.Open q → l'.Open q) : WakeInv l' := by
  refine h.calm hi hn (fun val hv _ => hsw ▸ hv) ?_ ?_ ?_
  · rw [Nic.EgressSafe, Nic.EgressSafe, hpq, henq]
    exact id
  · intro q'
    by_cases hq : q' = q
    · rw [hq]
      exact harm
    · obtain ⟨hv, hd⟩ := hother q' hq
      rw [Nic.Armed, Nic.Armed, hv, hd]
      exact id
  · intro q'
    by_cases hq : q' = q
    · rw [hq]
      exact hopen
    · obtain ⟨hv, hd⟩ := hother q' hq
      rw [Nic.Open, Nic.Open, hv, hd]
      exact id

section

variable {l : Nic M} {q : QIdx}

theorem Nic.vq_setVq_self (l : Nic M) (q : QIdx) (vq : Vqueue) : (l.setVq q vq).vq q = vq :=
  TrustedGateway.vq_setVq_self _ _ _

theorem Nic.vq_setVq_of_ne (l : Nic M) {q q' : QIdx} (h : q' ≠ q) (vq : Vqueue) :
    (l.setVq q vq).vq q' = l.vq q' := TrustedGateway.vq_setVq_of_ne _ h _

theorem waiting_advance {vq : Vqueue} {num : ℕ} (hlt : vq.waiting + num < 2 ^ 16) :
    (vq.shared.avail.idx + BitVec.ofNat 16 num - vq.lastAvailIdx).toNat = vq.waiting + num := by
  have hw : (vq.shared.avail.idx - vq.lastAvailIdx).toNat = vq.waiting := rfl
  rw [add_sub_right_comm, BitVec.toNat_add, hw, BitVec.toNat_ofNat, Nat.add_mod_mod,
    Nat.mod_eq_of_lt hlt]

theorem wakeInv_publish (hi : WakeInv l) {desc : ℕ → VringDesc} {ring : ℕ → Half} {flags : Half}
    {num : ℕ} {nw : ℕ → Byte} (hlt : (l.vq q).waiting + num < 2 ^ 16)
    (hd : l.driver q = .quiet ∨ l.driver q = .published) :
    WakeInv (driverPublish l q desc ring flags num nw) := by
  have hself : (driverPublish l q desc ring flags num nw).vq q = { l.vq q with
      shared := { (l.vq q).shared with
        desc := desc
        avail := ⟨flags, (l.vq q).shared.avail.idx + BitVec.ofNat 16 num, ring⟩ } } :=
    l.vq_setVq_self q _
  have hother : ∀ q', q' ≠ q → (driverPublish l q desc ring flags num nw).vq q' = l.vq q' ∧
      (driverPublish l q desc ring flags num nw).driver q' = l.driver q' := by
    intro q' hq
    exact ⟨l.vq_setVq_of_ne hq _, Function.update_of_ne hq _ _⟩
  have hnow : (driverPublish l q desc ring flags num nw).driver q = .published :=
    Function.update_self q _ _
  have haside : Aside l (driverPublish l q desc ring flags num nw) := by
    refine ⟨rfl, ?_, rfl, rfl, ?_⟩
    · intro q'
      by_cases hq : q' = q
      · rw [hq, hself]
      · rw [(hother q' hq).1]
    · by_cases hq : 0 = q
      · subst hq
        rw [hself]
        intro hne
        show (_ : BitVec 16).toNat ≠ 0
        rw [waiting_advance hlt]
        omega
      · rw [(hother 0 hq).1]
        exact id
  refine haside.drove hi rfl rfl rfl rfl hother ?_ ?_
  · -- a driver that is done has seen the flag clear since the device looked last
    intro ha
    rw [Nic.Armed, hnow, hself]
    rcases hd with hd | hd <;> rw [Nic.Armed, hd] at ha
    · exact ha.2
    · exact ha
  · intro ho
    rw [Nic.Open, hself]
    refine .inl (ho.resolve_right ?_)
    rcases hd with hd | hd <;> rw [hd] <;> exact nofun

theorem wakeInv_readFlag (hi : WakeInv l) (hd : l.driver q = .published) :
    WakeInv (l.drive q (if (l.vq q).Masked then .quiet else .mustNotify)) := by
  have hother : ∀ p q', q' ≠ q →
      (l.drive q p).vq q' = l.vq q' ∧ (l.drive q p).driver q' = l.driver q' := by
    intro p q' hq
    exact ⟨rfl, Function.update_of_ne hq _ _⟩
  have haside : ∀ p, Aside l (l.drive q p) := fun p => ⟨rfl, fun _ => rfl, rfl, rfl, id⟩
  refine (haside _).drove hi rfl rfl rfl rfl (hother _) ?_ ?_
  · intro ha
    rw [Nic.Armed, hd] at ha
    rw [if_neg ha, Nic.Armed]
    have hnow : (l.drive q .mustNotify).driver q = .mustNotify := Function.update_self q _ _
    rw [hnow]
    trivial
  · intro ho
    refine .inl (ho.resolve_right ?_)
    rw [hd]
    exact nofun

theorem wakeInv_notify (hi : WakeInv l) {vq : Vqueue}
    (hv : vqueueNapiSignalAvail (l.vq q) = .ok vq) :
    WakeInv ((l.setVq q vq).drive q .signalled) := by
  have hkeep : vq.vringAddr = (l.vq q).vringAddr ∧ vq.waiting = (l.vq q).waiting := by
    rw [vqueueNapiSignalAvail, if_neg (hi.rings q), Vqueue.setUsedFlags] at hv
    split at hv
    · cases hv
    · cases hv
      exact ⟨rfl, rfl⟩
  have hself : ((l.setVq q vq).drive q .signalled).vq q = vq := l.vq_setVq_self q vq
  have hother : ∀ q', q' ≠ q → ((l.setVq q vq).drive q .signalled).vq q' = l.vq q' ∧
      ((l.setVq q vq).drive q .signalled).driver q' = l.driver q' := by
    intro q' hq
    exact ⟨l.vq_setVq_of_ne hq _, Function.update_of_ne hq _ _⟩
  have hnow : ((l.setVq q vq).drive q .signalled).driver q = .signalled :=
    Function.update_self q _ _
  have haside : Aside l ((l.setVq q vq).drive q .signalled) := by
    refine ⟨rfl, ?_, rfl, rfl, ?_⟩
    · intro q'
      by_cases hq : q' = q
      · rw [hq, hself, hkeep.1]
      · rw [(hother q' hq).1]
    · by_cases hq : 0 = q
      · subst hq
        rw [hself, hkeep.2]
        exact id
      · rw [(hother 0 hq).1]
        exact id
  refine haside.drove hi rfl rfl rfl rfl hother ?_ ?_
  · intro _
    rw [Nic.Armed, hnow]
    trivial
  · intro _
    exact .inr hnow

theorem wakeInv_notified (hi : WakeInv l) : WakeInv (l.schedule.drive q .quiet) := by
  have haside : Aside l (l.schedule.drive q .quiet) := ⟨rfl, fun _ => rfl, rfl, rfl, id⟩
  exact haside.woken hi rfl

theorem wakeInv_enqueue (hi : WakeInv l) (pkts : List BufId) :
    WakeInv { routeBack l pkts with
      enqueues := if (l.egress.bulkAddBuff pkts).1 = 0 then l.enqueues else l.enqueues + 1 } := by
  have haside : Aside l { routeBack l pkts with
      enqueues := if (l.egress.bulkAddBuff pkts).1 = 0 then l.enqueues else l.enqueues + 1 } :=
    ⟨rfl, fun _ => rfl, rfl, rfl, id⟩
  refine haside.calm hi rfl (fun _ hv _ => hv) ?_ (fun _ => id) (fun _ => id)
  intro hs
  rw [Nic.EgressSafe]
  dsimp only
  split
  · rename_i h0
    refine hs.imp_left fun hc => ?_
    show l.egress.count + (l.egress.bulkAddBuff pkts).1 = 0
    omega
  · exact .inr (Nat.succ_pos _)

theorem wakeInv_egrNotify (hi : WakeInv l) (n : ℕ) :
    WakeInv { l.schedule with enqueues := n } := by
  have haside : Aside l { l.schedule with enqueues := n } := ⟨rfl, fun _ => rfl, rfl, rfl, id⟩
  exact haside.woken hi rfl

/-- Announcing `DRIVER_OK` on a device whose link is up wakes it; announcing anything else
does not. -/
theorem virtioSetStatusPrepare_keeps (hlink : l.net.dev.vnet.status &&& virtioNetSLinkUp ≠ 0)
    (val : Byte) :
    (virtioSetStatusPrepare l.net.dev val).vdev.vq = l.net.dev.vdev.vq ∧
      (virtioSetStatusPrepare l.net.dev val).vnet = l.net.dev.vnet ∧
      (virtioSetStatusPrepare l.net.dev val).vdev.status = l.net.dev.vdev.status ∧
      (virtioSetStatusPrepare l.net.dev val).napi =
        if val &&& virtioConfigSDriverOk ≠ 0 then napiSchedule l.napi else l.napi := by
  have hset : ∀ d : Dev M, d.vnet = l.net.dev.vnet → virtioNetSetStatus d val =
      if val &&& virtioConfigSDriverOk ≠ 0 then d.schedule else d := by
    intro d hd
    simp only [virtioNetSetStatus, virtioNetStarted, hd, hlink, not_false_eq_true, and_true,
      decide_eq_true_eq, ne_eq]
  rw [virtioSetStatusPrepare, hset _ (by split <;> rfl)]
  split <;> split <;> exact ⟨rfl, rfl, rfl, rfl⟩

theorem wakeInv_setStatus (hi : WakeInv l) (val : Byte) :
    WakeInv { l.setDev (virtioSetStatusPrepare l.net.dev val) with statusWrite := some val } := by
  obtain ⟨hvq, hvnet, hstatus, hnapi⟩ := virtioSetStatusPrepare_keeps hi.link val
  have hvq' : ∀ q, Nic.vq { l.setDev (virtioSetStatusPrepare l.net.dev val) with
      statusWrite := some val } q = l.vq q := fun q => congrFun hvq q
  have haside : Aside l { l.setDev (virtioSetStatusPrepare l.net.dev val) with
      statusWrite := some val } := by
    refine ⟨rfl, ?_, hvnet, hstatus, ?_⟩
    · intro q
      rw [hvq']
    · rw [hvq']
      exact id
  by_cases hok : val &&& virtioConfigSDriverOk ≠ 0
  · rw [if_pos hok] at hnapi
    exact haside.woken hi hnapi
  · rw [if_neg hok] at hnapi
    refine haside.calm hi hnapi ?_ id ?_ ?_
    · intro val' hv hok'
      cases hv
      exact absurd hok' hok
    · intro q
      rw [Nic.Armed, Nic.Armed, hvq']
      exact id
    · intro q
      rw [Nic.Open, Nic.Open, hvq']
      exact id

/-- Storing the status makes the device ready; by then it has been woken. -/
theorem wakeInv_storeStatus (hi : WakeInv l) {val : Byte} (hval : l.statusWrite = some val) :
    WakeInv { l.setDev (l.net.dev.setStatus val) with statusWrite := none } := by
  refine ⟨hi.rings, hi.enabled, hi.link, hi.polls, hi.promising, nofun, ?_⟩
  intro hok
  rcases hi.announced val hval hok with hready | hprimed
  · exact hi.covered hready
  · exact hprimed.covered

theorem wakeInv_buffers (hi : WakeInv l) (pool : EthPool) (sec : SecMem) :
    WakeInv { l with net := { l.net with pool := pool, sec := sec } } :=
  ⟨hi.rings, hi.enabled, hi.link, hi.polls, hi.promising, hi.announced, hi.covered⟩

end

/-! ## The worker -/

/-- What a step of the worker leaves alone, apart from `napi_schedule` and `napi_complete`. -/
structure Steady (l l' : Nic M) : Prop where
  sched : l'.napi.sched = l.napi.sched
  disable : l'.napi.disable = l.napi.disable
  addr : ∀ q, (l'.vq q).vringAddr = (l.vq q).vringAddr
  vnet : l'.net.dev.vnet = l.net.dev.vnet
  status : l'.net.dev.vdev.status = l.net.dev.vdev.status
  statusWrite : l'.statusWrite = l.statusWrite

section

variable {l l' : Nic M} {env : Env} {back : List BufId}

theorem Steady.goto (h : Steady l l') (p : WorkerAt) : Steady l (l'.goto p) := { h with }

variable {events : Bool} {num : ℕ} {p : WorkerAt} {pkts ret : ℤ} {q : QIdx}

theorem Steady.setVq (l : Nic M) {vq : Vqueue} (h : vq.vringAddr = (l.vq q).vringAddr) :
    Steady l (l.setVq q vq) := by
  refine ⟨rfl, rfl, ?_, rfl, rfl, rfl⟩
  intro q'
  by_cases hq : q' = q
  · rw [hq, l.vq_setVq_self, h]
  · rw [l.vq_setVq_of_ne hq]

theorem Steady.kick {d : Dev M} (h : kickFor num l.net.dev q = .ok d) : Steady l (l.setDev d) := by
  have hq : Quiet l.net.dev d := by
    rw [kickFor] at h
    split at h
    · exact quiet_vnicVqKickCb h
    · cases h
      exact .refl _
  refine ⟨congrArg Napi.sched hq.napi, congrArg Napi.disable hq.napi, ?_, hq.vnet, hq.status, rfl⟩
  intro q'
  exact congrArg (fun f => (f q').vringAddr) hq.vq

/-- The invariant after a step, by what the new position asks for.  `DRIVER_OK` is not being
announced, so that nothing has to be said about that. -/
theorem Steady.inv (h : Steady l l') (hi : WakeInv l) (hset : l.StatusSettled)
    (hpolls : l'.worker.polls → l.napi.sched) (hprom : Promising l' l'.worker)
    (hcov : l.Ready → Covered l' l'.worker) : WakeInv l' := by
  have hready : l'.Ready ↔ l.Ready := by rw [Nic.Ready, Nic.Ready, h.status]
  refine ⟨?_, h.disable.trans hi.enabled, ?_, ?_, hprom, ?_, fun hr => hcov (hready.mp hr)⟩
  · intro q
    rw [h.addr]
    exact hi.rings q
  · rw [h.vnet]
    exact hi.link
  · rw [h.sched]
    exact hpolls
  · rw [h.statusWrite]
    intro val hv hok
    exact .inl (hready.mpr (hset val hv hok))

/-- Positions that ask for nothing. -/
def WorkerAt.free : WorkerAt → Bool
  | .maskRx | .maskTx | .flushTx _ | .txLoop _ _ _ _ | .txDone _ _ _ | .pktqTx _ _ => true
  | _ => false

/-- A step of a poll to such a position. -/
theorem Steady.inv_of_free (h : Steady l l') (hi : WakeInv l) (hset : l.StatusSettled)
    (hsched : l.napi.sched) (hfree : l'.worker.free) : WakeInv l' := by
  have hfree' : Promising l' l'.worker ∧ Covered l' l'.worker := by
    revert hfree
    generalize l'.worker = p
    intro hfree
    cases p <;> first | exact ⟨trivial, trivial⟩ | cases hfree
  exact h.inv hi hset (fun _ => hsched) hfree'.1 fun _ => hfree'.2

/-- Nothing is promised outside a poll. -/
theorem promising_of_not_polls (h : p.polls = false) : Promising l p := by
  cases p <;> trivial

/-- A step to a position outside a poll. -/
theorem Steady.inv_of_not_polls (h : Steady l l') (hi : WakeInv l) (hset : l.StatusSettled)
    (hout : l'.worker.polls = false) (hcov : l.Ready → Covered l' l'.worker) : WakeInv l' := by
  refine h.inv hi hset ?_ (promising_of_not_polls hout) hcov
  rw [hout]
  intro hcon
  cases hcon

/-- A change of the scheduling state on the way to a position outside a poll. -/
theorem wakeInv_setNapi (hi : WakeInv l) (hset : l.StatusSettled) {n : Napi}
    (hdis : n.disable = false) (hout : p.polls = false)
    (hcov : l.Ready → Covered ((l.setNapi n).goto p) p) : WakeInv ((l.setNapi n).goto p) := by
  refine ⟨hi.rings, hdis, hi.link, ?_, promising_of_not_polls hout, ?_, hcov⟩
  · show p.polls = true → _
    rw [hout]
    intro hcon
    cases hcon
  · intro val hv hok
    exact .inl (hset val hv hok)

/-- A step of a poll to the end of a round. -/
theorem Steady.inv_of_drained (h : Steady l l') (hi : WakeInv l) (hset : l.StatusSettled)
    (hsched : l.napi.sched) {r : ℤ} (hw : l'.worker = .drained pkts events r)
    (hcov : ¬ isEvent r → l.Ready → l'.EgressSafe ∨ r = virtioNoAvail) : WakeInv l' := by
  rw [WorkerAt.drained] at hw
  split at hw
  · rename_i hno
    have hr : ¬ isEvent r := by
      intro he
      exact hno (by rw [he, Bool.or_true])
    refine h.inv hi hset (fun _ => hsched) ?_ ?_ <;> rw [hw]
    · trivial
    · intro hready
      exact .inr (hcov hr hready)
  · refine h.inv_of_free hi hset hsched ?_
    rw [hw]
    split <;> rfl

theorem exists_of_writeFlags {f : Half → Half} (h : writeFlags l q f p = .ok l') :
    ∃ vq, l' = (l.setVq q vq).goto p ∧ Steady l l' ∧
      vq.shared.used.flags = f (l.vq q).shared.used.flags := by
  rw [writeFlags, Vqueue.setUsedFlags] at h
  split at h
  · cases h
  rename_i vq hv
  split at hv
  · cases hv
  cases hv
  cases h
  refine ⟨_, rfl, .goto (.setVq l ?_) p, rfl⟩
  rfl

/-! ### What the position of the worker says -/

theorem Steady.here (l : Nic M) (p : WorkerAt) : Steady l (l.goto p) :=
  ⟨rfl, rfl, fun _ => rfl, rfl, rfl, rfl⟩

theorem WakeInv.sched_at (hi : WakeInv l) (hw : l.worker = p) (hp : p.polls) : l.napi.sched :=
  hi.polls (by rw [hw]; exact hp)

theorem WakeInv.promising_at (hi : WakeInv l) (hw : l.worker = p) : Promising l p :=
  hw ▸ hi.promising

theorem WakeInv.covered_at (hi : WakeInv l) (hw : l.worker = p) (hready : l.Ready) : Covered l p :=
  hw ▸ hi.covered hready

/-! ### Facts about the loops -/

/-- A packet that is given up is counted, and one that is not is not. -/
theorem processed_rxPrepare {s s' : RxState} {ob o : Option BufId}
    (h : rxPrepare s ob = .ok (o, s')) :
    s'.processed = if o = none then s.processed + 1 else s.processed := by
  cases ob with
  | none =>
    cases h
    rfl
  | some b =>
    simp only [rxPrepare] at h
    split at h
    · cases h
    · split at h
      · cases h
        rfl
      · split at h <;> cases h <;> rfl

/-- A descriptor that takes any packet takes this one. -/
theorem rxDelivers_of_room {d : VringDesc} {e : EthBuf} (hlen : e.dataLen ≤ bstgwDefaultBufSize)
    (hroom : vnetHdrLen + bstgwDefaultBufSize.toNat ≤ d.len.toNat)
    (hva : env.va (d.addr.setWidth 32) ≠ 0) : RxDelivers env d e := by
  have hle : e.dataLen.toNat ≤ bstgwDefaultBufSize.toNat := BitVec.le_def.mp hlen
  refine ⟨⟨?_, hva⟩, by omega⟩
  have hmod := Nat.mod_le (vnetHdrLen + e.dataLen.toNat) (2 ^ 32)
  rw [addSize]
  omega

/-- An iteration on a chain that takes any packet processes its packet. -/
theorem processed_rxBody {rxBurst : Word} {s s' : RxState} {ob : Option BufId} {n : Next ℤ}
    (hfit : RxTakesAny env (rxPrepare s ob)) (hmore : 0 < s.processed ∨ s.vq.More)
    (h : rxBody env rxBurst s ob = .ok (n, s')) : 0 < s'.processed := by
  rcases rxBody_turn h with ⟨-, hp⟩ | ⟨b, t, hp, ht⟩
  · rw [processed_rxPrepare hp]
    exact Nat.succ_pos _
  rw [hp] at hfit
  have ht₀ : t.processed = s.processed := processed_rxPrepare hp
  rw [← (rxPrepare_keeps hp).1, ← ht₀] at hmore
  cases ht with
  | idle hnone => exact hmore.resolve_right hnone
  | lost hm hbad => exact absurd (hfit hm).2.1 hbad
  | refused hm hgood hno =>
    obtain ⟨hlen, -, hroom, hva⟩ := hfit hm
    exact absurd (rxDelivers_of_room hlen hroom hva) hno
  | delivered => exact Nat.succ_pos _

theorem not_masked_clear (flags : Half) :
    flags &&& ~~~vringUsedFNoNotify &&& vringUsedFNoNotify = 0 := by
  have hbit : ~~~vringUsedFNoNotify &&& vringUsedFNoNotify = 0 := by decide
  rw [BitVec.and_assoc, hbit]
  exact BitVec.and_zero

/-- A queue that is empty after its flag was cleared is armed. -/
theorem armed_of_open (ho : l.Open q) (hempty : (l.vq q).waiting = 0) : l.Armed q := by
  rw [Nic.Open] at ho
  rw [Nic.Armed]
  cases hd : l.driver q with
  | quiet =>
    rw [hd] at ho
    exact ⟨hempty, ho.resolve_right nofun⟩
  | published =>
    rw [hd] at ho
    exact ho.resolve_right nofun
  | mustNotify | signalled => trivial

/-! ### Masking and transmitting -/

theorem wakeInv_mask (hi : WakeInv l) (hset : l.StatusSettled) (hsched : l.napi.sched)
    (hfree : p.free) (h : writeFlags l q (· ||| vringUsedFNoNotify) p = .ok l') : WakeInv l' := by
  obtain ⟨vq, rfl, hsteady, -⟩ := exists_of_writeFlags h
  exact hsteady.inv_of_free hi hset hsched hfree

variable (hi : WakeInv l) (hset : l.StatusSettled) (h : workerStep env back l = .ok l')
include hi hset h

theorem wakeInv_idle (hw : l.worker = .idle) : WakeInv l' := by
  simp only [workerStep, hw] at h
  split at h
  · rename_i hs
    cases h
    have hsteady : Steady l ((l.setNapi { l.napi with doNotify := false }).goto .maskRx) :=
      ⟨rfl, rfl, fun _ => rfl, rfl, rfl, rfl⟩
    exact hsteady.inv_of_free hi hset hs rfl
  · cases h
    exact hi

theorem wakeInv_flushTx (hw : l.worker = .flushTx pkts) : WakeInv l' := by
  have hsched := hi.sched_at hw rfl
  simp only [workerStep, hw] at h
  split at h
  · cases h
    exact (Steady.here l _).inv_of_free hi hset hsched rfl
  split at h
  · cases h
  cases h
  refine (Steady.here l _).inv_of_free hi hset hsched ?_
  dsimp only [Nic.goto]
  repeat' split
  all_goals rfl

theorem wakeInv_txLoop {left : ℕ} {frames : List Frame}
    (hw : l.worker = .txLoop pkts left frames num) : WakeInv l' := by
  have hsched := hi.sched_at hw rfl
  simp only [workerStep, hw] at h
  split at h
  · cases h
  rename_i n s hb
  have haddr : s.vq.vringAddr = (l.vq 1).vringAddr := vringAddr_txBody hb
  have hsteady : Steady l { l with net := l.net.txFinish s } := { Steady.setVq l haddr with }
  cases h
  refine (hsteady.goto _).inv_of_free hi hset hsched ?_
  dsimp only [Nic.goto]
  split <;> rfl

theorem wakeInv_txDone {frames : List Frame} (hw : l.worker = .txDone pkts frames num) :
    WakeInv l' := by
  have hsched := hi.sched_at hw rfl
  simp only [workerStep, hw] at h
  split at h
  · cases h
  rename_i d hkick
  cases h
  refine Steady.inv_of_free ?_ hi hset hsched rfl
  exact { Steady.kick hkick with }

/-! ### Delivering -/

theorem wakeInv_pktqTx (hw : l.worker = .pktqTx pkts events) : WakeInv l' := by
  have hsched := hi.sched_at hw rfl
  simp only [workerStep, hw] at h
  cases h
  by_cases h0 : l.egress.contigBufs = 0
  · rw [if_pos h0]
    refine (Steady.here l _).inv_of_drained hi hset hsched rfl ?_
    intro _ _
    exact .inl (.inl ((PktQueue.contigBufs_eq_zero_iff _).mp h0))
  · rw [if_neg h0]
    refine (Steady.here l _).inv hi hset (fun _ => hsched) ?_ fun _ => trivial
    show l.egress.window l.egress.contigBufs ≠ []
    intro hnil
    apply h0
    simpa [PktQueue.window] using congrArg List.length hnil

theorem wakeInv_xmit {bufs : List (Option BufId)} (hw : l.worker = .xmit pkts events bufs) :
    WakeInv l' := by
  have hsched := hi.sched_at hw rfl
  have hbufs : bufs ≠ [] := hi.promising_at hw
  simp only [workerStep, hw, if_neg (hi.rings 1)] at h
  split at h
  · -- the device is not ready
    rename_i hcan
    cases h
    refine (Steady.here l _).inv_of_drained hi hset hsched rfl ?_
    intro _ hready
    refine absurd ?_ hcan
    rintro (hdown | hok)
    · exact hi.rings 0 hdown
    · exact hready hok
  split at h
  · cases h
  rename_i space hspace
  cases h
  by_cases h0 : space = 0
  · rw [if_pos h0]
    exact (Steady.here l _).inv_of_drained hi hset hsched rfl fun _ _ => .inr rfl
  rw [if_neg h0]
  by_cases hfew : space.toNat < virtioNetQueueDefaultSize / 2
  · rw [if_pos hfew]
    exact (Steady.here l _).inv_of_drained hi hset hsched rfl fun hno _ => absurd (by decide) hno
  · rw [if_neg hfew]
    refine (Steady.here l _).inv hi hset (fun _ => hsched) (.inr ⟨hbufs, ?_⟩) fun _ => trivial
    show (l.vq 0).waiting ≠ 0
    rw [← (numOfAvailBuf_eq_ok hspace).2]
    exact fun hz => h0 (BitVec.eq_of_toNat_eq hz)

theorem wakeInv_rxLoop {bufs : List (Option BufId)} {processed enqueued : ℕ}
    (hw : l.worker = .rxLoop pkts events bufs processed enqueued)
    (hfit : WorkerFinds env l l.worker) : WakeInv l' := by
  have hsched := hi.sched_at hw rfl
  have hp := hi.promising_at hw
  rw [hw] at hfit
  cases bufs with
  | nil =>
    simp only [workerStep, hw] at h
    cases h
    exact (Steady.here l _).inv hi hset (fun _ => hsched) (hp.resolve_right fun hb => hb.1 rfl)
      fun _ => trivial
  | cons ob bufs =>
    simp only [workerStep, hw] at h
    split at h
    · cases h
    rename_i n s hb
    have hmore : 0 < processed ∨ (l.vq 0).More := by
      refine hp.imp_right fun hb => ⟨hi.rings 0, ?_⟩
      intro hidx
      exact hb.2 (Vqueue.waiting_eq_zero_iff.mpr hidx)
    have hpos : 0 < s.processed := processed_rxBody hfit hmore hb
    have haddr : s.vq.vringAddr = (l.vq 0).vringAddr := vringAddr_rxBody hb
    have hsteady : Steady l { l with net := l.net.rxFinish s } := { Steady.setVq l haddr with }
    cases h
    refine (hsteady.goto _).inv hi hset (fun _ => hsched) ?_ ?_
    · dsimp only [Nic.goto]
      split
      · exact .inl hpos
      · exact hpos
    · intro _
      dsimp only [Nic.goto]
      split <;> trivial

theorem wakeInv_rxDone {processed enqueued : ℕ}
    (hw : l.worker = .rxDone pkts events processed enqueued) : WakeInv l' := by
  have hsched := hi.sched_at hw rfl
  have hp : 0 < processed := hi.promising_at hw
  simp only [workerStep, hw] at h
  split at h
  · cases h
  rename_i d hkick
  cases h
  refine Steady.inv_of_drained { Steady.kick hkick with } hi hset hsched rfl ?_
  intro hno
  exact absurd (isEvent_iff.mpr (.inl (Int.natCast_pos.mpr hp))) hno

/-! ### Completing and rearming -/

theorem wakeInv_complete (hw : l.worker = .complete ret) : WakeInv l' := by
  simp only [workerStep, hw, napiComplete, hi.enabled, Bool.not_false, Bool.true_and] at h
  cases h
  by_cases hm : l.napi.missed
  · -- the poll is repeated
    rw [if_pos hm]
    exact wakeInv_setNapi hi hset rfl rfl fun _ => .inl (hi.sched_at hw rfl)
  · rw [if_neg hm]
    refine wakeInv_setNapi hi hset rfl rfl ?_
    intro hready
    exact .inr ((hi.covered_at hw hready).resolve_left hm)

theorem wakeInv_rearm (hw : l.worker = .rearm q ret) : WakeInv l' := by
  simp only [workerStep, hw] at h
  split at h
  · cases h
  rename_i num hnum
  cases h
  split
  · exact (Steady.here l _).inv_of_not_polls hi hset rfl (hi.covered_at hw)
  · exact (Steady.here l _).inv_of_not_polls hi hset rfl fun _ => trivial

theorem wakeInv_clear (hw : l.worker = .clear q ret) : WakeInv l' := by
  simp only [workerStep, hw] at h
  obtain ⟨vq, rfl, hsteady, hflags⟩ := exists_of_writeFlags h
  refine hsteady.inv_of_not_polls hi hset rfl ?_
  intro hready
  refine (hi.covered_at hw hready).imp_right fun ho => ⟨?_, .inl ?_⟩
  · -- what is settled about the other queue does not depend on this one
    rw [Nic.Owed] at ho ⊢
    split at ho <;> rename_i hq
    · rw [if_pos hq]
      exact ho
    · rw [if_neg hq]
      have hvq : ((l.setVq q vq).goto (.recheck q ret)).vq 1 = l.vq 1 :=
        l.vq_setVq_of_ne (Ne.symm hq) vq
      rw [Nic.Armed, hvq]
      exact ho
  · have hvq : ((l.setVq q vq).goto (.recheck q ret)).vq q = vq := l.vq_setVq_self q vq
    rw [hvq, Vqueue.Masked, hflags, not_masked_clear]
    exact fun hne => hne rfl

theorem wakeInv_recheck (hw : l.worker = .recheck q ret) : WakeInv l' := by
  simp only [workerStep, hw, Vqueue.derefAvail] at h
  split at h
  · cases h
  rename_i avail hd
  split at hd
  · cases hd
  cases hd
  cases h
  split
  · rename_i hidx
    have hempty := Vqueue.waiting_eq_zero_iff.mpr hidx
    rw [WorkerAt.rearmed]
    split
    · -- the transmit queue is done, the receive queue is next
      rename_i hq
      refine (Steady.here l _).inv_of_not_polls hi hset rfl ?_
      intro hready
      have hc := hi.covered_at hw hready
      rw [hq.1] at hc hempty
      exact hc.imp_right fun ho => armed_of_open ho.2 hempty
    · rename_i hq
      refine (Steady.here l _).inv_of_not_polls hi hset rfl ?_
      intro hready
      refine (hi.covered_at hw hready).imp_right ?_
      rintro ⟨howed, ho⟩
      have harm := armed_of_open ho hempty
      rw [Nic.Owed] at howed
      split at howed <;> rename_i hq'
      · subst hq'
        exact ⟨harm, .inl (howed.resolve_right fun hr => hq ⟨rfl, hr⟩)⟩
      · obtain rfl : q = 0 := (by decide : ∀ q : QIdx, q ≠ 1 → q = 0) q hq'
        exact ⟨howed, .inr harm⟩
  · exact (Steady.here l _).inv_of_not_polls hi hset rfl fun _ => trivial

theorem wakeInv_remask (hw : l.worker = .remask q) : WakeInv l' := by
  simp only [workerStep, hw] at h
  obtain ⟨vq, rfl, hsteady, -⟩ := exists_of_writeFlags h
  exact hsteady.inv_of_not_polls hi hset rfl fun _ => trivial

theorem wakeInv_reschedule (hw : l.worker = .reschedule) : WakeInv l' := by
  simp only [workerStep, hw] at h
  cases h
  have hs : (napiSchedule l.napi).sched := by
    rw [sched_napiSchedule, hi.enabled]
    exact Bool.or_true _
  exact wakeInv_setNapi hi hset ((disable_napiSchedule l.napi).trans hi.enabled) rfl
    fun _ => .inl hs

/-- **A step of the worker.** -/
theorem wakeInv_poll (hfit : WorkerFinds env l l.worker) : WakeInv l' := by
  cases hw : l.worker with
  | idle => exact wakeInv_idle hi hset h hw
  | maskRx | maskTx =>
    have hsched := hi.sched_at hw rfl
    simp only [workerStep, hw] at h
    exact wakeInv_mask hi hset hsched rfl h
  | flushTx pkts => exact wakeInv_flushTx hi hset h hw
  | txLoop pkts left frames num => exact wakeInv_txLoop hi hset h hw
  | txDone pkts frames num => exact wakeInv_txDone hi hset h hw
  | pktqTx pkts events => exact wakeInv_pktqTx hi hset h hw
  | xmit pkts events bufs => exact wakeInv_xmit hi hset h hw
  | rxLoop pkts events bufs processed enqueued => exact wakeInv_rxLoop hi hset h hw hfit
  | rxDone pkts events processed enqueued => exact wakeInv_rxDone hi hset h hw
  | complete ret => exact wakeInv_complete hi hset h hw
  | rearm q ret => exact wakeInv_rearm hi hset h hw
  | clear q ret => exact wakeInv_clear hi hset h hw
  | recheck q ret => exact wakeInv_recheck hi hset h hw
  | remask q => exact wakeInv_remask hi hset h hw
  | reschedule => exact wakeInv_reschedule hi hset h hw

end

/-! ## Runs -/

/-- **What every step keeps**, of the worker and of everybody else. -/
theorem wakeInv_step {e : NicEvent} (hi : WakeInv l) (hg : Conforming l e ∧ Settled l e)
    (h : nicStep l e = .ok l') : WakeInv l' := by
  obtain ⟨hconf, hset⟩ := hg
  cases e with
  | publish q desc ring flags num nw =>
    simp only [nicStep] at h
    split at h <;> cases h
    · exact wakeInv_publish hi hconf (.inl (by assumption))
    · exact wakeInv_publish hi hconf (.inr (by assumption))
    · exact hi
  | readFlag q =>
    simp only [nicStep] at h
    split at h <;> cases h
    · exact wakeInv_readFlag hi (by assumption)
    · exact hi
  | notify q =>
    simp only [nicStep, if_neg (hi.rings q)] at h
    split at h
    · split at h
      · cases h
      rename_i vq hv
      cases h
      exact wakeInv_notify hi hv
    · cases h
      exact hi
  | notified q =>
    simp only [nicStep] at h
    split at h <;> cases h
    · exact wakeInv_notified hi
    · exact hi
  | enqueue pkts =>
    cases h
    exact wakeInv_enqueue hi pkts
  | egrNotify =>
    simp only [nicStep] at h
    split at h <;> cases h
    · exact hi
    · exact wakeInv_egrNotify hi _
  | setStatus val =>
    simp only [nicStep] at h
    split at h <;> cases h
    · exact wakeInv_setStatus hi val
    · exact hi
  | storeStatus =>
    simp only [nicStep] at h
    split at h <;> cases h
    · exact hi
    · exact wakeInv_storeStatus hi (by assumption)
  | buffers pool sec =>
    cases h
    exact wakeInv_buffers hi pool sec
  | poll env back => exact wakeInv_poll hi hset h hconf

/-- Both rings are set up and the link is up, but the driver is not ready.  The worker may be
polling already, and the others may be anywhere. -/
structure NotReadyYet (l : Nic M) : Prop where
  rings : ∀ q, (l.vq q).vringAddr ≠ 0
  enabled : l.napi.disable = false
  link : l.net.dev.vnet.status &&& virtioNetSLinkUp ≠ 0
  polls : l.worker.polls → l.napi.sched
  promising : Promising l l.worker
  status : ¬ l.Ready
  statusWrite : l.statusWrite = none

theorem NotReadyYet.wakeInv (h : NotReadyYet l) : WakeInv l := by
  refine ⟨h.rings, h.enabled, h.link, h.polls, h.promising, ?_, fun hr => absurd hr h.status⟩
  rw [h.statusWrite]
  exact nofun

/-- **No wake-up is lost** in a run of conforming parties from the set-up of the device on, as
long as the worker takes no step between the wake-up by a write of `DRIVER_OK` and the store of
that status: in every state the run leads through, a device in use that is at rest and has work
to do is scheduled. -/
theorem no_lost_wakeup_of_settled {l₀ l : Nic M} {es : List NicEvent} (h0 : NotReadyYet l₀)
    (hr : Run nicStep (fun l e => Conforming l e ∧ Settled l e) l₀ es l) :
    Always nicStep NoLostWakeup l₀ es :=
  hr.always (fun _ _ _ hi hg hs => wakeInv_step hi hg hs) (fun _ hi => hi.noLostWakeup) h0.wakeInv

/-! ### Runs of a device that is being started -/

/-- A device with both rings and one packet for the normal world, in front of the write that
makes the driver ready. -/
def Nic.sample : Nic Unit where
  net := { Net.running .zero .zero with dev := (Net.running .zero .zero).dev.setStatus 0x0b }
  egress := ⟨0, 1, 1, 256, fun _ => some 0⟩
  worker := .idle
  driver _ := .quiet
  enqueues := 0
  statusWrite := none

theorem notReadyYet_sample : NotReadyYet Nic.sample :=
  ⟨by decide, rfl, by decide, nofun, trivial, by decide, rfl⟩

/-- The driver publishes one chain of a descriptor. -/
def publishOne (q : QIdx) (d : VringDesc) : NicEvent :=
  .publish q (fun _ => d) (fun _ => 0) 0 1 fun _ => 0

/-- The driver publishes a chain and goes through with the notification. -/
def publishAndNotify (q : QIdx) (d : VringDesc) : List NicEvent :=
  [publishOne q d, .readFlag q, .notify q, .notified q]

/-- The worker takes `n` steps. -/
def pollSteps (n : ℕ) : List NicEvent := List.replicate n (.poll .board [])

/-- A chain is transmitted, the packet finds no receive chain, the poll is repeated because of
the notification, and both queues are rearmed; the receive chain that comes then wakes the
device. -/
def startAndServe : List NicEvent :=
  [.setStatus 0x0f, .storeStatus] ++ publishAndNotify 1 ⟨0x20000000, 72, 0, 0⟩ ++ pollSteps 25 ++
    publishAndNotify 0 ⟨0x20001000, 2060, 2, 0⟩

theorem no_lost_wakeup_startAndServe :
    (∃ l, Run nicStep (fun _ _ => True) Nic.sample startAndServe l ∧ l.InUse ∧ l.AtRest ∧
      l.HasWork ∧ l.napi.sched) ∧
      Always nicStep NoLostWakeup Nic.sample startAndServe := by
  obtain ⟨l, hr, hend⟩ : ∃ l, Run nicStep (fun l e => Conforming l e ∧ Settled l e) Nic.sample
      startAndServe l ∧ decide (l.InUse ∧ l.AtRest ∧ l.HasWork ∧ l.napi.sched) = true :=
    exists_run_of_exec (by decide +kernel)
  exact ⟨⟨l, hr.mono fun _ _ _ => trivial, of_decide_eq_true hend⟩,
    no_lost_wakeup_of_settled notReadyYet_sample hr⟩

/-- The write of `DRIVER_OK` wakes the device, a whole poll runs before the status is stored, and
the driver that posts a receive chain then finds the flag set: the packet and the chain stay
where they are. -/
theorem lost_wakeup :
    ∃ l, Run nicStep Conforming Nic.sample
        ([.setStatus 0x0f] ++ pollSteps 10 ++
          [.storeStatus, publishOne 0 ⟨0x20001000, 2060, 2, 0⟩, .readFlag 0]) l ∧
      l.InUse ∧ l.AtRest ∧ l.HasWork ∧ ¬ l.napi.sched := by
  obtain ⟨l, hr, hend⟩ : ∃ l, Run nicStep Conforming Nic.sample
        ([.setStatus 0x0f] ++ pollSteps 10 ++
          [.storeStatus, publishOne 0 ⟨0x20001000, 2060, 2, 0⟩, .readFlag 0]) l ∧
      decide (l.InUse ∧ l.AtRest ∧ l.HasWork ∧ ¬ l.napi.sched) = true :=
    exists_run_of_exec (by decide +kernel)
  exact ⟨l, hr, of_decide_eq_true hend⟩

end TrustedGateway
