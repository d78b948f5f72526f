import TrustedGateway.Mmio.DeviceInv
import TrustedGateway.Mmio.QueueReady
import TrustedGateway.VirtioNet.Chain
import TrustedGateway.Vnic

/-!
# Polls and the rings they need

A poll writes to both used rings before it looks whether there are any.  It is triggered by a
status write, by a queue notification and by a routed packet; only the second of these looks at
a ring, and only at its own.  A reset and a failed set-up take rings away without waiting for
the poll.

## Main results

* `vnicPollStep_gives` — with both rings in place the worker never meets a null ring pointer,
  and leaves the rings in place.
* `pollSafe_always` — every run that keeps to `triggerGuard` is safe.
-/

namespace TrustedGateway

open StepSystem BatchLoop

variable {M : Type}

/-! ## Queues -/

/-- The ring pointers are not null. -/
structure Vqueue.Present (vq : Vqueue) : Prop where
  avail : vq.vring.avail ≠ 0
  used : vq.vring.used ≠ 0

/-- The ring of a queue stays where it is. -/
structure KeepsRing (vq vq' : Vqueue) : Prop where
  vring : vq'.vring = vq.vring
  addr : vq'.vringAddr = vq.vringAddr
  align : vq'.vringAlign = vq.vringAlign

theorem KeepsRing.refl (vq : Vqueue) : KeepsRing vq vq := ⟨rfl, rfl, rfl⟩

theorem KeepsRing.trans {vq₁ vq₂ vq₃ : Vqueue} (h₁ : KeepsRing vq₁ vq₂)
    (h₂ : KeepsRing vq₂ vq₃) : KeepsRing vq₁ vq₃ :=
  ⟨h₂.vring.trans h₁.vring, h₂.addr.trans h₁.addr, h₂.align.trans h₁.align⟩

variable {d d' : Dev M} {q : QIdx} {v : Vnic M} {vq : Vqueue} {w : Net M}

theorem Vqueue.Present.of_keeps {vq' : Vqueue} (h : vq.Present) (hk : KeepsRing vq vq') :
    vq'.Present := by
  constructor
  · rw [hk.vring]
    exact h.avail
  · rw [hk.vring]
    exact h.used

/-- The computation does not dereference a null ring pointer, and its results meet `Q`. -/
abbrev NotNull {α : Type*} (Q : α → Prop) : Except Abort α → Prop := Gives (· ≠ .nullDeref) Q

theorem derefAvail_gives (h : vq.Present) : NotNull (fun _ => True) vq.derefAvail := by
  rw [Vqueue.derefAvail, if_neg h.avail]
  trivial

theorem setUsedFlags_gives (h : vq.Present) (f : Half → Half) :
    NotNull (KeepsRing vq) (vq.setUsedFlags f) := by
  rw [Vqueue.setUsedFlags, if_neg h.used]
  exact ⟨rfl, rfl, rfl⟩

theorem numOfAvailBuf_gives (h : vq.Present) :
    NotNull (fun _ => True) (vqueueNumOfAvailBuf vq) := by
  rw [vqueueNumOfAvailBuf]
  refine Gives.elim (derefAvail_gives h) (fun e he => he) ?_
  intro avail _
  trivial

theorem numOfAvailBufAndNotify_gives (h : vq.Present) :
    NotNull (fun p => KeepsRing vq p.2) (vqueueNumOfAvailBufAndNotify vq) := by
  have mask : ∀ vq', KeepsRing vq vq' → ∀ n : Half, NotNull (fun p => KeepsRing vq p.2)
      (vq'.setUsedFlags (· ||| vringUsedFNoNotify) >>= fun vq'' => pure (n, vq'')) := by
    intro vq' hk n
    refine Gives.elim (setUsedFlags_gives (h.of_keeps hk) _) (fun e he => he) ?_
    intro vq'' hk'
    exact hk.trans hk'
  rw [vqueueNumOfAvailBufAndNotify]
  refine Gives.elim (derefAvail_gives h) (fun e he => he) ?_
  intro avail _
  dsimp only [bind, Except.bind]
  split
  · refine Gives.elim (setUsedFlags_gives h _) (fun e he => he) ?_
    intro vq₁ hk₁
    dsimp only
    refine Gives.elim (derefAvail_gives (h.of_keeps hk₁)) (fun e he => he) ?_
    intro avail' _
    dsimp only
    split
    · exact hk₁
    · exact mask vq₁ hk₁ _
  · exact mask vq (.refl vq) _

theorem getAvailBuf_gives (h : vq.Present) (cntIn cntOut : ℕ) :
    NotNull (fun p => KeepsRing vq p.2.2)
      (vqueueGetAvailBuf vq (VqueueBuf.empty cntIn cntOut)) := by
  refine Gives.elim (getAvailBuf_spec vq cntIn cntOut) ?_ ?_
  · intro e he hn
    exact h.avail (he hn)
  · rintro ⟨ret, buf, vq'⟩ (⟨hq, -⟩ | ht)
    · show KeepsRing vq vq'
      rw [show vq' = vq from hq]
      exact .refl vq
    · show KeepsRing vq vq'
      rw [show vq' = vq.took from ht.queue]
      exact ⟨rfl, rfl, rfl⟩

theorem addBuf_gives (h : vq.Present) (buf : VqueueBuf) (len : Word) :
    NotNull (fun p => KeepsRing vq p.2) (vqueueAddBuf vq buf len) := by
  rw [vqueueAddBuf]
  split
  · exact .refl vq
  split
  · exact .refl vq
  rw [if_neg h.used]
  exact ⟨rfl, rfl, rfl⟩

/-! ## The two calls -/

theorem linearizeCopy_gives (eb : BufId → EthBuf) (dst : BufId) (cs : List BufId)
    (b : Option ℕ) (sec : SecMem) :
    NotNull (fun _ => True) (linearizeCopy eb dst cs b sec) := by
  induction cs generalizing b sec with
  | nil => trivial
  | cons c cs ih =>
    simp only [linearizeCopy]
    split
    · exact ih _ _
    · intro h
      cases h
    · exact ih _ _

theorem ethbufLinearize_gives (p : EthPool) (sec : SecMem) (b : BufId) :
    NotNull (fun _ => True) (ethbufLinearize p sec b) := by
  rw [ethbufLinearize]
  split
  · trivial
  split
  · intro h
    cases h
  dsimp only
  split
  · trivial
  · refine Gives.elim (linearizeCopy_gives _ _ _ _ _) (fun e he => he) ?_
    intro sec' _
    trivial

theorem rxPrepare_gives (s : RxState) (ob : Option BufId) :
    NotNull (fun p => p.2.vq = s.vq) (rxPrepare s ob) := by
  cases ob with
  | none => exact rfl
  | some b =>
    have hl := ethbufLinearize_gives s.pool s.sec b
    rw [rxPrepare]
    generalize ethbufLinearize s.pool s.sec b = x at hl ⊢
    rcases x with e | ⟨ret, pool, sec⟩
    · exact hl
    · dsimp only
      split
      · exact rfl
      split <;> exact rfl

theorem rxBody_gives (h : vq.Present) (env : Env) (rxBurst : Word) (s : RxState) (ob : Option BufId)
    (hs : KeepsRing vq s.vq) :
    NotNull (fun p => KeepsRing vq p.2.vq) (rxBody env rxBurst s ob) := by
  rw [rxBody]
  refine Gives.elim (rxPrepare_gives s ob) (fun e he => he) ?_
  rintro ⟨_ | b, s'⟩ (hs' : s'.vq = s.vq)
  · show KeepsRing vq s'.vq
    rwa [hs']
  have hk : KeepsRing vq s'.vq := by rwa [hs']
  simp only [rxDeliver]
  refine Gives.elim (getAvailBuf_gives (h.of_keeps hk) _ _) (fun e he => he) ?_
  rintro ⟨ret, buf, vq₁⟩ hg
  have hk₁ : KeepsRing vq vq₁ := hk.trans hg
  dsimp only
  split
  · exact hk₁
  refine Gives.elim (addBuf_gives (h.of_keeps hk₁) _ _) (fun e he => he) ?_
  rintro ⟨_, vq₂⟩ ha
  have hk₂ : KeepsRing vq vq₂ := hk₁.trans ha
  dsimp only
  split <;> exact hk₂

theorem bufAlloc_gives (p : EthPool) : NotNull (fun _ => True) p.bufAlloc := by
  rw [EthPool.bufAlloc]
  split
  · intro h
    cases h
  · trivial

theorem txBody_gives (h : vq.Present) (env : Env) (nw : ℕ → Byte) (s : TxState) (k : ℕ)
    (hs : KeepsRing vq s.vq) : NotNull (fun p => KeepsRing vq p.2.vq) (txBody env nw s k) := by
  rw [txBody]
  refine Gives.elim (bufAlloc_gives s.pool) (fun e he => he) ?_
  rintro ⟨b, pool⟩ -
  dsimp only
  refine Gives.elim (getAvailBuf_gives (h.of_keeps hs) _ _) (fun e he => he) ?_
  rintro ⟨ret, buf, vq₁⟩ hg
  have hk₁ : KeepsRing vq vq₁ := hs.trans hg
  dsimp only
  split
  · exact hs
  split
  · exact hk₁
  split
  · exact hk₁
  refine Gives.elim (addBuf_gives (h.of_keeps hk₁) _ _) (fun e he => he) ?_
  rintro ⟨_, vq₂⟩ ha
  have hk₂ : KeepsRing vq vq₂ := hk₁.trans ha
  dsimp only
  split <;> exact hk₂

/-! ## Devices -/

/-- Both rings are set up. -/
def Dev.RingsUp (d : Dev M) : Prop := ∀ q, (d.vdev.vq q).vringAddr ≠ 0

instance (d : Dev M) : Decidable d.RingsUp := inferInstanceAs (Decidable (∀ _, _))

theorem Dev.RingsUp.update (h : d.RingsUp) (q : QIdx) (hv : vq.vringAddr ≠ 0) (q' : QIdx) :
    (Function.update d.vdev.vq q vq q').vringAddr ≠ 0 :=
  (forall_update_iff (P := fun vq => vq.vringAddr ≠ 0) h q vq).mpr hv q'

/-- What the worker leaves alone: the rings, and the identity of the device. -/
structure KeepsRings (d d' : Dev M) : Prop where
  vnet : d'.vnet = d.vnet
  hostFeatures : d'.vdev.hostFeatures = d.vdev.hostFeatures
  generation : d'.vdev.generation = d.vdev.generation
  deviceId : d'.vdev.deviceId = d.vdev.deviceId
  ring : ∀ q, KeepsRing (d.vdev.vq q) (d'.vdev.vq q)

theorem KeepsRings.refl (d : Dev M) : KeepsRings d d := ⟨rfl, rfl, rfl, rfl, fun _ => .refl _⟩

theorem KeepsRings.trans {d₁ d₂ d₃ : Dev M} (h₁ : KeepsRings d₁ d₂) (h₂ : KeepsRings d₂ d₃) :
    KeepsRings d₁ d₃ where
  vnet := h₂.vnet.trans h₁.vnet
  hostFeatures := h₂.hostFeatures.trans h₁.hostFeatures
  generation := h₂.generation.trans h₁.generation
  deviceId := h₂.deviceId.trans h₁.deviceId
  ring q := (h₁.ring q).trans (h₂.ring q)

theorem KeepsRings.of_quiet (h : Quiet d d') : KeepsRings d d' := by
  refine ⟨h.vnet, h.hostFeatures, h.generation, h.deviceId, ?_⟩
  intro q
  rw [h.vq]
  exact .refl _

theorem KeepsRings.setVq (d : Dev M) (h : KeepsRing (d.vdev.vq q) vq) :
    KeepsRings d (d.setVq q vq) := by
  refine ⟨rfl, rfl, rfl, rfl, ?_⟩
  intro q'
  by_cases hq : q' = q
  · subst hq
    rw [vq_setVq_self]
    exact h
  · rw [vq_setVq_of_ne d hq]
    exact .refl _

theorem KeepsRings.deviceInv (h : KeepsRings d d') (hi : DeviceInv d) : DeviceInv d' := by
  refine ⟨h.hostFeatures.trans hi.hostFeatures, h.generation.trans hi.generation,
    h.deviceId.trans hi.deviceId, ?_, ?_, ?_⟩
  · rw [h.vnet]
    exact hi.linkStatus
  · rw [h.vnet]
    exact hi.config
  · intro q
    exact (hi.queue q).congr (h.ring q).vring (h.ring q).addr (h.ring q).align

theorem KeepsRings.ringsUp (h : KeepsRings d d') (hu : d.RingsUp) : d'.RingsUp := by
  intro q
  rw [(h.ring q).addr]
  exact hu q

theorem quiet_virtioNotify (d : Dev M) : Quiet d (virtioNotify d) := by
  refine Quiet.trans ?_ (quiet_vnicKickNw _)
  rw [virtioSetIsr]
  split
  · exact .refl d
  · exact ⟨rfl, rfl, rfl, rfl, rfl, fun _ => rfl, rfl, rfl, rfl, rfl⟩

theorem vnicVqKickCb_gives (h : (d.vdev.vq q).Present) :
    NotNull (KeepsRings d) (vnicVqKickCb d q) := by
  rw [vnicVqKickCb]
  refine Gives.elim (derefAvail_gives h) (fun e he => he) ?_
  intro avail _
  dsimp only
  split
  · exact .of_quiet (quiet_virtioNotify d)
  · exact .refl d

theorem virtioNetReceive_gives (env : Env) (h : (w.dev.vdev.vq 0).Present)
    (bufs : List (Option BufId)) :
    NotNull (fun p => KeepsRings w.dev p.2.dev) (virtioNetReceive env w bufs) := by
  rw [virtioNetReceive]
  split
  · exact .refl _
  refine Gives.elim (numOfAvailBuf_gives h) (fun e he => he) ?_
  intro space _
  dsimp only
  split
  · exact .refl _
  split
  · exact .refl _
  have hb := batch_gives (fun t a ht => rxBody_gives h env w.dev.vnet.rxBurst t a ht) bufs
    w.rxStart (.refl _)
  refine Gives.elim hb (fun e he => he) ?_
  rintro ⟨_, s⟩ hs
  have hk : KeepsRings w.dev (w.rxFinish s).dev := .setVq w.dev hs
  dsimp only
  split
  · refine Gives.elim (vnicVqKickCb_gives (h.of_keeps (hk.ring 0))) (fun e he => he) ?_
    intro d hd
    exact hk.trans hd
  · exact hk

theorem virtioNetFlushTx_gives (env : Env) (h : (w.dev.vdev.vq 1).Present) :
    NotNull (fun p => KeepsRings w.dev p.2.dev) (virtioNetFlushTx env w) := by
  rw [virtioNetFlushTx]
  split
  · exact .refl _
  refine Gives.elim (numOfAvailBuf_gives h) (fun e he => he) ?_
  intro dataAvail _
  dsimp only
  split
  · exact .refl _
  split
  · exact .refl _
  split
  · exact .refl _
  have hb := batch_gives (fun t a ht => txBody_gives h env w.nw t a ht)
    (List.range (max (txBurst env w.dev dataAvail) 1)) w.txStart (.refl _)
  refine Gives.elim hb (fun e he => he) ?_
  rintro ⟨o, s⟩ hs
  have hk : KeepsRings w.dev (w.txFinish s).dev := .setVq w.dev hs
  cases o with
  | some ret => exact hk
  | none =>
    dsimp only
    split
    · refine Gives.elim (vnicVqKickCb_gives (h.of_keeps (hk.ring 1))) (fun e he => he) ?_
      intro d hd
      exact hk.trans hd
    · exact hk

/-! ## The worker -/

/-- What the worker does next does not dereference a null ring pointer. -/
def PollSafe (v : Vnic M) : Prop := ∀ env, vnicPollStep env v ≠ .error .nullDeref

theorem maskQueue_gives (h : (v.net.dev.vdev.vq q).Present) (p : PollAt) :
    NotNull (fun v' => KeepsRings v.net.dev v'.net.dev) (maskQueue v q p) := by
  rw [maskQueue]
  refine Gives.elim (setUsedFlags_gives h _) (fun e he => he) ?_
  intro vq hk
  exact .setVq v.net.dev hk

theorem rearmQueue_gives (h : (v.net.dev.vdev.vq q).Present) (p : PollAt) :
    NotNull (fun v' => KeepsRings v.net.dev v'.net.dev) (rearmQueue v q p) := by
  rw [rearmQueue]
  refine Gives.elim (numOfAvailBufAndNotify_gives h) (fun e he => he) ?_
  rintro ⟨num, vq⟩ hk
  have hs : KeepsRings v.net.dev (v.net.dev.setVq q vq) := .setVq v.net.dev hk
  dsimp only
  split
  · exact { hs with }
  · exact hs

theorem routerPktqTx_gives (env : Env) (h : (w.dev.vdev.vq 0).Present) (pq : PktQueue) :
    NotNull (fun p => KeepsRings w.dev p.2.1.dev) (routerPktqTx env w pq) := by
  rw [routerPktqTx]
  split
  · exact .refl _
  have hx : NotNull (fun p => KeepsRings w.dev p.2.dev)
      (vnicXmitHandler env w (pq.window pq.contigBufs)) := by
    rw [vnicXmitHandler]
    split
    · exact .refl _
    · exact virtioNetReceive_gives env h _
  refine Gives.elim hx (fun e he => he) ?_
  rintro ⟨sent, w'⟩ hk
  exact hk

/-- **The worker on a device with both rings.** -/
theorem vnicPollStep_gives (env : Env) (h : ∀ q, (v.net.dev.vdev.vq q).Present) :
    NotNull (fun v' => KeepsRings v.net.dev v'.net.dev) (vnicPollStep env v) := by
  rw [vnicPollStep]
  split
  · split
    · exact { KeepsRings.refl v.net.dev with }
    · exact .refl _
  · exact maskQueue_gives (h 0) _
  · exact maskQueue_gives (h 1) _
  · refine Gives.elim (virtioNetFlushTx_gives env (h 1)) (fun e he => he) ?_
    rintro ⟨ret, w⟩ hk
    exact hk
  · refine Gives.elim (routerPktqTx_gives env (h 0) v.egress) (fun e he => he) ?_
    rintro ⟨ret, w, pq⟩ hk
    exact hk
  · exact { KeepsRings.refl v.net.dev with }
  · exact rearmQueue_gives (h 1) _
  · exact rearmQueue_gives (h 0) _

/-! ## Triggers -/

/-- A poll is pending or running. -/
def Vnic.Busy (v : Vnic M) : Prop := v.net.dev.napi.sched = true ∨ v.worker ≠ .idle

instance (v : Vnic M) : Decidable v.Busy := inferInstanceAs (Decidable (_ ∨ _))

/-- The steps that keep polls and rings together.  A status write that starts the driver, a
notification of a queue that is up, and a routed packet trigger a poll, and are made only while
both rings are up.  A reset, and a set-up that would leave the queue without a ring, are made
only while no poll is pending or running. -/
def triggerGuard (mmu : CoreMmu M) (v : Vnic M) : VnicEvent → Prop
  | .mmio a =>
    match a.target with
    | some (.status, x) =>
      (x.setWidth 8 &&& virtioConfigSDriverOk ≠ 0 → v.net.dev.RingsUp) ∧
        (x.setWidth 8 = (0 : Byte) → ¬ v.Busy)
    | some (.queueNotify, x) =>
      ∀ q : QIdx, q.val = x.toNat → (v.net.dev.vdev.vq q).vringAddr ≠ 0 → v.net.dev.RingsUp
    | some (.queueReady, x) =>
      let q := v.net.dev.vdev.queueSel
      x ≠ 0 → v.Busy →
        RingAfterReady mmu v.net.dev.mmu (v.net.dev.vdev.vq q) (v.net.dev.mmio.vqs q)
    | _ => True
  | .enqueue own pkts =>
    own = false → pkts ≠ [] → ¬ v.egress.isFull → v.net.dev.RingsUp
  | .guest .. => True
  | .poll _ => True

instance (mmu : CoreMmu M) (v : Vnic M) (e : VnicEvent) : Decidable (triggerGuard mmu v e) := by
  cases e with
  | mmio a =>
    dsimp only [triggerGuard]
    generalize a.target = o
    rcases o with _ | ⟨r, x⟩
    · exact .isTrue trivial
    · cases r <;> dsimp only <;> infer_instance
  | enqueue own pkts => exact inferInstanceAs (Decidable (_ → _ → _ → _))
  | guest shared nw | poll env => exact .isTrue trivial

/-- The invariant: whenever a poll is pending or running, both rings are there. -/
structure PollInv (v : Vnic M) : Prop where
  device : DeviceInv v.net.dev
  busy : v.Busy → v.net.dev.RingsUp

theorem PollInv.present (h : PollInv v) (hb : v.Busy) (q : QIdx) :
    (v.net.dev.vdev.vq q).Present := by
  obtain ⟨ha, hu⟩ := (h.device.queue q).up (h.busy hb q)
  exact ⟨ha, hu⟩

theorem vnicPollStep_of_not_busy (env : Env) (h : ¬ v.Busy) : vnicPollStep env v = .ok v := by
  rw [Vnic.Busy, not_or, not_not, Bool.not_eq_true] at h
  simp only [vnicPollStep, h.1, h.2, Bool.false_eq_true, if_false]

theorem PollInv.safe (h : PollInv v) : PollSafe v := by
  intro env he
  by_cases hb : v.Busy
  · have hg := vnicPollStep_gives env (h.present hb)
    rw [he] at hg
    exact hg rfl
  · rw [vnicPollStep_of_not_busy env hb] at he
    cases he

/-! ## Steps -/

theorem pollInv_poll {env : Env} {v' : Vnic M} (h : PollInv v) (hs : vnicPollStep env v = .ok v') :
    PollInv v' := by
  by_cases hb : v.Busy
  · have hg := vnicPollStep_gives env (h.present hb)
    rw [hs] at hg
    exact ⟨hg.deviceInv h.device, fun _ => hg.ringsUp (h.busy hb)⟩
  · rw [vnicPollStep_of_not_busy env hb] at hs
    cases hs
    exact h

theorem keepsRings_guestWrites (v : Vnic M) (shared : QIdx → RingMem) (nw : ℕ → Byte) :
    KeepsRings v.net.dev (guestWrites v shared nw).net.dev :=
  ⟨rfl, rfl, rfl, rfl, fun _ => ⟨rfl, rfl, rfl⟩⟩

theorem pollInv_guest (h : PollInv v) (shared : QIdx → RingMem) (nw : ℕ → Byte) :
    PollInv (guestWrites v shared nw) :=
  have hk := keepsRings_guestWrites v shared nw
  ⟨hk.deviceInv h.device, fun hb => hk.ringsUp (h.busy hb)⟩

theorem pollInv_enqueue {own : Bool} {pkts : List BufId} (h : PollInv v)
    (hg : own = false → pkts ≠ [] → ¬ v.egress.isFull → v.net.dev.RingsUp) :
    PollInv (pktqDoMenqueue v own pkts) := by
  rw [pktqDoMenqueue]
  dsimp only [PktQueue.bulkAddBuff]
  split
  · exact ⟨h.device, h.busy⟩
  · rename_i hn
    rw [not_or, Bool.not_eq_true] at hn
    have hu : v.net.dev.RingsUp := by
      refine hg hn.2 ?_ ?_
      · rintro rfl
        exact hn.1 (Nat.zero_min _)
      · intro hfull
        have hle : v.egress.capacity ≤ v.egress.count := of_decide_eq_true hfull
        exact hn.1 (by omega)
    exact ⟨{ h.device with }, fun _ => hu⟩

/-- A register access under the guard keeps polls and rings together. -/
theorem ringsUp_mmio {mmu : CoreMmu M} {a : Access} (h : PollInv v)
    (hg : triggerGuard mmu v (.mmio a)) (hs : mmioStep mmu v.net.dev a = .ok d)
    (hb : d.napi.sched = true ∨ v.worker ≠ .idle) : d.RingsUp := by
  have he := effect_of_mmioStep hs
  rw [triggerGuard] at hg
  generalize a.target = o at he hg
  cases he with
  | num x =>
    have hu := h.busy hb
    refine hu.update _ ?_
    rw [vringAddr_virtioQueueSetNumVq]
    exact hu _
  | ready x =>
    by_cases hx : x = 0
    · rw [writeQueueReady_of_zero mmu _ hx] at hb ⊢
      exact h.busy hb
    · rw [writeQueueReady_of_ne mmu _ hx] at hb ⊢
      refine (h.busy hb).update _ ?_
      exact (ringAfterReady_iff mmu _ _ _).mpr (hg hx hb)
  | notify x q hn hq =>
    have hk : ∀ q', (d.vdev.vq q').vringAddr = (v.net.dev.vdev.vq q').vringAddr := by
      intro q'
      exact (vring_virtioQueueNotify hn q').2.1
    have hu : v.net.dev.RingsUp := by
      by_cases hup : (v.net.dev.vdev.vq q).vringAddr = 0
      · rw [virtioQueueNotify, if_pos hup] at hn
        cases hn
        exact h.busy hb
      · exact hg q hq hup
    intro q'
    rw [hk q']
    exact hu q'
  | status x hw =>
    have hst := statusWritten_of_writeStatus hw
    by_cases hz : x.setWidth 8 = (0 : Byte)
    · -- a reset triggers nothing, and no poll was under way
      have hn := hst.napi
      rw [hz, virtioNetStarted_zero] at hn
      rw [hn] at hb
      exact absurd hb (hg.2 hz)
    · have hu : v.net.dev.RingsUp := by
        have hn := hst.napi
        by_cases hd : virtioNetStarted v.net.dev.vnet (x.setWidth 8) = true
        · simp only [virtioNetStarted, decide_eq_true_eq] at hd
          exact hg.1 hd.1
        · rw [if_neg hd] at hn
          rw [hn] at hb
          exact h.busy hb
      intro q
      rw [hst.vq, if_neg hz]
      exact hu q
  | quiet o hq _ _ _ =>
    rw [hq.napi] at hb
    exact (KeepsRings.of_quiet hq).ringsUp (h.busy hb)

theorem pollInv_step {mmu : CoreMmu M} {v' : Vnic M} {e : VnicEvent} (h : PollInv v)
    (hg : triggerGuard mmu v e) (hs : vnicStep mmu v e = .ok v') : PollInv v' := by
  cases e with
  | mmio a =>
    rw [vnicStep] at hs
    split at hs
    · cases hs
    · rename_i d hd
      cases hs
      exact ⟨deviceInv_mmioStep h.device hd, fun hb => ringsUp_mmio h hg hd hb⟩
  | guest shared nw =>
    cases hs
    exact pollInv_guest h shared nw
  | enqueue own pkts =>
    cases hs
    exact pollInv_enqueue h hg
  | poll env => exact pollInv_poll h hs

theorem pollInv_init (m : M) (shared : QIdx → RingMem) (pool : EthPool) (sec : SecMem)
    (nw : ℕ → Byte) (egress : PktQueue) : PollInv (Vnic.init m shared pool sec nw egress) := by
  refine ⟨deviceInv_init m shared, ?_⟩
  rintro (hb | hb)
  · cases hb
  · exact absurd rfl hb

/-- **Polls along runs.**  However the normal world, the router and the worker are interleaved,
if every step of the run meets the guard then in every state of the run the worker can go on
without dereferencing a null ring pointer. -/
theorem pollSafe_always (mmu : CoreMmu M) (m : M) (shared : QIdx → RingMem) (pool : EthPool)
    (sec : SecMem) (nw : ℕ → Byte) (egress : PktQueue) (es : List VnicEvent) (v : Vnic M)
    (h : Run (vnicStep mmu) (triggerGuard mmu) (Vnic.init m shared pool sec nw egress) es v) :
    Always (vnicStep mmu) PollSafe (Vnic.init m shared pool sec nw egress) es := by
  refine h.always (I := PollInv) ?_ ?_ ?_
  · intro s i s' hi hg hs
    exact pollInv_step hi hg hs
  · intro s hi
    exact hi.safe
  · exact pollInv_init m shared pool sec nw egress

/-- The board, freshly started, with room for four packets in the egress queue. -/
def Vnic.board : Vnic Unit :=
  .init () (fun _ => .zero) .sample (fun _ _ => 0) (fun _ => 0) ⟨0, 0, 0, 4, fun _ => none⟩

/-- A driver sets up the selected queue at `addr`. -/
def setUpQueueAt (q addr : Word) : List Access :=
  [.toReg .queueSel q, .toReg .queueNum 256, .toReg .queueDescLow addr,
    .toReg .queueAvailLow (addr + 0x1000), .toReg .queueUsedLow (addr + 0x2000),
    .toReg .queueReady 1]

/-- A driver starts, a packet is routed to it, and the worker polls.  The packet came while a
poll was pending, so the worker polls once more, up to the point where it asks for receive
buffers. -/
def startAndPoll : List VnicEvent :=
  (setUpQueueAt 0 0x10000000 ++ setUpQueueAt 1 0x10010000 ++ [Access.toReg .status 4]).map .mmio ++
    .enqueue false [0] :: List.replicate 13 (.poll .board)

theorem pollSafe_startAndPoll :
    ∃ v, Run (vnicStep flatMmu) (triggerGuard flatMmu) Vnic.board startAndPoll v ∧
      v.worker = .rearmRx ∧ Always (vnicStep flatMmu) PollSafe Vnic.board startAndPoll := by
  obtain ⟨v, hv, hw⟩ : ∃ v, Run (vnicStep flatMmu) (triggerGuard flatMmu) Vnic.board
      startAndPoll v ∧ v.worker = .rearmRx := exists_run_of_exec (by decide)
  exact ⟨v, hv, hw, pollSafe_always flatMmu () _ _ _ _ _ _ v hv⟩

/-- A packet is routed towards the device before its driver has set up a queue. -/
theorem not_pollSafe_of_early_packet :
    ¬ ∀ es v, Run (vnicStep flatMmu) (fun _ _ => True) Vnic.board es v → PollSafe v := by
  intro h
  obtain ⟨v, hv, hw⟩ : ∃ v, Run (vnicStep flatMmu) (fun _ _ => True) Vnic.board
      [.enqueue false [0], .poll .board] v ∧
      (v.worker, (v.net.dev.vdev.vq 0).vring.used) = (.maskRx, 0) :=
    exists_run_of_exec (by decide)
  simp only [Prod.mk.injEq] at hw
  apply h _ v hv .board
  simp only [vnicPollStep, hw.1, maskQueue, Vqueue.setUsedFlags, if_pos hw.2]

end TrustedGateway
