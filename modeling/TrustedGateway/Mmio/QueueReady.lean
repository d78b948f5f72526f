import TrustedGateway.Mmio.RingLayout

/-!
# What `QUEUE_READY` tells the driver

The register file keeps an `enabled` bit per queue, the queue itself keeps the address of
its ring.  The bit is set whether or not the set-up succeeds, and cleared without a
tear-down, so the two can part.  `readyGuard` says for which accesses they do not.
-/

namespace TrustedGateway

open StepSystem

variable {M : Type}

/-- Select a queue and read `QUEUE_READY`. -/
def queueReadyRead (mmu : CoreMmu M) (d : Dev M) (q : QIdx) : Except Abort (Option Word) :=
  match mmioStep mmu d (.toReg .queueSel (BitVec.ofNat 32 q.val)) with
  | .error a => .error a
  | .ok d =>
    match vnicEmuCheck mmu d (.read Reg.queueReady.offset 4 false) with
    | .error a => .error a
    | .ok (v, _) => .ok v

/-- `QUEUE_READY` of every queue reads as one exactly when its ring is set up. -/
def ReadyTruthful (mmu : CoreMmu M) (d : Dev M) : Prop :=
  ∀ q, queueReadyRead mmu d q = .ok (some (if (d.vdev.vq q).vringAddr ≠ 0 then 1 else 0))

theorem mmioStep_queueSel (mmu : CoreMmu M) (d : Dev M) (q : QIdx) :
    mmioStep mmu d (.toReg .queueSel (BitVec.ofNat 32 q.val)) =
      .ok { d with vdev := { d.vdev with queueSel := q } } := by
  have hq : (BitVec.ofNat 32 q.val).toNat = q.val := by
    rw [BitVec.toNat_ofNat]
    omega
  simp only [mmioStep, vnicEmuCheck, vnicHandleMmioWrite, if_neg (Reg.offset_lt _),
    Reg.ofOffset_offset, ne_eq, not_true, if_false, hq, dif_pos q.isLt]

theorem queueReadyRead_eq (mmu : CoreMmu M) (d : Dev M) (q : QIdx) :
    queueReadyRead mmu d q = .ok (some (if (d.mmio.vqs q).enabled then 1 else 0)) := by
  simp only [queueReadyRead, mmioStep_queueSel, vnicEmuCheck, vnicHandleMmioRead,
    if_neg (Reg.offset_lt _), Reg.ofOffset_offset]
  rfl

/-- The register tells the truth when the two notions of an enabled queue agree. -/
theorem readyTruthful_iff (mmu : CoreMmu M) (d : Dev M) :
    ReadyTruthful mmu d ↔
      ∀ q, ((d.mmio.vqs q).enabled = true ↔ (d.vdev.vq q).vringAddr ≠ 0) := by
  refine forall_congr' fun q => ?_
  rw [queueReadyRead_eq]
  by_cases he : (d.mmio.vqs q).enabled = true <;>
    by_cases ha : (d.vdev.vq q).vringAddr = 0 <;> simp [he, ha]

/-! ## Set-up -/

/-- Enabling a queue leaves it with a ring: the set-up succeeds, or it ends before it has
touched a ring that was there. -/
def RingAfterReady (mmu : CoreMmu M) (m : M) (vq : Vqueue) (r : MmioQueue) : Prop :=
  let sized := virtioQueueSetNumVq vq r.num.toNat
  if sized.vring.num = 0 ∨ setupVaddr mmu m sized r.desc.paddr = 0 then vq.vringAddr ≠ 0
  else RingLayoutOk mmu (setupMmu mmu m sized r.desc.paddr) (setupVaddr mmu m sized r.desc.paddr)
    sized.vring.num sized.vringAlign r.avail.paddr r.used.paddr

instance (mmu : CoreMmu M) (m : M) (vq : Vqueue) (r : MmioQueue) :
    Decidable (RingAfterReady mmu m vq r) := by
  unfold RingAfterReady
  infer_instance

theorem vringAddr_virtioQueueSetNumVq (vq : Vqueue) (num : ℤ) :
    (virtioQueueSetNumVq vq num).vringAddr = vq.vringAddr := by
  unfold virtioQueueSetNumVq
  split <;> rfl

theorem ringAfterReady_iff (mmu : CoreMmu M) (m : M) (vq : Vqueue) (r : MmioQueue) :
    (readyVq mmu m vq r).vringAddr ≠ 0 ↔ RingAfterReady mmu m vq r := by
  unfold readyVq RingAfterReady
  have ha := vringAddr_virtioQueueSetNumVq vq r.num.toNat
  generalize virtioQueueSetNumVq vq r.num.toNat = sized at ha
  by_cases h0 : sized.vring.num = 0
  · simp only [h0, if_true, true_or, ha]
  · by_cases hv : setupVaddr mmu m sized r.desc.paddr = 0
    · simp only [h0, hv, if_false, or_true, if_true]
      rw [vqueueVringSetup_of_unmapped hv, ha]
    · simp only [h0, hv, if_false, or_self]
      by_cases hl : RingLayoutOk mmu (setupMmu mmu m sized r.desc.paddr)
          (setupVaddr mmu m sized r.desc.paddr) sized.vring.num sized.vringAlign
          r.avail.paddr r.used.paddr
      · rw [vqueueVringSetup_of_ok hv hl]
        exact ⟨fun _ => hl, fun _ => hv⟩
      · rw [vqueueVringSetup_of_mismatch hv hl]
        exact ⟨fun h => absurd rfl h, fun h => absurd h hl⟩

/-! ## Accesses and runs -/

/-- The accesses after which `QUEUE_READY` still tells the truth: a queue is enabled only
with a ring to show for it, and disabled only without one. -/
def readyGuard (mmu : CoreMmu M) (d : Dev M) (a : Access) : Prop :=
  let vq := d.vdev.vq d.vdev.queueSel
  match a.target with
  | some (.queueReady, v) =>
    if v = 0 then vq.vringAddr = 0
    else RingAfterReady mmu d.mmu vq (d.mmio.vqs d.vdev.queueSel)
  | _ => True

instance (mmu : CoreMmu M) (d : Dev M) (a : Access) : Decidable (readyGuard mmu d a) := by
  unfold readyGuard
  generalize a.target = o
  rcases o with _ | ⟨r, v⟩
  · exact .isTrue trivial
  · cases r <;> dsimp only <;> infer_instance

/-- One queue decides when the others agree already. -/
theorem forall_queue_iff {P : QIdx → Prop} (q : QIdx) (h : ∀ q', q' ≠ q → P q') :
    (∀ q', P q') ↔ P q := by
  refine ⟨fun hp => hp q, fun hq q' => ?_⟩
  by_cases hqq : q' = q
  · exact hqq ▸ hq
  · exact h q' hqq

theorem mmio_virtioQueueNotify {d d' : Dev M} {q : QIdx} (h : virtioQueueNotify d q = .ok d') :
    d'.mmio = d.mmio := by
  unfold virtioQueueNotify at h
  split at h
  · cases h; rfl
  · split at h
    · cases h
    · cases h; rfl

/-- **One access keeps `QUEUE_READY` truthful exactly when it is guarded.** -/
theorem readyTruthful_iff_readyGuard {mmu : CoreMmu M} {d d' : Dev M} {a : Access}
    (hi : ReadyTruthful mmu d) (h : mmioStep mmu d a = .ok d') :
    ReadyTruthful mmu d' ↔ readyGuard mmu d a := by
  have he := effect_of_mmioStep h
  rw [readyTruthful_iff] at hi ⊢
  unfold readyGuard
  generalize a.target = o at he
  cases he with
  | num v =>
    refine ⟨fun _ => trivial, fun _ q => ?_⟩
    have hen : (((virtioQueueSetNum d d.vdev.queueSel v.toInt).updMmioQueue
        ({ · with num := v.setWidth 16 })).mmio.vqs q).enabled = (d.mmio.vqs q).enabled :=
      (Quiet.updMmioQueue (virtioQueueSetNum d d.vdev.queueSel v.toInt)
        (f := ({ · with num := v.setWidth 16 })) fun _ => rfl).enabled q
    rw [hen, vq_updMmioQueue, virtioQueueSetNum]
    by_cases hq : q = d.vdev.queueSel
    · rw [hq, vq_setVq_self, vringAddr_virtioQueueSetNumVq]
      exact hi _
    · rw [vq_setVq_of_ne d hq]
      exact hi q
  | ready v =>
    refine (forall_queue_iff d.vdev.queueSel fun q hq => ?_).trans ?_
    · rw [enabled_writeQueueReady, if_neg hq]
      by_cases hv : v = 0
      · rw [writeQueueReady_of_zero mmu d hv]
        exact hi q
      · rw [vq_writeQueueReady mmu d hv, Function.update_of_ne hq]
        exact hi q
    · rw [enabled_writeQueueReady, if_pos rfl]
      by_cases hv : v = 0
      · rw [writeQueueReady_of_zero mmu d hv]
        simp [hv]
      · rw [vq_writeQueueReady mmu d hv, Function.update_self, ringAfterReady_iff,
          decide_eq_true hv]
        simp only [if_neg hv, true_iff]
  | notify v q hn =>
    refine ⟨fun _ => trivial, fun _ q' => ?_⟩
    rw [mmio_virtioQueueNotify hn, (vring_virtioQueueNotify hn q').2.1]
    exact hi q'
  | status v hs =>
    refine ⟨fun _ => trivial, fun _ q => ?_⟩
    have hw := statusWritten_of_writeStatus hs
    rw [hw.enabled q, hw.vq]
    by_cases hz : v.setWidth 8 = 0
    · rw [if_pos hz, vringAddr_virtioResetVq]
      simp [hz]
    · rw [if_neg hz, decide_eq_true hz, Bool.true_and]
      exact hi q
  | quiet o hq hn hr hs =>
    have hg : ∀ q, ((d'.mmio.vqs q).enabled = true ↔ (d'.vdev.vq q).vringAddr ≠ 0) := by
      intro q
      rw [hq.enabled q, hq.vq]
      exact hi q
    refine ⟨fun _ => ?_, fun _ => hg⟩
    split
    · exact absurd rfl (hr _)
    · trivial

theorem readyTruthful_init (mmu : CoreMmu M) (m : M) (shared : QIdx → RingMem) :
    ReadyTruthful mmu (Dev.init m shared) := by
  rw [readyTruthful_iff]
  intro q
  simp [Dev.init, vqueueInit]

/-- **`QUEUE_READY` along runs.**  Whatever registers the normal world accesses, the
register tells the truth in every state of the run exactly when every access of the run
is guarded. -/
theorem readyTruthful_always_iff (mmu : CoreMmu M) (m : M) (shared : QIdx → RingMem)
    (as : List Access) (d : Dev M) (h : MmioRun mmu (Dev.init m shared) as d) :
    Always (mmioStep mmu) (ReadyTruthful mmu) (Dev.init m shared) as ↔
      Run (mmioStep mmu) (readyGuard mmu) (Dev.init m shared) as d :=
  Run.iff_always (A := fun _ => True) (fun _ _ _ _ _ => trivial)
    (fun _ _ _ _ hi hs => readyTruthful_iff_readyGuard hi hs) h trivial
    (readyTruthful_init mmu m shared)

/-- A driver that sets a queue up and later resets the device is told the truth. -/
theorem readyTruthful_always_setUpQueue :
    ∃ d, MmioRun flatMmu (Dev.init () fun _ => .zero) (setUpQueue ++ [.toReg .status 0]) d ∧
      Always (mmioStep flatMmu) (ReadyTruthful flatMmu) (Dev.init () fun _ => .zero)
        (setUpQueue ++ [.toReg .status 0]) := by
  obtain ⟨d, hd, -⟩ : ∃ d, Run (mmioStep flatMmu) (readyGuard flatMmu)
      (Dev.init () fun _ => .zero) (setUpQueue ++ [.toReg .status 0]) d ∧
      (d.vdev.vq 0).vringAddr = 0 := exists_run_of_exec (by decide)
  have hr : MmioRun flatMmu (Dev.init () fun _ => .zero)
      (setUpQueue ++ [.toReg .status 0]) d := hd.mono fun _ _ _ => trivial
  exact ⟨d, hr, (readyTruthful_always_iff flatMmu () _ _ d hr).mpr hd⟩

/-- A queue whose addresses the driver never wrote is reported as ready. -/
theorem not_readyTruthful_of_failed_setup :
    ¬ ∀ as d, MmioRun flatMmu (Dev.init () fun _ => .zero) as d → ReadyTruthful flatMmu d := by
  intro h
  obtain ⟨d, hd, hq⟩ : ∃ d, MmioRun flatMmu (Dev.init () fun _ => .zero)
      [.toReg .queueReady 1] d ∧
      ((d.mmio.vqs 0).enabled, (d.vdev.vq 0).vringAddr) = (true, 0) :=
    exists_run_of_exec (by decide)
  simp only [Prod.mk.injEq] at hq
  have ht := (readyTruthful_iff flatMmu d).mp (h _ d hd) 0
  exact ht.mp hq.1 hq.2

end TrustedGateway
