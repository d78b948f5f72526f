import TrustedGateway.Mmio

/-!
# Ring layout under register writes

The ring pointers of a queue are computed for a size, and the size can change without
them: by a write of `QUEUE_NUM`, and by a `QUEUE_READY` whose set-up ends before it has
touched the pointers.  `LayoutInv` says that the pointers fit the current size, and
`layoutGuard` singles out the accesses that do not spoil this.
-/

namespace TrustedGateway

open StepSystem

variable {M : Type}

/-- The ring pointers are those of the current size, at places for which the check of
`vqueue_vring_setup` has passed. -/
structure RingLaidOut (mmu : CoreMmu M) (vq : Vqueue) : Prop where
  desc : vq.vring.desc = vq.vringAddr
  avail : vq.vring.avail = vringAvailAt vq.vringAddr vq.vring.num
  used : vq.vring.used = vringUsedAt vq.vringAddr vq.vring.num vq.vringAlign
  checked : ∃ m availPa usedPa,
    RingLayoutOk mmu m vq.vringAddr vq.vring.num vq.vringAlign availPa usedPa

/-- A queue that is set up is laid out for its size. -/
def LayoutKept (mmu : CoreMmu M) (vq : Vqueue) : Prop :=
  vq.vringAddr ≠ 0 → RingLaidOut mmu vq

def LayoutInv (mmu : CoreMmu M) (d : Dev M) : Prop := ∀ q, LayoutKept mmu (d.vdev.vq q)

variable {d d' : Dev M} {mmu : CoreMmu M} {num : ℤ} {vq : Vqueue}

/-- The layout is a matter of the pointers, the size and the alignment. -/
theorem layoutKept_congr {vq' : Vqueue} (hv : vq'.vring = vq.vring)
    (ha : vq'.vringAddr = vq.vringAddr) (hal : vq'.vringAlign = vq.vringAlign) :
    LayoutKept mmu vq' ↔ LayoutKept mmu vq := by
  simp only [LayoutKept, ha]
  refine imp_congr_right fun _ => ?_
  constructor
  · rintro ⟨h₁, h₂, h₃, h₄⟩
    rw [hv, ha] at h₁ h₂
    rw [hv, ha, hal] at h₃ h₄
    exact ⟨h₁, h₂, h₃, h₄⟩
  · rintro ⟨h₁, h₂, h₃, h₄⟩
    exact ⟨by rw [hv, ha, h₁], by rw [hv, ha, h₂], by rw [hv, ha, hal, h₃],
      by rw [hv, ha, hal]; exact h₄⟩

theorem layoutKept_vringSz {sz : Word} :
    LayoutKept mmu { vq with vringSz := sz } ↔ LayoutKept mmu vq :=
  layoutKept_congr rfl rfl rfl

/-! ## Resizing -/

/-- `virtio_queue_set_num` accepts `num`, and it is a new size. -/
def Resizes (vq : Vqueue) (num : ℤ) : Prop := ¬ queueNumRefused vq num ∧ num ≠ vq.vring.num

instance (vq : Vqueue) (num : ℤ) : Decidable (Resizes vq num) :=
  inferInstanceAs (Decidable (_ ∧ _))

theorem virtioQueueSetNumVq_of_resizes (h : Resizes vq num) :
    virtioQueueSetNumVq vq num = { vq with vring := { vq.vring with num := num.toNat } } :=
  if_neg h.1

theorem virtioQueueSetNumVq_of_not_resizes (h : ¬ Resizes vq num) :
    virtioQueueSetNumVq vq num = vq := by
  unfold virtioQueueSetNumVq
  by_cases hr : queueNumRefused vq num
  · rw [if_pos hr]
  · have hn : num = vq.vring.num := by
      by_contra hn
      exact h ⟨hr, hn⟩
    rw [if_neg hr, hn, Int.toNat_natCast]

/-- A new size is positive, bounded, and really new. -/
theorem Resizes.toNat (h : Resizes vq num) :
    0 < num.toNat ∧ num.toNat ≤ vnicVqMaxSize ∧ num.toNat ≠ vq.vring.num := by
  obtain ⟨hr, hn⟩ := h
  simp only [queueNumRefused, not_or, not_not] at hr
  obtain ⟨hz, hmax, hneg⟩ := hr
  have h0 : num ≠ 0 := by
    intro h0
    have hq : vq.vring.num = 0 := hz.mp h0
    rw [hq, h0] at hn
    exact hn rfl
  omega

theorem num_virtioQueueSetNumVq_le (h : vq.vring.num ≤ vnicVqMaxSize) :
    (virtioQueueSetNumVq vq num).vring.num ≤ vnicVqMaxSize := by
  by_cases hr : Resizes vq num
  · rw [virtioQueueSetNumVq_of_resizes hr]
    exact hr.toNat.2.1
  · rw [virtioQueueSetNumVq_of_not_resizes hr]
    exact h

/-- Two sizes within the bound put the avail ring at different places. -/
theorem vringAvailAt_inj {vaddr : Word} {n k : ℕ} (hn : n ≤ vnicVqMaxSize)
    (hk : k ≤ vnicVqMaxSize) (h : vringAvailAt vaddr n = vringAvailAt vaddr k) : n = k := by
  have h : BitVec.ofNat 32 (n * 16) = BitVec.ofNat 32 (k * 16) := by
    simpa [vringAvailAt] using h
  have h := congrArg BitVec.toNat h
  simp only [BitVec.toNat_ofNat, vnicVqMaxSize] at h hn hk
  omega

/-- Resizing a queue whose layout fits keeps the layout only if no ring is set up. -/
theorem layoutKept_resize_iff (hk : LayoutKept mmu vq) (hb : vq.vring.num ≤ vnicVqMaxSize)
    (hr : Resizes vq num) : LayoutKept mmu (virtioQueueSetNumVq vq num) ↔ vq.vringAddr = 0 := by
  rw [virtioQueueSetNumVq_of_resizes hr]
  constructor
  · intro h
    by_contra hz
    have hnew : vq.vring.avail = vringAvailAt vq.vringAddr num.toNat := (h hz).avail
    have hold : vq.vring.avail = vringAvailAt vq.vringAddr vq.vring.num := (hk hz).avail
    exact hr.toNat.2.2 (vringAvailAt_inj hr.toNat.2.1 hb (hnew.symm.trans hold))
  · intro hz hnz
    exact absurd hz hnz

/-- The size register keeps the layout unless it resizes a queue that is set up. -/
theorem layoutKept_setNum_iff (hk : LayoutKept mmu vq) (hb : vq.vring.num ≤ vnicVqMaxSize) :
    LayoutKept mmu (virtioQueueSetNumVq vq num) ↔ vq.vringAddr = 0 ∨ ¬ Resizes vq num := by
  by_cases hr : Resizes vq num
  · rw [layoutKept_resize_iff hk hb hr]
    simp [hr]
  · rw [virtioQueueSetNumVq_of_not_resizes hr]
    exact ⟨fun _ => .inr hr, fun _ => hk⟩

/-! ## Set-up -/

/-- A set-up that finds the table leaves a fitting layout, or no ring at all. -/
theorem layoutKept_vqueueVringSetup {m : M} {descPa availPa usedPa : Word}
    (h : setupVaddr mmu m vq descPa ≠ 0) :
    LayoutKept mmu (vqueueVringSetup mmu m vq descPa availPa usedPa).2.1 := by
  by_cases hl : RingLayoutOk mmu (setupMmu mmu m vq descPa) (setupVaddr mmu m vq descPa)
      vq.vring.num vq.vringAlign availPa usedPa
  · rw [vqueueVringSetup_of_ok h hl]
    exact fun _ => ⟨rfl, rfl, rfl, _, _, _, hl⟩
  · rw [vqueueVringSetup_of_mismatch h hl]
    exact fun hz => absurd rfl hz

/-- The ready register keeps the layout unless it resizes a queue that is set up and then
does not find the descriptor table. -/
theorem layoutKept_readyVq_iff {m : M} {r : MmioQueue} (hk : LayoutKept mmu vq)
    (hb : vq.vring.num ≤ vnicVqMaxSize) :
    LayoutKept mmu (readyVq mmu m vq r) ↔
      (vq.vringAddr = 0 ∨ ¬ Resizes vq r.num.toNat) ∨
        setupVaddr mmu m (virtioQueueSetNumVq vq r.num.toNat) r.desc.paddr ≠ 0 := by
  unfold readyVq
  by_cases h0 : (virtioQueueSetNumVq vq r.num.toNat).vring.num = 0
  · have hr : ¬ Resizes vq r.num.toNat := by
      intro hr
      rw [virtioQueueSetNumVq_of_resizes hr] at h0
      exact absurd h0 hr.toNat.1.ne'
    simp only [if_pos h0]
    rw [layoutKept_setNum_iff hk hb]
    exact ⟨.inl, fun _ => .inr hr⟩
  · simp only [if_neg h0]
    by_cases hv : setupVaddr mmu m (virtioQueueSetNumVq vq r.num.toNat) r.desc.paddr = 0
    · rw [vqueueVringSetup_of_unmapped hv, layoutKept_vringSz, layoutKept_setNum_iff hk hb]
      exact ⟨.inl, fun h => h.resolve_right (not_not.mpr hv)⟩
    · exact ⟨fun _ => .inr hv, fun _ => layoutKept_vqueueVringSetup hv⟩

/-! ## Accesses and runs -/

/-- The size of a queue is within the bound, and so is the size a reset gives back. -/
def SizeBounded (vq : Vqueue) : Prop :=
  vq.vring.num ≤ vnicVqMaxSize ∧ vq.vring.numDefault ≤ vnicVqMaxSize

def SizesBounded (d : Dev M) : Prop := ∀ q, SizeBounded (d.vdev.vq q)

/-- The accesses that keep the ring layout: no size register resizes a queue that is set
up, and no ready register does so without finding the descriptor table. -/
def layoutGuard (mmu : CoreMmu M) (d : Dev M) (a : Access) : Prop :=
  let vq := d.vdev.vq d.vdev.queueSel
  let r := d.mmio.vqs d.vdev.queueSel
  match a.target with
  | some (.queueNum, v) => vq.vringAddr = 0 ∨ ¬ Resizes vq v.toInt
  | some (.queueReady, v) =>
    v = 0 ∨ (vq.vringAddr = 0 ∨ ¬ Resizes vq r.num.toNat) ∨
      setupVaddr mmu d.mmu (virtioQueueSetNumVq vq r.num.toNat) r.desc.paddr ≠ 0
  | _ => True

instance (mmu : CoreMmu M) (d : Dev M) (a : Access) : Decidable (layoutGuard mmu d a) := by
  unfold layoutGuard
  generalize a.target = o
  rcases o with _ | ⟨r, v⟩
  · exact .isTrue trivial
  · cases r <;> dsimp only <;> infer_instance

/-- Only the replaced queue matters when one queue is replaced. -/
theorem forall_update_iff {P : Vqueue → Prop} {vqs : QIdx → Vqueue} (h : ∀ q, P (vqs q))
    (q : QIdx) (vq : Vqueue) : (∀ q', P (Function.update vqs q vq q')) ↔ P vq := by
  constructor
  · intro hu
    simpa using hu q
  · intro hq q'
    by_cases hqq : q' = q
    · subst hqq
      simpa using hq
    · simpa [hqq] using h q'

theorem vring_virtioQueueNotify {q : QIdx} (h : virtioQueueNotify d q = .ok d') (q' : QIdx) :
    (d'.vdev.vq q').vring = (d.vdev.vq q').vring ∧
      (d'.vdev.vq q').vringAddr = (d.vdev.vq q').vringAddr ∧
      (d'.vdev.vq q').vringAlign = (d.vdev.vq q').vringAlign := by
  unfold virtioQueueNotify at h
  split at h
  · cases h; exact ⟨rfl, rfl, rfl⟩
  · rename_i hz
    rw [vqueueNapiSignalAvail, if_neg hz, Vqueue.setUsedFlags] at h
    split at h
    · cases h
    · rename_i vq hs
      cases h
      split at hs
      · cases hs
      · cases hs
        by_cases hq : q' = q
        · subst hq
          simp [Dev.schedule]
        · simp [Dev.schedule, hq]

theorem vringAddr_virtioResetVq (vq : Vqueue) : (virtioResetVq vq).vringAddr = 0 := by
  unfold virtioResetVq vqueueVringTeardown
  split <;> rfl

theorem num_virtioResetVq (vq : Vqueue) :
    (virtioResetVq vq).vring.num = vq.vring.numDefault ∧
      (virtioResetVq vq).vring.numDefault = vq.vring.numDefault := by
  unfold virtioResetVq vqueueVringTeardown
  split <;> exact ⟨rfl, rfl⟩

/-- **One access keeps the ring layout exactly when it is guarded.** -/
theorem layoutInv_iff_layoutGuard {a : Access} (hb : SizesBounded d) (hi : LayoutInv mmu d)
    (h : mmioStep mmu d a = .ok d') : LayoutInv mmu d' ↔ layoutGuard mmu d a := by
  have he := effect_of_mmioStep h
  unfold layoutGuard
  generalize a.target = o at he
  cases he with
  | num v =>
    refine (forall_update_iff hi d.vdev.queueSel _).trans ?_
    exact layoutKept_setNum_iff (hi _) (hb _).1
  | ready v =>
    by_cases hv : v = 0
    · have hvq : (writeQueueReady mmu d v).vdev.vq = d.vdev.vq := by
        rw [writeQueueReady_of_zero mmu d hv]
        rfl
      rw [LayoutInv, hvq]
      exact ⟨fun _ => .inl hv, fun _ => hi⟩
    · rw [LayoutInv, vq_writeQueueReady mmu d hv, forall_update_iff hi,
        layoutKept_readyVq_iff (hi _) (hb _).1]
      exact ⟨.inr, fun h => h.resolve_left hv⟩
  | notify v q hn =>
    refine ⟨fun _ => trivial, fun _ q' => ?_⟩
    obtain ⟨h₁, h₂, h₃⟩ := vring_virtioQueueNotify hn q'
    exact (layoutKept_congr h₁ h₂ h₃).mpr (hi q')
  | status v hs =>
    refine ⟨fun _ => trivial, fun _ q => ?_⟩
    rw [(statusWritten_of_writeStatus hs).vq]
    by_cases hz : v.setWidth 8 = 0
    · rw [if_pos hz]
      exact fun hne => absurd (vringAddr_virtioResetVq _) hne
    · rw [if_neg hz]
      exact hi q
  | quiet o hq hn hr hs =>
    have hg : LayoutInv mmu d' := by
      intro q
      rw [hq.vq]
      exact hi q
    refine ⟨fun _ => ?_, fun _ => hg⟩
    split
    · exact absurd rfl (hn _)
    · exact absurd rfl (hr _)
    · trivial

/-- A set-up leaves the sizes alone. -/
theorem num_vqueueVringSetup (mmu : CoreMmu M) (m : M) (vq : Vqueue)
    (descPa availPa usedPa : Word) :
    (vqueueVringSetup mmu m vq descPa availPa usedPa).2.1.vring.num = vq.vring.num ∧
      (vqueueVringSetup mmu m vq descPa availPa usedPa).2.1.vring.numDefault =
        vq.vring.numDefault := by
  by_cases hv : setupVaddr mmu m vq descPa = 0
  · rw [vqueueVringSetup_of_unmapped hv]
    exact ⟨rfl, rfl⟩
  · by_cases hl : RingLayoutOk mmu (setupMmu mmu m vq descPa) (setupVaddr mmu m vq descPa)
        vq.vring.num vq.vringAlign availPa usedPa
    · rw [vqueueVringSetup_of_ok hv hl]
      exact ⟨rfl, rfl⟩
    · rw [vqueueVringSetup_of_mismatch hv hl]
      exact ⟨rfl, rfl⟩

theorem numDefault_virtioQueueSetNumVq (vq : Vqueue) (num : ℤ) :
    (virtioQueueSetNumVq vq num).vring.numDefault = vq.vring.numDefault := by
  unfold virtioQueueSetNumVq
  split <;> rfl

theorem num_readyVq (mmu : CoreMmu M) (m : M) (vq : Vqueue) (r : MmioQueue) :
    (readyVq mmu m vq r).vring.num = (virtioQueueSetNumVq vq r.num.toNat).vring.num ∧
      (readyVq mmu m vq r).vring.numDefault = vq.vring.numDefault := by
  unfold readyVq
  have hd := numDefault_virtioQueueSetNumVq vq r.num.toNat
  by_cases h0 : (virtioQueueSetNumVq vq r.num.toNat).vring.num = 0
  · simp only [if_pos h0, true_and]
    exact hd
  · simp only [if_neg h0]
    obtain ⟨hn, hn'⟩ := num_vqueueVringSetup mmu m (virtioQueueSetNumVq vq r.num.toNat)
      r.desc.paddr r.avail.paddr r.used.paddr
    exact ⟨hn, hn'.trans hd⟩

/-- No access makes a queue larger than the bound. -/
theorem sizesBounded_mmioStep {a : Access} (hb : SizesBounded d) (h : mmioStep mmu d a = .ok d') :
    SizesBounded d' := by
  have he := effect_of_mmioStep h
  generalize a.target = o at he
  cases he with
  | num v =>
    refine (forall_update_iff hb d.vdev.queueSel _).mpr ⟨?_, ?_⟩
    · exact num_virtioQueueSetNumVq_le (hb _).1
    · exact (numDefault_virtioQueueSetNumVq _ _).trans_le (hb _).2
  | ready v =>
    by_cases hv : v = 0
    · rw [writeQueueReady_of_zero mmu d hv]
      exact hb
    · rw [SizesBounded, vq_writeQueueReady mmu d hv]
      refine (forall_update_iff hb d.vdev.queueSel _).mpr ?_
      obtain ⟨hn, hd⟩ := num_readyVq mmu d.mmu (d.vdev.vq d.vdev.queueSel)
        (d.mmio.vqs d.vdev.queueSel)
      exact ⟨hn.trans_le (num_virtioQueueSetNumVq_le (hb _).1), hd.trans_le (hb _).2⟩
  | notify v q hn =>
    intro q'
    rw [SizeBounded, (vring_virtioQueueNotify hn q').1]
    exact hb q'
  | status v hs =>
    intro q
    rw [(statusWritten_of_writeStatus hs).vq]
    by_cases hz : v.setWidth 8 = 0
    · simp only [if_pos hz]
      exact ⟨(num_virtioResetVq _).1.trans_le (hb q).2, (num_virtioResetVq _).2.trans_le (hb q).2⟩
    · rw [if_neg hz]
      exact hb q
  | quiet o hq hn hr hs =>
    intro q
    rw [hq.vq]
    exact hb q

theorem sizesBounded_init (m : M) (shared : QIdx → RingMem) :
    SizesBounded (Dev.init m shared) :=
  fun _ => ⟨Nat.le_refl _, Nat.le_refl _⟩

theorem layoutInv_init (mmu : CoreMmu M) (m : M) (shared : QIdx → RingMem) :
    LayoutInv mmu (Dev.init m shared) :=
  fun _ hz => absurd rfl hz

/-- **Ring layout along runs.**  Whatever registers the normal world accesses, the layout
of every queue that is set up fits the current size in every state of the run exactly
when every access of the run is guarded. -/
theorem layoutInv_always_iff (mmu : CoreMmu M) (m : M) (shared : QIdx → RingMem)
    (as : List Access) (d : Dev M) (h : MmioRun mmu (Dev.init m shared) as d) :
    Always (mmioStep mmu) (LayoutInv mmu) (Dev.init m shared) as ↔
      Run (mmioStep mmu) (layoutGuard mmu) (Dev.init m shared) as d :=
  h.iff_always (fun _ _ _ hb hs => sizesBounded_mmioStep hb hs)
    (fun _ _ _ hb hi hs => layoutInv_iff_layoutGuard hb hi hs)
    (sizesBounded_init m shared) (layoutInv_init mmu m shared)

/-- The usual set-up of a queue of 256 entries. -/
def setUpQueue : List Access :=
  [.toReg .queueNum 256, .toReg .queueDescLow 0x10000000, .toReg .queueAvailLow 0x10001000,
    .toReg .queueUsedLow 0x10002000, .toReg .queueReady 1]

/-- A driver that sets a queue up keeps the layout. -/
theorem layoutInv_always_setUpQueue :
    ∃ d, MmioRun flatMmu (Dev.init () fun _ => .zero) setUpQueue d ∧
      (d.vdev.vq 0).vringAddr = 0x10000000 ∧
      Always (mmioStep flatMmu) (LayoutInv flatMmu) (Dev.init () fun _ => .zero) setUpQueue := by
  obtain ⟨d, hd, ha⟩ : ∃ d, Run (mmioStep flatMmu) (layoutGuard flatMmu)
      (Dev.init () fun _ => .zero) setUpQueue d ∧ (d.vdev.vq 0).vringAddr = 0x10000000 :=
    exists_run_of_exec (by decide)
  have hr : MmioRun flatMmu (Dev.init () fun _ => .zero) setUpQueue d :=
    hd.mono fun _ _ _ => trivial
  exact ⟨d, hr, ha, (layoutInv_always_iff flatMmu () _ setUpQueue d hr).mpr hd⟩

/-- A queue that is made smaller after its set-up keeps the pointers of the larger
size. -/
theorem not_layoutInv_of_resize :
    ¬ ∀ as d, MmioRun flatMmu (Dev.init () fun _ => .zero) as d → LayoutInv flatMmu d := by
  intro h
  obtain ⟨d, hd, hq⟩ : ∃ d, MmioRun flatMmu (Dev.init () fun _ => .zero)
      (setUpQueue ++ [.toReg .queueNum 128]) d ∧
      ((d.vdev.vq 0).vringAddr, (d.vdev.vq 0).vring) =
        (0x10000000, ⟨128, 256, 0x10000000, 0x10001000, 0x10002000⟩) :=
    exists_run_of_exec (by decide)
  simp only [Prod.mk.injEq] at hq
  have hl := h _ d hd 0 (by rw [hq.1]; decide)
  have ha := hl.avail
  rw [hq.1, hq.2] at ha
  exact absurd ha (by decide)

end TrustedGateway
