import TrustedGateway.Mmio

/-!
# Feature negotiation

A status write with `FEATURES_OK` negotiates when the bit was clear before.  The version
test of the source uses the number of `VIRTIO_F_VERSION_1` as a mask and so looks at
another feature, and the bit may be cleared again without a reset, after which the next
negotiation may end differently.  `featuresGuard` leaves both out.
-/

namespace TrustedGateway

open StepSystem

variable {M : Type}

/-- `FEATURES_OK` is set. -/
def FeaturesOk (d : Dev M) : Prop := d.vdev.status &&& virtioConfigSFeaturesOk ≠ 0

/-- An access that resets the device: a status write with a zero low byte. -/
def IsReset (a : Access) : Prop := ∃ v : Word, a.target = some (.status, v) ∧ v.setWidth 8 = 0

/-- The features a negotiation would accept now. -/
def Dev.offered (d : Dev M) : BitVec 64 := d.mmio.driverFeatures &&& d.vdev.hostFeatures

/-- Negotiation along the accesses `as` is sound.  In every state reached the accepted
features are among the device's, they contain `VIRTIO_F_VERSION_1` if `FEATURES_OK` is
set, and from then on they stay until a reset. -/
structure FeaturesSound (mmu : CoreMmu M) (s : Dev M) (as : List Access) : Prop where
  subset : ∀ js d, js <+: as → MmioRun mmu s js d →
    d.vdev.guestFeatures &&& ~~~d.vdev.hostFeatures = 0
  version : ∀ js d, js <+: as → MmioRun mmu s js d → FeaturesOk d →
    d.vdev.guestFeatures.getLsbD virtioFVersion1 = true
  stable : ∀ js ks d d', js ++ ks <+: as → MmioRun mmu s js d → MmioRun mmu d ks d' →
    FeaturesOk d → (∀ a ∈ ks, ¬ IsReset a) → d'.vdev.guestFeatures = d.vdev.guestFeatures

/-- The accesses after which negotiation is still sound: a negotiation offers
`VIRTIO_F_VERSION_1`, and a repeated one offers what was accepted before. -/
def featuresGuard (d : Dev M) (a : Access) : Prop :=
  match a.target with
  | some (.status, v) =>
    Negotiates d (v.setWidth 8) →
      d.offered.getLsbD virtioFVersion1 = true ∧
        (d.vdev.guestFeatures = 0 ∨ d.vdev.guestFeatures = d.offered)
  | _ => True

instance (d : Dev M) (a : Access) : Decidable (featuresGuard d a) := by
  unfold featuresGuard
  generalize a.target = o
  rcases o with _ | ⟨r, v⟩
  · exact .isTrue trivial
  · cases r <;> dsimp only <;> infer_instance

/-! ## One access -/

variable {a : Access} {d d' s : Dev M} {mmu : CoreMmu M}

/-- Only the status register touches the status and the accepted features. -/
theorem features_of_effect {o : Option (Reg × Word)} (he : Effect mmu d o d')
    (ho : ∀ v, o ≠ some (.status, v)) :
    d'.vdev.guestFeatures = d.vdev.guestFeatures ∧
      d'.vdev.hostFeatures = d.vdev.hostFeatures ∧ d'.vdev.status = d.vdev.status := by
  cases he with
  | num v => exact ⟨rfl, rfl, rfl⟩
  | ready v =>
    by_cases hv : v = 0
    · rw [writeQueueReady_of_zero mmu d hv]
      exact ⟨rfl, rfl, rfl⟩
    · rw [writeQueueReady_of_ne mmu d hv]
      exact ⟨rfl, rfl, rfl⟩
  | notify v q hn =>
    unfold virtioQueueNotify at hn
    split at hn
    · cases hn; exact ⟨rfl, rfl, rfl⟩
    · split at hn
      · cases hn
      · cases hn; exact ⟨rfl, rfl, rfl⟩
  | status v hs => exact absurd rfl (ho v)
  | quiet o hq _ _ _ => exact ⟨hq.guestFeatures, hq.hostFeatures, hq.status⟩

/-- What an access does to the negotiated state: a status write, or nothing. -/
theorem features_mmioStep (h : mmioStep mmu d a = .ok d') :
    (∃ v, a.target = some (.status, v) ∧ StatusWritten d (v.setWidth 8) d') ∨
      ((∀ v, a.target ≠ some (.status, v)) ∧
        d'.vdev.guestFeatures = d.vdev.guestFeatures ∧
        d'.vdev.hostFeatures = d.vdev.hostFeatures ∧ d'.vdev.status = d.vdev.status) := by
  have he := effect_of_mmioStep h
  by_cases ho : ∀ v, a.target ≠ some (.status, v)
  · exact .inr ⟨ho, features_of_effect he ho⟩
  · simp only [ne_eq, not_forall, not_not] at ho
    obtain ⟨v, hv⟩ := ho
    refine .inl ⟨v, hv, ?_⟩
    rw [hv] at he
    cases he with
    | status _ hs => exact statusWritten_of_writeStatus hs
    | quiet _ _ _ _ hs => exact absurd rfl (hs v)

/-- What holds of the features in every reachable state. -/
structure FeatureInv (d : Dev M) : Prop where
  subset : d.vdev.guestFeatures &&& ~~~d.vdev.hostFeatures = 0
  accepted : FeaturesOk d → d.vdev.guestFeatures ≠ 0

theorem and_and_not_self {w : ℕ} (x y : BitVec w) : (x &&& y) &&& ~~~y = 0 := by
  ext i hi
  simp only [BitVec.getElem_and, BitVec.getElem_not]
  cases x[i] <;> cases y[i] <;> simp

theorem offered_ne_zero (h : d.offered &&& BitVec.ofNat 64 virtioFVersion1 ≠ 0) :
    d.offered ≠ 0 := by
  intro h0
  rw [h0] at h
  exact h BitVec.zero_and

theorem not_featuresOk_zero (h : d.vdev.status = 0) : ¬ FeaturesOk d := by
  intro hok
  rw [FeaturesOk, h] at hok
  exact hok BitVec.zero_and

/-- A negotiation sets `FEATURES_OK` and accepts what is offered. -/
theorem guestFeatures_of_negotiates {s : Byte} (hw : StatusWritten d s d') (hn : Negotiates d s) :
    FeaturesOk d' ∧ d'.vdev.guestFeatures = d.offered := by
  have h0 : s ≠ 0 := by
    intro h0
    rw [h0] at hn
    exact hn.1 BitVec.zero_and
  refine ⟨?_, ?_⟩
  · rw [FeaturesOk, hw.status]
    exact hn.1
  · rw [hw.guestFeatures, if_neg h0, if_pos hn]
    rfl

/-- A status write that does not negotiate keeps the features, unless it resets. -/
theorem guestFeatures_of_not_negotiates {s : Byte} (hw : StatusWritten d s d')
    (hn : ¬ Negotiates d s) (h0 : s ≠ 0) :
    d'.vdev.guestFeatures = d.vdev.guestFeatures ∧ (FeaturesOk d' → FeaturesOk d) := by
  refine ⟨by rw [hw.guestFeatures, if_neg h0, if_neg hn], fun hok => ?_⟩
  rw [FeaturesOk, hw.status] at hok
  intro hd
  exact hn ⟨hok, hd⟩

theorem FeatureInv.of_same (hi : FeatureInv d) (hg : d'.vdev.guestFeatures = d.vdev.guestFeatures)
    (hh : d'.vdev.hostFeatures = d.vdev.hostFeatures) (hok : FeaturesOk d' → FeaturesOk d) :
    FeatureInv d' := by
  refine ⟨?_, fun h => ?_⟩
  · rw [hg, hh]
    exact hi.subset
  · rw [hg]
    exact hi.accepted (hok h)

/-- Accepted features are the device's, and negotiated ones are not empty, in every
reachable state. -/
theorem featureInv_mmioStep (hi : FeatureInv d) (h : mmioStep mmu d a = .ok d') :
    FeatureInv d' := by
  rcases features_mmioStep h with ⟨v, -, hw⟩ | ⟨-, hg, hh, hs⟩
  · by_cases hn : Negotiates d (v.setWidth 8)
    · obtain ⟨-, hg⟩ := guestFeatures_of_negotiates hw hn
      refine ⟨?_, fun _ => ?_⟩
      · rw [hg, hw.hostFeatures]
        exact and_and_not_self _ _
      · rw [hg]
        exact offered_ne_zero (hw.accepted hn)
    · by_cases h0 : v.setWidth 8 = 0
      · refine ⟨?_, fun hok => absurd hok (not_featuresOk_zero (hw.status.trans h0))⟩
        rw [hw.guestFeatures, if_pos h0]
        exact BitVec.zero_and
      · obtain ⟨hg, hok⟩ := guestFeatures_of_not_negotiates hw hn h0
        exact hi.of_same hg hw.hostFeatures hok
  · refine hi.of_same hg hh fun hok => ?_
    rw [FeaturesOk, hs] at hok
    exact hok

theorem featureInv_init (m : M) (shared : QIdx → RingMem) : FeatureInv (Dev.init m shared) :=
  ⟨BitVec.zero_and, fun hok => absurd hok (not_featuresOk_zero rfl)⟩

/-! ## Guarded accesses -/

/-- A guarded access keeps `VIRTIO_F_VERSION_1` negotiated. -/
theorem version_of_guard (hv : FeaturesOk d → d.vdev.guestFeatures.getLsbD virtioFVersion1 = true)
    (hg : featuresGuard d a) (h : mmioStep mmu d a = .ok d') :
    FeaturesOk d' → d'.vdev.guestFeatures.getLsbD virtioFVersion1 = true := by
  intro hok
  rcases features_mmioStep h with ⟨v, ht, hw⟩ | ⟨-, hf, -, hs⟩
  · simp only [featuresGuard, ht] at hg
    by_cases hn : Negotiates d (v.setWidth 8)
    · rw [(guestFeatures_of_negotiates hw hn).2]
      exact (hg hn).1
    · have h0 : v.setWidth 8 ≠ 0 := fun h0 =>
        not_featuresOk_zero (hw.status.trans h0) hok
      obtain ⟨hf, hok'⟩ := guestFeatures_of_not_negotiates hw hn h0
      rw [hf]
      exact hv (hok' hok)
  · rw [FeaturesOk, hs] at hok
    rw [hf]
    exact hv hok

/-- A guarded access that does not reset keeps features that were accepted before. -/
theorem stable_of_guard (hne : d.vdev.guestFeatures ≠ 0) (hg : featuresGuard d a) (hr : ¬ IsReset a)
    (h : mmioStep mmu d a = .ok d') : d'.vdev.guestFeatures = d.vdev.guestFeatures := by
  rcases features_mmioStep h with ⟨v, ht, hw⟩ | ⟨-, hf, -, -⟩
  · simp only [featuresGuard, ht] at hg
    by_cases hn : Negotiates d (v.setWidth 8)
    · rw [(guestFeatures_of_negotiates hw hn).2]
      exact ((hg hn).2.resolve_left hne).symm
    · have h0 : v.setWidth 8 ≠ 0 := fun h0 => hr ⟨v, ht, h0⟩
      exact (guestFeatures_of_not_negotiates hw hn h0).1
  · exact hf

/-- Along a guarded run without a reset, accepted features stay. -/
theorem stable_of_run {ks : List Access} (hr : Run (mmioStep mmu) featuresGuard d ks d')
    (hne : d.vdev.guestFeatures ≠ 0) (hks : ∀ a ∈ ks, ¬ IsReset a) :
    d'.vdev.guestFeatures = d.vdev.guestFeatures := by
  induction hr with
  | nil d => rfl
  | cons hg hs _ ih =>
    have hstep := stable_of_guard hne hg (hks _ List.mem_cons_self) hs
    have hrest := ih (by rw [hstep]; exact hne) fun a ha => hks a (List.mem_cons_of_mem _ ha)
    exact hrest.trans hstep

/-! ## Where accepted features come from -/

/-- Non-zero features were accepted at some point since the last reset: the accesses `is`
split there, and nothing has reset the device since. -/
def AcceptedSince (mmu : CoreMmu M) (s : Dev M) (is : List Access) (d : Dev M) : Prop :=
  ∃ js ks d₁, is = js ++ ks ∧ MmioRun mmu s js d₁ ∧ MmioRun mmu d₁ ks d ∧ FeaturesOk d₁ ∧
    ∀ a ∈ ks, ¬ IsReset a

theorem AcceptedSince.snoc {is : List Access} (h : AcceptedSince mmu s is d)
    (hs : mmioStep mmu d a = .ok d') (ha : ¬ IsReset a) : AcceptedSince mmu s (is ++ [a]) d' := by
  obtain ⟨js, ks, d₁, rfl, h₁, h₂, hok, hks⟩ := h
  refine ⟨js, ks ++ [a], d₁, by simp, h₁, h₂.snoc trivial hs, hok, ?_⟩
  intro b hb
  rcases List.mem_append.mp hb with hb | hb
  · exact hks b hb
  · rw [List.mem_singleton.mp hb]
    exact ha

/-- Features that are not empty have been accepted since the last reset. -/
theorem acceptedSince_of_ne_zero (hs : s.vdev.guestFeatures = 0) (is : List Access)
    (hr : MmioRun mmu s is d) (hne : d.vdev.guestFeatures ≠ 0) : AcceptedSince mmu s is d := by
  induction is using List.reverseRecOn generalizing d with
  | nil => cases hr; exact absurd hs hne
  | append_singleton is a ih =>
    obtain ⟨d₁, h₁, -, hstep⟩ := Run.snoc_iff.mp hr
    rcases features_mmioStep hstep with ⟨v, ht, hw⟩ | ⟨ht, hf, -, -⟩
    · have h0 : v.setWidth 8 ≠ 0 := by
        intro h0
        rw [hw.guestFeatures, if_pos h0] at hne
        exact hne rfl
      by_cases hn : Negotiates d₁ (v.setWidth 8)
      · exact ⟨is ++ [a], [], d, by simp, hr, .nil d,
          (guestFeatures_of_negotiates hw hn).1, nofun⟩
      · rw [(guestFeatures_of_not_negotiates hw hn h0).1] at hne
        refine (ih h₁ hne).snoc hstep ?_
        rintro ⟨v', ht', h0'⟩
        rw [ht] at ht'
        cases ht'
        exact h0 h0'
    · rw [hf] at hne
      refine (ih h₁ hne).snoc hstep ?_
      rintro ⟨v', ht', -⟩
      exact ht v' ht'

/-! ## Runs -/

theorem FeaturesSound.of_prefix {as bs : List Access} (h : FeaturesSound mmu s as)
    (hb : bs <+: as) : FeaturesSound mmu s bs where
  subset js d hj := h.subset js d (hj.trans hb)
  version js d hj := h.version js d (hj.trans hb)
  stable js ks d d' hj := h.stable js ks d d' (hj.trans hb)

/-- In a run that negotiates soundly the last access is guarded. -/
theorem guard_of_featuresSound {is : List Access} (hs : s.vdev.guestFeatures = 0)
    (h : FeaturesSound mmu s (is ++ [a])) (hr : MmioRun mmu s is d)
    (hstep : mmioStep mmu d a = .ok d') : featuresGuard d a := by
  have hr' : MmioRun mmu s (is ++ [a]) d' := hr.snoc trivial hstep
  unfold featuresGuard
  split
  · rename_i v ht
    intro hn
    have hw : StatusWritten d (v.setWidth 8) d' := by
      rcases features_mmioStep hstep with ⟨v', ht', hw⟩ | ⟨ht', -⟩
      · rw [ht] at ht'
        cases ht'
        exact hw
      · exact absurd ht (ht' v)
    obtain ⟨hok, hg⟩ := guestFeatures_of_negotiates hw hn
    refine ⟨?_, ?_⟩
    · rw [← hg]
      exact h.version _ d' (List.prefix_refl _) hr' hok
    · by_cases h0 : d.vdev.guestFeatures = 0
      · exact .inl h0
      · obtain ⟨js, ks, d₁, rfl, h₁, h₂, hok₁, hks⟩ := acceptedSince_of_ne_zero hs is hr h0
        have ha : ¬ IsReset a := by
          rintro ⟨v', ht', h0'⟩
          rw [ht] at ht'
          cases ht'
          rw [h0'] at hn
          exact hn.1 BitVec.zero_and
        have hbefore := h.stable js ks d₁ d (List.prefix_append _ _) h₁ h₂ hok₁ hks
        have hafter := h.stable js (ks ++ [a]) d₁ d' (by simp) h₁ (h₂.snoc trivial hstep) hok₁
          fun b hb => by
            rcases List.mem_append.mp hb with hb | hb
            · exact hks b hb
            · rw [List.mem_singleton.mp hb]
              exact ha
        exact .inr (by rw [← hg, hafter, hbefore])
  · trivial

theorem run_of_featuresSound (hs : s.vdev.guestFeatures = 0) (as : List Access)
    (hr : MmioRun mmu s as d) (h : FeaturesSound mmu s as) :
    Run (mmioStep mmu) featuresGuard s as d := by
  induction as using List.reverseRecOn generalizing d with
  | nil => cases hr; exact .nil s
  | append_singleton as a ih =>
    obtain ⟨d₁, h₁, -, hstep⟩ := Run.snoc_iff.mp hr
    exact (ih h₁ (h.of_prefix (List.prefix_append as [a]))).snoc
      (guard_of_featuresSound hs h h₁ hstep) hstep

theorem featuresSound_of_run {as : List Access} (hi : FeatureInv s)
    (hv : FeaturesOk s → s.vdev.guestFeatures.getLsbD virtioFVersion1 = true)
    (hr : Run (mmioStep mmu) featuresGuard s as d) : FeaturesSound mmu s as := by
  -- the guarded run passes through the states the unguarded one does
  have hguard : ∀ js t, js <+: as → MmioRun mmu s js t →
      Run (mmioStep mmu) featuresGuard s js t := by
    intro js t hj ht
    obtain ⟨u, hu⟩ := hr.of_prefix hj
    rw [ht.unique hu]
    exact hu
  have hinv : ∀ js t, js <+: as → MmioRun mmu s js t → FeatureInv t := fun js t _ ht =>
    ht.inv (fun _ _ _ hi _ hs => featureInv_mmioStep hi hs) hi
  refine ⟨fun js t hj ht => (hinv js t hj ht).subset, fun js t hj ht => ?_, ?_⟩
  · exact (hguard js t hj ht).inv
      (I := fun d => FeaturesOk d → d.vdev.guestFeatures.getLsbD virtioFVersion1 = true)
      (fun _ _ _ hv hg hs => version_of_guard hv hg hs) hv
  · intro js ks t t' hj ht ht' hok hks
    obtain ⟨u, hu, hu'⟩ := (hguard _ t' hj (ht.append ht')).split
    rw [hu.unique ht] at hu'
    have hj' : js <+: as := (List.prefix_append js ks).trans hj
    exact stable_of_run hu' ((hinv js t hj' ht).accepted hok) hks

/-- **Feature negotiation along runs.**  Whatever registers the normal world accesses,
short of a panic, negotiation along the run is sound exactly when every access of the run
is guarded. -/
theorem featuresSound_iff (mmu : CoreMmu M) (m : M) (shared : QIdx → RingMem)
    (as : List Access) (d : Dev M) (h : MmioRun mmu (Dev.init m shared) as d) :
    FeaturesSound mmu (Dev.init m shared) as ↔
      Run (mmioStep mmu) featuresGuard (Dev.init m shared) as d :=
  ⟨run_of_featuresSound rfl as h,
    featuresSound_of_run (featureInv_init m shared) fun hok =>
      absurd hok (not_featuresOk_zero rfl)⟩

/-- Negotiation by a driver that offers the version bit, the MTU, the MAC address and the
link status. -/
def negotiateVersion1 : List Access :=
  [.toReg .driverFeaturesSel 1, .toReg .driverFeatures 1, .toReg .driverFeaturesSel 0,
    .toReg .driverFeatures 0x10028, .toReg .status 0xb, .toReg .status 0xf]

theorem featuresSound_negotiateVersion1 :
    ∃ d, MmioRun flatMmu (Dev.init () fun _ => .zero) negotiateVersion1 d ∧
      d.vdev.guestFeatures = 0x100010028 ∧
      FeaturesSound flatMmu (Dev.init () fun _ => .zero) negotiateVersion1 := by
  obtain ⟨d, hd, hf⟩ : ∃ d, Run (mmioStep flatMmu) featuresGuard
      (Dev.init () fun _ => .zero) negotiateVersion1 d ∧ d.vdev.guestFeatures = 0x100010028 :=
    exists_run_of_exec (by decide)
  have hr : MmioRun flatMmu (Dev.init () fun _ => .zero) negotiateVersion1 d :=
    hd.mono fun _ _ _ => trivial
  exact ⟨d, hr, hf, (featuresSound_iff flatMmu () _ _ d hr).mpr hd⟩

/-- A driver that offers the MAC address alone ends up with `FEATURES_OK` and without
`VIRTIO_F_VERSION_1`. -/
theorem not_featuresSound_of_mac_only :
    ¬ ∀ as d, MmioRun flatMmu (Dev.init () fun _ => .zero) as d →
      FeaturesSound flatMmu (Dev.init () fun _ => .zero) as := by
  intro h
  obtain ⟨d, hd, hq⟩ : ∃ d, MmioRun flatMmu (Dev.init () fun _ => .zero)
      [.toReg .driverFeatures 0x20, .toReg .status 0xb] d ∧
      (d.vdev.status, d.vdev.guestFeatures) = (0xb, 0x20) := exists_run_of_exec (by decide)
  simp only [Prod.mk.injEq] at hq
  have hv := (h _ d hd).version _ d (List.prefix_refl _) hd
    (by rw [FeaturesOk, hq.1]; decide)
  rw [hq.2] at hv
  exact absurd hv (by decide)

end TrustedGateway
