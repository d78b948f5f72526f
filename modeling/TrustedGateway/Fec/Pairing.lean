import TrustedGateway.Fec.Moves

/-!
# When the contexts are enabled

Open, restart and stop enable and disable the two contexts of the device in hooks that run at
different sub-states.  Whatever the normal world does, the calls pair up: the contexts are
enabled exactly while the device is open and no restart or stop is under way.
-/

namespace TrustedGateway

open StepSystem

variable {c : FecConfig} {hw : Word → Word} {f f' : Fep}

/-- The sub-states that a primary state can have. -/
def FecShape (p : SfecPri) (s : SfecSub) : Prop :=
  match p with
  | .probed | .shuttingDown => s = .none
  | .opening => s.isRestart = true ∧ s ≠ .restartImaskRun ∧ s ≠ .restartImaskMii
  | .postOpen => s = .restartImaskRun ∨ s = .restartImaskMii
  | .restarted | .stopped | .running => s ≠ .restartImaskRun ∧ s ≠ .restartImaskMii
  | .error | .uninit | .shutDown => False

/-- The device is open, and no restart or stop is under way. -/
def Fep.Polled (f : Fep) : Prop :=
  (f.sfecState.primarySt.Live ∨ f.sfecState.primarySt = .shuttingDown) ∧
    f.sfecState.subSt = .none

instance (f : Fep) : Decidable f.Polled := inferInstanceAs (Decidable (_ ∧ _))

/-- A context is enabled exactly if `b`, and is not scheduled while it is disabled. -/
structure NapiIs (b : Prop) (n : Napi) : Prop where
  enabled : n.disable = false ↔ b
  idle : n.disable = true → n.sched = false

/-- The invariant of the monitor and its contexts. -/
structure Paired (f : Fep) : Prop where
  shape : FecShape f.sfecState.primarySt f.sfecState.subSt
  rx : NapiIs f.Polled f.rxNapi
  routeTx : NapiIs f.Polled f.routeTxNapi
  rings : ∀ a b, SwOp.bdInit a b ∈ f.log → a = true ∧ b = true

theorem fecProbed_paired : Paired fecProbed where
  shape := rfl
  rx := ⟨by decide, by decide⟩
  routeTx := ⟨by decide, by decide⟩
  rings := by simp [fecProbed]

/-! ## The hooks -/

variable {a : Abort} {b : Prop} {n : Napi} {offset v : Word} {r : Checked} {s : EmuState} {size : ℕ}

theorem NapiIs.disable_eq_true (h : NapiIs b n) (hb : ¬ b) : n.disable = true := by
  cases hd : n.disable with
  | true => rfl
  | false => exact absurd (h.enabled.mp hd) hb

theorem napiDisable_of_is (h : n.disable = false) :
    napiDisable n = .ok { n with disable := true, sched := false } := by
  rw [napiDisable, if_neg (by simp [h])]

theorem napiEnable_of_is (hd : n.disable = true) (hs : n.sched = false) :
    napiEnable n = .ok { n with disable := false } := by
  rw [napiEnable, if_neg (by simp [hd]), if_neg (by simp [hs])]

theorem napiIs_disabled (hb : ¬ b) (n : Napi) :
    NapiIs b { n with disable := true, sched := false } where
  enabled := by simp [hb]
  idle := fun _ => rfl

theorem napiIs_enabled (hb : b) (n : Napi) : NapiIs b { n with disable := false } where
  enabled := by simp [hb]
  idle := by simp

/-- Disabling succeeds on enabled contexts. -/
theorem disableNapis_of_polled (h : Paired f) (hp : f.Polled) (b : Bool) :
    disableNapis { f with txStopped := b } = .ok { f with
      txStopped := b
      rxNapi := { f.rxNapi with disable := true, sched := false }
      routeTxNapi := { f.routeTxNapi with disable := true, sched := false } } := by
  simp only [disableNapis, napiDisable_of_is (h.rx.enabled.mpr hp),
    napiDisable_of_is (h.routeTx.enabled.mpr hp)]

/-- Enabling succeeds on the contexts of a device that is not polled. -/
theorem enableNapis_of_not_polled (h : Paired f) (hp : ¬ f.Polled) {g : Fep}
    (hrx : g.rxNapi = f.rxNapi) (htx : g.routeTxNapi = f.routeTxNapi) :
    enableNapis g = .ok { g with
      rxNapi := { f.rxNapi with disable := false }
      routeTxNapi := { f.routeTxNapi with disable := false } } := by
  have hr := h.rx.disable_eq_true hp
  have ht := h.routeTx.disable_eq_true hp
  simp only [enableNapis, hrx, htx, napiEnable_of_is hr (h.rx.idle hr),
    napiEnable_of_is ht (h.routeTx.idle ht)]

/-- Scheduling changes neither the `DISABLE` bit nor a disabled context. -/
theorem NapiIs.schedule (h : NapiIs b n) : NapiIs b (napiSchedule n) := by
  refine ⟨?_, ?_⟩
  · rw [disable_napiSchedule]
    exact h.enabled
  · intro hd
    rw [disable_napiSchedule] at hd
    rw [sched_napiSchedule, h.idle hd, hd]
    rfl

theorem NapiIs.event (h : NapiIs b n) (e : NapiEvent) : NapiIs b (e.apply n) := by
  cases e with
  | schedule => exact h.schedule
  | complete =>
    show NapiIs b (napiComplete n).2
    unfold napiComplete
    split
    · exact ⟨h.enabled, h.idle⟩
    · exact ⟨h.enabled, fun _ => rfl⟩
  | workerStart | workerExit | takeNotify => exact ⟨h.enabled, h.idle⟩

/-! ## Moves -/

namespace Paired

/-- A move that leaves the contexts alone. -/
theorem congr (h : Paired f) (hshape : FecShape f'.sfecState.primarySt f'.sfecState.subSt)
    (hpolled : f'.Polled ↔ f.Polled) (hrx : f'.rxNapi = f.rxNapi)
    (htx : f'.routeTxNapi = f.routeTxNapi)
    (hlog : ∀ a b, SwOp.bdInit a b ∈ f'.log → SwOp.bdInit a b ∈ f.log ∨ a = true ∧ b = true) :
    Paired f' where
  shape := hshape
  rx := by
    rw [hrx]
    exact ⟨h.rx.enabled.trans hpolled.symm, h.rx.idle⟩
  routeTx := by
    rw [htx]
    exact ⟨h.routeTx.enabled.trans hpolled.symm, h.routeTx.idle⟩
  rings := by
    intro a b hab
    rcases hlog a b hab with hold | hnew
    · exact h.rings a b hold
    · exact hnew

/-- The secure world wrote registers. -/
theorem log_ioWrites (g : Fep) (ws : List (Word × Word)) {a b : Bool}
    (h : SwOp.bdInit a b ∈ (g.ioWrites ws).log) : SwOp.bdInit a b ∈ g.log := by
  rcases List.mem_append.mp h with h | h
  · exact h
  · obtain ⟨w, -, hw⟩ := List.mem_map.mp h
    cases hw

/-- A step inside a restart or a stop. -/
theorem inner (h : Paired f) (hs : f.sfecState.subSt ≠ .none)
    (hs' : f'.sfecState.subSt ≠ .none)
    (hshape : FecShape f'.sfecState.primarySt f'.sfecState.subSt)
    (hrx : f'.rxNapi = f.rxNapi) (htx : f'.routeTxNapi = f.routeTxNapi)
    (hlog : ∀ a b, SwOp.bdInit a b ∈ f'.log → SwOp.bdInit a b ∈ f.log ∨ a = true ∧ b = true) :
    Paired f' :=
  h.congr hshape ⟨fun hp => absurd hp.2 hs', fun hp => absurd hp.2 hs⟩ hrx htx hlog

end Paired

theorem Fep.Idle.polled (h : f.Idle) : f.Polled := ⟨.inl h.1, h.2⟩

theorem not_polled_of_sub {s : SfecSub} (hs : f.sfecState.subSt = s) (hne : s ≠ .none) :
    ¬ f.Polled := fun h => hne (hs.symm.trans h.2)

/-- The shapes inside a stop, or a restart of an open device. -/
theorem fecShape_live {p : SfecPri} (hp : p.Live) {s : SfecSub} (h₁ : s ≠ .restartImaskRun)
    (h₂ : s ≠ .restartImaskMii) : FecShape p s := by
  rcases hp with rfl | rfl | rfl <;> exact ⟨h₁, h₂⟩

/-- The shapes inside a restart. -/
theorem fecShape_restart (hf : f.Restarting) {s : SfecSub} (hs : s.isRestart = true)
    (h₁ : s ≠ .restartImaskRun) (h₂ : s ≠ .restartImaskMii) :
    FecShape f.sfecState.primarySt s := by
  rcases hf with hp | hp
  · rw [hp]
    exact ⟨hs, h₁, h₂⟩
  · exact fecShape_live hp h₁ h₂

namespace Paired

/-- A step inside a restart. -/
theorem restart (h : Paired f) (hf : f.Restarting) {s : SfecSub}
    (hs : f.sfecState.subSt = s) (hsn : s ≠ .none)
    (hp : f'.sfecState.primarySt = f.sfecState.primarySt) (s' : SfecSub)
    (hs' : f'.sfecState.subSt = s') (hr : s'.isRestart = true) (h₁ : s' ≠ .restartImaskRun)
    (h₂ : s' ≠ .restartImaskMii)
    (hrx : f'.rxNapi = f.rxNapi) (htx : f'.routeTxNapi = f.routeTxNapi)
    (hlog : ∀ a b, SwOp.bdInit a b ∈ f'.log → SwOp.bdInit a b ∈ f.log ∨ a = true ∧ b = true) :
    Paired f' := by
  refine h.inner (by rwa [hs]) ?_ ?_ hrx htx hlog
  · rw [hs']
    rintro rfl
    cases hr
  · rw [hp, hs']
    exact fecShape_restart hf hr h₁ h₂

/-- A step inside a stop. -/
theorem stop (h : Paired f) (hf : f.sfecState.primarySt.Live) {s : SfecSub}
    (hs : f.sfecState.subSt = s) (hsn : s ≠ .none) {s' : SfecSub} (hr : s'.isStop = true) :
    Paired (f.setSub s') := by
  refine h.inner (by rwa [hs]) ?_ ?_ rfl rfl (fun a b hab => .inl hab)
  · rintro rfl
    cases hr
  · refine fecShape_live hf ?_ ?_
    · rintro rfl
      cases hr
    · rintro rfl
      cases hr

/-- A hook that disables both contexts, at the first access of a restart or a stop. -/
theorem begin (h : Paired f) (hf : f.Idle) {g : Fep}
    (hp : g.sfecState.primarySt = f.sfecState.primarySt) (s : SfecSub)
    (hs : g.sfecState.subSt = s) (hsn : s ≠ .none) (h₁ : s ≠ .restartImaskRun)
    (h₂ : s ≠ .restartImaskMii) (hlog : g.log = f.log)
    (hrx : g.rxNapi = { f.rxNapi with disable := true, sched := false })
    (htx : g.routeTxNapi = { f.routeTxNapi with disable := true, sched := false }) :
    Paired g where
  shape := by
    rw [hp, hs]
    exact fecShape_live hf.1 h₁ h₂
  rx := by
    rw [hrx]
    exact napiIs_disabled (not_polled_of_sub hs hsn) _
  routeTx := by
    rw [htx]
    exact napiIs_disabled (not_polled_of_sub hs hsn) _
  rings := by
    rw [hlog]
    exact h.rings

/-- A hook that enables both contexts, at the last access of an open, a restart or a stop. -/
theorem finish (h : Paired f) {g : Fep} (hp : g.sfecState.primarySt.Live)
    (hs : g.sfecState.subSt = .none) (hlog : ∀ a b, SwOp.bdInit a b ∈ g.log →
      SwOp.bdInit a b ∈ f.log)
    (hrx : NapiIs True g.rxNapi) (htx : NapiIs True g.routeTxNapi) : Paired g where
  shape := by
    rw [hs]
    exact fecShape_live hp (by decide) (by decide)
  rx := ⟨hrx.enabled.trans ⟨fun _ => ⟨.inl hp, hs⟩, fun _ => trivial⟩, hrx.idle⟩
  routeTx := ⟨htx.enabled.trans ⟨fun _ => ⟨.inl hp, hs⟩, fun _ => trivial⟩, htx.idle⟩
  rings := fun a b hab => h.rings a b (hlog a b hab)

end Paired

/-- Enabled contexts stay enabled when the queue is woken. -/
theorem Paired.finish_wake (h : Paired f) {g : Fep} (hp : g.sfecState.primarySt.Live)
    (hs : g.sfecState.subSt = .none)
    (hlog : ∀ a b, SwOp.bdInit a b ∈ g.log → SwOp.bdInit a b ∈ f.log)
    (hrx : NapiIs True g.rxNapi) (htx : NapiIs True g.routeTxNapi) :
    Paired (netifTxWakeQueue g) := by
  obtain ⟨n, k, t, heq, hn⟩ := netifTxWakeQueue_eq g
  rw [heq]
  refine h.finish hp hs hlog hrx ?_
  rcases hn with rfl | rfl
  · exact htx
  · exact htx.schedule

theorem restartWriteImask_paired (h : Paired f) (hs : f.sfecState.subSt = .restartEcntrl)
    (hr : restartWriteImask f v = .ok r) : Paired r.fep := by
  have hnp : ¬ f.Polled := not_polled_of_sub hs (by decide)
  simp only [restartWriteImask] at hr
  split at hr
  · cases hr
    refine h.inner (by rw [hs]; decide) ?_ ?_ rfl rfl
      fun a b hab => .inl (Paired.log_ioWrites f _ hab)
    · show (if v = fecDefaultImask then SfecSub.restartImaskRun else .restartImaskMii) ≠ .none
      split <;> decide
    · show (if v = fecDefaultImask then SfecSub.restartImaskRun else .restartImaskMii) = _ ∨
        (if v = fecDefaultImask then SfecSub.restartImaskRun else .restartImaskMii) = _
      split
      · exact .inl rfl
      · exact .inr rfl
  · rw [guard_eq_ok] at hr
    obtain ⟨-, hr⟩ := hr
    obtain ⟨g, hpost, rfl⟩ := Checked.after_eq_ok hr
    rw [fecEnetAdjustLinkSwRestartPost, enableNapis_of_not_polled h hnp
      (g := ((fecRestartSw6 f).setPri .running).setSub .none) rfl rfl] at hpost
    cases hpost
    exact h.finish_wake (.inr (.inr rfl)) rfl (fun a b hab => Paired.log_ioWrites f _ hab)
      (napiIs_enabled trivial _) (napiIs_enabled trivial _)

theorem stopWriteRCntrl_paired (h : Paired f) (hf : f.sfecState.primarySt.Live)
    (hs : f.sfecState.subSt = .stopEcntrl) (hr : stopWriteRCntrl f v = .ok r) : Paired r.fep := by
  have hne : f.sfecState.primarySt ≠ .shuttingDown := by
    intro hp
    rw [hp] at hf
    exact absurd hf (by decide)
  rw [stopWriteRCntrl, guard_eq_ok] at hr
  obtain ⟨-, hr⟩ := hr
  obtain ⟨g, hpost, rfl⟩ := Checked.after_eq_ok hr
  rw [fecEnetAdjustLinkSwStopPost, if_neg (by exact hne), enableNapis_of_not_polled h
    (not_polled_of_sub hs (by decide)) (g := f.setRmiiMode 0) rfl rfl] at hpost
  cases hpost
  refine h.finish ?_ rfl (fun a b hab => hab) (napiIs_enabled trivial _) (napiIs_enabled trivial _)
  show SfecPri.Live (if f.sfecState.primarySt = .shuttingDown then _ else _)
  rw [if_neg hne]
  exact .inr (.inl rfl)

theorem fecEnetOpenSw_paired {p : SfecPri} (h : Paired f)
    (hp : f.sfecState.primarySt = .postOpen) (hpl : p = .running ∨ p = .restarted)
    (hpost : fecEnetOpenSw ((f.setPri p).setSub .none) = .ok f') : Paired f' := by
  have hnp : ¬ f.Polled := by
    rintro ⟨hlive, -⟩
    rw [hp] at hlive
    exact absurd hlive (by decide)
  rw [fecEnetOpenSw, enableNapis_of_not_polled h hnp (g := (f.setPri p).setSub .none) rfl
    rfl] at hpost
  cases hpost
  refine h.finish ?_ rfl (fun a b hab => hab) (napiIs_enabled trivial _) (napiIs_enabled trivial _)
  rcases hpl with rfl | rfl
  · exact .inr (.inr rfl)
  · exact .inl rfl

/-- The descriptor rings are initialised in the middle of a restart. -/
theorem log_fecRestartSw2 (h : Paired f) (hnp : ¬ f.Polled) {a b : Bool}
    (hab : SwOp.bdInit a b ∈ (fecRestartSw2 c f).log) :
    SwOp.bdInit a b ∈ f.log ∨ a = true ∧ b = true := by
  rcases List.mem_append.mp (Paired.log_ioWrites _ _ hab) with hold | hnew
  · exact .inl hold
  · obtain ⟨rfl, rfl⟩ : a = f.rxNapi.disable ∧ b = f.routeTxNapi.disable := by
      simpa using hnew
    exact .inr ⟨h.rx.disable_eq_true hnp, h.routeTx.disable_eq_true hnp⟩

/-- **The step lemma of the monitor.** -/
theorem FecMove.paired (h : Paired f) (hm : FecMove c hw f offset s v r) : Paired r.fep := by
  cases hm with
  | refuse | miiInit | mdioWrite | readBefore | mdioRead | mdioPoll => exact h
  | openBegin hp hs =>
    show Paired (((fecRestartSw0 f).setPri .opening).setSub .restartReset)
    refine h.congr ⟨rfl, by simp [Fep.setSub], by simp [Fep.setSub]⟩ ?_ rfl rfl
      (fun a b hab => .inl hab)
    constructor
    · intro hpo
      cases hpo.2
    · intro hpo
      have hlive := hpo.1
      rw [hp] at hlive
      exact absurd hlive (by decide)
  | shutdown hf =>
    refine h.congr hf.2 ?_ rfl rfl (fun a b hab => .inl hab)
    exact ⟨fun _ => hf.polled, fun _ => ⟨.inr rfl, hf.2⟩⟩
  | stopBegin v f' hf ho hpre =>
    rw [fecEnetAdjustLinkSwStopPre, disableNapis_of_polled h hf.polled] at hpre
    cases hpre
    exact h.begin hf rfl .stopGetRmii rfl (by decide) (by decide) (by decide) rfl rfl rfl
  | restartBegin f' hf ho hpre =>
    rw [fecEnetAdjustLinkSwRestartPre, disableNapis_of_polled h hf.polled] at hpre
    cases hpre
    exact h.begin hf rfl .restartReset rfl (by decide) (by decide) (by decide) rfl rfl rfl
  | reset hf hs =>
    exact h.restart hf hs (by decide) rfl .restartInit rfl rfl (by decide) (by decide) rfl rfl
      fun a b hab => .inl (Paired.log_ioWrites f _ hab)
  | initFull hf hs | initHalf hf hs =>
    exact h.restart hf hs (by decide) rfl .restartMiiMode rfl rfl (by decide) (by decide) rfl rfl
      fun a b hab => log_fecRestartSw2 h (not_polled_of_sub hs (by decide)) hab
  | miiMode v hf hs =>
    exact h.restart hf hs (by decide) rfl .restartMiiSpeed rfl rfl (by decide) (by decide)
      rfl rfl fun a b hab => .inl hab
  | rsem hf hs =>
    exact h.restart hf hs (by decide) rfl .restartFceEn rfl rfl (by decide) (by decide)
      rfl rfl fun a b hab => .inl hab
  | rcntrl v hf hs =>
    have hsn : f.sfecState.subSt ≠ .none := by
      rcases hs with hs | hs <;> rw [hs] <;> decide
    refine h.restart hf rfl hsn ?_ .restartRCntrl rfl rfl (by decide) (by decide) ?_ ?_ ?_
    all_goals simp only [restartWriteRCntrl]; split
    all_goals first | rfl | skip
    · exact fun a b hab => .inl (Paired.log_ioWrites f _ (Paired.log_ioWrites _ _ hab))
    · exact fun a b hab => .inl (Paired.log_ioWrites f _ hab)
  | ecntrl v hf hs =>
    refine h.restart hf hs (by decide) rfl .restartEcntrl rfl rfl (by decide) (by decide) rfl
      rfl fun a b hab => .inl ?_
    exact Paired.log_ioWrites f _ (Paired.log_ioWrites _ _ (Paired.log_ioWrites _ _
      (Paired.log_ioWrites _ _ hab)))
  | imask v r hf hs ho hv hr => exact restartWriteImask_paired h hs hr
  | openEnd p f' hp hpl ho hpost => exact fecEnetOpenSw_paired h hp hpl hpost
  | stopXmit hf hs | stopIevent v hf hs | stopImask hf hs | stopMiiSpeed v hf hs
  | stopEcntrl hf hs =>
    exact h.stop hf hs (by decide) rfl
  | stopReset hf hs =>
    rcases hs with hs | hs <;> exact h.stop hf hs (by decide) rfl
  | stopEnd r hf hs ho hr => exact stopWriteRCntrl_paired h hf hs hr

/-! ## Panics -/

/-- The two panics with which the monitor answers the normal world. -/
def NwPanic (a : Abort) : Prop :=
  a = .panic "Unexpected NW behaviour" ∨ a = .panic "Invalid FEC primary state"

theorem nwPanic_of_statePanic {α : Type} (h : (fecStatePanic : Except Abort α) = .error a) :
    NwPanic a := by
  cases h
  exact .inl rfl

theorem Checked.after_eq_error {x : Except Abort Fep} {k : Fep → Checked}
    (h : Checked.after x k = .error a) : x = .error a := by
  cases x with
  | error e => cases h; rfl
  | ok f => cases h

theorem restartWriteImask_error (h : Paired f) (hs : f.sfecState.subSt = .restartEcntrl)
    (he : restartWriteImask f v = .error a) : NwPanic a := by
  simp only [restartWriteImask] at he
  split at he
  · cases he
  · split at he
    · exact nwPanic_of_statePanic he
    · have hpost := Checked.after_eq_error he
      rw [fecEnetAdjustLinkSwRestartPost, enableNapis_of_not_polled h
        (not_polled_of_sub hs (by decide))
        (g := ((fecRestartSw6 f).setPri .running).setSub .none) rfl rfl] at hpost
      cases hpost

theorem fecEmulateFecRestart_error (h : Paired f)
    (he : fecEmulateFecRestart c hw f offset s v = .error a) : NwPanic a := by
  unfold fecEmulateFecRestart at he
  repeat' split at he
  all_goals first
    | exact nwPanic_of_statePanic he
    | exact restartWriteImask_error h ‹_› he
    | cases he

theorem stopWriteRCntrl_error (h : Paired f) (hs : f.sfecState.subSt = .stopEcntrl)
    (he : stopWriteRCntrl f v = .error a) : NwPanic a := by
  rw [stopWriteRCntrl] at he
  split at he
  · exact nwPanic_of_statePanic he
  · have hpost := Checked.after_eq_error he
    rw [fecEnetAdjustLinkSwStopPost] at hpost
    split at hpost
    · cases hpost
    · rw [enableNapis_of_not_polled h (not_polled_of_sub hs (by decide)) (g := f.setRmiiMode 0)
        rfl rfl] at hpost
      cases hpost

theorem fecEmulateFecStop_error (h : Paired f) (he : fecEmulateFecStop f offset s v = .error a) :
    NwPanic a := by
  unfold fecEmulateFecStop at he
  repeat' split at he
  all_goals first
    | exact nwPanic_of_statePanic he
    | exact stopWriteRCntrl_error h ‹_› he
    | cases he

theorem fecEmuCheckIdle_error (h : Paired f) (hp : f.Polled)
    (he : fecEmuCheckIdle f offset s v = .error a) : NwPanic a := by
  have hdis := disableNapis_of_polled h hp true
  unfold fecEmuCheckIdle at he
  repeat' split at he
  all_goals first
    | exact nwPanic_of_statePanic he
    | cases he
    | skip
  · have hpre := Checked.after_eq_error he
    rw [fecEnetAdjustLinkSwStopPre, hdis] at hpre
    cases hpre
  · have hpre := Checked.after_eq_error he
    rw [fecEnetAdjustLinkSwRestartPre, hdis] at hpre
    cases hpre

theorem fecEmuCheckLive_error (h : Paired f) (hp : f.sfecState.primarySt.Live)
    (he : fecEmuCheckLive c hw f offset s v = .error a) : NwPanic a := by
  unfold fecEmuCheckLive at he
  split at he
  · rename_i hs
    exact fecEmuCheckIdle_error h ⟨.inl hp, hs⟩ he
  · split at he
    · exact fecEmulateFecStop_error h he
    · split at he
      · exact nwPanic_of_statePanic he
      · split at he
        · exact fecEmulateFecRestart_error h he
        · exact nwPanic_of_statePanic he

theorem fecEmuCheckPostOpen_error (h : Paired f) (hp : f.sfecState.primarySt = .postOpen)
    (he : fecEmuCheckPostOpen f offset s v = .error a) : NwPanic a := by
  have hnp : ¬ f.Polled := by
    rintro ⟨hlive, -⟩
    rw [hp] at hlive
    exact absurd hlive (by decide)
  have hopen : ∀ p : SfecPri, fecEnetOpenSw ((f.setPri p).setSub .none) ≠ .error a := by
    intro p hpost
    rw [fecEnetOpenSw, enableNapis_of_not_polled h hnp (g := (f.setPri p).setSub .none) rfl
      rfl] at hpost
    cases hpost
  unfold fecEmuCheckPostOpen at he
  split at he
  · exact nwPanic_of_statePanic he
  · split at he
    · exact absurd (Checked.after_eq_error he) (hopen _)
    · exact absurd (Checked.after_eq_error he) (hopen _)
    · exact nwPanic_of_statePanic he

/-- **Only the monitor itself panics.**  The hooks never do. -/
theorem fecEmuCheck_error (h : Paired f) (he : fecEmuCheck c hw f offset s v size = .error a) :
    NwPanic a := by
  unfold fecEmuCheck at he
  repeat' split at he
  any_goals cases he
  unfold fecEmuCheckPri at he
  split at he
  · split at he
    · exact nwPanic_of_statePanic he
    · cases he
  · exact fecEmuCheckLive_error h (.inl ‹_›) he
  · exact fecEmuCheckLive_error h (.inr (.inl ‹_›)) he
  · exact fecEmuCheckLive_error h (.inr (.inr ‹_›)) he
  · split at he
    · exact nwPanic_of_statePanic he
    · exact fecEmulateFecRestart_error h he
  · exact fecEmuCheckPostOpen_error h ‹_› he
  · cases he
    exact .inr rfl

/-! ## Accesses and runs -/

theorem fecWrite_gives (h : Paired f) :
    Gives NwPanic (fun r => Paired r.2) (fecWrite c hw f offset v size) := by
  unfold fecWrite
  cases hr : fecEmuCheck c hw f offset .write v size with
  | error a => exact fecEmuCheck_error h hr
  | ok r => exact (FecMove.of_ok hr).paired h

theorem fecRead_gives (h : Paired f) :
    Gives NwPanic (fun r => Paired r.2) (fecRead c hw f offset v size) := by
  unfold fecRead
  cases hr : fecEmuCheck c hw f offset .readBefore v size with
  | error a => exact fecEmuCheck_error h hr
  | ok r =>
    have hr' : Paired r.fep := (FecMove.of_ok hr).paired h
    dsimp only
    split
    · exact hr'
    · cases hq : fecEmuCheck c hw r.fep offset .readAfter (hw offset) size with
      | error a => exact fecEmuCheck_error hr' hq
      | ok q => exact (FecMove.of_ok hq).paired hr'

theorem fecStep_gives (c : FecConfig) (h : Paired f) (e : FecEvent) :
    Gives NwPanic Paired (fecStep c f e) := by
  cases e with
  | access a hw =>
    have hacc : Gives NwPanic (fun r => Paired r.2) (fecAccess c hw f a) := by
      unfold fecAccess
      split
      · exact fecWrite_gives h
      · exact fecRead_gives h
    simp only [fecStep, fecAnswer]
    cases hr : fecAccess c hw f a with
    | error e | ok r => rw [hr] at hacc; exact hacc
  | rx e => exact ⟨h.shape, h.rx.event e, h.routeTx, h.rings⟩
  | routeTx e => exact ⟨h.shape, h.rx, h.routeTx.event e, h.rings⟩
  | egress s k => exact ⟨h.shape, h.rx, h.routeTx, h.rings⟩

/-- Every state of every run. -/
theorem paired_of_run {es : List FecEvent}
    (hr : Run (fecStep c) (fun _ _ => True) fecProbed es f) : Paired f := by
  refine hr.inv (fun s e s' hs _ he => ?_) fecProbed_paired
  have hg := fecStep_gives c hs e
  rw [he] at hg
  exact hg

/-- **Rings are rebuilt only while nobody polls.**  In every run after probe the two contexts
are enabled exactly while the device is open and no restart or stop is under way; the panics of
`napi_disable` and `napi_enable` are not reached, and whenever the descriptor rings were
initialised both contexts were disabled. -/
theorem contexts_enabled_iff_polled (c : FecConfig) {es : List FecEvent} {f : Fep}
    (hr : Run (fecStep c) (fun _ _ => True) fecProbed es f) :
    (f.rxNapi.disable = false ↔ f.Polled) ∧ (f.routeTxNapi.disable = false ↔ f.Polled) ∧
    (∀ e a, fecStep c f e = .error a →
      a ≠ .panic "already disabled" ∧ a ≠ .panic "enabling not-disabled") ∧
    (∀ rxDisabled routeTxDisabled, SwOp.bdInit rxDisabled routeTxDisabled ∈ f.log →
      rxDisabled = true ∧ routeTxDisabled = true) := by
  have h := paired_of_run hr
  refine ⟨h.rx.enabled, h.routeTx.enabled, ?_, h.rings⟩
  intro e a he
  have hg := fecStep_gives c h e
  rw [he] at hg
  rcases hg with rfl | rfl <;> exact ⟨by decide, by decide⟩

/-- A 32-bit write of the normal world. -/
def FecEvent.nwWrite (offset value : Word) : FecEvent :=
  .access ⟨.write, offset, value, 4⟩ fun _ => 0

/-- The accesses of an open without a link, in full duplex mode. -/
def openAccesses : List FecEvent :=
  [.nwWrite fecMiiSpeed 0x1a, .nwWrite fecEcntrl 1, .nwWrite fecIevent 0xffffffff,
    .nwWrite fecXCntrl 0x04, .nwWrite fecMiiSpeed 0x1a, .nwWrite fecRCntrl 0x40,
    .nwWrite fecEcntrl 0x20, .nwWrite fecImask fecEnetMii, .nwWrite fecXWmrk 47]

/-- Once the device is open the contexts are enabled, and the rings were initialised. -/
theorem contexts_enabled_of_open :
    ∃ f, Run (fecStep ⟨0, 0, 0, 0⟩) (fun _ _ => True) fecProbed openAccesses f ∧
      f.rxNapi.disable = false ∧ f.routeTxNapi.disable = false ∧ SwOp.bdInit true true ∈ f.log := by
  obtain ⟨f, hr, hf⟩ : ∃ f, Run (fecStep ⟨0, 0, 0, 0⟩) (fun _ _ => True) fecProbed openAccesses f ∧
      decide (f.Polled ∧ SwOp.bdInit true true ∈ f.log) = true :=
    exists_run_of_exec (by decide +kernel)
  obtain ⟨hp, hlog⟩ := of_decide_eq_true hf
  obtain ⟨hrx, htx, -, -⟩ := contexts_enabled_iff_polled ⟨0, 0, 0, 0⟩ hr
  exact ⟨f, hr, hrx.mpr hp, htx.mpr hp, hlog⟩

end TrustedGateway
