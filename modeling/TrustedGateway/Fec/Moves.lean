import TrustedGateway.Fec.Monitor

/-!
# What the monitor can do

Every call of `fec_emu_check` that returns is one of the moves of `FecMove`.  A property of
the monitor is proved by a case distinction over them; the code is taken apart only here.
-/

namespace TrustedGateway

open StepSystem

variable {c : FecConfig} {hw : Word → Word}

/-- The primary states of an opened device. -/
def SfecPri.Live (p : SfecPri) : Prop := p = .restarted ∨ p = .stopped ∨ p = .running

instance (p : SfecPri) : Decidable p.Live := inferInstanceAs (Decidable (_ ∨ _ ∨ _))

namespace Fep

/-- A restart is under way, from an open or from a change of the link. -/
def Restarting (f : Fep) : Prop := f.sfecState.primarySt = .opening ∨ f.sfecState.primarySt.Live

/-- An opened device without a sub-state. -/
def Idle (f : Fep) : Prop := f.sfecState.primarySt.Live ∧ f.sfecState.subSt = .none

end Fep

/-- The calls of `fec_emu_check` that return: the state of the access, the value before, and
what is returned. -/
inductive FecMove (c : FecConfig) (hw : Word → Word) (f : Fep) (offset : Word) :
    EmuState → Word → Checked → Prop
  -- accesses that leave the monitor alone
  | refuse (s : EmuState) (v : Word) : FecMove c hw f offset s v ⟨false, v, f⟩
  | miiInit (v : Word) (hp : f.sfecState.primarySt = .probed) (ho : offset = fecMiiSpeed) :
      FecMove c hw f offset .write v ⟨true, v, f⟩
  | mdioWrite (v : Word) (ho : offset = fecMiiData) : FecMove c hw f offset .write v ⟨true, v, f⟩
  | readBefore (v : Word)
      (ho : offset = fecMiiData ∨ offset = fecIevent ∨ offset = fecRCntrl ∧ f.Idle) :
      FecMove c hw f offset .readBefore v ⟨true, v, f⟩
  | mdioRead (v : Word) (ho : offset = fecMiiData) :
      FecMove c hw f offset .readAfter v ⟨true, v &&& 0xffff, f⟩
  | mdioPoll (v : Word) (ho : offset = fecIevent) (hs : f.sfecState.subSt ≠ .stopXmitStop) :
      FecMove c hw f offset .readAfter v ⟨true, v &&& fecEnetMii, f⟩
  -- an open, and the first accesses of a shutdown, a stop and a restart
  | openBegin (hp : f.sfecState.primarySt = .probed) (hs : f.sfecState.subSt = .none)
      (ho : offset = fecEcntrl) :
      FecMove c hw f offset .write 1
        ⟨true, 1, ((fecRestartSw0 f).setPri .opening).setSub .restartReset⟩
  | shutdown (hf : f.Idle) (ho : offset = fecXWmrk) :
      FecMove c hw f offset .write 48 ⟨false, 48, f.setPri .shuttingDown⟩
  | stopBegin (v : Word) (f' : Fep) (hf : f.Idle) (ho : offset = fecRCntrl)
      (hpre : fecEnetAdjustLinkSwStopPre f = .ok f') :
      FecMove c hw f offset .readAfter v
        ⟨true, v &&& 1#32 <<< 8, (f'.setRmiiMode (v &&& 1#32 <<< 8)).setSub .stopGetRmii⟩
  | restartBegin (f' : Fep) (hf : f.Idle) (ho : offset = fecEcntrl)
      (hpre : fecEnetAdjustLinkSwRestartPre f = .ok f') :
      FecMove c hw f offset .write 1 ⟨true, 1, (fecRestartSw0 f').setSub .restartReset⟩
  -- a restart
  | reset (hf : f.Restarting) (hs : f.sfecState.subSt = .restartReset) (ho : offset = fecIevent) :
      FecMove c hw f offset .write 0xffffffff
        ⟨true, 0xffffffff, (fecRestartSw1 c f).setSub .restartInit⟩
  | initFull (hf : f.Restarting) (hs : f.sfecState.subSt = .restartInit)
      (ho : offset = fecXCntrl) :
      FecMove c hw f offset .write 0x04 ⟨true, 0x04, (fecRestartSw2 c f).setSub .restartMiiMode⟩
  | initHalf (hf : f.Restarting) (hs : f.sfecState.subSt = .restartInit)
      (ho : offset = fecXCntrl) :
      FecMove c hw f offset .write 0x0
        ⟨true, 0x0, ((fecRestartSw2 c f).setRcntl (f.sfecState.rcntl ||| 0x02)).setSub
          .restartMiiMode⟩
  | miiMode (v : Word) (hf : f.Restarting) (hs : f.sfecState.subSt = .restartMiiMode)
      (ho : offset = fecMiiSpeed) :
      FecMove c hw f offset .write v ⟨true, v, f.setSub .restartMiiSpeed⟩
  | rsem (hf : f.Restarting) (hs : f.sfecState.subSt = .restartMiiSpeed)
      (ho : offset = fecRFifoRsem) :
      FecMove c hw f offset .write fecEnetRsemV ⟨true, fecEnetRsemV, f.setSub .restartFceEn⟩
  | rcntrl (v : Word) (hf : f.Restarting)
      (hs : f.sfecState.subSt = .restartMiiSpeed ∨ f.sfecState.subSt = .restartFceEn)
      (ho : offset = fecRCntrl) :
      FecMove c hw f offset .write v (restartWriteRCntrl hw f v)
  | ecntrl (v : Word) (hf : f.Restarting) (hs : f.sfecState.subSt = .restartRCntrl)
      (ho : offset = fecEcntrl) :
      FecMove c hw f offset .write v (restartWriteEcntrl hw f v)
  | imask (v : Word) (r : Checked) (hf : f.Restarting) (hs : f.sfecState.subSt = .restartEcntrl)
      (ho : offset = fecImask) (hv : v = fecDefaultImask ∨ v = fecEnetMii)
      (hr : restartWriteImask f v = .ok r) :
      FecMove c hw f offset .write v r
  | openEnd (p : SfecPri) (f' : Fep) (hp : f.sfecState.primarySt = .postOpen)
      (hpl : p = .running ∨ p = .restarted) (ho : offset = fecXWmrk)
      (hpost : fecEnetOpenSw ((f.setPri p).setSub .none) = .ok f') :
      FecMove c hw f offset .write 47 ⟨false, 47, f'⟩
  -- a stop
  | stopXmit (hf : f.sfecState.primarySt.Live) (hs : f.sfecState.subSt = .stopGetRmii)
      (ho : offset = fecXCntrl) :
      FecMove c hw f offset .write 1 ⟨true, 1, f.setSub .stopXmitStop⟩
  | stopIevent (v : Word) (hf : f.sfecState.primarySt.Live)
      (hs : f.sfecState.subSt = .stopXmitStop) (ho : offset = fecIevent) :
      FecMove c hw f offset .readAfter v ⟨true, v &&& fecEnetGra, f.setSub .stopGetIevent⟩
  | stopReset (hf : f.sfecState.primarySt.Live)
      (hs : f.sfecState.subSt = .stopGetRmii ∨ f.sfecState.subSt = .stopGetIevent)
      (ho : offset = fecEcntrl) :
      FecMove c hw f offset .write 1 ⟨true, 1, f.setSub .stopReset⟩
  | stopImask (hf : f.sfecState.primarySt.Live) (hs : f.sfecState.subSt = .stopReset)
      (ho : offset = fecImask) :
      FecMove c hw f offset .write fecEnetMii ⟨true, fecEnetMii, f.setSub .stopMiiImask⟩
  | stopMiiSpeed (v : Word) (hf : f.sfecState.primarySt.Live)
      (hs : f.sfecState.subSt = .stopMiiImask) (ho : offset = fecMiiSpeed) :
      FecMove c hw f offset .write v ⟨true, v, f.setSub .stopMiiSpeed⟩
  | stopEcntrl (hf : f.sfecState.primarySt.Live) (hs : f.sfecState.subSt = .stopMiiSpeed)
      (ho : offset = fecEcntrl) :
      FecMove c hw f offset .write 2 ⟨true, 2, f.setSub .stopEcntrl⟩
  | stopEnd (r : Checked) (hf : f.sfecState.primarySt.Live)
      (hs : f.sfecState.subSt = .stopEcntrl) (ho : offset = fecRCntrl)
      (hr : stopWriteRCntrl f f.sfecState.rmiiMode = .ok r) :
      FecMove c hw f offset .write f.sfecState.rmiiMode r

variable {r : Checked}

theorem Checked.after_eq_ok {x : Except Abort Fep} {k : Fep → Checked}
    (h : Checked.after x k = .ok r) : ∃ f, x = .ok f ∧ k f = r := by
  cases x with
  | error a => cases h
  | ok f => exact ⟨f, rfl, Except.ok.inj h⟩

theorem fecStatePanic_ne_ok {α : Type} {a : α} : fecStatePanic ≠ .ok a := by
  intro h
  cases h

/-- A check that was passed. -/
theorem guard_eq_ok {p : Prop} [Decidable p] {x : Except Abort Checked} :
    (if p then fecStatePanic else x) = .ok r ↔ ¬ p ∧ x = .ok r := by
  by_cases hp : p
  · rw [if_pos hp]
    exact ⟨fun h => absurd h fecStatePanic_ne_ok, fun h => absurd hp h.1⟩
  · rw [if_neg hp]
    exact ⟨fun h => ⟨hp, h⟩, And.right⟩

namespace FecMove

variable {f : Fep} {offset v : Word} {s : EmuState} {r : Checked}

theorem of_restart (hf : f.Restarting) (h : fecEmulateFecRestart c hw f offset s v = .ok r) :
    FecMove c hw f offset s v r := by
  unfold fecEmulateFecRestart at h
  rw [guard_eq_ok] at h
  obtain ⟨hst, h⟩ := h
  obtain rfl := not_not.mp hst
  split at h
  · rename_i hs
    rw [guard_eq_ok] at h
    obtain ⟨hc, h⟩ := h
    obtain ⟨ho, rfl⟩ : offset = fecIevent ∧ v = 0xffffffff := by simpa using hc
    cases h
    exact .reset hf hs ho
  · rename_i hs
    rw [guard_eq_ok] at h
    obtain ⟨hc, h⟩ := h
    obtain ⟨ho, hv⟩ : offset = fecXCntrl ∧ (¬ v = 0x04 → v = 0x0) := by simpa using hc
    cases h
    by_cases h0 : v = 0x0
    · subst h0
      exact .initHalf hf hs ho
    · obtain rfl : v = 0x04 := by
        by_contra h4
        exact h0 (hv h4)
      exact .initFull hf hs ho
  · rename_i hs
    rw [guard_eq_ok] at h
    obtain ⟨hc, h⟩ := h
    cases h
    exact .miiMode v hf hs (not_not.mp hc)
  · rename_i hs
    split at h
    · rename_i ho
      rw [guard_eq_ok] at h
      obtain ⟨hv, h⟩ := h
      obtain rfl := not_not.mp hv
      cases h
      exact .rsem hf hs ho
    · rw [guard_eq_ok] at h
      obtain ⟨hc, h⟩ := h
      cases h
      exact .rcntrl v hf (.inl hs) (not_not.mp hc)
  · rename_i hs
    rw [guard_eq_ok] at h
    obtain ⟨hc, h⟩ := h
    cases h
    exact .rcntrl v hf (.inr hs) (not_not.mp hc)
  · rename_i hs
    rw [guard_eq_ok] at h
    obtain ⟨hc, h⟩ := h
    cases h
    exact .ecntrl v hf hs (not_not.mp hc)
  · rename_i hs
    rw [guard_eq_ok] at h
    obtain ⟨hc, h⟩ := h
    obtain ⟨ho, hv⟩ : offset = fecImask ∧ (¬ v = fecDefaultImask → v = fecEnetMii) := by
      simpa using hc
    exact .imask v r hf hs ho (or_iff_not_imp_left.mpr hv) h
  · exact absurd h fecStatePanic_ne_ok

theorem of_stop (hf : f.sfecState.primarySt.Live) (h : fecEmulateFecStop f offset s v = .ok r) :
    FecMove c hw f offset s v r := by
  unfold fecEmulateFecStop at h
  split at h
  · rename_i hs
    rw [guard_eq_ok] at h
    obtain ⟨hst, h⟩ := h
    obtain rfl := not_not.mp hst
    split at h
    · rename_i hc
      obtain ⟨ho, rfl⟩ := hc
      cases h
      exact .stopXmit hf hs ho
    · rw [guard_eq_ok] at h
      obtain ⟨hc, h⟩ := h
      obtain ⟨ho, rfl⟩ : offset = fecEcntrl ∧ v = 1 := by simpa using hc
      cases h
      exact .stopReset hf (.inl hs) ho
  · rename_i hs
    rw [guard_eq_ok] at h
    obtain ⟨hst, h⟩ := h
    obtain rfl := not_not.mp hst
    rw [guard_eq_ok] at h
    obtain ⟨hc, h⟩ := h
    obtain ⟨ho, rfl⟩ : offset = fecEcntrl ∧ v = 1 := by simpa using hc
    cases h
    exact .stopReset hf (.inr hs) ho
  · rename_i hs
    rw [guard_eq_ok] at h
    obtain ⟨hc, h⟩ := h
    obtain ⟨ho, hw'⟩ : offset = fecIevent ∧ ¬ s = .write := by simpa using hc
    split at h
    · rename_i hb
      subst hb
      cases h
      exact .readBefore v (.inr (.inl ho))
    · rename_i hb
      obtain rfl : s = .readAfter := by
        cases s with
        | readBefore => exact absurd rfl hb
        | readAfter => rfl
        | write => exact absurd rfl hw'
      cases h
      exact .stopIevent v hf hs ho
  · rename_i hs
    rw [guard_eq_ok] at h
    obtain ⟨hc, h⟩ := h
    obtain ⟨ho, rfl, rfl⟩ : offset = fecImask ∧ v = fecEnetMii ∧ s = .write := by
      simpa using hc
    cases h
    exact .stopImask hf hs ho
  · rename_i hs
    rw [guard_eq_ok] at h
    obtain ⟨hc, h⟩ := h
    obtain ⟨ho, rfl⟩ : offset = fecMiiSpeed ∧ s = .write := by simpa using hc
    cases h
    exact .stopMiiSpeed v hf hs ho
  · rename_i hs
    rw [guard_eq_ok] at h
    obtain ⟨hc, h⟩ := h
    obtain ⟨ho, rfl, rfl⟩ : offset = fecEcntrl ∧ v = 2 ∧ s = .write := by simpa using hc
    cases h
    exact .stopEcntrl hf hs ho
  · rename_i hs
    rw [guard_eq_ok] at h
    obtain ⟨hc, h⟩ := h
    obtain ⟨ho, rfl⟩ : offset = fecRCntrl ∧ s = .write := by simpa using hc
    obtain rfl : v = f.sfecState.rmiiMode := by
      by_contra hv
      rw [stopWriteRCntrl, if_pos hv] at h
      exact fecStatePanic_ne_ok h
    exact .stopEnd r hf hs ho h
  · exact absurd h fecStatePanic_ne_ok

theorem of_idle (hf : f.Idle) (h : fecEmuCheckIdle f offset s v = .ok r) :
    FecMove c hw f offset s v r := by
  unfold fecEmuCheckIdle at h
  split at h
  · rename_i hc
    obtain ⟨ho, rfl, rfl⟩ := hc
    cases h
    exact .shutdown hf ho
  · split at h
    · rename_i ho
      split at h
      · rename_i hs
        subst hs
        cases h
        exact .readBefore v (.inr (.inr ⟨ho, hf⟩))
      · rw [guard_eq_ok] at h
        obtain ⟨hs, h⟩ := h
        obtain rfl := not_not.mp hs
        obtain ⟨f', hpre, rfl⟩ := Checked.after_eq_ok h
        exact .stopBegin v f' hf ho hpre
    · split at h
      · rename_i hc
        obtain ⟨ho, rfl, rfl, -⟩ := hc
        obtain ⟨f', hpre, rfl⟩ := Checked.after_eq_ok h
        exact .restartBegin f' hf ho hpre
      · exact absurd h fecStatePanic_ne_ok

theorem of_live (hf : f.sfecState.primarySt.Live)
    (h : fecEmuCheckLive c hw f offset s v = .ok r) : FecMove c hw f offset s v r := by
  unfold fecEmuCheckLive at h
  split at h
  · rename_i hs
    exact of_idle ⟨hf, hs⟩ h
  · split at h
    · exact of_stop hf h
    · rw [guard_eq_ok] at h
      obtain ⟨-, h⟩ := h
      split at h
      · exact of_restart (.inr hf) h
      · exact absurd h fecStatePanic_ne_ok

theorem of_postOpen (hp : f.sfecState.primarySt = .postOpen)
    (h : fecEmuCheckPostOpen f offset s v = .ok r) : FecMove c hw f offset s v r := by
  unfold fecEmuCheckPostOpen at h
  rw [guard_eq_ok] at h
  obtain ⟨hc, h⟩ := h
  obtain ⟨ho, rfl, rfl⟩ : offset = fecXWmrk ∧ v = 47 ∧ s = .write := by simpa using hc
  split at h
  · obtain ⟨f', hpost, rfl⟩ := Checked.after_eq_ok h
    exact .openEnd .running f' hp (.inl rfl) ho hpost
  · obtain ⟨f', hpost, rfl⟩ := Checked.after_eq_ok h
    exact .openEnd .restarted f' hp (.inr rfl) ho hpost
  · exact absurd h fecStatePanic_ne_ok

theorem of_pri (h : fecEmuCheckPri c hw f offset s v = .ok r) :
    FecMove c hw f offset s v r := by
  unfold fecEmuCheckPri at h
  split at h
  · rename_i hp
    rw [guard_eq_ok] at h
    obtain ⟨hc, h⟩ := h
    obtain ⟨hs, ho, rfl, rfl⟩ :
        f.sfecState.subSt = .none ∧ offset = fecEcntrl ∧ v = 1 ∧ s = .write := by
      simpa using hc
    cases h
    exact .openBegin hp hs ho
  · rename_i hp
    exact of_live (.inl hp) h
  · rename_i hp
    exact of_live (.inr (.inl hp)) h
  · rename_i hp
    exact of_live (.inr (.inr hp)) h
  · rename_i hp
    rw [guard_eq_ok] at h
    obtain ⟨-, h⟩ := h
    exact of_restart (.inl hp) h
  · rename_i hp
    exact of_postOpen hp h
  · cases h

/-- **Inversion of the monitor.** -/
theorem of_ok {size : ℕ} (h : fecEmuCheck c hw f offset s v size = .ok r) :
    FecMove c hw f offset s v r := by
  unfold fecEmuCheck at h
  split at h
  · cases h
    exact .refuse s v
  · split at h
    · cases h
      exact .refuse s v
    · split at h
      · rename_i hc
        obtain ⟨hp, ho, rfl⟩ := hc
        cases h
        exact .miiInit v hp ho
      · split at h
        · rename_i ho
          cases s with
          | write => cases h; exact .mdioWrite v ho
          | readBefore => cases h; exact .readBefore v (.inl ho)
          | readAfter => cases h; exact .mdioRead v ho
        · split at h
          · rename_i hc
            obtain ⟨ho, hne, hs⟩ := hc
            cases s with
            | write => exact absurd rfl hne
            | readBefore => cases h; exact .readBefore v (.inr (.inl ho))
            | readAfter => cases h; exact .mdioPoll v ho hs
          · exact of_pri h

end FecMove

/-! ## The hooks leave the state of the monitor alone -/

section Hooks

variable {f f' : Fep}

theorem sfecState_disableNapis (h : disableNapis f = .ok f') : f'.sfecState = f.sfecState := by
  unfold disableNapis at h
  repeat' split at h
  all_goals cases h
  rfl

theorem sfecState_enableNapis (h : enableNapis f = .ok f') : f'.sfecState = f.sfecState := by
  unfold enableNapis at h
  repeat' split at h
  all_goals cases h
  rfl

/-- Waking the queue only schedules the forwarding context. -/
theorem netifTxWakeQueue_eq (g : Fep) :
    ∃ n k t, netifTxWakeQueue g = { g with routeTxNapi := n, noKick := k, txStopped := t } ∧
      (n = g.routeTxNapi ∨ n = napiSchedule g.routeTxNapi) := by
  by_cases ht : g.txStopped
  · refine ⟨if g.noKick then g.routeTxNapi else napiSchedule g.routeTxNapi, true, false, ?_, ?_⟩
    · by_cases hk : g.noKick <;>
        simp [netifTxWakeQueue, fecEgrNtfyHandler, fecScheduleXmit, ht, hk]
    · by_cases hk : g.noKick
      · exact .inl (if_pos hk)
      · exact .inr (if_neg hk)
  · exact ⟨_, _, _, if_neg ht, .inl rfl⟩

theorem sfecState_restartPost (h : fecEnetAdjustLinkSwRestartPost f = .ok f') :
    f'.sfecState = f.sfecState := by
  unfold fecEnetAdjustLinkSwRestartPost at h
  split at h
  · cases h
  · rename_i g hg
    cases h
    obtain ⟨n, k, t, heq, -⟩ := netifTxWakeQueue_eq g
    rw [heq]
    exact (sfecState_enableNapis hg :)

theorem sfecState_stopPost (h : fecEnetAdjustLinkSwStopPost f = .ok f') :
    f'.sfecState = f.sfecState := by
  unfold fecEnetAdjustLinkSwStopPost at h
  split at h
  · cases h
    rfl
  · exact sfecState_enableNapis h

theorem sfecState_openSw (h : fecEnetOpenSw f = .ok f') : f'.sfecState = f.sfecState := by
  unfold fecEnetOpenSw at h
  split at h
  · cases h
  · rename_i g hg
    cases h
    exact (sfecState_enableNapis hg :)

end Hooks

/-- The states in which the write to `IMASK` leaves the monitor. -/
theorem sfecState_restartWriteImask {f : Fep} {v : Word} (h : restartWriteImask f v = .ok r) :
    r.allowed = true ∧ r.value = v ∧
      (f.sfecState.primarySt = .opening ∧ r.fep.sfecState.primarySt = .postOpen ∧
          r.fep.sfecState.subSt =
            (if v = fecDefaultImask then SfecSub.restartImaskRun else .restartImaskMii) ∨
        f.sfecState.primarySt ≠ .opening ∧ v = fecDefaultImask ∧
          r.fep.sfecState.primarySt = .running ∧ r.fep.sfecState.subSt = .none) := by
  simp only [restartWriteImask] at h
  split at h
  · rename_i hp
    cases h
    exact ⟨rfl, rfl, .inl ⟨hp, rfl, rfl⟩⟩
  · rename_i hp
    rw [guard_eq_ok] at h
    obtain ⟨hv, h⟩ := h
    obtain ⟨g, hpost, rfl⟩ := Checked.after_eq_ok h
    have hs := sfecState_restartPost hpost
    exact ⟨rfl, rfl, .inr ⟨hp, not_not.mp hv, congrArg SfecState.primarySt hs,
      congrArg SfecState.subSt hs⟩⟩

/-- The states in which the last write of a stop leaves the monitor. -/
theorem sfecState_stopWriteRCntrl {f : Fep} {v : Word} (h : stopWriteRCntrl f v = .ok r) :
    r.allowed = true ∧ r.value = v ∧ r.fep.sfecState.subSt = .none ∧
      r.fep.sfecState.primarySt =
        (if f.sfecState.primarySt = .shuttingDown then SfecPri.shutDown else .stopped) := by
  rw [stopWriteRCntrl, guard_eq_ok] at h
  obtain ⟨-, h⟩ := h
  obtain ⟨g, hpost, rfl⟩ := Checked.after_eq_ok h
  have hs := congrArg SfecState.primarySt (sfecState_stopPost hpost)
  refine ⟨rfl, rfl, rfl, ?_⟩
  show (if g.sfecState.primarySt = .shuttingDown then SfecPri.shutDown else .stopped) = _
  rw [hs]
  rfl

end TrustedGateway
