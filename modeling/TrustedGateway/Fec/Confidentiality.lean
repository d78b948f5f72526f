import TrustedGateway.Fec.Monitor

/-!
# What the normal world can read

The monitor reads the hardware for the normal world, masks what it found, keeps a part of it
until the end of a stop, and reads and writes registers on its own behalf.  Two executions over
the same accesses are compared; the hardware may show them different register files, as long as
the visible bits agree.  What they have in common at every access is the whole state of the
device except the log of the secure driver.
-/

namespace TrustedGateway

open StepSystem

variable {c : FecConfig} {hw hw' : Word → Word} {f : Fep} {offset v v' : Word}
  {s : EmuState} {l : List SwOp}

/-! ## Histories and observations -/

/-- The bits that the normal world may learn: the data of a management frame, its interrupt and
the graceful stop, and the RMII mode. -/
structure VisiblyEqual (hw hw' : Word → Word) : Prop where
  miiData : hw fecMiiData &&& 0xffff = hw' fecMiiData &&& 0xffff
  mii : hw fecIevent &&& fecEnetMii = hw' fecIevent &&& fecEnetMii
  gra : hw fecIevent &&& fecEnetGra = hw' fecIevent &&& fecEnetGra
  rmii : hw fecRCntrl &&& 1#32 <<< 8 = hw' fecRCntrl &&& 1#32 <<< 8

/-- An event, before it is known what the hardware shows. -/
inductive NwEvent
  | access (a : FecAccess)
  | rx (e : NapiEvent)
  | routeTx (e : NapiEvent)
  | egress (txStopped noKick : Bool)
  deriving DecidableEq, Repr

/-- The event when the hardware shows `hw`. -/
def NwEvent.under (hw : Word → Word) : NwEvent → FecEvent
  | .access a => .access a hw
  | .rx e => .rx e
  | .routeTx e => .routeTx e
  | .egress s k => .egress s k

/-- What the normal world sees of a sequence of events from number `n` on, when the hardware has
the history `h`: the answers to its accesses up to the panic, and the panic. -/
def fecObserve (c : FecConfig) (h : ℕ → Word → Word) :
    ℕ → Fep → List NwEvent → List FecAnswer × Option Abort
  | _, _, [] => ([], none)
  | n, f, e :: es =>
    match fecAnswer c f (e.under (h n)) with
    | .error a => ([], some a)
    | .ok (ans, f) =>
      let rest := fecObserve c h (n + 1) f es
      (ans.toList ++ rest.1, rest.2)

/-! ## Results that look alike -/

/-- The same device with another log. -/
def Fep.withLog (f : Fep) (l : List SwOp) : Fep := { f with log := l }

/-- The same decision, the same value if the access is allowed, and the same device but for the
log. -/
def Alike (r r' : Checked) : Prop :=
  r.allowed = r'.allowed ∧ (r.allowed = true → r.value = r'.value) ∧
    ∃ l, r'.fep = r.fep.withLog l

variable {g : Fep} {p : Prop} {size : ℕ} {x y : Except Abort Checked}

theorem sameEnd_guard [Decidable p] (h : ¬ p → SameEnd Alike x y) :
    SameEnd Alike (if p then fecStatePanic else x) (if p then fecStatePanic else y) := by
  by_cases hp : p
  · rw [if_pos hp, if_pos hp]
    exact rfl
  · rw [if_neg hp, if_neg hp]
    exact h hp

theorem sameEnd_ite [Decidable p] {x' y' : Except Abort Checked} (h : p → SameEnd Alike x y)
    (h' : ¬ p → SameEnd Alike x' y') :
    SameEnd Alike (if p then x else x') (if p then y else y') := by
  by_cases hp : p
  · rw [if_pos hp, if_pos hp]
    exact h hp
  · rw [if_neg hp, if_neg hp]
    exact h' hp

/-- Results that differ in the log only. -/
theorem sameEnd_ok {b : Bool} {g' : Fep} (h : ∃ l, g' = g.withLog l) :
    SameEnd Alike (.ok ⟨b, v, g⟩ : Except Abort Checked) (.ok ⟨b, v, g'⟩) :=
  ⟨rfl, fun _ => rfl, h⟩

/-! ## The hooks do not look at the log -/

theorem disableNapis_withLog (f : Fep) (l : List SwOp) :
    disableNapis (f.withLog l) = (disableNapis f).map (·.withLog l) := by
  simp only [disableNapis, Fep.withLog]
  cases napiDisable f.rxNapi with
  | error a => rfl
  | ok rx =>
    cases napiDisable f.routeTxNapi with
    | error a | ok tx => rfl

theorem enableNapis_withLog (f : Fep) (l : List SwOp) :
    enableNapis (f.withLog l) = (enableNapis f).map (·.withLog l) := by
  simp only [enableNapis, Fep.withLog]
  cases napiEnable f.routeTxNapi with
  | error a => rfl
  | ok tx =>
    cases napiEnable f.rxNapi with
    | error a | ok rx => rfl

theorem netifTxWakeQueue_withLog (f : Fep) (l : List SwOp) :
    netifTxWakeQueue (f.withLog l) = (netifTxWakeQueue f).withLog l := by
  cases ht : f.txStopped <;> cases hk : f.noKick <;>
    simp [netifTxWakeQueue, fecEgrNtfyHandler, fecScheduleXmit, Fep.withLog, ht, hk]

/-- Go on after hooks that differ in the log only. -/
theorem sameEnd_after {x y : Except Abort Fep} {k k' : Fep → Checked} (hx : y = x.map (·.withLog l))
    (hk : ∀ g, Alike (k g) (k' (g.withLog l))) :
    SameEnd Alike (Checked.after x k) (Checked.after y k') := by
  subst hx
  cases x with
  | error a => rfl
  | ok g => exact hk g

theorem restartPost_withLog (f : Fep) (l : List SwOp) :
    fecEnetAdjustLinkSwRestartPost (f.withLog l) =
      (fecEnetAdjustLinkSwRestartPost f).map (·.withLog l) := by
  rw [fecEnetAdjustLinkSwRestartPost, fecEnetAdjustLinkSwRestartPost, enableNapis_withLog]
  cases enableNapis f with
  | error a => rfl
  | ok g => exact congrArg Except.ok (netifTxWakeQueue_withLog g l)

theorem openSw_withLog (f : Fep) (l : List SwOp) :
    fecEnetOpenSw (f.withLog l) = (fecEnetOpenSw f).map (·.withLog l) := by
  rw [fecEnetOpenSw, fecEnetOpenSw, enableNapis_withLog]
  cases enableNapis f with
  | error a | ok g => rfl

theorem stopPost_withLog (f : Fep) (l : List SwOp) :
    fecEnetAdjustLinkSwStopPost (f.withLog l) =
      (fecEnetAdjustLinkSwStopPost f).map (·.withLog l) := by
  unfold fecEnetAdjustLinkSwStopPost
  by_cases hp : f.sfecState.primarySt = .shuttingDown
  · rw [if_pos hp, if_pos (by exact hp)]
    rfl
  · rw [if_neg hp, if_neg (by exact hp)]
    exact enableNapis_withLog f l

/-! ## The monitor does not look at the log or at other registers -/

/-- The write to `R_CNTRL` reads a register, but only writes it back. -/
theorem restartWriteRCntrl_alike :
    Alike (restartWriteRCntrl hw f v) (restartWriteRCntrl hw' (f.withLog l) v) := by
  by_cases hs : f.sfecState.subSt = .restartFceEn
  · simp only [restartWriteRCntrl, if_pos hs,
      if_pos (show (f.withLog l).sfecState.subSt = _ from hs)]
    exact ⟨rfl, fun _ => rfl, _, rfl⟩
  · simp only [restartWriteRCntrl, if_neg hs,
      if_neg (show ¬ (f.withLog l).sfecState.subSt = _ from hs)]
    exact ⟨rfl, fun _ => rfl, _, rfl⟩

theorem restartWriteImask_sameEnd :
    SameEnd Alike (restartWriteImask f v) (restartWriteImask (f.withLog l) v) := by
  refine sameEnd_ite (fun _ => sameEnd_ok ⟨_, rfl⟩) fun _ => sameEnd_guard fun _ => ?_
  exact sameEnd_after (restartPost_withLog (((fecRestartSw6 f).setPri .running).setSub .none)
    (fecRestartSw6 (f.withLog l)).log) fun g => ⟨rfl, fun _ => rfl, _, rfl⟩

theorem fecEmulateFecRestart_sameEnd :
    SameEnd Alike (fecEmulateFecRestart c hw f offset s v)
      (fecEmulateFecRestart c hw' (f.withLog l) offset s v) := by
  refine sameEnd_guard fun _ => ?_
  have hsub : (f.withLog l).sfecState.subSt = f.sfecState.subSt := rfl
  rw [hsub]
  cases f.sfecState.subSt with
  | restartReset | restartMiiMode => exact sameEnd_guard fun _ => sameEnd_ok ⟨_, rfl⟩
  | restartInit =>
    refine sameEnd_guard fun _ => sameEnd_ok ?_
    split <;> exact ⟨_, rfl⟩
  | restartMiiSpeed =>
    refine sameEnd_ite (fun _ => sameEnd_guard fun _ => sameEnd_ok ⟨_, rfl⟩) fun _ => ?_
    exact sameEnd_guard fun _ => restartWriteRCntrl_alike
  | restartFceEn => exact sameEnd_guard fun _ => restartWriteRCntrl_alike
  | restartRCntrl =>
    refine sameEnd_guard fun _ => ?_
    exact ⟨rfl, fun _ => rfl, _, rfl⟩
  | restartEcntrl => exact sameEnd_guard fun _ => restartWriteImask_sameEnd
  | _ => exact rfl

theorem stopWriteRCntrl_sameEnd :
    SameEnd Alike (stopWriteRCntrl f v) (stopWriteRCntrl (f.withLog l) v) := by
  refine sameEnd_guard fun _ => ?_
  exact sameEnd_after (stopPost_withLog (f.setRmiiMode 0) l) fun g => ⟨rfl, fun _ => rfl, _, rfl⟩

theorem fecEmulateFecStop_sameEnd :
    SameEnd Alike (fecEmulateFecStop f offset s v)
      (fecEmulateFecStop (f.withLog l) offset s v) := by
  unfold fecEmulateFecStop
  have hsub : (f.withLog l).sfecState.subSt = f.sfecState.subSt := rfl
  rw [hsub]
  cases f.sfecState.subSt with
  | stopGetRmii =>
    refine sameEnd_guard fun _ => sameEnd_ite (fun _ => sameEnd_ok ⟨_, rfl⟩) fun _ => ?_
    exact sameEnd_guard fun _ => sameEnd_ok ⟨_, rfl⟩
  | stopGetIevent =>
    exact sameEnd_guard fun _ => sameEnd_guard fun _ => sameEnd_ok ⟨_, rfl⟩
  | stopXmitStop =>
    refine sameEnd_guard fun _ => ?_
    exact sameEnd_ite (fun _ => sameEnd_ok ⟨_, rfl⟩) fun _ => sameEnd_ok ⟨_, rfl⟩
  | stopReset | stopMiiImask | stopMiiSpeed => exact sameEnd_guard fun _ => sameEnd_ok ⟨_, rfl⟩
  | stopEcntrl => exact sameEnd_guard fun _ => stopWriteRCntrl_sameEnd
  | _ => exact rfl

theorem fecEmuCheckIdle_sameEnd :
    SameEnd Alike (fecEmuCheckIdle f offset s v) (fecEmuCheckIdle (f.withLog l) offset s v) := by
  refine sameEnd_ite (fun _ => sameEnd_ok ⟨_, rfl⟩) fun _ => sameEnd_ite (fun _ => ?_) fun _ =>
    sameEnd_ite (fun _ => ?_) fun _ => rfl
  · refine sameEnd_ite (fun _ => sameEnd_ok ⟨_, rfl⟩) fun _ => sameEnd_guard fun _ => ?_
    exact sameEnd_after (disableNapis_withLog { f with txStopped := true } l)
      fun g => ⟨rfl, fun _ => rfl, _, rfl⟩
  · exact sameEnd_after (disableNapis_withLog { f with txStopped := true } l)
      fun g => ⟨rfl, fun _ => rfl, _, rfl⟩

theorem fecEmuCheckLive_sameEnd :
    SameEnd Alike (fecEmuCheckLive c hw f offset s v)
      (fecEmuCheckLive c hw' (f.withLog l) offset s v) := by
  refine sameEnd_ite (fun _ => fecEmuCheckIdle_sameEnd) fun _ => ?_
  refine sameEnd_ite (fun _ => fecEmulateFecStop_sameEnd) fun _ => sameEnd_guard fun _ => ?_
  exact sameEnd_ite (fun _ => fecEmulateFecRestart_sameEnd) fun _ => rfl

theorem fecEmuCheckPostOpen_sameEnd :
    SameEnd Alike (fecEmuCheckPostOpen f offset s v)
      (fecEmuCheckPostOpen (f.withLog l) offset s v) := by
  refine sameEnd_guard fun _ => ?_
  have hsub : (f.withLog l).sfecState.subSt = f.sfecState.subSt := rfl
  rw [hsub]
  cases f.sfecState.subSt with
  | restartImaskRun =>
    exact sameEnd_after (openSw_withLog ((f.setPri .running).setSub .none) l)
      fun g => ⟨rfl, fun _ => rfl, _, rfl⟩
  | restartImaskMii =>
    exact sameEnd_after (openSw_withLog ((f.setPri .restarted).setSub .none) l)
      fun g => ⟨rfl, fun _ => rfl, _, rfl⟩
  | _ => exact rfl

/-- The monitor ends alike on devices that differ in the log. -/
theorem fecEmuCheck_sameEnd :
    SameEnd Alike (fecEmuCheck c hw f offset s v size)
      (fecEmuCheck c hw' (f.withLog l) offset s v size) := by
  refine sameEnd_ite (fun _ => sameEnd_ok ⟨_, rfl⟩) fun _ => ?_
  refine sameEnd_ite (fun _ => sameEnd_ok ⟨_, rfl⟩) fun _ => ?_
  refine sameEnd_ite (fun _ => sameEnd_ok ⟨_, rfl⟩) fun _ => sameEnd_ite (fun _ => ?_) fun _ =>
    sameEnd_ite (fun _ => ?_) fun _ => ?_
  · exact sameEnd_ite (fun _ => sameEnd_ok ⟨_, rfl⟩) fun _ => sameEnd_ok ⟨_, rfl⟩
  · exact sameEnd_ite (fun _ => sameEnd_ok ⟨_, rfl⟩) fun _ => sameEnd_ok ⟨_, rfl⟩
  · unfold fecEmuCheckPri
    have hpri : (f.withLog l).sfecState.primarySt = f.sfecState.primarySt := rfl
    rw [hpri]
    cases f.sfecState.primarySt with
    | probed => exact sameEnd_guard fun _ => sameEnd_ok ⟨_, rfl⟩
    | restarted | stopped | running => exact fecEmuCheckLive_sameEnd
    | opening => exact sameEnd_guard fun _ => fecEmulateFecRestart_sameEnd
    | postOpen => exact fecEmuCheckPostOpen_sameEnd
    | _ => exact rfl

/-! ## Reads mask what they found -/

theorem Alike.trans {r₁ r₂ r₃ : Checked} (h : Alike r₁ r₂) (h' : Alike r₂ r₃) : Alike r₁ r₃ := by
  obtain ⟨ha, hv, l, hl⟩ := h
  obtain ⟨ha', hv', l', hl'⟩ := h'
  refine ⟨ha.trans ha', fun hal => (hv hal).trans (hv' (ha ▸ hal)), l', ?_⟩
  rw [hl', hl]
  rfl

/-- Masked alike. -/
theorem sameEnd_masked (hv : v = v') :
    SameEnd Alike (.ok ⟨true, v, g⟩ : Except Abort Checked) (.ok ⟨true, v', g⟩) :=
  ⟨rfl, fun _ => hv, g.log, rfl⟩

/-- A call that refuses does not show the value. -/
theorem sameEnd_refused :
    SameEnd Alike (.ok ⟨false, v, g⟩ : Except Abort Checked) (.ok ⟨false, v', g⟩) := by
  refine ⟨rfl, ?_, g.log, rfl⟩
  intro h
  cases h

/-- A check that a read does not pass, whatever the value. -/
theorem sameEnd_panic {p' : Prop} [Decidable p] [Decidable p'] (hp : p) (hp' : p') :
    SameEnd Alike (if p then fecStatePanic else x) (if p' then fecStatePanic else y) := by
  rw [if_pos hp, if_pos hp']
  exact rfl

/-- A branch that a read does not take, whatever the value. -/
theorem sameEnd_neg {p' : Prop} [Decidable p] [Decidable p'] {x' y' : Except Abort Checked}
    (hp : ¬ p) (hp' : ¬ p') (h : SameEnd Alike x' y') :
    SameEnd Alike (if p then x else x') (if p' then y else y') := by
  rw [if_neg hp, if_neg hp']
  exact h

theorem fecEmulateFecStop_readAfter
    (hv : offset = fecIevent → v &&& fecEnetGra = v' &&& fecEnetGra) :
    SameEnd Alike (fecEmulateFecStop f offset .readAfter v)
      (fecEmulateFecStop f offset .readAfter v') := by
  unfold fecEmulateFecStop
  cases f.sfecState.subSt with
  | stopGetRmii | stopGetIevent => exact sameEnd_panic (by decide) (by decide)
  | stopXmitStop =>
    refine sameEnd_guard fun hc => sameEnd_ite (fun h => by cases h) fun _ => ?_
    have ho : offset = fecIevent := by simpa using hc
    rw [hv ho]
    exact sameEnd_masked rfl
  | stopReset | stopMiiSpeed =>
    exact sameEnd_panic (.inr (.inr (by decide))) (.inr (.inr (by decide)))
  | stopMiiImask | stopEcntrl => exact sameEnd_panic (.inr (by decide)) (.inr (by decide))
  | _ => exact rfl

theorem fecEmuCheckIdle_readAfter
    (hv : offset = fecRCntrl → v &&& 1#32 <<< 8 = v' &&& 1#32 <<< 8) :
    SameEnd Alike (fecEmuCheckIdle f offset .readAfter v)
      (fecEmuCheckIdle f offset .readAfter v') := by
  have hwr : EmuState.readAfter ≠ .write := by decide
  refine sameEnd_neg (fun h => hwr h.2.2) (fun h => hwr h.2.2) ?_
  refine sameEnd_ite (fun ho => ?_) fun _ =>
    sameEnd_neg (fun h => hwr h.2.2.1) (fun h => hwr h.2.2.1) rfl
  refine sameEnd_neg (by decide) (by decide) (sameEnd_guard fun _ => ?_)
  rw [hv ho]
  cases fecEnetAdjustLinkSwStopPre f with
  | error a => exact rfl
  | ok g => exact sameEnd_masked rfl

theorem fecEmuCheckLive_readAfter
    (hg : offset = fecIevent → v &&& fecEnetGra = v' &&& fecEnetGra)
    (hr : offset = fecRCntrl → v &&& 1#32 <<< 8 = v' &&& 1#32 <<< 8) :
    SameEnd Alike (fecEmuCheckLive c hw f offset .readAfter v)
      (fecEmuCheckLive c hw f offset .readAfter v') := by
  refine sameEnd_ite (fun _ => fecEmuCheckIdle_readAfter hr) fun _ => ?_
  refine sameEnd_ite (fun _ => fecEmulateFecStop_readAfter hg) fun _ => sameEnd_guard fun _ => ?_
  exact sameEnd_ite (fun _ => sameEnd_panic (by decide) (by decide)) fun _ => rfl

/-- Two values that look the same are read alike. -/
theorem fecEmuCheck_readAfter {hw₀ : Word → Word} (h : VisiblyEqual hw hw') :
    SameEnd Alike (fecEmuCheck c hw₀ f offset .readAfter (hw offset) size)
      (fecEmuCheck c hw₀ f offset .readAfter (hw' offset) size) := by
  have hg : offset = fecIevent → hw offset &&& fecEnetGra = hw' offset &&& fecEnetGra := by
    rintro rfl
    exact h.gra
  have hr : offset = fecRCntrl → hw offset &&& 1#32 <<< 8 = hw' offset &&& 1#32 <<< 8 := by
    rintro rfl
    exact h.rmii
  refine sameEnd_ite (fun _ => sameEnd_refused) fun _ => ?_
  refine sameEnd_ite (fun _ => sameEnd_refused) fun _ => ?_
  refine sameEnd_ite (fun hc => by cases hc.2.2) fun _ => sameEnd_ite (fun ho => ?_) fun _ =>
    sameEnd_ite (fun hc => ?_) fun _ => ?_
  · subst ho
    rw [if_neg (by decide), if_neg (by decide)]
    exact sameEnd_masked h.miiData
  · obtain ⟨rfl, -⟩ := hc
    rw [if_neg (by decide), if_neg (by decide)]
    exact sameEnd_masked h.mii
  · unfold fecEmuCheckPri
    cases f.sfecState.primarySt with
    | probed =>
      exact sameEnd_panic (.inr (.inr (.inr (by decide)))) (.inr (.inr (.inr (by decide))))
    | restarted | stopped | running => exact fecEmuCheckLive_readAfter hg hr
    | opening => exact sameEnd_guard fun _ => sameEnd_panic (by decide) (by decide)
    | postOpen =>
      exact sameEnd_panic (.inr (.inr (by decide))) (.inr (.inr (by decide)))
    | _ => exact rfl

/-! ## Accesses and histories -/

/-- The same answer, and the same device but for the log. -/
def SameAnswer {α : Type} (r r' : α × Fep) : Prop := r.1 = r'.1 ∧ ∃ l, r'.2 = r.2.withLog l

theorem fecWrite_eq (c : FecConfig) (hw : Word → Word) (f : Fep) (offset v : Word) (size : ℕ) :
    fecWrite c hw f offset v size = (fecEmuCheck c hw f offset .write v size).bind
      fun r => .ok (if r.allowed then .committed offset r.value else .refused, r.fep) := by
  unfold fecWrite
  cases fecEmuCheck c hw f offset .write v size <;> rfl

theorem fecRead_eq (c : FecConfig) (hw : Word → Word) (f : Fep) (offset v : Word) (size : ℕ) :
    fecRead c hw f offset v size = (fecEmuCheck c hw f offset .readBefore v size).bind fun r =>
      if !r.allowed then .ok (.refused, r.fep)
      else (fecEmuCheck c hw r.fep offset .readAfter (hw offset) size).bind
        fun r => .ok (if r.allowed then .readBack r.value else .refused, r.fep) := by
  unfold fecRead
  cases fecEmuCheck c hw f offset .readBefore v size with
  | error a => rfl
  | ok r =>
    show (if !r.allowed then _ else _) = (if !r.allowed then _ else _)
    congr 1
    cases fecEmuCheck c hw r.fep offset .readAfter (hw offset) size <;> rfl

theorem fecWrite_sameEnd :
    SameEnd SameAnswer (fecWrite c hw f offset v size)
      (fecWrite c hw' (f.withLog l) offset v size) := by
  rw [fecWrite_eq, fecWrite_eq]
  refine SameEnd.bind fecEmuCheck_sameEnd ?_
  rintro r r' ⟨ha, hv, hl⟩
  refine ⟨?_, hl⟩
  cases hal : r.allowed with
  | false => rw [hal] at ha; rw [← ha]; rfl
  | true => rw [hal] at ha; rw [← ha, hv hal]

theorem fecRead_sameEnd (h : VisiblyEqual hw hw') :
    SameEnd SameAnswer (fecRead c hw f offset v size)
      (fecRead c hw' (f.withLog l) offset v size) := by
  rw [fecRead_eq, fecRead_eq]
  refine SameEnd.bind fecEmuCheck_sameEnd ?_
  rintro r ⟨al, v', g⟩ ⟨ha, -, l', hl⟩
  obtain rfl : g = r.fep.withLog l' := hl
  obtain rfl : r.allowed = al := ha
  cases hal : r.allowed with
  | false => exact ⟨rfl, l', rfl⟩
  | true =>
    have hafter : SameEnd Alike (fecEmuCheck c hw r.fep offset .readAfter (hw offset) size)
        (fecEmuCheck c hw' (r.fep.withLog l') offset .readAfter (hw' offset) size) :=
      (fecEmuCheck_readAfter h).trans fecEmuCheck_sameEnd fun _ _ _ => Alike.trans
    refine SameEnd.bind hafter ?_
    rintro q q' ⟨ha, hv, hl⟩
    refine ⟨?_, hl⟩
    cases hal : q.allowed with
    | false => rw [hal] at ha; rw [← ha]; rfl
    | true => rw [hal] at ha; rw [← ha, hv hal]

/-- An access is answered alike under register files that look the same. -/
theorem fecAccess_sameEnd (h : VisiblyEqual hw hw') (a : FecAccess) :
    SameEnd SameAnswer (fecAccess c hw f a) (fecAccess c hw' (f.withLog l) a) := by
  unfold fecAccess
  cases a.kind with
  | write => exact fecWrite_sameEnd
  | read => exact fecRead_sameEnd h

theorem fecAnswer_sameEnd (h : VisiblyEqual hw hw') (e : NwEvent) :
    SameEnd SameAnswer (fecAnswer c f (e.under hw)) (fecAnswer c (f.withLog l) (e.under hw')) := by
  cases e with
  | access a =>
    have hacc : SameEnd SameAnswer (fecAccess c hw f a) (fecAccess c hw' (f.withLog l) a) :=
      fecAccess_sameEnd h a
    refine SameEnd.bind (k := fun r => .ok (some r.1, r.2)) (m := fun r => .ok (some r.1, r.2))
      hacc ?_
    rintro r r' ⟨ha, hl⟩
    exact ⟨congrArg some ha, hl⟩
  | rx e | routeTx e | egress s k => exact ⟨rfl, l, rfl⟩

/-- The same is seen from devices that differ in the log. -/
theorem fecObserve_eq (c : FecConfig) {h h' : ℕ → Word → Word}
    (hh : ∀ n, VisiblyEqual (h n) (h' n)) (es : List NwEvent) (n : ℕ) (f : Fep) (l : List SwOp) :
    fecObserve c h n f es = fecObserve c h' n (f.withLog l) es := by
  induction es generalizing n f l with
  | nil => rfl
  | cons e es ih =>
    have hstep : SameEnd SameAnswer (fecAnswer c f (e.under (h n)))
        (fecAnswer c (f.withLog l) (e.under (h' n))) := fecAnswer_sameEnd (hh n) e
    simp only [fecObserve]
    cases hx : fecAnswer c f (e.under (h n)) with
    | error a =>
      cases hy : fecAnswer c (f.withLog l) (e.under (h' n)) with
      | error b =>
        rw [hx, hy] at hstep
        rw [show a = b from hstep]
      | ok r =>
        rw [hx, hy] at hstep
        exact absurd hstep id
    | ok r =>
      cases hy : fecAnswer c (f.withLog l) (e.under (h' n)) with
      | error b =>
        rw [hx, hy] at hstep
        exact absurd hstep id
      | ok r' =>
        rw [hx, hy] at hstep
        obtain ⟨ha, l', hl⟩ := hstep
        simp only [ha, hl, ih (n + 1) r.2 l']

/-- **NIC confidentiality.**  Under two histories of the hardware that agree on the visible bits
the normal world reads the same values back, has the same accesses refused, and meets a panic at
the same point. -/
theorem observations_agree (c : FecConfig) (f : Fep) (h h' : ℕ → Word → Word)
    (hh : ∀ n, VisiblyEqual (h n) (h' n)) (es : List NwEvent) :
    fecObserve c h 0 f es = fecObserve c h' 0 f es :=
  fecObserve_eq c hh es 0 f f.log

/-- A management frame and an event register read under two histories, and a register that must
not be read. -/
theorem observations_agree_mdio :
    fecObserve ⟨0, 0, 0, 0⟩ (fun _ _ => 0xffffffff) 0 fecProbed
        [.access ⟨.read, fecMiiData, 0, 4⟩, .access ⟨.read, fecIevent, 0, 4⟩,
          .access ⟨.read, fecRDesStart0, 0, 2⟩, .access ⟨.read, fecRDesStart0, 0, 4⟩] =
      fecObserve ⟨0, 0, 0, 0⟩ (fun _ o => if o = fecRDesStart0 then 0 else 0x1080ffff) 0 fecProbed
        [.access ⟨.read, fecMiiData, 0, 4⟩, .access ⟨.read, fecIevent, 0, 4⟩,
          .access ⟨.read, fecRDesStart0, 0, 2⟩, .access ⟨.read, fecRDesStart0, 0, 4⟩] ∧
      fecObserve ⟨0, 0, 0, 0⟩ (fun _ _ => 0xffffffff) 0 fecProbed
        [.access ⟨.read, fecMiiData, 0, 4⟩, .access ⟨.read, fecIevent, 0, 4⟩,
          .access ⟨.read, fecRDesStart0, 0, 2⟩, .access ⟨.read, fecRDesStart0, 0, 4⟩] =
        ([.readBack 0xffff, .readBack fecEnetMii, .refused],
          some (.panic "Unexpected NW behaviour")) :=
  ⟨observations_agree ⟨0, 0, 0, 0⟩ fecProbed _ _
    (fun _ => ⟨by decide, by decide, by decide, by decide⟩) _, by decide +kernel⟩

end TrustedGateway
