import TrustedGateway.Fec.Driver

/-!
# Closing the device

`fec_enet_close` announces the shutdown with the virtual write 48 and then calls `fec_stop`.  The
monitor's stop hooks tell a shutdown from a change of the link by `SFEC_PRI_SHUTTING_DOWN`, but
the dispatch on the primary state has no case for it: the first access of `fec_stop` ends in the
default case.
-/

namespace TrustedGateway

open StepSystem

/-- The driver in `fec_enet_close`. -/
def nwClosing (p : NwFep) : NwDriver := { fep := p, call := .close, prog := nwFecEnetClose p }

/-- The device is shut down: both contexts are disabled and the monitor refuses every access. -/
def ShutDown (c : FecConfig) (f : Fep) : Prop :=
  f.sfecState.primarySt = .shutDown ∧ f.rxNapi.disable = true ∧ f.routeTxNapi.disable = true ∧
    ∀ a hw, fecAccess c hw f a = .ok (.refused, f)

/-- The close goes through: no access panics, and the device is shut down when the call returns. -/
def OrderlyClose (c : FecConfig) (p : NwFep) (f : Fep) : Prop :=
  ∀ as x, Run (nwStep c) NwAllows (nwClosing p, f) as x →
    (∀ a, NwAllows x a → ∃ x', nwStep c x a = .ok x') ∧ (x.1.prog = .done → ShutDown c x.2)

/-- A driver that is closing the device: nothing was written yet, or the monitor is shutting down
and the driver is about to read `R_CNTRL`. -/
inductive Closing (p : NwFep) : NwProg → Fep → Prop
  | announce {f} (hf : f.Idle) : Closing p (nwFecEnetClose p) f
  | stop {f} (hp : f.sfecState.primarySt = .shuttingDown) (hs : f.sfecState.subSt = .none) :
      Closing p (nwFecStop p .done) f

section Close

variable {c : FecConfig} {f : Fep} {p : NwFep} {d : NwDriver}

/-- The virtual write. -/
theorem nwStep_announce (hf : f.Idle) (hd : d.prog = nwFecEnetClose p) (hw : Word → Word)
    (junk : Word) :
    nwStep c (d, f) (.step hw junk) =
      .ok ({ d with prog := nwFecStop p .done }, f.setPri .shuttingDown) := by
  have hr : fecEmuCheck c hw f fecXWmrk .write 48 4 = .ok ⟨false, 48, f.setPri .shuttingDown⟩ := by
    rw [fecEmuCheck_idle hf (by decide) (by decide), fecEmuCheckIdle, if_pos ⟨rfl, rfl, rfl⟩]
  simp only [nwStep, hd, nwFecEnetClose, fecWrite, hr]
  rfl

/-- The monitor has no case for an access of a device that is shutting down. -/
theorem nwStep_shuttingDown (hp : f.sfecState.primarySt = .shuttingDown)
    (hd : d.prog = nwFecStop p .done) (hw : Word → Word) (junk : Word) :
    nwStep c (d, f) (.step hw junk) = .error (.panic "Invalid FEC primary state") := by
  have hr : fecEmuCheck c hw f fecRCntrl .readBefore junk 4 =
      .error (.panic "Invalid FEC primary state") := by
    rw [fecEmuCheck, if_neg (by decide), if_neg (by rw [hp]; decide),
      if_neg (fun h => absurd h.2.1 (by decide)), if_neg (by decide),
      if_neg (fun h => absurd h.1 (by decide)), fecEmuCheckPri, hp]
  simp only [nwStep, hd, nwFecStop, fecRead, hr]
  rfl

namespace Closing

variable {prog : NwProg}

theorem not_isDone (h : Closing p prog f) : prog.isDone = false := by
  cases h <;> rfl

theorem answers (h : Closing p prog f) : f.Answers ∧ f.sfecState.subSt = .none := by
  cases h with
  | announce hf => exact ⟨Fep.Restarting.answers (.inr hf.1), hf.2⟩
  | stop hp hs => exact ⟨⟨by rw [hp]; decide, by rw [hp]; decide⟩, hs⟩

theorem ne_shutDown (h : Closing p prog f) : f.sfecState.primarySt ≠ .shutDown :=
  h.answers.1.2

theorem congr {g : Fep} (h : Closing p prog f) (hg : g.sfecState = f.sfecState) :
    Closing p prog g := by
  cases h with
  | announce hf => exact .announce (by rw [Fep.Idle, hg]; exact hf)
  | stop hp hs => exact .stop (by rw [hg, hp]) (by rw [hg, hs])

/-- **The step lemma.**  The driver gets no further than the read of `R_CNTRL`. -/
theorem step {x x' : NwSystem} {a : NwAction} (h : Closing p x.1.prog x.2) (ha : NwAllows x a)
    (hs : nwStep c x a = .ok x') : Closing p x'.1.prog x'.2 := by
  obtain ⟨d, f⟩ := x
  obtain ⟨hans, hsub⟩ := h.answers
  cases a with
  | step hw junk =>
    dsimp only at h
    generalize hd : d.prog = prog at h
    cases h with
    | announce hf =>
      rw [nwStep_announce hf hd] at hs
      cases hs
      exact .stop rfl hf.2
    | stop hp _ =>
      rw [nwStep_shuttingDown hp hd] at hs
      cases hs
  | mdioWrite v hw =>
    rw [nwStep_mdioWrite hans] at hs
    cases hs
    exact h
  | mdioRead hw junk =>
    rw [nwStep_mdioRead hans] at hs
    cases hs
    exact h
  | mdioPoll hw junk =>
    rw [nwStep_mdioPoll hans (by rw [hsub]; decide)] at hs
    cases hs
    exact h
  | enetOpen | adjustLink => exact absurd ha.1 (by rw [h.not_isDone]; decide)
  | rx | routeTx | egress =>
    cases hs
    exact h.congr rfl

end Closing

theorem closing_of_run {as : List NwAction} {x : NwSystem} (hf : f.Idle)
    (hr : Run (nwStep c) NwAllows (nwClosing p, f) as x) : Closing p x.1.prog x.2 :=
  hr.inv (I := fun x => Closing p x.1.prog x.2) (fun _ _ _ h ha hs => h.step ha hs) (.announce hf)

end Close

/-- **No close goes through.**  Whatever opened device the driver closes, the call never returns
and the device is never shut down: once the shutdown is announced, the next access of the driver
panics. -/
theorem close_never_orderly (c : FecConfig) (p : NwFep) {f : Fep} (hf : f.Idle) :
    ¬ OrderlyClose c p f ∧
    ∀ as x, Run (nwStep c) NwAllows (nwClosing p, f) as x →
      x.1.prog ≠ .done ∧ ¬ ShutDown c x.2 ∧
      (x.2.sfecState.primarySt = .shuttingDown → ∀ hw junk,
        nwStep c x (.step hw junk) = .error (.panic "Invalid FEC primary state")) := by
  constructor
  · intro h
    -- the announcement is accepted, and the read after it is not
    have hr : Run (nwStep c) NwAllows (nwClosing p, f) [.step (fun _ => 0) 0]
        ({ nwClosing p with prog := nwFecStop p .done }, f.setPri .shuttingDown) :=
      .cons rfl (nwStep_announce hf rfl _ _) (.nil _)
    obtain ⟨x', hx'⟩ := (h _ _ hr).1 (.step (fun _ => 0) 0) rfl
    rw [nwStep_shuttingDown rfl rfl] at hx'
    cases hx'
  · rintro as ⟨d, g⟩ hr
    have h := closing_of_run hf hr
    refine ⟨?_, fun hsd => h.ne_shutDown hsd.1, ?_⟩
    · intro hd
      have hdone := h.not_isDone
      rw [hd] at hdone
      cases hdone
    · intro hp hw junk
      dsimp only at h
      generalize hd : d.prog = prog at h
      cases h with
      | announce hf =>
        have hlive := hf.1
        rw [hp] at hlive
        exact absurd hlive (by decide)
      | stop => exact nwStep_shuttingDown hp hd hw junk

/-- A device that is running. -/
def runningFep : Fep := (fecProbed.setPri .running).setSub .none

theorem close_never_orderly_running : ¬ OrderlyClose ⟨0, 0, 0, 0⟩ rgmiiFep runningFep :=
  (close_never_orderly ⟨0, 0, 0, 0⟩ rgmiiFep ⟨.inr (.inr rfl), rfl⟩).1

/-- The accesses of an open, from probe on. -/
def openRun : List NwAction :=
  [.step (fun _ => 0) 0, .enetOpen] ++ List.replicate 8 (.step (fun _ => 0) 0)

/-- The driver opens the device and closes it again. -/
theorem close_after_open_panics :
    ∃ x y, Run (nwStep ⟨0, 0, 0, 0⟩) NwAllows (nwProbed rgmiiFep) openRun x ∧ x.2.Idle ∧
      Run (nwStep ⟨0, 0, 0, 0⟩) NwAllows (nwClosing x.1.fep, x.2) [.step (fun _ => 0) 0] y ∧
      nwStep ⟨0, 0, 0, 0⟩ y (.step (fun _ => 0) 0) =
        .error (.panic "Invalid FEC primary state") := by
  obtain ⟨x, hr, hx⟩ : ∃ x, Run (nwStep ⟨0, 0, 0, 0⟩) NwAllows (nwProbed rgmiiFep) openRun x ∧
      (x.2.sfecState.primarySt, x.2.sfecState.subSt) = (.restarted, .none) :=
    exists_run_of_exec (by decide +kernel)
  obtain ⟨hp, hs⟩ := Prod.mk.inj hx
  have hf : x.2.Idle := ⟨.inl hp, hs⟩
  exact ⟨x, _, hr, hf, .cons rfl (nwStep_announce hf rfl _ _) (.nil _),
    nwStep_shuttingDown rfl rfl _ _⟩

end TrustedGateway
