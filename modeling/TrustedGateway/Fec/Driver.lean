import TrustedGateway.Fec.Pairing

/-!
# The driver and the monitor

The normal-world half of the driver (`bstgw_fec_main.c`) as programs of register accesses, run
against the monitor.  Management accesses of the PHY layer may come between any two accesses of
a program; an event poll of theirs can even take the place of the one in `fec_stop`.  The
invariant pairs what is left of the running program with the state of the monitor.
-/

namespace TrustedGateway

open StepSystem

/-! ## Programs of the driver -/

/-- A sequence of `writel` and `readl`. -/
inductive NwProg
  | done
  | write (offset value : Word) (next : NwProg)
  | read (offset : Word) (next : Word → NwProg)

def NwProg.isDone : NwProg → Bool
  | done => true
  | _ => false

/-- `phy_interface_t`, as far as the driver tells the modes apart. -/
inductive PhyInterface
  | rgmii | rgmiiId | rgmiiRxid | rgmiiTxid | rmii | other
  deriving DecidableEq, Repr

/-- The fields of `struct phy_device` the driver reads. -/
structure PhyDev where
  link : Bool
  duplex : ℤ
  speed : ℤ
  pause : Bool
  deriving DecidableEq, Repr

/-- The fields of the normal world's `fec_enet_private` that decide about its accesses. -/
structure NwFep where
  link : Bool
  fullDuplex : ℤ
  speed : ℤ
  phySpeed : Word
  phyInterface : PhyInterface
  pauseFlag : Word
  phydev : Option PhyDev
  deriving DecidableEq, Repr

namespace NwFep

/-- The bits of `R_CNTRL` the driver chooses. -/
def rcntl (p : NwFep) : Word :=
  let rcntl : Word := match p.phyInterface with
    | .rgmii | .rgmiiId | .rgmiiRxid | .rgmiiTxid => 1#32 <<< 6
    | .rmii => 1#32 <<< 8
    | .other => 0
  match p.phydev with
  | none => rcntl
  | some d =>
    if d.speed = 1000 then rcntl
    else if d.speed = 100 then rcntl &&& ~~~(1#32 <<< 9)
    else rcntl ||| 1#32 <<< 9

/-- The bits of `ECNTRL` the driver chooses. -/
def ecntl (p : NwFep) : Word :=
  match p.phydev with
  | none => 0
  | some d => if d.speed = 1000 then 1#32 <<< 5 else 0

/-- Pause frames are enabled, or negotiated. -/
def pauses (p : NwFep) : Bool :=
  p.pauseFlag &&& 0x2 ≠ 0 ∨ p.pauseFlag &&& 0x1 ≠ 0 ∧ p.phydev.any PhyDev.pause

end NwFep

/-! The accesses of `fec_restart`, last one first. -/

def nwRestartImask (p : NwFep) (k : NwProg) : NwProg :=
  .write fecImask (if p.link then fecDefaultImask else fecEnetMii) k

def nwRestartEcntrl (p : NwFep) (k : NwProg) : NwProg :=
  .write fecEcntrl p.ecntl (nwRestartImask p k)

def nwRestartRCntrl (p : NwFep) (k : NwProg) : NwProg :=
  .write fecRCntrl p.rcntl (nwRestartEcntrl p k)

def nwRestartPause (p : NwFep) (k : NwProg) : NwProg :=
  if p.pauses then .write fecRFifoRsem fecEnetRsemV (nwRestartRCntrl p k)
  else nwRestartRCntrl p k

def nwRestartMiiSpeed (p : NwFep) (k : NwProg) : NwProg :=
  .write fecMiiSpeed p.phySpeed (nwRestartPause p k)

def nwRestartXCntrl (p : NwFep) (k : NwProg) : NwProg :=
  .write fecXCntrl (if p.fullDuplex = 1 then 0x04 else 0x0) (nwRestartMiiSpeed p k)

def nwRestartIevent (p : NwFep) (k : NwProg) : NwProg :=
  .write fecIevent 0xffffffff (nwRestartXCntrl p k)

/-- `fec_restart`. -/
def nwFecRestart (p : NwFep) (k : NwProg) : NwProg := .write fecEcntrl 1 (nwRestartIevent p k)

/-! The accesses of `fec_stop`, last one first. -/

def nwStopRCntrl (rmiiMode : Word) (k : NwProg) : NwProg := .write fecRCntrl rmiiMode k

def nwStopEcntrl (rmiiMode : Word) (k : NwProg) : NwProg :=
  .write fecEcntrl 2 (nwStopRCntrl rmiiMode k)

def nwStopMiiSpeed (p : NwFep) (rmiiMode : Word) (k : NwProg) : NwProg :=
  .write fecMiiSpeed p.phySpeed (nwStopEcntrl rmiiMode k)

def nwStopImask (p : NwFep) (rmiiMode : Word) (k : NwProg) : NwProg :=
  .write fecImask fecEnetMii (nwStopMiiSpeed p rmiiMode k)

def nwStopReset (p : NwFep) (rmiiMode : Word) (k : NwProg) : NwProg :=
  .write fecEcntrl 1 (nwStopImask p rmiiMode k)

def nwStopIevent (p : NwFep) (rmiiMode : Word) (k : NwProg) : NwProg :=
  .read fecIevent fun _ => nwStopReset p rmiiMode k

def nwStopXmit (p : NwFep) (rmiiMode : Word) (k : NwProg) : NwProg :=
  if p.link then .write fecXCntrl 1 (nwStopIevent p rmiiMode k) else nwStopReset p rmiiMode k

/-- `fec_stop`. -/
def nwFecStop (p : NwFep) (k : NwProg) : NwProg :=
  .read fecRCntrl fun v => nwStopXmit p (v &&& 1#32 <<< 8) k

/-- The end of `fec_enet_open`, after `fec_enet_mii_probe` and `phy_start`. -/
def nwOpenEnd : NwProg := .write fecXWmrk 47 .done

/-- `fec_enet_open`. -/
def nwFecEnetOpen (p : NwFep) : NwProg := nwFecRestart p nwOpenEnd

/-- `fec_enet_close`. -/
def nwFecEnetClose (p : NwFep) : NwProg := .write fecXWmrk 48 (nwFecStop p .done)

/-! ## The driver -/

/-- The calls of the driver. -/
inductive NwCall
  | miiInit | enetOpen | restart | stop | close
  deriving DecidableEq, Repr

/-- The driver: its fields, the call it is in or returned from last, and what is left of it. -/
structure NwDriver where
  fep : NwFep
  call : NwCall
  prog : NwProg

/-- `fec_enet_open`; its `fec_enet_mii_probe` forgets the link. -/
def NwDriver.enetOpen (d : NwDriver) : NwDriver :=
  { fep := { d.fep with link := false, fullDuplex := 0 }
    call := .enetOpen
    prog := nwFecEnetOpen d.fep }

/-- `fec_enet_adjust_link`; `halted` is a PHY that was halted after a timeout. -/
def NwDriver.adjustLink (d : NwDriver) (phy : PhyDev) (halted : Bool) : NwDriver :=
  if halted then d
  else
    let p := { d.fep with phydev := some phy }
    if phy.link then
      if !p.link ∨ p.fullDuplex ≠ phy.duplex ∨ phy.speed ≠ p.speed then
        let p := { p with link := true, fullDuplex := phy.duplex, speed := phy.speed }
        { fep := p, call := .restart, prog := nwFecRestart p .done }
      else { d with fep := p }
    else if p.link then
      { fep := { p with link := false }, call := .stop, prog := nwFecStop p .done }
    else { d with fep := p }

/-- What can happen next.  `hw` is what the hardware shows to the access, and `junk` what the
monitor's argument holds before a read. -/
inductive NwAction
  | step (hw : Word → Word) (junk : Word)
  | mdioWrite (value : Word) (hw : Word → Word)
  | mdioRead (hw : Word → Word) (junk : Word)
  | mdioPoll (hw : Word → Word) (junk : Word)
  | enetOpen
  | adjustLink (phy : PhyDev) (halted : Bool)
  | rx (e : NapiEvent)
  | routeTx (e : NapiEvent)
  | egress (txStopped noKick : Bool)

/-- The driver and the device. -/
abbrev NwSystem := NwDriver × Fep

/-- The value a read gives. -/
def FecAnswer.value : FecAnswer → Word
  | readBack v => v
  | _ => 0

/-- A step of the driver, of the management layer or of the secure world. -/
def nwStep (c : FecConfig) (x : NwSystem) : NwAction → Except Abort NwSystem
  | .step hw junk =>
    match x.1.prog with
    | .done => .ok x
    | .write o v next => (fecWrite c hw x.2 o v 4).map fun r => ({ x.1 with prog := next }, r.2)
    | .read o next =>
      (fecRead c hw x.2 o junk 4).map fun r => ({ x.1 with prog := next r.1.value }, r.2)
  | .mdioWrite v hw => (fecWrite c hw x.2 fecMiiData v 4).map fun r => (x.1, r.2)
  | .mdioRead hw junk => (fecRead c hw x.2 fecMiiData junk 4).map fun r => (x.1, r.2)
  | .mdioPoll hw junk => (fecRead c hw x.2 fecIevent junk 4).map fun r => (x.1, r.2)
  | .enetOpen => .ok (x.1.enetOpen, x.2)
  | .adjustLink phy halted => .ok (x.1.adjustLink phy halted, x.2)
  | .rx e => .ok (x.1, { x.2 with rxNapi := e.apply x.2.rxNapi })
  | .routeTx e => .ok (x.1, { x.2 with routeTxNapi := e.apply x.2.routeTxNapi })
  | .egress s k => .ok (x.1, { x.2 with txStopped := s, noKick := k })

/-- Calls do not overlap; the device is opened once, and the link changes afterwards. -/
def NwAllows (x : NwSystem) : NwAction → Prop
  | .step .. => x.1.prog.isDone = false
  | .enetOpen => x.1.prog.isDone = true ∧ x.1.call = .miiInit
  | .adjustLink .. =>
    x.1.prog.isDone = true ∧ (x.1.call = .enetOpen ∨ x.1.call = .restart ∨ x.1.call = .stop)
  | _ => True

instance (x : NwSystem) (a : NwAction) : Decidable (NwAllows x a) := by
  cases a <;> dsimp only [NwAllows] <;> infer_instance

/-- The driver in `fec_enet_mii_init`, and the device after probe. -/
def nwProbed (p : NwFep) : NwSystem :=
  ({ fep := p, call := .miiInit, prog := .write fecMiiSpeed p.phySpeed .done }, fecProbed)

/-! ## What the monitor answers -/

section Answers

variable {c : FecConfig} {hw : Word → Word} {f : Fep} {v junk : Word}

/-- The primary states of a device that answers. -/
def Fep.Answers (f : Fep) : Prop :=
  f.sfecState.primarySt ≠ .error ∧ f.sfecState.primarySt ≠ .shutDown

theorem Fep.Restarting.answers (hf : f.Restarting) : f.Answers := by
  unfold Fep.Answers
  rcases hf with hp | hp | hp | hp <;> rw [hp] <;> decide

theorem Fep.Restarting.not_probed (hf : f.Restarting) : f.sfecState.primarySt ≠ .probed := by
  rcases hf with hp | hp | hp | hp <;> rw [hp] <;> decide

variable {offset : Word} {s : EmuState}

/-- An access that the management layer does not make goes to the primary state. -/
theorem fecEmuCheck_eq_pri (hf : f.Answers)
    (hp : ¬ (f.sfecState.primarySt = .probed ∧ offset = fecMiiSpeed ∧ s = .write))
    (hm : offset ≠ fecMiiData)
    (hi : ¬ (offset = fecIevent ∧ s ≠ .write ∧ f.sfecState.subSt ≠ .stopXmitStop)) :
    fecEmuCheck c hw f offset s v 4 = fecEmuCheckPri c hw f offset s v := by
  rw [fecEmuCheck, if_neg (by decide), if_neg (not_or.mpr hf), if_neg hp, if_neg hm, if_neg hi]

theorem fecEmuCheckPri_live (hf : f.sfecState.primarySt.Live) :
    fecEmuCheckPri c hw f offset s v = fecEmuCheckLive c hw f offset s v := by
  unfold fecEmuCheckPri
  rcases hf with hp | hp | hp <;> rw [hp]

theorem SfecSub.not_isStop {s : SfecSub} (h : s.isRestart = true) : ¬ s.isStop = true := by
  revert h
  cases s <;> decide

/-- A write in a restart. -/
theorem fecEmuCheck_restart (hf : f.Restarting) (hs : f.sfecState.subSt.isRestart = true)
    (hm : offset ≠ fecMiiData) :
    fecEmuCheck c hw f offset .write v 4 = fecEmulateFecRestart c hw f offset .write v := by
  rw [fecEmuCheck_eq_pri hf.answers (fun h => hf.not_probed h.1) hm (fun h => h.2.1 rfl)]
  rcases hf with hp | hp
  · rw [fecEmuCheckPri, hp]
    exact if_neg (by simp [hs])
  · have hn : f.sfecState.subSt ≠ .none := by
      intro h
      rw [h] at hs
      cases hs
    have hst : ¬ f.sfecState.subSt.isStop = true := SfecSub.not_isStop hs
    have hsd : f.sfecState.primarySt ≠ .shuttingDown := by
      rcases hp with hp | hp | hp <;> rw [hp] <;> decide
    rw [fecEmuCheckPri_live hp, fecEmuCheckLive, if_neg hn, if_neg hst, if_neg hsd, if_pos hs]

/-- An access in a stop. -/
theorem fecEmuCheck_stop (hf : f.sfecState.primarySt.Live) (hs : f.sfecState.subSt.isStop = true)
    (hm : offset ≠ fecMiiData)
    (hi : ¬ (offset = fecIevent ∧ s ≠ .write ∧ f.sfecState.subSt ≠ .stopXmitStop)) :
    fecEmuCheck c hw f offset s v 4 = fecEmulateFecStop f offset s v := by
  have hn : f.sfecState.subSt ≠ .none := by
    intro h
    rw [h] at hs
    cases hs
  have hr : f.Restarting := .inr hf
  rw [fecEmuCheck_eq_pri hr.answers (fun h => hr.not_probed h.1) hm hi, fecEmuCheckPri_live hf,
    fecEmuCheckLive, if_neg hn, if_pos hs]

/-- An access without a sub-state. -/
theorem fecEmuCheck_idle (hf : f.Idle) (hm : offset ≠ fecMiiData) (hi : offset ≠ fecIevent) :
    fecEmuCheck c hw f offset s v 4 = fecEmuCheckIdle f offset s v := by
  have hr : f.Restarting := .inr hf.1
  rw [fecEmuCheck_eq_pri hr.answers (fun h => hr.not_probed h.1) hm (fun h => hi h.1),
    fecEmuCheckPri_live hf.1, fecEmuCheckLive, if_pos hf.2]

/-- An event poll while the monitor is not waiting for one. -/
theorem fecEmuCheck_poll (hf : f.Answers) (hw' : s ≠ .write)
    (hs : f.sfecState.subSt ≠ .stopXmitStop) :
    fecEmuCheck c hw f fecIevent s v 4 =
      .ok ⟨true, if s = .readBefore then v else v &&& fecEnetMii, f⟩ := by
  rw [fecEmuCheck, if_neg (by decide), if_neg (not_or.mpr hf),
    if_neg (fun h => absurd h.2.1 (by decide)), if_neg (by decide), if_pos ⟨rfl, hw', hs⟩]
  split <;> rfl

/-- An event poll that the monitor takes for the one of `fec_stop`. -/
theorem fecEmuCheck_poll_stop (hf : f.sfecState.primarySt.Live) (hw' : s ≠ .write)
    (hs : f.sfecState.subSt = .stopXmitStop) :
    fecEmuCheck c hw f fecIevent s v 4 =
      .ok (if s = .readBefore then ⟨true, v, f⟩
        else ⟨true, v &&& fecEnetGra, f.setSub .stopGetIevent⟩) := by
  rw [fecEmuCheck_stop hf (by rw [hs]; rfl) (by decide) (fun h => h.2.2 hs), fecEmulateFecStop, hs]
  cases s with
  | readBefore | readAfter => rfl
  | write => exact absurd rfl hw'

/-- A management access. -/
theorem fecEmuCheck_mdio (hf : f.Answers) :
    fecEmuCheck c hw f fecMiiData s v 4 =
      .ok ⟨true, if s = .readAfter then v &&& 0xffff else v, f⟩ := by
  rw [fecEmuCheck, if_neg (by decide), if_neg (not_or.mpr hf),
    if_neg (fun h => absurd h.2.1 (by decide)), if_pos rfl]
  cases s <;> rfl

end Answers

/-! ## The invariant -/

/-- A restart belongs to the open, or to a link that came up. -/
def RestartOf (call : NwCall) (st : SfecState) (p : NwFep) (k : NwProg) : Prop :=
  call = .enetOpen ∧ k = nwOpenEnd ∧ st.primarySt = .opening ∨
    call = .restart ∧ k = .done ∧ p.link = true ∧ st.primarySt.Live

/-- What is left of the running call, and where the monitor is. -/
inductive Agree (call : NwCall) (st : SfecState) : NwProg → Prop
  | miiInit (v : Word) (hc : call = .miiInit) (hp : st.primarySt = .probed)
      (hs : st.subSt = .none) : Agree call st (.write fecMiiSpeed v .done)
  | probed (hc : call = .miiInit) (hp : st.primarySt = .probed)
      (hs : st.subSt = .none) : Agree call st .done
  | enetOpen (p : NwFep) (hc : call = .enetOpen) (hp : st.primarySt = .probed)
      (hs : st.subSt = .none) : Agree call st (nwFecEnetOpen p)
  | restart (p : NwFep) (hc : call = .restart) (hl : p.link = true) (hp : st.primarySt.Live)
      (hs : st.subSt = .none) :
      Agree call st (nwFecRestart p .done)
  | ievent (p : NwFep) (k : NwProg) (hc : RestartOf call st p k)
      (hs : st.subSt = .restartReset) : Agree call st (nwRestartIevent p k)
  | xcntrl (p : NwFep) (k : NwProg) (hc : RestartOf call st p k)
      (hs : st.subSt = .restartInit) : Agree call st (nwRestartXCntrl p k)
  | miiSpeed (p : NwFep) (k : NwProg) (hc : RestartOf call st p k)
      (hs : st.subSt = .restartMiiMode) : Agree call st (nwRestartMiiSpeed p k)
  | rsem (p : NwFep) (k : NwProg) (hc : RestartOf call st p k)
      (hs : st.subSt = .restartMiiSpeed) :
      Agree call st (.write fecRFifoRsem fecEnetRsemV (nwRestartRCntrl p k))
  | rcntrl (p : NwFep) (k : NwProg) (hc : RestartOf call st p k)
      (hs : st.subSt = .restartMiiSpeed ∨ st.subSt = .restartFceEn) :
      Agree call st (nwRestartRCntrl p k)
  | ecntrl (p : NwFep) (k : NwProg) (hc : RestartOf call st p k)
      (hs : st.subSt = .restartRCntrl) : Agree call st (nwRestartEcntrl p k)
  | imask (p : NwFep) (k : NwProg) (hc : RestartOf call st p k)
      (hs : st.subSt = .restartEcntrl) : Agree call st (nwRestartImask p k)
  | openEnd (hc : call = .enetOpen) (hp : st.primarySt = .postOpen)
      (hs : st.subSt = .restartImaskRun ∨ st.subSt = .restartImaskMii) :
      Agree call st nwOpenEnd
  | opened (hc : call = .enetOpen)
      (hp : st.primarySt = .restarted ∨ st.primarySt = .running)
      (hs : st.subSt = .none) : Agree call st .done
  | restarted (hc : call = .restart) (hp : st.primarySt = .running)
      (hs : st.subSt = .none) : Agree call st .done
  | stop (p : NwFep) (hc : call = .stop) (hl : p.link = true) (hp : st.primarySt.Live)
      (hs : st.subSt = .none) :
      Agree call st (nwFecStop p .done)
  | stopXmit (p : NwFep) (hc : call = .stop) (hl : p.link = true)
      (hf : st.primarySt.Live) (hs : st.subSt = .stopGetRmii) :
      Agree call st (nwStopXmit p st.rmiiMode .done)
  -- a poll of the management layer may have been taken for the one of `fec_stop`
  | stopIevent (p : NwFep) (hc : call = .stop) (hf : st.primarySt.Live)
      (hs : st.subSt = .stopXmitStop ∨ st.subSt = .stopGetIevent) :
      Agree call st (nwStopIevent p st.rmiiMode .done)
  | stopReset (p : NwFep) (hc : call = .stop) (hf : st.primarySt.Live)
      (hs : st.subSt = .stopGetIevent) :
      Agree call st (nwStopReset p st.rmiiMode .done)
  | stopImask (p : NwFep) (hc : call = .stop) (hf : st.primarySt.Live)
      (hs : st.subSt = .stopReset) :
      Agree call st (nwStopImask p st.rmiiMode .done)
  | stopMiiSpeed (p : NwFep) (hc : call = .stop) (hf : st.primarySt.Live)
      (hs : st.subSt = .stopMiiImask) :
      Agree call st (nwStopMiiSpeed p st.rmiiMode .done)
  | stopEcntrl (hc : call = .stop) (hf : st.primarySt.Live)
      (hs : st.subSt = .stopMiiSpeed) :
      Agree call st (nwStopEcntrl st.rmiiMode .done)
  | stopRCntrl (hc : call = .stop) (hf : st.primarySt.Live)
      (hs : st.subSt = .stopEcntrl) :
      Agree call st (nwStopRCntrl st.rmiiMode .done)
  | stopped (hc : call = .stop) (hp : st.primarySt = .stopped)
      (hs : st.subSt = .none) : Agree call st .done

section Steps

variable {c : FecConfig} {hw : Word → Word} {f : Fep} {junk : Word} {p : NwFep} {call : NwCall}

/-- A step goes on, and driver and monitor still agree. -/
def GoesOn (c : FecConfig) (x : NwSystem) (a : NwAction) : Prop :=
  ∃ x', nwStep c x a = .ok x' ∧ Agree x'.1.call x'.2.sfecState x'.1.prog ∧ Paired x'.2

variable {k prog : NwProg} {v : Word} {q : NwFep}

/-- The driver writes. -/
theorem goesOn_write {o : Word} {next : NwProg} {r : Checked} (hp : Paired f)
    (hr : fecEmuCheck c hw f o .write v 4 = .ok r) (hn : Agree call r.fep.sfecState next) :
    GoesOn c (⟨p, call, .write o v next⟩, f) (.step hw junk) := by
  refine ⟨(⟨p, call, next⟩, r.fep), ?_, hn, (FecMove.of_ok hr).paired hp⟩
  simp only [nwStep, fecWrite, hr]
  rfl

/-- The driver reads. -/
theorem goesOn_read {o : Word} {next : Word → NwProg} {f' : Fep} (hp : Paired f)
    (hb : fecEmuCheck c hw f o .readBefore junk 4 = .ok ⟨true, junk, f⟩)
    (ha : fecEmuCheck c hw f o .readAfter (hw o) 4 = .ok ⟨true, v, f'⟩)
    (hn : Agree call f'.sfecState (next v)) :
    GoesOn c (⟨p, call, .read o next⟩, f) (.step hw junk) := by
  refine ⟨(⟨p, call, next v⟩, f'), ?_, hn, (FecMove.of_ok ha).paired hp⟩
  simp only [nwStep, fecRead, hb, ha]
  rfl

theorem RestartOf.restarting (h : RestartOf call f.sfecState p k) : f.Restarting := by
  rcases h with ⟨-, -, h⟩ | ⟨-, -, -, h⟩
  · exact .inl h
  · exact .inr h

/-- Only the primary state of the device counts. -/
theorem RestartOf.congr {st : SfecState} (h : RestartOf call f.sfecState p k)
    (hp : st.primarySt = f.sfecState.primarySt) : RestartOf call st p k := by
  unfold RestartOf
  rw [hp]
  exact h

/-- The next write depends on whether pause frames are used. -/
theorem agree_pause (hc : RestartOf call f.sfecState p k)
    (hs : f.sfecState.subSt = .restartMiiSpeed) : Agree call f.sfecState (nwRestartPause p k) := by
  unfold nwRestartPause
  split
  · exact .rsem p k hc hs
  · exact .rcntrl p k hc (.inl hs)

theorem primarySt_restartWriteRCntrl (hw : Word → Word) (f : Fep) (v : Word) :
    (restartWriteRCntrl hw f v).fep.sfecState.primarySt = f.sfecState.primarySt := by
  simp only [restartWriteRCntrl]
  split <;> rfl

theorem Paired.answers (h : Paired f) : f.Answers := by
  have hshape := h.shape
  constructor
  · intro hp
    rw [hp] at hshape
    exact hshape
  · intro hp
    rw [hp] at hshape
    exact hshape

section Restart

variable (hp : Paired f) (hc : RestartOf call f.sfecState p k)
include hp hc

/-- The driver writes in a restart. -/
theorem goesOn_restartWrite {o : Word} {next : NwProg} {r : Checked}
    (hs : f.sfecState.subSt.isRestart = true) (ho : o ≠ fecMiiData)
    (hr : fecEmulateFecRestart c hw f o .write v = .ok r) (hn : Agree call r.fep.sfecState next) :
    GoesOn c (⟨q, call, .write o v next⟩, f) (.step hw junk) :=
  goesOn_write hp ((fecEmuCheck_restart hc.restarting hs ho).trans hr) hn

theorem goesOn_ievent (hs : f.sfecState.subSt = .restartReset) :
    GoesOn c (⟨q, call, nwRestartIevent p k⟩, f) (.step hw junk) := by
  have hr : fecEmulateFecRestart c hw f fecIevent .write 0xffffffff =
      .ok ⟨true, 0xffffffff, (fecRestartSw1 c f).setSub .restartInit⟩ := by
    rw [fecEmulateFecRestart, hs]
    rfl
  exact goesOn_restartWrite hp hc (by rw [hs]; rfl) (by decide) hr (.xcntrl p k (hc.congr rfl) rfl)

theorem goesOn_xcntrl (hs : f.sfecState.subSt = .restartInit) :
    GoesOn c (⟨q, call, nwRestartXCntrl p k⟩, f) (.step hw junk) := by
  have hrestart : f.sfecState.subSt.isRestart = true := by rw [hs]; rfl
  unfold nwRestartXCntrl
  split
  · have hr : fecEmulateFecRestart c hw f fecXCntrl .write 0x04 =
        .ok ⟨true, 0x04, (fecRestartSw2 c f).setSub .restartMiiMode⟩ := by
      rw [fecEmulateFecRestart, hs]
      rfl
    exact goesOn_restartWrite hp hc hrestart (by decide) hr (.miiSpeed p k (hc.congr rfl) rfl)
  · have hr : fecEmulateFecRestart c hw f fecXCntrl .write 0x0 =
        .ok ⟨true, 0x0, ((fecRestartSw2 c f).setRcntl (f.sfecState.rcntl ||| 0x02)).setSub
          .restartMiiMode⟩ := by
      rw [fecEmulateFecRestart, hs]
      rfl
    exact goesOn_restartWrite hp hc hrestart (by decide) hr (.miiSpeed p k (hc.congr rfl) rfl)

theorem goesOn_miiSpeed (hs : f.sfecState.subSt = .restartMiiMode) :
    GoesOn c (⟨q, call, nwRestartMiiSpeed p k⟩, f) (.step hw junk) := by
  have hr : fecEmulateFecRestart c hw f fecMiiSpeed .write p.phySpeed =
      .ok ⟨true, p.phySpeed, f.setSub .restartMiiSpeed⟩ := by
    rw [fecEmulateFecRestart, hs]
    rfl
  exact goesOn_restartWrite hp hc (by rw [hs]; rfl) (by decide) hr (agree_pause (hc.congr rfl) rfl)

theorem goesOn_rsem (hs : f.sfecState.subSt = .restartMiiSpeed) :
    GoesOn c (⟨q, call, .write fecRFifoRsem fecEnetRsemV (nwRestartRCntrl p k)⟩, f)
      (.step hw junk) := by
  have hr : fecEmulateFecRestart c hw f fecRFifoRsem .write fecEnetRsemV =
      .ok ⟨true, fecEnetRsemV, f.setSub .restartFceEn⟩ := by
    rw [fecEmulateFecRestart, hs]
    rfl
  exact goesOn_restartWrite hp hc (by rw [hs]; rfl) (by decide) hr
    (.rcntrl p k (hc.congr rfl) (.inr rfl))

theorem goesOn_rcntrl
    (hs : f.sfecState.subSt = .restartMiiSpeed ∨ f.sfecState.subSt = .restartFceEn) :
    GoesOn c (⟨q, call, nwRestartRCntrl p k⟩, f) (.step hw junk) := by
  have hr : fecEmulateFecRestart c hw f fecRCntrl .write p.rcntl =
      .ok (restartWriteRCntrl hw f p.rcntl) := by
    rcases hs with hs | hs <;> rw [fecEmulateFecRestart, hs] <;> rfl
  have hrestart : f.sfecState.subSt.isRestart = true := by
    rcases hs with hs | hs <;> rw [hs] <;> rfl
  exact goesOn_restartWrite hp hc hrestart (by decide) hr
    (.ecntrl p k (hc.congr (primarySt_restartWriteRCntrl hw f p.rcntl)) rfl)

theorem goesOn_ecntrl (hs : f.sfecState.subSt = .restartRCntrl) :
    GoesOn c (⟨q, call, nwRestartEcntrl p k⟩, f) (.step hw junk) := by
  have hr : fecEmulateFecRestart c hw f fecEcntrl .write p.ecntl =
      .ok (restartWriteEcntrl hw f p.ecntl) := by
    rw [fecEmulateFecRestart, hs]
    rfl
  exact goesOn_restartWrite hp hc (by rw [hs]; rfl) (by decide) hr (.imask p k (hc.congr rfl) rfl)

theorem goesOn_imask (hs : f.sfecState.subSt = .restartEcntrl) :
    GoesOn c (⟨q, call, nwRestartImask p k⟩, f) (.step hw junk) := by
  have hchk : ∀ v, v = fecDefaultImask ∨ v = fecEnetMii →
      fecEmuCheck c hw f fecImask .write v 4 = restartWriteImask f v := by
    intro v hv
    rw [fecEmuCheck_restart hc.restarting (by rw [hs]; rfl) (by decide), fecEmulateFecRestart, hs]
    rcases hv with rfl | rfl <;> rfl
  rcases hc with ⟨hcall, rfl, hpri⟩ | ⟨hcall, rfl, hl, hpri⟩
  · -- an open: the device is not yet polled
    have hr : ∀ v, restartWriteImask f v = .ok ⟨true, v, ((fecRestartSw6 f).setPri .postOpen).setSub
        (if v = fecDefaultImask then SfecSub.restartImaskRun else .restartImaskMii)⟩ := fun v =>
      if_pos (by exact hpri)
    unfold nwRestartImask
    split
    · exact goesOn_write hp ((hchk _ (.inl rfl)).trans (hr _)) (.openEnd hcall rfl (.inl rfl))
    · exact goesOn_write hp ((hchk _ (.inr rfl)).trans (hr _)) (.openEnd hcall rfl (.inr rfl))
  · -- a link that came up: both contexts are enabled again
    have hne : f.sfecState.primarySt ≠ .opening := by
      rcases hpri with h | h | h <;> rw [h] <;> decide
    obtain ⟨r, hr⟩ : ∃ r, restartWriteImask f fecDefaultImask = .ok r := by
      simp only [restartWriteImask,
        if_neg (show (fecRestartSw6 f).sfecState.primarySt ≠ _ from hne),
        fecEnetAdjustLinkSwRestartPost, enableNapis_of_not_polled hp
          (not_polled_of_sub hs (by decide))
          (g := ((fecRestartSw6 f).setPri .running).setSub .none) rfl rfl]
      exact ⟨_, rfl⟩
    have hst := sfecState_restartWriteImask hr
    have hrun : r.fep.sfecState.primarySt = .running ∧ r.fep.sfecState.subSt = .none := by
      rcases hst.2.2 with ⟨h, -⟩ | ⟨-, -, h⟩
      · exact absurd h hne
      · exact h
    rw [nwRestartImask, hl]
    exact goesOn_write hp ((hchk _ (.inl rfl)).trans hr) (.restarted hcall hrun.1 hrun.2)

end Restart

section Calls

variable (hp : Paired f)
include hp

theorem goesOn_miiInit (hc : call = .miiInit) (hpri : f.sfecState.primarySt = .probed)
    (hs : f.sfecState.subSt = .none) :
    GoesOn c (⟨q, call, .write fecMiiSpeed v .done⟩, f) (.step hw junk) := by
  have hr : fecEmuCheck c hw f fecMiiSpeed .write v 4 = .ok ⟨true, v, f⟩ := by
    rw [fecEmuCheck, if_neg (by decide), if_neg (by rw [hpri]; decide), if_pos ⟨hpri, rfl, rfl⟩]
  exact goesOn_write hp hr (.probed hc hpri hs)

theorem goesOn_enetOpen (hc : call = .enetOpen) (hpri : f.sfecState.primarySt = .probed)
    (hs : f.sfecState.subSt = .none) :
    GoesOn c (⟨q, call, nwFecEnetOpen p⟩, f) (.step hw junk) := by
  have hr : fecEmuCheck c hw f fecEcntrl .write 1 4 =
      .ok ⟨true, 1, ((fecRestartSw0 f).setPri .opening).setSub .restartReset⟩ := by
    rw [fecEmuCheck_eq_pri hp.answers (fun h => absurd h.2.1 (by decide)) (by decide)
      (fun h => h.2.1 rfl), fecEmuCheckPri, hpri]
    exact if_neg (by rw [hs]; decide)
  exact goesOn_write hp hr (.ievent p nwOpenEnd (.inl ⟨hc, rfl, rfl⟩) rfl)

theorem goesOn_restart (hc : call = .restart) (hl : p.link = true) (hf : f.Idle) :
    GoesOn c (⟨q, call, nwFecRestart p .done⟩, f) (.step hw junk) := by
  have hsd : f.sfecState.primarySt ≠ .shuttingDown := by
    rcases hf.1 with h | h | h <;> rw [h] <;> decide
  obtain ⟨f', hpre⟩ : ∃ f', fecEnetAdjustLinkSwRestartPre f = .ok f' :=
    ⟨_, disableNapis_of_polled hp hf.polled true⟩
  have hst : f'.sfecState = f.sfecState :=
    sfecState_disableNapis (f := { f with txStopped := true }) hpre
  have hr : fecEmuCheck c hw f fecEcntrl .write 1 4 =
      .ok ⟨true, 1, (fecRestartSw0 f').setSub .restartReset⟩ := by
    rw [fecEmuCheck_idle hf (by decide) (by decide), fecEmuCheckIdle, if_neg (by decide),
      if_neg (by decide), if_pos ⟨rfl, rfl, rfl, hsd⟩, hpre]
    rfl
  refine goesOn_write hp hr (.ievent p .done (.inr ⟨hc, rfl, hl, ?_⟩) rfl)
  show f'.sfecState.primarySt.Live
  rw [hst]
  exact hf.1

theorem goesOn_openEnd (hc : call = .enetOpen) (hpri : f.sfecState.primarySt = .postOpen)
    (hs : f.sfecState.subSt = .restartImaskRun ∨ f.sfecState.subSt = .restartImaskMii) :
    GoesOn c (⟨q, call, nwOpenEnd⟩, f) (.step hw junk) := by
  have hnp : ¬ f.Polled := by
    rintro ⟨hlive, -⟩
    rw [hpri] at hlive
    exact absurd hlive (by decide)
  have hchk : fecEmuCheck c hw f fecXWmrk .write 47 4 =
      fecEmuCheckPostOpen f fecXWmrk .write 47 := by
    rw [fecEmuCheck_eq_pri hp.answers (fun h => absurd h.2.1 (by decide)) (by decide)
      (fun h => h.2.1 rfl), fecEmuCheckPri, hpri]
  -- what the open leaves behind is the same in both cases, up to the primary state
  have hopen : ∀ pr : SfecPri, pr = .restarted ∨ pr = .running →
      fecEmuCheckPostOpen f fecXWmrk .write 47 = Checked.after
        (fecEnetOpenSw ((f.setPri pr).setSub .none)) (fun f => ⟨false, 47, f⟩) →
      GoesOn c (⟨q, call, nwOpenEnd⟩, f) (.step hw junk) := by
    intro pr hpr hpost
    obtain ⟨f', hf'⟩ : ∃ f', fecEnetOpenSw ((f.setPri pr).setSub .none) = .ok f' := by
      rw [fecEnetOpenSw, enableNapis_of_not_polled hp hnp (g := (f.setPri pr).setSub .none) rfl rfl]
      exact ⟨_, rfl⟩
    have hst := sfecState_openSw hf'
    rw [hf'] at hpost
    refine goesOn_write hp (hchk.trans hpost) (.opened hc ?_ (congrArg SfecState.subSt hst))
    rw [congrArg SfecState.primarySt hst]
    exact hpr
  rcases hs with hs | hs
  · refine hopen .running (.inr rfl) ?_
    rw [fecEmuCheckPostOpen, if_neg (by decide), hs]
  · refine hopen .restarted (.inl rfl) ?_
    rw [fecEmuCheckPostOpen, if_neg (by decide), hs]

theorem goesOn_stop (hc : call = .stop) (hl : p.link = true) (hf : f.Idle) :
    GoesOn c (⟨q, call, nwFecStop p .done⟩, f) (.step hw junk) := by
  obtain ⟨f', hpre⟩ : ∃ f', fecEnetAdjustLinkSwStopPre f = .ok f' :=
    ⟨_, disableNapis_of_polled hp hf.polled true⟩
  have hst : f'.sfecState = f.sfecState :=
    sfecState_disableNapis (f := { f with txStopped := true }) hpre
  have hb : fecEmuCheck c hw f fecRCntrl .readBefore junk 4 = .ok ⟨true, junk, f⟩ := by
    rw [fecEmuCheck_idle hf (by decide) (by decide), fecEmuCheckIdle,
      if_neg (fun h => absurd h.1 (by decide)), if_pos rfl, if_pos rfl]
  have ha : fecEmuCheck c hw f fecRCntrl .readAfter (hw fecRCntrl) 4 =
      .ok ⟨true, hw fecRCntrl &&& 1#32 <<< 8,
        (f'.setRmiiMode (hw fecRCntrl &&& 1#32 <<< 8)).setSub .stopGetRmii⟩ := by
    rw [fecEmuCheck_idle hf (by decide) (by decide), fecEmuCheckIdle,
      if_neg (fun h => absurd h.1 (by decide)), if_pos rfl, if_neg (by decide),
      if_neg (by decide), hpre]
    rfl
  have hmask : hw fecRCntrl &&& 1#32 <<< 8 &&& 1#32 <<< 8 = hw fecRCntrl &&& 1#32 <<< 8 := by
    rw [BitVec.and_assoc, BitVec.and_self]
  refine goesOn_read hp hb ha ?_
  show Agree call _ (nwStopXmit p (hw fecRCntrl &&& _ &&& _) .done)
  rw [hmask]
  refine .stopXmit p hc hl ?_ rfl
  show f'.sfecState.primarySt.Live
  rw [hst]
  exact hf.1

end Calls

section Stop

variable (hp : Paired f) (hc : call = .stop) (hf : f.sfecState.primarySt.Live)
include hp hc hf

/-- The driver writes in a stop. -/
theorem goesOn_stopWrite {o : Word} {next : NwProg} {r : Checked}
    (hs : f.sfecState.subSt.isStop = true) (ho : o ≠ fecMiiData)
    (hr : fecEmulateFecStop f o .write v = .ok r) (hn : Agree .stop r.fep.sfecState next) :
    GoesOn c (⟨q, call, .write o v next⟩, f) (.step hw junk) := by
  subst hc
  exact goesOn_write hp ((fecEmuCheck_stop hf hs ho (fun h => h.2.1 rfl)).trans hr) hn

theorem goesOn_stopXmit (hl : p.link = true) (hs : f.sfecState.subSt = .stopGetRmii) :
    GoesOn c (⟨q, call, nwStopXmit p f.sfecState.rmiiMode .done⟩, f) (.step hw junk) := by
  have hr : fecEmulateFecStop f fecXCntrl .write 1 = .ok ⟨true, 1, f.setSub .stopXmitStop⟩ := by
    rw [fecEmulateFecStop, hs]
    rfl
  rw [nwStopXmit, hl]
  exact goesOn_stopWrite hp hc hf (by rw [hs]; rfl) (by decide) hr (.stopIevent p rfl hf (.inl rfl))

theorem goesOn_stopIevent
    (hs : f.sfecState.subSt = .stopXmitStop ∨ f.sfecState.subSt = .stopGetIevent) :
    GoesOn c (⟨q, call, nwStopIevent p f.sfecState.rmiiMode .done⟩, f) (.step hw junk) := by
  rcases hs with hs | hs
  · exact goesOn_read hp (fecEmuCheck_poll_stop hf (by decide) hs)
      (fecEmuCheck_poll_stop hf (by decide) hs) (.stopReset p hc hf rfl)
  · have hne : f.sfecState.subSt ≠ .stopXmitStop := by rw [hs]; decide
    exact goesOn_read hp (fecEmuCheck_poll hp.answers (by decide) hne)
      (fecEmuCheck_poll hp.answers (by decide) hne) (.stopReset p hc hf hs)

theorem goesOn_stopReset (hs : f.sfecState.subSt = .stopGetIevent) :
    GoesOn c (⟨q, call, nwStopReset p f.sfecState.rmiiMode .done⟩, f) (.step hw junk) := by
  have hr : fecEmulateFecStop f fecEcntrl .write 1 = .ok ⟨true, 1, f.setSub .stopReset⟩ := by
    rw [fecEmulateFecStop, hs]
    rfl
  exact goesOn_stopWrite hp hc hf (by rw [hs]; rfl) (by decide) hr (.stopImask p rfl hf rfl)

theorem goesOn_stopImask (hs : f.sfecState.subSt = .stopReset) :
    GoesOn c (⟨q, call, nwStopImask p f.sfecState.rmiiMode .done⟩, f) (.step hw junk) := by
  have hr : fecEmulateFecStop f fecImask .write fecEnetMii =
      .ok ⟨true, fecEnetMii, f.setSub .stopMiiImask⟩ := by
    rw [fecEmulateFecStop, hs]
    rfl
  exact goesOn_stopWrite hp hc hf (by rw [hs]; rfl) (by decide) hr (.stopMiiSpeed p rfl hf rfl)

theorem goesOn_stopMiiSpeed (hs : f.sfecState.subSt = .stopMiiImask) :
    GoesOn c (⟨q, call, nwStopMiiSpeed p f.sfecState.rmiiMode .done⟩, f) (.step hw junk) := by
  have hr : fecEmulateFecStop f fecMiiSpeed .write p.phySpeed =
      .ok ⟨true, p.phySpeed, f.setSub .stopMiiSpeed⟩ := by
    rw [fecEmulateFecStop, hs]
    rfl
  exact goesOn_stopWrite hp hc hf (by rw [hs]; rfl) (by decide) hr (.stopEcntrl rfl hf rfl)

theorem goesOn_stopEcntrl (hs : f.sfecState.subSt = .stopMiiSpeed) :
    GoesOn c (⟨q, call, nwStopEcntrl f.sfecState.rmiiMode .done⟩, f) (.step hw junk) := by
  have hr : fecEmulateFecStop f fecEcntrl .write 2 = .ok ⟨true, 2, f.setSub .stopEcntrl⟩ := by
    rw [fecEmulateFecStop, hs]
    rfl
  exact goesOn_stopWrite hp hc hf (by rw [hs]; rfl) (by decide) hr (.stopRCntrl rfl hf rfl)

theorem goesOn_stopRCntrl (hs : f.sfecState.subSt = .stopEcntrl) :
    GoesOn c (⟨q, call, nwStopRCntrl f.sfecState.rmiiMode .done⟩, f) (.step hw junk) := by
  have hsd : f.sfecState.primarySt ≠ .shuttingDown := by
    rcases hf with h | h | h <;> rw [h] <;> decide
  obtain ⟨r, hr⟩ : ∃ r, stopWriteRCntrl f f.sfecState.rmiiMode = .ok r := by
    rw [stopWriteRCntrl, if_neg (not_not.mpr rfl), fecEnetAdjustLinkSwStopPost,
      if_neg (by exact hsd), enableNapis_of_not_polled hp (not_polled_of_sub hs (by decide))
        (g := f.setRmiiMode 0) rfl rfl]
    exact ⟨_, rfl⟩
  obtain ⟨-, -, hsub, hpri⟩ := sfecState_stopWriteRCntrl hr
  have hstop : fecEmulateFecStop f fecRCntrl .write f.sfecState.rmiiMode = .ok r := by
    rw [fecEmulateFecStop, hs]
    exact hr
  exact goesOn_stopWrite hp hc hf (by rw [hs]; rfl) (by decide) hstop
    (.stopped rfl (hpri.trans (if_neg hsd)) hsub)

end Stop

/-- **The step lemma for the driver.** -/
theorem Agree.step (h : Agree call f.sfecState prog) (hp : Paired f) (hd : prog.isDone = false) :
    GoesOn c (⟨q, call, prog⟩, f) (.step hw junk) := by
  cases h with
  | miiInit v hc hpri hs => exact goesOn_miiInit hp hc hpri hs
  | enetOpen p hc hpri hs => exact goesOn_enetOpen hp hc hpri hs
  | restart p hc hl hf hs => exact goesOn_restart hp hc hl ⟨hf, hs⟩
  | ievent p k hc hs => exact goesOn_ievent hp hc hs
  | xcntrl p k hc hs => exact goesOn_xcntrl hp hc hs
  | miiSpeed p k hc hs => exact goesOn_miiSpeed hp hc hs
  | rsem p k hc hs => exact goesOn_rsem hp hc hs
  | rcntrl p k hc hs => exact goesOn_rcntrl hp hc hs
  | ecntrl p k hc hs => exact goesOn_ecntrl hp hc hs
  | imask p k hc hs => exact goesOn_imask hp hc hs
  | openEnd hc hpri hs => exact goesOn_openEnd hp hc hpri hs
  | stop p hc hl hf hs => exact goesOn_stop hp hc hl ⟨hf, hs⟩
  | stopXmit p hc hl hf hs => exact goesOn_stopXmit hp hc hf hl hs
  | stopIevent p hc hf hs => exact goesOn_stopIevent hp hc hf hs
  | stopReset p hc hf hs => exact goesOn_stopReset hp hc hf hs
  | stopImask p hc hf hs => exact goesOn_stopImask hp hc hf hs
  | stopMiiSpeed p hc hf hs => exact goesOn_stopMiiSpeed hp hc hf hs
  | stopEcntrl hc hf hs => exact goesOn_stopEcntrl hp hc hf hs
  | stopRCntrl hc hf hs => exact goesOn_stopRCntrl hp hc hf hs
  | probed | opened | restarted | stopped => cases hd

/-- Where a poll is taken for the one of `fec_stop`, the driver is about to make that one. -/
theorem Agree.poll (h : Agree call f.sfecState prog) (hs : f.sfecState.subSt = .stopXmitStop) :
    f.sfecState.primarySt.Live ∧ Agree call (f.setSub .stopGetIevent).sfecState prog := by
  cases h with
  | stopIevent p hc hf _ => exact ⟨hf, .stopIevent p hc hf (.inr rfl)⟩
  | miiInit v hc hpri hs' | probed hc hpri hs' | enetOpen p hc hpri hs' | opened hc hpri hs'
  | restarted hc hpri hs' | stopped hc hpri hs' => rw [hs] at hs'; cases hs'
  | restart p hc hl hf hs' | stop p hc hl hf hs' => rw [hs] at hs'; cases hs'
  | ievent p k hc hs' | xcntrl p k hc hs' | miiSpeed p k hc hs' | rsem p k hc hs'
  | ecntrl p k hc hs' | imask p k hc hs' => rw [hs] at hs'; cases hs'
  | rcntrl p k hc hs' => rw [hs] at hs'; rcases hs' with hs' | hs' <;> cases hs'
  | openEnd hc hpri hs' => rw [hs] at hs'; rcases hs' with hs' | hs' <;> cases hs'
  | stopXmit p hc hl hf hs' | stopReset p hc hf hs' | stopImask p hc hf hs'
  | stopMiiSpeed p hc hf hs' | stopEcntrl hc hf hs' | stopRCntrl hc hf hs' =>
    rw [hs] at hs'; cases hs'

/-- A write of the management layer. -/
theorem nwStep_mdioWrite (hf : f.Answers) (d : NwDriver) (v : Word) :
    nwStep c (d, f) (.mdioWrite v hw) = .ok (d, f) := by
  have hr : fecEmuCheck c hw f fecMiiData .write v 4 = .ok ⟨true, v, f⟩ := fecEmuCheck_mdio hf
  simp only [nwStep, fecWrite, hr]
  rfl

/-- A read of the management layer. -/
theorem nwStep_mdioRead (hf : f.Answers) (d : NwDriver) :
    nwStep c (d, f) (.mdioRead hw junk) = .ok (d, f) := by
  have hb : fecEmuCheck c hw f fecMiiData .readBefore junk 4 = .ok ⟨true, junk, f⟩ :=
    fecEmuCheck_mdio hf
  have ha : fecEmuCheck c hw f fecMiiData .readAfter (hw fecMiiData) 4 =
      .ok ⟨true, hw fecMiiData &&& 0xffff, f⟩ := fecEmuCheck_mdio hf
  simp only [nwStep, fecRead, hb, ha]
  rfl

/-- A poll of the management layer. -/
theorem nwStep_mdioPoll (hf : f.Answers) (hs : f.sfecState.subSt ≠ .stopXmitStop)
    (d : NwDriver) : nwStep c (d, f) (.mdioPoll hw junk) = .ok (d, f) := by
  have hb : fecEmuCheck c hw f fecIevent .readBefore junk 4 = .ok ⟨true, junk, f⟩ :=
    fecEmuCheck_poll hf (by decide) hs
  have ha : fecEmuCheck c hw f fecIevent .readAfter (hw fecIevent) 4 =
      .ok ⟨true, hw fecIevent &&& fecEnetMii, f⟩ := fecEmuCheck_poll hf (by decide) hs
  simp only [nwStep, fecRead, hb, ha]
  rfl

/-- A poll of the management layer that the monitor takes for the one of `fec_stop`. -/
theorem nwStep_mdioPoll_stop (hf : f.sfecState.primarySt.Live)
    (hs : f.sfecState.subSt = .stopXmitStop) (d : NwDriver) :
    nwStep c (d, f) (.mdioPoll hw junk) = .ok (d, f.setSub .stopGetIevent) := by
  have hb : fecEmuCheck c hw f fecIevent .readBefore junk 4 = .ok ⟨true, junk, f⟩ :=
    fecEmuCheck_poll_stop hf (by decide) hs
  have ha : fecEmuCheck c hw f fecIevent .readAfter (hw fecIevent) 4 =
      .ok ⟨true, hw fecIevent &&& fecEnetGra, f.setSub .stopGetIevent⟩ :=
    fecEmuCheck_poll_stop hf (by decide) hs
  simp only [nwStep, fecRead, hb, ha]
  rfl

/-- Where the monitor is once a call has returned. -/
def Returned (st : SfecState) : NwCall → Prop
  | .miiInit => st.primarySt = .probed
  | .enetOpen => st.primarySt = .restarted ∨ st.primarySt = .running
  | .restart => st.primarySt = .running
  | .stop => st.primarySt = .stopped
  | .close => False

theorem Agree.returned {st : SfecState} (h : Agree call st prog) (hd : prog.isDone = true) :
    st.subSt = .none ∧ Returned st call := by
  cases h with
  | probed hc hp hs | opened hc hp hs | restarted hc hp hs | stopped hc hp hs =>
    subst hc
    exact ⟨hs, hp⟩
  | stopXmit p hc hl =>
    rw [nwStopXmit, hl] at hd
    cases hd
  | _ => cases hd

/-- After the open no call leaves a sub-state behind. -/
theorem Agree.idle (h : Agree call f.sfecState prog) (hd : prog.isDone = true)
    (hc : call = .enetOpen ∨ call = .restart ∨ call = .stop) : f.Idle := by
  obtain ⟨hs, hr⟩ := h.returned hd
  refine ⟨?_, hs⟩
  rcases hc with rfl | rfl | rfl
  · rcases hr with hr | hr
    · exact .inl hr
    · exact .inr (.inr hr)
  · exact .inr (.inr hr)
  · exact .inr (.inl hr)

/-- A change of the link starts a restart or a stop, or nothing. -/
theorem Agree.adjustLink {d : NwDriver} (h : Agree d.call f.sfecState d.prog)
    (hd : d.prog.isDone = true)
    (hc : d.call = .enetOpen ∨ d.call = .restart ∨ d.call = .stop) (phy : PhyDev) (halted : Bool) :
    Agree (d.adjustLink phy halted).call f.sfecState (d.adjustLink phy halted).prog := by
  have hidle : f.Idle := h.idle hd hc
  unfold NwDriver.adjustLink
  split
  · exact h
  · dsimp only
    split
    · split
      · exact .restart _ rfl rfl hidle.1 hidle.2
      · exact h
    · split
      · rename_i hl
        exact .stop _ rfl hl hidle.1 hidle.2
      · exact h

/-- **Driver and monitor stay in step.** -/
theorem goesOn_of_agree {x : NwSystem} (h : Agree x.1.call x.2.sfecState x.1.prog)
    (hp : Paired x.2) {a : NwAction} (ha : NwAllows x a) : GoesOn c x a := by
  obtain ⟨d, f⟩ := x
  cases a with
  | step hw junk => exact h.step hp ha
  | mdioWrite v hw => exact ⟨_, nwStep_mdioWrite hp.answers d v, h, hp⟩
  | mdioRead hw junk => exact ⟨_, nwStep_mdioRead hp.answers d, h, hp⟩
  | mdioPoll hw junk =>
    by_cases hs : f.sfecState.subSt = .stopXmitStop
    · obtain ⟨hf, h'⟩ := h.poll hs
      exact ⟨_, nwStep_mdioPoll_stop hf hs d, h', hp.stop hf hs (by decide) rfl⟩
    · exact ⟨_, nwStep_mdioPoll hp.answers hs d, h, hp⟩
  | enetOpen =>
    refine ⟨_, rfl, ?_, hp⟩
    obtain ⟨hs, hret⟩ := h.returned ha.1
    rw [ha.2] at hret
    exact .enetOpen d.fep rfl hret hs
  | adjustLink phy halted => exact ⟨_, rfl, h.adjustLink ha.1 ha.2 phy halted, hp⟩
  | rx e => exact ⟨_, rfl, h, hp.shape, hp.rx.event e, hp.routeTx, hp.rings⟩
  | routeTx e => exact ⟨_, rfl, h, hp.shape, hp.rx, hp.routeTx.event e, hp.rings⟩
  | egress s k => exact ⟨_, rfl, h, hp.shape, hp.rx, hp.routeTx, hp.rings⟩

/-- The invariant of every run of the driver. -/
theorem agree_of_run {as : List NwAction} {x : NwSystem}
    (hr : Run (nwStep c) NwAllows (nwProbed p) as x) :
    Agree x.1.call x.2.sfecState x.1.prog ∧ Paired x.2 := by
  have h0 : Agree (nwProbed p).1.call (nwProbed p).2.sfecState (nwProbed p).1.prog ∧
      Paired (nwProbed p).2 := ⟨.miiInit p.phySpeed rfl rfl rfl, fecProbed_paired⟩
  refine hr.inv (I := fun x => Agree x.1.call x.2.sfecState x.1.prog ∧ Paired x.2) ?_ h0
  rintro x a x' ⟨h, hp⟩ ha hs
  obtain ⟨y, hy, hyn⟩ := goesOn_of_agree (c := c) h hp ha
  rw [hs] at hy
  cases hy
  exact hyn

end Steps

/-- **Driver and monitor agree on link changes.**  In every run of the driver nothing it may do
next panics, and after the open, each restart and each stop the monitor is where it should be,
without a sub-state. -/
theorem driver_and_monitor_agree (c : FecConfig) (p : NwFep) {as : List NwAction} {x : NwSystem}
    (hr : Run (nwStep c) NwAllows (nwProbed p) as x) :
    (∀ a, NwAllows x a → ∃ x', nwStep c x a = .ok x') ∧
    (x.1.prog = .done →
      (x.1.call = .enetOpen → x.2.sfecState.subSt = .none ∧
        (x.2.sfecState.primarySt = .restarted ∨ x.2.sfecState.primarySt = .running)) ∧
      (x.1.call = .restart → x.2.sfecState.subSt = .none ∧
        x.2.sfecState.primarySt = .running) ∧
      (x.1.call = .stop → x.2.sfecState.subSt = .none ∧
        x.2.sfecState.primarySt = .stopped)) := by
  obtain ⟨h, hp⟩ := agree_of_run hr
  constructor
  · intro a ha
    obtain ⟨x', hx', -⟩ := goesOn_of_agree (c := c) h hp ha
    exact ⟨x', hx'⟩
  · intro hdone
    obtain ⟨hs, hret⟩ := h.returned (by rw [hdone]; rfl)
    refine ⟨fun hc => ?_, fun hc => ?_, fun hc => ?_⟩
    all_goals
      rw [hc] at hret
      exact ⟨hs, hret⟩

/-- A full duplex gigabit link. -/
def gigabitPhy (link : Bool) : PhyDev := ⟨link, 1, 1000, true⟩

/-- An RGMII device that negotiates pause frames. -/
def rgmiiFep : NwFep := ⟨false, 0, 0, 0x1a, .rgmii, 1, none⟩

/-- The open, a link that comes up, and one that goes down, with a poll of the management layer
in the place of the one in `fec_stop`. -/
def linkUpDown : List NwAction :=
  let step : NwAction := .step (fun _ => 0x100) 0
  [step, .enetOpen, .mdioWrite 0x60020000 fun _ => 0] ++ List.replicate 8 step ++
    [.adjustLink (gigabitPhy true) false] ++ List.replicate 8 step ++
    [.mdioRead (fun _ => 0) 0, .adjustLink (gigabitPhy false) false, step, step,
      .mdioPoll (fun _ => 0xffffffff) 0] ++ List.replicate 6 step

theorem driver_and_monitor_agree_link_up_down :
    ∃ x, Run (nwStep ⟨0, 0, 0, 0⟩) NwAllows (nwProbed rgmiiFep) linkUpDown x ∧
      x.1.prog = .done ∧ x.2.sfecState.primarySt = .stopped := by
  obtain ⟨x, hr, hx⟩ : ∃ x, Run (nwStep ⟨0, 0, 0, 0⟩) NwAllows (nwProbed rgmiiFep) linkUpDown x ∧
      (x.1.prog.isDone, x.1.call) = (true, .stop) :=
    exists_run_of_exec (by decide +kernel)
  obtain ⟨hd, hc⟩ := Prod.mk.inj hx
  have hdone : x.1.prog = .done := by
    cases hp : x.1.prog with
    | done => rfl
    | write | read => rw [hp] at hd; cases hd
  exact ⟨x, hr, hdone, (((driver_and_monitor_agree ⟨0, 0, 0, 0⟩ rgmiiFep hr).2 hdone).2.2 hc).2⟩

end TrustedGateway
