import TrustedGateway.Lib.Run
import TrustedGateway.Napi

/-!
# The register monitor of the network controller

The normal world keeps its FEC driver, but every access of it to the register block traps into
`fec_emu_check` (`nw_mmio_traps.c`).  The monitor follows the driver through open, restart and
stop, runs the secure half of each step (`imx_fec.c`), edits the values that go to the
hardware, and panics on whatever the driver would not do at that point.

A read traps twice, before and after the hardware is read.  The register file the hardware
shows is an argument of every access; it may be a different one each time.

## Main definitions

* `SfecState`, `Fep` — the state of the monitor, and the part of the device it acts on.
* `fecEmulateFecRestart`, `fecEmulateFecStop`, `fecEmuCheck` — the monitor.
* `FecAccess`, `fecAccess` — a trapped access, with what becomes of it.
* `FecEvent`, `fecStep` — accesses, with workers and interrupts in between.
-/

namespace TrustedGateway

open StepSystem

/-! ## Registers and masks of `imx_fec.h` -/

def fecIevent : Word := 0x004
def fecImask : Word := 0x008
def fecRDesActive0 : Word := 0x010
def fecEcntrl : Word := 0x024
def fecMiiData : Word := 0x040
def fecMiiSpeed : Word := 0x044
def fecMibCtrlstat : Word := 0x064
def fecRCntrl : Word := 0x084
def fecXCntrl : Word := 0x0c4
def fecAddrLow : Word := 0x0e4
def fecAddrHigh : Word := 0x0e8
def fecOpd : Word := 0x0ec
def fecHashTableHigh : Word := 0x118
def fecHashTableLow : Word := 0x11c
def fecGrpHashTableHigh : Word := 0x120
def fecGrpHashTableLow : Word := 0x124
def fecXWmrk : Word := 0x144
def fecRDesStart0 : Word := 0x180
def fecXDesStart0 : Word := 0x184
def fecRBuffSize0 : Word := 0x188
def fecRFifoRsfl : Word := 0x190
def fecRFifoRsem : Word := 0x194
def fecRFifoRaem : Word := 0x198
def fecRFifoRafl : Word := 0x19c
def fecFtrl : Word := 0x1b0
def fecRacc : Word := 0x1c4

def fecEnetFce : Word := 1#32 <<< 5
def fecEnetRsemV : Word := 0x84
def fecEnetRsflV : Word := 16
def fecEnetRaemV : Word := 0x8
def fecEnetRaflV : Word := 0x8
def fecEnetOpdV : Word := 0xfff0

def fecEnetGra : Word := 0x10000000
def fecEnetTxf : Word := 0x08000000 ||| 0x00000008 ||| 0x00000080
def fecEnetRxf : Word := 0x02000000 ||| 0x00000002 ||| 0x00000020
def fecEnetMii : Word := 0x00800000
def fecDefaultImask : Word := fecEnetTxf ||| fecEnetRxf ||| fecEnetMii
def fecEnetEtheren : Word := 0x00000002

def fecRaccShift16 : Word := 1#32 <<< 7
def fecRaccOptions : Word := 1#32 <<< 1 ||| 1#32 <<< 2

/-- `PKT_MAXBUF_SIZE`, which is `round_down(2048 - 64, 64)`. -/
def pktMaxbufSize : Word := 1984

/-- `OPT_FRAME_SIZE`. -/
def optFrameSize : Word := pktMaxbufSize <<< 16

/-! ## State -/

/-- `enum emu_state`: why the monitor is called. -/
inductive EmuState
  | readBefore | readAfter | write
  deriving DecidableEq, Repr

/-- `sfec_prist_t`. -/
inductive SfecPri
  | error | uninit | probed | opening | postOpen | restarted | stopped | running
  | shuttingDown | shutDown
  deriving DecidableEq, Repr

/-- `sfec_subst_t`. -/
inductive SfecSub
  | none
  | restartReset | restartInit | restartMiiMode | restartMiiSpeed | restartFceEn
  | restartRCntrl | restartEcntrl | restartImaskRun | restartImaskMii
  | stopGetRmii | stopXmitStop | stopGetIevent | stopReset | stopMiiImask | stopMiiSpeed
  | stopEcntrl
  deriving DecidableEq, Repr

/-- Between `SFEC_SUB_RESTART_RESET` and `SFEC_SUB_RESTART_IMASK_MII`. -/
def SfecSub.isRestart : SfecSub → Bool
  | restartReset | restartInit | restartMiiMode | restartMiiSpeed | restartFceEn
  | restartRCntrl | restartEcntrl | restartImaskRun | restartImaskMii => true
  | _ => false

/-- Between `SFEC_SUB_STOP_GET_RMII` and `SFEC_SUB_STOP_ECNTRL`. -/
def SfecSub.isStop : SfecSub → Bool
  | stopGetRmii | stopXmitStop | stopGetIevent | stopReset | stopMiiImask | stopMiiSpeed
  | stopEcntrl => true
  | _ => false

/-- `sfec_state_t`. -/
structure SfecState where
  primarySt : SfecPri
  subSt : SfecSub
  rcntl : Word
  ecntl : Word
  rmiiMode : Word
  deriving DecidableEq, Repr

/-- What the secure driver does on its own behalf.  An initialisation of the descriptor rings
carries the `DISABLE` bits of the two contexts at that moment. -/
inductive SwOp
  | ioWrite (offset value : Word)
  | bdInit (rxDisabled routeTxDisabled : Bool)
  deriving DecidableEq, Repr

/-- The part of `fec_enet_private` the monitor acts on, with the `stopped` flag of the egress
queue and the log of the driver's own operations. -/
structure Fep where
  sfecState : SfecState
  rxNapi : Napi
  routeTxNapi : Napi
  txStopped : Bool
  noKick : Bool
  log : List SwOp
  deriving DecidableEq, Repr

/-- The values of the device the restart programs into the controller. -/
structure FecConfig where
  addrLow : Word
  addrHigh : Word
  rxDma : Word
  txDma : Word
  deriving DecidableEq, Repr

namespace Fep

def setPri (f : Fep) (p : SfecPri) : Fep :=
  { f with sfecState := { f.sfecState with primarySt := p } }

def setSub (f : Fep) (s : SfecSub) : Fep :=
  { f with sfecState := { f.sfecState with subSt := s } }

def setRcntl (f : Fep) (v : Word) : Fep :=
  { f with sfecState := { f.sfecState with rcntl := v } }

def setEcntl (f : Fep) (v : Word) : Fep :=
  { f with sfecState := { f.sfecState with ecntl := v } }

def setRmiiMode (f : Fep) (v : Word) : Fep :=
  { f with sfecState := { f.sfecState with rmiiMode := v } }

/-- A sequence of `io_write32`. -/
def ioWrites (f : Fep) (ws : List (Word × Word)) : Fep :=
  { f with log := f.log ++ ws.map fun w => .ioWrite w.1 w.2 }

end Fep

/-! ## The secure half of the driver -/

/-- `fec_restart_sw_0`. -/
def fecRestartSw0 (f : Fep) : Fep :=
  (f.setRcntl (optFrameSize ||| 0x04)).setEcntl fecEnetEtheren

/-- `fec_restart_sw_1`: the MAC address. -/
def fecRestartSw1 (c : FecConfig) (f : Fep) : Fep :=
  f.ioWrites [(fecAddrLow, c.addrLow), (fecAddrHigh, c.addrHigh)]

/-- `fec_restart_sw_2`: `fec_enet_bd_init`, `fec_enet_enable_ring`, `fec_enet_reset_skb`. -/
def fecRestartSw2 (c : FecConfig) (f : Fep) : Fep :=
  Fep.ioWrites { f with log := f.log ++ [.bdInit f.rxNapi.disable f.routeTxNapi.disable] }
    [(fecRDesStart0, c.rxDma), (fecRBuffSize0, pktMaxbufSize), (fecXDesStart0, c.txDma)]

/-- `fec_restart_sw_3`: the receive accelerator, which the controller has, with checksums
enabled. -/
def fecRestartSw3 (hw : Word → Word) (f : Fep) : Fep :=
  f.ioWrites [(fecRacc, hw fecRacc ||| fecRaccShift16 ||| fecRaccOptions),
    (fecFtrl, pktMaxbufSize), (fecFtrl, pktMaxbufSize)]

/-- `fec_restart_sw_4_opt`: the FIFO thresholds. -/
def fecRestartSw4Opt (f : Fep) : Fep :=
  f.ioWrites [(fecRFifoRsfl, fecEnetRsflV), (fecRFifoRaem, fecEnetRaemV),
    (fecRFifoRafl, fecEnetRaflV), (fecOpd, fecEnetOpdV)]

/-- `set_multicast_list`. -/
def setMulticastList (hw : Word → Word) (f : Fep) : Fep :=
  f.ioWrites [(fecRCntrl, hw fecRCntrl &&& ~~~0x8#32), (fecGrpHashTableHigh, 0),
    (fecGrpHashTableLow, 0)]

/-- `fec_restart_sw_5`; the controller is an ENET-MAC without extended descriptors. -/
def fecRestartSw5 (hw : Word → Word) (f : Fep) : Fep :=
  let f := (setMulticastList hw f).ioWrites [(fecHashTableHigh, 0), (fecHashTableLow, 0)]
  let f := (f.setEcntl (f.sfecState.ecntl ||| 1#32 <<< 8)).ioWrites [(fecXWmrk, 1#32 <<< 8)]
  f.ioWrites [(fecMibCtrlstat, 0)]

/-- `fec_restart_sw_6`: `fec_enet_active_rxring`. -/
def fecRestartSw6 (f : Fep) : Fep := f.ioWrites [(fecRDesActive0, 0)]

/-- Disable the receiving context, then the forwarding one. -/
def disableNapis (f : Fep) : Except Abort Fep :=
  match napiDisable f.rxNapi with
  | .error a => .error a
  | .ok rx =>
    match napiDisable f.routeTxNapi with
    | .error a => .error a
    | .ok tx => .ok { f with rxNapi := rx, routeTxNapi := tx }

/-- Enable the forwarding context, then the receiving one. -/
def enableNapis (f : Fep) : Except Abort Fep :=
  match napiEnable f.routeTxNapi with
  | .error a => .error a
  | .ok tx =>
    match napiEnable f.rxNapi with
    | .error a => .error a
    | .ok rx => .ok { f with rxNapi := rx, routeTxNapi := tx }

/-- `bstgw_fec_schedule_xmit`. -/
def fecScheduleXmit (f : Fep) : Fep :=
  if f.noKick then f else { f with noKick := true, routeTxNapi := napiSchedule f.routeTxNapi }

/-- `fec_egr_ntfy_handler`. -/
def fecEgrNtfyHandler (f : Fep) : Fep :=
  if f.txStopped then f else fecScheduleXmit f

/-- `netif_tx_wake_queue`. -/
def netifTxWakeQueue (f : Fep) : Fep :=
  if f.txStopped then fecEgrNtfyHandler { f with txStopped := false } else f

/-- `fec_enet_adjust_link_sw_restart_pre`. -/
def fecEnetAdjustLinkSwRestartPre (f : Fep) : Except Abort Fep :=
  disableNapis { f with txStopped := true }

/-- `fec_enet_adjust_link_sw_restart_post`. -/
def fecEnetAdjustLinkSwRestartPost (f : Fep) : Except Abort Fep :=
  match enableNapis f with
  | .error a => .error a
  | .ok f => .ok (netifTxWakeQueue f)

/-- `fec_enet_adjust_link_sw_stop_pre`; `netif_tx_disable` is `netif_tx_stop_queue`. -/
def fecEnetAdjustLinkSwStopPre (f : Fep) : Except Abort Fep :=
  disableNapis { f with txStopped := true }

/-- `fec_enet_adjust_link_sw_stop_post`. -/
def fecEnetAdjustLinkSwStopPost (f : Fep) : Except Abort Fep :=
  if f.sfecState.primarySt = .shuttingDown then .ok f else enableNapis f

/-- `fec_enet_open_sw`. -/
def fecEnetOpenSw (f : Fep) : Except Abort Fep :=
  match enableNapis f with
  | .error a => .error a
  | .ok f => .ok { f with txStopped := false }

/-! ## The monitor -/

/-- What a call of the monitor returns: whether the access is allowed, the value, and the
device. -/
structure Checked where
  allowed : Bool
  value : Word
  fep : Fep
  deriving DecidableEq, Repr

/-- `fec_state_panic`. -/
def fecStatePanic {α : Type} : Except Abort α := .error (.panic "Unexpected NW behaviour")

/-- Go on after the secure half of a step. -/
def Checked.after (x : Except Abort Fep) (k : Fep → Checked) : Except Abort Checked :=
  match x with
  | .error a => .error a
  | .ok f => .ok (k f)

/-- The bits of `R_CNTRL` that the normal world chooses: the PHY interface and the speed. -/
def rcntrlNwBits : Word := 1#32 <<< 6 ||| 1#32 <<< 8 ||| 1#32 <<< 9

/-- The write to `R_CNTRL` in a restart; `sub` tells whether flow control is on. -/
def restartWriteRCntrl (hw : Word → Word) (f : Fep) (value : Word) : Checked :=
  let fce := f.sfecState.subSt = .restartFceEn
  let f := fecRestartSw3 hw f
  let rcntl := f.sfecState.rcntl ||| (0x40000000 ||| 0x00000020)
  let rcntl := if fce then rcntl ||| fecEnetFce else rcntl &&& ~~~fecEnetFce
  let f := if fce then fecRestartSw4Opt f else f
  { allowed := true
    value := (value &&& rcntrlNwBits) ||| rcntl
    fep := (f.setRcntl 0).setSub .restartRCntrl }

/-- The write to `ECNTRL` that ends a restart. -/
def restartWriteEcntrl (hw : Word → Word) (f : Fep) (value : Word) : Checked :=
  let f := fecRestartSw5 hw f
  { allowed := true
    value := (value &&& 1#32 <<< 5) ||| f.sfecState.ecntl
    fep := (f.setEcntl 0).setSub .restartEcntrl }

/-- The write to `IMASK`, which the secure world hears of last. -/
def restartWriteImask (f : Fep) (value : Word) : Except Abort Checked :=
  let f := fecRestartSw6 f
  if f.sfecState.primarySt = .opening then
    let sub := if value = fecDefaultImask then SfecSub.restartImaskRun else .restartImaskMii
    .ok ⟨true, value, (f.setPri .postOpen).setSub sub⟩
  else if value ≠ fecDefaultImask then fecStatePanic
  else
    Checked.after (fecEnetAdjustLinkSwRestartPost ((f.setPri .running).setSub .none))
      fun f => ⟨true, value, f⟩

/-- `_fec_emulate_fec_restart`. -/
def fecEmulateFecRestart (c : FecConfig) (hw : Word → Word) (f : Fep) (offset : Word)
    (state : EmuState) (value : Word) : Except Abort Checked :=
  if state ≠ .write then fecStatePanic
  else
    match f.sfecState.subSt with
    | .restartReset =>
      if offset ≠ fecIevent ∨ value ≠ 0xffffffff then fecStatePanic
      else .ok ⟨true, value, (fecRestartSw1 c f).setSub .restartInit⟩
    | .restartInit =>
      if offset ≠ fecXCntrl ∨ (value ≠ 0x04 ∧ value ≠ 0x0) then fecStatePanic
      else
        let f := fecRestartSw2 c f
        let f := if value = 0x0 then f.setRcntl (f.sfecState.rcntl ||| 0x02) else f
        .ok ⟨true, value, f.setSub .restartMiiMode⟩
    | .restartMiiMode =>
      if offset ≠ fecMiiSpeed then fecStatePanic
      else .ok ⟨true, value, f.setSub .restartMiiSpeed⟩
    | .restartMiiSpeed =>
      if offset = fecRFifoRsem then
        if value ≠ fecEnetRsemV then fecStatePanic
        else .ok ⟨true, value, f.setSub .restartFceEn⟩
      else if offset ≠ fecRCntrl then fecStatePanic
      else .ok (restartWriteRCntrl hw f value)
    | .restartFceEn =>
      if offset ≠ fecRCntrl then fecStatePanic
      else .ok (restartWriteRCntrl hw f value)
    | .restartRCntrl =>
      if offset ≠ fecEcntrl then fecStatePanic
      else .ok (restartWriteEcntrl hw f value)
    | .restartEcntrl =>
      if offset ≠ fecImask ∨ (value ≠ fecDefaultImask ∧ value ≠ fecEnetMii) then fecStatePanic
      else restartWriteImask f value
    | _ => fecStatePanic

/-- The write to `R_CNTRL` that ends a stop. -/
def stopWriteRCntrl (f : Fep) (value : Word) : Except Abort Checked :=
  if value ≠ f.sfecState.rmiiMode then fecStatePanic
  else
    Checked.after (fecEnetAdjustLinkSwStopPost (f.setRmiiMode 0)) fun f =>
      let pri := if f.sfecState.primarySt = .shuttingDown then SfecPri.shutDown else .stopped
      ⟨true, value, (f.setPri pri).setSub .none⟩

/-- `_fec_emulate_fec_stop`. -/
def fecEmulateFecStop (f : Fep) (offset : Word) (state : EmuState) (value : Word) :
    Except Abort Checked :=
  match f.sfecState.subSt with
  | .stopGetRmii =>
    if state ≠ .write then fecStatePanic
    else if offset = fecXCntrl ∧ value = 1 then .ok ⟨true, value, f.setSub .stopXmitStop⟩
    else if offset ≠ fecEcntrl ∨ value ≠ 1 then fecStatePanic
    else .ok ⟨true, value, f.setSub .stopReset⟩
  | .stopGetIevent =>
    if state ≠ .write then fecStatePanic
    else if offset ≠ fecEcntrl ∨ value ≠ 1 then fecStatePanic
    else .ok ⟨true, value, f.setSub .stopReset⟩
  | .stopXmitStop =>
    if offset ≠ fecIevent ∨ state = .write then fecStatePanic
    else if state = .readBefore then .ok ⟨true, value, f⟩
    else .ok ⟨true, value &&& fecEnetGra, f.setSub .stopGetIevent⟩
  | .stopReset =>
    if offset ≠ fecImask ∨ value ≠ fecEnetMii ∨ state ≠ .write then fecStatePanic
    else .ok ⟨true, value, f.setSub .stopMiiImask⟩
  | .stopMiiImask =>
    if offset ≠ fecMiiSpeed ∨ state ≠ .write then fecStatePanic
    else .ok ⟨true, value, f.setSub .stopMiiSpeed⟩
  | .stopMiiSpeed =>
    if offset ≠ fecEcntrl ∨ value ≠ 2 ∨ state ≠ .write then fecStatePanic
    else .ok ⟨true, value, f.setSub .stopEcntrl⟩
  | .stopEcntrl =>
    if offset ≠ fecRCntrl ∨ state ≠ .write then fecStatePanic
    else stopWriteRCntrl f value
  | _ => fecStatePanic

/-- The cases `SFEC_PRI_RESTARTED`, `SFEC_PRI_STOPPED` and `SFEC_PRI_RUNNING` without a
sub-state: the first access of a shutdown, a stop or a restart. -/
def fecEmuCheckIdle (f : Fep) (offset : Word) (state : EmuState) (value : Word) :
    Except Abort Checked :=
  if offset = fecXWmrk ∧ value = 48 ∧ state = .write then
    -- the access is virtual and never committed
    .ok ⟨false, value, f.setPri .shuttingDown⟩
  else if offset = fecRCntrl then
    if state = .readBefore then .ok ⟨true, value, f⟩
    else if state ≠ .readAfter then fecStatePanic
    else
      Checked.after (fecEnetAdjustLinkSwStopPre f) fun f =>
        ⟨true, value &&& 1#32 <<< 8, (f.setRmiiMode (value &&& 1#32 <<< 8)).setSub .stopGetRmii⟩
  else if offset = fecEcntrl ∧ value = 1 ∧ state = .write ∧
      f.sfecState.primarySt ≠ .shuttingDown then
    Checked.after (fecEnetAdjustLinkSwRestartPre f) fun f =>
      ⟨true, value, (fecRestartSw0 f).setSub .restartReset⟩
  else fecStatePanic

/-- The cases `SFEC_PRI_RESTARTED`, `SFEC_PRI_STOPPED` and `SFEC_PRI_RUNNING`. -/
def fecEmuCheckLive (c : FecConfig) (hw : Word → Word) (f : Fep) (offset : Word)
    (state : EmuState) (value : Word) : Except Abort Checked :=
  if f.sfecState.subSt = .none then fecEmuCheckIdle f offset state value
  else if f.sfecState.subSt.isStop then fecEmulateFecStop f offset state value
  else if f.sfecState.primarySt = .shuttingDown then fecStatePanic
  else if f.sfecState.subSt.isRestart then fecEmulateFecRestart c hw f offset state value
  else fecStatePanic

/-- The case `SFEC_PRI_POST_OPEN`. -/
def fecEmuCheckPostOpen (f : Fep) (offset : Word) (state : EmuState) (value : Word) :
    Except Abort Checked :=
  if offset ≠ fecXWmrk ∨ value ≠ 47 ∨ state ≠ .write then fecStatePanic
  else
    match f.sfecState.subSt with
    | .restartImaskRun =>
      Checked.after (fecEnetOpenSw ((f.setPri .running).setSub .none))
        fun f => ⟨false, value, f⟩
    | .restartImaskMii =>
      Checked.after (fecEnetOpenSw ((f.setPri .restarted).setSub .none))
        fun f => ⟨false, value, f⟩
    | _ => fecStatePanic

/-- The `switch` over the primary state.  It has no case for `SFEC_PRI_SHUTTING_DOWN`. -/
def fecEmuCheckPri (c : FecConfig) (hw : Word → Word) (f : Fep) (offset : Word)
    (state : EmuState) (value : Word) : Except Abort Checked :=
  match f.sfecState.primarySt with
  | .probed =>
    if f.sfecState.subSt ≠ .none ∨ offset ≠ fecEcntrl ∨ value ≠ 1 ∨ state ≠ .write then
      fecStatePanic
    else .ok ⟨true, value, ((fecRestartSw0 f).setPri .opening).setSub .restartReset⟩
  | .restarted | .stopped | .running => fecEmuCheckLive c hw f offset state value
  | .opening =>
    if !f.sfecState.subSt.isRestart then fecStatePanic
    else fecEmulateFecRestart c hw f offset state value
  | .postOpen => fecEmuCheckPostOpen f offset state value
  | _ => .error (.panic "Invalid FEC primary state")

/-- `fec_emu_check`. -/
def fecEmuCheck (c : FecConfig) (hw : Word → Word) (f : Fep) (offset : Word)
    (state : EmuState) (value : Word) (size : ℕ) : Except Abort Checked :=
  if size ≠ 4 then .ok ⟨false, value, f⟩
  else if f.sfecState.primarySt = .error ∨ f.sfecState.primarySt = .shutDown then
    .ok ⟨false, value, f⟩
  else if f.sfecState.primarySt = .probed ∧ offset = fecMiiSpeed ∧ state = .write then
    .ok ⟨true, value, f⟩
  else if offset = fecMiiData then
    if state = .write ∨ state = .readBefore then .ok ⟨true, value, f⟩
    else .ok ⟨true, value &&& 0xffff, f⟩
  else if offset = fecIevent ∧ state ≠ .write ∧ f.sfecState.subSt ≠ .stopXmitStop then
    if state = .readBefore then .ok ⟨true, value, f⟩
    else .ok ⟨true, value &&& fecEnetMii, f⟩
  else fecEmuCheckPri c hw f offset state value

/-! ## Accesses -/

inductive AccessKind
  | read | write
  deriving DecidableEq, Repr

/-- An access of the normal world to the register block.  The value of a read is what the
monitor's argument holds before the hardware is read. -/
structure FecAccess where
  kind : AccessKind
  offset : Word
  value : Word
  size : ℕ
  deriving DecidableEq, Repr

/-- What becomes of an access. -/
inductive FecAnswer
  | refused
  | committed (offset value : Word)
  | readBack (value : Word)
  deriving DecidableEq, Repr

/-- A trapped write. -/
def fecWrite (c : FecConfig) (hw : Word → Word) (f : Fep) (offset value : Word) (size : ℕ) :
    Except Abort (FecAnswer × Fep) :=
  match fecEmuCheck c hw f offset .write value size with
  | .error a => .error a
  | .ok r => .ok (if r.allowed then .committed offset r.value else .refused, r.fep)

/-- A trapped read; the hardware is read between the two calls of the monitor. -/
def fecRead (c : FecConfig) (hw : Word → Word) (f : Fep) (offset value : Word) (size : ℕ) :
    Except Abort (FecAnswer × Fep) :=
  match fecEmuCheck c hw f offset .readBefore value size with
  | .error a => .error a
  | .ok r =>
    if !r.allowed then .ok (.refused, r.fep)
    else
      match fecEmuCheck c hw r.fep offset .readAfter (hw offset) size with
      | .error a => .error a
      | .ok r => .ok (if r.allowed then .readBack r.value else .refused, r.fep)

/-- A trapped access. -/
def fecAccess (c : FecConfig) (hw : Word → Word) (f : Fep) (a : FecAccess) :
    Except Abort (FecAnswer × Fep) :=
  match a.kind with
  | .write => fecWrite c hw f a.offset a.value a.size
  | .read => fecRead c hw f a.offset a.value a.size

/-! ## Runs -/

/-- What workers, producers and the notifier do to a context. -/
inductive NapiEvent
  | schedule | complete | workerStart | workerExit | takeNotify
  deriving DecidableEq, Repr

def NapiEvent.apply : NapiEvent → Napi → Napi
  | schedule, n => napiSchedule n
  | complete, n => (napiComplete n).2
  | workerStart, n => { n with wActive := true }
  | workerExit, n => { n with wActive := false }
  | takeNotify, n => { n with doNotify := false }

/-- A step of the device: an access, with the register file the hardware shows to it, or what
happens in the secure world between two accesses. -/
inductive FecEvent
  | access (a : FecAccess) (hw : Word → Word)
  | rx (e : NapiEvent)
  | routeTx (e : NapiEvent)
  | egress (txStopped noKick : Bool)

/-- An event, with the answer to an access. -/
def fecAnswer (c : FecConfig) (f : Fep) : FecEvent → Except Abort (Option FecAnswer × Fep)
  | .access a hw => (fecAccess c hw f a).map fun r => (some r.1, r.2)
  | .rx e => .ok (none, { f with rxNapi := e.apply f.rxNapi })
  | .routeTx e => .ok (none, { f with routeTxNapi := e.apply f.routeTxNapi })
  | .egress s k => .ok (none, { f with txStopped := s, noKick := k })

/-- The step of the device. -/
def fecStep (c : FecConfig) (f : Fep) (e : FecEvent) : Except Abort Fep :=
  (fecAnswer c f e).map Prod.snd

/-- The device after `fec_probe`. -/
def fecProbed : Fep :=
  { sfecState := { primarySt := .probed, subSt := .none, rcntl := 0, ecntl := 0, rmiiMode := 0 }
    rxNapi := netifNapiAdd
    routeTxNapi := netifNapiAdd
    txStopped := true
    noKick := false
    log := [] }

end TrustedGateway
