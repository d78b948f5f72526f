import TrustedGateway.Fec.Moves

/-!
# What the normal world can write

The values the monitor lets through depend on what it gathered over earlier accesses: the
receive control word of a restart from the duplex and flow control writes, that of a stop from
the read which began it.  `NwView` gathers the same from the outside, out of the answers to the
accesses, and `Tracked` says that the two agree.
-/

namespace TrustedGateway

open StepSystem

variable {c : FecConfig} {hw : Word → Word} {f : Fep}

/-- What the answers tell: the last committed `X_CNTRL`, whether flow control was set up since
the last reset, and bit 8 of the last `R_CNTRL` that was read. -/
structure NwView where
  xcntrl : Word
  rsem : Bool
  rmii : Word
  deriving DecidableEq, Repr

/-- A write reached the hardware. -/
def NwView.commit (w : NwView) (offset value : Word) : NwView :=
  if offset = fecXCntrl then { w with xcntrl := value }
  else if offset = fecRFifoRsem then { w with rsem := true }
  else if offset = fecEcntrl ∧ value = 1 then { w with rsem := false }
  else w

/-- A register was read, and the hardware showed `value`. -/
def NwView.readOff (w : NwView) (offset value : Word) : NwView :=
  if offset = fecRCntrl then { w with rmii := value &&& 1#32 <<< 8 } else w

/-- An access was answered. -/
def NwView.see (w : NwView) (a : FecAccess) (hw : Word → Word) : FecAnswer → NwView
  | .refused => w
  | .committed offset value => w.commit offset value
  | .readBack _ => w.readOff a.offset (hw a.offset)

/-- The device, watched from the outside. -/
def watchStep (c : FecConfig) (s : Fep × NwView) (e : FecEvent) : Except Abort (Fep × NwView) :=
  match e with
  | .access a hw => (fecAccess c hw s.1 a).map fun r => (r.2, s.2.see a hw r.1)
  | e => (fecStep c s.1 e).map fun f => (f, s.2)

/-- Watching changes nothing. -/
theorem watchStep_fst (c : FecConfig) (s : Fep × NwView) (e : FecEvent) :
    (watchStep c s e).map Prod.fst = fecStep c s.1 e := by
  cases e with
  | access a hw =>
    simp only [watchStep, fecStep, fecAnswer]
    cases fecAccess c hw s.1 a <;> rfl
  | rx e | routeTx e | egress t k => rfl

/-! ## The monitor's values -/

/-- `R_CNTRL` as the monitor has it for the current restart: the frame size, MII mode, half
duplex, the length check and flow control. -/
def ownRcntl (w : NwView) : Word :=
  (optFrameSize ||| 0x04) ||| (if w.xcntrl = 0 then 0x02 else 0) ||| 0x40000000 |||
    (if w.rsem then fecEnetFce else 0)

/-- `ECNTRL` as the monitor has it at the end of a restart. -/
def ownEcntl : Word := fecEnetEtheren ||| 1#32 <<< 8

/-- The registers the normal world can write. -/
def nwWritable : List Word :=
  [fecMiiData, fecMiiSpeed, fecIevent, fecXCntrl, fecRFifoRsem, fecRCntrl, fecEcntrl, fecImask]

/-- The writes that reach the hardware; `asked` is the value of the normal world. -/
structure Permitted (f : Fep) (w : NwView) (asked offset value : Word) : Prop where
  writable : offset ∈ nwWritable
  rcntrl : offset = fecRCntrl →
    f.sfecState.subSt.isRestart = true ∧ value = (asked &&& rcntrlNwBits) ||| ownRcntl w ∨
      f.sfecState.subSt.isStop = true ∧ value = w.rmii
  ecntrl : offset = fecEcntrl →
    value = 1 ∨ value = 2 ∨ value = (asked &&& 1#32 <<< 5) ||| ownEcntl
  imask : offset = fecImask → value = fecDefaultImask ∨ value = fecEnetMii

/-- No ring, buffer size or address register is writable. -/
theorem not_mem_nwWritable :
    fecRDesStart0 ∉ nwWritable ∧ fecXDesStart0 ∉ nwWritable ∧ fecRBuffSize0 ∉ nwWritable ∧
      fecAddrLow ∉ nwWritable ∧ fecAddrHigh ∉ nwWritable := by
  decide

/-- Frame size and loopback and promiscuous bits of the control word of a restart. -/
theorem ownRcntl_bits (w : NwView) (asked : Word) :
    ((asked &&& rcntrlNwBits) ||| ownRcntl w) >>> 16 &&& 0x3fff#32 = 1984 ∧
      ((asked &&& rcntrlNwBits) ||| ownRcntl w).getLsbD 0 = false ∧
      ((asked &&& rcntrlNwBits) ||| ownRcntl w).getLsbD 3 = false := by
  have hown : ownRcntl w >>> 16 &&& 0x3fff#32 = 1984 ∧ (ownRcntl w).getLsbD 0 = false ∧
      (ownRcntl w).getLsbD 3 = false := by
    unfold ownRcntl
    split <;> split <;> decide
  obtain ⟨hsize, h0, h3⟩ := hown
  have hbits : rcntrlNwBits >>> 16 = 0#32 := by decide
  refine ⟨?_, ?_, ?_⟩
  · rw [BitVec.ushiftRight_or_distrib, BitVec.ushiftRight_and_distrib, hbits, BitVec.and_zero,
      BitVec.zero_or]
    exact hsize
  · rw [BitVec.getLsbD_or, BitVec.getLsbD_and, h0]
    simp [rcntrlNwBits]
  · rw [BitVec.getLsbD_or, BitVec.getLsbD_and, h3]
    simp [rcntrlNwBits]

/-! ## The invariant -/

/-- The view agrees with what the monitor has gathered. -/
def Tracked (f : Fep) (w : NwView) : Prop :=
  match f.sfecState.subSt with
  | .restartReset | .restartInit =>
    f.sfecState.rcntl = optFrameSize ||| 0x04 ∧ f.sfecState.ecntl = fecEnetEtheren ∧
      w.rsem = false
  | .restartMiiMode | .restartMiiSpeed =>
    f.sfecState.rcntl = (optFrameSize ||| 0x04) ||| (if w.xcntrl = 0 then 0x02 else 0) ∧
      f.sfecState.ecntl = fecEnetEtheren ∧ w.rsem = false
  | .restartFceEn =>
    f.sfecState.rcntl = (optFrameSize ||| 0x04) ||| (if w.xcntrl = 0 then 0x02 else 0) ∧
      f.sfecState.ecntl = fecEnetEtheren ∧ w.rsem = true
  | .restartRCntrl => f.sfecState.ecntl = fecEnetEtheren
  | .none | .restartEcntrl | .restartImaskRun | .restartImaskMii => True
  | _ => f.sfecState.rmiiMode = w.rmii

/-- The view of a stop only depends on the read that began it. -/
theorem rmii_commit (w : NwView) (offset value : Word) : (w.commit offset value).rmii = w.rmii := by
  unfold NwView.commit
  repeat' split
  all_goals rfl

/-- Where the monitor has gathered nothing. -/
theorem tracked_of_sub (w : NwView) {s : SfecSub} (hs : f.sfecState.subSt = s)
    (hn : s = .none ∨ s = .restartEcntrl ∨ s = .restartImaskRun ∨ s = .restartImaskMii) :
    Tracked f w := by
  unfold Tracked
  rw [hs]
  rcases hn with rfl | rfl | rfl | rfl <;> trivial

/-- The first access of a restart. -/
theorem tracked_begin (w : NwView) {g : Fep} (hs : g.sfecState.subSt = .restartReset)
    (hr : g.sfecState.rcntl = optFrameSize ||| 0x04) (he : g.sfecState.ecntl = fecEnetEtheren) :
    Tracked g (w.commit fecEcntrl 1) := by
  unfold Tracked
  rw [hs]
  exact ⟨hr, he, rfl⟩

variable {asked offset v value : Word} {r : Checked} {w : NwView}

/-- A stop that goes on. -/
theorem tracked_stop {w' : NwView} {s s' : SfecSub} (h : Tracked f w) (hs : f.sfecState.subSt = s)
    (hst : s.isStop = true) (hst' : s'.isStop = true) (hw' : w'.rmii = w.rmii) :
    Tracked (f.setSub s') w' := by
  have hrm : f.sfecState.rmiiMode = w.rmii := by
    unfold Tracked at h
    rw [hs] at h
    cases s <;> first | exact h | cases hst
  have hgoal : f.sfecState.rmiiMode = w'.rmii := hrm.trans hw'.symm
  cases s' <;> first | exact hgoal | cases hst'

/-- **The view stays right over a write.** -/
theorem FecMove.tracked_write (h : Tracked f w) (hm : FecMove c hw f offset .write v r) :
    Tracked r.fep (if r.allowed then w.commit offset r.value else w) := by
  cases hm with
  | refuse => exact h
  | miiInit v hp ho | mdioWrite v ho => subst ho; exact h
  | openBegin hp hs ho | restartBegin f' hf ho hpre => subst ho; exact tracked_begin w rfl rfl rfl
  | shutdown hf => exact h
  | reset hf hs ho | miiMode v hf hs ho =>
    subst ho
    unfold Tracked at h
    rw [hs] at h
    exact h
  | initFull hf hs ho =>
    subst ho
    unfold Tracked at h
    rw [hs] at h
    refine ⟨?_, h.2.1, h.2.2⟩
    show f.sfecState.rcntl = (optFrameSize ||| 0x04) ||| (if 0x04#32 = 0 then 0x02 else 0)
    rw [h.1]
    decide
  | initHalf hf hs ho =>
    subst ho
    unfold Tracked at h
    rw [hs] at h
    refine ⟨?_, h.2.1, h.2.2⟩
    show f.sfecState.rcntl ||| 0x02 =
      (optFrameSize ||| 0x04) ||| (if 0x0#32 = 0 then 0x02 else 0)
    rw [h.1]
    decide
  | rsem hf hs ho =>
    subst ho
    unfold Tracked at h
    rw [hs] at h
    exact ⟨h.1, h.2.1, rfl⟩
  | rcntrl v hf hs ho =>
    have hec : f.sfecState.ecntl = fecEnetEtheren := by
      unfold Tracked at h
      rcases hs with hs | hs <;> rw [hs] at h <;> exact h.2.1
    show (restartWriteRCntrl hw f v).fep.sfecState.ecntl = fecEnetEtheren
    simp only [restartWriteRCntrl]
    split <;> exact hec
  | ecntrl v hf hs ho => trivial
  | imask v r hf hs ho hv hr =>
    obtain ⟨-, -, h⟩ := sfecState_restartWriteImask hr
    rcases h with ⟨-, -, hs'⟩ | ⟨-, -, -, hs'⟩
    · refine tracked_of_sub _ hs' (.inr (.inr ?_))
      split
      · exact .inl rfl
      · exact .inr rfl
    · exact tracked_of_sub _ hs' (.inl rfl)
  | openEnd p f' hp hpl ho hpost =>
    exact tracked_of_sub _ (congrArg SfecState.subSt (sfecState_openSw hpost)) (.inl rfl)
  | stopXmit hf hs ho | stopImask hf hs ho | stopMiiSpeed v hf hs ho | stopEcntrl hf hs ho =>
    exact tracked_stop h hs rfl rfl (rmii_commit ..)
  | stopReset hf hs ho =>
    rcases hs with hs | hs <;> exact tracked_stop h hs rfl rfl (rmii_commit ..)
  | stopEnd r hf hs ho hr =>
    exact tracked_of_sub _ (sfecState_stopWriteRCntrl hr).2.2.1 (.inl rfl)

/-- The call before the hardware is read changes nothing. -/
theorem FecMove.fep_readBefore (hm : FecMove c hw f offset .readBefore v r) : r.fep = f := by
  cases hm <;> rfl

/-- **The view stays right over a read.** -/
theorem FecMove.tracked_read (h : Tracked f w) (hm : FecMove c hw f offset .readAfter v r) :
    Tracked r.fep (if r.allowed then w.readOff offset v else w) := by
  cases hm with
  | refuse => exact h
  | mdioRead v ho | mdioPoll v ho => subst ho; exact h
  | stopBegin v f' hf ho hpre => subst ho; rfl
  | stopIevent v hf hs ho => subst ho; exact tracked_stop h hs rfl rfl rfl

/-! ## What a write commits -/

/-- The control word of a restart. -/
theorem value_restartWriteRCntrl (h : Tracked f w) (v : Word)
    (hs : f.sfecState.subSt = .restartMiiSpeed ∨ f.sfecState.subSt = .restartFceEn) :
    (restartWriteRCntrl hw f v).value = (v &&& rcntrlNwBits) ||| ownRcntl w := by
  unfold Tracked at h
  rcases hs with hs | hs
  · rw [hs] at h
    obtain ⟨hr, -, hrs⟩ := h
    have hne : f.sfecState.subSt ≠ .restartFceEn := by rw [hs]; decide
    simp only [restartWriteRCntrl, if_neg hne, ownRcntl, hrs]
    congr 1
    show (f.sfecState.rcntl ||| _) &&& _ = _
    rw [hr]
    split <;> decide
  · rw [hs] at h
    obtain ⟨hr, -, hrs⟩ := h
    simp only [restartWriteRCntrl, if_pos hs, ownRcntl, hrs]
    congr 1
    show f.sfecState.rcntl ||| _ ||| _ = _
    rw [hr]
    split <;> decide

theorem Permitted.plain (h : offset ∈ nwWritable ∧ offset ≠ fecRCntrl ∧ offset ≠ fecEcntrl ∧
    offset ≠ fecImask) : Permitted f w asked offset value :=
  ⟨h.1, fun ho => absurd ho h.2.1, fun ho => absurd ho h.2.2.1, fun ho => absurd ho h.2.2.2⟩

theorem Permitted.toEcntrl
    (h : value = 1 ∨ value = 2 ∨ value = (asked &&& 1#32 <<< 5) ||| ownEcntl) :
    Permitted f w asked fecEcntrl value :=
  ⟨by decide, fun h => absurd h (by decide), fun _ => h, fun h => absurd h (by decide)⟩

theorem Permitted.toImask (h : value = fecDefaultImask ∨ value = fecEnetMii) :
    Permitted f w asked fecImask value :=
  ⟨by decide, fun h => absurd h (by decide), fun h => absurd h (by decide), fun _ => h⟩

theorem Permitted.toRCntrl
    (h : f.sfecState.subSt.isRestart = true ∧ value = (asked &&& rcntrlNwBits) ||| ownRcntl w ∨
      f.sfecState.subSt.isStop = true ∧ value = w.rmii) : Permitted f w asked fecRCntrl value :=
  ⟨by decide, fun _ => h, fun h => absurd h (by decide), fun h => absurd h (by decide)⟩

/-- **What a write of the normal world comes to.** -/
theorem FecMove.permitted (h : Tracked f w) (hm : FecMove c hw f offset .write v r)
    (hr : r.allowed = true) : Permitted f w v offset r.value := by
  cases hm with
  | refuse | shutdown | openEnd => cases hr
  | miiInit v hp ho | mdioWrite v ho | reset hf hs ho | initFull hf hs ho | initHalf hf hs ho
  | miiMode v hf hs ho | rsem hf hs ho | stopXmit hf hs ho | stopMiiSpeed v hf hs ho =>
    subst ho; exact .plain (by decide)
  | openBegin hp hs ho | restartBegin f' hf ho | stopReset hf hs ho =>
    subst ho; exact .toEcntrl (.inl rfl)
  | rcntrl v hf hs ho =>
    subst ho
    refine .toRCntrl (.inl ⟨?_, value_restartWriteRCntrl h v hs⟩)
    rcases hs with hs | hs <;> rw [hs] <;> rfl
  | ecntrl v hf hs ho =>
    subst ho
    unfold Tracked at h
    rw [hs] at h
    refine .toEcntrl (.inr (.inr ?_))
    show (v &&& _) ||| (f.sfecState.ecntl ||| _) = _
    rw [h]
    rfl
  | imask v r hf hs ho hv hi =>
    subst ho
    refine .toImask ?_
    rw [(sfecState_restartWriteImask hi).2.1]
    exact hv
  | stopImask hf hs ho => subst ho; exact .toImask (.inr rfl)
  | stopEcntrl hf hs ho => subst ho; exact .toEcntrl (.inr (.inl rfl))
  | stopEnd r hf hs ho he =>
    subst ho
    unfold Tracked at h
    rw [hs] at h
    refine .toRCntrl (.inr ⟨by rw [hs]; rfl, ?_⟩)
    rw [(sfecState_stopWriteRCntrl he).2.1]
    exact h

/-! ## Runs -/

/-- An access keeps the view right. -/
theorem tracked_access (h : Tracked f w) {a : FecAccess} {ans : FecAnswer} {f' : Fep}
    (ha : fecAccess c hw f a = .ok (ans, f')) : Tracked f' (w.see a hw ans) := by
  unfold fecAccess at ha
  split at ha
  · unfold fecWrite at ha
    split at ha
    · cases ha
    · rename_i r hr
      cases ha
      have ht := (FecMove.of_ok hr).tracked_write h
      cases hal : r.allowed with
      | false | true => rw [hal] at ht; exact ht
  · unfold fecRead at ha
    split at ha
    · cases ha
    · rename_i r hr
      have hfep := (FecMove.of_ok hr).fep_readBefore
      split at ha
      · cases ha
        rw [hfep]
        exact h
      · split at ha
        · cases ha
        · rename_i q hq
          cases ha
          rw [hfep] at hq
          have ht := (FecMove.of_ok hq).tracked_read h
          cases hal : q.allowed with
          | false | true => rw [hal] at ht; exact ht

/-- What an access commits is permitted. -/
theorem permitted_access (h : Tracked f w) {a : FecAccess} {f' : Fep}
    (ha : fecAccess c hw f a = .ok (.committed offset value, f')) :
    Permitted f w a.value offset value := by
  unfold fecAccess at ha
  split at ha
  · unfold fecWrite at ha
    split at ha
    · cases ha
    · rename_i r hr
      cases hal : r.allowed with
      | false => rw [hal] at ha; cases ha
      | true =>
        rw [hal] at ha
        cases ha
        exact (FecMove.of_ok hr).permitted h hal
  · unfold fecRead at ha
    repeat' split at ha
    all_goals cases ha

theorem tracked_watchStep {s s' : Fep × NwView} {e : FecEvent} (h : Tracked s.1 s.2)
    (hs : watchStep c s e = .ok s') : Tracked s'.1 s'.2 := by
  cases e with
  | access a hw =>
    simp only [watchStep] at hs
    cases ha : fecAccess c hw s.1 a with
    | error e => rw [ha] at hs; cases hs
    | ok r =>
      rw [ha] at hs
      cases hs
      exact tracked_access h ha
  | rx e | routeTx e | egress t k => cases hs; exact h

/-- The device after probe, with nothing seen of it yet. -/
def watchProbed : Fep × NwView := (fecProbed, ⟨0, false, 0⟩)

/-- **NIC integrity.**  Whatever the normal world did since probe, a write of it that reaches the
hardware is permitted; the control word of a restart has the frame size 1984 and neither the
loopback nor the promiscuous bit. -/
theorem committed_writes_permitted (c : FecConfig) {es : List FecEvent} {s : Fep × NwView}
    (hr : Run (watchStep c) (fun _ _ => True) watchProbed es s) (a : FecAccess)
    (hw : Word → Word) {offset value : Word} {f' : Fep}
    (ha : fecAccess c hw s.1 a = .ok (.committed offset value, f')) :
    Permitted s.1 s.2 a.value offset value ∧
      (((a.value &&& rcntrlNwBits) ||| ownRcntl s.2) >>> 16 &&& 0x3fff#32 = 1984 ∧
        ((a.value &&& rcntrlNwBits) ||| ownRcntl s.2).getLsbD 0 = false ∧
        ((a.value &&& rcntrlNwBits) ||| ownRcntl s.2).getLsbD 3 = false) ∧
      offset ∉ [fecRDesStart0, fecXDesStart0, fecRBuffSize0, fecAddrLow, fecAddrHigh] := by
  have ht : Tracked s.1 s.2 := by
    have h0 : Tracked watchProbed.1 watchProbed.2 := trivial
    exact hr.inv (I := fun s => Tracked s.1 s.2) (fun s e s' hs _ he => tracked_watchStep hs he) h0
  have hp := permitted_access ht ha
  refine ⟨hp, ownRcntl_bits s.2 a.value, ?_⟩
  intro hmem
  have hw' := hp.writable
  simp only [List.mem_cons, List.not_mem_nil, or_false] at hmem
  obtain ⟨h₁, h₂, h₃, h₄, h₅⟩ := not_mem_nwWritable
  rcases hmem with rfl | rfl | rfl | rfl | rfl
  · exact h₁ hw'
  · exact h₂ hw'
  · exact h₃ hw'
  · exact h₄ hw'
  · exact h₅ hw'

/-- The normal world asks for every bit of `R_CNTRL` in a restart, and gets three of them. -/
theorem committed_writes_permitted_restart :
    ∃ s f', Run (watchStep ⟨0, 0, 0, 0⟩) (fun _ _ => True) watchProbed
        [.access ⟨.write, fecEcntrl, 1, 4⟩ fun _ => 0,
          .access ⟨.write, fecIevent, 0xffffffff, 4⟩ fun _ => 0,
          .access ⟨.write, fecXCntrl, 0, 4⟩ fun _ => 0,
          .access ⟨.write, fecMiiSpeed, 0, 4⟩ fun _ => 0] s ∧
      fecAccess ⟨0, 0, 0, 0⟩ (fun _ => 0) s.1 ⟨.write, fecRCntrl, 0xffffffff, 4⟩ =
        .ok (.committed fecRCntrl 0x47c00346, f') ∧
      Permitted s.1 s.2 0xffffffff fecRCntrl 0x47c00346 := by
  obtain ⟨s, hr, hs⟩ : ∃ s, Run (watchStep ⟨0, 0, 0, 0⟩) (fun _ _ => True) watchProbed
      [.access ⟨.write, fecEcntrl, 1, 4⟩ fun _ => 0,
        .access ⟨.write, fecIevent, 0xffffffff, 4⟩ fun _ => 0,
        .access ⟨.write, fecXCntrl, 0, 4⟩ fun _ => 0,
        .access ⟨.write, fecMiiSpeed, 0, 4⟩ fun _ => 0] s ∧
      (fecAccess ⟨0, 0, 0, 0⟩ (fun _ => 0) s.1 ⟨.write, fecRCntrl, 0xffffffff, 4⟩).map Prod.fst =
        .ok (.committed fecRCntrl 0x47c00346) :=
    exists_run_of_exec (by decide +kernel)
  obtain ⟨⟨ans, f'⟩, ha, rfl⟩ := exists_ok_of_map hs
  exact ⟨s, f', hr, ha, (committed_writes_permitted ⟨0, 0, 0, 0⟩ hr _ _ ha).1⟩

end TrustedGateway
