import TrustedGateway.Fec.TxRing
import TrustedGateway.Lib.Run

/-!
# Who owns a frame

A frame that `fec_enet_start_xmit` accepts lies in the ring until it goes back to the pool, and it
goes back once.  What is in the ring is read off the log: `outstanding` replays the descriptors
that were handed to the hardware and taken back, and fails if one was taken back out of turn.
-/

namespace TrustedGateway

open StepSystem RingWindow
open scoped List

/-! ## What the log says -/

/-- Replay one operation on the descriptors in the hardware's hands. -/
def outstandingOp (out : List (ℕ × Skb)) : TxOp → Option (List (ℕ × Skb))
  | .trigger i skb => some (out ++ [(i, skb)])
  | .reclaim i skb =>
    match out with
    | [] => none
    | (j, s) :: out => if i = j ∧ skb = some s then some out else none
  | .reset => some []
  | .kick | .kfree _ | .notify => some out

/-- The descriptors handed to the hardware and not taken back since the last reset, with their
frames and in this order; nothing if one was taken back before an older one. -/
def outstanding (log : List TxOp) : Option (List (ℕ × Skb)) := log.foldlM outstandingOp []

/-- The frame an operation gives back to the pool. -/
def TxOp.freed? : TxOp → Option Skb
  | kfree skb => some skb
  | _ => none

/-- The frames that went back to the pool. -/
def freed (log : List TxOp) : List Skb := log.filterMap TxOp.freed?

theorem outstanding_concat (log : List TxOp) (op : TxOp) :
    outstanding (log ++ [op]) = (outstanding log).bind fun out => outstandingOp out op := by
  simp only [outstanding, List.foldlM_append, List.foldlM_cons, List.foldlM_nil, bind_pure]
  rfl

theorem freed_concat (log : List TxOp) (op : TxOp) :
    freed (log ++ [op]) = freed log ++ op.freed?.toList := by
  rw [freed, List.filterMap_append]
  cases h : op.freed? <;> simp [freed, h]

theorem freed_concat_of_none (log : List TxOp) {op : TxOp} (h : op.freed? = none) :
    freed (log ++ [op]) = freed log := by
  rw [freed_concat, h, Option.toList_none, List.append_nil]

/-! ## Runs -/

/-- The ring, and the frames it accepted so far. -/
structure TxSys where
  q : Txq
  accepted : List Skb

/-- What can happen to the ring.  The hardware may write any status to any descriptor. -/
inductive TxAction
  | xmit (env : TxEnv) (skb : Skb)
  | complete (bdp : ℕ) (sc : Half)
  | txq (active : Bool)
  | reset

def txStep (d : TxDev) (s : TxSys) : TxAction → Except Abort TxSys
  | .xmit env skb =>
    match fecEnetStartXmit d env s.q skb with
    | .error a => .error a
    | .ok (.busy, q) => .ok { s with q := q }
    | .ok (.ok, q) => .ok { q := q, accepted := s.accepted ++ [skb] }
  | .complete bdp sc => .ok { s with q := s.q.setSc bdp sc }
  | .txq active => .ok { s with q := (fecTxq d active s.q).2 }
  | .reset => .ok { s with q := fecRestartSw2Tx d s.q }

theorem txStep_xmit (d : TxDev) (s : TxSys) (env : TxEnv) (skb : Skb) :
    txStep d s (.xmit env skb) =
      match fecEnetStartXmit d env s.q skb with
      | .error a => .error a
      | .ok (.busy, q) => .ok { s with q := q }
      | .ok (.ok, q) => .ok { q := q, accepted := s.accepted ++ [skb] } := by
  exact rfl

/-- Frames are not chained. -/
def TxAllows (_ : TxSys) : TxAction → Prop
  | .xmit _ skb => skb.nrFrags = 0
  | _ => True

instance (s : TxSys) (a : TxAction) : Decidable (TxAllows s a) := by
  cases a <;> dsimp only [TxAllows] <;> infer_instance

/-- A ring without frames, as the open leaves it. -/
def TxSys.fresh (d : TxDev) (desc : ℕ → Bufdesc) (stopped : Bool) : TxSys where
  q := {
    cur := d.bd.base
    pendingTx := d.bd.base
    desc := desc
    txSkbuff := fun _ => none
    stopped := stopped
    log := [] }
  accepted := []

/-! ## The ring holds what is outstanding -/

/-- The frames `xs` lie in the ring from descriptor `p` on. -/
structure Owns (d : TxDev) (q : Txq) (p : ℕ) (xs : List Skb) : Prop where
  slots : Slots q.txSkbuff d.bd.ringSize p xs
  pendingTx : q.pendingTx = d.bd.addr p
  cur : q.cur = d.bd.addr (idx d.bd.ringSize p xs.length)
  out : outstanding q.log = some (tag d.bd.ringSize p xs)

section Steps

variable {d : TxDev} {q q' : Txq} {p : ℕ} {xs : List Skb} {skb : Skb}

theorem txIndex_addr (d : TxDev) (i : ℕ) : txIndex d (d.bd.addr i) = i := by
  rw [txIndex, BdProp.bdIndex_addr, Int.toNat_natCast]

namespace Owns

theorem congr (h : Owns d q p xs) (hskb : q'.txSkbuff = q.txSkbuff)
    (hpend : q'.pendingTx = q.pendingTx) (hcur : q'.cur = q.cur)
    (hout : outstanding q'.log = outstanding q.log) : Owns d q' p xs where
  slots := by rw [hskb]; exact h.slots
  pendingTx := hpend.trans h.pendingTx
  cur := hcur.trans h.cur
  out := hout.trans h.out

/-- The count of free descriptors. -/
theorem free (h : Owns d q p xs) :
    fecEnetGetFreeTxdescNum d.bd q.pendingTx q.cur = (d.bd.ringSize : ℤ) - 1 - xs.length := by
  rw [h.pendingTx, h.cur, BdProp.freeTxdescNum_addr h.slots.start,
    gap_idx h.slots.start h.slots.fits]

/-- There is something to reclaim unless the two positions agree. -/
theorem eq_nil_iff (h : Owns d q p xs) : q.pendingTx = q.cur ↔ xs = [] := by
  rw [h.pendingTx, h.cur, BdProp.addr_inj, ← gap_eq_zero h.slots.start,
    gap_idx h.slots.start h.slots.fits, List.length_eq_zero_iff]

/-- A frame that is freed at once. -/
theorem kfree (h : Owns d q p xs) : Owns d (q.kfree skb) p xs :=
  h.congr rfl rfl rfl (by
    rw [Txq.kfree, Txq.logOp, outstanding_concat, h.out]
    rfl)

/-- A frame that is handed to the hardware. -/
theorem trigger (h : Owns d q p xs) (hfree : xs.length + 1 < d.bd.ringSize) (b : Bufdesc)
    (sc : Half) :
    Owns d ((fecTriggerTxFill (q.setDesc q.cur b) sc q.cur skb (txIndex d q.cur)).setCur
      (fecEnetGetNextdesc q.cur d.bd)) p (xs ++ [skb]) := by
  have hindex : txIndex d q.cur = idx d.bd.ringSize p xs.length := by rw [h.cur, txIndex_addr]
  refine ⟨?_, h.pendingTx, ?_, ?_⟩
  · show Slots (Function.update q.txSkbuff (txIndex d q.cur) (some skb)) _ _ _
    rw [hindex]
    exact h.slots.push hfree skb
  · show fecEnetGetNextdesc q.cur d.bd = _
    rw [h.cur, BdProp.nextdesc_addr (idx_lt h.slots.start h.slots.fits.le),
      idx_one_idx h.slots.start h.slots.fits, List.length_append]
    rfl
  · show outstanding (q.log ++ [.trigger (txIndex d q.cur) skb]) = _
    rw [outstanding_concat, h.out, hindex, tag_concat skb h.slots.start h.slots.fits]
    rfl

/-- The oldest descriptor is taken back. -/
theorem reclaim (h : Owns d q p (skb :: xs)) :
    Owns d ((txReclaim d q q.pendingTx).setPendingTx (fecEnetGetNextdesc q.pendingTx d.bd))
      (idx d.bd.ringSize p 1) xs ∧
    (txReclaim d q q.pendingTx).log = q.log ++ [.reclaim p (some skb)] ++ [.kfree skb] := by
  obtain ⟨hskb, hslots⟩ := h.slots.pop
  have hfits := h.slots.fits
  rw [List.length_cons] at hfits
  have hindex : txIndex d q.pendingTx = p := by rw [h.pendingTx, txIndex_addr]
  have hlog : (txReclaim d q q.pendingTx).log =
      q.log ++ [.reclaim p (some skb)] ++ [.kfree skb] := by
    simp only [txReclaim, hindex, hskb]
    rfl
  have hrec : (txReclaim d q q.pendingTx).txSkbuff = Function.update q.txSkbuff p none ∧
      (txReclaim d q q.pendingTx).cur = q.cur := by
    simp only [txReclaim, hindex, hskb]
    exact ⟨rfl, rfl⟩
  refine ⟨⟨?_, ?_, ?_, ?_⟩, hlog⟩
  · show Slots (txReclaim d q q.pendingTx).txSkbuff _ _ _
    rw [hrec.1]
    exact hslots
  · show fecEnetGetNextdesc q.pendingTx d.bd = _
    rw [h.pendingTx, BdProp.nextdesc_addr h.slots.start]
  · show (txReclaim d q q.pendingTx).cur = _
    rw [hrec.2, h.cur, idx_idx_one h.slots.start hfits.le, List.length_cons]
  · show outstanding (txReclaim d q q.pendingTx).log = _
    rw [hlog, outstanding_concat, outstanding_concat, h.out, tag]
    simp [outstandingOp]

end Owns

/-- The frames that were accepted are in the pool or in the ring. -/
def Balanced (d : TxDev) (q : Txq) (accepted : List Skb) : Prop :=
  ∃ p xs, Owns d q p xs ∧ accepted.Perm (freed q.log ++ xs)

namespace Balanced

variable {acc : List Skb}

theorem congr (h : Balanced d q acc) (hskb : q'.txSkbuff = q.txSkbuff)
    (hpend : q'.pendingTx = q.pendingTx) (hcur : q'.cur = q.cur)
    (hout : outstanding q'.log = outstanding q.log) (hfreed : freed q'.log = freed q.log) :
    Balanced d q' acc := by
  obtain ⟨p, xs, ho, hacc⟩ := h
  exact ⟨p, xs, ho.congr hskb hpend hcur hout, by rwa [hfreed]⟩

/-- An operation that concerns neither a descriptor nor a frame. -/
theorem logOp (h : Balanced d q acc) {op : TxOp} (hout : ∀ out, outstandingOp out op = some out)
    (hfreed : op.freed? = none) : Balanced d (q.logOp op) acc := by
  refine h.congr rfl rfl rfl ?_ ?_
  · rw [Txq.logOp, outstanding_concat]
    simp only [hout, Option.bind_fun_some]
  · exact freed_concat_of_none _ hfreed

theorem wakeTest (h : Balanced d q acc) : Balanced d (txWakeTest d q) acc := by
  unfold txWakeTest Txq.netifTxWakeQueue
  split
  · split
    · have hrun : Balanced d (q.setStopped false) acc := h.congr rfl rfl rfl rfl rfl
      exact hrun.logOp (fun _ => rfl) rfl
    · exact h
  · exact h

theorem notDone (h : Balanced d q acc) (active : Bool) : Balanced d (txNotDone active q) acc := by
  unfold txNotDone
  split
  · exact h
  · exact h.logOp (fun _ => rfl) rfl

/-- A frame is freed at once, or it goes into the ring. -/
theorem submit (h : Balanced d q acc) {r : NetdevTx} (hs : SubmitsTo d q skb r q') :
    Balanced d q' (if r = .ok then acc ++ [skb] else acc) := by
  obtain ⟨p, xs, ho, hacc⟩ := h
  cases hs with
  | busy => exact ⟨p, xs, ho, hacc⟩
  | kfree =>
    refine ⟨p, xs, ho.kfree, ?_⟩
    have hlog : freed (q.kfree skb).log = freed q.log ++ [skb] := freed_concat ..
    rw [if_pos rfl, hlog]
    calc acc ++ [skb]
      _ ~ freed q.log ++ xs ++ [skb] := hacc.append_right _
      _ ~ freed q.log ++ [skb] ++ xs := by
          rw [List.append_assoc, List.append_assoc]
          exact List.perm_append_comm.append_left _
  | trigger hfree b =>
    rw [ho.free] at hfree
    refine ⟨p, xs ++ [skb], ho.trigger (by omega) b _, ?_⟩
    show _ ~ freed (q.log ++ [.trigger (txIndex d q.cur) skb]) ++ _
    rw [if_pos rfl, freed_concat_of_none _ rfl, ← List.append_assoc]
    exact hacc.append_right _

theorem startXmit (h : Balanced d q acc) {env : TxEnv} {r : NetdevTx}
    (hs : fecEnetStartXmit d env q skb = .ok (r, q')) :
    Balanced d q' (if r = .ok then acc ++ [skb] else acc) := by
  obtain ⟨q₁, hsub, rfl | rfl⟩ := startXmit_of_ok d hs
  · exact h.submit hsub
  · exact (h.submit hsub).congr rfl rfl rfl rfl rfl

/-- A reclaim run takes the descriptors back in order. -/
theorem txqLoop (active : Bool) (left : ℕ) {q : Txq} (h : Balanced d q acc) :
    Balanced d (fecTxqLoop d active left q.pendingTx q).2 acc := by
  induction left generalizing q with
  | zero => exact h
  | succ left ih =>
    rw [fecTxqLoop]
    split
    · exact h
    · rename_i hne
      split
      · exact h.notDone active
      · obtain ⟨p, xs, ho, hacc⟩ := h
        cases xs with
        | nil => exact absurd (ho.eq_nil_iff.mpr rfl) hne
        | cons skb xs =>
          obtain ⟨ho', hlog⟩ := ho.reclaim
          have hb : Balanced d ((txReclaim d q q.pendingTx).setPendingTx
              (fecEnetGetNextdesc q.pendingTx d.bd)) acc := by
            refine ⟨_, xs, ho', ?_⟩
            show acc ~ freed (txReclaim d q q.pendingTx).log ++ xs
            rw [hlog, freed_concat, freed_concat_of_none _ rfl, List.append_assoc]
            exact hacc
          have hnext := ih hb.wakeTest
          rwa [pendingTx_txWakeTest] at hnext

/-- A reclaim run. -/
theorem txq (h : Balanced d q acc) (active : Bool) : Balanced d (fecTxq d active q).2 acc :=
  h.txqLoop active bstgwTxcBudget

end Balanced

/-! ### Resets -/

theorem txDropSkb_eq (q : Txq) (i : ℕ) :
    txDropSkb q i =
      { q with
        txSkbuff := Function.update q.txSkbuff i none
        log := q.log ++ (q.txSkbuff i).toList.map .kfree } := by
  unfold txDropSkb
  split
  · rename_i h
    rw [h, Option.toList_none, List.map_nil, List.append_nil, ← h, Function.update_eq_self]
  · rename_i skb h
    rw [h]
    rfl

/-- Freeing the frames of the first descriptors. -/
theorem foldl_txDropSkb (q : Txq) (k : ℕ) :
    (List.range k).foldl txDropSkb q =
      { q with
        txSkbuff := fun i => if i < k then none else q.txSkbuff i
        log := q.log ++ ((List.range k).filterMap q.txSkbuff).map .kfree } := by
  induction k with
  | zero => simp
  | succ k ih =>
    have hlist : (List.range (k + 1)).filterMap q.txSkbuff =
        (List.range k).filterMap q.txSkbuff ++ (q.txSkbuff k).toList := by
      rw [List.range_succ, List.filterMap_append]
      cases h : q.txSkbuff k <;> simp [h]
    rw [hlist, List.range_succ, List.foldl_append, ih, List.foldl_cons, List.foldl_nil,
      txDropSkb_eq]
    dsimp only
    rw [if_neg (lt_irrefl k), List.map_append, List.append_assoc]
    congr 1
    funext i
    rw [Function.update_apply]
    split_ifs <;> first | rfl | omega

theorem foldl_txDropSkb_desc (l : List ℕ) (b : ℕ → Bufdesc) (q : Txq) :
    l.foldl txDropSkb { q with desc := b } = { l.foldl txDropSkb q with desc := b } := by
  induction l generalizing q with
  | nil => rfl
  | cons i l ih =>
    have hdrop : txDropSkb { q with desc := b } i = { txDropSkb q i with desc := b } := by
      rw [txDropSkb_eq, txDropSkb_eq]
    rw [List.foldl_cons, List.foldl_cons, hdrop, ih]

/-- The descriptors have no part in which frames are freed. -/
theorem foldl_resetTxDesc (l : List ℕ) (bdp : ℕ) (q : Txq) :
    ∃ b, (l.foldl (resetTxDesc d) (bdp, q)).2 = { l.foldl txDropSkb q with desc := b } := by
  induction l generalizing bdp q with
  | nil => exact ⟨q.desc, rfl⟩
  | cons i l ih =>
    obtain ⟨b, hb⟩ : ∃ b, resetTxDesc d (bdp, q) i =
        (fecEnetGetNextdesc bdp d.bd, { txDropSkb q i with desc := b }) := by
      simp only [resetTxDesc, txDropSkb_eq]
      split <;> exact ⟨_, rfl⟩
    obtain ⟨b', hb'⟩ := ih (fecEnetGetNextdesc bdp d.bd) { txDropSkb q i with desc := b }
    refine ⟨b', ?_⟩
    rw [List.foldl_cons, List.foldl_cons, hb, hb', foldl_txDropSkb_desc]

/-- What the log of a reset says. -/
theorem freed_kfree (log : List TxOp) (l : List Skb) :
    freed (log ++ l.map .kfree) = freed log ++ l := by
  rw [freed, List.filterMap_append, List.filterMap_map]
  exact congrArg _ List.filterMap_some

theorem outstanding_kfree (log : List TxOp) (l : List Skb) :
    outstanding (log ++ l.map .kfree) = outstanding log := by
  induction l using List.reverseRecOn with
  | nil => rw [List.map_nil, List.append_nil]
  | append_singleton l skb ih =>
    rw [List.map_append, ← List.append_assoc, List.map_singleton, outstanding_concat, ih]
    exact Option.bind_fun_some _

/-- What a reset leaves of the ring, and which frames it frees. -/
theorem fecRestartSw2Tx_eq (q : Txq) :
    ∃ b m, fecRestartSw2Tx d q =
      { q with
        cur := d.bd.base
        pendingTx := d.bd.base
        desc := b
        txSkbuff := m
        log := q.log ++ [.reset] ++
          ((List.range d.bd.ringSize).filterMap q.txSkbuff).map .kfree } ∧
      ∀ i < d.bd.ringSize, m i = none := by
  obtain ⟨b, hb⟩ := foldl_resetTxDesc (d := d) (List.range d.bd.ringSize) d.bd.base
    (((q.setCur d.bd.base).setPendingTx d.bd.base).logOp .reset)
  have hnone : ∀ m : ℕ → Option Skb, (List.range d.bd.ringSize).filterMap
      (fun i => if i < d.bd.ringSize then none else m i) = [] := by
    intro m
    rw [List.filterMap_eq_nil_iff]
    intro i hi
    rw [if_pos (List.mem_range.mp hi)]
  rw [fecRestartSw2Tx, resetTxQueue, hb, foldl_txDropSkb, fecEnetResetSkb, foldl_txDropSkb]
  dsimp only
  rw [hnone, List.map_nil, List.append_nil]
  exact ⟨b, _, rfl, fun i hi => if_pos hi⟩

/-- A reset frees every frame of the ring. -/
theorem Balanced.reset {acc : List Skb} (h : Balanced d q acc) :
    Balanced d (fecRestartSw2Tx d q) acc := by
  obtain ⟨p, xs, ho, hacc⟩ := h
  obtain ⟨b, m, heq, hm⟩ := fecRestartSw2Tx_eq (d := d) q
  have hpos := d.bd.ringSize_pos
  rw [heq]
  refine ⟨0, [], ⟨.nil hpos hm, BdProp.addr_zero.symm, ?_, ?_⟩, ?_⟩
  · rw [List.length_nil, idx_zero hpos, BdProp.addr_zero]
  · dsimp only
    rw [outstanding_kfree, outstanding_concat, ho.out]
    rfl
  · dsimp only
    rw [freed_kfree, freed_concat_of_none _ rfl, List.append_nil]
    exact hacc.trans (ho.slots.filterMap_range_perm.symm.append_left _)

theorem Balanced.step {s s' : TxSys} {a : TxAction} (h : Balanced d s.q s.accepted)
    (hs : txStep d s a = .ok s') : Balanced d s'.q s'.accepted := by
  cases a with
  | xmit env skb =>
    rw [txStep_xmit] at hs
    split at hs
    · cases hs
    · rename_i q hx
      cases hs
      exact h.startXmit hx
    · rename_i q hx
      cases hs
      exact h.startXmit hx
  | complete bdp sc =>
    cases hs
    exact h.congr rfl rfl rfl rfl rfl
  | txq active =>
    cases hs
    exact h.txq active
  | reset =>
    cases hs
    exact h.reset

theorem balanced_fresh (d : TxDev) (desc : ℕ → Bufdesc) (stopped : Bool) :
    Balanced d (TxSys.fresh d desc stopped).q [] := by
  have hpos := d.bd.ringSize_pos
  refine ⟨0, [], ⟨.nil hpos fun _ _ => rfl, BdProp.addr_zero.symm, ?_, rfl⟩, .refl _⟩
  rw [List.length_nil, idx_zero hpos, BdProp.addr_zero]
  rfl

theorem balanced_of_run {desc : ℕ → Bufdesc} {stopped : Bool} {as : List TxAction} {t : TxSys}
    (hr : Run (txStep d) TxAllows (TxSys.fresh d desc stopped) as t) :
    Balanced d t.q t.accepted := by
  refine hr.inv (I := fun s => Balanced d s.q s.accepted) ?_ (balanced_fresh d desc stopped)
  intro s a s' h _ hs
  exact h.step hs

/-- A submission stores to the place of the next descriptor, or nowhere. -/
theorem txSkbuff_startXmit {env : TxEnv} {r : NetdevTx}
    (hs : fecEnetStartXmit d env q skb = .ok (r, q')) :
    q'.txSkbuff = q.txSkbuff ∨
      q'.txSkbuff = Function.update q.txSkbuff (txIndex d q.cur) (some skb) := by
  obtain ⟨q₁, hsub, rfl | rfl⟩ := startXmit_of_ok d hs
  · cases hsub with
    | busy | kfree => exact .inl rfl
    | trigger => exact .inr rfl
  · cases hsub with
    | busy | kfree => exact .inl rfl
    | trigger => exact .inr rfl

/-- That place is empty, so no frame of the ring is lost. -/
theorem Owns.startXmit_keeps (h : Owns d q p xs) {env : TxEnv}
    {r : NetdevTx} (hs : fecEnetStartXmit d env q skb = .ok (r, q')) {i : ℕ} {s : Skb}
    (hmem : (i, s) ∈ tag d.bd.ringSize p xs) : q'.txSkbuff i = some s := by
  obtain ⟨k, hk, rfl⟩ := (mem_tag h.slots.start h.slots.fits).mp hmem
  have hcell := h.slots.cell k s hk
  obtain heq | heq := txSkbuff_startXmit hs
  · rw [heq, hcell]
  · have hne : idx d.bd.ringSize p k ≠ txIndex d q.cur := by
      intro hik
      rw [hik, h.cur, txIndex_addr, h.slots.vacant] at hcell
      cases hcell
    rw [heq, Function.update_of_ne hne, hcell]

end Steps

/-- A frame in the given buffer. -/
def sampleSkb (buf : BufId) : Skb := ⟨buf, 2048 * buf + 2, 60, 0, true⟩

/-- Every address is mapped; `clean` is what the cache operation answers. -/
def sampleEnv (clean : Bool) : TxEnv := ⟨fun a => BitVec.ofNat 32 a, fun _ _ => clean⟩

/-- Three frames, the second of which is freed at once, and the completion of the first. -/
def sendThree : List TxAction :=
  [.xmit (sampleEnv true) (sampleSkb 7), .xmit (sampleEnv false) (sampleSkb 8),
    .xmit (sampleEnv true) (sampleSkb 9), .complete 0x4000 0x1c00, .txq true]

end TrustedGateway
