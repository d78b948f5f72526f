import TrustedGateway.VirtioNet.FlushTx
import TrustedGateway.VirtioNet.Receive

/-!
# Descriptor heads in and out

Both calls take heads off the avail ring and put heads on the used ring.  An iteration that
takes a head gives it back in the same iteration, unless it leaves the loop through one of
the exits that forget to: on the receive queue a chain that is not one writable descriptor,
on the transmit queue every chain that makes the call give the batch up.
-/

namespace TrustedGateway

open BatchLoop StepSystem

variable {M : Type} {env : Env}

/-! ## The calls -/

/-- The calls that move packets through a queue. -/
inductive NetCall
  | receive (bufs : List (Option BufId))
  | flushTx

namespace NetCall

/-- The queue a call works on. -/
def queue : NetCall → QIdx
  | receive _ => 0
  | flushTx => 1

def run (env : Env) (w : Net M) : NetCall → Except Abort (ℤ × Net M)
  | receive bufs => virtioNetReceive env w bufs
  | flushTx => virtioNetFlushTx env w

end NetCall

/-! ## Accounts of a queue -/

/-- The heads `ts` were taken and the entries `rs` were given back on the way from `vq` to
`vq'`, and the counters of both rings show it. -/
structure Moved (vq vq' : Vqueue) (ts : List Half) (rs : List VringUsedElem) : Prop where
  taken : vq'.taken = vq.taken ++ ts
  returned : vq'.returned = vq.returned ++ rs
  lastAvailIdx : vq'.lastAvailIdx = vq.lastAvailIdx + BitVec.ofNat 16 ts.length
  usedIdx : vq'.shared.used.idx = vq.shared.used.idx + BitVec.ofNat 16 rs.length

/-- Every head taken on the way from `vq` to `vq'` was put on the used ring exactly once. -/
def Accounted (vq vq' : Vqueue) : Prop :=
  ∃ ts rs, Moved vq vq' ts rs ∧ (rs.map (·.id)).Perm (ts.map (·.setWidth 32))

theorem Accounted.refl (vq : Vqueue) : Accounted vq vq := by
  refine ⟨[], [], ⟨by simp, by simp, ?_, ?_⟩, List.Perm.nil⟩
  · exact (BitVec.add_zero _).symm
  · exact (BitVec.add_zero _).symm

variable {r : ℤ} {vq₀ : Vqueue} {w w' : Net M}

/-- Taking a head and giving it back. -/
theorem Accounted.took_gave {vq : Vqueue} (h : Accounted vq₀ vq) (len : Word) :
    Accounted vq₀ (vq.took.gave vq.nextHead len) := by
  obtain ⟨ts, rs, hm, hp⟩ := h
  refine ⟨ts ++ [vq.nextHead], rs ++ [⟨vq.nextHead.setWidth 32, len⟩], ⟨?_, ?_, ?_, ?_⟩, ?_⟩
  · simp [Vqueue.took, Vqueue.gave, hm.taken]
  · simp [Vqueue.took, Vqueue.gave, hm.returned]
  · simp [Vqueue.took, Vqueue.gave, hm.lastAvailIdx, BitVec.ofNat_add, BitVec.add_assoc]
  · simp [Vqueue.took, Vqueue.gave, hm.usedIdx, BitVec.ofNat_add, BitVec.add_assoc]
  · simp only [List.map_append, List.map_singleton]
    exact hp.append (List.Perm.refl _)

/-- A head that was taken only is missing. -/
theorem not_accounted_took {vq : Vqueue} (h : Accounted vq₀ vq) : ¬ Accounted vq₀ vq.took := by
  obtain ⟨ts, rs, hm, hp⟩ := h
  rintro ⟨ts', rs', hm', hp'⟩
  have hts := hm'.taken
  have hrs := hm'.returned
  simp only [Vqueue.took, hm.taken, hm.returned, List.append_assoc,
    List.append_cancel_left_eq] at hts hrs
  have h₁ := hp.length_eq
  have h₂ := hp'.length_eq
  subst hts hrs
  simp only [List.length_map, List.length_append, List.length_singleton] at h₁ h₂
  omega

/-! ## Receiving -/

/-- The iteration takes a chain that is not one writable descriptor. -/
def RxLoses (s : RxState) (ob : Option BufId) : Prop :=
  ∃ b s', rxPrepare s ob = .ok (some b, s') ∧ s'.vq.More ∧ ¬ s'.vq.nextDesc.RxOk

theorem not_rxLoses_of_skip {s s' : RxState} {ob : Option BufId}
    (h : rxPrepare s ob = .ok (none, s')) : ¬ RxLoses s ob := by
  rintro ⟨b, t, ht, -⟩
  rw [h] at ht
  cases ht

/-- **One iteration**: the accounts stay balanced unless a head is forgotten, and then the
loop is left. -/
theorem accounted_rxBody {rxBurst : Word} {s s' : RxState} {ob : Option BufId} {n : Next ℤ}
    (h : Accounted vq₀ s.vq) (hb : rxBody env rxBurst s ob = .ok (n, s')) :
    (Accounted vq₀ s'.vq ↔ ¬ RxLoses s ob) ∧ (n = .cont → ¬ RxLoses s ob) := by
  rcases rxBody_turn hb with ⟨rfl, hp⟩ | ⟨b, t, hp, ht⟩
  · rw [(rxPrepare_keeps hp).1]
    have hno := not_rxLoses_of_skip hp
    exact ⟨iff_of_true h hno, fun _ => hno⟩
  rw [← (rxPrepare_keeps hp).1] at h
  rw [RxLoses, exists_prepared_iff hp]
  cases ht with
  | idle hnone => exact ⟨iff_of_true h fun hl => hnone hl.1, nofun⟩
  | lost hmore hbad =>
    exact ⟨iff_of_false (not_accounted_took h) fun hno => hno ⟨hmore, hbad⟩, nofun⟩
  | refused hmore hgood hno =>
    exact ⟨iff_of_true (h.took_gave _) fun hl => hl.2 hgood, nofun⟩
  | delivered hmore hgood hyes =>
    exact ⟨iff_of_true (h.took_gave _) fun hl => hl.2 hgood, fun _ hl => hl.2 hgood⟩

/-! ## Transmitting -/

/-- The iteration takes a chain that makes the call give the batch up. -/
def TxLoses (env : Env) (nw : ℕ → Byte) (s : TxState) : Prop := s.vq.More ∧ TxGivesUp env nw s

theorem accounted_txBody {nw : ℕ → Byte} {s s' : TxState} {k : ℕ} {n : Next ℤ}
    (h : Accounted vq₀ s.vq) (hb : txBody env nw s k = .ok (n, s')) :
    (Accounted vq₀ s'.vq ↔ ¬ TxLoses env nw s) ∧ (n = .cont → ¬ TxLoses env nw s) := by
  have hret := txBody_ret_iff hb
  obtain ⟨b, pool, ret, buf, vq, -, -, ht⟩ := txBody_turn hb
  cases ht with
  | idle hr hnone | closed hr hnone => exact ⟨iff_of_true h fun hl => hnone hl.1, nofun⟩
  | lost hr ht | gaveUp r hr ht =>
    refine ⟨iff_of_false (not_accounted_took h) fun hno => hno ⟨⟨ht.up, ht.more⟩, ?_⟩, nofun⟩
    exact hret.mp ⟨_, rfl⟩
  | dropped | queued =>
    have hno : ¬ TxLoses env nw s := fun hl => nomatch hret.mpr hl.2
    exact ⟨iff_of_true (h.took_gave _) hno, fun _ => hno⟩

/-! ## The calls -/

/-- Some iteration of the call forgets a head. -/
def NetCall.Loses (env : Env) (w : Net M) : NetCall → Prop
  | .receive bufs => ∃ ob s, RxVisits env w bufs ob s ∧ RxLoses s ob
  | .flushTx => ∃ s, TxVisits env w s ∧ TxLoses env w.nw s

/-- A kick leaves the queues alone. -/
theorem vq_vnicVqKickCb {d d' : Dev M} {q : QIdx} (h : vnicVqKickCb d q = .ok d') :
    d'.vdev.vq = d.vdev.vq := by
  simp only [vnicVqKickCb] at h
  split at h
  · cases h
  split at h
  · cases h
    simp only [virtioNotify, vnicKickNw, virtioSetIsr]
    split <;> split <;> rfl
  · cases h
    rfl

/-- The queue after a call is the one the loop left. -/
theorem PutBack.vq_eq {d d' : Dev M} {q : QIdx} {vq : Vqueue} {kicks : Prop}
    (h : PutBack d q vq kicks d') : d'.vdev.vq q = vq := by
  by_cases hk : kicks
  · rw [vq_vnicVqKickCb (h.kicked hk), vq_setVq_self]
  · rw [h.silent hk, vq_setVq_self]

theorem accounted_receive_iff {bufs : List (Option BufId)}
    (h : virtioNetReceive env w bufs = .ok (r, w')) :
    Accounted (w.dev.vdev.vq 0) (w'.dev.vdev.vq 0) ↔
      ∀ ob s, RxVisits env w bufs ob s → ¬ RxLoses s ob := by
  rcases virtioNetReceive_cases h with ⟨rfl, hno⟩ | ⟨hs, o, s, hloop, -, hend⟩
  · exact iff_of_true (.refl _) fun ob s hv => absurd hv.1 hno
  rw [hend.vq_eq]
  have hiff := batch_iff (J := fun t => Accounted (w.dev.vdev.vq 0) t.vq)
    (c := fun t ob => ¬ RxLoses t ob) bufs w.rxStart (.refl _)
    (fun ob t t' hJ hb => by
      obtain ⟨hiff, hno⟩ := accounted_rxBody hJ hb
      exact ⟨hno rfl, hiff.mpr (hno rfl)⟩)
    (fun ob t n t' _ hJ hb => (accounted_rxBody hJ hb).1) hloop
  rw [hiff]
  exact ⟨fun H ob s hv => H ob s hv.2, fun H ob s hv => H ob s ⟨hs, hv⟩⟩

theorem accounted_flushTx_iff (h : virtioNetFlushTx env w = .ok (r, w')) :
    Accounted (w.dev.vdev.vq 1) (w'.dev.vdev.vq 1) ↔
      ∀ s, TxVisits env w s → ¬ TxLoses env w.nw s := by
  rcases virtioNetFlushTx_cases h with ⟨rfl, hno⟩ | ⟨dataAvail, ⟨o, s⟩, hstart, hloop, hend⟩
  · exact iff_of_true (.refl _) fun s ⟨dataAvail, _, hs, _⟩ => absurd hs (hno dataAvail)
  rw [(txEnd_eq_ok hend).1.vq_eq]
  have hiff := batch_iff (J := fun t => Accounted (w.dev.vdev.vq 1) t.vq)
    (c := fun t _ => ¬ TxLoses env w.nw t)
    (List.range (max (txBurst env w.dev dataAvail) 1)) w.txStart (.refl _)
    (fun k t t' hJ hb => by
      obtain ⟨hiff, hno⟩ := accounted_txBody hJ hb
      exact ⟨hno rfl, hiff.mpr (hno rfl)⟩)
    (fun k t n t' _ hJ hb => (accounted_txBody hJ hb).1) hloop
  rw [hiff]
  constructor
  · intro H s hv
    obtain ⟨k, hv⟩ := hstart.visits_iff.mp hv
    exact H k s hv
  · intro H k s hv
    exact H s (hstart.visits_iff.mpr ⟨k, hv⟩)

end TrustedGateway
