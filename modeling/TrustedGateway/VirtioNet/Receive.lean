import TrustedGateway.EthBuf.Linearize
import TrustedGateway.VirtioNet.Chain

/-!
# One iteration of `virtio_net_receive`

A receive chain is one descriptor, so what an iteration copies can be written down: the
header to the start of the descriptor, and then as many bytes as the rest of the descriptor
takes, starting at the packet's data, whatever the length of the packet.
-/

namespace TrustedGateway

open FlatMemory BatchLoop

/-! ## Copies to one descriptor -/

variable {b : BufId} {ob : Option BufId} {s s' : RxState} {v : Iovec}

theorem allMapped_singleton (hb : v.base ≠ 0) : AllMapped [v] := by
  intro u hu
  rwa [List.mem_singleton.mp hu]

theorem iovecCopies_singleton (hb : v.base ≠ 0) (buf len : ℕ) :
    iovecCopies [v] (some buf) len =
      (BitVec.ofNat 32 (min len v.len.toNat),
        Memcpy.orNone ⟨buf, v.base.toNat, min len v.len.toNat⟩) := by
  rw [iovecCopies_eq (allMapped_singleton hb)]
  simp [spread]

theorem iovecCopiesSkipBegin_singleton (hb : v.base ≠ 0) {buf len skip : ℕ} (hl : len ≠ 0)
    (hs : skip ≠ 0) (hle : skip ≤ v.len.toNat) :
    iovecCopiesSkipBegin [v] (some buf) len skip =
      (BitVec.ofNat 32 (min len (v.len.toNat - skip)),
        Memcpy.orNone ⟨buf, v.base.toNat + skip, v.len.toNat - skip⟩) := by
  rw [iovecCopiesSkipBegin_eq (allMapped_singleton hb) buf hl hs hle]
  simp [spread]

/-! ## Filling a chain -/

/-- The descriptor is long enough for the check of the source and its address
translates, so that copies are made. -/
def RxCopies (env : Env) (d : VringDesc) (e : EthBuf) : Prop :=
  ¬ d.len.toNat < addSize vnetHdrLen e.dataLen.toNat ∧ env.va (d.addr.setWidth 32) ≠ 0

instance (env : Env) (d : VringDesc) (e : EthBuf) : Decidable (RxCopies env d e) :=
  inferInstanceAs (Decidable (_ ∧ _))

/-- Copies are made, and the packet fits. -/
def RxDelivers (env : Env) (d : VringDesc) (e : EthBuf) : Prop :=
  RxCopies env d e ∧ vnetHdrLen + e.dataLen.toNat ≤ d.len.toNat

instance (env : Env) (d : VringDesc) (e : EthBuf) : Decidable (RxDelivers env d e) :=
  inferInstanceAs (Decidable (_ ∧ _))

/-- Where a descriptor is mapped. -/
def rxBase (env : Env) (d : VringDesc) : ℕ := (env.va (d.addr.setWidth 32)).toNat

/-- The copy of the header. -/
def rxHdrCalls (env : Env) (d : VringDesc) (e : EthBuf) : List Memcpy :=
  if RxCopies env d e then Memcpy.orNone ⟨0, rxBase env d, min vnetHdrLen d.len.toNat⟩ else []

/-- The copy of the packet. -/
def rxDataCalls (env : Env) (d : VringDesc) (e : EthBuf) : List Memcpy :=
  if RxCopies env d e then
    Memcpy.orNone ⟨e.dataOff.toNat, rxBase env d + vnetHdrLen, d.len.toNat - vnetHdrLen⟩
  else []

/-- The normal world's memory after both copies. -/
def rxWrites (env : Env) (d : VringDesc) (e : EthBuf) (src nw : ℕ → Byte) : ℕ → Byte :=
  scatter src (rxDataCalls env d e) (scatter rxVnetHdr (rxHdrCalls env d e) nw)

variable {env : Env} {idx : Half} {buf : VqueueBuf} {d : VringDesc} {e : EthBuf}
  {src nw : ℕ → Byte}

/-- The mapping of a receive chain whose address translates. -/
theorem vqueueMapIovs_of_piece (hbuf : buf.outIovs.pieces = [d.piece])
    (hva : env.va (d.addr.setWidth 32) ≠ 0) (u : ℤ) :
    vqueueMapIovs env.va u buf.outIovs =
      (noError, { buf.outIovs with
        pieces := [⟨d.addr.setWidth 32, ⟨env.va (d.addr.setWidth 32), d.len⟩⟩] }) := by
  have hok : ∀ p ∈ [d.piece], env.va p.phys ≠ 0 := by
    intro p hp
    rw [List.mem_singleton.mp hp]
    exact hva
  simp only [vqueueMapIovs, hbuf, mapPieces_of_ok hok, if_true]
  rfl

/-- All of the descriptor behind the header is written. -/
theorem rxFill_of_copies (hbuf : buf.outIovs.pieces = [d.piece]) (he : e.dataLen ≠ 0)
    (h : RxCopies env d e) :
    ∃ out, rxFill env idx buf e src nw =
      ⟨decide (RxDelivers env d e), out, rxWrites env d e src nw, rxHdrCalls env d e,
        rxDataCalls env d e⟩ := by
  have he' : e.dataLen.toNat ≠ 0 := fun h0 => he (BitVec.eq_of_toNat_eq h0)
  have hdl := e.dataLen.isLt
  have hl : d.piece.iov.len = d.len := rfl
  have hdel : decide (RxDelivers env d e) =
      decide (vnetHdrLen + e.dataLen.toNat ≤ d.len.toNat) := by
    simp only [RxDelivers, h, true_and]
  simp only [hdel, rxWrites, rxHdrCalls, rxDataCalls, if_pos h]
  obtain ⟨hlen, hva⟩ := h
  simp only [rxFill, hbuf, hl, if_neg hlen, vqueueMapIovs_of_piece hbuf hva, ne_eq,
    not_true, if_false, VqueueIovs.iovs, List.map_cons, List.map_nil, List.take_succ_cons,
    List.take_nil, membufToKernIovec, membufToKernIovecSkipBegin]
  rw [iovecCopies_singleton hva, ethbufDataPtr_zero he]
  by_cases h12 : vnetHdrLen ≤ d.len.toNat
  · have hmin : min vnetHdrLen d.len.toNat = vnetHdrLen := by omega
    -- the return value is the packet's length exactly when the packet fits
    have hok : decide (BitVec.ofNat 32 (min e.dataLen.toNat (d.len.toNat - vnetHdrLen)) =
        e.dataLen) = decide (vnetHdrLen + e.dataLen.toNat ≤ d.len.toNat) := by
      rw [decide_eq_decide]
      constructor
      · intro hret
        have hret := congrArg BitVec.toNat hret
        rw [BitVec.toNat_ofNat] at hret
        omega
      · intro hfit
        rw [min_eq_left (by omega), BitVec.ofNat_toNat, BitVec.setWidth_eq]
    simp only [hmin, not_true, if_false]
    rw [iovecCopiesSkipBegin_singleton hva he' (by decide) h12]
    simp only [hok]
    exact ⟨_, rfl⟩
  · have hmin : min vnetHdrLen d.len.toNat = d.len.toNat := by omega
    have hret : ¬ BitVec.ofNat 32 d.len.toNat = BitVec.ofNat 32 vnetHdrLen := by
      intro hret
      have hret := congrArg BitVec.toNat hret
      simp only [BitVec.toNat_ofNat, vnetHdrLen] at hret h12
      omega
    have hz : d.len.toNat - vnetHdrLen = 0 := by omega
    have hfit : ¬ vnetHdrLen + e.dataLen.toNat ≤ d.len.toNat := by omega
    simp only [hmin, hret, not_false_eq_true, if_true, hz, hfit, decide_false]
    exact ⟨_, rfl⟩

/-- A chain that is too short or does not translate is left alone. -/
theorem rxFill_of_not_copies (hbuf : buf.outIovs.pieces = [d.piece])
    (h : ¬ RxCopies env d e) :
    ∃ out, rxFill env idx buf e src nw =
      ⟨decide (RxDelivers env d e), out, rxWrites env d e src nw, rxHdrCalls env d e,
        rxDataCalls env d e⟩ := by
  have hl : d.piece.iov.len = d.len := rfl
  have hd : ¬ RxDelivers env d e := fun hd => h hd.1
  simp only [hd, decide_false, rxWrites, rxHdrCalls, rxDataCalls, if_neg h]
  by_cases hlen : d.len.toNat < addSize vnetHdrLen e.dataLen.toNat
  · simp only [rxFill, hbuf, hl, if_pos hlen]
    exact ⟨_, rfl⟩
  have hva : env.va d.piece.phys = 0 := by
    by_contra hva
    exact h ⟨hlen, hva⟩
  have hmap : mapPieces env.va [d.piece] = (false, [⟨d.piece.phys, ⟨0, d.len⟩⟩]) := by
    simp only [mapPieces, if_pos hva]
    rfl
  by_cases hu : env.uninit idx = noError
  · -- the failure goes unnoticed, and the null base stops the header
    simp only [rxFill, hbuf, hl, if_neg hlen, vqueueMapIovs, hmap, Bool.false_eq_true, if_false,
      hu, ne_eq, not_true, VqueueIovs.iovs, List.map_cons, List.map_nil, List.take_succ_cons,
      List.take_nil, membufToKernIovec]
    by_cases h0 : d.len.toNat = 0
    · have hnone : iovecCopies [⟨0, d.len⟩] (some 0) vnetHdrLen = (0, []) := by
        simp [iovecCopies, iovecLoop, h0, vnetHdrLen]
      rw [hnone, if_pos (show ¬ (0 : Word) = BitVec.ofNat 32 vnetHdrLen by decide)]
      exact ⟨_, rfl⟩
    · rw [iovecCopies_null rfl [] 0 vnetHdrLen (by decide) h0,
        if_pos (show ¬ ssizeErrInvalidArgs = BitVec.ofNat 32 vnetHdrLen by decide)]
      exact ⟨_, rfl⟩
  · simp only [rxFill, hbuf, hl, if_neg hlen, vqueueMapIovs, hmap, Bool.false_eq_true, if_false,
      ne_eq, hu, not_false_eq_true, if_true]
    exact ⟨_, rfl⟩

/-- **Filling a chain.** -/
theorem rxFill_eq (env : Env) (idx : Half) (src nw : ℕ → Byte)
    (hbuf : buf.outIovs.pieces = [d.piece]) (he : e.dataLen ≠ 0) :
    ∃ out, rxFill env idx buf e src nw =
      ⟨decide (RxDelivers env d e), out, rxWrites env d e src nw, rxHdrCalls env d e,
        rxDataCalls env d e⟩ := by
  by_cases h : RxCopies env d e
  · exact rxFill_of_copies hbuf he h
  · exact rxFill_of_not_copies hbuf h

/-- What becomes of the iovec list does not depend on the bytes moved. -/
theorem out_rxFill_congr (env : Env) (idx : Half) (buf : VqueueBuf) (e : EthBuf)
    (src₁ nw₁ src₂ nw₂ : ℕ → Byte) :
    (rxFill env idx buf e src₁ nw₁).out = (rxFill env idx buf e src₂ nw₂).out := by
  simp only [rxFill]
  split
  · rfl
  · split
    · rfl
    · split
      · rfl
      · simp only [apply_ite RxFill.out, ite_self]

/-! ## How an iteration ends -/

/-- The part of an iteration before the queue is touched leaves the queue and the normal
world's memory alone. -/
theorem rxPrepare_keeps {o : Option BufId} (h : rxPrepare s ob = .ok (o, s')) :
    s'.vq = s.vq ∧ s'.nw = s.nw ∧ s'.enqueued = s.enqueued := by
  cases ob with
  | none =>
    cases h
    exact ⟨rfl, rfl, rfl⟩
  | some b =>
    simp only [rxPrepare] at h
    split at h
    · cases h
    · split at h
      · cases h
        exact ⟨rfl, rfl, rfl⟩
      · split at h <;> cases h <;> exact ⟨rfl, rfl, rfl⟩

/-- A packet that is to be delivered is the one of the batch and is not empty. -/
theorem rxPrepare_some (h : rxPrepare s ob = .ok (some b, s')) :
    ob = some b ∧ (s'.pool.eb b).dataLen ≠ 0 := by
  cases ob with
  | none => cases h
  | some c =>
    simp only [rxPrepare] at h
    split at h
    · cases h
    · split at h
      · cases h
      · split at h
        · cases h
        · rename_i hne
          cases h
          exact ⟨rfl, hne⟩

/-- What is said about the packet of an iteration is said about one packet. -/
theorem exists_prepared_iff (h : rxPrepare s ob = .ok (some b, s')) {P : BufId → RxState → Prop} :
    (∃ b s', rxPrepare s ob = .ok (some b, s') ∧ P b s') ↔ P b s' := by
  constructor
  · rintro ⟨c, t, hc, ht⟩
    rw [h] at hc
    cases hc
    exact ht
  · intro ht
    exact ⟨b, s', h, ht⟩

/-- The iteration on `ob` in state `s` gets as far as filling the chain `buf` with the packet
in `b`, and is in state `s'` then. -/
structure RxReaches (s : RxState) (ob : Option BufId) (b : BufId) (s' : RxState)
    (buf : VqueueBuf) : Prop where
  packet : rxPrepare s ob = .ok (some b, s')
  chain : ∃ vq, vqueueGetAvailBuf s'.vq (VqueueBuf.empty 0 maxRxIovs) = .ok (noError, buf, vq)

/-- A receive chain that was read without an error. -/
theorem getAvailBuf_rx {vq vq' : Vqueue} {buf : VqueueBuf}
    (h : vqueueGetAvailBuf vq (VqueueBuf.empty 0 maxRxIovs) = .ok (noError, buf, vq')) :
    Taken vq 0 maxRxIovs noError buf vq' ∧ vq.nextDesc.RxOk ∧
      buf = ⟨vq.nextHead, ⟨0, 0, []⟩, ⟨1, vq.nextDesc.len, [vq.nextDesc.piece]⟩⟩ := by
  rcases getAvailBuf_cases h with ⟨-, ⟨hr, -⟩ | ⟨hr, -⟩⟩ | ht
  · exact absurd hr (by decide)
  · exact absurd hr (by decide)
  · rcases ht.rx with ⟨-, hok, hbuf⟩ | ⟨hr, -⟩
    · exact ⟨ht, hok, hbuf⟩
    · exact absurd rfl hr

theorem RxReaches.fill (h : RxReaches s ob b s' buf) (env : Env) (idx : Half) (src nw : ℕ → Byte) :
    ∃ out, rxFill env idx buf (s'.pool.eb b) src nw =
      ⟨decide (RxDelivers env s'.vq.nextDesc (s'.pool.eb b)), out,
        rxWrites env s'.vq.nextDesc (s'.pool.eb b) src nw,
        rxHdrCalls env s'.vq.nextDesc (s'.pool.eb b),
        rxDataCalls env s'.vq.nextDesc (s'.pool.eb b)⟩ := by
  obtain ⟨vq, hq⟩ := h.chain
  obtain ⟨-, -, hbuf⟩ := getAvailBuf_rx hq
  exact rxFill_eq env idx src nw (by rw [hbuf]) (rxPrepare_some h.packet).2

/-- How an iteration with a packet in `b` may end. -/
inductive RxTurn (env : Env) (rxBurst : Word) (s : RxState) (b : BufId) :
    Next ℤ → RxState → Prop
  | idle (none : ¬ s.vq.More) : RxTurn env rxBurst s b .brk s
  | lost (more : s.vq.More) (bad : ¬ s.vq.nextDesc.RxOk) :
      RxTurn env rxBurst s b .brk { s with vq := s.vq.took }
  | refused (more : s.vq.More) (good : s.vq.nextDesc.RxOk)
      (no : ¬ RxDelivers env s.vq.nextDesc (s.pool.eb b)) :
      RxTurn env rxBurst s b .brk { s with
        vq := s.vq.took.gave s.vq.nextHead 0
        nw := rxWrites env s.vq.nextDesc (s.pool.eb b) (s.sec b) s.nw }
  | delivered (more : s.vq.More) (good : s.vq.nextDesc.RxOk)
      (yes : RxDelivers env s.vq.nextDesc (s.pool.eb b)) :
      RxTurn env rxBurst s b (if rxBurst.toNat ≤ s.processed + 1 then .brk else .cont)
        { s.dropBuf b with
          vq := s.vq.took.gave s.vq.nextHead (BitVec.ofNat 32 vnetHdrLen + (s.pool.eb b).dataLen)
          nw := rxWrites env s.vq.nextDesc (s.pool.eb b) (s.sec b) s.nw
          enqueued := s.enqueued + 1 }

theorem rxDeliver_turn {rxBurst : Word} {n : Next ℤ} (he : (s.pool.eb b).dataLen ≠ 0)
    (h : rxDeliver env rxBurst s b = .ok (n, s')) : RxTurn env rxBurst s b n s' := by
  simp only [rxDeliver] at h
  split at h
  · cases h
  rename_i ret buf vq hq
  rcases getAvailBuf_cases hq with ⟨rfl, hret⟩ | ht
  · have hne : ret ≠ noError := by
      rcases hret with ⟨rfl, -⟩ | ⟨rfl, -⟩ <;> decide
    rw [if_pos hne] at h
    cases h
    refine .idle fun hmore => ?_
    rcases hret with ⟨-, hdown⟩ | ⟨-, hnone⟩
    · exact hmore.1 hdown
    · exact hmore.2 hnone
  obtain rfl := ht.queue
  rcases ht.rx with ⟨rfl, hok, hbuf⟩ | ⟨hne, hbad⟩
  · have hpiece : buf.outIovs.pieces = [s.vq.nextDesc.piece] := by rw [hbuf]
    obtain ⟨out, hf⟩ := rxFill_eq env s.vq.lastAvailIdx (s.sec b) s.nw hpiece he
    rw [if_neg (by simp), hf] at h
    split at h
    · cases h
    rename_i r vq hadd
    have hhead : buf.head = s.vq.nextHead := by rw [hbuf]
    have hup : s.vq.took.vringAddr ≠ 0 := ht.up
    have hgave := addBuf_of_up hup (by rw [hhead]; exact ht.head) hadd
    simp only [hhead, decide_eq_true_eq] at hgave
    subst hgave
    by_cases hd : RxDelivers env s.vq.nextDesc (s.pool.eb b)
    · simp only [hd, decide_true, if_true] at h
      cases h
      exact .delivered ⟨ht.up, ht.more⟩ hok hd
    · simp only [hd, decide_false, Bool.false_eq_true, if_false] at h
      cases h
      exact .refused ⟨ht.up, ht.more⟩ hok hd
  · rw [if_pos hne] at h
    cases h
    exact .lost ⟨ht.up, ht.more⟩ hbad

/-- **How an iteration may end**: the packet is skipped, or it is tried on the queue. -/
theorem rxBody_turn {rxBurst : Word} {n : Next ℤ} (h : rxBody env rxBurst s ob = .ok (n, s')) :
    (n = .cont ∧ rxPrepare s ob = .ok (none, s')) ∨
      ∃ b t, rxPrepare s ob = .ok (some b, t) ∧ RxTurn env rxBurst t b n s' := by
  simp only [rxBody] at h
  split at h
  · cases h
  · rename_i t hp
    cases h
    exact .inl ⟨rfl, hp⟩
  · rename_i b t hp
    exact .inr ⟨b, t, hp, rxDeliver_turn (rxPrepare_some hp).2 h⟩

/-! ## The call -/

variable {M : Type} {w : Net M} {bufs : List (Option BufId)}

/-- The call gets to its loop. -/
def RxStarts (w : Net M) : Prop :=
  virtioNetCanReceive w.dev ∧ ∃ space, vqueueNumOfAvailBuf (w.dev.vdev.vq 0) = .ok space ∧
    virtioNetQueueDefaultSize / 2 ≤ space.toNat

/-- The call starts an iteration on `ob` in state `s`. -/
def RxVisits (env : Env) (w : Net M) (bufs : List (Option BufId)) (ob : Option BufId)
    (s : RxState) : Prop :=
  RxStarts w ∧ Visits (rxBody env w.dev.vnet.rxBurst) bufs w.rxStart ob s

/-- With one packet, only one iteration is started. -/
theorem RxVisits.eq_rxStart {ob' : Option BufId} (h : RxVisits env w [ob] ob' s) :
    ob' = ob ∧ s = w.rxStart := by
  rcases visits_cons_iff.mp h.2 with h | ⟨s', -, hv⟩
  · exact h
  · exact absurd hv not_visits_nil

theorem rxStarts_iff : RxStarts w ↔ ∃ space, rxEntry w.dev = .ok (.inr space) := by
  constructor
  · rintro ⟨hc, space, hs, hge⟩
    have h0 : ¬ space = 0 := by
      rintro rfl
      exact absurd hge (by decide)
    refine ⟨space, ?_⟩
    simp only [rxEntry, hc, not_true, if_false, hs, h0, if_neg (not_lt.mpr hge)]
  · rintro ⟨space, h⟩
    rw [rxEntry] at h
    split at h
    · cases h
    rename_i hc
    split at h
    · cases h
    rename_i space' hs
    split_ifs at h with h0 hfew <;> cases h
    exact ⟨not_not.mp hc, space, hs, not_lt.mp hfew⟩

/-- A call that returns either did not get to its loop and changed nothing, or ran it and
kicked the normal world if a packet was delivered. -/
theorem virtioNetReceive_cases {r : ℤ} {w' : Net M}
    (h : virtioNetReceive env w bufs = .ok (r, w')) :
    (w' = w ∧ ¬ RxStarts w) ∨
      RxStarts w ∧ ∃ o s, batch (rxBody env w.dev.vnet.rxBurst) bufs w.rxStart = .ok (o, s) ∧
        r = s.processed ∧ PutBack w.dev 0 s.vq (0 < s.enqueued) w'.dev := by
  simp only [rxStarts_iff]
  rw [virtioNetReceive_eq] at h
  split at h
  · cases h
  · rename_i r' hentry
    cases h
    exact .inl ⟨rfl, by simp [hentry]⟩
  · rename_i space hentry
    rw [rxLoop] at h
    split at h
    · cases h
    rename_i o s hloop
    obtain ⟨rfl, d, rfl, hkick, hno⟩ := kicked_eq_ok h
    exact .inr ⟨⟨space, hentry⟩, o, s, hloop, rfl, hkick, hno⟩

end TrustedGateway
