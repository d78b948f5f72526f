import TrustedGateway.VirtioNet.Chain

/-!
# One iteration of `virtio_net_flush_tx`

A chain is queued, dropped, or makes the call give up the batch.  Which of the three is
decided by the start addresses, the lengths and the first two bytes of the chain: once a
chain is mapped and has passed the length checks, it is long enough for everything that is
copied from it, because the checked length never exceeds the true one.
-/

namespace TrustedGateway

open FlatMemory BatchLoop

/-! ## Judging a chain -/

/-- Every start address of the chain translates. -/
def TxMapped (env : Env) (buf : VqueueBuf) : Prop := ∀ p ∈ buf.inIovs.pieces, env.va p.phys ≠ 0

instance (env : Env) (buf : VqueueBuf) : Decidable (TxMapped env buf) :=
  inferInstanceAs (Decidable (∀ p ∈ buf.inIovs.pieces, env.va p.phys ≠ 0))

/-- Where a piece is mapped. -/
def txBase (env : Env) (p : Piece) : ℕ := (env.va p.phys).toNat

/-- The header that starts with the piece has neither flags nor a segmentation type. -/
def TxPlain (env : Env) (nw : ℕ → Byte) (p : Piece) : Prop :=
  nw (txBase env p) = 0 ∧ nw (txBase env p + 1) = 0

instance (env : Env) (nw : ℕ → Byte) (p : Piece) : Decidable (TxPlain env nw p) :=
  inferInstanceAs (Decidable (_ ∧ _))

/-- The mapped iovecs of a chain. -/
def txIovs (env : Env) (ps : List Piece) : List Iovec := (mapped env.va ps).map (·.iov)

/-- The copy of the header. -/
def txHdrCalls (env : Env) (p : Piece) : List Memcpy := [⟨0, txBase env p, vnetHdrLen⟩]

/-- The copies of a frame of `total` bytes. -/
def txDataCalls (env : Env) (p : Piece) (ps : List Piece) (total : ℕ) : List Memcpy :=
  Memcpy.orNone ⟨2, txBase env p + vnetHdrLen, p.iov.len.toNat - vnetHdrLen⟩ ++
    spread (txIovs env ps) (2 + (p.iov.len.toNat - vnetHdrLen))
      (total - (p.iov.len.toNat - vnetHdrLen))

/-- What may be found out about a chain that starts with `p`. -/
inductive TxJudged (env : Env) (idx : Half) (nw : ℕ → Byte) (buf : VqueueBuf) (p : Piece)
    (ps : List Piece) : TxRead → Prop
  | queue (addr : TxMapped env buf) (len : txLenOk buf p.iov.len) (hdr : TxPlain env nw p) :
      TxJudged env idx nw buf p ps
        ⟨.queue, { buf.inIovs with pieces := mapped env.va (p :: ps) }, txHdrCalls env p,
          txDataCalls env p ps (txTotal buf).toNat⟩
  | badHeader (inn : VqueueIovs) (addr : TxMapped env buf) (len : txLenOk buf p.iov.len)
      (hdr : ¬ TxPlain env nw p) :
      TxJudged env idx nw buf p ps ⟨.abort errInvalidArgs, inn, txHdrCalls env p, []⟩
  | drop (inn : VqueueIovs) (addr : TxMapped env buf ∨ env.uninit idx = noError)
      (len : ¬ txLenOk buf p.iov.len) : TxJudged env idx nw buf p ps ⟨.drop, inn, [], []⟩
  | unmapped (ret : ℤ) (inn : VqueueIovs) (addr : ¬ TxMapped env buf)
      (seen : env.uninit idx ≠ noError ∨ txLenOk buf p.iov.len) :
      TxJudged env idx nw buf p ps ⟨.abort ret, inn, [], []⟩

variable {env : Env} {idx : Half} {nw : ℕ → Byte} {buf : VqueueBuf} {p : Piece} {ps : List Piece}

theorem allMapped_txIovs {ps : List Piece} (h : ∀ p ∈ ps, env.va p.phys ≠ 0) :
    AllMapped (txIovs env ps) := by
  intro v hv
  simp only [txIovs, mapped, List.map_map, List.mem_map] at hv
  obtain ⟨p, hp, rfl⟩ := hv
  exact h p hp

theorem iovLen_txIovs (env : Env) (ps : List Piece) :
    iovLen (txIovs env ps) = (ps.map (·.iov.len.toNat)).sum := by
  simp [iovLen, txIovs, mapped, Function.comp_def]

/-- The header is copied from the first iovec alone when it fits there. -/
theorem iovecCopies_header {v : Iovec} {vs : List Iovec} (h : AllMapped (v :: vs))
    (hle : vnetHdrLen ≤ v.len.toNat) :
    iovecCopies (v :: vs) (some 0) vnetHdrLen =
      (BitVec.ofNat 32 vnetHdrLen, [⟨0, v.base.toNat, vnetHdrLen⟩]) := by
  have hmin : min vnetHdrLen (iovLen (v :: vs)) = vnetHdrLen := by
    rw [iovLen_cons]
    omega
  have hhead : min vnetHdrLen v.len.toNat = vnetHdrLen := by omega
  rw [iovecCopies_eq h, hmin, spread, hhead, Nat.sub_self, spread_zero]
  rfl

/-- The total the source computes is the true one modulo `2 ^ 32`. -/
theorem toNat_txTotal (hf : buf.Filled) (h12 : vnetHdrLen ≤ buf.inIovs.total) :
    (txTotal buf).toNat = (buf.inIovs.total - vnetHdrLen) % 2 ^ 32 := by
  rw [txTotal, hf.inIovs.len, BitVec.toNat_sub, BitVec.toNat_ofNat, BitVec.toNat_ofNat]
  simp only [vnetHdrLen] at h12 ⊢
  omega

/-- The parts of the length check. -/
theorem txLenOk.bounds {len0 : Word} (h : txLenOk buf len0) :
    vnetHdrLen ≤ len0.toNat ∧ 42 ≤ (txTotal buf).toNat ∧ (txTotal buf).toNat ≤ 2046 := by
  simp only [txLenOk, not_or] at h
  obtain ⟨h₁, -, h₂, h₃⟩ := h
  exact ⟨not_lt.mp h₁, BitVec.le_def.mp (BitVec.not_lt.mp h₂),
    BitVec.le_def.mp (BitVec.not_lt.mp h₃)⟩

/-- **Judging a chain.** -/
theorem txInspect_judged (env : Env) (idx : Half) (nw : ℕ → Byte)
    (hbuf : buf.inIovs.pieces = p :: ps) (hf : buf.Filled) :
    TxJudged env idx nw buf p ps (txInspect env idx nw buf) := by
  have htotal : buf.inIovs.total = p.iov.len.toNat + iovLen (txIovs env ps) := by
    rw [VqueueIovs.total, hbuf, iovLen_txIovs]
    rfl
  by_cases hmap : TxMapped env buf
  · have hmap' : ∀ q ∈ p :: ps, env.va q.phys ≠ 0 := by
      intro q hq
      exact hmap q (hbuf ▸ hq)
    have hall : AllMapped (⟨env.va p.phys, p.iov.len⟩ :: txIovs env ps) := allMapped_txIovs hmap'
    have hiovs : (mapped env.va (p :: ps)).map (·.iov) =
        ⟨env.va p.phys, p.iov.len⟩ :: txIovs env ps := rfl
    simp only [txInspect, hbuf, vqueueMapIovs, mapPieces_of_ok hmap', if_true, ne_eq, not_true,
      if_false, VqueueIovs.iovs, hiovs]
    by_cases hlen : txLenOk buf p.iov.len
    · obtain ⟨h12, h42, -⟩ := hlen.bounds
      have h0 : (gather nw [⟨0, (env.va p.phys).toNat, vnetHdrLen⟩] env.stack) 0 =
          nw (txBase env p) := by
        simp [gather, copy, txBase, vnetHdrLen]
      have h1 : (gather nw [⟨0, (env.va p.phys).toNat, vnetHdrLen⟩] env.stack) 1 =
          nw (txBase env p + 1) := by
        simp [gather, copy, txBase, vnetHdrLen]
      simp only [hlen, not_true, if_false, kernIovecToMembuf, iovecCopies_header hall h12, h0, h1]
      by_cases hplain : TxPlain env nw p
      · rw [if_neg (by simp [hplain.1, hplain.2]),
          iovecCopiesSkipBegin_eq hall 2 (by omega) (by decide) h12]
        have hmin : min (txTotal buf).toNat
            (p.iov.len.toNat - vnetHdrLen + iovLen (txIovs env ps)) = (txTotal buf).toNat := by
          have ht := toNat_txTotal hf (by omega)
          omega
        simp only [hmin, BitVec.ofNat_toNat, BitVec.setWidth_eq, not_true, if_false]
        exact .queue hmap hlen hplain
      · rw [if_pos (by simpa only [TxPlain, not_and_or, ne_eq] using hplain)]
        exact .badHeader _ hmap hlen hplain
    · simp only [hlen, not_false_eq_true, if_true]
      exact .drop _ (.inl hmap) hlen
  · have hfail : (mapPieces env.va (p :: ps)).1 = false := by
      rw [Bool.eq_false_iff, Ne, mapPieces_fst, ← hbuf]
      exact hmap
    obtain ⟨qs, hqs⟩ := mapPieces_of_fail hfail
    simp only [txInspect, hbuf, vqueueMapIovs, hfail, hqs, Bool.false_eq_true, if_false]
    by_cases hu : env.uninit idx = noError
    · by_cases hlen : txLenOk buf p.iov.len
      · obtain ⟨h12, -, -⟩ := hlen.bounds
        have hpos : p.iov.len.toNat ≠ 0 := by
          have : 0 < vnetHdrLen := by decide
          omega
        have hnull := iovecCopies_null (v := ⟨0, p.iov.len⟩) rfl (qs.map (·.iov)) 0 vnetHdrLen
          (by decide) hpos
        simp only [hu, ne_eq, not_true, if_false, hlen, VqueueIovs.iovs, List.map_cons,
          kernIovecToMembuf, hnull]
        rw [if_pos (show ¬ ssizeErrInvalidArgs = BitVec.ofNat 32 vnetHdrLen by decide)]
        exact .unmapped _ _ hmap (.inr hlen)
      · simp only [hu, ne_eq, not_true, if_false, hlen, not_false_eq_true, if_true]
        exact .drop _ (.inr hu) hlen
    · simp only [ne_eq, hu, not_false_eq_true, if_true]
      exact .unmapped _ _ hmap (.inl hu)

/-! ## How an iteration ends -/

/-- The chain is mapped, has passed the length checks and has a plain header. -/
def TxQueues (env : Env) (nw : ℕ → Byte) (buf : VqueueBuf) : Prop :=
  ∃ p ps, buf.inIovs.pieces = p :: ps ∧ TxMapped env buf ∧ txLenOk buf p.iov.len ∧
    TxPlain env nw p

/-- The chain fails the length checks, and no failed mapping has been noticed before. -/
def TxDrops (env : Env) (idx : Half) (buf : VqueueBuf) : Prop :=
  ∃ p ps, buf.inIovs.pieces = p :: ps ∧ (TxMapped env buf ∨ env.uninit idx = noError) ∧
    ¬ txLenOk buf p.iov.len

theorem txQueues_iff (hbuf : buf.inIovs.pieces = p :: ps) :
    TxQueues env nw buf ↔ TxMapped env buf ∧ txLenOk buf p.iov.len ∧ TxPlain env nw p := by
  constructor
  · rintro ⟨q, qs, hq, h⟩
    rw [hbuf] at hq
    cases hq
    exact h
  · intro h
    exact ⟨p, ps, hbuf, h⟩

theorem txDrops_iff (hbuf : buf.inIovs.pieces = p :: ps) :
    TxDrops env idx buf ↔ (TxMapped env buf ∨ env.uninit idx = noError) ∧
      ¬ txLenOk buf p.iov.len := by
  constructor
  · rintro ⟨q, qs, hq, h⟩
    rw [hbuf] at hq
    cases hq
    exact h
  · intro h
    exact ⟨p, ps, hbuf, h⟩

/-- A chain taken for transmission is not empty. -/
theorem Taken.tx {vq vq' : Vqueue} (h : Taken vq maxTxIovs 0 noError buf vq') :
    buf.Filled ∧ buf.head = vq.nextHead ∧ ∃ p ps, buf.inIovs.pieces = p :: ps := by
  obtain ⟨hw, hf⟩ := h.walked
  refine ⟨hf, hw.head, ?_⟩
  have hpos := hw.pos rfl
  have hout : buf.outIovs.used = 0 := by
    have hfits := hf.outIovs.fits
    rw [hw.cntOut] at hfits
    exact Nat.le_zero.mp hfits
  rw [hout, Nat.add_zero] at hpos
  cases hp : buf.inIovs.pieces with
  | nil => simp [VqueueIovs.used, hp] at hpos
  | cons p ps => exact ⟨p, ps, rfl⟩

/-- The loop state with a fresh buffer `b` for a frame. -/
def TxState.fresh (s : TxState) (b : BufId) (pool : EthPool) : TxState :=
  { s with pool := pool.setEb b { pool.eb b with dataOff := 2, packetType := rtePtypeL2Mask } }

/-- How an iteration may end that got the buffer `b` for the frame and the answer `ret` with
the chain `buf` from the queue. -/
inductive TxTurn (env : Env) (nw : ℕ → Byte) (s : TxState) (b : BufId) (pool : EthPool)
    (ret : ℤ) (buf : VqueueBuf) : Next ℤ → TxState → Prop
  | idle (empty : ret = errNotEnoughBuffer) (none : ¬ s.vq.More) :
      TxTurn env nw s b pool ret buf .brk
      { s.fresh b pool with pool := (s.fresh b pool).pool.bufFree b }
  | closed (down : ret = errChannelClosed) (none : ¬ s.vq.More) :
      TxTurn env nw s b pool ret buf (.ret ret)
      ((s.fresh b pool).giveUp b)
  | lost (bad : ret ≠ noError) (chain : Taken s.vq maxTxIovs 0 ret buf s.vq.took) :
      TxTurn env nw s b pool ret buf (.ret ret)
        { (s.fresh b pool).giveUp b with vq := s.vq.took }
  | gaveUp (r : ℤ) (ok : ret = noError) (chain : Taken s.vq maxTxIovs 0 noError buf s.vq.took)
      (no : ¬ TxQueues env nw buf) (no' : ¬ TxDrops env s.vq.lastAvailIdx buf) :
      TxTurn env nw s b pool ret buf (.ret r)
        { (s.fresh b pool).giveUp b with vq := s.vq.took }
  | dropped (ok : ret = noError) (chain : Taken s.vq maxTxIovs 0 noError buf s.vq.took)
      (yes : TxDrops env s.vq.lastAvailIdx buf) :
      TxTurn env nw s b pool ret buf .cont { s.fresh b pool with
        vq := s.vq.took.gave s.vq.nextHead (BitVec.ofNat 32 vnetHdrLen + txTotal buf)
        numPackets := s.numPackets + 1
        pool := (s.fresh b pool).pool.bufFree b }
  | queued (p : Piece) (ps : List Piece) (ok : ret = noError)
      (chain : Taken s.vq maxTxIovs 0 noError buf s.vq.took)
      (pieces : buf.inIovs.pieces = p :: ps) (addr : TxMapped env buf)
      (len : txLenOk buf p.iov.len) (hdr : TxPlain env nw p) :
      TxTurn env nw s b pool ret buf .cont { s.fresh b pool with
        vq := s.vq.took.gave s.vq.nextHead (BitVec.ofNat 32 vnetHdrLen + txTotal buf)
        numPackets := s.numPackets + 1
        pool := (s.fresh b pool).pool.setEb b { pool.eb b with
          dataOff := 2, packetType := rtePtypeL2Mask, dataLen := txTotal buf }
        sec := Function.update s.sec b
          (gather nw (txDataCalls env p ps (txTotal buf).toNat) (s.sec b))
        frames := s.frames ++ [⟨b, mapped env.va (p :: ps), txHdrCalls env p,
          txDataCalls env p ps (txTotal buf).toNat⟩] }

variable {dataAvail : Half} {s : TxState}

/-- **How an iteration may end.** -/
theorem txBody_turn {s' : TxState} {k : ℕ} {n : Next ℤ} (h : txBody env nw s k = .ok (n, s')) :
    ∃ b pool ret buf vq, s.pool.bufAlloc = .ok (b, pool) ∧
      vqueueGetAvailBuf s.vq (VqueueBuf.empty maxTxIovs 0) = .ok (ret, buf, vq) ∧
        TxTurn env nw s b pool ret buf n s' := by
  simp only [txBody] at h
  split at h
  · cases h
  rename_i b pool halloc
  split at h
  · cases h
  rename_i ret buf vq hq
  refine ⟨b, pool, ret, buf, vq, halloc, hq, ?_⟩
  rcases getAvailBuf_cases hq with ⟨rfl, ⟨rfl, hdown⟩ | ⟨rfl, hnone⟩⟩ | ht
  · rw [if_neg (by decide), if_pos (by decide)] at h
    cases h
    exact .closed rfl fun hmore => hmore.1 hdown
  · rw [if_pos rfl] at h
    cases h
    exact .idle rfl fun hmore => hmore.2 hnone
  obtain rfl := ht.queue
  obtain ⟨hw, -⟩ := ht.walked
  rw [if_neg (by rcases hw.code with h | h | h <;> rw [h] <;> decide)] at h
  by_cases hret : ret ≠ noError
  · rw [if_pos hret] at h
    cases h
    exact .lost hret ht
  rw [if_neg hret] at h
  obtain rfl := not_not.mp hret
  obtain ⟨hf, hhead, p, ps, hps⟩ := ht.tx
  have hup : s.vq.took.vringAddr ≠ 0 := ht.up
  have hlt : buf.head.toNat < s.vq.took.vring.num := by
    rw [hhead]
    exact ht.head
  have hj := txInspect_judged env s.vq.lastAvailIdx nw hps hf
  generalize txInspect env s.vq.lastAvailIdx nw buf = r at hj h
  -- a chain that is not queued has no data copied from it
  have hsame : Function.update s.sec b (gather nw [] (s.sec b)) = s.sec :=
    Function.update_eq_self b s.sec
  cases hj with
  | queue hmap hlen hplain =>
    dsimp only at h
    split at h
    · cases h
    rename_i r vq hadd
    obtain rfl := addBuf_of_up hup hlt hadd
    rw [if_neg (by decide)] at h
    cases h
    simp only [hhead]
    exact .queued p ps rfl ht hps hmap hlen hplain
  | badHeader inn hmap hlen hplain =>
    simp only [hsame] at h
    cases h
    refine .gaveUp _ rfl ht ?_ ?_
    · rw [txQueues_iff hps]
      exact fun h => hplain h.2.2
    · rw [txDrops_iff hps]
      exact fun h => h.2 hlen
  | drop inn hmap hlen =>
    dsimp only at h
    split at h
    · cases h
    rename_i r vq hadd
    obtain rfl := addBuf_of_up hup hlt hadd
    rw [if_pos rfl] at h
    cases h
    simp only [hhead]
    exact .dropped rfl ht ((txDrops_iff hps).mpr ⟨hmap, hlen⟩)
  | unmapped ret inn hmap hseen =>
    simp only [hsame] at h
    cases h
    refine .gaveUp _ rfl ht ?_ ?_
    · rw [txQueues_iff hps]
      exact fun h => hmap h.1
    · rw [txDrops_iff hps]
      rintro ⟨hm | hu, hl⟩
      · exact hmap hm
      · exact hseen.elim (fun hne => hne hu) hl

/-- The chain that is next makes the call give up the batch: it cannot be read, or it is
neither queued nor dropped. -/
def TxGivesUp (env : Env) (nw : ℕ → Byte) (s : TxState) : Prop :=
  ∃ ret buf vq, vqueueGetAvailBuf s.vq (VqueueBuf.empty maxTxIovs 0) = .ok (ret, buf, vq) ∧
    ret ≠ errNotEnoughBuffer ∧
    (ret ≠ noError ∨ ¬ TxQueues env nw buf ∧ ¬ TxDrops env s.vq.lastAvailIdx buf)

theorem txBody_ret_iff {s' : TxState} {k : ℕ} {n : Next ℤ} (h : txBody env nw s k = .ok (n, s')) :
    (∃ r, n = .ret r) ↔ TxGivesUp env nw s := by
  obtain ⟨b, pool, ret, buf, vq, -, hq, ht⟩ := txBody_turn h
  have hiff : TxGivesUp env nw s ↔ ret ≠ errNotEnoughBuffer ∧
      (ret ≠ noError ∨ ¬ TxQueues env nw buf ∧ ¬ TxDrops env s.vq.lastAvailIdx buf) := by
    constructor
    · rintro ⟨ret', buf', vq', hq', h⟩
      rw [hq] at hq'
      cases hq'
      exact h
    · intro h
      exact ⟨ret, buf, vq, hq, h⟩
  rw [hiff]
  cases ht with
  | idle hr => exact ⟨nofun, fun h => absurd hr h.1⟩
  | closed hr =>
    subst hr
    exact ⟨fun _ => ⟨by decide, .inl (by decide)⟩, fun _ => ⟨_, rfl⟩⟩
  | lost hr ht =>
    obtain ⟨hw, -⟩ := ht.walked
    refine ⟨fun _ => ⟨?_, .inl hr⟩, fun _ => ⟨_, rfl⟩⟩
    rcases hw.code with h | h | h <;> rw [h] <;> decide
  | gaveUp r hr ht hno hno' =>
    subst hr
    exact ⟨fun _ => ⟨by decide, .inr ⟨hno, hno'⟩⟩, fun _ => ⟨_, rfl⟩⟩
  | dropped hr ht hyes =>
    subst hr
    exact ⟨nofun, fun h => absurd hyes (h.2.resolve_left fun hne => hne rfl).2⟩
  | queued p ps hr ht hps hmap hlen hplain =>
    subst hr
    have hq := (txQueues_iff hps).mpr ⟨hmap, hlen, hplain⟩
    exact ⟨nofun, fun h => absurd hq (h.2.resolve_left fun hne => hne rfl).1⟩

/-- The iteration in state `s` gets as far as looking at the chain `buf`. -/
structure TxReaches (s : TxState) (buf : VqueueBuf) : Prop where
  buffer : ∃ b pool, s.pool.bufAlloc = .ok (b, pool)
  chain : ∃ vq, vqueueGetAvailBuf s.vq (VqueueBuf.empty maxTxIovs 0) = .ok (noError, buf, vq)

theorem TxReaches.taken (h : TxReaches s buf) : Taken s.vq maxTxIovs 0 noError buf s.vq.took := by
  obtain ⟨vq, hq⟩ := h.chain
  rcases getAvailBuf_cases hq with ⟨-, ⟨hr, -⟩ | ⟨hr, -⟩⟩ | ht
  · exact absurd hr (by decide)
  · exact absurd hr (by decide)
  · obtain rfl := ht.queue
    exact ht

/-! ## The call -/

variable {M : Type} {w : Net M}

/-- The call gets to its loop, with `dataAvail` chains available. -/
structure TxStarts (env : Env) (w : Net M) (dataAvail : Half) : Prop where
  driverOk : w.dev.vdev.status &&& virtioConfigSDriverOk ≠ 0
  avail : vqueueNumOfAvailBuf (w.dev.vdev.vq 1) = .ok dataAvail
  some : dataAvail ≠ 0
  router : virtioNetQueueDefaultSize / 2 ≤ env.refBurst.toNat
  malloc : env.mallocOk = true

/-- The call starts an iteration in state `s`. -/
def TxVisits (env : Env) (w : Net M) (s : TxState) : Prop :=
  ∃ dataAvail k, TxStarts env w dataAvail ∧
    Visits (txBody env w.nw) (List.range (max (txBurst env w.dev dataAvail) 1)) w.txStart k s

theorem TxStarts.unique {dataAvail' : Half} (h : TxStarts env w dataAvail)
    (h' : TxStarts env w dataAvail') : dataAvail' = dataAvail := by
  have heq := h'.avail
  rw [h.avail] at heq
  exact (Except.ok.inj heq).symm

theorem TxStarts.visits_iff (h : TxStarts env w dataAvail) :
    TxVisits env w s ↔ ∃ k, Visits (txBody env w.nw)
      (List.range (max (txBurst env w.dev dataAvail) 1)) w.txStart k s := by
  constructor
  · rintro ⟨dataAvail', k, h', hv⟩
    obtain rfl := h.unique h'
    exact ⟨k, hv⟩
  · rintro ⟨k, hv⟩
    exact ⟨dataAvail, k, h, hv⟩

/-- The loop is left with a value exactly when some iteration gives the batch up. -/
theorem TxStarts.givesUp_iff (h : TxStarts env w dataAvail) {o : Option ℤ}
    (hloop : batch (txBody env w.nw)
      (List.range (max (txBurst env w.dev dataAvail) 1)) w.txStart = .ok (o, s)) :
    o ≠ none ↔ ∃ u, TxVisits env w u ∧ TxGivesUp env w.nw u := by
  rw [batch_ret_iff hloop]
  constructor
  · rintro ⟨k, u, r, u', hv, hu⟩
    exact ⟨u, h.visits_iff.mpr ⟨k, hv⟩, (txBody_ret_iff hu).mp ⟨r, rfl⟩⟩
  · rintro ⟨u, hv, hgive⟩
    obtain ⟨k, hv⟩ := h.visits_iff.mp hv
    obtain ⟨n, u', hu⟩ := body_ok_of_visit hv hloop
    obtain ⟨r, rfl⟩ := (txBody_ret_iff hu).mpr hgive
    exact ⟨k, u, r, u', hv, hu⟩

/-- With one chain available, only one iteration is started. -/
theorem TxVisits.eq_txStart (h : TxVisits env w s)
    (h1 : vqueueNumOfAvailBuf (w.dev.vdev.vq 1) = .ok 1) : s = w.txStart := by
  obtain ⟨dataAvail, k, hs, hv⟩ := h
  have havail := hs.avail
  rw [h1] at havail
  cases havail
  have hmax : max (txBurst env w.dev 1) 1 = 1 := by
    have hone : BitVec.toNat (1 : Half) = 1 := rfl
    simp only [txBurst, hone]
    omega
  rw [hmax] at hv
  rcases visits_cons_iff.mp hv with ⟨-, rfl⟩ | ⟨s', -, hv'⟩
  · rfl
  · exact absurd hv' not_visits_nil

/-- The frames are handed over and the chains are reported, unless the loop gave up. -/
theorem txEnd_eq_ok {o : Option ℤ} {r : ℤ} {w' : Net M} (h : txEnd w (o, s) = .ok (r, w')) :
    PutBack w.dev 1 s.vq (o = none ∧ 0 < s.numPackets) w'.dev ∧ r = o.getD s.numPackets ∧
      w'.handed = w.handed ++ (if o = none then s.frames else []) ∧ w'.pool = s.pool ∧
        w'.sec = s.sec := by
  cases o with
  | some ret =>
    cases h
    exact ⟨⟨nofun, fun _ => rfl⟩, rfl, (List.append_nil _).symm, rfl, rfl⟩
  | none =>
    obtain ⟨rfl, d, rfl, hkick, hno⟩ := kicked_eq_ok h
    exact ⟨⟨fun hk => hkick hk.2, fun hk => hno fun hpos => hk ⟨rfl, hpos⟩⟩, rfl, rfl, rfl, rfl⟩

theorem txEntry_eq_inr : txEntry env w.dev = .ok (.inr dataAvail) ↔ TxStarts env w dataAvail := by
  constructor
  · intro h
    rw [txEntry] at h
    split at h
    · cases h
    rename_i hok
    split at h
    · cases h
    rename_i avail havail
    split_ifs at h with hne hroom hmalloc <;> cases h
    exact ⟨hok, havail, hne, not_lt.mp hroom, hmalloc⟩
  · rintro ⟨hok, havail, hne, hroom, hmalloc⟩
    rw [txEntry, if_neg hok, havail]
    simp only [if_neg hne, if_neg (not_lt.mpr hroom), hmalloc, not_true, if_false]

/-- A call that returns either did not get to its loop and changed nothing, or ran it. -/
theorem virtioNetFlushTx_cases {r : ℤ} {w' : Net M} (h : virtioNetFlushTx env w = .ok (r, w')) :
    (w' = w ∧ ∀ dataAvail, ¬ TxStarts env w dataAvail) ∨
      ∃ dataAvail p, TxStarts env w dataAvail ∧
        batch (txBody env w.nw) (List.range (max (txBurst env w.dev dataAvail) 1)) w.txStart =
          .ok p ∧ txEnd w p = .ok (r, w') := by
  simp only [← txEntry_eq_inr]
  rw [virtioNetFlushTx_eq] at h
  split at h
  · cases h
  · rename_i r' hentry
    cases h
    exact .inl ⟨rfl, by simp [hentry]⟩
  · rename_i dataAvail hentry
    split at h
    · cases h
    rename_i p hp
    exact .inr ⟨dataAvail, p, hentry, hp, h⟩

end TrustedGateway
