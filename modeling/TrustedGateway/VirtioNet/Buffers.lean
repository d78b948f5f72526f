import TrustedGateway.Lib.Custody
import TrustedGateway.VirtioNet.FlushTx

/-!
# Frame buffers of `virtio_net_flush_tx`

An iteration allocates a buffer before it looks at the queue, so every exit of the loop has a
buffer to account for, and some have the frames gathered so far.  The calls of the pool are a log
beside the loop, and `Books` says that the log, the pool and the frames agree.  An exit from the
loop body leaves the books with nothing held; the end of the loop leaves the frames.  These go to
the handler of the router.  A handler that rejects them leaves them with a caller that forgets
them.

## Main results

* `books_txBody` — one iteration keeps the books.
* `flushTx_settled_iff` — every buffer is released exactly when no frame meets a handler that
  rejects it.
-/

namespace TrustedGateway

open BatchLoop Custody

/-! ## Pool calls -/

/-- A call of the pool, or a frame that an accepting handler takes over. -/
inductive BufOp
  | alloc (b : BufId)
  | free (b : BufId)
  | hand (b : BufId)
  deriving DecidableEq, Repr

namespace BufOp

/-- The buffer the call gets. -/
def gets : BufOp → Option BufId
  | alloc b => some b
  | _ => none

/-- The buffer the call gives away, to the pool or to the router. -/
def gives : BufOp → Option BufId
  | alloc _ => none
  | free b => some b
  | hand b => some b

/-- The buffer the pool gets back. -/
def returns : BufOp → Option BufId
  | free b => some b
  | _ => none

end BufOp

/-- Each buffer that was allocated was given away exactly once.  A buffer is given away only
while it is held, it is allocated only while the pool has it, and in the end none is held.  The
log is that of the pool: it explains which buffers are free. -/
structure BufsSettled (pool pool' : EthPool) (ops : List BufOp) : Prop where
  once : Legal BufOp.gets BufOp.gives ∅ ops
  fresh : Legal BufOp.returns BufOp.gets {b | b ∈ pool.freeList} ops
  none : holdAll BufOp.gets BufOp.gives ∅ ops = ∅
  free : holdAll BufOp.returns BufOp.gets {b | b ∈ pool.freeList} ops = {b | b ∈ pool'.freeList}

/-- The log `ops` agrees with the pool it led to from one with the free buffers `free₀`, and with
the buffers `held` by the call. -/
structure Books (free₀ : Set BufId) (held : List BufId) (pool : EthPool) (ops : List BufOp) :
    Prop where
  once : Legal BufOp.gets BufOp.gives ∅ ops
  fresh : Legal BufOp.returns BufOp.gets free₀ ops
  holds : holdAll BufOp.gets BufOp.gives ∅ ops = {b | b ∈ held}
  free : holdAll BufOp.returns BufOp.gets free₀ ops = {b | b ∈ pool.freeList}
  inuse : held ⊆ pool.inuseList
  nodup : held.Nodup

namespace Books

variable {free₀ : Set BufId} {held : List BufId} {pool pool' : EthPool} {ops : List BufOp}
  {b : BufId}

theorem start (pool : EthPool) : Books {b | b ∈ pool.freeList} [] pool [] where
  once := trivial
  fresh := trivial
  holds := by simp
  free := rfl
  inuse := by simp
  nodup := List.nodup_nil

theorem setEb (h : Books free₀ held pool ops) (b : BufId) (e : EthBuf) :
    Books free₀ held (pool.setEb b e) ops :=
  { h with free := h.free, inuse := h.inuse }

/-- A buffer that is in use is not free. -/
theorem notMem_freeList {pool : EthPool} (h : b ∈ pool.inuseList) : b ∉ pool.freeList := by
  intro hfree
  exact (List.nodup_append.mp pool.nodup).2.2 b hfree b h rfl

section

variable (h : Books free₀ held pool ops)
include h

theorem alloc (halloc : pool.bufAlloc = .ok (b, pool')) :
    b ∉ held ∧ Books free₀ (held ++ [b]) pool' (ops ++ [.alloc b]) := by
  obtain ⟨hfree, -, hinuse⟩ := EthPool.bufAlloc_eq_ok halloc
  have hb : b ∉ held := by
    intro hmem
    exact notMem_freeList (h.inuse hmem) (hfree ▸ List.mem_cons_self)
  have hb' : b ∉ pool'.freeList := notMem_freeList (hinuse ▸ List.mem_cons_self)
  refine ⟨hb, Legal.concat_iff.mpr ⟨h.once, ?_⟩, Legal.concat_iff.mpr ⟨h.fresh, ?_⟩, ?_, ?_, ?_, ?_⟩
  · rintro t ⟨⟩
  · rintro t ⟨⟩
    rw [h.free, hfree]
    exact List.mem_cons_self
  · rw [holdAll_concat, h.holds]
    ext t
    simp [hold, BufOp.gets, BufOp.gives, eq_comm]
  · rw [holdAll_concat, h.free, hfree]
    ext t
    simp only [hold, BufOp.gets, BufOp.returns, List.mem_cons, Set.mem_ofPred_eq, reduceCtorEq,
      or_false, ne_eq, Option.some.injEq]
    constructor
    · rintro ⟨rfl | ht, hne⟩
      · exact absurd rfl hne
      · exact ht
    · intro ht
      exact ⟨.inr ht, fun heq => hb' (heq ▸ ht)⟩
  · rw [hinuse]
    intro t ht
    rcases List.mem_append.mp ht with ht | ht
    · exact List.mem_cons_of_mem _ (h.inuse ht)
    · exact List.mem_singleton.mp ht ▸ List.mem_cons_self
  · exact List.nodup_append.mpr ⟨h.nodup, List.nodup_singleton b, by
      rintro t ht u hu rfl
      exact hb (List.mem_singleton.mp hu ▸ ht)⟩

/-- What is held after a held buffer was given away. -/
theorem holds_give {op : BufOp} (hget : op.gets = none) (hop : op.gives = some b) :
    holdAll BufOp.gets BufOp.gives ∅ (ops ++ [op]) = {c | c ∈ held.erase b} := by
  rw [holdAll_concat, h.holds]
  ext c
  simp only [hold, hget, hop, Set.mem_ofPred_eq, h.nodup.mem_erase_iff]
  constructor
  · rintro ⟨hc | hc, hne⟩
    · exact ⟨fun heq => hne (heq ▸ rfl), hc⟩
    · cases hc
  · rintro ⟨hne, hc⟩
    exact ⟨.inl hc, fun heq => hne (Option.some.inj heq).symm⟩

theorem give {op : BufOp} (hb : b ∈ held) (hop : op.gives = some b) :
    Legal BufOp.gets BufOp.gives ∅ (ops ++ [op]) := by
  refine Legal.concat_iff.mpr ⟨h.once, ?_⟩
  rintro t ht
  rw [hop] at ht
  cases ht
  rw [h.holds]
  exact hb

theorem bufFree (hb : b ∈ held) :
    Books free₀ (held.erase b) (pool.bufFree b) (ops ++ [.free b]) where
  once := h.give hb rfl
  fresh := Legal.concat_iff.mpr ⟨h.fresh, by rintro t ⟨⟩⟩
  holds := h.holds_give rfl rfl
  free := by
    rw [holdAll_concat, h.free]
    ext c
    simp only [hold, BufOp.returns, BufOp.gets, EthPool.bufFree, Set.mem_ofPred_eq, ne_eq,
      reduceCtorEq, not_false_eq_true, and_true, Option.some.injEq, List.mem_cons,
      List.erase_of_not_mem (notMem_freeList (h.inuse hb))]
    exact ⟨fun hc => hc.symm.imp_left Eq.symm, fun hc => hc.symm.imp_right Eq.symm⟩
  inuse := by
    intro c hc
    have hne := (h.nodup.mem_erase_iff.mp hc).1
    exact (List.mem_erase_of_ne hne).mpr (h.inuse (List.mem_of_mem_erase hc))
  nodup := h.nodup.erase b

theorem hand (hb : b ∈ held) :
    Books free₀ (held.erase b) pool (ops ++ [.hand b]) where
  once := h.give hb rfl
  fresh := Legal.concat_iff.mpr ⟨h.fresh, by rintro t ⟨⟩⟩
  holds := h.holds_give rfl rfl
  free := by
    rw [holdAll_concat, h.free]
    ext c
    simp [hold, BufOp.returns, BufOp.gets]
  inuse := fun c hc => h.inuse (List.mem_of_mem_erase hc)
  nodup := h.nodup.erase b

theorem bufFreeAll : Books free₀ [] (pool.bufFreeAll held) (ops ++ held.map .free) := by
  induction held generalizing pool ops with
  | nil => simpa [EthPool.bufFreeAll] using h
  | cons b held ih =>
    have hfree := h.bufFree (b := b) List.mem_cons_self
    rw [List.erase_cons_head] at hfree
    simpa [EthPool.bufFreeAll] using ih hfree

theorem handAll : Books free₀ [] pool (ops ++ held.map .hand) := by
  induction held generalizing ops with
  | nil => simpa using h
  | cons b held ih =>
    have hhand := h.hand (b := b) List.mem_cons_self
    rw [List.erase_cons_head] at hhand
    simpa using ih hhand

end

/-- With books that agree, every buffer is settled exactly when none is held. -/
theorem settled_iff {pool₀ : EthPool} (h : Books {b | b ∈ pool₀.freeList} held pool ops) :
    BufsSettled pool₀ pool ops ↔ held = [] := by
  constructor
  · intro hs
    have hnone := hs.none
    rw [h.holds] at hnone
    exact List.eq_nil_iff_forall_not_mem.mpr fun b hb =>
      (Set.eq_empty_iff_forall_notMem.mp hnone) b hb
  · rintro rfl
    exact ⟨h.once, h.fresh, by rw [h.holds]; simp, h.free⟩

end Books

/-! ## The pool calls of an iteration -/

variable {env : Env} {nw : ℕ → Byte}

/-- What goes back to the pool when the batch is given up. -/
def TxState.giveUpOps (s : TxState) (b : BufId) : List BufOp :=
  .free b :: s.frames.map fun f => .free f.buf

/-- The pool calls of an iteration. -/
def txOps (env : Env) (nw : ℕ → Byte) (s : TxState) (_ : ℕ) : List BufOp :=
  match s.pool.bufAlloc with
  | .error _ => []
  | .ok (b, _) =>
    .alloc b ::
      match vqueueGetAvailBuf s.vq (VqueueBuf.empty maxTxIovs 0) with
      | .error _ => []
      | .ok (ret, buf, _) =>
        if ret = errNotEnoughBuffer then [.free b]
        else if ret ≠ noError then s.giveUpOps b
        else
          match (txInspect env s.vq.lastAvailIdx nw buf).verdict with
          | .abort _ => s.giveUpOps b
          | .drop => [.free b]
          | .queue => []

/-- What the verdict on a chain says about it. -/
theorem TxJudged.verdict_iff {idx : Half} {buf : VqueueBuf} {p : Piece} {ps : List Piece}
    {r : TxRead} (h : TxJudged env idx nw buf p ps r) (hbuf : buf.inIovs.pieces = p :: ps) :
    (r.verdict = .queue ↔ TxQueues env nw buf) ∧ (r.verdict = .drop ↔ TxDrops env idx buf) := by
  rw [txQueues_iff hbuf, txDrops_iff hbuf]
  cases h with
  | queue hmap hlen hplain => simp [hmap, hlen, hplain]
  | badHeader inn hmap hlen hplain => simp [hlen, hplain]
  | drop inn hmap hlen => simp [hmap, hlen]
  | unmapped ret inn hmap hseen =>
    simp only [reduceCtorEq, hmap, false_and, false_or, false_iff, not_and, not_not, true_and]
    exact fun hu => hseen.resolve_left fun hne => hne hu

section Turn

variable {s s' : TxState} {b : BufId} {pool : EthPool} {ret : ℤ} {buf : VqueueBuf} {vq : Vqueue}
  {k : ℕ}

theorem txOps_of_idle (halloc : s.pool.bufAlloc = .ok (b, pool))
    (hq : vqueueGetAvailBuf s.vq (VqueueBuf.empty maxTxIovs 0) =
      .ok (errNotEnoughBuffer, buf, vq)) :
    txOps env nw s k = [.alloc b, .free b] := by
  simp only [txOps, halloc, hq, if_true]

theorem txOps_of_lost (halloc : s.pool.bufAlloc = .ok (b, pool))
    (hq : vqueueGetAvailBuf s.vq (VqueueBuf.empty maxTxIovs 0) = .ok (ret, buf, vq))
    (hne : ret ≠ errNotEnoughBuffer) (hbad : ret ≠ noError) :
    txOps env nw s k = .alloc b :: s.giveUpOps b := by
  simp only [txOps, halloc, hq, if_neg hne, if_pos hbad]

/-- The pool calls of an iteration that took a chain, by what becomes of the chain. -/
theorem txOps_of_taken (halloc : s.pool.bufAlloc = .ok (b, pool))
    (hq : vqueueGetAvailBuf s.vq (VqueueBuf.empty maxTxIovs 0) = .ok (noError, buf, vq))
    (chain : Taken s.vq maxTxIovs 0 noError buf s.vq.took) :
    (TxQueues env nw buf → txOps env nw s k = [.alloc b]) ∧
      (TxDrops env s.vq.lastAvailIdx buf → txOps env nw s k = [.alloc b, .free b]) ∧
      (¬ TxQueues env nw buf → ¬ TxDrops env s.vq.lastAvailIdx buf →
        txOps env nw s k = .alloc b :: s.giveUpOps b) := by
  obtain ⟨hf, -, p, ps, hps⟩ := chain.tx
  obtain ⟨hqueue, hdrop⟩ := (txInspect_judged env s.vq.lastAvailIdx nw hps hf).verdict_iff hps
  have hno : noError ≠ errNotEnoughBuffer := by decide
  simp only [txOps, halloc, hq, ← hqueue, ← hdrop, if_neg hno, ne_eq, not_true, if_false]
  cases (txInspect env s.vq.lastAvailIdx nw buf).verdict <;> simp

end Turn

namespace Books

variable {free₀ : Set BufId} {ops : List BufOp} {b : BufId}

/-- The buffer that came last goes back. -/
theorem bufFree_last {held : List BufId} {pool : EthPool}
    (h : Books free₀ (held ++ [b]) pool ops) (hb : b ∉ held) :
    Books free₀ held (pool.bufFree b) (ops ++ [.free b]) := by
  have hfree := h.bufFree (b := b) (by simp)
  rwa [List.erase_append_right _ hb, List.erase_cons_head, List.append_nil] at hfree

/-- The batch is given up with the buffer that came last. -/
theorem giveUp {s : TxState} (h : Books free₀ (s.frames.map (·.buf) ++ [b]) s.pool ops)
    (hb : b ∉ s.frames.map (·.buf)) :
    Books free₀ [] (s.giveUp b).pool (ops ++ s.giveUpOps b) := by
  have hall := (h.bufFree_last hb).bufFreeAll
  rwa [List.append_assoc, List.map_map] at hall

end Books

/-- The buffers of the frames gathered so far. -/
def TxState.bufs (s : TxState) : List BufId := s.frames.map (·.buf)

variable {o : Option ℤ} {s : TxState}

/-- **One iteration keeps the books.**  It leaves the frames gathered so far with the call, or
nothing when it gives the batch up. -/
theorem books_txBody {free₀ : Set BufId} {ops : List BufOp} {s' : TxState} {k : ℕ} {n : Next ℤ}
    (h : Books free₀ s.bufs s.pool ops) (hb : txBody env nw s k = .ok (n, s')) :
    Books free₀ (if n.value = none then s'.bufs else []) s'.pool (ops ++ txOps env nw s k) := by
  obtain ⟨b, pool, ret, buf, vq, halloc, hq, ht⟩ := txBody_turn hb
  obtain ⟨hnew, hbooks⟩ := h.alloc halloc
  have hfresh : Books free₀ (s.bufs ++ [b]) (s.fresh b pool).pool (ops ++ [.alloc b]) :=
    hbooks.setEb b _
  have hfree := hfresh.bufFree_last hnew
  have hgive := Books.giveUp (s := s.fresh b pool) hfresh hnew
  rw [List.append_assoc] at hfree hgive
  cases ht with
  | idle hr =>
    subst hr
    rw [txOps_of_idle halloc hq]
    exact hfree
  | closed hr =>
    subst hr
    rw [txOps_of_lost halloc hq (by decide) (by decide)]
    exact hgive
  | lost hr ht =>
    obtain ⟨hw, -⟩ := ht.walked
    rw [txOps_of_lost halloc hq (by rcases hw.code with h | h | h <;> rw [h] <;> decide) hr]
    exact hgive
  | gaveUp r hr ht hno hno' =>
    subst hr
    rw [(txOps_of_taken halloc hq ht).2.2 hno hno']
    exact hgive
  | dropped hr ht hyes =>
    subst hr
    rw [(txOps_of_taken halloc hq ht).2.1 hyes]
    exact hfree
  | queued p ps hr ht hps hmap hlen hplain =>
    subst hr
    rw [(txOps_of_taken halloc hq ht).1 ((txQueues_iff hps).mpr ⟨hmap, hlen, hplain⟩)]
    have hkept := hfresh.setEb b { pool.eb b with
      dataOff := 2, packetType := rtePtypeL2Mask, dataLen := txTotal buf }
    simpa [TxState.bufs, TxState.fresh, Next.value] using hkept

/-! ## The call -/

variable {M : Type} {w w' : Net M} {accept : Bool} {ops : List BufOp}

/-- `bstgw_generic_rx_handler` for an interface with these workers; a worker slot may be empty.
It takes the frames only when it returns `0`. -/
def bstgwGenericRxHandler (workers : List (Option ℕ)) : ℤ :=
  match workers with
  | [] => -1
  | none :: _ => -1
  | some _ :: _ => 0

/-- `virtio_net_flush_tx` with its pool calls.  `accept` says whether the handler of the router
takes the frames; one that returns with an error leaves them. -/
def virtioNetFlushTxLogged (env : Env) (w : Net M) (accept : Bool) :
    Except Abort ((ℤ × Net M) × List BufOp) :=
  if w.dev.vdev.status &&& virtioConfigSDriverOk = 0 then .ok ((0, w), [])
  else
    match vqueueNumOfAvailBuf (w.dev.vdev.vq 1) with
    | .error a => .error a
    | .ok dataAvail =>
      if dataAvail = 0 then .ok ((virtioNoAvail, w), [])
      else if env.refBurst.toNat < virtioNetQueueDefaultSize / 2 then
        .ok ((virtioNapiRetry, w), [])
      else if ¬ env.mallocOk then .ok ((errNoMemory, w), [])
      else
        match batch (withLog (txOps env w.nw) (txBody env w.nw))
            (List.range (max (txBurst env w.dev dataAvail) 1)) (w.txStart, []) with
        | .error a => .error a
        | .ok (o, s, ops) =>
          (txEnd w (o, s)).map fun p =>
            (p, ops ++ if o = none ∧ accept then s.bufs.map .hand else [])

theorem virtioNetFlushTxLogged_eq (env : Env) (w : Net M) (accept : Bool) :
    virtioNetFlushTxLogged env w accept =
      match txEntry env w.dev with
      | .error a => .error a
      | .ok (.inl r) => .ok ((r, w), [])
      | .ok (.inr dataAvail) =>
        match batch (withLog (txOps env w.nw) (txBody env w.nw))
            (List.range (max (txBurst env w.dev dataAvail) 1)) (w.txStart, []) with
        | .error a => .error a
        | .ok (o, s, ops) =>
          (txEnd w (o, s)).map fun p =>
            (p, ops ++ if o = none ∧ accept then s.bufs.map .hand else []) := by
  rw [virtioNetFlushTxLogged, txEntry]
  cases vqueueNumOfAvailBuf (w.dev.vdev.vq 1) <;> dsimp only <;> split_ifs <;> rfl

/-- Forgetting the pool calls gives the call, whatever the handler does. -/
theorem virtioNetFlushTxLogged_fst (env : Env) (w : Net M) (accept : Bool) :
    (virtioNetFlushTxLogged env w accept).map Prod.fst = virtioNetFlushTx env w := by
  rw [virtioNetFlushTxLogged_eq, virtioNetFlushTx_eq]
  rcases txEntry env w.dev with a | r | dataAvail
  · rfl
  · rfl
  · dsimp only
    rw [← batch_withLog (txOps env w.nw) _ w.txStart []]
    rcases batch (withLog (txOps env w.nw) (txBody env w.nw)) _ (w.txStart, []) with a | ⟨o, s, ops⟩
    · rfl
    · dsimp only [Except.map]
      cases txEnd w (o, s) <;> rfl

/-- A logged call that returns either did not get to its loop and left the pool alone, or ran
it. -/
theorem virtioNetFlushTxLogged_cases {r : ℤ}
    (h : virtioNetFlushTxLogged env w accept = .ok ((r, w'), ops)) :
    (w' = w ∧ ops = [] ∧ ∀ dataAvail, ¬ TxStarts env w dataAvail) ∨
      ∃ dataAvail o s ops', TxStarts env w dataAvail ∧
        batch (withLog (txOps env w.nw) (txBody env w.nw))
          (List.range (max (txBurst env w.dev dataAvail) 1)) (w.txStart, []) = .ok (o, s, ops') ∧
        txEnd w (o, s) = .ok (r, w') ∧
        ops = ops' ++ if o = none ∧ accept then s.bufs.map .hand else [] := by
  simp only [← txEntry_eq_inr]
  rw [virtioNetFlushTxLogged_eq] at h
  split at h
  · cases h
  · rename_i r' hentry
    cases h
    exact .inl ⟨rfl, rfl, by simp [hentry]⟩
  · rename_i dataAvail hentry
    split at h
    · cases h
    rename_i o s ops' hloop
    cases hend : txEnd w (o, s) with
    | error a => rw [hend] at h; cases h
    | ok p =>
      rw [hend] at h
      cases h
      exact .inr ⟨dataAvail, o, s, ops', hentry, hloop, hend, rfl⟩

/-- The books at the end of the loop. -/
theorem books_loop {ks : List ℕ}
    (h : batch (withLog (txOps env w.nw) (txBody env w.nw)) ks (w.txStart, []) = .ok (o, s, ops)) :
    Books {b | b ∈ w.pool.freeList} (if o = none then s.bufs else []) s.pool ops := by
  have hstep : ∀ (p : TxState × List BufOp) k n p',
      Books {b | b ∈ w.pool.freeList} p.1.bufs p.1.pool p.2 →
        withLog (txOps env w.nw) (txBody env w.nw) p k = .ok (n, p') →
          Books {b | b ∈ w.pool.freeList} (if n.value = none then p'.1.bufs else []) p'.1.pool
            p'.2 := by
    intro p k n p' hp hb
    obtain ⟨hbody, hlog⟩ := withLog_eq_ok hb
    rw [hlog]
    exact books_txBody hp hbody
  refine batch_post
    (I := fun _ (p : TxState × List BufOp) =>
      Books {b | b ∈ w.pool.freeList} p.1.bufs p.1.pool p.2)
    (J := fun o p => Books {b | b ∈ w.pool.freeList} (if o = none then p.1.bufs else [])
      p.1.pool p.2)
    ?_ ?_ ?_ ks (w.txStart, []) (.start w.pool) h
  · intro p hp
    exact hp
  · intro k _ p p' hp hb
    exact hstep p k .cont p' hp hb
  · intro k _ p n p' _ hp hb
    exact hstep p k n p' hp hb

/-- The iteration in state `s` adds a frame to the array. -/
def TxGathers (env : Env) (nw : ℕ → Byte) (s : TxState) : Prop :=
  ∃ buf, TxReaches s buf ∧ TxQueues env nw buf

/-- An iteration writes one entry of the array, behind the others, or none. -/
theorem frames_txBody {s' : TxState} {k : ℕ} {n : Next ℤ} (h : txBody env nw s k = .ok (n, s')) :
    (TxGathers env nw s ∧ s'.frames.length = s.frames.length + 1) ∨
      (¬ TxGathers env nw s ∧ s'.frames.length = s.frames.length) := by
  obtain ⟨b, pool, ret, buf, vq, halloc, hq, ht⟩ := txBody_turn h
  have hiff : TxGathers env nw s ↔ ret = noError ∧ TxQueues env nw buf := by
    constructor
    · rintro ⟨buf', ⟨-, vq', hq'⟩, hyes⟩
      rw [hq] at hq'
      cases hq'
      exact ⟨rfl, hyes⟩
    · rintro ⟨rfl, hyes⟩
      exact ⟨buf, ⟨⟨b, pool, halloc⟩, vq, hq⟩, hyes⟩
  rw [hiff]
  cases ht with
  | idle hr | closed hr =>
    subst hr
    exact .inr ⟨fun h => absurd h.1 (by decide), rfl⟩
  | lost hr ht => exact .inr ⟨fun h => hr h.1, rfl⟩
  | gaveUp r hr ht hno => exact .inr ⟨fun h => hno h.2, rfl⟩
  | dropped hr ht hyes =>
    obtain ⟨p, ps, hps, -, hlen⟩ := hyes
    exact .inr ⟨fun h => hlen ((txQueues_iff hps).mp h.2).2.1, rfl⟩
  | queued p ps hr ht hps hmap hlen hplain =>
    exact .inl ⟨⟨hr, (txQueues_iff hps).mpr ⟨hmap, hlen, hplain⟩⟩, by simp⟩

/-- Every write to the array of frames is at an index below its length. -/
def WritesInside (env : Env) (w : Net M) : Prop :=
  ∀ dataAvail s, TxStarts env w dataAvail → TxVisits env w s → TxGathers env w.nw s →
    s.frames.length < txBurst env w.dev dataAvail

theorem writesInside (hburst : w.dev.vnet.txBurst ≠ 0) : WritesInside env w := by
  intro dataAvail s hs hv _
  obtain ⟨k, hv⟩ := hs.visits_iff.mp hv
  have hle := Visits.le_of_range (f := fun s : TxState => s.frames.length)
    (fun k t t' hb => by rcases frames_txBody hb with ⟨-, h⟩ | ⟨-, h⟩ <;> omega) rfl hv
  have hrouter := hs.router
  have hburst' : w.dev.vnet.txBurst.toNat ≠ 0 := fun h => hburst (BitVec.eq_of_toNat_eq h)
  have havail : dataAvail.toNat ≠ 0 := fun h => hs.some (BitVec.eq_of_toNat_eq h)
  have hpos : 1 ≤ txBurst env w.dev dataAvail := by
    simp only [txBurst, virtioNetQueueDefaultSize] at hrouter ⊢
    omega
  omega

/-- The frames at the end of a loop that no iteration has given up. -/
theorem TxStarts.gathers_iff {dataAvail : Half} (h : TxStarts env w dataAvail)
    (hloop : batch (txBody env w.nw)
      (List.range (max (txBurst env w.dev dataAvail) 1)) w.txStart = .ok (o, s)) :
    s.bufs = [] ↔ ∀ u, TxVisits env w u → ¬ TxGathers env w.nw u := by
  have hcount := batch_lt_iff (f := fun s : TxState => s.frames.length)
    (p := fun u (_ : ℕ) => TxGathers env w.nw u) _ _ (fun k t n t' hb => frames_txBody hb) hloop
  have hstart : w.txStart.frames.length = 0 := rfl
  simp only [hstart] at hcount
  rw [TxState.bufs, List.map_eq_nil_iff, ← List.length_eq_zero_iff, ← not_iff_not,
    ← ne_eq, ← Nat.pos_iff_ne_zero, hcount]
  constructor
  · rintro ⟨k, u, hv, hu⟩ hno
    exact hno u (h.visits_iff.mpr ⟨k, hv⟩) hu
  · intro hsome
    obtain ⟨u, hu⟩ := not_forall.mp hsome
    obtain ⟨hv, hgather⟩ := Classical.not_imp.mp hu
    obtain ⟨k, hv⟩ := h.visits_iff.mp hv
    exact ⟨k, u, hv, not_not.mp hgather⟩

/-- **Every buffer of a call that returns is released exactly once, and no frame is written past
its array, exactly when the handler accepts, or the batch is given up before the handler is
asked, or there is no frame to hand over.** -/
theorem flushTx_settled_iff (hburst : w.dev.vnet.txBurst ≠ 0) {r : ℤ}
    (h : virtioNetFlushTxLogged env w accept = .ok ((r, w'), ops)) :
    BufsSettled w.pool w'.pool ops ∧ WritesInside env w ↔
      accept = true ∨ (∃ s, TxVisits env w s ∧ TxGivesUp env w.nw s) ∨
        ∀ s, TxVisits env w s → ¬ TxGathers env w.nw s := by
  rw [and_iff_left (writesInside hburst)]
  rcases virtioNetFlushTxLogged_cases h with ⟨rfl, rfl, hno⟩ |
    ⟨dataAvail, o, s, ops', hs, hlog, hend, rfl⟩
  · refine iff_of_true ((Books.start w'.pool).settled_iff.mpr rfl) (.inr (.inr ?_))
    rintro s ⟨dataAvail, -, hs, -⟩
    exact absurd hs (hno dataAvail)
  have hbooks := books_loop hlog
  have hloop : batch (txBody env w.nw) (List.range (max (txBurst env w.dev dataAvail) 1))
      w.txStart = .ok (o, s) := by
    rw [← batch_withLog (txOps env w.nw) _ w.txStart [], hlog]
    rfl
  rw [(txEnd_eq_ok hend).2.2.2.1, ← hs.givesUp_iff hloop, ← hs.gathers_iff hloop]
  cases o with
  | some ret =>
    rw [if_neg (by simp)] at hbooks ⊢
    rw [List.append_nil]
    exact iff_of_true (hbooks.settled_iff.mpr rfl) (.inr (.inl (by simp)))
  | none =>
    rw [if_pos rfl] at hbooks
    cases accept with
    | true =>
      rw [if_pos ⟨rfl, rfl⟩]
      exact iff_of_true (hbooks.handAll.settled_iff.mpr rfl) (.inl rfl)
    | false =>
      rw [if_neg (by simp), List.append_nil, hbooks.settled_iff]
      simp

/-- One frame of `60` bytes, and a handler that accepts it. -/
theorem flushTx_settled_accepted :
    ∃ r w' ops, virtioNetFlushTxLogged .board (.running .zero (.offer [⟨0x20000000, 72, 0, 0⟩] 1))
        (bstgwGenericRxHandler [some 0] = 0) = .ok ((r, w'), ops) ∧
      ops = [.alloc 1, .hand 1] ∧ BufsSettled EthPool.sample w'.pool ops := by
  have hok : ∃ p, virtioNetFlushTxLogged .board
      (.running .zero (.offer [⟨0x20000000, 72, 0, 0⟩] 1)) (bstgwGenericRxHandler [some 0] = 0) =
        .ok p ∧ p.2 = [.alloc 1, .hand 1] :=
    StepSystem.exists_ok_of_map (f := Prod.snd) (by decide +kernel)
  obtain ⟨⟨⟨r, w'⟩, ops⟩, hcall, hops⟩ := hok
  exact ⟨r, w', ops, hcall, hops, ((flushTx_settled_iff (by decide) hcall).mpr (.inl rfl)).1⟩

/-- The same frame before a worker is registered: the handler rejects it, and the buffer stays with
a caller that has returned. -/
theorem flushTx_leaks_rejected :
    ∃ r w' ops, virtioNetFlushTxLogged .board (.running .zero (.offer [⟨0x20000000, 72, 0, 0⟩] 1))
        (bstgwGenericRxHandler [] = 0) = .ok ((r, w'), ops) ∧
      ops = [.alloc 1] ∧ ¬ BufsSettled EthPool.sample w'.pool ops := by
  have hok : ∃ p, virtioNetFlushTxLogged .board
      (.running .zero (.offer [⟨0x20000000, 72, 0, 0⟩] 1)) (bstgwGenericRxHandler [] = 0) =
        .ok p ∧ p.2 = [.alloc 1] :=
    StepSystem.exists_ok_of_map (f := Prod.snd) (by decide +kernel)
  obtain ⟨⟨⟨r, w'⟩, ops⟩, hcall, hops⟩ := hok
  refine ⟨r, w', ops, hcall, hops, fun hs => ?_⟩
  have hnone := hs.none
  rw [show ops = [.alloc 1] from hops] at hnone
  have hheld : (1 : BufId) ∈ holdAll BufOp.gets BufOp.gives ∅ [.alloc 1] := by
    simp [hold, BufOp.gets, BufOp.gives]
  rw [hnone] at hheld
  exact hheld

end TrustedGateway
