import TrustedGateway.VirtioNet.FlushTx

/-!
# What the normal world can put into the gateway

A frame that `virtio_net_flush_tx` hands to the router is meant to be the chain's bytes
without the header, inside of its buffer.  The length checks work on a 32-bit total and the
copy on the single lengths, so this holds exactly for chains whose total does not wrap.

The frames of a batch do not disturb each other: a fresh buffer comes off the free list, and
no buffer is linked twice.
-/

namespace TrustedGateway

open FlatMemory BatchLoop StepSystem

variable {M : Type} {env : Env} {nw : ℕ → Byte}

/-- A frame in its buffer: its length, its bytes, and where the copies wrote that made it. -/
structure FrameOk (nw : ℕ → Byte) (pool : EthPool) (sec : SecMem) (f : Frame) : Prop where
  short : 42 ≤ (pool.eb f.buf).dataLen.toNat
  long : (pool.eb f.buf).dataLen.toNat ≤ 2046
  content : slice (sec f.buf) (pool.eb f.buf).dataOff.toNat (pool.eb f.buf).dataLen.toNat =
    (iovBytes nw (f.chain.map (·.iov))).drop vnetHdrLen
  header : ∀ c ∈ f.hdrCalls, c.buf + c.len ≤ vnetHdrLen
  buffer : ∀ c ∈ f.dataCalls, c.buf + c.len ≤ bstgwDefaultBufSize.toNat

variable {b : BufId} {pool : EthPool} {s : TxState} {sec : SecMem}

theorem FrameOk.congr {pool' : EthPool} {sec' : SecMem} {f : Frame} (h : FrameOk nw pool sec f)
    (heb : pool'.eb f.buf = pool.eb f.buf) (hsec : sec' f.buf = sec f.buf) :
    FrameOk nw pool' sec' f where
  short := heb ▸ h.short
  long := heb ▸ h.long
  content := by rw [heb, hsec, h.content]
  header := h.header
  buffer := h.buffer

/-- The true length of the chain of a frame in order. -/
theorem FrameOk.chain_le {f : Frame} (h : FrameOk nw pool sec f) :
    iovLen (f.chain.map (·.iov)) ≤ 2058 := by
  have hlen := congrArg List.length h.content
  simp only [length_slice, List.length_drop, length_iovBytes] at hlen
  have hlong := h.long
  simp only [vnetHdrLen] at hlen
  omega

/-! ## One chain -/

/-- The first iovec without the header, and then the others, side by side. -/
theorem slice_txDataCalls {p : Piece} {ps : List Piece} {total : ℕ} (dst : ℕ → Byte)
    (h12 : vnetHdrLen ≤ p.iov.len.toNat)
    (htotal : total = p.iov.len.toNat - vnetHdrLen + iovLen (txIovs env ps)) :
    slice (gather nw (txDataCalls env p ps total) dst) 2 total =
      (iovBytes nw ((mapped env.va (p :: ps)).map (·.iov))).drop vnetHdrLen := by
  have hiovs : (mapped env.va (p :: ps)).map (·.iov) =
      ⟨env.va p.phys, p.iov.len⟩ :: txIovs env ps := rfl
  have hrest : total - (p.iov.len.toNat - vnetHdrLen) = iovLen (txIovs env ps) := by omega
  have hspread := slice_gather_spread (txIovs env ps) (2 + (p.iov.len.toNat - vnetHdrLen))
    (iovLen (txIovs env ps)) nw
    (copy dst 2 nw (txBase env p + vnetHdrLen) (p.iov.len.toNat - vnetHdrLen))
  rw [Nat.min_self, List.take_of_length_le (by simp)] at hspread
  rw [hiovs, iovBytes_cons, List.drop_append_of_le_length (by simpa using h12),
    drop_slice _ _ _ _ h12, txDataCalls, gather_append, gather_orNone, hrest, htotal, slice_add,
    slice_gather_spread_below _ _ le_rfl, slice_copy_self, hspread]
  rfl

/-- A chain whose total does not wrap makes a frame in order. -/
theorem frameOk_of_total_lt {buf : VqueueBuf} {p : Piece} {ps : List Piece} (dst : ℕ → Byte)
    (hf : buf.Filled) (hps : buf.inIovs.pieces = p :: ps) (hlen : txLenOk buf p.iov.len)
    (htotal : buf.inIovs.total < 2 ^ 32) (hoff : (pool.eb b).dataOff = 2)
    (hdata : (pool.eb b).dataLen = txTotal buf)
    (hsec : sec b = gather nw (txDataCalls env p ps (txTotal buf).toNat) dst) :
    FrameOk nw pool sec ⟨b, mapped env.va (p :: ps), txHdrCalls env p,
      txDataCalls env p ps (txTotal buf).toNat⟩ := by
  obtain ⟨h12, h42, h2046⟩ := hlen.bounds
  have hsum : buf.inIovs.total = p.iov.len.toNat + iovLen (txIovs env ps) := by
    rw [VqueueIovs.total, hps, iovLen_txIovs]
    rfl
  have htot : (txTotal buf).toNat = p.iov.len.toNat - vnetHdrLen + iovLen (txIovs env ps) := by
    rw [toNat_txTotal hf (by omega), Nat.mod_eq_of_lt (by omega)]
    omega
  have hcap : bstgwDefaultBufSize.toNat = 2048 := rfl
  refine ⟨by rw [hdata]; exact h42, by rw [hdata]; exact h2046, ?_, ?_, ?_⟩
  · simp only [hdata, hoff, hsec]
    exact slice_txDataCalls dst h12 htot
  · intro c hc
    rw [List.mem_singleton.mp hc]
    exact le_of_eq (Nat.zero_add _)
  · intro c hc
    rw [hcap]
    rcases List.mem_append.mp hc with hc | hc
    · obtain rfl := Memcpy.mem_orNone hc
      dsimp only
      omega
    · obtain ⟨-, hle⟩ := buf_of_mem_spread hc
      omega

/-! ## The frames of a batch -/

/-- The frames of a batch are in order, each in a buffer that is in use. -/
def FramesOk (nw : ℕ → Byte) (s : TxState) : Prop :=
  ∀ f ∈ s.frames, f.buf ∈ s.pool.inuseList ∧ FrameOk nw s.pool s.sec f

/-- A fresh buffer is not the buffer of a frame. -/
theorem ne_of_bufAlloc {p p' : EthPool} {c : BufId} (h : p.bufAlloc = .ok (b, p'))
    (hc : c ∈ p.inuseList) : c ≠ b := by
  rintro rfl
  obtain ⟨hfree, -, -⟩ := EthPool.bufAlloc_eq_ok h
  have hnd := p.nodup
  rw [hfree] at hnd
  exact (List.nodup_append.mp hnd).2.2 c List.mem_cons_self c hc rfl

/-- What an iteration that goes on does to the pool touches the fresh buffer alone. -/
theorem FramesOk.of_touched {s' : TxState} (h : FramesOk nw s)
    (ha : s.pool.bufAlloc = .ok (b, pool)) (hframes : s'.frames = s.frames)
    (heb : ∀ c, c ≠ b → s'.pool.eb c = s.pool.eb c)
    (huse : ∀ c, c ≠ b → c ∈ s.pool.inuseList → c ∈ s'.pool.inuseList)
    (hsec : ∀ c, c ≠ b → s'.sec c = s.sec c) : FramesOk nw s' := by
  intro f hf
  rw [hframes] at hf
  obtain ⟨hin, hok⟩ := h f hf
  have hne := ne_of_bufAlloc ha hin
  exact ⟨huse _ hne hin, hok.congr (heb _ hne) (hsec _ hne)⟩

section Turn

variable {s : TxState} {b : BufId} {pool : EthPool}

theorem eb_fresh_of_ne (ha : s.pool.bufAlloc = .ok (b, pool)) {c : BufId} (hc : c ≠ b) :
    (s.fresh b pool).pool.eb c = s.pool.eb c := by
  obtain ⟨-, heb, -⟩ := EthPool.bufAlloc_eq_ok ha
  simp only [TxState.fresh, EthPool.eb_setEb_of_ne _ hc, heb]

theorem inuseList_fresh (ha : s.pool.bufAlloc = .ok (b, pool)) :
    (s.fresh b pool).pool.inuseList = b :: s.pool.inuseList := by
  obtain ⟨-, -, huse⟩ := EthPool.bufAlloc_eq_ok ha
  simp only [TxState.fresh, EthPool.inuseList_setEb, huse]

variable {buf : VqueueBuf} {n : Next ℤ} {s' : TxState}

/-- **One iteration** that does not give the batch up keeps the frames in order, if the total
of the chain it queues does not wrap. -/
theorem framesOk_turn {ret : ℤ} (h : FramesOk nw s) (ha : s.pool.bufAlloc = .ok (b, pool))
    (ht : TxTurn env nw s b pool ret buf n s') (hn : ∀ r, n ≠ .ret r)
    (htotal : ret = noError → TxQueues env nw buf → buf.inIovs.total < 2 ^ 32) :
    FramesOk nw s' := by
  have huse := inuseList_fresh ha
  have hfree : ∀ c, c ≠ b → ((s.fresh b pool).pool.bufFree b).eb c = s.pool.eb c := by
    intro c hc
    rw [EthPool.eb_bufFree_of_ne _ hc, eb_fresh_of_ne ha hc]
  have hfreeUse : ((s.fresh b pool).pool.bufFree b).inuseList = s.pool.inuseList := by
    simp only [EthPool.bufFree, huse, List.erase_cons_head]
  cases ht with
  | idle | dropped => exact h.of_touched ha rfl hfree (fun c _ hc => hfreeUse ▸ hc) fun _ _ => rfl
  | closed | lost | gaveUp => exact absurd rfl (hn _)
  | queued p ps hr ht hps hmap hlen hplain =>
    obtain ⟨hf, -, -⟩ := ht.tx
    have hlt := htotal hr ((txQueues_iff hps).mpr ⟨hmap, hlen, hplain⟩)
    intro f hfm
    rcases List.mem_append.mp hfm with hfm | hfm
    · -- an older frame
      obtain ⟨hin, hok⟩ := h f hfm
      have hne := ne_of_bufAlloc ha hin
      refine ⟨?_, hok.congr ?_ (Function.update_of_ne hne _ _)⟩
      · simp only [EthPool.inuseList_setEb, huse]
        exact List.mem_cons_of_mem b hin
      · simp only [EthPool.eb_setEb_of_ne _ hne, eb_fresh_of_ne ha hne]
    · obtain rfl := List.mem_singleton.mp hfm
      refine ⟨?_, frameOk_of_total_lt (s.sec b) hf hps hlen hlt ?_ ?_ ?_⟩
      · simp only [EthPool.inuseList_setEb, huse]
        exact List.mem_cons_self
      · simp only [EthPool.eb_setEb_self]
      · simp only [EthPool.eb_setEb_self]
      · exact Function.update_self _ _ _

/-- A chain that is queued makes a frame. -/
theorem exists_frame_of_queues (ht : TxTurn env nw s b pool noError buf n s')
    (hq : TxQueues env nw buf) :
    ∃ f ∈ s'.frames, iovLen (f.chain.map (·.iov)) = buf.inIovs.total := by
  cases ht with
  | idle hr | closed hr => exact absurd hr (by decide)
  | lost hr => exact absurd rfl hr
  | gaveUp r hr ht hno => exact absurd hq hno
  | dropped hr ht hdrop =>
    obtain ⟨p, ps, hps, -, hlen, -⟩ := hq
    exact absurd hlen ((txDrops_iff hps).mp hdrop).2
  | queued p ps hr ht hps hmap hlen hplain =>
    refine ⟨_, List.mem_append_right _ (List.mem_singleton_self _), ?_⟩
    rw [VqueueIovs.total, hps]
    exact iovLen_txIovs env (p :: ps)

/-- Frames of a batch stay in the array. -/
theorem frames_turn {ret : ℤ} (ht : TxTurn env nw s b pool ret buf n s') {f : Frame}
    (hf : f ∈ s.frames) : f ∈ s'.frames := by
  cases ht with
  | queued => exact List.mem_append_left _ hf
  | _ => exact hf

end Turn

/-- A chain that some iteration queues has its frame in the array when the loop is over. -/
theorem exists_frame_of_visit {env : Env} {nw : ℕ → Byte} {as : List ℕ} {s₀ u : TxState} {k : ℕ}
    {o : Option ℤ} {buf : VqueueBuf} (hv : Visits (txBody env nw) as s₀ k u)
    (hloop : batch (txBody env nw) as s₀ = .ok (o, s)) (hreach : TxReaches u buf)
    (hq : TxQueues env nw buf) :
    ∃ f ∈ s.frames, iovLen (f.chain.map (·.iov)) = buf.inIovs.total := by
  obtain ⟨n, u', hu⟩ := body_ok_of_visit hv hloop
  obtain ⟨b, pool, ret, buf', vq, -, hget, ht⟩ := txBody_turn hu
  obtain ⟨vq', hget'⟩ := hreach.chain
  rw [hget] at hget'
  cases hget'
  obtain ⟨f, hf, hlen⟩ := exists_frame_of_queues ht hq
  refine ⟨f, batch_of_visit (Q := fun t => f ∈ t.frames) hv hu hf ?_ hloop, hlen⟩
  intro v j n v' hfv hb
  obtain ⟨b, pool, ret, buf, vq, -, -, ht⟩ := txBody_turn hb
  exact frames_turn ht hfv

/-! ## The call -/

/-- The frames a call handed to the router are in order. -/
def Confined (w w' : Net M) : Prop :=
  ∃ fs, w'.handed = w.handed ++ fs ∧ ∀ f ∈ fs, FrameOk w.nw w'.pool w'.sec f

theorem confined_txEnd_iff {w w' : Net M} {r : ℤ} (h : txEnd w (none, s) = .ok (r, w')) :
    Confined w w' ↔ ∀ f ∈ s.frames, FrameOk w.nw s.pool s.sec f := by
  obtain ⟨-, -, hh, hp, hs⟩ := txEnd_eq_ok h
  rw [if_pos rfl] at hh
  constructor
  · rintro ⟨fs, hfs, hok⟩
    rw [hh, List.append_cancel_left_eq] at hfs
    rw [← hp, ← hs, hfs]
    exact hok
  · intro hok
    exact ⟨s.frames, hh, hp ▸ hs ▸ hok⟩

end TrustedGateway
