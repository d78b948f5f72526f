import Mathlib.Data.List.ReduceOption
import TrustedGateway.Fec.TxOwnership
import TrustedGateway.VirtioNet.Receive
import TrustedGateway.Vnic

/-!
# What the transmit handlers take

`router_pktq_tx` passes the contiguous part of an egress queue to the transmit handler of the
interface and drops as many entries as the handler says.  This is right if a handler takes a
prefix of what it is given and says how long it is.

Both handlers are loops that count the packets they took and break at the first one they cannot
take.  `virtio_net_receive` gives every packet it counts back to the pool; `fec_xmit_handler` frees
it or stores it in the transmit ring.  The packet at which the loop of the virtual NIC breaks may
have been linearized by then.
-/

namespace TrustedGateway

open BatchLoop RingWindow

/-! ## Linearizing -/

/-- The header of a chained buffer after its segments were copied into it. -/
def Linearized (e e' : EthBuf) : Prop :=
  e.next ≠ none ∧ ∃ n, e' = { e with dataLen := e.dataLen + n, next := none }

/-- The two lists of the pool are the same. -/
def SameLists (p p' : EthPool) : Prop := p'.freeList = p.freeList ∧ p'.inuseList = p.inuseList

theorem SameLists.bufFree {p p' : EthPool} (h : SameLists p p') (b : BufId) :
    SameLists (p.bufFree b) (p'.bufFree b) := by
  simp only [SameLists, EthPool.bufFree, h.1, h.2, and_self]

/-- What linearizing the buffer `b` comes to. -/
structure LinearizesTo (p p' : EthPool) (sec sec' : SecMem) (b : BufId) : Prop where
  lists : SameLists p p'
  frame : ∀ c, c ≠ b → p'.eb c = p.eb c ∧ sec' c = sec c
  done : (p' = p ∧ sec' = sec) ∨ Linearized (p.eb b) (p'.eb b)

theorem ethbufLinearize_to {p p' : EthPool} {sec sec' : SecMem} {b : BufId} {ret : ℤ}
    (h : ethbufLinearize p sec b = .ok (ret, p', sec')) : LinearizesTo p p' sec sec' b := by
  rcases ethbufLinearize_cases p b with ⟨r, hr⟩ | ⟨n, fuel, rest, hn, -, hr⟩
  · rw [hr sec] at h
    cases r with
    | error a => cases h
    | ok r =>
      cases h
      exact ⟨⟨rfl, rfl⟩, fun _ _ => ⟨rfl, rfl⟩, .inl ⟨rfl, rfl⟩⟩
  · rw [hr sec] at h
    cases hcopy : linearizeCopy p.eb b rest (linearizeStart (p.eb b)) sec with
    | error a => rw [hcopy] at h; cases h
    | ok sec₁ =>
      rw [hcopy] at h
      cases h
      refine ⟨⟨rfl, rfl⟩, fun c hc => ⟨?_, linearizeCopy_frame hc hcopy⟩, .inr ⟨?_, ?_⟩⟩
      · exact EthPool.eb_setEb_of_ne p hc _
      · rw [hn]
        exact Option.some_ne_none n
      · exact ⟨_, EthPool.eb_setEb_self p b _⟩

/-! ## The loop of `virtio_net_receive` -/

variable {M : Type} {env : Env}

/-- The buffers an iteration gives back to the pool: a packet that cannot be used, or one that was
delivered. -/
def rxFrees (env : Env) (s : RxState) : Option BufId → List BufId
  | none => []
  | some b =>
    match ethbufLinearize s.pool s.sec b with
    | .error _ => []
    | .ok (ret, pool, sec) =>
      if ret ≠ 0 then [b]
      else if (pool.eb b).dataLen = 0 then [b]
      else
        match vqueueGetAvailBuf s.vq (VqueueBuf.empty 0 maxRxIovs) with
        | .error _ => []
        | .ok (ret, buf, _) =>
          if ret ≠ noError then []
          else if (rxFill env s.vq.lastAvailIdx buf (pool.eb b) (sec b) s.nw).ok then [b]
          else []

/-- The loop has taken the entries `done` of a window, starting with the pool `pool₀` and the bytes
`sec₀`, and left `todo`.  Only the first entry it left may have been linearized. -/
structure RxTook (pool₀ : EthPool) (sec₀ : SecMem) (done todo : List (Option BufId)) (s : RxState)
    (frees : List BufId) : Prop where
  processed : s.processed = done.length
  order : frees = done.reduceOption
  lists : SameLists (pool₀.bufFreeAll frees) s.pool
  frame : ∀ c, some c ∉ done → todo.head? ≠ some (some c) →
    s.pool.eb c = pool₀.eb c ∧ s.sec c = sec₀ c
  next : ∀ c, some c ∉ done → todo.head? = some (some c) →
    (s.pool.eb c = pool₀.eb c ∧ s.sec c = sec₀ c) ∨ Linearized (pool₀.eb c) (s.pool.eb c)
  unchained : ∀ c, (pool₀.eb c).next = none → (s.pool.eb c).next = none
  released : (∀ c, some c ∈ done ++ todo.take 1 → (pool₀.eb c).next = none) →
    s.pool.released = pool₀.released

namespace RxTook

variable {pool₀ : EthPool} {sec₀ : SecMem} {done todo : List (Option BufId)} {s : RxState}
  {frees : List BufId}

theorem start (w : Net M) : RxTook w.pool w.sec [] [] w.rxStart [] where
  processed := rfl
  order := rfl
  lists := ⟨rfl, rfl⟩
  frame := fun _ _ _ => ⟨rfl, rfl⟩
  next := by simp
  unchained := fun _ h => h
  released := fun _ => rfl

/-- Entries that were not looked at. -/
theorem rest (h : RxTook pool₀ sec₀ done [] s frees) (todo : List (Option BufId)) :
    RxTook pool₀ sec₀ done todo s frees where
  processed := h.processed
  order := h.order
  lists := h.lists
  frame := fun c hc _ => h.frame c hc (by simp)
  next := fun c hc _ => .inl (h.frame c hc (by simp))
  unchained := h.unchained
  released := fun hall => h.released fun c hc => hall c (List.mem_append_left _ (by simpa using hc))

/-- A missing packet is counted. -/
theorem skip (h : RxTook pool₀ sec₀ done [] s frees) :
    RxTook pool₀ sec₀ (done ++ [none]) [] { s with processed := s.processed + 1 } frees where
  processed := by simp [h.processed]
  order := by simp [h.order, List.reduceOption_append]
  lists := h.lists
  frame := fun c hc _ => h.frame c (by simpa using hc) (by simp)
  next := by simp
  unchained := h.unchained
  released := fun hall => h.released fun c hc => hall c (by simpa using hc)

variable {pool : EthPool} {sec : SecMem} {b : BufId}

section

variable (h : RxTook pool₀ sec₀ done [] s frees) (hl : LinearizesTo s.pool pool s.sec sec b)
include h hl

/-- Linearizing keeps packets unchained, and leaves the others alone. -/
theorem linearize_unchained :
    (∀ c, (pool₀.eb c).next = none → (pool.eb c).next = none) ∧
      ((pool₀.eb b).next = none → pool.released = s.pool.released) := by
  constructor
  · intro c hc
    by_cases hcb : c = b
    · subst hcb
      rcases hl.done with ⟨rfl, -⟩ | ⟨-, n, he⟩
      · exact h.unchained c hc
      · rw [he]
    · rw [(hl.frame c hcb).1]
      exact h.unchained c hc
  · intro hb
    rcases hl.done with ⟨rfl, -⟩ | ⟨hne, -⟩
    · rfl
    · exact absurd (h.unchained b hb) hne

/-- A packet is given back to the pool and counted. -/
theorem take {t : RxState} (hpool : t.pool = pool.bufFree b) (hsec : t.sec = sec)
    (hprocessed : t.processed = s.processed + 1) :
    RxTook pool₀ sec₀ (done ++ [some b]) [] t (frees ++ [b]) where
  processed := by simp [hprocessed, h.processed]
  order := by simp [h.order, List.reduceOption_append]
  lists := by
    have hall : pool₀.bufFreeAll (frees ++ [b]) = (pool₀.bufFreeAll frees).bufFree b := by
      simp [EthPool.bufFreeAll]
    rw [hall, hpool]
    have hsame : SameLists (pool₀.bufFreeAll frees) pool :=
      ⟨hl.lists.1.trans h.lists.1, hl.lists.2.trans h.lists.2⟩
    exact hsame.bufFree b
  frame := by
    intro c hc _
    simp only [List.mem_append, List.mem_singleton, Option.some.injEq, not_or] at hc
    have hs := h.frame c hc.1 (by simp)
    have hb := hl.frame c hc.2
    rw [hpool, hsec, EthPool.eb_bufFree_of_ne _ hc.2]
    exact ⟨hb.1.trans hs.1, hb.2.trans hs.2⟩
  next := by simp
  unchained := by
    intro c hc
    have hnone := (h.linearize_unchained hl).1 c hc
    rw [hpool]
    by_cases hcb : c = b
    · rw [hcb] at hnone ⊢
      rw [EthPool.eb_bufFree_self]
      exact hnone
    · rw [EthPool.eb_bufFree_of_ne _ hcb]
      exact hnone
  released := by
    intro hall
    rw [hpool]
    show pool.released = _
    rw [(h.linearize_unchained hl).2 (hall b (by simp))]
    refine h.released fun c hc => hall c ?_
    rw [List.take_nil, List.append_nil] at hc ⊢
    exact List.mem_append_left _ hc

/-- A packet that is left behind, whatever was done to it before. -/
theorem leave {t : RxState} (hpool : t.pool = pool) (hsec : t.sec = sec)
    (hprocessed : t.processed = s.processed) (todo : List (Option BufId)) :
    RxTook pool₀ sec₀ done (some b :: todo) t frees where
  processed := hprocessed.trans h.processed
  order := h.order
  lists := by
    rw [hpool]
    exact ⟨hl.lists.1.trans h.lists.1, hl.lists.2.trans h.lists.2⟩
  frame := by
    intro c hc hne
    have hcb : c ≠ b := by
      rintro rfl
      exact hne rfl
    have hs := h.frame c hc (by simp)
    have hb := hl.frame c hcb
    rw [hpool, hsec]
    exact ⟨hb.1.trans hs.1, hb.2.trans hs.2⟩
  next := by
    intro c hc heq
    obtain rfl : b = c := Option.some.inj (Option.some.inj heq)
    have hs := h.frame b hc (by simp)
    rw [hpool, hsec, ← hs.1, ← hs.2]
    rcases hl.done with ⟨rfl, rfl⟩ | hlin
    · exact .inl ⟨rfl, rfl⟩
    · exact .inr hlin
  unchained := by
    rw [hpool]
    exact (h.linearize_unchained hl).1
  released := by
    intro hall
    rw [hpool, (h.linearize_unchained hl).2 (hall b (by simp))]
    refine h.released fun c hc => hall c ?_
    rw [List.take_nil, List.append_nil] at hc
    exact List.mem_append_left _ hc

end

/-- **One iteration** takes its entry, or leaves the loop and the entry. -/
theorem step {rxBurst : Word} {t : RxState} {ob : Option BufId} {n : Next ℤ}
    (h : RxTook pool₀ sec₀ done [] s frees) (hb : rxBody env rxBurst s ob = .ok (n, t)) :
    RxTook pool₀ sec₀ (done ++ [ob]) [] t (frees ++ rxFrees env s ob) ∨
      n ≠ .cont ∧ ∀ todo, RxTook pool₀ sec₀ done (ob :: todo) t (frees ++ rxFrees env s ob) := by
  cases ob with
  | none =>
    cases hb
    rw [rxFrees, List.append_nil]
    exact .inl h.skip
  | some b =>
    simp only [rxBody, rxPrepare] at hb
    simp only [rxFrees]
    rcases hlin : ethbufLinearize s.pool s.sec b with a | ⟨ret, pool, sec⟩ <;>
      simp only [hlin] at hb ⊢
    · cases hb
    have hl := ethbufLinearize_to hlin
    by_cases hret : ret ≠ 0
    · simp only [if_pos hret] at hb ⊢
      cases hb
      exact .inl (h.take hl rfl rfl rfl)
    simp only [if_neg hret] at hb ⊢
    by_cases hlen : (pool.eb b).dataLen = 0
    · simp only [if_pos hlen] at hb ⊢
      cases hb
      exact .inl (h.take hl rfl rfl rfl)
    simp only [if_neg hlen, rxDeliver] at hb ⊢
    rcases hq : vqueueGetAvailBuf s.vq (VqueueBuf.empty 0 maxRxIovs) with a | ⟨ret, buf, vq⟩ <;>
      simp only [hq] at hb ⊢
    · cases hb
    by_cases hne : ret ≠ noError
    · simp only [if_pos hne, List.append_nil] at hb ⊢
      cases hb
      exact .inr ⟨by simp, h.leave hl rfl rfl rfl⟩
    simp only [if_neg hne] at hb ⊢
    split at hb
    · cases hb
    by_cases hok : (rxFill env s.vq.lastAvailIdx buf (pool.eb b) (sec b) s.nw).ok
    · simp only [if_pos hok] at hb ⊢
      cases hb
      exact .inl (h.take hl rfl rfl rfl)
    · simp only [if_neg hok, List.append_nil] at hb ⊢
      cases hb
      exact .inr ⟨by simp, h.leave hl rfl rfl rfl⟩

end RxTook

/-! ## The handler of the virtual NIC -/

/-- The buffers a call of `virtio_net_receive` gives back to the pool. -/
def virtioNetReceiveFrees (env : Env) (w : Net M) (ethbufs : List (Option BufId)) : List BufId :=
  if ¬ virtioNetCanReceive w.dev then []
  else
    match vqueueNumOfAvailBuf (w.dev.vdev.vq 0) with
    | .error _ => []
    | .ok space =>
      if space = 0 then []
      else if space.toNat < virtioNetQueueDefaultSize / 2 then []
      else
        match batch (withLog (rxFrees env) (rxBody env w.dev.vnet.rxBurst)) ethbufs
            (w.rxStart, []) with
        | .error _ => []
        | .ok (_, _, frees) => frees

/-- A handler that was given the entries `bufs` and answered `r` took the first `r` of them and no
other: each was given back to the pool once, in this order, and nothing else was.  Of the packets
it left, only the first may have been linearized. -/
structure VnicTakes (w w' : Net M) (bufs : List (Option BufId)) (r : ℤ) (frees : List BufId) :
    Prop where
  refused : r < 0 → w' = w
  le : r ≤ bufs.length
  order : frees = (bufs.take r.toNat).reduceOption
  lists : SameLists (w.pool.bufFreeAll frees) w'.pool
  frame : ∀ c, some c ∉ bufs.take (r.toNat + 1) →
    w'.pool.eb c = w.pool.eb c ∧ w'.sec c = w.sec c
  next : ∀ c, bufs[r.toNat]? = some (some c) → some c ∉ bufs.take r.toNat →
    (w'.pool.eb c = w.pool.eb c ∧ w'.sec c = w.sec c) ∨ Linearized (w.pool.eb c) (w'.pool.eb c)
  released : (∀ c, some c ∈ bufs.take (r.toNat + 1) → (w.pool.eb c).next = none) →
    w'.pool.released = w.pool.released

namespace VnicTakes

variable {w w' : Net M} {bufs : List (Option BufId)} {r : ℤ}

/-- A handler that did nothing took nothing. -/
theorem of_same (w : Net M) (bufs : List (Option BufId)) (hr : r ≤ 0) :
    VnicTakes w w bufs r [] where
  refused := fun _ => rfl
  le := by omega
  order := by simp [Int.toNat_of_nonpos hr]
  lists := ⟨rfl, rfl⟩
  frame := fun _ _ => ⟨rfl, rfl⟩
  next := fun _ _ _ => .inl ⟨rfl, rfl⟩
  released := fun _ => rfl

theorem of_took {done todo : List (Option BufId)} {s : RxState} {frees : List BufId}
    (h : RxTook w.pool w.sec done todo s frees) (hpool : w'.pool = s.pool) (hsec : w'.sec = s.sec) :
    VnicTakes w w' (done ++ todo) s.processed frees := by
  have hlen : (s.processed : ℤ).toNat = done.length := by rw [Int.toNat_natCast, h.processed]
  have htake : (done ++ todo).take (done.length + 1) = done ++ todo.take 1 := by
    rw [List.take_append, Nat.add_sub_cancel_left, List.take_of_length_le (Nat.le_succ _)]
  refine ⟨fun hneg => ?_, ?_, ?_, ?_, fun c hc => ?_, fun c hget hc => ?_, fun hall => ?_⟩
  · omega
  · rw [h.processed, List.length_append]
    omega
  · rw [hlen, List.take_left, h.order]
  · rw [hpool]
    exact h.lists
  · rw [hlen, htake, List.mem_append, not_or] at hc
    rw [hpool, hsec]
    refine h.frame c hc.1 fun hhead => hc.2 ?_
    cases todo with
    | nil => cases hhead
    | cons a todo =>
      cases hhead
      exact List.mem_singleton.mpr rfl
  · rw [hlen, List.getElem?_append_right le_rfl, Nat.sub_self, ← List.head?_eq_getElem?] at hget
    rw [hlen, List.take_left] at hc
    rw [hpool, hsec]
    exact h.next c hc hget
  · rw [hlen, htake] at hall
    rw [hpool]
    exact h.released hall

end VnicTakes

variable {w w' : Net M} {bufs : List (Option BufId)} {r : ℤ}

/-- **The loop** takes a prefix. -/
theorem rxTook_loop {o : Option ℤ} {s : RxState} {frees : List BufId}
    (h : batch (withLog (rxFrees env) (rxBody env w.dev.vnet.rxBurst)) bufs (w.rxStart, []) =
      .ok (o, s, frees)) :
    ∃ done todo, bufs = done ++ todo ∧ RxTook w.pool w.sec done todo s frees := by
  refine batch_split
    (P := fun done (p : RxState × List BufId) => RxTook w.pool w.sec done [] p.1 p.2)
    (Q := fun done todo p => RxTook w.pool w.sec done todo p.1 p.2)
    ?_ ?_ ?_ bufs (w.rxStart, []) (.start w) h
  · intro done p hp
    exact hp
  · intro done ob p p' hp hb
    obtain ⟨hbody, hlog⟩ := withLog_eq_ok hb
    rw [hlog]
    exact (hp.step hbody).resolve_right fun hleft => hleft.1 rfl
  · intro done ob todo p n p' _ hp hb
    obtain ⟨hbody, hlog⟩ := withLog_eq_ok hb
    rw [hlog]
    rcases hp.step hbody with htook | ⟨-, hleft⟩
    · exact .inr (htook.rest todo)
    · exact .inl (hleft todo)

/-- `virtio_net_receive` takes a prefix. -/
theorem virtioNetReceive_takes (h : virtioNetReceive env w bufs = .ok (r, w')) :
    VnicTakes w w' bufs r (virtioNetReceiveFrees env w bufs) := by
  simp only [virtioNetReceive] at h
  simp only [virtioNetReceiveFrees]
  by_cases hcan : virtioNetCanReceive w.dev
  case neg =>
    simp only [hcan, not_false_eq_true, if_true] at h ⊢
    cases h
    exact .of_same w bufs (by decide)
  simp only [hcan, not_true, if_false] at h ⊢
  cases hspace : vqueueNumOfAvailBuf (w.dev.vdev.vq 0) with
  | error a =>
    rw [hspace] at h
    cases h
  | ok space =>
    simp only [hspace] at h ⊢
    by_cases hzero : space = 0
    · simp only [if_pos hzero] at h ⊢
      cases h
      exact .of_same w bufs (by decide)
    by_cases hfew : space.toNat < virtioNetQueueDefaultSize / 2
    · simp only [if_neg hzero, if_pos hfew] at h ⊢
      cases h
      exact .of_same w bufs (by decide)
    simp only [if_neg hzero, if_neg hfew] at h ⊢
    rw [← batch_withLog (rxFrees env) bufs w.rxStart []] at h
    rcases hloop : batch (withLog (rxFrees env) (rxBody env w.dev.vnet.rxBurst)) bufs
      (w.rxStart, []) with a | ⟨o, s, frees⟩ <;> rw [hloop] at h
    · cases h
    obtain ⟨done, todo, rfl, htook⟩ := rxTook_loop hloop
    obtain ⟨rfl, d, rfl, -⟩ := kicked_eq_ok h
    exact .of_took htook rfl rfl

/-! ## The handler of the FEC -/

/-- One iteration of `fec_xmit_handler`, for the number of frames taken so far.  `env` says what
the address translation and the cache answer for each of them.  A missing frame is dereferenced. -/
def fecXmitBody (d : TxDev) (env : ℕ → TxEnv) (s : ℕ × Txq) :
    Option Skb → Except Abort (Next Empty × (ℕ × Txq))
  | none => .error .nullDeref
  | some skb =>
    match fecEnetStartXmit d (env s.1) s.2 skb with
    | .error a => .error a
    | .ok (.ok, q) => .ok (.cont, s.1 + 1, q)
    | .ok (.busy, q) => .ok (.brk, s.1, q)

theorem fecXmitBody_some (d : TxDev) (env : ℕ → TxEnv) (s : ℕ × Txq) (skb : Skb) :
    fecXmitBody d env s (some skb) =
      match fecEnetStartXmit d (env s.1) s.2 skb with
      | .error a => .error a
      | .ok (.ok, q) => .ok (.cont, s.1 + 1, q)
      | .ok (.busy, q) => .ok (.brk, s.1, q) := by
  exact rfl

/-- `fec_xmit_handler`. -/
def fecXmitHandler (d : TxDev) (env : ℕ → TxEnv) (q : Txq) (pkts : List (Option Skb)) :
    Except Abort (ℤ × Txq) :=
  match batch (fecXmitBody d env) pkts (0, q) with
  | .error a => .error a
  | .ok (_, processed, q) => .ok (processed, q)

/-- The operation that changes the owner of a frame: it goes back to the pool, or into the ring. -/
inductive TakesOver : Option Skb → TxOp → Prop
  | kfree (skb : Skb) : TakesOver (some skb) (.kfree skb)
  | trigger (i : ℕ) (skb : Skb) : TakesOver (some skb) (.trigger i skb)

/-- The frame an operation puts into the ring. -/
def TxOp.stored? : TxOp → Option Skb
  | trigger _ skb => some skb
  | _ => none

/-- The handler took the frames `done`: one operation for each, in this order, and no other.  The
ring holds those that were not freed, behind the frames it held before. -/
structure FecTook (d : TxDev) (q : Txq) (done : List (Option Skb)) (ops : List TxOp) (q' : Txq) :
    Prop where
  log : q'.log = q.log ++ ops
  each : List.Forall₂ TakesOver done ops
  ring : ∀ p xs, Owns d q p xs → Owns d q' p (xs ++ ops.filterMap TxOp.stored?)
  slots : ∀ i, q'.txSkbuff i = q.txSkbuff i ∨ q'.txSkbuff i ∈ done

namespace FecTook

variable {d : TxDev} {q q₁ q₂ : Txq} {done : List (Option Skb)} {ops : List TxOp} {skb : Skb}

theorem start (d : TxDev) (q : Txq) : FecTook d q [] [] q where
  log := (List.append_nil _).symm
  each := .nil
  ring := fun p xs h => by simpa using h
  slots := fun _ => .inl rfl

/-- The queue may be stopped afterwards. -/
theorem setStopped (h : FecTook d q done ops q₁) (b : Bool) :
    FecTook d q done ops (q₁.setStopped b) where
  log := h.log
  each := h.each
  ring := fun p xs hown => (h.ring p xs hown).congr rfl rfl rfl rfl
  slots := h.slots

theorem kfree (h : FecTook d q done ops q₁) :
    FecTook d q (done ++ [some skb]) (ops ++ [.kfree skb]) (q₁.kfree skb) where
  log := by
    show q₁.log ++ [_] = _
    rw [h.log, List.append_assoc]
  each := List.rel_append h.each (.cons (.kfree skb) .nil)
  ring := by
    intro p xs hown
    rw [List.filterMap_append, List.filterMap_cons_none rfl, List.filterMap_nil, List.append_nil]
    exact (h.ring p xs hown).kfree
  slots := fun i => (h.slots i).imp_right (List.mem_append_left _)

theorem trigger (h : FecTook d q done ops q₁)
    (hfree : 1 ≤ fecEnetGetFreeTxdescNum d.bd q₁.pendingTx q₁.cur) (b : Bufdesc) (sc : Half) :
    FecTook d q (done ++ [some skb]) (ops ++ [.trigger (txIndex d q₁.cur) skb])
      ((fecTriggerTxFill (q₁.setDesc q₁.cur b) sc q₁.cur skb (txIndex d q₁.cur)).setCur
        (fecEnetGetNextdesc q₁.cur d.bd)) where
  log := by
    show q₁.log ++ [_] = _
    rw [h.log, List.append_assoc]
  each := List.rel_append h.each (.cons (.trigger _ skb) .nil)
  ring := by
    intro p xs hown
    have ho := h.ring p xs hown
    rw [ho.free] at hfree
    rw [List.filterMap_append, ← List.append_assoc]
    exact ho.trigger (by omega) b sc
  slots := by
    intro i
    have hstore : ((fecTriggerTxFill (q₁.setDesc q₁.cur b) sc q₁.cur skb (txIndex d q₁.cur)).setCur
        (fecEnetGetNextdesc q₁.cur d.bd)).txSkbuff i =
          Function.update q₁.txSkbuff (txIndex d q₁.cur) (some skb) i := rfl
    rw [hstore]
    by_cases hi : i = txIndex d q₁.cur
    · subst hi
      rw [Function.update_self]
      exact .inr (by simp)
    · rw [Function.update_of_ne hi]
      exact (h.slots i).imp_right (List.mem_append_left _)

/-- A submission that is not refused takes its frame. -/
theorem submit (h : FecTook d q done ops q₁) (hs : SubmitsTo d q₁ skb .ok q₂) :
    ∃ op, FecTook d q (done ++ [some skb]) (ops ++ [op]) q₂ := by
  cases hs with
  | kfree => exact ⟨_, h.kfree⟩
  | trigger hfree b => exact ⟨_, h.trigger hfree b _⟩

theorem startXmit (h : FecTook d q done ops q₁) {env : TxEnv}
    (hs : fecEnetStartXmit d env q₁ skb = .ok (.ok, q₂)) :
    ∃ op, FecTook d q (done ++ [some skb]) (ops ++ [op]) q₂ := by
  obtain ⟨q₃, hsub, rfl | rfl⟩ := startXmit_of_ok d hs
  · exact h.submit hsub
  · obtain ⟨op, htook⟩ := h.submit hsub
    exact ⟨op, htook.setStopped true⟩

end FecTook

variable {d : TxDev} {q q' : Txq}

/-- A refused frame leaves the ring alone. -/
theorem startXmit_busy {env : TxEnv} {skb : Skb}
    (hs : fecEnetStartXmit d env q skb = .ok (.busy, q')) : q' = q := by
  unfold fecEnetStartXmit at hs
  split at hs
  · cases hs
  · rename_i q₁ hsub
    cases hs
    cases submitsTo_of_ok d hsub
    rfl
  · split at hs <;> cases hs

/-- What `fec_xmit_handler` did to the ring when it was given the frames `pkts` and answered
`r`. -/
structure FecTakes (d : TxDev) (q q' : Txq) (pkts : List (Option Skb)) (r : ℤ) : Prop where
  nonneg : 0 ≤ r
  le : r ≤ pkts.length
  took : ∃ ops, FecTook d q (pkts.take r.toNat) ops q'

/-- **One iteration** of `fec_xmit_handler` takes its frame, or leaves the loop and the ring. -/
theorem fecXmitBody_takes {envs : ℕ → TxEnv} {done : List (Option Skb)} {s s' : ℕ × Txq}
    {o : Option Skb} {n : Next Empty} (h : s.1 = done.length ∧ ∃ ops, FecTook d q done ops s.2)
    (hb : fecXmitBody d envs s o = .ok (n, s')) :
    (n = .cont ∧ s'.1 = (done ++ [o]).length ∧ ∃ ops, FecTook d q (done ++ [o]) ops s'.2) ∨
      (n ≠ .cont ∧ s' = s) := by
  obtain ⟨hk, ops, htook⟩ := h
  cases o with
  | none => cases hb
  | some skb =>
    rw [fecXmitBody_some] at hb
    split at hb
    · cases hb
    · rename_i q₂ hs
      cases hb
      obtain ⟨op, hnext⟩ := htook.startXmit hs
      exact .inl ⟨rfl, by simp [hk], _, hnext⟩
    · rename_i q₂ hs
      cases hb
      rw [startXmit_busy hs]
      exact .inr ⟨by simp, rfl⟩

/-- `fec_xmit_handler` takes a prefix. -/
theorem fecXmitHandler_takes {envs : ℕ → TxEnv} {pkts : List (Option Skb)}
    (h : fecXmitHandler d envs q pkts = .ok (r, q')) : FecTakes d q q' pkts r := by
  simp only [fecXmitHandler] at h
  split at h
  · cases h
  rename_i o processed q₁ hloop
  cases h
  obtain ⟨done, todo, rfl, hk, ops, htook⟩ : ∃ done todo, pkts = done ++ todo ∧
      processed = done.length ∧ ∃ ops, FecTook d q done ops q' := by
    refine batch_split
      (P := fun done (p : ℕ × Txq) => p.1 = done.length ∧ ∃ ops, FecTook d q done ops p.2)
      (Q := fun done _ p => p.1 = done.length ∧ ∃ ops, FecTook d q done ops p.2)
      ?_ ?_ ?_ pkts (0, q) ⟨rfl, [], .start d q⟩ hloop
    · intro done p hp
      exact hp
    · intro done o p p' hp hb
      rcases fecXmitBody_takes hp hb with ⟨-, hnext⟩ | ⟨hn, -⟩
      · exact hnext
      · exact absurd rfl hn
    · intro done o todo p n p' _ hp hb
      rcases fecXmitBody_takes hp hb with ⟨-, hnext⟩ | ⟨-, rfl⟩
      · exact .inr hnext
      · exact .inl hp
  subst hk
  refine ⟨Int.natCast_nonneg _, by simp, ops, ?_⟩
  rwa [Int.toNat_natCast, List.take_left]

/-! ## The router -/

namespace PktQueue

/-- The entries of a queue, the oldest first. -/
def entries (q : PktQueue) : List (Option BufId) :=
  (List.range q.count).map fun k => q.pkt ((q.nextRead + k) % q.capacity)

/-- The reader is in the ring, and the ring is not overfull. -/
structure Placed (q : PktQueue) : Prop where
  nextRead : q.nextRead < q.capacity
  count : q.count ≤ q.capacity

variable {q : PktQueue}

theorem contigBufs_le (h : q.Placed) :
    q.contigBufs ≤ q.count ∧ q.nextRead + q.contigBufs ≤ q.capacity := by
  have hread := h.nextRead
  simp only [contigBufs, isEmpty, decide_eq_true_eq]
  split
  · omega
  · split <;> omega

/-- The window is the beginning of the entries. -/
theorem window_contigBufs (h : q.Placed) :
    q.window q.contigBufs = q.entries.take q.contigBufs := by
  obtain ⟨hcount, hcap⟩ := contigBufs_le h
  rw [window, entries, ← List.map_take, List.take_range, Nat.min_eq_left hcount]
  refine List.map_congr_left fun k hk => ?_
  rw [Nat.mod_eq_of_lt (by have := List.mem_range.mp hk; omega)]

/-- Dropping drops the oldest entries. -/
theorem entries_dropBufs (q : PktQueue) (num : ℕ) :
    (q.dropBufs num).entries = q.entries.drop num := by
  simp only [entries, dropBufs, ← List.map_drop]
  refine List.ext_getElem (by simp) fun k hk hk' => ?_
  simp only [List.getElem_map, List.getElem_range, List.getElem_drop, Nat.mod_add_mod,
    Nat.add_assoc]

end PktQueue

section Router

variable {σ : Type}

/-- `router_pktq_tx` for an interface in state `s` with this transmit handler.  `stopped` is the
flag of the egress queue, which only matters for an external interface. -/
def routerPktqTxWith (stopped : Bool)
    (xmitHandler : List (Option BufId) → Except Abort (ℤ × σ)) (s : σ) (pq : PktQueue) :
    Except Abort (ℤ × σ × PktQueue) :=
  if stopped then .ok (0, s, pq)
  else
    let pktburst := pq.contigBufs
    if pktburst = 0 then .ok (0, s, pq)
    else
      match xmitHandler (pq.window pktburst) with
      | .error a => .error a
      | .ok (sent, s) => .ok (sent, s, if sent ≤ 0 then pq else pq.dropBufs sent.toNat)

/-- The router hands the oldest entries over and drops as many as the handler says. -/
theorem routerPktqTxWith_drops {stopped : Bool}
    {xmitHandler : List (Option BufId) → Except Abort (ℤ × σ)} {s s' : σ} {pq pq' : PktQueue}
    {r : ℤ} (h : routerPktqTxWith stopped xmitHandler s pq = .ok (r, s', pq')) :
    pq'.entries = pq.entries.drop r.toNat ∧
      ((r = 0 ∧ s' = s ∧ (stopped = true ∨ pq.contigBufs = 0)) ∨
        pq.contigBufs ≠ 0 ∧ xmitHandler (pq.window pq.contigBufs) = .ok (r, s')) := by
  simp only [routerPktqTxWith] at h
  split at h
  · rename_i hstop
    cases h
    exact ⟨rfl, .inl ⟨rfl, rfl, .inl hstop⟩⟩
  split at h
  · rename_i hempty
    cases h
    exact ⟨rfl, .inl ⟨rfl, rfl, .inr hempty⟩⟩
  rename_i hsome
  split at h
  · cases h
  · rename_i sent s₁ hsent
    cases h
    refine ⟨?_, .inr ⟨hsome, hsent⟩⟩
    split
    · rename_i hle
      rw [Int.toNat_of_nonpos hle]
      rfl
    · exact pq.entries_dropBufs _

end Router

/-- The buffers `vnic_xmit_handler` gives back to the pool. -/
def vnicXmitFrees (env : Env) (w : Net M) (pkts : List (Option BufId)) : List BufId :=
  if (w.dev.vdev.vq 1).vringAddr = 0 then [] else virtioNetReceiveFrees env w pkts

theorem vnicXmitHandler_takes (h : vnicXmitHandler env w bufs = .ok (r, w')) :
    VnicTakes w w' bufs r (vnicXmitFrees env w bufs) := by
  simp only [vnicXmitHandler] at h
  simp only [vnicXmitFrees]
  split at h
  · rename_i hdown
    cases h
    rw [if_pos hdown]
    exact .of_same w bufs le_rfl
  · rename_i hup
    rw [if_neg hup]
    exact virtioNetReceive_takes h

theorem routerPktqTx_eq (env : Env) (w : Net M) (pq : PktQueue) :
    routerPktqTx env w pq = routerPktqTxWith false (vnicXmitHandler env w) w pq := by
  simp only [routerPktqTx, routerPktqTxWith, Bool.false_eq_true, if_false]
  cases vnicXmitHandler env w (pq.window pq.contigBufs) <;> rfl

/-- The buffers `router_pktq_tx` makes the virtual NIC give back to the pool. -/
def routerPktqTxFrees (env : Env) (w : Net M) (pq : PktQueue) : List BufId :=
  if pq.contigBufs = 0 then [] else vnicXmitFrees env w (pq.window pq.contigBufs)

/-- `router_pktq_tx` of the FEC; `skb` looks a buffer up. -/
def fecRouterPktqTx (d : TxDev) (envs : ℕ → TxEnv) (skb : BufId → Skb) (q : Txq)
    (pq : PktQueue) : Except Abort (ℤ × Txq × PktQueue) :=
  routerPktqTxWith q.stopped (fun pkts => fecXmitHandler d envs q (pkts.map (Option.map skb))) q pq

/-- What is said about a window is said about all entries of the queue. -/
theorem VnicTakes.append {frees : List BufId} (h : VnicTakes w w' bufs r frees)
    (more : List (Option BufId)) : VnicTakes w w' (bufs ++ more) r frees := by
  have hle : r.toNat ≤ bufs.length := by
    have := h.le
    omega
  have htake : (bufs ++ more).take r.toNat = bufs.take r.toNat := List.take_append_of_le_length hle
  have hsub : ∀ ob, ob ∈ bufs.take (r.toNat + 1) → ob ∈ (bufs ++ more).take (r.toNat + 1) := by
    intro ob hob
    rw [List.take_append]
    exact List.mem_append_left _ hob
  refine ⟨h.refused, ?_, ?_, h.lists, fun c hc => ?_, fun c hget hc => ?_, fun hall => ?_⟩
  · have := h.le
    rw [List.length_append]
    omega
  · rw [htake]
    exact h.order
  · exact h.frame c fun hmem => hc (hsub _ hmem)
  · rw [htake] at hc
    rcases Nat.lt_or_ge r.toNat bufs.length with hlt | hge
    · rw [List.getElem?_append_left hlt] at hget
      exact h.next c hget hc
    · refine .inl (h.frame c ?_)
      rw [List.take_of_length_le (by omega)] at hc ⊢
      exact hc
  · exact h.released fun c hc => hall c (hsub _ hc)

theorem FecTakes.append {pkts : List (Option Skb)} (h : FecTakes d q q' pkts r)
    (more : List (Option Skb)) : FecTakes d q q' (pkts ++ more) r := by
  have hle := h.le
  refine ⟨h.nonneg, ?_, ?_⟩
  · rw [List.length_append]
    omega
  · rw [List.take_append_of_le_length (by omega)]
    exact h.took

/-- A running device with a packet in the buffers `0` and `5`, of `60` and `20` bytes. -/
def chainedNet : Net Unit :=
  { Net.running (.offer [⟨0x20000000, 40, vringDescFWrite, 0⟩] 128) .zero with
    pool := { EthPool.sample with
      eb := fun b => ⟨if b = 0 then some 5 else none, rtePtypeL2Mask, 0, 0,
        if b = 0 then 60 else 20, 2, bstgwDefaultBufSize, 0⟩ } }

/-- Two entries of a queue of four, the first of them chained. -/
def chainedQueue : PktQueue := ⟨3, 1, 2, 4, fun k => if k = 3 then some 0 else some 1⟩

end TrustedGateway
