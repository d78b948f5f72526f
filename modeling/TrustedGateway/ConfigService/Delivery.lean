import TrustedGateway.ConfigService.Requests
import Mathlib.Data.List.Chain
import Mathlib.Data.Nat.Digits.Defs

/-!
# What the peer gets to see

Responses reach the TLS connection through one queue.  The invariant of a client's sending side,
`OutInv`, says that what was taken and what is still queued make up all that was ever queued, and
that a block the TLS layer refused is still at the head of the queue.  Every handler keeps it.

What does not hold is that a response carries as many bytes as it announces: `append_resp_queue`
cuts a chain of chunks after its first one, and the list of administrators is such a chain.
-/

namespace TrustedGateway

open StepSystem FlatMemory

theorem intOfSize_of_lt {n : ℕ} (h : n < 2 ^ 31) : intOfSize n = n := by
  unfold intOfSize
  rw [BitVec.toInt_eq_toNat_of_lt (by rw [BitVec.toNat_ofNat]; omega), BitVec.toNat_ofNat]
  congr 1
  omega

/-- What the peer may rely on: the bytes taken are the first of the bytes queued, a refused block
is offered again, a flush that returns zero has written everything, and every response is as
long as it says. -/
structure Delivered (o : Outbox) : Prop where
  inOrder : o.taken <+: o.queued
  retried : o.offers.IsChain fun a b => a.ret < 0 → b.block = a.block
  flushed : ∀ f ∈ o.flushes, f.ret = 0 → f.queue = [] ∧ f.taken = f.queued
  announced : ∀ a ∈ o.responses, a.contentLength = a.bodyBytes

/-- The invariant of the sending side. -/
structure OutInv (o : Outbox) : Prop where
  flow : o.taken ++ o.respBuffer.flatMap RespChunk.rest = o.queued
  small : ∀ c ∈ o.respBuffer, c.buf.length < 2 ^ 31
  retried : o.offers.IsChain fun a b => a.ret < 0 → b.block = a.block
  waiting : ∀ a ∈ o.offers.getLast?, a.ret < 0 →
    ∃ c cs, o.respBuffer = c :: cs ∧ c.rest = a.block ∧ a.block ≠ []
  flushed : ∀ f ∈ o.flushes, f.ret = 0 → f.queue = [] ∧ f.taken = f.queued
  announced : ∀ a ∈ o.responses, a.contentLength = a.bodyBytes

namespace OutInv

variable {o : Outbox}

theorem delivered (h : OutInv o) : Delivered o :=
  ⟨⟨_, h.flow⟩, h.retried, h.flushed, h.announced⟩

theorem init : OutInv Outbox.init := by
  refine ⟨rfl, ?_, List.isChain_nil, ?_, ?_, ?_⟩ <;> simp [Outbox.init]

theorem answered (h : OutInv o) (mallocs : List Bool) (writes : List ℤ) :
    OutInv (o.answered mallocs writes) :=
  ⟨h.flow, h.small, h.retried, h.waiting, h.flushed, h.announced⟩

theorem malloc (h : OutInv o) : OutInv o.malloc.2 := by
  unfold Outbox.malloc
  split <;> exact ⟨h.flow, h.small, h.retried, h.waiting, h.flushed, h.announced⟩

/-- One write of the head of the queue.  `q` is what the caller leaves in the queue afterwards:
the part of the block that was not taken, then the other chunks. -/
theorem sslWrite {c : RespChunk} {cs q : List RespChunk}
    (h : OutInv { o with respBuffer := c :: cs }) (hne : c.rest ≠ [])
    (hq : q.flatMap RespChunk.rest =
      c.rest.drop (Outbox.writeRet o.writes c.rest).toNat ++ cs.flatMap RespChunk.rest)
    (hsmall : ∀ c' ∈ q, c'.buf.length < 2 ^ 31)
    (hkeep : Outbox.writeRet o.writes c.rest < 0 → q = c :: cs) :
    OutInv { (o.sslWrite c.rest).2 with respBuffer := q } := by
  refine ⟨?_, hsmall, ?_, ?_, h.flushed, h.announced⟩
  · have hflow := h.flow
    simp only [List.flatMap_cons] at hflow
    simp only [Outbox.sslWrite]
    rw [hq, List.append_assoc, ← List.append_assoc (List.take _ _), List.take_append_drop, hflow]
  · -- the block before this one, if refused, was the same head of the queue
    refine h.retried.append (List.isChain_singleton _) ?_
    intro a ha b hb hneg
    obtain ⟨c', cs', hqueue, hblock, -⟩ := h.waiting a ha hneg
    obtain ⟨rfl, rfl⟩ := List.cons.inj hqueue
    simp only [List.head?_cons, Option.mem_def, Option.some.injEq] at hb
    rw [← hb]
    exact hblock
  · intro a ha hneg
    simp only [Outbox.sslWrite, List.getLast?_append, List.getLast?_singleton, Option.some_or,
      Option.mem_def, Option.some.injEq] at ha
    subst ha
    exact ⟨c, cs, hkeep hneg, rfl, hne⟩

/-- A chunk of which nothing is left drops out of the queue. -/
theorem skip {c : RespChunk} {cs : List RespChunk} (h : OutInv { o with respBuffer := c :: cs })
    (he : c.rest = []) : OutInv { o with respBuffer := cs } := by
  refine ⟨?_, ?_, h.retried, ?_, h.flushed, h.announced⟩
  · have hflow := h.flow
    simpa only [List.flatMap_cons, he, List.nil_append] using hflow
  · intro c' hc'
    exact h.small c' (List.mem_cons_of_mem _ hc')
  · intro a ha hneg
    obtain ⟨c', cs', hqueue, hblock, hne⟩ := h.waiting a ha hneg
    obtain ⟨rfl, rfl⟩ := List.cons.inj hqueue
    exact absurd (hblock.symm.trans he) hne

end OutInv

theorem RespChunk.length_rest (c : RespChunk) : c.rest.length = c.buf.length - c.offset := by
  unfold RespChunk.rest
  rw [List.length_drop]

variable {body : List RespChunk} {datalen : ℕ} {env : TaEnv} {g : Globals} {o : Outbox}
  {w : ℤ × Outbox}

/-- The loop of the flush keeps the invariant, and leaves an empty queue when it returns zero. -/
theorem OutInv.flushFrom {cs : List RespChunk} (h : OutInv { o with respBuffer := cs })
    (hf : Outbox.flushFrom cs o = .ok w) : OutInv w.2 ∧ (w.1 = 0 → w.2.respBuffer = []) := by
  induction cs generalizing o with
  | nil =>
    cases hf
    exact ⟨h, fun _ => rfl⟩
  | cons c cs ih =>
    have hc : c.buf.length < 2 ^ 31 := h.small c List.mem_cons_self
    have hrest := c.length_rest
    have hint : intOfSize (c.buf.length - c.offset) = c.rest.length := by
      rw [intOfSize_of_lt (by omega), hrest]
    simp only [Outbox.flushFrom, hint] at hf
    split at hf
    · rename_i hpos
      have hne : c.rest ≠ [] := List.ne_nil_of_length_pos (by omega)
      split at hf
      · -- refused: the queue is left as it is
        rename_i hneg
        cases hf
        refine ⟨h.sslWrite hne ?_ h.small fun _ => rfl, fun h0 => ?_⟩
        · have hzero : (Outbox.writeRet o.writes c.rest).toNat = 0 := by
            have hneg' : Outbox.writeRet o.writes c.rest < 0 := hneg
            omega
          rw [hzero]
          rfl
        · exact absurd h0 (ne_of_lt hneg)
      · rename_i hnonneg
        have hnonneg' : ¬ Outbox.writeRet o.writes c.rest < 0 := hnonneg
        split at hf
        · -- taken in part: the offset moves on
          cases hf
          refine ⟨h.sslWrite hne ?_ ?_ fun hn => absurd hn hnonneg', fun h0 => ?_⟩
          · rw [List.flatMap_cons]
            congr 1
            simp only [RespChunk.rest, List.drop_drop]
            rfl
          · intro c' hc'
            rcases List.mem_cons.mp hc' with rfl | hc'
            · exact hc
            · exact h.small c' (List.mem_cons_of_mem _ hc')
          · exact absurd h0 (show sslWantWrite ≠ 0 by decide)
        · rename_i hall
          have hall' : Outbox.writeRet o.writes c.rest = c.rest.length := not_not.mp hall
          split at hf
          · cases hf
          · -- taken as a whole: the chunk drops out
            refine ih (h.sslWrite hne ?_ ?_ fun hn => absurd hn hnonneg') hf
            · rw [hall', Int.toNat_natCast, List.drop_length, List.nil_append]
            · intro c' hc'
              exact h.small c' (List.mem_cons_of_mem _ hc')
    · rename_i hpos
      have he : c.rest = [] := List.eq_nil_of_length_eq_zero (by omega)
      exact ih (h.skip he) hf

theorem OutInv.flushRespQueue (h : OutInv o) (hf : o.flushRespQueue = .ok w) : OutInv w.2 := by
  unfold Outbox.flushRespQueue at hf
  rcases hfrom : Outbox.flushFrom o.respBuffer o with e | ⟨ret, o'⟩
  · simp only [hfrom] at hf
    cases hf
  · simp only [hfrom, Except.ok.injEq] at hf
    subst hf
    obtain ⟨h', hempty⟩ := h.flushFrom hfrom
    refine ⟨h'.flow, h'.small, h'.retried, h'.waiting, ?_, h'.announced⟩
    intro f hf h0
    rcases List.mem_append.mp hf with hf | hf
    · exact h'.flushed f hf h0
    · rw [List.mem_singleton] at hf
      subst hf
      have hq : o'.respBuffer = [] := hempty h0
      refine ⟨hq, ?_⟩
      have hflow := h'.flow
      simpa only [hq, List.flatMap_nil, List.append_nil] using hflow

/-! ## Responses -/

theorem length_bytesOf (s : String) : (bytesOf s).length = s.length := by
  rw [bytesOf, List.length_map, String.length_toList]

/-- A printed `long` has at most eleven characters. -/
theorem length_toString_intOfSize (n : ℕ) : (toString (intOfSize n)).length ≤ 11 := by
  have hnat : ∀ k : ℕ, k ≤ 2 ^ 31 → (Nat.repr k).length ≤ 10 := fun k hk =>
    Nat.repr_length k 10 (by decide) (by omega)
  have hlow := BitVec.le_toInt (BitVec.ofNat 32 n)
  have hhigh := BitVec.toInt_lt (x := BitVec.ofNat 32 n)
  unfold intOfSize
  cases hi : (BitVec.ofNat 32 n).toInt with
  | ofNat k =>
    rw [hi, Int.ofNat_eq_natCast] at hhigh
    have hk := hnat k (by omega)
    have heq : toString (Int.ofNat k) = Nat.repr k := rfl
    rw [heq]
    omega
  | negSucc k =>
    rw [hi] at hlow
    have hk := hnat (k + 1) (by omega)
    have heq : toString (Int.negSucc k) = "-" ++ Nat.repr (k + 1) := rfl
    rw [heq, String.length_append]
    have hminus : ("-" : String).length = 1 := rfl
    omega

/-- A header is far shorter than a chunk may be. -/
theorem length_httpRespHeader_lt {code : ℕ} {status type : String} (blen : ℕ)
    (hcode : code < 1000) (hstatus : status.length ≤ 64) (htype : type.length ≤ 64) :
    (Outbox.httpRespHeader code status blen type).length < 2 ^ 31 := by
  have hblen := length_toString_intOfSize blen
  have hnum : (toString code).length ≤ 3 := Nat.repr_length code 3 (by decide) (by omega)
  simp only [Outbox.httpRespHeader, length_bytesOf, String.length_append]
  have h1 : ("HTTP/1.1 " : String).length = 9 := rfl
  have h2 : (" " : String).length = 1 := rfl
  have h3 : ("\r\nContent-Length: " : String).length = 18 := rfl
  have h4 : ("\r\nContentType: " : String).length = 15 := rfl
  have h5 : ("\r\n\r\n" : String).length = 4 := rfl
  omega

/-- No body, or one chunk with the announced number of bytes. -/
def WholeBody (datalen : ℕ) (body : List RespChunk) : Prop :=
  body = [] ∨ ∃ buf : List Byte, body = [⟨buf, 0⟩] ∧ datalen = buf.length ∧ buf.length < 2 ^ 31

theorem WholeBody.small (h : WholeBody datalen body) : ∀ c ∈ body.head?, c.buf.length < 2 ^ 31 := by
  rcases h with rfl | ⟨buf, rfl, -, hbuf⟩
  · nofun
  · intro c hc
    cases hc
    exact hbuf

/-- The announced number is the length of the one chunk that is queued. -/
theorem WholeBody.announced (h : WholeBody datalen body) :
    intOfSize (if body ≠ [] ∧ 0 < datalen then datalen else 0) =
      ((appendRespQueue [] body).flatMap RespChunk.rest).length := by
  rcases h with rfl | ⟨buf, rfl, rfl, hbuf⟩
  · rw [if_neg fun hcon => hcon.1 rfl]
    rfl
  · simp only [appendRespQueue, List.nil_append, List.flatMap_singleton, RespChunk.rest,
      List.drop_zero]
    split
    · exact intOfSize_of_lt hbuf
    · rename_i hzero
      have h0 : buf.length = 0 := by
        by_contra hcon
        exact hzero ⟨by simp, by omega⟩
      rw [h0]
      rfl

namespace OutInv

variable {o : Outbox}

theorem append (h : OutInv o) {entry : List RespChunk}
    (hsmall : ∀ c ∈ entry.head?, c.buf.length < 2 ^ 31) : OutInv (o.append entry) := by
  cases entry with
  | nil =>
    refine ⟨?_, h.small, h.retried, h.waiting, h.flushed, h.announced⟩
    simpa only [Outbox.append, appendRespQueue, List.flatMap_nil, List.append_nil] using h.flow
  | cons c cs =>
    refine ⟨?_, ?_, h.retried, ?_, h.flushed, h.announced⟩
    · simp only [Outbox.append, appendRespQueue, List.flatMap_append, List.nil_append]
      rw [← List.append_assoc, h.flow]
    · intro c' hc'
      rcases List.mem_append.mp hc' with hc' | hc'
      · exact h.small c' hc'
      · rw [List.mem_singleton.mp hc']
        exact hsmall c rfl
    · intro a ha hneg
      obtain ⟨c', cs', hqueue, hblock⟩ := h.waiting a ha hneg
      refine ⟨c', cs' ++ [c], ?_, hblock⟩
      simp only [Outbox.append, appendRespQueue, hqueue, List.cons_append]

theorem packIntoRespChunk (h : OutInv o) (buf : List Byte) :
    OutInv (o.packIntoRespChunk buf).2 := by
  have h' := h.malloc
  unfold Outbox.packIntoRespChunk
  split <;> rename_i heq <;> rw [heq] at h' <;> exact h'

end OutInv

/-- What a chain made by `pack_into_resp_chunk` can be. -/
theorem packIntoRespChunk_fst (o : Outbox) (buf : List Byte) :
    (o.packIntoRespChunk buf).1 = [] ∨ (o.packIntoRespChunk buf).1 = [⟨buf, 0⟩] := by
  unfold Outbox.packIntoRespChunk
  split
  · exact Or.inl rfl
  · exact Or.inr rfl

/-- A response with a whole body keeps the invariant. -/
theorem OutInv.sendHttpResp (h : OutInv o) {code : ℕ} {status type : String} (hcode : code < 1000)
    (hstatus : status.length ≤ 64) (htype : type.length ≤ 64) (hbody : WholeBody datalen body)
    (hs : o.sendHttpResp code status datalen body type = .ok w) : OutInv w.2 := by
  unfold Outbox.sendHttpResp at hs
  have hmalloc := h.malloc
  split at hs
  · rename_i heq
    cases hs
    rw [heq] at hmalloc
    exact hmalloc
  · rename_i o₁ heq
    rw [heq] at hmalloc
    dsimp only at hmalloc hs
    generalize hhdr : Outbox.httpRespHeader code status _ _ = hdr at hs
    have hlen : hdr.length < 2 ^ 31 := by
      rw [← hhdr]
      apply length_httpRespHeader_lt _ hcode hstatus
      split
      · exact htype
      · decide
    have hpack := hmalloc.packIntoRespChunk hdr
    have hfst := packIntoRespChunk_fst o₁ hdr
    split at hs
    · rename_i heq'
      cases hs
      rw [heq'] at hpack
      exact hpack
    · rename_i chain o₂ hne heq'
      rw [heq'] at hpack hfst
      dsimp only at hpack hfst
      have hchain : chain = [⟨hdr, 0⟩] := by
        rcases hfst with h0 | h1
        · exact absurd h0 hne
        · exact h1
      have happ : OutInv ((o₂.append chain).append body) := by
        refine (hpack.append ?_).append hbody.small
        rw [hchain]
        intro c hc
        cases hc
        exact hlen
      refine OutInv.flushRespQueue ?_ hs
      refine ⟨happ.flow, happ.small, happ.retried, happ.waiting, happ.flushed, ?_⟩
      intro a ha
      rcases List.mem_append.mp ha with ha | ha
      · exact happ.announced a ha
      · rw [List.mem_singleton] at ha
        subst ha
        exact hbody.announced

theorem OutInv.sendHttpErrResp (h : OutInv o) {err : ℕ} {msg : String} (herr : err < 1000)
    (hmsg : msg.length ≤ 64) (hs : o.sendHttpErrResp err msg = .ok w) : OutInv w.2 := by
  unfold Outbox.sendHttpErrResp at hs
  split at hs
  · cases hs
  · exact h.sendHttpResp herr hmsg (by decide) (Or.inl rfl) hs

/-! ## Handlers -/

/-- The web applications and the encoded certificates are shorter than 2^31 bytes, as everything
is that the service can allocate. -/
structure SmallTexts (env : TaEnv) : Prop where
  webApp : ∀ t app, env.webApp t = some app → app.length < 2 ^ 31
  base64 : ∀ raw buf, env.base64Encode raw = some buf → buf.length < 2 ^ 31

/-- The result of a handler, read off the response it sends. -/
theorem outInv_of_map {x : Except TaAbort (ℤ × Outbox)} {w : ℤ × Globals × Outbox}
    (hx : ∀ v, x = .ok v → OutInv v.2) (h : x.map (fun v => (v.1, g, v.2)) = .ok w) :
    OutInv w.2.2 := by
  obtain ⟨v, hv, rfl⟩ := exists_ok_of_map h
  exact hx v hv

section Handlers

variable {env : TaEnv} {g : Globals} {p : Peer} {t : ClientType} {o : Outbox} {r : Request}
  {pta : PtaAns} {w : ℤ × Globals × Outbox}

theorem OutInv.handleGetRequest (henv : SmallTexts env) (h : OutInv o) {w : ℤ × Outbox}
    (hs : handleGetRequest env g p o r = .ok w) : OutInv w.2 := by
  unfold TrustedGateway.handleGetRequest at hs
  split at hs
  · cases hs
  · rename_i t ht
    split at hs
    · exact h.sendHttpErrResp (by decide) (by decide) hs
    · split at hs
      · exact h.sendHttpErrResp (by decide) (by decide) hs
      · rename_i app happ
        have hpack := h.packIntoRespChunk app
        have hfst := packIntoRespChunk_fst o app
        split at hs
        · rename_i heq
          cases hs
          rw [heq] at hpack
          exact hpack
        · rename_i chunk o' hne heq
          rw [heq] at hpack hfst
          refine hpack.sendHttpResp (by decide) (by decide) (by decide) ?_ hs
          rcases hfst with h0 | h1
          · exact absurd h0 hne
          · exact Or.inr ⟨app, h1, rfl, henv.webApp t app happ⟩

theorem OutInv.dummyHandler (h : OutInv o) (hs : dummyHandler g o = .ok w) : OutInv w.2.2 :=
  outInv_of_map (fun _ hv => h.sendHttpResp (by decide) (by decide) (by decide) (Or.inl rfl) hv) hs

theorem OutInv.postNpfctlCmd (h : OutInv o) (hs : postNpfctlCmd g p o r pta = .ok w) :
    OutInv w.2.2 := by
  unfold TrustedGateway.postNpfctlCmd at hs
  dsimp only at hs
  have hmalloc := h.malloc
  split at hs
  · cases hs
    exact h
  · split at hs
    · rename_i heq
      rw [heq] at hmalloc
      exact outInv_of_map (fun _ hv => hmalloc.sendHttpErrResp (by decide) (by decide) hv) hs
    · rename_i o₁ heq
      rw [heq] at hmalloc
      split at hs
      · exact outInv_of_map (fun _ hv => hmalloc.sendHttpErrResp (by decide) (by decide) hv) hs
      · rename_i resp
        have hpack := hmalloc.packIntoRespChunk (resp.take maxNvlistResp)
        have hfst := packIntoRespChunk_fst o₁ (resp.take maxNvlistResp)
        split at hs
        · rename_i heq'
          rw [heq'] at hpack
          exact outInv_of_map (fun _ hv => hpack.sendHttpErrResp (by decide) (by decide) hv) hs
        · rename_i chunk o₂ hne heq'
          rw [heq'] at hpack hfst
          refine outInv_of_map (fun _ hv => ?_) hs
          refine hpack.sendHttpResp (by decide) (by decide) (by decide) ?_ hv
          rcases hfst with h0 | h1
          · exact absurd h0 hne
          · have hlen : (resp.take maxNvlistResp).length ≤ maxNvlistResp := by
              rw [List.length_take]
              exact min_le_left _ _
            exact Or.inr ⟨_, h1, rfl, lt_of_le_of_lt hlen (by decide)⟩

theorem OutInv.sendPlain (h : OutInv o) {text : String} (htext : text.length < 2 ^ 31)
    {w : ℤ × Outbox} (hs : sendPlain o text = .ok w) : OutInv w.2 := by
  refine (h.packIntoRespChunk (bytesOf text)).sendHttpResp (by decide) (by decide) (by decide) ?_ hs
  rcases packIntoRespChunk_fst o (bytesOf text) with h0 | h1
  · exact Or.inl h0
  · exact Or.inr ⟨_, h1, rfl, by rwa [length_bytesOf]⟩

theorem OutInv.postRegisterAdmin (h : OutInv o) (hs : postRegisterAdmin env g t o r = .ok w) :
    OutInv w.2.2 := by
  unfold TrustedGateway.postRegisterAdmin at hs
  have hmalloc := h.malloc
  split at hs
  · rename_i heq
    rw [heq] at hmalloc
    exact outInv_of_map (fun _ hv => hmalloc.sendHttpErrResp (by decide) (by decide) hv) hs
  · rename_i heq
    rw [heq] at hmalloc
    split at hs <;> exact outInv_of_map (fun _ hv => hmalloc.sendPlain (by decide) hv) hs

theorem OutInv.getAdminlist (h : OutInv o) (l : List AdminCert) :
    OutInv (getAdminlist env l o).2 := by
  induction l generalizing o with
  | nil => exact h
  | cons c cs ih =>
    have h₁ := h.malloc
    unfold TrustedGateway.getAdminlist
    split
    · rename_i heq
      rw [heq] at h₁
      exact h₁
    · rename_i o₁ heq
      rw [heq] at h₁
      have h₂ := h₁.malloc
      split
      · rename_i heq'
        rw [heq'] at h₂
        exact h₂
      · rename_i o₂ heq'
        rw [heq'] at h₂
        split
        · exact h₂
        · exact ih h₂

/-- A list of at most one administrator is sent as at most one chunk. -/
theorem wholeBody_getAdminlist (henv : SmallTexts env) {l : List AdminCert} (hl : l.length ≤ 1)
    (o : Outbox) :
    WholeBody (adminlistLen (getAdminlist env l o).1) (getAdminlist env l o).1 := by
  cases l with
  | nil => exact Or.inl rfl
  | cons c cs =>
    obtain rfl : cs = [] := List.eq_nil_of_length_eq_zero (by simpa using hl)
    unfold TrustedGateway.getAdminlist
    split
    · exact Or.inl rfl
    · split
      · exact Or.inl rfl
      · split
        · exact Or.inl rfl
        · rename_i buf hbuf
          have hlt := henv.base64 _ _ hbuf
          refine Or.inr ⟨buf, rfl, ?_, hlt⟩
          simp only [adminlistLen, TrustedGateway.getAdminlist, List.map_cons, List.map_nil,
            List.sum_cons, List.sum_nil, Nat.add_zero]
          omega

theorem OutInv.postGetAdminlist (henv : SmallTexts env) (h : OutInv o)
    (hl : g.allowlist.length ≤ 1) (hs : postGetAdminlist env g o = .ok w) : OutInv w.2.2 := by
  unfold TrustedGateway.postGetAdminlist at hs
  dsimp only at hs
  have hlist : OutInv (TrustedGateway.getAdminlist env g.allowlist o).2 :=
    h.getAdminlist g.allowlist
  have hbody := wholeBody_getAdminlist henv hl o
  split at hs
  · refine outInv_of_map (fun _ hv => ?_) hs
    exact hlist.sendHttpResp (by decide) (by decide) (by decide) (Or.inl rfl) hv
  · refine outInv_of_map (fun _ hv => ?_) hs
    exact hlist.sendHttpResp (by decide) (by decide) (by decide) hbody hv

/-- Only one entry of the table sends the list of administrators. -/
theorem path_of_postGetAdminlist : ∀ e ∈ postHandlerList,
    e.handler = .postGetAdminlist → bytesOf e.path = bytesOf "/adminlist" := by
  decide

/-- The requests for which the handler sends the list of administrators. -/
def AsksAdminlist (r : Request) : Prop :=
  r.head.method = bytesOf "POST" ∧ r.head.path = bytesOf "/adminlist"

instance (r : Request) : Decidable (AsksAdminlist r) :=
  inferInstanceAs (Decidable (_ ∧ _))

theorem OutInv.call (henv : SmallTexts env) (h : OutInv o) {e : ReqHandler}
    (hl : e.handler = .postGetAdminlist → g.allowlist.length ≤ 1)
    (hs : e.call env g p t o r pta = .ok w) : OutInv w.2.2 := by
  unfold ReqHandler.call at hs
  split at hs
  · exact h.postNpfctlCmd hs
  · exact h.postRegisterAdmin hs
  · rename_i hget
    exact h.postGetAdminlist henv (hl hget) hs
  · exact h.dummyHandler hs

theorem OutInv.handlePostRequest (henv : SmallTexts env) (h : OutInv o)
    (hl : r.head.path = bytesOf "/adminlist" → g.allowlist.length ≤ 1)
    (hs : handlePostRequest env g p o r pta = .ok w) : OutInv w.2.2 := by
  unfold TrustedGateway.handlePostRequest at hs
  dsimp only at hs
  have hrefuse : ∀ code msg, code < 1000 → msg.length ≤ 64 →
      (o.sendHttpErrResp code msg).map (fun v => (v.1, g, v.2)) = .ok w → OutInv w.2.2 := by
    intro code msg hcode hmsg hv
    exact outInv_of_map (fun _ hv => h.sendHttpErrResp hcode hmsg hv) hv
  split at hs
  · cases hs
    exact h
  · split at hs
    · exact hrefuse _ _ (by decide) (by decide) hs
    · rename_i e hfind
      split at hs
      · cases hs
      · split at hs
        · exact hrefuse _ _ (by decide) (by decide) hs
        · split at hs
          · exact hrefuse _ _ (by decide) (by decide) hs
          · split at hs
            · exact hrefuse _ _ (by decide) (by decide) hs
            · refine h.call henv (fun hget => hl ?_) hs
              obtain ⟨hmem, hpath⟩ := getReqHandler_eq_some hfind
              rw [← hpath]
              exact path_of_postGetAdminlist e hmem hget

theorem OutInv.handleRequest (henv : SmallTexts env) (h : OutInv o)
    (hl : AsksAdminlist r → g.allowlist.length ≤ 1)
    (hs : handleRequest env g p o r pta = .ok w) : OutInv w.2.2 := by
  unfold TrustedGateway.handleRequest at hs
  split at hs
  · exact outInv_of_map (fun _ hv => h.handleGetRequest henv hv) hs
  · split at hs
    · rename_i hpost
      exact h.handlePostRequest henv (fun hpath => hl ⟨hpost, hpath⟩) hs
    · exact outInv_of_map (fun _ hv => h.sendHttpErrResp (by decide) (by decide) hv) hs

end Handlers

/-! ## Runs of the service -/

/-- The list of administrators is asked for only while it has at most one entry. -/
def OneAdmin (env : TaEnv) (t : Ta) (ev : TaEvent) : Prop :=
  ∀ bp dataLen ans, (t.conns ev.conn).phase = .serving bp dataLen → ev.event = .iterate ans →
    ∀ r, served env (t.conns ev.conn).client bp dataLen ans = some r → AsksAdminlist r →
      t.globals.allowlist.length ≤ 1

theorem OutInv.iterate {c : Client} {bp dataLen : ℕ} {ans : Answers} {x : Turn × Globals × Client}
    (henv : SmallTexts env) (h : OutInv c.out)
    (hl : ∀ r, served env c bp dataLen ans = some r → AsksAdminlist r → g.allowlist.length ≤ 1)
    (hs : iterate env g c bp dataLen ans = .ok x) : OutInv x.2.2.out := by
  have h' := h.answered ans.mallocs ans.writes
  cases iterated_of_ok hs with
  | unread hrecv => exact h
  | bad hrecv hscan hsend => exact h'.sendHttpErrResp (by decide) (by decide) hsend
  | incomplete hrecv hscan | refused hrecv hscan => exact h
  | request hrecv hscan hhandle =>
    exact h'.handleRequest henv (hl _ (served_eq_some hrecv hscan)) hhandle

theorem OutInv.enter {c : Client} {mallocs : List Bool} {writes : List ℤ} {x : Turn × Client}
    (h : OutInv c.out) (hs : enter env g c mallocs writes = .ok x) : OutInv x.2.out := by
  unfold TrustedGateway.enter at hs
  split at hs
  · cases hs
  · cases hs
    exact h
  · split at hs
    · cases hs
      exact h
    · split at hs
      · cases hs
      · rename_i ret out hflush
        have h' := (h.answered mallocs writes).flushRespQueue hflush
        split at hs <;> cases hs <;> exact h'

/-- An admitted event keeps the invariant on every connection. -/
theorem outInv_taStep (henv : SmallTexts env) {t t' : Ta} {ev : TaEvent}
    (h : ∀ i, OutInv (t.conns i).client.out) (hG : OneAdmin env t ev)
    (hs : taStep env t ev = .ok t') : ∀ i, OutInv (t'.conns i).client.out := by
  obtain ⟨x, hmoved, rfl⟩ := taStep_eq_ok hs
  have hx : OutInv x.2.client.out := by
    have h₀ := h ev.conn
    unfold OneAdmin at hG
    generalize ev.event = e at hmoved hG
    cases hmoved with
    | idle hout => exact h₀
    | connected hp | accepted hp hshake => exact OutInv.init
    | rejected hp => exact h₀
    | entered hp henter => exact h₀.enter henter
    | iterated hp hiter => exact h₀.iterate henv (hG _ _ _ hp rfl) hiter
  exact (Function.forall_update_iff _ fun _ (c : Conn) => OutInv c.client.out).mpr
    ⟨hx, fun i _ => h i⟩

/-- **Responses reach the peer in order, once and whole.**  In every run in which the list of
administrators is asked for only while it has at most one entry, on every connection and in
every state passed through, the bytes the TLS layer took are the first of the bytes queued, a
refused block is the next one offered, a flush that returned zero had written everything, and
every response announces the bytes queued with it. -/
theorem responses_delivered_of_one_admin {env : TaEnv} (henv : SmallTexts env)
    {evs : List TaEvent} {t : Ta} (hr : Run (taStep env) (OneAdmin env) Ta.init evs t) :
    Always (taStep env) (fun t => ∀ i, Delivered (t.conns i).client.out) Ta.init evs := by
  refine Run.always (I := fun t => ∀ i, OutInv (t.conns i).client.out) ?_ ?_ hr ?_
  · intro t ev t' h hG hs
    exact outInv_taStep henv h hG hs
  · intro t h i
    exact (h i).delivered
  · intro i
    exact OutInv.init

/-- A user asks for the web application. -/
theorem responses_delivered_get :
    Always (taStep TaEnv.sample) (fun t => ∀ i, Delivered (t.conns i).client.out) Ta.init
      (startConn 0 ⟨badcertMissing, none⟩ ++ [⟨0, .iterate (.reading [71])⟩]) := by
  obtain ⟨t, hr, -⟩ : ∃ t, Run (taStep TaEnv.sample) (fun t _ => t.globals.allowlist.length ≤ 1)
      Ta.init (startConn 0 ⟨badcertMissing, none⟩ ++ [⟨0, .iterate (.reading [71])⟩]) t ∧
        (t.conns 0).client.out.responses = [⟨3, 3⟩] := exists_run_of_exec (by decide +kernel)
  refine responses_delivered_of_one_admin ⟨?_, ?_⟩ (hr.mono ?_)
  · intro t app happ
    cases happ
    decide
  · intro raw buf hbuf
    cases hbuf
    rw [List.length_take]
    omega
  · intro t ev h _ _ _ _ _ _ _ _
    exact h

/-- Two administrators are registered; the master's list announces both and carries one. -/
theorem adminlist_not_delivered :
    ∃ t, Run (taStep TaEnv.sample) (fun _ _ => True) Ta.init
        (startConn 0 ⟨badcertMissing, none⟩ ++
          [⟨0, .iterate (.reading [82, 97, 82, 98])⟩, ⟨0, .iterate (.reading [])⟩] ++
          startConn 1 ⟨0, some [77]⟩ ++ [⟨1, .iterate (.reading [76])⟩]) t ∧
      (t.conns 1).client.out.responses = [⟨2, 1⟩] ∧ ¬ Delivered (t.conns 1).client.out := by
  obtain ⟨t, hr, ht⟩ : ∃ t, Run (taStep TaEnv.sample) (fun _ _ => True) Ta.init
      (startConn 0 ⟨badcertMissing, none⟩ ++
        [⟨0, .iterate (.reading [82, 97, 82, 98])⟩, ⟨0, .iterate (.reading [])⟩] ++
        startConn 1 ⟨0, some [77]⟩ ++ [⟨1, .iterate (.reading [76])⟩]) t ∧
      (t.conns 1).client.out.responses = [⟨2, 1⟩] := exists_run_of_exec (by decide +kernel)
  refine ⟨t, hr, ht, fun h => ?_⟩
  have h21 := h.announced ⟨2, 1⟩ (by rw [ht]; exact List.mem_cons_self)
  exact absurd h21 (by decide)

end TrustedGateway
