import TrustedGateway.ConfigService.Requests

/-!
# What a peer can do to the service

An `abort()` in the service ends it for everybody.  Most of the calls guard situations that no
peer can bring about; two do not.  A handshake that succeeds with a certificate that failed its
verification ends in `print_user_type`, which aborts on the class it is given, and a
`Content-Length` value of more than ten bytes aborts the scan of the header lines.
-/

namespace TrustedGateway

open StepSystem FlatMemory

/-- A parsed head has at least one byte and ends within the bytes it was parsed from. -/
def ParserCounts (env : TaEnv) : Prop :=
  ∀ bs h, env.phrParseRequest bs = .head h → 0 < h.nparsed ∧ h.nparsed ≤ bs.length

/-! ## Calls that are never reached -/

namespace Outbox

/-- A write that took a whole block took something: the `abort()` behind it is dead code. -/
theorem flushFrom_ok (cs : List RespChunk) (o : Outbox) : ∃ w, flushFrom cs o = .ok w := by
  induction cs generalizing o with
  | nil => exact ⟨_, rfl⟩
  | cons c cs ih =>
    simp only [flushFrom]
    split
    · rename_i hpos
      split
      · exact ⟨_, rfl⟩
      · split
        · exact ⟨_, rfl⟩
        · rename_i hall
          rw [if_neg (by rw [not_not.mp hall]; omega)]
          exact ih _
    · exact ih _

theorem flushRespQueue_ok (o : Outbox) : ∃ w, o.flushRespQueue = .ok w := by
  obtain ⟨w, hw⟩ := flushFrom_ok o.respBuffer o
  simp only [flushRespQueue, hw]
  exact ⟨_, rfl⟩

theorem sendHttpResp_ok (o : Outbox) (code : ℕ) (status : String) (datalen : ℕ)
    (body : List RespChunk) (type : String) :
    ∃ w, o.sendHttpResp code status datalen body type = .ok w := by
  unfold sendHttpResp
  split
  · exact ⟨_, rfl⟩
  · dsimp only
    split
    · exact ⟨_, rfl⟩
    · exact flushRespQueue_ok _

theorem sendHttpErrResp_ok (o : Outbox) {err : ℕ} (msg : String)
    (herr : ¬ (err = 204 ∨ err = 304 ∨ (100 ≤ err ∧ err ≤ 199))) :
    ∃ w, o.sendHttpErrResp err msg = .ok w := by
  unfold sendHttpErrResp
  rw [if_neg herr]
  exact sendHttpResp_ok ..

end Outbox

section Handlers

variable {env : TaEnv} {m : List Byte} {g : Globals} {p : Peer} {o : Outbox} {r : Request}
  {pta : PtaAns}

theorem getClientType_ok (hm : env.master = some m) (g : Globals) (p : Peer) :
    ∃ t, getClientType env g p = .ok t := by
  unfold getClientType
  split
  · exact ⟨_, rfl⟩
  · split
    · exact ⟨_, rfl⟩
    · split
      · split
        · exact ⟨_, rfl⟩
        · unfold getCertType
          simp only [hm]
          split
          · exact ⟨_, rfl⟩
          · split <;> exact ⟨_, rfl⟩
      · exact ⟨_, rfl⟩

/-- A handler that ends with a response does not abort. -/
theorem not_ok_of_error {α : Type} {e : TaAbort} : ¬ ∃ w : α, Except.error e = .ok w := by
  rintro ⟨w, hw⟩
  cases hw

theorem map_ok {α β : Type} {x : Except TaAbort α} {f : α → β} (h : ∃ w, x = .ok w) :
    ∃ w, x.map f = .ok w := by
  obtain ⟨w, rfl⟩ := h
  exact ⟨f w, rfl⟩

theorem handleGetRequest_ok (hm : env.master = some m) :
    ∃ w, handleGetRequest env g p o r = .ok w := by
  obtain ⟨t, ht⟩ := getClientType_ok hm g p
  simp only [handleGetRequest, ht]
  split
  · exact o.sendHttpErrResp_ok _ (by decide)
  · split
    · exact o.sendHttpErrResp_ok _ (by decide)
    · split
      · exact ⟨_, rfl⟩
      · exact Outbox.sendHttpResp_ok ..

theorem call_ok (e : ReqHandler) (t : ClientType) :
    ∃ w, e.call env g p t o r pta = .ok w := by
  unfold ReqHandler.call
  split
  · unfold postNpfctlCmd
    dsimp only
    split
    · exact ⟨_, rfl⟩
    · split
      · exact map_ok (Outbox.sendHttpErrResp_ok _ _ (by decide))
      · split
        · exact map_ok (Outbox.sendHttpErrResp_ok _ _ (by decide))
        · split
          · exact map_ok (Outbox.sendHttpErrResp_ok _ _ (by decide))
          · exact map_ok (Outbox.sendHttpResp_ok ..)
  · unfold postRegisterAdmin sendPlain
    split
    · exact map_ok (Outbox.sendHttpErrResp_ok _ _ (by decide))
    · split <;> exact map_ok (Outbox.sendHttpResp_ok ..)
  · unfold postGetAdminlist
    dsimp only
    split <;> exact map_ok (Outbox.sendHttpResp_ok ..)
  · exact map_ok (Outbox.sendHttpResp_ok ..)

theorem handleRequest_ok (hm : env.master = some m) :
    ∃ w, handleRequest env g p o r pta = .ok w := by
  obtain ⟨t, ht⟩ := getClientType_ok hm g p
  unfold handleRequest
  split
  · exact map_ok (handleGetRequest_ok hm)
  · split
    · simp only [handlePostRequest, ht]
      split
      · exact ⟨_, rfl⟩
      · split
        · exact map_ok (o.sendHttpErrResp_ok _ (by decide))
        · split
          · exact map_ok (o.sendHttpErrResp_ok _ (by decide))
          · split
            · exact map_ok (o.sendHttpErrResp_ok _ (by decide))
            · split
              · exact map_ok (o.sendHttpErrResp_ok _ (by decide))
              · exact call_ok _ _
    · exact map_ok (o.sendHttpErrResp_ok _ (by decide))

end Handlers

/-! ## The buffer position -/

/-- In the loop, either the pointer is at the head of the buffer and all of the buffer is left, or
some bytes behind a handled request are left and no request is incomplete. -/
def BufferAt (c : Conn) : Prop :=
  ∀ bp dataLen, c.phase = .serving bp dataLen →
    (bp = 0 ∧ dataLen = c.client.rx.reqIdx) ∨
      (0 < bp ∧ 0 < dataLen ∧ c.client.rx.isPartial = false)

variable {bp dataLen : ℕ} {c : Client} {env : TaEnv} {g : Globals} {m : List Byte}

theorem not_serving_hostNext {code : ℤ} : hostNext code ≠ .serving bp dataLen := by
  unfold hostNext
  split <;> nofun

/-- Phases other than the loop put no demand on the buffer. -/
theorem bufferAt_of_not_serving {ph : Phase} (h : ∀ bp dataLen, ph ≠ .serving bp dataLen) :
    BufferAt ⟨ph, c⟩ := by
  intro bp dataLen hp
  exact absurd hp (h bp dataLen)

theorem bufferAt_loop
    (h : (bp = 0 ∧ dataLen = c.rx.reqIdx) ∨ (0 < bp ∧ 0 < dataLen ∧ c.rx.isPartial = false)) :
    BufferAt ⟨.serving bp dataLen, c⟩ := by
  intro bp' dataLen' hp
  cases hp
  exact h

/-- A scanned request has at least one byte. -/
theorem size_pos_of_scan (hc : ParserCounts env) {bs : List Byte} {r : Request}
    (h : scanRequest env bs = .ok (.request r)) : 0 < r.size := by
  unfold scanRequest at h
  split at h
  · cases h
  · cases h
  · rename_i hd hparse
    have hpos := (hc bs hd hparse).1
    split at h
    · cases h
    · cases h
    · cases h
      exact Nat.add_pos_left hpos _
    · split at h
      · split at h <;> cases h
      · cases h
        exact Nat.add_pos_left hpos _

/-- What a turn looks at lies at the head of the buffer and is all of it, unless it is left from a
turn before. -/
theorem receive_position {bp' dataLen' : ℕ} {ans : ReadAns} {rx : Rx}
    (h : (bp = 0 ∧ dataLen = c.rx.reqIdx) ∨ (0 < bp ∧ 0 < dataLen ∧ c.rx.isPartial = false))
    (hr : receive c.rx bp dataLen ans = .ok (.ready rx bp' dataLen')) :
    bp' = 0 → dataLen' = rx.reqIdx := by
  rcases receive_eq_ready hr with ⟨bs, -, -, -, -, rfl, rfl, rfl⟩ | ⟨-, -, rfl, rfl, rfl⟩
  · intro _
    rfl
  · intro h0
    rcases h with ⟨-, hlen⟩ | ⟨hbp, -⟩
    · exact hlen
    · omega

theorem bufferAt_iterate (hc : ParserCounts env) {ans : Answers} {x : Turn × Globals × Client}
    (h : (bp = 0 ∧ dataLen = c.rx.reqIdx) ∨ (0 < bp ∧ 0 < dataLen ∧ c.rx.isPartial = false))
    (hs : iterate env g c bp dataLen ans = .ok x) : BufferAt ⟨x.1.phase, x.2.2⟩ := by
  cases iterated_of_ok hs with
  | unread hrecv | bad hrecv hscan hsend | refused hrecv hscan =>
    exact bufferAt_of_not_serving fun _ _ => not_serving_hostNext
  | @incomplete rx bp' dataLen' hrecv hscan =>
    refine bufferAt_loop (Or.inl ⟨rfl, ?_⟩)
    dsimp only [Rx.moveRest]
    split
    · rfl
    · rename_i hbp
      exact receive_position h hrecv (not_not.mp hbp)
  | @request rx bp' dataLen' r ret g' out hrecv hscan hhandle =>
    have hsize := size_pos_of_scan hc hscan
    dsimp only [afterRequest]
    split
    · exact bufferAt_of_not_serving fun _ _ => not_serving_hostNext
    · split
      · exact bufferAt_loop (Or.inl ⟨rfl, rfl⟩)
      · exact bufferAt_loop (Or.inr ⟨hsize, by omega, rfl⟩)

theorem bufferAt_enter {mallocs : List Bool} {writes : List ℤ} {x : Turn × Client}
    (hs : enter env g c mallocs writes = .ok x) : BufferAt ⟨x.1.phase, x.2⟩ := by
  unfold enter at hs
  split at hs
  · cases hs
  · cases hs
    exact bufferAt_of_not_serving fun _ _ => not_serving_hostNext
  · split at hs
    · cases hs
      exact bufferAt_loop (Or.inl ⟨rfl, rfl⟩)
    · split at hs
      · cases hs
      · split at hs <;> cases hs
        · exact bufferAt_of_not_serving fun _ _ => not_serving_hostNext
        · exact bufferAt_loop (Or.inl ⟨rfl, rfl⟩)

theorem bufferAt_taStep (hc : ParserCounts env) {t t' : Ta} {ev : TaEvent}
    (h : ∀ i, BufferAt (t.conns i)) (hs : taStep env t ev = .ok t') :
    ∀ i, BufferAt (t'.conns i) := by
  obtain ⟨x, hmoved, rfl⟩ := taStep_eq_ok hs
  have hx : BufferAt x.2 := by
    have h₀ := h ev.conn
    generalize ev.event = e at hmoved
    cases hmoved with
    | idle hout => exact h₀
    | connected hp | accepted hp hshake | rejected hp => exact bufferAt_of_not_serving nofun
    | entered hp henter => exact bufferAt_enter henter
    | iterated hp hiter => exact bufferAt_iterate hc (h₀ _ _ hp) hiter
  exact (Function.forall_update_iff _ fun _ => BufferAt).mpr ⟨hx, fun i _ => h i⟩

/-! ## Calls that are reached -/

/-- The verification results with which a peer gets a class. -/
def Classified (p : Peer) : Prop :=
  p.verify = badcertMissing ∨ p.verify = badcertSkipVerify ∨ (p.verify = 0 ∧ p.cert ≠ none)

/-- The event does not end a handshake with a certificate that failed its verification, and does
not bring in a `Content-Length` value of more than ten bytes. -/
def Harmless (env : TaEnv) (t : Ta) (ev : TaEvent) : Prop :=
  (∀ peer, (t.conns ev.conn).phase = .handshake → ev.event = .handshake 0 peer →
    Classified peer) ∧
  ∀ bp dataLen ans rx bp' dataLen' h v, (t.conns ev.conn).phase = .serving bp dataLen →
    ev.event = .iterate ans →
    receive (t.conns ev.conn).client.rx bp dataLen ans.read = .ok (.ready rx bp' dataLen') →
    env.phrParseRequest (slice rx.buffer bp' dataLen') = .head h →
    contentLengthValue h.headers = some v → v.length ≤ 10

theorem getCertType_ne_invalid (hm : env.master = some m) (g : Globals) (raw : List Byte) :
    getCertType env g raw ≠ .ok .invalid := by
  intro h
  simp only [getCertType, hm] at h
  split at h
  · cases h
  · split at h <;> cases h

/-- A peer without a class is called invalid. -/
theorem getClientType_eq_invalid_iff (hm : env.master = some m) (g : Globals) (p : Peer) :
    getClientType env g p = .ok .invalid ↔ ¬ Classified p := by
  unfold getClientType Classified
  split
  · rename_i hv
    simp [hv]
  rename_i hmissing
  split
  · rename_i hv
    simp [hv]
  rename_i hskip
  split
  · rename_i h0
    split
    · rename_i hnone
      simp [hmissing, hskip, hnone]
    · rename_i raw hraw
      refine iff_of_false (getCertType_ne_invalid hm g raw) ?_
      simp [h0, hraw]
  · rename_i h0
    refine iff_of_true rfl ?_
    rintro (h | h | ⟨h, -⟩)
    · exact hmissing h
    · exact hskip h
    · exact h0 h

theorem handshake_ok_iff (hm : env.master = some m) (g : Globals) (p : Peer) :
    (∃ ret, swDoHandshakeCli env g p 0 = .ok ret) ↔ Classified p := by
  obtain ⟨t, ht⟩ := getClientType_ok hm g p
  have hinvalid := getClientType_eq_invalid_iff hm g p
  rw [ht, Except.ok.injEq] at hinvalid
  simp only [swDoHandshakeCli, if_pos, ht]
  cases t with
  | invalid => exact iff_of_false not_ok_of_error (hinvalid.mp rfl)
  | _ =>
    refine iff_of_true ⟨_, rfl⟩ ?_
    by_contra hcon
    cases hinvalid.mpr hcon

theorem scanRequest_ok_iff (env : TaEnv) (bs : List Byte) :
    (∃ s, scanRequest env bs = .ok s) ↔
      ∀ h v, env.phrParseRequest bs = .head h → contentLengthValue h.headers = some v →
        v.length ≤ 10 := by
  unfold scanRequest
  rcases hparse : env.phrParseRequest bs with _ | _ | hd
  · exact iff_of_true ⟨_, rfl⟩ nofun
  · exact iff_of_true ⟨_, rfl⟩ nofun
  · dsimp only [scanContentLength]
    rcases hv : contentLengthValue hd.headers with _ | v
    · refine iff_of_true ⟨_, rfl⟩ fun h v heq hval => ?_
      cases heq
      rw [hv] at hval
      cases hval
    · dsimp only
      by_cases hlong : 10 < v.length
      · rw [if_pos hlong]
        refine iff_of_false ?_ fun hall => ?_
        · rintro ⟨s, hs⟩
          cases hs
        · exact absurd (hall hd v rfl hv) (by omega)
      · rw [if_neg hlong]
        refine iff_of_true ?_ fun h v' heq hval => ?_
        · split
          · rename_i hcase
            split at hcase <;> cases hcase
          · exact ⟨_, rfl⟩
          · exact ⟨_, rfl⟩
          · split
            · split <;> exact ⟨_, rfl⟩
            · exact ⟨_, rfl⟩
        · cases heq
          rw [hv] at hval
          cases hval
          omega

/-- The `abort()` on the buffer position is dead code. -/
theorem receive_ok (ans : ReadAns)
    (h : (bp = 0 ∧ dataLen = c.rx.reqIdx) ∨ (0 < bp ∧ 0 < dataLen ∧ c.rx.isPartial = false)) :
    ∃ x, receive c.rx bp dataLen ans = .ok x := by
  unfold receive
  rcases h with ⟨hbp, hlen⟩ | ⟨hbp, hlen, hpart⟩
  · split
    · rw [if_neg (not_or.mpr ⟨not_not_intro hlen, not_not_intro hbp⟩)]
      split
      · exact ⟨_, rfl⟩
      · split <;> exact ⟨_, rfl⟩
    · exact ⟨_, rfl⟩
  · rw [if_neg (by simp [hpart]; omega)]
    exact ⟨_, rfl⟩

theorem iterate_ok_iff (hm : env.master = some m) (g : Globals) (ans : Answers)
    (h : (bp = 0 ∧ dataLen = c.rx.reqIdx) ∨ (0 < bp ∧ 0 < dataLen ∧ c.rx.isPartial = false)) :
    (∃ x, iterate env g c bp dataLen ans = .ok x) ↔
      ∀ rx bp' dataLen' hd v, receive c.rx bp dataLen ans.read = .ok (.ready rx bp' dataLen') →
        env.phrParseRequest (slice rx.buffer bp' dataLen') = .head hd →
        contentLengthValue hd.headers = some v → v.length ≤ 10 := by
  obtain ⟨x, hx⟩ := receive_ok ans.read h
  unfold iterate
  simp only [hx]
  cases x with
  | ret code => exact iff_of_true ⟨_, rfl⟩ nofun
  | ready rx bp' dataLen' =>
    dsimp only
    have hscan := scanRequest_ok_iff env (slice rx.buffer bp' dataLen')
    rcases hs : scanRequest env (slice rx.buffer bp' dataLen') with e | s
    · refine iff_of_false not_ok_of_error fun hall => ?_
      obtain ⟨s, hcon⟩ := hscan.mpr fun hd v hp hv => hall rx bp' dataLen' hd v rfl hp hv
      rw [hs] at hcon
      cases hcon
    · refine iff_of_true ?_ ?_
      · cases s with
        | bad =>
          have herr : ¬ (400 = 204 ∨ 400 = 304 ∨ (100 ≤ 400 ∧ 400 ≤ 199)) := by decide
          obtain ⟨w, hw⟩ := (c.out.answered ans.mallocs ans.writes).sendHttpErrResp_ok
            "Bad Request" herr
          simp only [hw]
          exact ⟨_, rfl⟩
        | incomplete | refused code => exact ⟨_, rfl⟩
        | request r =>
          obtain ⟨w, hw⟩ : ∃ w, handleRequest env g c.peer
              (c.out.answered ans.mallocs ans.writes) r ans.pta = .ok w :=
            handleRequest_ok hm
          simp only [hw]
          exact ⟨_, rfl⟩
      · intro rx' bp'' dataLen'' hd v heq hp hv
        cases heq
        exact hscan.mp ⟨s, hs⟩ hd v hp hv

theorem enter_ok (hm : env.master = some m) (g : Globals) (c : Client) (mallocs : List Bool)
    (writes : List ℤ) : ∃ x, enter env g c mallocs writes = .ok x := by
  obtain ⟨t, ht⟩ := getClientType_ok hm g c.peer
  obtain ⟨w, hw⟩ := (c.out.answered mallocs writes).flushRespQueue_ok
  simp only [enter, ht, hw]
  split
  · rename_i hcon
    cases hcon
  · exact ⟨_, rfl⟩
  · split
    · exact ⟨_, rfl⟩
    · split <;> exact ⟨_, rfl⟩

theorem taStep_ok_iff {t : Ta} {ev : TaEvent} :
    (∃ t', taStep env t ev = .ok t') ↔
      ∃ x, connStep env t.globals (t.conns ev.conn) ev.event = .ok x := by
  unfold taStep
  rcases connStep env t.globals (t.conns ev.conn) ev.event with e | x
  · exact iff_of_false not_ok_of_error not_ok_of_error
  · exact iff_of_true ⟨_, rfl⟩ ⟨_, rfl⟩

theorem connStep_connect_ok (env : TaEnv) (g : Globals) (c : Conn) :
    ∃ x, connStep env g c .connect = .ok x := by
  simp only [connStep]
  split <;> exact ⟨_, rfl⟩

theorem connStep_enter_ok (hm : env.master = some m) (g : Globals) (c : Conn) (mallocs : List Bool)
    (writes : List ℤ) : ∃ x, connStep env g c (.enter mallocs writes) = .ok x := by
  obtain ⟨x, hx⟩ := enter_ok hm g c.client mallocs writes
  simp only [connStep, hx]
  split <;> exact ⟨_, rfl⟩

theorem connStep_handshake_ok_iff {c : Conn} {hs : ℤ} {peer : Peer} :
    (∃ x, connStep env g c (.handshake hs peer) = .ok x) ↔
      (c.phase = .handshake → ∃ ret, swDoHandshakeCli env g peer hs = .ok ret) := by
  simp only [connStep]
  split
  · rename_i hp
    rcases swDoHandshakeCli env g peer hs with e | ret
    · exact iff_of_false not_ok_of_error fun h => not_ok_of_error (h hp)
    · refine iff_of_true ?_ fun _ => ⟨ret, rfl⟩
      dsimp only
      split
      · exact ⟨_, rfl⟩
      · split <;> exact ⟨_, rfl⟩
  · rename_i hp
    exact iff_of_true ⟨_, rfl⟩ fun h => absurd h hp

theorem connStep_iterate_ok_iff {c : Conn} {ans : Answers} :
    (∃ x, connStep env g c (.iterate ans) = .ok x) ↔
      ∀ bp dataLen, c.phase = .serving bp dataLen →
        ∃ x, iterate env g c.client bp dataLen ans = .ok x := by
  simp only [connStep]
  split
  · rename_i bp dataLen hp
    rcases hit : iterate env g c.client bp dataLen ans with e | x
    · refine iff_of_false not_ok_of_error fun h => ?_
      have hok := h bp dataLen hp
      rw [hit] at hok
      exact not_ok_of_error hok
    · refine iff_of_true ⟨_, rfl⟩ fun bp' dataLen' hp' => ?_
      rw [hp] at hp'
      cases hp'
      exact ⟨x, hit⟩
  · rename_i hout
    exact iff_of_true ⟨_, rfl⟩ fun bp dataLen hp => absurd hp (hout bp dataLen)

/-- **Which events abort the service.**  With a master certificate that loads and a parser that
counts what it consumed, an event in any state the service can reach goes through without an
`abort()` exactly when it is harmless. -/
theorem no_abort_iff_harmless {env : TaEnv} {m : List Byte} (hm : env.master = some m)
    (hc : ParserCounts env) {evs : List TaEvent} {t : Ta}
    (hr : Run (taStep env) (fun _ _ => True) Ta.init evs t) (ev : TaEvent) :
    (∃ t', taStep env t ev = .ok t') ↔ Harmless env t ev := by
  have hbuf : ∀ i, BufferAt (t.conns i) := by
    refine hr.inv (I := fun t => ∀ i, BufferAt (t.conns i)) ?_ ?_
    · intro s i s' h _ hs
      exact bufferAt_taStep hc h hs
    · intro i
      exact bufferAt_of_not_serving nofun
  rw [taStep_ok_iff]
  unfold Harmless
  have h₀ := hbuf ev.conn
  generalize t.conns ev.conn = c at h₀ ⊢
  cases ev.event with
  | connect =>
    refine iff_of_true (connStep_connect_ok ..) ⟨?_, ?_⟩
    all_goals
      intros
      contradiction
  | handshake hs peer =>
    rw [connStep_handshake_ok_iff]
    constructor
    · intro h
      refine ⟨fun peer' hp heq => ?_, ?_⟩
      · cases heq
        exact (handshake_ok_iff hm _ _).mp (h hp)
      · intros
        contradiction
    · rintro ⟨h, -⟩ hp
      by_cases h0 : hs = 0
      · subst h0
        exact (handshake_ok_iff hm _ _).mpr (h peer hp rfl)
      · simp only [swDoHandshakeCli, if_neg h0]
        exact ⟨_, rfl⟩
  | enter mallocs writes =>
    refine iff_of_true (connStep_enter_ok hm ..) ⟨?_, ?_⟩
    all_goals
      intros
      contradiction
  | iterate ans =>
    rw [connStep_iterate_ok_iff]
    constructor
    · intro h
      refine ⟨?_, fun bp dataLen ans' rx bp' dataLen' hd v hp heq => ?_⟩
      · intros
        contradiction
      · cases heq
        have hiff := iterate_ok_iff hm t.globals ans (h₀ bp dataLen hp)
        exact hiff.mp (h bp dataLen hp) rx bp' dataLen' hd v
    · rintro ⟨-, h⟩ bp dataLen hp
      refine (iterate_ok_iff hm _ ans (h₀ bp dataLen hp)).mpr ?_
      intro rx bp' dataLen' hd v
      exact h bp dataLen ans rx bp' dataLen' hd v hp rfl

theorem parserCounts_sample : ParserCounts TaEnv.sample := by
  intro bs h hp
  cases bs with
  | nil => cases hp
  | cons b bs =>
    cases hp
    rw [nparsed_letterHead]
    exact ⟨Nat.one_pos, Nat.succ_pos _⟩

/-- A user's request for the web application is harmless. -/
theorem harmless_get :
    ∃ t, Run (taStep TaEnv.sample) (fun _ _ => True) Ta.init
        (startConn 0 ⟨badcertMissing, none⟩) t ∧
      Harmless TaEnv.sample t ⟨0, .iterate (.reading [71])⟩ := by
  obtain ⟨u, hu, -⟩ : ∃ u, Run (taStep TaEnv.sample) (fun _ _ => True) Ta.init
      (startConn 0 ⟨badcertMissing, none⟩ ++ [⟨0, .iterate (.reading [71])⟩]) u ∧
        (u.conns 0).client.rx.reqIdx = 0 := exists_run_of_exec (by decide +kernel)
  obtain ⟨t, hr, -, hs⟩ := Run.snoc_iff.mp hu
  exact ⟨t, hr, (no_abort_iff_harmless rfl parserCounts_sample hr _).mp ⟨u, hs⟩⟩

/-- Two ways to end the service: an expired certificate in an otherwise successful handshake, and a
body length of eleven digits. -/
theorem peer_aborts_service :
    (∃ t, Run (taStep TaEnv.sample) (fun _ _ => True) Ta.init [⟨0, .connect⟩] t ∧
        taStep TaEnv.sample t ⟨0, .handshake 0 ⟨1, some [97]⟩⟩ = .error .userType) ∧
      ∃ t, Run (taStep TaEnv.sample) (fun _ _ => True) Ta.init
          (startConn 0 ⟨badcertMissing, none⟩) t ∧
        taStep TaEnv.sample t ⟨0, .iterate (.reading [88])⟩ = .error .contentLength := by
  constructor
  · exact ⟨_, .cons trivial rfl (.nil _), rfl⟩
  · exact ⟨_, .cons trivial rfl (.cons trivial rfl (.cons trivial rfl (.nil _))), rfl⟩

end TrustedGateway
