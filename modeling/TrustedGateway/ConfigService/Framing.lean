import TrustedGateway.ConfigService.Aborts

/-!
# How bytes become requests

The bytes of a client arrive in pieces that say nothing about where its requests begin and end.
What the handlers should see is determined by the bytes alone: `Stream env S rs` says that the
bytes `S` are the requests `rs`, one after the other, with an unfinished one at the end.

The loop finds them as long as it stays on the bytes.  It does not always: after a request it
goes on at an offset counted from the start of the buffer, which is the end of that request only
if the request itself began there, and it gives up a request that would fit when the bytes it has
and the announced body together exceed the buffer.  `Orderly` excludes these two situations.
-/

namespace TrustedGateway

open StepSystem FlatMemory

/-- The parser is a deterministic prefix parser: what follows a head does not matter, and a proper
prefix of a head is incomplete. -/
structure PrefixParser (env : TaEnv) : Prop where
  counts : ParserCounts env
  extend : ∀ bs h, env.phrParseRequest bs = .head h → ∀ rest,
    env.phrParseRequest (bs.take h.nparsed ++ rest) = .head h
  short : ∀ bs h, env.phrParseRequest bs = .head h → ∀ k < h.nparsed,
    env.phrParseRequest (bs.take k) = .incomplete

/-- The bytes are exactly one request: a head, and behind it the body its `Content-Length` line
announces. -/
inductive IsRequest (env : TaEnv) (bs : List Byte) : Request → Prop
  | bare {h : ReqHead} (hparse : env.phrParseRequest bs = .head h)
      (hlen : scanContentLength h.headers = .ok .absent) (hall : bs.length = h.nparsed) :
      IsRequest env bs ⟨h, none⟩
  | body {h : ReqHead} {n : ℕ} (hparse : env.phrParseRequest bs = .head h)
      (hlen : scanContentLength h.headers = .ok (.length n)) (hall : bs.length = h.nparsed + n) :
      IsRequest env bs ⟨h, some (bs.drop h.nparsed)⟩

/-- The byte stream consists of these requests, each of which fits the buffer, and of the beginning
of one more. -/
inductive Stream (env : TaEnv) : List Byte → List Request → Prop
  | nil : Stream env [] []
  | unfinished {rest bs : List Byte} {r : Request} (hr : IsRequest env bs r)
      (hfits : bs.length ≤ reqBufSize) (hpre : rest <+: bs) (hne : rest ≠ bs) :
      Stream env rest []
  | cons {bs rest : List Byte} {r : Request} {rs : List Request} (hr : IsRequest env bs r)
      (hfits : bs.length ≤ reqBufSize) (hrest : Stream env rest rs) :
      Stream env (bs ++ rest) (r :: rs)

/-! ## What the scan makes of a stream -/

/-- If the bytes hold a head and a part of its body, then they and the announced body together fit
the buffer. -/
def BodyFits (env : TaEnv) (w : List Byte) : Prop :=
  ∀ h n, env.phrParseRequest w = .head h → scanContentLength h.headers = .ok (.length n) →
    w.length - h.nparsed < n → w.length + n ≤ reqBufSize

section Scan

variable {env : TaEnv} (hp : PrefixParser env) {bs w : List Byte} {r : Request}
include hp

/-- A request is recognised whatever follows it. -/
theorem scan_of_isRequest (hr : IsRequest env bs r) (rest : List Byte) :
    scanRequest env (bs ++ rest) = .ok (.request r) ∧ r.size = bs.length := by
  cases hr with
  | @bare h hparse hlen hall =>
    have hparse' : env.phrParseRequest (bs ++ rest) = .head h := by
      have := hp.extend bs h hparse rest
      rwa [← hall, List.take_length] at this
    refine ⟨by simp only [scanRequest, hparse', hlen], ?_⟩
    rw [hall]
    rfl
  | @body h n hparse hlen hall =>
    have hparse' : env.phrParseRequest (bs ++ rest) = .head h := by
      have := hp.extend bs h hparse (bs.drop h.nparsed ++ rest)
      rwa [← List.append_assoc, List.take_append_drop] at this
    have henough : ¬ (0 < n ∧ (bs ++ rest).length - h.nparsed < n) := by
      rw [List.length_append]
      omega
    have htake : ((bs ++ rest).drop h.nparsed).take n = bs.drop h.nparsed := by
      rw [List.drop_append_of_le_length (by omega), List.take_append_of_le_length
        (by rw [List.length_drop]; omega), List.take_of_length_le]
      rw [List.length_drop]
      omega
    refine ⟨by simp only [scanRequest, hparse', hlen, if_neg henough, htake], ?_⟩
    simp only [Request.size, Request.bodyLen, Option.getD_some, List.length_drop]
    omega

/-- On a proper prefix of a request the parser sees no head, or the same head. -/
theorem parse_of_cut_head {h : ReqHead} (hparse : env.phrParseRequest bs = .head h)
    (hpre : w <+: bs) :
    env.phrParseRequest w = .incomplete ∨
      (h.nparsed ≤ w.length ∧ env.phrParseRequest w = .head h) := by
  obtain ⟨z, rfl⟩ := hpre
  rcases Nat.lt_or_ge w.length h.nparsed with hk | hk
  · left
    have := hp.short (w ++ z) h hparse w.length hk
    rwa [List.take_left] at this
  · right
    refine ⟨hk, ?_⟩
    have := hp.extend (w ++ z) h hparse (w.drop h.nparsed)
    rwa [List.take_append_of_le_length hk, List.take_append_drop] at this

/-- A proper prefix of a request is found incomplete, or refused because the bytes at hand and the
announced body do not fit the buffer together. -/
theorem scan_of_cut (hr : IsRequest env bs r) (hpre : w <+: bs) (hne : w ≠ bs) :
    scanRequest env w = .ok .incomplete ∨
      (scanRequest env w = .ok (.refused requestIsTooLongError) ∧
        ∃ h n, env.phrParseRequest w = .head h ∧ scanContentLength h.headers = .ok (.length n) ∧
          w.length - h.nparsed < n ∧ reqBufSize < w.length + n) := by
  have hlt : w.length < bs.length := by
    rcases Nat.lt_or_ge w.length bs.length with hlt | hge
    · exact hlt
    · exact absurd (hpre.eq_of_length_le hge) hne
  unfold scanRequest
  cases hr with
  | bare hparse hlen hall =>
    rcases parse_of_cut_head hp hparse hpre with hw | ⟨hk, hw⟩
    · left
      simp only [hw]
    · omega
  | @body h n hparse hlen hall =>
    rcases parse_of_cut_head hp hparse hpre with hw | ⟨hk, hw⟩
    · left
      simp only [hw]
    · -- the head is there and the body is cut
      simp only [hw, hlen]
      have hcut : w.length - h.nparsed < n := by omega
      rw [if_pos ⟨by omega, hcut⟩]
      split
      · rename_i hlong
        refine Or.inr ⟨rfl, h, n, rfl, hlen, hcut, ?_⟩
        exact lt_of_lt_of_le hlong (Nat.mod_le _ _)
      · exact Or.inl rfl

theorem scan_ne_request_of_cut (hr : IsRequest env bs r) (hpre : w <+: bs) (hne : w ≠ bs)
    (r' : Request) : scanRequest env w ≠ .ok (.request r') := by
  rcases scan_of_cut hp hr hpre hne with h | ⟨h, -⟩ <;> rw [h] <;> nofun

omit hp in
theorem isRequest_ne_nil (hc : ParserCounts env) (hr : IsRequest env bs r) : bs ≠ [] := by
  intro hnil
  have hlen : bs.length = 0 := by rw [hnil]; rfl
  cases hr with
  | bare hparse hl hall | body hparse hl hall =>
    have := (hc _ _ hparse).1
    omega

omit hp in
theorem scan_nil (hc : ParserCounts env) (r : Request) :
    scanRequest env [] ≠ .ok (.request r) := by
  unfold scanRequest
  split
  · nofun
  · nofun
  · rename_i h hparse
    have := hc [] h hparse
    simp only [List.length_nil] at this
    omega

/-- A request the scan finds at the beginning of a stream is its first request. -/
theorem stream_of_scan {S : List Byte} {rs : List Request} (hS : Stream env S rs) (hpre : w <+: S)
    (hscan : scanRequest env w = .ok (.request r)) :
    ∃ bs rest todo, S = bs ++ rest ∧ rs = r :: todo ∧ IsRequest env bs r ∧ Stream env rest todo ∧
      bs <+: w ∧ r.size = bs.length := by
  cases hS with
  | nil =>
    obtain rfl : w = [] := List.prefix_nil.mp hpre
    exact absurd hscan (scan_nil hp.counts r)
  | @unfinished _ bs r₀ hr hfits hrest hne =>
    refine absurd hscan (scan_ne_request_of_cut hp hr (hpre.trans hrest) ?_ r)
    rintro rfl
    exact hne (hrest.eq_of_length_le hpre.length_le)
  | @cons bs rest r₀ todo hr hfits hrest =>
    have hbs : bs <+: w := by
      rcases List.prefix_or_prefix_of_prefix (List.prefix_append bs rest) hpre with h | h
      · exact h
      · by_cases hwb : w = bs
        · rw [hwb]
        · exact absurd hscan (scan_ne_request_of_cut hp hr h hwb r)
    obtain ⟨z, rfl⟩ := hbs
    obtain ⟨hscan', hsize⟩ := scan_of_isRequest hp hr z
    rw [hscan] at hscan'
    cases hscan'
    exact ⟨bs, rest, todo, rfl, rfl, hr, hrest, List.prefix_append bs z, hsize⟩

/-- On the beginning of a stream the scan finds a request, or too few bytes of one, unless the
bytes at hand and the announced body do not fit the buffer together. -/
theorem scan_of_stream {S : List Byte} {rs : List Request} (hS : Stream env S rs) (hpre : w <+: S)
    (hne : w ≠ []) (hfits : BodyFits env w) :
    scanRequest env w = .ok .incomplete ∨ ∃ r, scanRequest env w = .ok (.request r) := by
  have hcut : ∀ {bs : List Byte} {r : Request}, IsRequest env bs r → w <+: bs → w ≠ bs →
      scanRequest env w = .ok .incomplete := by
    intro bs r hr hpre' hne'
    rcases scan_of_cut hp hr hpre' hne' with h | ⟨-, h, n, hparse, hlen, hshort, hlong⟩
    · exact h
    · have := hfits h n hparse hlen hshort
      omega
  cases hS with
  | nil => exact absurd (List.prefix_nil.mp hpre) hne
  | @unfinished _ bs r₀ hr hfits hrest hne' =>
    refine Or.inl (hcut hr (hpre.trans hrest) ?_)
    rintro rfl
    exact hne' (hrest.eq_of_length_le hpre.length_le)
  | @cons bs rest r₀ todo hr hfits hrest =>
    rcases List.prefix_or_prefix_of_prefix (List.prefix_append bs rest) hpre with h | h
    · obtain ⟨z, rfl⟩ := h
      exact Or.inr ⟨r₀, (scan_of_isRequest hp hr z).1⟩
    · by_cases hwb : w = bs
      · refine Or.inr ⟨r₀, ?_⟩
        have := (scan_of_isRequest hp hr []).1
        rwa [List.append_nil, ← hwb] at this
      · exact Or.inl (hcut hr h hwb)

end Scan

/-! ## The loop on the bytes -/

/-- The bytes of the buffer that no request was made of yet. -/
def Conn.window (c : Conn) : List Byte :=
  match c.phase with
  | .serving bp dataLen => slice c.client.rx.buffer bp dataLen
  | _ => slice c.client.rx.buffer 0 c.client.rx.reqIdx

/-- The loop will ask for new bytes before it does anything else. -/
def Starved (c : Conn) : Prop :=
  (c.phase = .ready ∧ (c.client.rx.reqIdx = 0 ∨ c.client.rx.isPartial = true)) ∨
    ∃ bp dataLen, c.phase = .serving bp dataLen ∧ (dataLen = 0 ∨ c.client.rx.isPartial = true)

/-- A turn stays on the bytes it looks at.  A request that does not begin at the head of the buffer
is the last thing in it, and while a body is incomplete there is room for all of it. -/
structure OrderlyTurn (env : TaEnv) (rx : Rx) (bp dataLen : ℕ) : Prop where
  last : ∀ bs r, bp ≠ 0 → IsRequest env bs r → bs <+: slice rx.buffer bp dataLen →
    bs.length = dataLen
  fits : BodyFits env (slice rx.buffer bp dataLen)

/-- A turn on connection `i` is orderly. -/
def Orderly (env : TaEnv) (i : ℕ) (t : Ta) (ev : TaEvent) : Prop :=
  ∀ bp dataLen ans rx bp' dataLen', ev.conn = i → (t.conns i).phase = .serving bp dataLen →
    ev.event = .iterate ans →
    receive (t.conns i).client.rx bp dataLen ans.read = .ok (.ready rx bp' dataLen') →
    OrderlyTurn env rx bp' dataLen'

/-- As far as the delivered bytes belong to the stream, the loop gave none of them up and the
handlers saw its first requests; a loop that asks for more has room for more, and has handed out
every request of the stream once all of it was delivered. -/
def Framed (S : List Byte) (rs : List Request) (c : Conn) : Prop :=
  c.client.rx.delivered <+: S →
    c.client.rx.gaveUp = false ∧ c.client.rx.handled <+: rs ∧
    (Starved c → c.client.rx.reqIdx < reqBufSize ∧
      (c.client.rx.delivered = S → c.client.rx.handled = rs))

/-- The delivered bytes are those of the handled requests and the window. -/
def InFrame (env : TaEnv) (S : List Byte) (rs : List Request) (rx : Rx) (w : List Byte) : Prop :=
  ∃ done rest todo, S = done ++ rest ∧ rs = rx.handled ++ todo ∧ Stream env rest todo ∧
    rx.delivered = done ++ w

/-- The invariant of a connection. -/
structure FrameInv (env : TaEnv) (S : List Byte) (rs : List Request) (c : Conn) : Prop where
  kept : c.client.rx.delivered <+: S → c.client.rx.gaveUp = false ∧ c.client.rx.handled <+: rs
  frame : c.client.rx.delivered <+: S → c.phase ≠ .closed →
    InFrame env S rs c.client.rx c.window
  waiting : c.phase ≠ .closed → c.client.rx.isPartial = true →
    ∀ bs r, IsRequest env bs r → ¬ bs <+: c.window

section Loop

variable {env : TaEnv} {S : List Byte} {rs : List Request}

theorem slice_getD (bs : List Byte) : slice (fun k => bs.getD k 0) 0 bs.length = bs := by
  apply List.ext_getElem?
  intro k
  rcases Nat.lt_or_ge k bs.length with hk | hk
  · simp [slice, List.getElem?_range hk, List.getElem?_eq_getElem hk]
  · rw [List.getElem?_eq_none (by simpa using hk), List.getElem?_eq_none hk]

/-- New bytes are appended to what the buffer holds. -/
theorem slice_store (rx : Rx) (bs : List Byte) :
    slice (rx.store bs).buffer 0 (rx.reqIdx + bs.length) = slice rx.buffer 0 rx.reqIdx ++ bs := by
  simp only [Rx.store]
  rw [slice_add, Nat.zero_add, slice_copy_of_disjoint (Or.inl (by omega)), slice_copy_self,
    slice_getD]

/-- The rest of the buffer is moved to its head. -/
theorem slice_moveRest (rx : Rx) (bp dataLen : ℕ) :
    slice (rx.moveRest bp dataLen).buffer 0 dataLen = slice rx.buffer bp dataLen := by
  unfold Rx.moveRest
  split
  · exact slice_copy_self ..
  · rename_i hbp
    rw [not_not.mp hbp]

variable {bp dataLen : ℕ} {c : Client} {rx : Rx} {w : List Byte}

/-- What was delivered of the rest of the stream is the window. -/
theorem InFrame.window_of_delivered (h : InFrame env S rs rx w) (hd : rx.delivered <+: S) :
    ∃ done rest todo, S = done ++ rest ∧ rs = rx.handled ++ todo ∧ Stream env rest todo ∧
      rx.delivered = done ++ w ∧ w <+: rest := by
  obtain ⟨done, rest, todo, hsplit, hrs, hstream, hdel⟩ := h
  refine ⟨done, rest, todo, hsplit, hrs, hstream, hdel, ?_⟩
  rw [hdel, hsplit] at hd
  exact (List.prefix_append_right_inj done).mp hd

theorem handled_prefix_of_inFrame (h : InFrame env S rs rx w) : rx.handled <+: rs := by
  obtain ⟨-, -, todo, -, hrs, -, -⟩ := h
  exact ⟨todo, hrs.symm⟩

/-- A new client has an empty window. -/
theorem frameInv_init (hS : Stream env S rs) {ph : Phase} (p : Peer)
    (hph : ∀ bp dataLen, ph ≠ .serving bp dataLen) : FrameInv env S rs ⟨ph, Client.init p⟩ := by
  have hw : Conn.window ⟨ph, Client.init p⟩ = [] := by
    unfold Conn.window
    split
    · rename_i hp
      exact absurd hp (hph _ _)
    · rfl
  refine ⟨fun _ => ⟨rfl, List.nil_prefix⟩, fun _ _ => ?_, nofun⟩
  rw [hw]
  exact ⟨[], S, rs, rfl, rfl, hS, rfl⟩

/-- Reading keeps the window in frame, and gives the turn something to look at. -/
theorem inFrame_receive {rx' : Rx} {bp' dataLen' : ℕ} {ans : ReadAns}
    (h : rx.delivered <+: S → InFrame env S rs rx (slice rx.buffer bp dataLen))
    (hrecv : receive rx bp dataLen ans = .ok (.ready rx' bp' dataLen')) :
    (rx'.delivered <+: S → InFrame env S rs rx' (slice rx'.buffer bp' dataLen')) ∧
      slice rx'.buffer bp' dataLen' ≠ [] ∧ rx'.gaveUp = rx.gaveUp ∧
      (rx'.delivered <+: S → rx.delivered <+: S) := by
  rcases receive_eq_ready hrecv with
    ⟨bs, hne, -, rfl, rfl, rfl, rfl, rfl⟩ | ⟨hlen, -, rfl, rfl, rfl⟩
  · rw [slice_store]
    have hback : (rx.store bs).delivered <+: S → rx.delivered <+: S :=
      fun hd => (List.prefix_append _ _).trans hd
    refine ⟨fun hd => ?_, by simp [hne], rfl, hback⟩
    obtain ⟨done, rest, todo, hsplit, hrs, hstream, hdel⟩ := h (hback hd)
    refine ⟨done, rest, todo, hsplit, hrs, hstream, ?_⟩
    simp only [Rx.store, hdel, List.append_assoc]
  · refine ⟨h, ?_, rfl, id⟩
    intro hnil
    have := congrArg List.length hnil
    rw [length_slice] at this
    exact hlen this

theorem hostNext_ready_or_closed (code : ℤ) : hostNext code = .ready ∨ hostNext code = .closed := by
  unfold hostNext
  split
  · exact Or.inl rfl
  · exact Or.inr rfl

/-- A connection that is not in the loop has the whole buffer as its window. -/
theorem window_hostNext (code : ℤ) (c : Client) :
    Conn.window ⟨hostNext code, c⟩ = slice c.rx.buffer 0 c.rx.reqIdx := by
  rcases hostNext_ready_or_closed code with h | h <;> rw [h] <;> rfl

/-- The connection is given up after everything but a request to read or to write. -/
theorem frameInv_closed (h : c.rx.delivered <+: S → c.rx.gaveUp = false ∧ c.rx.handled <+: rs) :
    FrameInv env S rs ⟨.closed, c⟩ :=
  ⟨h, fun _ hno => absurd rfl hno, fun hno => absurd rfl hno⟩

/-- The handled request leaves the window. -/
theorem inFrame_request (hp : PrefixParser env) {r : Request} (h : InFrame env S rs rx w)
    (hd : rx.delivered <+: S) (hscan : scanRequest env w = .ok (.request r)) :
    ∃ bs, IsRequest env bs r ∧ bs <+: w ∧ r.size = bs.length ∧
      InFrame env S rs { rx with isPartial := false, handled := rx.handled ++ [r] }
        (w.drop r.size) := by
  obtain ⟨done, rest, todo, hsplit, hrs, hstream, hdel, hpre⟩ := h.window_of_delivered hd
  obtain ⟨bs, rest', todo', rfl, rfl, hr, hstream', hbs, hsize⟩ :=
    stream_of_scan hp hstream hpre hscan
  obtain ⟨z, rfl⟩ := hbs
  refine ⟨bs, hr, List.prefix_append bs z, hsize, done ++ bs, rest', todo', ?_, ?_, hstream', ?_⟩
  · rw [hsplit, List.append_assoc]
  · rw [hrs]
    simp only [List.append_assoc, List.singleton_append]
  · rw [hsize, List.drop_left, List.append_assoc]
    exact hdel

/-- The window after a request that began at the head of the buffer, or was the last thing in it. -/
theorem slice_behind {buffer : ℕ → Byte} {n : ℕ} (hn : n ≤ dataLen) (h : bp ≠ 0 → n = dataLen) :
    slice buffer n (dataLen - n) = (slice buffer bp dataLen).drop n := by
  rw [drop_slice _ _ _ _ hn]
  by_cases hbp : bp = 0
  · rw [hbp, Nat.zero_add]
  · rw [h hbp, Nat.sub_self, slice_zero, slice_zero]

/-- On a window in frame the scan finds a request or too few bytes of one. -/
theorem scan_inFrame (hp : PrefixParser env) (h : InFrame env S rs rx w) (hd : rx.delivered <+: S)
    (hne : w ≠ []) (hfits : BodyFits env w) :
    scanRequest env w = .ok .incomplete ∨ ∃ r, scanRequest env w = .ok (.request r) := by
  obtain ⟨done, rest, todo, -, -, hstream, -, hpre⟩ := h.window_of_delivered hd
  exact scan_of_stream hp hstream hpre hne hfits

/-- A refusal ends the connection. -/
theorem hostNext_refused {bs : List Byte} {code : ℤ}
    (h : scanRequest env bs = .ok (.refused code)) : hostNext code = .closed := by
  unfold scanRequest at h
  split at h
  · cases h
  · cases h
  · split at h
    · cases h
    · cases h
      rfl
    · cases h
    · split at h
      · split at h
        · cases h
          rfl
        · cases h
      · cases h

/-- Moving the rest does not touch the history. -/
theorem moveRest_frame (rx : Rx) (bp dataLen : ℕ) :
    (rx.moveRest bp dataLen).delivered = rx.delivered ∧
      (rx.moveRest bp dataLen).handled = rx.handled ∧
      (rx.moveRest bp dataLen).gaveUp = rx.gaveUp ∧
      (rx.moveRest bp dataLen).isPartial = rx.isPartial := by
  unfold Rx.moveRest
  split <;> exact ⟨rfl, rfl, rfl, rfl⟩

section Turn

variable (hp : PrefixParser env) {c : Client} {rx : Rx} {bp dataLen : ℕ}

/-- A turn that reads nothing leaves the connection at the head of the buffer. -/
theorem frameInv_unread {code : ℤ} {ans : ReadAns} (h : FrameInv env S rs ⟨.serving bp dataLen, c⟩)
    (hrecv : receive c.rx bp dataLen ans = .ok (.ret code)) :
    FrameInv env S rs ⟨hostNext code, c⟩ := by
  have hall : bp = 0 ∧ dataLen = c.rx.reqIdx := by
    unfold receive at hrecv
    split at hrecv
    · split at hrecv
      · cases hrecv
      · rename_i hpos
        obtain ⟨hlen, hbp⟩ := not_or.mp hpos
        exact ⟨not_not.mp hbp, not_not.mp hlen⟩
    · cases hrecv
  obtain ⟨rfl, rfl⟩ := hall
  have hw := window_hostNext code c
  refine ⟨h.kept, fun hd _ => ?_, fun _ hpart => ?_⟩
  · rw [hw]
    exact h.frame hd nofun
  · rw [hw]
    exact h.waiting nofun hpart

/-- Behind a request the connection goes on with what is left of the window. -/
theorem frameInv_afterRequest {n left : ℕ} {ret : ℤ} {out : Outbox} (hpos : 0 < n)
    (hpart : rx.isPartial = false) (hgave : rx.delivered <+: S → rx.gaveUp = false)
    (hnext : rx.delivered <+: S → InFrame env S rs rx (slice rx.buffer n left)) :
    FrameInv env S rs ⟨(afterRequest rx n left ret).1.phase,
      { c with rx := (afterRequest rx n left ret).2, out := out }⟩ := by
  have hkept : rx.delivered <+: S → rx.gaveUp = false ∧ rx.handled <+: rs :=
    fun hd => ⟨hgave hd, handled_prefix_of_inFrame (hnext hd)⟩
  have hwhole : ¬ rx.isPartial = true := by
    rw [hpart]
    exact Bool.false_ne_true
  unfold afterRequest
  split
  · -- the response is stuck: the rest is moved to the head of the buffer
    have hmove : rx.moveRest n left =
        { rx with buffer := copy rx.buffer 0 rx.buffer n left, reqIdx := left } :=
      if_pos (Nat.ne_of_gt hpos)
    rw [hmove]
    refine ⟨hkept, fun hd _ => ?_, fun _ hcon => absurd hcon hwhole⟩
    dsimp only [Turn.phase]
    rw [window_hostNext]
    dsimp only
    rw [slice_copy_self]
    exact hnext hd
  · split
    · rename_i hzero
      refine ⟨hkept, fun hd _ => ?_, fun _ hcon => absurd hcon hwhole⟩
      have hin := hnext hd
      rwa [hzero, slice_zero] at hin
    · exact ⟨hkept, fun hd _ => hnext hd, fun _ hcon => absurd hcon hwhole⟩

include hp

/-- A turn that finds too few bytes waits at the head of the buffer. -/
theorem frameInv_incomplete
    (hin : rx.delivered <+: S → InFrame env S rs rx (slice rx.buffer bp dataLen))
    (hgave : rx.delivered <+: S → rx.gaveUp = false)
    (hscan : scanRequest env (slice rx.buffer bp dataLen) = .ok .incomplete) :
    FrameInv env S rs ⟨.serving 0 dataLen,
      { c with rx := { rx.moveRest bp dataLen with isPartial := true } }⟩ := by
  obtain ⟨hdel, hhandled, hgaveUp, -⟩ := moveRest_frame rx bp dataLen
  have hw := slice_moveRest rx bp dataLen
  refine ⟨fun hd => ?_, fun hd _ => ?_, fun _ _ bs r hr hpre => ?_⟩
  · dsimp only at hd ⊢
    rw [hdel] at hd
    rw [hgaveUp, hhandled]
    exact ⟨hgave hd, handled_prefix_of_inFrame (hin hd)⟩
  · dsimp only at hd
    rw [hdel] at hd
    obtain ⟨done, rest, todo, hsplit, hrs, hstream, hdw⟩ := hin hd
    refine ⟨done, rest, todo, hsplit, hhandled ▸ hrs, hstream, ?_⟩
    exact (hdel.trans hdw).trans (congrArg (done ++ ·) hw.symm)
  · -- a complete request would have been found
    have hpre' : bs <+: slice rx.buffer bp dataLen := hw ▸ hpre
    obtain ⟨z, hz⟩ := hpre'
    have hfound := (scan_of_isRequest hp hr z).1
    rw [hz, hscan] at hfound
    cases hfound

/-- A turn that hands out a request goes on behind it. -/
theorem frameInv_request {r : Request} {ret : ℤ} {out : Outbox}
    (hin : rx.delivered <+: S → InFrame env S rs rx (slice rx.buffer bp dataLen))
    (hgave : rx.delivered <+: S → rx.gaveUp = false) (hG : OrderlyTurn env rx bp dataLen)
    (hscan : scanRequest env (slice rx.buffer bp dataLen) = .ok (.request r)) :
    FrameInv env S rs
      ⟨(afterRequest { rx with isPartial := false, handled := rx.handled ++ [r] } r.size
          (dataLen - r.size) ret).1.phase,
        { c with
          rx := (afterRequest { rx with isPartial := false, handled := rx.handled ++ [r] } r.size
            (dataLen - r.size) ret).2
          out := out }⟩ := by
  -- what is left behind the request is the window of the next turn
  have hnext : rx.delivered <+: S →
      InFrame env S rs { rx with isPartial := false, handled := rx.handled ++ [r] }
        (slice rx.buffer r.size (dataLen - r.size)) := by
    intro hd
    obtain ⟨bs, hr, hbs, hlen, hframe⟩ := inFrame_request hp (hin hd) hd hscan
    have hle : r.size ≤ dataLen := by
      have := hbs.length_le
      rwa [length_slice, ← hlen] at this
    rw [slice_behind hle fun hbp => hlen.trans (hG.last bs r hbp hr hbs)]
    exact hframe
  exact frameInv_afterRequest (size_pos_of_scan hp.counts hscan) rfl hgave hnext

end Turn

/-- One turn of the loop keeps the invariant. -/
theorem frameInv_iterate (hp : PrefixParser env) {g : Globals} {ans : Answers}
    {x : Turn × Globals × Client} (h : FrameInv env S rs ⟨.serving bp dataLen, c⟩)
    (hG : ∀ rx bp' dataLen', receive c.rx bp dataLen ans.read = .ok (.ready rx bp' dataLen') →
      OrderlyTurn env rx bp' dataLen') (hs : iterate env g c bp dataLen ans = .ok x) :
    FrameInv env S rs ⟨x.1.phase, x.2.2⟩ := by
  have hframe : c.rx.delivered <+: S → InFrame env S rs c.rx (slice c.rx.buffer bp dataLen) :=
    fun hd => h.frame hd nofun
  cases iterated_of_ok hs with
  | unread hrecv => exact frameInv_unread h hrecv
  | @bad rx bp' dataLen' w hrecv hscan hsend =>
    obtain ⟨hin, hne, -, -⟩ := inFrame_receive hframe hrecv
    refine frameInv_closed fun hd => ?_
    rcases scan_inFrame hp (hin hd) hd hne (hG _ _ _ hrecv).fits with h' | ⟨r, h'⟩ <;>
      rw [hscan] at h' <;> cases h'
  | @refused rx bp' dataLen' code hrecv hscan =>
    obtain ⟨hin, hne, -, -⟩ := inFrame_receive hframe hrecv
    dsimp only [Turn.phase]
    rw [hostNext_refused hscan]
    refine frameInv_closed fun hd => ?_
    rcases scan_inFrame hp (hin hd) hd hne (hG _ _ _ hrecv).fits with h' | ⟨r, h'⟩ <;>
      rw [hscan] at h' <;> cases h'
  | @incomplete rx bp' dataLen' hrecv hscan =>
    obtain ⟨hin, -, hgave, hback⟩ := inFrame_receive hframe hrecv
    exact frameInv_incomplete hp hin (fun hd => hgave.trans (h.kept (hback hd)).1) hscan
  | @request rx bp' dataLen' r ret g' out hrecv hscan hhandle =>
    obtain ⟨hin, -, hgave, hback⟩ := inFrame_receive hframe hrecv
    exact frameInv_request hp hin (fun hd => hgave.trans (h.kept (hback hd)).1)
      (hG _ _ _ hrecv) hscan

/-- What leaves the receiving side and the window alone keeps the invariant. -/
theorem FrameInv.move {c c' : Conn} (h : FrameInv env S rs c) (hrx : c'.client.rx = c.client.rx)
    (hw : c'.phase ≠ .closed → c.phase ≠ .closed ∧ c'.window = c.window) :
    FrameInv env S rs c' := by
  refine ⟨hrx ▸ h.kept, fun hd hopen => ?_, fun hopen hpart => ?_⟩
  · obtain ⟨hopen', hwin⟩ := hw hopen
    rw [hwin, hrx]
    exact h.frame (hrx ▸ hd) hopen'
  · obtain ⟨hopen', hwin⟩ := hw hopen
    rw [hwin]
    exact h.waiting hopen' (hrx ▸ hpart)

/-- Entering the loop looks at the whole buffer, and so does leaving it at once. -/
theorem frameInv_enter {g : Globals} {mallocs : List Bool} {writes : List ℤ} {x : Turn × Client}
    (h : FrameInv env S rs ⟨.ready, c⟩) (hs : enter env g c mallocs writes = .ok x) :
    FrameInv env S rs ⟨x.1.phase, x.2⟩ := by
  have hrx : x.2.rx = c.rx ∧ (x.1 = .loop 0 c.rx.reqIdx ∨ ∃ code, x.1 = .ret code) := by
    unfold enter at hs
    split at hs
    · cases hs
    · cases hs
      exact ⟨rfl, Or.inr ⟨_, rfl⟩⟩
    · split at hs
      · cases hs
        exact ⟨rfl, Or.inl rfl⟩
      · split at hs
        · cases hs
        · split at hs <;> cases hs
          · exact ⟨rfl, Or.inr ⟨_, rfl⟩⟩
          · exact ⟨rfl, Or.inl rfl⟩
  refine h.move hrx.1 fun _ => ⟨nofun, ?_⟩
  rcases hrx.2 with hturn | ⟨code, hturn⟩
  · simp only [hturn, Turn.phase, Conn.window, hrx.1]
  · rw [hturn]
    dsimp only [Turn.phase]
    rw [window_hostNext, hrx.1]
    rfl

/-- An orderly event keeps the invariant of the connection. -/
theorem frameInv_taStep (hp : PrefixParser env) (hS : Stream env S rs) {i : ℕ} {t t' : Ta}
    {ev : TaEvent} (h : FrameInv env S rs (t.conns i))
    (hG : Orderly env i t ev) (hs : taStep env t ev = .ok t') :
    FrameInv env S rs (t'.conns i) := by
  obtain ⟨x, hmoved, rfl⟩ := taStep_eq_ok hs
  dsimp only
  by_cases hi : i = ev.conn
  · subst hi
    rw [Function.update_self]
    have hG' := fun bp dataLen ans rx bp' dataLen' =>
      hG bp dataLen ans rx bp' dataLen' rfl
    generalize t.conns ev.conn = c at hmoved h hG'
    generalize ev.event = e at hmoved hG'
    obtain ⟨ph, c⟩ := c
    cases hmoved with
    | idle hout => exact h
    | connected hph | accepted hph hshake => exact frameInv_init hS _ nofun
    | rejected hph => exact frameInv_closed h.kept
    | entered hph henter =>
      dsimp only at hph
      subst hph
      exact frameInv_enter h henter
    | @iterated ans bp dataLen y hph hiter =>
      dsimp only at hph
      subst hph
      refine frameInv_iterate hp h (fun rx bp' dataLen' hrecv => ?_) hiter
      exact hG' bp dataLen ans rx bp' dataLen' rfl rfl hrecv
  · rw [Function.update_of_ne hi]
    exact h

/-- A loop that asks for more looks at all of the buffer. -/
theorem window_of_starved {c : Conn} (hbuf : BufferAt c) (hst : Starved c) :
    c.phase ≠ .closed ∧ c.window.length = c.client.rx.reqIdx ∧
      (c.window = [] ∨ c.client.rx.isPartial = true) := by
  rcases hst with ⟨hph, hst⟩ | ⟨bp, dataLen, hph, hst⟩
  · have hw : c.window = slice c.client.rx.buffer 0 c.client.rx.reqIdx := by
      simp only [Conn.window, hph]
    rw [hw]
    refine ⟨hph ▸ nofun, length_slice _ _ _, hst.imp_left fun h0 => ?_⟩
    rw [h0, slice_zero]
  · have hw : c.window = slice c.client.rx.buffer bp dataLen := by
      simp only [Conn.window, hph]
    have hlen : dataLen = c.client.rx.reqIdx := by
      rcases hbuf bp dataLen hph with ⟨-, hlen⟩ | ⟨-, hpos, hwhole⟩
      · exact hlen
      · rcases hst with h0 | hpart
        · omega
        · rw [hwhole] at hpart
          cases hpart
    rw [hw]
    refine ⟨hph ▸ nofun, (length_slice _ _ _).trans hlen, hst.imp_left fun h0 => ?_⟩
    rw [h0, slice_zero]

/-- The unfinished request at the beginning of a stream is shorter than the buffer. -/
theorem length_lt_of_unfinished {rest : List Byte} {todo : List Request} (h : Stream env rest todo)
    (hpre : w <+: rest) (hno : ∀ bs r, IsRequest env bs r → ¬ bs <+: w) :
    w.length < reqBufSize := by
  cases h with
  | nil =>
    rw [List.prefix_nil.mp hpre]
    exact Nat.succ_pos _
  | @unfinished _ bs r hr hfits hrest hne =>
    have hlt : rest.length < bs.length :=
      lt_of_le_of_ne hrest.length_le fun heq => hne (hrest.eq_of_length heq)
    have := hpre.length_le
    omega
  | @cons bs rest' r todo' hr hfits hrest =>
    have hlt : w.length < bs.length := by
      by_contra hge
      exact hno bs r hr (List.prefix_of_prefix_length_le (List.prefix_append bs rest') hpre
        (Nat.le_of_not_lt hge))
    omega

/-- A stream that begins with no complete request has none. -/
theorem stream_eq_nil {rest : List Byte} {todo : List Request} (h : Stream env rest todo)
    (hno : ∀ bs r, IsRequest env bs r → ¬ bs <+: rest) : todo = [] := by
  cases h with
  | nil | unfinished => rfl
  | @cons bs rest' r todo' hr => exact absurd (List.prefix_append bs rest') (hno bs r hr)

/-- The invariant says what the handlers saw. -/
theorem framed_of_frameInv (hp : PrefixParser env) {c : Conn} (hbuf : BufferAt c)
    (h : FrameInv env S rs c) : Framed S rs c := by
  intro hd
  obtain ⟨hgave, hhandled⟩ := h.kept hd
  refine ⟨hgave, hhandled, fun hst => ?_⟩
  obtain ⟨hopen, hlen, hwait⟩ := window_of_starved hbuf hst
  -- no complete request is in the buffer
  have hno : ∀ bs r, IsRequest env bs r → ¬ bs <+: c.window := by
    intro bs r hr
    rcases hwait with hnil | hpart
    · rw [hnil]
      exact fun hpre => isRequest_ne_nil hp.counts hr (List.prefix_nil.mp hpre)
    · exact h.waiting hopen hpart bs r hr
  obtain ⟨done, rest, todo, hsplit, hrs, hstream, hdel, hpre⟩ :=
    (h.frame hd hopen).window_of_delivered hd
  constructor
  · have := length_lt_of_unfinished hstream hpre hno
    omega
  · intro hall
    have hrest : c.window = rest := by
      rw [hdel, hsplit] at hall
      exact List.append_cancel_left hall
    rw [hrs, stream_eq_nil hstream (hrest ▸ hno), List.append_nil]

/-- **The requests are those of the byte stream.**  Two connections are fed pieces of one byte
stream, each in its own way and with its own pattern of writes, while every turn on them is
orderly.  Then at any time the handlers saw the first requests of the stream, nothing of it was
given up and a loop that asks for more has room for it; and when both have delivered all of it
and ask for more, both have handed out its requests and nothing else. -/
theorem framing_of_orderly (hp : PrefixParser env) (hS : Stream env S rs) {i j : ℕ}
    {evs evs' : List TaEvent} {t t' : Ta} (hr : Run (taStep env) (Orderly env i) Ta.init evs t)
    (hr' : Run (taStep env) (Orderly env j) Ta.init evs' t') :
    Always (taStep env) (fun t => Framed S rs (t.conns i)) Ta.init evs ∧
      Always (taStep env) (fun t => Framed S rs (t.conns j)) Ta.init evs' ∧
      ((t.conns i).client.rx.delivered = S → Starved (t.conns i) →
        (t'.conns j).client.rx.delivered = S → Starved (t'.conns j) →
        (t.conns i).client.rx.handled = (t'.conns j).client.rx.handled ∧
          (t.conns i).client.rx.handled = rs) := by
  have hrun : ∀ {k : ℕ} {es : List TaEvent} {u : Ta},
      Run (taStep env) (Orderly env k) Ta.init es u →
      Always (taStep env) (fun t => Framed S rs (t.conns k)) Ta.init es := by
    intro k es u hu
    refine Run.always (I := fun t => (∀ l, BufferAt (t.conns l)) ∧ FrameInv env S rs (t.conns k))
      ?_ (fun t h => framed_of_frameInv hp (h.1 k) h.2) hu ⟨?_, ?_⟩
    · rintro s ev s' ⟨hbuf, hframe⟩ hG hs
      exact ⟨bufferAt_taStep hp.counts hbuf hs, frameInv_taStep hp hS hframe hG hs⟩
    · intro l
      exact bufferAt_of_not_serving nofun
    · exact frameInv_init hS ⟨0, none⟩ fun _ _ => Phase.noConfusion
  have hfree : ∀ {k : ℕ} {es : List TaEvent} {u : Ta},
      Run (taStep env) (Orderly env k) Ta.init es u → Framed S rs (u.conns k) :=
    fun hu => hrun hu _ _ (List.prefix_refl _) (hu.mono fun _ _ _ => trivial)
  refine ⟨hrun hr, hrun hr', fun hall hst hall' hst' => ?_⟩
  have h₁ := ((hfree hr (hall ▸ List.prefix_refl _)).2.2 hst).2 hall
  have h₂ := ((hfree hr' (hall' ▸ List.prefix_refl _)).2.2 hst').2 hall'
  exact ⟨h₁.trans h₂.symm, h₁⟩

end Loop

/-! ## One stream, cut in different ways -/

theorem prefixParser_sample : PrefixParser TaEnv.sample := by
  refine ⟨parserCounts_sample, ?_, ?_⟩
  · intro bs h hparse rest
    cases bs with
    | nil => cases hparse
    | cons b bs =>
      cases hparse
      rw [nparsed_letterHead]
      rfl
  · intro bs h hparse k hk
    cases bs with
    | nil => cases hparse
    | cons b bs =>
      cases hparse
      rw [nparsed_letterHead] at hk
      obtain rfl : k = 0 := by omega
      rfl

/-- The bodies of the sample requests have at most one byte. -/
theorem contentLength_letterHead {b : Byte} {n : ℕ}
    (h : scanContentLength (letterHead b).headers = .ok (.length n)) : n ≤ 1 := by
  have hcases : scanContentLength (letterHead b).headers ∈
      [.ok .absent, .ok (.length 1), .error .contentLength] := by
    unfold letterHead
    split
    · decide
    · split
      · decide
      · split
        · decide
        · split <;> decide
  rw [h] at hcases
  simp only [List.mem_cons, reduceCtorEq, Except.ok.injEq, BodyLen.length.injEq, List.not_mem_nil,
    or_false, false_or] at hcases
  omega

/-- The turn looks at few bytes, and at one byte only if these are not at the head of the buffer. -/
def smallTurn (i : ℕ) (t : Ta) (ev : TaEvent) : Bool :=
  match (t.conns i).phase, ev.event with
  | .serving bp dataLen, .iterate ans =>
    match receive (t.conns i).client.rx bp dataLen ans.read with
    | .ok (.ready _ bp' dataLen') => decide ((bp' = 0 ∨ dataLen' ≤ 1) ∧ dataLen' < reqBufSize)
    | _ => true
  | _, _ => true

theorem orderly_of_smallTurn {i : ℕ} {t : Ta} {ev : TaEvent} (h : smallTurn i t ev = true) :
    Orderly TaEnv.sample i t ev := by
  intro bp dataLen ans rx bp' dataLen' hi hph hev hrecv
  simp only [smallTurn, hph, hev, hrecv, decide_eq_true_eq] at h
  obtain ⟨hone, hroom⟩ := h
  constructor
  · intro bs r hbp hr hpre
    have hpos := List.length_pos_iff.mpr (isRequest_ne_nil parserCounts_sample hr)
    have hle := hpre.length_le
    rw [length_slice] at hle
    omega
  · intro hd n hparse hlen hcut
    rw [length_slice]
    have hn : n ≤ 1 := by
      generalize slice rx.buffer bp' dataLen' = w at hparse
      cases w with
      | nil => cases hparse
      | cons b w =>
        cases hparse
        exact contentLength_letterHead hlen
    omega

/-- What a connection received and handed out, and where it is. -/
def Conn.progress (c : Conn) : Phase × List Byte × List Request :=
  (c.phase, c.client.rx.delivered, c.client.rx.handled)

theorem starved_of_progress {c : Conn} {S : List Byte} {rs : List Request}
    (h : c.progress = (.serving 0 0, S, rs)) :
    Starved c ∧ c.client.rx.delivered = S ∧ c.client.rx.handled = rs := by
  simp only [Conn.progress, Prod.mk.injEq] at h
  exact ⟨Or.inr ⟨0, 0, h.1, Or.inl rfl⟩, h.2⟩

/-- A user connects and reads these pieces. -/
def readPieces (bss : List (List Byte)) : List TaEvent :=
  startConn 0 ⟨badcertMissing, none⟩ ++ bss.map fun bs => ⟨0, .iterate (.reading bs)⟩

/-- A letter without a body is a request. -/
theorem isRequest_letter {b : Byte} (h : scanContentLength (letterHead b).headers = .ok .absent) :
    IsRequest TaEnv.sample [b] ⟨letterHead b, none⟩ :=
  .bare rfl h (nparsed_letterHead b).symm

/-- Two requests in one read, or in two. -/
theorem framing_two_requests :
    ∃ t t', (t.conns 0).client.rx.handled = (t'.conns 0).client.rx.handled ∧
      (t.conns 0).client.rx.handled = [⟨letterHead 71, none⟩, ⟨letterHead 76, none⟩] ∧
      Run (taStep TaEnv.sample) (Orderly TaEnv.sample 0) Ta.init
        (startConn 0 ⟨badcertMissing, none⟩ ++
          [⟨0, .iterate (.reading [71, 76])⟩, ⟨0, .iterate (.reading [])⟩]) t ∧
      Run (taStep TaEnv.sample) (Orderly TaEnv.sample 0) Ta.init
        (startConn 0 ⟨badcertMissing, none⟩ ++
          [⟨0, .iterate (.reading [71])⟩, ⟨0, .iterate (.reading [76])⟩]) t' := by
  obtain ⟨t, ht, hend⟩ : ∃ t, Run (taStep TaEnv.sample) (fun t ev => smallTurn 0 t ev = true)
      Ta.init (readPieces [[71, 76], []]) t ∧ (t.conns 0).progress =
        (.serving 0 0, [71, 76], [⟨letterHead 71, none⟩, ⟨letterHead 76, none⟩]) :=
    exists_run_of_exec (by decide +kernel)
  obtain ⟨t', ht', hend'⟩ : ∃ t, Run (taStep TaEnv.sample) (fun t ev => smallTurn 0 t ev = true)
      Ta.init (readPieces [[71], [76]]) t ∧ (t.conns 0).progress =
        (.serving 0 0, [71, 76], [⟨letterHead 71, none⟩, ⟨letterHead 76, none⟩]) :=
    exists_run_of_exec (by decide +kernel)
  have hr := ht.mono fun _ _ => orderly_of_smallTurn
  have hr' := ht'.mono fun _ _ => orderly_of_smallTurn
  have hS : Stream TaEnv.sample [71, 76] [⟨letterHead 71, none⟩, ⟨letterHead 76, none⟩] :=
    .cons (isRequest_letter (by decide)) (by decide)
      (.cons (isRequest_letter (by decide)) (by decide) .nil)
  obtain ⟨hst, hall, -⟩ := starved_of_progress hend
  obtain ⟨hst', hall', -⟩ := starved_of_progress hend'
  obtain ⟨hsame, hrs⟩ := (framing_of_orderly prefixParser_sample hS hr hr').2.2 hall hst hall' hst'
  exact ⟨t, t', hsame, hrs, hr, hr'⟩

/-- Three requests in one read: behind the second one the loop goes on at its own length, which is
the second one again.  In three reads it sees the third one. -/
theorem third_request_differs :
    ∃ t t' r₁ r₂ r₃, Stream TaEnv.sample [71, 76, 71] [r₁, r₂, r₃] ∧ r₂ ≠ r₃ ∧
      Run (taStep TaEnv.sample) (fun _ _ => True) Ta.init
        (startConn 0 ⟨badcertMissing, none⟩ ++ [⟨0, .iterate (.reading [71, 76, 71])⟩,
          ⟨0, .iterate (.reading [])⟩, ⟨0, .iterate (.reading [])⟩]) t ∧
      Run (taStep TaEnv.sample) (fun _ _ => True) Ta.init
        (startConn 0 ⟨badcertMissing, none⟩ ++ [⟨0, .iterate (.reading [71])⟩,
          ⟨0, .iterate (.reading [76])⟩, ⟨0, .iterate (.reading [71])⟩]) t' ∧
      (t.conns 0).progress = (.serving 0 0, [71, 76, 71], [r₁, r₂, r₂]) ∧
      (t'.conns 0).progress = (.serving 0 0, [71, 76, 71], [r₁, r₂, r₃]) := by
  obtain ⟨t, ht, hend⟩ : ∃ t, Run (taStep TaEnv.sample) (fun _ _ => True) Ta.init
      (readPieces [[71, 76, 71], [], []]) t ∧ (t.conns 0).progress = (.serving 0 0, [71, 76, 71],
        [⟨letterHead 71, none⟩, ⟨letterHead 76, none⟩, ⟨letterHead 76, none⟩]) :=
    exists_run_of_exec (by decide +kernel)
  obtain ⟨t', ht', hend'⟩ : ∃ t, Run (taStep TaEnv.sample) (fun _ _ => True) Ta.init
      (readPieces [[71], [76], [71]]) t ∧ (t.conns 0).progress = (.serving 0 0, [71, 76, 71],
        [⟨letterHead 71, none⟩, ⟨letterHead 76, none⟩, ⟨letterHead 71, none⟩]) :=
    exists_run_of_exec (by decide +kernel)
  refine ⟨t, t', _, _, _, ?_, ?_, ht, ht', hend, hend'⟩
  · exact .cons (isRequest_letter (by decide)) (by decide)
      (.cons (isRequest_letter (by decide)) (by decide)
        (.cons (isRequest_letter (by decide)) (by decide) .nil))
  · decide

end TrustedGateway
