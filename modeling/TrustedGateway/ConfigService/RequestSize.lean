import TrustedGateway.ConfigService.Framing

/-!
# How long a request may be

A request has room in the buffer if its head and its body together have no more than 4096 bytes.
The loop of `sw_read_https_req_data` learns the length of the body from the `Content-Length` line,
once the head has arrived.  While the body is not complete it compares the size of the buffer with
the sum of the announced length and of *all bytes that have arrived*, so that the part of the body
that is there counts twice, and the sum is one of 32-bit words.  A request that has room may be
refused, depending on how the TLS layer cuts it, and a length near `2 ^ 32` may pass.

The bytes of a request and of whatever follows it come from a stream `T`.  A read delivers some
next part of the stream, of any length up to the room in the buffer, or nothing yet.

## Main results

* `scanOutcome_iff` — the verdict on the bytes that have arrived.
* `size_limit_iff` — a request is treated as documented exactly when all lengths seen are fine.
-/

namespace TrustedGateway.RequestSize

open FlatMemory

/-! ## The turns on a request -/

/-- What a turn does with a request: hand it to its handler, refuse it as too long or for another
reason, abort, or wait for more bytes. -/
inductive Outcome
  | handled (size : ℕ)
  | tooLong
  | refused
  | aborted
  | waiting
  deriving DecidableEq, Repr

/-- The outcome of a turn of the loop. -/
def outcome (env : TaEnv) (g : Globals) (c : Client) (bp dataLen : ℕ) (ans : Answers) : Outcome :=
  match served env c bp dataLen ans with
  | some r => .handled r.size
  | none =>
    match iterate env g c bp dataLen ans with
    | .error _ => .aborted
    | .ok (.loop _ _, _) => .waiting
    | .ok (.ret code, _) => if code = requestIsTooLongError then .tooLong else .refused

/-- One turn: how many bytes the TLS layer would deliver, and the other answers. -/
structure Cut where
  len : ℕ
  mallocs : List Bool
  writes : List ℤ
  pta : PtaAns
  deriving DecidableEq, Repr

/-- `mbedtls_ssl_read`, when `dataLen` bytes of the stream have been read: zero if there is no
room, `WANT_READ` if there is no byte. -/
def tlsRead (T : List Byte) (rx : Rx) (dataLen len : ℕ) : ReadAns :=
  if reqBufSize - rx.reqIdx = 0 then .data []
  else
    match (T.drop dataLen).take (min len (reqBufSize - rx.reqIdx)) with
    | [] => .fail 0x6900
    | b :: bs => .data (b :: bs)

/-- The answers of a turn. -/
def Cut.answers (q : Cut) (T : List Byte) (rx : Rx) (dataLen : ℕ) : Answers :=
  ⟨tlsRead T rx dataLen q.len, q.mallocs, q.writes, q.pta⟩

/-- The turns on a request, until it is decided: how many bytes each of them looks at, and what it
does.  After `WANT_READ` the service is entered again. -/
def judged (env : TaEnv) (T : List Byte) : List Cut → Globals → Client → ℕ → ℕ → List (ℕ × Outcome)
  | [], _, _, _, _ => []
  | q :: qs, g, c, bp, dataLen =>
    let ans := q.answers T c.rx dataLen
    match receive c.rx bp dataLen ans.read with
    | .error _ => []
    | .ok (.ret code) =>
      if code = sslWantRead then judged env T qs g c 0 c.rx.reqIdx else []
    | .ok (.ready _ _ dataLen') =>
      (dataLen', outcome env g c bp dataLen ans) ::
        match iterate env g c bp dataLen ans with
        | .ok (.loop bp'' dataLen'', g', c') =>
          if (served env c bp dataLen ans).isNone then judged env T qs g' c' bp'' dataLen''
          else []
        | _ => []

/-- What the scan of the bytes says. -/
def scanOutcome (env : TaEnv) (bytes : List Byte) : Outcome :=
  match scanRequest env bytes with
  | .error _ => .aborted
  | .ok .bad => .refused
  | .ok .incomplete => .waiting
  | .ok (.refused code) => if code = requestIsTooLongError then .tooLong else .refused
  | .ok (.request r) => .handled r.size

/-- The request begins at the bytes in use. -/
structure AtRequest (T : List Byte) (c : Client) (bp dataLen : ℕ) : Prop where
  window : slice c.rx.buffer bp dataLen = T.take dataLen
  arrived : dataLen ≤ T.length
  place : (bp = 0 ∧ dataLen = c.rx.reqIdx) ∨ (0 < bp ∧ 0 < dataLen ∧ c.rx.isPartial = false)
  size : dataLen ≤ reqBufSize

section Turns
variable {env : TaEnv} {T : List Byte} {g : Globals} {c : Client} {bp dataLen bp' dataLen' : ℕ}
  {ans : Answers} {rx : Rx} {q : Cut}

/-- A turn does with the request what the scan of its bytes says. -/
theorem outcome_eq (hrecv : receive c.rx bp dataLen ans.read = .ok (.ready rx bp' dataLen')) :
    outcome env g c bp dataLen ans = scanOutcome env (slice rx.buffer bp' dataLen') := by
  have h400 : ¬ (400 = 204 ∨ 400 = 304 ∨ (100 ≤ 400 ∧ 400 ≤ 199)) := by decide
  obtain ⟨w, hw⟩ := (c.out.answered ans.mallocs ans.writes).sendHttpErrResp_ok "Bad Request" h400
  rcases hscan : scanRequest env (slice rx.buffer bp' dataLen') with e | (_ | _ | code | r) <;>
    simp only [outcome, served, iterate, scanOutcome, hrecv, hscan, hw]
  rfl

/-- A client that was just accepted. -/
theorem atRequest_init (T : List Byte) (p : Peer) : AtRequest T (Client.init p) 0 0 where
  window := rfl
  arrived := Nat.zero_le _
  place := .inl ⟨rfl, rfl⟩
  size := Nat.zero_le _

/-- What a read delivers is the next part of the stream, and fits the buffer. -/
theorem tlsRead_eq_data {bs : List Byte} {len : ℕ} (h : tlsRead T c.rx dataLen len = .data bs) :
    bs = (T.drop dataLen).take bs.length ∧ bs.length ≤ reqBufSize - c.rx.reqIdx := by
  unfold tlsRead at h
  split at h
  · cases h
    exact ⟨rfl, Nat.zero_le _⟩
  · split at h
    · cases h
    · next b bs' heq =>
        cases h
        rw [← heq, List.length_take]
        exact ⟨by rw [← List.take_eq_take_min], (min_le_left _ _).trans (min_le_right _ _)⟩

/-- The bytes a turn looks at are the first ones of the stream. -/
theorem AtRequest.ready {len : ℕ} (hat : AtRequest T c bp dataLen)
    (hrecv : receive c.rx bp dataLen (tlsRead T c.rx dataLen len) = .ok (.ready rx bp' dataLen')) :
    slice rx.buffer bp' dataLen' = T.take dataLen' ∧ dataLen' ≤ T.length ∧
      dataLen' ≤ reqBufSize ∧ (bp' = 0 → dataLen' = rx.reqIdx) := by
  have hplace := receive_position hat.place hrecv
  unfold receive at hrecv
  split at hrecv
  · split at hrecv
    · cases hrecv
    · next hok =>
        obtain ⟨hlen, hbp⟩ := not_or.mp hok
        rw [not_not] at hlen hbp
        split at hrecv
        · cases hrecv
        · next bs hbs =>
            obtain ⟨hnext, hroom⟩ := tlsRead_eq_data hbs
            have hfit : c.rx.fitting bs = bs := List.take_of_length_le hroom
            rw [hfit] at hrecv
            split at hrecv
            · cases hrecv
            · cases hrecv
              have hwindow := hat.window
              have hsize := hat.size
              rw [hbp, hlen] at hwindow
              have hlength : bs.length ≤ T.length - dataLen := by
                have := congrArg List.length hnext
                rw [List.length_take, List.length_drop] at this
                omega
              have harrived := hat.arrived
              change slice (c.rx.store bs).buffer 0 (c.rx.reqIdx + bs.length) =
                T.take (c.rx.reqIdx + bs.length) ∧ c.rx.reqIdx + bs.length ≤ T.length ∧
                  c.rx.reqIdx + bs.length ≤ reqBufSize ∧ _
              refine ⟨?_, by omega, by omega, hplace⟩
              rw [slice_store, hwindow, List.take_add, ← hlen, ← hnext]
  · cases hrecv
    exact ⟨hat.window, hat.arrived, hat.size, hplace⟩

/-- A turn that waits leaves the request at the head of the buffer. -/
theorem AtRequest.wait (hready : slice rx.buffer bp' dataLen' = T.take dataLen' ∧
      dataLen' ≤ T.length ∧ dataLen' ≤ reqBufSize ∧ (bp' = 0 → dataLen' = rx.reqIdx)) :
    AtRequest T { c with rx := { rx.moveRest bp' dataLen' with isPartial := true } } 0
      dataLen' := by
  obtain ⟨hwindow, harrived, hsize, hplace⟩ := hready
  refine ⟨(slice_moveRest rx bp' dataLen').trans hwindow, harrived, .inl ⟨rfl, ?_⟩, hsize⟩
  dsimp only [Rx.moveRest]
  split
  · rfl
  · next hbp => exact hplace (not_not.mp hbp)

/-- After a turn that goes on without a request, the request is still at the bytes in use. -/
theorem AtRequest.next {bp'' dataLen'' : ℕ} {g' : Globals} {c' : Client}
    (hat : AtRequest T c bp dataLen) (hread : ans.read = tlsRead T c.rx dataLen q.len)
    (hiter : iterate env g c bp dataLen ans = .ok (.loop bp'' dataLen'', g', c'))
    (hnone : served env c bp dataLen ans = none) : AtRequest T c' bp'' dataLen'' := by
  have hit := iterated_of_ok hiter
  generalize hx : ((Turn.loop bp'' dataLen'', g', c') : Turn × Globals × Client) = x at hit
  cases hit with
  | unread hrecv | bad hrecv hscan hsend | refused hrecv hscan => cases hx
  | incomplete hrecv hscan =>
    cases hx
    rw [hread] at hrecv
    exact AtRequest.wait (hat.ready hrecv)
  | request hrecv hscan hhandle =>
    rw [served_eq_some hrecv hscan] at hnone
    cases hnone

/-- When there is nothing to read yet, the request is at the head of the buffer. -/
theorem AtRequest.again {code : ℤ} (hat : AtRequest T c bp dataLen)
    (hret : receive c.rx bp dataLen ans.read = .ok (.ret code)) :
    AtRequest T c 0 c.rx.reqIdx := by
  unfold receive at hret
  split at hret
  · split at hret
    · cases hret
    · next hok =>
        obtain ⟨hlen, hbp⟩ := not_or.mp hok
        rw [not_not] at hlen hbp
        rwa [hbp, hlen] at hat
  · cases hret

/-- Every turn on a request does what the scan of the bytes that have arrived says. -/
theorem judged_spec (qs : List Cut) (hat : AtRequest T c bp dataLen) :
    ∀ p ∈ judged env T qs g c bp dataLen,
      p.2 = scanOutcome env (T.take p.1) ∧ p.1 ≤ T.length ∧ p.1 ≤ reqBufSize := by
  induction qs generalizing g c bp dataLen with
  | nil =>
    intro p hp
    cases hp
  | cons q qs ih =>
    intro p hp
    simp only [judged] at hp
    split at hp
    · cases hp
    · next code hret =>
        by_cases hcode : code = sslWantRead
        · rw [if_pos hcode] at hp
          exact ih (hat.again hret) p hp
        · rw [if_neg hcode] at hp
          cases hp
    · next rx bp' dataLen' hrecv =>
        have hready := hat.ready hrecv
        rcases List.mem_cons.mp hp with rfl | hp
        · refine ⟨?_, hready.2.1, hready.2.2.1⟩
          rw [outcome_eq hrecv, hready.1]
        · split at hp
          · next bp'' dataLen'' g' c' hiter =>
              by_cases hnone : (served env c bp dataLen (q.answers T c.rx dataLen)).isNone
              · rw [if_pos hnone] at hp
                exact ih (hat.next rfl hiter (Option.isNone_iff_eq_none.mp hnone)) p hp
              · rw [if_neg hnone] at hp
                cases hp
          · cases hp

end Turns

/-! ## What should happen -/

/-- One to ten decimal digits. -/
def Decimal (v : List Byte) : Prop := v ≠ [] ∧ v.length ≤ 10 ∧ ∀ b ∈ v, 48 ≤ b ∧ b ≤ 57

instance (v : List Byte) : Decidable (Decimal v) := inferInstanceAs (Decidable (_ ∧ _ ∧ _))

/-- The value of some digits. -/
def decimalValue (v : List Byte) : ℕ := (digits v).foldl (fun acc d => 10 * acc + d) 0

/-- What should happen once this many bytes have arrived.  A head that fills the buffer is too long
whatever it says. -/
def documented (h : ReqHead) (arrived : ℕ) : Outcome :=
  if arrived < h.nparsed then if arrived = reqBufSize then .tooLong else .waiting
  else
    match contentLengthValue h.headers with
    | none => .handled h.nparsed
    | some v =>
      if Decimal v then
        if reqBufSize < h.nparsed + decimalValue v then .tooLong
        else if arrived < h.nparsed + decimalValue v then .waiting
        else .handled (h.nparsed + decimalValue v)
      else .refused

/-- The length is one for which it does.  With a decimal value, a request that is too long must be
so also in 32-bit words, and one that is not must have room for its body once more behind what has
arrived.  Any other value must be one that `strtoul` takes for an error. -/
def SizeFine (h : ReqHead) (arrived : ℕ) : Prop :=
  if arrived < h.nparsed then arrived ≠ reqBufSize
  else
    match contentLengthValue h.headers with
    | none => True
    | some v =>
      if Decimal v then
        decimalValue v < 2 ^ 32 - 1 ∧
          if reqBufSize < h.nparsed + decimalValue v then arrived + decimalValue v < 2 ^ 32
          else arrived < h.nparsed + decimalValue v → arrived + decimalValue v ≤ reqBufSize
      else v.length ≤ 10 ∧ (strtoul v = 2 ^ 32 - 1 ∨ strtoul v = 0 ∧ v.head? ≠ some 48)

instance (h : ReqHead) (arrived : ℕ) : Decidable (SizeFine h arrived) := by
  unfold SizeFine
  split
  · infer_instance
  · split <;> infer_instance

section Digits
variable {v : List Byte} {b : Byte}

theorem not_isSpace_of_digit (hb : 48 ≤ b) : isSpace b = false := by
  have hb' : 48 ≤ b.toNat := BitVec.le_def.mp hb
  simp only [isSpace, decide_eq_false_iff_not]
  rintro (rfl | ⟨-, h⟩)
  · exact absurd hb' (by decide)
  · have h' : b.toNat ≤ 13 := BitVec.le_def.mp h
    omega

theorem le_foldl_digits (acc : ℕ) (ds : List ℕ) :
    acc ≤ ds.foldl (fun acc d => 10 * acc + d) acc := by
  induction ds generalizing acc with
  | nil => exact le_rfl
  | cons d ds ih => exact le_trans (by omega) (ih (10 * acc + d))

/-- A number that is zero begins with a zero. -/
theorem Decimal.head_of_zero (hv : Decimal v) (h0 : decimalValue v = 0) : v.head? = some 48 := by
  obtain ⟨hne, -, hall⟩ := hv
  obtain ⟨b, bs, rfl⟩ := List.exists_cons_of_ne_nil hne
  obtain ⟨hlo, hhi⟩ := hall b List.mem_cons_self
  have hle := le_foldl_digits (b.toNat - 48) (digits bs)
  have hvalue : decimalValue (b :: bs) =
      (digits bs).foldl (fun acc d => 10 * acc + d) (b.toNat - 48) := by
    have hb : decide (48 ≤ b ∧ b ≤ 57) = true := decide_eq_true ⟨hlo, hhi⟩
    simp only [decimalValue, digits, List.takeWhile_cons, hb, if_true, List.map_cons,
      List.foldl_cons, Nat.mul_zero, Nat.zero_add]
  have hlo' : 48 ≤ b.toNat := BitVec.le_def.mp hlo
  have hb : b = 48 := BitVec.eq_of_toNat_eq (by change b.toNat = 48; omega)
  rw [hb]
  rfl

/-- `strtoul` on decimal digits. -/
theorem strtoul_of_decimal (hv : Decimal v) :
    strtoul v = if 2 ^ 32 ≤ decimalValue v then 2 ^ 32 - 1 else decimalValue v := by
  obtain ⟨hne, -, hall⟩ := hv
  obtain ⟨b, bs, rfl⟩ := List.exists_cons_of_ne_nil hne
  have hlo := (hall b List.mem_cons_self).1
  have hspace : ¬ isSpace b = true := by rw [not_isSpace_of_digit hlo]; decide
  have hlo' : 48 ≤ b.toNat := BitVec.le_def.mp hlo
  have hminus : b ≠ 45 := by
    rintro rfl
    exact absurd hlo' (by decide)
  have hplus : b ≠ 43 := by
    rintro rfl
    exact absurd hlo' (by decide)
  have hdrop : (b :: bs).dropWhile isSpace = b :: bs := List.dropWhile_cons_of_neg hspace
  simp only [strtoul, hdrop, List.head?_cons, Option.some.injEq, hminus, hplus, or_self, if_false,
    decimalValue]
  rfl

/-- What the scan makes of a decimal value. -/
theorem scanContentLength_of_decimal {hs : List Header} (hv : Decimal v)
    (hc : contentLengthValue hs = some v) :
    scanContentLength hs =
      if 2 ^ 32 - 1 ≤ decimalValue v then .ok .invalid else .ok (.length (decimalValue v)) := by
  have hten : ¬ 10 < v.length := Nat.not_lt.mpr hv.2.1
  rw [scanContentLength, hc]
  dsimp only
  rw [if_neg hten, strtoul_of_decimal hv]
  by_cases hbig : 2 ^ 32 - 1 ≤ decimalValue v
  · rw [if_pos hbig, if_pos]
    left
    split <;> omega
  · have hsmall : ¬ 2 ^ 32 ≤ decimalValue v := by omega
    rw [if_neg hbig, if_neg hsmall, if_neg]
    rintro (h | ⟨h, hhead⟩)
    · omega
    · exact hhead (hv.head_of_zero h)

end Digits

/-! ## The verdict on the bytes that have arrived -/

section Verdict
variable {env : TaEnv} {T : List Byte} {h : ReqHead} {arrived : ℕ} {v : List Byte}

section

variable (hp : PrefixParser env) (hh : env.phrParseRequest T = .head h)
include hp hh

theorem parse_take_of_lt (hlt : arrived < h.nparsed) :
    env.phrParseRequest (T.take arrived) = .incomplete :=
  hp.short T h hh arrived hlt

theorem parse_take_of_le (hle : h.nparsed ≤ arrived) :
    env.phrParseRequest (T.take arrived) = .head h := by
  have hext := hp.extend T h hh ((T.take arrived).drop h.nparsed)
  have htake : T.take h.nparsed = (T.take arrived).take h.nparsed := by
    rw [List.take_take, min_eq_left hle]
  rwa [htake, List.take_append_drop] at hext

/-- The outcome for a request with a body of `n` bytes. -/
theorem scanOutcome_of_length {n : ℕ} (hle : h.nparsed ≤ arrived) (harrived : arrived ≤ T.length)
    (hlen : scanContentLength h.headers = .ok (.length n)) :
    scanOutcome env (T.take arrived) =
      if arrived < h.nparsed + n then
        if reqBufSize < addSize arrived n then .tooLong else .waiting
      else .handled (h.nparsed + n) := by
  have hlength : (T.take arrived).length = arrived := List.length_take_of_le harrived
  have hcond : (0 < n ∧ arrived - h.nparsed < n) ↔ arrived < h.nparsed + n := by omega
  simp only [scanOutcome, scanRequest, parse_take_of_le hp hh hle, hlen, hlength, hcond]
  by_cases hmiss : arrived < h.nparsed + n
  · rw [if_pos hmiss, if_pos hmiss]
    by_cases hlong : reqBufSize < addSize arrived n
    · rw [if_pos hlong, if_pos hlong]
      rfl
    · rw [if_neg hlong, if_neg hlong]
  · rw [if_neg hmiss, if_neg hmiss]
    have hsize : min n (arrived - h.nparsed) = n := by omega
    simp only [Request.size, Request.bodyLen, Option.getD_some, List.length_take, List.length_drop,
      min_eq_left harrived, hsize]

/-- A decimal `Content-Length`. -/
theorem scanOutcome_iff_of_decimal (hle : h.nparsed ≤ arrived) (harrived : arrived ≤ T.length)
    (hsize : arrived ≤ reqBufSize) (hc : contentLengthValue h.headers = some v) (hv : Decimal v) :
    (scanOutcome env (T.take arrived) =
        if reqBufSize < h.nparsed + decimalValue v then .tooLong
        else if arrived < h.nparsed + decimalValue v then .waiting
        else .handled (h.nparsed + decimalValue v)) ↔
      decimalValue v < 2 ^ 32 - 1 ∧
        if reqBufSize < h.nparsed + decimalValue v then arrived + decimalValue v < 2 ^ 32
        else arrived < h.nparsed + decimalValue v → arrived + decimalValue v ≤ reqBufSize := by
  have hbuf : reqBufSize = 4096 := rfl
  have hlen := scanContentLength_of_decimal hv hc
  by_cases hbig : 2 ^ 32 - 1 ≤ decimalValue v
  · -- `strtoul` reports an overflow, and the request is refused as malformed
    rw [if_pos hbig] at hlen
    have hlong : reqBufSize < h.nparsed + decimalValue v := by omega
    have hrefused : scanOutcome env (T.take arrived) = .refused := by
      simp only [scanOutcome, scanRequest, parse_take_of_le hp hh hle, hlen]
      rfl
    rw [if_pos hlong, hrefused]
    exact iff_of_false (by decide) fun hfine => absurd hfine.1 (Nat.not_lt.mpr hbig)
  · rw [if_neg hbig] at hlen
    rw [scanOutcome_of_length hp hh hle harrived hlen, and_iff_right (Nat.not_le.mp hbig)]
    by_cases hlong : reqBufSize < h.nparsed + decimalValue v
    · have hmiss : arrived < h.nparsed + decimalValue v := by omega
      rw [if_pos hlong, if_pos hlong, if_pos hmiss]
      by_cases hword : arrived + decimalValue v < 2 ^ 32
      · have hsum : reqBufSize < addSize arrived (decimalValue v) := by
          rw [addSize_of_lt hword]
          omega
        rw [if_pos hsum]
        exact iff_of_true rfl hword
      · -- the sum runs over, and the loop goes on waiting
        have hsum : ¬ reqBufSize < addSize arrived (decimalValue v) := by
          rw [addSize]
          omega
        rw [if_neg hsum]
        exact iff_of_false (by decide) hword
    · rw [if_neg hlong, if_neg hlong]
      by_cases hmiss : arrived < h.nparsed + decimalValue v
      · rw [if_pos hmiss, if_pos hmiss, addSize_of_lt (by omega)]
        by_cases hroom : reqBufSize < arrived + decimalValue v
        · rw [if_pos hroom]
          exact iff_of_false (by decide) fun hfine => absurd (hfine hmiss) (Nat.not_le.mpr hroom)
        · rw [if_neg hroom]
          exact iff_of_true rfl fun _ => Nat.not_lt.mp hroom
      · rw [if_neg hmiss, if_neg hmiss]
        exact iff_of_true rfl fun hcut => absurd hcut hmiss

/-- A `Content-Length` that is no decimal number. -/
theorem scanOutcome_iff_of_not_decimal (hle : h.nparsed ≤ arrived) (harrived : arrived ≤ T.length)
    (hc : contentLengthValue h.headers = some v) :
    scanOutcome env (T.take arrived) = .refused ↔
      v.length ≤ 10 ∧ (strtoul v = 2 ^ 32 - 1 ∨ strtoul v = 0 ∧ v.head? ≠ some 48) := by
  have hparse := parse_take_of_le hp hh hle
  have hlen : scanContentLength h.headers = if 10 < v.length then .error .contentLength
      else if strtoul v = 2 ^ 32 - 1 ∨ (strtoul v = 0 ∧ v.head? ≠ some 48) then .ok .invalid
      else .ok (.length (strtoul v)) := by
    rw [scanContentLength, hc]
  by_cases hten : 10 < v.length
  · rw [if_pos hten] at hlen
    have haborted : scanOutcome env (T.take arrived) = .aborted := by
      simp only [scanOutcome, scanRequest, hparse, hlen]
    rw [haborted]
    exact iff_of_false (by decide) fun hfine => absurd hfine.1 (Nat.not_le.mpr hten)
  · rw [if_neg hten] at hlen
    rw [and_iff_right (Nat.not_lt.mp hten)]
    by_cases hbad : strtoul v = 2 ^ 32 - 1 ∨ (strtoul v = 0 ∧ v.head? ≠ some 48)
    · rw [if_pos hbad] at hlen
      refine iff_of_true ?_ hbad
      simp only [scanOutcome, scanRequest, hparse, hlen]
      rfl
    · rw [if_neg hbad] at hlen
      refine iff_of_false ?_ hbad
      rw [scanOutcome_of_length hp hh hle harrived hlen]
      split
      · split <;> decide
      · exact fun h => by cases h

/-- The verdict is the documented one exactly for the lengths that are fine. -/
theorem scanOutcome_iff (harrived : arrived ≤ T.length) (hsize : arrived ≤ reqBufSize) :
    scanOutcome env (T.take arrived) = documented h arrived ↔ SizeFine h arrived := by
  unfold documented SizeFine
  by_cases hlt : arrived < h.nparsed
  · -- the head is not complete: the loop waits, also when the buffer is full
    have hwait : scanOutcome env (T.take arrived) = .waiting := by
      simp only [scanOutcome, scanRequest, parse_take_of_lt hp hh hlt]
    rw [if_pos hlt, if_pos hlt, hwait]
    by_cases hfull : arrived = reqBufSize <;> simp [hfull]
  · rw [if_neg hlt, if_neg hlt]
    have hle : h.nparsed ≤ arrived := Nat.not_lt.mp hlt
    have hparse := parse_take_of_le hp hh hle
    cases hc : contentLengthValue h.headers with
    | none =>
      have hlen : scanContentLength h.headers = .ok .absent := by rw [scanContentLength, hc]
      refine iff_of_true ?_ trivial
      simp only [scanOutcome, scanRequest, hparse, hlen]
      rfl
    | some v =>
      dsimp only
      by_cases hv : Decimal v
      · rw [if_pos hv, if_pos hv]
        exact scanOutcome_iff_of_decimal hp hh hle harrived hsize hc hv
      · rw [if_neg hv, if_neg hv]
        exact scanOutcome_iff_of_not_decimal hp hh hle harrived hc

end

end Verdict

/-- For every request, however the stream is cut into reads and whatever bytes are there at first:
all turns on it do what is documented exactly when the numbers of bytes they look at are fine. -/
theorem size_limit_iff {env : TaEnv} (hp : PrefixParser env) {T : List Byte} {h : ReqHead}
    (hh : env.phrParseRequest T = .head h) {c : Client} {bp dataLen : ℕ}
    (hat : AtRequest T c bp dataLen) (qs : List Cut) (g : Globals) :
    (∀ p ∈ judged env T qs g c bp dataLen, p.2 = documented h p.1) ↔
      ∀ p ∈ judged env T qs g c bp dataLen, SizeFine h p.1 := by
  refine forall₂_congr fun p hp' => ?_
  obtain ⟨hscan, harrived, hsize⟩ := judged_spec qs hat p hp'
  rw [hscan]
  exact scanOutcome_iff hp hh harrived hsize

/-- A head of one byte with this `Content-Length`. -/
def sizedHead (v : List Byte) : ReqHead := ⟨1, [], [], [⟨bytesOf "Content-Length", v⟩]⟩

/-- An environment in which every byte is such a head. -/
def sizedEnv (v : List Byte) : TaEnv where
  phrParseRequest
    | [] => .incomplete
    | _ :: _ => .head (sizedHead v)
  x509CrtParse bs := some bs
  base64Encode bs := some bs
  master := some [77]
  webApp _ := none

theorem prefixParser_sizedEnv (v : List Byte) : PrefixParser (sizedEnv v) := by
  refine ⟨fun bs h hparse => ?_, fun bs h hparse rest => ?_, fun bs h hparse k hk => ?_⟩
  · cases bs with
    | nil => cases hparse
    | cons b bs =>
      cases hparse
      exact ⟨Nat.zero_lt_one, Nat.succ_pos _⟩
  · cases bs with
    | nil => cases hparse
    | cons b bs =>
      cases hparse
      rfl
  · cases bs with
    | nil => cases hparse
    | cons b bs =>
      cases hparse
      obtain rfl : k = 0 := Nat.lt_one_iff.mp hk
      rfl

/-- The turns on a request of a new client, for reads of these lengths. -/
def judgedReads (v T : List Byte) (lens : List ℕ) : List (ℕ × Outcome) :=
  judged (sizedEnv v) T (lens.map fun n => ⟨n, [], [], .fail⟩) ⟨[], []⟩ (Client.init ⟨0, none⟩) 0 0

theorem size_limit_three_reads :
    judgedReads [53] [65, 0, 0, 0, 0, 0, 0] [2, 0, 2, 9] =
        [(2, .waiting), (4, .waiting), (7, .handled 6)] ∧
      ∀ p ∈ judgedReads [53] [65, 0, 0, 0, 0, 0, 0] [2, 0, 2, 9],
        p.2 = documented (sizedHead [53]) p.1 :=
  ⟨by decide,
    (size_limit_iff (prefixParser_sizedEnv [53]) rfl (atRequest_init _ _) _ _).mpr (by decide)⟩

/-- A body of 4094 bytes has room behind a head of one byte, but is refused when four of its bytes
come with the head.  One of 4294967290 bytes has no room, and the loop waits for it.  The value `+5`
is no decimal number, and is taken for 5. -/
theorem size_limit_fails :
    judgedReads [52, 48, 57, 52] (65 :: List.replicate 4094 0) [5] = [(5, .tooLong)] ∧
      documented (sizedHead [52, 48, 57, 52]) 5 = .waiting ∧
      judgedReads [52, 50, 57, 52, 57, 54, 55, 50, 57, 48] (65 :: List.replicate 20 0) [10, 5] =
        [(10, .waiting), (15, .waiting)] ∧
      documented (sizedHead [52, 50, 57, 52, 57, 54, 55, 50, 57, 48]) 10 = .tooLong ∧
      judgedReads [43, 53] (65 :: List.replicate 5 0) [6] = [(6, .handled 6)] ∧
      documented (sizedHead [43, 53]) 6 = .refused := by
  refine ⟨?_, ?_, ?_, ?_, ?_, ?_⟩ <;> decide

end TrustedGateway.RequestSize
