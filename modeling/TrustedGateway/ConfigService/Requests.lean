import TrustedGateway.ConfigService.Certs
import TrustedGateway.Lib.Memory
import TrustedGateway.Lib.Run

/-!
# Requests and connections

The receiving half of `secure_ta.c`: a request is read into a buffer of 4096 bytes, framed by the
parser and its `Content-Length` line, and handed to a handler.  The function
`sw_read_https_req_data` is a loop around this; here it is cut into its entry, `enter`, and one
turn of its loop, `iterate`, so that a run of the service is a list of events and a call may
read as often as the TLS layer delivers.

A connection goes through the phases in which the host process drives it: handshake until it
succeeds, then calls of `sw_read_https_req_data` as long as they end with a request to read or
to write.

## Main definitions

* `Rx`, `receive`, `moveRest` — the request buffer.
* `scanRequest` — what the loop makes of the bytes it looks at.
* `handleGetRequest`, `handlePostRequest`, `postHandlerList` — the handlers.
* `iterate` — one turn of the loop.
* `Ta`, `taStep` — all connections of the service, and one event.
-/

namespace TrustedGateway

open FlatMemory

/-! ## The request buffer -/

/-- `sizeof(http_req_buffer.buffer)`. -/
def reqBufSize : ℕ := 4096

/-- A request as the handlers see it. -/
structure Request where
  head : ReqHead
  body : Option (List Byte)
  deriving DecidableEq, Repr

/-- `body_len`. -/
def Request.bodyLen (r : Request) : ℕ := (r.body.getD []).length

/-- The bytes of the buffer a request takes. -/
def Request.size (r : Request) : ℕ := r.head.nparsed + r.bodyLen

/-- The request buffer of a client. -/
structure Rx where
  buffer : ℕ → Byte
  /-- `http_req_buffer.next` -/
  reqIdx : ℕ
  isPartial : Bool
  /-- bytes the TLS layer delivered so far -/
  delivered : List Byte
  /-- requests handed to the handlers so far -/
  handled : List Request
  /-- the loop gave the bytes up as malformed or too long -/
  gaveUp : Bool

/-- `sw_init_http_cli`. -/
def Rx.init : Rx := ⟨fun _ => 0, 0, false, [], [], false⟩

/-- The answer of `mbedtls_ssl_read`: an error code, or data. -/
inductive ReadAns
  | fail (code : ℕ)
  | data (bs : List Byte)
  deriving DecidableEq, Repr

/-- `MOVE_REST_TO_BUF_HEAD`. -/
def Rx.moveRest (rx : Rx) (bp dataLen : ℕ) : Rx :=
  if bp ≠ 0 then
    { rx with buffer := copy rx.buffer 0 rx.buffer bp dataLen, reqIdx := dataLen }
  else rx

/-- Bytes appended to the buffer. -/
def Rx.store (rx : Rx) (bs : List Byte) : Rx :=
  { rx with
    buffer := copy rx.buffer rx.reqIdx (fun k => bs.getD k 0) 0 bs.length
    reqIdx := rx.reqIdx + bs.length
    delivered := rx.delivered ++ bs }

/-- The data a read delivers: at most what the buffer has room for. -/
def Rx.fitting (rx : Rx) (bs : List Byte) : List Byte := bs.take (reqBufSize - rx.reqIdx)

/-- How the reading part of a turn ends: with a return value, or with the bytes to look at. -/
inductive ReadOutcome
  | ret (code : ℤ)
  | ready (rx : Rx) (bp dataLen : ℕ)

/-- The reading part of a turn: new data is read when none is left or a request is incomplete. -/
def receive (rx : Rx) (bp dataLen : ℕ) (ans : ReadAns) : Except TaAbort ReadOutcome :=
  if dataLen = 0 ∨ rx.isPartial then
    if dataLen ≠ rx.reqIdx ∨ bp ≠ 0 then .error .requestBuffer
    else
      match ans with
      | .fail code => .ok (.ret (-code))
      | .data bs =>
        if rx.fitting bs = [] then .ok (.ret 0)
        else
          let rx' := rx.store (rx.fitting bs)
          .ok (.ready rx' 0 rx'.reqIdx)
  else .ok (.ready rx bp dataLen)

variable {bp dataLen : ℕ} {env : TaEnv}

/-- The bytes a turn looks at: those of a new read, at the head of the buffer, or those left from
the turn before. -/
theorem receive_eq_ready {rx rx' : Rx} {bp' dataLen' : ℕ} {ans : ReadAns}
    (h : receive rx bp dataLen ans = .ok (.ready rx' bp' dataLen')) :
    (∃ bs, bs ≠ [] ∧ bs.length ≤ reqBufSize - rx.reqIdx ∧ bp = 0 ∧ dataLen = rx.reqIdx ∧
        rx' = rx.store bs ∧ bp' = 0 ∧ dataLen' = rx.reqIdx + bs.length) ∨
      (dataLen ≠ 0 ∧ rx.isPartial = false ∧ rx' = rx ∧ bp' = bp ∧ dataLen' = dataLen) := by
  unfold receive at h
  split at h
  · split at h
    · cases h
    · rename_i hpos
      split at h
      · cases h
      · rename_i bs
        split at h
        · cases h
        · rename_i hne
          cases h
          obtain ⟨hlen, hbp⟩ := not_or.mp hpos
          refine Or.inl ⟨rx.fitting bs, hne, ?_, not_not.mp hbp, not_not.mp hlen, rfl, rfl, rfl⟩
          rw [Rx.fitting, List.length_take]
          exact min_le_left _ _
  · rename_i hno
    cases h
    obtain ⟨hlen, hpart⟩ := not_or.mp hno
    exact Or.inr ⟨hlen, by simpa using hpart, rfl, rfl, rfl⟩

/-! ## Framing -/

/-- `isspace`. -/
def isSpace (b : Byte) : Bool := b = 32 ∨ (9 ≤ b ∧ b ≤ 13)

/-- The digits at the head of a text, as numbers. -/
def digits (bs : List Byte) : List ℕ :=
  (bs.takeWhile fun b => decide (48 ≤ b ∧ b ≤ 57)).map fun b => b.toNat - 48

/-- `strtoul` with base 10: leading blanks, a sign, digits; `ULONG_MAX` on overflow. -/
def strtoul (bs : List Byte) : ℕ :=
  let bs := bs.dropWhile isSpace
  let negative := bs.head? = some 45
  let bs := if bs.head? = some 45 ∨ bs.head? = some 43 then bs.tail else bs
  let n := (digits bs).foldl (fun acc d => 10 * acc + d) 0
  if 2 ^ 32 ≤ n then 2 ^ 32 - 1
  else if negative then (2 ^ 32 - n) % 2 ^ 32
  else n

/-- What the header lines say about a body. -/
inductive BodyLen
  | absent
  | invalid
  | length (n : ℕ)
  deriving DecidableEq, Repr

/-- The first `Content-Length` line. -/
def contentLengthValue (hs : List Header) : Option (List Byte) :=
  (hs.find? fun h => decide (h.name = bytesOf "Content-Length")).map (·.value)

/-- The scan for `Content-Length`: a value of more than ten bytes does not fit the local buffer and
aborts. -/
def scanContentLength (hs : List Header) : Except TaAbort BodyLen :=
  match contentLengthValue hs with
  | none => .ok .absent
  | some v =>
    if 10 < v.length then .error .contentLength
    else if strtoul v = 2 ^ 32 - 1 ∨ (strtoul v = 0 ∧ v.head? ≠ some 48) then .ok .invalid
    else .ok (.length (strtoul v))

def requestIsTooLongError : ℤ := -3000

/-- What the loop makes of the bytes from `bp` on. -/
inductive Scan
  | bad
  | incomplete
  | refused (code : ℤ)
  | request (r : Request)
  deriving DecidableEq, Repr

/-- Parse the header lines, find the body, and see whether all of it has arrived. -/
def scanRequest (env : TaEnv) (bytes : List Byte) : Except TaAbort Scan :=
  match env.phrParseRequest bytes with
  | .bad => .ok .bad
  | .incomplete => .ok .incomplete
  | .head h =>
    match scanContentLength h.headers with
    | .error e => .error e
    | .ok .invalid => .ok (.refused (-1))
    | .ok .absent => .ok (.request ⟨h, none⟩)
    | .ok (.length n) =>
      if 0 < n ∧ bytes.length - h.nparsed < n then
        -- the header bytes are counted in `data_len` and the received part of the body twice
        if reqBufSize < addSize bytes.length n then .ok (.refused requestIsTooLongError)
        else .ok .incomplete
      else .ok (.request ⟨h, some ((bytes.drop h.nparsed).take n)⟩)

/-! ## Handlers -/

/-- `has_csrf_header`. -/
def hasCsrfHeader (r : Request) : Bool :=
  r.head.headers.any fun h => decide (h.name = bytesOf "BstGw-no-csrf")

/-- `has_body`. -/
def hasBody (r : Request) : Bool := decide (r.body.isSome ∧ 0 < r.bodyLen)

/-- `has_expected_content_type`. -/
def hasExpectedContentType (r : Request) (expType : String) : Bool :=
  match r.head.headers.find? fun h => decide (h.name = bytesOf "Content-Type") with
  | none => false
  | some h => decide (h.value = bytesOf expType)

/-- The answer of the trust router to a configuration command: a failure of the session or the
command, or its response. -/
inductive PtaAns
  | fail
  | ok (resp : List Byte)
  deriving DecidableEq, Repr

/-- `MAX_NVLIST_RESP`. -/
def maxNvlistResp : ℕ := 8192

/-- `handle_get_request`. -/
def handleGetRequest (env : TaEnv) (g : Globals) (p : Peer) (o : Outbox) (r : Request) :
    Except TaAbort (ℤ × Outbox) :=
  match getClientType env g p with
  | .error e => .error e
  | .ok t =>
    if r.head.path ≠ bytesOf "/" then o.sendHttpErrResp 404 "Not Found"
    else
      match env.webApp t with
      | none => o.sendHttpErrResp 403 "Forbidden"
      | some app =>
        match o.packIntoRespChunk app with
        | ([], o) => .ok (-1, o)
        | (chunk, o) => o.sendHttpResp 200 "OK" app.length chunk "text/html"

/-- `dummy_handler`. -/
def dummyHandler (g : Globals) (o : Outbox) : Except TaAbort (ℤ × Globals × Outbox) :=
  (o.sendHttpResp 200 "OK" 0 [] "").map fun w => (w.1, g, w.2)

/-- `post_npfctl_cmd`. -/
def postNpfctlCmd (g : Globals) (p : Peer) (o : Outbox) (r : Request) (pta : PtaAns) :
    Except TaAbort (ℤ × Globals × Outbox) :=
  let g := { g with npf := g.npf ++ [⟨p, g.allowlist⟩] }
  let send := fun (x : Except TaAbort (ℤ × Outbox)) => x.map fun w => (w.1, g, w.2)
  if r.bodyLen = 0 then .ok (-1, g, o)
  else
    match o.malloc with
    | (false, o) => send (o.sendHttpErrResp 500 "Internal Server Error")
    | (true, o) =>
      match pta with
      | .fail => send (o.sendHttpErrResp 500 "Internal Server Error")
      | .ok resp =>
        let resp := resp.take maxNvlistResp
        match o.packIntoRespChunk resp with
        | ([], o) => send (o.sendHttpErrResp 500 "Internal Server Error")
        | (chunk, o) =>
          send (o.sendHttpResp 200 "OK" resp.length chunk "application/octet-stream")

/-- The answer of `post_register_admin`: `pack_into_resp_chunk` is an argument of
`send_http_resp`, so a failed allocation sends an empty body. -/
def sendPlain (o : Outbox) (text : String) : Except TaAbort (ℤ × Outbox) :=
  let packed := o.packIntoRespChunk (bytesOf text)
  packed.2.sendHttpResp 200 "OK" (bytesOf text).length packed.1 "text/plain"

/-- `post_register_admin`, for a client of class `t`. -/
def postRegisterAdmin (env : TaEnv) (g : Globals) (t : ClientType) (o : Outbox) (r : Request) :
    Except TaAbort (ℤ × Globals × Outbox) :=
  match o.malloc with
  | (false, o) => (o.sendHttpErrResp 500 "Internal Server Error").map fun w => (w.1, g, w.2)
  | (true, o) =>
    match env.x509CrtParse (r.body.getD []) with
    | none => (sendPlain o "FAIL").map fun w => (w.1, g, w.2)
    | some raw =>
      (sendPlain o "REGISTERED").map fun w => (w.1, allowAdminCert g ⟨raw, t⟩, w.2)

/-- `post_get_adminlist`. -/
def postGetAdminlist (env : TaEnv) (g : Globals) (o : Outbox) :
    Except TaAbort (ℤ × Globals × Outbox) :=
  let list := getAdminlist env g.allowlist o
  let send := fun (x : Except TaAbort (ℤ × Outbox)) => x.map fun w => (w.1, g, w.2)
  match list.1 with
  | [] => send (list.2.sendHttpResp 200 "OK" 0 [] "text/plain")
  | chunks => send (list.2.sendHttpResp 200 "OK" (adminlistLen chunks) chunks "text/plain")

/-- The handler functions of the table. -/
inductive PostHandler
  | postNpfctlCmd
  | postRegisterAdmin
  | postGetAdminlist
  | dummyHandler
  deriving DecidableEq, Repr

/-- `struct req_handler`. -/
structure ReqHandler where
  path : String
  allowedClients : List ClientType
  needsBody : Bool
  expContentType : String
  handler : PostHandler
  deriving DecidableEq, Repr

/-- `post_handler_list`. -/
def postHandlerList : List ReqHandler :=
  [⟨"/trustconf", [.admin, .master], true, "application/octet-stream", .postNpfctlCmd⟩,
    ⟨"/register-admin", [.user], true, "text/plain", .postRegisterAdmin⟩,
    ⟨"/adminlist", [.master], false, "text/plain", .postGetAdminlist⟩,
    ⟨"trustroute", [.admin, .master], true, "application/octet-stream", .dummyHandler⟩]

/-- `get_req_handler`. -/
def getReqHandler (hs : List ReqHandler) (path : List Byte) : Option ReqHandler :=
  hs.find? fun h => decide (bytesOf h.path = path)

/-- A table entry is found under its own path. -/
theorem getReqHandler_eq_some {path : List Byte} {h : ReqHandler}
    (hf : getReqHandler postHandlerList path = some h) :
    h ∈ postHandlerList ∧ bytesOf h.path = path :=
  ⟨List.mem_of_find?_eq_some hf, of_decide_eq_true (List.find?_some hf :)⟩

/-- Call the handler of a table entry. -/
def ReqHandler.call (h : ReqHandler) (env : TaEnv) (g : Globals) (p : Peer) (t : ClientType)
    (o : Outbox) (r : Request) (pta : PtaAns) : Except TaAbort (ℤ × Globals × Outbox) :=
  match h.handler with
  | .postNpfctlCmd => postNpfctlCmd g p o r pta
  | .postRegisterAdmin => postRegisterAdmin env g t o r
  | .postGetAdminlist => postGetAdminlist env g o
  | .dummyHandler => dummyHandler g o

/-- `handle_post_request`. -/
def handlePostRequest (env : TaEnv) (g : Globals) (p : Peer) (o : Outbox) (r : Request)
    (pta : PtaAns) : Except TaAbort (ℤ × Globals × Outbox) :=
  let refuse := fun (code : ℕ) (msg : String) =>
    (o.sendHttpErrResp code msg).map fun w => (w.1, g, w.2)
  if ¬ hasCsrfHeader r then .ok (-1, g, o)
  else
    match getReqHandler postHandlerList r.head.path with
    | none => refuse 404 "Not Found"
    | some h =>
      match getClientType env g p with
      | .error e => .error e
      | .ok t =>
        if t ∉ h.allowedClients then refuse 403 "Forbidden"
        else if h.needsBody ∧ ¬ hasBody r then refuse 404 "Not Found"
        else if ¬ hasExpectedContentType r h.expContentType then
          refuse 415 "Unsupported Media Type"
        else h.call env g p t o r pta

/-- The choice of the handler by the request's method. -/
def handleRequest (env : TaEnv) (g : Globals) (p : Peer) (o : Outbox) (r : Request)
    (pta : PtaAns) : Except TaAbort (ℤ × Globals × Outbox) :=
  if r.head.method = bytesOf "GET" then
    (handleGetRequest env g p o r).map fun w => (w.1, g, w.2)
  else if r.head.method = bytesOf "POST" then handlePostRequest env g p o r pta
  else (o.sendHttpErrResp 405 "Method Not Allowed").map fun w => (w.1, g, w.2)

/-! ## The loop of `sw_read_https_req_data` -/

/-- How a turn ends: the loop goes on with a pointer and a length, or the function returns. -/
inductive Turn
  | loop (bp dataLen : ℕ)
  | ret (code : ℤ)
  deriving DecidableEq, Repr

/-- A client of the service: the sending and the receiving side. -/
structure Client where
  peer : Peer
  rx : Rx
  out : Outbox

/-- The environment's answers during one turn. -/
structure Answers where
  read : ReadAns
  mallocs : List Bool
  writes : List ℤ
  pta : PtaAns
  deriving DecidableEq, Repr

/-- A request was handled with result `ret`: drop it from the buffer. -/
def afterRequest (rx : Rx) (bp dataLen : ℕ) (ret : ℤ) : Turn × Rx :=
  if ret ≠ 0 then (.ret ret, rx.moveRest bp dataLen)
  else if dataLen = 0 then (.loop 0 0, { rx with reqIdx := 0 })
  else (.loop bp dataLen, rx)

/-- One turn of the loop, at pointer `bp` with `dataLen` bytes left. -/
def iterate (env : TaEnv) (g : Globals) (c : Client) (bp dataLen : ℕ) (ans : Answers) :
    Except TaAbort (Turn × Globals × Client) :=
  match receive c.rx bp dataLen ans.read with
  | .error e => .error e
  | .ok (.ret code) => .ok (.ret code, g, c)
  | .ok (.ready rx bp dataLen) =>
    let out := c.out.answered ans.mallocs ans.writes
    match scanRequest env (slice rx.buffer bp dataLen) with
    | .error e => .error e
    | .ok .bad =>
      match out.sendHttpErrResp 400 "Bad Request" with
      | .error e => .error e
      | .ok w => .ok (.ret (-1), g, { c with rx := { rx with gaveUp := true }, out := w.2 })
    | .ok .incomplete =>
      .ok (.loop 0 dataLen, g,
        { c with rx := { rx.moveRest bp dataLen with isPartial := true } })
    | .ok (.refused code) => .ok (.ret code, g, { c with rx := { rx with gaveUp := true } })
    | .ok (.request r) =>
      match handleRequest env g c.peer out r ans.pta with
      | .error e => .error e
      | .ok (ret, g, out) =>
        let rx := { rx with isPartial := false, handled := rx.handled ++ [r] }
        -- `bp` is counted from the start of the buffer, not from the request's start
        let next := afterRequest rx r.size (dataLen - r.size) ret
        .ok (next.1, g, { c with rx := next.2, out := out })

/-- How a turn that does not abort can go, one constructor for each path through the loop. -/
inductive Iterated (env : TaEnv) (g : Globals) (c : Client) (bp dataLen : ℕ) (ans : Answers) :
    Turn × Globals × Client → Prop
  | unread {code : ℤ} (hrecv : receive c.rx bp dataLen ans.read = .ok (.ret code)) :
      Iterated env g c bp dataLen ans (.ret code, g, c)
  | bad {rx : Rx} {bp' dataLen' : ℕ} {w : ℤ × Outbox}
      (hrecv : receive c.rx bp dataLen ans.read = .ok (.ready rx bp' dataLen'))
      (hscan : scanRequest env (slice rx.buffer bp' dataLen') = .ok .bad)
      (hsend : (c.out.answered ans.mallocs ans.writes).sendHttpErrResp 400 "Bad Request" = .ok w) :
      Iterated env g c bp dataLen ans
        (.ret (-1), g, { c with rx := { rx with gaveUp := true }, out := w.2 })
  | incomplete {rx : Rx} {bp' dataLen' : ℕ}
      (hrecv : receive c.rx bp dataLen ans.read = .ok (.ready rx bp' dataLen'))
      (hscan : scanRequest env (slice rx.buffer bp' dataLen') = .ok .incomplete) :
      Iterated env g c bp dataLen ans
        (.loop 0 dataLen', g,
          { c with rx := { rx.moveRest bp' dataLen' with isPartial := true } })
  | refused {rx : Rx} {bp' dataLen' : ℕ} {code : ℤ}
      (hrecv : receive c.rx bp dataLen ans.read = .ok (.ready rx bp' dataLen'))
      (hscan : scanRequest env (slice rx.buffer bp' dataLen') = .ok (.refused code)) :
      Iterated env g c bp dataLen ans (.ret code, g, { c with rx := { rx with gaveUp := true } })
  | request {rx : Rx} {bp' dataLen' : ℕ} {r : Request} {ret : ℤ} {g' : Globals} {out : Outbox}
      (hrecv : receive c.rx bp dataLen ans.read = .ok (.ready rx bp' dataLen'))
      (hscan : scanRequest env (slice rx.buffer bp' dataLen') = .ok (.request r))
      (hhandle : handleRequest env g c.peer (c.out.answered ans.mallocs ans.writes) r ans.pta =
        .ok (ret, g', out)) :
      Iterated env g c bp dataLen ans
        ((afterRequest { rx with isPartial := false, handled := rx.handled ++ [r] } r.size
            (dataLen' - r.size) ret).1, g',
          { c with
            rx := (afterRequest { rx with isPartial := false, handled := rx.handled ++ [r] } r.size
              (dataLen' - r.size) ret).2
            out := out })

theorem iterated_of_ok {g : Globals} {c : Client} {ans : Answers} {x : Turn × Globals × Client}
    (h : iterate env g c bp dataLen ans = .ok x) : Iterated env g c bp dataLen ans x := by
  unfold iterate at h
  rcases hrecv : receive c.rx bp dataLen ans.read with e | (code | ⟨rx, bp', dataLen'⟩)
  · simp only [hrecv] at h
    cases h
  · simp only [hrecv, Except.ok.injEq] at h
    exact h ▸ .unread hrecv
  · simp only [hrecv] at h
    rcases hscan : scanRequest env (slice rx.buffer bp' dataLen') with
      e | (_ | _ | code | r)
    · simp only [hscan] at h
      cases h
    · simp only [hscan] at h
      rcases hsend : (c.out.answered ans.mallocs ans.writes).sendHttpErrResp 400 "Bad Request" with
        e | w
      · simp only [hsend] at h
        cases h
      · simp only [hsend, Except.ok.injEq] at h
        exact h ▸ .bad hrecv hscan hsend
    · simp only [hscan, Except.ok.injEq] at h
      exact h ▸ .incomplete hrecv hscan
    · simp only [hscan, Except.ok.injEq] at h
      exact h ▸ .refused hrecv hscan
    · simp only [hscan] at h
      rcases hhandle : handleRequest env g c.peer (c.out.answered ans.mallocs ans.writes) r ans.pta
        with e | ⟨ret, g', out⟩
      · simp only [hhandle] at h
        cases h
      · simp only [hhandle, Except.ok.injEq] at h
        exact h ▸ .request hrecv hscan hhandle

/-- The entry of `sw_read_https_req_data`: pending responses go first. -/
def enter (env : TaEnv) (g : Globals) (c : Client) (mallocs : List Bool) (writes : List ℤ) :
    Except TaAbort (Turn × Client) :=
  match getClientType env g c.peer with
  | .error e => .error e
  | .ok .invalid => .ok (.ret (-1), c)
  | .ok _ =>
    if c.out.respBuffer = [] then .ok (.loop 0 c.rx.reqIdx, c)
    else
      match (c.out.answered mallocs writes).flushRespQueue with
      | .error e => .error e
      | .ok (ret, out) =>
        if ret ≠ 0 then .ok (.ret ret, { c with out := out })
        else .ok (.loop 0 c.rx.reqIdx, { c with out := out })

/-- The request a turn hands to the handlers, if it gets that far. -/
def served (env : TaEnv) (c : Client) (bp dataLen : ℕ) (ans : Answers) : Option Request :=
  match receive c.rx bp dataLen ans.read with
  | .ok (.ready rx bp dataLen) =>
    match scanRequest env (slice rx.buffer bp dataLen) with
    | .ok (.request r) => some r
    | _ => none
  | _ => none

theorem served_eq_some {c : Client} {ans : Answers} {rx : Rx} {bp' dataLen' : ℕ} {r : Request}
    (hrecv : receive c.rx bp dataLen ans.read = .ok (.ready rx bp' dataLen'))
    (hscan : scanRequest env (slice rx.buffer bp' dataLen') = .ok (.request r)) :
    served env c bp dataLen ans = some r := by
  simp only [served, hrecv, hscan]

/-! ## Connections -/

def sslPeerVerifyFailed : ℤ := -0x7800

/-- `sw_do_handshake_cli`, where `mbedtls_ssl_handshake` returns `hs`. -/
def swDoHandshakeCli (env : TaEnv) (g : Globals) (p : Peer) (hs : ℤ) : Except TaAbort ℤ :=
  if hs = 0 then
    let accepted := p.verify = 0 ∨ p.verify = badcertMissing ∨ p.verify = -1 ∨
      p.verify = badcertSkipVerify
    match getClientType env g p with
    | .error e => .error e
    | .ok t =>
      match printUserType t with
      | .error e => .error e
      | .ok () => .ok (if accepted then 0 else sslPeerVerifyFailed)
  else .ok hs

/-- Where the host is with a connection. -/
inductive Phase
  | handshake
  | ready
  | serving (bp dataLen : ℕ)
  | closed
  deriving DecidableEq, Repr

/-- A connection. -/
structure Conn where
  phase : Phase
  client : Client

/-- The service: what its connections share, and the connections. -/
structure Ta where
  globals : Globals
  conns : ℕ → Conn

/-- What happens on a connection. -/
inductive ConnEvent
  /-- a new connection takes the place of a closed one -/
  | connect
  /-- `mbedtls_ssl_handshake` returns; the peer is what it is once the result is zero -/
  | handshake (hs : ℤ) (peer : Peer)
  | enter (mallocs : List Bool) (writes : List ℤ)
  | iterate (ans : Answers)
  deriving DecidableEq, Repr

/-- A client as `sw_init_http_cli` leaves it. -/
def Client.init (p : Peer) : Client := ⟨p, Rx.init, Outbox.init⟩

/-- A connection nobody uses. -/
def Conn.init : Conn := ⟨.closed, Client.init ⟨0, none⟩⟩

/-- What the host does with a return value: it calls again after a request to read or to write and
gives the connection up after everything else. -/
def hostNext (ret : ℤ) : Phase :=
  if ret = sslWantRead ∨ ret = sslWantWrite then .ready else .closed

/-- The phase after a turn of the loop. -/
def Turn.phase : Turn → Phase
  | .loop bp dataLen => .serving bp dataLen
  | .ret code => hostNext code

/-- One event on a connection; an event out of phase does nothing. -/
def connStep (env : TaEnv) (g : Globals) (c : Conn) : ConnEvent → Except TaAbort (Globals × Conn)
  | .connect =>
    match c.phase with
    | .closed => .ok (g, ⟨.handshake, Client.init ⟨0, none⟩⟩)
    | _ => .ok (g, c)
  | .handshake hs peer =>
    match c.phase with
    | .handshake =>
      match swDoHandshakeCli env g peer hs with
      | .error e => .error e
      | .ok ret =>
        if ret = 0 then .ok (g, ⟨.ready, Client.init peer⟩)
        else if ret = sslWantRead ∨ ret = sslWantWrite then .ok (g, c)
        else .ok (g, { c with phase := .closed })
    | _ => .ok (g, c)
  | .enter mallocs writes =>
    match c.phase with
    | .ready =>
      match enter env g c.client mallocs writes with
      | .error e => .error e
      | .ok (turn, client) => .ok (g, ⟨turn.phase, client⟩)
    | _ => .ok (g, c)
  | .iterate ans =>
    match c.phase with
    | .serving bp dataLen =>
      match iterate env g c.client bp dataLen ans with
      | .error e => .error e
      | .ok (turn, g, client) => .ok (g, ⟨turn.phase, client⟩)
    | _ => .ok (g, c)

/-- What an event that does not abort can do to a connection. -/
inductive ConnMoved (env : TaEnv) (g : Globals) (c : Conn) : ConnEvent → Globals × Conn → Prop
  | idle {ev : ConnEvent}
      (hout : ∀ ans bp dataLen, ev = .iterate ans → c.phase ≠ .serving bp dataLen) :
      ConnMoved env g c ev (g, c)
  | connected (hp : c.phase = .closed) :
      ConnMoved env g c .connect (g, ⟨.handshake, Client.init ⟨0, none⟩⟩)
  | accepted {hs : ℤ} {peer : Peer} (hp : c.phase = .handshake)
      (hshake : swDoHandshakeCli env g peer hs = .ok 0) :
      ConnMoved env g c (.handshake hs peer) (g, ⟨.ready, Client.init peer⟩)
  | rejected {hs : ℤ} {peer : Peer} (hp : c.phase = .handshake) :
      ConnMoved env g c (.handshake hs peer) (g, { c with phase := .closed })
  | entered {mallocs : List Bool} {writes : List ℤ} {x : Turn × Client} (hp : c.phase = .ready)
      (henter : enter env g c.client mallocs writes = .ok x) :
      ConnMoved env g c (.enter mallocs writes) (g, ⟨x.1.phase, x.2⟩)
  | iterated {ans : Answers} {bp dataLen : ℕ} {x : Turn × Globals × Client}
      (hp : c.phase = .serving bp dataLen)
      (hiter : iterate env g c.client bp dataLen ans = .ok x) :
      ConnMoved env g c (.iterate ans) (x.2.1, ⟨x.1.phase, x.2.2⟩)

theorem moved_of_ok {g : Globals} {c : Conn} {ev : ConnEvent} {x : Globals × Conn}
    (h : connStep env g c ev = .ok x) : ConnMoved env g c ev x := by
  cases ev with
  | connect =>
    simp only [connStep] at h
    split at h <;> cases h
    · exact .connected ‹_›
    · exact .idle nofun
  | handshake hs peer =>
    simp only [connStep] at h
    split at h
    · rename_i hp
      split at h
      · cases h
      · rename_i ret hret
        split at h
        · rename_i h0
          cases h
          exact .accepted hp (h0 ▸ hret)
        · split at h <;> cases h
          · exact .idle nofun
          · exact .rejected hp
    · cases h
      exact .idle nofun
  | enter mallocs writes =>
    simp only [connStep] at h
    split at h
    · rename_i hp
      split at h
      · cases h
      · rename_i henter
        cases h
        exact .entered hp henter
    · cases h
      exact .idle nofun
  | iterate ans =>
    simp only [connStep] at h
    split at h
    · rename_i hp
      split at h
      · cases h
      · rename_i hiter
        cases h
        exact .iterated hp hiter
    · rename_i hout
      cases h
      exact .idle fun _ bp dataLen _ hp => hout bp dataLen hp

/-- An event of the service: a connection and what happens on it. -/
structure TaEvent where
  conn : ℕ
  event : ConnEvent
  deriving DecidableEq, Repr

/-- One event of the service. -/
def taStep (env : TaEnv) (t : Ta) (ev : TaEvent) : Except TaAbort Ta :=
  match connStep env t.globals (t.conns ev.conn) ev.event with
  | .error e => .error e
  | .ok (g, c) => .ok ⟨g, Function.update t.conns ev.conn c⟩

/-- The service with an empty allow list and no connection. -/
def Ta.init : Ta := ⟨⟨[], []⟩, fun _ => Conn.init⟩

/-- An event changes what is shared and its own connection. -/
theorem taStep_eq_ok {t t' : Ta} {ev : TaEvent} (h : taStep env t ev = .ok t') :
    ∃ x, ConnMoved env t.globals (t.conns ev.conn) ev.event x ∧
      t' = ⟨x.1, Function.update t.conns ev.conn x.2⟩ := by
  unfold taStep at h
  split at h
  · cases h
  · rename_i g c hc
    cases h
    exact ⟨(g, c), moved_of_ok hc, rfl⟩

/-! ## A small environment

A parser whose header block is a single letter, to run the service on. -/

/-- A request head of one byte. -/
def ReqHead.letter (method path : String) (headers : List (String × String)) : ReqHead :=
  ⟨1, bytesOf method, bytesOf path, headers.map fun h => ⟨bytesOf h.1, bytesOf h.2⟩⟩

/-- `L` asks for the list of administrators, `R` registers one, `T` configures the firewall, `X`
announces its body with eleven digits, and every other byte asks for the web application. -/
def letterHead (b : Byte) : ReqHead :=
  if b = 76 then
    .letter "POST" "/adminlist" [("BstGw-no-csrf", ""), ("Content-Type", "text/plain")]
  else if b = 82 then
    .letter "POST" "/register-admin"
      [("BstGw-no-csrf", ""), ("Content-Type", "text/plain"), ("Content-Length", "1")]
  else if b = 84 then
    .letter "POST" "/trustconf" [("BstGw-no-csrf", ""),
      ("Content-Type", "application/octet-stream"), ("Content-Length", "1")]
  else if b = 88 then .letter "GET" "/" [("Content-Length", "00000000001")]
  else .letter "GET" "/" []

/-- The environment around this parser: certificates are short and their own encoding, the master
certificate is the byte 77. -/
def TaEnv.sample : TaEnv where
  phrParseRequest
    | [] => .incomplete
    | b :: _ => .head (letterHead b)
  x509CrtParse bs := some bs
  base64Encode bs := some (bs.take 100)
  master := some [77]
  webApp _ := some (bytesOf "app")

theorem nparsed_letterHead (b : Byte) : (letterHead b).nparsed = 1 := by
  unfold letterHead
  split
  · rfl
  · split
    · rfl
    · split
      · rfl
      · split <;> rfl

/-- A turn that reads `bs` and can write everything. -/
def Answers.reading (bs : List Byte) : Answers := ⟨.data bs, [], [200, 200], .ok []⟩

/-- A connection of the given peer, up to the loop. -/
def startConn (i : ℕ) (p : Peer) : List TaEvent :=
  [⟨i, .connect⟩, ⟨i, .handshake 0 p⟩, ⟨i, .enter [] []⟩]

end TrustedGateway
