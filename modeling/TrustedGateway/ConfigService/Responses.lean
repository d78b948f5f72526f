import TrustedGateway.Machine
import Mathlib.Data.List.Infix
import Mathlib.Tactic.Common

/-!
# The response queue

Every response of the configuration service is queued as a header chunk and a body chunk and
written to the TLS connection from there (`response_queue.c` and the sending half of
`secure_ta.c`).  What the TLS layer does with an offered block is open: it fails with a
negative code and takes nothing, or it takes some first part of the block.  Its answers, and
those of the allocator, are part of the state as lists of answers still to come; when a list
runs out, `malloc` succeeds and `mbedtls_ssl_write` wants to be called again.

A chunk always has a buffer: `pack_into_resp_chunk` refuses a null pointer, and `get_adminlist`
drops a chunk whose buffer it could not allocate.

## Main definitions

* `RespChunk`, `appendRespQueue` — the queue.
* `Outbox` — the queue of a client, the answers to come, and the history of its output.
* `sslWrite`, `flushRespQueue` — the writes.
* `sendHttpResp`, `sendHttpErrResp` — a response is queued and the queue flushed.
-/

namespace TrustedGateway

/-- The bytes of a text. -/
def bytesOf (s : String) : List Byte := s.toList.map fun c => BitVec.ofNat 8 c.toNat

/-- A `size_t` read as an `int` or a `long`. -/
def intOfSize (n : ℕ) : ℤ := (BitVec.ofNat 32 n).toInt

def sslWantRead : ℤ := -0x6900
def sslWantWrite : ℤ := -0x6880

/-- The `abort()` calls of the service outside the shared rings. -/
inductive TaAbort
  | masterCert
  | userType
  | emptyWrite
  | errorCode
  | contentLength
  | requestBuffer
  deriving DecidableEq, Repr

/-- `struct resp_chunk`, without the link to the next chunk. -/
structure RespChunk where
  buf : List Byte
  offset : ℕ
  deriving DecidableEq, Repr

/-- What is still to be written of a chunk. -/
def RespChunk.rest (c : RespChunk) : List Byte := c.buf.drop c.offset

/-- `append_resp_queue`.  The entry is a chain of chunks; its first chunk is linked to the end of
the queue and the rest of the chain is cut off (`entry->next = NULL`). -/
def appendRespQueue (q entry : List RespChunk) : List RespChunk :=
  match entry with
  | [] => q
  | c :: _ => q ++ [c]

/-- One call of `mbedtls_ssl_write`: the block it was offered and what it returned. -/
structure Offer where
  block : List Byte
  ret : ℤ
  deriving DecidableEq, Repr

/-- A response: the number in its `Content-Length` line and the body bytes queued behind it. -/
structure Announced where
  contentLength : ℤ
  bodyBytes : ℕ
  deriving DecidableEq, Repr

/-- One call of `flush_resp_queue`: its result and what it left behind. -/
structure Flush where
  ret : ℤ
  queue : List RespChunk
  taken : List Byte
  queued : List Byte
  deriving DecidableEq, Repr

/-- The sending side of a client. -/
structure Outbox where
  /-- `resp_buffer` -/
  respBuffer : List RespChunk
  /-- answers of `malloc` to come -/
  mallocs : List Bool
  /-- answers of `mbedtls_ssl_write` to come, negative for an error -/
  writes : List ℤ
  /-- bytes the TLS layer took so far -/
  taken : List Byte
  /-- bytes of all chunks queued so far -/
  queued : List Byte
  /-- calls of `mbedtls_ssl_write` so far -/
  offers : List Offer
  /-- calls of `flush_resp_queue` so far -/
  flushes : List Flush
  /-- responses so far -/
  responses : List Announced
  deriving DecidableEq, Repr

namespace Outbox

/-- `sw_init_http_cli`: nothing queued. -/
def init : Outbox := ⟨[], [], [], [], [], [], [], []⟩

/-- The answers the next call will get. -/
def answered (o : Outbox) (mallocs : List Bool) (writes : List ℤ) : Outbox :=
  { o with mallocs := mallocs, writes := writes }

/-- `malloc`: whether it succeeds. -/
def malloc (o : Outbox) : Bool × Outbox :=
  match o.mallocs with
  | [] => (true, o)
  | b :: bs => (b, { o with mallocs := bs })

/-- What `mbedtls_ssl_write` returns for a block, given the answer to come. -/
def writeRet (answers : List ℤ) (block : List Byte) : ℤ :=
  match answers with
  | [] => sslWantWrite
  | w :: _ => if w < 0 then w else min w block.length

/-- `mbedtls_ssl_write`: a negative result takes nothing, another one takes that many bytes of
the block. -/
def sslWrite (o : Outbox) (block : List Byte) : ℤ × Outbox :=
  let n := writeRet o.writes block
  (n, { o with
    writes := o.writes.tail
    taken := o.taken ++ block.take n.toNat
    offers := o.offers ++ [⟨block, n⟩] })

/-- The loop of `flush_resp_queue` over the chunks still in the queue. -/
def flushFrom : List RespChunk → Outbox → Except TaAbort (ℤ × Outbox)
  | [], o => .ok (0, { o with respBuffer := [] })
  | c :: cs, o =>
    let toSent := intOfSize (c.buf.length - c.offset)
    if 0 < toSent then
      let w := o.sslWrite c.rest
      if w.1 < 0 then .ok (w.1, { w.2 with respBuffer := c :: cs })
      else if w.1 ≠ toSent then
        .ok (sslWantWrite,
          { w.2 with respBuffer := { c with offset := c.offset + w.1.toNat } :: cs })
      else if w.1 = 0 then .error .emptyWrite
      else flushFrom cs w.2
    else flushFrom cs o

/-- `flush_resp_queue`. -/
def flushRespQueue (o : Outbox) : Except TaAbort (ℤ × Outbox) :=
  match flushFrom o.respBuffer o with
  | .error e => .error e
  | .ok (ret, o) =>
    .ok (ret, { o with flushes := o.flushes ++ [⟨ret, o.respBuffer, o.taken, o.queued⟩] })

/-- `pack_into_resp_chunk`: a chain of one chunk, or none when the allocation fails. -/
def packIntoRespChunk (o : Outbox) (buf : List Byte) : List RespChunk × Outbox :=
  match o.malloc with
  | (false, o) => ([], o)
  | (true, o) => ([⟨buf, 0⟩], o)

/-- Append a chain to the queue. -/
def append (o : Outbox) (entry : List RespChunk) : Outbox :=
  { o with
    respBuffer := appendRespQueue o.respBuffer entry
    queued := o.queued ++ (appendRespQueue [] entry).flatMap RespChunk.rest }

/-- The header of a response (`http_resp_tmplt`). -/
def httpRespHeader (code : ℕ) (status : String) (blen : ℕ) (type : String) : List Byte :=
  bytesOf ("HTTP/1.1 " ++ toString code ++ " " ++ status ++ "\r\nContent-Length: " ++
    toString (intOfSize blen) ++ "\r\nContentType: " ++ type ++ "\r\n\r\n")

/-- `send_http_resp`.  The longest header text is shorter than the buffer it is printed to, so it
is never cut. -/
def sendHttpResp (o : Outbox) (code : ℕ) (status : String) (datalen : ℕ)
    (bodyChunk : List RespChunk) (dataType : String) : Except TaAbort (ℤ × Outbox) :=
  match o.malloc with
  | (false, o) => .ok (-1, o)
  | (true, o) =>
    let blen := if bodyChunk ≠ [] ∧ 0 < datalen then datalen else 0
    let type := if bodyChunk ≠ [] ∧ 0 < datalen then dataType else ""
    match o.packIntoRespChunk (httpRespHeader code status blen type) with
    | ([], o) => .ok (-1, o)
    | (hdr, o) =>
      flushRespQueue { (o.append hdr).append bodyChunk with
        responses := o.responses ++ [⟨intOfSize blen,
          ((appendRespQueue [] bodyChunk).flatMap RespChunk.rest).length⟩] }

/-- `send_http_err_resp`. -/
def sendHttpErrResp (o : Outbox) (err : ℕ) (msg : String) : Except TaAbort (ℤ × Outbox) :=
  if err = 204 ∨ err = 304 ∨ (100 ≤ err ∧ err ≤ 199) then .error .errorCode
  else o.sendHttpResp err msg 0 [] ""

end Outbox

end TrustedGateway
