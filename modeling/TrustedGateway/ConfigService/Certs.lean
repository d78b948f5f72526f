import TrustedGateway.ConfigService.Responses

/-!
# Client classes and certificates

Who a client is follows from its certificate (`sw_crt_mng.c`, `get_client_type`): the master
certificate is built in, the certificates on the allow list make administrators, every other
verified certificate is pending, and a client without a certificate is a plain user.

The code around the service is a parameter, `TaEnv`: the HTTP parser, the certificate parser,
the base64 encoder, the built-in master certificate (absent when it does not load) and the web
applications.

## Main definitions

* `TaEnv` — the code around the service.
* `Peer`, `getClientType` — the client at the other end of a connection and its class.
* `Globals` — the state all connections share.
* `getAdminlist` — the allow list as a chain of response chunks.
-/

namespace TrustedGateway

/-- `enum client_type`. -/
inductive ClientType
  | user
  | admin
  | master
  | pending
  | invalid
  deriving DecidableEq, Repr

/-- A header line of a request. -/
structure Header where
  name : List Byte
  value : List Byte
  deriving DecidableEq, Repr

/-- A parsed request without its body (`struct parsing_info`); `nparsed` counts the bytes up to the
end of the header lines. -/
structure ReqHead where
  nparsed : ℕ
  method : List Byte
  path : List Byte
  headers : List Header
  deriving DecidableEq, Repr

/-- The result of `phr_parse_request`. -/
inductive Phr
  | bad
  | incomplete
  | head (h : ReqHead)
  deriving DecidableEq, Repr

/-- The code around the service. -/
structure TaEnv where
  phrParseRequest : List Byte → Phr
  /-- the raw certificate, or nothing when `mbedtls_x509_crt_parse` fails -/
  x509CrtParse : List Byte → Option (List Byte)
  base64Encode : List Byte → Option (List Byte)
  /-- the raw master certificate, or nothing when `load_master_cert` fails -/
  master : Option (List Byte)
  /-- `get_web_app` -/
  webApp : ClientType → Option (List Byte)

/-- The other end of a connection: `mbedtls_ssl_get_verify_result` and
`mbedtls_ssl_get_peer_cert`. -/
structure Peer where
  verify : Word
  cert : Option (List Byte)
  deriving DecidableEq, Repr

/-- An entry of the allow list, with the class of the client whose request put it there. -/
structure AdminCert where
  raw : List Byte
  storedBy : ClientType
  deriving DecidableEq, Repr

/-- One execution of `post_npfctl_cmd`: for whom, and the allow list of that moment. -/
structure NpfCall where
  peer : Peer
  allowlist : List AdminCert
  deriving DecidableEq, Repr

/-- What all connections share: the allow list, and the firewall commands executed so far. -/
structure Globals where
  allowlist : List AdminCert
  npf : List NpfCall
  deriving DecidableEq, Repr

def badcertMissing : Word := 0x40
def badcertSkipVerify : Word := 0x80

/-- `get_cert_type`. -/
def getCertType (env : TaEnv) (g : Globals) (raw : List Byte) : Except TaAbort ClientType :=
  match env.master with
  | none => .error .masterCert
  | some m =>
    if raw = m then .ok .master
    else if g.allowlist.any (fun c => decide (c.raw = raw)) then .ok .admin
    else .ok .pending

/-- `get_client_type`. -/
def getClientType (env : TaEnv) (g : Globals) (p : Peer) : Except TaAbort ClientType :=
  if p.verify = badcertMissing then .ok .user
  else if p.verify = badcertSkipVerify then .ok .user
  else if p.verify = 0 then
    match p.cert with
    | none => .ok .invalid
    | some raw => getCertType env g raw
  else .ok .invalid

/-- `print_user_type`. -/
def printUserType : ClientType → Except TaAbort Unit
  | .invalid => .error .userType
  | _ => .ok ()

/-- `allow_admin_cert`. -/
def allowAdminCert (g : Globals) (c : AdminCert) : Globals :=
  { g with allowlist := g.allowlist ++ [c] }

/-- `get_adminlist`: one chunk for each certificate, up to the first that cannot be allocated or
encoded. -/
def getAdminlist (env : TaEnv) : List AdminCert → Outbox → List RespChunk × Outbox
  | [], o => ([], o)
  | c :: cs, o =>
    match o.malloc with
    | (false, o) => ([], o)
    | (true, o) =>
      match o.malloc with
      | (false, o) => ([], o)
      | (true, o) =>
        match env.base64Encode c.raw with
        | none => ([], o)
        | some buf =>
          let rest := getAdminlist env cs o
          (⟨buf, 0⟩ :: rest.1, rest.2)

/-- The length `get_adminlist` stores through its argument. -/
def adminlistLen (chunks : List RespChunk) : ℕ := ((chunks.map (·.buf.length)).sum) % 2 ^ 32

end TrustedGateway
