import Mathlib.Data.Finset.Basic
import TrustedGateway.Lib.Run
import TrustedGateway.Machine

/-!
# The sessions of the trusted application

`web_stub_ta.c` gives the normal world two kinds of sessions.  A server session owns a server
object, with the TLS configuration in it; a client session owns a client object, which keeps a
pointer to that configuration.  Both kinds share one global pointer to it, `server_config`, and a
command checks the type of its session and its parameters, not what was called before.

Here an object is an address.  The addresses of live objects form a set, a pointer of a session is
an address or `NULL`, and every use of an object that is freed or not yet set up is recorded as a
fault.  Addresses are never given out twice, so a pointer to a freed object is not mistaken for
one to a later object.

The lifetimes depend on the order of the calls.  Finishing an object leaves the pointer to it in
the session, and so does an initialisation that fails half way.  Finishing a server does not look
for clients, and clears `server_config` even on a session that has no server.  `InOrder` is the
order the lifetimes need, and it is needed exactly.

## Main definitions

* `Stub`, `stubStep` — the application's sessions and objects, and one call of the normal world.
* `Sound` — no fault so far, configurations of clients are live, and `server_config` is there
  exactly while a server is.
* `InOrder` — the calls that keep it so.
-/

namespace TrustedGateway

open StepSystem

/-! ## State -/

/-- `BSTGW_WEBSTUB_SERVER_SESSION` and `BSTGW_WEBSTUB_CLIENT_SESSION`. -/
inductive SessType
  | server
  | client
  deriving DecidableEq, Repr

/-- `struct sess_info`: the type, and the pointer it selects. -/
structure SessInfo where
  type : SessType
  ptr : Option ℕ
  deriving DecidableEq, Repr

/-- The HTTP part of a client: as `malloc` left it, between `sw_init_http_cli` and
`sw_fini_http_cli`, or with its response queue freed. -/
inductive HttpState
  | raw
  | ready
  | done
  deriving DecidableEq, Repr

/-- `struct sw_client_session`, as far as its lifetime goes. -/
structure SwClient where
  /-- the server whose configuration the client uses -/
  config : ℕ
  http : HttpState
  deriving DecidableEq, Repr

/-- A use of memory outside the lifetime of what lives there. -/
inductive Fault
  | deadServer
  | deadClient
  | deadConfig
  | uninitialised
  deriving DecidableEq, Repr

/-- An instance of the application. -/
structure Stub where
  /-- open sessions -/
  opened : Finset ℕ
  sess : ℕ → SessInfo
  /-- the next address `malloc` gives out -/
  next : ℕ
  /-- server objects between their initialisation and their end -/
  servers : Finset ℕ
  /-- client objects between their initialisation and their end -/
  clients : Finset ℕ
  client : ℕ → SwClient
  /-- `webstub_ta->server_config`, as the server it lies in -/
  serverConfig : Option ℕ
  /-- the faults so far -/
  faults : List Fault

namespace Stub

/-- No instance yet, or one just created. -/
def init : Stub := ⟨∅, fun _ => ⟨.server, none⟩, 0, ∅, ∅, fun _ => ⟨0, .raw⟩, none, []⟩

def fault (s : Stub) (f : Fault) : Stub := { s with faults := s.faults ++ [f] }

/-- Store a pointer in a session. -/
def setPtr (s : Stub) (i : ℕ) (p : Option ℕ) : Stub :=
  { s with sess := Function.update s.sess i { s.sess i with ptr := p } }

/-- `malloc`, stored in a session. -/
def allocate (s : Stub) (i : ℕ) : Stub := { s.setPtr i (some s.next) with next := s.next + 1 }

/-- The TLS layer reads a configuration. -/
def readConfig (s : Stub) (conf : ℕ) : Stub :=
  if conf ∈ s.servers then s else s.fault .deadConfig

/-- The HTTP part of a client is used. -/
def useHttp (s : Stub) (p : ℕ) : Stub :=
  if (s.client p).http = .ready then s else s.fault .uninitialised

def setHttp (s : Stub) (p : ℕ) (h : HttpState) : Stub :=
  { s with client := Function.update s.client p { s.client p with http := h } }

end Stub

/-! ## Commands -/

/-- How `sw_init_mbedtls_srv` ends. -/
inductive SrvSetup
  | ok
  /-- one of the two certificates does not load, before the private key was initialised -/
  | certFails
  | laterFails
  deriving DecidableEq, Repr

/-- `cmd_init_https_server` with `sw_init_tls_srv`. -/
def cmdInitHttpsServer (s : Stub) (i : ℕ) (mem : Bool) (setup : SrvSetup) : TeeResult × Stub :=
  if s.serverConfig.isSome then (.generic, s)
  else if mem = false then (.generic, s.setPtr i none)
  else
    match setup with
    | .ok =>
      (.success, { s.allocate i with
        servers := insert s.next s.servers
        serverConfig := some s.next })
    -- the object is freed, the pointer to it stays in the session
    | .laterFails => (.generic, s.allocate i)
    -- `mbedtls_pk_free` on a key nobody initialised
    | .certFails => (.generic, (s.allocate i).fault .uninitialised)

/-- `cmd_fini_https_server` with `sw_fini_tls_srv`. -/
def cmdFiniHttpsServer (s : Stub) (srv : Option ℕ) : TeeResult × Stub :=
  match srv with
  | none => (.generic, { s with serverConfig := none })
  | some p =>
    if p ∈ s.servers then
      (.success, { s with servers := s.servers.erase p, serverConfig := none })
    else (.success, { s.fault .deadServer with serverConfig := none })

/-- `cmd_init_tls_client` with `sw_init_tls_cli`. -/
def cmdInitTlsClient (s : Stub) (i : ℕ) (mem setup : Bool) : TeeResult × Stub :=
  match s.serverConfig with
  | none => (.generic, s)
  | some conf =>
    if mem = false then (.generic, s.setPtr i none)
    else
      let s' := (s.allocate i).readConfig conf
      if setup then
        (.success, { s' with
          clients := insert s.next s'.clients
          client := Function.update s'.client s.next ⟨conf, .raw⟩ })
      -- the object is freed, the pointer to it stays in the session
      else (.generic, s')

/-- A command on the client of a session: `missing` is returned without one. -/
def onClient (s : Stub) (cli : Option ℕ) (missing : TeeResult) (f : ℕ → Stub) : TeeResult × Stub :=
  match cli with
  | none => (missing, s)
  | some p => if p ∈ s.clients then (.success, f p) else (.success, s.fault .deadClient)

/-- `cmd_fini_tls_client` with `sw_fini_tls_cli`. -/
def cmdFiniTlsClient (s : Stub) (cli : Option ℕ) : TeeResult × Stub :=
  onClient s cli .generic fun p => { s with clients := s.clients.erase p }

/-- `cmd_init_http_cli` with `sw_init_http_cli`. -/
def cmdInitHttpCli (s : Stub) (cli : Option ℕ) : TeeResult × Stub :=
  onClient s cli .generic fun p => s.setHttp p .ready

/-- `cmd_fini_http_cli` with `sw_fini_http_cli`: the response queue is freed, the pointer to it
stays. -/
def cmdFiniHttpCli (s : Stub) (cli : Option ℕ) : TeeResult × Stub :=
  onClient s cli .generic fun p => (s.useHttp p).setHttp p .done

/-- `cmd_do_handshake` with `sw_do_handshake_cli`. -/
def cmdDoHandshake (s : Stub) (cli : Option ℕ) : TeeResult × Stub :=
  onClient s cli .badParameters fun p => s.readConfig (s.client p).config

/-- `cmd_process_request` with `sw_read_https_req_data`, which returns early for a client that is
classified as invalid. -/
def cmdProcessRequest (s : Stub) (cli : Option ℕ) (invalid : Bool) : TeeResult × Stub :=
  onClient s cli .badParameters fun p =>
    if invalid then s else (s.useHttp p).readConfig (s.client p).config

/-- The commands, with what `malloc` and the TLS layer answer during each. -/
inductive Cmd
  | initHttpsServer (mem : Bool) (setup : SrvSetup)
  | finiHttpsServer
  | loadWebappFile
  | initTlsClient (mem setup : Bool)
  | finiTlsClient
  | initHttpCli
  | finiHttpCli
  | doHandshake
  | processRequest (invalid : Bool)
  | unknown
  deriving DecidableEq, Repr

/-- The type of session a command belongs to. -/
def Cmd.sessType : Cmd → Option SessType
  | .initHttpsServer _ _ | .finiHttpsServer | .loadWebappFile => some .server
  | .initTlsClient _ _ | .finiTlsClient | .initHttpCli | .finiHttpCli | .doHandshake
  | .processRequest _ => some .client
  | .unknown => none

/-- The body of a command. -/
def Stub.dispatch (s : Stub) (i : ℕ) : Cmd → TeeResult × Stub
  | .initHttpsServer mem setup => cmdInitHttpsServer s i mem setup
  | .finiHttpsServer => cmdFiniHttpsServer s (s.sess i).ptr
  -- the web applications belong to no session
  | .loadWebappFile => (.success, s)
  | .initTlsClient mem setup => cmdInitTlsClient s i mem setup
  | .finiTlsClient => cmdFiniTlsClient s (s.sess i).ptr
  | .initHttpCli => cmdInitHttpCli s (s.sess i).ptr
  | .finiHttpCli => cmdFiniHttpCli s (s.sess i).ptr
  | .doHandshake => cmdDoHandshake s (s.sess i).ptr
  | .processRequest invalid => cmdProcessRequest s (s.sess i).ptr invalid
  | .unknown => (.badParameters, s)

/-- `TA_InvokeCommandEntryPoint`; `params` says whether the parameters have the types and the sizes
the command expects. -/
def taInvokeCommandEntryPoint (s : Stub) (i : ℕ) (params : Bool) (cmd : Cmd) : TeeResult × Stub :=
  if cmd.sessType = none then (.badParameters, s)
  else if cmd.sessType ≠ some (s.sess i).type then (.accessDenied, s)
  else if params = false then (.badParameters, s)
  else s.dispatch i cmd

/-- The session types the normal world can ask for by number. -/
def SessType.ofValue : ℕ → Option SessType
  | 0 => some .server
  | 1 => some .client
  | _ => none

/-- `TA_OpenSessionEntryPoint`. -/
def taOpenSessionEntryPoint (s : Stub) (i : ℕ) (params : Bool) (type : ℕ) (mem : Bool) :
    TeeResult × Stub :=
  if params = false then (.badParameters, s)
  else
    match SessType.ofValue type with
    | none => (.badParameters, s)
    | some t =>
      if mem = false then (.outOfMemory, s)
      else
        (.success, { s with
          opened := insert i s.opened
          sess := Function.update s.sess i ⟨t, none⟩ })

/-- `TA_CloseSessionEntryPoint`.  The one instance is not kept alive, so it goes with its last
session, and all its memory with it. -/
def taCloseSessionEntryPoint (s : Stub) (i : ℕ) : Stub :=
  if s.opened.erase i = ∅ then { Stub.init with next := s.next, faults := s.faults }
  else { s with opened := s.opened.erase i }

/-- A call of the normal world. -/
inductive StubEvent
  | openSession (i : ℕ) (params : Bool) (type : ℕ) (mem : Bool)
  | closeSession (i : ℕ)
  | invoke (i : ℕ) (params : Bool) (cmd : Cmd)
  deriving DecidableEq, Repr

/-- One call.  The framework opens sessions under new numbers and refuses calls on others than the
open ones. -/
def Stub.call (s : Stub) : StubEvent → Stub
  | .openSession i params type mem =>
    if i ∈ s.opened then s else (taOpenSessionEntryPoint s i params type mem).2
  | .closeSession i => if i ∈ s.opened then taCloseSessionEntryPoint s i else s
  | .invoke i params cmd =>
    if i ∈ s.opened then (taInvokeCommandEntryPoint s i params cmd).2 else s

def stubStep (s : Stub) (ev : StubEvent) : Except Empty Stub := .ok (s.call ev)

/-! ## Lifetimes -/

/-- Every use was inside a lifetime, the configuration of a client is that of a live server, and
`server_config` is there exactly while a server is. -/
structure Sound (s : Stub) : Prop where
  clean : s.faults = []
  config : ∀ p ∈ s.clients, (s.client p).config ∈ s.servers
  server : s.serverConfig.isSome ↔ s.servers.Nonempty

/-- The order a command needs, on a session of its type. -/
def Cmd.InOrder (s : Stub) (ptr : Option ℕ) : Cmd → Prop
  | .initHttpsServer mem setup => s.serverConfig = none → mem = true → setup ≠ .certFails
  | .finiHttpsServer =>
    match ptr with
    | none => s.serverConfig = none
    | some p => p ∈ s.servers ∧ ∀ q ∈ s.clients, (s.client q).config ≠ p
  | .finiTlsClient | .initHttpCli | .doHandshake => ∀ p ∈ ptr, p ∈ s.clients
  | .finiHttpCli => ∀ p ∈ ptr, p ∈ s.clients ∧ (s.client p).http = .ready
  | .processRequest invalid =>
    ∀ p ∈ ptr, p ∈ s.clients ∧ (invalid = false → (s.client p).http = .ready)
  | .loadWebappFile | .initTlsClient _ _ | .unknown => True

/-- The order of calls that the lifetimes need.  A server is finished while it is there and no
client uses its configuration, or on a session without one while there is none at all.  Commands
on a client come between its successful initialisation and its end, or on a session that never had
one; those on its HTTP part between the initialisation and the end of that part.  And the
certificates load when a server is set up. -/
def InOrder (s : Stub) : StubEvent → Prop
  | .invoke i params cmd =>
    i ∈ s.opened → cmd.sessType = some (s.sess i).type → params = true →
      cmd.InOrder s (s.sess i).ptr
  | _ => True

instance (s : Stub) (ptr : Option ℕ) (cmd : Cmd) : Decidable (cmd.InOrder s ptr) := by
  cases cmd <;> cases ptr <;> dsimp only [Cmd.InOrder] <;> infer_instance

instance (s : Stub) (ev : StubEvent) : Decidable (InOrder s ev) := by
  cases ev <;> dsimp only [InOrder] <;> infer_instance

/-- The invariant: there is at most one server, and `server_config` points to it. -/
structure StubInv (s : Stub) : Prop where
  clean : s.faults = []
  config : ∀ p ∈ s.clients, (s.client p).config ∈ s.servers
  current : ∀ p, p ∈ s.servers ↔ s.serverConfig = some p

theorem sound_of_stubInv {s : Stub} (h : StubInv s) : Sound s := by
  refine ⟨h.clean, h.config, ?_⟩
  rw [Option.isSome_iff_exists]
  exact exists_congr fun p => (h.current p).symm

theorem stubInv_init : StubInv Stub.init :=
  ⟨rfl, fun _ hp => absurd hp (Finset.notMem_empty _), fun p =>
    ⟨fun hp => absurd hp (Finset.notMem_empty p), nofun⟩⟩

/-- `g` is exactly what the step to `s'` needs. -/
structure Exact (g : Prop) (s' : Stub) : Prop where
  keep : g → StubInv s'
  need : Sound s' → g

namespace Exact

variable {g : Prop} {s s' : Stub}

/-- A step that is fine anyway. -/
theorem of_inv (hg : g) (h : StubInv s') : Exact g s' := ⟨fun _ => h, fun _ => hg⟩

/-- A step that is not. -/
theorem of_fault (hg : ¬ g) (h : s'.faults ≠ []) : Exact g s' :=
  ⟨fun h' => absurd h' hg, fun hs => absurd hs.clean h⟩

end Exact

/-! ## Commands, one by one -/

section Commands

variable {s : Stub} (h : StubInv s)
include h

theorem stubInv_setPtr (i : ℕ) (p : Option ℕ) : StubInv (s.setPtr i p) :=
  ⟨h.clean, h.config, h.current⟩

theorem stubInv_allocate (i : ℕ) : StubInv (s.allocate i) := ⟨h.clean, h.config, h.current⟩

/-- Changing the HTTP part of a client leaves its configuration. -/
theorem stubInv_setHttp (p : ℕ) (st : HttpState) : StubInv (s.setHttp p st) := by
  refine ⟨h.clean, fun q hq => ?_, h.current⟩
  have hconf : ((s.setHttp p st).client q).config = (s.client q).config := by
    dsimp only [Stub.setHttp]
    by_cases hqp : q = p
    · rw [hqp, Function.update_self]
    · rw [Function.update_of_ne hqp]
  rw [hconf]
  exact h.config q hq

/-- The configuration of a live client is live. -/
theorem readConfig_eq {p : ℕ} (hp : p ∈ s.clients) : s.readConfig (s.client p).config = s :=
  if_pos (h.config p hp)

theorem exact_initHttpsServer (i : ℕ) (mem : Bool) (setup : SrvSetup) (ptr : Option ℕ) :
    Exact ((Cmd.initHttpsServer mem setup).InOrder s ptr) (cmdInitHttpsServer s i mem setup).2 := by
  dsimp only [Cmd.InOrder, cmdInitHttpsServer]
  split
  · rename_i hsome
    exact .of_inv (fun hnone => by rw [hnone] at hsome; cases hsome) h
  · rename_i hnone
    replace hnone : s.serverConfig = none := by simpa using hnone
    split
    · rename_i hmem
      exact .of_inv (fun _ ht => by rw [hmem] at ht; cases ht) (stubInv_setPtr h i none)
    · rename_i hmem
      cases setup with
      | ok =>
        -- no other server is there, as `server_config` was `NULL`
        have hempty : ∀ p, p ∉ s.servers := fun p hp => by
          rw [h.current p, hnone] at hp
          cases hp
        refine .of_inv (fun _ _ => nofun) ⟨h.clean, fun p hp => ?_, fun p => ?_⟩
        · exact absurd (h.config p hp) (hempty _)
        · simp only [Finset.mem_insert, hempty p, or_false, Option.some.injEq, eq_comm]
      | laterFails => exact .of_inv (fun _ _ => nofun) (stubInv_allocate h i)
      | certFails =>
        refine .of_fault (fun hg => hg hnone (by simpa using hmem) rfl) ?_
        simp [Stub.fault]

theorem exact_finiHttpsServer (ptr : Option ℕ) :
    Exact (Cmd.finiHttpsServer.InOrder s ptr) (cmdFiniHttpsServer s ptr).2 := by
  cases ptr with
  | none =>
    dsimp only [Cmd.InOrder, cmdFiniHttpsServer]
    refine ⟨fun hnone => ⟨h.clean, h.config, fun p => ?_⟩, fun hs => ?_⟩
    · rw [h.current p, hnone]
    · -- a server left behind would be one without `server_config`
      by_contra hsome
      obtain ⟨p, hp⟩ := Option.ne_none_iff_exists'.mp hsome
      exact absurd (hs.server.mpr ⟨p, (h.current p).mpr hp⟩) nofun
  | some p =>
    dsimp only [Cmd.InOrder, cmdFiniHttpsServer]
    split
    · rename_i hp
      have hone : ∀ q ∈ s.servers, q = p := fun q hq => by
        have hq' := (h.current q).mp hq
        rw [(h.current p).mp hp] at hq'
        exact (Option.some.inj hq').symm
      refine ⟨fun hg => ⟨h.clean, fun q hq => ?_, fun q => ?_⟩, fun hs => ⟨hp, fun q hq => ?_⟩⟩
      · exact Finset.mem_erase.mpr ⟨hg.2 q hq, h.config q hq⟩
      · simp only [Finset.mem_erase, reduceCtorEq, iff_false, not_and]
        exact fun hne hq => hne (hone q hq)
      · exact (Finset.mem_erase.mp (hs.config q hq)).1
    · rename_i hp
      refine .of_fault (fun hg => hp hg.1) ?_
      simp [Stub.fault]

theorem exact_initTlsClient (i : ℕ) (mem setup : Bool) (ptr : Option ℕ) :
    Exact ((Cmd.initTlsClient mem setup).InOrder s ptr) (cmdInitTlsClient s i mem setup).2 := by
  refine .of_inv trivial ?_
  dsimp only [cmdInitTlsClient]
  split
  · exact h
  · rename_i conf hconf
    have hlive : conf ∈ s.servers := (h.current conf).mpr hconf
    split
    · exact stubInv_setPtr h i none
    · have hread : (s.allocate i).readConfig conf = s.allocate i := if_pos hlive
      rw [hread]
      split
      · refine ⟨h.clean, fun p hp => ?_, h.current⟩
        dsimp only at hp ⊢
        by_cases hps : p = s.next
        · rw [hps, Function.update_self]
          exact hlive
        · rw [Function.update_of_ne hps]
          exact h.config p ((Finset.mem_insert.mp hp).resolve_left hps)
      · exact stubInv_allocate h i

/-- Commands on a client: `good` is what the client has to be like besides being there. -/
theorem exact_onClient {cli : Option ℕ} {missing : TeeResult} {f : ℕ → Stub} {good : ℕ → Prop}
    (hf : ∀ p ∈ s.clients, Exact (good p) (f p)) :
    Exact (∀ p ∈ cli, p ∈ s.clients ∧ good p) (onClient s cli missing f).2 := by
  cases cli with
  | none => exact .of_inv nofun h
  | some p =>
    simp only [Option.mem_some_iff, forall_eq', onClient]
    split
    · rename_i hp
      exact ⟨fun hg => (hf p hp).keep hg.2, fun hs => ⟨hp, (hf p hp).need hs⟩⟩
    · rename_i hp
      refine .of_fault (fun hg => hp hg.1) ?_
      simp [Stub.fault]

/-- The same for commands any client will do for. -/
theorem exact_onClient_of_inv {cli : Option ℕ} {missing : TeeResult} {f : ℕ → Stub}
    (hf : ∀ p ∈ s.clients, StubInv (f p)) :
    Exact (∀ p ∈ cli, p ∈ s.clients) (onClient s cli missing f).2 := by
  have hex : Exact (∀ p ∈ cli, p ∈ s.clients ∧ True) (onClient s cli missing f).2 :=
    exact_onClient h fun p hp => .of_inv trivial (hf p hp)
  simpa only [and_true] using hex

omit h in
/-- A use of the HTTP part is a fault unless the part is set up. -/
theorem exact_useHttp {p : ℕ} {f : Stub → Stub} (hf : StubInv (f s))
    (hfaults : ∀ s, s.faults ≠ [] → (f s).faults ≠ []) :
    Exact ((s.client p).http = .ready) (f (s.useHttp p)) := by
  unfold Stub.useHttp
  split
  · rename_i hready
    exact .of_inv hready hf
  · rename_i hno
    refine .of_fault hno (hfaults _ ?_)
    simp [Stub.fault]

omit h in
theorem faults_readConfig (s : Stub) (conf : ℕ) (hs : s.faults ≠ []) :
    (s.readConfig conf).faults ≠ [] := by
  unfold Stub.readConfig
  split
  · exact hs
  · simp [Stub.fault]

/-- What a command needs on a session of its type. -/
theorem exact_dispatch (i : ℕ) (cmd : Cmd) :
    Exact (cmd.InOrder s (s.sess i).ptr) (s.dispatch i cmd).2 := by
  cases cmd with
  | initHttpsServer mem setup => exact exact_initHttpsServer h i mem setup _
  | finiHttpsServer => exact exact_finiHttpsServer h _
  | loadWebappFile => exact .of_inv trivial h
  | initTlsClient mem setup => exact exact_initTlsClient h i mem setup _
  | finiTlsClient =>
    refine exact_onClient_of_inv h fun p _ => ⟨h.clean, fun q hq => ?_, h.current⟩
    exact h.config q (Finset.mem_of_mem_erase hq)
  | initHttpCli => exact exact_onClient_of_inv h fun p _ => stubInv_setHttp h p .ready
  | finiHttpCli =>
    refine exact_onClient h fun p _ => ?_
    exact exact_useHttp (f := fun s => s.setHttp p .done) (stubInv_setHttp h p .done) fun _ => id
  | doHandshake =>
    refine exact_onClient_of_inv h fun p hp => ?_
    rw [readConfig_eq h hp]
    exact h
  | processRequest invalid =>
    refine exact_onClient h fun p hp => ?_
    cases invalid with
    | true => exact .of_inv nofun h
    | false =>
      have hread : StubInv (s.readConfig (s.client p).config) := (readConfig_eq h hp).symm ▸ h
      have hex := exact_useHttp (p := p) (f := fun s' => s'.readConfig (s.client p).config)
        hread fun s' => faults_readConfig s' _
      exact ⟨fun hg => hex.keep (hg rfl), fun hs _ => hex.need hs⟩
  | unknown => exact .of_inv trivial h

end Commands

/-- What a call needs. -/
theorem exact_call {s : Stub} (h : StubInv s) (ev : StubEvent) :
    Exact (InOrder s ev) (s.call ev) := by
  cases ev with
  | openSession i params type mem =>
    refine .of_inv trivial ?_
    dsimp only [Stub.call, taOpenSessionEntryPoint]
    split
    · exact h
    · split
      · exact h
      · split
        · exact h
        · split
          · exact h
          · exact ⟨h.clean, h.config, h.current⟩
  | closeSession i =>
    refine .of_inv trivial ?_
    dsimp only [Stub.call, taCloseSessionEntryPoint]
    split
    · split
      · exact ⟨h.clean, stubInv_init.config, stubInv_init.current⟩
      · exact ⟨h.clean, h.config, h.current⟩
    · exact h
  | invoke i params cmd =>
    dsimp only [InOrder, Stub.call, taInvokeCommandEntryPoint]
    split
    · rename_i hi
      split
      · rename_i hnone
        exact .of_inv (fun _ htype => by rw [hnone] at htype; cases htype) h
      · split
        · rename_i htype
          exact .of_inv (fun _ htype' => absurd htype' htype) h
        · rename_i htype
          split
          · rename_i hparams
            exact .of_inv (fun _ _ ht => by rw [hparams] at ht; cases ht) h
          · rename_i hparams
            have hex := exact_dispatch h i cmd
            refine ⟨fun hg => hex.keep ?_, fun hs _ _ _ => hex.need hs⟩
            exact hg hi (not_not.mp htype) (by simpa using hparams)
    · rename_i hi
      exact .of_inv (fun hi' => absurd hi' hi) h

/-- **The lifetimes depend on the order of the calls.**  Along any sequence of calls of the normal
world, on any number of sessions, the lifetimes are sound exactly when every call is in order. -/
theorem lifetimes_iff_in_order {evs : List StubEvent} {t : Stub}
    (hr : Run stubStep (fun _ _ => True) Stub.init evs t) :
    Always stubStep Sound Stub.init evs ↔ Run stubStep InOrder Stub.init evs t := by
  refine Run.always_iff (I := StubInv) ?_ ?_ (fun s => sound_of_stubInv) hr stubInv_init
  · intro s ev s' h hG hs
    cases hs
    exact (exact_call h ev).keep hG
  · intro s ev s' h hs hP
    cases hs
    exact (exact_call h ev).need hP

/-- A server and a client, from their beginning to their end. -/
def wholeService : List StubEvent :=
  [.openSession 0 true 0 true, .invoke 0 true (.initHttpsServer true .ok),
    .openSession 1 true 1 true, .invoke 1 true (.initTlsClient true true),
    .invoke 1 true .initHttpCli, .invoke 1 true .doHandshake,
    .invoke 1 true (.processRequest false), .invoke 1 true .finiHttpCli,
    .invoke 1 true .finiTlsClient, .closeSession 1, .invoke 0 true .finiHttpsServer,
    .closeSession 0]

theorem lifetimes_whole_service : Always stubStep Sound Stub.init wholeService := by
  obtain ⟨t, hr, -⟩ : ∃ t, Run stubStep InOrder Stub.init wholeService t ∧ t.next = 2 :=
    exists_run_of_exec (by decide +kernel)
  exact (lifetimes_iff_in_order (hr.mono fun _ _ _ => trivial)).mpr hr

/-- A server finished twice is freed twice; one finished under a client leaves the client a dead
configuration, which the next handshake reads; a client whose initialisation failed is used all the
same; and finishing a server session without a server hides the server there is. -/
theorem lifetimes_out_of_order :
    (∃ t, Run stubStep (fun _ _ => True) Stub.init
        [.openSession 0 true 0 true, .invoke 0 true (.initHttpsServer true .ok),
          .invoke 0 true .finiHttpsServer, .invoke 0 true .finiHttpsServer] t ∧
        t.faults = [.deadServer]) ∧
      (∃ t, Run stubStep (fun _ _ => True) Stub.init
        [.openSession 0 true 0 true, .invoke 0 true (.initHttpsServer true .ok),
          .openSession 1 true 1 true, .invoke 1 true (.initTlsClient true true),
          .invoke 0 true .finiHttpsServer, .invoke 1 true .doHandshake] t ∧
        t.faults = [.deadConfig]) ∧
      (∃ t, Run stubStep (fun _ _ => True) Stub.init
        [.openSession 0 true 0 true, .invoke 0 true (.initHttpsServer true .ok),
          .openSession 1 true 1 true, .invoke 1 true (.initTlsClient true false),
          .invoke 1 true .initHttpCli] t ∧
        t.faults = [.deadClient]) ∧
      ∃ t, Run stubStep (fun _ _ => True) Stub.init
        [.openSession 0 true 0 true, .invoke 0 true (.initHttpsServer true .ok),
          .openSession 2 true 0 true, .invoke 2 true .finiHttpsServer] t ∧
        (t.serverConfig, t.servers) = (none, {0}) := by
  refine ⟨?_, ?_, ?_, ?_⟩ <;> exact exists_run_of_exec (by decide +kernel)

end TrustedGateway
