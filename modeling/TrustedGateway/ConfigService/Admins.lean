import TrustedGateway.ConfigService.Requests

/-!
# Who may configure the firewall

The firewall is configured through `post_npfctl_cmd`, which the handler table opens to
administrators and the master.  Administrators are the holders of certificates on the allow
list.  The README asks for two steps: a user requests access by uploading a certificate, the
master grants it.  The source has only one: `post_register_admin` is open to users and puts the
certificate on the allow list itself, and no request of the master does.

`Approved` is the rule of the README; the runs that obey it are those in which no user uploads a
certificate other than the master's own.
-/

namespace TrustedGateway

open StepSystem FlatMemory

/-- The certificate was put on the list by a request of the master. -/
def GrantedByMaster (l : List AdminCert) (raw : List Byte) : Prop :=
  ∃ c ∈ l, c.raw = raw ∧ c.storedBy = .master

/-- Every firewall command came from a client whose certificate verified and is the master's or
was granted by the master, and an uploaded certificate that was not granted is pending. -/
structure Approved (env : TaEnv) (g : Globals) : Prop where
  commands : ∀ call ∈ g.npf, call.peer.verify = 0 ∧ ∃ raw, call.peer.cert = some raw ∧
    (env.master = some raw ∨ GrantedByMaster call.allowlist raw)
  uploads : ∀ c ∈ g.allowlist, ¬ GrantedByMaster g.allowlist c.raw → env.master ≠ some c.raw →
    getCertType env g c.raw = .ok .pending

/-! ## Client classes -/

variable {env : TaEnv} {ev : TaEvent} {g : Globals} {t t' : Ta}

/-- The class of an administrator or the master belongs to a verified certificate. -/
theorem cert_of_privileged {p : Peer} {t : ClientType} (h : getClientType env g p = .ok t)
    (ht : t = .admin ∨ t = .master) :
    p.verify = 0 ∧ ∃ raw, p.cert = some raw ∧
      (env.master = some raw ∨ ∃ c ∈ g.allowlist, c.raw = raw) := by
  unfold getClientType at h
  split at h
  · cases h
    simp at ht
  · split at h
    · cases h
      simp at ht
    · split at h
      · rename_i hv
        refine ⟨hv, ?_⟩
        split at h
        · cases h
          simp at ht
        · rename_i raw hraw
          refine ⟨raw, hraw, ?_⟩
          unfold getCertType at h
          split at h
          · cases h
          · rename_i m hm
            split at h
            · rename_i heq
              exact Or.inl (heq ▸ hm)
            · split at h
              · rename_i hany
                obtain ⟨c, hc, heq⟩ := List.any_eq_true.mp hany
                exact Or.inr ⟨c, hc, of_decide_eq_true heq⟩
              · cases h
                simp at ht
      · cases h
        simp at ht

/-- A certificate on the list, other than the master's, is not pending. -/
theorem getCertType_ne_pending {c : AdminCert} (hc : c ∈ g.allowlist) :
    getCertType env g c.raw ≠ .ok .pending := by
  unfold getCertType
  split
  · nofun
  · split
    · nofun
    · rw [if_pos (List.any_eq_true.mpr ⟨c, hc, decide_eq_true rfl⟩)]
      nofun

/-! ## What a request does to the allow list -/

/-- The request registers the certificate `raw`: a user's upload that passes every check of the
handler and of the certificate parser. -/
structure Registers (env : TaEnv) (g : Globals) (p : Peer) (mallocs : List Bool) (r : Request)
    (raw : List Byte) : Prop where
  user : getClientType env g p = .ok .user
  method : r.head.method = bytesOf "POST"
  path : r.head.path = bytesOf "/register-admin"
  csrf : hasCsrfHeader r
  body : hasBody r
  contentType : hasExpectedContentType r "text/plain"
  malloc : mallocs.head? ≠ some false
  parsed : env.x509CrtParse (r.body.getD []) = some raw

theorem malloc_fst_iff (o : Outbox) : o.malloc.1 = true ↔ o.mallocs.head? ≠ some false := by
  unfold Outbox.malloc
  cases o.mallocs with
  | nil => simp
  | cons b bs => cases b <;> simp

section Handlers

variable {env : TaEnv} {g : Globals} {p : Peer} {o : Outbox} {r : Request} {pta : PtaAns}
  {w : ℤ × Globals × Outbox}

theorem globals_of_map {x : Except TaAbort (ℤ × Outbox)} {g' : Globals}
    (h : x.map (fun v => (v.1, g', v.2)) = .ok w) : w.2.1 = g' := by
  obtain ⟨v, -, rfl⟩ := exists_ok_of_map h
  rfl

theorem globals_postNpfctlCmd (h : postNpfctlCmd g p o r pta = .ok w) :
    w.2.1 = { g with npf := g.npf ++ [⟨p, g.allowlist⟩] } := by
  unfold postNpfctlCmd at h
  dsimp only at h
  split at h
  · cases h
    rfl
  · split at h
    · exact globals_of_map h
    · split at h
      · exact globals_of_map h
      · split at h <;> exact globals_of_map h

theorem globals_postGetAdminlist (h : postGetAdminlist env g o = .ok w) : w.2.1 = g := by
  unfold postGetAdminlist at h
  dsimp only at h
  split at h <;> exact globals_of_map h

/-- A registration stores the certificate it parsed, and nothing otherwise. -/
theorem globals_postRegisterAdmin {t : ClientType} (h : postRegisterAdmin env g t o r = .ok w) :
    (∃ raw, o.malloc.1 = true ∧ env.x509CrtParse (r.body.getD []) = some raw ∧
        w.2.1 = allowAdminCert g ⟨raw, t⟩) ∨
      (¬ (o.malloc.1 = true ∧ (env.x509CrtParse (r.body.getD [])).isSome) ∧ w.2.1 = g) := by
  unfold postRegisterAdmin at h
  split at h
  · rename_i heq
    exact Or.inr ⟨by simp [heq], globals_of_map h⟩
  · rename_i heq
    split at h
    · rename_i hnone
      exact Or.inr ⟨by simp [hnone], globals_of_map h⟩
    · rename_i raw hsome
      exact Or.inl ⟨raw, by rw [heq], hsome, globals_of_map h⟩

/-- What a request can do to the shared state. -/
inductive Served (env : TaEnv) (g : Globals) (p : Peer) (mallocs : List Bool) (r : Request) :
    Globals → Prop
  | other (hno : ∀ raw, ¬ Registers env g p mallocs r raw) : Served env g p mallocs r g
  | command {t : ClientType} (ht : getClientType env g p = .ok t)
      (hpriv : t = .admin ∨ t = .master) :
      Served env g p mallocs r { g with npf := g.npf ++ [⟨p, g.allowlist⟩] }
  | registered {raw : List Byte} (hreg : Registers env g p mallocs r raw) :
      Served env g p mallocs r (allowAdminCert g ⟨raw, .user⟩)

/-- The table has one entry for firewall commands, open to administrators and the master, and one
for registrations, open to users. -/
theorem postHandlerList_entries : ∀ e ∈ postHandlerList,
    (e.handler = .postNpfctlCmd → ∀ t ∈ e.allowedClients, t = .admin ∨ t = .master) ∧
    (e.handler = .postRegisterAdmin → bytesOf e.path = bytesOf "/register-admin" ∧
      e.needsBody = true ∧ e.expContentType = "text/plain" ∧
      ∀ t ∈ e.allowedClients, t = .user) := by
  decide

/-- The entry under the path of registrations. -/
theorem handler_of_register_path : ∀ e ∈ postHandlerList,
    bytesOf e.path = bytesOf "/register-admin" →
      e.handler = .postRegisterAdmin ∧ ClientType.user ∈ e.allowedClients ∧
      e.expContentType = "text/plain" := by
  decide

/-- A registration finds its own entry, and passes the checks of that entry. -/
theorem Registers.entry {mallocs : List Bool} {raw : List Byte} {e : ReqHandler}
    (h : Registers env g p mallocs r raw) (hmem : e ∈ postHandlerList)
    (hpath : bytesOf e.path = r.head.path) :
    e.handler = .postRegisterAdmin ∧ ClientType.user ∈ e.allowedClients ∧
      hasExpectedContentType r e.expContentType := by
  obtain ⟨hhandler, huser, htype⟩ := handler_of_register_path e hmem (hpath.trans h.path)
  refine ⟨hhandler, huser, ?_⟩
  rw [htype]
  exact h.contentType

/-- What the handler of a table entry does to the shared state, once the request has passed the
checks of the entry. -/
theorem served_call {e : ReqHandler} {t : ClientType} (hmem : e ∈ postHandlerList)
    (hpath : bytesOf e.path = r.head.path) (hpost : r.head.method = bytesOf "POST")
    (hcsrf : hasCsrfHeader r) (ht : getClientType env g p = .ok t) (hallowed : t ∈ e.allowedClients)
    (hbody : e.needsBody = true → hasBody r) (htype : hasExpectedContentType r e.expContentType)
    (h : e.call env g p t o r pta = .ok w) : Served env g p o.mallocs r w.2.1 := by
  obtain ⟨hnpf, hregister⟩ := postHandlerList_entries e hmem
  have hnone : e.handler ≠ .postRegisterAdmin → ∀ raw, ¬ Registers env g p o.mallocs r raw :=
    fun hh raw hreg => hh (hreg.entry hmem hpath).1
  unfold ReqHandler.call at h
  split at h
  · rename_i hh
    rw [globals_postNpfctlCmd h]
    exact .command ht (hnpf hh t hallowed)
  · rename_i hh
    obtain ⟨hep, hneeds, hexp, huser⟩ := hregister hh
    obtain rfl := huser t hallowed
    rcases globals_postRegisterAdmin h with ⟨raw, hm, hraw, hg⟩ | ⟨hno, hg⟩ <;> rw [hg]
    · exact .registered ⟨ht, hpost, hpath.symm.trans hep, hcsrf, hbody hneeds, hexp ▸ htype,
        (malloc_fst_iff o).mp hm, hraw⟩
    · refine .other fun raw hreg => hno ⟨(malloc_fst_iff o).mpr hreg.malloc, ?_⟩
      rw [hreg.parsed]
      rfl
  · rename_i hh
    rw [globals_postGetAdminlist h]
    exact .other (hnone (by rw [hh]; decide))
  · rename_i hh
    rw [globals_of_map h]
    exact .other (hnone (by rw [hh]; decide))

theorem served_handlePostRequest (hpost : r.head.method = bytesOf "POST")
    (h : handlePostRequest env g p o r pta = .ok w) :
    Served env g p o.mallocs r w.2.1 := by
  unfold handlePostRequest at h
  dsimp only at h
  -- a registration passes every check, so that a refused request is none
  split at h
  · rename_i hcsrf
    cases h
    exact .other fun raw hreg => hcsrf hreg.csrf
  rename_i hcsrf
  split at h
  · rename_i hnone
    rw [globals_of_map h]
    refine .other fun raw hreg => ?_
    rw [hreg.path] at hnone
    exact absurd hnone (by decide)
  rename_i e hfind
  obtain ⟨hmem, hpath⟩ := getReqHandler_eq_some hfind
  split at h
  · cases h
  rename_i t ht
  split at h
  · rename_i hdenied
    rw [globals_of_map h]
    refine .other fun raw hreg => ?_
    obtain rfl : .user = t := Except.ok.inj (hreg.user.symm.trans ht)
    exact hdenied (hreg.entry hmem hpath).2.1
  rename_i hallowed
  split at h
  · rename_i hnobody
    rw [globals_of_map h]
    exact .other fun raw hreg => hnobody.2 hreg.body
  rename_i hbody
  split at h
  · rename_i htype
    rw [globals_of_map h]
    exact .other fun raw hreg => htype (hreg.entry hmem hpath).2.2
  rename_i htype
  refine served_call hmem hpath hpost (not_not.mp hcsrf) ht (not_not.mp hallowed) ?_
    (not_not.mp htype) h
  intro hneeds
  by_contra hcon
  exact hbody ⟨hneeds, hcon⟩

theorem served_handleRequest (h : handleRequest env g p o r pta = .ok w) :
    Served env g p o.mallocs r w.2.1 := by
  unfold handleRequest at h
  split at h
  · rename_i hget
    rw [globals_of_map h]
    refine .other fun raw hreg => ?_
    rw [hreg.method] at hget
    exact absurd hget (by decide)
  · split at h
    · rename_i hpost
      exact served_handlePostRequest hpost h
    · rename_i hpost
      rw [globals_of_map h]
      exact .other fun raw hreg => hpost hreg.method

end Handlers

/-! ## Runs of the service -/

/-- The allow list holds nothing but copies of the master certificate, and all commands were
approved. -/
structure AdminInv (env : TaEnv) (g : Globals) : Prop where
  commands : ∀ call ∈ g.npf, call.peer.verify = 0 ∧ ∃ raw, call.peer.cert = some raw ∧
    (env.master = some raw ∨ GrantedByMaster call.allowlist raw)
  listed : ∀ c ∈ g.allowlist, env.master = some c.raw ∧ c.storedBy = .user

theorem AdminInv.approved (h : AdminInv env g) : Approved env g :=
  ⟨h.commands, fun c hc _ hne => absurd (h.listed c hc).1 hne⟩

/-- The request an event serves, with the answers of the allocator it gets. -/
def ServedBy (env : TaEnv) (t : Ta) (ev : TaEvent) (mallocs : List Bool) (r : Request) : Prop :=
  ∃ bp dataLen ans, (t.conns ev.conn).phase = .serving bp dataLen ∧ ev.event = .iterate ans ∧
    served env (t.conns ev.conn).client bp dataLen ans = some r ∧ mallocs = ans.mallocs

/-- What an event does to the shared state: nothing, or what the request it serves does. -/
theorem served_taStep (hs : taStep env t ev = .ok t') :
    (t'.globals = t.globals ∧ ∀ mallocs r, ¬ ServedBy env t ev mallocs r) ∨
      ∃ mallocs r, ServedBy env t ev mallocs r ∧
        Served env t.globals (t.conns ev.conn).client.peer mallocs r t'.globals := by
  obtain ⟨x, hmoved, rfl⟩ := taStep_eq_ok hs
  unfold ServedBy
  generalize ev.event = e at hmoved ⊢
  cases hmoved with
  | idle hout =>
    refine Or.inl ⟨rfl, ?_⟩
    rintro mallocs r ⟨bp, dataLen, ans, hp, he, -⟩
    exact hout ans bp dataLen he hp
  | connected hp | accepted hp hshake | rejected hp | entered hp henter => exact Or.inl ⟨rfl, nofun⟩
  | @iterated ans bp dataLen x hp hiter =>
    -- the turn is the one the phase and the event determine
    have hnone : served env (t.conns ev.conn).client bp dataLen ans = none →
        ∀ mallocs r, ¬ ∃ bp' dataLen' ans', (t.conns ev.conn).phase = .serving bp' dataLen' ∧
          ConnEvent.iterate ans = .iterate ans' ∧
          served env (t.conns ev.conn).client bp' dataLen' ans' = some r ∧
          mallocs = ans'.mallocs := by
      rintro hno mallocs r ⟨bp', dataLen', ans', hp', he, hserved, -⟩
      rw [hp] at hp'
      cases hp'
      cases he
      rw [hno] at hserved
      cases hserved
    cases iterated_of_ok hiter with
    | unread hrecv => exact Or.inl ⟨rfl, hnone (by simp only [served, hrecv])⟩
    | bad hrecv hscan hsend | incomplete hrecv hscan | refused hrecv hscan =>
      exact Or.inl ⟨rfl, hnone (by simp only [served, hrecv, hscan])⟩
    | @request rx bp' dataLen' r ret g' out hrecv hscan hhandle =>
      refine Or.inr ⟨ans.mallocs, r, ⟨bp, dataLen, ans, hp, rfl, served_eq_some hrecv hscan,
        rfl⟩, ?_⟩
      exact served_handleRequest hhandle

/-- No user registers a certificate other than the master's. -/
def NoSelfGrant (env : TaEnv) (t : Ta) (ev : TaEvent) : Prop :=
  ∀ mallocs r raw, ServedBy env t ev mallocs r →
    Registers env t.globals (t.conns ev.conn).client.peer mallocs r raw → env.master = some raw

theorem AdminInv.taStep (h : AdminInv env t.globals) (hG : NoSelfGrant env t ev)
    (hs : taStep env t ev = .ok t') : AdminInv env t'.globals := by
  rcases served_taStep hs with ⟨hg, -⟩ | ⟨mallocs, r, hby, hserved⟩
  · rw [hg]
    exact h
  · generalize t'.globals = g' at hserved
    cases hserved with
    | other hno => exact h
    | command ht hpriv =>
      refine ⟨fun call hcall => ?_, h.listed⟩
      rcases List.mem_append.mp hcall with hcall | hcall
      · exact h.commands call hcall
      · rw [List.mem_singleton] at hcall
        subst hcall
        obtain ⟨hv, raw, hraw, hwhy⟩ := cert_of_privileged ht hpriv
        refine ⟨hv, raw, hraw, Or.inl ?_⟩
        rcases hwhy with hmaster | ⟨c, hc, rfl⟩
        · exact hmaster
        · exact (h.listed c hc).1
    | registered hreg =>
      refine ⟨h.commands, fun c hc => ?_⟩
      rcases List.mem_append.mp hc with hc | hc
      · exact h.listed c hc
      · rw [List.mem_singleton] at hc
        subst hc
        exact ⟨hG mallocs r _ hby hreg, rfl⟩

/-- After the upload of another certificate the rule is broken. -/
theorem noSelfGrant_of_approved (h : AdminInv env t.globals) (hs : taStep env t ev = .ok t')
    (happ : Approved env t'.globals) : NoSelfGrant env t ev := by
  intro mallocs r raw hby hreg
  rcases served_taStep hs with ⟨-, hno⟩ | ⟨mallocs', r', hby', hserved⟩
  · exact absurd hby (hno mallocs r)
  · obtain ⟨rfl, rfl⟩ : mallocs' = mallocs ∧ r' = r := by
      obtain ⟨bp, dataLen, ans, hp, he, hsv, rfl⟩ := hby
      obtain ⟨bp', dataLen', ans', hp', he', hsv', rfl⟩ := hby'
      rw [hp] at hp'
      cases hp'
      rw [he] at he'
      cases he'
      rw [hsv] at hsv'
      cases hsv'
      exact ⟨rfl, rfl⟩
    generalize hg : t'.globals = g' at hserved happ
    cases hserved with
    | other hno => exact absurd hreg (hno raw)
    | command ht hpriv =>
      have hu := hreg.user
      rw [ht] at hu
      cases hu
      simp at hpriv
    | @registered raw' hreg' =>
      have hraw := hreg.parsed
      rw [hreg'.parsed] at hraw
      cases hraw
      by_contra hne
      have hmem : (⟨raw, .user⟩ : AdminCert) ∈
          (allowAdminCert t.globals ⟨raw, .user⟩).allowlist :=
        List.mem_append.mpr (Or.inr List.mem_cons_self)
      refine getCertType_ne_pending hmem (happ.uploads _ hmem ?_ hne)
      -- nothing on the list was stored by the master
      rintro ⟨c, hc, -, hby⟩
      rcases List.mem_append.mp hc with hc | hc
      · rw [(h.listed c hc).2] at hby
        cases hby
      · rw [List.mem_singleton] at hc
        subst hc
        cases hby

/-- **When only approved administrators configure the firewall.**  In a run from an empty allow
list, over any number of connections, the rule holds in every state passed through exactly when
no user registers a certificate other than the master's own. -/
theorem approved_iff_no_self_grant {env : TaEnv} {evs : List TaEvent} {t : Ta}
    (hr : Run (taStep env) (fun _ _ => True) Ta.init evs t) :
    Always (taStep env) (fun t => Approved env t.globals) Ta.init evs ↔
      Run (taStep env) (NoSelfGrant env) Ta.init evs t := by
  refine Run.always_iff (I := fun t => AdminInv env t.globals) ?_ ?_ ?_ hr ?_
  · intro t ev t' h hG hs
    exact h.taStep hG hs
  · intro t ev t' h hs happ
    exact noSelfGrant_of_approved h hs happ
  · intro t h
    exact h.approved
  · exact ⟨nofun, nofun⟩

/-- The master configures the firewall. -/
theorem approved_master :
    Always (taStep TaEnv.sample) (fun t => Approved TaEnv.sample t.globals) Ta.init
      (startConn 0 ⟨0, some [77]⟩ ++ [⟨0, .iterate (.reading [84, 1])⟩]) := by
  obtain ⟨t, hr, -⟩ : ∃ t, Run (taStep TaEnv.sample)
      (fun t ev => (getClientType TaEnv.sample t.globals
        (t.conns ev.conn).client.peer).toOption ≠ some .user) Ta.init
      (startConn 0 ⟨0, some [77]⟩ ++ [⟨0, .iterate (.reading [84, 1])⟩]) t ∧
        t.globals.npf.length = 1 := exists_run_of_exec (by decide +kernel)
  refine (approved_iff_no_self_grant (hr.mono fun _ _ _ => trivial)).mpr (hr.mono ?_)
  intro t ev hno mallocs r raw _ hreg
  refine absurd ?_ hno
  rw [hreg.user]
  rfl

/-- A user uploads the certificate 97, comes back with it and configures the firewall. -/
theorem self_granted_command :
    ∃ t, Run (taStep TaEnv.sample) (fun _ _ => True) Ta.init
        (startConn 0 ⟨badcertMissing, none⟩ ++ [⟨0, .iterate (.reading [82, 97])⟩] ++
          startConn 1 ⟨0, some [97]⟩ ++ [⟨1, .iterate (.reading [84, 1])⟩]) t ∧
      t.globals.npf = [⟨⟨0, some [97]⟩, [⟨[97], .user⟩]⟩] ∧ ¬ Approved TaEnv.sample t.globals := by
  obtain ⟨t, hr, ht⟩ : ∃ t, Run (taStep TaEnv.sample) (fun _ _ => True) Ta.init
      (startConn 0 ⟨badcertMissing, none⟩ ++ [⟨0, .iterate (.reading [82, 97])⟩] ++
        startConn 1 ⟨0, some [97]⟩ ++ [⟨1, .iterate (.reading [84, 1])⟩]) t ∧
      t.globals.npf = [⟨⟨0, some [97]⟩, [⟨[97], .user⟩]⟩] := exists_run_of_exec (by decide +kernel)
  refine ⟨t, hr, ht, fun h => ?_⟩
  obtain ⟨-, raw, hraw, hwhy⟩ := h.commands _ (by rw [ht]; exact List.mem_cons_self)
  cases hraw
  rcases hwhy with hmaster | ⟨c, hc, -, hby⟩
  · exact absurd hmaster (by decide)
  · rw [List.mem_singleton] at hc
    subst hc
    cases hby

end TrustedGateway
