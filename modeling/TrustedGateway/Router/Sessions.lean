import TrustedGateway.Lib.Run
import TrustedGateway.Machine

/-!
# Sessions of the router's pseudo TA

The normal world opens sessions of three types: unbound ones, one for the cleaner of the firewall,
and one for each worker of the router.  `open_session` allocates a context block, stores it in the
session's `user_ctx`, and binds the session to a worker or to the cleaner; `close_session` undoes
that.

A worker is bound to one session, and a worker session to one worker.  But when there is nothing to
bind to, `open_session` frees `sess_ctx`, which is the address of the session's `user_ctx`, in
place of the block it has allocated.
-/

namespace TrustedGateway

open StepSystem

namespace Router

/-- `worker_bind_t`. -/
structure WorkerBind where
  bound : Bool
  sessId : ℕ
  deriving DecidableEq, Repr

/-- The types of sessions. -/
inductive SessKind
  | unbound
  | cleaner
  | worker
  deriving DecidableEq, Repr

/-- What the union of a session's context points to. -/
inductive WorkerRef
  | router (i : ℕ)
  | npf
  deriving DecidableEq, Repr

/-- `wrk_sess_t`. -/
structure SessCtx where
  worker : Option WorkerRef
  type : SessKind
  deriving DecidableEq, Repr

/-- An argument of `free`: a block, or the address of the `user_ctx` of a session. -/
inductive FreeArg
  | block (b : ℕ)
  | userCtx (id : ℕ)
  deriving DecidableEq, Repr

inductive SessOp
  | alloc (b : ℕ)
  | free (p : FreeArg)
  deriving DecidableEq, Repr

structure SessState where
  /-- `trusted_router` is there. -/
  router : Bool
  workers : List (Option WorkerBind)
  /-- `worker_info` of the firewall. -/
  npfWorker : Option WorkerBind
  /-- The `user_ctx` of the open sessions. -/
  userCtx : ℕ → Option ℕ
  heap : ℕ → Option SessCtx
  log : List SessOp

namespace SessState

variable (s : SessState)

/-- `calloc` of a context. -/
def alloc (b : ℕ) (ctx : SessCtx) : SessState :=
  { s with heap := Function.update s.heap b (some ctx), log := s.log ++ [.alloc b] }

/-- `free`.  What it does to an address that is not a block is not followed. -/
def free : FreeArg → SessState
  | .block b =>
    { s with heap := Function.update s.heap b none, log := s.log ++ [.free (.block b)] }
  | .userCtx id => { s with log := s.log ++ [.free (.userCtx id)] }

/-- The first worker that no session is bound to. -/
def unboundWorker : Option ℕ := s.workers.findIdx? (·.any fun w => !w.bound)

/-- `bind_to_worker` in the session `id`, whose context is block `b`. -/
def bindToWorker (id b : ℕ) : SessState :=
  if ¬ s.router then s
  else
    match s.unboundWorker with
    | none => s
    | some i =>
      { s with
        workers := s.workers.set i (some ⟨true, id⟩)
        heap := Function.update s.heap b
          ((s.heap b).map fun ctx => { ctx with worker := some (.router i) }) }

/-- `detach_nw_from_worker`. -/
def detachNwFromWorker (i : ℕ) : SessState :=
  { s with workers := s.workers.modify i (·.map fun _ => ⟨false, 0⟩) }

/-- `bind_to_npfworker`. -/
def bindToNpfworker (id : ℕ) : Option WorkerRef × SessState :=
  if ¬ s.router then (none, s)
  else
    match s.npfWorker with
    | none => (none, s)
    | some w =>
      if w.bound then (none, s) else (some .npf, { s with npfWorker := some ⟨true, id⟩ })

/-- `detach_nw_from_npfworker`. -/
def detachNwFromNpfworker : SessState :=
  if ¬ s.router then s else { s with npfWorker := s.npfWorker.map fun _ => ⟨false, 0⟩ }

end SessState

/-- The session types by their numbers. -/
def sessKind : ℕ → Option SessKind
  | 0 => some .unbound
  | 1 => some .cleaner
  | 2 => some .worker
  | _ => none

/-- `open_session` in the session `id`.  `mem` is the block that `calloc` gives.  A session whose
opening fails does not stay. -/
def openSession (s : SessState) (id : ℕ) (paramTypes : Bool) (sessType : ℕ) (mem : Option ℕ) :
    TeeResult × SessState :=
  if ¬ paramTypes then (.badParameters, s)
  else
    match sessKind sessType with
    | none => (.badParameters, s)
    | some kind =>
      match mem with
      | none => (.outOfMemory, s)
      | some b =>
        let s := s.alloc b ⟨none, kind⟩
        let opened := fun s : SessState => { s with userCtx := Function.update s.userCtx id b }
        match kind with
        | .unbound => (.success, opened s)
        | .worker =>
          let s := s.bindToWorker id b
          if (s.heap b).bind SessCtx.worker = none then (.generic, s.free (.userCtx id))
          else (.success, opened s)
        | .cleaner =>
          let (data, s) := s.bindToNpfworker id
          let s := { s with heap := Function.update s.heap b (some ⟨data, .cleaner⟩) }
          if data = none then (.generic, s.free (.userCtx id)) else (.success, opened s)

/-- `close_session` of the session `id`. -/
def closeSession (s : SessState) (id : ℕ) : SessState :=
  match s.userCtx id with
  | none => s
  | some b =>
    let s' := match s.heap b with
      | some ⟨some (.router i), .worker⟩ => s.detachNwFromWorker i
      | some ⟨some _, .cleaner⟩ => s.detachNwFromNpfworker
      | _ => s
    { s'.free (.block b) with userCtx := Function.update s'.userCtx id none }

/-- What the normal world asks for. -/
inductive SessInput
  | openSess (id : ℕ) (paramTypes : Bool) (sessType : ℕ) (mem : Option ℕ)
  | closeSess (id : ℕ)

def sessStep (s : SessState) : SessInput → Except Empty SessState
  | .openSess id paramTypes sessType mem => .ok (openSession s id paramTypes sessType mem).2
  | .closeSess id => .ok (closeSession s id)

/-- A new session has a new number, `calloc` gives a block that is not in use, and only open
sessions are closed. -/
def SessAllows (s : SessState) : SessInput → Prop
  | .openSess id _ _ mem => s.userCtx id = none ∧ ∀ b, mem = some b → s.heap b = none
  | .closeSess id => s.userCtx id ≠ none

/-! ## What is claimed of the sessions -/

/-- The context of an open session. -/
def ctxOf (s : SessState) (id : ℕ) : Option SessCtx := (s.userCtx id).bind s.heap

/-- The open worker session `id` has worker `i`. -/
def Points (s : SessState) (id i : ℕ) : Prop := ctxOf s id = some ⟨some (.router i), .worker⟩

/-- Worker `i` is bound to session `id`. -/
def Holds (s : SessState) (i id : ℕ) : Prop := s.workers[i]? = some (some ⟨true, id⟩)

/-- An open session for a worker. -/
def WorkerSession (s : SessState) (id : ℕ) : Prop :=
  ∃ ctx, ctxOf s id = some ctx ∧ ctx.type = .worker

/-- Sessions and workers agree on who belongs to whom, every open worker session has exactly one
worker, and no two have the same. -/
structure Exclusive (s : SessState) : Prop where
  agree : ∀ id i, Points s id i ↔ Holds s i id
  one : ∀ id, WorkerSession s id → ∃! i, Points s id i
  apart : ∀ i id id', Points s id i → Points s id' i → id = id'

/-- If `open_session` fails, it has changed nothing, and freed nothing but a block it has
allocated. -/
def Traceless (s : SessState) : SessInput → Prop
  | .openSess id paramTypes sessType mem =>
    (openSession s id paramTypes sessType mem).1 ≠ .success →
      ∃ ops, (openSession s id paramTypes sessType mem).2 = { s with log := s.log ++ ops } ∧
        (ops = [] ∨ ∃ b, ops = [.alloc b, .free (.block b)])
  | .closeSess _ => True

/-- A session is asked for, and there is no worker, or no cleaner, to bind it to. -/
def Exhausted (s : SessState) : SessInput → Prop
  | .openSess _ paramTypes sessType mem =>
    paramTypes = true ∧ mem ≠ none ∧
      ((sessKind sessType = some .worker ∧ (s.router = false ∨ s.unboundWorker = none)) ∨
        (sessKind sessType = some .cleaner ∧
          (s.router = false ∨ s.npfWorker.all (·.bound) = true)))
  | .closeSess _ => False

/-! ## How `open_session` ends -/

section Open

variable {s : SessState} {id : ℕ} {paramTypes : Bool} {sessType : ℕ} {mem : Option ℕ}

/-- A session with its context. -/
def SessState.enter (s : SessState) (id b : ℕ) (ctx : SessCtx) : SessState :=
  { s with
    userCtx := Function.update s.userCtx id b
    heap := Function.update s.heap b (some ctx)
    log := s.log ++ [.alloc b] }

/-- The ends of `open_session` when there is something to bind to. -/
inductive OpenEnd (s : SessState) (id : ℕ) : Option ℕ → TeeResult × SessState → Prop
  | refused {mem : Option ℕ} {r : TeeResult} (hr : r ≠ .success) : OpenEnd s id mem (r, s)
  | unbound (b : ℕ) : OpenEnd s id (some b) (.success, s.enter id b ⟨none, .unbound⟩)
  | worker (b i : ℕ) (hi : s.unboundWorker = some i) : OpenEnd s id (some b) (.success,
      { s.enter id b ⟨some (.router i), .worker⟩ with
        workers := s.workers.set i (some ⟨true, id⟩) })
  | cleaner (b : ℕ) (w : WorkerBind) : OpenEnd s id (some b) (.success,
      { s.enter id b ⟨some .npf, .cleaner⟩ with npfWorker := some w })

variable {b : ℕ} {ctx : SessCtx}

theorem bindToWorker_alloc {i : ℕ} (hr : s.router = true) (hi : s.unboundWorker = some i) :
    (s.alloc b ⟨none, .worker⟩).bindToWorker id b =
      { s with
        workers := s.workers.set i (some ⟨true, id⟩)
        heap := Function.update s.heap b (some ⟨some (.router i), .worker⟩)
        log := s.log ++ [.alloc b] } := by
  have hr' : (s.alloc b ⟨none, .worker⟩).router = true := hr
  have hi' : (s.alloc b ⟨none, .worker⟩).unboundWorker = some i := hi
  rw [SessState.bindToWorker, if_neg (not_not_intro hr'), hi']
  simp [SessState.alloc]

theorem bindToWorker_eq_self {b' : ℕ} (h : s.router = false ∨ s.unboundWorker = none) :
    (s.alloc b ctx).bindToWorker id b' = s.alloc b ctx := by
  rcases h with h | h
  · simp [SessState.bindToWorker, SessState.alloc, h]
  · have h' : (s.alloc b ctx).unboundWorker = none := h
    simp [SessState.bindToWorker, h']

theorem bindToNpfworker_alloc (hr : s.router = true) (hw : ¬ s.npfWorker.all (·.bound) = true) :
    (s.alloc b ctx).bindToNpfworker id =
      (some .npf, { s.alloc b ctx with npfWorker := some ⟨true, id⟩ }) := by
  have hr' : (s.alloc b ctx).router = true := hr
  have heq : (s.alloc b ctx).npfWorker = s.npfWorker := rfl
  rw [SessState.bindToNpfworker, if_neg (not_not_intro hr'), heq]
  cases hnpf : s.npfWorker with
  | none => simp [hnpf] at hw
  | some w =>
    rw [hnpf, Option.all_some] at hw
    exact if_neg hw

theorem bindToNpfworker_eq_none (h : s.router = false ∨ s.npfWorker.all (·.bound) = true) :
    (s.alloc b ctx).bindToNpfworker id = (none, s.alloc b ctx) := by
  rcases h with h | h
  · simp [SessState.bindToNpfworker, SessState.alloc, h]
  · cases hw : s.npfWorker with
    | none => simp [SessState.bindToNpfworker, SessState.alloc, hw]
    | some w =>
      rw [hw, Option.all_some] at h
      simp [SessState.bindToNpfworker, SessState.alloc, hw, h]

theorem openEnd_of_not_exhausted
    (h : ¬ Exhausted s (.openSess id paramTypes sessType mem)) :
    OpenEnd s id mem (openSession s id paramTypes sessType mem) := by
  unfold openSession
  cases hp : paramTypes with
  | false => exact .refused (by decide)
  | true =>
  cases hk : sessKind sessType with
  | none => exact .refused (by simp)
  | some kind =>
    cases mem with
    | none => exact .refused (by simp)
    | some b =>
      cases kind with
      | unbound => exact .unbound b
      | worker =>
        have hfree : s.router = true ∧ s.unboundWorker ≠ none := by
          simpa [Exhausted, hp, hk] using h
        obtain ⟨i, hi⟩ := Option.ne_none_iff_exists'.mp hfree.2
        simp only [not_true_eq_false, if_false, bindToWorker_alloc hfree.1 hi]
        rw [if_neg (by simp)]
        exact .worker b i hi
      | cleaner =>
        have hfree : s.router = true ∧ ¬ s.npfWorker.all (·.bound) = true := by
          simpa [Exhausted, hp, hk] using h
        simp only [not_true_eq_false, if_false, bindToNpfworker_alloc hfree.1 hfree.2]
        rw [if_neg (by simp)]
        simpa [SessState.enter, SessState.alloc]
          using OpenEnd.cleaner (s := s) b ⟨true, id⟩

/-- Without anything to bind to, the block stays allocated and the address of `user_ctx` is
freed. -/
theorem openSession_of_exhausted (h : Exhausted s (.openSess id paramTypes sessType mem)) :
    ∃ b ctx, openSession s id paramTypes sessType mem = (.generic,
      { s with
        heap := Function.update s.heap b (some ctx)
        log := s.log ++ [.alloc b, .free (.userCtx id)] }) := by
  obtain ⟨hp, hmem, h⟩ := h
  obtain ⟨b, rfl⟩ := Option.ne_none_iff_exists'.mp hmem
  rcases h with ⟨hk, hno⟩ | ⟨hk, hno⟩
  · refine ⟨b, ⟨none, .worker⟩, ?_⟩
    simp only [openSession, hp, hk, bindToWorker_eq_self hno]
    simp [SessState.alloc, SessState.free]
  · refine ⟨b, ⟨none, .cleaner⟩, ?_⟩
    simp only [openSession, hp, hk, bindToNpfworker_eq_none hno]
    simp [SessState.alloc, SessState.free]

/-- **A failure leaves no trace** exactly if there was something to bind to. -/
theorem traceless_iff (inp : SessInput) : Traceless s inp ↔ ¬ Exhausted s inp := by
  cases inp with
  | closeSess id => simp [Traceless, Exhausted]
  | openSess id paramTypes sessType mem =>
    constructor
    · intro h hex
      obtain ⟨b, ctx, hopen⟩ := openSession_of_exhausted hex
      rw [Traceless, hopen] at h
      obtain ⟨ops, hs, hops⟩ := h (by simp)
      have hlog := List.append_cancel_left (congrArg SessState.log hs)
      rcases hops with rfl | ⟨b', rfl⟩ <;> simp at hlog
    · intro h
      cases hend : openSession s id paramTypes sessType mem with
      | mk r s' =>
        have hopen := openEnd_of_not_exhausted h
        rw [Traceless, hend]
        rw [hend] at hopen
        cases hopen with
        | refused _ => exact fun _ => ⟨[], by simp, .inl rfl⟩
        | unbound _ | worker _ _ _ | cleaner _ _ => exact fun hne => absurd rfl hne

end Open

/-! ## Runs -/

/-- Sessions and workers belong to each other, and every open session has a block of its own. -/
structure SessInv (s : SessState) : Prop where
  alive : ∀ id b, s.userCtx id = some b → s.heap b ≠ none
  own : ∀ id id' b, s.userCtx id = some b → s.userCtx id' = some b → id = id'
  agree : ∀ id i, Points s id i ↔ Holds s i id
  served : ∀ id ctx, ctxOf s id = some ctx → ctx.type = .worker → ∃ i, ctx.worker = some (.router i)

namespace SessInv

variable {s : SessState} {id b : ℕ}

theorem exclusive (h : SessInv s) : Exclusive s where
  agree := h.agree
  one id := by
    rintro ⟨⟨worker, type⟩, hctx, rfl⟩
    obtain ⟨i, rfl⟩ := h.served id _ hctx rfl
    refine ⟨i, hctx, fun j hj => ?_⟩
    simpa [Points, hctx] using hj.symm
  apart i id id' hp hp' := by
    rw [h.agree, Holds] at hp hp'
    rw [hp] at hp'
    simpa using hp'

theorem ctxOf_enter (h : SessInv s) (hb : s.heap b = none) (ctx : SessCtx) :
    ctxOf (s.enter id b ctx) = Function.update (ctxOf s) id (some ctx) := by
  funext id'
  by_cases hid : id' = id
  · subst hid
    simp [ctxOf, SessState.enter]
  · have hne : ∀ b', s.userCtx id' = some b' → b' ≠ b := by
      rintro b' hb' rfl
      exact h.alive id' b' hb' hb
    rw [Function.update_of_ne hid]
    cases huc : s.userCtx id' with
    | none => simp [ctxOf, SessState.enter, hid, huc]
    | some b' => simp [ctxOf, SessState.enter, hid, huc, hne b' huc]

theorem alive_enter (h : SessInv s) (ctx : SessCtx) (id' b' : ℕ)
    (hb' : (s.enter id b ctx).userCtx id' = some b') : (s.enter id b ctx).heap b' ≠ none := by
  by_cases hbb : b' = b
  · simp [SessState.enter, hbb]
  · by_cases hi : id' = id
    · simp [SessState.enter, hi, Ne.symm hbb] at hb'
    · simp only [SessState.enter, Function.update_of_ne hi, Function.update_of_ne hbb] at hb' ⊢
      exact h.alive id' b' hb'

theorem own_enter (h : SessInv s) (hb : s.heap b = none) (ctx : SessCtx) (id₁ id₂ b' : ℕ)
    (h₁ : (s.enter id b ctx).userCtx id₁ = some b')
    (h₂ : (s.enter id b ctx).userCtx id₂ = some b') : id₁ = id₂ := by
  -- no other session has the new block
  have hnew : ∀ id', s.userCtx id' ≠ some b := fun id' hid' => h.alive id' b hid' hb
  simp only [SessState.enter, Function.update_apply] at h₁ h₂
  split_ifs at h₁ h₂ with h₁' h₂' h₂'
  · rw [h₁', h₂']
  · cases h₁
    exact absurd h₂ (hnew id₂)
  · cases h₂
    exact absurd h₁ (hnew id₁)
  · exact h.own id₁ id₂ b' h₁ h₂

/-- A session that is not for a worker. -/
theorem enter (h : SessInv s) (hid : s.userCtx id = none) (hb : s.heap b = none) {ctx : SessCtx}
    (hctx : ctx.type ≠ .worker) : SessInv (s.enter id b ctx) := by
  have hother : ctxOf (s.enter id b ctx) = _ := h.ctxOf_enter hb ctx
  refine ⟨h.alive_enter ctx, h.own_enter hb ctx, fun id' i => ?_, fun id' ctx' hc hw => ?_⟩
  · rw [Points, hother]
    by_cases hi : id' = id
    · subst hi
      have hno : ¬ Holds s i id' := by
        rw [← h.agree, Points, ctxOf, hid]
        simp
      rw [Function.update_self, show Holds (s.enter id' b ctx) i id' = Holds s i id' from rfl]
      refine iff_of_false ?_ hno
      rintro ⟨⟩
      exact hctx rfl
    · rw [Function.update_of_ne hi]
      exact h.agree id' i
  · rw [hother] at hc
    by_cases hi : id' = id
    · subst hi
      rw [Function.update_self] at hc
      cases hc
      exact absurd hw hctx
    · rw [Function.update_of_ne hi] at hc
      exact h.served id' ctx' hc hw

/-- A session for a worker that was not bound. -/
theorem enter_worker (h : SessInv s) (hid : s.userCtx id = none) (hb : s.heap b = none) {i : ℕ}
    (hi : s.unboundWorker = some i) :
    SessInv { s.enter id b ⟨some (.router i), .worker⟩ with
      workers := s.workers.set i (some ⟨true, id⟩) } := by
  obtain ⟨hlt, hfree, -⟩ := List.findIdx?_eq_some_iff_getElem.mp hi
  have hnew : ∀ j, ¬ Holds s j id := by
    intro j
    rw [← h.agree, Points, ctxOf, hid]
    simp
  have hunheld : ∀ id', ¬ Holds s i id' := by
    intro id' hh
    rw [Holds, List.getElem?_eq_getElem hlt, Option.some_inj] at hh
    simp [hh] at hfree
  have hother : ctxOf (s.enter id b ⟨some (.router i), .worker⟩) = _ := h.ctxOf_enter hb _
  refine ⟨h.alive_enter ⟨some (.router i), .worker⟩, h.own_enter hb ⟨some (.router i), .worker⟩,
    fun id' j => ?_, fun id' ctx' hc hw => ?_⟩
  · change ctxOf (s.enter id b _) id' = _ ↔ (s.workers.set i _)[j]? = _
    rw [hother, List.getElem?_set]
    by_cases hid' : id' = id
    · subst hid'
      by_cases hj : i = j
      · subst hj
        simp [hlt]
      · rw [if_neg hj, Function.update_self]
        refine iff_of_false (by simp [hj]) (hnew j)
    · rw [Function.update_of_ne hid']
      by_cases hj : i = j
      · subst hj
        rw [if_pos rfl, if_pos hlt]
        refine iff_of_false (fun hp => hunheld id' ((h.agree id' i).mp hp)) (by simp [Ne.symm hid'])
      · rw [if_neg hj]
        exact h.agree id' j
  · change ctxOf (s.enter id b _) id' = _ at hc
    rw [hother] at hc
    by_cases hid' : id' = id
    · subst hid'
      rw [Function.update_self] at hc
      cases hc
      exact ⟨i, rfl⟩
    · rw [Function.update_of_ne hid'] at hc
      exact h.served id' ctx' hc hw

/-- A session with its block is gone. -/
theorem leave (h : SessInv s) (hb : s.userCtx id = some b) {s' : SessState}
    (huc : s'.userCtx = Function.update s.userCtx id none)
    (hheap : s'.heap = Function.update s.heap b none)
    (hagree : ∀ id' i, id' ≠ id → (Holds s' i id' ↔ Holds s i id'))
    (hgone : ∀ i, ¬ Holds s' i id) : SessInv s' := by
  have hne : ∀ {id' b'}, id' ≠ id → s.userCtx id' = some b' → b' ≠ b := by
    rintro id' b' hi hb' rfl
    exact hi (h.own id' id b' hb' hb)
  have hctx : ctxOf s' = Function.update (ctxOf s) id none := by
    funext id'
    rw [ctxOf, huc, hheap]
    by_cases hi : id' = id
    · simp [hi]
    · rw [Function.update_of_ne hi, Function.update_of_ne hi, ctxOf]
      cases huc' : s.userCtx id' with
      | none => rfl
      | some b' => simp [hne hi huc']
  refine ⟨fun id' b' hb' => ?_, fun id₁ id₂ b' h₁ h₂ => ?_, fun id' i => ?_,
    fun id' ctx hc hw => ?_⟩
  · rw [huc] at hb'
    by_cases hi : id' = id
    · simp [hi] at hb'
    · rw [Function.update_of_ne hi] at hb'
      rw [hheap, Function.update_of_ne (hne hi hb')]
      exact h.alive id' b' hb'
  · rw [huc, Function.update_apply] at h₁ h₂
    split_ifs at h₁ h₂
    exact h.own id₁ id₂ b' h₁ h₂
  · rw [Points, hctx]
    by_cases hi : id' = id
    · subst hi
      exact iff_of_false (by simp) (hgone i)
    · rw [Function.update_of_ne hi, hagree id' i hi]
      exact h.agree id' i
  · rw [hctx] at hc
    by_cases hi : id' = id
    · simp [hi] at hc
    · rw [Function.update_of_ne hi] at hc
      exact h.served id' ctx hc hw

/-- **A session is closed.** -/
theorem closeSession (h : SessInv s) (hopen : s.userCtx id ≠ none) :
    SessInv (closeSession s id) := by
  obtain ⟨b, hb⟩ := Option.ne_none_iff_exists'.mp hopen
  have hctx : ctxOf s id = s.heap b := by simp [ctxOf, hb]
  -- a session without a worker leaves the workers alone
  have hnone : (∀ i, s.heap b ≠ some ⟨some (.router i), .worker⟩) → ∀ i, ¬ Holds s i id := by
    intro hne i
    rw [← h.agree, Points, hctx]
    exact hne i
  rw [Router.closeSession, hb]
  dsimp only
  split
  · next i hc =>
    have hi : Holds s i id := (h.agree id i).mp (hctx.trans hc)
    refine h.leave hb rfl rfl (fun id' j hne => ?_) fun j hj => ?_
    · change (s.workers.modify i _)[j]? = _ ↔ s.workers[j]? = _
      rw [List.getElem?_modify]
      by_cases hij : i = j
      · subst hij
        rw [Holds] at hi
        simp [hi, Ne.symm hne]
      · simp [hij]
    · change (s.workers.modify i _)[j]? = _ at hj
      rw [List.getElem?_modify] at hj
      by_cases hij : i = j
      · subst hij
        rw [Holds] at hi
        simp [hi] at hj
      · have hj' : Holds s j id := by simpa [hij, Holds] using hj
        have hp := (h.agree id j).mpr hj'
        rw [Points, hctx, hc] at hp
        simp [hij] at hp
  · next hc =>
    have hsame : s.detachNwFromNpfworker.userCtx = s.userCtx ∧
        s.detachNwFromNpfworker.heap = s.heap ∧ s.detachNwFromNpfworker.workers = s.workers := by
      unfold SessState.detachNwFromNpfworker
      split <;> exact ⟨rfl, rfl, rfl⟩
    refine h.leave hb (by rw [hsame.1]) (by rw [SessState.free, hsame.2.1]) (fun id' i _ => ?_)
      fun i hi => ?_
    · rw [Holds, Holds, SessState.free, hsame.2.2]
    · rw [Holds, SessState.free, hsame.2.2] at hi
      exact hnone (by simp [hc]) i hi
  · next hc _ => exact h.leave hb rfl rfl (fun _ _ _ => Iff.rfl) (hnone hc)

theorem step (h : SessInv s) {inp : SessInput} (hallow : SessAllows s inp)
    (hfree : ¬ Exhausted s inp) {s' : SessState} (hstep : sessStep s inp = .ok s') :
    SessInv s' := by
  cases inp with
  | closeSess id =>
    cases hstep
    exact h.closeSession hallow
  | openSess id paramTypes sessType mem =>
    obtain ⟨hid, hb⟩ := hallow
    have hend := openEnd_of_not_exhausted hfree
    simp only [sessStep, Except.ok.injEq] at hstep
    subst hstep
    cases hopen : openSession s id paramTypes sessType mem with
    | mk r s' =>
      rw [hopen] at hend
      cases hend with
      | refused _ => exact h
      | unbound b => exact h.enter hid (hb b rfl) (by simp)
      | worker b i hi => exact h.enter_worker hid (hb b rfl) hi
      | cleaner b w =>
        obtain ⟨h₁, h₂, h₃, h₄⟩ : SessInv (s.enter id b ⟨some .npf, .cleaner⟩) :=
          h.enter hid (hb b rfl) (by simp)
        exact ⟨h₁, h₂, h₃, h₄⟩

end SessInv

/-- The router has started, and there are no sessions yet. -/
structure NoSessions (s : SessState) : Prop where
  userCtx : ∀ id, s.userCtx id = none
  unbound : ∀ w, some w ∈ s.workers → w.bound = false

theorem NoSessions.sessInv {s : SessState} (h : NoSessions s) : SessInv s := by
  refine ⟨by simp [h.userCtx], by simp [h.userCtx], fun id i => ?_, by simp [ctxOf, h.userCtx]⟩
  refine iff_of_false (by simp [Points, ctxOf, h.userCtx]) fun hh => ?_
  simpa using h.unbound _ (List.mem_of_getElem? hh)

/-- **Sessions and workers.**  In every run in which no session was asked for that there was nothing
to bind to, workers and worker sessions belong to each other; and the next failure leaves no trace
exactly if it is not of that kind. -/
theorem sessions_exclusive {s₀ s : SessState} {is : List SessInput} (h₀ : NoSessions s₀)
    (hrun : Run sessStep (fun s inp => SessAllows s inp ∧ ¬ Exhausted s inp) s₀ is s) :
    Exclusive s ∧ ∀ inp, Traceless s inp ↔ ¬ Exhausted s inp := by
  refine ⟨(hrun.inv (I := SessInv) ?_ h₀.sessInv).exclusive, traceless_iff⟩
  rintro s inp s' h ⟨hallow, hfree⟩ hstep
  exact h.step hallow hfree hstep

section Demo

/-- A router with one worker. -/
def demoSess : SessState where
  router := true
  workers := [some ⟨false, 0⟩]
  npfWorker := some ⟨false, 0⟩
  userCtx := fun _ => none
  heap := fun _ => none
  log := []

theorem noSessions_demoSess : NoSessions demoSess := by
  refine ⟨fun _ => rfl, fun w hw => ?_⟩
  cases List.mem_singleton.mp hw
  rfl

/-- The state after session 7 got the worker. -/
def demoBound : SessState := (openSession demoSess 7 true 2 (some 1)).2

theorem sessions_exclusive_demo :
    Holds demoBound 0 7 ∧ Exclusive demoBound ∧ Exhausted demoBound (.openSess 8 true 2 (some 2)) ∧
      ∀ inp, Traceless demoBound inp ↔ ¬ Exhausted demoBound inp := by
  have hfree : ¬ Exhausted demoSess (.openSess 7 true 2 (some 1)) := by
    rintro ⟨-, -, ⟨-, hno⟩ | ⟨hk, -⟩⟩
    · exact absurd hno (by decide)
    · exact absurd hk (by decide)
  have hallow : SessAllows demoSess (.openSess 7 true 2 (some 1)) := ⟨rfl, fun _ _ => rfl⟩
  have hrun := sessions_exclusive noSessions_demoSess
    (.cons ⟨hallow, hfree⟩ (rfl : _ = Except.ok demoBound) (.nil _))
  have hex : Exhausted demoBound (.openSess 8 true 2 (some 2)) :=
    ⟨rfl, by simp, .inl ⟨rfl, .inr (by decide)⟩⟩
  exact ⟨rfl, hrun.1, hex, hrun.2⟩

/-- A second session asks for the only worker: its block stays allocated, and the address of its
`user_ctx` is freed. -/
theorem open_session_leaves_trace :
    (openSession demoBound 8 true 2 (some 2)).1 = .generic ∧
      (openSession demoBound 8 true 2 (some 2)).2.log =
        [.alloc 1, .alloc 2, .free (.userCtx 8)] ∧
      (openSession demoBound 8 true 2 (some 2)).2.heap 2 = some ⟨none, .worker⟩ ∧
      ¬ Traceless demoBound (.openSess 8 true 2 (some 2)) := by
  refine ⟨by decide, by decide, by decide, fun h => ?_⟩
  obtain ⟨ops, hs, -⟩ := h (by decide)
  have hheap : (openSession demoBound 8 true 2 (some 2)).2.heap 2 = demoBound.heap 2 :=
    congrFun (congrArg SessState.heap hs) 2
  exact absurd hheap (by decide)

end Demo

end Router

end TrustedGateway
