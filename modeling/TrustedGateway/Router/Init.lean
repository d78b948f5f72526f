import Mathlib.Algebra.Order.BigOperators.Group.List
import Mathlib.Algebra.Order.Ring.Canonical
import Mathlib.Algebra.Order.Ring.Nat
import TrustedGateway.Lib.Prog
import TrustedGateway.PktQueue

/-!
# Starting the router

`init_trusted_router` creates the router, loads its configuration, and gives every interface its
workers, one for each NAPI context, and its egress queue.  Each step can fail, and then the router
is destroyed again: `router_destroy` goes through the workers, detaches the interface of each, and
frees it.

The interfaces are attached once each, but detached once for each of their workers that exist, and
a worker knows its interface before that is attached.  Detaching an interface that is not attached,
or not any more, divides by the capacity 0 of its queue.  And `trusted_router` goes on pointing to
the router that was freed, whatever step failed.
-/

namespace TrustedGateway

open Programs

namespace Router

/-- The remainder by 0, in `bstgw_pktq_locked_drop_bufs`. -/
inductive DivByZero
  | divByZero
  deriving DecidableEq, Repr

/-- The part of `worker_t` that the start sets. -/
structure WorkerInfo where
  netIf : Option ℕ
  napiIdx : ℕ
  deriving DecidableEq, Repr

/-- The part of `ifnet_t` that the start works on.  `arpCache` says whether there is a map. -/
structure IfnetInfo where
  napiCount : ℕ
  workers : List ℕ
  egress : PktQueue
  arpCache : Bool

/-- What happens to interfaces, workers and the router. -/
inductive InitOp
  | attach (d : ℕ)
  | detach (d : ℕ)
  | newWorker (i : ℕ)
  | freeWorker (i : ℕ)
  | freeRouter
  deriving DecidableEq, Repr

structure InitState where
  /-- `trusted_router` is not `NULL`. -/
  trustedRouter : Bool
  workerCount : ℕ
  worker : ℕ → Option WorkerInfo
  ifnet : ℕ → IfnetInfo
  /-- `netdev_list.slock` is taken. -/
  slock : Bool
  log : List InitOp

/-- What the allocations and the configuration give. -/
structure InitEnv where
  routerCreate : Bool
  loadConfig : Bool
  workerCalloc : ℕ → Bool
  thmapCreate : ℕ → Bool
  pktMalloc : ℕ → Bool

abbrev InitM := Prog DivByZero InitState

def burstSize : ℕ := 512
def bstgwMaxNetifWorker : ℕ := 2

def logInit (op : InitOp) : InitM Unit := modify fun s => { s with log := s.log ++ [op] }

def setWorker (i : ℕ) (w : Option WorkerInfo) : InitM Unit :=
  modify fun s => { s with worker := Function.update s.worker i w }

def setIfnetInfo (d : ℕ) (f : IfnetInfo → IfnetInfo) : InitM Unit :=
  modify fun s => { s with ifnet := Function.update s.ifnet d (f (s.ifnet d)) }

section Functions

variable (env : InitEnv)

/-- `worker_init`. -/
def workerInit (i : ℕ) : InitM ℤ := do
  let s ← get
  if ¬ s.trustedRouter ∨ s.worker i ≠ none then return -1
  if ¬ env.workerCalloc i then return -1
  setWorker i (some ⟨none, 0⟩)
  logInit (.newWorker i)
  return 0

/-- `worker_fini` of a worker that no session is bound to. -/
def workerFini (i : ℕ) : InitM ℤ := do
  if ¬ (← get).trustedRouter then return -1
  logInit (.freeWorker i)
  return 0

/-- `ifnet_ifattach`. -/
def ifnetIfattach (d : ℕ) : InitM ℤ := do
  if ¬ env.thmapCreate d then
    setIfnetInfo d fun ifp => { ifp with arpCache := false }
    return -1
  if ¬ env.pktMalloc d then
    setIfnetInfo d fun ifp => { ifp with arpCache := false }
    return -1
  setIfnetInfo d fun ifp =>
    { ifp with arpCache := true, egress := { ifp.egress with capacity := burstSize } }
  logInit (.attach d)
  return 0

/-- `ifnet_ifdetach`. -/
def ifnetIfdetach (d : ℕ) : InitM Unit := do
  logInit (.detach d)
  let q := ((← get).ifnet d).egress
  if q.capacity = 0 then throw .divByZero
  setIfnetInfo d fun ifp =>
    { ifp with egress := { q.dropBufs q.count with capacity := 0 }, arpCache := false }

/-- The body of the loop of `router_destroy`. -/
def destroyWorker (i : ℕ) : InitM Unit := do
  match (← get).worker i with
  | none => return
  | some w =>
    if let some d := w.netIf then
      ifnetIfdetach d
      setWorker i (some { w with netIf := none })
    let _ ← workerFini i
    setWorker i none

/-- The loop of `router_destroy` over the workers. -/
def destroyWorkers : List ℕ → InitM Unit
  | [] => return
  | i :: is => do
      destroyWorker i
      destroyWorkers is

/-- `router_destroy`. -/
def routerDestroy : InitM Unit := do
  destroyWorkers (List.range (← get).workerCount)
  logInit .freeRouter

/-- The loop over the NAPI contexts `j`, … of an interface; `i` is the number of the next worker.
`none` is a failed `worker_init`. -/
def initWorkers (d : ℕ) : ℕ → ℕ → ℕ → InitM (Option ℕ)
  | 0, _, i => return some i
  | n + 1, j, i => do
      if (← workerInit env i) < 0 then return none
      setIfnetInfo d fun ifp => { ifp with workers := ifp.workers ++ [i] }
      setWorker i (some ⟨some d, j⟩)
      initWorkers d n (j + 1) (i + 1)

/-- The loop over the interfaces.  `none` is that it was left at its end or by `break`. -/
def attachLoop : List ℕ → ℕ → InitM (Option TeeResult)
  | [], _ => return none
  | d :: ds, i => do
      let s ← get
      let napiCount := (s.ifnet d).napiCount
      -- the difference `napi_count - 1` is unsigned
      if s.workerCount ≤ (i + (napiCount + (2 ^ 32 - 1)) % 2 ^ 32) % 2 ^ 32 then return none
      if bstgwMaxNetifWorker < napiCount then return none
      match ← initWorkers env d napiCount 0 i with
      | none =>
        routerDestroy
        return some .generic
      | some i =>
        if (← ifnetIfattach env d) = -1 then
          routerDestroy
          return some .outOfMemory
        attachLoop ds i

/-- `init_trusted_router`, with the registered interfaces in the order of the list. -/
def initTrustedRouter (devs : List ℕ) : InitM TeeResult := do
  let s ← get
  if s.trustedRouter then return .generic
  let nnapi := (devs.map fun d => (s.ifnet d).napiCount).sum
  if devs = [] ∨ nnapi = 0 then return .generic
  if ¬ env.routerCreate then return .generic
  set { s with trustedRouter := true, workerCount := nnapi, worker := fun _ => none }
  if ¬ env.loadConfig then
    routerDestroy
    return .generic
  modify fun s => { s with slock := true }
  match ← attachLoop env devs 0 with
  | some err => return err
  | none =>
    modify fun s => { s with slock := false }
    return .success

end Functions

/-! ## Workers and their interfaces -/

/-- Worker `i` exists and knows interface `d`. -/
def Owns (s : InitState) (i d : ℕ) : Prop := ∃ w, s.worker i = some w ∧ w.netIf = some d

/-- What most functions leave alone: the pointer, the list lock, the number of workers, the number
of contexts of an interface, and which interfaces have been attached. -/
structure SameRouter (s s' : InitState) : Prop where
  trustedRouter : s'.trustedRouter = s.trustedRouter
  slock : s'.slock = s.slock
  workerCount : s'.workerCount = s.workerCount
  napiCount : ∀ d, (s'.ifnet d).napiCount = (s.ifnet d).napiCount
  attached : ∀ d, .attach d ∈ s'.log ↔ .attach d ∈ s.log

namespace SameRouter

theorem refl (s : InitState) : SameRouter s s := ⟨rfl, rfl, rfl, fun _ => rfl, fun _ => Iff.rfl⟩

theorem trans {s s' s'' : InitState} (h : SameRouter s s') (h' : SameRouter s' s'') :
    SameRouter s s'' :=
  ⟨h'.trustedRouter.trans h.trustedRouter, h'.slock.trans h.slock,
    h'.workerCount.trans h.workerCount, fun d => (h'.napiCount d).trans (h.napiCount d),
    fun d => (h'.attached d).trans (h.attached d)⟩

end SameRouter

section Primitives

variable {s : InitState} {E : DivByZero → InitState → Prop}

theorem wp_logInit {op : InitOp} (hop : ∀ d, op ≠ .attach d) : Wp E (logInit op) (fun _ s' =>
    SameRouter s s' ∧ s'.worker = s.worker ∧ s'.ifnet = s.ifnet) s :=
  ⟨⟨rfl, rfl, rfl, fun _ => rfl, fun d => by simp [(hop d).symm]⟩, rfl, rfl⟩

theorem wp_setWorker (i : ℕ) (w : Option WorkerInfo) : Wp E (setWorker i w) (fun _ s' =>
    SameRouter s s' ∧ s'.worker = Function.update s.worker i w ∧ s'.ifnet = s.ifnet) s :=
  ⟨⟨rfl, rfl, rfl, fun _ => rfl, fun _ => Iff.rfl⟩, rfl, rfl⟩

theorem wp_setIfnetInfo (d : ℕ) {f : IfnetInfo → IfnetInfo}
    (hf : ∀ ifp, (f ifp).napiCount = ifp.napiCount) : Wp E (setIfnetInfo d f) (fun _ s' =>
    SameRouter s s' ∧ s'.worker = s.worker ∧
      s'.ifnet = Function.update s.ifnet d (f (s.ifnet d))) s := by
  refine ⟨⟨rfl, rfl, rfl, fun d' => ?_, fun _ => Iff.rfl⟩, rfl, rfl⟩
  by_cases hd : d' = d
  · subst hd
    simp [hf]
  · simp [hd]

end Primitives

section Specs

variable (env : InitEnv) {s : InitState} {E : DivByZero → InitState → Prop}

theorem wp_workerInit (i : ℕ) : Wp E (workerInit env i) (fun _ s' =>
    SameRouter s s' ∧ s'.ifnet = s.ifnet ∧ ∀ k, k ≠ i → s'.worker k = s.worker k) s := by
  have hself : SameRouter s s ∧ s.ifnet = s.ifnet ∧ ∀ k, k ≠ i → s.worker k = s.worker k :=
    ⟨.refl s, rfl, fun _ _ => rfl⟩
  refine wp_ite.mpr ⟨fun _ => hself, fun _ => wp_ite.mpr ⟨fun _ => hself, fun _ => ?_⟩⟩
  refine (wp_setWorker i _).seq fun _ s₁ ⟨hsame, hw, hif⟩ =>
    (wp_logInit (by simp)).seq fun _ s₂ ⟨hsame₂, hw₂, hif₂⟩ => ?_
  refine ⟨hsame.trans hsame₂, hif₂.trans hif, fun k hk => ?_⟩
  rw [hw₂, hw, Function.update_of_ne hk]

/-- The workers of an interface know it, and the workers before stay as they are. -/
theorem wp_initWorkers (d n j i : ℕ) : Wp E (initWorkers env d n j i) (fun r s' =>
    SameRouter s s' ∧ (∀ d', (s'.ifnet d').egress = (s.ifnet d').egress) ∧
      (∀ k < i, s'.worker k = s.worker k) ∧
      ∀ i', r = some i' → i' = i + n ∧ ∀ k < n, Owns s' (i + k) d) s := by
  induction n generalizing j i s with
  | zero =>
    refine ⟨.refl s, fun _ => rfl, fun _ _ => rfl, fun i' hi => ?_⟩
    cases hi
    exact ⟨rfl, fun k hk => absurd hk (Nat.not_lt_zero k)⟩
  | succ n ih =>
    refine (wp_workerInit env i).seq fun r s₁ ⟨hsame₁, hif₁, hw₁⟩ => ?_
    refine wp_ite.mpr ⟨fun _ => ⟨hsame₁, fun d' => by rw [hif₁], fun k hk => hw₁ k hk.ne,
      fun _ h => nomatch h⟩, fun _ => ?_⟩
    refine Wp.seq (wp_setIfnetInfo d fun _ => rfl) fun _ s₂ ⟨hsame₂, hw₂, hif₂⟩ => ?_
    refine Wp.seq (wp_setWorker i _) fun _ s₃ ⟨hsame₃, hw₃, hif₃⟩ => ?_
    refine (ih (j + 1) (i + 1)).imp fun r s₄ ⟨hsame₄, hegr₄, hw₄, hdone⟩ => ?_
    refine ⟨hsame₁.trans (hsame₂.trans (hsame₃.trans hsame₄)), fun d' => ?_, fun k hk => ?_,
      fun i' hi => ⟨by have := (hdone i' hi).1; omega, fun k hk => ?_⟩⟩
    · rw [hegr₄, hif₃, hif₂, hif₁]
      by_cases hd : d' = d <;> simp [hd]
    · rw [hw₄ k (by omega), hw₃, hw₂, Function.update_of_ne hk.ne, hw₁ k hk.ne]
    · cases k with
      | zero => exact ⟨⟨some d, j⟩, by rw [hw₄ _ (by omega), hw₃]; simp, rfl⟩
      | succ k =>
        have := (hdone i' hi).2 k (by omega)
        rwa [show i + 1 + k = i + (k + 1) by omega] at this

/-- An interface that cannot be attached keeps the capacity of its queue. -/
theorem wp_ifnetIfattach (d : ℕ) : Wp E (ifnetIfattach env d) (fun r s' =>
    s'.worker = s.worker ∧ (∀ d', d' ≠ d → (s'.ifnet d').egress = (s.ifnet d').egress) ∧
      if r = -1 then SameRouter s s' ∧ (s'.ifnet d).egress = (s.ifnet d).egress
      else ∃ s₁, SameRouter s s₁ ∧ s' = { s₁ with log := s₁.log ++ [.attach d] }) s := by
  have hfail : Wp E (do
      setIfnetInfo d fun ifp => { ifp with arpCache := false }
      return -1) (fun r s' =>
      s'.worker = s.worker ∧ (∀ d', d' ≠ d → (s'.ifnet d').egress = (s.ifnet d').egress) ∧
        if r = (-1 : ℤ) then SameRouter s s' ∧ (s'.ifnet d).egress = (s.ifnet d).egress
        else ∃ s₁, SameRouter s s₁ ∧ s' = { s₁ with log := s₁.log ++ [.attach d] }) s := by
    refine Wp.seq (wp_setIfnetInfo d fun _ => rfl) fun _ s₁ ⟨hsame, hw, hif⟩ => ?_
    rw [wp_pure, if_pos rfl, hif]
    exact ⟨hw, fun d' hd => by simp [hd], hsame, by simp⟩
  refine wp_ite.mpr ⟨fun _ => hfail, fun _ => wp_ite.mpr ⟨fun _ => hfail, fun _ => ?_⟩⟩
  refine Wp.seq (wp_setIfnetInfo d fun _ => rfl) fun _ s₁ ⟨hsame, hw, hif⟩ => ?_
  rw [logInit, wp_bind, wp_modify, wp_pure]
  exact ⟨hw, fun d' hd => by simp [hif, hd], s₁, hsame, rfl⟩

/-- Detaching an interface whose queue has no capacity does not come back. -/
theorem wp_ifnetIfdetach (d : ℕ) : Wp (fun _ s' => SameRouter s s') (ifnetIfdetach d) (fun _ s' =>
    SameRouter s s' ∧ s'.worker = s.worker ∧ (s.ifnet d).egress.capacity ≠ 0 ∧
      (s'.ifnet d).egress.capacity = 0 ∧
      ∀ d', d' ≠ d → (s'.ifnet d').egress = (s.ifnet d').egress) s := by
  refine (wp_logInit (by simp)).seq fun _ s₁ ⟨hsame₁, hw₁, hif₁⟩ => ?_
  rw [wp_bind, wp_get]
  refine wp_ite.mpr ⟨fun _ => hsame₁, fun hcap => ?_⟩
  refine Wp.imp (wp_setIfnetInfo d fun _ => rfl) fun _ s₂ ⟨hsame₂, hw₂, hif₂⟩ => ?_
  refine ⟨hsame₁.trans hsame₂, hw₂.trans hw₁, by rwa [hif₁] at hcap, by simp [hif₂],
    fun d' hd => ?_⟩
  rw [hif₂, Function.update_of_ne hd, hif₁]

theorem wp_workerFini (i : ℕ) : Wp E (workerFini i) (fun _ s' =>
    SameRouter s s' ∧ s'.worker = s.worker ∧ s'.ifnet = s.ifnet) s := by
  refine wp_ite.mpr ⟨fun _ => ⟨.refl s, rfl, rfl⟩, fun _ => ?_⟩
  exact (wp_logInit (by simp)).seq fun _ _ h => h

/-- One worker is destroyed, and its interface detached. -/
theorem wp_destroyWorker (i : ℕ) : Wp (fun _ s' => SameRouter s s') (destroyWorker i) (fun _ s' =>
    SameRouter s s' ∧ s'.worker i = none ∧ (∀ k, k ≠ i → s'.worker k = s.worker k) ∧
      (∀ d, Owns s i d → (s.ifnet d).egress.capacity ≠ 0 ∧ (s'.ifnet d).egress.capacity = 0) ∧
      ∀ d, ¬ Owns s i d → (s'.ifnet d).egress = (s.ifnet d).egress) s := by
  rw [destroyWorker, wp_bind, wp_get]
  cases hw : s.worker i with
  | none =>
    refine ⟨.refl s, hw, fun _ _ => rfl, fun d ⟨w, h, _⟩ => ?_, fun _ _ => rfl⟩
    rw [hw] at h
    cases h
  | some w =>
    obtain ⟨netIf, napiIdx⟩ := w
    -- what follows the detaching
    have hrest : ∀ {s₁ : InitState}, SameRouter s s₁ → (∀ k, k ≠ i → s₁.worker k = s.worker k) →
        Wp (fun _ s' => SameRouter s s') (do
          let _ ← workerFini i
          setWorker i none) (fun _ s' => SameRouter s s' ∧ s'.worker i = none ∧
            (∀ k, k ≠ i → s'.worker k = s.worker k) ∧ s'.ifnet = s₁.ifnet) s₁ := by
      intro s₁ hsame₁ hw₁
      refine (wp_workerFini i).seq fun _ s₂ ⟨hsame₂, hw₂, hif₂⟩ =>
        (wp_setWorker i none).imp fun _ s₃ ⟨hsame₃, hw₃, hif₃⟩ => ?_
      refine ⟨hsame₁.trans (hsame₂.trans hsame₃), by simp [hw₃], fun k hk => ?_, hif₃.trans hif₂⟩
      rw [hw₃, Function.update_of_ne hk, hw₂, hw₁ k hk]
    have howns : ∀ d, Owns s i d ↔ netIf = some d := by
      intro d
      simp [Owns, hw]
    cases netIf with
    | none =>
      refine (hrest (.refl s) fun _ _ => rfl).imp fun _ s' ⟨hsame, hnone, hkeep, hif⟩ => ?_
      refine ⟨hsame, hnone, hkeep, fun d hd => ?_, fun d _ => by rw [hif]⟩
      rw [howns] at hd
      cases hd
    | some d =>
      refine (wp_ifnetIfdetach d).seq fun _ s₁ ⟨hsame₁, hw₁, hcap, hzero, hegr⟩ => ?_
      refine Wp.seq (wp_setWorker i _) fun _ s₂ ⟨hsame₂, hw₂, hif₂⟩ => ?_
      refine (hrest (hsame₁.trans hsame₂) fun k hk => ?_).imp
        fun _ s' ⟨hsame, hnone, hkeep, hif⟩ => ⟨hsame, hnone, hkeep, fun d' hd => ?_,
          fun d' hd => ?_⟩
      · rw [hw₂, Function.update_of_ne hk, hw₁]
      · rw [howns] at hd
        cases hd
        exact ⟨hcap, by rw [hif, hif₂, hzero]⟩
      · rw [howns, Option.some_inj] at hd
        rw [hif, hif₂, hegr d' (Ne.symm hd)]

/-- **The workers are destroyed** up to the end only if their interfaces are attached, and each of
them belongs to one worker. -/
theorem wp_destroyWorkers (is : List ℕ) :
    Wp (fun _ s' => SameRouter s s') (destroyWorkers is) (fun _ s' => SameRouter s s' ∧
      ∀ j ∈ is, ∀ d, Owns s j d → (s.ifnet d).egress.capacity ≠ 0 ∧
        ∀ k ∈ is, k ≠ j → ¬ Owns s k d) s := by
  induction is generalizing s with
  | nil => exact ⟨.refl s, by simp⟩
  | cons i is ih =>
    refine (wp_destroyWorker i).seq fun _ s₁ ⟨hsame₁, hnone, hkeep, hown, hegr⟩ => ?_
    refine ih.mono (fun _ _ h => hsame₁.trans h) fun _ s₂ ⟨hsame₂, hall⟩ =>
      ⟨hsame₁.trans hsame₂, ?_⟩
    have hkeeps : ∀ {k d}, k ≠ i → (Owns s₁ k d ↔ Owns s k d) := by
      intro k d hk
      rw [Owns, Owns, hkeep k hk]
    -- an interface of a later worker is not that of worker `i`, which has no capacity any more
    have hlater : ∀ {j d}, j ∈ is → j ≠ i → Owns s j d →
        ¬ Owns s i d ∧ (s.ifnet d).egress.capacity ≠ 0 := by
      intro j d hj hji hd
      have hcap := (hall j hj d ((hkeeps hji).mpr hd)).1
      have hni : ¬ Owns s i d := fun h => hcap (hown d h).2
      exact ⟨hni, hegr d hni ▸ hcap⟩
    intro j hj d hd
    by_cases hji : j = i
    · subst hji
      refine ⟨(hown d hd).1, fun k hk hkj hkd => ?_⟩
      exact (hlater ((List.mem_cons.mp hk).resolve_left hkj) hkj hkd).1 hd
    · have hj' := (List.mem_cons.mp hj).resolve_left hji
      refine ⟨(hlater hj' hji hd).2, fun k hk hkj hkd => ?_⟩
      by_cases hki : k = i
      · subst hki
        exact (hlater hj' hji hd).1 hkd
      · have hk' := (List.mem_cons.mp hk).resolve_left hki
        exact (hall j hj' d ((hkeeps hji).mpr hd)).2 k hk' hkj ((hkeeps hki).mpr hkd)

theorem wp_routerDestroy : Wp (fun _ s' => SameRouter s s') routerDestroy (fun _ s' =>
    SameRouter s s' ∧ ∀ j < s.workerCount, ∀ d, Owns s j d →
      (s.ifnet d).egress.capacity ≠ 0 ∧ ∀ k < s.workerCount, k ≠ j → ¬ Owns s k d) s := by
  rw [routerDestroy, wp_bind, wp_get]
  refine (wp_destroyWorkers _).seq fun _ s₁ ⟨hsame₁, hall⟩ => ?_
  refine (wp_logInit (by simp)).imp fun _ s₂ ⟨hsame₂, _, _⟩ => ⟨hsame₁.trans hsame₂, ?_⟩
  simpa only [List.mem_range] using hall

end Specs

/-! ## The start -/

/-- Between two interfaces: `i` workers exist, and each attached interface with two contexts has two
of them.  The interfaces that follow have no capacity. -/
structure Starting (ds : List ℕ) (i : ℕ) (s : InitState) : Prop where
  trustedRouter : s.trustedRouter = true
  slock : s.slock = true
  workers : i + (ds.map fun d => (s.ifnet d).napiCount).sum ≤ s.workerCount
  napis : ∀ d ∈ ds, 0 < (s.ifnet d).napiCount
  idle : ∀ d ∈ ds, (s.ifnet d).egress.capacity = 0
  twice : ∀ d, .attach d ∈ s.log → 1 < (s.ifnet d).napiCount →
    ∃ j k, j < k ∧ k < i ∧ Owns s j d ∧ Owns s k d

/-- How the start fails when it returns: the pointer stays, the lock is taken, memory for an
interface was not the reason, and no interface that was attached has two contexts. -/
def Unclean (r : TeeResult) (s : InitState) : Prop :=
  s.trustedRouter = true ∧ s.slock = true ∧ r = .generic ∧
    ∀ d, .attach d ∈ s.log → (s.ifnet d).napiCount ≤ 1

section Loop

variable (env : InitEnv) {s : InitState}

variable {ds : List ℕ} {i : ℕ}

/-- A run that comes back from `router_destroy` has met no interface with two workers. -/
theorem Starting.unclean {s₁ s₂ : InitState} (h : Starting ds i s) (hsame₁ : SameRouter s s₁)
    (hw : ∀ k < i, s₁.worker k = s.worker k) (hsame₂ : SameRouter s₁ s₂)
    (hall : ∀ j < s₁.workerCount, ∀ d, Owns s₁ j d →
      (s₁.ifnet d).egress.capacity ≠ 0 ∧ ∀ k < s₁.workerCount, k ≠ j → ¬ Owns s₁ k d) :
    Unclean .generic s₂ := by
  have hsame := hsame₁.trans hsame₂
  refine ⟨hsame.trustedRouter.trans h.trustedRouter, hsame.slock.trans h.slock, rfl, fun d hd => ?_⟩
  rw [hsame.napiCount]
  by_contra hlt
  obtain ⟨j, k, hjk, hki, hj, hk⟩ := h.twice d ((hsame.attached d).mp hd) (by omega)
  have hcount := h.workers
  rw [← hsame₁.workerCount] at hcount
  rw [Owns, ← hw j (by omega)] at hj
  rw [Owns, ← hw k hki] at hk
  exact (hall j (by omega) d hj).2 k (by omega) hjk.ne' hk

/-- The next interface is attached. -/
theorem Starting.next {d : ℕ} {s₁ s₂ : InitState} (hnd : (d :: ds).Nodup)
    (h : Starting (d :: ds) i s) (hsame₁ : SameRouter s s₁)
    (hegr₁ : ∀ d', (s₁.ifnet d').egress = (s.ifnet d').egress)
    (hw₁ : ∀ k < i, s₁.worker k = s.worker k)
    (hown : ∀ k < (s.ifnet d).napiCount, Owns s₁ (i + k) d) (hsame₂ : SameRouter s₁ s₂)
    (hw₂ : s₂.worker = s₁.worker)
    (hegr₂ : ∀ d', d' ≠ d → (s₂.ifnet d').egress = (s₁.ifnet d').egress) :
    Starting ds (i + (s.ifnet d).napiCount) { s₂ with log := s₂.log ++ [.attach d] } := by
  have hsame := hsame₁.trans hsame₂
  refine ⟨hsame.trustedRouter.trans h.trustedRouter, hsame.slock.trans h.slock, ?_, fun d' hd => ?_,
    fun d' hd => ?_, fun d' hd htwo => ?_⟩
  · have hcount := h.workers
    simp only [hsame.napiCount, hsame.workerCount]
    rw [List.map_cons, List.sum_cons] at hcount
    omega
  · simp only [hsame.napiCount]
    exact h.napis d' (List.mem_cons_of_mem _ hd)
  · have hne : d' ≠ d := ne_of_mem_of_not_mem hd (List.nodup_cons.mp hnd).1
    simp only [hegr₂ d' hne, hegr₁]
    exact h.idle d' (List.mem_cons_of_mem _ hd)
  · simp only [hsame.napiCount] at htwo
    simp only [Owns, hw₂]
    simp only [List.mem_append, List.mem_singleton, InitOp.attach.injEq, hsame.attached] at hd
    rcases hd with hd | rfl
    · obtain ⟨j, k, hjk, hki, hj, hk⟩ := h.twice d' hd htwo
      rw [Owns, ← hw₁ j (by omega)] at hj
      rw [Owns, ← hw₁ k hki] at hk
      exact ⟨j, k, hjk, by omega, hj, hk⟩
    · exact ⟨i, i + 1, by omega, by omega, hown 0 (by omega), hown 1 htwo⟩

/-- **The loop over the interfaces**: how it fails when it returns. -/
theorem post_attachLoop (hnd : ds.Nodup) (h : Starting ds i s) :
    Post (attachLoop env ds i) (fun r s' => ∀ err, r = some err → Unclean err s') s := by
  induction ds generalizing i s with
  | nil =>
    intro err herr
    cases herr
  | cons d ds ih =>
    rw [Post, attachLoop, wp_bind, wp_get]
    refine wp_ite.mpr ⟨fun _ => by simp, fun _ => wp_ite.mpr ⟨fun _ => by simp, fun _ => ?_⟩⟩
    refine (wp_initWorkers env d _ 0 i).seq ?_
    rintro r s₁ ⟨hsame₁, hegr₁, hw₁, hdone⟩
    cases r with
    | none =>
      refine wp_routerDestroy.post.seq ?_
      rintro _ s₂ ⟨hsame₂, hall⟩ err ⟨⟩
      exact h.unclean hsame₁ hw₁ hsame₂ hall
    | some i' =>
      obtain ⟨rfl, hown⟩ := hdone i' rfl
      refine (wp_ifnetIfattach env d).seq ?_
      rintro r s₂ ⟨hw₂, hegr₂, hr⟩
      refine wp_ite.mpr ⟨fun hfail => ?_, fun hok => ?_⟩
      · -- the worker knows an interface without capacity
        rw [if_pos hfail] at hr
        refine wp_routerDestroy.post.seq ?_
        rintro _ s₃ ⟨hsame₃, hall⟩ err herr
        have hpos := h.napis d List.mem_cons_self
        have hcount := h.workers
        rw [List.map_cons, List.sum_cons] at hcount
        have hlt : i < s₂.workerCount := by
          rw [hr.1.workerCount, hsame₁.workerCount]
          omega
        have hi : Owns s₂ i d := by
          rw [Owns, hw₂]
          exact hown 0 hpos
        refine absurd ?_ (hall i hlt d hi).1
        rw [hr.2, hegr₁, h.idle d List.mem_cons_self]
      · rw [if_neg hok] at hr
        obtain ⟨s₃, hsame₃, rfl⟩ := hr
        exact ih (List.nodup_cons.mp hnd).2
          (h.next hnd hsame₁ hegr₁ hw₁ hown hsame₃ hw₂ hegr₂)

end Loop

/-- The state at boot: the registered interfaces, with one or two contexts each. -/
structure AtBoot (devs : List ℕ) (s : InitState) : Prop where
  trustedRouter : s.trustedRouter = false
  slock : s.slock = false
  log : s.log = []
  nodup : devs.Nodup
  ne_nil : devs ≠ []
  napis : ∀ d ∈ devs, (s.ifnet d).napiCount = 1 ∨ (s.ifnet d).napiCount = 2
  idle : ∀ d ∈ devs, (s.ifnet d).egress.capacity = 0

/-- How a start that fails should end: it returns, the interfaces that were attached have been
detached once and no others, the workers have been freed once, the lock is free, and there is no
router. -/
def FailsCleanly : Except DivByZero TeeResult × InitState → Prop
  | (.ok _, s) =>
    (∀ d, s.log.count (.detach d) = if .attach d ∈ s.log then 1 else 0) ∧
      (∀ i, s.log.count (.freeWorker i) = if .newWorker i ∈ s.log then 1 else 0) ∧
      s.slock = false ∧ s.trustedRouter = false
  | (.error _, _) => False

section Start

variable {env : InitEnv} {devs : List ℕ} {s : InitState}

/-- **A start that fails and returns** leaves `trusted_router` pointing to the freed router.  If
the configuration was loaded, the lock is taken, and the failure was in `worker_init`, with no
interface attached that has two contexts: all other failures divide by 0. -/
theorem post_initTrustedRouter (h : AtBoot devs s) (hcreate : env.routerCreate = true) :
    Post (initTrustedRouter env devs) (fun r s' => r ≠ .success →
      s'.trustedRouter = true ∧ (env.loadConfig = true → Unclean r s')) s := by
  have hsum : (devs.map fun d => (s.ifnet d).napiCount).sum ≠ 0 := by
    obtain ⟨d, hd⟩ := List.exists_mem_of_ne_nil devs h.ne_nil
    have := h.napis d hd
    have := List.le_sum_of_mem (List.mem_map_of_mem (f := fun d => (s.ifnet d).napiCount) hd)
    omega
  rw [Post, initTrustedRouter, wp_bind, wp_get]
  refine wp_ite.mpr ⟨fun htr => ?_, fun _ => wp_ite.mpr ⟨fun hno => ?_, fun _ =>
    wp_ite.mpr ⟨fun hno => absurd hcreate hno, fun _ => ?_⟩⟩⟩
  · rw [h.trustedRouter] at htr
    cases htr
  · exact absurd hno (not_or_intro h.ne_nil hsum)
  · rw [wp_bind, wp_set]
    refine wp_ite.mpr ⟨fun hload => ?_, fun hload => ?_⟩
    · refine wp_routerDestroy.post.seq ?_
      rintro _ s₁ ⟨hsame, -⟩ -
      exact ⟨hsame.trustedRouter, fun hl => absurd hl hload⟩
    · rw [wp_bind, wp_modify]
      refine Wp.seq (post_attachLoop env h.nodup (i := 0)
        ⟨rfl, rfl, (Nat.zero_add _).le, fun d hd => ?_, h.idle, ?_⟩) fun r s₁ hr => ?_
      · rcases h.napis d hd with hn | hn <;> simp [hn]
      · simp [h.log]
      · cases r with
        | none => exact fun hne => absurd rfl hne
        | some err =>
          have hun := hr err rfl
          exact fun _ => ⟨hun.1, fun _ => hun⟩

/-- **No failed start is clean.**  Whatever the interfaces, and wherever the start fails after the
router was created: it divides by 0, or it leaves a pointer to the freed router. -/
theorem init_never_fails_cleanly (h : AtBoot devs s) (hcreate : env.routerCreate = true)
    (hfail : (runFrom (initTrustedRouter env devs) s).1 ≠ .ok .success) :
    ¬ FailsCleanly (runFrom (initTrustedRouter env devs) s) := by
  rcases hrun : runFrom (initTrustedRouter env devs) s with ⟨e | r, s'⟩
  · exact id
  · rintro ⟨-, -, -, hnull⟩
    have hne : r ≠ .success := by
      rintro rfl
      exact hfail (by rw [hrun])
    have hr := ((post_initTrustedRouter h hcreate).ok hrun hne).1
    rw [hnull] at hr
    cases hr

end Start

section Demo

/-- Two interfaces, the second with a receive and a transmit context. -/
def demoBoot : InitState where
  trustedRouter := false
  workerCount := 0
  worker := fun _ => none
  ifnet := fun d => ⟨if d = 1 then 1 else 2, [], ⟨0, 0, 0, 0, fun _ => none⟩, false⟩
  slock := false
  log := []

/-- There is memory for everything. -/
def demoBootEnv : InitEnv := ⟨true, true, fun _ => true, fun _ => true, fun _ => true⟩

theorem atBoot_demoBoot : AtBoot [1, 2] demoBoot :=
  ⟨rfl, rfl, rfl, by decide, by decide, by decide, by decide⟩

/-- The configuration cannot be loaded. -/
theorem init_never_fails_cleanly_config :
    ¬ FailsCleanly (runFrom (initTrustedRouter { demoBootEnv with loadConfig := false } [1, 2])
      demoBoot) :=
  init_never_fails_cleanly atBoot_demoBoot rfl (by decide +kernel)

/-- Without memory for the queue of the second interface, it is detached all the same, which divides
by 0; so does detaching the second interface for its second worker; without memory for the second
worker, the lock stays taken; and without a configuration the pointer is left behind. -/
theorem init_fails_uncleanly :
    (runFrom (initTrustedRouter { demoBootEnv with pktMalloc := (· ≠ 2) } [1, 2]) demoBoot).1 =
        .error .divByZero ∧
      (runFrom (initTrustedRouter { demoBootEnv with workerCalloc := (· ≠ 2) } [2, 1]) demoBoot).1 =
        .error .divByZero ∧
      (returns (initTrustedRouter { demoBootEnv with workerCalloc := (· ≠ 1) } [1, 2]) demoBoot).map
          (fun p => (p.1, p.2.slock, p.2.trustedRouter, p.2.log)) =
        some (.generic, true, true,
          [.newWorker 0, .attach 1, .detach 1, .freeWorker 0, .freeRouter]) ∧
      (returns (initTrustedRouter { demoBootEnv with loadConfig := false } [1, 2]) demoBoot).map
          (fun p => (p.1, p.2.slock, p.2.trustedRouter, p.2.log)) =
        some (.generic, false, true, [.freeRouter]) := by
  decide +kernel

end Demo

end Router

end TrustedGateway
