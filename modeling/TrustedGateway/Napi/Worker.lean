import TrustedGateway.Lib.Run
import TrustedGateway.Napi

/-!
# Workers

A worker serves one NAPI context (`worker_run` in `npf_router.c`).  It polls while the context is
scheduled, then looks at `SCHED` for a while, and goes to sleep on the context's condition
variable.  The notifier (`notifier.c`) wakes it up when a kick is pending.

Between the accesses to shared state the parties interleave.  A step of the model is one section
of the context's spin lock, one operation on `wait_mtx` or the condition variable, or one step of
the poll function.  The mutex and the condition variable are those of the kernel: a signal reaches
a sleeping worker, which then takes the mutex again when it is free.

A poll function is an automaton, because what it does depends on the traffic it meets: it works
on its device, calls `napi_complete` or `napi_schedule`, and returns a number of packets.
-/

namespace TrustedGateway

open StepSystem

/-! ## Poll functions -/

/-- What a poll function does next.  `σ` are its states, `δ` those of its device, and `ι` is what
it meets there while it works. -/
inductive PollOp (σ δ ι : Type)
  | work (next : ι → δ → σ × δ)
  | complete (next : Bool → σ)
  | schedule (next : σ)
  | ret (pkts : ℤ)
  | panic (msg : String)

/-- A poll function, and how often its worker looks at `SCHED` before it goes to sleep. -/
structure PollFn where
  St : Type
  Dev : Type
  In : Type
  start : St
  op : St → PollOp St Dev In
  nrounds : ℕ

/-! ## The parties -/

/-- Where the worker is. -/
inductive WorkerPc (σ : Type)
  | off
  | activate
  | tryLock
  | head
  | toSleep
  | asleep (signalled : Bool)
  | toPoll
  | enter
  | polling (st : σ)
  | recycle (left : ℕ)
  | out

/-- The worker is about to call the poll function. -/
def WorkerPc.isEnter {σ : Type} : WorkerPc σ → Bool
  | enter => true
  | _ => false

/-- The poll that runs. -/
def WorkerPc.poll? {σ : Type} : WorkerPc σ → Option σ
  | polling st => some st
  | _ => none

/-- Where the notifier is in its check of the context. -/
inductive NotifierPc
  | idle
  | locked
  | check
  | signal
  | unlock
  deriving DecidableEq, Repr

/-- The holder of `wait_mtx`. -/
inductive MtxOwner
  | worker
  | notifier
  deriving DecidableEq, Repr

/-- A context and the parties that use it.  `disablers` counts the calls of `napi_disable` that
wait for the worker, and `quiet` is set from the return of such a call to the next
`napi_enable`. -/
structure WSys (σ δ : Type) where
  napi : Napi
  dev : δ
  isWaiting : Bool
  waitMtx : Option MtxOwner
  worker : WorkerPc σ
  notifier : NotifierPc
  disablers : ℕ
  quiet : Bool

/-- The system around a poll function. -/
abbrev PollFn.Sys (P : PollFn) : Type := WSys P.St P.Dev

/-- Steps of the parties; `env` is anything others do to the device. -/
inductive WAction (δ ι : Type)
  | run
  | step (t : ι)
  | schedule
  | disable
  | disableTry
  | enable
  | notify
  | env (dev : δ)

abbrev PollFn.Action (P : PollFn) : Type := WAction P.Dev P.In

section Steps

variable (P : PollFn)

/-- A step of the poll function, and of `worker_run` when it returns. -/
def pollStep (s : P.Sys) (t : P.In) (st : P.St) : Except Abort (P.Sys) :=
  match P.op st with
  | .work next =>
    let r := next t s.dev
    .ok { s with dev := r.2, worker := .polling r.1 }
  | .complete next =>
    let r := napiComplete s.napi
    .ok { s with napi := r.2, worker := .polling (next r.1) }
  | .schedule next => .ok { s with napi := napiSchedule s.napi, worker := .polling next }
  | .ret pkts =>
    if pollBudget ≤ pkts then .ok { s with worker := .enter }
    else if pkts < 0 then .ok { s with worker := .out }
    else .ok { s with worker := .recycle P.nrounds }
  | .panic msg => .error (.panic msg)

/-- A step of `worker_run`. -/
def workerRunStep (s : P.Sys) (t : P.In) : Except Abort (P.Sys) :=
  match s.worker with
  | .off => .ok s
  | .activate => .ok { s with napi := { s.napi with wActive := true }, worker := .tryLock }
  | .tryLock =>
    if s.waitMtx = none then .ok { s with waitMtx := some .worker, worker := .head }
    else .ok { s with worker := .recycle P.nrounds }
  | .head =>
    if s.napi.sched then
      .ok { s with napi := { s.napi with doNotify := false }, worker := .toPoll }
    else .ok { s with worker := .toSleep }
  | .toSleep => .ok { s with isWaiting := true, waitMtx := none, worker := .asleep false }
  | .asleep _ => .ok { s with waitMtx := some .worker, worker := .head }
  | .toPoll => .ok { s with isWaiting := false, waitMtx := none, worker := .enter }
  | .enter => .ok { s with worker := .polling P.start }
  | .polling st => pollStep P s t st
  | .recycle 0 => .ok { s with worker := .tryLock }
  | .recycle (left + 1) =>
    if s.napi.sched then
      .ok { s with napi := { s.napi with doNotify := false }, worker := .enter }
    else .ok { s with worker := .recycle left }
  | .out => .ok { s with napi := { s.napi with wActive := false }, worker := .off }

variable {P}

/-- Outside of the poll function the worker does not touch the device or `SCHED`. -/
theorem workerRunStep_outside {s s' : P.Sys} {t : P.In} (hpoll : s.worker.poll? = none)
    (henter : s.worker.isEnter = false) (hs : workerRunStep P s t = .ok s') :
    s'.dev = s.dev ∧ s'.napi.sched = s.napi.sched ∧ s'.worker.poll? = none := by
  unfold workerRunStep at hs
  split at hs
  case h_1 =>
      cases hs
      exact ⟨rfl, rfl, hpoll⟩
  case h_8 hw =>
      rw [hw] at henter
      cases henter
  case h_9 st hw =>
      rw [hw] at hpoll
      cases hpoll
  all_goals
    try split at hs
    all_goals
      cases hs
      exact ⟨rfl, rfl, rfl⟩

/-- `condvar_signal`. -/
def condvarSignal {σ : Type} : WorkerPc σ → WorkerPc σ
  | .asleep _ => .asleep true
  | pc => pc

/-- A step of `bstgw_notifier_wakeup_check`. -/
def notifyStep {σ δ : Type} (s : WSys σ δ) : WSys σ δ :=
  match s.notifier with
  | .idle =>
    if s.waitMtx = none then { s with waitMtx := some .notifier, notifier := .locked } else s
  | .locked => { s with notifier := if s.isWaiting then .check else .unlock }
  | .check =>
    { s with
      napi := { s.napi with doNotify := false }
      notifier := if s.napi.doNotify then .signal else .unlock }
  | .signal => { s with worker := condvarSignal s.worker, notifier := .unlock }
  | .unlock => { s with waitMtx := none, notifier := .idle }

/-- The notifier does not touch the device or `SCHED`, and leaves a poll alone. -/
theorem notifyStep_frame {σ δ : Type} (s : WSys σ δ) :
    (notifyStep s).dev = s.dev ∧ (notifyStep s).napi.sched = s.napi.sched ∧
      (notifyStep s).worker.poll? = s.worker.poll? := by
  unfold notifyStep
  split
  · split <;> exact ⟨rfl, rfl, rfl⟩
  · exact ⟨rfl, rfl, rfl⟩
  · exact ⟨rfl, rfl, rfl⟩
  · refine ⟨rfl, rfl, ?_⟩
    show (condvarSignal s.worker).poll? = s.worker.poll?
    cases s.worker <;> rfl
  · exact ⟨rfl, rfl, rfl⟩

/-- The first lock section of `napi_disable`. -/
def disableStep {σ δ : Type} (s : WSys σ δ) : Except Abort (WSys σ δ) :=
  match napiDisableSet s.napi with
  | .error a => .error a
  | .ok n =>
    let r := napiDisableTry n
    if r.1 then .ok { s with napi := r.2, quiet := true }
    else .ok { s with napi := r.2, disablers := s.disablers + 1 }

/-- The later ones. -/
def disableTryStep {σ δ : Type} (s : WSys σ δ) : Except Abort (WSys σ δ) :=
  let r := napiDisableTry s.napi
  if r.1 then
    if !r.2.disable then .error (.panic "disabling failed")
    else .ok { s with napi := r.2, disablers := s.disablers - 1, quiet := true }
  else .ok s

/-- The first section of `napi_disable` changes neither the worker nor the device, and takes
`SCHED` away only if there is no worker. -/
theorem disableStep_frame {σ δ : Type} {s s' : WSys σ δ} (hs : disableStep s = .ok s') :
    s'.dev = s.dev ∧ s'.worker = s.worker ∧
      ((s.napi.sched = true → s.napi.wActive = true) → s'.napi.sched = s.napi.sched) := by
  unfold disableStep at hs
  split at hs
  · cases hs
  · rename_i n hn
    obtain ⟨-, rfl⟩ := napiDisableSet_ok hn
    dsimp only at hs
    rw [napiDisableTry_eq] at hs
    split at hs
    all_goals
      cases hs
      exact ⟨rfl, rfl, Bool.and_eq_left_iff_imp.mpr⟩

/-- Nor do the later ones. -/
theorem disableTryStep_frame {σ δ : Type} {s s' : WSys σ δ} (hs : disableTryStep s = .ok s') :
    s'.dev = s.dev ∧ s'.worker = s.worker ∧
      ((s.napi.sched = true → s.napi.wActive = true) → s'.napi.sched = s.napi.sched) := by
  unfold disableTryStep at hs
  dsimp only at hs
  split at hs
  · split at hs
    · cases hs
    · rw [napiDisableTry_eq] at hs
      cases hs
      exact ⟨rfl, rfl, Bool.and_eq_left_iff_imp.mpr⟩
  · cases hs
    exact ⟨rfl, rfl, fun _ => rfl⟩

variable (P)

/-- A step of the system. -/
def wStep (s : P.Sys) : P.Action → Except Abort (P.Sys)
  | .run => .ok { s with worker := .activate }
  | .step t => workerRunStep P s t
  | .schedule => .ok { s with napi := napiSchedule s.napi }
  | .disable => disableStep s
  | .disableTry => disableTryStep s
  | .enable => (napiEnable s.napi).map fun n => { s with napi := n, quiet := false }
  | .notify => .ok (notifyStep s)
  | .env dev => .ok { s with dev := dev }

end Steps

/-- Whether the worker can take a step: it has been started, and it does not wait for a signal or
for the mutex. -/
def WorkerPc.canStep {σ : Type} (free : Bool) : WorkerPc σ → Bool
  | off | asleep false => false
  | asleep true => free
  | _ => true

def WorkerPc.isOff {σ : Type} : WorkerPc σ → Bool
  | off => true
  | _ => false

theorem WorkerPc.poll?_of_isOff {σ : Type} {pc : WorkerPc σ} (h : pc.isOff = true) :
    pc.poll? = none := by
  cases pc with
  | off => rfl
  | _ => cases h

/-- The worker runs once at a time. -/
def WAllows {σ δ ι : Type} (s : WSys σ δ) : WAction δ ι → Prop
  | .run => s.worker.isOff = true
  | .step _ => s.worker.canStep (s.waitMtx = none) = true
  | .disableTry => 0 < s.disablers
  | _ => True

instance {σ δ ι : Type} (s : WSys σ δ) (a : WAction δ ι) : Decidable (WAllows s a) := by
  cases a <;> dsimp only [WAllows] <;> infer_instance

/-- A context that was just added, without a worker. -/
def wInit {σ δ : Type} (dev : δ) : WSys σ δ where
  napi := netifNapiAdd
  dev := dev
  isWaiting := false
  waitMtx := none
  worker := .off
  notifier := .idle
  disablers := 0
  quiet := true

end TrustedGateway
