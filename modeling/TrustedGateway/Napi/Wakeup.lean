import TrustedGateway.Napi.Polls

/-!
# Sleeping workers are woken

What a worker may rely on, for any poll function that calls `napi_complete` at most once and
returns less than the budget if it did.  Then the worker only polls while `SCHED` is set, a worker
that sleeps although the context is scheduled will get a signal, and a request to poll is followed
by a poll.
-/

namespace TrustedGateway

open StepSystem

namespace WorkerPc

variable {σ : Type}

/-- The worker holds the mutex. -/
def holdsMtx : WorkerPc σ → Bool
  | head | toSleep | toPoll => true
  | _ => false

/-- The worker has told the context that it is there. -/
def isActive : WorkerPc σ → Bool
  | off | activate => false
  | _ => true

/-- The worker found the context not scheduled, and sleeps or is about to. -/
def isSleepy : WorkerPc σ → Bool
  | toSleep | asleep false => true
  | _ => false

/-- The worker has seen `SCHED` and is going to poll. -/
def willPoll : WorkerPc σ → Bool
  | toPoll | enter => true
  | _ => false

/-- The worker holds nothing, owes nothing and does not wait for a kick. -/
def isFree : WorkerPc σ → Bool
  | off | activate | tryLock | asleep true | recycle _ | out => true
  | _ => false

theorem willPoll_of_isEnter {pc : WorkerPc σ} (h : pc.isEnter = true) : pc.willPoll = true := by
  cases pc with
  | enter => rfl
  | _ => cases h

theorem isActive_of_willPoll {pc : WorkerPc σ} (h : pc.willPoll = true) : pc.isActive = true := by
  cases pc with
  | off | activate => cases h
  | _ => rfl

end WorkerPc

/-- Whether the step starts a poll. -/
def startsPoll {σ δ ι : Type} (s : WSys σ δ) : WAction δ ι → Bool
  | .step _ => s.worker.isEnter
  | _ => false

def WAction.isDisable {δ ι : Type} : WAction δ ι → Bool
  | .disable => true
  | _ => false

section Invariant

variable {P : PollFn} (G : P.St → P.In → P.Dev → Prop)

/-- The invariant of a context and its worker. -/
structure WorkerInv (s : P.Sys) : Prop where
  workerMtx : s.worker.holdsMtx = true → s.waitMtx = some .worker
  notifierMtx : s.notifier ≠ .idle → s.waitMtx = some .notifier
  active : s.worker.isActive = true → s.napi.wActive = true
  willPoll : s.worker.willPoll = true → s.napi.sched = true
  polling : ∀ st, s.worker = .polling st →
    ∃ b, Reaches G st b ∧ (b = false → s.napi.sched = true)
  quiet : s.quiet = true → s.napi.disable = true ∧ s.napi.sched = false
  sleepy : s.worker.isSleepy = true → s.napi.sched = true →
    s.napi.doNotify = true ∨ s.notifier = .signal

variable {G} {s s' : P.Sys}

namespace WorkerInv

theorem init (dev : P.Dev) : WorkerInv G (wInit dev) where
  workerMtx h := by cases h
  notifierMtx h := absurd rfl h
  active h := by cases h
  willPoll h := by cases h
  polling st h := by cases h
  quiet _ := ⟨rfl, rfl⟩
  sleepy h := by cases h

section

variable (h : WorkerInv G s)
include h

/-- While the notifier is at work the worker does not hold the mutex. -/
theorem notifier_idle (hw : s.worker.holdsMtx = true) : s.notifier = .idle := by
  by_contra hn
  have hmtx := h.workerMtx hw
  rw [h.notifierMtx hn] at hmtx
  cases hmtx

/-- A sleeping worker of a scheduled context has a kick pending, unless the notifier has taken it
and is about to signal. -/
theorem kicked (hn : s.notifier ≠ .signal) (hw : s.worker.isSleepy = true)
    (hs : s.napi.sched = true) : s.napi.doNotify = true :=
  (h.sleepy hw hs).resolve_right hn

/-- `napi_schedule`, by the poll function or by others. -/
theorem schedule : WorkerInv G { s with napi := napiSchedule s.napi } where
  workerMtx := h.workerMtx
  notifierMtx := h.notifierMtx
  active hw := (wActive_napiSchedule s.napi).trans (h.active hw)
  willPoll hc := sched_napiSchedule_of_sched (h.willPoll hc)
  polling st hst := by
    obtain ⟨b, hst, hb⟩ := h.polling st hst
    exact ⟨b, hst, fun hf => sched_napiSchedule_of_sched (hb hf)⟩
  quiet hq := by
    obtain ⟨hd, hs⟩ := h.quiet hq
    exact ⟨(disable_napiSchedule s.napi).trans hd, by
      rw [sched_napiSchedule, hs, hd]
      rfl⟩
  sleepy hw hs := by
    show (napiSchedule s.napi).doNotify = true ∨ _
    cases hold : s.napi.sched with
    | false => exact .inl (doNotify_napiSchedule hold hs)
    | true =>
      rw [doNotify_napiSchedule_of_sched hold]
      exact h.sleepy hw hold

/-- The worker gets to a place where nothing is asked of it. -/
theorem toFree {n : Napi} {pc : WorkerPc P.St} (hpc : pc.isFree = true)
    (hact : pc.isActive = true → n.wActive = true)
    (hn : n.sched = s.napi.sched ∧ n.disable = s.napi.disable) :
    WorkerInv G { s with napi := n, worker := pc } := by
  obtain ⟨hs, hd⟩ := hn
  have hquiet : s.quiet = true → n.disable = true ∧ n.sched = false := by
    rw [hs, hd]
    exact h.quiet
  cases pc with
  | head | toSleep | toPoll | enter | polling => cases hpc
  | asleep b =>
    cases b with
    | false => cases hpc
    | true => exact ⟨fun hm => (by cases hm), h.notifierMtx, hact, fun hc => (by cases hc),
        fun st hst => (by cases hst), hquiet, fun hsl => (by cases hsl)⟩
  | off | activate | tryLock | recycle | out =>
    exact ⟨fun hm => (by cases hm), h.notifierMtx, hact, fun hc => (by cases hc),
      fun st hst => (by cases hst), hquiet, fun hsl => (by cases hsl)⟩

/-- The worker is about to poll; the kick is not needed any more. -/
theorem toEnter {n : Napi} {w : Bool} {mtx : Option MtxOwner} (hact : n.wActive = true)
    (hsched : s.napi.sched = true) (hn : n.sched = s.napi.sched ∧ n.disable = s.napi.disable)
    (hmtx : s.notifier ≠ .idle → mtx = some .notifier) :
    WorkerInv G { s with napi := n, isWaiting := w, waitMtx := mtx, worker := .enter } := by
  refine ⟨fun hm => (by cases hm), hmtx, fun _ => hact, fun _ => hn.1.trans hsched,
    fun st hst => (by cases hst), fun hq => ?_, fun hsl => (by cases hsl)⟩
  have hnot := (h.quiet hq).2
  rw [hsched] at hnot
  cases hnot

/-- The worker takes the mutex. -/
theorem toHead (hnone : s.waitMtx = none) (hact : s.napi.wActive = true) :
    WorkerInv G { s with waitMtx := some .worker, worker := .head } := by
  refine ⟨fun _ => rfl, fun hn => ?_, fun _ => hact, fun hc => (by cases hc),
    fun st hst => (by cases hst), h.quiet, fun hsl => (by cases hsl)⟩
  have hmtx := h.notifierMtx hn
  rw [hnone] at hmtx
  cases hmtx

/-- The poll function goes on. -/
theorem poll {next : P.St} {b : Bool} (hact : s.napi.wActive = true) (dev : P.Dev)
    (hnext : Reaches G next b) (hb : b = false → s.napi.sched = true) :
    WorkerInv G { s with dev := dev, worker := .polling next } := by
  refine ⟨fun hm => (by cases hm), h.notifierMtx, fun _ => hact, fun hc => (by cases hc), ?_,
    h.quiet, fun hsl => (by cases hsl)⟩
  rintro st hst
  cases hst
  exact ⟨b, hnext, hb⟩

/-- A step of the poll function. -/
theorem pollStep (hP : CompletesOnce G) {t : P.In} {st : P.St} (hw : s.worker = .polling st)
    (hG : G st t s.dev) (hs : pollStep P s t st = .ok s') : WorkerInv G s' := by
  have hact : s.napi.wActive = true := h.active (by rw [hw]; rfl)
  obtain ⟨b, hst, hb⟩ := h.polling st hw
  unfold TrustedGateway.pollStep at hs
  split at hs
  · rename_i next hop
    cases hs
    exact h.poll hact _ (.work hop hst hG) hb
  · rename_i next hop
    cases hs
    -- `SCHED` may be clear now, and the poll has completed
    refine ⟨fun hm => (by cases hm), h.notifierMtx, fun _ => ?_, fun hc => (by cases hc), ?_,
      fun hq => ?_, fun hsl => (by cases hsl)⟩
    · exact (wActive_napiComplete s.napi).trans hact
    · rintro st' hst'
      cases hst'
      exact ⟨true, .complete hop hst _, fun hf => (by cases hf)⟩
    · obtain ⟨hd, hsched⟩ := h.quiet hq
      exact ⟨(disable_napiComplete s.napi).trans hd, sched_napiComplete_of_false hsched⟩
  · rename_i next hop
    cases hs
    exact (h.schedule).poll ((wActive_napiSchedule s.napi).trans hact) s.dev (.schedule hop hst)
      fun hf => sched_napiSchedule_of_sched (hb hf)
  · rename_i pkts hop
    split at hs
    · rename_i hbudget
      cases hs
      -- a poll that used up its budget has not completed
      cases b with
      | true => exact absurd ((hP st hst).2 pkts hop) (not_lt.mpr hbudget)
      | false => exact h.toEnter hact (hb rfl) ⟨rfl, rfl⟩ h.notifierMtx
    · split at hs
      all_goals
        cases hs
        exact h.toFree rfl (fun _ => hact) ⟨rfl, rfl⟩
  · cases hs

/-- A step of `worker_run`. -/
theorem workerRunStep (hP : CompletesOnce G) {t : P.In}
    (hcan : s.worker.canStep (s.waitMtx = none) = true) (hG : ∀ st ∈ s.worker.poll?, G st t s.dev)
    (hs : workerRunStep P s t = .ok s') : WorkerInv G s' := by
  unfold TrustedGateway.workerRunStep at hs
  have hact : s.worker.isActive = true → s.napi.wActive = true := h.active
  split at hs
  · cases hs
    exact h
  · cases hs
    exact h.toFree rfl (fun _ => rfl) ⟨rfl, rfl⟩
  · rename_i hw
    rw [hw] at hact
    split at hs
    · rename_i hnone
      cases hs
      exact h.toHead hnone (hact rfl)
    · cases hs
      exact h.toFree rfl (fun _ => hact rfl) ⟨rfl, rfl⟩
  · rename_i hw
    rw [hw] at hact
    have hmtx : s.waitMtx = some .worker := h.workerMtx (by rw [hw]; rfl)
    split at hs
    · rename_i hsched
      cases hs
      exact ⟨fun _ => hmtx, h.notifierMtx, fun _ => hact rfl, fun _ => hsched,
        fun st hst => (by cases hst), h.quiet, fun hsl => (by cases hsl)⟩
    · rename_i hsched
      cases hs
      exact ⟨fun _ => hmtx, h.notifierMtx, fun _ => hact rfl, fun hcom => (by cases hcom),
        fun st hst => (by cases hst), h.quiet, fun _ hs => absurd hs hsched⟩
  · rename_i hw
    cases hs
    have hidle : s.notifier = .idle := h.notifier_idle (by rw [hw]; rfl)
    rw [hw] at hact
    exact ⟨fun hm => (by cases hm), fun hn => absurd hidle hn, fun _ => hact rfl,
      fun hcom => (by cases hcom), fun st hst => (by cases hst), h.quiet,
      fun _ => h.sleepy (by rw [hw]; rfl)⟩
  · rename_i b hw
    cases hs
    rw [hw] at hcan hact
    have hnone : s.waitMtx = none := by
      cases b with
      | false => cases hcan
      | true => exact of_decide_eq_true hcan
    exact h.toHead hnone (hact rfl)
  · rename_i hw
    cases hs
    have hidle : s.notifier = .idle := h.notifier_idle (by rw [hw]; rfl)
    rw [hw] at hact
    exact h.toEnter (hact rfl) (h.willPoll (by rw [hw]; rfl)) ⟨rfl, rfl⟩ fun hn => absurd hidle hn
  · rename_i hw
    cases hs
    have hsched : s.napi.sched = true := h.willPoll (by rw [hw]; rfl)
    rw [hw] at hact
    exact h.poll (hact rfl) s.dev .start fun _ => hsched
  · rename_i st hw
    exact h.pollStep hP hw (hG st (by rw [hw]; rfl)) hs
  · rename_i hw
    cases hs
    rw [hw] at hact
    exact h.toFree rfl (fun _ => hact rfl) ⟨rfl, rfl⟩
  · rename_i left hw
    rw [hw] at hact
    split at hs
    · rename_i hsched
      cases hs
      exact h.toEnter (hact rfl) hsched ⟨rfl, rfl⟩ h.notifierMtx
    · cases hs
      exact h.toFree rfl (fun _ => hact rfl) ⟨rfl, rfl⟩
  · cases hs
    exact h.toFree rfl (fun hact => by cases hact) ⟨rfl, rfl⟩

/-- The notifier signals: a worker that sleeps is about to wake up, and to any other the signal
is nothing. -/
theorem signalled (hmtx : s.waitMtx = some .notifier) :
    WorkerInv G { s with worker := condvarSignal s.worker, notifier := .unlock } := by
  have hfree : s.worker.holdsMtx = false := by
    by_contra hw
    have hm := h.workerMtx (Bool.eq_true_of_not_eq_false hw)
    rw [hmtx] at hm
    cases hm
  cases hw : s.worker with
  | head | toSleep | toPoll =>
    rw [hw] at hfree
    cases hfree
  | asleep b =>
    refine ⟨fun hm => (by cases hm), fun _ => hmtx, fun _ => h.active (by rw [hw]; rfl),
      fun hc => (by cases hc), fun st hst => (by cases hst), h.quiet, fun hsl => (by cases hsl)⟩
  | off | activate | tryLock | enter | polling | recycle | out =>
    refine ⟨fun hm => (by cases hm), fun _ => hmtx, fun ha => h.active (by rw [hw]; exact ha),
      fun hc => h.willPoll (by rw [hw]; exact hc),
      fun st hst => h.polling st (by rw [hw]; exact hst), h.quiet, fun hsl => (by cases hsl)⟩

/-- A step of the notifier. -/
theorem notifyStep : WorkerInv G (notifyStep s) := by
  unfold TrustedGateway.notifyStep
  split
  · rename_i hn
    split
    · rename_i hnone
      refine ⟨fun hm => ?_, fun _ => rfl, h.active, h.willPoll, h.polling, h.quiet,
        fun hsl hs => ?_⟩
      · have hmtx := h.workerMtx hm
        rw [hnone] at hmtx
        cases hmtx
      · exact .inl (h.kicked (by rw [hn]; decide) hsl hs)
    · exact h
  · rename_i hn
    have hmtx : s.waitMtx = some .notifier := h.notifierMtx (by rw [hn]; decide)
    exact ⟨h.workerMtx, fun _ => hmtx, h.active, h.willPoll, h.polling, h.quiet,
      fun hsl hs => .inl (h.kicked (by rw [hn]; decide) hsl hs)⟩
  · rename_i hn
    have hmtx : s.waitMtx = some .notifier := h.notifierMtx (by rw [hn]; decide)
    -- the kick becomes a signal
    exact ⟨h.workerMtx, fun _ => hmtx, h.active, h.willPoll, h.polling, h.quiet,
      fun hsl hs => .inr (if_pos (h.kicked (by rw [hn]; decide) hsl hs))⟩
  · rename_i hn
    have hmtx : s.waitMtx = some .notifier := h.notifierMtx (by rw [hn]; decide)
    exact h.signalled hmtx
  · rename_i hn
    have hmtx : s.waitMtx = some .notifier := h.notifierMtx (by rw [hn]; decide)
    refine ⟨fun hm => ?_, fun hidle => absurd rfl hidle, h.active, h.willPoll, h.polling, h.quiet,
      fun hsl hs => ?_⟩
    · have hw := h.workerMtx hm
      rw [hmtx] at hw
      cases hw
    · exact .inl (h.kicked (by rw [hn]; decide) hsl hs)

/-- What others do to the device does not matter here. -/
theorem env (dev : P.Dev) : WorkerInv G { s with dev := dev } :=
  ⟨h.workerMtx, h.notifierMtx, h.active, h.willPoll, h.polling, h.quiet, h.sleepy⟩

theorem enable {n : Napi} (hn : napiEnable s.napi = .ok n) :
    WorkerInv G { s with napi := n, quiet := false } := by
  obtain ⟨-, -, rfl⟩ := napiEnable_ok hn
  exact ⟨h.workerMtx, h.notifierMtx, h.active, h.willPoll, h.polling, fun hq => (by cases hq),
    h.sleepy⟩

/-- A section of `napi_disable`.  It takes `SCHED` away only if there is no worker. -/
theorem disabling (k : ℕ) {q d : Bool}
    (hq : q = true → d = true ∧ (s.napi.sched && s.napi.wActive) = false) :
    WorkerInv G { s with
      napi := { s.napi with disable := d, sched := s.napi.sched && s.napi.wActive }
      disablers := k
      quiet := q } := by
  have hkeep : s.worker.isActive = true → s.napi.sched = true →
      (s.napi.sched && s.napi.wActive) = true := by
    intro hw hs
    rw [hs, h.active hw]
    rfl
  refine ⟨h.workerMtx, h.notifierMtx, h.active, fun hc => ?_, fun st hst => ?_, hq,
    fun hsl hs => ?_⟩
  · exact hkeep (WorkerPc.isActive_of_willPoll hc) (h.willPoll hc)
  · have hst' : s.worker = .polling st := hst
    obtain ⟨b, hst, hb⟩ := h.polling st hst'
    exact ⟨b, hst, fun hf => hkeep (by rw [hst']; rfl) (hb hf)⟩
  · have hs' : (s.napi.sched && s.napi.wActive) = true := hs
    exact h.sleepy hsl (Bool.and_elim_left hs')

theorem disableStep (hs : disableStep s = .ok s') : WorkerInv G s' := by
  unfold TrustedGateway.disableStep at hs
  split at hs
  · cases hs
  · rename_i n hn
    obtain ⟨hd, rfl⟩ := napiDisableSet_ok hn
    dsimp only at hs
    split at hs
    · rename_i hend
      have hclear := sched_of_napiDisableTry hend
      rw [napiDisableTry_eq] at hs hclear
      cases hs
      exact h.disabling s.disablers fun _ => ⟨rfl, hclear⟩
    · rw [napiDisableTry_eq] at hs
      cases hs
      refine h.disabling (s.disablers + 1) fun hq => ?_
      have hdis := (h.quiet hq).1
      rw [hd] at hdis
      cases hdis

theorem disableTryStep (hs : disableTryStep s = .ok s') : WorkerInv G s' := by
  unfold TrustedGateway.disableTryStep at hs
  dsimp only at hs
  split at hs
  · rename_i hend
    split at hs
    · cases hs
    · rename_i hdis
      have hclear := sched_of_napiDisableTry hend
      rw [napiDisableTry_eq] at hs hclear hdis
      cases hs
      exact h.disabling (s.disablers - 1) fun _ => ⟨by simpa using hdis, hclear⟩
  · cases hs
    exact h

end

/-- **A step keeps the invariant.** -/
theorem step (hP : CompletesOnce G) (h : WorkerInv G s) {a : P.Action} (ha : WAllows s a)
    (hG : Meets G s a) (hs : wStep P s a = .ok s') : WorkerInv G s' := by
  cases a with
  | run =>
    cases hs
    exact h.toFree rfl (fun hact => by cases hact) ⟨rfl, rfl⟩
  | step t => exact h.workerRunStep hP ha hG hs
  | schedule =>
    cases hs
    exact h.schedule
  | disable => exact h.disableStep hs
  | disableTry => exact h.disableTryStep hs
  | enable =>
    obtain ⟨n, hn, rfl⟩ := exists_ok_of_map hs
    exact h.enable hn
  | notify =>
    cases hs
    exact h.notifyStep
  | env dev =>
    cases hs
    exact h.env dev

/-- **So does a run.** -/
theorem run (hP : CompletesOnce G) {as : List P.Action} (h : WorkerInv G s)
    (hr : Run (wStep P) (fun s a => WAllows s a ∧ Meets G s a) s as s') : WorkerInv G s' :=
  hr.inv (fun _ _ _ hI hg hs => hI.step hP hg.1 hg.2 hs) h

end WorkerInv

/-! ## Requests to poll -/

variable (G) in
/-- The context is enabled and scheduled, and the poll that runs, if any, will not take that
away. -/
structure Owed (s : P.Sys) : Prop where
  enabled : s.napi.disable = false
  sched : s.napi.sched = true
  missed : ∀ st, s.worker = .polling st →
    ∃ b, Reaches G st b ∧ (b = false → s.napi.missed = true)

/-- The step is a call of `napi_schedule`, of the poll function itself or of others. -/
def CallsSchedule (s : P.Sys) : P.Action → Prop
  | .schedule => True
  | .step _ => ∃ st next, s.worker = .polling st ∧ P.op st = .schedule next
  | _ => False

namespace Owed

/-- The worker moves on outside of the poll function. -/
theorem move (h : Owed G s) {n : Napi} {w : Bool} {mtx : Option MtxOwner} {pc : WorkerPc P.St}
    (hn : n.disable = s.napi.disable ∧ n.sched = s.napi.sched) (hpc : ∀ st, pc ≠ .polling st) :
    Owed G { s with napi := n, isWaiting := w, waitMtx := mtx, worker := pc } :=
  ⟨hn.1.trans h.enabled, hn.2.trans h.sched, fun st hst => absurd hst (hpc st)⟩

/-- **A call of `napi_schedule` is owed a poll.** -/
theorem of_schedule (h : WorkerInv G s) (hd : s.napi.disable = false) {a : P.Action}
    (ha : CallsSchedule s a) (hs : wStep P s a = .ok s') : Owed G s' := by
  have hd' : (napiSchedule s.napi).disable = false := (disable_napiSchedule s.napi).trans hd
  have hsched : (napiSchedule s.napi).sched = true := sched_napiSchedule_of_enabled hd
  -- while a poll that has not completed runs, the context is scheduled
  have hmissed : ∀ st, s.worker = .polling st →
      ∃ b, Reaches G st b ∧ (b = false → (napiSchedule s.napi).missed = true) := by
    intro st hst
    obtain ⟨b, hst, hb⟩ := h.polling st hst
    exact ⟨b, hst, fun hf => missed_napiSchedule hd (hb hf)⟩
  cases a with
  | schedule =>
    cases hs
    exact ⟨hd', hsched, hmissed⟩
  | step t =>
    obtain ⟨st, next, hw, hop⟩ := ha
    have hs' : pollStep P s t st = .ok s' := by
      rw [← hs]
      simp only [wStep, workerRunStep, hw]
    simp only [pollStep, hop] at hs'
    cases hs'
    obtain ⟨b, hst, hb⟩ := hmissed st hw
    refine ⟨hd', hsched, ?_⟩
    rintro st' hst'
    cases hst'
    exact ⟨b, .schedule hop hst, hb⟩
  | run | disable | disableTry | enable | notify | env => exact absurd ha id

theorem pollStep (h : Owed G s) (hP : CompletesOnce G) {t : P.In} {st : P.St}
    (hw : s.worker = .polling st) (hG : G st t s.dev) (hs : pollStep P s t st = .ok s') :
    Owed G s' := by
  obtain ⟨b, hst, hb⟩ := h.missed st hw
  unfold TrustedGateway.pollStep at hs
  split at hs
  · rename_i next hop
    cases hs
    refine ⟨h.enabled, h.sched, ?_⟩
    rintro st' hst'
    cases hst'
    exact ⟨b, .work hop hst hG, hb⟩
  · rename_i next hop
    cases hs
    -- it has not completed before, so the request was missed and keeps `SCHED` set
    have hf : b = false := by
      cases b with
      | false => rfl
      | true => exact absurd hop ((hP st hst).1 next)
    refine ⟨(disable_napiComplete s.napi).trans h.enabled, ?_, ?_⟩
    · exact (sched_napiComplete_of_missed h.enabled (hb hf)).trans h.sched
    · rintro st' hst'
      cases hst'
      exact ⟨true, .complete hop hst _, fun hf => (by cases hf)⟩
  · rename_i next hop
    cases hs
    refine ⟨(disable_napiSchedule s.napi).trans h.enabled, sched_napiSchedule_of_sched h.sched, ?_⟩
    rintro st' hst'
    cases hst'
    exact ⟨b, .schedule hop hst, fun _ => missed_napiSchedule h.enabled h.sched⟩
  · rename_i pkts hop
    split at hs
    · cases hs
      exact h.move ⟨rfl, rfl⟩ fun st hst => by cases hst
    · split at hs
      all_goals
        cases hs
        exact h.move ⟨rfl, rfl⟩ fun st hst => by cases hst
  · cases hs

/-- A step of `worker_run` that does not start a poll. -/
theorem workerRunStep (h : Owed G s) (hP : CompletesOnce G) {t : P.In}
    (hno : s.worker.isEnter = false) (hG : ∀ st ∈ s.worker.poll?, G st t s.dev)
    (hs : workerRunStep P s t = .ok s') : Owed G s' := by
  unfold TrustedGateway.workerRunStep at hs
  split at hs
  case h_8 hw =>
      rw [hw] at hno
      cases hno
  case h_9 st hw => exact h.pollStep hP hw (hG st (by rw [hw]; rfl)) hs
  case h_1 =>
      cases hs
      exact h
  all_goals
    try split at hs
    all_goals
      cases hs
      exact h.move ⟨rfl, rfl⟩ fun st hst => by cases hst

theorem notifyStep (h : Owed G s) : Owed G (notifyStep s) := by
  unfold TrustedGateway.notifyStep
  split
  · split
    · exact ⟨h.enabled, h.sched, h.missed⟩
    · exact h
  · exact ⟨h.enabled, h.sched, h.missed⟩
  · exact ⟨h.enabled, h.sched, h.missed⟩
  · refine ⟨h.enabled, h.sched, fun st hst => h.missed st ?_⟩
    cases hw : s.worker <;> rw [hw] at hst <;> first | exact hst | cases hst
  · exact ⟨h.enabled, h.sched, h.missed⟩

/-- A call of `napi_disable` that went on after its context was enabled either waits or
panics. -/
theorem disableTryStep (h : Owed G s) (hs : disableTryStep s = .ok s') : Owed G s' := by
  unfold TrustedGateway.disableTryStep at hs
  dsimp only at hs
  split at hs
  · rw [napiDisableTry_eq] at hs
    rw [if_pos (by simp only [h.enabled, Bool.not_false])] at hs
    cases hs
  · cases hs
    exact h

/-- **A step keeps the debt**, unless it is the poll itself or disables the context. -/
theorem step (hP : CompletesOnce G) (h : Owed G s) {a : P.Action} (hG : Meets G s a)
    (hno : startsPoll s a = false) (hdis : a.isDisable = false) (hs : wStep P s a = .ok s') :
    Owed G s' := by
  cases a with
  | run =>
    cases hs
    exact h.move ⟨rfl, rfl⟩ fun st hst => by cases hst
  | step t => exact h.workerRunStep hP hno hG hs
  | schedule =>
    cases hs
    refine ⟨(disable_napiSchedule s.napi).trans h.enabled, sched_napiSchedule_of_sched h.sched,
      fun st hst => ?_⟩
    obtain ⟨b, hst, -⟩ := h.missed st hst
    exact ⟨b, hst, fun _ => missed_napiSchedule h.enabled h.sched⟩
  | disable => cases hdis
  | disableTry => exact h.disableTryStep hs
  | enable =>
    obtain ⟨n, hn, rfl⟩ := exists_ok_of_map hs
    have hd := (napiEnable_ok hn).1
    rw [h.enabled] at hd
    cases hd
  | notify =>
    cases hs
    exact h.notifyStep
  | env dev =>
    cases hs
    exact ⟨h.enabled, h.sched, h.missed⟩

end Owed

/-! ## Main result -/

/-- A signal has been sent, or the notifier, which holds the mutex, is about to send it. -/
def SignalPending (s : P.Sys) : Prop := s.worker = .asleep true ∨ s.notifier = .signal

/-- The worker waits on its condition variable. -/
def Asleep (s : P.Sys) : Prop := ∃ b, s.worker = .asleep b

/-- The steps after a request to poll, up to the poll and while the context stays enabled. -/
def BeforePoll (s : P.Sys) (a : P.Action) : Prop :=
  WAllows s a ∧ a.isDisable = false ∧ startsPoll s a = false

instance (s : P.Sys) (a : P.Action) : Decidable (BeforePoll s a) :=
  inferInstanceAs (Decidable (WAllows s a ∧ a.isDisable = false ∧ startsPoll s a = false))

/-- **No wake-up is lost.**  A worker that sleeps while its context is scheduled has a kick or a
signal pending, and a call of `napi_schedule` on an enabled context keeps it scheduled until a poll
starts. -/
theorem wakeups_not_lost (hP : CompletesOnce P.anything) (dev : P.Dev) {as : List P.Action}
    {s : P.Sys} (hr : Run (wStep P) WAllows (wInit dev) as s) :
    (Asleep s → ¬ SignalPending s → s.napi.sched = true → s.napi.doNotify = true) ∧
      ∀ a s₁ bs s₂, s.napi.disable = false → CallsSchedule s a → WAllows s a →
        wStep P s a = .ok s₁ → Run (wStep P) BeforePoll s₁ bs s₂ → s₂.napi.sched = true := by
  have h : WorkerInv P.anything s :=
    (WorkerInv.init dev).run hP (hr.mono fun s a ha => ⟨ha, meets_anything s a⟩)
  constructor
  · rintro ⟨b, hw⟩ hsig hsched
    have hb : b = false := by
      cases b with
      | false => rfl
      | true => exact absurd (.inl hw) hsig
    refine h.kicked (fun hn => hsig (.inr hn)) ?_ hsched
    rw [hw, hb]
    rfl
  · intro a s₁ bs s₂ hd ha _ hs hrun
    have howed : Owed P.anything s₁ := Owed.of_schedule h hd ha hs
    have hend : Owed P.anything s₂ := hrun.inv
      (fun s a _ hI hg hs => hI.step hP (meets_anything s a) hg.2.2 hg.2.1 hs) howed
    exact hend.sched

/-- The worker of the virtual NIC, asleep after its first look at `SCHED`, and a kick pending. -/
def sleepingVnic : vnicPoll.Sys where
  napi := ⟨true, false, false, true, true⟩
  dev := ()
  isWaiting := true
  waitMtx := none
  worker := .asleep false
  notifier := .idle
  disablers := 0
  quiet := false

def sleepThenSchedule : List (WAction Unit ℤ) :=
  [.enable, .run, .step 0, .step 0, .step 0, .step 0, .schedule]

/-- The notifier wakes the worker up, which is then about to poll. -/
def wakeUp : List (WAction Unit ℤ) :=
  [.notify, .notify, .notify, .notify, .notify, .step 0, .step 0, .step 0]

theorem wakeups_not_lost_vnic :
    CompletesOnce vnicPoll.anything ∧ CompletesOnce fecEnetNapiQ1.anything ∧
      Run (wStep vnicPoll) WAllows (wInit ()) sleepThenSchedule sleepingVnic ∧
      sleepingVnic.napi.doNotify = true ∧
      ∃ s₁ s₂, wStep vnicPoll sleepingVnic .schedule = .ok s₁ ∧
        Run (wStep vnicPoll) BeforePoll s₁ wakeUp s₂ ∧ s₂.worker.isEnter = true ∧
          s₂.napi.sched = true := by
  have hr : Run (wStep vnicPoll) WAllows (wInit ()) sleepThenSchedule sleepingVnic :=
    exec_eq_some_iff.mp rfl
  have hsig : ¬ SignalPending sleepingVnic := by
    rintro (h | h) <;> cases h
  obtain ⟨hkick, hkeep⟩ := wakeups_not_lost completesOnce_vnicPoll () hr
  obtain ⟨s₂, hr₂, hw⟩ : ∃ s, Run (wStep vnicPoll) BeforePoll
      { sleepingVnic with napi := napiSchedule sleepingVnic.napi } wakeUp s ∧
        s.worker.isEnter = true := exists_run_of_exec (by decide +kernel)
  exact ⟨completesOnce_vnicPoll, completesOnce_fecEnetNapiQ1, hr, hkick ⟨false, rfl⟩ hsig rfl,
    _, s₂, rfl, hr₂, hw, hkeep .schedule _ _ s₂ rfl trivial trivial rfl hr₂⟩

end Invariant

end TrustedGateway
