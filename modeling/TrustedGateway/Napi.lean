import TrustedGateway.Machine

/-!
# NAPI contexts

The state bits of a polled device (`nettrug/napi/napi.c`).  Every operation is one
critical section of the context's spin lock.
-/

namespace TrustedGateway

/-- The `budget` of `worker_run`. -/
def pollBudget : ℤ := 100000

/-- `struct napi_struct`: the bits of `state`, and the pending kick. -/
structure Napi where
  sched : Bool
  missed : Bool
  disable : Bool
  wActive : Bool
  doNotify : Bool
  deriving DecidableEq, Repr

/-- `napi_schedule_prep_locked`: whether the worker has to be kicked. -/
def napiSchedulePrepLocked (n : Napi) : Bool × Napi :=
  if n.disable then (false, n)
  else if n.sched then (false, { n with missed := true })
  else (true, { n with sched := true, missed := false })

/-- `napi_schedule`. -/
def napiSchedule (n : Napi) : Napi :=
  let (kick, n) := napiSchedulePrepLocked n
  if kick then { n with doNotify := true } else n

/-- `napi_complete_done`: whether interrupts may be rearmed. -/
def napiComplete (n : Napi) : Bool × Napi :=
  if !n.disable && n.missed then (false, { n with missed := false })
  else (true, { n with sched := false })

/-- The first lock section of `napi_disable`. -/
def napiDisableSet (n : Napi) : Except Abort Napi :=
  if n.disable then .error (.panic "already disabled")
  else .ok { n with disable := true }

/-- One round of the loop of `napi_disable`: whether it ends, and the context. -/
def napiDisableTry (n : Napi) : Bool × Napi :=
  if !n.wActive then (true, { n with sched := false })
  else if n.sched then (false, n)
  else (true, n)

/-- `napi_disable` from the call to the return.  It waits until the worker has completed its
poll, so `SCHED` is clear when it returns. -/
def napiDisable (n : Napi) : Except Abort Napi :=
  if n.disable then .error (.panic "already disabled")
  else .ok { n with disable := true, sched := false }

/-- `napi_enable`. -/
def napiEnable (n : Napi) : Except Abort Napi :=
  if !n.disable then .error (.panic "enabling not-disabled")
  else if n.sched then .error (.panic "enabling already sched'd")
  else .ok { n with disable := false }

/-- A context as `netif_napi_add` leaves it. -/
def netifNapiAdd : Napi :=
  { sched := false, missed := false, disable := true, wActive := false, doNotify := false }

/-- Scheduling sets `SCHED` on an enabled context and never clears it. -/
theorem sched_napiSchedule (n : Napi) :
    (napiSchedule n).sched = (n.sched || !n.disable) := by
  rcases n with ⟨_ | _, _ | _, _ | _, _, _⟩ <;> rfl

variable {n : Napi}

theorem sched_napiSchedule_of_sched (hs : n.sched = true) : (napiSchedule n).sched = true := by
  rw [sched_napiSchedule, hs]
  rfl

theorem sched_napiSchedule_of_enabled (hd : n.disable = false) : (napiSchedule n).sched = true := by
  rw [sched_napiSchedule, hd, Bool.not_false, Bool.or_true]

theorem disable_napiSchedule (n : Napi) : (napiSchedule n).disable = n.disable := by
  rcases n with ⟨_ | _, _ | _, _ | _, _, _⟩ <;> rfl

theorem wActive_napiSchedule (n : Napi) : (napiSchedule n).wActive = n.wActive := by
  rcases n with ⟨_ | _, _ | _, _ | _, _, _⟩ <;> rfl

/-- A context that becomes scheduled gets a kick. -/
theorem doNotify_napiSchedule (hs : n.sched = false) (hs' : (napiSchedule n).sched = true) :
    (napiSchedule n).doNotify = true := by
  have hd : n.disable = false := by
    rw [sched_napiSchedule, hs] at hs'
    simpa using hs'
  simp only [napiSchedule, napiSchedulePrepLocked, hd, hs, Bool.false_eq_true, if_false, if_true]

theorem doNotify_napiSchedule_of_sched (hs : n.sched = true) :
    (napiSchedule n).doNotify = n.doNotify := by
  rcases n with ⟨_ | _, _ | _, _ | _, _, _⟩ <;> first | rfl | cases hs

theorem disable_napiComplete (n : Napi) : (napiComplete n).2.disable = n.disable := by
  rcases n with ⟨_, _ | _, _ | _, _, _⟩ <;> rfl

theorem wActive_napiComplete (n : Napi) : (napiComplete n).2.wActive = n.wActive := by
  rcases n with ⟨_, _ | _, _ | _, _, _⟩ <;> rfl

/-- Completing never sets `SCHED`. -/
theorem sched_napiComplete_of_false (hs : n.sched = false) : (napiComplete n).2.sched = false := by
  rcases n with ⟨_ | _, _ | _, _ | _, _, _⟩ <;> first | rfl | cases hs

theorem sched_napiComplete_of_not_done (h : (napiComplete n).1 = false) :
    (napiComplete n).2.sched = n.sched := by
  rcases n with ⟨_, _ | _, _ | _, _, _⟩ <;> first | rfl | cases h

/-- A missed request keeps an enabled context scheduled. -/
theorem sched_napiComplete_of_missed (hd : n.disable = false) (hm : n.missed = true) :
    (napiComplete n).2.sched = n.sched := by
  simp only [napiComplete, hd, hm, Bool.not_false, Bool.and_self, if_true]

/-- A round of `napi_disable` only changes `SCHED`, which it clears when there is no worker. -/
theorem napiDisableTry_eq (n : Napi) :
    (napiDisableTry n).2 = { n with sched := n.sched && n.wActive } := by
  rcases n with ⟨_ | _, _, _, _ | _, _⟩ <;> rfl

/-- The loop of `napi_disable` ends with `SCHED` clear. -/
theorem sched_of_napiDisableTry (h : (napiDisableTry n).1 = true) :
    (napiDisableTry n).2.sched = false := by
  rcases n with ⟨_ | _, _, _, _ | _, _⟩ <;> first | rfl | cases h

theorem napiDisableSet_ok {n' : Napi} (h : napiDisableSet n = .ok n') :
    n.disable = false ∧ n' = { n with disable := true } := by
  unfold napiDisableSet at h
  split at h
  · cases h
  · rename_i hd
    cases h
    exact ⟨Bool.eq_false_of_not_eq_true hd, rfl⟩

theorem napiEnable_ok {n' : Napi} (h : napiEnable n = .ok n') :
    n.disable = true ∧ n.sched = false ∧ n' = { n with disable := false } := by
  unfold napiEnable at h
  split at h
  · cases h
  · rename_i hd
    split at h
    · cases h
    · rename_i hs
      cases h
      exact ⟨by simpa using hd, Bool.eq_false_of_not_eq_true hs, rfl⟩

/-- Scheduling a context that is scheduled already is remembered. -/
theorem missed_napiSchedule (hd : n.disable = false) (hs : n.sched) : (napiSchedule n).missed := by
  simp only [napiSchedule, napiSchedulePrepLocked, hd, hs, if_true, Bool.false_eq_true, if_false]

end TrustedGateway
