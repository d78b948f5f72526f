import TrustedGateway.Lib.Run

/-!
# Batch loops with early exits

The loops of a driver walk a batch and may leave it early: by a `break`, by a
`return` out of the enclosing function, or by an abort.  `batch` is that loop for
a body that threads a state, and `Visits` names the states in which the body is
really started, so that a statement about an iteration never has to mention how
many came before it.

## Main definitions

* `Next` — how one iteration ends.
* `batch body as s` — the loop.
* `Visits body as s a t` — the loop started in `s` reaches the item `a` in state `t`.
* `batch_inv`, `batch_of_visit` — the loop invariant, from the start or from some visit on.
* `batch_gives` — the loop invariant with the aborts of the loop.
* `batch_post` — the loop invariant with another condition for the iterations that leave it.
* `batch_split` — the items a loop has taken are a prefix.
* `withLog`, `batch_withLog` — the loop with a log beside its state.
* `batch_rel` — two runs of one loop.
* `batch_iff`, `batch_ret_iff` — properties that only the last iteration can spoil.
* `exists_visit_of_ret` — where the value comes from that a loop is left with.
* `batch_lt_iff` — a counter tells whether some visited iteration met a condition.
-/

namespace BatchLoop

open StepSystem

universe u v w x
variable {σ : Type u} {α : Type v} {ρ : Type w} {ε : Type x}

/-- How an iteration ends: go on, leave the loop, or leave the function. -/
inductive Next (ρ : Type w)
  | cont
  | brk
  | ret (r : ρ)
  deriving DecidableEq, Repr

/-- The value an iteration leaves the enclosing function with. -/
def Next.value : Next ρ → Option ρ
  | ret r => some r
  | _ => none

/-- Run the body on each item in order.  The result says whether the enclosing
function was left, and with which value. -/
def batch (body : σ → α → Except ε (Next ρ × σ)) : List α → σ → Except ε (Option ρ × σ)
  | [], s => .ok (none, s)
  | a :: as, s =>
    match body s a with
    | .error e => .error e
    | .ok (.cont, s') => batch body as s'
    | .ok (.brk, s') => .ok (none, s')
    | .ok (.ret r, s') => .ok (some r, s')

/-- The loop over `as` started in `s` starts an iteration on `a` in state `t`. -/
inductive Visits (body : σ → α → Except ε (Next ρ × σ)) : List α → σ → α → σ → Prop
  | here (a : α) (as : List α) (s : σ) : Visits body (a :: as) s a s
  | next {a b : α} {as : List α} {s s' t : σ} (hb : body s a = .ok (.cont, s'))
      (hv : Visits body as s' b t) : Visits body (a :: as) s b t

variable {body : σ → α → Except ε (Next ρ × σ)} {as : List α} {s : σ}

@[simp] theorem batch_nil : batch body [] s = .ok (none, s) := rfl

variable {I : σ → Prop} {a : α} {r : Option ρ} {s' t : σ}

theorem batch_cons_cont (h : body s a = .ok (.cont, s')) :
    batch body (a :: as) s = batch body as s' := by
  simp only [batch, h]

theorem batch_cons_brk (h : body s a = .ok (.brk, s')) :
    batch body (a :: as) s = .ok (none, s') := by
  simp only [batch, h]

theorem batch_cons_ret {r : ρ} (h : body s a = .ok (.ret r, s')) :
    batch body (a :: as) s = .ok (some r, s') := by
  simp only [batch, h]

theorem batch_cons_error {e : ε} (h : body s a = .error e) : batch body (a :: as) s = .error e := by
  simp only [batch, h]

theorem not_visits_nil {b : α} : ¬ Visits body [] s b t := nofun

/-- What a loop visits: its first item, and after an iteration that went on what
the rest of the loop visits. -/
theorem visits_cons_iff {b : α} :
    Visits body (a :: as) s b t ↔
      (b = a ∧ t = s) ∨ ∃ s', body s a = .ok (.cont, s') ∧ Visits body as s' b t := by
  constructor
  · intro h
    cases h with
    | here => exact .inl ⟨rfl, rfl⟩
    | next hb hv => exact .inr ⟨_, hb, hv⟩
  · rintro (⟨rfl, rfl⟩ | ⟨s', hb, hv⟩)
    · exact .here _ _ _
    · exact .next hb hv

/-- After an iteration that leaves the loop nothing is visited. -/
theorem visits_cons_of_exit {b : α} {n : Next ρ} (hn : n ≠ .cont) (hb : body s a = .ok (n, s')) :
    Visits body (a :: as) s b t ↔ b = a ∧ t = s := by
  rw [visits_cons_iff]
  refine or_iff_left ?_
  rintro ⟨s'', hb', -⟩
  rw [hb] at hb'
  cases hb'
  exact hn rfl

theorem visits_cons_of_cont {b : α} (hb : body s a = .ok (.cont, s')) :
    Visits body (a :: as) s b t ↔ (b = a ∧ t = s) ∨ Visits body as s' b t := by
  rw [visits_cons_iff, hb]
  simp

/-- Only items of the batch are visited. -/
theorem Visits.mem (h : Visits body as s a t) : a ∈ as := by
  induction h with
  | here a as s => exact List.mem_cons_self
  | next hb hv ih => exact List.mem_cons_of_mem _ ih

/-- How a loop that does not abort goes on: the first iteration ends it, or the rest of the
loop does. -/
theorem batch_cons_eq_ok (h : batch body (a :: as) s = .ok (r, t)) :
    (∃ n, n ≠ .cont ∧ body s a = .ok (n, t) ∧ r = n.value) ∨
      ∃ s', body s a = .ok (.cont, s') ∧ batch body as s' = .ok (r, t) := by
  rcases hb : body s a with e | ⟨_ | _ | r', s'⟩
  · rw [batch_cons_error hb] at h
    cases h
  · rw [batch_cons_cont hb] at h
    exact .inr ⟨s', rfl, h⟩
  · rw [batch_cons_brk hb] at h
    cases h
    exact .inl ⟨.brk, nofun, rfl, rfl⟩
  · rw [batch_cons_ret hb] at h
    cases h
    exact .inl ⟨.ret r', nofun, rfl, rfl⟩

/-- **The loop invariant.**  A predicate that every visited iteration keeps, however it ends,
holds in every state the loop visits and in the state it leaves behind. -/
theorem batch_inv (as : List α) (s : σ) (h0 : I s)
    (hbody : ∀ t a n t', Visits body as s a t → I t → body t a = .ok (n, t') → I t') :
    (∀ a t, Visits body as s a t → I t) ∧
      ∀ r t, batch body as s = .ok (r, t) → I t := by
  induction as generalizing s with
  | nil =>
    refine ⟨fun a t h => absurd h not_visits_nil, fun r t h => ?_⟩
    simp only [batch_nil, Except.ok.injEq, Prod.mk.injEq] at h
    exact h.2 ▸ h0
  | cons a as ih =>
    have hnext : ∀ s', body s a = .ok (.cont, s') →
        (∀ a t, Visits body as s' a t → I t) ∧
          ∀ r t, batch body as s' = .ok (r, t) → I t := by
      intro s' hb
      exact ih s' (hbody s a .cont s' (.here a as s) h0 hb)
        fun t b n t' hv => hbody t b n t' (.next hb hv)
    refine ⟨fun b t h => ?_, fun r t h => ?_⟩
    · rcases visits_cons_iff.mp h with ⟨rfl, rfl⟩ | ⟨s', hb, hv⟩
      · exact h0
      · exact (hnext s' hb).1 b t hv
    · rcases batch_cons_eq_ok h with ⟨n, -, hb, -⟩ | ⟨s', hb, hrest⟩
      · exact hbody s a n t (.here a as s) h0 hb
      · exact (hnext s' hb).2 r t hrest

/-- The loop invariant together with the aborts: what every iteration may give from a state
of the invariant, the loop may give. -/
theorem batch_gives {E : ε → Prop} (hbody : ∀ t a, I t → Gives E (fun p => I p.2) (body t a))
    (as : List α) (s : σ) (h0 : I s) : Gives E (fun p => I p.2) (batch body as s) := by
  induction as generalizing s with
  | nil => exact h0
  | cons a as ih =>
    have h := hbody s a h0
    rcases hb : body s a with e | ⟨n, s'⟩
    · rw [hb] at h
      rw [batch_cons_error hb]
      exact h
    · rw [hb] at h
      cases n with
      | cont =>
        rw [batch_cons_cont hb]
        exact ih s' h
      | brk =>
        rw [batch_cons_brk hb]
        exact h
      | ret r =>
        rw [batch_cons_ret hb]
        exact h

/-- The loop invariant where an iteration that leaves the loop need not keep it: it only has to
give the postcondition `J`, for the value it leaves with.  The invariant may speak about the
items that are left. -/
theorem batch_post {I : List α → σ → Prop} {J : Option ρ → σ → Prop}
    (hend : ∀ t, I [] t → J none t)
    (hcont : ∀ a as t t', I (a :: as) t → body t a = .ok (.cont, t') → I as t')
    (hexit : ∀ a as t n t', n ≠ .cont → I (a :: as) t → body t a = .ok (n, t') → J n.value t')
    (as : List α) (s : σ) (h0 : I as s) (h : batch body as s = .ok (r, t)) : J r t := by
  induction as generalizing s with
  | nil =>
    cases h
    exact hend _ h0
  | cons a as ih =>
    rcases batch_cons_eq_ok h with ⟨n, hn, hb, rfl⟩ | ⟨s', hb, hrest⟩
    · exact hexit a as s n t hn h0 hb
    · exact ih s' (hcont a as s s' h0 hb) hrest

/-- **A loop takes a prefix of its items.**  An iteration that goes on has taken its item; one
that leaves the loop has taken it or not.  `P` is kept while items are taken, `Q` holds in the
end of the items taken and of those left. -/
theorem batch_split {P : List α → σ → Prop} {Q : List α → List α → σ → Prop}
    (hend : ∀ done t, P done t → Q done [] t)
    (hcont : ∀ done a t t', P done t → body t a = .ok (.cont, t') → P (done ++ [a]) t')
    (hexit : ∀ done a todo t n t', n ≠ .cont → P done t → body t a = .ok (n, t') →
      Q done (a :: todo) t' ∨ Q (done ++ [a]) todo t') (as : List α) (s : σ) (h0 : P [] s)
    (h : batch body as s = .ok (r, t)) : ∃ done todo, as = done ++ todo ∧ Q done todo t := by
  refine batch_post (I := fun todo t => ∃ done, as = done ++ todo ∧ P done t)
    (J := fun _ t => ∃ done todo, as = done ++ todo ∧ Q done todo t) ?_ ?_ ?_ as s ⟨[], rfl, h0⟩ h
  · rintro t ⟨done, has, hP⟩
    exact ⟨done, [], has, hend done t hP⟩
  · rintro a todo t t' ⟨done, has, hP⟩ hb
    exact ⟨done ++ [a], by simp [has], hcont done a t t' hP hb⟩
  · rintro a todo t n t' hn ⟨done, has, hP⟩ hb
    rcases hexit done a todo t n t' hn hP hb with hQ | hQ
    · exact ⟨done, a :: todo, has, hQ⟩
    · exact ⟨done ++ [a], todo, by simp [has], hQ⟩

/-- In a loop that does not abort, no visited iteration does. -/
theorem body_ok_of_visit {u : σ} (hv : Visits body as s a u) (h : batch body as s = .ok (r, t)) :
    ∃ n u', body u a = .ok (n, u') := by
  induction hv with
  | here a as s =>
    rcases batch_cons_eq_ok h with ⟨n, -, hb, -⟩ | ⟨s', hb, -⟩
    · exact ⟨n, t, hb⟩
    · exact ⟨.cont, s', hb⟩
  | next hb hv ih =>
    rw [batch_cons_cont hb] at h
    exact ih h

/-- What holds after some visited iteration and is kept by every later one holds at the
end. -/
theorem batch_of_visit {Q : σ → Prop} {u u' : σ} {n : Next ρ} (hv : Visits body as s a u)
    (hu : body u a = .ok (n, u')) (hQ : Q u')
    (hbody : ∀ v b n v', Q v → body v b = .ok (n, v') → Q v') (h : batch body as s = .ok (r, t)) :
    Q t := by
  induction hv with
  | here a as s =>
    rcases batch_cons_eq_ok h with ⟨n', -, hb, -⟩ | ⟨s', hb, hrest⟩
    · rw [hu] at hb
      cases hb
      exact hQ
    · rw [hu] at hb
      cases hb
      exact (batch_inv as _ hQ fun v b n v' _ => hbody v b n v').2 r t hrest
  | next hb hv ih =>
    rw [batch_cons_cont hb] at h
    exact ih hu h

/-- The value a loop is left with comes from a visited iteration, which is the last one. -/
theorem exists_visit_of_ret {r : ρ} (h : batch body as s = .ok (some r, t)) :
    ∃ a u, Visits body as s a u ∧ body u a = .ok (.ret r, t) := by
  induction as generalizing s with
  | nil => cases h
  | cons a as ih =>
    rcases batch_cons_eq_ok h with ⟨n, -, hb, hr⟩ | ⟨s', hb, hrest⟩
    · cases n with
      | ret r' =>
        cases hr
        exact ⟨a, s, .here a as s, hb⟩
      | _ => cases hr
    · obtain ⟨b, u, hv, hu⟩ := ih hrest
      exact ⟨b, u, .next hb hv, hu⟩

/-- The loop is left with a value exactly when some visited iteration leaves it so. -/
theorem batch_ret_iff (h : batch body as s = .ok (r, t)) :
    r ≠ none ↔ ∃ a u r' u', Visits body as s a u ∧ body u a = .ok (.ret r', u') := by
  constructor
  · intro hne
    obtain ⟨r', rfl⟩ := Option.ne_none_iff_exists'.mp hne
    obtain ⟨a, u, hv, hu⟩ := exists_visit_of_ret h
    exact ⟨a, u, r', t, hv, hu⟩
  · rintro ⟨a, u, r', u', hv, hu⟩
    induction hv with
    | here a as s =>
      rw [batch_cons_ret hu] at h
      cases h
      exact Option.some_ne_none r'
    | next hb hv ih =>
      rw [batch_cons_cont hb] at h
      exact ih h hu

/-- **Two runs of one loop.**  If related states make every visited iteration end
the same way in related states, the two loops do. -/
theorem batch_rel {R : σ → σ → Prop} (as : List α) (s t : σ) (h0 : R s t)
    (hbody : ∀ a u u', Visits body as s a u → R u u' →
      SameEnd (SameTag R) (body u a) (body u' a)) :
    SameEnd (SameTag R) (batch body as s) (batch body as t) := by
  induction as generalizing s t with
  | nil => exact ⟨rfl, h0⟩
  | cons a as ih =>
    have h := hbody a s t (.here a as s) h0
    rcases hs : body s a with e | ⟨n, s'⟩ <;> rcases ht : body t a with e' | ⟨n', t'⟩ <;>
      simp only [hs, ht, SameEnd, SameTag] at h
    · rw [batch_cons_error hs, batch_cons_error ht]
      exact h
    · obtain ⟨rfl, hR⟩ := h
      cases n with
      | cont =>
        rw [batch_cons_cont hs, batch_cons_cont ht]
        exact ih s' t' hR fun b u u' hv hu => hbody b u u' (.next hs hv) hu
      | brk => rw [batch_cons_brk hs, batch_cons_brk ht]; exact ⟨rfl, hR⟩
      | ret r => rw [batch_cons_ret hs, batch_cons_ret ht]; exact ⟨rfl, hR⟩

/-- **A property only the last iteration can spoil.**  If every iteration that goes
on meets `c` and keeps `J`, and an iteration that leaves the loop keeps `J` exactly
when it meets `c`, then the loop ends in `J` exactly when every visited iteration
meets `c`. -/
theorem batch_iff {J : σ → Prop} {c : σ → α → Prop} (as : List α) (s : σ) (h0 : J s)
    (hcont : ∀ a t t', J t → body t a = .ok (.cont, t') → c t a ∧ J t')
    (hexit : ∀ a t n t', n ≠ .cont → J t → body t a = .ok (n, t') → (J t' ↔ c t a))
    (h : batch body as s = .ok (r, t)) : J t ↔ ∀ a u, Visits body as s a u → c u a := by
  induction as generalizing s with
  | nil =>
    cases h
    exact ⟨fun _ a u hv => absurd hv not_visits_nil, fun _ => h0⟩
  | cons a as ih =>
    rcases batch_cons_eq_ok h with ⟨n, hn, hb, -⟩ | ⟨s', hb, hrest⟩
    · simp [hexit a s n t hn h0 hb, visits_cons_of_exit hn hb]
    · obtain ⟨hc, hJ⟩ := hcont a s s' h0 hb
      simp [ih s' hJ hrest, visits_cons_of_cont hb, or_imp, forall_and, hc]

/-- **Counting visits.**  A counter that an iteration raises by one exactly when it meets `p`,
and leaves alone otherwise, has been raised at the end exactly when some visited iteration
met `p`. -/
theorem batch_lt_iff {f : σ → ℕ} {p : σ → α → Prop} (as : List α) (s : σ)
    (hstep : ∀ a t n t', body t a = .ok (n, t') → (p t a ∧ f t' = f t + 1) ∨ (¬ p t a ∧ f t' = f t))
    (h : batch body as s = .ok (r, t)) : f s < f t ↔ ∃ a u, Visits body as s a u ∧ p u a := by
  have hle : ∀ as s, batch body as s = .ok (r, t) → f s ≤ f t := by
    intro as s hb
    refine (batch_inv (I := fun u => f s ≤ f u) as s le_rfl ?_).2 r t hb
    intro u a n u' _ hu hbody
    rcases hstep a u n u' hbody with ⟨-, hf⟩ | ⟨-, hf⟩ <;> omega
  induction as generalizing s with
  | nil =>
    cases h
    exact ⟨fun hlt => absurd hlt (lt_irrefl _), fun ⟨_, _, hv, _⟩ => absurd hv not_visits_nil⟩
  | cons a as ih =>
    rcases batch_cons_eq_ok h with ⟨n, hn, hb, -⟩ | ⟨s', hb, hrest⟩
    · rcases hstep a s n t hb with ⟨hp, hf⟩ | ⟨hp, hf⟩ <;>
        simp [visits_cons_of_exit hn hb, hp, hf]
    · rcases hstep a s .cont s' hb with ⟨hp, hf⟩ | ⟨hp, hf⟩
      · exact ⟨fun _ => ⟨a, s, .here a as s, hp⟩, fun _ => by have := hle as s' hrest; omega⟩
      · rw [← hf]
        refine (ih s' hrest).trans ?_
        simp [visits_cons_of_cont hb, or_and_right, exists_or, hp]

/-- A loop over the numbers below `n` whose iterations raise a counter by at most one: the
number of the iteration bounds the counter. -/
theorem Visits.le_of_range {body : σ → ℕ → Except ε (Next ρ × σ)} {f : σ → ℕ}
    (hstep : ∀ k t t', body t k = .ok (.cont, t') → f t' ≤ f t + 1) {n k : ℕ} {s : σ} (h0 : f s = 0)
    (h : Visits body (List.range n) s k t) : f t ≤ k ∧ k < n := by
  have hgen : ∀ m i s, f s ≤ i → Visits body (List.range' i m) s k t → f t ≤ k ∧ k < i + m := by
    intro m
    induction m with
    | zero =>
      intro i s _ hv
      exact absurd hv not_visits_nil
    | succ m ih =>
      intro i s hle hv
      rw [List.range'_succ] at hv
      rcases visits_cons_iff.mp hv with ⟨rfl, rfl⟩ | ⟨s', hb, hv'⟩
      · exact ⟨hle, by omega⟩
      · have hnext := hstep i s s' hb
        have := ih (i + 1) s' (by omega) hv'
        omega
  rw [List.range_eq_range'] at h
  simpa using hgen n 0 s h0.le h

/-! ## A log beside the loop -/

variable {ι : Type*}

/-- The body with a log: an iteration adds what `log` says of the state it starts in. -/
def withLog (log : σ → α → List ι) (body : σ → α → Except ε (Next ρ × σ)) (p : σ × List ι)
    (a : α) : Except ε (Next ρ × (σ × List ι)) :=
  (body p.1 a).map fun q => (q.1, q.2, p.2 ++ log p.1 a)

theorem withLog_eq_ok {log : σ → α → List ι} {p p' : σ × List ι} {n : Next ρ}
    (h : withLog log body p a = .ok (n, p')) :
    body p.1 a = .ok (n, p'.1) ∧ p'.2 = p.2 ++ log p.1 a := by
  unfold withLog at h
  cases hb : body p.1 a with
  | error e => rw [hb] at h; cases h
  | ok q =>
    rw [hb] at h
    cases h
    exact ⟨rfl, rfl⟩

/-- Forgetting the log gives the loop. -/
theorem batch_withLog (log : σ → α → List ι) (as : List α) (s : σ) (l : List ι) :
    (batch (withLog log body) as (s, l)).map (fun q => (q.1, q.2.1)) = batch body as s := by
  induction as generalizing s l with
  | nil => rfl
  | cons a as ih =>
    have hlog : withLog log body (s, l) a =
        (body s a).map fun q => (q.1, q.2, l ++ log s a) := rfl
    rcases hb : body s a with e | ⟨_ | _ | r, s'⟩ <;> rw [hb] at hlog
    · rw [batch_cons_error hb, batch_cons_error hlog]
      rfl
    · rw [batch_cons_cont hb, batch_cons_cont hlog]
      exact ih s' _
    · rw [batch_cons_brk hb, batch_cons_brk hlog]
      rfl
    · rw [batch_cons_ret hb, batch_cons_ret hlog]
      rfl

end BatchLoop
