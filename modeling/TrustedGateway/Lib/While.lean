import Mathlib.Order.WellFounded

/-!
# Loops that are left by a condition

A loop runs its body as long as a condition on the state holds.  The body may differ from
round to round, because it meets an environment that does.  Whether such a loop is left is
settled by two rules: it is if every round lowers a measure, and it is not if it reaches a
state from which the condition stays true.

## Main definitions

* `rounds body go n s` — the state after at most `n` rounds.
* `Starts body go s n t` — round `n` is started in state `t`.
* `Returns body go s` — the loop is left.

## Main results

* `returns_of_measure` — a loop whose rounds lower a measure is left.
* `not_returns_of_stays` — a loop that comes to a state it cannot leave is not.
-/

namespace WhileLoop

universe u v w
variable {σ : Type u} {ε : Type v}

/-- The state after at most `n` rounds, started in `s`; the rounds are counted from `0`. -/
def rounds (body : ℕ → σ → Except ε σ) (go : σ → Bool) : ℕ → σ → Except ε σ
  | 0, s => .ok s
  | n + 1, s =>
    match rounds body go n s with
    | .error e => .error e
    | .ok t => if go t then body n t else .ok t

/-- Round `n` of the loop started in `s` is started in `t`. -/
def Starts (body : ℕ → σ → Except ε σ) (go : σ → Bool) (s : σ) (n : ℕ) (t : σ) : Prop :=
  rounds body go n s = .ok t ∧ go t

/-- The loop started in `s` is left after finitely many rounds, and not by an abort. -/
def Returns (body : ℕ → σ → Except ε σ) (go : σ → Bool) (s : σ) : Prop :=
  ∃ n t, rounds body go n s = .ok t ∧ ¬ go t

variable {body : ℕ → σ → Except ε σ} {go : σ → Bool} {s t : σ} {n : ℕ}

theorem rounds_succ_of_go (h : rounds body go n s = .ok t) (hg : go t) :
    rounds body go (n + 1) s = body n t := by
  simp only [rounds, h, hg, if_true]

theorem rounds_succ_of_left (h : rounds body go n s = .ok t) (hg : ¬ go t) :
    rounds body go (n + 1) s = .ok t := by
  simp only [rounds, h, hg, Bool.false_eq_true, if_false]

/-- A loop that has been left stays left. -/
theorem rounds_add_of_left (h : rounds body go n s = .ok t) (hg : ¬ go t) (k : ℕ) :
    rounds body go (n + k) s = .ok t := by
  induction k with
  | zero => exact h
  | succ k ih => exact rounds_succ_of_left ih hg

/-- The rounds before a good one were good. -/
theorem exists_rounds_of_le {m : ℕ} (h : rounds body go n s = .ok t) (hle : m ≤ n) :
    ∃ u, rounds body go m s = .ok u := by
  induction n generalizing t with
  | zero =>
    obtain rfl := Nat.le_zero.mp hle
    exact ⟨t, h⟩
  | succ n ih =>
    rcases Nat.lt_or_ge n m with hlt | hge
    · obtain rfl : m = n + 1 := by omega
      exact ⟨t, h⟩
    · cases hn : rounds body go n s with
      | error e =>
        simp only [rounds, hn] at h
        cases h
      | ok u => exact ih hn hge

/-- A loop that has been left was not started again. -/
theorem Starts.lt_of_left {m : ℕ} {u : σ} (h : Starts body go s n t)
    (hm : rounds body go m s = .ok u) (hg : ¬ go u) : n < m := by
  by_contra hle
  obtain ⟨k, rfl⟩ := Nat.exists_eq_add_of_le (not_lt.mp hle)
  have hn := h.1
  rw [rounds_add_of_left hm hg k] at hn
  cases hn
  exact hg h.2

/-- In a loop that is left no round aborts. -/
theorem Returns.body_ok (h : Returns body go s) (ht : Starts body go s n t) :
    ∃ t', body n t = .ok t' := by
  obtain ⟨m, u, hm, hg⟩ := h
  have hlt := ht.lt_of_left hm hg
  obtain ⟨t', ht'⟩ := exists_rounds_of_le hm (Nat.succ_le_of_lt hlt)
  rw [rounds_succ_of_go ht.1 ht.2] at ht'
  exact ⟨t', ht'⟩

/-- **Leaving a loop.**  If every round that is started ends well, and lowers the measure
unless it is the last one, the loop is left. -/
theorem returns_of_measure {β : Type w} {r : β → β → Prop} (hwf : WellFounded r) (μ : σ → β)
    (h : ∀ n t, Starts body go s n t → ∃ t', body n t = .ok t' ∧ (go t' → r (μ t') (μ t))) :
    Returns body go s := by
  have hfrom : ∀ b n t, μ t = b → rounds body go n s = .ok t → Returns body go s := by
    intro b
    induction b using hwf.induction with
    | _ b ih =>
      intro n t hb hn
      by_cases hg : go t
      · obtain ⟨t', hbody, hlt⟩ := h n t ⟨hn, hg⟩
        have hnext : rounds body go (n + 1) s = .ok t' := by
          rw [rounds_succ_of_go hn hg, hbody]
        by_cases hg' : go t'
        · exact ih (μ t') (hb ▸ hlt hg') (n + 1) t' rfl hnext
        · exact ⟨n + 1, t', hnext, hg'⟩
      · exact ⟨n, t, hn, hg⟩
  exact hfrom (μ s) 0 s rfl rfl

/-- What every round keeps that does not end the loop holds wherever a round starts. -/
theorem Starts.inv {I : σ → Prop} (ht : Starts body go s n t) (h0 : I s)
    (hstep : ∀ m u u', go u → I u → body m u = .ok u' → go u' → I u') : I t := by
  induction n generalizing t with
  | zero =>
    cases ht.1
    exact h0
  | succ n ih =>
    obtain ⟨hn, hg⟩ := ht
    obtain ⟨u, hu⟩ := exists_rounds_of_le hn (Nat.le_succ n)
    by_cases hgu : go u
    · rw [rounds_succ_of_go hu hgu] at hn
      exact hstep n u t hgu (ih ⟨hu, hgu⟩) hn hg
    · rw [rounds_succ_of_left hu hgu] at hn
      cases hn
      exact absurd hg hgu

/-- **Not leaving a loop.**  If a round is started in a state of `I`, and `I` keeps the
condition true as long as the rounds end well, the loop is not left. -/
theorem not_returns_of_stays {I : σ → Prop} (ht : Starts body go s n t) (hI : I t)
    (hstep : ∀ m u u', go u → I u → body m u = .ok u' → go u' ∧ I u') :
    ¬ Returns body go s := by
  rintro ⟨m, u, hm, hg⟩
  obtain ⟨k, rfl⟩ := Nat.exists_eq_add_of_le (Nat.le_of_lt (ht.lt_of_left hm hg))
  have hstay : ∀ k u, rounds body go (n + k) s = .ok u → go u ∧ I u := by
    intro k
    induction k with
    | zero =>
      intro u hu
      have hn := ht.1
      rw [Nat.add_zero, hn] at hu
      cases hu
      exact ⟨ht.2, hI⟩
    | succ k ih =>
      intro u hu
      obtain ⟨v, hv⟩ := exists_rounds_of_le hu (Nat.le_succ (n + k))
      obtain ⟨hgv, hIv⟩ := ih v hv
      rw [← Nat.add_assoc, rounds_succ_of_go hv hgv] at hu
      exact hstep (n + k) v u hgv hIv hu
  exact hg (hstay k u hm).1

end WhileLoop
