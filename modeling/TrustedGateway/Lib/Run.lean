import Mathlib.Data.List.Infix

/-!
# Guarded runs of a step function that may abort

A system is a step function into `Except`: a step either gives the next state or
aborts.  `Run step G s is t` says that the inputs `is` lead from `s` to `t`
without an abort, with every input meeting the guard `G` in the state it is
applied to.  The unguarded system is `G := fun _ _ => True`.

A property of every reachable state is proved with `Run.inv` or `Run.always`, and
two computations are compared with `SameEnd`.

## Main definitions

* `Run step G` — the guarded runs.
* `Run.inv` — what every guarded step keeps, every guarded run keeps.
* `Run.always_iff`, `Run.iff_always` — the guard is exactly what a property needs along a run.
* `Run.always` — an invariant of a guarded run gives a property of all its states.
* `EachStep step P s is` — `P` holds of every input, up to the first that aborts.
* `exec` — the executable form of a guarded run.
* `Gives E Q x` — what the aborts and the results of a computation meet.
* `SameEnd`, `SameEnd.bind` — two computations that abort alike or end in related results.
-/

namespace StepSystem

universe u v w
variable {σ : Type u} {ι : Type v} {ε : Type w}

/-- The inputs lead from the first state to the last one, each of them admitted
by the guard and none of them aborting. -/
inductive Run (step : σ → ι → Except ε σ) (G : σ → ι → Prop) : σ → List ι → σ → Prop
  | nil (s : σ) : Run step G s [] s
  | cons {s s' t : σ} {i : ι} {is : List ι} (hg : G s i) (hs : step s i = .ok s')
      (hr : Run step G s' is t) : Run step G s (i :: is) t

variable {step : σ → ι → Except ε σ} {G : σ → ι → Prop}

namespace Run

variable {is js : List ι} {s t u : σ}

/-- **Invariants along a run.**  A predicate that every admitted step keeps holds
at the end of every run that starts in it. -/
theorem inv {I : σ → Prop} (hstep : ∀ s i s', I s → G s i → step s i = .ok s' → I s')
    (hr : Run step G s is t) (h0 : I s) : I t := by
  induction hr with
  | nil s => exact h0
  | cons hg hs _ ih => exact ih (hstep _ _ _ h0 hg hs)

/-- Runs compose. -/
theorem append (h₁ : Run step G s is t) (h₂ : Run step G t js u) : Run step G s (is ++ js) u := by
  induction h₁ with
  | nil s => exact h₂
  | cons hg hs _ ih => exact .cons hg hs (ih h₂)

/-- One admitted step at the end. -/
theorem snoc {i : ι} (h : Run step G s is t) (hg : G t i) (hs : step t i = .ok u) :
    Run step G s (is ++ [i]) u :=
  h.append (.cons hg hs (.nil u))

/-- A run over a concatenation passes through a middle state. -/
theorem split (h : Run step G s (is ++ js) u) : ∃ t, Run step G s is t ∧ Run step G t js u := by
  induction is generalizing s with
  | nil => exact ⟨s, .nil s, h⟩
  | cons i is ih =>
    cases h with
    | cons hg hs hr =>
      obtain ⟨t, h₁, h₂⟩ := ih hr
      exact ⟨t, .cons hg hs h₁, h₂⟩

/-- The last step of a run. -/
theorem snoc_iff {i : ι} :
    Run step G s (is ++ [i]) u ↔ ∃ t, Run step G s is t ∧ G t i ∧ step t i = .ok u := by
  constructor
  · intro h
    obtain ⟨t, h₁, h₂⟩ := h.split
    cases h₂ with
    | cons hg hs hr =>
      cases hr
      exact ⟨t, h₁, hg, hs⟩
  · rintro ⟨t, h₁, hg, hs⟩
    exact h₁.snoc hg hs

/-- A weaker guard admits more runs. -/
theorem mono {G' : σ → ι → Prop} (hG : ∀ s i, G s i → G' s i) (h : Run step G s is t) :
    Run step G' s is t := by
  induction h with
  | nil s => exact .nil s
  | cons hg hs _ ih => exact .cons (hG _ _ hg) hs ih

/-- The prefix of a run is a run. -/
theorem of_prefix (h : Run step G s is t) (hj : js <+: is) : ∃ u, Run step G s js u := by
  obtain ⟨ks, rfl⟩ := hj
  obtain ⟨u, hu, -⟩ := h.split
  exact ⟨u, hu⟩

/-- A step function gives at most one end for each list of inputs. -/
theorem unique {G' : σ → ι → Prop} (h₁ : Run step G s is t) (h₂ : Run step G' s is u) : t = u := by
  induction h₁ with
  | nil s => cases h₂; rfl
  | cons hg hs _ ih =>
    cases h₂ with
    | cons hg' hs' hr' =>
      rw [hs] at hs'
      cases hs'
      exact ih hr'

end Run

/-- `P` holds in every state the inputs lead through from `s`, the first and the last one
included. -/
def Always (step : σ → ι → Except ε σ) (P : σ → Prop) (s : σ) (is : List ι) : Prop :=
  ∀ js t, js <+: is → Run step (fun _ _ => True) s js t → P t

variable {I P : σ → Prop} {is : List ι} {s t : σ} {α β γ : Type*}

theorem always_nil : Always step P s [] ↔ P s := by
  constructor
  · intro h
    exact h [] s (List.prefix_refl []) (.nil s)
  · intro h js t hj hr
    rw [List.prefix_nil.mp hj] at hr
    cases hr
    exact h

theorem always_cons {s' : σ} {i : ι} (hs : step s i = .ok s') :
    Always step P s (i :: is) ↔ P s ∧ Always step P s' is := by
  constructor
  · intro h
    refine ⟨h [] s List.nil_prefix (.nil s), fun js t hj hr => ?_⟩
    exact h (i :: js) t (List.cons_prefix_cons.mpr ⟨rfl, hj⟩) (.cons trivial hs hr)
  · rintro ⟨h0, h⟩ js t hj hr
    cases hr with
    | nil => exact h0
    | cons hg hs' hr' =>
      obtain ⟨rfl, hj'⟩ := List.cons_prefix_cons.mp hj
      rw [hs] at hs'
      cases hs'
      exact h _ t hj' hr'

/-- **The exact guard of a property.**  If admitted steps keep an invariant that implies `P`,
and from the invariant only an admitted step leads to `P`, then `P` holds all along a run
exactly when the guard admits every step of it. -/
theorem Run.always_iff (hkeep : ∀ s i s', I s → G s i → step s i = .ok s' → I s')
    (hneed : ∀ s i s', I s → step s i = .ok s' → P s' → G s i) (hIP : ∀ s, I s → P s)
    (hr : Run step (fun _ _ => True) s is t) (h0 : I s) :
    Always step P s is ↔ Run step G s is t := by
  induction hr with
  | nil s => exact ⟨fun _ => .nil s, fun _ => always_nil.mpr (hIP s h0)⟩
  | @cons s s' t i is hg hs hr ih =>
    rw [always_cons hs]
    constructor
    · rintro ⟨-, h⟩
      have hP' : P s' := h [] s' List.nil_prefix (.nil s')
      have hG : G s i := hneed s i s' h0 hs hP'
      exact .cons hG hs ((ih (hkeep s i s' h0 hG hs)).mp h)
    · intro h
      cases h with
      | cons hg' hs' hr' =>
        rw [hs] at hs'
        cases hs'
        exact ⟨hIP s h0, (ih (hkeep s i s' h0 hg' hs)).mpr hr'⟩

/-- The same for a property that is its own invariant.  `A` collects what holds in every
reachable state anyway. -/
theorem Run.iff_always {A : σ → Prop} (hA : ∀ s i s', A s → step s i = .ok s' → A s')
    (hP : ∀ s i s', A s → P s → step s i = .ok s' → (P s' ↔ G s i))
    (hr : Run step (fun _ _ => True) s is t) (hA0 : A s) (hP0 : P s) :
    Always step P s is ↔ Run step G s is t := by
  refine Run.always_iff (I := fun s => A s ∧ P s) ?_ ?_ (fun s h => h.2) hr ⟨hA0, hP0⟩
  · rintro s i s' ⟨hAs, hPs⟩ hG hs
    exact ⟨hA s i s' hAs hs, (hP s i s' hAs hPs hs).mpr hG⟩
  · rintro s i s' ⟨hAs, hPs⟩ hs hP'
    exact (hP s i s' hAs hPs hs).mp hP'

/-- A property of every state that a guarded run reaches, from an invariant that implies
it. -/
theorem Run.always (hstep : ∀ s i s', I s → G s i → step s i = .ok s' → I s') (hIP : ∀ s, I s → P s)
    (hr : Run step G s is t) (h0 : I s) : Always step P s is := by
  induction hr with
  | nil s => exact always_nil.mpr (hIP s h0)
  | cons hg hs _ ih => exact (always_cons hs).mpr ⟨hIP _ h0, ih (hstep _ _ _ h0 hg hs)⟩

/-- `P` holds of every input in the state it is applied to.  An input that aborts is the last
one. -/
def EachStep (step : σ → ι → Except ε σ) (P : σ → ι → Prop) : σ → List ι → Prop
  | _, [] => True
  | s, i :: is => P s i ∧ ∀ s', step s i = .ok s' → EachStep step P s' is

theorem EachStep.imp {P Q : σ → ι → Prop} (hPQ : ∀ s i, P s i → Q s i) (h : EachStep step P s is) :
    EachStep step Q s is := by
  induction is generalizing s with
  | nil => trivial
  | cons i is ih => exact ⟨hPQ s i h.1, fun s' hs => ih (h.2 s' hs)⟩

/-- What holds of every input holds of every step. -/
theorem eachStep_of_forall {P : ι → Prop} (h : ∀ i ∈ is, P i) :
    EachStep step (fun _ => P) s is := by
  induction is generalizing s with
  | nil => trivial
  | cons i is ih =>
    exact ⟨h i List.mem_cons_self, fun s' _ => ih fun j hj => h j (List.mem_cons_of_mem _ hj)⟩

instance decidableEachStep (step : σ → ι → Except ε σ) (P : σ → ι → Prop)
    [∀ s i, Decidable (P s i)] : (s : σ) → (is : List ι) → Decidable (EachStep step P s is)
  | _, [] => .isTrue trivial
  | s, i :: is =>
    match hs : step s i with
    | .error e => decidable_of_iff (P s i) ⟨fun h => ⟨h, by simp [hs]⟩, And.left⟩
    | .ok s' =>
      have := decidableEachStep step P s' is
      decidable_of_iff (P s i ∧ EachStep step P s' is) (by simp [EachStep, hs])

/-- Two properties of a step that are the same where an invariant holds are the same along all
inputs, if the steps with the property keep the invariant.  `A` collects what is known of each
step. -/
theorem eachStep_iff {A P : σ → ι → Prop}
    (hkeep : ∀ s i s', I s → A s i → P s i → step s i = .ok s' → I s')
    (hiff : ∀ s i, I s → A s i → (P s i ↔ G s i)) (hA : EachStep step A s is) (h0 : I s) :
    EachStep step P s is ↔ EachStep step G s is := by
  induction is generalizing s with
  | nil => exact Iff.rfl
  | cons i is ih =>
    constructor
    · rintro ⟨hP, hrest⟩
      refine ⟨(hiff s i h0 hA.1).mp hP, fun s' hs => ?_⟩
      exact (ih (hA.2 s' hs) (hkeep s i s' h0 hA.1 hP hs)).mp (hrest s' hs)
    · rintro ⟨hG, hrest⟩
      have hP : P s i := (hiff s i h0 hA.1).mpr hG
      refine ⟨hP, fun s' hs => ?_⟩
      exact (ih (hA.2 s' hs) (hkeep s i s' h0 hA.1 hP hs)).mpr (hrest s' hs)

/-! ## What a computation gives -/

/-- Every abort of the computation meets `E`, and every result meets `Q`. -/
def Gives {α : Type*} (E : ε → Prop) (Q : α → Prop) : Except ε α → Prop
  | .error e => E e
  | .ok a => Q a

/-- Go on after a computation that gives `P`. -/
@[elab_as_elim]
theorem Gives.elim {E : ε → Prop} {P : α → Prop} {motive : Except ε α → Prop} {x : Except ε α}
    (h : Gives E P x) (error : ∀ e, E e → motive (.error e)) (ok : ∀ a, P a → motive (.ok a)) :
    motive x := by
  cases x with
  | error e => exact error e h
  | ok a => exact ok a h

/-! ## Two computations side by side -/

/-- The same abort, or related results. -/
def SameEnd {α β : Type*} (R : α → β → Prop) : Except ε α → Except ε β → Prop
  | .error e, .error e' => e = e'
  | .ok a, .ok b => R a b
  | _, _ => False

theorem sameEnd_iff {R : α → β → Prop} {x : Except ε α} {y : Except ε β} :
    SameEnd R x y ↔
      (∃ e, x = .error e ∧ y = .error e) ∨ ∃ a b, x = .ok a ∧ y = .ok b ∧ R a b := by
  cases x <;> cases y <;> simp [SameEnd, eq_comm]

/-- What related results have in common, the two computations have in common. -/
theorem SameEnd.map_eq {R : α → β → Prop} {x : Except ε α} {y : Except ε β} (h : SameEnd R x y)
    {f : α → γ} {g : β → γ} (hfg : ∀ a b, R a b → f a = g b) : x.map f = y.map g := by
  rcases sameEnd_iff.mp h with ⟨e, rfl, rfl⟩ | ⟨a, b, rfl, rfl, hR⟩
  · rfl
  · exact congrArg Except.ok (hfg a b hR)

/-- Go on alike after two computations that end alike. -/
theorem SameEnd.bind {δ : Type*} {R : α → β → Prop} {S : γ → δ → Prop} {x : Except ε α}
    {y : Except ε β} (h : SameEnd R x y) {k : α → Except ε γ} {m : β → Except ε δ}
    (hk : ∀ a b, R a b → SameEnd S (k a) (m b)) : SameEnd S (x.bind k) (y.bind m) := by
  rcases sameEnd_iff.mp h with ⟨e, rfl, rfl⟩ | ⟨a, b, rfl, rfl, hR⟩
  · exact rfl
  · exact hk a b hR

/-- Comparisons compose. -/
theorem SameEnd.trans {R : α → β → Prop} {S : β → γ → Prop} {T : α → γ → Prop} {x : Except ε α}
    {y : Except ε β} {z : Except ε γ} (h : SameEnd R x y) (h' : SameEnd S y z)
    (hT : ∀ a b c, R a b → S b c → T a c) : SameEnd T x z := by
  rcases sameEnd_iff.mp h with ⟨e, rfl, rfl⟩ | ⟨a, b, rfl, rfl, hR⟩ <;>
    rcases sameEnd_iff.mp h' with ⟨e', he, rfl⟩ | ⟨b', c, hb, rfl, hS⟩
  · exact Except.error.inj he
  · cases hb
  · cases he
  · cases hb
    exact hT a b c hR hS

/-- Read a fact about the result of a computation off its evaluation. -/
theorem exists_ok_of_map {x : Except ε α} {f : α → β} {b : β} (h : x.map f = .ok b) :
    ∃ a, x = .ok a ∧ f a = b := by
  cases x with
  | error e => cases h
  | ok a => exact ⟨a, rfl, Except.ok.inj h⟩

/-- Equal answers and related states. -/
def SameTag {κ : Type*} {τ : Type*} (R : σ → τ → Prop) (p : κ × σ) (p' : κ × τ) : Prop :=
  p.1 = p'.1 ∧ R p.2 p'.2

/-! ## Execution -/

/-- Run the inputs as far as the guard admits them and the step function does not
abort. -/
def exec (step : σ → ι → Except ε σ) (G : σ → ι → Prop) [∀ s i, Decidable (G s i)] :
    σ → List ι → Option σ
  | s, [] => some s
  | s, i :: is =>
    if G s i then
      match step s i with
      | .error _ => none
      | .ok s' => exec step G s' is
    else none

theorem exec_eq_some_iff [∀ s i, Decidable (G s i)] :
    exec step G s is = some t ↔ Run step G s is t := by
  constructor
  · intro h
    induction is generalizing s with
    | nil => cases h; exact .nil _
    | cons i is ih =>
      simp only [exec] at h
      split at h
      · rename_i hg
        split at h
        · cases h
        · rename_i s' hs
          exact .cons hg hs (ih h)
      · cases h
  · intro h
    induction h with
    | nil s => rfl
    | cons hg hs _ ih => simp only [exec, if_pos hg, hs, ih]

/-- Read a fact about the end of a run off its execution. -/
theorem exists_run_of_exec [∀ s i, Decidable (G s i)] {f : σ → β} {b : β}
    (h : (exec step G s is).map f = some b) : ∃ t, Run step G s is t ∧ f t = b := by
  obtain ⟨t, ht, hb⟩ := Option.map_eq_some_iff.mp h
  exact ⟨t, exec_eq_some_iff.mp ht, hb⟩

end StepSystem
