import Mathlib.Logic.Basic

/-!
# Programs over a state that may abort

A program works on a state, and ends with a result or aborts; the state is there in both cases.
`Wp E x Q s` says that `x`, started in `s`, aborts only as `E` admits, and that its result and its
last state meet `Q`.  There is one rule for each way a program is put together, and they are
equivalences, so that `simp` walks through a program from the front; a function whose specification
is known is passed with `Wp.mono` or `Wp.seq`.

## Main definitions

* `Prog ε σ α` — the programs.
* `runFrom x s` — how `x` ends.
* `Wp E x Q s` — every end of `x` from `s` meets `E` or `Q`.
* `Post x Q s` — the same, with no say about aborts.
* `Wp.mono`, `Wp.seq` — go on after a specification.
* `Wp.final` — what holds at every end.
-/

namespace Programs

universe v
variable {ε σ α β : Type v}

abbrev Prog (ε σ α : Type v) := ExceptT ε (StateM σ) α

/-- The end of a program. -/
def runFrom (x : Prog ε σ α) (s : σ) : Except ε α × σ := x.run.run s

theorem runFrom_bind (x : Prog ε σ α) (f : α → Prog ε σ β) (s : σ) :
    runFrom (x >>= f) s = match runFrom x s with
      | (.ok a, s') => runFrom (f a) s'
      | (.error e, s') => (.error e, s') := by
  simp only [runFrom, ExceptT.run, StateT.run, bind, ExceptT.bind, ExceptT.mk, StateT.bind,
    ExceptT.bindCont]
  rcases x s with ⟨_ | _, _⟩ <;> rfl

/-- Every abort of the program with its state meets `E`, and every result with its state `Q`. -/
def Wp (E : ε → σ → Prop) (x : Prog ε σ α) (Q : α → σ → Prop) (s : σ) : Prop :=
  match runFrom x s with
  | (.ok a, s') => Q a s'
  | (.error e, s') => E e s'

variable {E E' : ε → σ → Prop} {Q R : α → σ → Prop} {s : σ}

@[simp] theorem wp_pure (a : α) : Wp E (pure a : Prog ε σ α) Q s ↔ Q a s := Iff.rfl

@[simp] theorem wp_bind (x : Prog ε σ α) (f : α → Prog ε σ β) (Q : β → σ → Prop) :
    Wp E (x >>= f) Q s ↔ Wp E x (fun a => Wp E (f a) Q) s := by
  rw [Wp, Wp, runFrom_bind]
  rcases runFrom x s with ⟨_ | _, _⟩ <;> rfl

@[simp] theorem wp_map (f : α → β) (x : Prog ε σ α) (Q : β → σ → Prop) :
    Wp E (f <$> x) Q s ↔ Wp E x (fun a => Q (f a)) s := by
  rw [map_eq_pure_bind, wp_bind]
  rfl

@[simp] theorem wp_get {Q : σ → σ → Prop} : Wp E (get : Prog ε σ σ) Q s ↔ Q s s := Iff.rfl

variable {s' : σ} {x : Prog ε σ α}

@[simp] theorem wp_set {Q : PUnit → σ → Prop} :
    Wp E (set s' : Prog ε σ PUnit) Q s ↔ Q ⟨⟩ s' := Iff.rfl

@[simp] theorem wp_modify {f : σ → σ} {Q : PUnit → σ → Prop} :
    Wp E (modify f : Prog ε σ PUnit) Q s ↔ Q ⟨⟩ (f s) := Iff.rfl

@[simp] theorem wp_throw {e : ε} : Wp E (throw e : Prog ε σ α) Q s ↔ E e s := Iff.rfl

@[simp] theorem wp_ite {c : Prop} [Decidable c] {y : Prog ε σ α} :
    Wp E (if c then x else y) Q s ↔ (c → Wp E x Q s) ∧ (¬ c → Wp E y Q s) := by
  by_cases hc : c <;> simp [hc]

/-- Go on after a specification. -/
theorem Wp.mono (h : Wp E x Q s) (hE : ∀ e s', E e s' → E' e s') (hQ : ∀ a s', Q a s' → R a s') :
    Wp E' x R s := by
  unfold Wp at *
  split at h
  · exact hQ _ _ h
  · exact hE _ _ h

/-- Go on after a specification with the same aborts. -/
theorem Wp.imp (h : Wp E x Q s) (hQ : ∀ a s', Q a s' → R a s') : Wp E x R s :=
  h.mono (fun _ _ => id) hQ

/-- A program after one that is specified. -/
theorem Wp.seq {f : α → Prog ε σ β} {S : β → σ → Prop} (h : Wp E x Q s)
    (hf : ∀ a s', Q a s' → Wp E (f a) S s') : Wp E (x >>= f) S s := by
  rw [wp_bind]
  exact h.imp hf

/-- Every result with its state meets `Q`. -/
abbrev Post (x : Prog ε σ α) (Q : α → σ → Prop) (s : σ) : Prop := Wp (fun _ _ => True) x Q s

theorem Wp.post (h : Wp E x Q s) : Post x Q s :=
  h.mono (fun _ _ _ => trivial) fun _ _ => id

/-- Two specifications of one program. -/
theorem Wp.and (h : Wp E x Q s) (h' : Post x R s) : Wp E x (fun a s' => Q a s' ∧ R a s') s := by
  rcases hx : runFrom x s with ⟨e | a, s'⟩ <;> simp only [Post, Wp, hx] at h h' ⊢
  · exact h
  · exact ⟨h, h'⟩

/-- A run that is known. -/
theorem wp_of_ok {a : α} (hx : runFrom x s = (.ok a, s')) : Wp E x Q s ↔ Q a s' := by
  rw [Wp, hx]

/-- What a specification says about a result. -/
theorem Wp.ok (h : Wp E x Q s) {a : α} (hx : runFrom x s = (.ok a, s')) : Q a s' := by
  rwa [Wp, hx] at h

/-- What a specification says about an abort. -/
theorem Wp.error (h : Wp E x Q s) {e : ε} (hx : runFrom x s = (.error e, s')) : E e s' := by
  rwa [Wp, hx] at h

/-- What holds at every end. -/
theorem Wp.final {I : σ → Prop} (h : Wp (fun _ => I) x (fun _ => I) s) : I (runFrom x s).2 := by
  rcases hx : runFrom x s with ⟨e | a, s'⟩
  · exact h.error hx
  · exact h.ok hx

/-- A program without aborts returns. -/
theorem Wp.exists_ok (h : Wp (fun _ _ => False) x Q s) :
    ∃ a s', runFrom x s = (.ok a, s') ∧ Q a s' := by
  rcases hx : runFrom x s with ⟨e | a, s'⟩
  · exact (h.error hx).elim
  · exact ⟨a, s', rfl, h.ok hx⟩

/-- A specification from what the results are. -/
theorem post_of_ok (h : ∀ a s', runFrom x s = (.ok a, s') → Q a s') : Post x Q s := by
  rcases hx : runFrom x s with ⟨e | a, s'⟩
  · rw [Post, Wp, hx]
    trivial
  · rw [Post, Wp, hx]
    exact h a s' hx

/-- The result of a run that does not abort, with its state. -/
def returns (x : Prog ε σ α) (s : σ) : Option (α × σ) :=
  match runFrom x s with
  | (.ok a, s') => some (a, s')
  | _ => none

theorem exists_ok_of_returns {f : α × σ → β} {b : β} (h : (returns x s).map f = some b) :
    ∃ a s', runFrom x s = (.ok a, s') ∧ f (a, s') = b := by
  unfold returns at h
  split at h
  · next a s' hx => exact ⟨a, s', hx, Option.some.inj h⟩
  · cases h

end Programs
