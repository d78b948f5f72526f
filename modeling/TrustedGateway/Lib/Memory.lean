import Mathlib.Data.Set.Function
import Mathlib.Data.List.Basic
import Mathlib.Order.Interval.Set.Basic

/-!
# Flat memories and block copies

A memory is a function from addresses to cells.  `copy` is the only way a cell
changes: it moves a block of one memory into another, reading the whole source
before it writes, and its value at an address is decided by one comparison.  The
two facts everything else rests on are `copy_of_mem` and `copy_of_notMem`.

Agreement of two memories on a set of addresses is Mathlib's `Set.EqOn`;
`eqOn_copy` says that copying agreeing blocks extends the agreement.

## Main definitions

* `copy dst d src s n` — `dst` after `n` cells of `src` at `s` were copied to `d`.
* `slice m a n` — the `n` cells of `m` from `a` on, as a list.
* `field n m a`, `setField m a v` — `n` cells from `a` on as a tuple, read and stored.
-/

namespace FlatMemory

universe u
variable {α : Type u}

/-- The memory `dst` after the `n` cells of `src` from `s` on were copied to the
addresses from `d` on. -/
def copy (dst : ℕ → α) (d : ℕ) (src : ℕ → α) (s n : ℕ) : ℕ → α :=
  fun x => if d ≤ x ∧ x < d + n then src (s + (x - d)) else dst x

variable {d n s : ℕ} {dst src : ℕ → α}

theorem copy_of_mem {x : ℕ} (h : x ∈ Set.Ico d (d + n)) :
    copy dst d src s n x = src (s + (x - d)) :=
  if_pos h

theorem copy_of_notMem {x : ℕ} (h : x ∉ Set.Ico d (d + n)) : copy dst d src s n x = dst x :=
  if_neg h

@[simp] theorem copy_zero (dst : ℕ → α) (d : ℕ) (src : ℕ → α) (s : ℕ) :
    copy dst d src s 0 = dst := by
  funext x
  exact copy_of_notMem (by simp)

/-- Copying blocks on which the two sources agree makes the results agree on the
destination as well, whatever the destinations held there before. -/
theorem eqOn_copy {m₁ m₂ src₁ src₂ : ℕ → α} {A : Set ℕ} (hm : Set.EqOn m₁ m₂ A)
    (hsrc : Set.EqOn src₁ src₂ (Set.Ico s (s + n))) :
    Set.EqOn (copy m₁ d src₁ s n) (copy m₂ d src₂ s n) (A ∪ Set.Ico d (d + n)) := by
  intro x hx
  by_cases hd : x ∈ Set.Ico d (d + n)
  · rw [copy_of_mem hd, copy_of_mem hd]
    obtain ⟨hl, hr⟩ := hd
    exact hsrc ⟨by omega, by omega⟩
  · rw [copy_of_notMem hd, copy_of_notMem hd]
    exact hm (hx.resolve_right hd)

/-- A copy leaves every set that it does not meet alone. -/
theorem eqOn_copy_of_disjoint {m : ℕ → α} {A : Set ℕ} (h : ∀ x ∈ A, x ∉ Set.Ico d (d + n)) :
    Set.EqOn (copy m d src s n) m A :=
  fun x hx => copy_of_notMem (h x hx)

/-- Equal sources on the copied block give equal results on equal memories. -/
theorem copy_congr {m src₁ src₂ : ℕ → α} (hsrc : Set.EqOn src₁ src₂ (Set.Ico s (s + n))) :
    copy m d src₁ s n = copy m d src₂ s n := by
  funext x
  have h := eqOn_copy (d := d) (fun _ _ => rfl : Set.EqOn m m Set.univ) hsrc
  exact h (Or.inl (Set.mem_univ x))

/-! ## Slices -/

/-- The `n` cells from address `a` on. -/
def slice (m : ℕ → α) (a n : ℕ) : List α := (List.range n).map fun k => m (a + k)

@[simp] theorem length_slice (m : ℕ → α) (a n : ℕ) : (slice m a n).length = n := by
  simp [slice]

@[simp] theorem slice_zero (m : ℕ → α) (a : ℕ) : slice m a 0 = [] := rfl

/-- A slice is the concatenation of two shorter ones. -/
theorem slice_add (m : ℕ → α) (a n k : ℕ) :
    slice m a (n + k) = slice m a n ++ slice m (a + n) k := by
  simp only [slice, List.range_add, List.map_append, List.map_map]
  congr 1
  exact List.map_congr_left fun i _ => by simp [Function.comp, Nat.add_assoc]

theorem drop_slice (m : ℕ → α) (a n k : ℕ) (h : k ≤ n) :
    (slice m a n).drop k = slice m (a + k) (n - k) := by
  obtain ⟨j, rfl⟩ := Nat.exists_eq_add_of_le h
  rw [slice_add, List.drop_left' (by simp)]
  simp

theorem take_slice (m : ℕ → α) (a n k : ℕ) (h : k ≤ n) :
    (slice m a n).take k = slice m a k := by
  obtain ⟨j, rfl⟩ := Nat.exists_eq_add_of_le h
  rw [slice_add, List.take_left' (by simp)]

/-- A slice reads only its own block. -/
theorem slice_congr {m₁ m₂ : ℕ → α} {a : ℕ} (h : Set.EqOn m₁ m₂ (Set.Ico a (a + n))) :
    slice m₁ a n = slice m₂ a n :=
  List.map_congr_left fun k hk => h ⟨by omega, by have := List.mem_range.mp hk; omega⟩

/-- What a copy wrote reads back as the source block. -/
theorem slice_copy_self (dst : ℕ → α) (d : ℕ) (src : ℕ → α) (s n : ℕ) :
    slice (copy dst d src s n) d n = slice src s n := by
  refine List.map_congr_left fun k hk => ?_
  have hk := List.mem_range.mp hk
  rw [copy_of_mem ⟨by omega, by omega⟩, Nat.add_sub_cancel_left]

/-- A copy leaves a block it does not meet as it was. -/
theorem slice_copy_of_disjoint {a k : ℕ} (h : a + k ≤ d ∨ d + n ≤ a) :
    slice (copy dst d src s n) a k = slice dst a k := by
  refine slice_congr fun x hx => copy_of_notMem fun hd => ?_
  obtain ⟨hx₁, hx₂⟩ := hx
  obtain ⟨hd₁, hd₂⟩ := hd
  omega

/-! ## Fields of a fixed size -/

section Field

variable {n k : ℕ} {m : ℕ → α} {a b x : ℕ}

/-- The `n` cells from address `a` on, as a tuple. -/
def field (n : ℕ) (m : ℕ → α) (a : ℕ) : Fin n → α := fun i => m (a + i)

/-- The memory after a tuple was stored from address `a` on. -/
def setField (m : ℕ → α) (a : ℕ) (v : Fin n → α) : ℕ → α :=
  fun x => if h : a ≤ x ∧ x < a + n then v ⟨x - a, by omega⟩ else m x

theorem setField_of_notMem (h : x ∉ Set.Ico a (a + n)) (v : Fin n → α) :
    setField m a v x = m x :=
  dif_neg h

@[simp] theorem field_setField_self (v : Fin n → α) : field n (setField m a v) a = v := by
  funext i
  simp [field, setField]

/-- Other fields keep their value. -/
theorem field_setField_of_disjoint (h : b + k ≤ a ∨ a + n ≤ b) (v : Fin n → α) :
    field k (setField m a v) b = field k m b := by
  funext i
  have hi := i.isLt
  exact setField_of_notMem (by simp only [Set.mem_Ico]; omega) v

end Field

end FlatMemory
