import Mathlib.Logic.Function.Basic
import Mathlib.Data.List.Basic
import TrustedGateway.Lib.Prog

/-!
# A heap with a log of frees

A heap has blocks, named by numbers.  A block is live from its allocation until it is freed, and
an access to a block that is not live is a fault, as is a second free.  The heap remembers every
call of `free`, in order, also when the program ends in a fault.

## Main definitions

* `Heap α`, `Fault` — heaps with blocks of type `α`, and what can go wrong.
* `alloc`, `load`, `store`, `free` — the operations.
* `Heap.dropAll` — the heap after some blocks were freed.
* `Heap.Extends` — all that was there is as it was.
-/

namespace BlockHeap

open Programs

/-- What a program does wrong. -/
inductive Fault
  | useAfterFree
  | doubleFree
  | overrun
  | endless
  deriving DecidableEq, Repr

/-- The blocks of a heap, the next new name, and the blocks freed so far. -/
structure Heap (α : Type) where
  block : ℕ → Option α
  top : ℕ
  freed : List ℕ

/-- Programs on a heap. -/
abbrev HeapM (α β : Type) := Prog Fault (Heap α) β

variable {α : Type}

namespace Heap

/-- A block gets new contents. -/
def put (h : Heap α) (a : ℕ) (c : α) : Heap α :=
  { h with block := Function.update h.block a (some c) }

/-- A block is freed. -/
def drop (h : Heap α) (a : ℕ) : Heap α :=
  { h with block := Function.update h.block a none, freed := h.freed ++ [a] }

/-- Blocks are freed, one after the other. -/
def dropAll (h : Heap α) (as : List ℕ) : Heap α := as.foldl drop h

/-- A new block. -/
def push (h : Heap α) (c : α) : Heap α := { h.put h.top c with top := h.top + 1 }

/-- No block has a name that is still to come. -/
def Wf (h : Heap α) : Prop := ∀ a, h.top ≤ a → h.block a = none

variable {h : Heap α} {a b : ℕ} {as : List ℕ} {c : α}

@[simp] theorem block_put_self : (h.put a c).block a = some c := Function.update_self ..

@[simp] theorem block_put_of_ne (hab : b ≠ a) : (h.put a c).block b = h.block b :=
  Function.update_of_ne hab ..

@[simp] theorem block_drop_self : (h.drop a).block a = none := Function.update_self ..

@[simp] theorem block_drop_of_ne (hab : b ≠ a) : (h.drop a).block b = h.block b :=
  Function.update_of_ne hab ..

@[simp] theorem dropAll_nil (h : Heap α) : h.dropAll [] = h := rfl

@[simp] theorem dropAll_cons (h : Heap α) (a : ℕ) (as : List ℕ) :
    h.dropAll (a :: as) = (h.drop a).dropAll as := rfl

/-- What was freed is gone, and everything else is as it was. -/
theorem block_dropAll (h : Heap α) (as : List ℕ) (b : ℕ) :
    (h.dropAll as).block b = if b ∈ as then none else h.block b := by
  induction as generalizing h with
  | nil => simp
  | cons a as ih =>
    rw [dropAll_cons, ih]
    by_cases hb : b ∈ as
    · simp [hb]
    · by_cases hba : b = a
      · subst hba
        simp
      · simp [hb, hba]

theorem freed_dropAll (h : Heap α) (as : List ℕ) : (h.dropAll as).freed = h.freed ++ as := by
  induction as generalizing h with
  | nil => simp
  | cons a as ih => simp [ih, drop]

theorem Wf.block_top (hw : h.Wf) : h.block h.top = none := hw _ (Nat.le_refl _)

theorem Wf.lt_top (hw : h.Wf) (ha : h.block a ≠ none) : a < h.top := by
  by_contra hge
  exact ha (hw a (Nat.not_lt.mp hge))

theorem Wf.push (hw : h.Wf) (c : α) : (h.push c).Wf := by
  intro a ha
  have hlt : h.top < a := ha
  exact (block_put_of_ne (Nat.ne_of_gt hlt)).trans (hw a (Nat.le_of_lt hlt))

theorem Wf.put (hw : h.Wf) (ha : h.block a ≠ none) : (h.put a c).Wf := by
  intro b hb
  have hab : b ≠ a := Nat.ne_of_gt (Nat.lt_of_lt_of_le (hw.lt_top ha) hb)
  exact (block_put_of_ne hab).trans (hw b hb)

/-- What was there keeps its place and its contents. -/
def Extends (h h' : Heap α) : Prop := ∀ a, h.block a ≠ none → h'.block a = h.block a

variable {h' : Heap α}

theorem Extends.refl (h : Heap α) : Extends h h := fun _ _ => rfl

theorem Extends.put (he : Extends h h') (ha : h.block a = none) : Extends h (h'.put a c) := by
  intro b hb
  have hba : b ≠ a := by
    rintro rfl
    exact hb ha
  rw [block_put_of_ne hba]
  exact he b hb

theorem Extends.drop (he : Extends h h') (ha : h.block a = none) : Extends h (h'.drop a) := by
  intro b hb
  have hba : b ≠ a := by
    rintro rfl
    exact hb ha
  rw [block_drop_of_ne hba]
  exact he b hb

theorem Extends.push (he : Extends h h') (hw : h.Wf) (ht : h.top ≤ h'.top) :
    Extends h (h'.push c) :=
  fun b hb => he.put (hw _ ht) b hb

end Heap

/-! ## The operations -/

/-- `malloc`, with what the new block holds. -/
def alloc (c : α) : HeapM α ℕ := do
  let a := (← get).top
  modify (·.push c)
  return a

/-- Read a block. -/
def load (a : ℕ) : HeapM α α := do
  match (← get).block a with
  | none => throw .useAfterFree
  | some c => return c

/-- Write a block. -/
def store (a : ℕ) (c : α) : HeapM α Unit := do
  if ((← get).block a).isNone then throw .useAfterFree
  modify (·.put a c)

/-- `free`. -/
def free (a : ℕ) : HeapM α Unit := do
  if ((← get).block a).isNone then throw .doubleFree
  modify (·.drop a)

variable {h : Heap α} {a : ℕ} {c d : α}

@[simp] theorem runFrom_alloc : runFrom (alloc c) h = (.ok h.top, h.push c) := rfl

theorem runFrom_load (hc : h.block a = some c) : runFrom (load a) h = (.ok c, h) := by
  rw [load, runFrom_bind]
  change runFrom (match h.block a with
    | none => (throw Fault.useAfterFree : HeapM α α)
    | some c => pure c) h = _
  rw [hc]
  rfl

theorem runFrom_load_dead (hc : h.block a = none) :
    runFrom (load a) h = (.error .useAfterFree, h) := by
  rw [load, runFrom_bind]
  change runFrom (match h.block a with
    | none => (throw Fault.useAfterFree : HeapM α α)
    | some c => pure c) h = _
  rw [hc]
  rfl

theorem runFrom_store (hc : h.block a = some c) : runFrom (store a d) h = (.ok (), h.put a d) := by
  have hb : (h.block a).isNone = false := by rw [hc]; rfl
  rw [store, runFrom_bind]
  change runFrom (if (h.block a).isNone then _ else _) h = _
  rw [hb]
  rfl

theorem runFrom_free (hc : h.block a ≠ none) : runFrom (free a) h = (.ok (), h.drop a) := by
  have hb : (h.block a).isNone = false :=
    Option.isNone_eq_false_iff.mpr (Option.isSome_iff_ne_none.mpr hc)
  rw [free, runFrom_bind]
  change runFrom (if (h.block a).isNone then _ else _) h = _
  rw [hb]
  rfl

end BlockHeap
