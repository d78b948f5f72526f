import Mathlib.Data.List.Nodup
import Mathlib.Logic.Function.Basic

/-!
# Intrusive lists

The doubly linked lists of `sys/queue.h`.  A node holds a pointer to its successor and the address
of the pointer that points to the node itself, which is in its predecessor or in the head of the
list.  So a node is taken off its list without knowing which list that is.

Nodes are of a type `α` and lists are named by a type `η`; a node may be on one list at a time.

## Main definitions

* `Slot`, `Links` — the addresses that hold a pointer to a node, and what all pointers are.
* `Links.insertHead`, `Links.remove` — `LIST_INSERT_HEAD` and `LIST_REMOVE`.
* `IsList` — the pointers from one address on are those of a list.
* `Holds` — the pointers are those of a family of lists without a common node.
-/

namespace IntrusiveList

universe u v

/-- The address of a pointer to a node: `lh_first` of a list or `le_next` of a node. -/
inductive Slot (η : Type u) (α : Type v)
  | first (h : η)
  | next (a : α)
  deriving DecidableEq

/-- The pointers to nodes by their address, and the `le_prev` of the nodes. -/
structure Links (η : Type u) (α : Type v) where
  ptr : Slot η α → Option α
  prev : α → Slot η α

variable {η : Type u} {α : Type v}

/-- The pointers from `s` on lead through these nodes, and each node knows where it is pointed to
from. -/
def IsList (l : Links η α) : Slot η α → List α → Prop
  | s, [] => l.ptr s = none
  | s, a :: as => l.ptr s = some a ∧ l.prev a = s ∧ IsList l (.next a) as

variable {l l' : Links η α} {s t : Slot η α} {a b : α} {as : List α}

namespace IsList

theorem ptr_eq_head (h : IsList l s as) : l.ptr s = as.head? := by
  cases as with
  | nil => exact h
  | cons c as => exact h.1

/-- The pointers of a list point to its nodes. -/
theorem mem_of_ptr (h : IsList l s as) (ht : t = s ∨ ∃ b ∈ as, t = .next b)
    (ha : l.ptr t = some a) : a ∈ as := by
  induction as generalizing s with
  | nil =>
    rcases ht with rfl | ⟨b, hb, -⟩
    · rw [h] at ha
      cases ha
    · cases hb
  | cons c as ih =>
    obtain ⟨hs, -, hrest⟩ := h
    rcases ht with rfl | ⟨b, hb, rfl⟩
    · rw [hs] at ha
      cases ha
      exact List.mem_cons_self
    · apply List.mem_cons_of_mem
      apply ih hrest
      rcases List.mem_cons.mp hb with rfl | hb
      · exact Or.inl rfl
      · exact Or.inr ⟨b, hb, rfl⟩

/-- A node is pointed to from where it says. -/
theorem ptr_prev (h : IsList l s as) (ha : a ∈ as) : l.ptr (l.prev a) = some a := by
  induction as generalizing s with
  | nil => cases ha
  | cons c as ih =>
    obtain ⟨hs, hp, hrest⟩ := h
    rcases List.mem_cons.mp ha with rfl | ha
    · rw [hp, hs]
    · exact ih hrest ha

/-- Only the pointers of the list matter. -/
theorem congr (h : IsList l s as) (hs : l'.ptr s = l.ptr s)
    (hn : ∀ b ∈ as, l'.ptr (.next b) = l.ptr (.next b)) (hp : ∀ b ∈ as, l'.prev b = l.prev b) :
    IsList l' s as := by
  induction as generalizing s with
  | nil => exact hs.trans h
  | cons c as ih =>
    obtain ⟨hc, hprev, hrest⟩ := h
    refine ⟨hs.trans hc, (hp c List.mem_cons_self).trans hprev, ?_⟩
    apply ih hrest (hn c List.mem_cons_self)
    · exact fun b hb => hn b (List.mem_cons_of_mem c hb)
    · exact fun b hb => hp b (List.mem_cons_of_mem c hb)

end IsList

variable [DecidableEq α]

namespace Links

/-- Set `le_prev` of the node that a pointer points to, if there is one. -/
def setPrev (l : Links η α) (o : Option α) (s : Slot η α) : Links η α :=
  match o with
  | none => l
  | some c => { l with prev := Function.update l.prev c s }

@[simp] theorem ptr_setPrev (l : Links η α) (o : Option α) (s : Slot η α) :
    (l.setPrev o s).ptr = l.ptr := by
  cases o <;> rfl

@[simp] theorem prev_setPrev (l : Links η α) (o : Option α) (s : Slot η α) (b : α) :
    (l.setPrev o s).prev b = if o = some b then s else l.prev b := by
  cases o with
  | none => rfl
  | some c => simp [setPrev, Function.update_apply, eq_comm]

variable [DecidableEq η]

/-- `LIST_INSERT_HEAD`. -/
def insertHead (l : Links η α) (h : η) (a : α) : Links η α :=
  let first := l.ptr (.first h)
  let l := { l with ptr := Function.update l.ptr (.next a) first }.setPrev first (.next a)
  { ptr := Function.update l.ptr (.first h) (some a)
    prev := Function.update l.prev a (.first h) }

/-- `LIST_REMOVE`. -/
def remove (l : Links η α) (a : α) : Links η α :=
  let l := l.setPrev (l.ptr (.next a)) (l.prev a)
  { l with ptr := Function.update l.ptr (l.prev a) (l.ptr (.next a)) }

@[simp] theorem ptr_insertHead (l : Links η α) (h : η) (a : α) (s : Slot η α) :
    (l.insertHead h a).ptr s =
      if s = .first h then some a else if s = .next a then l.ptr (.first h) else l.ptr s := by
  simp [insertHead, Function.update_apply]

@[simp] theorem prev_insertHead (l : Links η α) (h : η) (a b : α) :
    (l.insertHead h a).prev b =
      if b = a then .first h else if l.ptr (.first h) = some b then .next a else l.prev b := by
  simp [insertHead, Function.update_apply]

@[simp] theorem ptr_remove (l : Links η α) (a : α) (s : Slot η α) :
    (l.remove a).ptr s = if s = l.prev a then l.ptr (.next a) else l.ptr s := by
  simp [remove, Function.update_apply]

@[simp] theorem prev_remove (l : Links η α) (a b : α) :
    (l.remove a).prev b = if l.ptr (.next a) = some b then l.prev a else l.prev b := by
  simp [remove]

end Links

variable [DecidableEq η]

namespace IsList

/-- Taking a node off its list leaves a list it is not on alone. -/
theorem remove_of_notMem (h : IsList l s as) (hat : l.ptr (l.prev a) = some a) (ha : a ∉ as)
    (hb : ∀ b ∈ as, l.ptr (.next a) ≠ some b) : IsList (l.remove a) s as := by
  apply h.congr
  · rw [Links.ptr_remove, if_neg]
    intro hs
    exact ha (h.mem_of_ptr (Or.inl hs.symm) hat)
  · intro b hb
    rw [Links.ptr_remove, if_neg]
    intro hs
    exact ha (h.mem_of_ptr (Or.inr ⟨b, hb, hs.symm⟩) hat)
  · intro b hmem
    rw [Links.prev_remove, if_neg (hb b hmem)]

/-- Taking a node off its list. -/
theorem remove (h : IsList l s as) (hn : as.Nodup) (ha : a ∈ as) :
    IsList (l.remove a) s (as.erase a) := by
  have hat := h.ptr_prev ha
  induction as generalizing s with
  | nil => cases ha
  | cons b as ih =>
    obtain ⟨hs, hp, hrest⟩ := h
    obtain ⟨hb, hn⟩ := List.nodup_cons.mp hn
    by_cases hab : b = a
    · subst hab
      rw [List.erase_cons_head]
      cases as with
      | nil =>
        have hnone : l.ptr (.next b) = none := hrest
        simp [IsList, hp, hnone]
      | cons c as =>
        obtain ⟨hc, hpc, hrest'⟩ := hrest
        obtain ⟨hcn, -⟩ := List.nodup_cons.mp hn
        refine ⟨by simp [hp, hc], by simp [hp, hc], ?_⟩
        apply hrest'.remove_of_notMem hat
        · exact fun h => hb (List.mem_cons_of_mem c h)
        · intro d hd heq
          rw [hc] at heq
          cases heq
          exact hcn hd
    · have hmem : a ∈ as := (List.mem_cons.mp ha).resolve_left (Ne.symm hab)
      rw [List.erase_cons_tail (by simpa using hab)]
      refine ⟨?_, ?_, ih hrest hn hmem⟩
      · rw [Links.ptr_remove, if_neg, hs]
        intro heq
        rw [← heq, hs] at hat
        cases hat
        exact hab rfl
      · rw [Links.prev_remove, if_neg, hp]
        intro heq
        exact hb (hrest.mem_of_ptr (Or.inr ⟨a, hmem, rfl⟩) heq)

end IsList

/-- The pointers are those of the lists `f`, which have no node in common. -/
structure Holds (l : Links η α) (f : η → List α) : Prop where
  isList : ∀ h, IsList l (.first h) (f h)
  nodup : ∀ h, (f h).Nodup
  apart : ∀ h k a, a ∈ f h → a ∈ f k → h = k

namespace Holds

variable {f : η → List α} {h : η}

/-- `LIST_REMOVE` takes a node off the list it is on. -/
theorem remove (H : Holds l f) (ha : a ∈ f h) : Holds (l.remove a) fun k => (f k).erase a := by
  refine ⟨?_, fun k => (H.nodup k).erase a, ?_⟩
  · intro k
    by_cases hk : k = h
    · subst hk
      exact (H.isList k).remove (H.nodup k) ha
    · have hnot : a ∉ f k := fun hak => hk (H.apart k h a hak ha)
      rw [List.erase_of_not_mem hnot]
      apply (H.isList k).remove_of_notMem ((H.isList h).ptr_prev ha) hnot
      intro b hb heq
      exact hk (H.apart k h b hb ((H.isList h).mem_of_ptr (Or.inr ⟨a, ha, rfl⟩) heq))
  · intro k k' b hb hb'
    exact H.apart k k' b (List.mem_of_mem_erase hb) (List.mem_of_mem_erase hb')

/-- `LIST_INSERT_HEAD` of a node that is on no list. -/
theorem insertHead (H : Holds l f) (h : η) (ha : ∀ k, a ∉ f k) :
    Holds (l.insertHead h a) (Function.update f h (a :: f h)) := by
  have hne : ∀ k, ∀ b ∈ f k, b ≠ a := fun k b hb heq => ha k (heq ▸ hb)
  refine ⟨?_, ?_, ?_⟩
  · intro k
    by_cases hk : k = h
    · subst hk
      rw [Function.update_self]
      refine ⟨by simp, by simp, ?_⟩
      have hl := H.isList k
      have hn := H.nodup k
      have hk := hne k
      generalize f k = as at hl hn hk
      cases as with
      | nil => simpa [IsList] using hl
      | cons c as =>
        obtain ⟨hc, -, hrest⟩ := hl
        obtain ⟨hcn, -⟩ := List.nodup_cons.mp hn
        refine ⟨by simp [hc], by simp [hc, hk], ?_⟩
        apply hrest.congr
        · simp [hk]
        · intro b hb
          simp [hk b (List.mem_cons_of_mem c hb)]
        · intro b hb
          have hbc : c ≠ b := fun heq => hcn (heq ▸ hb)
          simp [hk b (List.mem_cons_of_mem c hb), hc, hbc]
    · rw [Function.update_of_ne hk]
      apply (H.isList k).congr
      · simp [hk]
      · intro b hb
        simp [hne k b hb]
      · intro b hb
        rw [Links.prev_insertHead, if_neg (hne k b hb), if_neg]
        intro heq
        exact hk (H.apart k h b hb ((H.isList h).mem_of_ptr (Or.inl rfl) heq))
  · rw [Function.forall_update_iff f fun _ as => as.Nodup]
    exact ⟨List.nodup_cons.mpr ⟨ha h, H.nodup h⟩, fun k _ => H.nodup k⟩
  · -- the new node is on one list, and the others are where they were
    have hmem : ∀ k b, b ∈ Function.update f h (a :: f h) k → b = a ∧ k = h ∨ b ∈ f k := by
      intro k b hb
      rw [Function.update_apply] at hb
      split at hb
      · rename_i hk
        subst hk
        exact (List.mem_cons.mp hb).imp_left fun h => ⟨h, rfl⟩
      · exact Or.inr hb
    intro k k' b hb hb'
    rcases hmem k b hb with ⟨rfl, rfl⟩ | hk
    · rcases hmem k' b hb' with ⟨-, rfl⟩ | hk'
      · rfl
      · exact absurd hk' (ha k')
    · rcases hmem k' b hb' with ⟨rfl, -⟩ | hk'
      · exact absurd hk (ha k)
      · exact H.apart k k' b hk hk'

/-- A node moves to the head of a list, which may be the one it is on. -/
theorem move (H : Holds l f) (ha : a ∈ f h) (k : η) :
    Holds ((l.remove a).insertHead k a)
      (Function.update (fun j => (f j).erase a) k (a :: (f k).erase a)) :=
  (H.remove ha).insertHead k fun j => (H.nodup j).not_mem_erase

end Holds

end IntrusiveList
