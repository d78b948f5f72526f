import Mathlib.Data.List.Nodup

/-!
# Chains of links

A link is a function `next` that gives the successor of a node, if it has one.  `Chain next o as`
says that following the links from `o` visits the nodes `as` and then ends.  A chain is determined
by where it starts, so it visits no node twice: whoever comes back to a node never ends.

## Main definitions

* `Chain next o as` — the nodes on the way from `o`.
* `Chain.unique`, `Chain.nodup` — there is one way, and it visits no node twice.
* `Chain.congr` — only the links on the way matter.
* `Chain.append` — a chain is extended at its last node.
-/

namespace LinkChain

universe u
variable {α : Type u}

/-- Following the links from `o` visits these nodes, and then ends. -/
def Chain (next : α → Option α) : Option α → List α → Prop
  | o, [] => o = none
  | o, a :: as => o = some a ∧ Chain next (next a) as

variable {next next' : α → Option α} {o : Option α} {a b : α} {as bs : List α}

@[simp] theorem chain_nil : Chain next o [] ↔ o = none := Iff.rfl

@[simp] theorem chain_cons : Chain next o (a :: as) ↔ o = some a ∧ Chain next (next a) as := Iff.rfl

namespace Chain

/-- Links lead to one chain only. -/
theorem unique (h : Chain next o as) (h' : Chain next o bs) : as = bs := by
  induction as generalizing o bs with
  | nil =>
    obtain rfl := chain_nil.mp h
    cases bs with
    | nil => rfl
    | cons b bs => cases h'.1
  | cons a as ih =>
    obtain ⟨rfl, hrest⟩ := chain_cons.mp h
    cases bs with
    | nil => cases h'
    | cons b bs =>
      obtain ⟨hab, hrest'⟩ := chain_cons.mp h'
      cases hab
      rw [ih hrest hrest']

/-- Every node of a chain begins the rest of it. -/
theorem of_mem (h : Chain next o as) (ha : a ∈ as) :
    ∃ bs, Chain next (some a) (a :: bs) ∧ bs.length < as.length := by
  induction as generalizing o with
  | nil => cases ha
  | cons b as ih =>
    rcases List.mem_cons.mp ha with rfl | ha
    · exact ⟨as, ⟨rfl, h.2⟩, Nat.lt_succ_self _⟩
    · obtain ⟨bs, hbs, hlt⟩ := ih h.2 ha
      exact ⟨bs, hbs, Nat.lt_succ_of_lt hlt⟩

/-- A chain that ends does not come back to a node. -/
theorem nodup (h : Chain next o as) : as.Nodup := by
  induction as generalizing o with
  | nil => exact List.nodup_nil
  | cons a as ih =>
    refine List.nodup_cons.mpr ⟨fun ha => ?_, ih h.2⟩
    obtain ⟨bs, hbs, hlt⟩ := h.2.of_mem ha
    rw [h.2.unique hbs.2] at hlt
    exact Nat.lt_irrefl _ hlt

/-- Only the links of the nodes on the way matter. -/
theorem congr (h : Chain next o as) (hn : ∀ a ∈ as, next' a = next a) : Chain next' o as := by
  induction as generalizing o with
  | nil => exact h
  | cons a as ih =>
    refine ⟨h.1, ?_⟩
    rw [hn a List.mem_cons_self]
    exact ih h.2 fun b hb => hn b (List.mem_cons_of_mem _ hb)

/-- The last node gets a successor: the chain goes on. -/
theorem append (h : Chain next o (as ++ [a])) (hn : ∀ b ∈ as, next' b = next b)
    (hrest : Chain next' (next' a) bs) : Chain next' o (as ++ a :: bs) := by
  induction as generalizing o with
  | nil => exact ⟨h.1, hrest⟩
  | cons b as ih =>
    refine ⟨h.1, ?_⟩
    rw [hn b List.mem_cons_self]
    exact ih h.2 fun c hc => hn c (List.mem_cons_of_mem _ hc)

end Chain

end LinkChain
