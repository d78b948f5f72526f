import Mathlib.Data.Set.Basic
import Mathlib.Data.List.Basic

/-!
# Custody of tokens along a log

A log is a list of operations.  An operation may give its party a token and may take one away.
`Legal own ops` says that a party that starts with the tokens `own` loses only tokens that it has
at that moment.  A legal log loses a token twice only if it was gained in between.

Legality is monotone in what the party starts with.  That is how the log of a part becomes a piece
of the log of the whole: the part knows only the tokens it works on.

## Main definitions

* `hold own op`, `holdAll own ops` — what the party has afterwards.
* `Legal own ops` — only tokens in custody are lost.
* `Legal.once` — between two losses of a token it is gained.
* `Legal.mem_or_gained` — what is lost was there or was gained before.
-/

namespace Custody

universe u v
variable {τ : Type u} {ι : Type v} (gains loses : ι → Option τ)

/-- What the party has after an operation. -/
def hold (own : Set τ) (op : ι) : Set τ :=
  {t | (t ∈ own ∨ gains op = some t) ∧ loses op ≠ some t}

def holdAll (own : Set τ) (ops : List ι) : Set τ := ops.foldl (hold gains loses) own

/-- Only tokens in custody are lost. -/
def Legal : Set τ → List ι → Prop
  | _, [] => True
  | own, op :: ops => (∀ t, loses op = some t → t ∈ own) ∧ Legal (hold gains loses own op) ops

variable {gains loses} {own own' : Set τ} {ops ops' : List ι} {t : τ}

@[simp] theorem holdAll_nil : holdAll gains loses own [] = own := rfl

@[simp] theorem holdAll_cons (op : ι) :
    holdAll gains loses own (op :: ops) = holdAll gains loses (hold gains loses own op) ops := rfl

theorem holdAll_append :
    holdAll gains loses own (ops ++ ops') =
      holdAll gains loses (holdAll gains loses own ops) ops' :=
  List.foldl_append

theorem holdAll_concat (op : ι) :
    holdAll gains loses own (ops ++ [op]) = hold gains loses (holdAll gains loses own ops) op :=
  holdAll_append

theorem hold_mono (h : own ⊆ own') (op : ι) :
    hold gains loses own op ⊆ hold gains loses own' op := by
  intro t ht
  exact ⟨ht.1.imp_left (@h t), ht.2⟩

/-- Tokens nobody asks for stay. -/
theorem mem_holdAll (ht : t ∈ own) (h : ∀ op ∈ ops, loses op ≠ some t) :
    t ∈ holdAll gains loses own ops := by
  induction ops generalizing own with
  | nil => exact ht
  | cons op ops ih =>
    have hop : t ∈ hold gains loses own op := ⟨.inl ht, h op List.mem_cons_self⟩
    exact ih hop fun op' hop' => h op' (List.mem_cons_of_mem _ hop')

/-- Tokens that are not there and not gained do not come. -/
theorem notMem_holdAll (ht : t ∉ own) (h : ∀ op ∈ ops, gains op ≠ some t) :
    t ∉ holdAll gains loses own ops := by
  induction ops generalizing own with
  | nil => exact ht
  | cons op ops ih =>
    have hop : t ∉ hold gains loses own op := by
      rintro ⟨hown | hgain, -⟩
      · exact ht hown
      · exact h op List.mem_cons_self hgain
    exact ih hop fun op' hop' => h op' (List.mem_cons_of_mem _ hop')

namespace Legal

theorem mono (h : Legal gains loses own ops) (hown : own ⊆ own') :
    Legal gains loses own' ops := by
  induction ops generalizing own own' with
  | nil => trivial
  | cons op ops ih => exact ⟨fun t ht => hown (h.1 t ht), ih h.2 (hold_mono hown op)⟩

theorem append_iff :
    Legal gains loses own (ops ++ ops') ↔
      Legal gains loses own ops ∧ Legal gains loses (holdAll gains loses own ops) ops' := by
  induction ops generalizing own with
  | nil => simp [Legal]
  | cons op ops ih => simp [Legal, ih, and_assoc]

theorem concat_iff {op : ι} :
    Legal gains loses own (ops ++ [op]) ↔
      Legal gains loses own ops ∧ ∀ t, loses op = some t → t ∈ holdAll gains loses own ops := by
  rw [append_iff]
  exact and_congr_right fun _ => and_iff_left trivial

/-- What is not there and not gained is not lost. -/
theorem not_lost (h : Legal gains loses own ops) (ht : t ∉ own)
    (hg : ∀ op ∈ ops, gains op ≠ some t) : ∀ op ∈ ops, loses op ≠ some t := by
  intro op hop hl
  obtain ⟨l, l', rfl⟩ := List.append_of_mem hop
  obtain ⟨-, hl', -⟩ := append_iff.mp h
  exact notMem_holdAll ht (fun op' hop' => hg op' (by simp [hop'])) (hl' t hl)

/-- What is lost was there or was gained before. -/
theorem mem_or_gained {op : ι} (h : Legal gains loses own (ops ++ op :: ops'))
    (hl : loses op = some t) : t ∈ own ∨ ∃ op' ∈ ops, gains op' = some t := by
  by_contra hno
  simp only [not_or, not_exists, not_and] at hno
  exact notMem_holdAll hno.1 hno.2 ((append_iff.mp h).2.1 t hl)

/-- **Between two losses of a token it is gained.** -/
theorem once {a b : ι} {ops₁ ops₂ ops₃ : List ι}
    (h : Legal gains loses own (ops₁ ++ a :: ops₂ ++ b :: ops₃)) (ha : loses a = some t)
    (hb : loses b = some t) : ∃ op ∈ ops₂, gains op = some t := by
  by_contra hno
  simp only [not_exists, not_and] at hno
  rw [List.append_assoc, append_iff, List.cons_append] at h
  have hlost : t ∉ hold gains loses (holdAll gains loses own ops₁) a := fun hmem => hmem.2 ha
  exact notMem_holdAll hlost hno ((append_iff.mp h.2.2).2.1 t hb)

end Legal

end Custody
