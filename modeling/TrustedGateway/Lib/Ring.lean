import Mathlib.Data.BitVec
import Mathlib.Data.Nat.ModEq
import Mathlib.Data.List.Basic
import Mathlib.Data.List.Range
import Mathlib.Logic.Function.Basic

/-!
# Rings of cells

A ring of `cap` cells is filled by a producer that never stops counting: entry number `k`
goes to cell `k % cap`.  `Window m cap xs lo` says that the cells `m` hold the entries of the
log `xs` from number `lo` on, and that these fit into the ring.  The log and its numbers are
unbounded.  Where a machine keeps such a number in a word of `w` bits, it keeps
`BitVec.ofNat w k`; that is enough as long as the numbers it compares are less than one turn of
the counter apart.

Other rings keep two positions, and mark a cell that holds nothing.  `Slots m n p xs` says that
the entries `xs` lie in the cells from `p` on, that all other cells are empty, and that one of
them is.  How many entries there are, the positions tell: it is their `gap`.

## Main definitions

* `Window m cap xs lo` — the ring holds the entries `lo`, `lo + 1`, … of the log `xs`.
* `Window.append` — new entries in free cells.
* `Window.get` — what the cell of the oldest entry holds.
* `Window.drop` — the oldest entries are given up.
* `toNat_counter_mod`, `toNat_counter_sub`, `counter_eq_iff` — counters of `w` bits.
* `idx n p k`, `gap n p c` — the cell `k` places after `p`, and the number of places from `p` to
  `c`.
* `Slots m n p xs` — a ring of optional cells, with `Slots.push` and `Slots.pop`.
* `tag n p xs` — the entries with their cells.
-/

namespace RingWindow

universe u
variable {α : Type u} {m m' : ℕ → α} {cap lo : ℕ} {xs : List α}

/-- Two entries less than one turn apart have different cells. -/
theorem mod_ne {a b : ℕ} (hab : a < b) (hb : b < a + cap) : a % cap ≠ b % cap := by
  intro h
  have hdvd : cap ∣ b - a := (Nat.modEq_iff_dvd' hab.le).mp h
  have hle : cap ≤ b - a := Nat.le_of_dvd (by omega) hdvd
  omega

/-- The ring holds the entries of the log from number `lo` on, each in its own cell. -/
structure Window (m : ℕ → α) (cap : ℕ) (xs : List α) (lo : ℕ) : Prop where
  fits : xs.length ≤ lo + cap
  cell : ∀ k x, lo ≤ k → xs[k]? = some x → m (k % cap) = x

theorem window_nil : Window m cap [] lo := ⟨by simp, by simp⟩

namespace Window

/-- The cell of an entry in the window. -/
theorem get (h : Window m cap xs lo) {k : ℕ} (hk : lo ≤ k) (hlt : k < xs.length) :
    xs[k]? = some (m (k % cap)) := by
  rw [List.getElem?_eq_getElem hlt]
  exact congrArg some (h.cell k _ hk (List.getElem?_eq_getElem hlt)).symm

/-- Entries may be given up. -/
theorem drop (h : Window m cap xs lo) {lo' : ℕ} (hlo : lo ≤ lo') : Window m cap xs lo' :=
  ⟨h.fits.trans (by omega), fun k x hk => h.cell k x (hlo.trans hk)⟩

/-- Only the cells of the window matter. -/
theorem congr (h : Window m cap xs lo)
    (hm : ∀ k, lo ≤ k → k < xs.length → m' (k % cap) = m (k % cap)) :
    Window m' cap xs lo := by
  refine ⟨h.fits, ?_⟩
  intro k x hk hx
  obtain ⟨hlt, -⟩ := List.getElem?_eq_some_iff.mp hx
  rw [hm k hk hlt]
  exact h.cell k x hk hx

/-- New entries that were written to their cells and left the cells of the window alone
extend the window, as long as all of it fits. -/
theorem append (h : Window m cap xs lo) {ys : List α} (hfits : xs.length + ys.length ≤ lo + cap)
    (hnew : ∀ k y, ys[k]? = some y → m' ((xs.length + k) % cap) = y)
    (hold : ∀ k, lo ≤ k → k < xs.length → m' (k % cap) = m (k % cap)) :
    Window m' cap (xs ++ ys) lo := by
  refine ⟨by simpa using hfits, ?_⟩
  intro k x hk hx
  rcases lt_or_ge k xs.length with hlt | hge
  · rw [List.getElem?_append_left hlt] at hx
    exact (h.congr hold).cell k x hk hx
  · rw [List.getElem?_append_right hge] at hx
    have hcell := hnew (k - xs.length) x hx
    rwa [Nat.add_sub_cancel' hge] at hcell

/-- One more entry, when there is a free cell. -/
theorem push (h : Window m cap xs lo) (hfree : xs.length < lo + cap) (x : α) :
    Window (Function.update m (xs.length % cap) x) cap (xs ++ [x]) lo := by
  refine h.append hfree ?_ ?_
  · intro k y hy
    obtain ⟨hk, rfl⟩ := List.getElem?_eq_some_iff.mp hy
    obtain rfl : k = 0 := by simpa using hk
    exact Function.update_self ..
  · intro k hk hlt
    exact Function.update_of_ne (mod_ne hlt (by omega)) ..

/-- The oldest `n` entries, read cell by cell. -/
theorem read (h : Window m cap xs lo) {n : ℕ} (hn : lo + n ≤ xs.length) :
    (List.range n).map (fun k => m ((lo + k) % cap)) = (xs.drop lo).take n := by
  apply List.ext_getElem?
  intro k
  rcases lt_or_ge k n with hk | hk
  · rw [List.getElem?_take_of_lt hk, List.getElem?_drop, h.get (by omega) (by omega)]
    simp [List.getElem?_range hk]
  · rw [List.getElem?_eq_none (by simpa using hk)]
    rw [List.getElem?_eq_none (by rw [List.length_take]; omega)]

end Window

/-! ## Counters of `w` bits -/

section Counter

variable {w a b : ℕ}

/-- A counter finds the right cell if the ring divides its range. -/
theorem toNat_counter_mod (h : cap ∣ 2 ^ w) (k : ℕ) : (BitVec.ofNat w k).toNat % cap = k % cap := by
  rw [BitVec.toNat_ofNat, Nat.mod_mod_of_dvd _ h]

/-- The difference of two counters less than one turn apart. -/
theorem toNat_counter_sub (hab : a ≤ b) (hb : b < a + 2 ^ w) :
    (BitVec.ofNat w b - BitVec.ofNat w a).toNat = b - a := by
  have hsplit : BitVec.ofNat w b = BitVec.ofNat w a + BitVec.ofNat w (b - a) := by
    rw [← BitVec.ofNat_add, Nat.add_sub_cancel' hab]
  rw [hsplit, add_sub_cancel_left, BitVec.toNat_ofNat, Nat.mod_eq_of_lt (by omega)]

/-- Two counters less than one turn apart are equal only if the numbers are. -/
theorem counter_eq_iff (hab : a ≤ b) (hb : b < a + 2 ^ w) :
    BitVec.ofNat w a = BitVec.ofNat w b ↔ a = b := by
  constructor
  · intro h
    have hsub := toNat_counter_sub hab hb
    rw [h, BitVec.sub_self, BitVec.toNat_zero] at hsub
    omega
  · rintro rfl
    rfl

theorem counter_succ (k : ℕ) : BitVec.ofNat w k + 1#w = BitVec.ofNat w (k + 1) := by
  rw [BitVec.ofNat_add]

end Counter

/-! ## Positions -/

section Positions

variable {n p c k : ℕ}

/-- The cell `k` places after `p`, for less than one turn. -/
def idx (n p k : ℕ) : ℕ := if p + k < n then p + k else p + k - n

/-- How many places `c` is after `p`. -/
def gap (n p c : ℕ) : ℕ := if p ≤ c then c - p else c + n - p

theorem idx_zero (hp : p < n) : idx n p 0 = p := by
  rw [idx, if_pos (by omega), Nat.add_zero]

theorem idx_lt (hp : p < n) (hk : k ≤ n) : idx n p k < n := by
  unfold idx
  split <;> omega

theorem idx_ne {j : ℕ} (hjk : j < k) (hk : k < n) : idx n p j ≠ idx n p k := by
  unfold idx
  split <;> split <;> omega

/-- One place first, and then `k`. -/
theorem idx_idx_one (hp : p < n) (hk : k + 1 ≤ n) : idx n (idx n p 1) k = idx n p (k + 1) := by
  unfold idx
  split <;> split <;> split <;> omega

/-- Or the other way round. -/
theorem idx_one_idx (hp : p < n) (hk : k + 1 ≤ n) : idx n (idx n p k) 1 = idx n p (k + 1) := by
  unfold idx
  split <;> split <;> split <;> omega

theorem gap_lt (hp : p < n) (hc : c < n) : gap n p c < n := by
  unfold gap
  split <;> omega

theorem gap_eq_zero (hp : p < n) : gap n p c = 0 ↔ p = c := by
  unfold gap
  split <;> omega

theorem idx_gap (hp : p < n) (hc : c < n) : idx n p (gap n p c) = c := by
  unfold idx gap
  split <;> split <;> omega

theorem gap_idx (hp : p < n) (hk : k < n) : gap n p (idx n p k) = k := by
  unfold idx gap
  split <;> split <;> omega

/-- The later position moves on, as long as it does not catch up. -/
theorem gap_idx_one_right (hp : p < n) (hc : c < n) (h : gap n p c + 1 < n) :
    gap n p (idx n c 1) = gap n p c + 1 := by
  unfold gap idx at *
  repeat' split at h
  all_goals repeat' split
  all_goals omega

/-- The earlier position moves on, up to the later one. -/
theorem gap_idx_one_left (hp : p < n) (hc : c < n) (h : gap n p c ≠ 0) :
    gap n (idx n p 1) c + 1 = gap n p c := by
  unfold gap idx at *
  repeat' split at h
  all_goals repeat' split
  all_goals omega

/-- A turn visits every cell once. -/
theorem map_idx_range_perm (hp : p < n) : ((List.range n).map (idx n p)).Perm (List.range n) := by
  have hturn : (List.range n).map (idx n p) = List.range' p (n - p) ++ List.range' 0 p := by
    apply List.ext_getElem
    · simp only [List.length_map, List.length_range, List.length_append, List.length_range']
      omega
    · intro k hk _
      rw [List.getElem_map, List.getElem_range, List.getElem_append, idx]
      simp only [List.length_range', List.getElem_range']
      split <;> split <;> omega
  have hwhole : List.range n = List.range' 0 p ++ List.range' p (n - p) := by
    rw [List.range_eq_range', ← Nat.add_sub_cancel' hp.le, ← List.range'_append_1]
    simp
  rw [hturn, hwhole]
  exact List.perm_append_comm

end Positions

/-! ## Rings of optional cells -/

/-- The entries lie in the cells from `p` on; the other cells, at least one, are empty. -/
structure Slots (m : ℕ → Option α) (n p : ℕ) (xs : List α) : Prop where
  start : p < n
  fits : xs.length < n
  cell : ∀ k x, xs[k]? = some x → m (idx n p k) = some x
  rest : ∀ k, xs.length ≤ k → k < n → m (idx n p k) = none

/-- The entries with their cells. -/
def tag (n : ℕ) : ℕ → List α → List (ℕ × α)
  | _, [] => []
  | p, x :: xs => (p, x) :: tag n (idx n p 1) xs

section Slots

variable {m : ℕ → Option α} {n p : ℕ}

@[simp]
theorem length_tag : ∀ (p : ℕ) (xs : List α), (tag n p xs).length = xs.length
  | _, [] => rfl
  | p, x :: xs => by rw [tag, List.length_cons, List.length_cons, length_tag (idx n p 1) xs]

@[simp]
theorem map_snd_tag : ∀ (p : ℕ) (xs : List α), (tag n p xs).map Prod.snd = xs
  | _, [] => rfl
  | p, x :: xs => by rw [tag, List.map_cons, map_snd_tag (idx n p 1) xs]

theorem tag_concat (x : α) : ∀ {p : ℕ} {xs : List α}, p < n → xs.length < n →
    tag n p (xs ++ [x]) = tag n p xs ++ [(idx n p xs.length, x)]
  | p, [], hp, _ => by simp [tag, idx_zero hp]
  | p, y :: xs, hp, hlen => by
      rw [List.length_cons] at hlen
      rw [List.cons_append, tag, tag_concat x (idx_lt hp (by omega)) (by omega),
        idx_idx_one hp (by omega), tag]
      rfl

theorem mem_tag {i : ℕ} {x : α} : ∀ {p : ℕ} {xs : List α}, p < n → xs.length < n →
    ((i, x) ∈ tag n p xs ↔ ∃ k, xs[k]? = some x ∧ i = idx n p k)
  | p, [], _, _ => by simp [tag]
  | p, y :: xs, hp, hlen => by
      rw [List.length_cons] at hlen
      rw [tag, List.mem_cons, mem_tag (idx_lt hp (by omega)) (by omega)]
      constructor
      · rintro (h | ⟨k, hk, rfl⟩)
        · obtain ⟨rfl, rfl⟩ := Prod.mk.inj h
          exact ⟨0, rfl, (idx_zero hp).symm⟩
        · obtain ⟨hlt, -⟩ := List.getElem?_eq_some_iff.mp hk
          exact ⟨k + 1, hk, idx_idx_one hp (by omega)⟩
      · rintro ⟨k, hk, rfl⟩
        cases k with
        | zero =>
          cases hk
          exact .inl (by rw [idx_zero hp])
        | succ k =>
          obtain ⟨hlt, -⟩ := List.getElem?_eq_some_iff.mp hk
          rw [List.length_cons] at hlt
          exact .inr ⟨k, hk, (idx_idx_one hp (by omega)).symm⟩

namespace Slots

/-- An empty ring. -/
theorem nil (hp : p < n) (h : ∀ i < n, m i = none) : Slots m n p ([] : List α) where
  start := hp
  fits := by rw [List.length_nil]; omega
  cell := by simp
  rest := fun k _ hk => h _ (idx_lt hp hk.le)

/-- The next cell is empty. -/
theorem vacant {xs : List α} (h : Slots m n p xs) : m (idx n p xs.length) = none :=
  h.rest _ le_rfl h.fits

theorem eq_some_iff {xs : List α} (h : Slots m n p xs) {i : ℕ} (hi : i < n) {x : α} :
    m i = some x ↔ (i, x) ∈ tag n p xs := by
  rw [mem_tag h.start h.fits]
  constructor
  · intro hm
    refine ⟨gap n p i, ?_, (idx_gap h.start hi).symm⟩
    rcases lt_or_ge (gap n p i) xs.length with hlt | hge
    · have hcell := h.cell (gap n p i) _ (List.getElem?_eq_getElem hlt)
      rw [idx_gap h.start hi, hm] at hcell
      rw [List.getElem?_eq_getElem hlt]
      exact hcell.symm
    · have hnone := h.rest _ hge (gap_lt h.start hi)
      rw [idx_gap h.start hi, hm] at hnone
      cases hnone
  · rintro ⟨k, hk, rfl⟩
    exact h.cell k x hk

/-- An entry in the next cell. -/
theorem push {xs : List α} (h : Slots m n p xs) (hfits : xs.length + 1 < n) (x : α) :
    Slots (Function.update m (idx n p xs.length) (some x)) n p (xs ++ [x]) where
  start := h.start
  fits := by simpa using hfits
  cell := by
    intro k y hy
    rcases lt_trichotomy k xs.length with hlt | rfl | hgt
    · rw [List.getElem?_append_left hlt] at hy
      rw [Function.update_of_ne (idx_ne hlt h.fits)]
      exact h.cell k y hy
    · rw [List.getElem?_concat_length] at hy
      rw [Function.update_self, hy]
    · rw [List.getElem?_eq_none (by rw [List.length_append]; exact hgt)] at hy
      cases hy
  rest := by
    intro k hk hkn
    rw [List.length_append, List.length_singleton] at hk
    rw [Function.update_of_ne (idx_ne (by omega) hkn).symm]
    exact h.rest k (by omega) hkn

/-- The first entry leaves. -/
theorem pop {x : α} {xs : List α} (h : Slots m n p (x :: xs)) :
    m p = some x ∧ Slots (Function.update m p none) n (idx n p 1) xs := by
  have hfits := h.fits
  rw [List.length_cons] at hfits
  have hne : ∀ k, k + 1 < n → idx n p (k + 1) ≠ p := by
    intro k hk heq
    exact idx_ne (n := n) (p := p) (Nat.succ_pos k) hk ((idx_zero h.start).trans heq.symm)
  refine ⟨?_, idx_lt h.start (by omega), by omega, ?_, ?_⟩
  · have hcell := h.cell 0 x rfl
    rwa [idx_zero h.start] at hcell
  · intro k y hy
    obtain ⟨hlt, -⟩ := List.getElem?_eq_some_iff.mp hy
    rw [idx_idx_one h.start (by omega), Function.update_of_ne (hne k (by omega))]
    exact h.cell (k + 1) y hy
  · intro k hk hkn
    rcases Nat.lt_or_ge (k + 1) n with hlt | hge
    · rw [idx_idx_one h.start (by omega), Function.update_of_ne (hne k hlt)]
      exact h.rest (k + 1) (by rw [List.length_cons]; omega) hlt
    · -- the cell that was given up is now the last one
      have hlast : idx n (idx n p 1) k = p := by
        rw [idx_idx_one h.start (by omega), idx]
        split <;> omega
      rw [hlast, Function.update_self]

/-- The entries, read cell by cell in the order of the cells. -/
theorem filterMap_range_perm {xs : List α} (h : Slots m n p xs) :
    ((List.range n).filterMap m).Perm xs := by
  have hturn : ((List.range n).map (idx n p)).filterMap m = xs := by
    have hsplit : List.range n =
        List.range xs.length ++ (List.range (n - xs.length)).map (xs.length + ·) := by
      rw [← List.range_add, Nat.add_sub_cancel' h.fits.le]
    have hfront : (List.range xs.length).map (m ∘ idx n p) = xs.map some := by
      apply List.ext_getElem
      · simp
      · intro k _ hk
        rw [List.length_map] at hk
        rw [List.getElem_map, List.getElem_range, List.getElem_map]
        exact h.cell k _ (List.getElem?_eq_getElem hk)
    have hback : ((List.range (n - xs.length)).map (xs.length + ·)).filterMap (m ∘ idx n p) =
        [] := by
      rw [List.filterMap_eq_nil_iff]
      intro k hk
      obtain ⟨j, hj, rfl⟩ := List.mem_map.mp hk
      rw [List.mem_range] at hj
      exact h.rest _ (by omega) (by omega)
    have hsome : (List.range xs.length).filterMap (m ∘ idx n p) = xs := by
      rw [← Function.id_comp (m ∘ idx n p), ← List.filterMap_map, hfront]
      simp
    rw [List.filterMap_map, hsplit, List.filterMap_append, hback, List.append_nil, hsome]
  rw [← hturn]
  exact (map_idx_range_perm h.start).symm.filterMap m

end Slots

end Slots

end RingWindow
