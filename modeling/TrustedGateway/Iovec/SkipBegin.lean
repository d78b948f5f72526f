import TrustedGateway.Iovec
import Mathlib.Data.List.Infix

/-!
# Copies behind a skipped prefix

The two copies that leave out a prefix pass the buffers of the prefix first, counting
their lengths in a `size_t`, and hand the buffers behind the one in which the prefix
ends over to the plain copy.  `PrefixEnds pre v skip` says where the first loop stops;
everything after that is one `memcpy` into the rest of `v` and a plain copy.

The first half is about lists of buffers with null bases anywhere: which value the
functions return, against the number of bytes they copied.  The second half runs the
calls in one memory that holds the data and the buffers.
-/

namespace TrustedGateway

open FlatMemory

/-! ## The plain copy over any buffers -/

section Null

variable {v : Iovec} {vs pre post : List Iovec} {buf len skip : ℕ}

/-- One of the first `len` bytes behind the buffers lies in a buffer whose base is null. -/
def MeetsNull (vs : List Iovec) (len : ℕ) : Prop :=
  ∃ pre v post, vs = pre ++ v :: post ∧ v.base = 0 ∧ 0 < v.len.toNat ∧ iovLen pre < len

@[simp] theorem not_meetsNull_nil : ¬ MeetsNull [] len := by
  rintro ⟨pre, v, post, h, -⟩
  simp at h

@[simp] theorem not_meetsNull_zero : ¬ MeetsNull vs 0 := by
  rintro ⟨pre, v, post, -, -, -, h⟩
  exact Nat.not_lt_zero _ h

theorem meetsNull_cons :
    MeetsNull (v :: vs) len ↔
      (v.base = 0 ∧ 0 < v.len.toNat ∧ 0 < len) ∨ MeetsNull vs (len - v.len.toNat) := by
  constructor
  · rintro ⟨pre, u, post, hs, hb, hu, hl⟩
    cases pre with
    | nil =>
      obtain ⟨rfl, rfl⟩ := List.cons.inj hs
      exact .inl ⟨hb, hu, hl⟩
    | cons w pre =>
      obtain ⟨rfl, rfl⟩ := List.cons.inj hs
      exact .inr ⟨pre, u, post, rfl, hb, hu, by rw [iovLen_cons] at hl; omega⟩
  · rintro (⟨hb, hv, hl⟩ | ⟨pre, u, post, rfl, hb, hu, hl⟩)
    · exact ⟨[], v, vs, rfl, hb, hv, hl⟩
    · exact ⟨v :: pre, u, post, rfl, hb, hu, by rw [iovLen_cons]; omega⟩

/-- The number of bytes that a list of calls moves. -/
def bytesMoved (cs : List Memcpy) : ℕ := (cs.map Memcpy.len).sum

@[simp] theorem bytesMoved_nil : bytesMoved [] = 0 := rfl

@[simp] theorem bytesMoved_cons (c : Memcpy) (cs : List Memcpy) :
    bytesMoved (c :: cs) = c.len + bytesMoved cs := rfl

@[simp] theorem bytesMoved_append (cs ds : List Memcpy) :
    bytesMoved (cs ++ ds) = bytesMoved cs + bytesMoved ds := by
  simp [bytesMoved]

@[simp] theorem bytesMoved_orNone (c : Memcpy) : bytesMoved c.orNone = c.len := by
  by_cases hc : c.len = 0 <;> simp [Memcpy.orNone, hc]

theorem iovecLoop_of_meetsNull (h : MeetsNull vs len) (buf copied : ℕ) :
    (iovecLoop vs buf len copied).1 = ssizeErrInvalidArgs := by
  induction vs generalizing buf len copied with
  | nil => exact absurd h not_meetsNull_nil
  | cons v vs ih =>
    rcases meetsNull_cons.mp h with ⟨hb, hv, hl⟩ | h
    · simp [iovecLoop, show min len v.len.toNat ≠ 0 by omega, hb]
    · have hpos : len - v.len.toNat ≠ 0 := by
        intro h0
        exact not_meetsNull_zero (h0 ▸ h)
      by_cases hz : min len v.len.toNat = 0
      · have hv : v.len.toNat = 0 := by omega
        simp only [iovecLoop, hz, if_true]
        exact ih (by simpa [hv] using h) buf copied
      · have hmin : min len v.len.toNat = v.len.toNat := by omega
        by_cases hb : v.base = 0
        · simp [iovecLoop, hz, hb]
        · rw [hmin] at hz
          simp only [iovecLoop, hmin, if_neg hz, if_neg hb, if_neg hpos]
          exact ih h _ _

theorem iovecLoop_of_not_meetsNull (h : ¬ MeetsNull vs len) (buf copied : ℕ) :
    (iovecLoop vs buf len copied).1 = BitVec.ofNat 32 (copied + min len (iovLen vs)) ∧
      bytesMoved (iovecLoop vs buf len copied).2 = min len (iovLen vs) := by
  induction vs generalizing buf len copied with
  | nil => simp [iovecLoop]
  | cons v vs ih =>
    rw [meetsNull_cons, not_or] at h
    by_cases hz : min len v.len.toNat = 0
    · have hrest : ¬ MeetsNull vs len := by
        rcases Nat.eq_zero_or_pos len with rfl | hl
        · exact not_meetsNull_zero
        · simpa [show v.len.toNat = 0 by omega] using h.2
      have hm : min len (v.len.toNat + iovLen vs) = min len (iovLen vs) := by omega
      simp only [iovecLoop, hz, if_true, iovLen_cons, hm]
      exact ih hrest buf copied
    · have hb : v.base ≠ 0 := by
        intro hb
        exact h.1 ⟨hb, by omega, by omega⟩
      by_cases hr : len - min len v.len.toNat = 0
      · have hm : min len (v.len.toNat + iovLen vs) = min len v.len.toNat := by omega
        simp only [iovecLoop, if_neg hz, if_neg hb, hr, if_true, iovLen_cons, hm,
          bytesMoved_cons, bytesMoved_nil, Nat.add_zero, and_self]
      · have hmin : min len v.len.toNat = v.len.toNat := by omega
        obtain ⟨h₁, h₂⟩ := ih h.2 (buf + v.len.toNat) (copied + v.len.toNat)
        have hm : min len (v.len.toNat + iovLen vs) =
            v.len.toNat + min (len - v.len.toNat) (iovLen vs) := by omega
        rw [hmin] at hz hr
        simp only [iovecLoop, hmin, if_neg hz, if_neg hb, if_neg hr, h₁, bytesMoved_cons, h₂,
          iovLen_cons, hm, Nat.add_assoc, and_self]

/-- **The plain copy with a null base in the way.** -/
theorem iovecCopies_of_meetsNull (h : MeetsNull vs len) (buf : ℕ) :
    (iovecCopies vs (some buf) len).1 = ssizeErrInvalidArgs := by
  have hc : ¬ (vs.length = 0 ∨ len = 0) := by
    rintro (h0 | rfl)
    · rw [List.length_eq_zero_iff.mp h0] at h
      exact not_meetsNull_nil h
    · exact not_meetsNull_zero h
  simp only [iovecCopies, if_neg hc]
  exact iovecLoop_of_meetsNull h buf 0

/-- **The plain copy without one.** -/
theorem iovecCopies_of_not_meetsNull (h : ¬ MeetsNull vs len) (buf : ℕ) :
    (iovecCopies vs (some buf) len).1 = BitVec.ofNat 32 (min len (iovLen vs)) ∧
      bytesMoved (iovecCopies vs (some buf) len).2 = min len (iovLen vs) := by
  by_cases hc : vs.length = 0 ∨ len = 0
  · simp only [iovecCopies, if_pos hc]
    rcases hc with hc | rfl
    · rw [List.length_eq_zero_iff.mp hc]
      simp
    · simp
  · simp only [iovecCopies, if_neg hc]
    simpa using iovecLoop_of_not_meetsNull h buf 0

/-! ## Where the prefix ends -/

/-- The prefix of `skip` bytes ends in the buffer `v`, behind the buffers `pre`: at its end
the lengths, added up as a `size_t`, come to `skip` for the first time. -/
structure PrefixEnds (pre : List Iovec) (v : Iovec) (skip : ℕ) : Prop where
  below : ∀ p, p <+: pre → iovLen p % 2 ^ 32 < skip
  reached : skip ≤ iovLen (pre ++ [v]) % 2 ^ 32

/-- The bytes of the buffer `v` that lie behind the prefix. -/
def restBuf (pre : List Iovec) (v : Iovec) (skip : ℕ) : ℕ :=
  iovLen (pre ++ [v]) % 2 ^ 32 - skip

@[simp] theorem iovLen_append (us vs : List Iovec) : iovLen (us ++ vs) = iovLen us + iovLen vs := by
  simp [iovLen]

theorem restBuf_eq (pre : List Iovec) (v : Iovec) (skip : ℕ) :
    restBuf pre v skip = (iovLen pre + v.len.toNat) % 2 ^ 32 - skip := by
  simp [restBuf]

/-- There is one such buffer at most. -/
theorem PrefixEnds.unique {pre' post' : List Iovec} {v' : Iovec} (h : PrefixEnds pre v skip)
    (h' : PrefixEnds pre' v' skip) (he : pre ++ v :: post = pre' ++ v' :: post') :
    pre = pre' ∧ v = v' ∧ post = post' := by
  have hnot : ∀ {p p' q q' : List Iovec} {u u' : Iovec}, PrefixEnds p u skip →
      PrefixEnds p' u' skip → p ++ u :: q = p' ++ u' :: q' → p'.length ≤ p.length := by
    intro p p' q q' u u' hu hu' he
    by_contra hlt
    have hpu : p ++ [u] <+: p' ++ u' :: q' := ⟨q, by simp [← he]⟩
    have hpre : p ++ [u] <+: p' := by
      refine List.prefix_of_prefix_length_le hpu (List.prefix_append p' (u' :: q')) ?_
      simp only [List.length_append, List.length_singleton]
      omega
    exact absurd hu.reached (not_le.mpr (hu'.below _ hpre))
  have hlen : pre.length = pre'.length := le_antisymm (hnot h' h he.symm) (hnot h h' he)
  obtain ⟨rfl, ht⟩ := List.append_inj he hlen
  obtain ⟨rfl, rfl⟩ := List.cons.inj ht
  exact ⟨rfl, rfl, rfl⟩

/-- Passing the buffers in front of the end of the prefix. -/
theorem iovecSkipLoop_append (rest done : List Iovec) (buf len : ℕ)
    (h : ∀ p, p <+: pre → iovLen (done ++ p) % 2 ^ 32 < skip) :
    iovecSkipLoop (pre ++ rest) (iovLen done % 2 ^ 32) skip buf len =
      iovecSkipLoop rest (iovLen (done ++ pre) % 2 ^ 32) skip buf len := by
  induction pre generalizing done with
  | nil => simp
  | cons u pre ih =>
    have hu := h [u] (by simp)
    have hadd : addSize (iovLen done % 2 ^ 32) u.len.toNat =
        iovLen (done ++ [u]) % 2 ^ 32 := by
      simp [addSize]
    rw [List.cons_append, iovecSkipLoop]
    simp only [hadd, if_pos hu]
    rw [ih (done ++ [u]) ?_]
    · simp
    · intro p hp
      have := h (u :: p) (by simpa using hp)
      simpa using this

/-- The prefix ends in some buffer, or the count never gets there. -/
theorem exists_prefixEnds_or (hs : 0 < skip) (vs : List Iovec) :
    (∃ pre v post, vs = pre ++ v :: post ∧ PrefixEnds pre v skip) ∨
      ∀ p, p <+: vs → iovLen p % 2 ^ 32 < skip := by
  induction vs using List.reverseRecOn with
  | nil => simp [hs]
  | append_singleton vs v ih =>
    rcases ih with ⟨pre, u, post, rfl, h⟩ | h
    · exact .inl ⟨pre, u, post ++ [v], by simp, h⟩
    · by_cases hv : iovLen (vs ++ [v]) % 2 ^ 32 < skip
      · refine .inr fun p hp => ?_
        rcases List.prefix_concat_iff.mp hp with rfl | hp
        · exact hv
        · exact h p hp
      · exact .inl ⟨vs, v, [], rfl, h, not_lt.mp hv⟩

/-- A prefix that the count never reaches is an error. -/
theorem iovecCopiesSkipBegin_of_not_reached (hs : 0 < skip) (hl : 0 < len) (hvs : vs ≠ [])
    (h : ∀ p, p <+: vs → iovLen p % 2 ^ 32 < skip) :
    iovecCopiesSkipBegin vs (some buf) len skip = (ssizeErrInvalidArgs, []) := by
  have hc : ¬ (vs.length = 0 ∨ len = 0) := by
    simp [hvs, hl.ne']
  have hloop := iovecSkipLoop_append [] [] buf len (by simpa using h)
  rw [List.append_nil, List.nil_append] at hloop
  simp only [iovecCopiesSkipBegin, hs.ne', if_neg hc, if_false]
  exact hloop

/-- **Behind the prefix**: a null base is an error, a rest that is long enough ends the copy,
and otherwise the plain copy goes on. -/
theorem iovecCopiesSkipBegin_of_prefixEnds (h : PrefixEnds pre v skip) (hl : 0 < len) :
    iovecCopiesSkipBegin (pre ++ v :: post) (some buf) len skip =
      let r := restBuf pre v skip
      let c : Memcpy := ⟨buf, v.base.toNat + (v.len.toNat - r), r⟩
      if 0 < r ∧ v.base = 0 then (ssizeErrInvalidArgs, [])
      else if 0 < r ∧ len ≤ r then (BitVec.ofNat 32 len, [c])
      else
        let rest := iovecCopies post (some (buf + r)) (len - r)
        (BitVec.ofNat 32 r + rest.1, c.orNone ++ rest.2) := by
  have hs : 0 < skip := (Nat.zero_le _).trans_lt (h.below [] (List.nil_prefix))
  have hc : ¬ ((pre ++ v :: post).length = 0 ∨ len = 0) := by
    simp [hl.ne']
  have hloop := iovecSkipLoop_append (v :: post) [] buf len (by simpa using h.below)
  have hadd : addSize (iovLen pre % 2 ^ 32) v.len.toNat = iovLen (pre ++ [v]) % 2 ^ 32 := by
    simp [addSize]
  rw [List.nil_append] at hloop
  simp only [iovecCopiesSkipBegin, hs.ne', if_neg hc, if_false]
  rw [show iovecSkipLoop (pre ++ v :: post) 0 skip buf len = _ from hloop, iovecSkipLoop]
  simp only [hadd, if_neg (not_lt.mpr h.reached)]
  rw [← restBuf]
  have hmin : min (restBuf pre v skip) len = len ↔ len ≤ restBuf pre v skip := by omega
  by_cases hr : restBuf pre v skip = 0
  · simp [hr, Memcpy.orNone]
  · simp [hmin, Memcpy.orNone, hr, Nat.pos_of_ne_zero hr]

end Null

/-! ## Errors and counts -/

/-- The call has to touch a non-empty buffer whose base is null before it has copied `len`
bytes. -/
def HasToTouchNull (vs : List Iovec) (len skip : ℕ) : Prop :=
  (skip = 0 ∧ MeetsNull vs len) ∨
    ∃ pre v post, vs = pre ++ v :: post ∧ PrefixEnds pre v skip ∧
      ((0 < restBuf pre v skip ∧ 0 < len ∧ v.base = 0) ∨
        MeetsNull post (len - restBuf pre v skip))

/-- What a copy returns tells what it did: `ERR_INVALID_ARGS` if a null base was in the way,
and else the number of bytes copied. -/
def TellsErrors (c : Copied) (null : Prop) : Prop :=
  (null → c.ret = ssizeErrInvalidArgs) ∧ (¬ null → c.ret.toInt = bytesMoved c.calls)

/-- The lists, lengths and prefixes without an error to lose.  Behind the prefix there is a
null base at once, exactly as much as is asked for, or nothing in the buffer where it ends
and a null base later; or a copy that goes on meets no null base at all. -/
def NoErrorLost (vs : List Iovec) (len skip : ℕ) : Prop :=
  vs = [] ∨ len = 0 ∨ (skip = 0 ∧ (MeetsNull vs len ∨ min len (iovLen vs) < 2 ^ 31)) ∨
    ∃ pre v post, vs = pre ++ v :: post ∧ PrefixEnds pre v skip ∧
      ((0 < restBuf pre v skip ∧ v.base = 0) ∨
        (restBuf pre v skip = len ∧ len < 2 ^ 31) ∨
        (restBuf pre v skip = 0 ∧ MeetsNull post len) ∨
        (restBuf pre v skip < len ∧ ¬ MeetsNull post (len - restBuf pre v skip) ∧
          min len (restBuf pre v skip + iovLen post) < 2 ^ 31))

section Errors

variable {v : Iovec} {vs pre post : List Iovec} {buf len skip : ℕ}

/-- A count is its own value as long as it is not taken for a negative one. -/
theorem toInt_ofNat_eq_iff {n : ℕ} (hn : n < 2 ^ 32) :
    (BitVec.ofNat 32 n).toInt = n ↔ n < 2 ^ 31 := by
  rw [BitVec.toInt_eq_toNat_cond, BitVec.toNat_ofNat, Nat.mod_eq_of_lt hn]
  split <;> omega

@[simp] theorem toInt_ssizeErrInvalidArgs : ssizeErrInvalidArgs.toInt = -8 := by decide

theorem hasToTouchNull_zero : HasToTouchNull vs len 0 ↔ MeetsNull vs len := by
  refine ⟨?_, fun h => .inl ⟨rfl, h⟩⟩
  rintro (⟨-, h⟩ | ⟨pre, v, post, -, h, -⟩)
  · exact h
  · exact absurd (h.below [] List.nil_prefix) (Nat.not_lt_zero _)

theorem hasToTouchNull_iff (h : PrefixEnds pre v skip) :
    HasToTouchNull (pre ++ v :: post) len skip ↔
      ((0 < restBuf pre v skip ∧ 0 < len ∧ v.base = 0) ∨
        MeetsNull post (len - restBuf pre v skip)) := by
  refine ⟨?_, fun hn => .inr ⟨pre, v, post, rfl, h, hn⟩⟩
  rintro (⟨rfl, -⟩ | ⟨pre', v', post', he, h', hn⟩)
  · exact absurd (h.below [] List.nil_prefix) (Nat.not_lt_zero _)
  · obtain ⟨rfl, rfl, rfl⟩ := h.unique h' he
    exact hn

theorem noErrorLost_zero (hvs : vs ≠ []) (hl : len ≠ 0) :
    NoErrorLost vs len 0 ↔ MeetsNull vs len ∨ min len (iovLen vs) < 2 ^ 31 := by
  refine ⟨?_, fun h => .inr (.inr (.inl ⟨rfl, h⟩))⟩
  rintro (h | h | ⟨-, h⟩ | ⟨pre, v, post, -, h, -⟩)
  · exact absurd h hvs
  · exact absurd h hl
  · exact h
  · exact absurd (h.below [] List.nil_prefix) (Nat.not_lt_zero _)

theorem noErrorLost_iff (h : PrefixEnds pre v skip) (hl : len ≠ 0) :
    NoErrorLost (pre ++ v :: post) len skip ↔
      ((0 < restBuf pre v skip ∧ v.base = 0) ∨
        (restBuf pre v skip = len ∧ len < 2 ^ 31) ∨
        (restBuf pre v skip = 0 ∧ MeetsNull post len) ∨
        (restBuf pre v skip < len ∧ ¬ MeetsNull post (len - restBuf pre v skip) ∧
          min len (restBuf pre v skip + iovLen post) < 2 ^ 31)) := by
  refine ⟨?_, fun hn => .inr (.inr (.inr ⟨pre, v, post, rfl, h, hn⟩))⟩
  rintro (h0 | h0 | ⟨rfl, -⟩ | ⟨pre', v', post', he, h', hn⟩)
  · simp at h0
  · exact absurd h0 hl
  · exact absurd (h.below [] List.nil_prefix) (Nat.not_lt_zero _)
  · obtain ⟨rfl, rfl, rfl⟩ := h.unique h' he
    exact hn

theorem not_noErrorLost_of_not_reached (hvs : vs ≠ []) (hl : len ≠ 0) (hs : 0 < skip)
    (h : ∀ p, p <+: vs → iovLen p % 2 ^ 32 < skip) : ¬ NoErrorLost vs len skip := by
  rintro (h0 | h0 | ⟨rfl, -⟩ | ⟨pre, v, post, rfl, hp, -⟩)
  · exact hvs h0
  · exact hl h0
  · exact absurd hs (Nat.not_lt_zero _)
  · exact absurd hp.reached (not_le.mpr (h _ ⟨post, by simp⟩))

theorem not_hasToTouchNull_of_not_reached (hs : 0 < skip)
    (h : ∀ p, p <+: vs → iovLen p % 2 ^ 32 < skip) : ¬ HasToTouchNull vs len skip := by
  rintro (⟨rfl, -⟩ | ⟨pre, v, post, rfl, hp, -⟩)
  · exact absurd hs (Nat.not_lt_zero _)
  · exact absurd hp.reached (not_le.mpr (h _ ⟨post, by simp⟩))

theorem tellsErrors_iff_of_null {c : Copied} {null : Prop} (h : null) :
    TellsErrors c null ↔ c.ret = ssizeErrInvalidArgs := by
  simp [TellsErrors, h]

theorem tellsErrors_iff_of_not_null {c : Copied} {null : Prop} (h : ¬ null) :
    TellsErrors c null ↔ c.ret.toInt = bytesMoved c.calls := by
  simp [TellsErrors, h]

/-- The plain copy tells its errors, as long as its count fits. -/
theorem tellsErrors_iovecCopies (mem : ℕ → Byte) (hl : len < 2 ^ 32) :
    TellsErrors ⟨(iovecCopies vs (some buf) len).1, mem, (iovecCopies vs (some buf) len).2⟩
        (MeetsNull vs len) ↔ MeetsNull vs len ∨ min len (iovLen vs) < 2 ^ 31 := by
  by_cases hn : MeetsNull vs len
  · simp [tellsErrors_iff_of_null, hn, iovecCopies_of_meetsNull hn]
  · obtain ⟨h₁, h₂⟩ := iovecCopies_of_not_meetsNull hn buf
    rw [tellsErrors_iff_of_not_null hn, h₁, h₂, or_iff_right hn]
    exact toInt_ofNat_eq_iff (by omega)

/-- The sum of a count and the error code is the error code only if the count is `0`. -/
theorem ofNat_add_ssizeErrInvalidArgs_iff {n : ℕ} (hn : n < 2 ^ 32) :
    BitVec.ofNat 32 n + ssizeErrInvalidArgs = ssizeErrInvalidArgs ↔ n = 0 := by
  have herr : ssizeErrInvalidArgs.toNat = 2 ^ 32 - 8 := by decide
  rw [← BitVec.toNat_inj, BitVec.toNat_add, BitVec.toNat_ofNat, herr]
  omega

/-- At the end of the prefix, the ways in which the copy goes on. -/
theorem tellsErrors_of_prefixEnds (mem : ℕ → Byte) (h : PrefixEnds pre v skip) (hl : 0 < len)
    (hl' : len < 2 ^ 32) :
    TellsErrors ⟨(iovecCopiesSkipBegin (pre ++ v :: post) (some buf) len skip).1, mem,
        (iovecCopiesSkipBegin (pre ++ v :: post) (some buf) len skip).2⟩
        (HasToTouchNull (pre ++ v :: post) len skip) ↔
      NoErrorLost (pre ++ v :: post) len skip := by
  rw [hasToTouchNull_iff h, noErrorLost_iff h hl.ne', iovecCopiesSkipBegin_of_prefixEnds h hl]
  generalize restBuf pre v skip = r
  by_cases hnull : 0 < r ∧ v.base = 0
  · simp [TellsErrors, hnull, hl]
  have hnull' : ¬ (0 < r ∧ 0 < len ∧ v.base = 0) := by
    rintro ⟨h₁, -, h₂⟩
    exact hnull ⟨h₁, h₂⟩
  simp only [if_neg hnull]
  rw [or_iff_right hnull, or_iff_right hnull']
  by_cases hover : 0 < r ∧ len ≤ r
  · -- the rest of the buffer is copied in full, also where it is longer than `len`
    have hz : len - r = 0 := by omega
    have hret := toInt_ofNat_eq_iff hl'
    rw [hz, tellsErrors_iff_of_not_null not_meetsNull_zero, if_pos hover]
    simp only [bytesMoved_cons, bytesMoved_nil, Nat.add_zero]
    rw [BitVec.toInt_eq_toNat_cond, BitVec.toNat_ofNat, Nat.mod_eq_of_lt hl']
    constructor
    · intro he
      refine .inl ?_
      split at he <;> omega
    · rintro (⟨rfl, hlt⟩ | ⟨h0, -⟩ | ⟨hlt, -⟩)
      · rw [if_pos (by omega)]
      · omega
      · omega
  · have hlt : r < len := by omega
    rw [if_neg hover]
    by_cases hn : MeetsNull post (len - r)
    · rw [tellsErrors_iff_of_null hn]
      simp only [iovecCopies_of_meetsNull hn]
      rw [ofNat_add_ssizeErrInvalidArgs_iff (by omega)]
      constructor
      · rintro rfl
        exact .inr (.inl ⟨rfl, hn⟩)
      · rintro (⟨rfl, -⟩ | ⟨h0, -⟩ | ⟨-, hnot, -⟩)
        · exact absurd hlt (lt_irrefl _)
        · exact h0
        · exact absurd hn hnot
    · obtain ⟨h₁, h₂⟩ := iovecCopies_of_not_meetsNull hn (buf + r)
      have hmin : r + min (len - r) (iovLen post) = min len (r + iovLen post) := by omega
      have hmoved : bytesMoved (Memcpy.orNone ⟨buf, v.base.toNat + (v.len.toNat - r), r⟩ ++
          (iovecCopies post (some (buf + r)) (len - r)).2) = min len (r + iovLen post) := by
        rw [bytesMoved_append, h₂, bytesMoved_orNone, hmin]
      rw [tellsErrors_iff_of_not_null hn]
      simp only [h₁, hmoved, ← BitVec.ofNat_add, hmin]
      rw [toInt_ofNat_eq_iff (by omega)]
      constructor
      · intro hfit
        exact .inr (.inr ⟨hlt, hn, hfit⟩)
      · rintro (⟨rfl, -⟩ | ⟨rfl, hm⟩ | ⟨-, -, hfit⟩)
        · exact absurd hlt (lt_irrefl _)
        · exact absurd hm hn
        · exact hfit

/-- Whichever the direction, the list of calls with its result tells its errors exactly if
none is lost. -/
theorem tellsErrors_skipBegin_iff (mem : ℕ → Byte) (vs : List Iovec) (buf : ℕ)
    {len skip : ℕ} (hl : len < 2 ^ 32) :
    TellsErrors ⟨(iovecCopiesSkipBegin vs (some buf) len skip).1, mem,
        (iovecCopiesSkipBegin vs (some buf) len skip).2⟩ (HasToTouchNull vs len skip) ↔
      NoErrorLost vs len skip := by
  rcases Nat.eq_zero_or_pos skip with rfl | hs
  · simp only [iovecCopiesSkipBegin, if_true]
    rw [hasToTouchNull_zero, tellsErrors_iovecCopies mem hl]
    by_cases hc : vs = [] ∨ len = 0
    · rcases hc with rfl | rfl <;> simp [NoErrorLost]
    · rw [not_or] at hc
      rw [noErrorLost_zero hc.1 hc.2]
  · by_cases hc : vs = [] ∨ len = 0
    · have hcall : iovecCopiesSkipBegin vs (some buf) len skip = (0, []) := by
        simp [iovecCopiesSkipBegin, hs.ne', hc]
      have hnull : ¬ HasToTouchNull vs len skip := by
        rintro (⟨rfl, -⟩ | ⟨pre, v, post, rfl, -, ⟨-, hl, -⟩ | hm⟩)
        · exact absurd hs (lt_irrefl 0)
        · simp [hl.ne'] at hc
        · obtain rfl : len = 0 := by simpa using hc
          simp at hm
      rw [hcall, tellsErrors_iff_of_not_null hnull]
      rcases hc with rfl | rfl <;> simp [NoErrorLost]
    · rw [not_or] at hc
      have hpos := Nat.pos_of_ne_zero hc.2
      rcases exists_prefixEnds_or hs vs with ⟨pre, v, post, rfl, h⟩ | h
      · exact tellsErrors_of_prefixEnds mem h hpos hl
      · rw [iovecCopiesSkipBegin_of_not_reached hs hpos hc.1 h,
          tellsErrors_iff_of_not_null (not_hasToTouchNull_of_not_reached hs h)]
        have hnot := not_noErrorLost_of_not_reached hc.1 hc.2 hs h
        simp [hnot]

/-- **Errors of the copies behind a prefix.**  The returned value tells what was done for
exactly those buffers, lengths and prefixes with which no error can be lost. -/
theorem skipBegin_errors_iff (nw dst src : ℕ → Byte) (iov : List Iovec) (buf : ℕ)
    (len skip : Word) :
    (TellsErrors (membufToKernIovecSkipBegin nw iov src (some buf) len.toNat skip.toNat)
        (HasToTouchNull iov len.toNat skip.toNat) ↔ NoErrorLost iov len.toNat skip.toNat) ∧
      (TellsErrors (kernIovecToMembufSkipBegin dst (some buf) len.toNat iov skip.toNat nw)
        (HasToTouchNull iov len.toNat skip.toNat) ↔ NoErrorLost iov len.toNat skip.toNat) :=
  ⟨tellsErrors_skipBegin_iff _ iov buf len.isLt, tellsErrors_skipBegin_iff _ iov buf len.isLt⟩

/-- Nine bytes of the first buffer are copied, then a null base is met: the caller is told
that one byte was copied. -/
theorem skipBegin_error_lost :
    let iov : List Iovec := [⟨0x1000, 10⟩, ⟨0, 10⟩]
    HasToTouchNull iov 12 1 ∧
      (membufToKernIovecSkipBegin (fun _ => 0) iov (fun _ => 0) (some 0) 12 1).ret = 1 ∧
      (kernIovecToMembufSkipBegin (fun _ => 0) (some 0) 12 iov 1 (fun _ => 0)).ret = 1 := by
  have hends : PrefixEnds [] ⟨0x1000, 10⟩ 1 := by
    refine ⟨?_, by decide⟩
    intro p hp
    rw [List.prefix_nil.mp hp]
    decide
  refine ⟨.inr ⟨[], ⟨0x1000, 10⟩, [⟨0, 10⟩], rfl, hends, .inr ?_⟩, by decide, by decide⟩
  exact ⟨[], ⟨0, 10⟩, [], rfl, rfl, by decide, by decide⟩

end Errors

/-! ## One memory -/

/-- The calls from the linear buffer into the iovecs, all in one memory. -/
def scatterIn (cs : List Memcpy) (m : ℕ → Byte) : ℕ → Byte :=
  cs.foldl (fun m c => copy m c.iov m c.buf c.len) m

/-- The calls from the iovecs into the linear buffer, all in one memory. -/
def gatherIn (cs : List Memcpy) (m : ℕ → Byte) : ℕ → Byte :=
  cs.foldl (fun m c => copy m c.buf m c.iov c.len) m

namespace OneMemory

/-- `membuf_to_kern_iovec` on a buffer at address `buf` of the memory of the iovecs. -/
def membufToKernIovec (m : ℕ → Byte) (iov : List Iovec) (buf len : ℕ) : Copied :=
  let p := iovecCopies iov (some buf) len
  ⟨p.1, scatterIn p.2 m, p.2⟩

def membufToKernIovecSkipBegin (m : ℕ → Byte) (iov : List Iovec) (buf len prefixSkip : ℕ) :
    Copied :=
  let p := iovecCopiesSkipBegin iov (some buf) len prefixSkip
  ⟨p.1, scatterIn p.2 m, p.2⟩

def kernIovecToMembuf (m : ℕ → Byte) (buf len : ℕ) (iov : List Iovec) : Copied :=
  let p := iovecCopies iov (some buf) len
  ⟨p.1, gatherIn p.2 m, p.2⟩

def kernIovecToMembufSkipBegin (m : ℕ → Byte) (buf len : ℕ) (iov : List Iovec)
    (prefixSkip : ℕ) : Copied :=
  let p := iovecCopiesSkipBegin iov (some buf) len prefixSkip
  ⟨p.1, gatherIn p.2 m, p.2⟩

end OneMemory

/-- The addresses of a buffer. -/
def Iovec.area (v : Iovec) : Set ℕ := Set.Ico v.base.toNat (v.base.toNat + v.len.toNat)

/-- Buffers that are disjoint from each other. -/
def Apart (vs : List Iovec) : Prop := vs.Pairwise fun u v => ∀ a ∈ u.area, a ∉ v.area

/-- Buffers that are disjoint from the `len` bytes at `buf`. -/
def AwayFrom (vs : List Iovec) (buf len : ℕ) : Prop :=
  ∀ v ∈ vs, ∀ a ∈ v.area, a ∉ Set.Ico buf (buf + len)

section OneMemory

variable {v : Iovec} {vs pre post : List Iovec} {buf len skip : ℕ} {m : ℕ → Byte}

@[simp] theorem scatterIn_append (cs ds : List Memcpy) (m : ℕ → Byte) :
    scatterIn (cs ++ ds) m = scatterIn ds (scatterIn cs m) := by
  simp [scatterIn]

@[simp] theorem gatherIn_append (cs ds : List Memcpy) (m : ℕ → Byte) :
    gatherIn (cs ++ ds) m = gatherIn ds (gatherIn cs m) := by
  simp [gatherIn]

@[simp] theorem scatterIn_orNone (c : Memcpy) (m : ℕ → Byte) :
    scatterIn c.orNone m = copy m c.iov m c.buf c.len := by
  by_cases hc : c.len = 0 <;> simp [Memcpy.orNone, hc, scatterIn]

@[simp] theorem gatherIn_orNone (c : Memcpy) (m : ℕ → Byte) :
    gatherIn c.orNone m = copy m c.buf m c.iov c.len := by
  by_cases hc : c.len = 0 <;> simp [Memcpy.orNone, hc, gatherIn]

theorem AwayFrom.tail (h : AwayFrom (v :: vs) buf len) : AwayFrom vs buf len :=
  fun u hu => h u (List.mem_cons_of_mem v hu)

/-- Away from a block is away from a part of it. -/
theorem AwayFrom.mono {buf' len' : ℕ} (h : AwayFrom vs buf len) (h₁ : buf ≤ buf')
    (h₂ : buf' + len' ≤ buf + len) : AwayFrom vs buf' len' :=
  fun v hv a ha hin => h v hv a ha (Set.Ico_subset_Ico h₁ h₂ hin)

/-- Buffers in the order of their addresses. -/
theorem Apart.of_sorted (h : vs.Pairwise fun u v => u.base.toNat + u.len.toNat ≤ v.base.toNat) :
    Apart vs := by
  refine h.imp fun huv a ha hin => ?_
  have := ha.2
  have := hin.1
  omega

/-- A block in front of all buffers. -/
theorem AwayFrom.of_before (h : ∀ v ∈ vs, buf + len ≤ v.base.toNat) : AwayFrom vs buf len := by
  intro v hv a ha hin
  have := h v hv
  have := ha.1
  have := hin.2
  omega

/-- The bytes behind buffers on which two memories agree. -/
theorem iovBytes_congr {m₁ m₂ : ℕ → Byte} (h : ∀ v ∈ vs, Set.EqOn m₁ m₂ v.area) :
    iovBytes m₁ vs = iovBytes m₂ vs :=
  List.flatMap_congr fun v hv => slice_congr (h v hv)

/-- A scatter writes into the buffers only. -/
theorem eqOn_scatterIn_spread {A : Set ℕ} (h : ∀ v ∈ vs, ∀ a ∈ A, a ∉ v.area) (buf len : ℕ)
    (m : ℕ → Byte) : Set.EqOn (scatterIn (spread vs buf len) m) m A := by
  induction vs generalizing buf len m with
  | nil => exact fun _ _ => rfl
  | cons v vs ih =>
    rw [spread, scatterIn_append, scatterIn_orNone]
    refine (ih (fun u hu => h u (List.mem_cons_of_mem v hu)) _ _ _).trans ?_
    refine eqOn_copy_of_disjoint fun a ha hin => h v List.mem_cons_self a ha ?_
    exact Set.Ico_subset_Ico_right (by dsimp only; omega) hin

/-- A gather writes into the linear buffer only. -/
theorem eqOn_gatherIn_spread {A : Set ℕ} (h : ∀ a ∈ A, a ∉ Set.Ico buf (buf + len))
    (vs : List Iovec) (m : ℕ → Byte) : Set.EqOn (gatherIn (spread vs buf len) m) m A := by
  induction vs generalizing buf len m with
  | nil => exact fun _ _ => rfl
  | cons v vs ih =>
    rw [spread, gatherIn_append, gatherIn_orNone]
    refine (ih (fun a ha hin => h a ha ?_) _).trans ?_
    · exact Set.Ico_subset_Ico (by omega) (by omega) hin
    · refine eqOn_copy_of_disjoint fun a ha hin => h a ha ?_
      exact Set.Ico_subset_Ico_right (by dsimp only; omega) hin

section First

variable {a k n : ℕ}

/-- One copy into a block of `k` bytes in front of a scatter over the buffers `vs`.  The block
may be copied in full although less is asked for. -/
theorem scatterIn_first (hn : n = min len k ∨ n = k) (hbuf : AwayFrom vs buf len)
    (ha : ∀ x ∈ Set.Ico a (a + k), x ∉ Set.Ico buf (buf + len))
    (hvs : ∀ v ∈ vs, ∀ x ∈ Set.Ico a (a + k), x ∉ v.area)
    (hrest : ∀ m buf len, AwayFrom vs buf len →
      (iovBytes (scatterIn (spread vs buf len) m) vs).take len =
        slice m buf (min len (iovLen vs))) :
    let m' := scatterIn (spread vs (buf + n) (len - n)) (copy m a m buf n)
    slice m' a (min len k) ++ (iovBytes m' vs).take (len - k) =
      slice m buf (min len (k + iovLen vs)) := by
  intro m'
  have hfirst : slice m' a (min len k) = slice m buf (min len k) := by
    have hkeep : slice m' a (min len k) = slice (copy m a m buf n) a (min len k) := by
      refine slice_congr (eqOn_scatterIn_spread (fun v hv x hx => hvs v hv x ?_) _ _ _)
      exact Set.Ico_subset_Ico_right (by omega) hx
    rw [hkeep, ← take_slice _ a n _ (by omega), slice_copy_self, take_slice _ _ _ _ (by omega)]
  have hsplit : min len (k + iovLen vs) = min len k + min (len - k) (iovLen vs) := by omega
  rw [hfirst, hsplit, slice_add]
  congr 1
  by_cases hlt : k < len
  · have hnk : n = k := by omega
    have haway : AwayFrom vs (buf + k) (len - k) := hbuf.mono (by omega) (by omega)
    have hsame : Set.EqOn (copy m a m buf k) m (Set.Ico buf (buf + len)) :=
      eqOn_copy_of_disjoint fun x hx hin => ha x hin hx
    simp only [m', hnk]
    rw [hrest _ _ _ haway, Nat.min_eq_right hlt.le]
    exact slice_congr (hsame.mono (Set.Ico_subset_Ico (by omega) (by omega)))
  · rw [Nat.sub_eq_zero_of_le (not_lt.mp hlt)]
    simp

/-- One copy out of a block of `k` bytes in front of a gather over the buffers `vs`. -/
theorem gatherIn_first (hn : n = min len k ∨ n = k) (hbuf : AwayFrom vs buf len)
    (hrest : ∀ m buf len, AwayFrom vs buf len →
      slice (gatherIn (spread vs buf len) m) buf (min len (iovLen vs)) =
        (iovBytes m vs).take len) :
    slice (gatherIn (spread vs (buf + n) (len - n)) (copy m buf m a n)) buf
        (min len (k + iovLen vs)) =
      slice m a (min len k) ++ (iovBytes m vs).take (len - k) := by
  have hsplit : min len (k + iovLen vs) = min len k + min (len - k) (iovLen vs) := by omega
  have hfirst : slice (gatherIn (spread vs (buf + n) (len - n)) (copy m buf m a n)) buf
      (min len k) = slice m a (min len k) := by
    have hkeep : Set.EqOn (gatherIn (spread vs (buf + n) (len - n)) (copy m buf m a n))
        (copy m buf m a n) (Set.Ico buf (buf + min len k)) := by
      refine eqOn_gatherIn_spread ?_ vs _
      rintro x ⟨-, hx⟩ ⟨hx', -⟩
      omega
    rw [slice_congr hkeep, ← take_slice _ buf n _ (by omega), slice_copy_self,
      take_slice _ _ _ _ (by omega)]
  rw [hsplit, slice_add, hfirst]
  congr 1
  by_cases hlt : k < len
  · have hnk : n = k := by omega
    have haway : AwayFrom vs (buf + k) (len - k) := hbuf.mono (by omega) (by omega)
    rw [hnk, Nat.min_eq_right hlt.le, hrest _ _ _ haway]
    congr 1
    refine iovBytes_congr fun v hv => eqOn_copy_of_disjoint fun x hx hin => hbuf v hv x hx ?_
    exact Set.Ico_subset_Ico_right (by omega) hin
  · rw [Nat.sub_eq_zero_of_le (not_lt.mp hlt)]
    simp

end First

/-- The first bytes of a list of buffers. -/
theorem take_iovBytes_cons (m : ℕ → Byte) (v : Iovec) (vs : List Iovec) (len : ℕ) :
    (iovBytes m (v :: vs)).take len =
      slice m v.base.toNat (min len v.len.toNat) ++ (iovBytes m vs).take (len - v.len.toNat) := by
  rw [iovBytes_cons, List.take_append, length_slice]
  congr 1
  rw [← take_slice _ _ v.len.toNat (min len v.len.toNat) (by omega), List.take_eq_take_iff,
    length_slice]
  omega

/-- **A scatter over buffers**: their first bytes are those of the linear buffer. -/
theorem iovBytes_scatterIn_spread (hvs : Apart vs) (m : ℕ → Byte) (buf len : ℕ)
    (hbuf : AwayFrom vs buf len) :
    (iovBytes (scatterIn (spread vs buf len) m) vs).take len =
      slice m buf (min len (iovLen vs)) := by
  induction vs generalizing buf len m with
  | nil => simp
  | cons v vs ih =>
    obtain ⟨hv, hvs⟩ := List.pairwise_cons.mp hvs
    rw [take_iovBytes_cons, spread, scatterIn_append, scatterIn_orNone, iovLen_cons]
    exact scatterIn_first (.inl rfl) hbuf.tail (hbuf v List.mem_cons_self) hv (ih hvs)

/-- **A gather over buffers**: the linear buffer gets their first bytes. -/
theorem slice_gatherIn_spread (m : ℕ → Byte) (buf len : ℕ) (hbuf : AwayFrom vs buf len) :
    slice (gatherIn (spread vs buf len) m) buf (min len (iovLen vs)) =
      (iovBytes m vs).take len := by
  induction vs generalizing buf len m with
  | nil => simp
  | cons v vs ih =>
    rw [take_iovBytes_cons, spread, gatherIn_append, gatherIn_orNone, iovLen_cons]
    exact gatherIn_first (.inl rfl) hbuf.tail ih

/-! ## Scatter and gather behind the prefix -/

/-- Without a wrap of the count, the prefix ends where its bytes end. -/
theorem PrefixEnds.exact (h : PrefixEnds pre v skip) (hsum : iovLen pre + v.len.toNat < 2 ^ 32) :
    iovLen pre < skip ∧ skip ≤ iovLen pre + v.len.toNat ∧
      restBuf pre v skip = iovLen pre + v.len.toNat - skip := by
  have hpre := h.below pre List.prefix_rfl
  have hv := h.reached
  rw [Nat.mod_eq_of_lt (by omega)] at hpre
  rw [iovLen_append, iovLen_cons, iovLen_nil, Nat.add_zero, Nat.mod_eq_of_lt hsum] at hv
  refine ⟨hpre, hv, ?_⟩
  rw [restBuf_eq, Nat.mod_eq_of_lt hsum]

/-- Over mapped buffers the call copies the rest of the buffer in which the prefix ends, and
then as much as is still asked for. -/
theorem iovecCopiesSkipBegin_of_allMapped (h : PrefixEnds pre v skip) (hl : 0 < len)
    (hall : AllMapped (pre ++ v :: post)) :
    iovecCopiesSkipBegin (pre ++ v :: post) (some buf) len skip =
      (BitVec.ofNat 32 (min len (restBuf pre v skip + iovLen post)),
        Memcpy.orNone ⟨buf, v.base.toNat + (v.len.toNat - restBuf pre v skip),
            restBuf pre v skip⟩ ++
          spread post (buf + restBuf pre v skip) (len - restBuf pre v skip)) := by
  have hv : v.base ≠ 0 := hall v (by simp)
  have hpost : AllMapped post := fun u hu => hall u (by simp [hu])
  rw [iovecCopiesSkipBegin_of_prefixEnds h hl]
  generalize restBuf pre v skip = k
  simp only [hv, and_false, if_false, iovecCopies_eq hpost]
  by_cases hover : 0 < k ∧ len ≤ k
  · have hz : len - k = 0 := by omega
    have hm : min len (k + iovLen post) = len := by omega
    simp only [if_pos hover, hz, spread_zero, List.append_nil, hm, Memcpy.orNone,
      if_neg (show ¬ k = 0 by omega)]
  · have hm : k + min (len - k) (iovLen post) = min len (k + iovLen post) := by omega
    simp only [if_neg hover, ← BitVec.ofNat_add, hm]

/-- The bytes behind the prefix, at the buffer in which it ends. -/
theorem take_drop_iovBytes (m : ℕ → Byte) {k : ℕ} (hpre : iovLen pre ≤ skip)
    (hv : skip ≤ iovLen pre + v.len.toNat) (hk : k = iovLen pre + v.len.toNat - skip) :
    ((iovBytes m (pre ++ v :: post)).drop skip).take len =
      slice m (v.base.toNat + (v.len.toNat - k)) (min len k) ++
        (iovBytes m post).take (len - k) := by
  have happ : iovBytes m (pre ++ v :: post) =
      iovBytes m pre ++ (slice m v.base.toNat v.len.toNat ++ iovBytes m post) := by
    simp [iovBytes]
  have hoff : skip - iovLen pre = v.len.toNat - k := by omega
  have hlen : v.len.toNat - (v.len.toNat - k) = k := by omega
  rw [happ, List.drop_append, List.drop_eq_nil_of_le (by simpa using hpre), List.nil_append,
    length_iovBytes, hoff, List.drop_append_of_le_length (by simp), drop_slice _ _ _ _ (by omega),
    hlen, List.take_append, length_slice]
  congr 1
  rw [← take_slice _ _ k (min len k) (by omega), List.take_eq_take_iff, length_slice]
  omega

/-- What is asked for is no more than there is behind the prefix. -/
theorem take_min_drop_iovBytes (m : ℕ → Byte) (vs : List Iovec) (len skip : ℕ) :
    ((iovBytes m vs).drop skip).take (min len (iovLen vs - skip)) =
      ((iovBytes m vs).drop skip).take len := by
  rw [List.take_eq_take_iff, List.length_drop, length_iovBytes]
  omega

/-- The value that both copies behind a prefix return over mapped buffers. -/
def skipBeginRet (vs : List Iovec) (len skip : ℕ) : Word :=
  if vs ≠ [] ∧ iovLen vs < skip then ssizeErrInvalidArgs
  else BitVec.ofNat 32 (min len (iovLen vs - skip))

section

variable (hall : AllMapped vs) (hsum : iovLen vs < 2 ^ 32) (hl : 0 < len)
include hall hsum hl

/-- The three ways of a call over mapped buffers: nothing is copied because the buffers end
in front of the prefix, there is no prefix, or it ends in one of the buffers. -/
theorem iovecCopiesSkipBegin_cases (buf skip : ℕ) :
    (iovLen vs ≤ skip ∧
        iovecCopiesSkipBegin vs (some buf) len skip = (skipBeginRet vs len skip, [])) ∨
      (skip = 0 ∧ iovecCopiesSkipBegin vs (some buf) len skip =
        (skipBeginRet vs len skip, spread vs buf len)) ∨
      ∃ pre v post k, vs = pre ++ v :: post ∧ iovLen pre ≤ skip ∧
        skip ≤ iovLen pre + v.len.toNat ∧ k = iovLen pre + v.len.toNat - skip ∧
        iovLen vs - skip = k + iovLen post ∧
        iovecCopiesSkipBegin vs (some buf) len skip = (skipBeginRet vs len skip,
          Memcpy.orNone ⟨buf, v.base.toNat + (v.len.toNat - k), k⟩ ++
            spread post (buf + k) (len - k)) := by
  rcases Nat.eq_zero_or_pos skip with rfl | hs
  · refine .inr (.inl ⟨rfl, ?_⟩)
    simp [iovecCopiesSkipBegin, iovecCopies_eq hall, skipBeginRet]
  by_cases hvs : vs = []
  · refine .inl ⟨by simp [hvs], ?_⟩
    simp [iovecCopiesSkipBegin, hs.ne', hvs, skipBeginRet]
  rcases exists_prefixEnds_or hs vs with ⟨pre, v, post, rfl, h⟩ | h
  · rw [iovLen_append, iovLen_cons] at hsum
    obtain ⟨hpre, hv, hk⟩ := h.exact (by omega)
    have htotal : iovLen (pre ++ v :: post) - skip = restBuf pre v skip + iovLen post := by
      rw [iovLen_append, iovLen_cons]
      omega
    refine .inr (.inr ⟨pre, v, post, restBuf pre v skip, rfl, hpre.le, hv, hk, htotal, ?_⟩)
    have hret : skipBeginRet (pre ++ v :: post) len skip =
        BitVec.ofNat 32 (min len (restBuf pre v skip + iovLen post)) := by
      rw [skipBeginRet, if_neg (by rw [iovLen_append, iovLen_cons]; omega), htotal]
    rw [iovecCopiesSkipBegin_of_allMapped h hl hall, hret]
  · have htotal := h vs List.prefix_rfl
    rw [Nat.mod_eq_of_lt hsum] at htotal
    refine .inl ⟨htotal.le, ?_⟩
    rw [iovecCopiesSkipBegin_of_not_reached hs hl hvs h, skipBeginRet, if_pos ⟨hvs, htotal⟩]

theorem skipBegin_ret (buf skip : ℕ) :
    (iovecCopiesSkipBegin vs (some buf) len skip).1 = skipBeginRet vs len skip := by
  rcases iovecCopiesSkipBegin_cases hall hsum hl buf skip with
    ⟨-, h⟩ | ⟨-, h⟩ | ⟨pre, v, post, k, -, -, -, -, -, h⟩
  all_goals rw [h]

/-- **The scatter behind a prefix.** -/
theorem take_drop_scatterIn (hvs : Apart vs) (hbuf : AwayFrom vs buf len) (skip : ℕ)
    (m : ℕ → Byte) :
    ((iovBytes (scatterIn (iovecCopiesSkipBegin vs (some buf) len skip).2 m) vs).drop skip).take
        (min len (iovLen vs - skip)) = slice m buf (min len (iovLen vs - skip)) := by
  rw [take_min_drop_iovBytes]
  rcases iovecCopiesSkipBegin_cases hall hsum hl buf skip with
    ⟨hle, -⟩ | ⟨rfl, h⟩ | ⟨pre, v, post, k, rfl, hpre, hv, hk, htotal, h⟩
  · simp [hle, Nat.sub_eq_zero_of_le hle]
  · rw [h, List.drop_zero, Nat.sub_zero]
    exact iovBytes_scatterIn_spread hvs m buf len hbuf
  · obtain ⟨-, hvs, -⟩ := List.pairwise_append.mp hvs
    obtain ⟨hvpost, hpost⟩ := List.pairwise_cons.mp hvs
    have hpart : Set.Ico (v.base.toNat + (v.len.toNat - k))
        (v.base.toNat + (v.len.toNat - k) + k) ⊆ v.area :=
      Set.Ico_subset_Ico (by omega) (by omega)
    have hbufpost : AwayFrom post buf len := fun u hu => hbuf u (by simp [hu])
    rw [h, take_drop_iovBytes _ hpre hv hk, scatterIn_append, scatterIn_orNone, htotal]
    exact scatterIn_first (.inr rfl) hbufpost (fun x hx => hbuf v (by simp) x (hpart hx))
      (fun u hu x hx => hvpost u hu x (hpart hx)) (iovBytes_scatterIn_spread hpost)

/-- **The gather behind a prefix.** -/
theorem slice_gatherIn (hbuf : AwayFrom vs buf len) (skip : ℕ) (m : ℕ → Byte) :
    slice (gatherIn (iovecCopiesSkipBegin vs (some buf) len skip).2 m) buf
        (min len (iovLen vs - skip)) =
      ((iovBytes m vs).drop skip).take (min len (iovLen vs - skip)) := by
  rw [take_min_drop_iovBytes]
  rcases iovecCopiesSkipBegin_cases hall hsum hl buf skip with
    ⟨hle, -⟩ | ⟨rfl, h⟩ | ⟨pre, v, post, k, rfl, hpre, hv, hk, htotal, h⟩
  · simp [hle, Nat.sub_eq_zero_of_le hle]
  · rw [h, List.drop_zero, Nat.sub_zero]
    exact slice_gatherIn_spread m buf len hbuf
  · have hbufpost : AwayFrom post buf len := fun u hu => hbuf u (by simp [hu])
    rw [h, take_drop_iovBytes _ hpre hv hk, gatherIn_append, gatherIn_orNone, htotal]
    exact gatherIn_first (.inr rfl) hbufpost slice_gatherIn_spread

end

end OneMemory

end TrustedGateway
