import TrustedGateway.Lib.Memory
import TrustedGateway.Machine

/-!
# Copies between a linear buffer and an iovec list

`iovec.c` has two pairs of functions that differ only in the direction of their
`memcpy` calls.  Which calls are made depends on the lengths and on the base
pointers alone, never on the bytes moved, so each pair shares one definition that
yields the return value together with the calls in order: `iovecCopies` for the
plain pair and `iovecCopiesSkipBegin` for the pair that leaves out a prefix of the
iovec bytes.  The four functions of the source run those calls in their own
direction.

A return value of type `ssize_t` is kept as its 32-bit pattern, which is what the
callers compare with a `size_t`.

## Main definitions

* `Iovec`, `Memcpy` — an iovec entry, and one executed `memcpy`.
* `membufToKernIovec`, `membufToKernIovecSkipBegin` — scatter a buffer.
* `kernIovecToMembuf`, `kernIovecToMembufSkipBegin` — gather into a buffer.
* `spread` — the calls made for a list of mapped iovecs; `iovecCopies_eq` and
  `iovecCopiesSkipBegin_eq` say so.
-/

namespace TrustedGateway

open FlatMemory

/-- `iovec_kern_t`; the null pointer is base `0`. -/
structure Iovec where
  base : Word
  len : Word
  deriving DecidableEq, Repr

/-- One `memcpy` between offset `buf` of the linear buffer and address `iov` of the
iovec memory. -/
structure Memcpy where
  buf : ℕ
  iov : ℕ
  len : ℕ
  deriving DecidableEq, Repr

/-- `ERR_INVALID_ARGS` as an `ssize_t`. -/
def ssizeErrInvalidArgs : Word := BitVec.ofInt 32 errInvalidArgs

/-! ## The shared loops -/

/-- The `for` loop of the plain copies: `len` bytes are still to be copied from
offset `buf` on, and `copied` bytes have been. -/
def iovecLoop : List Iovec → (buf len copied : ℕ) → Word × List Memcpy
  | [], _, _, copied => (BitVec.ofNat 32 copied, [])
  | v :: vs, buf, len, copied =>
    let toCopy := min len v.len.toNat
    if toCopy = 0 then iovecLoop vs buf len copied
    else if v.base = 0 then (ssizeErrInvalidArgs, [])
    else
      let c : Memcpy := ⟨buf, v.base.toNat, toCopy⟩
      if len - toCopy = 0 then (BitVec.ofNat 32 (copied + toCopy), [c])
      else
        let rest := iovecLoop vs (buf + toCopy) (len - toCopy) (copied + toCopy)
        (rest.1, c :: rest.2)

/-- The plain copy; `buf = none` is a null buffer pointer. -/
def iovecCopies (iov : List Iovec) (buf : Option ℕ) (len : ℕ) : Word × List Memcpy :=
  if iov.length = 0 ∨ len = 0 then (0, [])
  else
    match buf with
    | none => (ssizeErrInvalidArgs, [])
    | some buf => iovecLoop iov buf len 0

/-- The `for` loop of the copies with a skipped prefix, `skipped` bytes of which have
been passed.  The iovec in which the prefix ends is copied with length `restBuf`, not
with the computed `toCopy`. -/
def iovecSkipLoop : List Iovec → (skipped prefixSkip buf len : ℕ) → Word × List Memcpy
  | [], _, _, _, _ => (ssizeErrInvalidArgs, [])
  | v :: vs, skipped, prefixSkip, buf, len =>
    let nextLen := v.len.toNat
    if addSize skipped nextLen < prefixSkip then
      iovecSkipLoop vs (addSize skipped nextLen) prefixSkip buf len
    else
      let restBuf := addSize skipped nextLen - prefixSkip
      let toCopy := min restBuf len
      let c : Memcpy := ⟨buf, v.base.toNat + (nextLen - restBuf), restBuf⟩
      if 0 < restBuf ∧ v.base = 0 then (ssizeErrInvalidArgs, [])
      else if 0 < restBuf ∧ toCopy = len then (BitVec.ofNat 32 len, [c])
      else
        let rest := iovecCopies vs (some (buf + restBuf)) (len - restBuf)
        (BitVec.ofNat 32 restBuf + rest.1, if 0 < restBuf then c :: rest.2 else rest.2)

/-- The copy that leaves the first `prefixSkip` bytes of the iovec memory alone. -/
def iovecCopiesSkipBegin (iov : List Iovec) (buf : Option ℕ) (len prefixSkip : ℕ) :
    Word × List Memcpy :=
  if prefixSkip = 0 then iovecCopies iov buf len
  else if iov.length = 0 ∨ len = 0 then (0, [])
  else
    match buf with
    | none => (ssizeErrInvalidArgs, [])
    | some buf => iovecSkipLoop iov 0 prefixSkip buf len

/-! ## Running the calls -/

/-- Run the calls from the buffer `src` into the iovec memory. -/
def scatter (src : ℕ → Byte) (cs : List Memcpy) (nw : ℕ → Byte) : ℕ → Byte :=
  cs.foldl (fun m c => copy m c.iov src c.buf c.len) nw

/-- Run the calls from the iovec memory into the buffer `dst`. -/
def gather (nw : ℕ → Byte) (cs : List Memcpy) (dst : ℕ → Byte) : ℕ → Byte :=
  cs.foldl (fun m c => copy m c.buf nw c.iov c.len) dst

/-- What a copy function leaves behind: its return value, the memory it wrote, and
the `memcpy` calls it made. -/
structure Copied where
  ret : Word
  mem : ℕ → Byte
  calls : List Memcpy

def membufToKernIovec (nw : ℕ → Byte) (iov : List Iovec) (src : ℕ → Byte)
    (buf : Option ℕ) (len : ℕ) : Copied :=
  let p := iovecCopies iov buf len
  ⟨p.1, scatter src p.2 nw, p.2⟩

def membufToKernIovecSkipBegin (nw : ℕ → Byte) (iov : List Iovec) (src : ℕ → Byte)
    (buf : Option ℕ) (len prefixSkip : ℕ) : Copied :=
  let p := iovecCopiesSkipBegin iov buf len prefixSkip
  ⟨p.1, scatter src p.2 nw, p.2⟩

def kernIovecToMembuf (dst : ℕ → Byte) (buf : Option ℕ) (len : ℕ) (iov : List Iovec)
    (nw : ℕ → Byte) : Copied :=
  let p := iovecCopies iov buf len
  ⟨p.1, gather nw p.2 dst, p.2⟩

def kernIovecToMembufSkipBegin (dst : ℕ → Byte) (buf : Option ℕ) (len : ℕ)
    (iov : List Iovec) (prefixSkip : ℕ) (nw : ℕ → Byte) : Copied :=
  let p := iovecCopiesSkipBegin iov buf len prefixSkip
  ⟨p.1, gather nw p.2 dst, p.2⟩

/-! ## What is copied -/

/-- A `memcpy` that is left out when it moves nothing. -/
def Memcpy.orNone (c : Memcpy) : List Memcpy := if c.len = 0 then [] else [c]

theorem Memcpy.mem_orNone {c c' : Memcpy} (h : c' ∈ c.orNone) : c' = c := by
  simp only [Memcpy.orNone] at h
  split at h
  · cases h
  · exact List.mem_singleton.mp h

@[simp] theorem scatter_orNone (src : ℕ → Byte) (c : Memcpy) (nw : ℕ → Byte) :
    scatter src c.orNone nw = copy nw c.iov src c.buf c.len := by
  by_cases hc : c.len = 0 <;> simp [Memcpy.orNone, hc, scatter]

@[simp] theorem gather_orNone (nw : ℕ → Byte) (c : Memcpy) (dst : ℕ → Byte) :
    gather nw c.orNone dst = copy dst c.buf nw c.iov c.len := by
  by_cases hc : c.len = 0 <;> simp [Memcpy.orNone, hc, gather]

@[simp] theorem gather_append (nw : ℕ → Byte) (cs ds : List Memcpy) (dst : ℕ → Byte) :
    gather nw (cs ++ ds) dst = gather nw ds (gather nw cs dst) := by
  simp [gather]

/-- The total length of a list of iovecs, unbounded. -/
def iovLen (vs : List Iovec) : ℕ := (vs.map fun v => v.len.toNat).sum

@[simp] theorem iovLen_nil : iovLen [] = 0 := rfl

@[simp] theorem iovLen_cons (v : Iovec) (vs : List Iovec) :
    iovLen (v :: vs) = v.len.toNat + iovLen vs := rfl

/-- The bytes behind a list of iovecs. -/
def iovBytes (nw : ℕ → Byte) (vs : List Iovec) : List Byte :=
  vs.flatMap fun v => slice nw v.base.toNat v.len.toNat

@[simp] theorem iovBytes_nil (nw : ℕ → Byte) : iovBytes nw [] = [] := rfl

@[simp] theorem iovBytes_cons (nw : ℕ → Byte) (v : Iovec) (vs : List Iovec) :
    iovBytes nw (v :: vs) = slice nw v.base.toNat v.len.toNat ++ iovBytes nw vs := rfl

@[simp] theorem length_iovBytes (nw : ℕ → Byte) (vs : List Iovec) :
    (iovBytes nw vs).length = iovLen vs := by
  induction vs with
  | nil => rfl
  | cons v vs ih => simp [ih]

/-- `len` bytes from offset `buf` on, spread over a list of iovecs. -/
def spread : List Iovec → (buf len : ℕ) → List Memcpy
  | [], _, _ => []
  | v :: vs, buf, len =>
    Memcpy.orNone ⟨buf, v.base.toNat, min len v.len.toNat⟩ ++
      spread vs (buf + min len v.len.toNat) (len - min len v.len.toNat)

@[simp] theorem spread_zero (vs : List Iovec) (buf : ℕ) : spread vs buf 0 = [] := by
  induction vs generalizing buf with
  | nil => rfl
  | cons v vs ih => simp [spread, Memcpy.orNone, ih]

/-- All base pointers are set. -/
def AllMapped (vs : List Iovec) : Prop := ∀ v ∈ vs, v.base ≠ 0

variable {len : ℕ} {v : Iovec} {vs : List Iovec}

theorem AllMapped.tail (h : AllMapped (v :: vs)) : AllMapped vs :=
  fun u hu => h u (List.mem_cons_of_mem v hu)

theorem AllMapped.head (h : AllMapped (v :: vs)) : v.base ≠ 0 :=
  h v List.mem_cons_self

theorem iovecLoop_eq (h : AllMapped vs) (buf len copied : ℕ) :
    iovecLoop vs buf len copied =
      (BitVec.ofNat 32 (copied + min len (iovLen vs)), spread vs buf len) := by
  induction vs generalizing buf len copied with
  | nil => simp [iovecLoop, spread]
  | cons v vs ih =>
    have hb := h.head
    by_cases hz : min len v.len.toNat = 0
    · have hm : min len (v.len.toNat + iovLen vs) = min len (iovLen vs) := by omega
      simp only [iovecLoop, ih h.tail, spread, hz, Memcpy.orNone, iovLen_cons, hm,
        if_true, List.nil_append, Nat.add_zero, Nat.sub_zero]
    · by_cases hr : len - min len v.len.toNat = 0
      · have hm : min len (v.len.toNat + iovLen vs) = min len v.len.toNat := by omega
        simp only [iovecLoop, if_neg hz, if_neg hb, spread, hr, if_true, spread_zero,
          Memcpy.orNone, iovLen_cons, hm, List.append_nil]
      · have hm : copied + min len v.len.toNat +
            min (len - min len v.len.toNat) (iovLen vs) =
            copied + min len (v.len.toNat + iovLen vs) := by omega
        simp only [iovecLoop, if_neg hz, if_neg hb, if_neg hr, ih h.tail, hm, spread,
          Memcpy.orNone, iovLen_cons, List.singleton_append]

/-- **The plain copy** over mapped iovecs. -/
theorem iovecCopies_eq (h : AllMapped vs) (buf len : ℕ) :
    iovecCopies vs (some buf) len =
      (BitVec.ofNat 32 (min len (iovLen vs)), spread vs buf len) := by
  by_cases hc : vs.length = 0 ∨ len = 0
  · rw [iovecCopies, if_pos hc]
    rcases hc with hc | rfl
    · rw [List.length_eq_zero_iff.mp hc]
      simp [spread]
    · simp
  · simp only [iovecCopies, if_neg hc, iovecLoop_eq h, Nat.zero_add]

/-- With a null base in front nothing is copied. -/
theorem iovecCopies_null (hb : v.base = 0) (vs : List Iovec) (buf len : ℕ) (hl : len ≠ 0)
    (hv : v.len.toNat ≠ 0) : iovecCopies (v :: vs) (some buf) len = (ssizeErrInvalidArgs, []) := by
  have hm : min len v.len.toNat ≠ 0 := by omega
  simp [iovecCopies, iovecLoop, hl, hm, hb]

/-- **The copy behind a prefix** that ends in the first iovec.  All of that iovec behind the
prefix is copied, even when it is longer than `len`. -/
theorem iovecCopiesSkipBegin_eq (h : AllMapped (v :: vs)) (buf : ℕ) {skip : ℕ} (hl : len ≠ 0)
    (hs : skip ≠ 0) (hle : skip ≤ v.len.toNat) :
    iovecCopiesSkipBegin (v :: vs) (some buf) len skip =
      (BitVec.ofNat 32 (min len (v.len.toNat - skip + iovLen vs)),
        Memcpy.orNone ⟨buf, v.base.toNat + skip, v.len.toNat - skip⟩ ++
          spread vs (buf + (v.len.toNat - skip)) (len - (v.len.toNat - skip))) := by
  have hb := h.head
  have hadd : addSize 0 v.len.toNat = v.len.toNat := by
    rw [addSize_of_lt (by omega), Nat.zero_add]
  have hoff : v.len.toNat - (v.len.toNat - skip) = skip := by omega
  have hc : ¬ ((v :: vs).length = 0 ∨ len = 0) := by simp [hl]
  simp only [iovecCopiesSkipBegin, hs, if_neg hc, if_false, iovecSkipLoop, hadd,
    if_neg (show ¬ v.len.toNat < skip by omega), hoff, hb, and_false, iovecCopies_eq h.tail,
    Memcpy.orNone]
  by_cases hr : v.len.toNat - skip = 0
  · simp [hr]
  · have hpos : 0 < v.len.toNat - skip := by omega
    by_cases hcmp : len ≤ v.len.toNat - skip
    · have hmin : min (v.len.toNat - skip) len = len := by omega
      have hmin' : min len (v.len.toNat - skip + iovLen vs) = len := by omega
      have hsub : len - (v.len.toNat - skip) = 0 := by omega
      simp only [hpos, hmin, and_self, if_true, hmin', hr, if_false, hsub, spread_zero,
        List.append_nil]
    · have hne : ¬ min (v.len.toNat - skip) len = len := by omega
      have hsum : v.len.toNat - skip + min (len - (v.len.toNat - skip)) (iovLen vs) =
          min len (v.len.toNat - skip + iovLen vs) := by omega
      simp only [hpos, hne, and_false, if_false, if_true, hr, List.singleton_append,
        ← BitVec.ofNat_add, hsum]

/-! ## Where the calls go -/

/-- The calls stay inside of the buffer. -/
theorem buf_of_mem_spread {buf : ℕ} {c : Memcpy} (h : c ∈ spread vs buf len) :
    buf ≤ c.buf ∧ c.buf + c.len ≤ buf + len := by
  induction vs generalizing buf len with
  | nil => cases h
  | cons v vs ih =>
    rcases List.mem_append.mp h with h | h
    · obtain rfl := Memcpy.mem_orNone h
      dsimp only
      omega
    · obtain ⟨h₁, h₂⟩ := ih h
      omega

/-- What lies in front of the buffer is not touched. -/
theorem slice_gather_spread_below {buf : ℕ} (nw dst : ℕ → Byte) {a n : ℕ} (h : a + n ≤ buf) :
    slice (gather nw (spread vs buf len) dst) a n = slice dst a n := by
  induction vs generalizing buf len dst with
  | nil => rfl
  | cons v vs ih =>
    rw [spread, gather_append, ih _ (by omega), gather_orNone]
    exact slice_copy_of_disjoint (.inl h)

/-- The buffer gets the bytes behind the iovecs. -/
theorem slice_gather_spread (vs : List Iovec) (buf len : ℕ) (nw dst : ℕ → Byte) :
    slice (gather nw (spread vs buf len) dst) buf (min len (iovLen vs)) =
      (iovBytes nw vs).take len := by
  induction vs generalizing buf len dst with
  | nil => simp
  | cons v vs ih =>
    have hsplit : min len (v.len.toNat + iovLen vs) =
        min len v.len.toNat + min (len - min len v.len.toNat) (iovLen vs) := by omega
    have hrest : len - min len v.len.toNat = len - v.len.toNat := by omega
    have hhead : slice nw v.base.toNat (min len v.len.toNat) =
        (slice nw v.base.toNat v.len.toNat).take len := by
      rw [← take_slice _ _ v.len.toNat _ (by omega), List.take_eq_take_iff, length_slice]
      omega
    rw [iovLen_cons, hsplit, slice_add, spread, gather_append, ih,
      slice_gather_spread_below _ _ le_rfl, gather_orNone, slice_copy_self, iovBytes_cons,
      List.take_append, length_slice, hrest, hhead]

end TrustedGateway
