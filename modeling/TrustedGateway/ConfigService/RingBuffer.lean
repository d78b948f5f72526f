import TrustedGateway.Lib.Memory
import TrustedGateway.Lib.Ring
import TrustedGateway.Lib.Run
import TrustedGateway.Machine
import Mathlib.Tactic.Common

/-!
# The shared byte rings

The configuration service and its host process exchange TLS bytes through two rings in
shared memory (`ringbuffer.c`).  A ring is an array of 2048 bytes with a read index, a write
index and a flag that tells a full ring from an empty one.

Both transfer functions copy with one `memcpy`, or with two when the block wraps.  The model
keeps the list of these copies as part of the result, because which bytes were touched is
itself a question.  An index of 2048 or more lies outside the array; the model makes such an
access as the source does and leaves open what lies there.

## Main definitions

* `SwBuff` — a ring as it lies in shared memory, the indices being arbitrary words.
* `putSwBuffer`, `getSwBuffer` — the transfers.
* `Touches` — the array indices and private bytes a transfer accesses.
* `Ring`, `ringStep` — a ring together with what was accepted and returned so far.
* `SwBuff.WellFormed`, `PutEffect`, `GetEffect` — the effect of a transfer, byte by byte.
-/

namespace TrustedGateway

open FlatMemory StepSystem RingWindow

/-- `sizeof(buff->buffer)`. -/
def swBufSize : Word := 2048

/-- `sw_buff_t`. -/
structure SwBuff where
  buffer : ℕ → Byte
  head : Word
  tail : Word
  full : Word

/-- The `abort()` calls of `put_sw_buffer` and `get_sw_buffer`. -/
inductive RingAbort
  | putOnFull
  | getOnEmpty
  | badIndices
  deriving DecidableEq, Repr

/-- `init_sw_buffer`. -/
def initSwBuffer (b : SwBuff) : SwBuff := { b with head := 0, tail := 0, full := 0 }

/-- `spaceleft_sw_buffer`. -/
def spaceleftSwBuffer (b : SwBuff) : Word :=
  if b.head = b.tail then
    if b.full ≠ 0 then 0 else swBufSize
  else if b.tail < b.head then b.head - b.tail
  else swBufSize - b.tail + b.head

/-- `dataleft_sw_buffer`. -/
def dataleftSwBuffer (b : SwBuff) : Word :=
  if b.head = b.tail then
    if b.full ≠ 0 then swBufSize else 0
  else if b.head < b.tail then b.tail - b.head
  else swBufSize - b.head + b.tail

/-- One `memcpy` between the array, from index `shared` on, and the private buffer, from
offset `own` on. -/
structure BlockCopy where
  shared : ℕ
  own : ℕ
  len : ℕ
  deriving DecidableEq, Repr

/-- The copies of a transfer of `n` bytes at index `pos`, with `other` the index the block must
not run into.  `put_sw_buffer` passes the write index first, `get_sw_buffer` the read index. -/
def cycleCopies (pos other n : Word) : List BlockCopy :=
  if pos < other ∨ n ≤ swBufSize - pos then [⟨pos.toNat, 0, n.toNat⟩]
  else
    let tillend := swBufSize - pos
    [⟨pos.toNat, 0, tillend.toNat⟩, ⟨0, tillend.toNat, (n - tillend).toNat⟩]

/-- The array after the copies from the private buffer. -/
def copyIn (array buf : ℕ → Byte) (cs : List BlockCopy) : ℕ → Byte :=
  cs.foldl (fun m c => copy m c.shared buf c.own c.len) array

/-- The private buffer after the copies from the array. -/
def copyOut (array buf : ℕ → Byte) (cs : List BlockCopy) : ℕ → Byte :=
  cs.foldl (fun m c => copy m c.own array c.shared c.len) buf

/-- What a transfer leaves behind: its return value, its copies, the ring and the private
buffer. -/
structure Transfer where
  ret : Word
  copies : List BlockCopy
  buff : SwBuff
  buf : ℕ → Byte

/-- `put_sw_buffer`. -/
def putSwBuffer (b : SwBuff) (buf : ℕ → Byte) (len : Word) : Except RingAbort Transfer :=
  if b.full ≠ 0 then .error .putOnFull
  else
    let spaceleft := spaceleftSwBuffer b
    if swBufSize < spaceleft then .error .badIndices
    else
      let sent := if spaceleft < len then spaceleft else len
      let copies := cycleCopies b.tail b.head sent
      .ok {
        ret := sent
        copies := copies
        buff := {
          buffer := copyIn b.buffer buf copies
          head := b.head
          tail := (b.tail + sent) % swBufSize
          -- set when the request exceeds the room, not when it uses it up
          full := if spaceleft < len then 1 else b.full }
        buf := buf }

/-- `get_sw_buffer`. -/
def getSwBuffer (b : SwBuff) (buf : ℕ → Byte) (len : Word) : Except RingAbort Transfer :=
  if b.head = b.tail ∧ b.full = 0 then .error .getOnEmpty
  else
    let dataleft := dataleftSwBuffer b
    if swBufSize < dataleft then .error .badIndices
    else
      let nread := if dataleft < len then dataleft else len
      let copies := cycleCopies b.head b.tail nread
      .ok {
        ret := nread
        copies := copies
        buff := {
          buffer := b.buffer
          head := (b.head + nread) % swBufSize
          tail := b.tail
          full := if 0 < nread then 0 else b.full }
        buf := copyOut b.buffer buf copies }

/-! ## Confinement

Between `pos` and `other` the two functions compute the same distance, `room`. -/

/-- The distance from `pos` forward to `other`, a whole turn when they are equal: what
`spaceleft_sw_buffer` computes for a ring that is not full, and `dataleft_sw_buffer` for one that
is not empty. -/
def room (pos other : Word) : Word :=
  if pos = other then swBufSize
  else if pos < other then other - pos
  else swBufSize - pos + other

theorem spaceleft_eq_room {b : SwBuff} (h : b.full = 0) :
    spaceleftSwBuffer b = room b.tail b.head := by
  unfold spaceleftSwBuffer room
  rw [if_neg (not_not_intro h)]
  simp only [eq_comm (a := b.head)]

theorem dataleft_eq_room {b : SwBuff} (h : ¬ (b.head = b.tail ∧ b.full = 0)) :
    dataleftSwBuffer b = room b.head b.tail := by
  unfold dataleftSwBuffer room
  by_cases he : b.head = b.tail
  · have hf : b.full ≠ 0 := fun hf => h ⟨he, hf⟩
    rw [if_pos he, if_pos hf, if_pos he]
  · rw [if_neg he, if_neg he]

theorem spaceleft_of_full {b : SwBuff} (h : b.head = b.tail) (hf : b.full ≠ 0) :
    (spaceleftSwBuffer b).toNat = 0 := by
  rw [spaceleftSwBuffer, if_pos h, if_pos hf]
  rfl

theorem dataleft_of_empty {b : SwBuff} (h : b.head = b.tail ∧ b.full = 0) :
    (dataleftSwBuffer b).toNat = 0 := by
  rw [dataleftSwBuffer, if_pos h.1, if_neg (not_not_intro h.2)]
  rfl

/-- The number of bytes a transfer moves. -/
def moved (pos other len : Word) : Word :=
  if room pos other < len then room pos other else len

/-- What `put_sw_buffer` does: it aborts on a ring marked full, it aborts on a distance above
2048, and otherwise it writes from the write index on. -/
theorem putSwBuffer_cases (b : SwBuff) (buf : ℕ → Byte) (len : Word) :
    (b.full ≠ 0 ∧ putSwBuffer b buf len = .error .putOnFull) ∨
      (b.full = 0 ∧ swBufSize < room b.tail b.head ∧
        putSwBuffer b buf len = .error .badIndices) ∨
      (b.full = 0 ∧ ¬ swBufSize < room b.tail b.head ∧
        putSwBuffer b buf len = .ok {
          ret := moved b.tail b.head len
          copies := cycleCopies b.tail b.head (moved b.tail b.head len)
          buff := {
            buffer := copyIn b.buffer buf
              (cycleCopies b.tail b.head (moved b.tail b.head len))
            head := b.head
            tail := (b.tail + moved b.tail b.head len) % swBufSize
            full := if room b.tail b.head < len then 1 else 0 }
          buf := buf }) := by
  unfold putSwBuffer
  by_cases hfull : b.full ≠ 0
  · exact Or.inl ⟨hfull, if_pos hfull⟩
  · have h0 : b.full = 0 := not_not.mp hfull
    rw [if_neg hfull, spaceleft_eq_room h0]
    dsimp only
    by_cases hroom : swBufSize < room b.tail b.head
    · exact Or.inr (Or.inl ⟨h0, hroom, if_pos hroom⟩)
    · rw [if_neg hroom, h0]
      exact Or.inr (Or.inr ⟨rfl, hroom, rfl⟩)

/-- What `get_sw_buffer` does: it aborts on an empty ring, it aborts on a distance above 2048,
and otherwise it reads from the read index on. -/
theorem getSwBuffer_cases (b : SwBuff) (buf : ℕ → Byte) (len : Word) :
    ((b.head = b.tail ∧ b.full = 0) ∧ getSwBuffer b buf len = .error .getOnEmpty) ∨
      (¬ (b.head = b.tail ∧ b.full = 0) ∧ swBufSize < room b.head b.tail ∧
        getSwBuffer b buf len = .error .badIndices) ∨
      (¬ (b.head = b.tail ∧ b.full = 0) ∧ ¬ swBufSize < room b.head b.tail ∧
        getSwBuffer b buf len = .ok {
          ret := moved b.head b.tail len
          copies := cycleCopies b.head b.tail (moved b.head b.tail len)
          buff := {
            buffer := b.buffer
            head := (b.head + moved b.head b.tail len) % swBufSize
            tail := b.tail
            full := if 0 < moved b.head b.tail len then 0 else b.full }
          buf := copyOut b.buffer buf
            (cycleCopies b.head b.tail (moved b.head b.tail len)) }) := by
  unfold getSwBuffer
  by_cases hempty : b.head = b.tail ∧ b.full = 0
  · exact Or.inl ⟨hempty, if_pos hempty⟩
  · rw [if_neg hempty, dataleft_eq_room hempty]
    dsimp only
    by_cases hroom : swBufSize < room b.head b.tail
    · exact Or.inr (Or.inl ⟨hempty, hroom, if_pos hroom⟩)
    · rw [if_neg hroom]
      exact Or.inr (Or.inr ⟨hempty, hroom, rfl⟩)

/-- The bytes a list of copies accesses: indices below 2048 of the array, and offsets below
`len` of the private buffer. -/
def Touches (len : Word) (cs : List BlockCopy) : Prop :=
  ∀ c ∈ cs, ∀ k < c.len, c.shared + k < swBufSize.toNat ∧ c.own + k < len.toNat

/-- The transfer accesses the array and the first `len` private bytes only, and returns at most
`len`. -/
def Transfer.Confined (t : Transfer) (len : Word) : Prop :=
  Touches len t.copies ∧ t.ret ≤ len

/-- The index values for which a transfer of up to `len` bytes at `pos` stays in the array.  With
`other` ahead the block ends there and must end in the array; otherwise the block may start
anywhere in it, or at its end.  A distance of more than 2048 is noticed. -/
def InArray (pos other len : Word) : Prop :=
  len = 0 ∨
    (pos.toNat < other.toNat →
      2048 < other.toNat - pos.toNat ∨
        pos.toNat + min len.toNat (other.toNat - pos.toNat) ≤ 2048) ∧
    (other.toNat ≤ pos.toNat → 2048 ≤ pos.toNat - other.toNat ∨ pos.toNat ≤ 2048)

variable {len n other pos : Word}

/-- The distance as a number, where it is one the transfers accept. -/
theorem toNat_room (h : ¬ swBufSize < room pos other) :
    (pos.toNat < other.toNat ∧ other.toNat - pos.toNat ≤ 2048 ∧
        (room pos other).toNat = other.toNat - pos.toNat) ∨
      (other.toNat ≤ pos.toNat ∧ pos.toNat - other.toNat ≤ 2048 ∧
        (room pos other).toNat = 2048 - (pos.toNat - other.toNat)) := by
  unfold room swBufSize at *
  split at h
  · rename_i he
    subst he
    simp
  · rename_i hne
    rw [if_neg hne]
    split at h
    · rename_i hlt
      rw [if_pos hlt]
      left
      bv_omega
    · rename_i hlt
      rw [if_neg hlt]
      right
      bv_omega

/-- The distances that make a transfer abort. -/
theorem lt_room (h : swBufSize < room pos other) :
    (pos.toNat < other.toNat → 2048 < other.toNat - pos.toNat) ∧
      (other.toNat ≤ pos.toNat → 2048 ≤ pos.toNat - other.toNat) := by
  unfold room swBufSize at *
  split at h
  · exact absurd h (by decide)
  · split at h <;> constructor <;> intro <;> bv_omega

theorem touches_one {s n : ℕ} (hn : n ≤ len.toNat) :
    Touches len [⟨s, 0, n⟩] ↔ n = 0 ∨ s + n ≤ 2048 := by
  have hsize : swBufSize.toNat = 2048 := rfl
  simp only [Touches, List.mem_singleton, forall_eq, hsize]
  constructor
  · intro h
    by_contra hcon
    have := h (n - 1) (by omega)
    omega
  · intro h k hk
    omega

/-- **The copies of a transfer stay in the array exactly for the index values `InArray`.** -/
theorem touches_cycleCopies_iff (hroom : ¬ swBufSize < room pos other)
    (hn : n.toNat = min len.toNat (room pos other).toNat) :
    Touches len (cycleCopies pos other n) ↔ InArray pos other len := by
  have hzero : len = 0 ↔ len.toNat = 0 := by bv_omega
  have hdist := toNat_room hroom
  have hp := pos.isLt
  unfold cycleCopies InArray
  split
  · rename_i hone
    rw [touches_one (by omega), hzero]
    have hone' : pos.toNat < other.toNat ∨ n.toNat ≤ (swBufSize - pos).toNat := hone
    have hend : (swBufSize - pos).toNat = (2 ^ 32 - pos.toNat + 2048) % 2 ^ 32 := by
      rw [BitVec.toNat_sub]; rfl
    rw [hend] at hone'
    omega
  · rename_i htwo
    have htwo' : ¬ (pos.toNat < other.toNat ∨ n.toNat ≤ (swBufSize - pos).toNat) := htwo
    have hend : (swBufSize - pos).toNat = (2 ^ 32 - pos.toNat + 2048) % 2 ^ 32 := by
      rw [BitVec.toNat_sub]; rfl
    -- an index beyond the array never gets here: the distance to its end is then above 2048
    have hpos : pos.toNat ≤ 2048 := by omega
    have hrest : (n - (swBufSize - pos)).toNat = n.toNat - (2048 - pos.toNat) := by
      rw [BitVec.toNat_sub, hend]; omega
    constructor
    · intro _
      omega
    · intro _ c hc k hk
      have hsize : swBufSize.toNat = 2048 := rfl
      simp only [List.mem_cons, List.not_mem_nil, or_false] at hc
      rcases hc with rfl | rfl <;> simp only [hsize, hrest, hend] at * <;> omega

theorem inArray_of_lt_room (len : Word) (h : swBufSize < room pos other) :
    InArray pos other len := by
  obtain ⟨hahead, hbehind⟩ := lt_room h
  refine Or.inr ⟨?_, ?_⟩
  · intro hlt
    exact Or.inl (hahead hlt)
  · intro hle
    exact Or.inl (hbehind hle)

theorem toNat_moved (pos other len : Word) :
    (moved pos other len).toNat = min len.toNat (room pos other).toNat := by
  unfold moved
  split <;> bv_omega

theorem moved_le (pos other len : Word) : moved pos other len ≤ len := by
  unfold moved
  split <;> bv_omega

/-- A transfer that got past its tests is confined exactly for the index values `InArray`. -/
theorem confined_iff_inArray {t : Transfer} (hroom : ¬ swBufSize < room pos other)
    (hret : t.ret = moved pos other len)
    (hcopies : t.copies = cycleCopies pos other (moved pos other len)) :
    t.Confined len ↔ InArray pos other len := by
  unfold Transfer.Confined
  rw [hcopies, hret, touches_cycleCopies_iff hroom (toNat_moved _ _ _)]
  exact and_iff_left (moved_le _ _ _)

/-- **Which index values keep the two transfers inside the array.**  Whatever a hostile writer
put into the indices and the flag, a transfer that is not stopped by an `abort()` is confined
exactly when the block it starts at its own index ends in the array. -/
theorem transfers_confined_iff (b : SwBuff) (buf : ℕ → Byte) (len : Word) :
    ((∀ t, putSwBuffer b buf len = .ok t → t.Confined len) ↔
        b.full ≠ 0 ∨ InArray b.tail b.head len) ∧
      ((∀ t, getSwBuffer b buf len = .ok t → t.Confined len) ↔
        (b.head = b.tail ∧ b.full = 0) ∨ InArray b.head b.tail len) := by
  constructor
  · rcases putSwBuffer_cases b buf len with ⟨hfull, he⟩ | ⟨-, hroom, he⟩ | ⟨h0, hroom, he⟩
    · exact iff_of_true (by rw [he]; nofun) (Or.inl hfull)
    · exact iff_of_true (by rw [he]; nofun) (Or.inr (inArray_of_lt_room len hroom))
    · simp only [he, Except.ok.injEq, forall_eq']
      rw [confined_iff_inArray hroom rfl rfl]
      exact (or_iff_right (not_not_intro h0)).symm
  · rcases getSwBuffer_cases b buf len with ⟨hempty, he⟩ | ⟨-, hroom, he⟩ | ⟨hne, hroom, he⟩
    · exact iff_of_true (by rw [he]; nofun) (Or.inl hempty)
    · exact iff_of_true (by rw [he]; nofun) (Or.inr (inArray_of_lt_room len hroom))
    · simp only [he, Except.ok.injEq, forall_eq']
      rw [confined_iff_inArray hroom rfl rfl]
      exact (or_iff_right hne).symm

/-- Indices 2900 and 3000 differ by an acceptable distance, and ten bytes are written behind the
array. -/
theorem put_leaves_array :
    ∃ t, putSwBuffer ⟨fun _ => 0, 3000, 2900, 0⟩ (fun _ => 0) 10 = .ok t ∧
      t.copies = [⟨2900, 0, 10⟩] ∧ ¬ t.Confined 10 := by
  refine ⟨_, rfl, by decide, ?_⟩
  intro h
  have := (h.1 ⟨2900, 0, 10⟩ (by decide) 0 (by decide)).1
  exact absurd this (by decide)

/-! ## The effect of one transfer -/

/-- A ring whose indices lie in the array and that is marked full only where they meet. -/
structure SwBuff.WellFormed (b : SwBuff) : Prop where
  head : b.head.toNat < 2048
  tail : b.tail.toNat < 2048
  full : b.full ≠ 0 → b.head = b.tail

/-- What a call leaves behind.  Both functions abort before their first store. -/
def afterCall (b : SwBuff) (buf : ℕ → Byte) : Except RingAbort Transfer → Transfer
  | .ok t => t
  | .error _ => ⟨0, [], b, buf⟩

/-- The call returns `m`, unless `stop` holds: then there is nothing to move, and it aborts with
`e`.  The ring stays well-formed, and no index outside of the array is touched. -/
structure EndsWell (b : SwBuff) (buf : ℕ → Byte) (len : Word) (r : Except RingAbort Transfer)
    (m : ℕ) (e : RingAbort) (stop : Prop) : Prop where
  aborts : stop → m = 0 ∧ r = .error e
  returns : ¬ stop → ∃ t, r = .ok t ∧ t.ret.toNat = m
  wellFormed : (afterCall b buf r).buff.WellFormed
  touches : Touches len (afterCall b buf r).copies

/-- The first `m` bytes of `buf` were stored in `b` from the write index on, and no other byte
changed. -/
structure PutEffect (b : SwBuff) (buf : ℕ → Byte) (m : ℕ) (t : Transfer) : Prop where
  stored : ∀ i < m, t.buff.buffer ((b.tail.toNat + i) % 2048) = buf i
  others : ∀ j, (∀ i < m, j ≠ (b.tail.toNat + i) % 2048) → t.buff.buffer j = b.buffer j
  unread : ∀ i < (dataleftSwBuffer b).toNat,
    t.buff.buffer ((b.head.toNat + i) % 2048) = b.buffer ((b.head.toNat + i) % 2048)
  head : t.buff.head = b.head
  tail : t.buff.tail.toNat = (b.tail.toNat + m) % 2048
  own : t.buf = buf

/-- The first `m` bytes of `buf` are now those of `b` from the read index on, and no other byte
changed. -/
structure GetEffect (b : SwBuff) (buf : ℕ → Byte) (m : ℕ) (t : Transfer) : Prop where
  delivered : ∀ i < m, t.buf i = b.buffer ((b.head.toNat + i) % 2048)
  others : ∀ i, m ≤ i → t.buf i = buf i
  array : t.buff.buffer = b.buffer
  head : t.buff.head.toNat = (b.head.toNat + m) % 2048
  tail : t.buff.tail = b.tail

section

variable (hpos : pos.toNat < 2048) (hn : n.toNat ≤ 2048)
  (hahead : pos.toNat < other.toNat → pos.toNat + n.toNat ≤ 2048)
include hpos hn hahead

/-- The copies of a block that fits, in numbers. -/
theorem cycleCopies_eq :
    cycleCopies pos other n =
      if pos.toNat + n.toNat ≤ 2048 then [⟨pos.toNat, 0, n.toNat⟩]
      else [⟨pos.toNat, 0, 2048 - pos.toNat⟩,
        ⟨0, 2048 - pos.toNat, n.toNat - (2048 - pos.toNat)⟩] := by
  have hend : (swBufSize - pos).toNat = 2048 - pos.toNat := by
    unfold swBufSize
    bv_omega
  have hcond : (pos < other ∨ n ≤ swBufSize - pos) ↔ pos.toNat + n.toNat ≤ 2048 := by
    rw [BitVec.lt_def, BitVec.le_def, hend]
    omega
  unfold cycleCopies
  simp only [hcond]
  split
  · rfl
  · have hrest : (n - (swBufSize - pos)).toNat = n.toNat - (2048 - pos.toNat) := by
      rw [BitVec.toNat_sub, hend]
      omega
    rw [hrest, hend]

/-- A put writes byte `k` of its buffer to cell `pos + k`, counted around the array, and no other
cell. -/
theorem copyIn_cycleCopies (array buf : ℕ → Byte) (j : ℕ) :
    copyIn array buf (cycleCopies pos other n) j =
      if j < 2048 ∧ (j + 2048 - pos.toNat) % 2048 < n.toNat then
        buf ((j + 2048 - pos.toNat) % 2048)
      else array j := by
  rw [cycleCopies_eq hpos hn hahead]
  split
  · simp only [copyIn, List.foldl_cons, List.foldl_nil, copy]
    split <;> split <;> first | omega | rfl | (congr 1; omega)
  · simp only [copyIn, List.foldl_cons, List.foldl_nil, copy]
    split <;> split <;> try split
    all_goals first | omega | rfl | (congr 1; omega)

/-- A get reads byte `k` of its result from cell `pos + k`, counted around the array, and leaves
the private bytes behind. -/
theorem copyOut_cycleCopies (array buf : ℕ → Byte) (k : ℕ) :
    copyOut array buf (cycleCopies pos other n) k =
      if k < n.toNat then array ((pos.toNat + k) % 2048) else buf k := by
  rw [cycleCopies_eq hpos hn hahead]
  split
  · simp only [copyOut, List.foldl_cons, List.foldl_nil, copy]
    split <;> split <;> first | omega | rfl | (congr 1; omega)
  · simp only [copyOut, List.foldl_cons, List.foldl_nil, copy]
    split <;> split <;> try split
    all_goals first | omega | rfl | (congr 1; omega)

end

/-- An index moved on by a transfer. -/
theorem toNat_advance (n : Word) {c : ℕ} (hpos : pos.toNat = c % 2048) :
    ((pos + n) % swBufSize).toNat = (c + n.toNat) % 2048 := by
  have hsize : swBufSize.toNat = 2048 := rfl
  rw [BitVec.toNat_umod, BitVec.toNat_add, hsize]
  omega

/-- The distance between two indices of the array. -/
theorem toNat_room_of_lt (hpos : pos.toNat < 2048) (hother : other.toNat < 2048) :
    (room pos other).toNat =
      if pos.toNat < other.toNat then other.toNat - pos.toNat
      else other.toNat + 2048 - pos.toNat := by
  unfold room swBufSize
  split
  · rename_i he
    rw [he, if_neg (lt_irrefl _), Nat.add_sub_cancel_left]
    rfl
  · rename_i hne
    split <;> split <;> bv_omega

/-- A transfer between two indices of the array is not refused and stays in the array. -/
theorem moved_fits (hpos : pos.toNat < 2048) (hother : other.toNat < 2048) (len : Word) :
    ¬ swBufSize < room pos other ∧ (moved pos other len).toNat ≤ 2048 ∧
      (pos.toNat < other.toNat → pos.toNat + (moved pos other len).toNat ≤ 2048) ∧
      Touches len (cycleCopies pos other (moved pos other len)) := by
  have hsize : swBufSize.toNat = 2048 := rfl
  have hroom := toNat_room_of_lt hpos hother
  have hmoved := toNat_moved pos other len
  have hle : ¬ swBufSize < room pos other := by
    rw [BitVec.lt_def, hroom, hsize]
    split <;> omega
  rw [touches_cycleCopies_iff hle hmoved]
  refine ⟨hle, ?_, ?_, ?_⟩
  · split at hroom <;> omega
  · intro hlt
    rw [if_pos hlt] at hroom
    omega
  · refine Or.inr ⟨?_, ?_⟩
    · intro hlt
      omega
    · intro _
      omega

namespace SwBuff.WellFormed

variable {b : SwBuff}

/-- The two levels add up to the size, the data ends at the write index, and the flag tells a full
ring. -/
theorem levels (hb : b.WellFormed) :
    (spaceleftSwBuffer b).toNat + (dataleftSwBuffer b).toNat = 2048 ∧
      b.tail.toNat = (b.head.toNat + (dataleftSwBuffer b).toNat) % 2048 ∧
      (b.full = 0 ↔ (dataleftSwBuffer b).toNat < 2048) := by
  have hh := hb.head
  have ht := hb.tail
  by_cases hf : b.full = 0
  · rw [spaceleft_eq_room hf, toNat_room_of_lt ht hh, iff_true_left hf]
    by_cases hempty : b.head = b.tail
    · rw [dataleft_of_empty ⟨hempty, hf⟩, ← hempty, if_neg (lt_irrefl _)]
      omega
    · have hne : b.head.toNat ≠ b.tail.toNat := fun h => hempty (BitVec.eq_of_toNat_eq h)
      rw [dataleft_eq_room fun h => hempty h.1, toNat_room_of_lt hh ht]
      split <;> split <;> omega
  · have heq := hb.full hf
    rw [spaceleft_of_full heq hf, dataleft_eq_room fun h => hf h.2, toNat_room_of_lt hh ht, ← heq,
      if_neg (lt_irrefl _), iff_false_left hf]
    omega

/-- The effect of a put. -/
theorem put (hb : b.WellFormed) (buf : ℕ → Byte) (len : Word) :
    EndsWell b buf len (putSwBuffer b buf len) (min len.toNat (spaceleftSwBuffer b).toNat)
        .putOnFull (b.full ≠ 0) ∧
      PutEffect b buf (min len.toNat (spaceleftSwBuffer b).toNat)
        (afterCall b buf (putSwBuffer b buf len)) := by
  obtain ⟨hsum, hends, -⟩ := hb.levels
  have hh := hb.head
  have ht := hb.tail
  obtain ⟨hroom, hn, hahead, htouch⟩ := moved_fits ht hh len
  rcases putSwBuffer_cases b buf len with ⟨hf, he⟩ | ⟨-, hcon, -⟩ | ⟨hf, -, he⟩
  · simp only [he, spaceleft_of_full (hb.full hf) hf, Nat.min_zero, afterCall]
    refine ⟨⟨fun _ => ⟨rfl, rfl⟩, absurd hf, hb, by simp [afterCall, Touches]⟩, ?_⟩
    exact ⟨by simp, fun _ _ => rfl, fun _ _ => rfl, rfl, (Nat.mod_eq_of_lt ht).symm, rfl⟩
  · exact absurd hcon hroom
  · have hm := toNat_moved b.tail b.head len
    have hlt := BitVec.lt_def (x := room b.tail b.head) (y := len)
    have hadv := toNat_advance (moved b.tail b.head len) (Nat.mod_eq_of_lt ht).symm
    rw [← spaceleft_eq_room hf] at hm hlt
    simp only [he, afterCall, ← hm]
    generalize moved b.tail b.head len = n at *
    have hothers : ∀ j, (∀ i < n.toNat, j ≠ (b.tail.toNat + i) % 2048) →
        copyIn b.buffer buf (cycleCopies b.tail b.head n) j = b.buffer j := by
      intro j hj
      rw [copyIn_cycleCopies ht hn hahead, if_neg]
      intro hin
      exact hj _ hin.2 (by omega)
    refine ⟨⟨absurd hf, fun _ => ⟨_, rfl, rfl⟩, ⟨hh, ?_, ?_⟩, htouch⟩,
      ⟨?_, hothers, ?_, rfl, hadv, rfl⟩⟩
    · dsimp only [afterCall]
      omega
    · intro hfull
      have hover : (spaceleftSwBuffer b).toNat < len.toNat := by
        rw [← hlt, spaceleft_eq_room hf]
        by_contra hcon
        exact hfull (if_neg hcon)
      apply BitVec.eq_of_toNat_eq
      dsimp only [afterCall]
      rw [hadv]
      omega
    · intro i hi
      dsimp only
      rw [copyIn_cycleCopies ht hn hahead, if_pos (by omega)]
      congr 1
      omega
    · intro i hi
      exact hothers _ fun k hk => by omega

/-- The effect of a get. -/
theorem get (hb : b.WellFormed) (buf : ℕ → Byte) (len : Word) :
    EndsWell b buf len (getSwBuffer b buf len) (min len.toNat (dataleftSwBuffer b).toNat)
        .getOnEmpty (b.head = b.tail ∧ b.full = 0) ∧
      GetEffect b buf (min len.toNat (dataleftSwBuffer b).toNat)
        (afterCall b buf (getSwBuffer b buf len)) := by
  have hh := hb.head
  have ht := hb.tail
  obtain ⟨hroom, hn, hahead, htouch⟩ := moved_fits hh ht len
  rcases getSwBuffer_cases b buf len with ⟨hempty, he⟩ | ⟨-, hcon, -⟩ | ⟨hne, -, he⟩
  · simp only [he, dataleft_of_empty hempty, Nat.min_zero, afterCall]
    refine ⟨⟨fun _ => ⟨rfl, rfl⟩, absurd hempty, hb, by simp [afterCall, Touches]⟩, ?_⟩
    exact ⟨by simp, fun _ _ => rfl, rfl, (Nat.mod_eq_of_lt hh).symm, rfl⟩
  · exact absurd hcon hroom
  · have hm := toNat_moved b.head b.tail len
    have hadv := toNat_advance (moved b.head b.tail len) (Nat.mod_eq_of_lt hh).symm
    rw [← dataleft_eq_room hne] at hm
    simp only [he, afterCall, ← hm]
    generalize moved b.head b.tail len = n at *
    refine ⟨⟨fun h => absurd h hne, fun _ => ⟨_, rfl, rfl⟩, ⟨?_, ht, ?_⟩, htouch⟩,
      ⟨?_, ?_, rfl, hadv, rfl⟩⟩
    · dsimp only [afterCall]
      omega
    · -- a flag that is still set belongs to a get of no bytes
      intro hfull
      have hzero : ¬ 0 < n := fun hpos => hfull (if_pos hpos)
      have hn0 : n.toNat = 0 := by bv_omega
      have hf : b.full ≠ 0 := by
        dsimp only [afterCall] at hfull
        rwa [if_neg hzero] at hfull
      apply BitVec.eq_of_toNat_eq
      dsimp only [afterCall]
      rw [hadv, hn0, ← hb.full hf]
      omega
    · intro i hi
      dsimp only
      rw [copyOut_cycleCopies hh hn hahead, if_pos hi]
    · intro i hi
      dsimp only
      rw [copyOut_cycleCopies hh hn hahead, if_neg (Nat.not_lt.mpr hi)]

end SwBuff.WellFormed

/-- **The exact effect of a transfer.**  On every well-formed ring a put stores the first
`min len spaceleft` bytes from the write index on, a get delivers the first `min len dataleft`
bytes from the read index on; nothing else changes, no index outside of the array is touched, and
the ring stays well-formed.  A put on a ring marked full and a get on an empty one have nothing to
move and abort with the ring as it was; all other calls return. -/
theorem transfers_exact (b : SwBuff) (buf : ℕ → Byte) (len : Word) (hb : b.WellFormed) :
    (EndsWell b buf len (putSwBuffer b buf len) (min len.toNat (spaceleftSwBuffer b).toNat)
          .putOnFull (b.full ≠ 0) ∧
        PutEffect b buf (min len.toNat (spaceleftSwBuffer b).toNat)
          (afterCall b buf (putSwBuffer b buf len))) ∧
      EndsWell b buf len (getSwBuffer b buf len) (min len.toNat (dataleftSwBuffer b).toNat)
          .getOnEmpty (b.head = b.tail ∧ b.full = 0) ∧
        GetEffect b buf (min len.toNat (dataleftSwBuffer b).toNat)
          (afterCall b buf (getSwBuffer b buf len)) :=
  ⟨hb.put buf len, hb.get buf len⟩

/-- A ring whose six bytes lie across the end of the array. -/
def wrappedRing : SwBuff := ⟨fun j => BitVec.ofNat 8 j, 2045, 3, 0⟩

/-- A get takes five of the bytes with two copies, and a put of 3000 bytes is cut short where the
data begins. -/
theorem transfers_exact_wrapped :
    (∃ t, getSwBuffer wrappedRing (fun _ => 0) 5 = .ok t ∧
        t.copies = [⟨2045, 0, 3⟩, ⟨0, 3, 2⟩] ∧ t.buf 4 = 1 ∧ t.buff.head.toNat = 2) ∧
      ∃ t, putSwBuffer wrappedRing (fun _ => 7) 3000 = .ok t ∧
        t.buff.buffer 2044 = 7 ∧ t.buff.buffer 2045 = 253 ∧ t.buff.tail.toNat = 2045 := by
  have hb : wrappedRing.WellFormed := ⟨by decide, by decide, by decide⟩
  have hget := (transfers_exact wrappedRing (fun _ => 0) 5 hb).2.2
  have hput := (transfers_exact wrappedRing (fun _ => 7) 3000 hb).1.2
  refine ⟨⟨_, rfl, by decide, ?_, hget.head⟩, ⟨_, rfl, ?_, ?_, hput.tail⟩⟩
  · exact hget.delivered 4 (by decide)
  · exact hput.stored 2041 (by decide)
  · exact hput.unread 0 (by decide)

/-! ## First in, first out -/

/-- A ring with the bytes its puts accepted and the bytes its gets returned so far. -/
structure Ring where
  buff : SwBuff
  accepted : List Byte
  returned : List Byte

/-- One call, with the private buffer and the length it is given. -/
inductive RingOp
  | put (buf : ℕ → Byte) (len : Word)
  | get (buf : ℕ → Byte) (len : Word)

/-- A call accepts or returns as many bytes as its return value says. -/
def ringStep (r : Ring) : RingOp → Except RingAbort Ring
  | .put buf len =>
    match putSwBuffer r.buff buf len with
    | .error e => .error e
    | .ok t => .ok { r with
        buff := t.buff
        accepted := r.accepted ++ slice buf 0 t.ret.toNat }
  | .get buf len =>
    match getSwBuffer r.buff buf len with
    | .error e => .error e
    | .ok t => .ok { r with
        buff := t.buff
        returned := r.returned ++ slice t.buf 0 t.ret.toNat }

/-- A ring after `init_sw_buffer`. -/
def Ring.init (b : SwBuff) : Ring := ⟨initSwBuffer b, [], []⟩

/-- What was returned is the first part of what was accepted, and the two level functions report
what lies between. -/
structure Fifo (r : Ring) : Prop where
  inOrder : r.returned <+: r.accepted
  dataleft : (dataleftSwBuffer r.buff).toNat + r.returned.length = r.accepted.length
  spaceleft : (spaceleftSwBuffer r.buff).toNat + (dataleftSwBuffer r.buff).toNat = 2048

/-- No put asks for exactly the room that is left. -/
def NoExactFill (r : Ring) : RingOp → Prop
  | .put _ len => len ≠ spaceleftSwBuffer r.buff
  | .get _ _ => True

instance (r : Ring) (op : RingOp) : Decidable (NoExactFill r op) := by
  cases op <;> dsimp only [NoExactFill] <;> infer_instance

/-- The invariant of a ring: its indices are the two counters, the array holds what lies between
them, and the flag tells a full ring. -/
structure RingInv (r : Ring) : Prop where
  inOrder : r.returned <+: r.accepted
  window : Window r.buff.buffer 2048 r.accepted r.returned.length
  head : r.buff.head.toNat = r.returned.length % 2048
  tail : r.buff.tail.toNat = r.accepted.length % 2048
  full : r.buff.full = 0 ↔ r.accepted.length < r.returned.length + 2048

theorem ringInv_init (b : SwBuff) : RingInv (Ring.init b) where
  inOrder := List.prefix_refl []
  window := window_nil
  head := rfl
  tail := rfl
  full := iff_of_true rfl (by simp [Ring.init])

/-- A call that returns has moved `m` bytes. -/
theorem EndsWell.ret {b : SwBuff} {buf : ℕ → Byte} {t : Transfer} {m : ℕ} {e : RingAbort}
    {stop : Prop} (h : EndsWell b buf len (.ok t) m e stop) : t.ret.toNat = m := by
  have hgo : ¬ stop := by
    intro hstop
    cases (h.aborts hstop).2
  obtain ⟨t', ht, hret⟩ := h.returns hgo
  cases ht
  exact hret

/-- A put that returns: its effect, and when it sets the flag. -/
theorem SwBuff.WellFormed.put_ok {b : SwBuff} (hb : b.WellFormed) {buf : ℕ → Byte} {t : Transfer}
    (h : putSwBuffer b buf len = .ok t) :
    t.ret.toNat = min len.toNat (spaceleftSwBuffer b).toNat ∧ PutEffect b buf t.ret.toNat t ∧
      b.full = 0 ∧ (t.buff.full = 0 ↔ len.toNat ≤ (spaceleftSwBuffer b).toNat) := by
  obtain ⟨hends, heff⟩ := hb.put buf len
  rw [h] at hends heff
  rw [← hends.ret] at heff
  refine ⟨hends.ret, heff, ?_⟩
  rcases putSwBuffer_cases b buf len with ⟨-, he⟩ | ⟨-, -, he⟩ | ⟨hf, -, he⟩
  · cases he.symm.trans h
  · cases he.symm.trans h
  · cases he.symm.trans h
    rw [spaceleft_eq_room hf, ← Nat.not_lt, ← BitVec.lt_def]
    refine ⟨hf, ?_⟩
    dsimp only
    split <;> simp_all

/-- A get that returns: its effect, and when it clears the flag. -/
theorem SwBuff.WellFormed.get_ok {b : SwBuff} (hb : b.WellFormed) {buf : ℕ → Byte} {t : Transfer}
    (h : getSwBuffer b buf len = .ok t) :
    t.ret.toNat = min len.toNat (dataleftSwBuffer b).toNat ∧ GetEffect b buf t.ret.toNat t ∧
      (t.buff.full = 0 ↔ b.full = 0 ∨ 0 < t.ret.toNat) := by
  obtain ⟨hends, heff⟩ := hb.get buf len
  rw [h] at hends heff
  rw [← hends.ret] at heff
  refine ⟨hends.ret, heff, ?_⟩
  rcases getSwBuffer_cases b buf len with ⟨-, he⟩ | ⟨-, -, he⟩ | ⟨-, -, he⟩
  · cases he.symm.trans h
  · cases he.symm.trans h
  · cases he.symm.trans h
    have hpos : 0 < moved b.head b.tail len ↔ 0 < (moved b.head b.tail len).toNat := Iff.rfl
    dsimp only
    rw [← hpos]
    split <;> simp_all

namespace RingInv

variable {r r' : Ring} {buf : ℕ → Byte}

theorem le_length (h : RingInv r) : r.returned.length ≤ r.accepted.length :=
  h.inOrder.length_le

theorem wellFormed (h : RingInv r) : r.buff.WellFormed := by
  have hh := h.head
  have ht := h.tail
  refine ⟨by omega, by omega, ?_⟩
  intro hf
  have hfits := h.window.fits
  have hge : ¬ r.accepted.length < r.returned.length + 2048 := fun hlt => hf (h.full.mpr hlt)
  apply BitVec.eq_of_toNat_eq
  omega

/-- The levels are the number of bytes that lie in the ring, and what is left of its size. -/
theorem levels (h : RingInv r) :
    (dataleftSwBuffer r.buff).toNat + r.returned.length = r.accepted.length ∧
      (spaceleftSwBuffer r.buff).toNat + (dataleftSwBuffer r.buff).toNat = 2048 := by
  obtain ⟨hsum, hends, hflag⟩ := h.wellFormed.levels
  have hfull := h.full
  have hh := h.head
  have ht := h.tail
  have hle := h.le_length
  have hfits := h.window.fits
  rw [hflag] at hfull
  omega

theorem fifo (h : RingInv r) : Fifo r := ⟨h.inOrder, h.levels.1, h.levels.2⟩

end RingInv

variable {r r' : Ring} {buf : ℕ → Byte}

/-- A put that does not abort. -/
theorem ringStep_put (h : ringStep r (.put buf len) = .ok r') :
    ∃ t, putSwBuffer r.buff buf len = .ok t ∧
      r' = ⟨t.buff, r.accepted ++ slice buf 0 t.ret.toNat, r.returned⟩ := by
  simp only [ringStep] at h
  split at h
  · cases h
  · rename_i t ht
    cases h
    exact ⟨t, ht, rfl⟩

/-- A get that does not abort. -/
theorem ringStep_get (h : ringStep r (.get buf len) = .ok r') :
    ∃ t, getSwBuffer r.buff buf len = .ok t ∧
      r' = ⟨t.buff, r.accepted, r.returned ++ slice t.buf 0 t.ret.toNat⟩ := by
  simp only [ringStep] at h
  split at h
  · cases h
  · rename_i t ht
    cases h
    exact ⟨t, ht, rfl⟩

/-- A put that does not use up the room exactly keeps the invariant. -/
theorem RingInv.put (h : RingInv r) (hlen : len ≠ spaceleftSwBuffer r.buff)
    (hs : ringStep r (.put buf len) = .ok r') : RingInv r' := by
  obtain ⟨t, ht, rfl⟩ := ringStep_put hs
  obtain ⟨hret, heff, -, hflag⟩ := h.wellFormed.put_ok ht
  obtain ⟨hdata, hsum⟩ := h.levels
  have hlen' : len.toNat ≠ (spaceleftSwBuffer r.buff).toNat := fun he =>
    hlen (BitVec.eq_of_toNat_eq he)
  refine ⟨h.inOrder.trans (List.prefix_append _ _), ?_, ?_, ?_, ?_⟩
  · -- the new bytes go to free cells
    refine h.window.append ?_ ?_ ?_
    · rw [length_slice]
      omega
    · intro k y hy
      obtain ⟨hk, rfl⟩ := List.getElem?_eq_some_iff.mp hy
      rw [length_slice] at hk
      have hcell := heff.stored k hk
      rw [h.tail, Nat.mod_add_mod] at hcell
      simpa only [slice, List.getElem_map, List.getElem_range, Nat.zero_add] using hcell
    · intro k hk hlt
      have hcell := heff.unread (k - r.returned.length) (by omega)
      rwa [h.head, Nat.mod_add_mod, Nat.add_sub_cancel' hk] at hcell
  · exact (congrArg BitVec.toNat heff.head).trans h.head
  · dsimp only
    rw [heff.tail, h.tail, Nat.mod_add_mod, List.length_append, length_slice]
  · dsimp only
    rw [hflag, List.length_append, length_slice]
    omega

/-- A get keeps the invariant. -/
theorem RingInv.get (h : RingInv r) (hs : ringStep r (.get buf len) = .ok r') : RingInv r' := by
  obtain ⟨t, ht, rfl⟩ := ringStep_get hs
  obtain ⟨hret, heff, hflag⟩ := h.wellFormed.get_ok ht
  obtain ⟨hdata, hsum⟩ := h.levels
  -- what is returned are the oldest bytes of the window
  have hread : slice t.buf 0 t.ret.toNat =
      (r.accepted.drop r.returned.length).take t.ret.toNat := by
    rw [← h.window.read (by omega)]
    apply List.map_congr_left
    intro k hk
    rw [Nat.zero_add, heff.delivered k (List.mem_range.mp hk), h.head, Nat.mod_add_mod]
  have hlength : (r.returned ++ slice t.buf 0 t.ret.toNat).length =
      r.returned.length + t.ret.toNat := by
    rw [List.length_append, length_slice]
  refine ⟨?_, ?_, ?_, ?_, ?_⟩
  · obtain ⟨rest, hrest⟩ := h.inOrder
    rw [hread, ← hrest, List.drop_left, List.prefix_append_right_inj]
    exact List.take_prefix _ _
  · dsimp only
    rw [hlength, heff.array]
    exact h.window.drop (Nat.le_add_right _ _)
  · dsimp only
    rw [hlength, heff.head, h.head, Nat.mod_add_mod]
  · exact (congrArg BitVec.toNat heff.tail).trans h.tail
  · dsimp only
    rw [hflag, hlength, h.full]
    omega

/-- A put that uses up the room exactly leaves a ring that reports itself empty. -/
theorem not_fifo_of_exact_fill (h : RingInv r) (hlen : len = spaceleftSwBuffer r.buff)
    (hs : ringStep r (.put buf len) = .ok r') : ¬ Fifo r' := by
  obtain ⟨t, ht, rfl⟩ := ringStep_put hs
  intro hf
  obtain ⟨hret, heff, -, hflag⟩ := h.wellFormed.put_ok ht
  obtain ⟨hsum, hdata, -⟩ := h.wellFormed.levels
  have hh := h.wellFormed.head
  rw [hlen, min_self] at hret
  have hempty : t.buff.head = t.buff.tail ∧ t.buff.full = 0 := by
    refine ⟨BitVec.eq_of_toNat_eq ?_, hflag.mpr (hlen ▸ le_rfl)⟩
    rw [heff.head, heff.tail]
    omega
  have hlength := hf.dataleft
  have hlevels := h.levels
  simp only [dataleft_of_empty hempty, List.length_append, length_slice] at hlength
  omega

/-- **When the shared ring is a FIFO.**  From `init_sw_buffer` on, and as long as no call is made
that aborts, the ring behaves as a FIFO with exact levels in every state passed through exactly
when no put asked for precisely the room that was left. -/
theorem ring_fifo_iff_no_exact_fill (b : SwBuff) {ops : List RingOp} {r : Ring}
    (hr : Run ringStep (fun _ _ => True) (Ring.init b) ops r) :
    Always ringStep Fifo (Ring.init b) ops ↔ Run ringStep NoExactFill (Ring.init b) ops r := by
  refine Run.always_iff (I := RingInv) ?_ ?_ (fun _ h => h.fifo) hr (ringInv_init b)
  · intro r op r' h hG hs
    cases op with
    | put buf len => exact h.put hG hs
    | get buf len => exact h.get hs
  · intro r op r' h hs hf
    cases op with
    | put buf len => exact fun hlen => not_fifo_of_exact_fill h hlen hs hf
    | get buf len => trivial

/-- Three bytes in, two of them out. -/
theorem ring_fifo_put_get :
    Always ringStep Fifo (Ring.init ⟨fun _ => 0, 0, 0, 0⟩)
      [.put (fun k => BitVec.ofNat 8 (k + 65)) 3, .get (fun _ => 0) 2] := by
  obtain ⟨r, hr, -⟩ : ∃ r, Run ringStep NoExactFill (Ring.init ⟨fun _ => 0, 0, 0, 0⟩)
      [.put (fun k => BitVec.ofNat 8 (k + 65)) 3, .get (fun _ => 0) 2] r ∧
        r.returned = [65, 66] := exists_run_of_exec (by decide)
  exact (ring_fifo_iff_no_exact_fill _ (hr.mono fun _ _ _ => trivial)).mpr hr

/-- A put of 2048 bytes into the empty ring is accepted whole, and the ring reports itself empty
afterwards. -/
theorem ring_not_fifo_exact_fill :
    ∃ r, Run ringStep (fun _ _ => True) (Ring.init ⟨fun _ => 0, 0, 0, 0⟩)
        [.put (fun _ => 7) 2048] r ∧
      r.accepted.length = 2048 ∧ dataleftSwBuffer r.buff = 0 ∧ ¬ Fifo r := by
  obtain ⟨r, hs⟩ : ∃ r, ringStep (Ring.init ⟨fun _ => 0, 0, 0, 0⟩) (.put (fun _ => 7) 2048) =
      .ok r := ⟨_, rfl⟩
  have hnot : ¬ Fifo r := not_fifo_of_exact_fill (ringInv_init _) rfl hs
  obtain ⟨t, ht, rfl⟩ := ringStep_put hs
  cases ht
  refine ⟨_, .cons trivial hs (.nil _), ?_, rfl, hnot⟩
  dsimp only
  rw [List.length_append, length_slice]
  rfl

end TrustedGateway
