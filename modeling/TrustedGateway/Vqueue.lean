import Mathlib.Logic.Function.Basic
import TrustedGateway.Iovec

/-!
# Virtqueues

The device side of a split virtqueue (`vqueue.c`).  A `Vqueue` keeps the pointers and
counters of the secure world; `RingMem` is what the normal world keeps behind those
pointers, seen through the C structures.  The device reads it one field at a time, so
the descriptor walk is written against `RingReads`, an arbitrary source of answers;
`stillReads` answers from ring memory that stays as it is during the call.

The address translation is not part of the repository and is a parameter, `CoreMmu`.

## Main definitions

* `Vqueue`, `RingMem`, `VqueueBuf` — the state of a queue, the shared tables, and the
  buffer description a descriptor chain is read into.
* `vqueueVringSetup`, `vqueueVringTeardown` — ring pointers come and go.
* `vqueueGetAvailBuf`, `vqueueAddBuf` — take a chain, give a head back.
* `vqueueMapIovs`, `vqueueUnmapIovs` — translate the addresses of a chain.
-/

namespace TrustedGateway

/-! ## The shared tables -/

structure VringDesc where
  addr : BitVec 64
  len : Word
  flags : Half
  next : Half
  deriving DecidableEq, Repr

structure VringAvail where
  flags : Half
  idx : Half
  ring : ℕ → Half

structure VringUsedElem where
  id : Word
  len : Word
  deriving DecidableEq, Repr

structure VringUsed where
  flags : Half
  idx : Half
  ring : ℕ → VringUsedElem

/-- The memory behind the three ring pointers, which the normal world owns. -/
structure RingMem where
  desc : ℕ → VringDesc
  avail : VringAvail
  used : VringUsed

/-- Ring memory the normal world has not written yet. -/
def RingMem.zero : RingMem where
  desc _ := ⟨0, 0, 0, 0⟩
  avail := ⟨0, 0, fun _ => 0⟩
  used := ⟨0, 0, fun _ => ⟨0, 0⟩⟩

def vringDescFNext : Half := 1
def vringDescFWrite : Half := 2
def vringUsedFNoNotify : Half := 1
def vringAvailFNoInterrupt : Half := 1

/-! ## The queue -/

/-- `struct vring`: sizes, and the ring pointers with `0` for `NULL`. -/
structure Vring where
  num : ℕ
  numDefault : ℕ
  desc : Word
  avail : Word
  used : Word
  deriving DecidableEq, Repr

/-- `struct vqueue`.  `taken` and `returned` are specification-only: the heads taken off
the avail ring and the entries put on the used ring so far, oldest first. -/
structure Vqueue where
  vring : Vring
  vringAddr : Word
  vringSz : Word
  vringAlign : Word
  lastAvailIdx : Half
  shared : RingMem
  taken : List Half
  returned : List VringUsedElem

/-- A descriptor of a chain: its physical address, and the iovec entry that is mapped
for it. -/
structure Piece where
  phys : Word
  iov : Iovec
  deriving DecidableEq, Repr

/-- `struct vqueue_iovs`; `used` is the number of pieces. -/
structure VqueueIovs where
  cnt : ℕ
  len : Word
  pieces : List Piece
  deriving DecidableEq, Repr

namespace VqueueIovs

def used (l : VqueueIovs) : ℕ := l.pieces.length

def iovs (l : VqueueIovs) : List Iovec := l.pieces.map (·.iov)

end VqueueIovs

/-- `struct vqueue_buf`. -/
structure VqueueBuf where
  head : Half
  inIovs : VqueueIovs
  outIovs : VqueueIovs
  deriving DecidableEq, Repr

/-- A zeroed buffer description with room for `cntIn` readable and `cntOut` writable
descriptors. -/
def VqueueBuf.empty (cntIn cntOut : ℕ) : VqueueBuf :=
  ⟨0, ⟨cntIn, 0, []⟩, ⟨cntOut, 0, []⟩⟩

/-! ## Set-up and tear-down -/

/-- The core MMU as far as `MEM_AREA_RAM_NSEC` goes: the translation under the current
map, and the attempt to map a region. -/
structure CoreMmu (M : Type) where
  getVa : M → Word → Word
  addMapping : M → Word → ℕ → Bool × M

/-- A flat map of the normal world's memory of the board, to which nothing can be
added. -/
def flatMmu : CoreMmu Unit where
  getVa _ pa := if 0x10000000 ≤ pa ∧ pa < 0x4e000000 then pa else 0
  addMapping m _ _ := (false, m)

variable {M : Type}

def smallPageSize : ℕ := 4096

/-- `vring_size`. -/
def vringSize (num : ℕ) (align : Word) : Word :=
  let n := BitVec.ofNat 32 num
  ((16 * n + 2 * (3 + n) + align - 1) &&& ~~~(align - 1)) + 2 * 3 + 8 * n

/-- Where the avail ring of a ring of `num` entries at `vaddr` starts. -/
def vringAvailAt (vaddr : Word) (num : ℕ) : Word := vaddr + BitVec.ofNat 32 (num * 16)

/-- Where the used ring starts: behind `avail->ring[num]` and one more half word, rounded
up to the alignment. -/
def vringUsedAt (vaddr : Word) (num : ℕ) (align : Word) : Word :=
  (vringAvailAt vaddr num + 4 + BitVec.ofNat 32 (2 * num) + 2 + align - 1) &&& ~~~(align - 1)

/-- `check_ring_layout`. -/
def checkRingLayout (mmu : CoreMmu M) (m : M) (pa refVa : Word) : ℤ :=
  let va := mmu.getVa m pa
  if va = 0 then -1 else if va = refVa then 0 else -1

/-- The address of the descriptor table, mapping it if it is not mapped yet. -/
def vqueueMapVring (mmu : CoreMmu M) (m : M) (vringSz descPa : Word) : Word × M :=
  let vaddr := mmu.getVa m descPa
  if vaddr = 0 then
    let sz := (vringSz.toNat + smallPageSize - 1) / smallPageSize * smallPageSize
    let (ok, m) := mmu.addMapping m descPa sz
    if ok then (mmu.getVa m descPa, m) else (0, m)
  else (vaddr, m)

/-- `vqueue_vring_setup`.  A table that cannot be mapped leaves the old pointers in
place; a layout mismatch clears them. -/
def vqueueVringSetup (mmu : CoreMmu M) (m : M) (vq : Vqueue) (descPa availPa usedPa : Word) :
    ℤ × Vqueue × M :=
  let vq := { vq with vringSz := vringSize vq.vring.num vq.vringAlign }
  let (vaddr, m) := vqueueMapVring mmu m vq.vringSz descPa
  if vaddr = 0 then (-1, vq, m)
  else
    let avail := vringAvailAt vaddr vq.vring.num
    let used := vringUsedAt vaddr vq.vring.num vq.vringAlign
    if checkRingLayout mmu m availPa avail ≠ 0 ∨ checkRingLayout mmu m usedPa used ≠ 0 then
      (-1, { vq with
        vringAddr := 0
        vring := { vq.vring with desc := 0, avail := 0, used := 0 } }, m)
    else
      (0, { vq with
        vringAddr := vaddr
        vring := { vq.vring with desc := vaddr, avail := avail, used := used } }, m)

section Setup

variable (mmu : CoreMmu M) (m : M) (vq : Vqueue) (descPa availPa usedPa : Word)

/-- Where `vqueueVringSetup` finds the descriptor table. -/
def setupVaddr : Word :=
  (vqueueMapVring mmu m (vringSize vq.vring.num vq.vringAlign) descPa).1

/-- The MMU after `vqueueVringSetup`. -/
def setupMmu : M :=
  (vqueueMapVring mmu m (vringSize vq.vring.num vq.vringAlign) descPa).2

/-- The layout check of `vqueueVringSetup` for a table at `vaddr`. -/
def RingLayoutOk (mmu : CoreMmu M) (m : M) (vaddr : Word) (num : ℕ) (align availPa usedPa : Word) :
    Prop :=
  checkRingLayout mmu m availPa (vringAvailAt vaddr num) = 0 ∧
    checkRingLayout mmu m usedPa (vringUsedAt vaddr num align) = 0

instance (mmu : CoreMmu M) (m : M) (vaddr : Word) (num : ℕ) (align availPa usedPa : Word) :
    Decidable (RingLayoutOk mmu m vaddr num align availPa usedPa) :=
  inferInstanceAs (Decidable (_ ∧ _))

@[simp] theorem mmu_vqueueVringSetup :
    (vqueueVringSetup mmu m vq descPa availPa usedPa).2.2 = setupMmu mmu m vq descPa := by
  simp only [vqueueVringSetup, setupMmu]
  split
  · rfl
  · split <;> rfl

variable {mmu m vq descPa availPa usedPa}

theorem vqueueVringSetup_of_unmapped (h : setupVaddr mmu m vq descPa = 0) :
    (vqueueVringSetup mmu m vq descPa availPa usedPa).2.1 =
      { vq with vringSz := vringSize vq.vring.num vq.vringAlign } := by
  simp only [setupVaddr] at h
  simp only [vqueueVringSetup, h, if_true]

theorem vqueueVringSetup_of_mismatch (h : setupVaddr mmu m vq descPa ≠ 0)
    (hl : ¬ RingLayoutOk mmu (setupMmu mmu m vq descPa) (setupVaddr mmu m vq descPa)
      vq.vring.num vq.vringAlign availPa usedPa) :
    (vqueueVringSetup mmu m vq descPa availPa usedPa).2.1 =
      { vq with
        vringSz := vringSize vq.vring.num vq.vringAlign
        vringAddr := 0
        vring := { vq.vring with desc := 0, avail := 0, used := 0 } } := by
  simp only [setupVaddr] at h
  simp only [RingLayoutOk, setupVaddr, setupMmu, not_and_or] at hl
  simp only [vqueueVringSetup, h, if_false, ne_eq, hl, if_true]

theorem vqueueVringSetup_of_ok (h : setupVaddr mmu m vq descPa ≠ 0)
    (hl : RingLayoutOk mmu (setupMmu mmu m vq descPa) (setupVaddr mmu m vq descPa)
      vq.vring.num vq.vringAlign availPa usedPa) :
    (vqueueVringSetup mmu m vq descPa availPa usedPa).2.1 =
      { vq with
        vringSz := vringSize vq.vring.num vq.vringAlign
        vringAddr := setupVaddr mmu m vq descPa
        vring := { vq.vring with
          desc := setupVaddr mmu m vq descPa
          avail := vringAvailAt (setupVaddr mmu m vq descPa) vq.vring.num
          used := vringUsedAt (setupVaddr mmu m vq descPa) vq.vring.num vq.vringAlign } } := by
  simp only [setupVaddr] at h
  simp only [RingLayoutOk, setupVaddr, setupMmu] at hl
  simp only [vqueueVringSetup, h, if_false, ne_eq, hl, not_true, or_self, setupVaddr]

end Setup

/-- `vqueue_vring_teardown`. -/
def vqueueVringTeardown (vq : Vqueue) : Vqueue :=
  let vq' := { vq with vringAddr := 0, vringSz := 0, lastAvailIdx := 0 }
  if vq.vringAddr = 0 then vq'
  else { vq' with vring := { vq.vring with desc := 0, avail := 0, used := 0 } }

/-! ## Flags and counters -/

/-- Dereference the avail ring pointer. -/
def Vqueue.derefAvail (vq : Vqueue) : Except Abort VringAvail :=
  if vq.vring.avail = 0 then .error .nullDeref else .ok vq.shared.avail

/-- Write `used->flags`. -/
def Vqueue.setUsedFlags (vq : Vqueue) (f : Half → Half) : Except Abort Vqueue :=
  if vq.vring.used = 0 then .error .nullDeref
  else .ok { vq with shared := { vq.shared with
    used := { vq.shared.used with flags := f vq.shared.used.flags } } }

/-- `vqueue_napi_signal_avail`. -/
def vqueueNapiSignalAvail (vq : Vqueue) : Except Abort Vqueue :=
  if vq.vringAddr = 0 then .ok vq else vq.setUsedFlags (· ||| vringUsedFNoNotify)

/-- `vqueue_num_of_avail_buf`. -/
def vqueueNumOfAvailBuf (vq : Vqueue) : Except Abort Half := do
  let avail ← vq.derefAvail
  return avail.idx - vq.lastAvailIdx

/-- `vqueue_num_of_avail_buf_and_notify`. -/
def vqueueNumOfAvailBufAndNotify (vq : Vqueue) : Except Abort (Half × Vqueue) := do
  let avail ← vq.derefAvail
  if avail.idx - vq.lastAvailIdx = 0 then
    let vq ← vq.setUsedFlags (· &&& ~~~vringUsedFNoNotify)
    let avail ← vq.derefAvail
    if vq.lastAvailIdx = avail.idx then return (0, vq)
    let vq' ← vq.setUsedFlags (· ||| vringUsedFNoNotify)
    return (avail.idx - vq.lastAvailIdx, vq')
  else
    let vq' ← vq.setUsedFlags (· ||| vringUsedFNoNotify)
    return (avail.idx - vq.lastAvailIdx, vq')

/-! ## Taking a chain off the avail ring -/

/-- Answers to the reads of the shared tables, one field at a time. -/
structure RingReads (ρ : Type) where
  availIdx : ρ → Half × ρ
  availRing : ℕ → ρ → Half × ρ
  descAddr : ℕ → ρ → BitVec 64 × ρ
  descLen : ℕ → ρ → Word × ρ
  descFlags : ℕ → ρ → Half × ρ
  descNext : ℕ → ρ → Half × ρ

/-- Ring memory that nobody changes meanwhile. -/
def stillReads : RingReads RingMem where
  availIdx r := (r.avail.idx, r)
  availRing k r := (r.avail.ring k, r)
  descAddr k r := ((r.desc k).addr, r)
  descLen k r := ((r.desc k).len, r)
  descFlags k r := ((r.desc k).flags, r)
  descNext k r := ((r.desc k).next, r)

/-- Record a descriptor.  `len` is read twice by the source: once for the entry and once
for the total. -/
def VqueueIovs.push (l : VqueueIovs) (len : Word) (phys : Word) (lenAgain : Word) :
    VqueueIovs :=
  { l with pieces := l.pieces ++ [⟨phys, ⟨0, len⟩⟩], len := l.len + lenAgain }

variable {ρ : Type}

/-- The `do … while` loop over a descriptor chain.  Each round records a descriptor or
ends the walk, so `fuel` rounds with `fuel` above the room in both lists are enough. -/
def descWalk (rd : RingReads ρ) (num : ℕ) : ℕ → Half → VqueueBuf → ρ →
    Except Abort (ℤ × VqueueBuf × ρ)
  | 0, _, _, _ => .error .hang
  | fuel + 1, nextIdx, buf, r =>
    if num ≤ nextIdx.toNat then .ok (errNotValid, buf, r)
    else
      let d := nextIdx.toNat
      let (flags, r) := rd.descFlags d r
      let write := flags &&& vringDescFWrite ≠ 0
      let l := if write then buf.outIovs else buf.inIovs
      if l.used < l.cnt then
        let (len, r) := rd.descLen d r
        let (addr, r) := rd.descAddr d r
        let (lenAgain, r) := rd.descLen d r
        let l := l.push len (addr.setWidth 32) lenAgain
        let buf := if write then { buf with outIovs := l } else { buf with inIovs := l }
        let (nextIdx, r) := rd.descNext d r
        let (flags, r) := rd.descFlags d r
        if flags &&& vringDescFNext ≠ 0 then descWalk rd num fuel nextIdx buf r
        else .ok (noError, buf, r)
      else .ok (errTooBig, buf, r)

/-- `_vqueue_get_avail_buf_locked`. -/
def vqueueGetAvailBufLocked (rd : RingReads ρ) (vq : Vqueue) (iovbuf : VqueueBuf) (r : ρ) :
    Except Abort (ℤ × VqueueBuf × Vqueue × ρ) :=
  if vq.vringAddr = 0 then .ok (errChannelClosed, iovbuf, vq, r)
  else if vq.vring.avail = 0 then .error .nullDeref
  else
    let (idx, r) := rd.availIdx r
    if vq.vring.num % 2 ^ 16 < (idx - vq.lastAvailIdx).toNat then
      .error (.panic "vq new avail idx out of range")
    else
      let (idx, r) := rd.availIdx r
      if vq.lastAvailIdx = idx then .ok (errNotEnoughBuffer, iovbuf, vq, r)
      else
        let (head, r) := rd.availRing (vq.lastAvailIdx.toNat % vq.vring.num) r
        let vq := { vq with
          lastAvailIdx := vq.lastAvailIdx + 1
          taken := vq.taken ++ [head] }
        if vq.vring.num ≤ head.toNat then .error (.panic "vq head out of range")
        else
          let buf : VqueueBuf := ⟨head, ⟨iovbuf.inIovs.cnt, 0, []⟩, ⟨iovbuf.outIovs.cnt, 0, []⟩⟩
          match descWalk rd vq.vring.num (iovbuf.inIovs.cnt + iovbuf.outIovs.cnt + 1)
              head buf r with
          | .error a => .error a
          | .ok (ret, buf, r) => .ok (ret, buf, vq, r)

/-- `vqueue_get_avail_buf` while the normal world leaves the rings alone. -/
def vqueueGetAvailBuf (vq : Vqueue) (iovbuf : VqueueBuf) :
    Except Abort (ℤ × VqueueBuf × Vqueue) :=
  match vqueueGetAvailBufLocked stillReads vq iovbuf vq.shared with
  | .error a => .error a
  | .ok (ret, buf, vq, _) => .ok (ret, buf, vq)

/-! ## Mapping a chain -/

/-- The loop of `vqueue_map_iovs` with its clean-up: bases up to the first address that
does not translate are cleared again, the ones behind it were never set. -/
def mapPieces (va : Word → Word) : List Piece → Bool × List Piece
  | [] => (true, [])
  | p :: ps =>
    if va p.phys = 0 then (false, { p with iov := { p.iov with base := 0 } } :: ps)
    else
      let (ok, ps') := mapPieces va ps
      (ok, { p with iov := { p.iov with base := if ok then va p.phys else 0 } } :: ps')

/-- `vqueue_map_iovs`.  On failure the source returns its uninitialised local, whose
value is `uninit`. -/
def vqueueMapIovs (va : Word → Word) (uninit : ℤ) (l : VqueueIovs) : ℤ × VqueueIovs :=
  let (ok, ps) := mapPieces va l.pieces
  (if ok then noError else uninit, { l with pieces := ps })

/-- `vqueue_unmap_iovs`. -/
def vqueueUnmapIovs (l : VqueueIovs) : VqueueIovs :=
  { l with pieces := l.pieces.map fun p => { p with iov := { p.iov with base := 0 } } }

/-! ## Giving a head back on the used ring -/

/-- `_vqueue_add_buf_locked`. -/
def vqueueAddBuf (vq : Vqueue) (buf : VqueueBuf) (len : Word) : Except Abort (ℤ × Vqueue) :=
  if vq.vringAddr = 0 then .ok (errChannelClosed, vq)
  else if vq.vring.num ≤ buf.head.toNat then .ok (errNotValid, vq)
  else if vq.vring.used = 0 then .error .nullDeref
  else
    let used := vq.shared.used
    let elem : VringUsedElem := ⟨buf.head.setWidth 32, len⟩
    .ok (noError, { vq with
      shared := { vq.shared with used := { used with
        ring := Function.update used.ring (used.idx.toNat % vq.vring.num) elem
        idx := used.idx + 1 } }
      returned := vq.returned ++ [elem] })

end TrustedGateway
