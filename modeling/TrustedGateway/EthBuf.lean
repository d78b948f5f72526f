import Mathlib.Data.List.Nodup
import Mathlib.Logic.Function.Basic
import TrustedGateway.Lib.Memory
import TrustedGateway.Machine

/-!
# Packet buffers and their pool

A packet buffer is named by a `BufId`, which stands for its address.  The pool keeps
the header of every buffer together with its two lists; the bytes of the buffers are
the secure memory, one block of addresses per buffer.  An offset at or past `bufCap`
of a block stands for what lies behind the buffer in memory.

## Main definitions

* `EthBuf`, `EthPool` — `bstgw_ethbuf_t` and `struct ethbuf_pool`.
* `EthPool.bufAlloc`, `EthPool.bufFree` — hand a buffer out and take it back.
* `ethbufDataPtr`, `ethbufLinearize` — the accessors the virtual NIC uses.
-/

namespace TrustedGateway

open FlatMemory

/-- The address of a packet buffer. -/
abbrev BufId := ℕ

/-- The bytes of the packet buffers. -/
abbrev SecMem := BufId → ℕ → Byte

/-- `bstgw_ethbuf_t`, without its bytes. -/
structure EthBuf where
  next : Option BufId
  packetType : Word
  l2Len : Half
  l3Len : Half
  dataLen : Word
  dataOff : Word
  bufCap : Word
  privFlags : Word
  deriving DecidableEq, Repr

def bstgwDefaultBufSize : Word := 2048
def rtePtypeL2Mask : Word := 0x0000000f

/-- `struct ethbuf_pool`.  No buffer is linked twice; `released` lists the buffers whose
memory went back to the heap with `free`. -/
structure EthPool where
  eb : BufId → EthBuf
  freeList : List BufId
  inuseList : List BufId
  capacity : ℕ
  released : List BufId
  nodup : (freeList ++ inuseList).Nodup

namespace EthPool

/-- Overwrite the header of one buffer. -/
def setEb (p : EthPool) (b : BufId) (e : EthBuf) : EthPool :=
  { p with eb := Function.update p.eb b e }

@[simp] theorem eb_setEb_self (p : EthPool) (b : BufId) (e : EthBuf) :
    (p.setEb b e).eb b = e := by simp [setEb]

@[simp] theorem eb_setEb_of_ne (p : EthPool) {b c : BufId} (h : c ≠ b) (e : EthBuf) :
    (p.setEb b e).eb c = p.eb c := by simp [setEb, h]

@[simp] theorem inuseList_setEb (p : EthPool) (b : BufId) (e : EthBuf) :
    (p.setEb b e).inuseList = p.inuseList := rfl

/-- `bstgw_ethpool_buf_reset`. -/
def bufReset (e : EthBuf) : EthBuf :=
  { e with l2Len := 0, l3Len := 0, dataLen := 0, dataOff := 0, privFlags := 0 }

private theorem nodup_alloc {b : BufId} {rest inuse : List BufId}
    (h : ((b :: rest) ++ inuse).Nodup) : (rest ++ b :: inuse).Nodup :=
  (List.perm_middle.nodup_iff).mpr (by simpa using h)

private theorem nodup_free {free inuse : List BufId} (b : BufId)
    (h : (free ++ inuse).Nodup) : ((b :: free.erase b) ++ inuse.erase b).Nodup := by
  obtain ⟨hf, hi, hd⟩ := List.nodup_append.mp h
  simp only [List.cons_append, List.nodup_cons, List.mem_append, not_or]
  refine ⟨⟨hf.not_mem_erase, hi.not_mem_erase⟩, ?_⟩
  refine List.nodup_append.mpr ⟨hf.erase b, hi.erase b, ?_⟩
  intro x hx y hy
  exact hd x (List.mem_of_mem_erase hx) y (List.mem_of_mem_erase hy)

/-- `bstgw_ethpool_buf_alloc`. -/
def bufAlloc (p : EthPool) : Except Abort (BufId × EthPool) :=
  match h : p.freeList with
  | [] => .error (.panic "poll_buf_alloc OOM")
  | b :: rest =>
    .ok (b, { p with
      freeList := rest
      inuseList := b :: p.inuseList
      nodup := nodup_alloc (h ▸ p.nodup) })

/-- `bstgw_ethpool_buf_free`: `LIST_REMOVE` unlinks the buffer from whichever list holds
it. -/
def bufFree (p : EthPool) (b : BufId) : EthPool :=
  { p with
    eb := Function.update p.eb b (bufReset (p.eb b))
    freeList := b :: p.freeList.erase b
    inuseList := p.inuseList.erase b
    nodup := nodup_free b p.nodup }

/-- Free the buffers of an array from the front. -/
def bufFreeAll (p : EthPool) (bs : List BufId) : EthPool := bs.foldl bufFree p

theorem bufAlloc_eq_ok {p p' : EthPool} {b : BufId} (h : p.bufAlloc = .ok (b, p')) :
    p.freeList = b :: p'.freeList ∧ p'.eb = p.eb ∧ p'.inuseList = b :: p.inuseList := by
  unfold bufAlloc at h
  split at h
  · cases h
  · rename_i c rest hl
    cases h
    exact ⟨hl, rfl, rfl⟩

@[simp] theorem eb_bufFree_self (p : EthPool) (b : BufId) :
    (p.bufFree b).eb b = bufReset (p.eb b) := by simp [bufFree]

@[simp] theorem eb_bufFree_of_ne (p : EthPool) {b c : BufId} (h : c ≠ b) :
    (p.bufFree b).eb c = p.eb c := by simp [bufFree, h]

end EthPool

/-! ## Accessors -/

/-- `bstgw_ethbuf_data_ptr` as an offset into the buffer's block; `none` is the null
pointer. -/
def ethbufDataPtr (e : EthBuf) (offset : Word) : Option ℕ :=
  if e.dataLen ≤ offset then none else some (e.dataOff.toNat + offset.toNat)

/-- The buffers of a chain from `b` on, or `none` when the walk does not end. -/
def ethbufChain (eb : BufId → EthBuf) : ℕ → BufId → Option (List BufId)
  | 0, _ => none
  | fuel + 1, b =>
    match (eb b).next with
    | none => some [b]
    | some n => (ethbufChain eb fuel n).map (b :: ·)

/-- The copy loop of `bstgw_ethbuf_linearize`: append the data of each buffer at offset
`b` of the block `dst`.  `b = none` is a pointer computed from `NULL`. -/
def linearizeCopy (eb : BufId → EthBuf) (dst : BufId) :
    List BufId → Option ℕ → SecMem → Except Abort SecMem
  | [], _, sec => .ok sec
  | c :: cs, b, sec =>
    let n := (eb c).dataLen.toNat
    match b, ethbufDataPtr (eb c) 0 with
    | some b, some src =>
      linearizeCopy eb dst cs (some (b + n))
        (Function.update sec dst (copy (sec dst) b (sec c) src n))
    | none, some _ => .error .wildPointer
    | b, none => linearizeCopy eb dst cs b sec

/-- The summed data length of the chained buffers, a `size_t`. -/
def restLen (eb : BufId → EthBuf) (rest : List BufId) : Word :=
  rest.foldl (fun (acc : Word) c => acc + (eb c).dataLen) 0

/-- Where the data of the chained buffers goes: one byte behind the pointer to the last data
byte. -/
def linearizeStart (e : EthBuf) : Option ℕ := (ethbufDataPtr e (e.dataLen - 1)).map (· + 1)

/-- The pool after `b` took the data of the chained buffers over.  These are given to `free`,
not to the pool. -/
def EthPool.absorb (p : EthPool) (b : BufId) (rest : List BufId) : EthPool :=
  { p.setEb b { p.eb b with dataLen := (p.eb b).dataLen + restLen p.eb rest, next := none } with
    released := p.released ++ rest }

/-- `bstgw_ethbuf_linearize`. -/
def ethbufLinearize (p : EthPool) (sec : SecMem) (b : BufId) :
    Except Abort (ℤ × EthPool × SecMem) :=
  match (p.eb b).next with
  | none => .ok (0, p, sec)
  | some n =>
    match ethbufChain p.eb (p.inuseList.length + 1) n with
    | none => .error .hang
    | some rest =>
      let e := p.eb b
      let tailSpace := e.bufCap - (e.dataOff + e.dataLen)
      if tailSpace < restLen p.eb rest then .ok (-1, p, sec)
      else
        match linearizeCopy p.eb b rest (linearizeStart e) sec with
        | .error a => .error a
        | .ok sec' => .ok (0, p.absorb b rest, sec')

/-- **Linearizing**, by what is found: no chain, a chain without an end, a chain that does not
fit, and a chain whose data is copied. -/
theorem ethbufLinearize_cases (p : EthPool) (b : BufId) :
    (∃ r : Except Abort ℤ, ∀ sec, ethbufLinearize p sec b = r.map fun r => (r, p, sec)) ∨
      ∃ n fuel rest, (p.eb b).next = some n ∧ ethbufChain p.eb fuel n = some rest ∧
        ∀ sec, ethbufLinearize p sec b =
          (linearizeCopy p.eb b rest (linearizeStart (p.eb b)) sec).map
            fun sec' => (0, p.absorb b rest, sec') := by
  cases hn : (p.eb b).next with
  | none => exact .inl ⟨.ok 0, fun sec => by simp only [ethbufLinearize, hn]; rfl⟩
  | some n =>
    cases hc : ethbufChain p.eb (p.inuseList.length + 1) n with
    | none => exact .inl ⟨.error .hang, fun sec => by simp only [ethbufLinearize, hn, hc]; rfl⟩
    | some rest =>
      by_cases ht : (p.eb b).bufCap - ((p.eb b).dataOff + (p.eb b).dataLen) < restLen p.eb rest
      · exact .inl ⟨.ok (-1), fun sec => by
          simp only [ethbufLinearize, hn, hc, if_pos ht]; rfl⟩
      · refine .inr ⟨n, _, rest, rfl, hc, fun sec => ?_⟩
        simp only [ethbufLinearize, hn, hc, if_neg ht]
        cases linearizeCopy p.eb b rest (linearizeStart (p.eb b)) sec <;> rfl

end TrustedGateway
