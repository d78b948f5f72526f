import Mathlib.Order.Interval.Finset.Nat
import TrustedGateway.EthBuf.Geometry
import TrustedGateway.Lib.Intrusive

/-!
# The lists of the buffer pool

`bstgw_eth_buf.c` keeps the free and the used buffers on two intrusive lists.  A buffer that is
freed or destroyed is taken off the list it is on, whichever that is, and a buffer is cleared when
it is given back and not when it is handed out.

`PoolMem` is the pool as it lies in memory, with the pointers of the lists.  It represents an
`EthPool`, whose lists are lists: every function of the source does to the pointers what the
function of the same name does to the lists.

## Main definitions

* `PoolMem`, `PoolMem.increase`, `PoolMem.bufAlloc`, `PoolMem.bufFree`, `PoolMem.bufDestroy`.
* `Represents` — the pointers are those of the lists of a pool.
* `PoolRun`, `poolStep` — a pool with the buffers that are live and those that are handed out.
-/

namespace TrustedGateway

open IntrusiveList StepSystem

/-- The lists of `struct ethbuf_pool`. -/
inductive PoolList
  | free
  | inuse
  deriving DecidableEq, Repr

/-- `struct ethbuf_pool` in memory, with the links and the headers of its buffers. -/
structure PoolMem where
  links : Links PoolList BufId
  eb : BufId → EthBuf
  capacity : Word

/-- What the heap answers when a buffer is made: `malloc` for the buffer and `calloc` for its
private data, 0 being `NULL`. -/
structure HeapAnswer where
  eb : Word
  priv : Word
  deriving DecidableEq, Repr

def bstgwCacheLine : Word := 64

/-- `offsetof(bstgw_ethbuf_t, raw_buf)`. -/
def rawBufOff : Word := 56

/-- `bstgw_ethbuf_alloc_aligned` for a private area that is not empty. -/
def ethbufAllocAligned (capacity alignReq : Word) (ans : HeapAnswer) :
    Except Abort (Option (BufId × EthBuf)) :=
  if ans.eb = 0 then .ok none
  else
    let aligned := alignReq - 1
    let rawBuf := ans.eb + rawBufOff
    let off := rawBuf &&& aligned
    let buf := if off ≠ 0 then rawBuf + (aligned + 1 - off) else rawBuf
    if alignReq ≠ 0 ∧ buf &&& aligned ≠ 0 then .error (.panic "Failed to properly align ethbuf")
    else if ans.priv = 0 then .ok none
    else .ok (some (ans.eb.toNat, ⟨none, 0, 0, 0, 0, 0, capacity, 0⟩))

namespace PoolMem

/-- `bstgw_ethpool_init`. -/
def init (m : PoolMem) : PoolMem :=
  { m with
    links := { m.links with
      ptr := fun
        | .first _ => none
        | .next b => m.links.ptr (.next b) }
    capacity := 0 }

/-- One turn of the loop of `bstgw_ethpool_increase`. -/
def addBuffer (m : PoolMem) (ans : HeapAnswer) : Except Abort PoolMem :=
  match ethbufAllocAligned bstgwDefaultBufSize bstgwCacheLine ans with
  | .error e => .error e
  | .ok none => .error (.panic "OOM @ ethpool_increase()")
  | .ok (some (b, e)) =>
    .ok { m with links := m.links.insertHead .free b, eb := Function.update m.eb b e }

/-- The loop of `bstgw_ethpool_increase`. -/
def addBuffers (m : PoolMem) (heap : ℕ → HeapAnswer) : ℕ → Except Abort PoolMem
  | 0 => .ok m
  | i + 1 => (m.addBuffers heap i).bind fun m => m.addBuffer (heap i)

/-- `bstgw_ethpool_increase`. -/
def increase (m : PoolMem) (bufferNumber : Word) (heap : ℕ → HeapAnswer) :
    Except Abort PoolMem :=
  (m.addBuffers heap bufferNumber.toNat).map fun m =>
    { m with capacity := m.capacity + bufferNumber }

/-- `bstgw_ethpool_buf_alloc`. -/
def bufAlloc (m : PoolMem) : Except Abort (BufId × PoolMem) :=
  match m.links.ptr (.first .free) with
  | none => .error (.panic "poll_buf_alloc OOM")
  | some b => .ok (b, { m with links := (m.links.remove b).insertHead .inuse b })

/-- `bstgw_ethpool_buf_free`. -/
def bufFree (m : PoolMem) (b : BufId) : PoolMem :=
  { m with
    eb := Function.update m.eb b (EthPool.bufReset (m.eb b))
    links := (m.links.remove b).insertHead .free b }

/-- `bstgw_ethpool_buf_destroy`, up to the call of `bstgw_ethbuf_free`. -/
def bufDestroy (m : PoolMem) (b : BufId) : PoolMem :=
  { m with links := m.links.remove b, capacity := m.capacity - 1 }

end PoolMem

/-! ## Pointers and lists -/

namespace EthPool

/-- The lists of a pool by their name. -/
def list (p : EthPool) : PoolList → List BufId
  | .free => p.freeList
  | .inuse => p.inuseList

/-- Links that hold the two lists hold the pool. -/
theorem holds_list {p : EthPool} {l : Links PoolList BufId} {f : PoolList → List BufId}
    (H : Holds l f) (hfree : f .free = p.freeList) (hinuse : f .inuse = p.inuseList) :
    Holds l p.list := by
  have hf : f = p.list := by
    funext k
    cases k with
    | free => exact hfree
    | inuse => exact hinuse
  rwa [← hf]

theorem exists_list_of_mem {p : EthPool} {b : BufId} (h : b ∈ p.bufs) : ∃ k, b ∈ p.list k :=
  (List.mem_append.mp h).elim (fun h => ⟨.free, h⟩) fun h => ⟨.inuse, h⟩

theorem bufs_erase (p : EthPool) (b : BufId) :
    p.freeList.erase b ++ p.inuseList.erase b = p.bufs.erase b := by
  rw [bufs, List.erase_append]
  split
  · rename_i hb
    rw [List.erase_of_not_mem (List.disjoint_of_nodup_append p.nodup hb)]
  · rename_i hb
    rw [List.erase_of_not_mem hb]

/-- A new buffer on the list of the free ones. -/
def bufAdd (p : EthPool) (b : BufId) (e : EthBuf) (h : b ∉ p.bufs) : EthPool :=
  { p with
    eb := Function.update p.eb b e
    freeList := b :: p.freeList
    nodup := List.nodup_cons.mpr ⟨h, p.nodup⟩ }

/-- A buffer that goes back to the heap. -/
def bufDestroy (p : EthPool) (b : BufId) : EthPool :=
  { p with
    freeList := p.freeList.erase b
    inuseList := p.inuseList.erase b
    capacity := p.capacity - 1
    nodup := p.bufs_erase b ▸ p.nodup.erase b }

end EthPool

/-- The memory holds the pool, with its size counted modulo 2^32. -/
structure Represents (m : PoolMem) (p : EthPool) : Prop where
  lists : Holds m.links p.list
  eb : m.eb = p.eb
  capacity : m.capacity = BitVec.ofNat 32 p.capacity

namespace Represents

variable {m : PoolMem} {p : EthPool} {b : BufId}

theorem init (m : PoolMem) : Represents m.init ⟨m.eb, [], [], 0, [], List.nodup_nil⟩ := by
  refine ⟨⟨?_, ?_, ?_⟩, rfl, rfl⟩
  · intro k
    cases k <;> rfl
  · intro k
    cases k <;> exact List.nodup_nil
  · intro k k' b hb
    cases k <;> cases hb

/-- A buffer is taken off its list and put at the head of a list. -/
theorem move (h : Represents m p) (hb : b ∈ p.bufs) (k : PoolList) :
    Holds ((m.links.remove b).insertHead k b)
      (Function.update (fun j => (p.list j).erase b) k (b :: (p.list k).erase b)) := by
  obtain ⟨j, hj⟩ := EthPool.exists_list_of_mem hb
  exact h.lists.move hj k

/-- Handing out a buffer does to the pointers what it does to the lists. -/
theorem bufAlloc (h : Represents m p) :
    SameEnd (fun x y => x.1 = y.1 ∧ Represents x.2 y.2) m.bufAlloc p.bufAlloc := by
  have hptr : m.links.ptr (.first .free) = p.freeList.head? := (h.lists.isList .free).ptr_eq_head
  unfold EthPool.bufAlloc
  split
  · rename_i hfree
    simp [PoolMem.bufAlloc, hptr, hfree, SameEnd]
  · rename_i b rest hfree
    rw [hfree] at hptr
    rw [PoolMem.bufAlloc, hptr]
    have hb : b ∈ p.bufs := by simp [EthPool.bufs, hfree]
    have hnot : b ∉ p.inuseList := List.disjoint_of_nodup_append p.nodup (by simp [hfree])
    refine ⟨rfl, EthPool.holds_list (h.move hb .inuse) ?_ ?_, h.eb, h.capacity⟩
    · simp [EthPool.list, hfree]
    · simp [EthPool.list, List.erase_of_not_mem hnot]

theorem bufFree (h : Represents m p) (hb : b ∈ p.bufs) :
    Represents (m.bufFree b) (p.bufFree b) := by
  refine ⟨EthPool.holds_list (h.move hb .free) ?_ ?_, ?_, h.capacity⟩
  · exact Function.update_self ..
  · exact Function.update_of_ne (by decide) ..
  · simp [PoolMem.bufFree, EthPool.bufFree, h.eb]

theorem bufDestroy (h : Represents m p) (hb : b ∈ p.bufs) (hc : 0 < p.capacity) :
    Represents (m.bufDestroy b) (p.bufDestroy b) := by
  obtain ⟨j, hj⟩ := EthPool.exists_list_of_mem hb
  refine ⟨EthPool.holds_list (h.lists.remove hj) rfl rfl, h.eb, ?_⟩
  obtain ⟨c, hc'⟩ := Nat.exists_eq_add_of_lt hc
  simp only [PoolMem.bufDestroy, EthPool.bufDestroy, h.capacity, hc']
  bv_omega

theorem bufAdd (h : Represents m p) (hb : b ∉ p.bufs) (e : EthBuf) :
    Represents { m with links := m.links.insertHead .free b, eb := Function.update m.eb b e }
      (p.bufAdd b e hb) := by
  have hnot : ∀ k, b ∉ p.list k := by
    intro k hk
    apply hb
    cases k with
    | free => exact List.mem_append_left _ hk
    | inuse => exact List.mem_append_right _ hk
  refine ⟨EthPool.holds_list (h.lists.insertHead .free hnot) ?_ ?_, ?_, h.capacity⟩
  · exact Function.update_self ..
  · exact Function.update_of_ne (by decide) ..
  · simp [EthPool.bufAdd, h.eb]

end Represents

/-! ## Runs -/

/-- A pool together with the buffers that `malloc` gave and `free` has not got back, and with those
that were handed out and not given back. -/
structure PoolRun where
  mem : PoolMem
  live : List BufId
  held : List BufId

/-- A call, or a user who sets the header of a buffer. -/
inductive PoolOp
  | increase (bufferNumber : Word) (heap : ℕ → HeapAnswer)
  | alloc
  | free (b : BufId)
  | destroy (b : BufId)
  | modify (b : BufId) (e : EthBuf)

/-- The buffers of the first `i` answers. -/
def mallocs (heap : ℕ → HeapAnswer) : ℕ → List BufId
  | 0 => []
  | i + 1 => (heap i).eb.toNat :: mallocs heap i

/-- One call.  `bstgw_ethbuf_free` gives the buffers of the chain back to the heap. -/
def poolStep (s : PoolRun) : PoolOp → Except Abort PoolRun
  | .increase n heap =>
    (s.mem.increase n heap).map fun m =>
      { s with mem := m, live := mallocs heap n.toNat ++ s.live }
  | .alloc => s.mem.bufAlloc.map fun r => { s with mem := r.2, held := r.1 :: s.held }
  | .free b => .ok { s with mem := s.mem.bufFree b, held := s.held.erase b }
  | .destroy b =>
    match ethbufChain s.mem.eb (s.live.length + 1) b with
    | none => .error .hang
    | some bs => .ok ⟨s.mem.bufDestroy b, s.live.diff bs, s.held.diff bs⟩
  | .modify b e => .ok { s with mem := { s.mem with eb := Function.update s.mem.eb b e } }

/-- `malloc` does not return a buffer that is live.  A buffer that is freed or destroyed is live
and not chained, and only a buffer that is handed out is modified. -/
def PoolAllows (s : PoolRun) : PoolOp → Prop
  | .increase n heap => ∀ i < n.toNat, (heap i).eb.toNat ∉ mallocs heap i ++ s.live
  | .alloc => True
  | .free b | .destroy b => b ∈ s.live ∧ (s.mem.eb b).next = none
  | .modify b _ => b ∈ s.held

instance (s : PoolRun) (op : PoolOp) : Decidable (PoolAllows s op) := by
  cases op <;> dsimp only [PoolAllows] <;> infer_instance

/-- The pool at boot. -/
def PoolRun.init (m : PoolMem) : PoolRun := ⟨m.init, [], []⟩

/-- Not chained, and without a trace of an earlier user in what the pool resets. -/
structure EthBuf.Clean (e : EthBuf) : Prop where
  next : e.next = none
  dataLen : e.dataLen = 0
  dataOff : e.dataOff = 0
  l2Len : e.l2Len = 0
  l3Len : e.l3Len = 0
  privFlags : e.privFlags = 0

/-- The invariant of a run: the memory holds a pool of the live buffers, those in use are the ones
handed out, and the free ones are clean.  `k` buffers are not counted in the capacity yet. -/
structure PoolInv (s : PoolRun) (p : EthPool) (k : ℕ) : Prop where
  repr : Represents s.mem p
  live : p.bufs.Perm s.live
  held : p.inuseList = s.held
  capacity : p.capacity + k = s.live.length
  addr : ∀ b ∈ s.live, 0 < b ∧ b < 2 ^ 32
  clean : ∀ b ∈ p.freeList, (p.eb b).Clean

theorem poolInv_init (m : PoolMem) :
    PoolInv (PoolRun.init m) ⟨m.eb, [], [], 0, [], List.nodup_nil⟩ 0 :=
  ⟨.init m, .nil, rfl, rfl, by simp [PoolRun.init], by simp⟩

/-- The padding in front of the data leads to a multiple of the cache line. -/
theorem align_check (x : Word) :
    (if x &&& 63 ≠ 0 then x + (63 + 1 - (x &&& 63)) else x) &&& 63 = 0 := by
  have hand : ∀ y : Word, (y &&& 63).toNat = y.toNat % 64 := fun y =>
    Nat.and_two_pow_sub_one_eq_mod y.toNat 6
  apply BitVec.eq_of_toNat_eq
  have hx := hand x
  rw [hand]
  split <;> bv_omega

/-- A buffer that is made is at an address other than 0, and clean; the check of its alignment
succeeds. -/
theorem addBuffer_eq_ok {m m' : PoolMem} {ans : HeapAnswer} (h : m.addBuffer ans = .ok m') :
    0 < ans.eb.toNat ∧ ∃ e : EthBuf, e.Clean ∧ m' = { m with
      links := m.links.insertHead .free ans.eb.toNat
      eb := Function.update m.eb ans.eb.toNat e } := by
  unfold PoolMem.addBuffer ethbufAllocAligned at h
  by_cases heb : ans.eb = 0
  · rw [if_pos heb] at h
    cases h
  · rw [if_neg heb] at h
    dsimp only at h
    rw [if_neg fun hcon => hcon.2 (align_check (ans.eb + rawBufOff))] at h
    by_cases hpriv : ans.priv = 0
    · rw [if_pos hpriv] at h
      cases h
    · rw [if_neg hpriv] at h
      cases h
      exact ⟨by bv_omega, _, ⟨rfl, rfl, rfl, rfl, rfl, rfl⟩, rfl⟩

namespace PoolInv

variable {s s' : PoolRun} {p : EthPool} {k : ℕ} {b : BufId} {m : PoolMem}

theorem addBuffer (h : PoolInv s p k) {ans : HeapAnswer} (hs : s.mem.addBuffer ans = .ok m)
    (hnew : ans.eb.toNat ∉ s.live) :
    ∃ p', PoolInv ⟨m, ans.eb.toNat :: s.live, s.held⟩ p' (k + 1) := by
  obtain ⟨hpos, e, he, rfl⟩ := addBuffer_eq_ok hs
  have hb : ans.eb.toNat ∉ p.bufs := fun hb => hnew (h.live.mem_iff.mp hb)
  refine ⟨p.bufAdd _ e hb, h.repr.bufAdd hb e, h.live.cons _, h.held, ?_, ?_, ?_⟩
  · have := h.capacity
    simp only [EthPool.bufAdd, List.length_cons]
    omega
  · intro b hmem
    rcases List.mem_cons.mp hmem with rfl | hmem
    · exact ⟨hpos, ans.eb.isLt⟩
    · exact h.addr b hmem
  · intro b hmem
    rcases List.mem_cons.mp hmem with rfl | hmem
    · simpa [EthPool.bufAdd] using he
    · have hne : b ≠ ans.eb.toNat := by
        rintro rfl
        exact hb (List.mem_append_left _ hmem)
      simpa [EthPool.bufAdd, hne] using h.clean b hmem

/-- The loop of an increase. -/
theorem addBuffers (h : PoolInv s p 0) {heap : ℕ → HeapAnswer} {n : ℕ}
    (hnew : ∀ i < n, (heap i).eb.toNat ∉ mallocs heap i ++ s.live)
    (hs : s.mem.addBuffers heap n = .ok m) :
    ∃ p', PoolInv ⟨m, mallocs heap n ++ s.live, s.held⟩ p' n := by
  induction n generalizing m with
  | zero =>
    cases hs
    exact ⟨p, h⟩
  | succ n ih =>
    unfold PoolMem.addBuffers at hs
    cases hm : s.mem.addBuffers heap n with
    | error e =>
      rw [hm] at hs
      cases hs
    | ok m' =>
      rw [hm] at hs
      obtain ⟨p', hp'⟩ := ih (fun i hi => hnew i (by omega)) hm
      exact hp'.addBuffer hs (hnew n (Nat.lt_succ_self n))

/-- The live buffers have different addresses, so their number fits into a word. -/
theorem length_lt (h : PoolInv s p k) : s.live.length < 2 ^ 32 := by
  have hnodup : s.live.Nodup := h.live.nodup_iff.mp p.nodup
  have hsub : s.live.toFinset ⊆ Finset.Ioo 0 (2 ^ 32) := by
    intro b hb
    exact Finset.mem_Ioo.mpr (h.addr b (List.mem_toFinset.mp hb))
  have hcard := Finset.card_le_card hsub
  rw [List.toFinset_card_of_nodup hnodup, Nat.card_Ioo] at hcard
  omega

theorem mem_bufs (h : PoolInv s p k) (hb : b ∈ s.live) : b ∈ p.bufs := h.live.mem_iff.mpr hb

/-- A buffer that is handed out was free, and is clean. -/
theorem bufAlloc (h : PoolInv s p k) (hs : s.mem.bufAlloc = .ok (b, m)) :
    (m.eb b).Clean ∧ ∃ p', PoolInv ⟨m, s.live, b :: s.held⟩ p' k := by
  have hrep := h.repr.bufAlloc
  rw [hs] at hrep
  unfold EthPool.bufAlloc at hrep
  split at hrep
  · cases hrep
  · rename_i c rest hfree
    obtain ⟨rfl, hrep⟩ := hrep
    constructor
    · rw [hrep.eb]
      exact h.clean b (hfree ▸ List.mem_cons_self)
    · refine ⟨_, hrep, ?_, congrArg _ h.held, h.capacity, h.addr, ?_⟩
      · refine .trans List.perm_middle ?_
        have hlive := h.live
        rwa [EthPool.bufs, hfree] at hlive
      · intro c hc
        exact h.clean c (hfree ▸ List.mem_cons_of_mem b hc)

/-- A buffer that is freed is cleared, also if it was free. -/
theorem bufFree (h : PoolInv s p k) (hb : b ∈ s.live) (hnext : (s.mem.eb b).next = none) :
    PoolInv ⟨s.mem.bufFree b, s.live, s.held.erase b⟩ (p.bufFree b) k := by
  have hmem := h.mem_bufs hb
  refine ⟨h.repr.bufFree hmem, ?_, ?_, h.capacity, h.addr, ?_⟩
  · have hcons : (p.bufFree b).bufs = b :: p.bufs.erase b := by
      rw [← p.bufs_erase b]
      rfl
    rw [hcons]
    exact (List.perm_cons_erase hmem).symm.trans h.live
  · rw [← h.held]
    rfl
  · intro c hc
    by_cases hcb : c = b
    · subst hcb
      rw [EthPool.eb_bufFree_self, ← h.repr.eb]
      exact ⟨hnext, rfl, rfl, rfl, rfl, rfl⟩
    · rw [EthPool.eb_bufFree_of_ne p hcb]
      exact h.clean c (List.mem_of_mem_erase ((List.mem_cons.mp hc).resolve_left hcb))

/-- A buffer that is destroyed is live no longer. -/
theorem bufDestroy (h : PoolInv s p 0) (hb : b ∈ s.live) :
    PoolInv ⟨s.mem.bufDestroy b, s.live.erase b, s.held.erase b⟩ (p.bufDestroy b) 0 := by
  have hlen := List.length_erase_of_mem hb
  have hpos := List.length_pos_of_mem hb
  have hcap := h.capacity
  refine ⟨h.repr.bufDestroy (h.mem_bufs hb) (by omega), ?_, ?_, ?_, ?_, ?_⟩
  · have herase : (p.bufDestroy b).bufs = p.bufs.erase b := p.bufs_erase b
    rw [herase]
    exact h.live.erase b
  · rw [← h.held]
    rfl
  · simp only [EthPool.bufDestroy]
    omega
  · intro c hc
    exact h.addr c (List.mem_of_mem_erase hc)
  · intro c hc
    exact h.clean c (List.mem_of_mem_erase hc)

/-- The user of a buffer may set its header to anything. -/
theorem modify (h : PoolInv s p k) (hb : b ∈ s.held) (e : EthBuf) :
    PoolInv { s with mem := { s.mem with eb := Function.update s.mem.eb b e } } (p.setEb b e)
      k := by
  refine ⟨⟨h.repr.lists, ?_, h.repr.capacity⟩, h.live, h.held, h.capacity, h.addr, ?_⟩
  · rw [h.repr.eb]
    rfl
  · intro c hc
    have hne : c ≠ b := by
      rintro rfl
      rw [← h.held] at hb
      exact List.disjoint_of_nodup_append p.nodup hc hb
    rw [EthPool.eb_setEb_of_ne p hne]
    exact h.clean c hc

/-- **Every call keeps the invariant.** -/
theorem step (h : PoolInv s p 0) {op : PoolOp} (hg : PoolAllows s op)
    (hs : poolStep s op = .ok s') : ∃ p', PoolInv s' p' 0 := by
  cases op with
  | increase n heap =>
    obtain ⟨m', hm', rfl⟩ := exists_ok_of_map hs
    obtain ⟨m, hm, rfl⟩ := exists_ok_of_map hm'
    obtain ⟨p', hp'⟩ := h.addBuffers hg hm
    refine ⟨{ p' with capacity := p'.capacity + n.toNat }, ?_, hp'.live, hp'.held, hp'.capacity,
      hp'.addr, hp'.clean⟩
    refine ⟨hp'.repr.lists, hp'.repr.eb, ?_⟩
    have hc := hp'.repr.capacity
    dsimp only at hc ⊢
    rw [hc, BitVec.ofNat_add, BitVec.ofNat_toNat, BitVec.setWidth_eq]
  | alloc =>
    obtain ⟨⟨b, m⟩, hm, rfl⟩ := exists_ok_of_map hs
    exact (h.bufAlloc hm).2
  | free b =>
    cases hs
    exact ⟨_, h.bufFree hg.1 hg.2⟩
  | destroy b =>
    have hchain : ethbufChain s.mem.eb (s.live.length + 1) b = some [b] := by
      simp only [ethbufChain, hg.2]
    simp only [poolStep, hchain, List.diff_cons, List.diff_nil] at hs
    cases hs
    exact ⟨_, h.bufDestroy hg.1⟩
  | modify b e =>
    cases hs
    exact ⟨_, h.modify hg e⟩

end PoolInv

/-- **The pool is partitioned, and what it hands out is clean.**  After every sequence of calls in
which the buffers freed or destroyed are live and not chained, and only handed out buffers are
modified, the pointers form a list of free and a list of used buffers.  No buffer is on both,
together they hold each live buffer once, and their lengths add up to the capacity.  A buffer that
the pool hands out next is not chained, and all that a user may have left in it is zero. -/
theorem pool_partitioned (m : PoolMem) {ops : List PoolOp} {s : PoolRun}
    (hr : Run poolStep PoolAllows (PoolRun.init m) ops s) :
    ∃ free inuse : List BufId,
      IsList s.mem.links (.first .free) free ∧ IsList s.mem.links (.first .inuse) inuse ∧
      (∀ b ∈ free, b ∉ inuse) ∧ (∀ b, (free ++ inuse).count b = if b ∈ s.live then 1 else 0) ∧
      free.length + inuse.length = s.mem.capacity.toNat ∧
      ∀ b m', s.mem.bufAlloc = .ok (b, m') → (m'.eb b).Clean := by
  obtain ⟨p, h⟩ : ∃ p, PoolInv s p 0 :=
    hr.inv (I := fun s => ∃ p, PoolInv s p 0) (fun _ _ _ h hg hs => h.elim fun _ h => h.step hg hs)
      ⟨_, poolInv_init m⟩
  refine ⟨p.freeList, p.inuseList, h.repr.lists.isList .free, h.repr.lists.isList .inuse,
    fun b hb => List.disjoint_of_nodup_append p.nodup hb, ?_, ?_, fun b m' hb => (h.bufAlloc hb).1⟩
  · intro b
    rw [List.Nodup.count p.nodup]
    simp only [← h.live.mem_iff, EthPool.bufs]
  · have hlen := h.live.length_eq
    have hcap := h.capacity
    have hlt := h.length_lt
    rw [EthPool.bufs, List.length_append] at hlen
    rw [h.repr.capacity, BitVec.toNat_ofNat]
    omega

/-- Three buffers; the third one is destroyed, the second one is handed out, used and freed
twice. -/
def recycleRun : List PoolOp :=
  [.increase 3 fun i => ⟨BitVec.ofNat 32 (4096 * (i + 1)), 64⟩, .destroy 12288, .alloc,
    .modify 8192 ⟨none, 1, 14, 20, 60, 2, 2048, 9⟩, .free 8192, .free 8192]

/-- Memory before boot. -/
def bootMem : PoolMem :=
  ⟨⟨fun _ => none, fun _ => .first .free⟩, fun _ => ⟨none, 0, 0, 0, 0, 0, 0, 0⟩, 0⟩

theorem pool_partitioned_recycled :
    ∃ s m', Run poolStep PoolAllows (PoolRun.init bootMem) recycleRun s ∧
      s.mem.capacity.toNat = 2 ∧ s.mem.bufAlloc = .ok (8192, m') ∧ (m'.eb 8192).Clean ∧
      ∃ free inuse : List BufId, IsList s.mem.links (.first .free) free ∧
        IsList s.mem.links (.first .inuse) inuse ∧ free.length + inuse.length = 2 := by
  obtain ⟨s, hr, hs⟩ : ∃ s, Run poolStep PoolAllows (PoolRun.init bootMem) recycleRun s ∧
      (s.mem.capacity.toNat, s.mem.bufAlloc.map Prod.fst) = (2, .ok 8192) :=
    exists_run_of_exec (by decide +kernel)
  obtain ⟨hc, ha⟩ := Prod.mk.inj hs
  obtain ⟨⟨b, m'⟩, ha, rfl⟩ := exists_ok_of_map ha
  obtain ⟨free, inuse, hf, hi, -, -, hlen, hclean⟩ := pool_partitioned bootMem hr
  exact ⟨s, m', hr, hc, ha, hclean _ m' ha, free, inuse, hf, hi, hlen.trans hc⟩

end TrustedGateway
