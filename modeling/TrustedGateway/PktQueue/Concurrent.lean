import TrustedGateway.Lib.Ring
import TrustedGateway.Lib.Run
import TrustedGateway.PktQueue

/-!
# A packet queue between workers

Producers add packets under the queue's lock.  The one consumer takes the lock to see how many
packets it can read without wrapping, lets it go, works on these packets in their cells, and takes
the lock again to drop some of them (`router_pktq_tx`, and the receive part of
`fec_route_xmit_napi`).  So producers store to cells while the consumer reads others.

The consumer's two sections under the lock are one step each, since nobody else can tell.  A
producer's section is cut at every store.  What was accepted and what was dropped is logged.
-/

namespace TrustedGateway

open StepSystem RingWindow

/-- A producer that holds the lock: what it was called with, what of it is in the cells, and what
it will still store. -/
structure Adding where
  bs : List BufId
  stored : List BufId
  todo : List BufId
  deriving DecidableEq, Repr

/-- The consumer: at rest, or at work on `n` cells with what it has read from them. -/
inductive PktqConsumer
  | idle
  | window (n : ℕ) (seen : List (Option BufId))
  deriving DecidableEq, Repr

structure PktqSys where
  q : PktQueue
  adding : Option Adding
  consumer : PktqConsumer
  accepted : List BufId
  dropped : List (Option BufId)

/-- Sections of producers and of the consumer, and what happens between them. -/
inductive PktqAction
  | bulkAdd (bs : List BufId)
  | add (b : BufId)
  | producer
  | look (limit : ℕ)
  | read
  | drop (k : ℕ)
  deriving DecidableEq, Repr

/-- The producer in the lock stores the next packet, or counts what it has stored and leaves. -/
def producerStep (s : PktqSys) (a : Adding) : PktqSys :=
  match a.todo with
  | b :: rest =>
    { s with q := s.q.store b, adding := some ⟨a.bs, a.stored ++ [b], rest⟩ }
  | [] =>
    { s with
      q := { s.q with count := s.q.count + a.stored.length }
      adding := none
      accepted := s.accepted ++ a.stored }

def pktqStep (s : PktqSys) : PktqAction → Except Abort PktqSys
  | .bulkAdd bs =>
    let willAdd := min bs.length (s.q.capacity - s.q.count)
    .ok { s with adding := some ⟨bs, [], bs.take willAdd⟩ }
  | .add b => .ok { s with adding := some ⟨[b], [], if s.q.isFull then [] else [b]⟩ }
  | .producer =>
    match s.adding with
    | none => .ok s
    | some a => .ok (producerStep s a)
  | .look limit =>
    let n := min s.q.contigBufs limit
    .ok { s with consumer := if n = 0 then .idle else .window n [] }
  | .read =>
    match s.consumer with
    | .idle => .ok s
    | .window n seen =>
      .ok { s with consumer := .window n (seen ++ [s.q.pkt (s.q.nextRead + seen.length)]) }
  | .drop k =>
    .ok { s with
      q := s.q.dropBufs k
      consumer := .idle
      dropped := s.dropped ++ s.q.window k }

/-- How many cells of the window there are, and how many of them were read. -/
def PktqConsumer.cells : PktqConsumer → ℕ
  | idle => 0
  | window n _ => n

def PktqConsumer.seen : PktqConsumer → List (Option BufId)
  | idle => []
  | window _ seen => seen

/-- The lock is taken only when it is free.  The consumer reads its own cells, and drops no more
than these. -/
def PktqAllows (s : PktqSys) : PktqAction → Prop
  | .bulkAdd _ | .add _ => s.adding = none
  | .producer => s.adding ≠ none
  | .look _ => s.adding = none ∧ s.consumer = .idle
  | .read => s.consumer.seen.length < s.consumer.cells
  | .drop k => s.adding = none ∧ s.consumer ≠ .idle ∧ k ≤ s.consumer.cells

instance (s : PktqSys) (a : PktqAction) : Decidable (PktqAllows s a) := by
  cases a <;> dsimp only [PktqAllows] <;> infer_instance

/-- An empty queue. -/
def PktQueue.empty (capacity : ℕ) (pkt : ℕ → Option BufId) : PktQueue :=
  ⟨0, 0, 0, capacity, pkt⟩

def pktqInit (capacity : ℕ) (pkt : ℕ → Option BufId) : PktqSys :=
  ⟨.empty capacity pkt, none, .idle, [], []⟩

/-! ## The sections make up the functions -/

/-- A producer that holds the lock and is not interrupted. -/
theorem run_producer {s : PktqSys} {a : Adding} (ha : s.adding = some a) :
    ∃ as, Run pktqStep PktqAllows s as
      { s with
        q := { a.todo.foldl PktQueue.store s.q with
          count := s.q.count + (a.stored ++ a.todo).length }
        adding := none
        accepted := s.accepted ++ (a.stored ++ a.todo) } := by
  have hg : PktqAllows s .producer := by simp [PktqAllows, ha]
  obtain ⟨bs, stored, todo⟩ := a
  induction todo generalizing s stored with
  | nil =>
    refine ⟨[.producer], .cons hg ?_ (.nil _)⟩
    simp only [pktqStep, ha, producerStep, List.append_nil, List.foldl_nil]
  | cons b rest ih =>
    let s' : PktqSys :=
      { s with q := s.q.store b, adding := some ⟨bs, stored ++ [b], rest⟩ }
    have hstep : pktqStep s .producer = .ok s' := by
      simp only [pktqStep, ha, producerStep, s']
    obtain ⟨as, hr⟩ := ih (s := s') (by simp [PktqAllows, s']) (stored ++ [b]) rfl
    refine ⟨.producer :: as, .cons hg hstep ?_⟩
    simp only [List.append_assoc, List.singleton_append] at hr
    exact hr

/-- `bstgw_pktq_locked_bulk_add_buff`, uninterrupted. -/
theorem run_bulkAdd {s : PktqSys} (hs : s.adding = none) (bs : List BufId) :
    ∃ as, Run pktqStep PktqAllows s (.bulkAdd bs :: as)
      { s with
        q := (s.q.bulkAddBuff bs).2
        accepted := s.accepted ++ bs.take (s.q.bulkAddBuff bs).1 } := by
  obtain ⟨as, hr⟩ := run_producer (s := { s with
    adding := some ⟨bs, [], bs.take (min bs.length (s.q.capacity - s.q.count))⟩ }) rfl
  refine ⟨as, .cons hs rfl ?_⟩
  simpa [PktQueue.bulkAddBuff, hs] using hr

theorem run_bulkAdd_two : ∃ as s, Run pktqStep PktqAllows (pktqInit 2 fun _ => none)
    (.bulkAdd [5, 6, 7] :: as) s ∧ s.accepted = [5, 6] := by
  obtain ⟨as, hr⟩ := run_bulkAdd (s := pktqInit 2 _) rfl [5, 6, 7]
  exact ⟨as, _, hr, rfl⟩

/-- `bstgw_pktq_locked_add_buf`, uninterrupted. -/
theorem run_add {s : PktqSys} (hs : s.adding = none) (b : BufId) :
    ∃ as, Run pktqStep PktqAllows s (.add b :: as)
      { s with
        q := (s.q.addBuf b).2
        accepted := s.accepted ++ if (s.q.addBuf b).1 then [b] else [] } := by
  obtain ⟨as, hr⟩ := run_producer (s := { s with
    adding := some ⟨[b], [], if s.q.isFull then [] else [b]⟩ }) rfl
  refine ⟨as, .cons hs rfl ?_⟩
  cases hf : s.q.isFull <;> simpa [PktQueue.addBuf, PktQueue.push, hf, hs] using hr

/-- A single add is a bulk add of one packet. -/
theorem take_min_one (q : PktQueue) (b : BufId) :
    [b].take (min [b].length (q.capacity - q.count)) = if q.isFull then [] else [b] := by
  by_cases hf : q.capacity ≤ q.count
  · simp [PktQueue.isFull, hf, Nat.sub_eq_zero_of_le hf]
  · have hone : min [b].length (q.capacity - q.count) = 1 := by
      rw [List.length_singleton]
      omega
    rw [hone]
    simp [PktQueue.isFull, hf]

/-! ## The ring against the log -/

/-- What the producer in the lock has put into the cells beyond the log. -/
def PktqSys.pending (s : PktqSys) : List BufId :=
  match s.adding with
  | none => []
  | some a => a.stored

/-- Positions and count follow the log, the cells hold its undropped entries, the producer adds a
prefix of its packets that fits, and the consumer's cells do not wrap. -/
structure PktqInv (c : ℕ) (s : PktqSys) : Prop where
  pos : 1 ≤ c
  capacity : s.q.capacity = c
  nextRead : s.q.nextRead = s.dropped.length % c
  nextWrite : s.q.nextWrite = (s.accepted ++ s.pending).length % c
  count : s.accepted.length = s.dropped.length + s.q.count
  ring : Window s.q.pkt c ((s.accepted ++ s.pending).map some) s.dropped.length
  fifo : s.dropped <+: s.accepted.map some
  adding : ∀ a, s.adding = some a →
    a.stored ++ a.todo = a.bs.take (min a.bs.length (c - s.q.count))
  cells : s.q.nextRead + s.consumer.cells ≤ c ∧ s.consumer.cells ≤ s.q.count
  seen : s.consumer.seen <+: (s.accepted.drop s.dropped.length).map some

namespace PktqInv

variable {c : ℕ} {s : PktqSys}

theorem init (hc : 1 ≤ c) (pkt : ℕ → Option BufId) : PktqInv c (pktqInit c pkt) where
  pos := hc
  capacity := rfl
  nextRead := rfl
  nextWrite := rfl
  count := rfl
  ring := window_nil
  fifo := List.prefix_rfl
  adding := by simp [pktqInit]
  cells := ⟨by simp [pktqInit, PktQueue.empty, PktqConsumer.cells], le_rfl⟩
  seen := List.prefix_rfl

/-- The queue is never over its capacity, with what is in the lock as well. -/
theorem length_le (h : PktqInv c s) : s.q.count + s.pending.length ≤ c := by
  have hfits := h.ring.fits
  have hcount := h.count
  simp only [List.length_map, List.length_append] at hfits
  omega

theorem count_le (h : PktqInv c s) : s.q.count ≤ c :=
  le_trans (Nat.le_add_right _ _) h.length_le

variable {a : Adding} {b : BufId} {j : ℕ} {rest : List BufId}

section

variable (h : PktqInv c s)
include h

/-- A producer with something to store has a free cell. -/
theorem lt_of_todo (ha : s.adding = some a) (ht : a.todo = b :: rest) :
    s.q.count + a.stored.length < c := by
  have hlen := congrArg List.length (h.adding a ha)
  simp only [ht, List.length_append, List.length_cons, List.length_take] at hlen
  have hle := h.count_le
  omega

/-- The cell of the next store. -/
theorem nextWrite_eq (ha : s.adding = some a) :
    s.q.nextWrite = (s.dropped.length + (s.q.count + a.stored.length)) % c := by
  rw [h.nextWrite, List.length_append, h.count, Nat.add_assoc]
  simp only [PktqSys.pending, ha]

/-- The cells of the consumer are those of the oldest entries. -/
theorem cell_eq (hj : j < s.consumer.cells) : s.q.nextRead + j = (s.dropped.length + j) % c := by
  have hcells := h.cells.1
  rw [h.nextRead] at hcells ⊢
  have hj' : j % c = j := Nat.mod_eq_of_lt (by omega)
  rw [Nat.add_mod_of_add_mod_lt (by omega), hj']

/-- A producer never stores to a cell the consumer works on. -/
theorem nextWrite_ne (ha : s.adding = some a) (ht : a.todo = b :: rest)
    (hj : j < s.consumer.cells) :
    s.q.nextWrite ≠ s.q.nextRead + j := by
  have hlt := h.lt_of_todo ha ht
  have hle := h.cells.2
  rw [h.nextWrite_eq ha, h.cell_eq hj]
  exact (mod_ne (by omega) (by omega)).symm

/-- What the consumer finds in its cells. -/
theorem pkt_eq (hj : j < s.consumer.cells) :
    (s.accepted.map some)[s.dropped.length + j]? = some (s.q.pkt (s.q.nextRead + j)) := by
  have hlen : s.dropped.length + j < s.accepted.length := by
    have := h.count
    have := h.cells.2
    omega
  have hget := h.ring.get (k := s.dropped.length + j) (by omega) (by simp; omega)
  rw [List.map_append, List.getElem?_append_left (by simpa using hlen)] at hget
  rw [h.cell_eq hj, hget]

/-- The cells of the consumer hold the oldest entries that were not dropped. -/
theorem window_eq {k : ℕ} (hk : k ≤ s.consumer.cells) :
    s.q.window k = ((s.accepted.drop s.dropped.length).take k).map some := by
  apply List.ext_getElem?
  intro j
  rw [List.map_take, List.map_drop]
  rcases lt_or_ge j k with hj | hj
  · rw [List.getElem?_take_of_lt hj, List.getElem?_drop, h.pkt_eq (by omega)]
    simp [PktQueue.window, List.getElem?_range hj]
  · rw [List.getElem?_eq_none (by simpa [PktQueue.window] using hj)]
    rw [List.getElem?_eq_none (by simp; omega)]

/-- A producer enters with the packets that fit. -/
theorem enter (hs : s.adding = none) (bs : List BufId) :
    PktqInv c { s with adding := some ⟨bs, [], bs.take (min bs.length (c - s.q.count))⟩ } where
  pos := h.pos
  capacity := h.capacity
  nextRead := h.nextRead
  nextWrite := by simpa [PktqSys.pending, hs] using h.nextWrite
  count := h.count
  ring := by simpa [PktqSys.pending, hs] using h.ring
  fifo := h.fifo
  adding := by
    intro a ha
    cases ha
    rfl
  cells := h.cells
  seen := h.seen

theorem producer_store (ha : s.adding = some a) (ht : a.todo = b :: rest) :
    PktqInv c { s with q := s.q.store b, adding := some ⟨a.bs, a.stored ++ [b], rest⟩ } where
  pos := h.pos
  capacity := h.capacity
  nextRead := h.nextRead
  nextWrite := by
    have hnext := h.nextWrite
    simp only [PktqSys.pending, ha] at hnext
    simp only [PktQueue.store, PktqSys.pending, h.capacity, hnext, ← List.append_assoc]
    rw [@List.length_append _ _ [b], List.length_singleton, Nat.mod_add_mod]
  count := h.count
  ring := by
    have hring := h.ring
    have hlt := h.lt_of_todo ha ht
    have hcount := h.count
    simp only [PktqSys.pending, ha] at hring
    have hpush := hring.push (by simp; omega) (some b)
    simp only [PktQueue.store, PktqSys.pending, h.nextWrite, ha]
    simpa using hpush
  fifo := h.fifo
  adding := by
    intro a' ha'
    cases ha'
    have hadd := h.adding a ha
    rw [ht] at hadd
    simpa [PktQueue.store] using hadd
  cells := h.cells
  seen := h.seen

theorem producer_leave (ha : s.adding = some a) :
    PktqInv c
      { s with
        q := { s.q with count := s.q.count + a.stored.length }
        adding := none
        accepted := s.accepted ++ a.stored } where
  pos := h.pos
  capacity := h.capacity
  nextRead := h.nextRead
  nextWrite := by simpa [PktqSys.pending, ha] using h.nextWrite
  count := by simp [h.count, Nat.add_assoc]
  ring := by simpa [PktqSys.pending, ha] using h.ring
  fifo := by
    rw [List.map_append]
    exact h.fifo.trans (List.prefix_append ..)
  adding := by simp
  cells := ⟨h.cells.1, h.cells.2.trans (Nat.le_add_right _ _)⟩
  seen := by
    have hle : s.dropped.length ≤ s.accepted.length := by
      have := h.count
      omega
    rw [List.drop_append_of_le_length hle, List.map_append]
    exact h.seen.trans (List.prefix_append ..)

theorem producer (ha : s.adding = some a) : PktqInv c (producerStep s a) := by
  unfold producerStep
  split
  · next ht => exact h.producer_store ha ht
  · exact h.producer_leave ha

/-- The consumer looks how much there is. -/
theorem look (limit : ℕ) :
    PktqInv c { s with
      consumer := if min s.q.contigBufs limit = 0 then .idle
        else .window (min s.q.contigBufs limit) [] } := by
  have hread : s.q.nextRead < c := h.nextRead ▸ Nat.mod_lt _ h.pos
  have hcontig : s.q.nextRead + s.q.contigBufs ≤ c ∧ s.q.contigBufs ≤ s.q.count := by
    simp only [PktQueue.contigBufs, PktQueue.isEmpty, decide_eq_true_eq, h.capacity]
    split
    · omega
    · split <;> omega
  refine { h with cells := ?_, seen := ?_ }
  · split
    · exact ⟨hread.le, Nat.zero_le _⟩
    · simp only [PktqConsumer.cells]
      omega
  · split <;> exact List.nil_prefix

/-- The consumer reads the next of its cells. -/
theorem read {n : ℕ} {seen : List (Option BufId)} (hw : s.consumer = .window n seen)
    (hlt : seen.length < n) :
    PktqInv c { s with
      consumer := .window n (seen ++ [s.q.pkt (s.q.nextRead + seen.length)]) } := by
  have hcells : s.consumer.cells = n := by rw [hw]; rfl
  have hseen : s.consumer.seen = seen := by rw [hw]; rfl
  have hold : seen = s.q.window seen.length := by
    have hpre := h.seen
    rw [hseen, List.prefix_iff_eq_take, ← List.map_take] at hpre
    rw [h.window_eq (by omega)]
    exact hpre
  have hnew : seen ++ [s.q.pkt (s.q.nextRead + seen.length)] = s.q.window (seen.length + 1) := by
    rw [PktQueue.window, List.range_succ, List.map_append]
    exact congrArg (· ++ _) hold
  refine { h with cells := ?_, seen := ?_ }
  · have hold' := h.cells
    rwa [hcells] at hold'
  · simp only [PktqConsumer.seen, hnew]
    rw [h.window_eq (by omega), List.map_take]
    exact List.take_prefix ..

/-- The consumer drops some of its cells. -/
theorem drop (hs : s.adding = none) {k : ℕ} (hk : k ≤ s.consumer.cells) :
    PktqInv c { s with
      q := s.q.dropBufs k
      consumer := .idle
      dropped := s.dropped ++ s.q.window k } := by
  have hlen : (s.q.window k).length = k := by simp [PktQueue.window]
  have hle := h.cells.2
  have hcount := h.count
  constructor
  case pos => exact h.pos
  case capacity => exact h.capacity
  case nextRead =>
    simp only [PktQueue.dropBufs, h.nextRead, h.capacity, List.length_append, hlen]
    rw [Nat.mod_add_mod]
  case nextWrite => exact h.nextWrite
  case count =>
    simp only [PktQueue.dropBufs, List.length_append, hlen]
    omega
  case ring => exact h.ring.drop (by simp)
  case fifo =>
    have hpre := List.prefix_iff_eq_take.mp h.fifo
    rw [h.window_eq hk, List.map_take, List.map_drop]
    nth_rewrite 1 [hpre]
    rw [← List.take_add]
    exact List.take_prefix ..
  case adding =>
    intro a ha
    simp [hs] at ha
  case cells =>
    refine ⟨?_, Nat.zero_le _⟩
    simp only [PktQueue.dropBufs, PktqConsumer.cells, h.capacity]
    exact (Nat.mod_lt _ h.pos).le
  case seen => exact List.nil_prefix

/-- One step of anybody. -/
theorem step {s' : PktqSys} {act : PktqAction} (hg : PktqAllows s act)
    (hs : pktqStep s act = .ok s') : PktqInv c s' := by
  cases act with
  | bulkAdd bs =>
    cases hs
    rw [h.capacity]
    exact h.enter hg bs
  | add b =>
    cases hs
    rw [← take_min_one, h.capacity]
    exact h.enter hg [b]
  | producer =>
    cases ha : s.adding with
    | none => exact absurd ha hg
    | some a =>
      simp only [pktqStep, ha] at hs
      cases hs
      exact h.producer ha
  | look limit =>
    cases hs
    exact h.look limit
  | read =>
    cases hw : s.consumer with
    | idle => simp [PktqAllows, hw, PktqConsumer.seen, PktqConsumer.cells] at hg
    | window n seen =>
      simp only [pktqStep, hw] at hs
      cases hs
      simp only [PktqAllows, hw, PktqConsumer.seen, PktqConsumer.cells] at hg
      exact h.read hw hg
  | drop k =>
    cases hs
    exact h.drop hg.1 hg.2.2

end

end PktqInv

/-- **The queue is a bounded FIFO.**  Whatever producers and the consumer do, and in whatever
order: the queue holds the accepted packets that were not dropped, and no more than fit; what was
dropped and what the consumer reads are the oldest of them; a producer stores to no cell the
consumer works on; and a bulk add accepts the packets that fit, in order. -/
theorem pktq_bounded_fifo {c : ℕ} (hc : 1 ≤ c) (pkt : ℕ → Option BufId) {acts : List PktqAction}
    {s : PktqSys} (hr : Run pktqStep PktqAllows (pktqInit c pkt) acts s) :
    s.q.count ≤ c ∧
    s.accepted.length = s.dropped.length + s.q.count ∧
    s.dropped <+: s.accepted.map some ∧
    s.consumer.seen <+: (s.accepted.drop s.dropped.length).map some ∧
    (∀ k ≤ s.consumer.cells,
      s.q.window k = ((s.accepted.drop s.dropped.length).take k).map some) ∧
    (∀ a b rest, s.adding = some a → a.todo = b :: rest →
      ∀ j < s.consumer.cells, s.q.nextWrite ≠ s.q.nextRead + j) ∧
    (∀ a s', s.adding = some a → a.todo = [] → pktqStep s .producer = .ok s' →
      s'.accepted = s.accepted ++ a.bs.take (min a.bs.length (c - s.q.count)) ∧
      s'.q.count = s.q.count + min a.bs.length (c - s.q.count)) := by
  have h : PktqInv c s := hr.inv (fun _ _ _ h hg hs => h.step hg hs) (.init hc pkt)
  refine ⟨h.count_le, h.count, h.fifo, h.seen, fun k => h.window_eq, ?_, ?_⟩
  · intro a b rest ha ht j
    exact h.nextWrite_ne ha ht
  · intro a s' ha ht hs
    have hadd := h.adding a ha
    rw [ht, List.append_nil] at hadd
    simp only [pktqStep, ha, producerStep, ht, hadd] at hs
    cases hs
    exact ⟨rfl, by simp⟩

/-- Two cells: the third packet does not fit, the ring wraps, and the consumer reads on while the
next producer stores. -/
def pktqDemo : List PktqAction :=
  [.bulkAdd [7, 8, 9], .producer, .producer, .producer, .look 1, .read, .drop 1, .look 5, .add 4,
    .read, .producer]

theorem pktq_bounded_fifo_demo :
    ∃ s, Run pktqStep PktqAllows (pktqInit 2 fun _ => none) pktqDemo s ∧
      (s.accepted, s.dropped, s.consumer, s.q.nextWrite) =
        ([7, 8], [some 7], .window 1 [some 8], 1) ∧
      s.dropped <+: s.accepted.map some := by
  obtain ⟨s, hr, hs⟩ : ∃ s, Run pktqStep PktqAllows (pktqInit 2 fun _ => none) pktqDemo s ∧
      (s.accepted, s.dropped, s.consumer, s.q.nextWrite) =
        ([7, 8], [some 7], .window 1 [some 8], 1) :=
    exists_run_of_exec (by decide +kernel)
  exact ⟨s, hr, hs, (pktq_bounded_fifo (by decide) _ hr).2.2.1⟩

end TrustedGateway
