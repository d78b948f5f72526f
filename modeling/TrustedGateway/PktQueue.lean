import TrustedGateway.EthBuf

/-!
# Packet queues

The bounded ring of packet pointers between the workers (`bstgw_pktq.h`).  All
operations run under the queue's lock.
-/

namespace TrustedGateway

/-- `pktqueue_t`. -/
structure PktQueue where
  nextRead : ℕ
  nextWrite : ℕ
  count : ℕ
  capacity : ℕ
  pkt : ℕ → Option BufId

namespace PktQueue

def isFull (q : PktQueue) : Bool := q.capacity ≤ q.count

def isEmpty (q : PktQueue) : Bool := q.count = 0

/-- Store one entry and advance the write position. -/
def store (q : PktQueue) (b : BufId) : PktQueue :=
  { q with
    pkt := Function.update q.pkt q.nextWrite (some b)
    nextWrite := (q.nextWrite + 1) % q.capacity }

/-- `bstgw_pktq_locked_bulk_add_buff`: the number of entries accepted, and the queue. -/
def bulkAddBuff (q : PktQueue) (bs : List BufId) : ℕ × PktQueue :=
  let willAdd := min bs.length (q.capacity - q.count)
  let q' := (bs.take willAdd).foldl store q
  (willAdd, { q' with count := q.count + willAdd })

/-- Store one entry and count it. -/
def push (q : PktQueue) (b : BufId) : PktQueue := { q.store b with count := q.count + 1 }

/-- `bstgw_pktq_locked_add_buf`. -/
def addBuf (q : PktQueue) (b : BufId) : Bool × PktQueue :=
  if q.isFull then (false, q) else (true, q.push b)

/-- `bstgw_pktq_locked_drop_bufs`. -/
def dropBufs (q : PktQueue) (num : ℕ) : PktQueue :=
  { q with
    nextRead := (q.nextRead + num) % q.capacity
    count := q.count - num }

/-- `bstgw_pktq_locked_contig_bufs`: how many entries can be read without wrapping. -/
def contigBufs (q : PktQueue) : ℕ :=
  if q.isEmpty then 0
  else
    let tillEnd := 1 + ((q.capacity - 1) - q.nextRead)
    if q.count < tillEnd then q.count else tillEnd

/-- The entries `&pkt[next_read]`, `n` of them. -/
def window (q : PktQueue) (n : ℕ) : List (Option BufId) :=
  (List.range n).map fun k => q.pkt (q.nextRead + k)

/-- Stores do not read the count. -/
theorem foldl_store_count (bs : List BufId) (q : PktQueue) (n : ℕ) :
    bs.foldl store { q with count := n } = { bs.foldl store q with count := n } := by
  induction bs generalizing q with
  | nil => rfl
  | cons b bs ih => exact ih (q.store b)

theorem foldl_push (bs : List BufId) (q : PktQueue) :
    bs.foldl push q = { bs.foldl store q with count := q.count + bs.length } := by
  induction bs generalizing q with
  | nil => rfl
  | cons b bs ih =>
    rw [List.foldl_cons, ih, push, foldl_store_count, List.length_cons, Nat.add_comm bs.length,
      ← Nat.add_assoc]
    rfl

theorem count_foldl_push (bs : List BufId) (q : PktQueue) :
    (bs.foldl push q).count = q.count + bs.length := by
  rw [foldl_push]

theorem capacity_foldl_push (bs : List BufId) (q : PktQueue) :
    (bs.foldl push q).capacity = q.capacity := by
  induction bs generalizing q with
  | nil => rfl
  | cons b bs ih => exact ih (q.push b)

/-- A bulk add is one push after the other. -/
theorem bulkAddBuff_eq (q : PktQueue) (bs : List BufId) :
    (q.bulkAddBuff bs).2 = (bs.take (q.bulkAddBuff bs).1).foldl push q := by
  simp [bulkAddBuff, foldl_push]

/-- There is something to read unless the queue is empty. -/
theorem contigBufs_eq_zero_iff (q : PktQueue) : q.contigBufs = 0 ↔ q.count = 0 := by
  simp only [contigBufs, isEmpty, decide_eq_true_eq]
  split
  · omega
  · split <;> omega

end PktQueue

end TrustedGateway
