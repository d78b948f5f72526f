import TrustedGateway.VirtioNet

/-!
# Taking chains and giving them back

What `vqueue_get_avail_buf`, `vqueue_map_iovs` and `vqueue_add_buf` do to a queue whose rings
stand still, as one lemma each.  A walk over a chain ends because each round takes room in
one of the two lists; the total it reports is the sum of the lengths modulo `2 ^ 32`.
-/

namespace TrustedGateway

open StepSystem

variable {M : Type}

/-! ## The walk -/

namespace VqueueIovs

/-- The total length, unbounded. -/
def total (l : VqueueIovs) : ℕ := (l.pieces.map (·.iov.len.toNat)).sum

/-- A list that was filled by a walk over rings that stand still. -/
structure Filled (l : VqueueIovs) : Prop where
  fits : l.used ≤ l.cnt
  len : l.len = BitVec.ofNat 32 l.total

theorem total_push (l : VqueueIovs) (len phys lenAgain : Word) :
    (l.push len phys lenAgain).total = l.total + len.toNat := by
  simp [VqueueIovs.push, total]

theorem Filled.empty (cnt : ℕ) : Filled ⟨cnt, 0, []⟩ := ⟨Nat.zero_le _, rfl⟩

theorem Filled.push {l : VqueueIovs} (h : Filled l) (hr : l.used < l.cnt) (len phys : Word) :
    Filled (l.push len phys len) := by
  refine ⟨?_, ?_⟩
  · simp only [used, VqueueIovs.push, List.length_append, List.length_singleton] at hr ⊢
    omega
  · rw [total_push, BitVec.ofNat_add, BitVec.ofNat_toNat, BitVec.setWidth_eq, ← h.len]
    rfl

end VqueueIovs

/-- Both lists of a buffer description were filled by a walk. -/
structure VqueueBuf.Filled (buf : VqueueBuf) : Prop where
  inIovs : buf.inIovs.Filled
  outIovs : buf.outIovs.Filled

/-- The room left in both lists. -/
def VqueueBuf.room (buf : VqueueBuf) : ℕ :=
  (buf.inIovs.cnt - buf.inIovs.used) + (buf.outIovs.cnt - buf.outIovs.used)

/-- One round of the walk: record a descriptor in its list, if there is room. -/
def VqueueBuf.record (buf : VqueueBuf) (d : VringDesc) : Option VqueueBuf :=
  if d.flags &&& vringDescFWrite ≠ 0 then
    if buf.outIovs.used < buf.outIovs.cnt then
      some { buf with outIovs := buf.outIovs.push d.len (d.addr.setWidth 32) d.len }
    else none
  else
    if buf.inIovs.used < buf.inIovs.cnt then
      some { buf with inIovs := buf.inIovs.push d.len (d.addr.setWidth 32) d.len }
    else none

/-- The walk over rings that stand still, a round at a time. -/
theorem descWalk_still_succ (num fuel : ℕ) (idx : Half) (buf : VqueueBuf) (r : RingMem) :
    descWalk stillReads num (fuel + 1) idx buf r =
      if num ≤ idx.toNat then .ok (errNotValid, buf, r)
      else
        match buf.record (r.desc idx.toNat) with
        | none => .ok (errTooBig, buf, r)
        | some buf' =>
          if (r.desc idx.toNat).flags &&& vringDescFNext ≠ 0 then
            descWalk stillReads num fuel (r.desc idx.toNat).next buf' r
          else .ok (noError, buf', r) := by
  have hflags : stillReads.descFlags idx.toNat r = ((r.desc idx.toNat).flags, r) := rfl
  have hlen : stillReads.descLen idx.toNat r = ((r.desc idx.toNat).len, r) := rfl
  have haddr : stillReads.descAddr idx.toNat r = ((r.desc idx.toNat).addr, r) := rfl
  have hnext : stillReads.descNext idx.toNat r = ((r.desc idx.toNat).next, r) := rfl
  simp only [descWalk, hflags, hlen, haddr, hnext, VqueueBuf.record]
  by_cases hw : (r.desc idx.toNat).flags &&& vringDescFWrite ≠ 0
  · simp only [if_pos hw]
    by_cases hr : buf.outIovs.used < buf.outIovs.cnt
    · simp only [if_pos hr]
    · simp only [if_neg hr]
  · simp only [if_neg hw]
    by_cases hr : buf.inIovs.used < buf.inIovs.cnt
    · simp only [if_pos hr]
    · simp only [if_neg hr]

/-- What recording a descriptor does. -/
structure Recorded (buf buf' : VqueueBuf) : Prop where
  head : buf'.head = buf.head
  cntIn : buf'.inIovs.cnt = buf.inIovs.cnt
  cntOut : buf'.outIovs.cnt = buf.outIovs.cnt
  filled : buf.Filled → buf'.Filled
  room : buf'.room < buf.room
  pos : 0 < buf'.inIovs.used + buf'.outIovs.used

theorem VqueueIovs.used_push (l : VqueueIovs) (len phys lenAgain : Word) :
    (l.push len phys lenAgain).used = l.used + 1 := by
  simp [VqueueIovs.push, VqueueIovs.used]

variable {buf : VqueueBuf} {ps : List Piece} {ret : ℤ} {va : Word → Word} {vq vq' : Vqueue}

theorem VqueueBuf.recorded {buf' : VqueueBuf} {d : VringDesc} (h : buf.record d = some buf') :
    Recorded buf buf' := by
  simp only [VqueueBuf.record] at h
  split at h
  · split at h
    · rename_i hr
      cases h
      refine ⟨rfl, rfl, rfl, fun hf => ⟨hf.inIovs, hf.outIovs.push hr _ _⟩, ?_, ?_⟩
      · simp only [VqueueBuf.room, VqueueIovs.used_push]
        simp only [VqueueIovs.push]
        omega
      · simp only [VqueueIovs.used_push]
        omega
    · cases h
  · split at h
    · rename_i hr
      cases h
      refine ⟨rfl, rfl, rfl, fun hf => ⟨hf.inIovs.push hr _ _, hf.outIovs⟩, ?_, ?_⟩
      · simp only [VqueueBuf.room, VqueueIovs.used_push]
        simp only [VqueueIovs.push]
        omega
      · simp only [VqueueIovs.used_push]
        omega
    · cases h

/-- How a walk from `buf` may end: with what code, and with what in the lists. -/
structure Walked (buf : VqueueBuf) (ret : ℤ) (buf' : VqueueBuf) : Prop where
  code : ret = noError ∨ ret = errNotValid ∨ ret = errTooBig
  head : buf'.head = buf.head
  cntIn : buf'.inIovs.cnt = buf.inIovs.cnt
  cntOut : buf'.outIovs.cnt = buf.outIovs.cnt
  filled : buf.Filled → buf'.Filled
  pos : ret = noError → 0 < buf'.inIovs.used + buf'.outIovs.used

/-- **The walk ends**, without touching the rings, when the fuel exceeds the room. -/
theorem descWalk_eq_ok (num fuel : ℕ) (idx : Half) (buf : VqueueBuf) (r : RingMem)
    (hroom : buf.room < fuel) :
    ∃ ret buf', descWalk stillReads num fuel idx buf r = .ok (ret, buf', r) ∧
      Walked buf ret buf' := by
  induction fuel generalizing idx buf with
  | zero => omega
  | succ fuel ih =>
    rw [descWalk_still_succ]
    by_cases hn : num ≤ idx.toNat
    · rw [if_pos hn]
      exact ⟨_, buf, rfl, .inr (.inl rfl), rfl, rfl, rfl, id, fun h => absurd h (by decide)⟩
    rw [if_neg hn]
    cases hrec : buf.record (r.desc idx.toNat) with
    | none =>
      exact ⟨_, buf, rfl, .inr (.inr rfl), rfl, rfl, rfl, id, fun h => absurd h (by decide)⟩
    | some buf' =>
      have hb := VqueueBuf.recorded hrec
      have hlt := hb.room
      dsimp only
      split
      · obtain ⟨ret, buf'', he, hw⟩ := ih (r.desc idx.toNat).next buf' (by omega)
        exact ⟨ret, buf'', he, hw.code, hw.head.trans hb.head, hw.cntIn.trans hb.cntIn,
          hw.cntOut.trans hb.cntOut, fun hf => hw.filled (hb.filled hf), hw.pos⟩
      · exact ⟨_, buf', rfl, .inl rfl, hb.head, hb.cntIn, hb.cntOut, hb.filled, fun _ => hb.pos⟩

/-! ## Taking a chain -/

namespace Vqueue

/-- The head that is taken next. -/
def nextHead (vq : Vqueue) : Half :=
  vq.shared.avail.ring (vq.lastAvailIdx.toNat % vq.vring.num)

/-- The first descriptor of the chain that is taken next. -/
def nextDesc (vq : Vqueue) : VringDesc := vq.shared.desc vq.nextHead.toNat

/-- The queue is up and has a chain to take. -/
def More (vq : Vqueue) : Prop := vq.vringAddr ≠ 0 ∧ vq.lastAvailIdx ≠ vq.shared.avail.idx

/-- The queue after its next head was taken. -/
def took (vq : Vqueue) : Vqueue :=
  { vq with lastAvailIdx := vq.lastAvailIdx + 1, taken := vq.taken ++ [vq.nextHead] }

/-- The queue after a head was given back. -/
def gave (vq : Vqueue) (head : Half) (len : Word) : Vqueue :=
  { vq with
    shared := { vq.shared with used := { vq.shared.used with
      ring := Function.update vq.shared.used.ring (vq.shared.used.idx.toNat % vq.vring.num)
        ⟨head.setWidth 32, len⟩
      idx := vq.shared.used.idx + 1 } }
    returned := vq.returned ++ [⟨head.setWidth 32, len⟩] }

end Vqueue

/-- A chain was taken: the conditions, and what came of it. -/
structure Taken (vq : Vqueue) (cntIn cntOut : ℕ) (ret : ℤ) (buf : VqueueBuf) (vq' : Vqueue) :
    Prop where
  up : vq.vringAddr ≠ 0
  more : vq.lastAvailIdx ≠ vq.shared.avail.idx
  head : vq.nextHead.toNat < vq.vring.num
  walk : descWalk stillReads vq.vring.num (cntIn + cntOut + 1) vq.nextHead
    ⟨vq.nextHead, ⟨cntIn, 0, []⟩, ⟨cntOut, 0, []⟩⟩ vq.shared = .ok (ret, buf, vq.shared)
  queue : vq' = vq.took

/-- **Taking a chain.**  Nothing happens on a queue that is down or empty; otherwise the head
is gone from the avail ring, whatever the walk finds.  A null pointer is dereferenced only if
the avail ring is one. -/
theorem getAvailBuf_spec (vq : Vqueue) (cntIn cntOut : ℕ) :
    Gives (fun e => e = .nullDeref → vq.vring.avail = 0)
      (fun p => (p.2.2 = vq ∧ (p.1 = errChannelClosed ∧ vq.vringAddr = 0 ∨
        p.1 = errNotEnoughBuffer ∧ vq.lastAvailIdx = vq.shared.avail.idx)) ∨
          Taken vq cntIn cntOut p.1 p.2.1 p.2.2)
      (vqueueGetAvailBuf vq (VqueueBuf.empty cntIn cntOut)) := by
  have hidx : stillReads.availIdx vq.shared = (vq.shared.avail.idx, vq.shared) := rfl
  have hring : stillReads.availRing (vq.lastAvailIdx.toNat % vq.vring.num) vq.shared =
      (vq.nextHead, vq.shared) := rfl
  simp only [vqueueGetAvailBuf, vqueueGetAvailBufLocked, hidx, hring, VqueueBuf.empty]
  by_cases hup : vq.vringAddr = 0
  · rw [if_pos hup]
    exact .inl ⟨rfl, .inl ⟨rfl, hup⟩⟩
  rw [if_neg hup]
  by_cases hav : vq.vring.avail = 0
  · rw [if_pos hav]
    exact fun _ => hav
  rw [if_neg hav]
  by_cases hrange : vq.vring.num % 2 ^ 16 < (vq.shared.avail.idx - vq.lastAvailIdx).toNat
  · rw [if_pos hrange]
    exact nofun
  rw [if_neg hrange]
  by_cases hmore : vq.lastAvailIdx = vq.shared.avail.idx
  · rw [if_pos hmore]
    exact .inl ⟨rfl, .inr ⟨rfl, hmore⟩⟩
  rw [if_neg hmore]
  by_cases hhead : vq.vring.num ≤ vq.nextHead.toNat
  · rw [if_pos hhead]
    exact nofun
  rw [if_neg hhead]
  have hroom : VqueueBuf.room ⟨vq.nextHead, ⟨cntIn, 0, []⟩, ⟨cntOut, 0, []⟩⟩ <
      cntIn + cntOut + 1 := by
    simp [VqueueBuf.room, VqueueIovs.used]
  obtain ⟨ret, buf, hw, -⟩ := descWalk_eq_ok vq.vring.num (cntIn + cntOut + 1) vq.nextHead _
    vq.shared hroom
  rw [hw]
  exact .inr ⟨hup, hmore, by omega, hw, rfl⟩

theorem getAvailBuf_cases {cntIn cntOut : ℕ}
    (h : vqueueGetAvailBuf vq (VqueueBuf.empty cntIn cntOut) = .ok (ret, buf, vq')) :
    (vq' = vq ∧ (ret = errChannelClosed ∧ vq.vringAddr = 0 ∨
      ret = errNotEnoughBuffer ∧ vq.lastAvailIdx = vq.shared.avail.idx)) ∨
      Taken vq cntIn cntOut ret buf vq' := by
  have hs := getAvailBuf_spec vq cntIn cntOut
  rw [h] at hs
  exact hs

/-- What a taken chain consists of. -/
theorem Taken.walked {cntIn cntOut : ℕ} (h : Taken vq cntIn cntOut ret buf vq') :
    Walked ⟨vq.nextHead, ⟨cntIn, 0, []⟩, ⟨cntOut, 0, []⟩⟩ ret buf ∧ buf.Filled := by
  have hroom : VqueueBuf.room ⟨vq.nextHead, ⟨cntIn, 0, []⟩, ⟨cntOut, 0, []⟩⟩ <
      cntIn + cntOut + 1 := by
    simp [VqueueBuf.room, VqueueIovs.used]
  obtain ⟨ret', buf', hw, hwalk⟩ := descWalk_eq_ok vq.vring.num (cntIn + cntOut + 1) vq.nextHead _
    vq.shared hroom
  rw [h.walk] at hw
  cases hw
  exact ⟨hwalk, hwalk.filled ⟨.empty cntIn, .empty cntOut⟩⟩

/-- A single writable descriptor, which is all a receive chain may be. -/
def VringDesc.RxOk (d : VringDesc) : Prop :=
  d.flags &&& vringDescFWrite ≠ 0 ∧ d.flags &&& vringDescFNext = 0

instance (d : VringDesc) : Decidable d.RxOk :=
  inferInstanceAs (Decidable (_ ∧ _))

/-- The only descriptor of a receive chain. -/
def VringDesc.piece (d : VringDesc) : Piece := ⟨d.addr.setWidth 32, ⟨0, d.len⟩⟩

/-- **A receive chain** is one writable descriptor, or an error. -/
theorem Taken.rx (h : Taken vq 0 maxRxIovs ret buf vq') :
    (ret = noError ∧ vq.nextDesc.RxOk ∧
      buf = ⟨vq.nextHead, ⟨0, 0, []⟩, ⟨1, vq.nextDesc.len, [vq.nextDesc.piece]⟩⟩) ∨
      (ret ≠ noError ∧ ¬ vq.nextDesc.RxOk) := by
  have hw := h.walk
  have hd : vq.shared.desc vq.nextHead.toNat = vq.nextDesc := rfl
  simp only [maxRxIovs] at hw
  rw [descWalk_still_succ, if_neg (by have := h.head; omega), hd] at hw
  by_cases hwr : vq.nextDesc.flags &&& vringDescFWrite ≠ 0
  · have hrec : VqueueBuf.record ⟨vq.nextHead, ⟨0, 0, []⟩, ⟨1, 0, []⟩⟩ vq.nextDesc =
        some ⟨vq.nextHead, ⟨0, 0, []⟩, ⟨1, 0 + vq.nextDesc.len, [vq.nextDesc.piece]⟩⟩ := by
      rw [VqueueBuf.record, if_pos hwr]
      rfl
    rw [hrec] at hw
    by_cases hn : vq.nextDesc.flags &&& vringDescFNext ≠ 0
    · simp only [if_pos hn] at hw
      refine .inr ⟨?_, fun hok => hn hok.2⟩
      rw [descWalk_still_succ] at hw
      -- both lists are full now, so a second descriptor is one too many
      have hfull : ∀ d, VqueueBuf.record
          ⟨vq.nextHead, ⟨0, 0, []⟩, ⟨1, 0 + vq.nextDesc.len, [vq.nextDesc.piece]⟩⟩ d = none := by
        intro d
        simp [VqueueBuf.record, VqueueIovs.used]
      rw [hfull] at hw
      split at hw <;> cases hw <;> decide
    · simp only [if_neg hn] at hw
      cases hw
      refine .inl ⟨rfl, ⟨hwr, not_not.mp hn⟩, ?_⟩
      rw [show (0 : Word) + vq.nextDesc.len = vq.nextDesc.len from BitVec.zero_add _]
  · refine .inr ⟨?_, fun hok => hwr hok.1⟩
    have hrec : VqueueBuf.record ⟨vq.nextHead, ⟨0, 0, []⟩, ⟨1, 0, []⟩⟩ vq.nextDesc = none := by
      rw [VqueueBuf.record, if_neg hwr]
      rfl
    rw [hrec] at hw
    cases hw
    decide

/-! ## Giving a head back -/

theorem addBuf_of_up {len : Word} {r : ℤ} (hup : vq.vringAddr ≠ 0)
    (hh : buf.head.toNat < vq.vring.num) (h : vqueueAddBuf vq buf len = .ok (r, vq')) :
    vq' = vq.gave buf.head len := by
  rw [vqueueAddBuf, if_neg hup, if_neg (by omega)] at h
  split at h
  · cases h
  · cases h
    rfl

/-! ## Mapping -/

theorem mapPieces_fst (va : Word → Word) (ps : List Piece) :
    (mapPieces va ps).1 = true ↔ ∀ p ∈ ps, va p.phys ≠ 0 := by
  induction ps with
  | nil => simp [mapPieces]
  | cons p ps ih =>
    by_cases hp : va p.phys = 0
    · simp only [mapPieces, if_pos hp, Bool.false_eq_true, false_iff]
      intro h
      exact h p List.mem_cons_self hp
    · simp only [mapPieces, if_neg hp, List.forall_mem_cons, ne_eq]
      rw [ih]
      exact ⟨fun h => ⟨hp, h⟩, fun h => h.2⟩

/-- The pieces with their translated bases. -/
def mapped (va : Word → Word) (ps : List Piece) : List Piece :=
  ps.map fun p => { p with iov := { p.iov with base := va p.phys } }

theorem mapPieces_of_ok (h : ∀ p ∈ ps, va p.phys ≠ 0) : mapPieces va ps = (true, mapped va ps) := by
  induction ps with
  | nil => rfl
  | cons p ps ih =>
    have hp : va p.phys ≠ 0 := h p List.mem_cons_self
    have hrest := ih fun q hq => h q (List.mem_cons_of_mem p hq)
    simp only [mapPieces, if_neg hp, hrest, if_true]
    rfl

/-- A failed mapping leaves the first base null. -/
theorem mapPieces_of_fail {p : Piece} (h : (mapPieces va (p :: ps)).1 = false) :
    ∃ qs, (mapPieces va (p :: ps)).2 = { p with iov := { p.iov with base := 0 } } :: qs := by
  by_cases hp : va p.phys = 0
  · exact ⟨ps, by simp only [mapPieces, if_pos hp]⟩
  · simp only [mapPieces, if_neg hp] at h ⊢
    exact ⟨(mapPieces va ps).2, by simp [h]⟩

/-- How many entries a failing mapping has set: those in front of the first address that does
not translate, and that one. -/
def mapPiecesSet (va : Word → Word) (ps : List Piece) : ℕ :=
  (ps.takeWhile fun p => va p.phys ≠ 0).length + 1

/-- The entries with null bases. -/
def unmapped (ps : List Piece) : List Piece :=
  ps.map fun p => { p with iov := { p.iov with base := 0 } }

/-- The entries after a mapping that failed: null every base that was set, and the other entries
as they were. -/
def rolledBack (va : Word → Word) (ps : List Piece) : List Piece :=
  unmapped (ps.take (mapPiecesSet va ps)) ++ ps.drop (mapPiecesSet va ps)

theorem rolledBack_cons {p : Piece} (hp : va p.phys ≠ 0) (ps : List Piece) :
    rolledBack va (p :: ps) = { p with iov := { p.iov with base := 0 } } :: rolledBack va ps := by
  have hset : mapPiecesSet va (p :: ps) = mapPiecesSet va ps + 1 := by
    rw [mapPiecesSet, mapPiecesSet, List.takeWhile_cons_of_pos (by simpa using hp),
      List.length_cons]
  rw [rolledBack, hset, List.take_succ_cons, List.drop_succ_cons]
  rfl

theorem mapPieces_rolledBack (h : ¬ ∀ p ∈ ps, va p.phys ≠ 0) :
    mapPieces va ps = (false, rolledBack va ps) := by
  induction ps with
  | nil => simp at h
  | cons p ps ih =>
    by_cases hp : va p.phys = 0
    · have hset : mapPiecesSet va (p :: ps) = 1 := by
        rw [mapPiecesSet, List.takeWhile_cons_of_neg (by simpa using hp)]
        rfl
      simp only [mapPieces, if_pos hp, rolledBack, hset]
      rfl
    · have hrest : ¬ ∀ q ∈ ps, va q.phys ≠ 0 := by
        intro hall
        exact h (List.forall_mem_cons.mpr ⟨hp, hall⟩)
      simp only [mapPieces, if_neg hp, ih hrest, rolledBack_cons hp, Bool.false_eq_true,
        if_false]

/-- Mapping succeeds or fails as a whole, with a return value that tells which. -/
def MapsAsWhole (va : Word → Word) (l : VqueueIovs) (r : ℤ × VqueueIovs) : Prop :=
  (r.1 = noError ↔ ∀ p ∈ l.pieces, va p.phys ≠ 0) ∧
    ((∀ p ∈ l.pieces, va p.phys ≠ 0) → r.2 = { l with pieces := mapped va l.pieces }) ∧
    ((¬ ∀ p ∈ l.pieces, va p.phys ≠ 0) → r.2 = { l with pieces := rolledBack va l.pieces })

/-- **Mapping as a whole.**  It is so exactly if every address translates or the local that is
returned on failure happens not to be `NO_ERROR`. -/
theorem vqueueMapIovs_whole_iff (va : Word → Word) (uninit : ℤ) (l : VqueueIovs) :
    MapsAsWhole va l (vqueueMapIovs va uninit l) ↔
      (∀ p ∈ l.pieces, va p.phys ≠ 0) ∨ uninit ≠ noError := by
  by_cases hall : ∀ p ∈ l.pieces, va p.phys ≠ 0
  · rw [vqueueMapIovs, mapPieces_of_ok hall]
    exact iff_of_true ⟨iff_of_true rfl hall, fun _ => rfl, fun h => absurd hall h⟩ (.inl hall)
  · rw [vqueueMapIovs, mapPieces_rolledBack hall, or_iff_right hall]
    constructor
    · rintro ⟨hret, -⟩ h0
      exact hall (hret.mp h0)
    · intro h0
      exact ⟨iff_of_false h0 hall, fun h => absurd h hall, fun _ => rfl⟩

/-- An address that does not translate, and a local that happens to be zero: the caller is told
that the entry is mapped. -/
theorem vqueueMapIovs_reports_success :
    vqueueMapIovs (fun _ => 0) 0 ⟨1, 64, [⟨0x20000000, ⟨0, 64⟩⟩]⟩ =
      (noError, ⟨1, 64, [⟨0x20000000, ⟨0, 64⟩⟩]⟩) := by
  decide

end TrustedGateway
