import TrustedGateway.VirtioNet.Chain

/-!
# A walk over rings that change

The normal world may answer each read of the ring memory as it likes, also two reads of one
field differently.  `readDesc` puts the reads of one round together, in the order of the
source, and `descWalk_succ` is the walk over arbitrary answers, a round at a time.

What bounds the walk are the capacities of the two lists, and what bounds the indices is the
check of the local `next_idx`.  `logged` is a source of answers that also keeps the places
that were read.

The totals are added up from a second read of each length, in 32 bits.  Whether they match
what was recorded depends on the answers: `HonestLens`.
-/

namespace TrustedGateway

open StepSystem

variable {ρ : Type}

/-! ## One round -/

/-- What the reads of one round of the walk answered. -/
structure DescReads where
  flags : Half
  len : Word
  addr : BitVec 64
  lenAgain : Word
  next : Half
  flagsAgain : Half
  deriving DecidableEq, Repr

/-- The reads of a round at descriptor `d`, in their order. -/
def readDesc (rd : RingReads ρ) (d : ℕ) (r : ρ) : DescReads × ρ :=
  let (flags, r) := rd.descFlags d r
  let (len, r) := rd.descLen d r
  let (addr, r) := rd.descAddr d r
  let (lenAgain, r) := rd.descLen d r
  let (next, r) := rd.descNext d r
  let (flagsAgain, r) := rd.descFlags d r
  (⟨flags, len, addr, lenAgain, next, flagsAgain⟩, r)

/-- The descriptor goes into the list of the writable ones. -/
def DescReads.write (x : DescReads) : Prop := x.flags &&& vringDescFWrite ≠ 0

instance DescReads.decidableWrite (x : DescReads) : Decidable x.write :=
  inferInstanceAs (Decidable (_ ≠ _))

/-- The chain goes on. -/
def DescReads.more (x : DescReads) : Prop := x.flagsAgain &&& vringDescFNext ≠ 0

instance DescReads.decidableMore (x : DescReads) : Decidable x.more :=
  inferInstanceAs (Decidable (_ ≠ _))

namespace VqueueBuf

/-- The list that a descriptor with these flags goes into. -/
def iovlist (buf : VqueueBuf) (flags : Half) : VqueueIovs :=
  if flags &&& vringDescFWrite ≠ 0 then buf.outIovs else buf.inIovs

/-- The list that a descriptor with these flags goes into has room. -/
def HasRoom (buf : VqueueBuf) (flags : Half) : Prop :=
  (buf.iovlist flags).used < (buf.iovlist flags).cnt

instance (buf : VqueueBuf) (flags : Half) : Decidable (buf.HasRoom flags) :=
  inferInstanceAs (Decidable (_ < _))

/-- The lists after a descriptor was recorded. -/
def add (buf : VqueueBuf) (x : DescReads) : VqueueBuf :=
  if x.write then
    { buf with outIovs := buf.outIovs.push x.len (x.addr.setWidth 32) x.lenAgain }
  else { buf with inIovs := buf.inIovs.push x.len (x.addr.setWidth 32) x.lenAgain }

/-- Both lists hold no more than they have room for. -/
structure Fits (buf : VqueueBuf) : Prop where
  inIovs : buf.inIovs.used ≤ buf.inIovs.cnt
  outIovs : buf.outIovs.used ≤ buf.outIovs.cnt

end VqueueBuf

/-- **The walk over any answers**, a round at a time. -/
theorem descWalk_succ (rd : RingReads ρ) (num fuel : ℕ) (idx : Half) (buf : VqueueBuf) (r : ρ) :
    descWalk rd num (fuel + 1) idx buf r =
      if num ≤ idx.toNat then .ok (errNotValid, buf, r)
      else if buf.HasRoom (rd.descFlags idx.toNat r).1 then
        if (readDesc rd idx.toNat r).1.more then
          descWalk rd num fuel (readDesc rd idx.toNat r).1.next
            (buf.add (readDesc rd idx.toNat r).1) (readDesc rd idx.toNat r).2
        else
          .ok (noError, buf.add (readDesc rd idx.toNat r).1, (readDesc rd idx.toNat r).2)
      else .ok (errTooBig, buf, (rd.descFlags idx.toNat r).2) := by
  rcases h₁ : rd.descFlags idx.toNat r with ⟨flags, r₁⟩
  rcases h₂ : rd.descLen idx.toNat r₁ with ⟨len, r₂⟩
  rcases h₃ : rd.descAddr idx.toNat r₂ with ⟨addr, r₃⟩
  rcases h₄ : rd.descLen idx.toNat r₃ with ⟨lenAgain, r₄⟩
  rcases h₅ : rd.descNext idx.toNat r₄ with ⟨next, r₅⟩
  rcases h₆ : rd.descFlags idx.toNat r₅ with ⟨flagsAgain, r₆⟩
  have hread : readDesc rd idx.toNat r = (⟨flags, len, addr, lenAgain, next, flagsAgain⟩, r₆) := by
    simp only [readDesc, h₁, h₂, h₃, h₄, h₅, h₆]
  simp only [descWalk, h₁, h₂, h₃, h₄, h₅, h₆, hread, VqueueBuf.HasRoom, VqueueBuf.iovlist,
    VqueueBuf.add, DescReads.write, DescReads.more]
  by_cases hw : flags &&& vringDescFWrite ≠ 0
  · simp only [if_pos hw]
  · simp only [if_neg hw]

section Add

variable {buf : VqueueBuf} {x : DescReads}

@[simp] theorem VqueueBuf.cntIn_add : (buf.add x).inIovs.cnt = buf.inIovs.cnt := by
  rw [VqueueBuf.add]
  split <;> rfl

@[simp] theorem VqueueBuf.cntOut_add : (buf.add x).outIovs.cnt = buf.outIovs.cnt := by
  rw [VqueueBuf.add]
  split <;> rfl

theorem VqueueBuf.usedIn_add :
    (buf.add x).inIovs.used = buf.inIovs.used + if x.write then 0 else 1 := by
  rw [VqueueBuf.add]
  split
  · rfl
  · exact VqueueIovs.used_push _ _ _ _

theorem VqueueBuf.usedOut_add :
    (buf.add x).outIovs.used = buf.outIovs.used + if x.write then 1 else 0 := by
  rw [VqueueBuf.add]
  split
  · exact VqueueIovs.used_push _ _ _ _
  · rfl

@[simp] theorem VqueueBuf.head_add : (buf.add x).head = buf.head := by
  rw [VqueueBuf.add]
  split <;> rfl

/-- One list grows by a descriptor for which there is room, and the other one stays. -/
theorem VqueueBuf.HasRoom.used_add (hr : buf.HasRoom x.flags) :
    ((buf.add x).outIovs.used = buf.outIovs.used + 1 ∧ buf.outIovs.used < buf.outIovs.cnt ∧
        (buf.add x).inIovs.used = buf.inIovs.used) ∨
      ((buf.add x).inIovs.used = buf.inIovs.used + 1 ∧ buf.inIovs.used < buf.inIovs.cnt ∧
        (buf.add x).outIovs.used = buf.outIovs.used) := by
  rw [VqueueBuf.usedIn_add, VqueueBuf.usedOut_add]
  rw [VqueueBuf.HasRoom, VqueueBuf.iovlist] at hr
  by_cases hw : x.write
  · rw [if_pos hw, if_pos hw]
    rw [if_pos (show x.flags &&& vringDescFWrite ≠ 0 from hw)] at hr
    exact .inl ⟨rfl, hr, rfl⟩
  · rw [if_neg hw, if_neg hw]
    rw [if_neg (show ¬ x.flags &&& vringDescFWrite ≠ 0 from hw)] at hr
    exact .inr ⟨rfl, hr, rfl⟩

/-- Recording a descriptor for which there is room takes room. -/
theorem VqueueBuf.HasRoom.room_add_lt (hr : buf.HasRoom x.flags) :
    (buf.add x).room < buf.room := by
  simp only [VqueueBuf.room, VqueueBuf.cntIn_add, VqueueBuf.cntOut_add]
  rcases hr.used_add with h | h <;> omega

/-- It takes no more than there is. -/
theorem VqueueBuf.Fits.add (h : buf.Fits) (hr : buf.HasRoom x.flags) : (buf.add x).Fits := by
  have hin := h.inIovs
  have hout := h.outIovs
  constructor
  · rw [VqueueBuf.cntIn_add]
    rcases hr.used_add with h | h <;> omega
  · rw [VqueueBuf.cntOut_add]
    rcases hr.used_add with h | h <;> omega

end Add

theorem flags_readDesc (rd : RingReads ρ) (d : ℕ) (r : ρ) :
    (readDesc rd d r).1.flags = (rd.descFlags d r).1 := rfl

/-! ## The walk ends, inside of the ring -/

/-- The walk left the capacities as they were and did not exceed them. -/
structure WalkFits (buf buf' : VqueueBuf) : Prop where
  fits : buf'.Fits
  cntIn : buf'.inIovs.cnt = buf.inIovs.cnt
  cntOut : buf'.outIovs.cnt = buf.outIovs.cnt

variable {buf : VqueueBuf} {num : ℕ} {rd : RingReads ρ}

/-- **The walk ends** after as many rounds as there is room in the lists, and one more. -/
theorem descWalk_fits (rd : RingReads ρ) (num : ℕ) {fuel : ℕ} (idx : Half) (r : ρ)
    (hfits : buf.Fits) (hroom : buf.room < fuel) :
    Gives (fun _ => False) (fun p => WalkFits buf p.2.1) (descWalk rd num fuel idx buf r) := by
  induction fuel generalizing idx buf r with
  | zero => exact absurd hroom (Nat.not_lt_zero _)
  | succ fuel ih =>
    rw [descWalk_succ]
    split
    · exact ⟨hfits, rfl, rfl⟩
    · split
      · rename_i hr
        rw [← flags_readDesc] at hr
        have hfits' := hfits.add hr
        have hlt := hr.room_add_lt
        split
        · refine Gives.elim (ih (readDesc rd idx.toNat r).1.next (readDesc rd idx.toNat r).2
            hfits' (by omega)) (fun _ he => he) ?_
          intro p hp
          exact ⟨hp.fits, hp.cntIn.trans VqueueBuf.cntIn_add,
            hp.cntOut.trans VqueueBuf.cntOut_add⟩
        · exact ⟨hfits', VqueueBuf.cntIn_add, VqueueBuf.cntOut_add⟩
      · exact ⟨hfits, rfl, rfl⟩

/-- A place of the ring memory that is read. -/
inductive RingPlace
  | availIdx
  | availRing (k : ℕ)
  | desc (k : ℕ)
  deriving DecidableEq, Repr

/-- The place exists in a ring of `num` entries. -/
def RingPlace.InRing (num : ℕ) : RingPlace → Prop
  | .availIdx => True
  | .availRing k => k < num
  | .desc k => k < num

/-- The same answers, with a log of the places that were read. -/
def logged (rd : RingReads ρ) : RingReads (ρ × List RingPlace) where
  availIdx s := let (v, r) := rd.availIdx s.1; (v, r, s.2 ++ [.availIdx])
  availRing k s := let (v, r) := rd.availRing k s.1; (v, r, s.2 ++ [.availRing k])
  descAddr k s := let (v, r) := rd.descAddr k s.1; (v, r, s.2 ++ [.desc k])
  descLen k s := let (v, r) := rd.descLen k s.1; (v, r, s.2 ++ [.desc k])
  descFlags k s := let (v, r) := rd.descFlags k s.1; (v, r, s.2 ++ [.desc k])
  descNext k s := let (v, r) := rd.descNext k s.1; (v, r, s.2 ++ [.desc k])

/-- All places of a log exist in the ring. -/
def LogInRing (num : ℕ) (log : List RingPlace) : Prop := ∀ a ∈ log, a.InRing num

theorem LogInRing.snoc {log : List RingPlace} (h : LogInRing num log) {a : RingPlace}
    (ha : a.InRing num) : LogInRing num (log ++ [a]) := by
  intro b hb
  rcases List.mem_append.mp hb with hb | hb
  · exact h b hb
  · rw [List.mem_singleton.mp hb]
    exact ha

/-- **The walk reads descriptors of the ring only.** -/
theorem descWalk_logged (rd : RingReads ρ) (fuel : ℕ) (idx : Half) (buf : VqueueBuf)
    {s : ρ × List RingPlace} (h : LogInRing num s.2) :
    Gives (fun _ => True) (fun p => LogInRing num p.2.2.2)
      (descWalk (logged rd) num fuel idx buf s) := by
  induction fuel generalizing idx buf s with
  | zero => trivial
  | succ fuel ih =>
    rw [descWalk_succ]
    split
    · exact h
    · rename_i hidx
      have hd : (RingPlace.desc idx.toNat).InRing num := not_le.mp hidx
      have hround : LogInRing num (readDesc (logged rd) idx.toNat s).2.2 :=
        (((((h.snoc hd).snoc hd).snoc hd).snoc hd).snoc hd).snoc hd
      split
      · split
        · exact ih _ _ hround
        · exact hround
      · exact h.snoc hd

/-- Keeping a log does not change the walk. -/
theorem descWalk_forget (rd : RingReads ρ) (num fuel : ℕ) (idx : Half) (buf : VqueueBuf)
    (s : ρ × List RingPlace) :
    (descWalk (logged rd) num fuel idx buf s).map (fun p => (p.1, p.2.1, p.2.2.1)) =
      descWalk rd num fuel idx buf s.1 := by
  induction fuel generalizing idx buf s with
  | zero => rfl
  | succ fuel ih =>
    have hread : (readDesc (logged rd) idx.toNat s).1 = (readDesc rd idx.toNat s.1).1 := rfl
    have hflags : ((logged rd).descFlags idx.toNat s).1 = (rd.descFlags idx.toNat s.1).1 := rfl
    rw [descWalk_succ, descWalk_succ, hread, hflags]
    by_cases hidx : num ≤ idx.toNat
    · rw [if_pos hidx, if_pos hidx]
      rfl
    rw [if_neg hidx, if_neg hidx]
    by_cases hroom : buf.HasRoom (rd.descFlags idx.toNat s.1).1
    · rw [if_pos hroom, if_pos hroom]
      by_cases hmore : (readDesc rd idx.toNat s.1).1.more
      · rw [if_pos hmore, if_pos hmore]
        exact ih _ _ _
      · rw [if_neg hmore, if_neg hmore]
        rfl
    · rw [if_neg hroom, if_neg hroom]
      rfl

/-- Two sources with the same answers about the entries of a ring of `num` entries. -/
structure AgreeInRing (num : ℕ) (rd rd' : RingReads ρ) : Prop where
  availIdx : rd.availIdx = rd'.availIdx
  availRing : ∀ k < num, rd.availRing k = rd'.availRing k
  descAddr : ∀ k < num, rd.descAddr k = rd'.descAddr k
  descLen : ∀ k < num, rd.descLen k = rd'.descLen k
  descFlags : ∀ k < num, rd.descFlags k = rd'.descFlags k
  descNext : ∀ k < num, rd.descNext k = rd'.descNext k

theorem AgreeInRing.descWalk_eq {rd' : RingReads ρ} (h : AgreeInRing num rd rd') (fuel : ℕ)
    (idx : Half) (buf : VqueueBuf) (r : ρ) :
    descWalk rd num fuel idx buf r = descWalk rd' num fuel idx buf r := by
  induction fuel generalizing idx buf r with
  | zero => rfl
  | succ fuel ih =>
    by_cases hidx : num ≤ idx.toNat
    · rw [descWalk_succ, descWalk_succ, if_pos hidx, if_pos hidx]
    · have hd : idx.toNat < num := not_le.mp hidx
      have hround : readDesc rd idx.toNat = readDesc rd' idx.toNat := by
        funext r
        simp only [readDesc, h.descAddr _ hd, h.descLen _ hd, h.descFlags _ hd, h.descNext _ hd]
      rw [descWalk_succ, descWalk_succ, hround, h.descFlags _ hd, ih]

/-! ## The whole call -/

/-- The reads in front of the walk: two of the avail index, and the head. -/
def readHead (rd : RingReads ρ) (vq : Vqueue) (r : ρ) : Half × ρ :=
  rd.availRing (vq.lastAvailIdx.toNat % vq.vring.num) (rd.availIdx (rd.availIdx r).2).2

/-- The lists at the start of a walk. -/
def VqueueBuf.cleared (buf : VqueueBuf) (head : Half) : VqueueBuf :=
  ⟨head, ⟨buf.inIovs.cnt, 0, []⟩, ⟨buf.outIovs.cnt, 0, []⟩⟩

theorem VqueueBuf.fits_cleared (buf : VqueueBuf) (head : Half) : (buf.cleared head).Fits :=
  ⟨Nat.zero_le _, Nat.zero_le _⟩

theorem VqueueBuf.room_cleared (buf : VqueueBuf) (head : Half) :
    (buf.cleared head).room = buf.inIovs.cnt + buf.outIovs.cnt := rfl

/-- The call over any answers: what it does in front of the walk. -/
theorem getAvailBufLocked_eq (rd : RingReads ρ) (vq : Vqueue) (iovbuf : VqueueBuf) (r : ρ) :
    vqueueGetAvailBufLocked rd vq iovbuf r =
      if vq.vringAddr = 0 then .ok (errChannelClosed, iovbuf, vq, r)
      else if vq.vring.avail = 0 then .error .nullDeref
      else if vq.vring.num % 2 ^ 16 < ((rd.availIdx r).1 - vq.lastAvailIdx).toNat then
        .error (.panic "vq new avail idx out of range")
      else if vq.lastAvailIdx = (rd.availIdx (rd.availIdx r).2).1 then
        .ok (errNotEnoughBuffer, iovbuf, vq, (rd.availIdx (rd.availIdx r).2).2)
      else if vq.vring.num ≤ (readHead rd vq r).1.toNat then
        .error (.panic "vq head out of range")
      else
        match descWalk rd vq.vring.num (iovbuf.inIovs.cnt + iovbuf.outIovs.cnt + 1)
            (readHead rd vq r).1 (iovbuf.cleared (readHead rd vq r).1) (readHead rd vq r).2 with
        | .error a => .error a
        | .ok (ret, buf, r') =>
          .ok (ret, buf, { vq with
            lastAvailIdx := vq.lastAvailIdx + 1
            taken := vq.taken ++ [(readHead rd vq r).1] }, r') := rfl

section Call

variable {vq : Vqueue} {iovbuf : VqueueBuf}

theorem getAvailBuf_fits (rd : RingReads ρ) (hring : vq.vringAddr ≠ 0 → vq.vring.avail ≠ 0)
    (hbuf : iovbuf.Fits) (r : ρ) :
    Gives (fun e => e = .panic "vq new avail idx out of range" ∨
        e = .panic "vq head out of range")
      (fun p => WalkFits iovbuf p.2.1) (vqueueGetAvailBufLocked rd vq iovbuf r) := by
  rw [getAvailBufLocked_eq]
  split
  · exact ⟨hbuf, rfl, rfl⟩
  · rename_i haddr
    rw [if_neg (hring haddr)]
    split
    · exact .inl rfl
    · split
      · exact ⟨hbuf, rfl, rfl⟩
      · split
        · exact .inr rfl
        · refine Gives.elim (descWalk_fits rd vq.vring.num (readHead rd vq r).1
            (readHead rd vq r).2 (iovbuf.fits_cleared (readHead rd vq r).1)
            (Nat.lt_succ_of_le (iovbuf.room_cleared _).le)) (fun e he => he.elim) ?_
          intro p hp
          exact ⟨hp.fits, hp.cntIn, hp.cntOut⟩

theorem getAvailBuf_logged (rd : RingReads ρ) (hnum : 1 ≤ vq.vring.num) (r : ρ) :
    Gives (fun _ => True) (fun p => LogInRing vq.vring.num p.2.2.2.2)
      (vqueueGetAvailBufLocked (logged rd) vq iovbuf (r, [])) := by
  have hslot : (RingPlace.availRing (vq.lastAvailIdx.toNat % vq.vring.num)).InRing vq.vring.num :=
    Nat.mod_lt _ hnum
  have hnil : LogInRing vq.vring.num [] := by simp [LogInRing]
  have hidx := ((hnil.snoc (a := .availIdx) trivial).snoc (a := .availIdx) trivial)
  have hhead : LogInRing vq.vring.num (readHead (logged rd) vq (r, [])).2.2 := hidx.snoc hslot
  rw [getAvailBufLocked_eq]
  split
  · exact hnil
  · split
    · trivial
    · split
      · trivial
      · split
        · exact hidx
        · split
          · trivial
          · refine Gives.elim (descWalk_logged rd _ _ _ hhead) (fun _ _ => trivial) ?_
            intro p hp
            exact hp

theorem getAvailBuf_forget (rd : RingReads ρ) (vq : Vqueue) (iovbuf : VqueueBuf)
    (s : ρ × List RingPlace) :
    (vqueueGetAvailBufLocked (logged rd) vq iovbuf s).map
        (fun p => (p.1, p.2.1, p.2.2.1, p.2.2.2.1)) =
      vqueueGetAvailBufLocked rd vq iovbuf s.1 := by
  have hidx : ((logged rd).availIdx s).1 = (rd.availIdx s.1).1 := rfl
  have hidx' : ((logged rd).availIdx ((logged rd).availIdx s).2).1 =
      (rd.availIdx (rd.availIdx s.1).2).1 := rfl
  have hhead : (readHead (logged rd) vq s).1 = (readHead rd vq s.1).1 := rfl
  have hwalk := descWalk_forget rd vq.vring.num (iovbuf.inIovs.cnt + iovbuf.outIovs.cnt + 1)
    (readHead rd vq s.1).1 (iovbuf.cleared (readHead rd vq s.1).1) (readHead (logged rd) vq s).2
  rw [getAvailBufLocked_eq, getAvailBufLocked_eq, hidx, hidx', hhead,
    show (readHead rd vq s.1).2 = (readHead (logged rd) vq s).2.1 from rfl, ← hwalk]
  simp only [apply_ite (Except.map _)]
  congr 5
  cases descWalk (logged rd) vq.vring.num (iovbuf.inIovs.cnt + iovbuf.outIovs.cnt + 1)
    (readHead rd vq s.1).1 (iovbuf.cleared (readHead rd vq s.1).1)
    (readHead (logged rd) vq s).2 with
  | error e | ok p => rfl

theorem AgreeInRing.getAvailBuf_eq {rd rd' : RingReads ρ} (hnum : 1 ≤ vq.vring.num)
    (h : AgreeInRing vq.vring.num rd rd') (r : ρ) :
    vqueueGetAvailBufLocked rd vq iovbuf r = vqueueGetAvailBufLocked rd' vq iovbuf r := by
  have hhead : readHead rd vq r = readHead rd' vq r := by
    rw [readHead, readHead, h.availIdx, h.availRing _ (Nat.mod_lt _ hnum)]
  rw [getAvailBufLocked_eq, getAvailBufLocked_eq, h.availIdx, hhead]
  simp only [h.descWalk_eq]

end Call

/-- **A hostile driver.**  Whatever the reads answer, the call panics on an avail index or a
head out of range or returns: within a round for each entry of the two lists and one more,
with no more in a list than fits, and with reads of entries of the ring only. -/
theorem getAvailBuf_hostile (rd : RingReads ρ) (vq : Vqueue) (iovbuf : VqueueBuf) (r : ρ)
    (hnum : 1 ≤ vq.vring.num ∧ vq.vring.num ≤ 256)
    (hring : vq.vringAddr ≠ 0 → vq.vring.avail ≠ 0) (hbuf : iovbuf.Fits) :
    Gives (fun e => e = .panic "vq new avail idx out of range" ∨
          e = .panic "vq head out of range")
        (fun p => WalkFits iovbuf p.2.1) (vqueueGetAvailBufLocked rd vq iovbuf r) ∧
      Gives (fun _ => True) (fun p => LogInRing vq.vring.num p.2.2.2.2)
        (vqueueGetAvailBufLocked (logged rd) vq iovbuf (r, [])) ∧
      (vqueueGetAvailBufLocked (logged rd) vq iovbuf (r, [])).map
          (fun p => (p.1, p.2.1, p.2.2.1, p.2.2.2.1)) =
        vqueueGetAvailBufLocked rd vq iovbuf r ∧
      ∀ rd', AgreeInRing vq.vring.num rd rd' →
        vqueueGetAvailBufLocked rd' vq iovbuf r = vqueueGetAvailBufLocked rd vq iovbuf r :=
  ⟨getAvailBuf_fits rd hring hbuf r, getAvailBuf_logged rd hnum.1 r,
    getAvailBuf_forget rd vq iovbuf (r, []), fun _ h => (h.getAvailBuf_eq hnum.1 r).symm⟩

/-- A ring of four entries at `0x10000000`, with its avail ring behind the descriptors. -/
def ringOfFour : Vqueue where
  vring := ⟨4, 256, 0x10000000, 0x10000040, 0x10001000⟩
  vringAddr := 0x10000000
  vringSz := 4102
  vringAlign := 4096
  lastAvailIdx := 0
  shared := RingMem.zero
  taken := []
  returned := []

/-- A descriptor that names itself as the next one, and two list entries. -/
theorem getAvailBuf_hostile_cycle :
    let rd : RingReads Unit :=
      { availIdx := fun _ => (1, ()), availRing := fun _ _ => (2, ()),
        descAddr := fun _ _ => (0, ()), descLen := fun _ _ => (64, ()),
        descFlags := fun _ _ => (vringDescFNext, ()), descNext := fun _ _ => (2, ()) }
    Gives (fun e => e = .panic "vq new avail idx out of range" ∨
        e = .panic "vq head out of range")
      (fun p => WalkFits (VqueueBuf.empty 2 0) p.2.1)
      (vqueueGetAvailBufLocked rd ringOfFour (VqueueBuf.empty 2 0) ()) :=
  (getAvailBuf_hostile _ ringOfFour (VqueueBuf.empty 2 0) () (by decide) (by decide)
    ⟨by decide, by decide⟩).1

/-! ## Totals -/

/-- The rounds of a walk from descriptor `idx` on, as the reads answer them. -/
def chainReads (rd : RingReads ρ) (num : ℕ) : ℕ → Half → ρ → List DescReads
  | 0, _, _ => []
  | fuel + 1, idx, r =>
    if num ≤ idx.toNat then []
    else
      let (x, r) := readDesc rd idx.toNat r
      x :: if x.more then chainReads rd num fuel x.next r else []

/-- The rounds of the call, from the head that the reads give. -/
def presentedReads (rd : RingReads ρ) (vq : Vqueue) (iovbuf : VqueueBuf) (r : ρ) :
    List DescReads :=
  chainReads rd vq.vring.num (iovbuf.inIovs.cnt + iovbuf.outIovs.cnt + 1) (readHead rd vq r).1
    (readHead rd vq r).2

/-- The readable or the writable descriptors among them. -/
def ofSide (w : Bool) (xs : List DescReads) : List DescReads :=
  xs.filter fun x => decide x.write = w

theorem ofSide_cons (w : Bool) (x : DescReads) (xs : List DescReads) :
    ofSide w (x :: xs) = if decide x.write = w then x :: ofSide w xs else ofSide w xs := by
  simp [ofSide, List.filter_cons]

/-- The sum of their lengths, as the first reads give them. -/
def lens (xs : List DescReads) : ℕ := (xs.map (·.len.toNat)).sum

/-- The sum of their lengths, as the second reads give them. -/
def lensAgain (xs : List DescReads) : ℕ := (xs.map (·.lenAgain.toNat)).sum

/-- For the readable and for the writable descriptors, the lengths that are read first come
to less than `2 ^ 32`, and to as much modulo `2 ^ 32` as the lengths that are read again. -/
def HonestLens (xs : List DescReads) : Prop :=
  ∀ w, lens (ofSide w xs) < 2 ^ 32 ∧ lensAgain (ofSide w xs) ≡ lens (ofSide w xs) [MOD 2 ^ 32]

namespace VqueueBuf

/-- The list for the readable or the writable descriptors. -/
def side (buf : VqueueBuf) (w : Bool) : VqueueIovs := if w then buf.outIovs else buf.inIovs

theorem side_add (buf : VqueueBuf) (x : DescReads) (w : Bool) :
    (buf.add x).side w = if decide x.write = w then
      (buf.side w).push x.len (x.addr.setWidth 32) x.lenAgain else buf.side w := by
  rw [VqueueBuf.add]
  by_cases hx : x.write <;> cases w <;> simp [hx, side]

end VqueueBuf

/-- A walk without an error recorded every descriptor of the chain. -/
theorem descWalk_noError {fuel : ℕ} {idx : Half} {buf' : VqueueBuf} {r r' : ρ}
    (h : descWalk rd num fuel idx buf r = .ok (noError, buf', r')) :
    buf' = (chainReads rd num fuel idx r).foldl VqueueBuf.add buf := by
  induction fuel generalizing idx buf r with
  | zero => cases h
  | succ fuel ih =>
    rw [descWalk_succ] at h
    rw [chainReads]
    split at h
    · cases h
    · rename_i hidx
      split at h
      · split at h
        · rename_i hmore
          simp only [if_neg hidx, if_pos hmore, List.foldl_cons]
          exact ih h
        · rename_i hmore
          simp only [if_neg hidx, if_neg hmore, List.foldl_cons, List.foldl_nil]
          cases h
          rfl
      · cases h

/-- What the lists hold after the descriptors `xs`. -/
theorem side_foldl_add (xs : List DescReads) (buf : VqueueBuf) (w : Bool) :
    ((xs.foldl VqueueBuf.add buf).side w).total = (buf.side w).total + lens (ofSide w xs) ∧
      ((xs.foldl VqueueBuf.add buf).side w).len =
        (buf.side w).len + BitVec.ofNat 32 (lensAgain (ofSide w xs)) := by
  induction xs generalizing buf with
  | nil => simp [lens, lensAgain, ofSide]
  | cons x xs ih =>
    obtain ⟨h₁, h₂⟩ := ih (buf.add x)
    rw [List.foldl_cons, h₁, h₂, VqueueBuf.side_add, ofSide_cons]
    by_cases hx : decide x.write = w
    · rw [if_pos hx, if_pos hx, VqueueIovs.total_push]
      simp only [lens, lensAgain, List.map_cons, List.sum_cons, VqueueIovs.push,
        BitVec.ofNat_add, BitVec.ofNat_toNat, BitVec.setWidth_eq, Nat.add_assoc,
        BitVec.add_assoc, and_self]
    · rw [if_neg hx, if_neg hx]
      exact ⟨rfl, rfl⟩

/-- The total of a list is what it recorded. -/
def VqueueIovs.LenIsTotal (l : VqueueIovs) : Prop := l.len.toNat = l.total

/-- A sum in 32 bits is a given sum exactly if that fits and is congruent to it. -/
theorem toNat_ofNat_eq_iff (a b : ℕ) :
    (BitVec.ofNat 32 a).toNat = b ↔ b < 2 ^ 32 ∧ a ≡ b [MOD 2 ^ 32] := by
  rw [BitVec.toNat_ofNat, Nat.ModEq]
  constructor
  · rintro rfl
    exact ⟨Nat.mod_lt _ (by decide), (Nat.mod_mod _ _).symm⟩
  · rintro ⟨hb, h⟩
    rw [h, Nat.mod_eq_of_lt hb]

/-- A call without an error took all descriptors that the reads present. -/
theorem getAvailBuf_noError {vq vq' : Vqueue} {iovbuf : VqueueBuf} {r r' : ρ}
    (h : vqueueGetAvailBufLocked rd vq iovbuf r = .ok (noError, buf, vq', r')) :
    buf = (presentedReads rd vq iovbuf r).foldl VqueueBuf.add
      (iovbuf.cleared (readHead rd vq r).1) := by
  rw [getAvailBufLocked_eq] at h
  split at h
  · cases h
  · split at h
    · cases h
    · split at h
      · cases h
      · split at h
        · cases h
        · split at h
          · cases h
          · split at h
            · cases h
            · rename_i hw
              cases h
              exact descWalk_noError hw

/-- **Totals.**  When the call returns without an error, the totals of the two lists are the
sums of the recorded lengths for exactly those answers whose lengths are honest. -/
theorem getAvailBuf_totals_iff {rd : RingReads ρ} {vq vq' : Vqueue} {iovbuf buf : VqueueBuf}
    {r r' : ρ} (h : vqueueGetAvailBufLocked rd vq iovbuf r = .ok (noError, buf, vq', r')) :
    (buf.inIovs.LenIsTotal ∧ buf.outIovs.LenIsTotal) ↔
      HonestLens (presentedReads rd vq iovbuf r) := by
  rw [HonestLens, Bool.forall_bool]
  have hside : ∀ w, (buf.side w).LenIsTotal ↔ lens (ofSide w (presentedReads rd vq iovbuf r)) <
      2 ^ 32 ∧ lensAgain (ofSide w (presentedReads rd vq iovbuf r)) ≡
        lens (ofSide w (presentedReads rd vq iovbuf r)) [MOD 2 ^ 32] := by
    intro w
    obtain ⟨h₁, h₂⟩ := side_foldl_add (presentedReads rd vq iovbuf r)
      (iovbuf.cleared (readHead rd vq r).1) w
    have htotal : ((iovbuf.cleared (readHead rd vq r).1).side w).total = 0 := by
      cases w <;> rfl
    have hlen : ((iovbuf.cleared (readHead rd vq r).1).side w).len = 0#32 := by
      cases w <;> rfl
    rw [← getAvailBuf_noError h, htotal, Nat.zero_add] at h₁
    rw [← getAvailBuf_noError h, hlen, BitVec.zero_add] at h₂
    rw [VqueueIovs.LenIsTotal, h₁, h₂, toNat_ofNat_eq_iff]
  exact and_congr (hside false) (hside true)

/-- Reads of a ring with one readable descriptor, whose length is `first` when it is read for
the first time and `again` from then on; the reads of the length are counted. -/
def flippingReads (first again : Word) : RingReads ℕ where
  availIdx n := (1, n)
  availRing _ n := (0, n)
  descAddr _ n := (0x20000000, n)
  descLen _ n := (if n = 0 then first else again, n + 1)
  descFlags _ n := (0, n)
  descNext _ n := (0, n)

theorem getAvailBuf_totals_flipping : ∃ buf vq' n,
    vqueueGetAvailBufLocked (flippingReads 64 64) ringOfFour (VqueueBuf.empty 1 1) 0 =
        .ok (noError, buf, vq', n) ∧
      ((buf.inIovs.LenIsTotal ∧ buf.outIovs.LenIsTotal) ↔
        HonestLens (presentedReads (flippingReads 64 64) ringOfFour (VqueueBuf.empty 1 1) 0)) :=
  ⟨_, _, _, rfl, getAvailBuf_totals_iff rfl⟩

/-- A length of 64 that is 1514 when it is read again. -/
theorem getAvailBuf_total_flipped : ∃ buf vq' n,
    vqueueGetAvailBufLocked (flippingReads 64 1514) ringOfFour (VqueueBuf.empty 1 1) 0 =
        .ok (noError, buf, vq', n) ∧ buf.inIovs.len = 1514 ∧ buf.inIovs.total = 64 :=
  ⟨_, _, _, rfl, rfl, rfl⟩

end TrustedGateway
