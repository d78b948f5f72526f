import TrustedGateway.Lib.Ring
import TrustedGateway.Vqueue.HostileWalk

/-!
# A queue between two running sides

The driver and the device of a virtqueue run at the same time, and the normal world does not wait
for the device's lock.  Here the driver may act between any two accesses of the device to the
rings: a chain is taken through reads each of which is preceded by a batch of driver moves, and a
head is given back in three separate stores.

The driver is the one of the virtio specification.  It stores a head in the next slot of the avail
ring and then increments the index, it has at most `num` heads outstanding, and it takes entries
off the used ring in order.  That the heads it stores are free is not needed.

The four counters are free-running and 16 bits wide; what they count is kept in four unbounded
logs.  The invariant relates each counter to the length of its log and each ring to a window of its
log, so the wrap-around of a counter is no case of its own.
-/

namespace TrustedGateway

open StepSystem RingWindow

/-! ## Walks over arbitrary reads -/

/-- Every read keeps the predicate. -/
structure RingReads.Keeps {ρ : Type} (rd : RingReads ρ) (I : ρ → Prop) : Prop where
  availIdx : ∀ r, I r → I (rd.availIdx r).2
  availRing : ∀ k r, I r → I (rd.availRing k r).2
  descAddr : ∀ k r, I r → I (rd.descAddr k r).2
  descLen : ∀ k r, I r → I (rd.descLen k r).2
  descFlags : ∀ k r, I r → I (rd.descFlags k r).2
  descNext : ∀ k r, I r → I (rd.descNext k r).2

theorem RingReads.Keeps.readDesc {ρ : Type} {rd : RingReads ρ} {I : ρ → Prop} (h : rd.Keeps I)
    (k : ℕ) {r : ρ} (hr : I r) : I (readDesc rd k r).2 :=
  h.descFlags k _ (h.descNext k _ (h.descLen k _ (h.descAddr k _ (h.descLen k _
    (h.descFlags k r hr)))))

/-- A walk ends whatever it reads, does not change the head, and keeps what every read keeps. -/
theorem descWalk_keeps {ρ : Type} {rd : RingReads ρ} {I : ρ → Prop} (hrd : rd.Keeps I) (num : ℕ) :
    ∀ (fuel : ℕ) (idx : Half) (buf : VqueueBuf) (r : ρ), buf.room < fuel → I r →
      ∃ ret buf' r', descWalk rd num fuel idx buf r = .ok (ret, buf', r') ∧
        ret ≠ errNotEnoughBuffer ∧ buf'.head = buf.head ∧ I r' := by
  intro fuel
  induction fuel with
  | zero => intro idx buf r hroom _; omega
  | succ fuel ih =>
    intro idx buf r hroom hr
    have hround := hrd.readDesc idx.toNat hr
    rw [descWalk_succ]
    split
    · exact ⟨errNotValid, buf, r, rfl, by decide, rfl, hr⟩
    split
    · rename_i hadd
      rw [← flags_readDesc] at hadd
      have hlt := hadd.room_add_lt
      split
      · obtain ⟨ret, buf', r', hwalk, hret, hhead, hI⟩ :=
          ih (readDesc rd idx.toNat r).1.next (buf.add (readDesc rd idx.toNat r).1) _ (by omega)
            hround
        exact ⟨ret, buf', r', hwalk, hret, hhead.trans VqueueBuf.head_add, hI⟩
      · exact ⟨noError, _, _, rfl, by decide, VqueueBuf.head_add, hround⟩
    · exact ⟨errTooBig, buf, _, rfl, by decide, rfl, hrd.descFlags _ r hr⟩

/-! ## The driver -/

/-- The driver, with the rings it shares. -/
structure Driver where
  mem : RingMem
  /-- a head that is stored in its slot but not published yet -/
  pending : Option Half
  /-- the heads published so far, oldest first -/
  published : List Half
  lastUsedIdx : Half
  /-- the used entries taken so far, oldest first -/
  seen : List VringUsedElem

inductive DriverMove
  /-- write a descriptor -/
  | describe (k : ℕ) (d : VringDesc)
  /-- write `avail->flags` -/
  | flags (f : Half)
  /-- store a head in the next slot of the avail ring -/
  | store (head : Half)
  /-- increment `avail->idx` -/
  | publish
  /-- take the next entry off the used ring, if there is one -/
  | consume
  deriving DecidableEq, Repr

namespace Driver

/-- The heads the driver has given away and not got back. -/
def outstanding (d : Driver) : ℕ := d.published.length + d.pending.toList.length - d.seen.length

/-- A move of a driver with a queue of `num` entries; what a conforming driver would not do, it does
not do. -/
def move (num : ℕ) (d : Driver) : DriverMove → Driver
  | .describe k x => { d with mem := { d.mem with desc := Function.update d.mem.desc k x } }
  | .flags f => { d with mem := { d.mem with avail := { d.mem.avail with flags := f } } }
  | .store head =>
    if d.pending = none ∧ head.toNat < num ∧ d.outstanding < num then
      { d with
        pending := some head
        mem := { d.mem with avail := { d.mem.avail with
          ring := Function.update d.mem.avail.ring (d.mem.avail.idx.toNat % num) head } } }
    else d
  | .publish =>
    match d.pending with
    | none => d
    | some head =>
      { d with
        pending := none
        published := d.published ++ [head]
        mem := { d.mem with avail := { d.mem.avail with idx := d.mem.avail.idx + 1 } } }
  | .consume =>
    if d.lastUsedIdx = d.mem.used.idx then d
    else
      { d with
        lastUsedIdx := d.lastUsedIdx + 1
        seen := d.seen ++ [d.mem.used.ring (d.lastUsedIdx.toNat % num)] }

/-- The driver runs up to the device's next read: its moves before that read, and before the later
ones. -/
def advance (num : ℕ) (r : Driver × List (List DriverMove)) : Driver × List (List DriverMove) :=
  ((r.2.headD []).foldl (move num) r.1, r.2.tail)

end Driver

/-- Reads of the device while the driver runs. -/
def interleaved (num : ℕ) : RingReads (Driver × List (List DriverMove)) where
  availIdx r := ((Driver.advance num r).1.mem.avail.idx, Driver.advance num r)
  availRing k r := ((Driver.advance num r).1.mem.avail.ring k, Driver.advance num r)
  descAddr k r := (((Driver.advance num r).1.mem.desc k).addr, Driver.advance num r)
  descLen k r := (((Driver.advance num r).1.mem.desc k).len, Driver.advance num r)
  descFlags k r := (((Driver.advance num r).1.mem.desc k).flags, Driver.advance num r)
  descNext k r := (((Driver.advance num r).1.mem.desc k).next, Driver.advance num r)

/-! ## Both sides -/

/-- Where the device is with the chain it took. -/
inductive DevicePhase
  | idle
  | holding (buf : VqueueBuf)
  /-- `used->id` is stored -/
  | wroteId (buf : VqueueBuf)
  /-- `used->len` is stored too -/
  | wroteElem (elem : VringUsedElem)
  deriving DecidableEq, Repr

/-- A queue in operation.  The rings are in `driver.mem`. -/
structure Link where
  vq : Vqueue
  driver : Driver
  phase : DevicePhase
  /-- the heads `vqueue_get_avail_buf` returned so far -/
  obtained : List Half
  /-- the entries `vqueue_add_buf` was called for so far -/
  added : List VringUsedElem

namespace Link

/-- The device takes a chain, with the driver's moves before each of its reads. -/
def get (l : Link) (cntIn cntOut : ℕ) (script : List (List DriverMove)) : Except Abort Link :=
  match vqueueGetAvailBufLocked (interleaved l.vq.vring.num) l.vq (.empty cntIn cntOut)
      (l.driver, script) with
  | .error a => .error a
  | .ok (ret, buf, vq, r) =>
    if ret = errNotEnoughBuffer then .ok { l with driver := r.1 }
    else
      .ok { l with
        vq := vq
        driver := r.1
        phase := .holding buf
        obtained := l.obtained ++ [buf.head] }

/-- The slot of the used ring that `vqueue_add_buf` fills. -/
def usedSlot (l : Link) : ℕ := l.driver.mem.used.idx.toNat % l.vq.vring.num

/-- Store into the used ring. -/
def storeUsed (l : Link) (e : VringUsedElem) : Link :=
  { l with driver := { l.driver with mem := { l.driver.mem with used := { l.driver.mem.used with
      ring := Function.update l.driver.mem.used.ring l.usedSlot e } } } }

/-- `used->id = buf->head`. -/
def addId (l : Link) (buf : VqueueBuf) : Link :=
  if l.vq.vringAddr = 0 ∨ l.vq.vring.num ≤ buf.head.toNat then { l with phase := .idle }
  else
    { l.storeUsed { l.driver.mem.used.ring l.usedSlot with id := buf.head.setWidth 32 } with
      phase := .wroteId buf }

/-- `used->len = len`. -/
def addLen (l : Link) (buf : VqueueBuf) (len : Word) : Link :=
  { l.storeUsed { l.driver.mem.used.ring l.usedSlot with len := len } with
    phase := .wroteElem ⟨buf.head.setWidth 32, len⟩ }

/-- `vq->vring.used->idx++`. -/
def addIdx (l : Link) (elem : VringUsedElem) : Link :=
  { l with
    driver := { l.driver with mem := { l.driver.mem with used := { l.driver.mem.used with
      idx := l.driver.mem.used.idx + 1 } } }
    phase := .idle
    added := l.added ++ [elem] }

end Link

inductive LinkEvent
  | driver (m : DriverMove)
  | get (cntIn cntOut : ℕ) (script : List (List DriverMove))
  | addId
  | addLen (len : Word)
  | addIdx
  deriving DecidableEq, Repr

/-- A move of one of the sides.  The device takes a chain and gives it back before it takes the
next; events out of that order do nothing. -/
def linkStep (l : Link) : LinkEvent → Except Abort Link
  | .driver m => .ok { l with driver := l.driver.move l.vq.vring.num m }
  | .get cntIn cntOut script =>
    match l.phase with
    | .idle => l.get cntIn cntOut script
    | _ => .ok l
  | .addId =>
    match l.phase with
    | .holding buf => .ok (l.addId buf)
    | _ => .ok l
  | .addLen len =>
    match l.phase with
    | .wroteId buf => .ok (l.addLen buf len)
    | _ => .ok l
  | .addIdx =>
    match l.phase with
    | .wroteElem elem => .ok (l.addIdx elem)
    | _ => .ok l

/-- The three stores are `vqueue_add_buf`. -/
theorem addBuf_eq_stores {l : Link} {buf : VqueueBuf} (len : Word) (haddr : l.vq.vringAddr ≠ 0)
    (hused : l.vq.vring.used ≠ 0) (hhead : buf.head.toNat < l.vq.vring.num) :
    vqueueAddBuf { l.vq with shared := l.driver.mem } buf len =
      .ok (noError, { l.vq with
        shared := (((l.addId buf).addLen buf len).addIdx ⟨buf.head.setWidth 32, len⟩).driver.mem
        returned := l.vq.returned ++ [⟨buf.head.setWidth 32, len⟩] }) := by
  have hnot : ¬ (l.vq.vringAddr = 0 ∨ l.vq.vring.num ≤ buf.head.toNat) :=
    not_or.mpr ⟨haddr, Nat.not_le.mpr hhead⟩
  simp only [vqueueAddBuf, if_neg haddr, if_neg hused, if_neg (Nat.not_le.mpr hhead), Link.addId,
    if_neg hnot, Link.addLen, Link.addIdx, Link.storeUsed, Link.usedSlot, Function.update_self,
    Function.update_idem]

/-- Both rings are queues.  The device obtained the published heads in their order, gave exactly
these back, and the driver saw what the device added in its order; and equal counters mean that
there is nothing left to obtain, or to see. -/
structure Refines (l : Link) : Prop where
  obtained : l.obtained <+: l.driver.published
  ids : l.added.map (·.id) <+: l.obtained.map (·.setWidth 32)
  seen : l.driver.seen <+: l.added
  availEmpty : l.vq.lastAvailIdx = l.driver.mem.avail.idx ↔ l.obtained = l.driver.published
  usedEmpty : l.driver.lastUsedIdx = l.driver.mem.used.idx ↔ l.driver.seen = l.added

/-! ## The invariant of the driver's side -/

/-- What holds of the rings between any two accesses, when the device obtained `got`, added
`added` and has stored `written` in the used ring without publishing it. -/
structure DriverInv (num : ℕ) (got : List Half) (added written : List VringUsedElem)
    (d : Driver) : Prop where
  availIdx : d.mem.avail.idx = BitVec.ofNat 16 d.published.length
  usedIdx : d.mem.used.idx = BitVec.ofNat 16 added.length
  lastUsedIdx : d.lastUsedIdx = BitVec.ofNat 16 d.seen.length
  heads : ∀ h ∈ d.published ++ d.pending.toList, h.toNat < num
  room : (d.published ++ d.pending.toList).length ≤ d.seen.length + num
  obtained : got <+: d.published
  seen : d.seen <+: added
  returned : added.length + written.length ≤ got.length
  avail : Window d.mem.avail.ring num (d.published ++ d.pending.toList) got.length
  used : Window d.mem.used.ring num (added ++ written) d.seen.length

/-- The logs are close enough for the counters. -/
theorem DriverInv.lengths {num : ℕ} {got : List Half} {added written : List VringUsedElem}
    {d : Driver} (h : DriverInv num got added written d) :
    d.seen.length ≤ added.length ∧ added.length ≤ got.length ∧
      got.length ≤ d.published.length ∧ d.published.length ≤ d.seen.length + num := by
  have h₁ := h.seen.length_le
  have h₂ := h.obtained.length_le
  have h₃ := h.returned
  have h₄ := h.room
  rw [List.length_append] at h₄
  omega

theorem prefix_snoc {α : Type} {xs ys : List α} {y : α} (h : xs <+: ys)
    (hy : ys[xs.length]? = some y) : xs ++ [y] <+: ys := by
  obtain ⟨zs, rfl⟩ := h
  rw [List.getElem?_append_right (Nat.le_refl _), Nat.sub_self] at hy
  cases zs with
  | nil => cases hy
  | cons z zs =>
    cases hy
    exact ⟨zs, by rw [List.append_assoc]; rfl⟩

section Moves

variable {num : ℕ} {got : List Half} {added written : List VringUsedElem} {d : Driver}

/-- A stored head extends the window of the avail ring. -/
theorem driverInv_store (hnum : num ∣ 2 ^ 16) (h : DriverInv num got added written d)
    {head : Half} (hpending : d.pending = none) (hhead : head.toNat < num)
    (hout : d.outstanding < num) :
    DriverInv num got added written { d with
      pending := some head
      mem := { d.mem with avail := { d.mem.avail with
        ring := Function.update d.mem.avail.ring (d.mem.avail.idx.toNat % num) head } } } := by
  have hlen := h.lengths
  have hfree : d.published.length < d.seen.length + num := by
    simp only [Driver.outstanding, hpending, Option.toList_none, List.length_nil] at hout
    omega
  have havail := h.avail
  have hheads := h.heads
  rw [hpending, Option.toList_none, List.append_nil] at havail hheads
  refine { h with heads := ?_, room := ?_, avail := ?_ }
  · intro x hx
    rcases List.mem_append.mp hx with hx | hx
    · exact hheads x hx
    · rw [Option.toList_some, List.mem_singleton] at hx
      rwa [hx]
  · simp only [Option.toList_some, List.length_append, List.length_singleton]
    omega
  · dsimp only
    rw [h.availIdx, toNat_counter_mod hnum]
    exact havail.push (by omega) head

/-- Publishing moves the stored head from the one log to the other. -/
theorem driverInv_publish (h : DriverInv num got added written d) {head : Half}
    (hpending : d.pending = some head) :
    DriverInv num got added written { d with
      pending := none
      published := d.published ++ [head]
      mem := { d.mem with avail := { d.mem.avail with idx := d.mem.avail.idx + 1 } } } := by
  have hlog : d.published ++ d.pending.toList = d.published ++ [head] ++ Option.toList none := by
    rw [hpending, Option.toList_some, Option.toList_none, List.append_nil]
  refine { h with
    availIdx := ?_
    heads := hlog ▸ h.heads
    room := hlog ▸ h.room
    obtained := ?_
    avail := hlog ▸ h.avail }
  · dsimp only
    rw [h.availIdx, List.length_append]
    exact counter_succ _
  · exact h.obtained.trans (List.prefix_append _ _)

/-- The entry the driver takes is the next one the device added. -/
theorem driverInv_consume (hnum : num ∣ 2 ^ 16) (hlt : num < 2 ^ 16)
    (h : DriverInv num got added written d) (hne : d.lastUsedIdx ≠ d.mem.used.idx) :
    DriverInv num got added written { d with
      lastUsedIdx := d.lastUsedIdx + 1
      seen := d.seen ++ [d.mem.used.ring (d.lastUsedIdx.toNat % num)] } := by
  have hlen := h.lengths
  have hmore : d.seen.length < added.length := by
    rw [h.lastUsedIdx, h.usedIdx, Ne, counter_eq_iff (by omega) (by omega)] at hne
    omega
  have hnext : added[d.seen.length]? = some (d.mem.used.ring (d.lastUsedIdx.toNat % num)) := by
    have hget := h.used.get (Nat.le_refl _) (by rw [List.length_append]; omega)
    rwa [List.getElem?_append_left hmore, ← toNat_counter_mod hnum, ← h.lastUsedIdx] at hget
  have hroom := h.room
  refine { h with lastUsedIdx := ?_, room := ?_, seen := prefix_snoc h.seen hnext, used := ?_ }
  · dsimp only
    rw [h.lastUsedIdx, List.length_append]
    exact counter_succ _
  · simp only [List.length_append, List.length_singleton] at hroom ⊢
    omega
  · dsimp only
    refine h.used.drop ?_
    rw [List.length_append]
    exact Nat.le_add_right _ _

/-- A move of the driver keeps the invariant, whatever the device is doing. -/
theorem driverInv_move (hnum : num ∣ 2 ^ 16) (hlt : num < 2 ^ 16)
    (h : DriverInv num got added written d) (m : DriverMove) :
    DriverInv num got added written (d.move num m) ∧
      d.published.length ≤ (d.move num m).published.length := by
  cases m with
  | describe k x | flags f => exact ⟨{ h with }, Nat.le_refl _⟩
  | store head =>
    dsimp only [Driver.move]
    split
    · rename_i hok
      exact ⟨driverInv_store hnum h hok.1 hok.2.1 hok.2.2, Nat.le_refl _⟩
    · exact ⟨h, Nat.le_refl _⟩
  | publish =>
    dsimp only [Driver.move]
    split
    · exact ⟨h, Nat.le_refl _⟩
    · rename_i head hpending
      refine ⟨driverInv_publish h hpending, ?_⟩
      rw [List.length_append]
      exact Nat.le_add_right _ _
  | consume =>
    dsimp only [Driver.move]
    split
    · exact ⟨h, Nat.le_refl _⟩
    · rename_i hne
      exact ⟨driverInv_consume hnum hlt h hne, Nat.le_refl _⟩

/-- So does a batch of moves, and with it every read of the device; `n` heads that were published
stay published. -/
theorem driverInv_advance (hnum : num ∣ 2 ^ 16) (hlt : num < 2 ^ 16) {n : ℕ}
    {r : Driver × List (List DriverMove)}
    (h : DriverInv num got added written r.1 ∧ n ≤ r.1.published.length) :
    DriverInv num got added written (Driver.advance num r).1 ∧
      n ≤ (Driver.advance num r).1.published.length := by
  obtain ⟨d, script⟩ := r
  simp only [Driver.advance]
  generalize script.headD [] = ms
  dsimp only at h
  induction ms generalizing d with
  | nil => exact h
  | cons m ms ih =>
    have hm := driverInv_move hnum hlt h.1 m
    exact ih _ ⟨hm.1, h.2.trans hm.2⟩

theorem keeps_interleaved (hnum : num ∣ 2 ^ 16) (hlt : num < 2 ^ 16) (n : ℕ) :
    (interleaved num).Keeps fun r =>
      DriverInv num got added written r.1 ∧ n ≤ r.1.published.length :=
  ⟨fun _ => driverInv_advance hnum hlt, fun _ _ => driverInv_advance hnum hlt,
    fun _ _ => driverInv_advance hnum hlt, fun _ _ => driverInv_advance hnum hlt,
    fun _ _ => driverInv_advance hnum hlt, fun _ _ => driverInv_advance hnum hlt⟩

end Moves

/-! ## The device's side -/

section Device

variable {num : ℕ} {got : List Half} {added written : List VringUsedElem}

/-- Taking the next published head. -/
theorem driverInv_take {d : Driver} (h : DriverInv num got added written d)
    (hmore : got.length + 1 ≤ d.published.length) :
    DriverInv num (got ++ [d.mem.avail.ring (got.length % num)]) added written d := by
  have hnext : d.published[got.length]? = some (d.mem.avail.ring (got.length % num)) := by
    have hget := h.avail.get (Nat.le_refl _) (by rw [List.length_append]; omega)
    rwa [List.getElem?_append_left hmore] at hget
  have hreturned := h.returned
  refine { h with obtained := prefix_snoc h.obtained hnext, returned := ?_, avail := ?_ }
  · rw [List.length_append]
    omega
  · refine h.avail.drop ?_
    rw [List.length_append]
    exact Nat.le_add_right _ _

/-- **The device takes a chain while the driver runs.**  Either everything published was obtained
before, or the next published head is returned; no `panic` is reached. -/
theorem getAvailBuf_interleaved (hnum : num ∣ 2 ^ 16) (hlt : num < 2 ^ 16) {vq : Vqueue}
    (hvq : vq.vring.num = num) (haddr : vq.vringAddr ≠ 0) (havail : vq.vring.avail ≠ 0)
    (hlast : vq.lastAvailIdx = BitVec.ofNat 16 got.length) (cntIn cntOut : ℕ)
    (r : Driver × List (List DriverMove)) (h : DriverInv num got added written r.1) :
    (∃ buf r', vqueueGetAvailBufLocked (interleaved num) vq (.empty cntIn cntOut) r =
        .ok (errNotEnoughBuffer, buf, vq, r') ∧ DriverInv num got added written r'.1) ∨
      ∃ ret buf r', vqueueGetAvailBufLocked (interleaved num) vq (.empty cntIn cntOut) r =
        .ok (ret, buf, { vq with
          lastAvailIdx := vq.lastAvailIdx + 1
          taken := vq.taken ++ [buf.head] }, r') ∧ ret ≠ errNotEnoughBuffer ∧
        DriverInv num (got ++ [buf.head]) added written r'.1 := by
  -- the driver runs before each of the three reads
  obtain ⟨r₁, h₁⟩ : ∃ r₁, Driver.advance num r = r₁ := ⟨_, rfl⟩
  obtain ⟨r₂, h₂⟩ : ∃ r₂, Driver.advance num r₁ = r₂ := ⟨_, rfl⟩
  obtain ⟨r₃, h₃⟩ : ∃ r₃, Driver.advance num r₂ = r₃ := ⟨_, rfl⟩
  have hidx₁ : (interleaved num).availIdx r = (r₁.1.mem.avail.idx, r₁) := by rw [← h₁]; rfl
  have hidx₂ : (interleaved num).availIdx r₁ = (r₂.1.mem.avail.idx, r₂) := by rw [← h₂]; rfl
  have hring : ∀ k, (interleaved num).availRing k r₂ = (r₃.1.mem.avail.ring k, r₃) := by
    rw [← h₃]
    exact fun _ => rfl
  have hr₁ := (h₁ ▸ driverInv_advance hnum hlt (n := 0) ⟨h, Nat.zero_le _⟩).1
  have hr₂ := (h₂ ▸ driverInv_advance hnum hlt (n := 0) ⟨hr₁, Nat.zero_le _⟩).1
  have hlen₁ := hr₁.lengths
  have hlen₂ := hr₂.lengths
  -- the counters are at most `num` apart
  have hrange : ¬ vq.vring.num % 2 ^ 16 < (r₁.1.mem.avail.idx - vq.lastAvailIdx).toNat := by
    rw [hvq, Nat.mod_eq_of_lt hlt, hr₁.availIdx, hlast, toNat_counter_sub (by omega) (by omega)]
    omega
  simp only [vqueueGetAvailBufLocked, if_neg haddr, if_neg havail, hidx₁, if_neg hrange, hidx₂,
    hring]
  split
  · exact Or.inl ⟨_, _, rfl, hr₂⟩
  · rename_i hne
    -- a head is published, and stays in its slot until it is read
    have hmore : got.length + 1 ≤ r₂.1.published.length := by
      rw [hlast, hr₂.availIdx, counter_eq_iff (by omega) (by omega)] at hne
      omega
    obtain ⟨hr₃, hmore₃⟩ := h₃ ▸ driverInv_advance hnum hlt ⟨hr₂, hmore⟩
    have htake := driverInv_take hr₃ hmore₃
    have hslot : vq.lastAvailIdx.toNat % vq.vring.num = got.length % num := by
      rw [hlast, hvq, toNat_counter_mod hnum]
    rw [hslot]
    generalize r₃.1.mem.avail.ring (got.length % num) = head at htake
    have hhead : head.toNat < num := by
      refine htake.heads head (List.mem_append_left _ (htake.obtained.subset ?_))
      exact List.mem_append_right _ (List.mem_singleton_self head)
    rw [if_neg (by rw [hvq]; exact Nat.not_le.mpr hhead), hvq]
    obtain ⟨ret, buf, r', hwalk, hret, hbuf, hr', -⟩ :=
      descWalk_keeps (keeps_interleaved hnum hlt 0) num (cntIn + cntOut + 1) head
        ⟨head, ⟨cntIn, 0, []⟩, ⟨cntOut, 0, []⟩⟩ r₃
        (by simp [VqueueBuf.room, VqueueIovs.used]) ⟨htake, Nat.zero_le _⟩
    refine Or.inr ⟨ret, buf, r', ?_, hret, hbuf ▸ hr'⟩
    simp only [VqueueBuf.empty, hwalk, hbuf]

end Device

/-! ## The invariant of the link -/

/-- The entry that is stored but not published. -/
def DevicePhase.written : DevicePhase → List VringUsedElem
  | .wroteElem e => [e]
  | _ => []

/-- The head that is not given back yet. -/
def DevicePhase.ids : DevicePhase → List Word
  | .idle => []
  | .holding buf => [buf.head.setWidth 32]
  | .wroteId buf => [buf.head.setWidth 32]
  | .wroteElem e => [e.id]

structure LinkInv (num : ℕ) (l : Link) : Prop where
  size : l.vq.vring.num = num
  addr : l.vq.vringAddr ≠ 0
  avail : l.vq.vring.avail ≠ 0
  last : l.vq.lastAvailIdx = BitVec.ofNat 16 l.obtained.length
  ids : l.added.map (·.id) ++ l.phase.ids = l.obtained.map (·.setWidth 32)
  slot : ∀ buf, l.phase = .wroteId buf →
    (l.driver.mem.used.ring l.usedSlot).id = buf.head.setWidth 32
  driver : DriverInv num l.obtained l.added l.phase.written l.driver

section Steps

variable {num : ℕ} {l : Link} (h : LinkInv num l)
include h

theorem refines_of_linkInv (hlt : num < 2 ^ 16) : Refines l := by
  have hlen := h.driver.lengths
  refine ⟨h.driver.obtained, ⟨l.phase.ids, h.ids⟩, h.driver.seen, ?_, ?_⟩
  · rw [h.last, h.driver.availIdx, counter_eq_iff (by omega) (by omega)]
    exact ⟨h.driver.obtained.eq_of_length, congrArg List.length⟩
  · rw [h.driver.lastUsedIdx, h.driver.usedIdx, counter_eq_iff (by omega) (by omega)]
    exact ⟨h.driver.seen.eq_of_length, congrArg List.length⟩

/-- The head in the device's hands is one the driver published. -/
theorem head_lt {buf : VqueueBuf} (hids : l.phase.ids = [buf.head.setWidth 32]) :
    buf.head.toNat < num := by
  have hmem : buf.head.setWidth 32 ∈ l.obtained.map (·.setWidth 32) := by
    rw [← h.ids, hids]
    exact List.mem_append_right _ (List.mem_singleton_self _)
  obtain ⟨head, hhead, heq⟩ := List.mem_map.mp hmem
  have hval := congrArg BitVec.toNat heq
  simp only [BitVec.toNat_setWidth] at hval
  have := h.driver.heads head (List.mem_append_left _ (h.driver.obtained.subset hhead))
  omega

/-- While a head is in the device's hands there is room for its entry. -/
theorem added_lt_of_ids {e : Word} (hids : l.phase.ids = [e]) :
    l.added.length + 1 ≤ l.obtained.length := by
  have := congrArg List.length h.ids
  simp only [hids, List.length_append, List.length_map, List.length_singleton] at this
  omega

omit h in
/-- The driver does not write the used ring. -/
theorem used_move (d : Driver) (m : DriverMove) : (d.move num m).mem.used = d.mem.used := by
  cases m with
  | describe k x | flags f => rfl
  | store head | publish | consume => dsimp only [Driver.move]; split <;> rfl

theorem linkInv_driver (hnum : num ∣ 2 ^ 16) (hlt : num < 2 ^ 16) (m : DriverMove) :
    LinkInv num { l with driver := l.driver.move l.vq.vring.num m } := by
  have hmove := (driverInv_move hnum hlt h.driver m).1
  rw [h.size]
  refine { h with slot := fun buf hbuf => ?_, driver := hmove }
  have hslot := h.slot buf hbuf
  dsimp only [Link.usedSlot] at hslot ⊢
  rwa [used_move]

/-- The device takes a chain: no abort, and the head it returns is the next one. -/
theorem linkInv_get (hnum : num ∣ 2 ^ 16) (hlt : num < 2 ^ 16) (hidle : l.phase = .idle)
    (cntIn cntOut : ℕ) (script : List (List DriverMove)) :
    ∃ l', l.get cntIn cntOut script = .ok l' ∧ LinkInv num l' := by
  have hdriver := h.driver
  rw [hidle] at hdriver
  rw [Link.get, h.size]
  rcases getAvailBuf_interleaved hnum hlt h.size h.addr h.avail h.last cntIn cntOut
    (l.driver, script) hdriver with ⟨buf, r', hget, hr'⟩ | ⟨ret, buf, r', hget, hret, hr'⟩
  · rw [hget]
    refine ⟨_, rfl, { h with slot := fun buf' hbuf => ?_, driver := hidle ▸ hr' }⟩
    dsimp only at hbuf
    rw [hidle] at hbuf
    cases hbuf
  · rw [hget]
    refine ⟨_, if_neg hret, ⟨h.size, h.addr, h.avail, ?_, ?_, nofun, hr'⟩⟩
    · dsimp only
      rw [h.last, List.length_append]
      exact counter_succ _
    · have hids := h.ids
      rw [hidle] at hids
      simp only [DevicePhase.ids, List.append_nil] at hids
      simp only [DevicePhase.ids, List.map_append, List.map_cons, List.map_nil, hids]

/-- A store in the slot behind the added entries leaves the window alone. -/
theorem window_storeUsed (hnum : num ∣ 2 ^ 16) (e : VringUsedElem)
    (hroom : l.added.length < l.driver.seen.length + num)
    (hw : Window l.driver.mem.used.ring num l.added l.driver.seen.length) :
    Window (l.storeUsed e).driver.mem.used.ring num (l.added ++ [e]) l.driver.seen.length := by
  have hslot : l.usedSlot = l.added.length % num := by
    rw [Link.usedSlot, h.driver.usedIdx, h.size, toNat_counter_mod hnum]
  simp only [Link.storeUsed, hslot]
  exact hw.push hroom e

theorem linkInv_addId (hnum : num ∣ 2 ^ 16) {buf : VqueueBuf} (hph : l.phase = .holding buf) :
    LinkInv num (l.addId buf) := by
  have hids : l.phase.ids = [buf.head.setWidth 32] := by rw [hph]; rfl
  have hhead := head_lt h hids
  have hroom := added_lt_of_ids h hids
  have hlen := h.driver.lengths
  have hdriver := h.driver
  have hlog := h.ids
  rw [hph] at hdriver hlog
  have hused := hdriver.used
  simp only [DevicePhase.written, List.append_nil] at hused
  have hcheck : ¬ (l.vq.vringAddr = 0 ∨ l.vq.vring.num ≤ buf.head.toNat) := by
    rw [h.size]
    exact not_or.mpr ⟨h.addr, Nat.not_le.mpr hhead⟩
  rw [Link.addId, if_neg hcheck]
  refine ⟨h.size, h.addr, h.avail, h.last, hlog, fun buf' hbuf => ?_, { hdriver with used := ?_ }⟩
  · cases hbuf
    simp [Link.storeUsed, Link.usedSlot]
  · have hw := window_storeUsed h hnum
      { l.driver.mem.used.ring l.usedSlot with id := buf.head.setWidth 32 } (by omega) hused
    simp only [DevicePhase.written, List.append_nil]
    -- the entry is not complete: the window stays where it was
    exact ⟨hused.fits, fun k x hk hx => hw.cell k x hk (List.getElem?_append_left
      (List.getElem?_eq_some_iff.mp hx).1 ▸ hx)⟩

theorem linkInv_addLen (hnum : num ∣ 2 ^ 16) {buf : VqueueBuf} (hph : l.phase = .wroteId buf)
    (len : Word) : LinkInv num (l.addLen buf len) := by
  have hids : l.phase.ids = [buf.head.setWidth 32] := by rw [hph]; rfl
  have hroom := added_lt_of_ids h hids
  have hlen := h.driver.lengths
  have hdriver := h.driver
  have hlog := h.ids
  rw [hph] at hdriver hlog
  have hused := hdriver.used
  simp only [DevicePhase.written, List.append_nil] at hused
  refine ⟨h.size, h.addr, h.avail, h.last, hlog, nofun, { hdriver with
    returned := hroom
    used := ?_ }⟩
  have helem : { l.driver.mem.used.ring l.usedSlot with len := len } =
      (⟨buf.head.setWidth 32, len⟩ : VringUsedElem) := by
    rw [← h.slot buf hph]
  simp only [Link.addLen, DevicePhase.written, helem]
  exact window_storeUsed h hnum ⟨buf.head.setWidth 32, len⟩ (by omega) hused

theorem linkInv_addIdx {elem : VringUsedElem} (hph : l.phase = .wroteElem elem) :
    LinkInv num (l.addIdx elem) := by
  have hdriver := h.driver
  have hlog := h.ids
  rw [hph] at hdriver hlog
  refine ⟨h.size, h.addr, h.avail, h.last, ?_, nofun, { hdriver with
    usedIdx := ?_
    seen := hdriver.seen.trans (List.prefix_append _ _)
    returned := ?_
    used := ?_ }⟩
  · simpa [Link.addIdx, DevicePhase.ids] using hlog
  · simp only [Link.addIdx, hdriver.usedIdx, List.length_append]
    exact counter_succ _
  · have := hdriver.returned
    simpa [Link.addIdx, DevicePhase.written] using this
  · have := hdriver.used
    simpa [Link.addIdx, DevicePhase.written] using this

/-- No move aborts, and every move keeps the invariant. -/
theorem linkStep_ok (hnum : num ∣ 2 ^ 16) (hlt : num < 2 ^ 16) (ev : LinkEvent) :
    ∃ l', linkStep l ev = .ok l' ∧ LinkInv num l' := by
  cases ev with
  | driver m => exact ⟨_, rfl, linkInv_driver h hnum hlt m⟩
  | get cntIn cntOut script =>
    simp only [linkStep]
    split
    · rename_i hidle
      exact linkInv_get h hnum hlt hidle cntIn cntOut script
    · exact ⟨l, rfl, h⟩
  | addId =>
    simp only [linkStep]
    split
    · rename_i buf hph
      exact ⟨_, rfl, linkInv_addId h hnum hph⟩
    · exact ⟨l, rfl, h⟩
  | addLen len =>
    simp only [linkStep]
    split
    · rename_i buf hph
      exact ⟨_, rfl, linkInv_addLen h hnum hph len⟩
    · exact ⟨l, rfl, h⟩
  | addIdx =>
    simp only [linkStep]
    split
    · rename_i elem hph
      exact ⟨_, rfl, linkInv_addIdx h hph⟩
    · exact ⟨l, rfl, h⟩

end Steps

/-! ## Whole runs -/

/-- A queue that was just set up, of the given size, with its rings in `mem`. -/
structure FreshQueue (num : ℕ) (vq : Vqueue) (mem : RingMem) : Prop where
  size : vq.vring.num = num
  addr : vq.vringAddr ≠ 0
  avail : vq.vring.avail ≠ 0
  used : vq.vring.used ≠ 0
  last : vq.lastAvailIdx = 0
  availIdx : mem.avail.idx = 0
  usedIdx : mem.used.idx = 0

/-- Nothing happened yet. -/
def Link.start (vq : Vqueue) (mem : RingMem) : Link :=
  ⟨vq, ⟨mem, none, [], 0, []⟩, .idle, [], []⟩

theorem linkInv_start {num : ℕ} {vq : Vqueue} {mem : RingMem} (h : FreshQueue num vq mem) :
    LinkInv num (Link.start vq mem) := by
  refine ⟨h.size, h.addr, h.avail, h.last, rfl, nofun, ?_⟩
  exact ⟨h.availIdx, h.usedIdx, rfl, nofun, Nat.zero_le _, List.nil_prefix, List.nil_prefix,
    Nat.zero_le _, window_nil, window_nil⟩

/-- A queue of two entries. -/
def Vqueue.sampleUp : Vqueue where
  vring := ⟨2, 2, 0x10000000, 0x10000020, 0x10001000⟩
  vringAddr := 0x10000000
  vringSz := 0
  vringAlign := 4096
  lastAvailIdx := 0
  shared := RingMem.zero
  taken := []
  returned := []

end TrustedGateway
