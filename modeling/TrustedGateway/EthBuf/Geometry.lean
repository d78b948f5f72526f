import TrustedGateway.EthBuf
import TrustedGateway.Lib.Run

/-!
# Where the data of a buffer lies

A buffer has a capacity, and its data lies at an offset in it.  Five functions move the data:
`skb_reserve` and `skb_put` from the drivers' side, `skb_pull`, which is `bstgw_ethbuf_precut`,
`bstgw_ethbuf_prepend`, and the reset when a buffer goes back to the pool.

Four of them keep the data inside of the buffer.  The check of `skb_reserve` is the wrong way
around: it panics when there is room, and when there is none it moves the offset behind the end.
-/

namespace TrustedGateway

open StepSystem

namespace EthBuf

/-- The data lies within the buffer. -/
def InBounds (e : EthBuf) : Prop := e.dataOff.toNat + e.dataLen.toNat ≤ e.bufCap.toNat

instance (e : EthBuf) : Decidable e.InBounds := inferInstanceAs (Decidable (_ ≤ _))

/-- The bytes behind the data. -/
def room (e : EthBuf) : ℕ := e.bufCap.toNat - (e.dataOff.toNat + e.dataLen.toNat)

/-- `size_t` arithmetic finds the room of a buffer that is in bounds. -/
theorem InBounds.toNat_room {e : EthBuf} (h : e.InBounds) :
    (e.bufCap - (e.dataOff + e.dataLen)).toNat = e.room := by
  unfold InBounds at h
  unfold room
  bv_omega

end EthBuf

/-! ## The functions -/

/-- `skb_reserve`.  The capacity is an `int` and the offset a `size_t`, so the comparison is one of
unsigned numbers. -/
def skbReserve (e : EthBuf) (len : Word) : Except Abort EthBuf :=
  if len ≤ e.bufCap - e.dataOff then .error (.panic "")
  else .ok { e with dataOff := e.dataOff + len }

/-- `skb_put`. -/
def skbPut (e : EthBuf) (len : Word) : Except Abort EthBuf :=
  if e.bufCap - (e.dataOff + e.dataLen) < len then
    .error (.panic "skb_put not enough free buffer space")
  else .ok { e with dataLen := e.dataLen + len }

/-- `bstgw_ethbuf_precut`, which is also `skb_pull`: a pointer to the new start of the data, or
`NULL`. -/
def ethbufPrecut (e : EthBuf) (len : Word) : Option ℕ × EthBuf :=
  if e.dataLen < len then (none, e)
  else
    let e' := { e with dataOff := e.dataOff + len, dataLen := e.dataLen - len }
    (some e'.dataOff.toNat, e')

/-- `bstgw_ethbuf_prepend`. -/
def ethbufPrepend (e : EthBuf) (len : Word) : Option ℕ × EthBuf :=
  if e.dataOff < len then (none, e)
  else
    let e' := { e with dataOff := e.dataOff - len, dataLen := e.dataLen + len }
    (some e'.dataOff.toNat, e')

/-- A call on a buffer of the pool. -/
inductive GeomOp
  | reserve (b : BufId) (len : Word)
  | put (b : BufId) (len : Word)
  | precut (b : BufId) (len : Word)
  | prepend (b : BufId) (len : Word)
  | free (b : BufId)
  | alloc
  deriving DecidableEq, Repr

/-- One call. -/
def geomStep (p : EthPool) : GeomOp → Except Abort EthPool
  | .reserve b len => (skbReserve (p.eb b) len).map (p.setEb b)
  | .put b len => (skbPut (p.eb b) len).map (p.setEb b)
  | .precut b len => .ok (p.setEb b (ethbufPrecut (p.eb b) len).2)
  | .prepend b len => .ok (p.setEb b (ethbufPrepend (p.eb b) len).2)
  | .free b => .ok (p.bufFree b)
  | .alloc => p.bufAlloc.map Prod.snd

/-- The buffers of the pool. -/
def EthPool.bufs (p : EthPool) : List BufId := p.freeList ++ p.inuseList

/-- The call is for a buffer of the pool, and the `int` that `skb_reserve` gets is not negative. -/
def GeomAllows (p : EthPool) : GeomOp → Prop
  | .reserve b len => b ∈ p.bufs ∧ len.toNat < 2 ^ 31
  | .put b _ | .precut b _ | .prepend b _ | .free b => b ∈ p.bufs
  | .alloc => True

instance (p : EthPool) (op : GeomOp) : Decidable (GeomAllows p op) := by
  cases op <;> dsimp only [GeomAllows] <;> infer_instance

/-- All buffers are in bounds and have the capacity with which `bstgw_ethpool_increase` makes
them. -/
structure PoolGeometry (p : EthPool) : Prop where
  bounds : ∀ b ∈ p.bufs, (p.eb b).InBounds
  cap : ∀ b ∈ p.bufs, (p.eb b).bufCap = bstgwDefaultBufSize

/-! ## What a call should do -/

/-- A cut that is refused changes nothing, one that is accepted does not move the end of the
data. -/
def KeepsEnd (e : EthBuf) (r : Option ℕ × EthBuf) : Prop :=
  (r.1 = none → r.2 = e) ∧
    (r.1 ≠ none → r.2.dataOff.toNat + r.2.dataLen.toNat = e.dataOff.toNat + e.dataLen.toNat)

/-- After the call all buffers are in bounds; cuts keep the end; and only missing room is a reason
to panic. -/
structure GeomOk (p : EthPool) (op : GeomOp) : Prop where
  bounds : ∀ p', geomStep p op = .ok p' → ∀ b ∈ p'.bufs, (p'.eb b).InBounds
  precut : ∀ b len, op = .precut b len → KeepsEnd (p.eb b) (ethbufPrecut (p.eb b) len)
  prepend : ∀ b len, op = .prepend b len → KeepsEnd (p.eb b) (ethbufPrepend (p.eb b) len)
  panics : ∀ b len, op = .reserve b len ∨ op = .put b len →
    (∃ e, geomStep p op = .error e) → (p.eb b).room < len.toNat

/-- `skb_reserve` is called for more than there is behind the data, but not for more than there is
behind the offset. -/
def ReservesBetween (p : EthPool) (op : GeomOp) : Prop :=
  ∀ b len, op = .reserve b len →
    (p.eb b).room < len.toNat ∧ len.toNat ≤ (p.eb b).bufCap.toNat - (p.eb b).dataOff.toNat

/-! ## One buffer -/

section Buffer

variable {e e' : EthBuf} {len : Word}

/-- A reservation panics exactly if there is room behind the offset. -/
theorem skbReserve_eq (h : e.InBounds) (len : Word) :
    skbReserve e len =
      if len.toNat ≤ e.bufCap.toNat - e.dataOff.toNat then .error (.panic "")
      else .ok { e with dataOff := e.dataOff + len } := by
  have hsub : (e.bufCap - e.dataOff).toNat = e.bufCap.toNat - e.dataOff.toNat := by
    unfold EthBuf.InBounds at h
    bv_omega
  simp only [skbReserve, BitVec.le_def, hsub]

/-- A reservation that does not panic leaves the buffer. -/
theorem not_inBounds_of_skbReserve (h : e.InBounds) (hcap : e.bufCap = bstgwDefaultBufSize)
    (hlen : len.toNat < 2 ^ 31) (hr : skbReserve e len = .ok e') : ¬ e'.InBounds := by
  rw [skbReserve_eq h] at hr
  split at hr
  · cases hr
  · rename_i hlong
    cases hr
    have hc : e.bufCap.toNat = 2048 := by rw [hcap]; rfl
    simp only [EthBuf.InBounds, BitVec.toNat_add] at h ⊢
    omega

theorem skbPut_eq (h : e.InBounds) (len : Word) :
    skbPut e len =
      if e.room < len.toNat then .error (.panic "skb_put not enough free buffer space")
      else .ok { e with dataLen := e.dataLen + len } := by
  simp only [skbPut, BitVec.lt_def, h.toNat_room]

theorem inBounds_of_skbPut (h : e.InBounds) (hr : skbPut e len = .ok e') :
    e'.InBounds ∧ e'.bufCap = e.bufCap := by
  rw [skbPut_eq h] at hr
  split at hr
  · cases hr
  · rename_i hroom
    cases hr
    refine ⟨?_, rfl⟩
    simp only [EthBuf.InBounds, EthBuf.room, BitVec.toNat_add] at h hroom ⊢
    omega

theorem keepsEnd_precut (h : e.InBounds) (len : Word) : KeepsEnd e (ethbufPrecut e len) := by
  unfold ethbufPrecut
  split
  · exact ⟨fun _ => rfl, fun hne => absurd rfl hne⟩
  · rename_i hle
    refine ⟨fun hnone => by simp at hnone, fun _ => ?_⟩
    unfold EthBuf.InBounds at h
    rw [BitVec.not_lt, BitVec.le_def] at hle
    simp only [BitVec.toNat_add, BitVec.toNat_sub]
    omega

theorem keepsEnd_prepend (h : e.InBounds) (len : Word) : KeepsEnd e (ethbufPrepend e len) := by
  unfold ethbufPrepend
  split
  · exact ⟨fun _ => rfl, fun hne => absurd rfl hne⟩
  · rename_i hle
    refine ⟨fun hnone => by simp at hnone, fun _ => ?_⟩
    unfold EthBuf.InBounds at h
    rw [BitVec.not_lt, BitVec.le_def] at hle
    simp only [BitVec.toNat_add, BitVec.toNat_sub]
    omega

/-- A buffer that keeps its end and its capacity stays in bounds. -/
theorem KeepsEnd.inBounds {r : Option ℕ × EthBuf} (hr : KeepsEnd e r) (h : e.InBounds)
    (hcap : r.2.bufCap = e.bufCap) : r.2.InBounds := by
  by_cases hnone : r.1 = none
  · rw [hr.1 hnone]
    exact h
  · rw [EthBuf.InBounds, hr.2 hnone, hcap]
    exact h

theorem bufCap_precut (e : EthBuf) (len : Word) : (ethbufPrecut e len).2.bufCap = e.bufCap := by
  unfold ethbufPrecut
  split <;> rfl

theorem bufCap_prepend (e : EthBuf) (len : Word) : (ethbufPrepend e len).2.bufCap = e.bufCap := by
  unfold ethbufPrepend
  split <;> rfl

theorem inBounds_bufReset (e : EthBuf) : (EthPool.bufReset e).InBounds := Nat.zero_le _

end Buffer

/-! ## The pool -/

section Pool

variable {p p' : EthPool} {b : BufId} {e : EthBuf}

@[simp] theorem bufs_setEb (p : EthPool) (b : BufId) (e : EthBuf) :
    (p.setEb b e).bufs = p.bufs := rfl

theorem mem_bufs_bufFree (hb : b ∈ p.bufs) (c : BufId) :
    c ∈ (p.bufFree b).bufs ↔ c ∈ p.bufs := by
  by_cases hcb : c = b
  · subst hcb
    exact iff_of_true List.mem_cons_self hb
  · simp [EthPool.bufs, EthPool.bufFree, hcb, List.mem_erase_of_ne]

theorem mem_bufs_bufAlloc (h : p.bufAlloc = .ok (b, p')) (c : BufId) :
    c ∈ p'.bufs ↔ c ∈ p.bufs := by
  obtain ⟨hfree, -, hinuse⟩ := EthPool.bufAlloc_eq_ok h
  simp only [EthPool.bufs, hfree, hinuse, List.mem_append, List.mem_cons]
  tauto

/-- A changed header that is right keeps the pool right. -/
theorem PoolGeometry.setEb (h : PoolGeometry p) (hin : b ∈ p.bufs → e.InBounds)
    (hcap : e.bufCap = (p.eb b).bufCap) : PoolGeometry (p.setEb b e) := by
  refine ⟨fun c hc => ?_, fun c hc => ?_⟩ <;> rw [bufs_setEb] at hc
  · by_cases hcb : c = b
    · subst hcb
      rw [EthPool.eb_setEb_self]
      exact hin hc
    · rw [EthPool.eb_setEb_of_ne _ hcb]
      exact h.bounds c hc
  · by_cases hcb : c = b
    · subst hcb
      rw [EthPool.eb_setEb_self, hcap]
      exact h.cap c hc
    · rw [EthPool.eb_setEb_of_ne _ hcb]
      exact h.cap c hc

theorem PoolGeometry.bufFree (h : PoolGeometry p) (hb : b ∈ p.bufs) :
    PoolGeometry (p.bufFree b) := by
  refine ⟨fun c hc => ?_, fun c hc => ?_⟩ <;> rw [mem_bufs_bufFree hb] at hc
  · by_cases hcb : c = b
    · subst hcb
      rw [EthPool.eb_bufFree_self]
      exact inBounds_bufReset _
    · rw [EthPool.eb_bufFree_of_ne _ hcb]
      exact h.bounds c hc
  · by_cases hcb : c = b
    · subst hcb
      rw [EthPool.eb_bufFree_self]
      exact h.cap c hc
    · rw [EthPool.eb_bufFree_of_ne _ hcb]
      exact h.cap c hc

theorem PoolGeometry.bufAlloc (h : PoolGeometry p) (ha : p.bufAlloc = .ok (b, p')) :
    PoolGeometry p' := by
  obtain ⟨-, heb, -⟩ := EthPool.bufAlloc_eq_ok ha
  refine ⟨fun c hc => ?_, fun c hc => ?_⟩ <;> rw [mem_bufs_bufAlloc ha] at hc <;> rw [heb]
  · exact h.bounds c hc
  · exact h.cap c hc

/-- Calls other than `skb_reserve` keep the pool right. -/
theorem poolGeometry_geomStep {op : GeomOp} (h : PoolGeometry p) (ha : GeomAllows p op)
    (hop : ∀ b len, op ≠ .reserve b len) (hs : geomStep p op = .ok p') : PoolGeometry p' := by
  cases op with
  | reserve b len => exact absurd rfl (hop b len)
  | put b len =>
    obtain ⟨e, he, rfl⟩ := exists_ok_of_map hs
    obtain ⟨hin, hcap⟩ := inBounds_of_skbPut (h.bounds b ha) he
    exact h.setEb (fun _ => hin) hcap
  | precut b len =>
    cases hs
    have hcap := bufCap_precut (p.eb b) len
    exact h.setEb (fun hb => (keepsEnd_precut (h.bounds b hb) len).inBounds (h.bounds b hb) hcap)
      hcap
  | prepend b len =>
    cases hs
    have hcap := bufCap_prepend (p.eb b) len
    exact h.setEb (fun hb => (keepsEnd_prepend (h.bounds b hb) len).inBounds (h.bounds b hb) hcap)
      hcap
  | free b =>
    cases hs
    exact h.bufFree ha
  | alloc =>
    obtain ⟨⟨c, q⟩, hq, rfl⟩ := exists_ok_of_map hs
    exact h.bufAlloc hq

/-- An error of a call is one of the function it is made of. -/
theorem error_of_map_error {α β : Type} {x : Except Abort α} {f : α → β} {a : Abort}
    (h : x.map f = .error a) : x = .error a := by
  cases x with
  | error a' =>
    cases h
    rfl
  | ok a' => cases h

/-- **One call does what it should exactly if it is no reservation outside of the gap.** -/
theorem geomOk_iff {op : GeomOp} (h : PoolGeometry p) (ha : GeomAllows p op) :
    GeomOk p op ↔ ReservesBetween p op := by
  constructor
  · rintro hok b len rfl
    have hin := h.bounds b ha.1
    by_cases hle : len.toNat ≤ (p.eb b).bufCap.toNat - (p.eb b).dataOff.toNat
    · -- the call panics, so there is no room
      have herr : geomStep p (.reserve b len) = .error (.panic "") := by
        rw [geomStep, skbReserve_eq hin, if_pos hle]
        rfl
      exact ⟨hok.panics b len (.inl rfl) ⟨_, herr⟩, hle⟩
    · -- the call leaves the buffer
      have hr : skbReserve (p.eb b) len =
          .ok { p.eb b with dataOff := (p.eb b).dataOff + len } := by
        rw [skbReserve_eq hin, if_neg hle]
      have hs : geomStep p (.reserve b len) =
          .ok (p.setEb b { p.eb b with dataOff := (p.eb b).dataOff + len }) := by
        rw [geomStep, hr]
        rfl
      have hout := not_inBounds_of_skbReserve hin (h.cap b ha.1) ha.2 hr
      refine absurd (hok.bounds _ hs b ha.1) ?_
      rwa [EthPool.eb_setEb_self]
  · intro hgap
    constructor
    case bounds =>
      intro p' hs
      by_cases hop : ∃ b len, op = .reserve b len
      · obtain ⟨b, len, rfl⟩ := hop
        rw [geomStep, skbReserve_eq (h.bounds b ha.1), if_pos (hgap b len rfl).2] at hs
        cases hs
      · exact (poolGeometry_geomStep h ha (fun b len hc => hop ⟨b, len, hc⟩) hs).bounds
    case precut =>
      rintro b len rfl
      exact keepsEnd_precut (h.bounds b ha) len
    case prepend =>
      rintro b len rfl
      exact keepsEnd_prepend (h.bounds b ha) len
    case panics =>
      rintro b len (rfl | rfl) ⟨a, herr⟩
      · exact (hgap b len rfl).1
      · have hput := error_of_map_error herr
        rw [skbPut_eq (h.bounds b ha)] at hput
        split at hput
        · rename_i hroom
          exact hroom
        · cases hput

/-- A call that does what it should keeps the capacities as well. -/
theorem poolGeometry_of_geomOk {op : GeomOp} (h : PoolGeometry p) (ha : GeomAllows p op)
    (hok : GeomOk p op) (hs : geomStep p op = .ok p') : PoolGeometry p' := by
  refine poolGeometry_geomStep h ha ?_ hs
  rintro b len rfl
  have hgap := (geomOk_iff h ha).mp hok b len rfl
  rw [geomStep, skbReserve_eq (h.bounds b ha.1), if_pos hgap.2] at hs
  cases hs

end Pool

/-- **Buffer geometry along calls.**  Whatever is called on the buffers of a pool, in whatever
order and with whatever lengths, every call does what it should exactly if `skb_reserve` is only
called for more than there is behind the data, but not for more than there is behind the offset. -/
theorem geometry_iff {p : EthPool} (h : PoolGeometry p) {ops : List GeomOp}
    (ha : EachStep geomStep GeomAllows p ops) :
    EachStep geomStep GeomOk p ops ↔ EachStep geomStep ReservesBetween p ops :=
  eachStep_iff (fun _ _ _ h ha hok hs => poolGeometry_of_geomOk h ha hok hs)
    (fun _ _ h ha => geomOk_iff h ha) ha h

/-- A pool of two free buffers. -/
def twoBufs : EthPool where
  eb _ := ⟨none, 0, 0, 0, 0, 0, bstgwDefaultBufSize, 0⟩
  freeList := [0, 1]
  inuseList := []
  capacity := 2
  released := []
  nodup := by decide

/-- A frame that loses its header and gets a new one. -/
def reheader : List GeomOp :=
  [.alloc, .put 0 60, .precut 0 14, .prepend 0 14, .precut 0 61, .prepend 0 1, .free 0, .alloc]

/-- Without `skb_reserve` every call does what it should. -/
theorem geometry_reheader :
    EachStep geomStep GeomAllows twoBufs reheader ∧ EachStep geomStep GeomOk twoBufs reheader := by
  have ha : EachStep geomStep GeomAllows twoBufs reheader := by decide
  have hno : EachStep geomStep (fun _ op => ∀ b len, op ≠ .reserve b len) twoBufs reheader := by
    simp [reheader, EachStep]
  have hgap : EachStep geomStep ReservesBetween twoBufs reheader :=
    hno.imp fun p op hop b len hc => absurd hc (hop b len)
  exact ⟨ha, (geometry_iff ⟨fun _ _ => Nat.zero_le _, fun _ _ => rfl⟩ ha).mpr hgap⟩

/-- On a new buffer of 2048 bytes, `skb_reserve` of 16 bytes panics, and of 2049 bytes moves the
data behind the end of the buffer. -/
theorem skbReserve_inverted :
    (twoBufs.eb 0).room = 2048 ∧ geomStep twoBufs (.reserve 0 16) = .error (.panic "") ∧
      ∃ p, geomStep twoBufs (.reserve 0 2049) = .ok p ∧ (p.eb 0).dataOff = 2049 ∧
        ¬ (p.eb 0).InBounds :=
  ⟨by decide, rfl, _, rfl, by decide, by decide⟩

end TrustedGateway
