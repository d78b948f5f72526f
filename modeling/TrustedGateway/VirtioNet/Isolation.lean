import TrustedGateway.VirtioNet.FlushTx
import TrustedGateway.VirtioNet.Receive

/-!
# Which physical memory the copies touch

The address translation vouches for single addresses: `core_mmu_get_va` answers for the
address it is asked about.  The virtual NIC asks for the start of a descriptor and touches as
many bytes as the descriptor is long.  So the bytes touched lie in the normal world's memory
exactly when the descriptors do, as far as they are used.
-/

namespace TrustedGateway

open BatchLoop StepSystem

variable {M : Type} {env : Env}

/-! ## The region -/

/-- The non-secure RAM, and where it is mapped. -/
structure NsecRam where
  lo : ℕ
  size : ℕ
  vbase : ℕ

namespace NsecRam

/-- A physical address of the region. -/
def Has (R : NsecRam) (pa : ℤ) : Prop := R.lo ≤ pa ∧ pa < R.lo + R.size

/-- The physical address behind a virtual one, by the linear map. -/
def phys (R : NsecRam) (v : ℕ) : ℤ := R.lo + v - R.vbase

/-- The block of `n` bytes at the physical address `a` lies in the region. -/
def Covers (R : NsecRam) (a n : ℕ) : Prop := ∀ k < n, R.Has ((a + k : ℕ) : ℤ)

/-- The assumption on the translation: an address gets a virtual address exactly when it lies
in the region, and the virtual address has the same offset from the start. -/
structure Maps (R : NsecRam) (va : Word → Word) : Prop where
  iff : ∀ pa, va pa ≠ 0 ↔ R.Has pa.toNat
  linear : ∀ pa, va pa ≠ 0 → (va pa).toNat + R.lo = R.vbase + pa.toNat

variable {R : NsecRam}

theorem Maps.phys_add {va : Word → Word} (h : R.Maps va) {pa : Word} (hpa : va pa ≠ 0) (k : ℕ) :
    R.phys ((va pa).toNat + k) = ((pa.toNat + k : ℕ) : ℤ) := by
  have hlin := h.linear pa hpa
  simp only [phys]
  omega

theorem covers_zero (R : NsecRam) (a : ℕ) : R.Covers a 0 := nofun

theorem covers_of_le {a n : ℕ} (h : R.lo ≤ a) (h' : a + n ≤ R.lo + R.size) : R.Covers a n := by
  intro k hk
  simp only [Has]
  omega

theorem covers_add_iff {a m n : ℕ} :
    R.Covers a (m + n) ↔ R.Covers a m ∧ R.Covers (a + m) n := by
  constructor
  · intro h
    refine ⟨fun k hk => h k (by omega), fun k hk => ?_⟩
    rw [Nat.add_assoc]
    exact h (m + k) (by omega)
  · rintro ⟨h₁, h₂⟩ k hk
    by_cases hm : k < m
    · exact h₁ k hm
    · have := h₂ (k - m) (by omega)
      rwa [show a + m + (k - m) = a + k by omega] at this

end NsecRam

/-- Every byte of the normal world's side of a copy lies in the region. -/
def Memcpy.Inside (R : NsecRam) (c : Memcpy) : Prop := ∀ k < c.len, R.Has (R.phys (c.iov + k))

variable {R : NsecRam}

/-- A copy at an offset from a translated address. -/
theorem inside_iff_covers {va : Word → Word} (h : R.Maps va) {pa : Word} (hpa : va pa ≠ 0)
    (buf off n : ℕ) :
    Memcpy.Inside R ⟨buf, (va pa).toNat + off, n⟩ ↔ R.Covers (pa.toNat + off) n := by
  simp only [Memcpy.Inside, NsecRam.Covers, Nat.add_assoc, h.phys_add hpa]

theorem inside_orNone_iff {va : Word → Word} (h : R.Maps va) {pa : Word} (hpa : va pa ≠ 0)
    (buf off n : ℕ) :
    (∀ c ∈ Memcpy.orNone ⟨buf, (va pa).toNat + off, n⟩, c.Inside R) ↔
      R.Covers (pa.toNat + off) n := by
  by_cases hn : n = 0
  · subst hn
    simp [Memcpy.orNone, R.covers_zero]
  · simp [Memcpy.orNone, hn, inside_iff_covers h hpa]

/-! ## Receiving -/

/-- Every byte `virtio_net_receive` writes through a mapped iovec lies in the region. -/
def RxIsolated (R : NsecRam) (env : Env) (w : Net M) (bufs : List (Option BufId)) : Prop :=
  ∀ ob s, RxVisits env w bufs ob s → ∀ b s' buf, RxReaches s ob b s' buf →
    let f := rxFill env s'.vq.lastAvailIdx buf (s'.pool.eb b) (s'.sec b) s'.nw
    ∀ c ∈ f.hdrCalls ++ f.dataCalls, c.Inside R

/-- The descriptor that is filled for a packet lies in the region. -/
def RxInside (R : NsecRam) (env : Env) (s : RxState) (ob : Option BufId) : Prop :=
  ∀ b s' buf, RxReaches s ob b s' buf → RxCopies env s'.vq.nextDesc (s'.pool.eb b) →
    R.Covers (s'.vq.nextDesc.addr.setWidth 32).toNat s'.vq.nextDesc.len.toNat

/-- The two copies of an iteration make up the descriptor. -/
theorem rxCalls_inside_iff (h : R.Maps env.va) (d : VringDesc) (e : EthBuf) :
    (∀ c ∈ rxHdrCalls env d e ++ rxDataCalls env d e, c.Inside R) ↔
      (RxCopies env d e → R.Covers (d.addr.setWidth 32).toNat d.len.toNat) := by
  by_cases hc : RxCopies env d e
  · have hhdr := inside_orNone_iff h hc.2 0 0 (min vnetHdrLen d.len.toNat)
    have hdata := inside_orNone_iff h hc.2 e.dataOff.toNat vnetHdrLen (d.len.toNat - vnetHdrLen)
    simp only [Nat.add_zero] at hhdr
    simp only [rxHdrCalls, rxDataCalls, hc, if_true, rxBase, List.forall_mem_append, hhdr, hdata,
      true_imp_iff]
    by_cases h12 : vnetHdrLen ≤ d.len.toNat
    · have hsum : d.len.toNat = vnetHdrLen + (d.len.toNat - vnetHdrLen) := by omega
      rw [min_eq_left h12, ← NsecRam.covers_add_iff, ← hsum]
    · have hz : d.len.toNat - vnetHdrLen = 0 := by omega
      rw [min_eq_right (by omega), hz]
      exact and_iff_left (R.covers_zero _)
  · simp [rxHdrCalls, rxDataCalls, hc]

theorem rxIsolated_iff (h : R.Maps env.va) (w : Net M) (bufs : List (Option BufId)) :
    RxIsolated R env w bufs ↔ ∀ ob s, RxVisits env w bufs ob s → RxInside R env s ob := by
  refine forall₃_congr fun ob s _ => forall₄_congr fun b s' buf hr => ?_
  obtain ⟨out, hf⟩ := hr.fill env s'.vq.lastAvailIdx (s'.sec b) s'.nw
  rw [hf]
  exact rxCalls_inside_iff h _ _

/-! ## Transmitting -/

/-- Every byte `virtio_net_flush_tx` reads through a mapped iovec lies in the region. -/
def TxIsolated (R : NsecRam) (env : Env) (w : Net M) : Prop :=
  ∀ s, TxVisits env w s → ∀ buf, TxReaches s buf →
    let t := txInspect env s.vq.lastAvailIdx w.nw buf
    ∀ c ∈ t.hdrCalls ++ t.dataCalls, c.Inside R

/-- The pieces of a chain lie in the region as far as `n` bytes reach. -/
def CoversChain (R : NsecRam) : List Piece → ℕ → Prop
  | [], _ => True
  | p :: ps, n =>
    R.Covers p.phys.toNat (min n p.iov.len.toNat) ∧
      CoversChain R ps (n - min n p.iov.len.toNat)

/-- What is read of a chain lies in the region: the header, and if it is plain all of the
first piece and the others as far as the frame reaches. -/
def TxInside (R : NsecRam) (env : Env) (nw : ℕ → Byte) (buf : VqueueBuf) : Prop :=
  ∀ p ps, buf.inIovs.pieces = p :: ps → TxMapped env buf → txLenOk buf p.iov.len →
    R.Covers p.phys.toNat vnetHdrLen ∧
      (TxPlain env nw p → R.Covers p.phys.toNat p.iov.len.toNat ∧
        CoversChain R ps ((txTotal buf).toNat - (p.iov.len.toNat - vnetHdrLen)))

theorem spread_inside_iff (h : R.Maps env.va) {ps : List Piece}
    (hps : ∀ p ∈ ps, env.va p.phys ≠ 0) (buf n : ℕ) :
    (∀ c ∈ spread (txIovs env ps) buf n, c.Inside R) ↔ CoversChain R ps n := by
  induction ps generalizing buf n with
  | nil => simp [txIovs, mapped, spread, CoversChain]
  | cons p ps ih =>
    have hp : env.va p.phys ≠ 0 := hps p List.mem_cons_self
    have hcons : txIovs env (p :: ps) = ⟨env.va p.phys, p.iov.len⟩ :: txIovs env ps := rfl
    have hone := inside_orNone_iff h hp buf 0 (min n p.iov.len.toNat)
    simp only [Nat.add_zero] at hone
    rw [hcons, spread, List.forall_mem_append, hone,
      ih fun q hq => hps q (List.mem_cons_of_mem p hq)]
    rfl

/-- The copies made for a chain. -/
theorem txCalls_inside_iff (h : R.Maps env.va) {idx : Half} {nw : ℕ → Byte} {buf : VqueueBuf}
    {p : Piece} {ps : List Piece} (hps : buf.inIovs.pieces = p :: ps) (hf : buf.Filled) :
    (∀ c ∈ (txInspect env idx nw buf).hdrCalls ++ (txInspect env idx nw buf).dataCalls,
      c.Inside R) ↔ TxInside R env nw buf := by
  have hin : TxInside R env nw buf ↔ (TxMapped env buf → txLenOk buf p.iov.len →
      R.Covers p.phys.toNat vnetHdrLen ∧
        (TxPlain env nw p → R.Covers p.phys.toNat p.iov.len.toNat ∧
          CoversChain R ps ((txTotal buf).toNat - (p.iov.len.toNat - vnetHdrLen)))) := by
    constructor
    · intro H
      exact H p ps hps
    · intro H q qs hq
      rw [hps] at hq
      cases hq
      exact H
  rw [hin]
  have hhdr : TxMapped env buf → ((∀ c ∈ txHdrCalls env p, c.Inside R) ↔
      R.Covers p.phys.toNat vnetHdrLen) := by
    intro hmap
    have hp : env.va p.phys ≠ 0 := hmap p (by rw [hps]; exact List.mem_cons_self)
    simpa [txHdrCalls, txBase] using inside_iff_covers h hp 0 0 vnetHdrLen
  have hj := txInspect_judged env idx nw hps hf
  generalize txInspect env idx nw buf = r at hj ⊢
  cases hj with
  | queue hmap hlen hplain =>
    have hp : env.va p.phys ≠ 0 := hmap p (by rw [hps]; exact List.mem_cons_self)
    have hmaps : ∀ q ∈ ps, env.va q.phys ≠ 0 := fun q hq =>
      hmap q (by rw [hps]; exact List.mem_cons_of_mem p hq)
    have h12 := hlen.bounds.1
    have hsum : p.iov.len.toNat = vnetHdrLen + (p.iov.len.toNat - vnetHdrLen) := by omega
    have hcov : R.Covers p.phys.toNat p.iov.len.toNat ↔ R.Covers p.phys.toNat vnetHdrLen ∧
        R.Covers (p.phys.toNat + vnetHdrLen) (p.iov.len.toNat - vnetHdrLen) := by
      rw [← NsecRam.covers_add_iff, ← hsum]
    simp only [hmap, hlen, hplain, true_imp_iff, List.forall_mem_append, hhdr hmap, txDataCalls,
      txBase, inside_orNone_iff h hp, spread_inside_iff h hmaps, hcov]
    rw [and_assoc, and_self_left]
  | badHeader inn hmap hlen hplain =>
    simp only [hmap, hlen, hplain, true_imp_iff, List.append_nil, hhdr hmap, false_imp_iff,
      and_true]
  | drop inn hmap hlen => simp [hlen]
  | unmapped ret inn hmap hseen => simp [hmap]

theorem txIsolated_iff (h : R.Maps env.va) (w : Net M) :
    TxIsolated R env w ↔
      ∀ s, TxVisits env w s → ∀ buf, TxReaches s buf → TxInside R env w.nw buf := by
  refine forall₄_congr fun s _ buf hr => ?_
  obtain ⟨hf, -, p, ps, hps⟩ := hr.taken.tx
  exact txCalls_inside_iff h hps hf

/-- The non-secure RAM of the board. -/
def NsecRam.board : NsecRam := ⟨0x10000000, 0x3e000000, 0x10000000⟩

theorem board_va_of_has {pa : Word} (h : NsecRam.board.Has pa.toNat) : Env.board.va pa = pa := by
  obtain ⟨h₁, h₂⟩ := h
  refine if_pos ⟨BitVec.le_def.mpr ?_, BitVec.lt_def.mpr ?_⟩
  · simp only [NsecRam.board] at h₁
    exact_mod_cast h₁
  · simp only [NsecRam.board] at h₂
    exact_mod_cast h₂

theorem has_of_board_va {pa : Word} (h : Env.board.va pa ≠ 0) : NsecRam.board.Has pa.toNat := by
  have hc : (0x10000000 : Word) ≤ pa ∧ pa < 0x4e000000 := by
    by_contra hc
    exact h (if_neg hc)
  have h₁ : 0x10000000 ≤ pa.toNat := BitVec.le_def.mp hc.1
  have h₂ : pa.toNat < 0x4e000000 := BitVec.lt_def.mp hc.2
  simp only [NsecRam.Has, NsecRam.board]
  omega

theorem maps_board : NsecRam.board.Maps Env.board.va where
  iff pa := by
    refine ⟨has_of_board_va, fun h h0 => ?_⟩
    rw [board_va_of_has h] at h0
    subst h0
    exact absurd h.1 (by decide)
  linear pa h := by
    rw [board_va_of_has (has_of_board_va h), Nat.add_comm]
    rfl

end TrustedGateway
