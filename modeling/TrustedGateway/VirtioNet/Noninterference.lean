import TrustedGateway.VirtioNet.Receive

/-!
# What the normal world learns from a receive call

Two calls of `virtio_net_receive` from secure memories that agree on the data of the packets
in the batch are run side by side.  What they have in common at every iteration is `Twin`:
the loop states differ in the secure memory alone, and there they still agree on the data of
the packets.  Linearizing a chain keeps this because it only moves data of packets; filling
a chain keeps it when the copy does not run past the data of the packet.
-/

namespace TrustedGateway

open FlatMemory BatchLoop StepSystem

variable {M : Type}

/-! ## The data of a batch -/

/-- The offsets of a packet's data in its buffer. -/
def EthBuf.data (e : EthBuf) : Set ℕ :=
  Set.Ico e.dataOff.toNat (e.dataOff.toNat + e.dataLen.toNat)

/-- The buffers of the packets of a batch, the chained ones included. -/
inductive InBatch (eb : BufId → EthBuf) (bufs : List (Option BufId)) : BufId → Prop
  | head {b : BufId} (h : some b ∈ bufs) : InBatch eb bufs b
  | next {b c : BufId} (hb : InBatch eb bufs b) (h : (eb b).next = some c) : InBatch eb bufs c

/-- Two secure memories hold the same data in the buffers `B`. -/
def AgreeOnData (eb : BufId → EthBuf) (B : BufId → Prop) (sec sec' : SecMem) : Prop :=
  ∀ b, B b → Set.EqOn (sec b) (sec' b) (eb b).data

/-- The next buffer of a chain in `B` is in `B`. -/
def ClosedChains (eb : BufId → EthBuf) (B : BufId → Prop) : Prop :=
  ∀ b c, B b → (eb b).next = some c → B c

variable {eb : BufId → EthBuf} {B : BufId → Prop}

variable {b : BufId} {d : VringDesc} {e : EthBuf} {ob : Option BufId} {p : EthPool} {s s' : RxState}
  {sec : SecMem}

theorem mem_ethbufChain (hB : ClosedChains eb B) {fuel : ℕ} {cs : List BufId} (hb : B b)
    (h : ethbufChain eb fuel b = some cs) : ∀ c ∈ cs, B c := by
  induction fuel generalizing b cs with
  | zero => cases h
  | succ fuel ih =>
    simp only [ethbufChain] at h
    split at h
    · cases h
      intro c hc
      rwa [List.mem_singleton.mp hc]
    · rename_i n hn
      obtain ⟨ds, hds, rfl⟩ := Option.map_eq_some_iff.mp h
      intro c hc
      rcases List.mem_cons.mp hc with rfl | hc
      · exact hb
      · exact ih (hB b n hb hn) hds c hc

/-! ## Linearizing -/

/-- Where `linearizeCopy` writes. -/
def linearizeDst (eb : BufId → EthBuf) (cs : List BufId) : Option ℕ → Set ℕ
  | none => ∅
  | some b => Set.Ico b (b + chainLen eb cs)

/-- Copying agreeing data into one of the buffers keeps the agreement. -/
theorem agreeOnData_update {sec' : SecMem} (h : AgreeOnData eb B sec sec') {c : BufId} (hc : B c)
    (dst : BufId) (d : ℕ) :
    AgreeOnData eb B
      (Function.update sec dst (copy (sec dst) d (sec c) (eb c).dataOff.toNat (eb c).dataLen.toNat))
      (Function.update sec' dst
        (copy (sec' dst) d (sec' c) (eb c).dataOff.toNat (eb c).dataLen.toNat)) := by
  intro b hb
  by_cases hd : b = dst
  · subst hd
    simp only [Function.update_self]
    exact (eqOn_copy (h b hb) (h c hc)).mono Set.subset_union_left
  · simp only [Function.update_of_ne hd]
    exact h b hb

/-- The copy loop of two agreeing memories ends alike, and what it wrote agrees. -/
theorem linearizeCopy_sameEnd (dst : BufId) (cs : List BufId) (hcs : ∀ c ∈ cs, B c)
    (b : Option ℕ) (sec sec' : SecMem) (A : Set ℕ) (h : AgreeOnData eb B sec sec')
    (hA : Set.EqOn (sec dst) (sec' dst) A) :
    SameEnd (fun t t' => AgreeOnData eb B t t' ∧
        Set.EqOn (t dst) (t' dst) (A ∪ linearizeDst eb cs b))
      (linearizeCopy eb dst cs b sec) (linearizeCopy eb dst cs b sec') := by
  induction cs generalizing b sec sec' A with
  | nil =>
    refine ⟨h, fun x hx => hA (hx.resolve_right ?_)⟩
    cases b <;> simp [linearizeDst, chainLen]
  | cons c cs ih =>
    have hc : B c := hcs c List.mem_cons_self
    have hrest : ∀ c ∈ cs, B c := fun c hc => hcs c (List.mem_cons_of_mem _ hc)
    cases hp : ethbufDataPtr (eb c) 0 with
    | none =>
      -- an empty buffer
      have h0 := ethbufDataPtr_zero_eq_none hp
      have hlen : chainLen eb (c :: cs) = chainLen eb cs := by
        simp only [chainLen, List.map_cons, List.sum_cons, h0]
        exact Nat.zero_add _
      have hdst : linearizeDst eb (c :: cs) b = linearizeDst eb cs b := by
        cases b <;> simp only [linearizeDst, hlen]
      have hi := ih hrest b sec sec' A h hA
      rw [hdst]
      cases b <;> simpa only [linearizeCopy, hp] using hi
    | some src =>
      cases b with
      | none =>
        simp only [linearizeCopy, hp]
        rfl
      | some b =>
        have hne : (eb c).dataLen ≠ 0 := by
          intro h0
          simp [ethbufDataPtr, h0] at hp
        rw [ethbufDataPtr_zero hne] at hp
        cases hp
        simp only [linearizeCopy, ethbufDataPtr_zero hne]
        have hi := ih hrest (some (b + (eb c).dataLen.toNat)) _ _
          (A ∪ Set.Ico b (b + (eb c).dataLen.toNat)) (agreeOnData_update h hc dst b) (by
            simp only [Function.update_self]
            exact eqOn_copy hA (h c hc))
        have hset : A ∪ Set.Ico b (b + (eb c).dataLen.toNat) ∪
            linearizeDst eb cs (some (b + (eb c).dataLen.toNat)) =
            A ∪ linearizeDst eb (c :: cs) (some b) := by
          ext x
          simp only [linearizeDst, chainLen, List.map_cons, List.sum_cons, Set.mem_union,
            Set.mem_Ico]
          by_cases hx : x ∈ A
          · simp [hx]
          · simp only [hx, false_or]
            omega
        rw [hset] at hi
        exact hi

/-- What linearizing leaves behind in two runs. -/
structure SameLinear (B : BufId → Prop) (r r' : ℤ × EthPool × SecMem) : Prop where
  ret : r'.1 = r.1
  pool : r'.2.1 = r.2.1
  closed : ClosedChains r.2.1.eb B
  agree : AgreeOnData r.2.1.eb B r.2.2 r'.2.2

/-- The data of a buffer that took a chain over is its own data and what was copied behind
it.  Sums that wrap only make it shorter. -/
theorem data_linearized_subset {cs : List BufId} {restBuf : Word}
    (hle : restBuf.toNat ≤ chainLen eb cs) (hne : e.dataLen ≠ 0) :
    EthBuf.data { e with dataLen := e.dataLen + restBuf, next := none } ⊆
      e.data ∪ linearizeDst eb cs (linearizeStart e) := by
  rw [linearizeStart_of_ne hne]
  intro x hx
  have hadd : (e.dataLen + restBuf).toNat ≤ e.dataLen.toNat + restBuf.toNat := by
    rw [BitVec.toNat_add]
    exact Nat.mod_le _ _
  simp only [EthBuf.data, Set.mem_Ico, linearizeDst, Set.mem_union] at hx ⊢
  omega

/-- A buffer without data has nothing to append to, so its chain is empty as well. -/
theorem data_absorbed_of_empty {rest : List BufId} {t : SecMem} (h0 : (p.eb b).dataLen = 0)
    (h : linearizeCopy p.eb b rest (linearizeStart (p.eb b)) sec = .ok t) :
    ((p.absorb b rest).eb b).data = ∅ := by
  rw [linearizeStart_of_eq h0] at h
  have hle := toNat_restLen_le p.eb rest
  rw [chainLen_of_linearizeCopy_none h, Nat.le_zero] at hle
  have hr : restLen p.eb rest = 0#32 := BitVec.eq_of_toNat_eq hle
  have h0 : (p.eb b).dataLen = 0#32 := h0
  simp [EthPool.absorb, EthBuf.data, h0, hr]

theorem closedChains_absorb (hB : ClosedChains p.eb B) (b : BufId) (rest : List BufId) :
    ClosedChains (p.absorb b rest).eb B := by
  intro x y hx hy
  by_cases hxb : x = b
  · subst hxb
    simp [EthPool.absorb] at hy
  · simp only [EthPool.absorb, EthPool.eb_setEb_of_ne _ hxb] at hy
    exact hB x y hx hy

theorem ethbufLinearize_sameEnd {sec' : SecMem} (hb : B b) (hB : ClosedChains p.eb B)
    (h : AgreeOnData p.eb B sec sec') :
    SameEnd (SameLinear B) (ethbufLinearize p sec b) (ethbufLinearize p sec' b) := by
  rcases ethbufLinearize_cases p b with ⟨r, hr⟩ | ⟨n, fuel, rest, hn, hc, hr⟩
  · rw [hr sec, hr sec']
    cases r with
    | error a => rfl
    | ok r => exact ⟨rfl, rfl, hB, h⟩
  rw [hr sec, hr sec']
  have hcopy := linearizeCopy_sameEnd b rest (mem_ethbufChain hB (hB b n hb hn) hc)
    (linearizeStart (p.eb b)) sec sec' _ h (h b hb)
  rcases hs : linearizeCopy p.eb b rest (linearizeStart (p.eb b)) sec with a | t <;>
    rcases hs' : linearizeCopy p.eb b rest (linearizeStart (p.eb b)) sec' with a' | t' <;>
    simp only [hs, hs', SameEnd] at hcopy
  · exact hcopy
  obtain ⟨hagree, hdst⟩ := hcopy
  refine ⟨rfl, rfl, closedChains_absorb hB b rest, fun x hx => ?_⟩
  by_cases hxb : x = b
  · subst hxb
    by_cases h0 : (p.eb x).dataLen = 0
    · have hempty := data_absorbed_of_empty h0 hs
      intro y hy
      rw [hempty] at hy
      exact absurd hy (Set.notMem_empty y)
    · refine hdst.mono ?_
      have heb : (p.absorb x rest).eb x =
          { p.eb x with dataLen := (p.eb x).dataLen + restLen p.eb rest, next := none } := by
        simp [EthPool.absorb]
      rw [heb]
      exact data_linearized_subset (toNat_restLen_le p.eb rest) h0
  · have heb : (p.absorb b rest).eb x = p.eb x := by
      simp [EthPool.absorb, hxb]
    rw [heb]
    exact hagree x hx

/-! ## One iteration -/

/-- Two loop states that differ in the secure memory outside of the packets' data. -/
inductive Twin (B : BufId → Prop) (s : RxState) : RxState → Prop
  | mk (sec : SecMem) (closed : ClosedChains s.pool.eb B)
      (agree : AgreeOnData s.pool.eb B s.sec sec) : Twin B s { s with sec := sec }

theorem Twin.dropBuf (h : Twin B s s') (b : BufId) : Twin B (s.dropBuf b) (s'.dropBuf b) := by
  obtain ⟨sec, hclosed, hagree⟩ := h
  refine Twin.mk sec (s := s.dropBuf b) ?_ ?_
  · intro x y hx hy
    by_cases hxb : x = b
    · subst hxb
      simp only [RxState.dropBuf, EthPool.eb_bufFree_self] at hy
      exact hclosed x y hx hy
    · simp only [RxState.dropBuf, EthPool.eb_bufFree_of_ne _ hxb] at hy
      exact hclosed x y hx hy
  · intro x hx
    by_cases hxb : x = b
    · subst hxb
      intro y hy
      simp [RxState.dropBuf, EthBuf.data, EthPool.bufReset] at hy
    · simp only [RxState.dropBuf, EthPool.eb_bufFree_of_ne _ hxb]
      exact hagree x hx

theorem rxPrepare_sameEnd (h : Twin B s s') (hob : ∀ b, ob = some b → B b) :
    SameEnd (SameTag (Twin B)) (rxPrepare s ob) (rxPrepare s' ob) := by
  obtain ⟨sec, hclosed, hagree⟩ := h
  cases ob with
  | none => exact ⟨rfl, .mk sec hclosed hagree⟩
  | some b =>
    have hlin := ethbufLinearize_sameEnd (hob b rfl) hclosed hagree
    simp only [rxPrepare]
    rcases hs : ethbufLinearize s.pool s.sec b with a | ⟨ret, p, t⟩ <;>
      rcases hs' : ethbufLinearize s.pool sec b with a' | ⟨ret', p', t'⟩ <;>
      simp only [hs, hs', SameEnd] at hlin ⊢
    · exact hlin
    obtain ⟨hret, hpool, hcl, hag⟩ := hlin
    dsimp only at hret hpool hcl hag
    subst hret hpool
    have htwin : Twin B { s with pool := p', sec := t } { s with pool := p', sec := t' } :=
      .mk t' hcl hag
    by_cases hr : ret' ≠ 0
    · simp only [if_pos hr]
      exact ⟨rfl, htwin.dropBuf b⟩
    simp only [if_neg hr]
    by_cases h0 : (p'.eb b).dataLen = 0
    · simp only [if_pos h0]
      exact ⟨rfl, htwin.dropBuf b⟩
    · simp only [if_neg h0]
      exact ⟨rfl, htwin⟩

variable {env : Env}

/-- The descriptor that is filled for a packet has no room behind the packet. -/
def RxFits (env : Env) (s : RxState) (ob : Option BufId) : Prop :=
  ∀ b s' buf, RxReaches s ob b s' buf → RxCopies env s'.vq.nextDesc (s'.pool.eb b) →
    s'.vq.nextDesc.len.toNat ≤ vnetHdrLen + (s'.pool.eb b).dataLen.toNat

/-- Only the data of the packet is read when the descriptor ends with it. -/
theorem rxWrites_congr {src src' nw : ℕ → Byte}
    (hfit : RxCopies env d e → d.len.toNat ≤ vnetHdrLen + e.dataLen.toNat)
    (hsrc : Set.EqOn src src' e.data) : rxWrites env d e src nw = rxWrites env d e src' nw := by
  by_cases hc : RxCopies env d e
  · simp only [rxWrites, rxDataCalls, if_pos hc, scatter_orNone]
    refine copy_congr (hsrc.mono fun x hx => ?_)
    have hle := hfit hc
    simp only [EthBuf.data, Set.mem_Ico] at hx ⊢
    omega
  · simp only [rxWrites, rxDataCalls, if_neg hc]
    rfl

theorem rxDeliver_sameEnd {rxBurst : Word} (h : Twin B s s') (hb : B b)
    (he : (s.pool.eb b).dataLen ≠ 0) (hfit : ∀ buf vq,
      vqueueGetAvailBuf s.vq (VqueueBuf.empty 0 maxRxIovs) = .ok (noError, buf, vq) →
      RxCopies env s.vq.nextDesc (s.pool.eb b) →
        s.vq.nextDesc.len.toNat ≤ vnetHdrLen + (s.pool.eb b).dataLen.toNat) :
    SameEnd (SameTag (Twin B)) (rxDeliver env rxBurst s b) (rxDeliver env rxBurst s' b) := by
  obtain ⟨sec, hclosed, hagree⟩ := h
  simp only [rxDeliver]
  rcases hq : vqueueGetAvailBuf s.vq (VqueueBuf.empty 0 maxRxIovs) with a | ⟨ret, buf, vq⟩
  · rfl
  by_cases hret : ret ≠ noError
  · simp only [if_pos hret]
    exact ⟨rfl, Twin.mk sec (s := { s with vq := vq }) hclosed hagree⟩
  simp only [if_neg hret]
  obtain rfl := not_not.mp hret
  -- both runs fill the chain in the same way
  have hfill : rxFill env s.vq.lastAvailIdx buf (s.pool.eb b) (sec b) s.nw =
      rxFill env s.vq.lastAvailIdx buf (s.pool.eb b) (s.sec b) s.nw := by
    obtain ⟨-, -, hbuf⟩ := getAvailBuf_rx hq
    have hpiece : buf.outIovs.pieces = [s.vq.nextDesc.piece] := by rw [hbuf]
    obtain ⟨out, h₁⟩ := rxFill_eq env s.vq.lastAvailIdx (s.sec b) s.nw hpiece he
    obtain ⟨out', h₂⟩ := rxFill_eq env s.vq.lastAvailIdx (sec b) s.nw hpiece he
    have hout : out' = out := by
      have hcongr := out_rxFill_congr env s.vq.lastAvailIdx buf (s.pool.eb b) (sec b) s.nw
        (s.sec b) s.nw
      rwa [h₁, h₂] at hcongr
    rw [h₁, h₂, hout, rxWrites_congr (hfit buf vq hq) (hagree b hb)]
  simp only [hfill]
  split
  · rfl
  rename_i r vq' hadd
  have htwin : ∀ t : RxState, t.pool = s.pool → t.sec = s.sec → Twin B t { t with sec := sec } := by
    rintro t hpool hsec
    exact .mk sec (hpool ▸ hclosed) (hpool ▸ hsec ▸ hagree)
  split
  · exact ⟨rfl, (htwin { s with
      vq := vq'
      nw := (rxFill env s.vq.lastAvailIdx buf (s.pool.eb b) (s.sec b) s.nw).nw
      enqueued := s.enqueued + 1 } rfl rfl).dropBuf b⟩
  · exact ⟨rfl, htwin _ rfl rfl⟩

theorem rxBody_sameEnd {rxBurst : Word} (h : Twin B s s') (hob : ∀ b, ob = some b → B b)
    (hfit : RxFits env s ob) :
    SameEnd (SameTag (Twin B)) (rxBody env rxBurst s ob) (rxBody env rxBurst s' ob) := by
  have hprep := rxPrepare_sameEnd h hob
  rcases hs : rxPrepare s ob with a | ⟨o, t⟩ <;> rcases hs' : rxPrepare s' ob with a' | ⟨o', t'⟩ <;>
    simp only [hs, hs', SameEnd, SameTag] at hprep
  · simp only [rxBody, hs, hs']
    exact hprep
  obtain ⟨rfl, htwin⟩ := hprep
  cases o with
  | none =>
    simp only [rxBody, hs, hs']
    exact ⟨rfl, htwin⟩
  | some b =>
    simp only [rxBody, hs, hs']
    obtain ⟨rfl, he⟩ := rxPrepare_some hs
    exact rxDeliver_sameEnd htwin (hob b rfl) he fun buf vq hq =>
      hfit b t buf ⟨hs, vq, hq⟩

/-! ## The call -/

/-- What the normal world can see of the end of a call: the returned value shows in the
device, which includes the rings; the data memory is its own. -/
def SameView (p p' : ℤ × Net M) : Prop :=
  p.1 = p'.1 ∧ p.2.nw = p'.2.nw ∧ p.2.dev = p'.2.dev

/-- **Noninterference of a call**: a secure memory with the same packets in it makes no
difference to the normal world. -/
def Noninterferent (env : Env) (w : Net M) (bufs : List (Option BufId)) : Prop :=
  ∀ sec, AgreeOnData w.pool.eb (InBatch w.pool.eb bufs) w.sec sec →
    SameEnd SameView (virtioNetReceive env w bufs)
      (virtioNetReceive env { w with sec := sec } bufs)

/-- The chain `buf` gets the header and the packet in `b`, and no other byte of the normal
world changes, whatever secure memory holds next to the packet. -/
structure ExactFill (env : Env) (s : RxState) (b : BufId) (buf : VqueueBuf) : Prop where
  frame : ∀ src, Set.EqOn src (s.sec b) (s.pool.eb b).data → ∀ x,
    x ∉ Set.Ico (rxBase env s.vq.nextDesc)
      (rxBase env s.vq.nextDesc + vnetHdrLen + (s.pool.eb b).dataLen.toNat) →
    (rxFill env s.vq.lastAvailIdx buf (s.pool.eb b) src s.nw).nw x = s.nw x
  content : ∀ src, Set.EqOn src (s.sec b) (s.pool.eb b).data →
    (rxFill env s.vq.lastAvailIdx buf (s.pool.eb b) src s.nw).ok = true →
    slice (rxFill env s.vq.lastAvailIdx buf (s.pool.eb b) src s.nw).nw
        (rxBase env s.vq.nextDesc) (vnetHdrLen + (s.pool.eb b).dataLen.toNat) =
      slice rxVnetHdr 0 vnetHdrLen ++
        slice (s.sec b) (s.pool.eb b).dataOff.toNat (s.pool.eb b).dataLen.toNat

/-- A delivered packet stands in the buffer behind its header. -/
theorem slice_rxWrites {src nw : ℕ → Byte} (h : RxDelivers env d e) :
    slice (rxWrites env d e src nw) (rxBase env d) (vnetHdrLen + e.dataLen.toNat) =
      slice rxVnetHdr 0 vnetHdrLen ++ slice src e.dataOff.toNat e.dataLen.toNat := by
  obtain ⟨hc, hle⟩ := h
  have hmin : min vnetHdrLen d.len.toNat = vnetHdrLen := by omega
  simp only [rxWrites, rxDataCalls, rxHdrCalls, if_pos hc, scatter_orNone, hmin]
  rw [slice_add, slice_copy_of_disjoint (.inl le_rfl), slice_copy_self]
  congr 1
  -- the copy is at least as long as the packet
  have htake := slice_copy_self (copy nw (rxBase env d) rxVnetHdr 0 vnetHdrLen)
    (rxBase env d + vnetHdrLen) src e.dataOff.toNat (d.len.toNat - vnetHdrLen)
  have hlen : e.dataLen.toNat ≤ d.len.toNat - vnetHdrLen := by omega
  rw [← take_slice _ _ _ _ hlen, htake, take_slice _ _ _ _ hlen]

/-- Nothing outside of the first `12 + data_len` bytes changes, for any bytes behind the
packet, exactly when the descriptor ends there. -/
theorem rxWrites_frame_iff (src₀ nw : ℕ → Byte) :
    (∀ src, Set.EqOn src src₀ e.data → ∀ x,
      x ∉ Set.Ico (rxBase env d) (rxBase env d + vnetHdrLen + e.dataLen.toNat) →
        rxWrites env d e src nw x = nw x) ↔
      (RxCopies env d e → d.len.toNat ≤ vnetHdrLen + e.dataLen.toNat) := by
  constructor
  · intro h hc
    by_contra hlt
    -- put a byte behind the packet that differs from what the normal world has there
    have hne : ∀ v : Byte, v + 1 ≠ v := by decide
    let x := rxBase env d + vnetHdrLen + e.dataLen.toNat
    let y := e.dataOff.toNat + e.dataLen.toNat
    have hagree : Set.EqOn (Function.update src₀ y (nw x + 1)) src₀ e.data := by
      intro z hz
      refine Function.update_of_ne ?_ _ _
      rintro rfl
      exact absurd hz.2 (lt_irrefl _)
    have hx := h _ hagree x (fun hx => lt_irrefl _ hx.2)
    simp only [rxWrites, rxDataCalls, if_pos hc, scatter_orNone] at hx
    have hin : x ∈ Set.Ico (rxBase env d + vnetHdrLen)
        (rxBase env d + vnetHdrLen + (d.len.toNat - vnetHdrLen)) := by
      simp only [x, Set.mem_Ico]
      omega
    have hsub : e.dataOff.toNat + (x - (rxBase env d + vnetHdrLen)) = y := by
      simp only [x, y]
      omega
    rw [copy_of_mem hin, hsub, Function.update_self] at hx
    exact hne _ hx
  · intro h src _ x hx
    by_cases hc : RxCopies env d e
    · have hle := h hc
      simp only [rxWrites, rxDataCalls, rxHdrCalls, if_pos hc, scatter_orNone]
      simp only [Set.mem_Ico, not_and, not_lt] at hx
      rw [copy_of_notMem (by simp only [Set.mem_Ico]; omega),
        copy_of_notMem (by simp only [Set.mem_Ico]; omega)]
    · simp only [rxWrites, rxDataCalls, rxHdrCalls, if_neg hc]
      rfl

theorem exactFill_iff {buf : VqueueBuf} (h : RxReaches s ob b s' buf) :
    ExactFill env s' b buf ↔ (RxCopies env s'.vq.nextDesc (s'.pool.eb b) →
      s'.vq.nextDesc.len.toNat ≤ vnetHdrLen + (s'.pool.eb b).dataLen.toNat) := by
  have hnw : ∀ src, (rxFill env s'.vq.lastAvailIdx buf (s'.pool.eb b) src s'.nw).nw =
      rxWrites env s'.vq.nextDesc (s'.pool.eb b) src s'.nw := by
    intro src
    obtain ⟨out, hf⟩ := h.fill env s'.vq.lastAvailIdx src s'.nw
    rw [hf]
  rw [← rxWrites_frame_iff (s'.sec b) s'.nw]
  constructor
  · intro hex src hsrc x hx
    rw [← hnw]
    exact hex.frame src hsrc x hx
  · intro hframe
    refine ⟨fun src hsrc x hx => ?_, fun src hsrc hok => ?_⟩
    · rw [hnw]
      exact hframe src hsrc x hx
    · obtain ⟨out, hf⟩ := h.fill env s'.vq.lastAvailIdx src s'.nw
      rw [hf] at hok ⊢
      rw [slice_rxWrites (of_decide_eq_true hok)]
      congr 1
      exact slice_congr hsrc

/-- The two loops, side by side. -/
theorem rxLoop_sameEnd {w : Net M} {bufs : List (Option BufId)}
    (hagree : AgreeOnData w.pool.eb (InBatch w.pool.eb bufs) w.sec sec)
    (h : ∀ ob s, Visits (rxBody env w.dev.vnet.rxBurst) bufs w.rxStart ob s → RxFits env s ob) :
    SameEnd SameView (rxLoop env w bufs) (rxLoop env { w with sec := sec } bufs) := by
  have hloop : SameEnd (SameTag (Twin (InBatch w.pool.eb bufs)))
      (batch (rxBody env w.dev.vnet.rxBurst) bufs w.rxStart)
      (batch (rxBody env w.dev.vnet.rxBurst) bufs { w.rxStart with sec := sec }) := by
    refine batch_rel bufs _ _ (.mk sec (fun b c hb hn => .next hb hn) hagree) ?_
    intro ob s s' hv htwin
    refine rxBody_sameEnd htwin ?_ (h ob s hv)
    rintro b rfl
    exact .head hv.mem
  have hstart : Net.rxStart { w with sec := sec } = { w.rxStart with sec := sec } := rfl
  simp only [rxLoop, hstart]
  rcases hs : batch (rxBody env w.dev.vnet.rxBurst) bufs w.rxStart with a | ⟨r, s⟩ <;>
    rcases hs' : batch (rxBody env w.dev.vnet.rxBurst) bufs { w.rxStart with sec := sec }
      with a' | ⟨r', s'⟩ <;>
    simp only [hs, hs', SameEnd, SameTag] at hloop
  · exact hloop
  obtain ⟨-, sec', -, -⟩ := hloop
  have hdev : (Net.rxFinish { w with sec := sec } { s with sec := sec' }).dev =
    (w.rxFinish s).dev := rfl
  simp only [hdev]
  by_cases hq : 0 < s.enqueued
  · simp only [if_pos hq]
    cases vnicVqKickCb (w.rxFinish s).dev 0 with
    | error a => rfl
    | ok d => exact ⟨rfl, rfl, rfl⟩
  · simp only [if_neg hq]
    exact ⟨rfl, rfl, rfl⟩

theorem noninterferent_of_fits {w : Net M} {bufs : List (Option BufId)}
    (h : ∀ ob s, RxVisits env w bufs ob s → RxFits env s ob) : Noninterferent env w bufs := by
  intro sec hagree
  rw [virtioNetReceive_eq, virtioNetReceive_eq]
  cases hentry : rxEntry w.dev with
  | error a => rfl
  | ok e =>
    cases e with
    | inl r => exact ⟨rfl, rfl, rfl⟩
    | inr space =>
      exact rxLoop_sameEnd hagree fun ob s hv => h ob s ⟨rxStarts_iff.mpr ⟨space, hentry⟩, hv⟩

end TrustedGateway
