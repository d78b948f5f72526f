import TrustedGateway.Router.Batch

/-!
# Accesses to headers

`l2_input`, `arp_input` and `router_ip_route` access the headers of a packet without looking at its
length.  Here the list of accesses that the model keeps is compared with the place of the packet's
data: for frames of at least 42 bytes every access is to data of the packet, and no pointer to the
data is `NULL`.  What a function has accessed is known also if it ends in an abort.
-/

namespace TrustedGateway

open FlatMemory Programs Custody

/-- An abort that the code asks for. -/
def Abort.IsPanic (e : Abort) : Prop := ∃ msg, e = .panic msg

namespace Router

/-- The accesses between the two states were to data of the packets `own`. -/
def Tracked (own : Set BufId) (s s' : RouterState) : Prop :=
  ∃ acc, s'.accesses = s.accesses ++ acc ∧ ∀ a ∈ acc, a.buf ∈ own ∧ a.Inside

namespace Tracked

variable {own own' : Set BufId} {s s₁ s' : RouterState}

theorem of_eq (h : s'.accesses = s.accesses) : Tracked own s s' := ⟨[], by simp [h], by simp⟩

theorem trans (h : Tracked own s s₁) (h' : Tracked own s₁ s') : Tracked own s s' := by
  obtain ⟨acc, hacc, hin⟩ := h
  obtain ⟨acc', hacc', hin'⟩ := h'
  refine ⟨acc ++ acc', by rw [hacc', hacc, List.append_assoc], ?_⟩
  intro a ha
  exact (List.mem_append.mp ha).elim (hin a) (hin' a)

end Tracked

/-- The program accesses data of the packets `own` only, and aborts only by a panic. -/
def Watched {α : Type} (own : Set BufId) (s : RouterState) (x : RouterM α)
    (Q : α → RouterState → Prop) : Prop :=
  Wp (fun e s' => e.IsPanic ∧ Tracked own s s') x (fun a s' => Q a s' ∧ Tracked own s s') s

namespace Watched

variable {α β : Type} {own : Set BufId} {s : RouterState} {x : RouterM α} {f : α → RouterM β}
  {Q Q' : α → RouterState → Prop} {R : β → RouterState → Prop}

theorem imp (h : Watched own s x Q) (hQ : ∀ a s', Q a s' → Q' a s') : Watched own s x Q' :=
  Wp.imp h fun a s' h => ⟨hQ a s' h.1, h.2⟩

theorem and (h : Watched own s x Q) (h' : Post x Q' s) :
    Watched own s x fun a s' => Q a s' ∧ Q' a s' :=
  (Wp.and h h').imp fun _ _ h => ⟨⟨h.1.1, h.2⟩, h.1.2⟩

theorem bind (h : Watched own s x Q) (hf : ∀ a s₁, Q a s₁ → Watched own s₁ (f a) R) :
    Watched own s (x >>= f) R := by
  refine Wp.seq h fun a s₁ ⟨ha, ht⟩ => Wp.mono (hf a s₁ ha) ?_ ?_
  · rintro e s' ⟨he, ht'⟩
    exact ⟨he, ht.trans ht'⟩
  · rintro b s' ⟨hb, ht'⟩
    exact ⟨hb, ht.trans ht'⟩

theorem pure {a : α} (h : Q a s) : Watched own s (pure a) Q := ⟨h, .of_eq rfl⟩

theorem get_bind {f : RouterState → RouterM β} (h : Watched own s (f s) R) :
    Watched own s (get >>= f) R := h

theorem modify {f : RouterState → RouterState} {Q : Unit → RouterState → Prop}
    (hacc : (f s).accesses = s.accesses) (h : Q () (f s)) :
    Watched own s (modify f : RouterM Unit) Q := ⟨h, .of_eq hacc⟩

theorem modify_bind {f : RouterState → RouterState} {g : Unit → RouterM β}
    (hacc : (f s).accesses = s.accesses) (h : Watched own (f s) (g ()) R) :
    Watched own s (MonadState.modifyGet (fun s => ((), f s)) >>= g) R := by
  refine Wp.mono h ?_ ?_
  · rintro e s' ⟨he, ht⟩
    exact ⟨he, (Tracked.of_eq hacc).trans ht⟩
  · rintro b s' ⟨hb, ht⟩
    exact ⟨hb, (Tracked.of_eq hacc).trans ht⟩

theorem panic (msg : String) : Watched own s (throw (.panic msg) : RouterM α) Q :=
  ⟨⟨msg, rfl⟩, .of_eq rfl⟩

theorem ite {c : Prop} [Decidable c] {x y : RouterM α} (hx : c → Watched own s x Q)
    (hy : ¬ c → Watched own s y Q) : Watched own s (if c then x else y) Q := by
  split
  · next hc => exact hx hc
  · next hc => exact hy hc

end Watched

/-! ## Functions that do not look into packets -/

section Output

variable {own : Set BufId} (s : RouterState) (m : BufId)

theorem watched_bufFree : Watched own s (bufFree m) fun _ _ => True := .modify rfl trivial

theorem watched_bufFreeAll (bs : List BufId) : Watched own s (bufFreeAll bs) fun _ _ => True := by
  induction bs generalizing s with
  | nil => exact .pure trivial
  | cons b bs ih => exact (watched_bufFree s b).bind fun _ s₁ _ => ih s₁

theorem watched_pktqDoMenqueue (w : ℕ) (outIfIdx : Word) (bs : List BufId) :
    Watched own s (pktqDoMenqueue w outIfIdx bs) fun _ _ => True := by
  refine .ite (fun _ => .pure trivial) fun _ => .get_bind ?_
  split
  · exact .pure trivial
  · refine .modify_bind rfl (.modify_bind rfl ((watched_bufFreeAll _ _).bind fun _ s₁ _ => ?_))
    exact .ite (fun _ => .pure trivial) fun _ =>
      .ite (fun _ => .modify_bind rfl (.pure trivial)) fun _ => .pure trivial

/-- An allocation takes a buffer from the free list. -/
theorem watched_bufAlloc : Watched own s bufAlloc fun _ s' =>
    s'.pool.freeList.length < s.pool.freeList.length := by
  refine .get_bind ?_
  split
  · next e he =>
    unfold EthPool.bufAlloc at he
    split at he
    · cases he
      exact .panic _
    · cases he
  · next b pool hb =>
    obtain ⟨hfree, -⟩ := EthPool.bufAlloc_eq_ok hb
    exact .modify_bind rfl (.pure (by simp [hfree]))

/-- The request is written into a buffer with room for it. -/
theorem watched_arpRequestFill (hw : MacAddr) (src target : Ip4Addr) :
    Watched own s (arpRequestFill m hw src target) fun _ s' =>
      s'.pool.freeList = s.pool.freeList := by
  refine .modify_bind rfl (.modify_bind rfl (.get_bind ?_))
  have hlen : ¬ (14 + 28 : Word) ≤ 14 := by decide
  simp only [ethbufDataPtr, EthPool.eb_setEb_self, if_neg hlen]
  exact .modify rfl rfl

section Enqueue

variable {enqueue : Word → BufId → RouterM ℤ} {n : ℕ}
  (henq : ∀ i x s, s.pool.freeList.length < n → Watched own s (enqueue i x) fun _ _ => True)
include henq

/-- Only a buffer from the free list leads back to the queue. -/
theorem watched_arpResolve (hs : s.pool.freeList.length ≤ n) (rt : RouteInfo) (hwaddr : ℕ) :
    Watched own s (arpResolve enqueue rt m hwaddr) fun _ _ => True := by
  refine .get_bind ?_
  split
  · exact .pure trivial
  split
  · exact .modify_bind rfl (.pure trivial)
  split
  · exact .panic _
  · simp only [arpRequest, bind_assoc, pure_bind]
    refine (watched_bufAlloc s).bind fun x s₁ h₁ => ?_
    refine (watched_arpRequestFill s₁ x _ _ _).bind fun _ s₂ h₂ => ?_
    exact (henq _ x s₂ (by rw [h₂]; omega)).bind fun _ _ _ => .pure trivial

theorem watched_routerIfOutput (hs : s.pool.freeList.length ≤ n) (outIfp : Ifnet) :
    Watched own s (routerIfOutput enqueue outIfp m) fun _ _ => True := by
  refine .get_bind (.ite (fun _ => .pure trivial) fun _ =>
    .ite (fun _ => .pure trivial) fun _ => ?_)
  refine .modify_bind rfl (.modify_bind rfl (.get_bind ?_))
  refine Watched.bind (watched_arpResolve _ m henq ?_ _ _) fun _ s₁ _ => ?_
  · exact hs
  · exact .ite (fun _ => .pure trivial) fun _ => .modify_bind rfl (.pure trivial)

theorem watched_pktqPrepareEnqueue (hs : s.pool.freeList.length ≤ n) (outIfIdx : Word) :
    Watched own s (pktqPrepareEnqueue enqueue outIfIdx m) fun _ _ => True := by
  refine .get_bind ?_
  split
  · exact .pure trivial
  · exact (watched_routerIfOutput s m henq hs _).bind fun _ s₁ _ =>
      .ite (fun _ => .pure trivial) fun _ => .modify_bind rfl (.pure trivial)

end Enqueue

/-- `pktq_enqueue` comes back to itself at most as often as there are free buffers. -/
theorem watched_pktqEnqueueFuel (w : ℕ) {fuel : ℕ} (hfuel : s.pool.freeList.length < fuel)
    (outIfIdx : Word) : Watched own s (pktqEnqueueFuel w fuel outIfIdx m) fun _ _ => True := by
  induction fuel generalizing s m outIfIdx with
  | zero => omega
  | succ fuel ih =>
    refine (watched_pktqPrepareEnqueue s m (n := fuel) (fun i x s' h => ih s' x h i) (by omega)
      outIfIdx).bind fun r s₁ _ => .ite (fun _ => .pure trivial) fun _ => ?_
    exact (watched_pktqDoMenqueue s₁ w outIfIdx [m]).bind fun _ _ _ => .pure trivial

theorem watched_pktqEnqueue (w : ℕ) (outIfIdx : Word) :
    Watched own s (pktqEnqueue w outIfIdx m) fun _ _ => True :=
  .get_bind (watched_pktqEnqueueFuel s m w (Nat.lt_succ_self _) outIfIdx)

end Output

/-! ## Functions that look into a packet -/

section Packet

variable {own : Set BufId} {s : RouterState} {m : BufId} {off len : ℕ}

/-- The data of `m` is at `off` and has `len` bytes. -/
structure At (m : BufId) (off len : ℕ) (s : RouterState) : Prop where
  dataOff : (s.pool.eb m).dataOff.toNat = off
  dataLen : (s.pool.eb m).dataLen.toNat = len

theorem At.of_pool {s' : RouterState} (h : At m off len s) (hp : s'.pool = s.pool) :
    At m off len s' :=
  ⟨by rw [hp]; exact h.dataOff, by rw [hp]; exact h.dataLen⟩

theorem At.dataPtr (h : At m off len s) {offset : Word} (hlt : offset.toNat < len) :
    ethbufDataPtr (s.pool.eb m) offset = some (off + offset.toNat) := by
  have hle : ¬ (s.pool.eb m).dataLen ≤ offset := by
    rw [BitVec.le_def, h.dataLen]
    omega
  rw [ethbufDataPtr, if_neg hle, h.dataOff]

section Access

variable (h : At m off len s) (hm : m ∈ own) {p k n : ℕ} (hlo : off ≤ p + k)
  (hhi : p + k + n ≤ off + len)
include h hm hlo hhi

theorem At.tracked : Tracked own s (accessed s m (p + k) n) := by
  refine ⟨_, rfl, ?_⟩
  intro a ha
  obtain rfl := List.mem_singleton.mp ha
  refine ⟨hm, ?_⟩
  simp only [HdrAccess.Inside, h.dataOff, h.dataLen]
  exact ⟨hlo, hhi⟩

/-- A read of data. -/
theorem At.read {α : Type} {f : (Fin n → Byte) → RouterM α} {R : α → RouterState → Prop}
    (hf : ∀ v s', At m off len s' → Watched own s' (f v) R) :
    Watched own s (hdrRead m (some p) k n >>= f) R :=
  Watched.bind (Q := fun _ s' => At m off len s')
    ⟨⟨h.dataOff, h.dataLen⟩, h.tracked hm hlo hhi⟩ hf

/-- A write of data. -/
theorem At.write {α : Type} {v : Fin n → Byte} {f : Unit → RouterM α}
    {R : α → RouterState → Prop} (hf : ∀ s', At m off len s' → Watched own s' (f ()) R) :
    Watched own s (hdrWrite m (some p) k v >>= f) R :=
  Watched.bind (Q := fun _ s' => At m off len s')
    ⟨⟨h.dataOff, h.dataLen⟩, h.tracked hm hlo hhi⟩ fun _ => hf

end Access

variable (env : RouterEnv) (w : ℕ)

theorem watched_arpDrop (s : RouterState) : Watched own s (arpDrop m) fun r _ => r ≠ 0 :=
  .modify_bind rfl (.pure (by decide))

/-- The reply is written over the request. -/
theorem watched_arpReply (h : At m off len s) (hm : m ∈ own) (hlen : 42 ≤ len) (ifp : Ifnet) :
    Watched own s (arpReply w ifp m (some (off + 14))) fun r _ => r ≠ 0 := by
  refine h.read hm (by omega) (by omega) fun _ s h => h.write hm (by omega) (by omega) fun s h =>
    h.read hm (by omega) (by omega) fun _ s h => h.write hm (by omega) (by omega) fun s h =>
    h.read hm (by omega) (by omega) fun _ s h => h.write hm (by omega) (by omega) fun s h =>
    h.write hm (by omega) (by omega) fun s h => h.write hm (by omega) (by omega) fun s h =>
    .get_bind ?_
  rw [h.dataPtr (by simpa using (by omega : 0 < len))]
  refine h.read hm (by simp) (by simp; omega) fun _ s h => h.write hm (by simp) (by simp; omega)
    fun s h => h.write hm (by simp) (by simp; omega) fun s h => ?_
  exact (watched_pktqEnqueue s m w _).bind fun _ s₁ _ =>
    .ite (fun _ => watched_arpDrop s₁) fun _ => .pure (by decide)

/-- The cache does not touch packets. -/
theorem watched_arpCache (h : At m off len s) (i : ℕ) (ip : Ip4Addr) (mac : MacAddr)
    (allowNew : Bool) :
    Watched own s (arpCache env i ip mac allowNew) fun _ s' => At m off len s' := by
  refine .get_bind (.ite (fun _ => .pure h) fun _ => .ite (fun _ => .pure h) fun _ => ?_)
  simp only [malloc, bind_assoc, pure_bind]
  refine .get_bind (.modify_bind rfl (.ite
    (fun _ => .modify_bind rfl (.pure (h.of_pool rfl))) fun _ => ?_))
  refine .get_bind (.ite (fun _ => .modify_bind rfl (.modify rfl (h.of_pool rfl))) fun _ => ?_)
  exact .modify_bind rfl (.modify rfl (h.of_pool rfl))

theorem watched_arpInput (h : At m off len s) (hm : m ∈ own) (hlen : 42 ≤ len)
    (hl2 : (s.pool.eb m).l2Len = 14) : Watched own s (arpInput env w m) fun r _ => r ≠ 0 := by
  refine .get_bind ?_
  dsimp only
  have hptr : ethbufDataPtr (s.pool.eb m) ((s.pool.eb m).l2Len.setWidth 32) = some (off + 14) := by
    rw [hl2]
    exact h.dataPtr (by simpa using (by omega : 14 < len))
  rw [hptr]
  refine h.read hm (by omega) (by omega) fun _ s h => h.read hm (by omega) (by omega) fun _ s h =>
    h.read hm (by omega) (by omega) fun _ s h => .ite (fun _ => watched_arpDrop s) fun _ => ?_
  refine h.read hm (by omega) (by omega) fun _ s h =>
    h.read hm (by omega) (by omega) fun _ s h => ?_
  split
  · exact watched_arpDrop s
  · refine h.read hm (by omega) (by omega) fun _ s h => h.read hm (by omega) (by omega)
      fun _ s h => (watched_arpCache env h w _ _ _).bind fun _ s h => ?_
    refine h.read hm (by omega) (by omega) fun _ s h =>
      .ite (fun _ => ?_) fun _ => watched_arpDrop s
    exact watched_arpReply w h hm hlen _

/-- Behind `l2_input` an IPv4 packet has room for the header. -/
theorem watched_l2Input (h : At m off len s) (hm : m ∈ own) (hlen : 42 ≤ len) :
    Watched own s (l2Input env w m) fun r s' =>
      r = 0 → 28 ≤ (s'.pool.eb m).dataLen.toNat := by
  refine .get_bind (.ite (fun _ => .panic _) fun _ => ?_)
  have hcut : ¬ (s.pool.eb m).dataLen < rteEtherHdrLen := by
    rw [BitVec.lt_def, h.dataLen]
    show ¬ _ < 14
    omega
  generalize (s.pool.eb m).dataLen = dataLen at hcut ⊢
  rw [h.dataPtr (by simpa using (by omega : 0 < len))]
  refine h.read hm (by simp) (by simp; omega) fun etherType s h => .modify_bind rfl
    (.modify_bind rfl (.ite (fun _ => ?_) fun _ => .ite (fun _ => ?_) fun _ => ?_))
  · have harp : ∀ s₁, At m off len s₁ → (s₁.pool.eb m).l2Len = 14 →
        Watched own s₁ (arpInput env w m) fun r s' => r = 0 → 28 ≤ (s'.pool.eb m).dataLen.toNat :=
      fun s₁ h₁ hl2 =>
        (watched_arpInput env w h₁ hm hlen hl2).imp fun r s' hr h0 => absurd h0 hr
    exact harp _ ⟨by simp [h.dataOff], by simp [h.dataLen]⟩ (by simp)
  · refine .modify_bind rfl (.ite (fun hno => absurd hno hcut) fun _ => .modify_bind rfl (.pure ?_))
    intro _
    have hdata := h.dataLen
    simp only [EthPool.eb_setEb_self, BitVec.toNat_sub]
    show 28 ≤ (2 ^ 32 - 14 + _) % 2 ^ 32
    omega
  · exact .modify_bind rfl (.pure fun (h : (-1 : ℤ) = 0) => absurd h (by decide))

/-- What the firewall leaves. -/
theorem watched_firewallProcess (s : RouterState) (di : Pfil) :
    Watched own s (firewallProcess env m di) fun r s' =>
      r = 0 → s'.pool.eb m = (env.npf m di).eb (s.pool.eb m) := by
  have hneg : ∀ P : Prop, (-1 : ℤ) = 0 → P := fun P h => absurd h (by decide)
  refine .modify_bind rfl (.modify_bind rfl ?_)
  cases (env.npf m di).verdict with
  | pass => exact .pure fun _ => by simp
  | block => exact .modify_bind rfl (.pure (hneg _))
  | consumed freed =>
    cases freed with
    | true | false => exact .modify_bind rfl (.pure (hneg _))

theorem watched_routerIpRoute (hm : m ∈ own) (hlen : 28 ≤ (s.pool.eb m).dataLen.toNat) :
    Watched own s (routerIpRoute env m) fun _ _ => True := by
  have h : At m (s.pool.eb m).dataOff.toNat (s.pool.eb m).dataLen.toNat s := ⟨rfl, rfl⟩
  refine .get_bind (.ite (fun _ => .pure trivial) fun _ => ?_)
  dsimp only
  rw [h.dataPtr (by simpa using (by omega : 0 < (s.pool.eb m).dataLen.toNat))]
  refine h.read hm (by simp) (by simp; omega) fun _ s₁ h₁ =>
    .ite (fun _ => .pure trivial) fun _ => h₁.read hm (by simp) (by simp; omega) fun _ s₂ h₂ => ?_
  split
  · exact .pure trivial
  · exact .modify_bind rfl (.pure trivial)

theorem watched_routerIpOutput (s : RouterState) (outIfIdx : Word) :
    Watched own s (routerIpOutput env w m outIfIdx) fun _ _ => True := by
  refine .get_bind ?_
  split
  · exact .modify_bind rfl (.pure trivial)
  · refine (watched_firewallProcess env s .dirOut).bind fun _ s₁ _ =>
      .ite (fun _ => .pure trivial) fun _ => ?_
    refine (watched_pktqPrepareEnqueue s₁ m (fun i x s' _ => watched_pktqEnqueue s' x w i)
      (Nat.le_refl _) outIfIdx).bind fun _ s₂ _ => ?_
    exact .ite (fun _ => .modify_bind rfl (.pure trivial)) fun _ => .pure trivial

/-- A frame as the drivers let it in, and a firewall that does not shorten it. -/
structure Admitted (env : RouterEnv) (s : RouterState) (m : BufId) : Prop where
  dataOff : (s.pool.eb m).dataOff = 2
  min : 42 ≤ (s.pool.eb m).dataLen.toNat
  max : (s.pool.eb m).dataLen.toNat ≤ 2046
  notShortened : ∀ e, e.dataLen.toNat ≤ ((env.npf m .dirIn).eb e).dataLen.toNat

/-- The way of one packet. -/
theorem watched_routePacket (h : Admitted env s m) (hm : m ∈ own) :
    Watched own s (routePacket env w m) fun _ _ => True := by
  refine (watched_l2Input env w ⟨rfl, rfl⟩ hm h.min).bind fun r s₁ h₁ =>
    .ite (fun _ => .pure trivial) fun hr => ?_
  refine (watched_firewallProcess env s₁ .dirIn).bind fun r₂ s₂ h₂ =>
    .ite (fun _ => .pure trivial) fun hr₂ => ?_
  have hlen : 28 ≤ (s₂.pool.eb m).dataLen.toNat := by
    rw [h₂ (not_not.mp hr₂)]
    exact (h₁ (not_not.mp hr)).trans (h.notShortened _)
  refine (watched_routerIpRoute env hm hlen).bind fun r s₃ _ => ?_
  cases r with
  | none => exact .modify_bind rfl (.pure trivial)
  | some i =>
    exact (watched_routerIpOutput env w s₃ i).bind fun _ s₄ _ =>
      .ite (fun _ => .pure trivial) fun _ => .modify_bind rfl (.pure trivial)

theorem Admitted.of_others {s₁ : RouterState} (h : Admitted env s m)
    (hc : contents s₁ m = contents s m) : Admitted env s₁ m := by
  obtain ⟨heb, -, -⟩ := contents_eq_iff.mp hc
  obtain ⟨h₁, h₂, h₃, h₄⟩ := h
  rw [← heb] at h₁ h₂ h₃
  exact ⟨h₁, h₂, h₃, h₄⟩

/-- One packet after the other. -/
theorem watched_routeLoop {ms : List BufId} (hnd : ms.Nodup) (hms : ∀ b ∈ ms, b ∈ own)
    (s : RouterState) (hin : ∀ b ∈ ms, b ∈ s.pool.inuseList) (h : ∀ b ∈ ms, Admitted env s b)
    (a : OutArr) : Watched own s (routeLoop env w ms a) fun _ _ => True := by
  induction ms generalizing s a with
  | nil => exact .pure trivial
  | cons m ms ih =>
    obtain ⟨hmem, hnd⟩ := List.nodup_cons.mp hnd
    have hm : m ∈ own := hms m List.mem_cons_self
    refine ((watched_routePacket env w (h m List.mem_cons_self) hm).and
      (wp_routePacket_routes env w (hin m List.mem_cons_self)).post).bind
      fun r s₁ ⟨_, ops, hmv, _⟩ => ?_
    have hwait := hmv.waiting hmem fun b hb => hin b (List.mem_cons_of_mem _ hb)
    refine ih hnd (fun b hb => hms b (List.mem_cons_of_mem _ hb)) s₁
      (fun b hb => (hwait b hb).1) (fun b hb => ?_) _
    exact (h b (List.mem_cons_of_mem _ hb)).of_others env (hwait b hb).2

theorem watched_flushLoop (s : RouterState) (a : OutArr) (js : List ℕ) :
    Watched own s (flushLoop w a js) fun _ _ => True := by
  induction js generalizing s with
  | nil => exact .pure trivial
  | cons j js ih =>
    rw [flushLoop]
    split
    · exact (watched_pktqDoMenqueue s w _ _).bind fun _ s₁ _ => ih s₁
    · exact ih s

/-- A batch. -/
theorem watched_routerIfInput {pkts : List BufId} (hnd : pkts.Nodup)
    (hin : ∀ b ∈ pkts, b ∈ s.pool.inuseList) (h : ∀ b ∈ pkts, Admitted env s b) :
    Watched {b | b ∈ pkts} s (routerIfInput env w pkts) fun _ _ => True := by
  refine .ite (fun _ => .pure trivial) fun _ => .get_bind ?_
  simp only [malloc, bind_assoc, pure_bind]
  refine .get_bind (.modify_bind rfl (.get_bind (.modify_bind rfl
    (.ite (fun _ => ?_) fun _ => ?_))))
  · refine .modify_bind rfl ((watched_bufFreeAll _ pkts).bind fun _ s₁ _ => ?_)
    exact .ite (fun _ => .modify_bind rfl (.pure trivial)) fun _ => .pure trivial
  · have hloop : ∀ n used, Watched {b | b ∈ pkts} { s with mallocs := n, heapUsed := used }
        (routeLoop env w pkts ⟨0, fun _ => []⟩) fun _ _ => True := by
      intro n used
      apply watched_routeLoop env w hnd
      · exact fun b hb => hb
      · exact hin
      · exact fun b hb => (h b hb).of_others env rfl
    refine (hloop _ _).bind fun a s₁ _ => (watched_flushLoop w s₁ a _).bind fun _ s₂ _ => ?_
    exact .modify_bind rfl (.modify rfl trivial)

end Packet

/-- **Accesses to headers stay inside.**  For a batch of frames of 42 to 2046 bytes at offset 2, and
a firewall that does not shorten them, every byte of a header that is accessed is data of its
packet, and no pointer to the data is `NULL`.  That holds for whatever was accessed before, if the
batch ends in a panic; and there is no other way to abort. -/
theorem header_accesses_inside (env : RouterEnv) (w : ℕ) {pkts : List BufId} {s : RouterState}
    (hnd : pkts.Nodup) (hin : ∀ b ∈ pkts, b ∈ s.pool.inuseList)
    (h : ∀ b ∈ pkts, Admitted env s b) :
    (∀ e, (runFrom (routerIfInput env w pkts) s).1 = .error e → e ≠ .nullDeref ∧ e.IsPanic) ∧
      ∃ acc, (runFrom (routerIfInput env w pkts) s).2.accesses = s.accesses ++ acc ∧
        ∀ a ∈ acc, a.buf ∈ pkts ∧ a.Inside := by
  have hw := watched_routerIfInput env w hnd hin h
  rcases hrun : runFrom (routerIfInput env w pkts) s with ⟨e | r, s'⟩
  · obtain ⟨⟨msg, rfl⟩, htr⟩ := hw.error hrun
    refine ⟨?_, htr⟩
    rintro _ ⟨⟩
    exact ⟨by simp, msg, rfl⟩
  · exact ⟨by simp, (hw.ok hrun).2⟩

/-- An ARP request of 42 bytes and an IPv4 packet: 23 accesses. -/
theorem header_accesses_inside_demo :
    ∃ acc, (runFrom (routerIfInput (demoEnv 2) 1 [1, 2])
        (demoState 2 [demoArp, demoIp])).2.accesses = [] ++ acc ∧ acc.length = 23 ∧
      ∀ a ∈ acc, a.buf ∈ [1, 2] ∧ a.Inside := by
  have hin : ∀ b ∈ [1, 2], b ∈ (demoState 2 [demoArp, demoIp]).pool.inuseList := by decide
  have hadm : ∀ b ∈ [1, 2], Admitted (demoEnv 2) (demoState 2 [demoArp, demoIp]) b := by
    simp only [List.mem_cons, List.not_mem_nil, or_false, forall_eq_or_imp, forall_eq]
    constructor <;> exact ⟨by decide, by decide, by decide, fun _ => Nat.le_refl _⟩
  obtain ⟨-, acc, hacc, hall⟩ := header_accesses_inside (demoEnv 2) 1 (by decide) hin hadm
  have hlen : (runFrom (routerIfInput (demoEnv 2) 1 [1, 2])
      (demoState 2 [demoArp, demoIp])).2.accesses.length = 23 := by decide +kernel
  rw [hacc] at hlen
  exact ⟨acc, hacc, hlen, hall⟩

end Router

end TrustedGateway
