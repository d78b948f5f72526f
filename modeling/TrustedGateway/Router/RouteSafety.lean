import TrustedGateway.Router

/-!
# Routes that can be used

`arp_resolve` panics when a route names an address of its interface that is not configured.  Routes
come from the table, and from the private area of a packet, where `router_ip_route` has put them.
If all of them can be used, the panic is not reached, and they stay usable: nothing in the router
changes the number of interfaces or their addresses.
-/

namespace TrustedGateway

open FlatMemory Programs

namespace Router

/-- The panic of `arp_resolve`. -/
def invalidAddrIdx : Abort := .panic "invalid if_addr_idx value"

/-- With `n` interfaces that have these addresses, `arp_resolve` finds a source address. -/
def RouteUsable (n : ℕ) (ips : ℕ → List Ip4Addr) (rt : RouteInfo) : Prop :=
  0 < rt.ifIdx.toNat → rt.ifIdx.toNat ≤ n → rt.ifAddrIdx.toNat < (ips rt.ifIdx.toNat).length

section Soundness

variable (n : ℕ) (ips : ℕ → List Ip4Addr) (P : RouteInfo → Prop)

/-- A router with `n` interfaces that have these addresses, and stored routes that meet `P`. -/
structure Provisioned (s : RouterState) : Prop where
  devCount : s.devCount = n
  addrs : ∀ i, (s.ifnet i).ips = ips i
  stored : ∀ b, P (s.priv b).route

/-- The program keeps the router provisioned, however it ends, and the panic is not reached. -/
def Sound {α : Type} (x : RouterM α) : Prop :=
  ∀ s, Provisioned n ips P s →
    Wp (fun e s' => e ≠ invalidAddrIdx ∧ Provisioned n ips P s') x
      (fun _ s' => Provisioned n ips P s') s

variable {n ips P}

namespace Sound

variable {α β : Type} {x : RouterM α} {f : α → RouterM β}

theorem pure (a : α) : Sound n ips P (pure a) := fun _ hs => hs

theorem throw {e : Abort} (he : e ≠ invalidAddrIdx) : Sound n ips P (throw e : RouterM α) :=
  fun _ hs => ⟨he, hs⟩

theorem bind (hx : Sound n ips P x) (hf : ∀ a, Sound n ips P (f a)) : Sound n ips P (x >>= f) :=
  fun s hs => (hx s hs).seq fun a s₁ hs₁ => hf a s₁ hs₁

theorem get_bind {f : RouterState → RouterM β}
    (hf : ∀ s, Provisioned n ips P s → Sound n ips P (f s)) : Sound n ips P (get >>= f) :=
  fun s hs => hf s hs s hs

theorem ite {c : Prop} [Decidable c] {x y : RouterM α} (hx : c → Sound n ips P x)
    (hy : ¬ c → Sound n ips P y) : Sound n ips P (if c then x else y) := by
  split
  · next hc => exact hx hc
  · next hc => exact hy hc

/-- Work that leaves interfaces, addresses and routes alone. -/
theorem modify {f : RouterState → RouterState} (hdev : ∀ s, (f s).devCount = s.devCount)
    (hips : ∀ s i, ((f s).ifnet i).ips = (s.ifnet i).ips)
    (hpriv : ∀ s b, ((f s).priv b).route = (s.priv b).route) :
    Sound n ips P (modify f : RouterM Unit) := by
  intro s hs
  exact ⟨(hdev s).trans hs.devCount, fun i => (hips s i).trans (hs.addrs i),
    fun b => (hpriv s b).symm ▸ hs.stored b⟩

end Sound

open Router.Sound

section Primitives

variable (m : BufId)

theorem sound_logOp (op : RouterOp) : Sound n ips P (logOp op) :=
  modify (fun _ => rfl) (fun _ _ => rfl) fun _ _ => rfl

theorem sound_bufFree : Sound n ips P (bufFree m) :=
  modify (fun _ => rfl) (fun _ _ => rfl) fun _ _ => rfl

theorem sound_setEb (f : EthBuf → EthBuf) : Sound n ips P (setEb m f) :=
  modify (fun _ => rfl) (fun _ _ => rfl) fun _ _ => rfl

theorem sound_setBytes (f : (ℕ → Byte) → ℕ → Byte) : Sound n ips P (setBytes m f) :=
  modify (fun _ => rfl) (fun _ _ => rfl) fun _ _ => rfl

theorem sound_release (size : ℕ) : Sound n ips P (release size) :=
  modify (fun _ => rfl) (fun _ _ => rfl) fun _ _ => rfl

theorem sound_setIfnet (i : ℕ) {f : Ifnet → Ifnet} (hf : ∀ ifp, (f ifp).ips = ifp.ips) :
    Sound n ips P (setIfnet i f) := by
  refine modify (fun _ => rfl) (fun s j => ?_) fun _ _ => rfl
  by_cases hj : j = i
  · subst hj
    simp [hf]
  · simp [hj]

/-- The private area of a packet, with a route that may be stored. -/
theorem sound_setPriv {f : MbufPriv → MbufPriv} (hf : ∀ p, P p.route → P (f p).route) :
    Sound n ips P (setPriv m f) := by
  intro s hs
  refine ⟨hs.devCount, hs.addrs, fun b => ?_⟩
  by_cases hb : b = m
  · subst hb
    simpa using hf _ (hs.stored b)
  · simpa [hb] using hs.stored b

theorem sound_bufFreeAll (bs : List BufId) : Sound n ips P (bufFreeAll bs) := by
  induction bs with
  | nil => exact .pure _
  | cons b bs ih => exact (sound_bufFree b).bind fun _ => ih

theorem sound_malloc (env : RouterEnv) (size : ℕ) : Sound n ips P (malloc env size) := by
  intro s hs
  exact ⟨hs.devCount, hs.addrs, hs.stored⟩

theorem sound_bufAlloc : Sound n ips P bufAlloc := by
  refine get_bind fun s hs => ?_
  split
  · next e he =>
    unfold EthPool.bufAlloc at he
    split at he
    · cases he
      exact throw (by decide)
    · cases he
  · exact fun _ _ => ⟨hs.devCount, hs.addrs, hs.stored⟩

theorem sound_hdrRead (ptr : Option ℕ) (off k : ℕ) : Sound n ips P (hdrRead m ptr off k) := by
  cases ptr with
  | none => exact throw (by decide)
  | some p => exact fun _ hs => ⟨hs.devCount, hs.addrs, hs.stored⟩

theorem sound_hdrWrite {k : ℕ} (ptr : Option ℕ) (off : ℕ) (v : Fin k → Byte) :
    Sound n ips P (hdrWrite m ptr off v) := by
  cases ptr with
  | none => exact throw (by decide)
  | some p => exact fun _ hs => ⟨hs.devCount, hs.addrs, hs.stored⟩

theorem sound_pktqDoMenqueue (w : ℕ) (outIfIdx : Word) (bs : List BufId) :
    Sound n ips P (pktqDoMenqueue w outIfIdx bs) := by
  refine ite (fun _ => .pure _) fun _ => get_bind fun s _ => ?_
  split
  · exact .pure _
  · refine Sound.bind (sound_setIfnet _ fun _ => rfl) fun _ =>
      Sound.bind (modify (fun _ => rfl) (fun _ _ => rfl) fun _ _ => rfl) fun _ =>
      (sound_bufFreeAll _).bind fun _ => ite (fun _ => .pure _) fun _ => ?_
    exact ite (fun _ => (sound_logOp _).bind fun _ => .pure _) fun _ => .pure _

end Primitives

/-! ## Towards the output -/

section Output

variable (hP : ∀ rt, P rt → RouteUsable n ips rt) (m : BufId)

theorem sound_arpRequestFill (hw : MacAddr) (src target : Ip4Addr) :
    Sound n ips P (arpRequestFill m hw src target) := by
  refine (sound_setEb m _).bind fun _ => (sound_setBytes m _).bind fun _ => get_bind fun s _ => ?_
  split
  · exact throw (by decide)
  · exact sound_setBytes m _

variable {enqueue : Word → BufId → RouterM ℤ} (henq : ∀ i x, Sound n ips P (enqueue i x))
include hP henq

/-- The source address is there. -/
theorem sound_arpResolve {rt : RouteInfo} (hrt : P rt) (hwaddr : ℕ) :
    Sound n ips P (arpResolve enqueue rt m hwaddr) := by
  refine get_bind fun s hs => ?_
  unfold ifnetGetbyidx
  by_cases hidx : rt.ifIdx.toNat = 0 ∨ s.devCount < rt.ifIdx.toNat
  · rw [if_pos hidx]
    exact .pure _
  rw [if_neg hidx]
  dsimp only
  split
  · exact (sound_setBytes m _).bind fun _ => .pure _
  split
  · next hnone =>
    have hlt := hP rt hrt (by omega) (by rw [← hs.devCount]; omega)
    rw [List.getElem?_eq_none_iff, hs.addrs] at hnone
    omega
  · refine (sound_bufAlloc.bind fun x => (sound_arpRequestFill x _ _ _).bind fun _ => .pure x).bind
      fun x => ?_
    exact (henq _ x).bind fun _ => .pure _

theorem sound_routerIfOutput (outIfp : Ifnet) :
    Sound n ips P (routerIfOutput enqueue outIfp m) := by
  refine get_bind fun s _ => ite (fun _ => .pure _) fun _ => ite (fun _ => .pure _) fun _ =>
    (sound_setEb m _).bind fun _ => (sound_setBytes m _).bind fun _ => get_bind fun s hs => ?_
  refine (sound_arpResolve hP m henq (hs.stored m) _).bind fun _ =>
    ite (fun _ => .pure _) fun _ => ?_
  exact (sound_setBytes m _).bind fun _ => .pure _

theorem sound_pktqPrepareEnqueue (outIfIdx : Word) :
    Sound n ips P (pktqPrepareEnqueue enqueue outIfIdx m) := by
  refine get_bind fun s _ => ?_
  split
  · exact .pure _
  · refine (sound_routerIfOutput hP m henq _).bind fun _ => ite (fun _ => .pure _) fun _ => ?_
    exact Sound.bind (sound_setPriv m fun _ h => h) fun _ => .pure _

end Output

section Packet

variable (env : RouterEnv) (w : ℕ) (hP : ∀ rt, P rt → RouteUsable n ips rt)
  (hT : ∀ a rt, env.rtable a = some rt → P (rt.resolve a)) (m : BufId)

include hP in
theorem sound_pktqEnqueueFuel (fuel : ℕ) (outIfIdx : Word) (m : BufId) :
    Sound n ips P (pktqEnqueueFuel w fuel outIfIdx m) := by
  induction fuel generalizing outIfIdx m with
  | zero => exact throw (by decide)
  | succ fuel ih =>
    refine (sound_pktqPrepareEnqueue hP m ih outIfIdx).bind fun _ =>
      ite (fun _ => .pure _) fun _ => ?_
    exact (sound_pktqDoMenqueue w outIfIdx [m]).bind fun _ => .pure _

include hP in
theorem sound_pktqEnqueue (outIfIdx : Word) (m : BufId) :
    Sound n ips P (pktqEnqueue w outIfIdx m) :=
  get_bind fun _ _ => sound_pktqEnqueueFuel w hP _ outIfIdx m

theorem sound_arpDrop : Sound n ips P (arpDrop m) := (sound_bufFree m).bind fun _ => .pure _

theorem sound_arpCache (i : ℕ) (ip : Ip4Addr) (mac : MacAddr) (allowNew : Bool) :
    Sound n ips P (arpCache env i ip mac allowNew) := by
  refine get_bind fun s _ => ite (fun _ => .pure _) fun _ => ite (fun _ => .pure _) fun _ =>
    (sound_malloc env _).bind fun _ => ite (fun _ => (sound_logOp _).bind fun _ => .pure _) fun _ =>
    get_bind fun s _ => ite (fun _ => ?_) fun _ => (sound_release _).bind fun _ => sound_logOp _
  exact Sound.bind (sound_setIfnet i fun _ => rfl) fun _ => sound_logOp _

include hP in
theorem sound_arpReply (ifp : Ifnet) (ah : Option ℕ) : Sound n ips P (arpReply w ifp m ah) := by
  refine (sound_hdrRead m _ _ _).bind fun _ => (sound_hdrWrite m _ _ _).bind fun _ =>
    (sound_hdrRead m _ _ _).bind fun _ => (sound_hdrWrite m _ _ _).bind fun _ =>
    (sound_hdrRead m _ _ _).bind fun _ => (sound_hdrWrite m _ _ _).bind fun _ =>
    (sound_hdrWrite m _ _ _).bind fun _ => (sound_hdrWrite m _ _ _).bind fun _ =>
    get_bind fun s _ => (sound_hdrRead m _ _ _).bind fun _ => (sound_hdrWrite m _ _ _).bind fun _ =>
    (sound_hdrWrite m _ _ _).bind fun _ => (sound_pktqEnqueue w hP _ m).bind fun _ => ?_
  exact ite (fun _ => sound_arpDrop m) fun _ => .pure _

include hP in
theorem sound_arpInput : Sound n ips P (arpInput env w m) := by
  refine get_bind fun s _ => (sound_hdrRead m _ _ _).bind fun _ => (sound_hdrRead m _ _ _).bind
    fun _ => (sound_hdrRead m _ _ _).bind fun _ => ite (fun _ => sound_arpDrop m) fun _ =>
    (sound_hdrRead m _ _ _).bind fun _ => (sound_hdrRead m _ _ _).bind fun _ => ?_
  split
  · exact sound_arpDrop m
  · refine (sound_hdrRead m _ _ _).bind fun _ => (sound_hdrRead m _ _ _).bind fun _ =>
      (sound_arpCache env w _ _ _).bind fun _ => (sound_hdrRead m _ _ _).bind fun _ => ?_
    exact ite (fun _ => sound_arpReply w hP m _ _) fun _ => sound_arpDrop m

theorem sound_firewallProcess (di : Pfil) : Sound n ips P (firewallProcess env m di) := by
  refine (sound_setEb m _).bind fun _ => (sound_setBytes m _).bind fun _ => ?_
  cases (env.npf m di).verdict with
  | pass => exact .pure _
  | block => exact (sound_bufFree m).bind fun _ => .pure _
  | consumed freed =>
    exact ite (fun _ => (sound_bufFree m).bind fun _ => .pure _)
      fun _ => (sound_logOp _).bind fun _ => .pure _

include hP in
theorem sound_l2Input : Sound n ips P (l2Input env w m) := by
  refine get_bind fun s _ => ite (fun _ => Sound.throw (by decide)) fun _ =>
    (sound_hdrRead m _ _ _).bind fun _ => Sound.bind (sound_setPriv m fun _ h => h) fun _ =>
    (sound_setEb m _).bind fun _ => ite (fun _ => sound_arpInput env w hP m) fun _ =>
    ite (fun _ => ?_) fun _ => (sound_bufFree m).bind fun _ => .pure _
  refine (sound_setEb m _).bind fun _ => ite (fun _ => Sound.throw (by decide)) fun _ => ?_
  exact (sound_setEb m _).bind fun _ => .pure _

include hT in
/-- The route that is stored is one of the table. -/
theorem sound_routerIpRoute : Sound n ips P (routerIpRoute env m) := by
  refine get_bind fun s _ => ite (fun _ => .pure _) fun _ => (sound_hdrRead m _ _ _).bind fun _ =>
    ite (fun _ => .pure _) fun _ => (sound_hdrRead m _ _ _).bind fun addr => ?_
  split
  · exact .pure _
  · next rt hrt => exact (sound_setPriv m fun _ _ => hT addr rt hrt).bind fun _ => .pure _

include hP in
theorem sound_routerIpOutput (outIfIdx : Word) :
    Sound n ips P (routerIpOutput env w m outIfIdx) := by
  refine get_bind fun s _ => ?_
  split
  · exact (sound_bufFree m).bind fun _ => .pure _
  · refine (sound_firewallProcess env m .dirOut).bind fun _ => ite (fun _ => .pure _) fun _ =>
      (sound_pktqPrepareEnqueue hP m (fun i x => sound_pktqEnqueue w hP i x) _).bind fun _ => ?_
    exact ite (fun _ => (sound_bufFree m).bind fun _ => .pure _) fun _ => .pure _

include hP hT

theorem sound_routePacket : Sound n ips P (routePacket env w m) := by
  refine (sound_l2Input env w hP m).bind fun _ => ite (fun _ => .pure _) fun _ =>
    (sound_firewallProcess env m .dirIn).bind fun _ => ite (fun _ => .pure _) fun _ =>
    (sound_routerIpRoute env hT m).bind fun r => ?_
  cases r with
  | none => exact (sound_bufFree m).bind fun _ => .pure _
  | some i =>
    exact (sound_routerIpOutput env w hP m i).bind fun _ => ite (fun _ => .pure _) fun _ =>
      (sound_logOp _).bind fun _ => .pure _

omit m in
theorem sound_routeLoop (ms : List BufId) (a : OutArr) : Sound n ips P (routeLoop env w ms a) := by
  induction ms generalizing a with
  | nil => exact .pure _
  | cons m ms ih => exact (sound_routePacket env w hP hT m).bind fun r => ih _

omit hP hT m env in
theorem sound_flushLoop (a : OutArr) (js : List ℕ) : Sound n ips P (flushLoop w a js) := by
  induction js with
  | nil => exact .pure _
  | cons j js ih =>
    rw [flushLoop]
    split
    · exact (sound_pktqDoMenqueue w _ _).bind fun _ => ih
    · exact ih

omit m in
/-- **A batch** keeps the router provisioned, and the panic is not reached. -/
theorem sound_routerIfInput (pkts : List BufId) : Sound n ips P (routerIfInput env w pkts) := by
  refine ite (fun _ => .pure _) fun _ => get_bind fun s _ => (sound_malloc env _).bind fun _ =>
    (sound_malloc env _).bind fun _ => ite (fun _ => ?_) fun _ => ?_
  · refine (sound_logOp _).bind fun _ => (sound_bufFreeAll pkts).bind fun _ => ?_
    exact ite (fun _ => (sound_release _).bind fun _ => .pure _) fun _ => .pure _
  · exact (sound_routeLoop env w hP hT pkts _).bind fun a => (sound_flushLoop w a _).bind fun _ =>
      (sound_release _).bind fun _ => sound_release _

end Packet

end Soundness

end Router

end TrustedGateway
