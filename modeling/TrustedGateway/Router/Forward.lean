import TrustedGateway.EthBuf.Linearize
import TrustedGateway.Router.Batch

/-!
# Forwarded packets

A packet that both passes of the firewall let through, with a route whose next hop is known, goes
all the way: the Ethernet header is cut off, found again in front of the data, and written anew.
This module follows such a packet to its row of the output array, and from there to the queue of
the interface.  It gets there if the interface has a bit in `egr_idx`.
-/

namespace TrustedGateway

open FlatMemory Programs Custody

namespace Router

/-- The packet in `m` is an IPv4 frame with a way through the router: along `rt`, to a next hop with
the address `mac`. -/
structure Forwardable (env : RouterEnv) (s : RouterState) (m : BufId) (rt : RouteInfo)
    (mac : MacAddr) : Prop where
  l2 : (s.pool.eb m).packetType &&& rtePtypeL2Mask ≠ 0
  len : 42 ≤ (s.pool.eb m).dataLen.toNat
  fits : (s.pool.eb m).dataOff.toNat + (s.pool.eb m).dataLen.toNat < 2 ^ 32
  ipv4 : ntohs (field 2 (s.sec m) ((s.pool.eb m).dataOff.toNat + 12)) = rteEtherTypeIpv4
  pass : ∀ di, env.npf m di = .passUnmodified
  ttl : 1 < (s.sec m ((s.pool.eb m).dataOff.toNat + 14 + 8)).toNat
  route : env.rtable (field 4 (s.sec m) ((s.pool.eb m).dataOff.toNat + 14 + 16)) = some rt
  out : 0 < rt.ifIdx.toNat ∧ rt.ifIdx.toNat ≤ s.devCount
  known : (s.ifnet rt.ifIdx.toNat).arpCache
    (rt.resolve (field 4 (s.sec m) ((s.pool.eb m).dataOff.toNat + 14 + 16))).nextHop = some mac

/-- The frame in `m` has the same length and place, a new Ethernet header of the same type, and the
same bytes behind. -/
structure Rewritten (s s' : RouterState) (m : BufId) (src dst : MacAddr) : Prop where
  dataLen : (s'.pool.eb m).dataLen = (s.pool.eb m).dataLen
  dataOff : (s'.pool.eb m).dataOff = (s.pool.eb m).dataOff
  dstAddr : field 6 (s'.sec m) (s.pool.eb m).dataOff.toNat = dst
  srcAddr : field 6 (s'.sec m) ((s.pool.eb m).dataOff.toNat + 6) = src
  etherType : field 2 (s'.sec m) ((s.pool.eb m).dataOff.toNat + 12) =
    field 2 (s.sec m) ((s.pool.eb m).dataOff.toNat + 12)
  payload : ∀ k, 14 ≤ k → s'.sec m ((s.pool.eb m).dataOff.toNat + k) =
    s.sec m ((s.pool.eb m).dataOff.toNat + k)

/-- A bit that was set is set. -/
theorem or_and_ne_zero (x : Word) {c : Word} (hc : c ≠ 0) : (x ||| c) &&& c ≠ 0 := by
  have habs : (x ||| c) &&& c = c := by
    apply BitVec.eq_of_getLsbD_eq
    intro i _
    rw [BitVec.getLsbD_and, BitVec.getLsbD_or]
    cases x.getLsbD i <;> cases c.getLsbD i <;> rfl
  rwa [habs]

section Way

variable {env : RouterEnv} (w : ℕ) {s s₁ s₂ : RouterState} {m : BufId} {rt : RouteInfo}
  {mac : MacAddr} {E : Abort → RouterState → Prop}

/-- The packet in `m` without its Ethernet header; everything else is as it was. -/
structure Cut (s s₁ : RouterState) (m : BufId) : Prop where
  dataOff : (s₁.pool.eb m).dataOff = (s.pool.eb m).dataOff + rteEtherHdrLen
  dataLen : (s₁.pool.eb m).dataLen = (s.pool.eb m).dataLen - rteEtherHdrLen
  ipv4 : (s₁.pool.eb m).packetType &&& rtePtypeL3Ipv4 ≠ 0
  needL2 : (s₁.pool.eb m).privFlags &&& mbufNpfNeedL2 ≠ 0
  etherType : (s₁.priv m).etherType = field 2 (s.sec m) ((s.pool.eb m).dataOff.toNat + 12)
  sec : s₁.sec = s.sec
  ifnet : s₁.ifnet = s.ifnet
  devCount : s₁.devCount = s.devCount

theorem wp_l2Input_ipv4 (h : Forwardable env s m rt mac) :
    Wp E (l2Input env w m) (fun r s₁ => r = 0 ∧ Cut s s₁ m) s := by
  have hlen := h.len
  have hdata : (s.pool.eb m).dataLen ≠ 0 := by
    rw [← BitVec.toNat_ne_iff_ne]
    show _ ≠ 0
    omega
  have hptr := ethbufDataPtr_zero hdata
  have hne : ntohs (field 2 (s.sec m) ((s.pool.eb m).dataOff.toNat + 12)) ≠ rteEtherTypeArp := by
    rw [h.ipv4]
    decide
  have hcut : ¬ (s.pool.eb m).dataLen < rteEtherHdrLen := by
    rw [BitVec.lt_def]
    show ¬ _ < 14
    omega
  simp only [l2Input, l2Ipv4, setPriv, setEb, wp_bind, wp_get, wp_modify, wp_pure, hptr,
    wp_hdrRead_some, if_neg h.l2, if_neg hne, if_pos h.ipv4, if_neg hcut, EthPool.eb_setEb_self,
    true_and]
  exact ⟨by simp, by simp, by simpa using or_and_ne_zero _ (by decide),
    by simpa using or_and_ne_zero _ (by decide), by simp, rfl, rfl, rfl⟩

/-- The firewall lets the packet pass. -/
theorem wp_firewallProcess_pass {di : Pfil} (h : env.npf m di = .passUnmodified)
    {Q : ℤ → RouterState → Prop} : Wp E (firewallProcess env m di) Q s ↔ Q 0 s := by
  simp only [firewallProcess, h, NpfResult.passUnmodified, setEb, setBytes, wp_bind, wp_modify,
    wp_pure, id, EthPool.setEb, Function.update_eq_self]

/-- A route is found. -/
theorem wp_routerIpRoute (h : Forwardable env s m rt mac) (hdev : s.devCount ≤ 32)
    (hc : Cut s s₁ m) :
    Wp E (routerIpRoute env m) (fun r s₂ => r = some rt.ifIdx ∧ Cut s s₂ m ∧ (s₂.priv m).route =
      rt.resolve (field 4 (s.sec m) ((s.pool.eb m).dataOff.toNat + 14 + 16))) s₁ := by
  have hlen := h.len
  have hfits := h.fits
  have hoff : (s₁.pool.eb m).dataOff.toNat = (s.pool.eb m).dataOff.toNat + 14 := by
    rw [hc.dataOff, BitVec.toNat_add]
    show (_ + 14) % _ = _
    omega
  have hptr : ethbufDataPtr (s₁.pool.eb m) 0 = some ((s.pool.eb m).dataOff.toNat + 14) := by
    rw [← hoff]
    apply ethbufDataPtr_zero
    rw [hc.dataLen, ← BitVec.toNat_ne_iff_ne, BitVec.toNat_sub]
    show (2 ^ 32 - 14 + _) % _ ≠ 0
    omega
  have hidx : rt.ifIdx ≠ -1 := by
    intro hidx
    have hout := h.out.2
    rw [hidx] at hout
    exact absurd (hout.trans hdev) (by decide)
  have httl : ¬ (field 1 (s.sec m) ((s.pool.eb m).dataOff.toNat + 14 + 8) 0).toNat ≤ 1 :=
    Nat.not_le.mpr h.ttl
  simp only [routerIpRoute, setPriv, wp_bind, wp_get, wp_modify, wp_pure, if_neg hc.ipv4, hptr,
    wp_hdrRead_some, sec_accessed, hc.sec, if_neg httl, h.route, RouteInfo.ifIdx_resolve,
    if_neg hidx, Function.update_self, and_true, true_and]
  exact ⟨hc.dataOff, hc.dataLen, hc.ipv4, hc.needL2, by simpa using hc.etherType, rfl, hc.ifnet,
    hc.devCount⟩

/-- The next hop is in the cache. -/
theorem wp_arpResolve_known (mac : MacAddr) {enqueue : Word → BufId → RouterM ℤ} {rt : RouteInfo}
    {hwaddr : ℕ}
    {Q : ℤ → RouterState → Prop} (hidx : ¬ (rt.ifIdx.toNat = 0 ∨ s.devCount < rt.ifIdx.toNat))
    (hknown : (s.ifnet rt.ifIdx.toNat).arpCache rt.nextHop = some mac) :
    Wp E (arpResolve enqueue rt m hwaddr) Q s ↔
      Q 0 { s with sec := Function.update s.sec m (setField (s.sec m) hwaddr mac) } := by
  simp only [arpResolve, setBytes, wp_bind, wp_get, ifnetGetbyidx, if_neg hidx, hknown, wp_modify,
    wp_pure]

/-- The packet gets its new Ethernet header. -/
theorem wp_routerIpOutput (h : Forwardable env s m rt mac) (hc : Cut s s₂ m)
    (hrt : (s₂.priv m).route =
      rt.resolve (field 4 (s.sec m) ((s.pool.eb m).dataOff.toNat + 14 + 16))) :
    Wp E (routerIpOutput env w m rt.ifIdx) (fun r s' => r = 0 ∧
      Rewritten s s' m (s.ifnet rt.ifIdx.toNat).hwaddr mac) s₂ := by
  have hlen := h.len
  have hfits := h.fits
  have hidx : ¬ (rt.ifIdx.toNat = 0 ∨ s.devCount < rt.ifIdx.toNat) := by
    have hout := h.out
    omega
  have hspace : ¬ (s₂.pool.eb m).dataOff < rteEtherHdrLen := by
    rw [BitVec.lt_def, hc.dataOff, BitVec.toNat_add]
    show ¬ (_ + 14) % _ < 14
    omega
  have hback : (s₂.pool.eb m).dataOff - rteEtherHdrLen = (s.pool.eb m).dataOff := by
    rw [hc.dataOff, BitVec.add_sub_cancel]
  have hfull : (s₂.pool.eb m).dataLen + rteEtherHdrLen = (s.pool.eb m).dataLen := by
    rw [hc.dataLen, BitVec.sub_add_cancel]
  have hzero : ¬ (0 : ℤ) ≠ 0 := by decide
  have hminus : ¬ (0 : ℤ) = -1 := by decide
  have hroute : (s₂.priv m).route.ifIdx = rt.ifIdx := by rw [hrt, RouteInfo.ifIdx_resolve]
  simp only [routerIpOutput, wp_bind, wp_get, ifnetGetbyidx, hc.devCount, hc.ifnet, if_neg hidx,
    wp_firewallProcess_pass (h.pass _), if_neg hzero, pktqPrepareEnqueue, routerIfOutput,
    if_neg hc.needL2, if_neg hspace, setEb, setBytes, wp_modify]
  rw [wp_arpResolve_known mac (by rwa [hroute]) (by rw [hroute, hrt]; exact h.known)]
  simp only [if_neg hminus, setPriv, wp_bind, wp_modify, wp_pure, Function.update_self,
    Function.update_idem, hc.sec, hback, hfull, hc.etherType, true_and]
  constructor
  case dataLen => simp
  case dataOff => simp
  case dstAddr =>
    simp only [Function.update_self]
    rw [field_setField_of_disjoint (by omega), field_setField_self]
  case srcAddr =>
    simp only [Function.update_self]
    rw [field_setField_of_disjoint (by omega), field_setField_of_disjoint (by omega),
      field_setField_self]
  case etherType => simp only [Function.update_self, field_setField_self]
  case payload =>
    intro k hk
    simp only [Function.update_self]
    rw [setField_of_notMem, setField_of_notMem, setField_of_notMem] <;>
      simp only [Set.mem_Ico] <;> omega

/-- **The way of a forwardable packet**: it reaches the row of its interface, with its new
header. -/
theorem wp_routePacket_forward (h : Forwardable env s m rt mac) (hdev : s.devCount ≤ 32) :
    Wp E (routePacket env w m) (fun r s' => r = some rt.ifIdx ∧
      Rewritten s s' m (s.ifnet rt.ifIdx.toNat).hwaddr mac) s := by
  refine (wp_l2Input_ipv4 w h).seq ?_
  rintro _ s₁ ⟨rfl, hc₁⟩
  rw [if_neg (by decide), wp_bind, wp_firewallProcess_pass (h.pass _), if_neg (by decide)]
  refine (wp_routerIpRoute h hdev hc₁).seq ?_
  rintro _ s₂ ⟨rfl, hc₂, hrt⟩
  refine (wp_routerIpOutput w h hc₂ hrt).seq ?_
  rintro _ s₃ ⟨rfl, hnew⟩
  exact ⟨rfl, hnew.dataLen, hnew.dataOff, hnew.dstAddr, hnew.srcAddr, hnew.etherType, hnew.payload⟩

end Way

/-! ## Among the packets of a batch -/

section Batch

variable {env : RouterEnv} {w : ℕ} {s s₁ s' : RouterState} {m : BufId} {rt : RouteInfo}
  {mac src dst : MacAddr}

/-- The names an interface has, which nothing changes. -/
theorem hwaddr_foldl_after (i : ℕ) (ops : List RouterOp) (ifp : Ifnet) :
    (ops.foldl (Ifnet.after i) ifp).hwaddr = ifp.hwaddr := by
  induction ops generalizing ifp with
  | nil => rfl
  | cons op ops ih =>
    rw [List.foldl_cons, ih]
    cases op <;> simp only [Ifnet.after] <;> split <;> rfl

/-- While others have their turn, a packet stays forwardable. -/
theorem Forwardable.of_others (h : Forwardable env s m rt mac) (hc : contents s₁ m = contents s m)
    (hdev : s₁.devCount = s.devCount)
    (hcache : ∀ i ip mac, (s.ifnet i).arpCache ip = some mac →
      (s₁.ifnet i).arpCache ip = some mac) : Forwardable env s₁ m rt mac := by
  obtain ⟨heb, hsec, -⟩ := contents_eq_iff.mp hc
  obtain ⟨h₁, h₂, h₃, h₄, h₅, h₆, h₇, h₈, h₉⟩ := h
  rw [← heb] at h₁ h₂ h₃ h₄ h₆ h₇ h₉
  rw [← hsec] at h₄ h₆ h₇ h₉
  exact ⟨h₁, h₂, h₃, h₄, h₅, h₆, h₇, hdev ▸ h₈, hcache _ _ _ h₉⟩

theorem Rewritten.of_before (h : Rewritten s₁ s' m src dst) (hc : contents s₁ m = contents s m) :
    Rewritten s s' m src dst := by
  obtain ⟨heb, hsec, -⟩ := contents_eq_iff.mp hc
  obtain ⟨h₁, h₂, h₃, h₄, h₅, h₆⟩ := h
  rw [heb] at h₁ h₂ h₃ h₄ h₅ h₆
  rw [hsec] at h₅ h₆
  exact ⟨h₁, h₂, h₃, h₄, h₅, h₆⟩

theorem Rewritten.of_after (h : Rewritten s s₁ m src dst) (hc : contents s' m = contents s₁ m) :
    Rewritten s s' m src dst := by
  obtain ⟨heb, hsec, -⟩ := contents_eq_iff.mp hc
  obtain ⟨h₁, h₂, h₃, h₄, h₅, h₆⟩ := h
  rw [← heb] at h₁ h₂
  rw [← hsec] at h₃ h₄ h₅ h₆
  exact ⟨h₁, h₂, h₃, h₄, h₅, h₆⟩

/-- What the first loop did, and that `m` is in its row with its new header. -/
def Reached (s : RouterState) (m : BufId) (rt : RouteInfo) (mac : MacAddr) (ops : List RouterOp)
    (s₁ : RouterState) : Prop :=
  (rt.ifIdx.toNat, m) ∈ routes ops ∧ Rewritten s s₁ m (s.ifnet rt.ifIdx.toNat).hwaddr mac

/-- The first loop takes a forwardable packet to its row. -/
theorem post_routeLoop_forward {ms : List BufId} (hnd : ms.Nodup) (a : OutArr) (s : RouterState)
    (hin : ∀ b ∈ ms, b ∈ s.pool.inuseList) (hm : m ∈ ms) (h : Forwardable env s m rt mac)
    (hdev : s.devCount ≤ 32) :
    Post (routeLoop env w ms a) (fun a' s' => ∃ ops, Looped env w ms s ops s' ∧
      a' = (routes ops).foldl (fun a p => a.add p.1 p.2) a ∧ Reached s m rt mac ops s') s := by
  induction ms generalizing a s with
  | nil => simp at hm
  | cons c ms ih =>
    have hms : ∀ b ∈ ms, b ∈ s.pool.inuseList := fun b hb => hin b (List.mem_cons_of_mem _ hb)
    obtain ⟨hmem, hnd'⟩ := List.nodup_cons.mp hnd
    have hin₁ : ∀ {ops s₁}, Moved {c} s ops s₁ → ∀ b ∈ ms, b ∈ s₁.pool.inuseList :=
      fun hmv b hb => (hmv.waiting hmem hms b hb).1
    have hstep := (wp_routePacket_routes env w (hin c List.mem_cons_self)).post
    by_cases hcm : m = c
    · subst hcm
      refine ((wp_routePacket_forward w h hdev).and hstep).seq ?_
      rintro r s₁ ⟨⟨rfl, hnew⟩, ops, hmv, ht, hr⟩
      refine (wp_routeLoop env w hnd' _ s₁ (hin₁ hmv)).post.imp fun a' s' ⟨ops', hloop, ha⟩ => ?_
      refine ⟨ops ++ ops', .cons env w hnd hms hmv ht hr hloop, ?_, ?_, ?_⟩
      · rw [ha, routes_append, List.foldl_append, hr.1]
        rfl
      · rw [routes_append, hr.1]
        exact List.mem_append_left _ List.mem_cons_self
      · exact hnew.of_after (hloop.moved.others m hr.2.2.2.2.2 hmem).2.2
    · have hm' : m ∈ ms := (List.mem_cons.mp hm).resolve_left hcm
      refine hstep.seq fun r s₁ ⟨ops, hmv, ht, hr⟩ => ?_
      obtain ⟨-, -, hc⟩ := hmv.others m (hms m hm') hcm
      have h₁ : Forwardable env s₁ m rt mac :=
        h.of_others hc hmv.devCount fun i ip mac hk => ht.keeps w hk
      refine (ih hnd' _ s₁ (hin₁ hmv) hm' h₁ (hmv.devCount ▸ hdev)).imp
        fun a' s' ⟨ops', hloop, ha, hroute, hnew⟩ => ?_
      refine ⟨ops ++ ops', .cons env w hnd hms hmv ht hr hloop, ?_, ?_, ?_⟩
      · rw [ha, routes_append, List.foldl_append]
        cases r <;> rw [hr.1] <;> rfl
      · rw [routes_append]
        exact List.mem_append_right _ hroute
      · rw [hmv.ifnet, hwaddr_foldl_after] at hnew
        exact hnew.of_before hc

/-- The packet reached the row of its interface, and it was queued there with its new header, or
freed because the queue is full. -/
def Forwarded (s s' : RouterState) (m : BufId) (rt : RouteInfo) (mac : MacAddr) : Prop :=
  ∃ ops, s'.log = s.log ++ ops ∧ .routed rt.ifIdx.toNat m ∈ ops ∧
    ((.enqueue rt.ifIdx.toNat m ∈ ops ∧
        Rewritten s s' m (s.ifnet rt.ifIdx.toNat).hwaddr mac) ∨
      (.free m ∈ ops ∧ (s'.ifnet rt.ifIdx.toNat).egress.isFull))

/-- A packet in a row with a bit is queued, or freed because the queue is full. -/
theorem Batched.forwarded {pkts : List BufId} (hnd : pkts.Nodup)
    (h : Batched env w s pkts (Reached s m rt mac) s') (h7 : rt.ifIdx.toNat ≤ 7) :
    Forwarded s s' m rt mac := by
  obtain ⟨ops, s₁, s₂, hloop, ⟨hroute, hnew⟩, hflush, used, rfl⟩ := h
  have hrs : ((routes ops).map Prod.snd).Nodup := hnd.sublist hloop.order
  have hu : (outArr (routes ops)).used rt.ifIdx.toNat :=
    (used_outArr _ _).mpr ⟨by omega, List.mem_map_of_mem hroute⟩
  have hjs : rt.ifIdx.toNat ∈ List.range' 1 s.devCount := by
    obtain ⟨hpos, hle, -⟩ := hloop.index _ hroute
    rw [List.mem_range'_1]
    omega
  have hqueue := enqueued_flushOps w (outArr (routes ops)) s₁
    (List.nodup_range' (n := s.devCount) (s := 1)) rt.ifIdx.toNat
  rw [if_pos ⟨hjs, hu⟩, row_outArr] at hqueue
  refine ⟨ops ++ flushOps w (outArr (routes ops)) s₁ (List.range' 1 s.devCount), ?_,
    List.mem_append_left _ (mem_routes.mp hroute), ?_⟩
  · rw [hflush.log, hloop.moved.log, List.append_assoc]
  generalize hi : rt.ifIdx.toNat = i at *
  have hrow : m ∈ rowOf (routes ops) i := mem_rowOf.mpr hroute
  generalize hn : ((s₁.ifnet i).egress.bulkAddBuff (rowOf (routes ops) i)).1 = n at hqueue
  rw [← List.take_append_drop n (rowOf (routes ops) i), List.mem_append] at hrow
  rcases hrow with htake | hdrop
  · left
    refine ⟨List.mem_append_right _ (mem_enqueued.mp (hqueue ▸ htake)), hnew.of_after ?_⟩
    refine hflush.quiet m fun hfree => ?_
    obtain ⟨j, -, -, hj⟩ := (free_mem_flushOps w).mp hfree
    rw [row_outArr] at hj
    obtain rfl : i = j := by
      by_contra hij
      exact disjoint_rowOf hrs hij (List.mem_of_mem_take htake) (List.mem_of_mem_drop hj)
    rw [hn] at hj
    exact List.disjoint_take_drop (nodup_rowOf hrs i) le_rfl htake hj
  · right
    refine ⟨List.mem_append_right _ ((free_mem_flushOps w).mpr ⟨i, hjs, hu, ?_⟩), ?_⟩
    · rwa [row_outArr, hn]
    · show PktQueue.isFull (s₂.ifnet i).egress
      have hlen : n < (rowOf (routes ops) i).length := by
        by_contra hge
        rw [List.drop_eq_nil_of_le (by omega)] at hdrop
        cases hdrop
      rw [hflush.ifnet, egress_foldl_after, hqueue, PktQueue.isFull, PktQueue.count_foldl_push,
        PktQueue.capacity_foldl_push, List.length_take]
      simp only [PktQueue.bulkAddBuff] at hn
      simp only [decide_eq_true_eq]
      omega

/-- A packet in a row without a bit stays where it is. -/
theorem Batched.not_ended {pkts : List BufId} {R : List RouterOp → RouterState → Prop} {i : ℕ}
    (hnd : pkts.Nodup) (h : Batched env w s pkts R s')
    (hR : ∀ ops s₁, R ops s₁ → (i, m) ∈ routes ops) (h8 : 8 ≤ i) :
    ∃ ops, s'.log = s.log ++ ops ∧ .routed i m ∈ ops ∧ ∀ op ∈ ops, op.ends ≠ some m := by
  obtain ⟨ops, s₁, s₂, hloop, hr, hflush, used, rfl⟩ := h
  have hroute := hR ops s₁ hr
  have hrs : ((routes ops).map Prod.snd).Nodup := hnd.sublist hloop.order
  refine ⟨ops ++ flushOps w (outArr (routes ops)) s₁ (List.range' 1 s.devCount), ?_,
    List.mem_append_left _ (mem_routes.mp hroute), ?_⟩
  · rw [hflush.log, hloop.moved.log, List.append_assoc]
  · intro op hop hend
    rcases List.mem_append.mp hop with hop | hop
    · exact (hloop.routed _ hroute).1 op hop hend
    · obtain ⟨j, -, hu, hj⟩ := exists_of_ends_flushOps w hop hend
      rw [row_outArr] at hj
      have hj8 := ((used_outArr _ j).mp hu).1
      exact disjoint_rowOf hrs (by omega) (mem_rowOf.mpr hroute) hj

theorem Forwardable.of_heap (h : Forwardable env s m rt mac) (n used : ℕ) :
    Forwardable env { s with mallocs := n, heapUsed := used } m rt mac :=
  ⟨h.l2, h.len, h.fits, h.ipv4, h.pass, h.ttl, h.route, h.out, h.known⟩

/-- A batch of one forwardable packet comes to its end. -/
theorem exists_run_of_forwardable (h : Forwardable env s m rt mac) (hdev : s.devCount ≤ 32)
    (hm : m ∈ s.pool.inuseList) : ∃ s', runFrom (routerIfInput env w [m]) s = (.ok (), s') := by
  have hloop : ∀ n used, Wp (fun _ _ => False) (routeLoop env w [m] ⟨0, fun _ => []⟩)
      (fun _ _ => True) { s with mallocs := n, heapUsed := used } :=
    fun n used => (wp_routePacket_forward w (h.of_heap n used) hdev).seq fun _ _ _ => trivial
  have hin : ∀ b ∈ [m], b ∈ s.pool.inuseList := by simpa using hm
  have hnd : [m].Nodup := List.nodup_singleton m
  obtain ⟨⟨⟩, s', hrun, -⟩ := (wp_routerIfInput env w hnd fun n used =>
    ((hloop n used).and (wp_routeLoop_heap env w hnd hin n used).post).imp
      fun _ _ h => h.2).exists_ok
  exact ⟨s', hrun⟩

/-- The first loop, from the state with the arrays allocated. -/
theorem post_routeLoop_forward_heap {pkts : List BufId} (hnd : pkts.Nodup)
    (hin : ∀ b ∈ pkts, b ∈ s.pool.inuseList) (hm : m ∈ pkts) (h : Forwardable env s m rt mac)
    (hdev : s.devCount ≤ 32) (n used : ℕ) : Post (routeLoop env w pkts ⟨0, fun _ => []⟩)
      (fun a s₁ => ∃ ops, Looped env w pkts s ops s₁ ∧ a = outArr (routes ops) ∧
        Reached s m rt mac ops s₁) { s with mallocs := n, heapUsed := used } := by
  refine (post_routeLoop_forward hnd _ { s with mallocs := n, heapUsed := used } hin hm
    (h.of_heap n used) hdev).imp fun a s₁ ⟨ops, hloop, ha, hroute, hnew⟩ => ?_
  exact ⟨ops, hloop.of_heap, ha, hroute, hnew.of_before rfl⟩

end Batch

/-- **Forwarded packets.**  An IPv4 frame with a route to a known next hop that the firewall lets
through comes out of a batch queued on the interface of its route, with the cached address of the
next hop, the interface's own address and its old type in front of the same bytes, unless the queue
is full -- exactly if that interface has one of the bits 0 to 7 of `egr_idx`, and the arrays of
`router_if_input` could be allocated. -/
theorem forwarded_iff (env : RouterEnv) (w : ℕ) {s : RouterState} {m : BufId} {rt : RouteInfo}
    {mac : MacAddr} (h : Forwardable env s m rt mac) (hdev : s.devCount ≤ 32)
    (hin : m ∈ s.pool.inuseList) :
    (∃ s', runFrom (routerIfInput env w [m]) s = (.ok (), s')) ∧
      ∀ pkts s', pkts.Nodup → (∀ b ∈ pkts, b ∈ s.pool.inuseList) → m ∈ pkts →
        runFrom (routerIfInput env w pkts) s = (.ok (), s') →
        (Forwarded s s' m rt mac ↔ rt.ifIdx.toNat ≤ 7 ∧ ArraysFit env s pkts) := by
  refine ⟨exists_run_of_forwardable h hdev hin, ?_⟩
  intro pkts s' hnd hin hm hrun
  have hpost := (wp_routerIfInput env w hnd
    (post_routeLoop_forward_heap hnd hin hm h hdev)).ok hrun
  rcases hpost with ⟨rfl, -⟩ | ⟨hno, hmv⟩ | ⟨hfit, hb⟩
  · cases hm
  · -- without memory nothing is routed
    refine ⟨?_, fun ⟨_, hfit⟩ => absurd hfit hno⟩
    rintro ⟨ops, hlog, hroute, -⟩
    rw [hmv.log, List.append_cancel_left_eq] at hlog
    simp [← hlog] at hroute
  · constructor
    · rintro ⟨ops, hlog, -, hend⟩
      refine ⟨?_, hfit⟩
      by_contra h8
      obtain ⟨ops', hlog', -, hno⟩ := hb.not_ended hnd (fun _ _ hr => hr.1) (by omega)
      rw [hlog, List.append_cancel_left_eq] at hlog'
      subst hlog'
      rcases hend with ⟨hend, -⟩ | ⟨hend, -⟩ <;> exact hno _ hend rfl
    · rintro ⟨h7, -⟩
      exact hb.forwarded hnd h7

section Demo

/-- Eight interfaces, on which every address is known, and one packet. -/
def demoKnown : RouterState :=
  { demoState 8 [demoIp] with
    ifnet := fun i => { demoIfnet i with arpCache := fun _ => some ![2, 0, 0, 0, 1, 7] } }

theorem forwardable_demoKnown {out : Word} (h : 0 < out.toNat ∧ out.toNat ≤ 8) :
    Forwardable (demoEnv out) demoKnown 1 ⟨out, 0, fun _ => 0, 0⟩ ![2, 0, 0, 0, 1, 7] where
  l2 := by decide
  len := by decide
  fits := by decide
  ipv4 := by decide
  pass := fun _ => rfl
  ttl := by decide
  route := rfl
  out := h
  known := rfl

/-- Through interface 2 the packet goes out. -/
theorem forwarded_iff_two :
    ∃ s', runFrom (routerIfInput (demoEnv 2) 1 [1]) demoKnown = (.ok (), s') ∧
      Forwarded demoKnown s' 1 ⟨2, 0, fun _ => 0, 0⟩ ![2, 0, 0, 0, 1, 7] := by
  have h : Forwardable (demoEnv 2) demoKnown 1 ⟨2, 0, fun _ => 0, 0⟩ ![2, 0, 0, 0, 1, 7] :=
    forwardable_demoKnown (by decide)
  obtain ⟨⟨s', hrun⟩, hiff⟩ := forwarded_iff (demoEnv 2) 1 h (by decide) (by decide)
  refine ⟨s', hrun, (hiff [1] s' (by decide) (by decide) (by decide) hrun).mpr ?_⟩
  exact ⟨by decide, rfl, rfl⟩

/-- Through interface 8 it does not: the packet was routed, and nothing else happened to it. -/
theorem not_forwarded_eight :
    ∃ s', runFrom (routerIfInput (demoEnv 8) 1 [1]) demoKnown = (.ok (), s') ∧
      Forwardable (demoEnv 8) demoKnown 1 ⟨8, 0, fun _ => 0, 0⟩ ![2, 0, 0, 0, 1, 7] ∧
      demoKnown.devCount ≤ 32 ∧ ArraysFit (demoEnv 8) demoKnown [1] ∧ s'.log = [.routed 8 1] ∧
      ¬ Forwarded demoKnown s' 1 ⟨8, 0, fun _ => 0, 0⟩ ![2, 0, 0, 0, 1, 7] := by
  obtain ⟨⟨⟩, s', hrun, hlog⟩ := exists_ok_of_returns
    (x := routerIfInput (demoEnv 8) 1 [1]) (s := demoKnown) (f := fun r => r.2.log)
    (b := [.routed 8 1]) (by decide +kernel)
  refine ⟨s', hrun, forwardable_demoKnown (by decide), by decide, ⟨rfl, rfl⟩, hlog, ?_⟩
  rintro ⟨ops, hops, -, hend⟩
  rw [show s'.log = [.routed 8 1] from hlog] at hops
  obtain rfl : [.routed 8 1] = ops := hops
  rcases hend with ⟨hend, -⟩ | ⟨hend, -⟩ <;> simp at hend

end Demo

end Router

end TrustedGateway
