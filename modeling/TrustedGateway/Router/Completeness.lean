import TrustedGateway.Router.Forward

/-!
# No packet is lost

When `router_if_input` returns, every packet of the batch should be somewhere: in the pool, with the
firewall or in a queue, and each queue should have received the packets routed to it in the order of
their arrival.  Whether that is so depends on the routing table only.  A packet for an interface
without a bit in `egr_idx` stays in the output array, which is freed.
-/

namespace TrustedGateway

open FlatMemory Programs Custody

namespace Router

/-- After a batch of interface `w`: `ops₁` is what the first loop did, `ops₂` what the second. -/
structure Delivered (w : ℕ) (pkts : List BufId) (s s' : RouterState)
    (ops₁ ops₂ : List RouterOp) : Prop where
  log : s'.log = s.log ++ (ops₁ ++ ops₂)
  /-- Every packet is in the pool, with the firewall or in the queue of its interface. -/
  settled : ∀ b ∈ pkts, ∃ op ∈ ops₁ ++ ops₂, op.Leaves w b ∨
    ∃ i, .routed i b ∈ ops₁ ∧ op.Leaves i b
  /-- The routed packets, in the order of their arrival. -/
  order : ((routes ops₁).map Prod.snd).Sublist pkts
  /-- A queue gets the packets routed to it, as many as there is room for. -/
  queued : ∀ i, enqueued i ops₂ = (rowOf (routes ops₁) i).take
    ((ops₁.foldl (Ifnet.after i) (s.ifnet i)).egress.capacity -
      (ops₁.foldl (Ifnet.after i) (s.ifnet i)).egress.count)
  /-- The rest is freed. -/
  freed : ∀ i, ∀ b ∈ (rowOf (routes ops₁) i).drop
    ((ops₁.foldl (Ifnet.after i) (s.ifnet i)).egress.capacity -
      (ops₁.foldl (Ifnet.after i) (s.ifnet i)).egress.count), .free b ∈ ops₂

/-- With this many interfaces and this table, whatever the packets, the firewall, the caches, the
queues and the heap are like. -/
def LosesNothing (devCount : ℕ) (rtable : Ip4Addr → Option RouteInfo) : Prop :=
  ∀ (env : RouterEnv) (w : ℕ) (pkts : List BufId) (s s' : RouterState), env.rtable = rtable →
    s.devCount = devCount → 0 < w → w ≤ devCount → pkts.Nodup →
    (∀ b ∈ pkts, b ∈ s.pool.inuseList) → runFrom (routerIfInput env w pkts) s = (.ok (), s') →
    ∃ ops₁ ops₂, Delivered w pkts s s' ops₁ ops₂

section Delivery

variable {env : RouterEnv} {w : ℕ} {pkts : List BufId} {s s' : RouterState}

theorem delivered_nil (s : RouterState) : Delivered w [] s s [] [] where
  log := (List.append_nil _).symm
  settled := by simp
  order := List.Sublist.refl _
  queued := by simp [routes, rowOf]
  freed := by simp [routes, rowOf]

/-- Without memory for the arrays everything is freed. -/
theorem Moved.delivered_oom (h : Moved {b | b ∈ pkts} s (.oom w :: pkts.map .free) s') :
    Delivered w pkts s s' (.oom w :: pkts.map .free) [] := by
  have hroutes : routes (.oom w :: pkts.map .free) = [] := by
    simp [routes]
  constructor
  case log => rw [h.log, List.append_nil]
  case settled =>
    intro b hb
    exact ⟨.free b, by simp [hb], .inl (.inl rfl)⟩
  all_goals simp [hroutes, rowOf]

theorem take_bulkAddBuff (q : PktQueue) (bs : List BufId) :
    bs.take (q.bulkAddBuff bs).1 = bs.take (q.capacity - q.count) := by
  rw [PktQueue.bulkAddBuff, Nat.min_comm, ← List.take_take, List.take_length]

theorem drop_bulkAddBuff (q : PktQueue) (bs : List BufId) :
    bs.drop (q.bulkAddBuff bs).1 = bs.drop (q.capacity - q.count) := by
  rcases le_total bs.length (q.capacity - q.count) with h | h
  · rw [PktQueue.bulkAddBuff, min_eq_left h, List.drop_length, List.drop_eq_nil_of_le h]
  · rw [PktQueue.bulkAddBuff, min_eq_right h]

/-- With bits for all rows, the second loop settles what the first one has routed. -/
theorem Batched.delivered {R : List RouterOp → RouterState → Prop} (hw : ifnetIdx w = w)
    (h : Batched env w s pkts R s') (h8 : ∀ i, InTable env i → i.toNat ≤ 7 ∨ s.devCount < i.toNat) :
    ∃ ops₁ ops₂, Delivered w pkts s s' ops₁ ops₂ := by
  obtain ⟨ops, s₁, s₂, hloop, -, hflush, used, rfl⟩ := h
  have hbit : ∀ p ∈ routes ops,
      p.1 ∈ List.range' 1 s.devCount ∧ (outArr (routes ops)).used p.1 := by
    intro p hp
    obtain ⟨hpos, hle, i, hi, hip⟩ := hloop.index p hp
    have h7 := h8 i hi
    refine ⟨?_, (used_outArr _ _).mpr ⟨by omega, List.mem_map_of_mem hp⟩⟩
    rw [List.mem_range'_1]
    omega
  refine ⟨ops, flushOps w (outArr (routes ops)) s₁ (List.range' 1 s.devCount), ?_⟩
  constructor
  case log => rw [hflush.log, hloop.moved.log, List.append_assoc]
  case settled =>
    intro b hb
    rcases hloop.settled b hb with hb | ⟨op, hop, hend⟩
    · obtain ⟨⟨i, b⟩, hp, rfl⟩ := List.mem_map.mp hb
      obtain ⟨hj, hu⟩ := hbit _ hp
      have hrow : b ∈ (outArr (routes ops)).row i := by rwa [row_outArr, mem_rowOf]
      obtain ⟨op, hop, hl⟩ := exists_leaves_flushOps w s₁ hj hu hrow
      exact ⟨op, List.mem_append_right _ hop, .inr ⟨i, mem_routes.mp hp, hl⟩⟩
    · exact ⟨op, List.mem_append_left _ hop, .inl (hw ▸ hend)⟩
  case order => exact hloop.order
  case queued =>
    intro i
    rw [enqueued_flushOps w _ _ List.nodup_range', ← hloop.moved.ifnet, ← take_bulkAddBuff,
      row_outArr]
    split
    · rfl
    · next hno =>
      have hrow : rowOf (routes ops) i = [] := by
        rw [List.eq_nil_iff_forall_not_mem]
        intro b hb
        exact hno (hbit _ (mem_rowOf.mp hb))
      rw [hrow, List.take_nil]
  case freed =>
    intro i b hb
    rw [← hloop.moved.ifnet, ← drop_bulkAddBuff] at hb
    obtain ⟨hj, hu⟩ := hbit _ (mem_rowOf.mp (List.mem_of_mem_drop hb))
    exact (free_mem_flushOps w).mpr ⟨i, hj, hu, by rwa [row_outArr]⟩

/-- A table without routes to interfaces that have no bit. -/
theorem losesNothing_of_bits {devCount : ℕ} {rtable : Ip4Addr → Option RouteInfo}
    (hdev : devCount ≤ 32)
    (h : ∀ dst rt, rtable dst = some rt → rt.ifIdx.toNat ≤ 7 ∨ devCount < rt.ifIdx.toNat) :
    LosesNothing devCount rtable := by
  rintro env w pkts s s' rfl rfl - hw hnd hin hrun
  have hidx : ifnetIdx w = w := by
    rw [ifnetIdx, BitVec.toNat_ofNat]
    omega
  have h8 : ∀ i, InTable env i → i.toNat ≤ 7 ∨ s.devCount < i.toNat := by
    rintro i ⟨dst, rt, hrt, rfl⟩
    exact h dst rt hrt
  rcases (wp_routerIfInput env w hnd (wp_routeLoop_heap env w hnd hin)).ok hrun with
    ⟨rfl, rfl⟩ | ⟨-, hmv⟩ | ⟨-, hb⟩
  · exact ⟨[], [], delivered_nil _⟩
  · exact ⟨_, _, hmv.delivered_oom⟩
  · exact hb.delivered hidx h8

end Delivery

/-! ## A packet that is lost -/

section Probe

variable {devCount : ℕ} {rtable : Ip4Addr → Option RouteInfo} {dst : Ip4Addr} {rt : RouteInfo}

/-- A frame to `dst`. -/
def probeFrame (dst : Ip4Addr) : ℕ → Byte :=
  setField (setField (setField (fun _ => 0) 14 (htons rteEtherTypeIpv4)) 24
    (fun _ : Fin 1 => (64 : Byte))) 32 dst

/-- One frame to `dst`, in a router that knows all addresses. -/
def probeState (devCount : ℕ) (dst : Ip4Addr) : RouterState :=
  { demoState devCount [demoIp] with
    sec := fun _ => probeFrame dst
    ifnet := fun i => { demoIfnet i with arpCache := fun _ => some etherZero } }

theorem forwardable_probe (hrt : rtable dst = some rt) (hpos : 0 < rt.ifIdx.toNat)
    (hle : rt.ifIdx.toNat ≤ devCount) :
    Forwardable { demoEnv 0 with rtable := rtable } (probeState devCount dst) 1 rt etherZero where
  l2 := show (rxBuf 42).packetType &&& rtePtypeL2Mask ≠ 0 by decide
  len := show 42 ≤ (rxBuf 42).dataLen.toNat by decide
  fits := show (rxBuf 42).dataOff.toNat + (rxBuf 42).dataLen.toNat < 2 ^ 32 by decide
  ipv4 := by
    show ntohs (field 2 (probeFrame dst) 14) = _
    rw [probeFrame, field_setField_of_disjoint (by omega), field_setField_of_disjoint (by omega),
      field_setField_self]
    decide
  pass := fun _ => rfl
  ttl := by
    show 1 < (probeFrame dst 24).toNat
    rw [probeFrame, setField_of_notMem (by simp)]
    decide
  route := by
    show rtable (field 4 (probeFrame dst) 32) = some rt
    rw [probeFrame, field_setField_self]
    exact hrt
  out := ⟨hpos, hle⟩
  known := rfl

/-- A table with a route to an interface without a bit. -/
theorem not_losesNothing (hdev : devCount ≤ 32) (hrt : rtable dst = some rt)
    (h8 : 8 ≤ rt.ifIdx.toNat) (hle : rt.ifIdx.toNat ≤ devCount) :
    ¬ LosesNothing devCount rtable := by
  intro hall
  have hf := forwardable_probe hrt (by omega) hle
  have hin : ∀ b ∈ [1], b ∈ (probeState devCount dst).pool.inuseList := by
    show ∀ b ∈ [1], b ∈ List.range' 1 1
    decide
  obtain ⟨s', hrun⟩ := exists_run_of_forwardable (w := 1) hf hdev (hin 1 (by simp))
  obtain ⟨ops₁, ops₂, hd⟩ := hall _ 1 [1] _ s' rfl rfl (by omega) (by omega) (by simp) hin hrun
  have hpost := (wp_routerIfInput _ 1 (by simp)
    (post_routeLoop_forward_heap (by simp) hin (by simp) hf hdev)).ok hrun
  rcases hpost with ⟨h, -⟩ | ⟨hno, -⟩ | ⟨-, hb⟩
  · simp at h
  · exact hno ⟨rfl, rfl⟩
  · obtain ⟨ops, hlog, -, hno⟩ := hb.not_ended (by simp) (fun _ _ hr => hr.1) h8
    rw [hd.log, List.append_cancel_left_eq] at hlog
    obtain ⟨op, hop, hl⟩ := hd.settled 1 (by simp)
    rcases hl with hl | ⟨i, -, hl⟩ <;> exact hno op (hlog ▸ hop) hl.ends

end Probe

/-- **No packet is lost** exactly if no route leads to a registered interface with an index of 8 or
more: those have no bit in `egr_idx`. -/
theorem losesNothing_iff {devCount : ℕ} (hdev : devCount ≤ 32)
    (rtable : Ip4Addr → Option RouteInfo) : LosesNothing devCount rtable ↔
      ∀ dst rt, rtable dst = some rt → rt.ifIdx.toNat ≤ 7 ∨ devCount < rt.ifIdx.toNat := by
  constructor
  · intro hall dst rt hrt
    by_contra hno
    simp only [not_or, not_le, not_lt] at hno
    exact not_losesNothing hdev hrt hno.1 hno.2 hall
  · exact losesNothing_of_bits hdev

/-- With two interfaces every table will do. -/
theorem losesNothing_two : LosesNothing 2 (demoEnv 2).rtable := by
  refine (losesNothing_iff (by decide) _).mpr ?_
  rintro dst rt ⟨⟩
  decide

/-- With eight interfaces and routes to the last, a packet is lost: it is still in use, and nobody
has it. -/
theorem packet_lost_eight :
    ∃ s', runFrom (routerIfInput (demoEnv 8) 1 [1]) demoKnown = (.ok (), s') ∧
      s'.log = [.routed 8 1] ∧ 1 ∈ s'.pool.inuseList ∧
      ¬ ∃ ops₁ ops₂, Delivered 1 [1] demoKnown s' ops₁ ops₂ := by
  obtain ⟨⟨⟩, s', hrun, hend⟩ := exists_ok_of_returns
    (x := routerIfInput (demoEnv 8) 1 [1]) (s := demoKnown)
    (f := fun r => (r.2.log, r.2.pool.inuseList)) (b := ([.routed 8 1], [1])) (by decide +kernel)
  obtain ⟨hlog, huse⟩ : s'.log = [.routed 8 1] ∧ s'.pool.inuseList = [1] := by simpa using hend
  refine ⟨s', hrun, hlog, by simp [huse], ?_⟩
  rintro ⟨ops₁, ops₂, hd⟩
  have hops : [.routed 8 1] = ops₁ ++ ops₂ := by
    rw [← hlog, hd.log]
    rfl
  obtain ⟨op, hop, hl⟩ := hd.settled 1 (by simp)
  obtain rfl : op = .routed 8 1 := by simpa [← hops] using hop
  rcases hl with hl | ⟨i, -, hl⟩ <;> cases hl.ends

end Router

end TrustedGateway
