import TrustedGateway.Lib.Run
import TrustedGateway.Router.Batch

/-!
# The caches of the interfaces

Only a worker of an interface changes the ARP cache of that interface, and only by what the ARP
packets it received have to teach.  The cache is therefore a fold over these packets, as long as
there is memory for the new entries, and two runs that received the same ARP packets on an interface
have the same cache there, whatever happened on other interfaces.

Memory is what the interfaces share.  The normal world can fill the heap with entries of its own
cache, and then an entry of another interface is not made.
-/

namespace TrustedGateway

open FlatMemory Programs Custody StepSystem

/-- The same addresses and the same trust. -/
structure Ifnet.SameFace (a b : Ifnet) : Prop where
  hwaddr : a.hwaddr = b.hwaddr
  trust : a.trust = b.trust
  ips : a.ips = b.ips

namespace Router

/-! ## What a batch teaches -/

theorem sameFace_foldl_after (i : ℕ) (ops : List RouterOp) (ifp : Ifnet) :
    (ops.foldl (Ifnet.after i) ifp).SameFace ifp := by
  induction ops generalizing ifp with
  | nil => exact ⟨rfl, rfl, rfl⟩
  | cons op ops ih =>
    obtain ⟨h₁, h₂, h₃⟩ := ih (ifp.after i op)
    have hop : (ifp.after i op).SameFace ifp := by
      cases op <;> simp only [Ifnet.after] <;> (try split) <;> exact ⟨rfl, rfl, rfl⟩
    exact ⟨h₁.trans hop.hwaddr, h₂.trans hop.trust, h₃.trans hop.ips⟩

variable {a b : Ifnet} {s s' : RouterState}

/-- Lessons do not depend on caches and queues. -/
theorem arpTeaches_congr (h : a.SameFace b) (bytes : ℕ → Byte) (ah : ℕ) :
    arpTeaches a bytes ah = arpTeaches b bytes ah := by
  rcases a with ⟨hwaddr, trust, ips, cache, egress⟩
  rcases b with ⟨hwaddr', trust', ips', cache', egress'⟩
  obtain ⟨rfl, rfl, rfl⟩ := h
  rfl

theorem teaches_congr (h : a.SameFace b) (e : EthBuf) (bytes : ℕ → Byte) :
    teaches a e bytes = teaches b e bytes := by
  simp only [teaches, arpTeaches_congr h]

/-- What a step with these lessons made of the caches. -/
structure Schooled (w : ℕ) (s : RouterState) (lessons : List (Option (Ip4Addr × MacAddr)))
    (ops : List RouterOp) (s' : RouterState) : Prop where
  others : ∀ i, i ≠ w → (s'.ifnet i).arpCache = (s.ifnet i).arpCache
  own : .oom w ∈ ops ∨ (s'.ifnet w).arpCache = lessons.foldl learnFrom (s.ifnet w).arpCache
  source : ∀ ip mac, (s'.ifnet w).arpCache ip = some mac →
    (s.ifnet w).arpCache ip = some mac ∨ some (ip, mac) ∈ lessons

section Lessons

variable {w : ℕ} {s s₁ s' : RouterState} {ops ops' : List RouterOp}

theorem learnFrom_eq_some {cache : ArpCache} {ip : Ip4Addr} {mac : MacAddr}
    {lesson : Option (Ip4Addr × MacAddr)} (h : learnFrom cache lesson ip = some mac) :
    cache ip = some mac ∨ lesson = some (ip, mac) := by
  rcases lesson with - | ⟨ip', mac'⟩
  · exact .inl h
  · simp only [learnFrom] at h
    split at h
    · by_cases hip : ip = ip'
      · subst hip
        rw [ArpCache.insert_self] at h
        cases h
        exact .inr rfl
      · rw [ArpCache.insert_of_ne _ _ hip] at h
        exact .inl h
    · exact .inl h

theorem Schooled.nil (w : ℕ) (s : RouterState) : Schooled w s [] [] s :=
  ⟨fun _ _ => rfl, .inr rfl, fun _ _ h => .inl h⟩

theorem Schooled.cons {lesson : Option (Ip4Addr × MacAddr)}
    {lessons : List (Option (Ip4Addr × MacAddr))} (h : Taught w s lesson ops s₁)
    (h' : Schooled w s₁ lessons ops' s') : Schooled w s (lesson :: lessons) (ops ++ ops') s' where
  others := fun i hi => (h'.others i hi).trans (h.others i hi)
  own := by
    rcases h'.own with hoom | hown'
    · exact .inl (List.mem_append_right _ hoom)
    · rcases h.own with hown | ⟨hoom, -⟩
      · exact .inr (by rw [hown', hown, List.foldl_cons])
      · exact .inl (List.mem_append_left _ hoom)
  source := by
    intro ip mac hc
    rcases h'.source ip mac hc with hc | hmem
    · rcases h.own with hown | ⟨-, hown⟩
      · rw [hown] at hc
        rcases learnFrom_eq_some hc with hc | rfl
        · exact .inl hc
        · exact .inr List.mem_cons_self
      · exact .inl (hown ▸ hc)
    · exact .inr (List.mem_cons_of_mem _ hmem)

/-- A step that learns nothing, at the end. -/
theorem Schooled.snoc {lessons : List (Option (Ip4Addr × MacAddr))}
    (h : Schooled w s lessons ops s₁) (hc : ∀ i, (s'.ifnet i).arpCache = (s₁.ifnet i).arpCache) :
    Schooled w s lessons (ops ++ ops') s' where
  others := fun i hi => (hc i).trans (h.others i hi)
  own := h.own.imp (List.mem_append_left _) (hc w).trans
  source := by
    intro ip mac hip
    rw [hc w] at hip
    exact h.source ip mac hip

end Lessons

section Batch

variable (env : RouterEnv) (w : ℕ)

/-- What the packet in `b` teaches interface `w`. -/
def lessonOf (s : RouterState) (b : BufId) : Option (Ip4Addr × MacAddr) :=
  teaches (s.ifnet w) (s.pool.eb b) (s.sec b)

theorem post_routeLoop_schooled {ms : List BufId} (hnd : ms.Nodup) (a : OutArr) (s : RouterState)
    (hin : ∀ b ∈ ms, b ∈ s.pool.inuseList) :
    Post (routeLoop env w ms a) (fun a' s' => ∃ ops, Looped env w ms s ops s' ∧
      a' = (routes ops).foldl (fun a p => a.add p.1 p.2) a ∧
      Schooled w s (ms.map (lessonOf w s)) ops s') s := by
  induction ms generalizing a s with
  | nil => exact ⟨[], .nil env w s, rfl, .nil w s⟩
  | cons m ms ih =>
    have hms : ∀ b ∈ ms, b ∈ s.pool.inuseList := fun b hb => hin b (List.mem_cons_of_mem _ hb)
    obtain ⟨hmem, hnd'⟩ := List.nodup_cons.mp hnd
    refine (wp_routePacket_routes env w (hin m List.mem_cons_self)).post.seq
      fun r s₁ ⟨ops, hmv, ht, hr⟩ => ?_
    have hwait := hmv.waiting hmem hms
    refine (ih hnd' _ s₁ fun b hb => (hwait b hb).1).imp fun a' s' ⟨ops', hloop, ha, hsch⟩ => ?_
    refine ⟨ops ++ ops', .cons env w hnd hms hmv ht hr hloop, ?_, ?_⟩
    · rw [ha, routes_append, List.foldl_append]
      cases r <;> rw [hr.1] <;> rfl
    · have hlessons : ms.map (lessonOf w s₁) = ms.map (lessonOf w s) := by
        refine List.map_congr_left fun b hb => ?_
        obtain ⟨heb, hsec, -⟩ := contents_eq_iff.mp (hwait b hb).2
        rw [lessonOf, lessonOf, heb, hsec, hmv.ifnet]
        exact teaches_congr (sameFace_foldl_after w ops _) _ _
      rw [hlessons] at hsch
      exact .cons ht hsch

/-- The second loop teaches nothing. -/
theorem arpCache_flush {own : Set BufId} {a : OutArr} {s s₁ s' : RouterState} {js : List ℕ}
    (h : Moved own s₁ (flushOps w a s js) s') (i : ℕ) :
    (s'.ifnet i).arpCache = (s₁.ifnet i).arpCache := by
  have hnews : (flushOps w a s js).filter RouterOp.isNews = [] := by
    rw [List.filter_eq_nil_iff]
    intro op hop
    simp only [flushOps, List.mem_flatMap] at hop
    obtain ⟨j, -, hop⟩ := hop
    split at hop
    · have hnil := filter_isNews_menqueueOps w j (s.ifnet j).egress (a.row j)
      exact List.filter_eq_nil_iff.mp hnil op hop
    · cases hop
  rw [h.ifnet, arpCache_foldl_after i _ rfl, hnews]
  rfl

/-- A batch. -/
theorem post_routerIfInput_schooled {pkts : List BufId} {s : RouterState} (hnd : pkts.Nodup)
    (hin : ∀ b ∈ pkts, b ∈ s.pool.inuseList) :
    Post (routerIfInput env w pkts) (fun _ s' => ∃ ops, s'.log = s.log ++ ops ∧
      (∀ i, (s'.ifnet i).SameFace (s.ifnet i)) ∧
      Schooled w s (pkts.map (lessonOf w s)) ops s') s := by
  have hloop : ∀ n used, Post (routeLoop env w pkts ⟨0, fun _ => []⟩)
      (fun a s₁ => ∃ ops, Looped env w pkts s ops s₁ ∧ a = outArr (routes ops) ∧
        Schooled w s (pkts.map (lessonOf w s)) ops s₁)
      { s with mallocs := n, heapUsed := used } := by
    intro n used
    refine (post_routeLoop_schooled env w hnd _ { s with mallocs := n, heapUsed := used } hin).imp
      fun a s₁ ⟨ops, hloop, ha, hsch⟩ => ⟨ops, hloop.of_heap, ha, ?_⟩
    exact ⟨hsch.others, hsch.own, hsch.source⟩
  refine (wp_routerIfInput env w hnd hloop).imp fun _ s' h => ?_
  have hface : ∀ {ops}, Moved {b | b ∈ pkts} s ops s' → ∀ i, (s'.ifnet i).SameFace (s.ifnet i) := by
    intro ops hmv i
    rw [hmv.ifnet]
    exact sameFace_foldl_after i ops _
  rcases h with ⟨rfl, rfl⟩ | ⟨-, hmv⟩ | ⟨-, hb⟩
  · exact ⟨[], by simp, fun i => ⟨rfl, rfl, rfl⟩, .nil w _⟩
  · have hcache : ∀ i, (s'.ifnet i).arpCache = (s.ifnet i).arpCache := by
      intro i
      rw [hmv.ifnet, arpCache_foldl_after i _ rfl]
      simp [RouterOp.isNews, List.filter_cons, List.filter_map, Function.comp_def, Ifnet.after]
    refine ⟨_, hmv.log, hface hmv, fun i _ => hcache i, .inl List.mem_cons_self, ?_⟩
    intro ip mac hc
    rw [hcache w] at hc
    exact .inl hc
  · obtain ⟨ops, s₁, s₂, hloop, hsch, hflush, used, rfl⟩ := hb
    have hmv := (hloop.moved.trans hflush.toMoved Set.Subset.rfl).release used
    exact ⟨_, hmv.log, hface hmv, hsch.snoc fun i => arpCache_flush w hflush.toMoved i⟩

end Batch

/-! ## Runs -/

/-- A received frame: its buffer, with the header and the bytes the driver wrote. -/
structure RxFrame where
  buf : BufId
  eb : EthBuf
  bytes : ℕ → Byte

/-- A batch on an interface, or something elsewhere that leaves a state behind. -/
inductive RouterInput
  | batch (env : RouterEnv) (w : ℕ) (frames : List RxFrame)
  | elsewhere (s' : RouterState)

/-- A driver writes a frame into its buffer. -/
def store (s : RouterState) (f : RxFrame) : RouterState :=
  { s with pool := s.pool.setEb f.buf f.eb, sec := Function.update s.sec f.buf f.bytes }

/-- The router takes a batch that a driver has received. -/
def routerStep (s : RouterState) : RouterInput → Except Abort RouterState
  | .batch env w frames =>
    match runFrom (routerIfInput env w (frames.map RxFrame.buf)) (frames.foldl store s) with
    | (.ok (), s') => .ok s'
    | (.error e, _) => .error e
  | .elsewhere s' => .ok s'

/-- The frames of a batch are in different buffers, which are in use.  What happens elsewhere is no
business of the interfaces' addresses and caches. -/
def RouterAllows (s : RouterState) : RouterInput → Prop
  | .batch _ _ frames =>
    (frames.map RxFrame.buf).Nodup ∧ ∀ b ∈ frames.map RxFrame.buf, b ∈ s.pool.inuseList
  | .elsewhere s' => s'.log = s.log ∧ ∀ i,
      (s'.ifnet i).SameFace (s.ifnet i) ∧ (s'.ifnet i).arpCache = (s.ifnet i).arpCache

/-- The 42 bytes of Ethernet and ARP header. -/
abbrev ArpPacket := Fin 42 → Byte

/-- The ARP packet in a frame. -/
def RxFrame.arpPacket (f : RxFrame) : Option ArpPacket :=
  if ntohs (field 2 f.bytes (f.eb.dataOff.toNat + 12)) = rteEtherTypeArp then
    some (field 42 f.bytes f.eb.dataOff.toNat)
  else none

/-- The ARP packets that an interface received. -/
def arpPackets (i : ℕ) (is : List RouterInput) : List ArpPacket :=
  is.flatMap fun
    | .batch _ w frames => if w = i then frames.filterMap RxFrame.arpPacket else []
    | .elsewhere _ => []

/-! ### Packets and their lessons -/

def ArpPacket.byte (p : ArpPacket) (k : ℕ) : Byte := if h : k < 42 then p ⟨k, h⟩ else 0

def ArpPacket.senderMac (p : ArpPacket) : MacAddr := field 6 p.byte 22

def ArpPacket.senderIp (p : ArpPacket) : Ip4Addr := field 4 p.byte 28

def ArpPacket.targetIp (p : ArpPacket) : Ip4Addr := field 4 p.byte 38

/-- What an ARP packet teaches an interface. -/
def arpLesson (ifp : Ifnet) (p : ArpPacket) : Option (Ip4Addr × MacAddr) := arpTeaches ifp p.byte 14

theorem field_congr {n a a' : ℕ} {m m' : ℕ → Byte} (h : ∀ k < n, m (a + k) = m' (a' + k)) :
    field n m a = field n m' a' :=
  funext fun k => h k k.isLt

/-- A lesson is in the 28 bytes of the header. -/
theorem arpTeaches_of_bytes (ifp : Ifnet) {m m' : ℕ → Byte} {a a' : ℕ}
    (h : ∀ k < 28, m (a + k) = m' (a' + k)) : arpTeaches ifp m a = arpTeaches ifp m' a' := by
  have hfield : ∀ n c, c + n ≤ 28 → field n m (a + c) = field n m' (a' + c) := by
    intro n c hc
    refine field_congr fun k hk => ?_
    rw [Nat.add_assoc, Nat.add_assoc]
    exact h _ (by omega)
  have hfirst : field 2 m a = field 2 m' a' := field_congr fun k hk => h k (by omega)
  simp only [arpTeaches, hfirst, h 4 (by omega), h 5 (by omega), hfield 6 18 (by omega),
    hfield 4 24 (by omega), hfield 4 14 (by omega), hfield 6 8 (by omega)]

/-- A frame teaches what the ARP packet in it teaches. -/
theorem teaches_eq_bind (ifp : Ifnet) (f : RxFrame) :
    teaches ifp f.eb f.bytes = f.arpPacket.bind (arpLesson ifp) := by
  rw [teaches, RxFrame.arpPacket]
  split
  · refine arpTeaches_of_bytes ifp fun k hk => ?_
    have hlt : 14 + k < 42 := by omega
    simp only [ArpPacket.byte, dif_pos hlt, field, Nat.add_assoc]
  · rfl

/-- A lesson on an external interface is from a packet to the interface. -/
theorem arpLesson_eq_some {ifp : Ifnet} {p : ArpPacket} {ip : Ip4Addr} {mac : MacAddr}
    (h : arpLesson ifp p = some (ip, mac)) (hext : ifp.trust = .external) :
    p.senderIp = ip ∧ p.senderMac = mac ∧ p.targetIp ∈ ifp.ips := by
  unfold arpLesson arpTeaches at h
  split at h
  · cases h
  split at h
  · next hint =>
    cases h
    refine ⟨rfl, rfl, ?_⟩
    have hne : ¬ ifp.trust = .nonsec := by
      rw [hext]
      decide
    simp only [arpIsInteresting, if_neg hne] at hint
    split at hint
    · simpa [ArpPacket.targetIp] using hint
    · cases hint
  · cases h

/-! ### One step -/

/-- What the drivers have written. -/
theorem foldl_store (frames : List RxFrame) (s : RouterState) :
    (frames.foldl store s).ifnet = s.ifnet ∧ (frames.foldl store s).log = s.log ∧
      (frames.foldl store s).pool.inuseList = s.pool.inuseList ∧
      ∀ b ∉ frames.map RxFrame.buf, (frames.foldl store s).pool.eb b = s.pool.eb b ∧
        (frames.foldl store s).sec b = s.sec b := by
  induction frames generalizing s with
  | nil => exact ⟨rfl, rfl, rfl, fun _ _ => ⟨rfl, rfl⟩⟩
  | cons f frames ih =>
    obtain ⟨h₁, h₂, h₃, h₄⟩ := ih (store s f)
    refine ⟨h₁, h₂, h₃, fun b hb => ?_⟩
    rw [List.map_cons, List.mem_cons, not_or] at hb
    obtain ⟨heb, hsec⟩ := h₄ b hb.2
    rw [List.foldl_cons, heb, hsec]
    simp [store, hb.1]

theorem map_lessonOf_store (w : ℕ) {frames : List RxFrame} (hnd : (frames.map RxFrame.buf).Nodup)
    (s : RouterState) : (frames.map RxFrame.buf).map (lessonOf w (frames.foldl store s)) =
      frames.map fun f => f.arpPacket.bind (arpLesson (s.ifnet w)) := by
  rw [List.map_map]
  refine List.map_congr_left fun f hf => ?_
  have hown : ∀ (s : RouterState), (frames.foldl store s).pool.eb f.buf = f.eb ∧
      (frames.foldl store s).sec f.buf = f.bytes := by
    clear s
    induction frames with
    | nil => cases hf
    | cons g frames ih =>
      intro s
      obtain ⟨hg, hnd⟩ := List.nodup_cons.mp hnd
      rcases List.mem_cons.mp hf with rfl | hf
      · obtain ⟨-, -, -, h⟩ := foldl_store frames (store s f)
        obtain ⟨heb, hsec⟩ := h f.buf hg
        rw [List.foldl_cons, heb, hsec]
        simp [store]
      · exact ih hnd hf (store s g)
  rw [Function.comp_apply, lessonOf, (hown s).1, (hown s).2, (foldl_store frames s).1,
    teaches_eq_bind]

/-- The cache after an ARP packet. -/
def learnPacket (ifp : Ifnet) (cache : ArpCache) (p : ArpPacket) : ArpCache :=
  learnFrom cache (arpLesson ifp p)

theorem foldl_learnFrom_bind (ifp : Ifnet) (frames : List RxFrame)
    (cache : ArpCache) :
    (frames.map fun f => f.arpPacket.bind (arpLesson ifp)).foldl learnFrom cache =
      (frames.filterMap RxFrame.arpPacket).foldl (learnPacket ifp) cache := by
  induction frames generalizing cache with
  | nil => rfl
  | cons f frames ih =>
    rw [List.map_cons, List.foldl_cons, ih, List.filterMap_cons]
    cases f.arpPacket <;> rfl

/-- What happened to interface `i` when it received these ARP packets. -/
structure Learnt (i : ℕ) (s : RouterState) (ps : List ArpPacket) (s' : RouterState) : Prop where
  log : s.log <+: s'.log
  face : (s'.ifnet i).SameFace (s.ifnet i)
  cache : .oom i ∉ s'.log →
    (s'.ifnet i).arpCache = ps.foldl (learnPacket (s.ifnet i)) (s.ifnet i).arpCache
  source : ∀ ip mac, (s'.ifnet i).arpCache ip = some mac →
    (s.ifnet i).arpCache ip = some mac ∨ ∃ p ∈ ps, arpLesson (s.ifnet i) p = some (ip, mac)

theorem learnt_of_step {inp : RouterInput} (hallow : RouterAllows s inp)
    (hstep : routerStep s inp = .ok s') (i : ℕ) : Learnt i s (arpPackets i [inp]) s' := by
  cases inp with
  | elsewhere t =>
    cases hstep
    obtain ⟨hlog, h⟩ := hallow
    refine ⟨by rw [hlog], (h i).1, fun _ => (h i).2, fun ip mac hc => .inl ?_⟩
    rwa [(h i).2] at hc
  | batch env w frames =>
    obtain ⟨hnd, hin⟩ := hallow
    obtain ⟨hif, hlog, huse, -⟩ := foldl_store frames s
    simp only [routerStep] at hstep
    split at hstep
    · next s₁ hrun =>
      cases hstep
      rw [← huse] at hin
      obtain ⟨ops, hops, hface, hsch⟩ := (post_routerIfInput_schooled env w hnd hin).ok hrun
      rw [map_lessonOf_store w hnd] at hsch
      rw [hif] at hface
      rw [hlog] at hops
      obtain ⟨hothers, hown, hsource⟩ := hsch
      rw [hif] at hothers hown hsource
      refine ⟨hops ▸ List.prefix_append _ _, hface i, ?_, ?_⟩ <;>
        by_cases hwi : w = i <;>
          simp only [arpPackets, List.flatMap_singleton, hwi, if_true, if_false]
      · subst hwi
        intro hno
        rw [hops, List.mem_append, not_or] at hno
        rw [← foldl_learnFrom_bind]
        exact hown.resolve_left hno.2
      · intro _
        exact hothers i (Ne.symm hwi)
      · subst hwi
        intro ip mac hc
        refine (hsource ip mac hc).imp_right fun hmem => ?_
        obtain ⟨f, hf, hlesson⟩ := List.mem_map.mp hmem
        obtain ⟨p, hp, hlesson⟩ := Option.bind_eq_some_iff.mp hlesson
        exact ⟨p, List.mem_filterMap.mpr ⟨f, hf, hp⟩, hlesson⟩
      · intro ip mac hc
        rw [hothers i (Ne.symm hwi)] at hc
        exact .inl hc
    · cases hstep

/-! ### Whole runs -/

theorem arpLesson_congr (h : a.SameFace b) : arpLesson a = arpLesson b :=
  funext fun p => arpTeaches_congr h p.byte 14

theorem learnPacket_congr (h : a.SameFace b) : learnPacket a = learnPacket b := by
  funext cache p
  rw [learnPacket, learnPacket, arpLesson_congr h]

theorem Learnt.refl (i : ℕ) (s : RouterState) : Learnt i s [] s :=
  ⟨List.prefix_rfl, ⟨rfl, rfl, rfl⟩, fun _ => rfl, fun _ _ h => .inl h⟩

theorem Learnt.trans {i : ℕ} {s₁ : RouterState} {ps ps' : List ArpPacket} (h : Learnt i s ps s₁)
    (h' : Learnt i s₁ ps' s') : Learnt i s (ps ++ ps') s' where
  log := h.log.trans h'.log
  face := ⟨h'.face.hwaddr.trans h.face.hwaddr, h'.face.trust.trans h.face.trust,
    h'.face.ips.trans h.face.ips⟩
  cache := by
    intro hno
    rw [h'.cache hno, h.cache fun hmem => hno (h'.log.subset hmem), learnPacket_congr h.face,
      List.foldl_append]
  source := by
    intro ip mac hc
    rcases h'.source ip mac hc with hc | ⟨p, hp, hl⟩
    · rcases h.source ip mac hc with hc | ⟨p, hp, hl⟩
      · exact .inl hc
      · exact .inr ⟨p, List.mem_append_left _ hp, hl⟩
    · rw [arpLesson_congr h.face] at hl
      exact .inr ⟨p, List.mem_append_right _ hp, hl⟩

/-- The cache of an interface after a run, from the ARP packets it received. -/
theorem learnt_of_run {is : List RouterInput} (h : Run routerStep RouterAllows s is s') (i : ℕ) :
    Learnt i s (arpPackets i is) s' := by
  induction h with
  | nil s => exact .refl i s
  | @cons s s₁ s' inp is hallow hstep _ ih =>
    have hps : arpPackets i (inp :: is) = arpPackets i [inp] ++ arpPackets i is := by
      simp [arpPackets]
    rw [hps]
    exact (learnt_of_step hallow hstep i).trans ih

/-- **Isolation of the caches.**  Every entry in the cache of an external interface was there at the
start, or is the sender of an ARP packet that this interface received and that was directed to one
of its addresses.  And for every other run in which the interface received the same ARP packets,
whatever was received elsewhere, the cache is the same, provided that in both runs memory was there
whenever a worker of the interface asked for it. -/
theorem arp_isolation {i : ℕ} {s₀ s : RouterState} {is : List RouterInput}
    (hrun : Run routerStep RouterAllows s₀ is s) (hext : (s₀.ifnet i).trust = .external) :
    (∀ ip mac, (s.ifnet i).arpCache ip = some mac → (s₀.ifnet i).arpCache ip = some mac ∨
      ∃ p ∈ arpPackets i is, p.senderIp = ip ∧ p.senderMac = mac ∧
        p.targetIp ∈ (s₀.ifnet i).ips) ∧
    ∀ s₀' s' is', Run routerStep RouterAllows s₀' is' s' →
      (s₀'.ifnet i).SameFace (s₀.ifnet i) → (s₀'.ifnet i).arpCache = (s₀.ifnet i).arpCache →
      arpPackets i is' = arpPackets i is → .oom i ∉ s.log → .oom i ∉ s'.log →
      (s'.ifnet i).arpCache = (s.ifnet i).arpCache := by
  have hl := learnt_of_run hrun i
  constructor
  · intro ip mac hc
    refine (hl.source ip mac hc).imp_right ?_
    rintro ⟨p, hp, hlesson⟩
    exact ⟨p, hp, arpLesson_eq_some hlesson hext⟩
  · intro s₀' s' is' hrun' hface hcache harp hno hno'
    rw [hl.cache hno, (learnt_of_run hrun' i).cache hno', harp, hcache, learnPacket_congr hface]

section Demo

/-- A batch that is in order. -/
def batchInOrder (s : RouterState) : RouterInput → Bool
  | .batch _ _ frames => decide ((frames.map RxFrame.buf).Nodup) &&
      decide (∀ b ∈ frames.map RxFrame.buf, b ∈ s.pool.inuseList)
  | .elsewhere _ => false

theorem run_of_inOrder {s s' : RouterState} {is : List RouterInput}
    (h : Run routerStep (fun s inp => batchInOrder s inp = true) s is s') :
    Run routerStep RouterAllows s is s' := by
  refine h.mono fun s inp hin => ?_
  cases inp with
  | batch env w frames =>
    simp only [batchInOrder, Bool.and_eq_true, decide_eq_true_eq] at hin
    exact hin
  | elsewhere t => cases hin

/-- Somebody at 10.0.`i`.9 asks for the address of 10.0.`i`.1. -/
def demoRequest (i : Byte) : RxFrame where
  buf := i.toNat
  eb := rxBuf 42
  bytes := frameAt 2 (List.replicate 6 0xff ++ [2, 0, 0, 0, i, 9] ++ [0x08, 0x06] ++
    [0, 1, 8, 0, 6, 4, 0, 1] ++ [2, 0, 0, 0, i, 9] ++ [10, 0, i, 9] ++ List.replicate 6 0 ++
    [10, 0, i, 1])

/-- A heap of `n` bytes. -/
def heapEnv (n : ℕ) : RouterEnv :=
  { demoEnv 2 with malloc := fun _ used size => decide (used + size ≤ n) }

/-- The request on the external interface, without and with one of the normal world before. -/
def demoQuiet (n : ℕ) : List RouterInput := [.batch (heapEnv n) 2 [demoRequest 2]]

def demoBusy (n : ℕ) : List RouterInput := .batch (heapEnv n) 1 [demoRequest 1] :: demoQuiet n

theorem arpPackets_demoBusy (n : ℕ) : arpPackets 2 (demoBusy n) = arpPackets 2 (demoQuiet n) := by
  simp [demoBusy, arpPackets]

/-- With enough memory the normal world makes no difference. -/
theorem arp_isolation_demo :
    ∃ s s', Run routerStep RouterAllows (demoState 2 [demoArp, demoArp]) (demoQuiet 1000) s ∧
      Run routerStep RouterAllows (demoState 2 [demoArp, demoArp]) (demoBusy 1000) s' ∧
      (s.ifnet 2).arpCache ![10, 0, 2, 9] = some ![2, 0, 0, 0, 2, 9] ∧
      (s'.ifnet 2).arpCache = (s.ifnet 2).arpCache := by
  have hnews : ∀ s : RouterState, s.log.contains (.oom 2) = false → .oom 2 ∉ s.log := by
    intro s h
    simpa using h
  obtain ⟨s, hrun, hs⟩ : ∃ s, Run routerStep (fun s inp => batchInOrder s inp = true)
      (demoState 2 [demoArp, demoArp]) (demoQuiet 1000) s ∧
      ((s.ifnet 2).arpCache ![10, 0, 2, 9], s.log.contains (.oom 2)) =
        (some ![2, 0, 0, 0, 2, 9], false) := exists_run_of_exec (by decide +kernel)
  obtain ⟨s', hrun', hs'⟩ : ∃ s', Run routerStep (fun s inp => batchInOrder s inp = true)
      (demoState 2 [demoArp, demoArp]) (demoBusy 1000) s' ∧
      s'.log.contains (.oom 2) = false := exists_run_of_exec (by decide +kernel)
  refine ⟨s, s', run_of_inOrder hrun, run_of_inOrder hrun', (Prod.mk.inj hs).1, ?_⟩
  exact (arp_isolation (i := 2) (run_of_inOrder hrun) rfl).2 _ s' _ (run_of_inOrder hrun')
    ⟨rfl, rfl, rfl⟩ rfl (arpPackets_demoBusy 1000) (hnews s (Prod.mk.inj hs).2) (hnews s' hs')

/-- With a heap of 28 bytes the entry of the normal world takes the place of the other one. -/
theorem arp_isolation_without_memory :
    ∃ s s', Run routerStep RouterAllows (demoState 2 [demoArp, demoArp]) (demoQuiet 28) s ∧
      Run routerStep RouterAllows (demoState 2 [demoArp, demoArp]) (demoBusy 28) s' ∧
      ((demoState 2 [demoArp, demoArp]).ifnet 2).trust = .external ∧
      arpPackets 2 (demoBusy 28) = arpPackets 2 (demoQuiet 28) ∧
      (s.ifnet 2).arpCache ![10, 0, 2, 9] = some ![2, 0, 0, 0, 2, 9] ∧
      (s'.ifnet 2).arpCache ![10, 0, 2, 9] = none := by
  obtain ⟨s, hrun, hs⟩ : ∃ s, Run routerStep (fun s inp => batchInOrder s inp = true)
      (demoState 2 [demoArp, demoArp]) (demoQuiet 28) s ∧
      (s.ifnet 2).arpCache ![10, 0, 2, 9] = some ![2, 0, 0, 0, 2, 9] :=
    exists_run_of_exec (by decide +kernel)
  obtain ⟨s', hrun', hs'⟩ : ∃ s', Run routerStep (fun s inp => batchInOrder s inp = true)
      (demoState 2 [demoArp, demoArp]) (demoBusy 28) s' ∧
      (s'.ifnet 2).arpCache ![10, 0, 2, 9] = none := exists_run_of_exec (by decide +kernel)
  exact ⟨s, s', run_of_inOrder hrun, run_of_inOrder hrun', rfl, arpPackets_demoBusy 28, hs, hs'⟩

end Demo

end Router

end TrustedGateway
