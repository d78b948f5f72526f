import TrustedGateway.Router.Effects

/-!
# The way of a packet

What the router does with one received packet, and with one packet after the other: which packets
reach a row of the output array, and what the packets teach the interface they came in by.
-/

namespace TrustedGateway

open FlatMemory Programs Custody

namespace Router

/-- What an ARP packet with its header at `ah` teaches an interface: the sender's addresses, if the
header is in order, the packet is of interest and we are the target. -/
def arpTeaches (ifp : Ifnet) (a : ℕ → Byte) (ah : ℕ) : Option (Ip4Addr × MacAddr) :=
  if ntohs (field 2 a ah) ≠ rteArpHrdEther ∨ a (ah + 4) ≠ 6 ∨ a (ah + 5) ≠ 4 then none
  else if arpIsInteresting ifp (field 6 a (ah + 18)) (field 4 a (ah + 24)) = some true then
    some (field 4 a (ah + 14), field 6 a (ah + 8))
  else none

/-- What a received packet teaches an interface. -/
def teaches (ifp : Ifnet) (e : EthBuf) (a : ℕ → Byte) : Option (Ip4Addr × MacAddr) :=
  if ntohs (field 2 a (e.dataOff.toNat + 12)) = rteEtherTypeArp then
    arpTeaches ifp a (e.dataOff.toNat + 14)
  else none

/-- What is found out from a lesson: a new address, or that there is no memory for it. -/
def Learned (w : ℕ) (ifp : Ifnet) (lesson : Option (Ip4Addr × MacAddr)) (news : List RouterOp) :
    Prop :=
  match lesson with
  | none => news = []
  | some (ip, mac) =>
    if ifp.arpCache ip = none then news = [.learn w ip mac] ∨ news = [.oom w] else news = []

theorem ethbufDataPtr_eq_some {e : EthBuf} {offset : Word} {p : ℕ}
    (h : ethbufDataPtr e offset = some p) : p = e.dataOff.toNat + offset.toNat := by
  unfold ethbufDataPtr at h
  split at h
  · cases h
  · exact (Option.some.inj h).symm

section Packet

variable (env : RouterEnv) (w : ℕ) {m : BufId} {s : RouterState}
  {E : Abort → RouterState → Prop}

theorem wp_arpCache (ip : Ip4Addr) (mac : MacAddr) (allowNew : Bool)
    (hm : m ∈ s.pool.inuseList) :
    Wp E (arpCache env w ip mac allowNew) (fun _ s' => ∃ news,
      Learned w (s.ifnet w) (if allowNew then some (ip, mac) else none) news ∧
        Kept m s news s') s := by
  have hsame : Kept m s [] s := kept_of_edit hm rfl rfl rfl rfl fun _ _ => rfl
  simp only [arpCache, malloc, logOp, setIfnet, release, wp_bind, wp_get, wp_set, wp_modify, wp_ite,
    wp_pure]
  refine ⟨fun hc => ⟨[], ?_, hsame⟩, fun hc => ⟨fun hnew => ⟨[], ?_, hsame⟩, fun hnew => ?_⟩⟩
  · cases allowNew <;> simp [Learned, hc]
  · simp [Learned, hnew]
  · have hl : ∀ news, (news = [.learn w ip mac] ∨ news = [.oom w]) →
        Learned w (s.ifnet w) (if allowNew then some (ip, mac) else none) news := by
      intro news h
      simpa [Learned, not_not.mp hc, not_not.mp hnew] using h
    have hoom : ∀ used, Kept m s [.oom w]
        { s with mallocs := s.mallocs + 1, heapUsed := used, log := s.log ++ [.oom w] } := by
      intro used
      exact kept_of_news hm rfl rfl rfl rfl (fun _ => rfl) fun _ => rfl
    refine ⟨fun _ => ⟨_, hl _ (.inr rfl), hoom _⟩, fun hok => ⟨fun hput => ?_, fun _ => ?_⟩⟩
    · refine ⟨_, hl _ (.inl rfl), kept_of_news hm rfl rfl rfl rfl ?_ fun _ => rfl⟩
      intro i
      by_cases hi : w = i
      · subst hi
        simp [Ifnet.after]
      · simp [Ifnet.after, hi, Ne.symm hi]
    · exact ⟨_, hl _ (.inr rfl), hoom _⟩

/-- Reads only add to the list of accesses. -/
theorem wp_hdrRead (m : BufId) (p off n : ℕ) (s : RouterState) :
    Wp E (hdrRead m (some p) off n) (fun v s' => v = field n (s.sec m) (p + off) ∧
      ∃ acc, s' = { s with accesses := acc }) s :=
  ⟨rfl, _, rfl⟩

theorem kept_accesses (hm : m ∈ s.pool.inuseList) (acc : List HdrAccess) :
    Kept m s [] { s with accesses := acc } :=
  kept_of_edit hm rfl rfl rfl rfl fun _ _ => rfl

/-- `arp_input` gives the packet away and learns what it teaches. -/
theorem wp_arpInput (hm : m ∈ s.pool.inuseList) :
    Wp (fun _ => Stopped {m} s) (arpInput env w m) (fun r s' => r ≠ 0 ∧ ∃ news,
      Learned w (s.ifnet w) (arpTeaches (s.ifnet w) (s.sec m) ((s.pool.eb m).dataOff.toNat +
        ((s.pool.eb m).l2Len.setWidth 32 : Word).toNat)) news ∧
        Gone m (ifnetIdx w) s news s') s := by
  have hdrop : ∀ acc, Wp (fun _ => Stopped {m} s) (arpDrop m)
      (fun r s' => r ≠ 0 ∧ Gone m (ifnetIdx w) s [] s') { s with accesses := acc } := by
    intro acc
    have hk := kept_accesses hm acc
    refine (handles_arpDrop m (ifnetIdx w) _ hk.mem).mono (fun _ _ => hk.trans_stopped)
      fun r s' h => ?_
    obtain ⟨rfl, hg⟩ := h.resolve_left fun h => h.1
    exact ⟨by decide, hk.trans_gone hg⟩
  simp only [arpInput, wp_bind, wp_get]
  cases hp : ethbufDataPtr (s.pool.eb m) ((s.pool.eb m).l2Len.setWidth 32) with
  | none => exact .refl _ s
  | some ah =>
    rw [← ethbufDataPtr_eq_some hp]
    refine (wp_hdrRead m ah _ _ _).imp ?_
    rintro _ _ ⟨rfl, _, rfl⟩
    refine (wp_hdrRead m ah _ _ _).seq ?_
    rintro _ _ ⟨rfl, _, rfl⟩
    refine (wp_hdrRead m ah _ _ _).seq ?_
    rintro _ _ ⟨rfl, acc, rfl⟩
    rw [wp_ite]
    refine ⟨fun hbad => ?_, fun hgood => ?_⟩
    · refine (hdrop acc).imp fun r s' h => ⟨h.1, [], ?_, h.2⟩
      have hnone : arpTeaches (s.ifnet w) (s.sec m) ah = none := if_pos hbad
      rw [hnone]
      rfl
    · refine (wp_hdrRead m ah _ _ _).seq ?_
      rintro _ _ ⟨rfl, _, rfl⟩
      refine (wp_hdrRead m ah _ _ _).seq ?_
      rintro _ _ ⟨rfl, acc, rfl⟩
      have hteach : arpTeaches (s.ifnet w) (s.sec m) ah = _ := if_neg hgood
      rw [hteach]
      dsimp only
      cases hint : arpIsInteresting (s.ifnet w) (field 6 (s.sec m) (ah + 18))
          (field 4 (s.sec m) (ah + 24)) with
      | none =>
        refine (hdrop acc).imp fun r s' h => ⟨h.1, [], ?_, h.2⟩
        rfl
      | some targeted =>
        refine (wp_hdrRead m ah _ _ _).seq ?_
        rintro _ _ ⟨rfl, _, rfl⟩
        refine (wp_hdrRead m ah _ _ _).seq ?_
        rintro _ _ ⟨rfl, acc, rfl⟩
        have hk := kept_accesses hm acc
        refine (wp_arpCache env w _ _ targeted hk.mem).seq ?_
        rintro _ s₁ ⟨news, hl, hk₁⟩
        have htail : Handles m (ifnetIdx w) (do
            let opcode ← hdrRead m (some ah) 6 2
            if targeted = true ∧ ntohs opcode = rteArpOpRequest then
              arpReply w (s.ifnet w) m (some ah)
            else arpDrop m) (fun _ => False) (· ≠ 0) := by
          refine (keeps_hdrRead m _ _ _).bind_keeps fun opcode _ => .ite ?_ ?_
          · exact fun _ => handles_arpReply m w _ _
          · exact fun _ => handles_drop m (by decide)
        refine (htail s₁ hk₁.mem).mono (fun _ _ => (hk.trans hk₁).trans_stopped)
          fun r s' h => ?_
        obtain ⟨hr, hg⟩ := h.resolve_left fun h => h.1
        refine ⟨hr, news, ?_, ?_⟩
        · cases targeted <;> exact hl
        · simpa using (hk.trans hk₁).trans_gone hg

/-- `l2_input` keeps an IPv4 packet and gives away any other. -/
theorem wp_l2Input (hm : m ∈ s.pool.inuseList) :
    Wp (fun _ => Stopped {m} s) (l2Input env w m) (fun r s' => ∃ news,
      Learned w (s.ifnet w) (teaches (s.ifnet w) (s.pool.eb m) (s.sec m)) news ∧
        ((r = 0 ∧ Kept m s news s') ∨ (r ≠ 0 ∧ Gone m (ifnetIdx w) s news s'))) s := by
  simp only [l2Input, wp_bind, wp_get]
  refine wp_ite.mpr ⟨fun _ => .refl _ s, fun _ => ?_⟩
  cases hp : ethbufDataPtr (s.pool.eb m) 0 with
  | none => exact .refl _ s
  | some eh =>
    have heh : eh = (s.pool.eb m).dataOff.toNat := by simpa using ethbufDataPtr_eq_some hp
    refine (wp_hdrRead m eh _ _ _).seq ?_
    rintro _ _ ⟨rfl, acc, rfl⟩
    rw [wp_bind, setPriv, wp_modify, wp_bind, setEb, wp_modify]
    dsimp only
    set s₁ : RouterState := { s with
      accesses := acc
      priv := Function.update s.priv m { s.priv m with etherType := field 2 (s.sec m) (eh + 12) }
      pool := s.pool.setEb m { s.pool.eb m with l2Len := 14 } } with hs₁
    have hk : Kept m s [] s₁ := by
      refine kept_of_edit hm rfl rfl rfl rfl fun b hb => ?_
      simp [contents, s₁, hb]
    refine wp_ite.mpr ⟨fun harp => ?_, fun harp => ?_⟩
    · have hteach : teaches (s.ifnet w) (s.pool.eb m) (s.sec m) =
          arpTeaches (s.ifnet w) (s.sec m) ((s.pool.eb m).dataOff.toNat + 14) :=
        if_pos (heh ▸ harp)
      refine (wp_arpInput env w hk.mem).mono (fun _ _ => hk.trans_stopped) ?_
      rintro r s' ⟨hr, news, hl, hg⟩
      refine ⟨news, ?_, .inr ⟨hr, hk.trans_gone hg⟩⟩
      rw [hteach]
      simpa [s₁] using hl
    · have hteach : teaches (s.ifnet w) (s.pool.eb m) (s.sec m) = none := if_neg (heh ▸ harp)
      have htail : Handles m (ifnetIdx w)
          (if ntohs (field 2 (s.sec m) (eh + 12)) = rteEtherTypeIpv4 then
            l2Ipv4 m (s.pool.eb m).dataLen else do bufFree m; return -1) (· = 0) (· ≠ 0) := by
        refine .ite (fun _ => ?_) fun _ => handles_drop m (by decide)
        refine (keeps_setEb m _).bind_keeps fun _ _ => .ite (fun _ => .throw _) fun _ => ?_
        exact (keeps_setEb m _).bind_keeps fun _ _ => .pure rfl
      refine (htail s₁ hk.mem).mono (fun _ _ => hk.trans_stopped) fun r s' h => ⟨[], ?_, ?_⟩
      · rw [hteach]
        rfl
      · exact h.imp (And.imp_right hk.trans) (And.imp_right hk.trans_gone)

/-- What `router_ip_output` returns for an interface that is not there. -/
theorem post_routerIpOutput_index (m : BufId) (outIfIdx : Word) (s : RouterState) :
    Post (routerIpOutput env w m outIfIdx) (fun r _ => r = 0 →
      ifnetGetbyidx s outIfIdx ≠ none) s := by
  simp only [routerIpOutput, wp_bind, wp_get]
  cases hi : ifnetGetbyidx s outIfIdx with
  | none => exact fun (h : (-1 : ℤ) = 0) => absurd h (by decide)
  | some ifp => exact post_of_ok fun _ _ _ _ => Option.some_ne_none _

/-- **One packet**: it is given away, or it is routed to an interface and kept for the output
array. -/
theorem wp_routePacket (hm : m ∈ s.pool.inuseList) :
    Wp (fun _ => Stopped {m} s) (routePacket env w m) (fun r s' => ∃ news,
      Learned w (s.ifnet w) (teaches (s.ifnet w) (s.pool.eb m) (s.sec m)) news ∧
        ((r = none ∧ Gone m (ifnetIdx w) s news s') ∨
          ∃ i, r = some i ∧ InTable env i ∧ 0 < i.toNat ∧ i.toNat ≤ s.devCount ∧
            Kept m s (news ++ [.routed i.toNat m]) s')) s := by
  refine (wp_l2Input env w hm).seq fun r s₁ ⟨news, hl, h⟩ => wp_ite.mpr ⟨fun hr => ?_, fun hr => ?_⟩
  · exact ⟨news, hl, .inl ⟨rfl, (h.resolve_left fun h => hr h.1).2⟩⟩
  have hk := (h.resolve_right fun h => hr h.1).2
  refine ((handles_firewallProcess m (ifnetIdx w) env .dirIn s₁ hk.mem).mono
    (fun _ _ => hk.trans_stopped) fun r s' h => h).seq fun r s₂ h => ?_
  rcases h with ⟨rfl, hk₂⟩ | ⟨rfl, hg⟩
  swap
  · exact ⟨news, hl, .inl ⟨rfl, by simpa using hk.trans_gone hg⟩⟩
  replace hk := hk.trans hk₂
  refine ((keeps_routerIpRoute m env s₂ hk.mem).mono
    (fun _ _ => hk.trans_stopped) fun r s' h => h).seq fun r s₃ h => ?_
  obtain ⟨htable, hk₃⟩ := h.resolve_right fun h => h.1
  replace hk := hk.trans hk₃
  cases r with
  | none =>
    have hdrop : Handles m (ifnetIdx w) (do bufFree m; return (none : Option Word))
        (fun _ => False) (· = none) := handles_drop m rfl
    refine (hdrop s₃ hk.mem).mono (fun _ _ => hk.trans_stopped) fun r s' h => ?_
    obtain ⟨rfl, hg⟩ := h.resolve_left fun h => h.1
    exact ⟨news, hl, .inl ⟨rfl, by simpa using hk.trans_gone hg⟩⟩
  | some i =>
    refine (((handles_routerIpOutput m env w (ifnetIdx w) i s₃ hk.mem).and
      (post_routerIpOutput_index env w m i s₃)).mono
      (fun _ _ => hk.trans_stopped) fun r s' h => h).seq fun r s₄ ⟨h, hidx⟩ => ?_
    rcases h with ⟨rfl, hk₄⟩ | ⟨rfl, hg⟩
    · obtain ⟨ifp, hifp⟩ := Option.ne_none_iff_exists'.mp (hidx rfl)
      obtain ⟨hpos, hle, -⟩ := ifnetGetbyidx_eq_some hifp
      rw [hk.devCount] at hle
      replace hk := hk.trans hk₄
      refine ⟨news, hl, .inr ⟨i, rfl, htable i rfl, hpos, hle, ?_⟩⟩
      have hlog : Kept m s₄ [.routed i.toNat m]
          { s₄ with log := s₄.log ++ [.routed i.toNat m] } :=
        kept_of_news hk.mem rfl rfl rfl rfl (fun _ => rfl) fun _ => rfl
      simpa using hk.trans hlog
    · exact ⟨news, hl, .inl ⟨rfl, by simpa using hk.trans_gone hg⟩⟩

/-! ## What the caches learn -/

/-- A cache after a lesson: what is known is not replaced. -/
def learnFrom (cache : ArpCache) : Option (Ip4Addr × MacAddr) → ArpCache
  | none => cache
  | some (ip, mac) => if cache ip = none then cache.insert ip mac else cache

theorem learnFrom_of_some {cache : ArpCache} {ip : Ip4Addr} {mac : MacAddr}
    (h : cache ip = some mac) (lesson : Option (Ip4Addr × MacAddr)) :
    learnFrom cache lesson ip = some mac := by
  rcases lesson with - | ⟨ip', mac'⟩
  · exact h
  · simp only [learnFrom]
    split
    · next hnone =>
      have hne : ip ≠ ip' := by
        rintro rfl
        cases hnone.symm.trans h
      rw [cache.insert_of_ne mac' hne]
      exact h
    · exact h

/-- Only news matter to a cache. -/
theorem arpCache_foldl_after (i : ℕ) (ops : List RouterOp) {ifp ifp' : Ifnet}
    (h : ifp.arpCache = ifp'.arpCache) : (ops.foldl (Ifnet.after i) ifp).arpCache =
      ((ops.filter RouterOp.isNews).foldl (Ifnet.after i) ifp').arpCache := by
  induction ops generalizing ifp ifp' with
  | nil => exact h
  | cons op ops ih =>
    have hkeep : ¬ op.isNews → (ifp.after i op).arpCache = ifp.arpCache := by
      cases op <;> simp [Ifnet.after, RouterOp.isNews]
      split <;> rfl
    have hboth : (ifp.after i op).arpCache = (ifp'.after i op).arpCache := by
      cases op <;> simp only [Ifnet.after] <;> (try split) <;> simp [h]
    by_cases hop : op.isNews
    · rw [List.filter_cons_of_pos hop, List.foldl_cons, List.foldl_cons]
      exact ih hboth
    · rw [List.filter_cons_of_neg hop, List.foldl_cons]
      exact ih ((hkeep hop).trans h)

/-- What a step with these lessons made of the caches: the own cache has learnt, unless there was no
memory, and the others are the same. -/
structure Taught (w : ℕ) (s : RouterState) (lesson : Option (Ip4Addr × MacAddr))
    (ops : List RouterOp) (s' : RouterState) : Prop where
  others : ∀ i, i ≠ w → (s'.ifnet i).arpCache = (s.ifnet i).arpCache
  own : (s'.ifnet w).arpCache = learnFrom (s.ifnet w).arpCache lesson ∨
    (.oom w ∈ ops ∧ (s'.ifnet w).arpCache = (s.ifnet w).arpCache)

variable {lesson : Option (Ip4Addr × MacAddr)} {ops : List RouterOp} {s' : RouterState}

theorem taught_of_learned {own : Set BufId} {news rest : List RouterOp}
    (hl : Learned w (s.ifnet w) lesson news) (hmv : Moved own s ops s')
    (hnews : ops.filter RouterOp.isNews = news ++ rest)
    (hrest : ∀ op ∈ rest, ∃ i b, op = .routed i b) : Taught w s lesson ops s' := by
  have hskip : ∀ (i : ℕ) (ifp : Ifnet), rest.foldl (Ifnet.after i) ifp = ifp := by
    intro i ifp
    clear hnews
    induction rest with
    | nil => rfl
    | cons op rest ih =>
      obtain ⟨j, b, rfl⟩ := hrest op List.mem_cons_self
      exact ih fun op' hop' => hrest op' (List.mem_cons_of_mem _ hop')
  have hcache : ∀ i, (s'.ifnet i).arpCache =
      (news.foldl (Ifnet.after i) (s.ifnet i)).arpCache := by
    intro i
    rw [hmv.ifnet i, arpCache_foldl_after i ops rfl, hnews, List.foldl_append, hskip]
  have hmem : ∀ op ∈ news, op ∈ ops := by
    intro op hop
    refine List.mem_of_mem_filter (p := RouterOp.isNews) ?_
    rw [hnews]
    exact List.mem_append_left _ hop
  rcases lesson with - | ⟨ip, mac⟩
  · obtain rfl : news = [] := hl
    exact ⟨fun i _ => hcache i, .inl (hcache w)⟩
  · simp only [Learned] at hl
    split at hl
    · next hnone =>
      rcases hl with rfl | rfl
      · refine ⟨fun i hi => ?_, .inl ?_⟩
        · simp [hcache i, Ifnet.after, hi.symm]
        · simp [hcache w, Ifnet.after, learnFrom, hnone]
      · exact ⟨fun i _ => hcache i, .inr ⟨hmem _ (by simp), hcache w⟩⟩
    · next hsome =>
      subst hl
      exact ⟨fun i _ => hcache i, .inl ((hcache w).trans (if_neg hsome).symm)⟩

/-- What is known stays known. -/
theorem Taught.keeps (h : Taught w s lesson ops s') {i : ℕ} {ip : Ip4Addr} {mac : MacAddr}
    (hc : (s.ifnet i).arpCache ip = some mac) : (s'.ifnet i).arpCache ip = some mac := by
  by_cases hi : i = w
  · subst hi
    rcases h.own with hown | ⟨-, hown⟩
    · rw [hown]
      exact learnFrom_of_some hc lesson
    · rw [hown]
      exact hc
  · rw [h.others i hi]
    exact hc

/-! ## One packet after the other -/

/-- The packets that reached the output array, with their interfaces. -/
def routes (ops : List RouterOp) : List (ℕ × BufId) :=
  ops.filterMap fun
    | .routed i b => some (i, b)
    | _ => none

theorem routes_append (ops ops' : List RouterOp) :
    routes (ops ++ ops') = routes ops ++ routes ops' :=
  List.filterMap_append

/-- Routes are news. -/
theorem routes_filter_isNews (ops : List RouterOp) :
    routes (ops.filter RouterOp.isNews) = routes ops := by
  rw [routes, routes, List.filterMap_filter]
  refine List.filterMap_congr fun op _ => ?_
  cases op <;> rfl

theorem routes_of_learned {ifp : Ifnet} {news : List RouterOp} (h : Learned w ifp lesson news) :
    routes news = [] := by
  unfold Learned at h
  split at h
  · exact h ▸ rfl
  · split at h
    · rcases h with rfl | rfl <;> rfl
    · exact h ▸ rfl

/-- What became of a packet: given away, or routed to an interface and still there. -/
def Outcome (m : BufId) (s : RouterState) (ops : List RouterOp) (s' : RouterState) :
    Option Word → Prop
  | none => routes ops = [] ∧ ∃ op ∈ ops, op.Leaves (ifnetIdx w) m
  | some i => routes ops = [(i.toNat, m)] ∧ InTable env i ∧ 0 < i.toNat ∧ i.toNat ≤ s.devCount ∧
      (∀ op ∈ ops, op.ends ≠ some m) ∧ m ∈ s'.pool.inuseList

/-- One packet, by what was logged. -/
theorem wp_routePacket_routes (hm : m ∈ s.pool.inuseList) :
    Wp (fun _ => Stopped {m} s) (routePacket env w m) (fun r s' => ∃ ops, Moved {m} s ops s' ∧
      Taught w s (teaches (s.ifnet w) (s.pool.eb m) (s.sec m)) ops s' ∧
      Outcome env w m s ops s' r) s := by
  refine (wp_routePacket env w hm).imp fun r s' ⟨news, hl, h⟩ => ?_
  rcases h with ⟨rfl, ops, hmv, hend, hnews⟩ | ⟨i, rfl, htable, hpos, hle, ops, hmv, hh, hm', hnews⟩
  · have hnone := routes_of_learned w hl
    rw [← hnews, routes_filter_isNews] at hnone
    have hnews' : ops.filter RouterOp.isNews = news ++ [] := by rw [hnews, List.append_nil]
    exact ⟨ops, hmv, taught_of_learned w hl hmv hnews' (by simp), hnone, hend⟩
  · refine ⟨ops, hmv, taught_of_learned w hl hmv hnews (by simp), ?_, htable, hpos, hle, hh, hm'⟩
    rw [← routes_filter_isNews, hnews, routes_append, routes_of_learned w hl]
    rfl

/-- What the loop of `router_if_input` did. -/
structure Looped (ms : List BufId) (s : RouterState) (ops : List RouterOp) (s' : RouterState) :
    Prop where
  moved : Moved {b | b ∈ ms} s ops s'
  order : ((routes ops).map Prod.snd).Sublist ms
  index : ∀ p ∈ routes ops, 0 < p.1 ∧ p.1 ≤ s.devCount ∧ ∃ i, InTable env i ∧ i.toNat = p.1
  routed : ∀ p ∈ routes ops, (∀ op ∈ ops, op.ends ≠ some p.2) ∧ p.2 ∈ s'.pool.inuseList
  settled : ∀ b ∈ ms, b ∈ (routes ops).map Prod.snd ∨
    ∃ op ∈ ops, op.Leaves (ifnetIdx w) b
  caches : ∀ i ip mac, (s.ifnet i).arpCache ip = some mac → (s'.ifnet i).arpCache ip = some mac

theorem Looped.nil (s : RouterState) : Looped env w [] s [] s :=
  ⟨.refl _ s, by simp [routes], by simp [routes], by simp [routes], by simp, fun _ _ _ h => h⟩

/-- A packet, and then the rest. -/
theorem Looped.cons {ms : List BufId} {s₁ : RouterState} {ops' : List RouterOp} {r : Option Word}
    (hnd : (m :: ms).Nodup) (hin : ∀ b ∈ ms, b ∈ s.pool.inuseList) (hmv : Moved {m} s ops s₁)
    (ht : Taught w s lesson ops s₁) (hr : Outcome env w m s ops s₁ r)
    (h : Looped env w ms s₁ ops' s') : Looped env w (m :: ms) s (ops ++ ops') s' := by
  obtain ⟨hmem, hnd⟩ := List.nodup_cons.mp hnd
  have hroutes := routes_append ops ops'
  constructor
  case moved => exact hmv.cons hmem hin h.moved
  case order =>
    rw [hroutes, List.map_append]
    cases r with
    | none =>
      rw [hr.1]
      exact h.order.cons m
    | some i =>
      rw [hr.1]
      exact h.order.cons_cons m
  case index =>
    rw [hroutes]
    intro p hp
    rcases List.mem_append.mp hp with hp | hp
    · cases r with
      | none => simp [hr.1] at hp
      | some i =>
        obtain ⟨hr, htable, hpos, hle, -⟩ := hr
        obtain rfl : p = (i.toNat, m) := by simpa [hr] using hp
        exact ⟨hpos, hle, i, htable, rfl⟩
    · exact hmv.devCount ▸ h.index p hp
  case routed =>
    rw [hroutes]
    intro p hp
    simp only [List.mem_append, or_imp, forall_and]
    rcases List.mem_append.mp hp with hp | hp
    · cases r with
      | none => simp [hr.1] at hp
      | some i =>
        obtain ⟨hr, -, -, -, hno, hm₁⟩ := hr
        obtain rfl : p = (i.toNat, m) := by simpa [hr] using hp
        exact ⟨⟨hno, h.moved.not_ended hm₁ hmem⟩, (h.moved.others m hm₁ hmem).2.1⟩
    · have hpm : p.2 ∈ ms := h.order.subset (List.mem_map_of_mem hp)
      have hne : p.2 ∉ ({m} : Set BufId) := ne_of_mem_of_not_mem hpm hmem
      exact ⟨⟨hmv.not_ended (hin _ hpm) hne, (h.routed p hp).1⟩, (h.routed p hp).2⟩
  case settled =>
    rw [hroutes, List.map_append]
    intro b hb
    rcases List.mem_cons.mp hb with rfl | hb
    · cases r with
      | none =>
        obtain ⟨-, op, hop, hend⟩ := hr
        exact .inr ⟨op, List.mem_append_left _ hop, hend⟩
      | some i => exact .inl (by simp [hr.1])
    · rcases h.settled b hb with hb | ⟨op, hop, hend⟩
      · exact .inl (List.mem_append_right _ hb)
      · exact .inr ⟨op, List.mem_append_right _ hop, hend⟩
  case caches =>
    intro i ip mac hc
    exact h.caches i ip mac (ht.keeps w hc)

/-- **The packets of a batch.**  The rows of the output array are what the log says. -/
theorem wp_routeLoop {ms : List BufId} (hnd : ms.Nodup) (a : OutArr) (s : RouterState)
    (hin : ∀ b ∈ ms, b ∈ s.pool.inuseList) :
    Wp (fun _ => Stopped {b | b ∈ ms} s) (routeLoop env w ms a) (fun a' s' =>
      ∃ ops, Looped env w ms s ops s' ∧
        a' = (routes ops).foldl (fun a p => a.add p.1 p.2) a) s := by
  induction ms generalizing a s with
  | nil => exact ⟨[], .nil env w s, rfl⟩
  | cons m ms ih =>
    have hms : ∀ b ∈ ms, b ∈ s.pool.inuseList := fun b hb => hin b (List.mem_cons_of_mem _ hb)
    obtain ⟨hmem, hnd'⟩ := List.nodup_cons.mp hnd
    have hone : ({m} : Set BufId) ⊆ {b | b ∈ m :: ms} :=
      Set.singleton_subset_iff.mpr List.mem_cons_self
    refine ((wp_routePacket_routes env w (hin m List.mem_cons_self)).mono
      (fun _ _ h => h.mono hone) fun r s' h => h).seq fun r s₁ ⟨ops, hmv, ht, hr⟩ => ?_
    have hwait := hmv.waiting hmem hms
    refine (ih hnd' _ s₁ fun b hb => (hwait b hb).1).mono ?_ fun a' s' ⟨ops', hloop, ha⟩ => ?_
    · rintro e s' ⟨ops', hmv'⟩
      exact ⟨ops ++ ops', hmv.cons hmem hms hmv'⟩
    refine ⟨ops ++ ops', .cons env w hnd hms hmv ht hr hloop, ?_⟩
    rw [ha, routes_append, List.foldl_append]
    cases r <;> rw [hr.1] <;> rfl

end Packet

end Router

end TrustedGateway
