import TrustedGateway.Lib.Custody
import TrustedGateway.Router

/-!
# What the router's functions do

Each function of the router works on one packet, and the log says what it did.  `Moved own s ops s'`
collects what that means for the buffers: `ops` was logged, only buffers in custody were given away,
buffers in use outside `own` were left alone, and the interfaces are what the log makes of them.
Steps of this kind compose (`Moved.trans`).  A function returns its packet (`Kept`) or has given it
away (`Gone`), and its return value says which.
-/

namespace TrustedGateway

open Programs Custody

namespace RouterOp

/-- The buffer that an operation takes out of the pool. -/
def gains : RouterOp → Option BufId
  | alloc b => some b
  | _ => none

/-- The buffer that an operation gives away: to the pool, to the firewall or to a queue. -/
def ends : RouterOp → Option BufId
  | free b | take b | enqueue _ b => some b
  | _ => none

/-- Ways to give `b` away: to the pool, to the firewall or to the queue of interface `i`. -/
def Leaves (i : ℕ) (b : BufId) (op : RouterOp) : Prop :=
  op = free b ∨ op = take b ∨ op = enqueue i b

theorem Leaves.ends {i : ℕ} {b : BufId} {op : RouterOp} (h : op.Leaves i b) : op.ends = some b := by
  rcases h with rfl | rfl | rfl <;> rfl

/-- Operations that concern no buffer but what a worker has found out. -/
def isNews : RouterOp → Bool
  | routed .. | learn .. | oom _ => true
  | _ => false

end RouterOp

/-- The interface `i` after an operation. -/
def Ifnet.after (i : ℕ) (ifp : Ifnet) : RouterOp → Ifnet
  | .enqueue j b => if j = i then { ifp with egress := ifp.egress.push b } else ifp
  | .learn j ip mac =>
    if j = i then { ifp with arpCache := ifp.arpCache.insert ip mac } else ifp
  | _ => ifp

namespace Router

/-- A buffer with its header, its bytes and its private area. -/
def contents (s : RouterState) (b : BufId) : EthBuf × (ℕ → Byte) × MbufPriv :=
  (s.pool.eb b, s.sec b, s.priv b)

theorem contents_eq_iff {s s' : RouterState} {b : BufId} : contents s' b = contents s b ↔
    s'.pool.eb b = s.pool.eb b ∧ s'.sec b = s.sec b ∧ s'.priv b = s.priv b := by
  simp only [contents, Prod.mk.injEq]

/-- What the party has after the operations. -/
abbrev holds (own : Set BufId) (ops : List RouterOp) : Set BufId :=
  holdAll RouterOp.gains RouterOp.ends own ops

/-- A step that worked on the buffers `own` and logged `ops`. -/
structure Moved (own : Set BufId) (s : RouterState) (ops : List RouterOp) (s' : RouterState) :
    Prop where
  log : s'.log = s.log ++ ops
  legal : Legal RouterOp.gains RouterOp.ends own ops
  others : ∀ b ∈ s.pool.inuseList, b ∉ own → (∀ op ∈ ops, op.gains ≠ some b) ∧
    b ∈ s'.pool.inuseList ∧ contents s' b = contents s b
  devCount : s'.devCount = s.devCount
  ifnet : ∀ i, s'.ifnet i = ops.foldl (Ifnet.after i) (s.ifnet i)

namespace Moved

variable {own own' : Set BufId} {s s₁ s' : RouterState} {ops ops' : List RouterOp} {b : BufId}

theorem refl (own : Set BufId) (s : RouterState) : Moved own s [] s where
  log := (List.append_nil _).symm
  legal := trivial
  others := by
    intro b hb _
    exact ⟨by simp, hb, rfl⟩
  devCount := rfl
  ifnet := fun _ => rfl

/-- The second step works on buffers that the first one left in custody. -/
theorem trans (h : Moved own s ops s₁) (h' : Moved own' s₁ ops' s') (hsub : own' ⊆ holds own ops) :
    Moved own s (ops ++ ops') s' where
  log := by rw [h'.log, h.log, List.append_assoc]
  legal := Legal.append_iff.mpr ⟨h.legal, h'.legal.mono hsub⟩
  others := by
    intro b hb hown
    obtain ⟨hg, hb₁, hc⟩ := h.others b hb hown
    have hown' : b ∉ own' := fun hmem => notMem_holdAll hown hg (hsub hmem)
    obtain ⟨hg', hb', hc'⟩ := h'.others b hb₁ hown'
    refine ⟨?_, hb', hc'.trans hc⟩
    intro op hop
    rcases List.mem_append.mp hop with hop | hop
    · exact hg op hop
    · exact hg' op hop
  devCount := h'.devCount.trans h.devCount
  ifnet := by
    intro i
    rw [h'.ifnet, h.ifnet, List.foldl_append]

theorem mono (h : Moved own s ops s') (hsub : own ⊆ own') : Moved own' s ops s' where
  log := h.log
  legal := h.legal.mono hsub
  others := fun b hb hown => h.others b hb fun hmem => hown (hsub hmem)
  devCount := h.devCount
  ifnet := h.ifnet

/-- Buffers outside are not given away. -/
theorem not_ended (h : Moved own s ops s') (hb : b ∈ s.pool.inuseList) (hown : b ∉ own) :
    ∀ op ∈ ops, op.ends ≠ some b :=
  h.legal.not_lost hown (h.others b hb hown).1

/-- A packet outside stays in custody of whoever has it. -/
theorem mem_holds (h : Moved own s ops s') (hb : b ∈ s.pool.inuseList) (hown : b ∉ own)
    (hmem : b ∈ own') : b ∈ holds own' ops :=
  mem_holdAll hmem (h.not_ended hb hown)

/-! The turn of one packet `b` of a batch, seen by the packets `bs` that come after it. -/

variable {bs : List BufId}

/-- The packets that wait are still in use, with the same contents. -/
theorem waiting (h : Moved {b} s ops s') (hb : b ∉ bs) (hin : ∀ c ∈ bs, c ∈ s.pool.inuseList) :
    ∀ c ∈ bs, c ∈ s'.pool.inuseList ∧ contents s' c = contents s c := by
  intro c hc
  have hne : c ∉ ({b} : Set BufId) := ne_of_mem_of_not_mem hc hb
  exact (h.others c (hin c hc) hne).2

/-- One packet, and then those that wait. -/
theorem cons (h : Moved {b} s ops s₁) (hb : b ∉ bs) (hin : ∀ c ∈ bs, c ∈ s.pool.inuseList)
    (h' : Moved {c | c ∈ bs} s₁ ops' s') : Moved {c | c ∈ b :: bs} s (ops ++ ops') s' := by
  have hone : ({b} : Set BufId) ⊆ {c | c ∈ b :: bs} :=
    Set.singleton_subset_iff.mpr List.mem_cons_self
  refine (h.mono hone).trans h' fun c hc => ?_
  have hne : c ∉ ({b} : Set BufId) := ne_of_mem_of_not_mem hc hb
  exact h.mem_holds (hin c hc) hne (List.mem_cons_of_mem _ hc)

end Moved

/-- Where an abort leaves a step that worked on the buffers `own`. -/
def Stopped (own : Set BufId) (s s' : RouterState) : Prop :=
  ∃ ops, Moved own s ops s'

theorem Stopped.refl (own : Set BufId) (s : RouterState) : Stopped own s s :=
  ⟨[], .refl own s⟩

theorem Stopped.mono {own own' : Set BufId} {s s' : RouterState} (h : Stopped own s s')
    (hsub : own ⊆ own') : Stopped own' s s' := by
  obtain ⟨ops, hmv⟩ := h
  exact ⟨ops, hmv.mono hsub⟩

/-- A step that only gave buffers away: those that were not freed are as they were. -/
structure Handed (own : Set BufId) (s : RouterState) (ops : List RouterOp) (s' : RouterState) :
    Prop extends Moved own s ops s' where
  quiet : ∀ b, .free b ∉ ops → contents s' b = contents s b

namespace Handed

variable {own own' : Set BufId} {s s₁ s' : RouterState} {ops ops' : List RouterOp}

theorem refl (own : Set BufId) (s : RouterState) : Handed own s [] s :=
  ⟨.refl own s, fun _ _ => rfl⟩

theorem mono (h : Handed own s ops s') (hsub : own ⊆ own') : Handed own' s ops s' :=
  ⟨h.toMoved.mono hsub, h.quiet⟩

theorem trans (h : Handed own s ops s₁) (h' : Handed own' s₁ ops' s')
    (hsub : own' ⊆ holds own ops) : Handed own s (ops ++ ops') s' := by
  refine ⟨h.toMoved.trans h'.toMoved hsub, fun b hb => ?_⟩
  rw [List.mem_append, not_or] at hb
  exact (h'.quiet b hb.2).trans (h.quiet b hb.1)

end Handed

/-- A step that worked on `m` only, and left it in custody. -/
def Kept (m : BufId) (s : RouterState) (news : List RouterOp) (s' : RouterState) : Prop :=
  ∃ ops, Moved {m} s ops s' ∧ (∀ op ∈ ops, op.ends ≠ some m) ∧ m ∈ s'.pool.inuseList ∧
    ops.filter RouterOp.isNews = news

/-- A step that worked on `m` only, and gave it away; if to a queue, to that of `i`. -/
def Gone (m : BufId) (i : ℕ) (s : RouterState) (news : List RouterOp) (s' : RouterState) : Prop :=
  ∃ ops, Moved {m} s ops s' ∧ (∃ op ∈ ops, op.Leaves i m) ∧
    ops.filter RouterOp.isNews = news

section Compose

variable {m : BufId} {i : ℕ} {s s₁ s' : RouterState} {news news' : List RouterOp}

theorem Kept.mem (h : Kept m s news s') : m ∈ s'.pool.inuseList := by
  obtain ⟨_, -, -, hm, -⟩ := h
  exact hm

theorem Kept.devCount (h : Kept m s news s') : s'.devCount = s.devCount := by
  obtain ⟨_, hmv, -⟩ := h
  exact hmv.devCount

theorem Kept.trans (h : Kept m s news s₁) (h' : Kept m s₁ news' s') :
    Kept m s (news ++ news') s' := by
  obtain ⟨ops, hmv, hno, -, rfl⟩ := h
  obtain ⟨ops', hmv', hno', hm, rfl⟩ := h'
  have hsub : {m} ⊆ holds {m} ops := Set.singleton_subset_iff.mpr (mem_holdAll rfl hno)
  refine ⟨ops ++ ops', hmv.trans hmv' hsub, ?_, hm, List.filter_append ..⟩
  intro op hop
  exact (List.mem_append.mp hop).elim (hno op) (hno' op)

theorem Kept.trans_stopped (h : Kept m s news s₁) (h' : Stopped {m} s₁ s') :
    Stopped {m} s s' := by
  obtain ⟨ops, hmv, hno, -, -⟩ := h
  obtain ⟨ops', hmv'⟩ := h'
  exact ⟨ops ++ ops', hmv.trans hmv' (Set.singleton_subset_iff.mpr (mem_holdAll rfl hno))⟩

theorem Kept.trans_gone (h : Kept m s news s₁) (h' : Gone m i s₁ news' s') :
    Gone m i s (news ++ news') s' := by
  obtain ⟨ops, hmv, hno, -, rfl⟩ := h
  obtain ⟨ops', hmv', ⟨op, hop, he⟩, rfl⟩ := h'
  have hsub : {m} ⊆ holds {m} ops := Set.singleton_subset_iff.mpr (mem_holdAll rfl hno)
  exact ⟨ops ++ ops', hmv.trans hmv' hsub, ⟨op, List.mem_append_right _ hop, he⟩,
    List.filter_append ..⟩

/-- Work on a packet that is not logged. -/
theorem kept_of_edit (hm : m ∈ s.pool.inuseList) (hlog : s'.log = s.log)
    (huse : s'.pool.inuseList = s.pool.inuseList) (hdev : s'.devCount = s.devCount)
    (hif : s'.ifnet = s.ifnet) (hc : ∀ b, b ≠ m → contents s' b = contents s b) :
    Kept m s [] s' := by
  refine ⟨[], ⟨by simp [hlog], trivial, ?_, hdev, fun i => by rw [hif]; rfl⟩, by simp, huse ▸ hm,
    rfl⟩
  intro b hb hne
  exact ⟨by simp, huse ▸ hb, hc b hne⟩

/-- An entry of the log about what was found out. -/
theorem kept_of_news {op : RouterOp} (hm : m ∈ s.pool.inuseList) (hop : op.isNews)
    (hpool : s'.pool.inuseList = s.pool.inuseList) (hlog : s'.log = s.log ++ [op])
    (hdev : s'.devCount = s.devCount) (hif : ∀ i, s'.ifnet i = (s.ifnet i).after i op)
    (hc : ∀ b, contents s' b = contents s b) : Kept m s [op] s' := by
  have hg : op.gains = none := by cases op <;> simp_all [RouterOp.isNews, RouterOp.gains]
  have he : op.ends = none := by cases op <;> simp_all [RouterOp.isNews, RouterOp.ends]
  refine ⟨[op], ⟨hlog, ?_, ?_, hdev, hif⟩, by simp [he], hpool ▸ hm, by simp [hop]⟩
  · simp [Legal, he]
  · intro b hb hne
    exact ⟨by simp [hg], hpool ▸ hb, hc b⟩

end Compose

/-! ## Single operations -/

section Primitives

variable {E : Abort → RouterState → Prop}

theorem handed_free (m : BufId) (s : RouterState) :
    Handed {m} s [.free m] { s with pool := s.pool.bufFree m, log := s.log ++ [.free m] } := by
  refine ⟨⟨rfl, by simp [Legal, RouterOp.ends], ?_, rfl, fun _ => rfl⟩, ?_⟩
  · intro b hb hne
    refine ⟨by simp [RouterOp.gains], (List.mem_erase_of_ne hne).mpr hb, ?_⟩
    simp only [contents, EthPool.eb_bufFree_of_ne _ hne]
  · intro b hb
    have hne : b ≠ m := by simpa using hb
    simp only [contents, EthPool.eb_bufFree_of_ne _ hne]

theorem gone_free (m : BufId) (i : ℕ) (s : RouterState) :
    Gone m i s [] { s with pool := s.pool.bufFree m, log := s.log ++ [.free m] } :=
  ⟨[.free m], (handed_free m s).toMoved, ⟨_, List.mem_singleton_self _, .inl rfl⟩, rfl⟩

theorem gone_take (m : BufId) (i : ℕ) (s : RouterState) :
    Gone m i s [] { s with log := s.log ++ [.take m] } := by
  refine ⟨[.take m], ⟨rfl, by simp [Legal, RouterOp.ends], ?_, rfl, fun _ => rfl⟩,
    ⟨_, List.mem_singleton_self _, .inr (.inl rfl)⟩, rfl⟩
  intro b hb hne
  exact ⟨by simp [RouterOp.gains], hb, rfl⟩

/-- An allocation: the buffer was not in use. -/
theorem wp_bufAlloc (s : RouterState) :
    Wp (fun _ s' => s' = s) bufAlloc (fun x s' => x ∉ s.pool.inuseList ∧ x ∈ s'.pool.inuseList ∧
      Moved ∅ s [.alloc x] s') s := by
  simp only [bufAlloc, wp_bind, wp_get]
  split
  · exact rfl
  · next x pool hx =>
    obtain ⟨hfree, heb, huse⟩ := EthPool.bufAlloc_eq_ok hx
    have hnew : x ∉ s.pool.inuseList := by
      have hnd := s.pool.nodup
      rw [hfree, List.cons_append, List.nodup_cons, List.mem_append, not_or] at hnd
      exact hnd.1.2
    simp only [wp_bind, wp_set, wp_pure]
    refine ⟨hnew, by simp [huse], rfl, by simp [Legal, RouterOp.ends], ?_, rfl, fun _ => rfl⟩
    intro b hb _
    refine ⟨?_, by simp [huse, hb], by simp [contents, heb]⟩
    simp only [List.mem_singleton, forall_eq, RouterOp.gains, ne_eq, Option.some.injEq]
    exact ne_of_mem_of_not_mem hb hnew |>.symm

variable {bs : List BufId}

/-- Different buffers, given away one after the other. -/
theorem legal_map {f : BufId → RouterOp} (hf : ∀ b, (f b).ends = some b) (hnd : bs.Nodup) :
    Legal RouterOp.gains RouterOp.ends {b | b ∈ bs} (bs.map f) := by
  induction bs with
  | nil => trivial
  | cons b bs ih =>
    obtain ⟨hb, hnd⟩ := List.nodup_cons.mp hnd
    refine ⟨?_, (ih hnd).mono ?_⟩
    · intro t ht
      cases (hf b).symm.trans ht
      exact List.mem_cons_self
    · intro c hc
      refine ⟨.inl (List.mem_cons_of_mem _ hc), ?_⟩
      rw [hf b]
      exact fun h => hb (Option.some.inj h ▸ hc)

theorem wp_bufFreeAll (hnd : bs.Nodup) (s : RouterState) :
    Wp E (bufFreeAll bs) (fun _ s' => Handed {b | b ∈ bs} s (bs.map .free) s') s := by
  induction bs generalizing s with
  | nil => exact .refl _ s
  | cons b bs ih =>
    obtain ⟨hb, hnd⟩ := List.nodup_cons.mp hnd
    simp only [bufFreeAll, bufFree, wp_bind, wp_modify]
    refine (ih hnd _).imp fun _ s' h => ?_
    refine ((handed_free b s).mono ?_).trans h ?_
    · exact Set.singleton_subset_iff.mpr List.mem_cons_self
    · intro c hc
      exact mem_holdAll (List.mem_cons_of_mem _ hc) (by
        simp only [List.mem_singleton, forall_eq, RouterOp.ends, ne_eq, Option.some.injEq]
        exact fun h => hb (h ▸ hc))

/-- Packets go to an egress queue. -/
theorem handed_enqueue (hnd : bs.Nodup) (s : RouterState) (i : ℕ) :
    Handed {b | b ∈ bs} s (bs.map (.enqueue i))
      { s with
        ifnet := Function.update s.ifnet i
          { s.ifnet i with egress := bs.foldl PktQueue.push (s.ifnet i).egress }
        log := s.log ++ bs.map (.enqueue i) } := by
  refine ⟨⟨rfl, legal_map (fun _ => rfl) hnd, ?_, rfl, ?_⟩, fun _ _ => rfl⟩
  · intro b hb _
    exact ⟨by simp [RouterOp.gains], hb, rfl⟩
  · intro j
    have hfold : ∀ (bs : List BufId) (ifp : Ifnet),
        (bs.map (.enqueue i)).foldl (Ifnet.after j) ifp =
        if i = j then { ifp with egress := bs.foldl PktQueue.push ifp.egress } else ifp := by
      intro bs
      induction bs with
      | nil => simp
      | cons b bs ih =>
        intro ifp
        simp only [List.map_cons, List.foldl_cons, ih, Ifnet.after]
        split <;> rfl
    rw [hfold]
    by_cases hij : i = j
    · subst hij
      simp
    · simp [hij, Ne.symm hij]

/-- `ifnet_idx` of an interface. -/
abbrev ifnetIdx (w : ℕ) : ℕ := (BitVec.ofNat 32 w).toNat

/-- What `pktq_do_menqueue` logs. -/
def menqueueOps (w i : ℕ) (q : PktQueue) (bs : List BufId) : List RouterOp :=
  let n := (q.bulkAddBuff bs).1
  (bs.take n).map (.enqueue i) ++
    ((bs.drop n).map .free ++ if n = 0 ∨ w = i then [] else [.notify i])

/-- Another interface is notified. -/
theorem handed_notify (own : Set BufId) (s : RouterState) (i : ℕ) :
    Handed own s [.notify i] { s with log := s.log ++ [.notify i] } := by
  refine ⟨⟨rfl, by simp [Legal, RouterOp.ends], ?_, rfl, fun _ => rfl⟩, fun _ _ => rfl⟩
  intro b hb _
  exact ⟨by simp [RouterOp.gains], hb, rfl⟩

theorem ifnetGetbyidx_eq_some {s : RouterState} {idx : Word} {ifp : Ifnet}
    (h : ifnetGetbyidx s idx = some ifp) :
    0 < idx.toNat ∧ idx.toNat ≤ s.devCount ∧ ifp = s.ifnet idx.toNat := by
  unfold ifnetGetbyidx at h
  split at h
  · cases h
  · next hidx => exact ⟨by omega, by omega, (Option.some.inj h).symm⟩

/-- `pktq_do_menqueue` of different packets. -/
theorem wp_pktqDoMenqueue (w : ℕ) (outIfIdx : Word) (hne : bs ≠ []) (hnd : bs.Nodup)
    (s : RouterState) :
    Wp E (pktqDoMenqueue w outIfIdx bs) (fun r s' =>
      (ifnetGetbyidx s outIfIdx = none ∧ r = -1 ∧ s' = s) ∨
      (ifnetGetbyidx s outIfIdx ≠ none ∧ 0 ≤ r ∧ Handed {b | b ∈ bs} s
        (menqueueOps w outIfIdx.toNat (s.ifnet outIfIdx.toNat).egress bs) s')) s := by
  simp only [pktqDoMenqueue, if_neg hne, wp_bind, wp_get]
  cases hi : ifnetGetbyidx s outIfIdx with
  | none => exact .inl ⟨rfl, rfl, rfl⟩
  | some ifp =>
    obtain ⟨-, -, rfl⟩ := ifnetGetbyidx_eq_some hi
    simp only [setIfnet, wp_bind, wp_modify, PktQueue.bulkAddBuff_eq, menqueueOps]
    generalize outIfIdx.toNat = i
    generalize ((s.ifnet i).egress.bulkAddBuff bs).1 = n
    have htake : Handed {b | b ∈ bs} s _ _ :=
      (handed_enqueue (hnd.sublist (List.take_sublist n bs)) s i).mono
        fun b hb => List.mem_of_mem_take hb
    refine (wp_bufFreeAll (hnd.sublist (List.drop_sublist n bs)) _).imp fun _ s₁ hdrop => ?_
    have hmv := htake.trans hdrop (by
      intro b hb
      refine mem_holdAll (List.mem_of_mem_drop hb) ?_
      simp only [List.mem_map, forall_exists_index, and_imp, forall_apply_eq_imp_iff₂,
        RouterOp.ends, ne_eq, Option.some.injEq]
      rintro c hc rfl
      exact List.disjoint_take_drop hnd le_rfl hc hb)
    by_cases hn : n = 0
    · rw [if_pos hn, if_pos (.inl hn), List.append_nil]
      exact .inr ⟨Option.some_ne_none _, le_rfl, hmv⟩
    · rw [if_neg hn]
      by_cases hw : w = i
      · rw [if_neg (not_not.mpr hw), if_pos (.inr hw), List.append_nil]
        exact .inr ⟨Option.some_ne_none _, Int.natCast_nonneg n, hmv⟩
      · rw [if_pos hw, if_neg (by simp [hn, hw]), ← List.append_assoc]
        refine .inr ⟨Option.some_ne_none _, Int.natCast_nonneg n, ?_⟩
        exact hmv.trans (handed_notify ∅ s₁ i) (Set.empty_subset _)

theorem filter_isNews_menqueueOps (w i : ℕ) (q : PktQueue) (bs : List BufId) :
    (menqueueOps w i q bs).filter RouterOp.isNews = [] := by
  simp only [menqueueOps, List.filter_append, List.filter_map]
  split <;> simp [Function.comp_def, RouterOp.isNews]

/-- Every packet is queued or freed. -/
theorem exists_leaves_menqueueOps (w i : ℕ) (q : PktQueue) {b : BufId} (hb : b ∈ bs) :
    ∃ op ∈ menqueueOps w i q bs, op.Leaves i b := by
  rw [← List.take_append_drop (q.bulkAddBuff bs).1 bs, List.mem_append] at hb
  rcases hb with hb | hb
  · exact ⟨.enqueue i b, List.mem_append_left _ (List.mem_map_of_mem hb), .inr (.inr rfl)⟩
  · refine ⟨.free b, List.mem_append_right _ (List.mem_append_left _ ?_), .inl rfl⟩
    exact List.mem_map_of_mem hb

/-- `pktq_do_menqueue` of one packet. -/
theorem wp_pktqDoMenqueue_one (w : ℕ) (outIfIdx : Word) (m : BufId) (s : RouterState) :
    Wp E (pktqDoMenqueue w outIfIdx [m]) (fun r s' =>
      (r = -1 ∧ s' = s) ∨ (0 ≤ r ∧ Gone m outIfIdx.toNat s [] s')) s := by
  refine (wp_pktqDoMenqueue w outIfIdx (List.cons_ne_nil m []) (List.nodup_singleton m) s).imp
    fun r s' h => ?_
  rcases h with ⟨-, hr, hs⟩ | ⟨-, hr, hmv⟩
  · exact .inl ⟨hr, hs⟩
  · refine .inr ⟨hr, _, hmv.toMoved.mono ?_, ?_, filter_isNews_menqueueOps ..⟩
    · intro b hb
      exact List.mem_singleton.mp hb
    · exact exists_leaves_menqueueOps _ _ _ (List.mem_singleton_self m)

end Primitives

/-! ## Functions that work on one packet -/

/-- The function keeps its packet and its result meets `keeps`, or it gives the packet away, if to a
queue to that of `i`, and its result meets `gives`. -/
def Handles {α : Type} (m : BufId) (i : ℕ) (x : RouterM α) (keeps gives : α → Prop) : Prop :=
  ∀ s, m ∈ s.pool.inuseList →
    Wp (fun _ => Stopped {m} s) x
      (fun a s' => (keeps a ∧ Kept m s [] s') ∨ (gives a ∧ Gone m i s [] s')) s

/-- The function keeps its packet. -/
abbrev Keeps {α : Type} (m : BufId) (x : RouterM α) (keeps : α → Prop) : Prop :=
  Handles m 0 x keeps fun _ => False

namespace Handles

variable {α β : Type} {m : BufId} {i : ℕ} {x : RouterM α} {f : α → RouterM β} {p g : α → Prop}
  {q r : β → Prop}

theorem throw (e : Abort) : Handles m i (throw e : RouterM α) p g := by
  intro s _
  exact .refl _ s

theorem pure {a : α} (h : p a) : Handles m i (pure a : RouterM α) p g := by
  intro s hm
  exact .inl ⟨h, kept_of_edit hm rfl rfl rfl rfl fun _ _ => rfl⟩

/-- What is left to do after a function that may give the packet away. -/
theorem bind (hx : Handles m i x p g) (hf : ∀ a, p a → Handles m i (f a) q r)
    (hg : ∀ a, g a → ∃ b, f a = Pure.pure b ∧ r b) : Handles m i (x >>= f) q r := by
  intro s hm
  refine (hx s hm).seq fun a s₁ h => ?_
  rcases h with ⟨ha, hk⟩ | ⟨ha, hgone⟩
  · refine (hf a ha s₁ hk.mem).mono (fun _ _ => hk.trans_stopped) fun b s' h' => ?_
    exact h'.imp (And.imp_right hk.trans) (And.imp_right hk.trans_gone)
  · obtain ⟨b, hb, hr⟩ := hg a ha
    rw [hb, wp_pure]
    exact .inr ⟨hr, hgone⟩

/-- What is left to do after a function that keeps the packet. -/
theorem bind_keeps (hx : Keeps m x p) (hf : ∀ a, p a → Handles m i (f a) q r) :
    Handles m i (x >>= f) q r := by
  intro s hm
  refine (hx s hm).seq fun a s₁ h => ?_
  obtain ⟨ha, hk⟩ := h.resolve_right fun h => h.1
  refine (hf a ha s₁ hk.mem).mono (fun _ _ => hk.trans_stopped) fun b s' h' => ?_
  exact h'.imp (And.imp_right hk.trans) (And.imp_right hk.trans_gone)

theorem get_bind {f : RouterState → RouterM β} (hf : ∀ s, Handles m i (f s) q r) :
    Handles m i (get >>= f) q r := by
  intro s hm
  exact hf s s hm

theorem ite {c : Prop} [Decidable c] {x y : RouterM α} (hx : c → Handles m i x p g)
    (hy : ¬ c → Handles m i y p g) : Handles m i (if c then x else y) p g := by
  split
  · next hc => exact hx hc
  · next hc => exact hy hc

/-- Work on a packet that is not logged. -/
theorem keeps_modify {f : RouterState → RouterState} (hlog : ∀ s, (f s).log = s.log)
    (huse : ∀ s, (f s).pool.inuseList = s.pool.inuseList)
    (hdev : ∀ s, (f s).devCount = s.devCount) (hif : ∀ s, (f s).ifnet = s.ifnet)
    (hc : ∀ s b, b ≠ m → contents (f s) b = contents s b) :
    Keeps m (modify f : RouterM Unit) fun _ => True := by
  intro s hm
  exact .inl ⟨trivial, kept_of_edit hm (hlog s) (huse s) (hdev s) (hif s) (hc s)⟩

end Handles

open Handles

section Functions

variable (m : BufId) {i : ℕ}

theorem keeps_setEb (f : EthBuf → EthBuf) : Keeps m (setEb m f) fun _ => True := by
  refine keeps_modify (fun _ => rfl) (fun _ => rfl) (fun _ => rfl) (fun _ => rfl) fun s b hb => ?_
  simp [contents, hb]

theorem keeps_setPriv (f : MbufPriv → MbufPriv) : Keeps m (setPriv m f) fun _ => True := by
  refine keeps_modify (fun _ => rfl) (fun _ => rfl) (fun _ => rfl) (fun _ => rfl) fun s b hb => ?_
  simp [contents, hb]

theorem keeps_setBytes (f : (ℕ → Byte) → ℕ → Byte) : Keeps m (setBytes m f) fun _ => True := by
  refine keeps_modify (fun _ => rfl) (fun _ => rfl) (fun _ => rfl) (fun _ => rfl) fun s b hb => ?_
  simp [contents, hb]

theorem keeps_logAccess (off len : ℕ) : Keeps m (logAccess m off len) fun _ => True :=
  keeps_modify (fun _ => rfl) (fun _ => rfl) (fun _ => rfl) (fun _ => rfl) fun _ _ _ => rfl

theorem keeps_hdrRead (ptr : Option ℕ) (off n : ℕ) :
    Keeps m (hdrRead m ptr off n) fun _ => True := by
  cases ptr with
  | none => exact .throw _
  | some p =>
    exact (keeps_logAccess m _ _).bind_keeps fun _ _ => get_bind fun _ => .pure trivial

theorem keeps_hdrWrite {n : ℕ} (ptr : Option ℕ) (off : ℕ) (v : Fin n → Byte) :
    Keeps m (hdrWrite m ptr off v) fun _ => True := by
  cases ptr with
  | none => exact .throw _
  | some p => exact (keeps_logAccess m _ _).bind_keeps fun _ _ => keeps_setBytes m _

theorem handles_bufFree : Handles m i (bufFree m) (fun _ => False) fun _ => True := by
  intro s _
  exact .inr ⟨trivial, gone_free m i s⟩

/-- Free the packet and return `a`. -/
theorem handles_drop {α : Type} {keeps gives : α → Prop} {a : α} (ha : gives a) :
    Handles m i (do bufFree m; return a) keeps gives :=
  (handles_bufFree m).bind (fun _ h => h.elim) fun _ _ => ⟨a, rfl, ha⟩

theorem handles_firewallProcess (i : ℕ) (env : RouterEnv) (di : Pfil) :
    Handles m i (firewallProcess env m di) (· = 0) (· = -1) := by
  refine (keeps_setEb m _).bind_keeps fun _ _ => (keeps_setBytes m _).bind_keeps fun _ _ => ?_
  cases (env.npf m di).verdict with
  | pass => exact .pure rfl
  | block => exact handles_drop m rfl
  | consumed freed =>
    cases freed with
    | true => exact handles_drop m rfl
    | false =>
      intro s _
      exact .inr ⟨rfl, gone_take m i s⟩

/-! ### Towards the output -/

section Output

variable {enqueue : Word → BufId → RouterM ℤ}

/-- Work on a new buffer, next to the packet. -/
theorem keeps_bufAlloc_bind {α : Type} {f : BufId → RouterM α} {p : α → Prop}
    (hf : ∀ x, Handles x i (f x) p p) : Keeps m (bufAlloc >>= f) p := by
  intro s hm
  have hstop : ∀ (e : Abort) s', s' = s → Stopped {m} s s' := by
    rintro e s' rfl
    exact .refl _ s'
  refine ((wp_bufAlloc s).mono hstop fun x s₁ h => h).seq fun x s₁ ⟨hx, hx₁, hmv⟩ => ?_
  have hsub : {x} ⊆ holds {m} [.alloc x] := by
    rintro y rfl
    exact ⟨.inr rfl, by simp [RouterOp.ends]⟩
  refine (hf x s₁ hx₁).mono ?_ fun a s' h => ?_
  · rintro e s' ⟨ops, hmv'⟩
    exact ⟨_, (hmv.mono (Set.empty_subset _)).trans hmv' hsub⟩
  have hne : m ∉ ({x} : Set BufId) := ne_of_mem_of_not_mem hm hx
  have hm₁ : m ∈ s₁.pool.inuseList := (hmv.others m hm (Set.notMem_empty m)).2.1
  obtain ⟨ha, ops, hmv', hnews⟩ : p a ∧ ∃ ops, Moved {x} s₁ ops s' ∧
      ops.filter RouterOp.isNews = [] := by
    rcases h with ⟨ha, ops, hmv', -, -, hnews⟩ | ⟨ha, ops, hmv', -, hnews⟩ <;>
      exact ⟨ha, ops, hmv', hnews⟩
  refine .inl ⟨ha, .alloc x :: ops, (hmv.mono (Set.empty_subset _)).trans hmv' hsub, ?_,
    (hmv'.others m hm₁ hne).2.1, hnews⟩
  intro op hop
  rcases List.mem_cons.mp hop with rfl | hop
  · simp [RouterOp.ends]
  · exact hmv'.not_ended hm₁ hne op hop

theorem keeps_arpRequestFill (hw : MacAddr) (src target : Ip4Addr) :
    Keeps m (arpRequestFill m hw src target) fun _ => True := by
  refine (keeps_setEb m _).bind_keeps fun _ _ => (keeps_setBytes m _).bind_keeps fun _ _ =>
    get_bind fun s => ?_
  split
  · exact .throw _
  · exact keeps_setBytes m _

variable (henq : ∀ i x, Handles x i.toNat (enqueue i x) (· = -1) (· = 0))
include henq

theorem keeps_arpResolve (rt : RouteInfo) (hwaddr : ℕ) :
    Keeps m (arpResolve enqueue rt m hwaddr) fun r => r = 0 ∨ r = -1 := by
  refine get_bind fun s => ?_
  split
  · exact .pure (.inr rfl)
  split
  · exact (keeps_setBytes m _).bind_keeps fun _ _ => .pure (.inl rfl)
  split
  · exact .throw _
  · simp only [arpRequest, bind_assoc, pure_bind]
    have hsend : ∀ x, Handles x rt.ifIdx.toNat (do let _ ← enqueue rt.ifIdx x; return -1)
        (fun r => r = 0 ∨ r = -1) fun r => r = 0 ∨ r = -1 := fun x =>
      (henq _ x).bind (fun _ _ => .pure (.inr rfl)) fun _ _ => ⟨_, rfl, .inr rfl⟩
    exact keeps_bufAlloc_bind m fun x =>
      (keeps_arpRequestFill x _ _ _).bind_keeps fun _ _ => hsend x

theorem keeps_routerIfOutput (outIfp : Ifnet) :
    Keeps m (routerIfOutput enqueue outIfp m) fun r => r = 0 ∨ r = -1 := by
  refine get_bind fun s => ite (fun _ => .pure (.inl rfl)) fun _ =>
    ite (fun _ => .pure (.inr rfl)) fun _ => (keeps_setEb m _).bind_keeps fun _ _ =>
    (keeps_setBytes m _).bind_keeps fun _ _ => get_bind fun s => ?_
  refine (keeps_arpResolve m henq _ _).bind_keeps fun r _ => ite (fun _ => .pure (.inr rfl)) ?_
  exact fun _ => (keeps_setBytes m _).bind_keeps fun _ _ => .pure (.inl rfl)

theorem keeps_pktqPrepareEnqueue (outIfIdx : Word) :
    Keeps m (pktqPrepareEnqueue enqueue outIfIdx m) fun r => r = 0 ∨ r = -1 := by
  refine get_bind fun s => ?_
  split
  · exact .pure (.inr rfl)
  · refine (keeps_routerIfOutput m henq _).bind_keeps fun r _ => ite (fun _ => .pure (.inr rfl)) ?_
    exact fun _ => (keeps_setPriv m _).bind_keeps fun _ _ => .pure (.inl rfl)

theorem handles_pktqEnqueueBody (w : ℕ) (outIfIdx : Word) :
    Handles m outIfIdx.toNat (pktqEnqueueBody w enqueue outIfIdx m) (· = -1) (· = 0) := by
  refine (keeps_pktqPrepareEnqueue m henq outIfIdx).bind_keeps fun r hr => ite ?_ ?_
  · intro hne
    exact .pure (hr.resolve_left hne)
  · intro _ s hm
    refine (wp_pktqDoMenqueue_one w outIfIdx m s).seq fun r s' h => ?_
    rcases h with ⟨rfl, rfl⟩ | ⟨hr, hgone⟩
    · exact .inl ⟨rfl, kept_of_edit hm rfl rfl rfl rfl fun _ _ => rfl⟩
    · rw [if_pos hr]
      exact .inr ⟨rfl, hgone⟩

end Output

theorem handles_pktqEnqueueFuel (w fuel : ℕ) (outIfIdx : Word) (m : BufId) :
    Handles m outIfIdx.toNat (pktqEnqueueFuel w fuel outIfIdx m) (· = -1) (· = 0) := by
  induction fuel generalizing outIfIdx m with
  | zero => exact .throw _
  | succ fuel ih => exact handles_pktqEnqueueBody m ih w outIfIdx

theorem handles_pktqEnqueue (w : ℕ) (outIfIdx : Word) (m : BufId) :
    Handles m outIfIdx.toNat (pktqEnqueue w outIfIdx m) (· = -1) (· = 0) :=
  get_bind fun _ => handles_pktqEnqueueFuel w _ outIfIdx m

/-! ### One packet -/

section Packet

variable (env : RouterEnv) (w : ℕ)

theorem handles_arpDrop (i : ℕ) : Handles m i (arpDrop m) (fun _ => False) (· = -1) :=
  handles_drop m rfl

theorem handles_arpReply (ifp : Ifnet) (ah : Option ℕ) :
    Handles m (ifnetIdx w) (arpReply w ifp m ah) (fun _ => False) (· ≠ 0) := by
  refine (keeps_hdrRead m _ _ _).bind_keeps fun _ _ =>
    (keeps_hdrWrite m _ _ _).bind_keeps fun _ _ =>
    (keeps_hdrRead m _ _ _).bind_keeps fun _ _ => (keeps_hdrWrite m _ _ _).bind_keeps fun _ _ =>
    (keeps_hdrRead m _ _ _).bind_keeps fun _ _ => (keeps_hdrWrite m _ _ _).bind_keeps fun _ _ =>
    (keeps_hdrWrite m _ _ _).bind_keeps fun _ _ => (keeps_hdrWrite m _ _ _).bind_keeps fun _ _ =>
    get_bind fun s => (keeps_hdrRead m _ _ _).bind_keeps fun _ _ =>
    (keeps_hdrWrite m _ _ _).bind_keeps fun _ _ => (keeps_hdrWrite m _ _ _).bind_keeps fun _ _ => ?_
  refine (handles_pktqEnqueue w _ m).bind ?_ ?_
  · rintro r rfl
    exact handles_drop m (by decide)
  · rintro r rfl
    exact ⟨1, rfl, by decide⟩

/-- The interface of a route in the table. -/
def InTable (env : RouterEnv) (i : Word) : Prop := ∃ dst rt, env.rtable dst = some rt ∧ rt.ifIdx = i

theorem keeps_routerIpRoute :
    Keeps m (routerIpRoute env m) fun r => ∀ i, r = some i → InTable env i := by
  refine get_bind fun s => ite (fun _ => .pure nofun) fun _ =>
    (keeps_hdrRead m _ _ _).bind_keeps fun _ _ => ite (fun _ => .pure nofun) fun _ =>
    (keeps_hdrRead m _ _ _).bind_keeps fun dst _ => ?_
  split
  · exact .pure nofun
  · next rt hrt =>
    refine (keeps_setPriv m _).bind_keeps fun _ _ => .pure fun i hi => ⟨dst, rt, hrt, ?_⟩
    rw [RouteInfo.ifIdx_resolve] at hi
    split at hi
    · cases hi
    · exact Option.some.inj hi

theorem handles_routerIpOutput (i : ℕ) (outIfIdx : Word) :
    Handles m i (routerIpOutput env w m outIfIdx) (· = 0) (· = -1) := by
  refine get_bind fun s => ?_
  split
  · exact handles_drop m rfl
  · refine (handles_firewallProcess m i env .dirOut).bind ?_ ?_
    · rintro r rfl
      refine (keeps_pktqPrepareEnqueue m (fun i x => handles_pktqEnqueue w i x) _).bind_keeps
        fun r _ => ite (fun _ => handles_drop m rfl) fun _ => .pure rfl
    · rintro r rfl
      exact ⟨-1, rfl, rfl⟩

end Packet

end Functions

end Router

end TrustedGateway
