import TrustedGateway.Router.Packet

/-!
# The way of a batch

After the loop, `router_if_input` goes through the interfaces and hands over the rows of those whose
bit is set in `egr_idx`.  This module says what `router_if_input` logs as a whole, and what follows
for the custody of buffers: in one life a buffer is given away at most once.
-/

namespace TrustedGateway

open FlatMemory Programs Custody

namespace Router

/-! ## The output array -/

/-- The output array after these packets. -/
def outArr (rs : List (ℕ × BufId)) : OutArr :=
  rs.foldl (fun a p => a.add p.1 p.2) ⟨0, fun _ => []⟩

/-- The packets for one interface, in order. -/
def rowOf (rs : List (ℕ × BufId)) (i : ℕ) : List BufId := (rs.filter (·.1 = i)).map Prod.snd

variable {b : BufId} {i : ℕ} {ops : List RouterOp} {s s' : RouterState}

theorem mem_routes : (i, b) ∈ routes ops ↔ .routed i b ∈ ops := by
  simp only [routes, List.mem_filterMap]
  constructor
  · rintro ⟨op, hop, hb⟩
    cases op with
    | routed j c =>
      cases hb
      exact hop
    | _ => simp at hb
  · intro hop
    exact ⟨_, hop, rfl⟩

theorem mem_rowOf {rs : List (ℕ × BufId)} : b ∈ rowOf rs i ↔ (i, b) ∈ rs := by
  simp [rowOf]

theorem row_foldl_add (rs : List (ℕ × BufId)) (a : OutArr) (i : ℕ) :
    (rs.foldl (fun a p => a.add p.1 p.2) a).row i = a.row i ++ rowOf rs i := by
  induction rs generalizing a with
  | nil => simp [rowOf]
  | cons p rs ih =>
    rw [List.foldl_cons, ih]
    by_cases hp : p.1 = i
    · simp [OutArr.add, rowOf, hp]
    · simp [OutArr.add, rowOf, hp, Ne.symm hp]

theorem row_outArr (rs : List (ℕ × BufId)) (i : ℕ) : (outArr rs).row i = rowOf rs i := by
  rw [outArr, row_foldl_add, List.nil_append]

/-- A bit of `egr_idx`. -/
theorem used_iff (a : OutArr) (j : ℕ) : a.used j ↔ a.egrIdx.getLsbD j := by
  simp only [OutArr.used, decide_eq_true_eq]
  constructor
  · intro h
    by_contra hno
    apply h
    apply BitVec.eq_of_getLsbD_eq
    intro k hk
    simp only [BitVec.getLsbD_and, BitVec.getLsbD_setWidth, BitVec.getLsbD_shiftLeft,
      BitVec.getLsbD_one]
    by_cases hkj : k = j
    · subst hkj
      simp [hno]
    · grind
  · intro h h0
    have hj : j < 8 := BitVec.lt_of_getLsbD h
    have hbit := congrArg (BitVec.getLsbD · j) h0
    simp [h] at hbit
    omega

theorem getLsbD_add (a : OutArr) (i j : ℕ) (m : BufId) :
    (a.add i m).egrIdx.getLsbD j = (decide (j < 8) && (a.egrIdx.getLsbD j || decide (j = i))) := by
  simp only [OutArr.add, BitVec.getLsbD_setWidth, BitVec.getLsbD_or, BitVec.getLsbD_shiftLeft,
    BitVec.getLsbD_one]
  by_cases hj : j < 8
  · grind
  · simp [hj]

theorem getLsbD_foldl_add (rs : List (ℕ × BufId)) (a : OutArr) {j : ℕ} (hj : j < 8) :
    (rs.foldl (fun a p => a.add p.1 p.2) a).egrIdx.getLsbD j ↔
      a.egrIdx.getLsbD j ∨ j ∈ rs.map Prod.fst := by
  induction rs generalizing a with
  | nil => simp
  | cons p rs ih =>
    rw [List.foldl_cons, ih, getLsbD_add]
    simp [hj, or_assoc]

/-- The bitmap has eight bits: no interface beyond is ever marked. -/
theorem used_outArr (rs : List (ℕ × BufId)) (j : ℕ) :
    (outArr rs).used j ↔ j < 8 ∧ j ∈ rs.map Prod.fst := by
  rw [used_iff]
  constructor
  · intro h
    have hj : j < 8 := BitVec.lt_of_getLsbD h
    exact ⟨hj, ((getLsbD_foldl_add rs _ hj).mp h).resolve_left (by simp)⟩
  · rintro ⟨hj, hmem⟩
    exact (getLsbD_foldl_add rs _ hj).mpr (.inr hmem)

/-! ## Queues and the log -/

/-- The packets that went to the queue of an interface. -/
def enqueued (i : ℕ) (ops : List RouterOp) : List BufId :=
  ops.filterMap fun
    | .enqueue j b => if j = i then some b else none
    | _ => none

theorem enqueued_append (i : ℕ) (ops ops' : List RouterOp) :
    enqueued i (ops ++ ops') = enqueued i ops ++ enqueued i ops' :=
  List.filterMap_append

@[simp] theorem enqueued_nil (i : ℕ) : enqueued i [] = [] := rfl

theorem mem_enqueued : b ∈ enqueued i ops ↔ .enqueue i b ∈ ops := by
  simp only [enqueued, List.mem_filterMap]
  constructor
  · rintro ⟨op, hop, hb⟩
    cases op with
    | enqueue j c =>
      simp only [Option.ite_none_right_eq_some, Option.some.injEq] at hb
      obtain ⟨rfl, rfl⟩ := hb
      exact hop
    | _ => simp at hb
  · intro hop
    exact ⟨_, hop, by simp⟩

/-- A queue is what the log has put into it. -/
theorem egress_foldl_after (i : ℕ) (ops : List RouterOp) (ifp : Ifnet) :
    (ops.foldl (Ifnet.after i) ifp).egress = (enqueued i ops).foldl PktQueue.push ifp.egress := by
  induction ops generalizing ifp with
  | nil => rfl
  | cons op ops ih =>
    rw [List.foldl_cons, ih]
    cases op with
    | enqueue j b => by_cases hj : j = i <;> simp [enqueued, Ifnet.after, hj]
    | learn j ip mac =>
      simp only [enqueued, Ifnet.after, List.filterMap_cons]
      split <;> rfl
    | _ => rfl

/-! ## The second loop -/

section Flush

variable (w : ℕ) {E : Abort → RouterState → Prop}

/-- What the second loop logs, for the interfaces `js`. -/
def flushOps (a : OutArr) (s : RouterState) (js : List ℕ) : List RouterOp :=
  js.flatMap fun j => if a.used j then menqueueOps w j (s.ifnet j).egress (a.row j) else []

theorem menqueueOps_nil (i : ℕ) (q : PktQueue) : menqueueOps w i q [] = [] := by
  simp [menqueueOps, PktQueue.bulkAddBuff]

variable {a : OutArr} {b : BufId} {j : ℕ} {js : List ℕ} {s : RouterState}

/-- Only packets of the row are given away. -/
theorem mem_of_ends_menqueueOps {w i : ℕ} {q : PktQueue} {bs : List BufId} {op : RouterOp}
    (hop : op ∈ menqueueOps w i q bs) (hend : op.ends = some b) : b ∈ bs := by
  simp only [menqueueOps, List.mem_append, List.mem_map] at hop
  rcases hop with ⟨c, hc, rfl⟩ | ⟨c, hc, rfl⟩ | hop
  · cases hend
    exact List.mem_of_mem_take hc
  · cases hend
    exact List.mem_of_mem_drop hc
  · split at hop
    · simp at hop
    · obtain rfl : op = .notify i := by simpa using hop
      cases hend

theorem enqueued_menqueueOps (i j : ℕ) (q : PktQueue) (bs : List BufId) :
    enqueued i (menqueueOps w j q bs) = if j = i then bs.take (q.bulkAddBuff bs).1 else [] := by
  simp only [menqueueOps, enqueued_append]
  have hfree : enqueued i ((bs.drop (q.bulkAddBuff bs).1).map .free) = [] := by
    rw [enqueued, List.filterMap_map, List.filterMap_eq_nil_iff]
    exact fun _ _ => rfl
  have hntfy : enqueued i (if (q.bulkAddBuff bs).1 = 0 ∨ w = j then [] else [.notify j]) = [] := by
    split <;> rfl
  rw [hfree, hntfy, List.append_nil, List.append_nil, enqueued, List.filterMap_map]
  by_cases hj : j = i <;> simp [hj]

/-- What a row gives to its queue: the packets that fit, in order. -/
theorem enqueued_flushOps (a : OutArr) (s : RouterState) (hnd : js.Nodup) (i : ℕ) :
    enqueued i (flushOps w a s js) = if i ∈ js ∧ a.used i then
      (a.row i).take ((s.ifnet i).egress.bulkAddBuff (a.row i)).1 else [] := by
  induction js with
  | nil => simp [flushOps]
  | cons j js ih =>
    obtain ⟨hj, hnd⟩ := List.nodup_cons.mp hnd
    have hcons : flushOps w a s (j :: js) =
        (if a.used j then menqueueOps w j (s.ifnet j).egress (a.row j) else []) ++
          flushOps w a s js := rfl
    rw [hcons, enqueued_append, ih hnd]
    by_cases hij : j = i
    · subst hij
      by_cases hu : a.used j
      · simp [hu, hj, enqueued_menqueueOps]
      · simp [hu, hj]
    · have hhead : enqueued i
          (if a.used j then menqueueOps w j (s.ifnet j).egress (a.row j) else []) = [] := by
        split
        · rw [enqueued_menqueueOps, if_neg hij]
        · rfl
      simp [hhead, Ne.symm hij]

/-- What a row gives to the pool: the packets that do not fit. -/
theorem free_mem_flushOps :
    .free b ∈ flushOps w a s js ↔ ∃ j ∈ js, a.used j ∧
      b ∈ (a.row j).drop ((s.ifnet j).egress.bulkAddBuff (a.row j)).1 := by
  have hrow : ∀ j, .free b ∈ menqueueOps w j (s.ifnet j).egress (a.row j) ↔
      b ∈ (a.row j).drop ((s.ifnet j).egress.bulkAddBuff (a.row j)).1 := by
    intro j
    simp only [menqueueOps, List.mem_append, List.mem_map]
    constructor
    · rintro (⟨c, -, hc⟩ | ⟨c, hc, hbc⟩ | h)
      · cases hc
      · cases hbc
        exact hc
      · split at h <;> simp at h
    · intro hb
      exact .inr (.inl ⟨b, hb, rfl⟩)
  simp only [flushOps, List.mem_flatMap]
  refine exists_congr fun j => and_congr_right fun _ => ?_
  by_cases hu : a.used j <;> simp [hu, hrow]

/-- Every packet of a row that is used is queued or freed. -/
theorem exists_leaves_flushOps (s : RouterState) (hj : j ∈ js) (hu : a.used j) (hb : b ∈ a.row j) :
    ∃ op ∈ flushOps w a s js, op.Leaves j b := by
  obtain ⟨op, hop, hl⟩ := exists_leaves_menqueueOps w j (s.ifnet j).egress hb
  refine ⟨op, List.mem_flatMap.mpr ⟨j, hj, ?_⟩, hl⟩
  rwa [if_pos hu]

/-- Only packets of rows that are used are given away. -/
theorem exists_of_ends_flushOps {op : RouterOp} (hop : op ∈ flushOps w a s js)
    (hend : op.ends = some b) : ∃ j ∈ js, a.used j ∧ b ∈ a.row j := by
  simp only [flushOps, List.mem_flatMap] at hop
  obtain ⟨j, hj, hop⟩ := hop
  by_cases hu : a.used j
  · rw [if_pos hu] at hop
    exact ⟨j, hj, hu, mem_of_ends_menqueueOps hop hend⟩
  · simp [hu] at hop

/-- Other interfaces are left alone. -/
theorem foldl_after_menqueueOps {i : ℕ} (hij : i ≠ j) (q : PktQueue) (bs : List BufId)
    (ifp : Ifnet) : (menqueueOps w i q bs).foldl (Ifnet.after j) ifp = ifp := by
  have hskip : ∀ (ops : List RouterOp), (∀ op ∈ ops, ∀ ifp : Ifnet, ifp.after j op = ifp) →
      ops.foldl (Ifnet.after j) ifp = ifp := by
    intro ops
    induction ops with
    | nil => exact fun _ => rfl
    | cons op ops ih =>
      intro h
      rw [List.foldl_cons, h op List.mem_cons_self ifp]
      exact ih fun op' hop' => h op' (List.mem_cons_of_mem _ hop')
  apply hskip
  intro op hop ifp
  simp only [menqueueOps, List.mem_append, List.mem_map] at hop
  rcases hop with ⟨b, -, rfl⟩ | ⟨b, -, rfl⟩ | hop
  · simp [Ifnet.after, hij]
  · rfl
  · split at hop
    · simp at hop
    · obtain rfl : op = .notify i := by simpa using hop
      rfl

/-- `pktq_do_menqueue` of a row. -/
theorem wp_pktqDoMenqueue_row {bs : List BufId} (hnd : bs.Nodup) (hj : j < 8) (hpos : 0 < j)
    (hle : j ≤ s.devCount) :
    Wp E (pktqDoMenqueue w (BitVec.ofNat 32 j) bs) (fun _ s' =>
      Handed {b | b ∈ bs} s (menqueueOps w j (s.ifnet j).egress bs) s') s := by
  have htoNat : (BitVec.ofNat 32 j).toNat = j := by
    rw [BitVec.toNat_ofNat]
    omega
  by_cases hbs : bs = []
  · subst hbs
    rw [menqueueOps_nil]
    exact .refl _ s
  · refine (wp_pktqDoMenqueue w _ hbs hnd s).imp fun r s' h => ?_
    rcases h with ⟨hnone, -⟩ | ⟨-, -, hmv⟩
    · simp [ifnetGetbyidx, htoNat] at hnone
      omega
    · rwa [htoNat] at hmv

theorem wp_flushLoop (hrow : ∀ j, (a.row j).Nodup)
    (hdisj : ∀ i j, i ≠ j → List.Disjoint (a.row i) (a.row j)) (h8 : ∀ j, a.used j → j < 8)
    (hnd : js.Nodup) (s : RouterState) (hjs : ∀ j ∈ js, 0 < j ∧ j ≤ s.devCount) :
    Wp E (flushLoop w a js) (fun _ s' =>
      Handed {b | ∃ j ∈ js, b ∈ a.row j} s (flushOps w a s js) s') s := by
  induction js generalizing s with
  | nil => exact .refl _ s
  | cons j js ih =>
    obtain ⟨hj, hnd⟩ := List.nodup_cons.mp hnd
    obtain ⟨hpos, hle⟩ := hjs j List.mem_cons_self
    have hjs' : ∀ k ∈ js, 0 < k ∧ k ≤ s.devCount := fun k hk => hjs k (List.mem_cons_of_mem _ hk)
    have hmono : {b | ∃ k ∈ js, b ∈ a.row k} ⊆ {b | ∃ k ∈ j :: js, b ∈ a.row k} := by
      rintro b ⟨k, hk, hb⟩
      exact ⟨k, List.mem_cons_of_mem _ hk, hb⟩
    by_cases hu : a.used j
    · simp only [flushLoop, hu, if_true]
      refine (wp_pktqDoMenqueue_row w (hrow j) (h8 j hu) hpos hle).seq fun _ s₁ hmv => ?_
      refine (ih hnd s₁ (hmv.devCount ▸ hjs')).imp fun _ s' hmv' => ?_
      have hops : flushOps w a s (j :: js) =
          menqueueOps w j (s.ifnet j).egress (a.row j) ++ flushOps w a s₁ js := by
        rw [flushOps, List.flatMap_cons, if_pos hu]
        congr 1
        refine List.flatMap_congr fun k hk => ?_
        rw [hmv.ifnet k, foldl_after_menqueueOps w (ne_of_mem_of_not_mem hk hj).symm]
      rw [hops]
      have hone : {b | b ∈ a.row j} ⊆ {b | ∃ k ∈ j :: js, b ∈ a.row k} := by
        intro b hb
        exact ⟨j, List.mem_cons_self, hb⟩
      refine (hmv.mono hone).trans hmv' ?_
      rintro b ⟨k, hk, hb⟩
      have hb' : b ∈ {b | ∃ k ∈ j :: js, b ∈ a.row k} := ⟨k, List.mem_cons_of_mem _ hk, hb⟩
      refine mem_holdAll hb' fun op hop hend => ?_
      exact hdisj k j (ne_of_mem_of_not_mem hk hj) hb (mem_of_ends_menqueueOps hop hend)
    · simp only [flushLoop, hu, Bool.false_eq_true, if_false]
      refine (ih hnd s hjs').imp fun _ s' hmv => ?_
      rw [flushOps, List.flatMap_cons, if_neg hu]
      exact hmv.mono hmono

end Flush

/-! ## The whole batch -/

/-- The heap does not matter. -/
theorem Moved.of_heap {own : Set BufId} {n used : ℕ}
    (h : Moved own { s with mallocs := n, heapUsed := used } ops s') : Moved own s ops s' :=
  ⟨h.log, h.legal, h.others, h.devCount, h.ifnet⟩

theorem Looped.of_heap {env : RouterEnv} {w : ℕ} {pkts : List BufId} {n used : ℕ}
    (h : Looped env w pkts { s with mallocs := n, heapUsed := used } ops s') :
    Looped env w pkts s ops s' :=
  ⟨h.moved.of_heap, h.order, h.index, h.routed, h.settled, h.caches⟩

theorem Moved.release {own : Set BufId} (h : Moved own s ops s') (used : ℕ) :
    Moved own s ops { s' with heapUsed := used } :=
  ⟨h.log, h.legal, h.others, h.devCount, h.ifnet⟩

section Input

variable (env : RouterEnv) (w : ℕ) {pkts : List BufId} {s : RouterState}
  {E : Abort → RouterState → Prop}

/-- Packets of one row are different, and so are packets of two rows. -/
theorem nodup_rowOf {rs : List (ℕ × BufId)} (h : (rs.map Prod.snd).Nodup) (i : ℕ) :
    (rowOf rs i).Nodup :=
  h.sublist ((List.filter_sublist).map _)

theorem disjoint_rowOf {rs : List (ℕ × BufId)} (h : (rs.map Prod.snd).Nodup) {i j : ℕ}
    (hij : i ≠ j) : List.Disjoint (rowOf rs i) (rowOf rs j) := by
  intro b hi hj
  rw [mem_rowOf] at hi hj
  exact hij (congrArg Prod.fst (List.inj_on_of_nodup_map h hi hj rfl))

/-- There is memory for the arrays of `router_if_input`. -/
def ArraysFit (s : RouterState) (pkts : List BufId) : Prop :=
  env.malloc s.mallocs s.heapUsed (4 * pkts.length * s.devCount) = true ∧
    env.malloc (s.mallocs + 1) (s.heapUsed + 4 * pkts.length * s.devCount) (4 * s.devCount) = true

/-- Both loops of `router_if_input`: the packets go their ways, and the rows of the output array
follow.  `R` is what else is known after the first loop. -/
def Batched (s : RouterState) (pkts : List BufId) (R : List RouterOp → RouterState → Prop)
    (s' : RouterState) : Prop :=
  ∃ ops s₁ s₂, Looped env w pkts s ops s₁ ∧ R ops s₁ ∧
    Handed (holds {b | b ∈ pkts} ops) s₁
      (flushOps w (outArr (routes ops)) s₁ (List.range' 1 s.devCount)) s₂ ∧
    ∃ used, s' = { s₂ with heapUsed := used }

/-- **A batch.**  There is nothing in it, or there is no memory for the arrays and all of it is
freed, or both loops run. -/
theorem wp_routerIfInput (hnd : pkts.Nodup) {R : List RouterOp → RouterState → Prop}
    (hR : ∀ n used, Wp E (routeLoop env w pkts ⟨0, fun _ => []⟩)
      (fun a s₁ => ∃ ops, Looped env w pkts s ops s₁ ∧ a = outArr (routes ops) ∧ R ops s₁)
      { s with mallocs := n, heapUsed := used }) :
    Wp E (routerIfInput env w pkts) (fun _ s' =>
      (pkts = [] ∧ s' = s) ∨
      (¬ ArraysFit env s pkts ∧ Moved {b | b ∈ pkts} s (.oom w :: pkts.map .free) s') ∨
      (ArraysFit env s pkts ∧ Batched env w s pkts R s')) s := by
  refine wp_ite.mpr ⟨fun he => .inl ⟨he, rfl⟩, fun _ => ?_⟩
  simp only [malloc, wp_bind, wp_get, wp_set, wp_pure]
  refine wp_ite.mpr ⟨fun hno => ?_, fun hfit => ?_⟩
  · have hno' : ¬ ArraysFit env s pkts := by
      rintro ⟨h₁, h₂⟩
      simp [h₁, h₂] at hno
    rw [wp_bind, logOp, wp_modify]
    refine (wp_bufFreeAll hnd _).seq fun _ s₁ hfree => ?_
    have hoom : ∀ n used, Moved {b | b ∈ pkts} s [.oom w] { s with
        mallocs := n, heapUsed := used, log := s.log ++ [.oom w] } := by
      intro n used
      refine ⟨rfl, by simp [Legal, RouterOp.ends], fun b hb _ => ⟨?_, hb, rfl⟩, rfl, fun _ => rfl⟩
      simp [RouterOp.gains]
    have hmv := (hoom _ _).trans hfree.toMoved fun b hb => mem_holdAll hb (by simp [RouterOp.ends])
    exact wp_ite.mpr ⟨fun _ => .inr (.inl ⟨hno', hmv.release _⟩), fun _ => .inr (.inl ⟨hno', hmv⟩)⟩
  · have hfit' : ArraysFit env s pkts := by
      simp only [not_or, not_not] at hfit
      refine ⟨hfit.1, ?_⟩
      simpa [hfit.1] using hfit.2
    refine (hR _ _).seq ?_
    rintro _ s₁ ⟨ops, hloop, rfl, hr⟩
    have hrs : ((routes ops).map Prod.snd).Nodup := hnd.sublist hloop.order
    have hflush := wp_flushLoop w (E := E) (a := outArr (routes ops))
      (fun j => by rw [row_outArr]; exact nodup_rowOf hrs j)
      (fun i j hij => by rw [row_outArr, row_outArr]; exact disjoint_rowOf hrs hij)
      (fun j hj => ((used_outArr _ j).mp hj).1)
      (List.nodup_range' (n := s.devCount) (s := 1)) s₁ (by
        intro j hj
        rw [hloop.moved.devCount]
        rw [List.mem_range'_1] at hj
        omega)
    refine hflush.seq fun _ s₂ hmv => ?_
    have hsub : {b | ∃ j ∈ List.range' 1 s.devCount, b ∈ (outArr (routes ops)).row j} ⊆
        holds {b | b ∈ pkts} ops := by
      rintro b ⟨j, -, hb⟩
      rw [row_outArr, rowOf, List.mem_map] at hb
      obtain ⟨p, hp, rfl⟩ := hb
      have hp' := List.mem_of_mem_filter hp
      exact mem_holdAll (hloop.order.subset (List.mem_map_of_mem hp')) (hloop.routed p hp').1
    exact .inr (.inr ⟨hfit', ops, s₁, s₂, hloop, hr, hmv.mono hsub, _, rfl⟩)

/-- The first loop, from the state with the arrays allocated. -/
theorem wp_routeLoop_heap (hnd : pkts.Nodup) (hin : ∀ b ∈ pkts, b ∈ s.pool.inuseList)
    (n used : ℕ) :
    Wp (fun _ => Stopped {b | b ∈ pkts} s) (routeLoop env w pkts ⟨0, fun _ => []⟩)
      (fun a s₁ => ∃ ops, Looped env w pkts s ops s₁ ∧ a = outArr (routes ops) ∧ True)
      { s with mallocs := n, heapUsed := used } := by
  refine (wp_routeLoop env w hnd _ { s with mallocs := n, heapUsed := used } hin).mono ?_
    fun a s₁ ⟨ops, hloop, ha⟩ => ⟨ops, hloop.of_heap, ha, trivial⟩
  rintro e s' ⟨ops, hmv⟩
  exact ⟨ops, hmv.of_heap⟩

theorem Batched.stopped {R : List RouterOp → RouterState → Prop} {s' : RouterState}
    (h : Batched env w s pkts R s') : Stopped {b | b ∈ pkts} s s' := by
  obtain ⟨ops, s₁, s₂, hloop, -, hflush, used, rfl⟩ := h
  exact ⟨_, (hloop.moved.trans hflush.toMoved Set.Subset.rfl).release used⟩

/-- However a batch ends, only buffers in custody were given away. -/
theorem stopped_routerIfInput (hnd : pkts.Nodup) (hin : ∀ b ∈ pkts, b ∈ s.pool.inuseList) :
    Stopped {b | b ∈ pkts} s (runFrom (routerIfInput env w pkts) s).2 := by
  refine ((wp_routerIfInput env w hnd (wp_routeLoop_heap env w hnd hin)).imp ?_).final
  rintro _ s' (⟨-, rfl⟩ | ⟨-, hmv⟩ | ⟨-, hb⟩)
  · exact .refl _ _
  · exact ⟨_, hmv⟩
  · exact hb.stopped

end Input

/-- **No packet is used twice.**  Whatever the packets contain and the tables say, whatever the
firewall does, and even if the batch ends in an abort: a worker gives away only buffers of its batch
and ARP requests it has allocated, and when it gives a buffer away a second time, to the pool, to a
queue or to the firewall, it has allocated it in between. -/
theorem router_never_uses_twice (env : RouterEnv) (w : ℕ) {pkts : List BufId} {s : RouterState}
    (hnd : pkts.Nodup) (hin : ∀ b ∈ pkts, b ∈ s.pool.inuseList) :
    ∃ ops, (runFrom (routerIfInput env w pkts) s).2.log = s.log ++ ops ∧
      (∀ b op ops₁ ops₂, ops = ops₁ ++ op :: ops₂ → op.ends = some b →
        b ∈ pkts ∨ .alloc b ∈ ops₁) ∧
      (∀ b op op' ops₁ ops₂ ops₃, ops = ops₁ ++ op :: ops₂ ++ op' :: ops₃ → op.ends = some b →
        op'.ends = some b → .alloc b ∈ ops₂) := by
  obtain ⟨ops, hmv⟩ := stopped_routerIfInput env w hnd hin
  have halloc : ∀ {l : List RouterOp} {b : BufId},
      (∃ op ∈ l, op.gains = some b) → .alloc b ∈ l := by
    rintro l b ⟨op, hop, hg⟩
    cases op <;> cases hg
    exact hop
  refine ⟨ops, hmv.log, ?_, ?_⟩
  · rintro b op ops₁ ops₂ rfl hend
    exact (hmv.legal.mem_or_gained hend).imp_right halloc
  · rintro b op op' ops₁ ops₂ ops₃ rfl hend hend'
    exact halloc (hmv.legal.once hend hend')

/-! ## The firewall -/

section Firewall

variable (env : RouterEnv) (w : ℕ)

/-- The firewall lets the packet pass, on its way in and on its way out. -/
def Passed (b : BufId) : Prop :=
  (env.npf b .dirIn).verdict = .pass ∧ (env.npf b .dirOut).verdict = .pass

theorem post_firewallProcess (m : BufId) (di : Pfil) (s : RouterState) :
    Post (firewallProcess env m di) (fun r _ => r = 0 → (env.npf m di).verdict = .pass) s := by
  simp only [firewallProcess, setEb, setBytes, wp_bind, wp_modify]
  rcases (env.npf m di).verdict with - | - | - | -
  · exact fun _ => rfl
  all_goals exact fun h => absurd h (by decide)

theorem post_routerIpOutput (m : BufId) (i : Word) (s : RouterState) :
    Post (routerIpOutput env w m i)
      (fun r _ => ¬ r < 0 → (env.npf m .dirOut).verdict = .pass) s := by
  simp only [routerIpOutput, wp_bind, wp_get]
  cases ifnetGetbyidx s i with
  | none => exact fun h => absurd (by decide) h
  | some _ =>
    refine (post_firewallProcess env m .dirOut s).seq fun _ _ h => wp_ite.mpr ⟨?_, fun hr => ?_⟩
    · exact fun _ h => absurd (by decide) h
    · exact post_of_ok fun _ _ _ _ => h (not_not.mp hr)

/-- A packet gets to the output array only past the firewall. -/
theorem post_routePacket (m : BufId) (s : RouterState) :
    Post (routePacket env w m) (fun r _ => r ≠ none → Passed env m) s := by
  have hany : ∀ {α : Type} (x : RouterM α) (s : RouterState), Post x (fun _ _ => True) s :=
    fun x s => post_of_ok fun _ _ _ => trivial
  have hnone : (none : Option Word) ≠ none → Passed env m := fun h => absurd rfl h
  refine (hany _ s).seq fun _ s₁ _ => wp_ite.mpr ⟨fun _ => hnone, fun _ => ?_⟩
  refine (post_firewallProcess env m .dirIn s₁).seq fun _ s₂ hin =>
    wp_ite.mpr ⟨fun _ => hnone, fun hr => (hany _ s₂).seq fun o s₃ _ => ?_⟩
  cases o with
  | none => exact hnone
  | some i =>
    refine (post_routerIpOutput env w m i s₃).seq fun _ _ hout => wp_ite.mpr ⟨fun _ => hnone, ?_⟩
    exact fun hn _ => ⟨hin (not_not.mp hr), hout hn⟩

theorem post_routeLoop_passed (ms : List BufId) {a : OutArr} (s : RouterState)
    (ha : ∀ i, ∀ b ∈ a.row i, Passed env b) :
    Post (routeLoop env w ms a) (fun a' _ => ∀ i, ∀ b ∈ a'.row i, Passed env b) s := by
  induction ms generalizing a s with
  | nil => exact ha
  | cons m ms ih =>
    refine (post_routePacket env w m s).seq fun r s₁ hr => ih s₁ fun i b hb => ?_
    cases r with
    | none => exact ha i b hb
    | some j =>
      simp only [OutArr.collect, OutArr.add, Function.update_apply] at hb
      split at hb
      · rcases List.mem_append.mp hb with hb | hb
        · exact ha _ b hb
        · exact List.mem_singleton.mp hb ▸ hr (Option.some_ne_none j)
      · exact ha i b hb

end Firewall

section Demo

/-- The bytes of a buffer with a frame at an offset. -/
def frameAt (off : ℕ) (frame : List Byte) : ℕ → Byte :=
  fun a => if off ≤ a then frame.getD (a - off) 0 else 0

/-- A received frame of `len` bytes. -/
def rxBuf (len : Word) : EthBuf := ⟨none, 1, 0, 0, len, 2, 2048, 0⟩

/-- Interface 1 belongs to the normal world, all others are external. -/
def demoIfnet (i : ℕ) : Ifnet where
  hwaddr := ![2, 0, 0, 0, 0, BitVec.ofNat 8 i]
  trust := if i = 1 then .nonsec else .external
  ips := [![10, 0, BitVec.ofNat 8 i, 1]]
  arpCache := fun _ => none
  egress := ⟨0, 0, 0, 4, fun _ => none⟩

/-- A router with the received frames in buffers 1, 2, … and two free buffers behind. -/
def demoState (devCount : ℕ) (frames : List (List Byte)) : RouterState where
  pool :=
    { eb := fun b => rxBuf (BitVec.ofNat 32 (frames.getD (b - 1) []).length)
      freeList := List.range' (frames.length + 1) 2
      inuseList := List.range' 1 frames.length
      capacity := frames.length + 2
      released := []
      nodup := by
        rw [List.perm_append_comm.nodup_iff, Nat.add_comm frames.length, List.range'_append_1]
        exact List.nodup_range' }
  sec := fun b => frameAt 2 (frames.getD (b - 1) [])
  priv := fun _ => ⟨fun _ => 0, ⟨0, 0, fun _ => 0, 0⟩, 0⟩
  ifnet := demoIfnet
  devCount := devCount
  heapUsed := 0
  mallocs := 0
  log := []
  accesses := []

/-- Every destination lies behind interface `out`, the firewall lets everything pass, and there is
memory. -/
def demoEnv (out : Word) : RouterEnv where
  rtable := fun _ => some ⟨out, 0, fun _ => 0, 0⟩
  npf := fun _ _ => .passUnmodified
  malloc := fun _ _ _ => true
  thmapPut := fun _ => true

/-- Somebody at 10.0.0.9 asks for the address of 10.0.0.1. -/
def demoArp : List Byte :=
  List.replicate 6 0xff ++ [2, 0, 0, 0, 0, 9] ++ [0x08, 0x06] ++ [0, 1, 8, 0, 6, 4, 0, 1] ++
    [2, 0, 0, 0, 0, 9] ++ [10, 0, 0, 9] ++ List.replicate 6 0 ++ [10, 0, 0, 1]

/-- A packet from 10.0.0.9 to 192.0.2.7. -/
def demoIp : List Byte :=
  [2, 0, 0, 0, 0, 1] ++ [2, 0, 0, 0, 0, 9] ++ [0x08, 0x00] ++
    [0x45, 0, 0, 28, 0, 0, 0, 0, 64, 17, 0, 0] ++ [10, 0, 0, 9] ++ [192, 0, 2, 7] ++
    List.replicate 8 0

/-- A request that is answered, and a packet whose next hop has to be asked for. -/
theorem router_never_uses_twice_demo :
    ∃ ops, (runFrom (routerIfInput (demoEnv 2) 1 [1, 2]) (demoState 2 [demoArp, demoIp])).2.log =
        [] ++ ops ∧
      ops.filter (!·.isNews) = [.enqueue 1 1, .alloc 3, .enqueue 2 3, .notify 2, .free 2] ∧
      ∀ b op op' ops₁ ops₂ ops₃, ops = ops₁ ++ op :: ops₂ ++ op' :: ops₃ → op.ends = some b →
        op'.ends = some b → .alloc b ∈ ops₂ := by
  have hin : ∀ b ∈ [1, 2], b ∈ (demoState 2 [demoArp, demoIp]).pool.inuseList := by decide
  obtain ⟨ops, hops, -, honce⟩ := router_never_uses_twice (demoEnv 2) 1 (by decide) hin
  have hlog : (runFrom (routerIfInput (demoEnv 2) 1 [1, 2])
      (demoState 2 [demoArp, demoIp])).2.log.filter (!·.isNews) =
      [.enqueue 1 1, .alloc 3, .enqueue 2 3, .notify 2, .free 2] := by decide +kernel
  rw [hops] at hlog
  exact ⟨ops, hops, hlog, honce⟩

end Demo

end Router

end TrustedGateway
