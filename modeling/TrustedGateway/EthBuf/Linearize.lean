import Mathlib.Data.List.Perm.Subperm
import TrustedGateway.EthBuf.Geometry

/-!
# Linearizing a chain of buffers

`bstgw_ethbuf_linearize` appends the data of the chained buffers to the first one, if there is
room behind its data.  The length of the rest is a sum in a `size_t`, and the place to append at
is one byte behind the last data byte, which a buffer without data does not have.

The data ends up as it should.  But the chained buffers are given to `free`, not to the pool,
whose list of used buffers goes on naming them.
-/

namespace TrustedGateway

open FlatMemory

/-! ## Chains -/

/-- From `b` the chain goes on with these buffers, and the last of them has no successor. -/
def Linked (eb : BufId → EthBuf) : BufId → List BufId → Prop
  | b, [] => (eb b).next = none
  | b, c :: cs => (eb b).next = some c ∧ Linked eb c cs

section Linked

variable {eb : BufId → EthBuf} {b c : BufId} {cs ds : List BufId}

/-- Links lead to one chain only. -/
theorem Linked.unique (h : Linked eb b cs) (h' : Linked eb b ds) : cs = ds := by
  induction cs generalizing b ds with
  | nil =>
    cases ds with
    | nil => rfl
    | cons d ds =>
      rw [Linked] at h
      rw [Linked, h] at h'
      cases h'.1
  | cons c cs ih =>
    cases ds with
    | nil =>
      rw [Linked] at h'
      rw [Linked, h'] at h
      cases h.1
    | cons d ds =>
      obtain rfl : c = d := Option.some.inj (h.1.symm.trans h'.1)
      rw [ih h.2 h'.2]

/-- Each buffer of a chain begins the rest of it. -/
theorem Linked.of_mem (h : Linked eb b cs) (hc : c ∈ cs) :
    ∃ ds, Linked eb c ds ∧ ds.length < cs.length := by
  induction cs generalizing b with
  | nil => cases hc
  | cons d cs ih =>
    rcases List.mem_cons.mp hc with rfl | hc
    · exact ⟨cs, h.2, Nat.lt_succ_self _⟩
    · obtain ⟨ds, hds, hlt⟩ := ih h.2 hc
      exact ⟨ds, hds, Nat.lt_succ_of_lt hlt⟩

/-- A chain that ends does not come back to a buffer. -/
theorem Linked.nodup (h : Linked eb b cs) : (b :: cs).Nodup := by
  induction cs generalizing b with
  | nil => exact List.nodup_singleton b
  | cons c cs ih =>
    refine List.nodup_cons.mpr ⟨fun hb => ?_, ih h.2⟩
    obtain ⟨ds, hds, hlt⟩ := h.of_mem hb
    rw [h.unique hds] at hlt
    exact absurd hlt (lt_irrefl _)

/-- The walk over a chain finds it. -/
theorem ethbufChain_of_linked (h : Linked eb b cs) {fuel : ℕ} (hf : cs.length < fuel) :
    ethbufChain eb fuel b = some (b :: cs) := by
  induction cs generalizing b fuel with
  | nil =>
    obtain ⟨fuel, rfl⟩ := Nat.exists_eq_add_of_lt hf
    rw [Linked] at h
    simp only [ethbufChain, h]
  | cons c cs ih =>
    cases fuel with
    | zero => cases hf
    | succ fuel =>
      rw [ethbufChain, h.1]
      dsimp only
      rw [ih h.2 (Nat.lt_of_succ_lt_succ hf)]
      rfl

end Linked

/-! ## Lengths and data -/

theorem ethbufDataPtr_zero {e : EthBuf} (h : e.dataLen ≠ 0) :
    ethbufDataPtr e 0 = some e.dataOff.toNat := by
  rw [ethbufDataPtr, if_neg]
  · rfl
  · rw [BitVec.le_def]
    intro hle
    exact h (BitVec.eq_of_toNat_eq (Nat.le_zero.mp hle))

theorem ethbufDataPtr_zero_eq_none {e : EthBuf} (h : ethbufDataPtr e 0 = none) : e.dataLen = 0 := by
  by_contra hne
  rw [ethbufDataPtr_zero hne] at h
  cases h

/-- The data length of a chain, unbounded. -/
def chainLen (eb : BufId → EthBuf) (cs : List BufId) : ℕ :=
  (cs.map fun c => (eb c).dataLen.toNat).sum

@[simp] theorem chainLen_nil (eb : BufId → EthBuf) : chainLen eb [] = 0 := rfl

@[simp] theorem chainLen_cons (eb : BufId → EthBuf) (c : BufId) (cs : List BufId) :
    chainLen eb (c :: cs) = (eb c).dataLen.toNat + chainLen eb cs := by
  simp [chainLen]

/-- The `size_t` sum of the lengths. -/
theorem toNat_restLen (eb : BufId → EthBuf) (cs : List BufId) :
    (restLen eb cs).toNat = chainLen eb cs % 2 ^ 32 := by
  have hfold : ∀ acc : Word, (cs.foldl (fun (acc : Word) c => acc + (eb c).dataLen) acc).toNat =
      (acc.toNat + chainLen eb cs) % 2 ^ 32 := by
    induction cs with
    | nil =>
      intro acc
      exact (Nat.mod_eq_of_lt acc.isLt).symm
    | cons c cs ih =>
      intro acc
      rw [List.foldl_cons, ih, BitVec.toNat_add, chainLen_cons, Nat.mod_add_mod, Nat.add_assoc]
  have h := hfold 0
  rwa [show (0 : Word).toNat = 0 from rfl, Nat.zero_add] at h

theorem toNat_restLen_le (eb : BufId → EthBuf) (cs : List BufId) :
    (restLen eb cs).toNat ≤ chainLen eb cs := by
  rw [toNat_restLen]
  exact Nat.mod_le _ _

/-- A buffer with data is appended to behind its data. -/
theorem linearizeStart_of_ne {e : EthBuf} (h : e.dataLen ≠ 0) :
    linearizeStart e = some (e.dataOff.toNat + e.dataLen.toNat) := by
  have hpos : 0 < e.dataLen.toNat := by
    rcases Nat.eq_zero_or_pos e.dataLen.toNat with h0 | hpos
    · exact absurd (BitVec.eq_of_toNat_eq h0) h
    · exact hpos
  have hpred : (e.dataLen - 1).toNat = e.dataLen.toNat - 1 := by bv_omega
  have hgt : ¬ e.dataLen ≤ e.dataLen - 1 := by
    rw [BitVec.le_def, hpred]
    omega
  rw [linearizeStart, ethbufDataPtr, if_neg hgt, hpred, Option.map_some, Option.some.injEq]
  omega

/-- A buffer without data has no last byte. -/
theorem linearizeStart_of_eq {e : EthBuf} (h : e.dataLen = 0) : linearizeStart e = none := by
  rw [linearizeStart, ethbufDataPtr, h]
  rfl

/-- The data of a buffer. -/
def packetData (eb : BufId → EthBuf) (sec : SecMem) (c : BufId) : List Byte :=
  slice (sec c) (eb c).dataOff.toNat (eb c).dataLen.toNat

/-! ## The copy loop -/

section Copy

variable {eb : BufId → EthBuf} {dst : BufId} {cs : List BufId} {sec sec' : SecMem}

/-- Behind a null pointer only empty buffers are passed. -/
theorem chainLen_of_linearizeCopy_none (h : linearizeCopy eb dst cs none sec = .ok sec') :
    chainLen eb cs = 0 := by
  induction cs generalizing sec with
  | nil => rfl
  | cons c cs ih =>
    cases hp : ethbufDataPtr (eb c) 0 with
    | some src =>
      simp only [linearizeCopy, hp] at h
      cases h
    | none =>
      simp only [linearizeCopy, hp] at h
      rw [chainLen_cons, ethbufDataPtr_zero_eq_none hp, ih h]
      rfl

theorem linearizeCopy_frame {c : BufId} (hc : c ≠ dst) {o : Option ℕ}
    (h : linearizeCopy eb dst cs o sec = .ok sec') : sec' c = sec c := by
  induction cs generalizing o sec with
  | nil =>
    cases h
    rfl
  | cons r rest ih =>
    simp only [linearizeCopy] at h
    split at h
    · rw [ih h, Function.update_of_ne hc]
    · cases h
    · exact ih h

/-- The data of the chain is written from `a` on, and nothing else. -/
theorem linearizeCopy_some (eb : BufId → EthBuf) (hdst : dst ∉ cs) (a : ℕ) (sec : SecMem) :
    ∃ sec', linearizeCopy eb dst cs (some a) sec = .ok sec' ∧
      slice (sec' dst) a (chainLen eb cs) = cs.flatMap (packetData eb sec) ∧
      ∀ x < a, sec' dst x = sec dst x := by
  induction cs generalizing a sec with
  | nil => exact ⟨sec, rfl, rfl, fun _ _ => rfl⟩
  | cons c cs ih =>
    have hdst' : dst ∉ cs := List.not_mem_of_not_mem_cons hdst
    by_cases h0 : (eb c).dataLen = 0
    · have hp : ethbufDataPtr (eb c) 0 = none := by
        rw [ethbufDataPtr, h0]
        rfl
      obtain ⟨sec', hs, hdata, hbefore⟩ := ih hdst' a sec
      refine ⟨sec', ?_, ?_, hbefore⟩
      · simp only [linearizeCopy, hp]
        exact hs
      · rw [chainLen_cons, List.flatMap_cons, packetData, h0]
        rw [show (0 : Word).toNat = 0 from rfl, Nat.zero_add]
        exact hdata
    · -- the data of `c` is copied, and the rest is appended behind it
      obtain ⟨sec', hs, hdata, hbefore⟩ := ih hdst' (a + (eb c).dataLen.toNat)
        (Function.update sec dst
          (copy (sec dst) a (sec c) (eb c).dataOff.toNat (eb c).dataLen.toNat))
      refine ⟨sec', ?_, ?_, fun x hx => ?_⟩
      · simp only [linearizeCopy, ethbufDataPtr_zero h0]
        exact hs
      · rw [chainLen_cons, slice_add, List.flatMap_cons, hdata]
        congr 1
        · refine Eq.trans (slice_congr fun x hx => ?_)
            (slice_copy_self (sec dst) a (sec c) (eb c).dataOff.toNat (eb c).dataLen.toNat)
          rw [hbefore x hx.2, Function.update_self]
        · refine List.flatMap_congr fun d hd => ?_
          have hdd : d ≠ dst := ne_of_mem_of_not_mem hd hdst'
          rw [packetData, packetData, Function.update_of_ne hdd]
      · rw [hbefore x (Nat.lt_add_right _ hx), Function.update_self]
        exact copy_of_notMem fun hmem => absurd hmem.1 (Nat.not_le.mpr hx)

end Copy

/-! ## The whole call -/

/-- Memory that went back to the heap is on neither list. -/
def EthPool.Consistent (p : EthPool) : Prop := ∀ c ∈ p.released, c ∉ p.bufs

/-- A chain of used buffers with their data in bounds. -/
structure PoolChain (p : EthPool) (b : BufId) (rest : List BufId) : Prop where
  linked : Linked p.eb b rest
  inuse : ∀ c ∈ b :: rest, c ∈ p.inuseList
  bounds : ∀ c ∈ b :: rest, (p.eb c).InBounds

/-- The buffer `b` has the data of the chain, in order, and no successor. -/
structure Joined (p : EthPool) (sec : SecMem) (b : BufId) (rest : List BufId) (p' : EthPool)
    (sec' : SecMem) : Prop where
  next : (p'.eb b).next = none
  data : packetData p'.eb sec' b = (b :: rest).flatMap (packetData p.eb sec)

/-- What linearizing a chain should do: join the data if there is room for it and give the other
buffers back to the pool, and nothing otherwise. -/
structure LinearizesOk (p : EthPool) (sec : SecMem) (b : BufId) (rest : List BufId)
    (r : Except Abort (ℤ × EthPool × SecMem)) : Prop where
  fits : chainLen p.eb rest ≤ (p.eb b).room → ∃ p' sec', r = .ok (0, p', sec') ∧
    Joined p sec b rest p' sec' ∧ (∀ c ∈ rest, c ∈ p'.freeList) ∧ p'.Consistent
  tooLong : (p.eb b).room < chainLen p.eb rest → r = .ok (-1, p, sec)

section Linearize

variable {p p' : EthPool} {sec sec' : SecMem} {b : BufId} {rest : List BufId}

/-- Without a chain there is nothing to do. -/
theorem ethbufLinearize_nil (h : PoolChain p b []) : ethbufLinearize p sec b = .ok (0, p, sec) := by
  have hnext : (p.eb b).next = none := h.linked
  simp only [ethbufLinearize, hnext]

/-- With a chain, the sum of the lengths decides. -/
theorem ethbufLinearize_cons (h : PoolChain p b rest) (hne : rest ≠ []) :
    ethbufLinearize p sec b =
      if (p.eb b).room < chainLen p.eb rest % 2 ^ 32 then .ok (-1, p, sec)
      else (linearizeCopy p.eb b rest (linearizeStart (p.eb b)) sec).map
        fun sec' => (0, p.absorb b rest, sec') := by
  cases rest with
  | nil => exact absurd rfl hne
  | cons c cs =>
    have hsub : c :: cs ⊆ p.inuseList := fun d hd => h.inuse d (List.mem_cons_of_mem _ hd)
    have hlen : (c :: cs).length ≤ p.inuseList.length :=
      (h.linked.nodup.of_cons.subperm hsub).length_le
    have hchain : ethbufChain p.eb (p.inuseList.length + 1) c = some (c :: cs) :=
      ethbufChain_of_linked h.linked.2 (Nat.lt_succ_of_le (Nat.le_of_succ_le hlen))
    simp only [ethbufLinearize, h.linked.1, hchain, BitVec.lt_def, toNat_restLen,
      (h.bounds b List.mem_cons_self).toNat_room]
    split
    · rfl
    · cases linearizeCopy p.eb b (c :: cs) (linearizeStart (p.eb b)) sec <;> rfl

theorem eb_absorb_self (p : EthPool) (b : BufId) (rest : List BufId) :
    (p.absorb b rest).eb b =
      { p.eb b with dataLen := (p.eb b).dataLen + restLen p.eb rest, next := none } :=
  EthPool.eb_setEb_self p b _

/-- The data is joined behind the data of the first buffer, if that has some. -/
theorem joined_of_fits (h : PoolChain p b rest) (h0 : (p.eb b).dataLen ≠ 0)
    (hfits : chainLen p.eb rest ≤ (p.eb b).room) (sec : SecMem) :
    ∃ sec', linearizeCopy p.eb b rest (linearizeStart (p.eb b)) sec = .ok sec' ∧
      Joined p sec b rest (p.absorb b rest) sec' := by
  have hin : (p.eb b).InBounds := h.bounds b List.mem_cons_self
  have hb : b ∉ rest := (List.nodup_cons.mp h.linked.nodup).1
  rw [linearizeStart_of_ne h0]
  obtain ⟨sec', hs, hdata, hbefore⟩ := linearizeCopy_some p.eb hb
    ((p.eb b).dataOff.toNat + (p.eb b).dataLen.toNat) sec
  refine ⟨sec', hs, ?_, ?_⟩
  · rw [eb_absorb_self]
  · have hlen : ((p.eb b).dataLen + restLen p.eb rest).toNat =
        (p.eb b).dataLen.toNat + chainLen p.eb rest := by
      unfold EthBuf.room at hfits
      rw [BitVec.toNat_add, toNat_restLen]
      omega
    rw [packetData, eb_absorb_self, List.flatMap_cons]
    dsimp only
    rw [hlen, slice_add, hdata, packetData]
    congr 1
    refine slice_congr fun x hx => hbefore x hx.2

/-- The chained buffers are still used, and not free. -/
theorem notMem_freeList_absorb (h : PoolChain p b rest) {c : BufId} (hc : c ∈ rest) :
    c ∉ (p.absorb b rest).freeList := by
  intro hfree
  have hinuse := h.inuse c (List.mem_cons_of_mem _ hc)
  exact (List.nodup_append.mp p.nodup).2.2 c hfree c hinuse rfl

end Linearize

/-- **Linearizing a chain.**  It does what it should exactly if there is no chain or the `size_t`
sum of the lengths exceeds the room.  In all other cases with room for the chain, the data is
joined if the first buffer has data, and the chained buffers were released although they are
still on the list of used buffers. -/
theorem linearize_iff {p : EthPool} {b : BufId} {rest : List BufId} (h : PoolChain p b rest)
    (hp : p.Consistent) (sec : SecMem) :
    (LinearizesOk p sec b rest (ethbufLinearize p sec b) ↔
      rest = [] ∨ (p.eb b).room < chainLen p.eb rest % 2 ^ 32) ∧
    (rest ≠ [] → chainLen p.eb rest ≤ (p.eb b).room → (p.eb b).dataLen ≠ 0 →
      ∃ p' sec', ethbufLinearize p sec b = .ok (0, p', sec') ∧ Joined p sec b rest p' sec' ∧
        ∀ c ∈ rest, c ∈ p'.inuseList ∧ c ∈ p'.released) := by
  have hroom : chainLen p.eb rest ≤ (p.eb b).room →
      ¬ (p.eb b).room < chainLen p.eb rest % 2 ^ 32 := by
    intro hle
    exact Nat.not_lt.mpr ((Nat.mod_le _ _).trans hle)
  refine ⟨⟨fun hok => ?_, ?_⟩, fun hne hle h0 => ?_⟩
  · by_contra hno
    obtain ⟨hne, hfit⟩ := not_or.mp hno
    rw [ethbufLinearize_cons h hne, if_neg hfit] at hok
    rcases Nat.lt_or_ge (p.eb b).room (chainLen p.eb rest) with hlong | hle
    · -- the sum has wrapped, and the chain is copied
      have hret := hok.tooLong hlong
      cases hcopy : linearizeCopy p.eb b rest (linearizeStart (p.eb b)) sec with
      | error a | ok sec' => rw [hcopy] at hret; cases hret
    · obtain ⟨p', sec', hret, -, hfree, -⟩ := hok.fits hle
      obtain ⟨c, hc⟩ := List.exists_mem_of_ne_nil rest hne
      cases hcopy : linearizeCopy p.eb b rest (linearizeStart (p.eb b)) sec with
      | error a => rw [hcopy] at hret; cases hret
      | ok sec₁ =>
        rw [hcopy] at hret
        cases hret
        exact notMem_freeList_absorb h hc (hfree c hc)
  · rintro (rfl | hlong)
    · rw [ethbufLinearize_nil h]
      refine ⟨fun _ => ⟨p, sec, rfl, ⟨h.linked, ?_⟩, by simp, hp⟩, fun hlt => by simp at hlt⟩
      rw [List.flatMap_cons, List.flatMap_nil, List.append_nil]
    · have hne : rest ≠ [] := by
        rintro rfl
        simp at hlong
      rw [ethbufLinearize_cons h hne, if_pos hlong]
      exact ⟨fun hle => absurd hlong (hroom hle), fun _ => rfl⟩
  · obtain ⟨sec', hcopy, hjoin⟩ := joined_of_fits h h0 hle sec
    refine ⟨p.absorb b rest, sec', ?_, hjoin, fun c hc => ⟨?_, ?_⟩⟩
    · rw [ethbufLinearize_cons h hne, if_neg (hroom hle), hcopy]
      rfl
    · exact h.inuse c (List.mem_cons_of_mem _ hc)
    · exact List.mem_append_right _ hc

/-- A packet of 60 bytes in buffer 0 with 20 more in buffer 1, or, with `len = 0`, of none. -/
def chainOfTwo (len : Word) : EthPool where
  eb c := if c = 0 then ⟨some 1, 0, 0, 0, len, 2, bstgwDefaultBufSize, 0⟩
    else ⟨none, 0, 0, 0, 20, 0, bstgwDefaultBufSize, 0⟩
  freeList := [2]
  inuseList := [0, 1]
  capacity := 3
  released := []
  nodup := by decide

theorem poolChain_chainOfTwo {len : Word} (h : len ≤ 60) : PoolChain (chainOfTwo len) 0 [1] where
  linked := ⟨rfl, rfl⟩
  inuse := by simp [chainOfTwo]
  bounds := by
    have hlen : len.toNat ≤ 60 := BitVec.le_def.mp h
    have hcap : bstgwDefaultBufSize.toNat = 2048 := rfl
    have h2 : BitVec.toNat (2 : Word) = 2 := rfl
    simp only [List.mem_cons, List.not_mem_nil, or_false, forall_eq_or_imp, forall_eq,
      EthBuf.InBounds, chainOfTwo, if_pos, one_ne_zero, if_false, hcap, h2]
    exact ⟨by omega, by decide⟩

/-- The data of two buffers is joined. -/
theorem linearize_chainOfTwo :
    PoolChain (chainOfTwo 60) 0 [1] ∧
      ∃ p' sec', ethbufLinearize (chainOfTwo 60) (fun c x => BitVec.ofNat 8 (100 * c + x)) 0 =
        .ok (0, p', sec') ∧
        Joined (chainOfTwo 60) (fun c x => BitVec.ofNat 8 (100 * c + x)) 0 [1] p' sec' := by
  have h : PoolChain (chainOfTwo 60) 0 [1] := poolChain_chainOfTwo (by decide)
  obtain ⟨p', sec', hr, hj, -⟩ := (linearize_iff h (by simp [EthPool.Consistent, chainOfTwo])
    (fun c x => BitVec.ofNat 8 (100 * c + x))).2 (by simp) (by decide) (by decide)
  exact ⟨h, p', sec', hr, hj⟩

/-- The second buffer of a chain goes to `free` and not to the pool, and a first buffer without
data makes the function write through a pointer next to `NULL`. -/
theorem linearize_frees_to_heap :
    PoolChain (chainOfTwo 60) 0 [1] ∧
    (∃ p' sec', ethbufLinearize (chainOfTwo 60) (fun _ _ => 0) 0 = .ok (0, p', sec') ∧
      p'.released = [1] ∧ p'.inuseList = [0, 1] ∧ p'.freeList = [2]) ∧
    ¬ LinearizesOk (chainOfTwo 60) (fun _ _ => 0) 0 [1]
      (ethbufLinearize (chainOfTwo 60) (fun _ _ => 0) 0) ∧
    ethbufLinearize (chainOfTwo 0) (fun _ _ => 0) 0 = .error .wildPointer := by
  obtain ⟨p', sec', hr, hlists⟩ : ∃ p' sec', ethbufLinearize (chainOfTwo 60) (fun _ _ => 0) 0 =
      .ok (0, p', sec') ∧ p'.released = [1] ∧ p'.inuseList = [0, 1] ∧ p'.freeList = [2] :=
    ⟨_, _, rfl, rfl, rfl, rfl⟩
  refine ⟨poolChain_chainOfTwo (by decide), ⟨p', sec', hr, hlists⟩, fun hok => ?_, rfl⟩
  obtain ⟨q, sec'', hq, -, hback, -⟩ := hok.fits (by decide)
  rw [hr] at hq
  cases hq
  have hfree := hback 1 List.mem_cons_self
  rw [hlists.2.2] at hfree
  exact absurd hfree (by decide)

end TrustedGateway
