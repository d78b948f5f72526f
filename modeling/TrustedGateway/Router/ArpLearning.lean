import Mathlib.Data.List.TakeWhile
import TrustedGateway.Router.ArpIsolation

/-!
# What an interface learns

The comment in `arp_input` states the rule: an ARP packet whose target is us creates or updates the
entry of its sender, any other packet of interest updates an entry that is there.  A lookup would
then give the address in the last packet that counts.

`arp_cache` returns when there is an entry (`TODO: Update`).  A lookup gives the address in the
first packet that was directed to us, and nothing later changes it.

## Main results

* `foldl_learnNotice`, `foldl_documentedLearn` — the code keeps the first, the rule the last.
* `arp_learning_iff` — a lookup follows the rule exactly when these are the same.
-/

namespace TrustedGateway

open FlatMemory StepSystem

namespace Router

/-! ## Packets of interest -/

/-- What an ARP packet of interest says: its sender, and whether we are its target. -/
structure ArpNotice where
  ip : Ip4Addr
  mac : MacAddr
  targeted : Bool

/-- The packets that `arp_input` accepts: the header is in order and `arp_is_interesting`. -/
def arpNotice (ifp : Ifnet) (p : ArpPacket) : Option ArpNotice :=
  if ntohs (field 2 p.byte 14) ≠ rteArpHrdEther ∨ p.byte 18 ≠ 6 ∨ p.byte 19 ≠ 4 then none
  else (arpIsInteresting ifp (field 6 p.byte 32) p.targetIp).map (⟨p.senderIp, p.senderMac, ·⟩)

/-- `arp_cache` with what a packet says: `targeted` is its `allow_new`. -/
def learnNotice (cache : ArpCache) (n : ArpNotice) : ArpCache :=
  if cache n.ip = none ∧ n.targeted then cache.insert n.ip n.mac else cache

/-- The rule: create or update if we are the target, otherwise update an entry that exists. -/
def documentedLearn (cache : ArpCache) (n : ArpNotice) : ArpCache :=
  if n.targeted ∨ cache n.ip ≠ none then cache.insert n.ip n.mac else cache

/-- The interface has no entry yet. -/
def emptyCache : ArpCache := fun _ => none

/-- `arp_cache_lookup`. -/
def arpCacheLookup (ifp : Ifnet) (ipaddr : Ip4Addr) : Option MacAddr := ifp.arpCache ipaddr

/-- An ARP packet changes the cache by what it says. -/
theorem learnPacket_eq (ifp : Ifnet) (cache : ArpCache) (p : ArpPacket) :
    learnPacket ifp cache p = ((arpNotice ifp p).map (learnNotice cache)).getD cache := by
  unfold learnPacket arpLesson arpTeaches arpNotice
  split
  · rfl
  · simp only [Nat.reduceAdd, ArpPacket.targetIp]
    cases arpIsInteresting ifp (field 6 p.byte 32) (field 4 p.byte 38) with
    | none => rfl
    | some targeted =>
      cases targeted with
      | false => simp [learnFrom, learnNotice]
      | true => simp [learnFrom, learnNotice, ArpPacket.senderIp, ArpPacket.senderMac]

theorem foldl_learnPacket (ifp : Ifnet) (ps : List ArpPacket) (cache : ArpCache) :
    ps.foldl (learnPacket ifp) cache = (ps.filterMap (arpNotice ifp)).foldl learnNotice cache := by
  induction ps generalizing cache with
  | nil => rfl
  | cons p ps ih =>
    rw [List.foldl_cons, ih, learnPacket_eq, List.filterMap_cons]
    cases arpNotice ifp p <;> rfl

/-! ## What counts for an IP address -/

/-- The notices from an IP address. -/
def noticesFrom (ip : Ip4Addr) (ns : List ArpNotice) : List ArpNotice :=
  ns.filter fun n => decide (n.ip = ip)

/-- The hardware addresses that count for an IP address: those from the first notice on that was
directed to us. -/
def heard (ip : Ip4Addr) (ns : List ArpNotice) : List MacAddr :=
  ((noticesFrom ip ns).dropWhile fun n => !n.targeted).map ArpNotice.mac

section Heard

variable {ip : Ip4Addr} {n : ArpNotice} {ns : List ArpNotice}

theorem noticesFrom_cons_of_eq (h : n.ip = ip) :
    noticesFrom ip (n :: ns) = n :: noticesFrom ip ns :=
  List.filter_cons_of_pos (decide_eq_true h)

theorem noticesFrom_cons_of_ne (h : n.ip ≠ ip) : noticesFrom ip (n :: ns) = noticesFrom ip ns :=
  List.filter_cons_of_neg (by simpa using h)

theorem heard_cons_of_ne (h : n.ip ≠ ip) : heard ip (n :: ns) = heard ip ns := by
  rw [heard, noticesFrom_cons_of_ne h, heard]

theorem heard_cons_of_targeted (h : n.ip = ip) (ht : n.targeted = true) :
    heard ip (n :: ns) = n.mac :: (noticesFrom ip ns).map ArpNotice.mac := by
  rw [heard, noticesFrom_cons_of_eq h, List.dropWhile_cons_of_neg (by simp [ht]), List.map_cons]

theorem heard_cons_of_not_targeted (h : n.ip = ip) (ht : n.targeted = false) :
    heard ip (n :: ns) = heard ip ns := by
  rw [heard, noticesFrom_cons_of_eq h, List.dropWhile_cons_of_pos (by simp [ht]), heard]

/-- Nothing counts as long as nothing is directed to us. -/
theorem heard_eq_nil_iff : heard ip ns = [] ↔ ∀ n ∈ ns, n.ip = ip → n.targeted = false := by
  simp [heard, noticesFrom, List.dropWhile_eq_nil_iff]

/-- The code keeps the entry that it has, or the first that counts. -/
theorem foldl_learnNotice (cache : ArpCache) :
    ns.foldl learnNotice cache ip = (cache ip).or (heard ip ns).head? := by
  induction ns generalizing cache with
  | nil => simp [heard, noticesFrom]
  | cons n ns ih =>
    rw [List.foldl_cons, ih]
    by_cases hip : n.ip = ip
    · subst hip
      cases ht : n.targeted with
      | false => simp [learnNotice, ht, heard_cons_of_not_targeted rfl ht]
      | true =>
        rw [heard_cons_of_targeted rfl ht]
        cases hc : cache n.ip <;> simp [learnNotice, ht, hc]
    · have hother : learnNotice cache n ip = cache ip := by
        rw [learnNotice]
        split
        · exact ArpCache.insert_of_ne _ _ (Ne.symm hip)
        · rfl
      rw [hother, heard_cons_of_ne hip]

/-- With an entry every notice counts for the rule. -/
theorem foldl_documentedLearn_of_some {cache : ArpCache} {mac : MacAddr} (h : cache ip = some mac) :
    ns.foldl documentedLearn cache ip =
      some (((noticesFrom ip ns).map ArpNotice.mac).getLast?.getD mac) := by
  induction ns generalizing cache mac with
  | nil => exact h
  | cons n ns ih =>
    rw [List.foldl_cons]
    by_cases hip : n.ip = ip
    · subst hip
      have hnew : documentedLearn cache n n.ip = some n.mac := by simp [documentedLearn, h]
      rw [ih hnew, noticesFrom_cons_of_eq rfl, List.map_cons, List.getLast?_cons]
      rfl
    · have hother : documentedLearn cache n ip = some mac := by
        rw [documentedLearn]
        split
        · rw [ArpCache.insert_of_ne _ _ (Ne.symm hip), h]
        · exact h
      rw [ih hother, noticesFrom_cons_of_ne hip]

/-- The rule gives the last that counts. -/
theorem foldl_documentedLearn {cache : ArpCache} (h : cache ip = none) :
    ns.foldl documentedLearn cache ip = (heard ip ns).getLast? := by
  induction ns generalizing cache with
  | nil => exact h
  | cons n ns ih =>
    rw [List.foldl_cons]
    by_cases hip : n.ip = ip
    · subst hip
      cases ht : n.targeted with
      | false =>
        have hsame : documentedLearn cache n = cache := by simp [documentedLearn, ht, h]
        rw [hsame, ih h, heard_cons_of_not_targeted rfl ht]
      | true =>
        have hnew : documentedLearn cache n n.ip = some n.mac := by simp [documentedLearn, ht]
        rw [foldl_documentedLearn_of_some hnew, heard_cons_of_targeted rfl ht,
          List.getLast?_cons]
    · have hother : documentedLearn cache n ip = none := by
        rw [documentedLearn]
        split
        · rw [ArpCache.insert_of_ne _ _ (Ne.symm hip), h]
        · exact h
      rw [ih hother, heard_cons_of_ne hip]

end Heard

/-! ## Whole runs -/

/-- The packets of interest that an interface received. -/
def arpNotices (i : ℕ) (s₀ : RouterState) (is : List RouterInput) : List ArpNotice :=
  (arpPackets i is).filterMap (arpNotice (s₀.ifnet i))

/-- **What a lookup gives.**  Let an interface start with an empty cache, and let there be memory
whenever a worker of it asks.  Then after every run a lookup of an IP address fails exactly when no
packet of interest from there was directed to us, as the rule says.  It gives what the rule says
exactly when the first packet directed to us and the last packet of interest after it carry the same
hardware address. -/
theorem arp_learning_iff {i : ℕ} {s₀ s : RouterState} {is : List RouterInput}
    (hrun : Run routerStep RouterAllows s₀ is s) (hempty : (s₀.ifnet i).arpCache = emptyCache)
    (hmem : .oom i ∉ s.log) (ip : Ip4Addr) :
    (arpCacheLookup (s.ifnet i) ip = none ↔
      ∀ n ∈ arpNotices i s₀ is, n.ip = ip → n.targeted = false) ∧
    (arpCacheLookup (s.ifnet i) ip = (arpNotices i s₀ is).foldl documentedLearn emptyCache ip ↔
      (heard ip (arpNotices i s₀ is)).head? = (heard ip (arpNotices i s₀ is)).getLast?) := by
  have hlookup : arpCacheLookup (s.ifnet i) ip = (heard ip (arpNotices i s₀ is)).head? := by
    rw [arpCacheLookup, (learnt_of_run hrun i).cache hmem, hempty, foldl_learnPacket,
      foldl_learnNotice]
    rfl
  rw [hlookup, foldl_documentedLearn rfl]
  exact ⟨List.head?_eq_none_iff.trans heard_eq_nil_iff, Iff.rfl⟩

section Demo

/-- Somebody at 10.0.2.9 asks for the address of 10.0.2.1, from a card with a given last byte. -/
def requestFrom (b : BufId) (card : Byte) : RxFrame where
  buf := b
  eb := rxBuf 42
  bytes := frameAt 2 (List.replicate 6 0xff ++ [2, 0, 0, 0, 2, card] ++ [0x08, 0x06] ++
    [0, 1, 8, 0, 6, 4, 0, 1] ++ [2, 0, 0, 0, 2, card] ++ [10, 0, 2, 9] ++ List.replicate 6 0 ++
    [10, 0, 2, 1])

/-- The same card asks twice. -/
def demoAgain : List RouterInput :=
  [.batch (heapEnv 1000) 2 [requestFrom 1 9, requestFrom 2 9]]

/-- The host got another card before it asks again. -/
def demoNewCard : List RouterInput :=
  [.batch (heapEnv 1000) 2 [requestFrom 1 9, requestFrom 2 7]]

/-- With the same card the rule is followed. -/
theorem arp_learning_again :
    ∃ s, Run routerStep RouterAllows (demoState 2 [demoArp, demoArp]) demoAgain s ∧
      arpCacheLookup (s.ifnet 2) ![10, 0, 2, 9] =
        (arpNotices 2 (demoState 2 [demoArp, demoArp]) demoAgain).foldl documentedLearn emptyCache
          ![10, 0, 2, 9] ∧
      arpCacheLookup (s.ifnet 2) ![10, 0, 2, 9] = some ![2, 0, 0, 0, 2, 9] := by
  obtain ⟨s, hrun, hs⟩ : ∃ s, Run routerStep (fun s inp => batchInOrder s inp = true)
      (demoState 2 [demoArp, demoArp]) demoAgain s ∧
      (arpCacheLookup (s.ifnet 2) ![10, 0, 2, 9], s.log.contains (.oom 2)) =
        (some ![2, 0, 0, 0, 2, 9], false) := exists_run_of_exec (by decide +kernel)
  have hmem : .oom 2 ∉ s.log := by simpa using (Prod.mk.inj hs).2
  refine ⟨s, run_of_inOrder hrun, ?_, (Prod.mk.inj hs).1⟩
  exact (arp_learning_iff (i := 2) (run_of_inOrder hrun) rfl hmem _).2.mpr (by decide +kernel)

/-- After the change of the card the lookup gives the old one. -/
theorem arp_learning_new_card :
    ∃ s, Run routerStep RouterAllows (demoState 2 [demoArp, demoArp]) demoNewCard s ∧
      ((demoState 2 [demoArp, demoArp]).ifnet 2).arpCache = emptyCache ∧
      .oom 2 ∉ s.log ∧
      arpCacheLookup (s.ifnet 2) ![10, 0, 2, 9] = some ![2, 0, 0, 0, 2, 9] ∧
      (arpNotices 2 (demoState 2 [demoArp, demoArp]) demoNewCard).foldl documentedLearn emptyCache
        ![10, 0, 2, 9] = some ![2, 0, 0, 0, 2, 7] := by
  obtain ⟨s, hrun, hs⟩ : ∃ s, Run routerStep (fun s inp => batchInOrder s inp = true)
      (demoState 2 [demoArp, demoArp]) demoNewCard s ∧
      (arpCacheLookup (s.ifnet 2) ![10, 0, 2, 9], s.log.contains (.oom 2)) =
        (some ![2, 0, 0, 0, 2, 9], false) := exists_run_of_exec (by decide +kernel)
  have hmem : .oom 2 ∉ s.log := by simpa using (Prod.mk.inj hs).2
  exact ⟨s, run_of_inOrder hrun, rfl, hmem, (Prod.mk.inj hs).1, by decide +kernel⟩

end Demo

end Router

end TrustedGateway
