import Mathlib.Data.Fin.VecNotation
import TrustedGateway.Lib.Prog
import TrustedGateway.PktQueue

/-!
# The router

What a worker does with a batch of received packets (`worker.c`, `arp.c`, `route.c`, and what they
use of `if_netdev.c` and `bstgw_eth_buf.c`): `router_if_input` takes every packet through the
Ethernet layer, the firewall, routing and ARP resolution, collects the packets by output interface
and hands each collection to the egress queue of that interface.

The functions are programs over `RouterState`, in the order of the source.  Three things are
parameters (`RouterEnv`): the routing table, which is what `lpm_lookup` finds; the firewall, which
sees a packet at most once in each direction; and the allocator.  The state keeps two logs that no
function reads: what was done with the buffers, and which bytes of the headers were accessed.

## Main definitions

* `Ifnet`, `RouteInfo`, `RouterState` — interfaces, routes, and all a worker works on.
* `arpInput`, `arpResolve` — the ARP protocol.
* `pktqEnqueue`, `pktqDoMenqueue` — towards the egress queues.
* `l2Input`, `routerIpRoute`, `routerIpOutput` — the way of one packet.
* `routerIfInput` — the way of a batch.
-/

namespace TrustedGateway

open FlatMemory Programs

/-- `struct rte_ether_addr`. -/
abbrev MacAddr := Fin 6 → Byte

/-- An IPv4 address as it stands in memory. -/
abbrev Ip4Addr := Fin 4 → Byte

/-- `bstgw_trust_t`. -/
inductive Trust
  | nonsec
  | external
  deriving DecidableEq, Repr

/-- `route_info_t`; of the next hop, the bytes of an IPv4 address. -/
structure RouteInfo where
  ifIdx : Word
  addrLen : Word
  nextHop : Ip4Addr
  ifAddrIdx : Word
  deriving DecidableEq

/-- A route without a next hop leads to the destination itself. -/
def RouteInfo.resolve (rt : RouteInfo) (addr : Ip4Addr) : RouteInfo :=
  if rt.addrLen = 0 then { rt with nextHop := addr, addrLen := 4 } else rt

@[simp] theorem RouteInfo.ifIdx_resolve (rt : RouteInfo) (addr : Ip4Addr) :
    (rt.resolve addr).ifIdx = rt.ifIdx := by
  unfold resolve
  split <;> rfl

@[simp] theorem RouteInfo.ifAddrIdx_resolve (rt : RouteInfo) (addr : Ip4Addr) :
    (rt.resolve addr).ifAddrIdx = rt.ifAddrIdx := by
  unfold resolve
  split <;> rfl

/-- `npf_mbuf_priv_t` but for the flags, which are part of `EthBuf`. -/
structure MbufPriv where
  etherType : Fin 2 → Byte
  route : RouteInfo
  outIfIdx : Word
  deriving DecidableEq

/-- The entries of an ARP cache. -/
abbrev ArpCache := Ip4Addr → Option MacAddr

/-- A cache with a new entry. -/
def ArpCache.insert (cache : ArpCache) (ip : Ip4Addr) (mac : MacAddr) : ArpCache :=
  fun a => if a = ip then some mac else cache a

@[simp] theorem ArpCache.insert_self (cache : ArpCache) (ip : Ip4Addr) (mac : MacAddr) :
    cache.insert ip mac ip = some mac := if_pos rfl

theorem ArpCache.insert_of_ne (cache : ArpCache) {ip a : Ip4Addr} (mac : MacAddr) (h : a ≠ ip) :
    cache.insert ip mac a = cache a := if_neg h

/-- `ifnet_t`, as far as the router uses it.  `ips` are the configured ones of `if_ips`. -/
structure Ifnet where
  hwaddr : MacAddr
  trust : Trust
  ips : List Ip4Addr
  arpCache : ArpCache
  egress : PktQueue

/-- `PFIL_IN` and `PFIL_OUT`. -/
inductive Pfil
  | dirIn
  | dirOut
  deriving DecidableEq, Repr

/-- What `npfk_packet_handler` says: no error, an error, or that it took the packet by setting the
pointer to `NULL`.  A packet it took may be back in the pool. -/
inductive NpfVerdict
  | pass
  | block
  | consumed (freed : Bool)
  deriving DecidableEq, Repr

/-- The firewall's answer for one packet: the verdict, and what it makes of the packet's header and
bytes. -/
structure NpfResult where
  verdict : NpfVerdict
  eb : EthBuf → EthBuf
  bytes : (ℕ → Byte) → ℕ → Byte

/-- The packet passes as it is. -/
def NpfResult.passUnmodified : NpfResult := ⟨.pass, id, id⟩

structure RouterEnv where
  /-- `lpm_lookup`. -/
  rtable : Ip4Addr → Option RouteInfo
  npf : BufId → Pfil → NpfResult
  /-- Whether `malloc` succeeds: by the number of earlier calls, the bytes in use and the size. -/
  malloc : ℕ → ℕ → ℕ → Bool
  /-- Whether `thmap_put` finds room for a new key, by the number of earlier allocations. -/
  thmapPut : ℕ → Bool

/-- What is done with a buffer, and what a worker tells others or learns. -/
inductive RouterOp
  | alloc (b : BufId)
  | free (b : BufId)
  | take (b : BufId)
  | routed (i : ℕ) (b : BufId)
  | enqueue (i : ℕ) (b : BufId)
  | notify (i : ℕ)
  | learn (i : ℕ) (ipaddr : Ip4Addr) (hwaddr : MacAddr)
  | oom (i : ℕ)
  deriving DecidableEq

/-- An access to bytes of a buffer, with the place of the packet's data at that moment. -/
structure HdrAccess where
  buf : BufId
  off : ℕ
  len : ℕ
  dataOff : ℕ
  dataLen : ℕ
  deriving DecidableEq, Repr

/-- The accessed bytes are data of the packet. -/
def HdrAccess.Inside (a : HdrAccess) : Prop :=
  a.dataOff ≤ a.off ∧ a.off + a.len ≤ a.dataOff + a.dataLen

structure RouterState where
  pool : EthPool
  sec : SecMem
  priv : BufId → MbufPriv
  ifnet : ℕ → Ifnet
  /-- `next_if_idx - 1`. -/
  devCount : ℕ
  heapUsed : ℕ
  mallocs : ℕ
  log : List RouterOp
  accesses : List HdrAccess

abbrev RouterM := Prog Abort RouterState

namespace Router

/-! ## What the functions are made of -/

def logOp (op : RouterOp) : RouterM Unit := modify fun s => { s with log := s.log ++ [op] }

/-- `bstgw_ethpool_buf_alloc`. -/
def bufAlloc : RouterM BufId := do
  let s ← get
  match s.pool.bufAlloc with
  | .error a => throw a
  | .ok (b, pool) =>
    set { s with pool := pool, log := s.log ++ [RouterOp.alloc b] }
    return b

/-- `bstgw_ethpool_buf_free`. -/
def bufFree (b : BufId) : RouterM Unit :=
  modify fun s => { s with pool := s.pool.bufFree b, log := s.log ++ [.free b] }

/-- Free an array from the front. -/
def bufFreeAll : List BufId → RouterM Unit
  | [] => return
  | b :: bs => do
      bufFree b
      bufFreeAll bs

/-- Change the header of a buffer. -/
def setEb (b : BufId) (f : EthBuf → EthBuf) : RouterM Unit :=
  modify fun s => { s with pool := s.pool.setEb b (f (s.pool.eb b)) }

/-- Change the private area of a buffer. -/
def setPriv (b : BufId) (f : MbufPriv → MbufPriv) : RouterM Unit :=
  modify fun s => { s with priv := Function.update s.priv b (f (s.priv b)) }

/-- Change the bytes of a buffer. -/
def setBytes (b : BufId) (f : (ℕ → Byte) → ℕ → Byte) : RouterM Unit :=
  modify fun s => { s with sec := Function.update s.sec b (f (s.sec b)) }

def logAccess (b : BufId) (off len : ℕ) : RouterM Unit :=
  modify fun s =>
    let e := s.pool.eb b
    { s with accesses := s.accesses ++ [⟨b, off, len, e.dataOff.toNat, e.dataLen.toNat⟩] }

/-- Read a field through a pointer into a packet. -/
def hdrRead (b : BufId) (ptr : Option ℕ) (off n : ℕ) : RouterM (Fin n → Byte) :=
  match ptr with
  | none => throw .nullDeref
  | some p => do
      logAccess b (p + off) n
      return field n ((← get).sec b) (p + off)

/-- Store a field through a pointer into a packet. -/
def hdrWrite {n : ℕ} (b : BufId) (ptr : Option ℕ) (off : ℕ) (v : Fin n → Byte) : RouterM Unit :=
  match ptr with
  | none => throw .nullDeref
  | some p => do
      logAccess b (p + off) n
      setBytes b fun m => setField m (p + off) v

section Access

variable {E : Abort → RouterState → Prop} {b : BufId} {p off n : ℕ} {s : RouterState}

/-- The state after an access. -/
def accessed (s : RouterState) (b : BufId) (off len : ℕ) : RouterState :=
  { s with accesses := s.accesses ++
      [⟨b, off, len, (s.pool.eb b).dataOff.toNat, (s.pool.eb b).dataLen.toNat⟩] }

@[simp] theorem pool_accessed (s : RouterState) (b : BufId) (off len : ℕ) :
    (accessed s b off len).pool = s.pool := rfl

@[simp] theorem sec_accessed (s : RouterState) (b : BufId) (off len : ℕ) :
    (accessed s b off len).sec = s.sec := rfl

@[simp] theorem priv_accessed (s : RouterState) (b : BufId) (off len : ℕ) :
    (accessed s b off len).priv = s.priv := rfl

@[simp] theorem wp_hdrRead_some {Q : (Fin n → Byte) → RouterState → Prop} :
    Wp E (hdrRead b (some p) off n) Q s ↔
      Q (field n (s.sec b) (p + off)) (accessed s b (p + off) n) := Iff.rfl

end Access

section Heap

variable (env : RouterEnv)

def malloc (size : ℕ) : RouterM Bool := do
  let s ← get
  let ok := env.malloc s.mallocs s.heapUsed size
  set { s with
    mallocs := s.mallocs + 1
    heapUsed := if ok then s.heapUsed + size else s.heapUsed }
  return ok

/-- `free` of the heap. -/
def release (size : ℕ) : RouterM Unit :=
  modify fun s => { s with heapUsed := s.heapUsed - size }

end Heap

/-- `ntohs` of two bytes in memory. -/
def ntohs (v : Fin 2 → Byte) : Half := v 0 ++ v 1

def rteEtherHdrLen : Word := 14
def rteEtherTypeIpv4 : Half := 0x0800
def rteEtherTypeArp : Half := 0x0806
def rteArpHrdEther : Half := 1
def rteArpOpRequest : Half := 1
def rteArpOpReply : Half := 2
def rtePtypeL3Ipv4 : Word := 0x00000010
def mbufNpfNeedL2 : Word := 1
def sizeofArpHdr : Half := 28
def sizeofArpEntry : ℕ := 12

/-- `htons`, as bytes in memory. -/
def htons (v : Half) : Fin 2 → Byte := ![v.extractLsb' 8 8, v.extractLsb' 0 8]

def etherBroadcast : MacAddr := fun _ => 0xff
def etherZero : MacAddr := fun _ => 0

/-! ## Interfaces and queues -/

/-- `ifnet_getbyidx`. -/
def ifnetGetbyidx (s : RouterState) (idx : Word) : Option Ifnet :=
  if idx.toNat = 0 ∨ s.devCount < idx.toNat then none else some (s.ifnet idx.toNat)

def setIfnet (i : ℕ) (f : Ifnet → Ifnet) : RouterM Unit :=
  modify fun s => { s with ifnet := Function.update s.ifnet i (f (s.ifnet i)) }

/-- `pktq_do_menqueue` by a worker of interface `w`. -/
def pktqDoMenqueue (w : ℕ) (outIfIdx : Word) (mPool : List BufId) : RouterM ℤ := do
  if mPool = [] then return 0
  match ifnetGetbyidx (← get) outIfIdx with
  | none => return -1
  | some outIfp =>
    let i := outIfIdx.toNat
    let (negr, pq) := outIfp.egress.bulkAddBuff mPool
    setIfnet i fun ifp => { ifp with egress := pq }
    modify fun s => { s with log := s.log ++ (mPool.take negr).map (.enqueue i) }
    bufFreeAll (mPool.drop negr)
    if negr = 0 then return 0
    if w ≠ i then logOp (.notify i)
    return negr

/-! ## ARP towards the output -/

/-- What `arp_request` makes of a new buffer. -/
def arpRequestFill (m : BufId) (srcHwaddr : MacAddr) (srcAddr target : Ip4Addr) : RouterM Unit := do
  setEb m fun e => { e with l2Len := 14, l3Len := sizeofArpHdr, dataLen := 14 + 28 }
  setBytes m fun a =>
    setField (setField (setField a 0 etherBroadcast) 6 srcHwaddr) 12 (htons rteEtherTypeArp)
  match ethbufDataPtr ((← get).pool.eb m) 14 with
  | none => throw .nullDeref
  | some ah =>
    setBytes m fun a =>
      let a := setField (setField a ah (htons rteArpHrdEther)) (ah + 2) (htons rteEtherTypeIpv4)
      let a := setField a (ah + 4) (![6, 4] : Fin 2 → Byte)
      let a := setField a (ah + 6) (htons rteArpOpRequest)
      let a := setField (setField a (ah + 8) srcHwaddr) (ah + 14) srcAddr
      setField (setField a (ah + 18) etherBroadcast) (ah + 24) target

/-- `arp_request`. -/
def arpRequest (srcHwaddr : MacAddr) (srcAddr target : Ip4Addr) : RouterM BufId := do
  let m ← bufAlloc
  arpRequestFill m srcHwaddr srcAddr target
  return m

section Output

variable (w : ℕ) (enqueue : Word → BufId → RouterM ℤ)

/-- `arp_resolve`: the address goes to the bytes of `b` from `hwaddr` on.  `enqueue` is
`pktq_enqueue`, which comes back to this function. -/
def arpResolve (rt : RouteInfo) (b : BufId) (hwaddr : ℕ) : RouterM ℤ := do
  match ifnetGetbyidx (← get) rt.ifIdx with
  | none => return -1
  | some ifp =>
    match ifp.arpCache rt.nextHop with
    | some mac =>
      setBytes b fun a => setField a hwaddr mac
      return 0
    | none =>
      match ifp.ips[rt.ifAddrIdx.toNat]? with
      | none => throw (.panic "invalid if_addr_idx value")
      | some srcIp =>
        let m ← arpRequest ifp.hwaddr srcIp rt.nextHop
        let _ ← enqueue rt.ifIdx m
        return -1

/-- `router_if_output`. -/
def routerIfOutput (outIfp : Ifnet) (m : BufId) : RouterM ℤ := do
  let e := (← get).pool.eb m
  if e.privFlags &&& mbufNpfNeedL2 = 0 then return 0
  -- `bstgw_ethbuf_prepend`
  if e.dataOff < rteEtherHdrLen then return -1
  setEb m fun e =>
    { e with dataOff := e.dataOff - rteEtherHdrLen, dataLen := e.dataLen + rteEtherHdrLen }
  let eh := (e.dataOff - rteEtherHdrLen).toNat
  setBytes m fun a => setField a (eh + 6) outIfp.hwaddr
  let minfo := (← get).priv m
  if (← arpResolve enqueue minfo.route m eh) = -1 then return -1
  setBytes m fun a => setField a (eh + 12) minfo.etherType
  return 0

/-- `pktq_prepare_enqueue`. -/
def pktqPrepareEnqueue (outIfIdx : Word) (m : BufId) : RouterM ℤ := do
  match ifnetGetbyidx (← get) outIfIdx with
  | none => return -1
  | some outIfp =>
    if (← routerIfOutput enqueue outIfp m) = -1 then return -1
    setPriv m fun p => { p with outIfIdx := outIfIdx }
    return 0

/-- The body of `pktq_enqueue`. -/
def pktqEnqueueBody (outIfIdx : Word) (m : BufId) : RouterM ℤ := do
  let ret ← pktqPrepareEnqueue enqueue outIfIdx m
  if ret ≠ 0 then return ret
  let ret ← pktqDoMenqueue w outIfIdx [m]
  return if 0 ≤ ret then 0 else ret

end Output

/-- `pktq_enqueue`.  It comes back to itself with an ARP request that it has allocated. -/
def pktqEnqueueFuel (w : ℕ) : ℕ → Word → BufId → RouterM ℤ
  | 0, _, _ => throw .hang
  | fuel + 1, outIfIdx, m => pktqEnqueueBody w (pktqEnqueueFuel w fuel) outIfIdx m

/-- `pktq_enqueue`: the pool bounds how often it comes back. -/
def pktqEnqueue (w : ℕ) (outIfIdx : Word) (m : BufId) : RouterM ℤ := do
  pktqEnqueueFuel w ((← get).pool.freeList.length + 1) outIfIdx m

/-! ## One packet -/

section Packet

variable (env : RouterEnv) (w : ℕ)

/-- `arp_cache` on interface `i`. -/
def arpCache (i : ℕ) (ipaddr : Ip4Addr) (hwaddr : MacAddr) (allowNew : Bool) : RouterM Unit := do
  if ((← get).ifnet i).arpCache ipaddr ≠ none then return
  if ¬ allowNew then return
  if ¬ (← malloc env sizeofArpEntry) then
    logOp (.oom i)
    return
  if env.thmapPut (← get).mallocs then
    setIfnet i fun ifp =>
      { ifp with arpCache := ifp.arpCache.insert ipaddr hwaddr }
    logOp (.learn i ipaddr hwaddr)
  else
    release sizeofArpEntry
    logOp (.oom i)

/-- `arp_is_interesting`: `none` when it is not, and otherwise whether we are the target. -/
def arpIsInteresting (ifp : Ifnet) (tha : MacAddr) (tip : Ip4Addr) : Option Bool :=
  let ucast := ifp.hwaddr = tha
  let bcast := tha = etherBroadcast ∨ tha = etherZero
  let untrusted := ifp.trust = .nonsec
  if ucast ∨ bcast ∨ untrusted then
    if untrusted then some true else some (decide (tip ∈ ifp.ips))
  else none

/-- The end of `arp_input` behind `drop`. -/
def arpDrop (m : BufId) : RouterM ℤ := do
  bufFree m
  return -1

/-- The part of `arp_input` that turns a request into the reply. -/
def arpReply (ifp : Ifnet) (m : BufId) (ah : Option ℕ) : RouterM ℤ := do
  let ipaddr ← hdrRead m ah 24 4
  hdrWrite m ah 6 (htons rteArpOpReply)
  hdrWrite m ah 18 (← hdrRead m ah 8 6)
  hdrWrite m ah 24 (← hdrRead m ah 14 4)
  hdrWrite m ah 8 ifp.hwaddr
  hdrWrite m ah 14 ipaddr
  let eh := ethbufDataPtr ((← get).pool.eb m) 0
  hdrWrite m eh 0 (← hdrRead m eh 6 6)
  hdrWrite m eh 6 ifp.hwaddr
  if (← pktqEnqueue w (BitVec.ofNat 32 w) m) = -1 then arpDrop m else return 1

/-- `arp_input`. -/
def arpInput (m : BufId) : RouterM ℤ := do
  let s ← get
  let ifp := s.ifnet w
  let e := s.pool.eb m
  let ah := ethbufDataPtr e (e.l2Len.setWidth 32)
  let hardware ← hdrRead m ah 0 2
  let hlen ← hdrRead m ah 4 1
  let plen ← hdrRead m ah 5 1
  if ntohs hardware ≠ rteArpHrdEther ∨ hlen 0 ≠ 6 ∨ plen 0 ≠ 4 then arpDrop m
  else
    let tha ← hdrRead m ah 18 6
    let tip ← hdrRead m ah 24 4
    match arpIsInteresting ifp tha tip with
    | none => arpDrop m
    | some targeted =>
      let sip ← hdrRead m ah 14 4
      let sha ← hdrRead m ah 8 6
      arpCache env w sip sha targeted
      let opcode ← hdrRead m ah 6 2
      if targeted ∧ ntohs opcode = rteArpOpRequest then arpReply w ifp m ah else arpDrop m

/-- `firewall_process`. -/
def firewallProcess (m : BufId) (di : Pfil) : RouterM ℤ := do
  let r := env.npf m di
  setEb m r.eb
  setBytes m r.bytes
  match r.verdict with
  | .pass => return 0
  | .block =>
    bufFree m
    return -1
  | .consumed freed =>
    -- what the firewall took is no longer the worker's, and at most once more the pool's
    if freed then bufFree m else logOp (.take m)
    return -1

/-- The part of `l2_input` for IPv4: `bstgw_ethbuf_precut` takes the Ethernet header off. -/
def l2Ipv4 (m : BufId) (dataLen : Word) : RouterM ℤ := do
  setEb m fun e => { e with packetType := e.packetType ||| rtePtypeL3Ipv4 }
  if dataLen < rteEtherHdrLen then throw (.panic "ethernet header precutting failed!")
  else
    setEb m fun e =>
      { e with
        dataOff := e.dataOff + rteEtherHdrLen
        dataLen := e.dataLen - rteEtherHdrLen
        privFlags := e.privFlags ||| mbufNpfNeedL2 }
    return 0

/-- `l2_input`. -/
def l2Input (m : BufId) : RouterM ℤ := do
  let e := (← get).pool.eb m
  if e.packetType &&& rtePtypeL2Mask = 0 then throw (.panic "l2_input: no L2 header")
  else
    let etherType ← hdrRead m (ethbufDataPtr e 0) 12 2
    setPriv m fun p => { p with etherType := etherType }
    setEb m fun e => { e with l2Len := 14 }
    if ntohs etherType = rteEtherTypeArp then arpInput env w m
    else if ntohs etherType = rteEtherTypeIpv4 then l2Ipv4 m e.dataLen
    else
      bufFree m
      return -1

/-- `router_ip_route`: `none` is `-1`. -/
def routerIpRoute (m : BufId) : RouterM (Option Word) := do
  let e := (← get).pool.eb m
  if e.packetType &&& rtePtypeL3Ipv4 = 0 then return none
  let ip4 := ethbufDataPtr e 0
  let ttl ← hdrRead m ip4 8 1
  if (ttl 0).toNat ≤ 1 then return none
  let addr ← hdrRead m ip4 16 4
  match env.rtable addr with
  | none => return none
  | some rt =>
    let rt := rt.resolve addr
    setPriv m fun p => { p with route := rt }
    return if rt.ifIdx = -1 then none else some rt.ifIdx

/-- `router_ip_output`. -/
def routerIpOutput (m : BufId) (outIfIdx : Word) : RouterM ℤ := do
  match ifnetGetbyidx (← get) outIfIdx with
  | none =>
    bufFree m
    return -1
  | some _ =>
    if (← firewallProcess env m .dirOut) ≠ 0 then return -1
    if (← pktqPrepareEnqueue (pktqEnqueue w) outIfIdx m) = -1 then
      bufFree m
      return -1
    return 0

/-- What `router_if_input` does with one packet, up to the output array. -/
def routePacket (m : BufId) : RouterM (Option Word) := do
  if (← l2Input env w m) ≠ 0 then return none
  if (← firewallProcess env m .dirIn) ≠ 0 then return none
  match ← routerIpRoute env m with
  | none =>
    bufFree m
    return none
  | some outIfIdx =>
    if (← routerIpOutput env w m outIfIdx) < 0 then return none
    logOp (.routed outIfIdx.toNat m)
    return some outIfIdx

/-! ## A batch -/

/-- The bitmap `egr_idx` and, for each interface, its row of `out_arr`. -/
structure OutArr where
  egrIdx : BitVec 8
  row : ℕ → List BufId

/-- `egr_idx |= (1 << out_if_idx)`, and the packet at the end of its row.  A shift by 32 gives zero
on the target, as it does here. -/
def OutArr.add (a : OutArr) (i : ℕ) (m : BufId) : OutArr where
  egrIdx := ((a.egrIdx.setWidth 32) ||| (1#32 <<< i)).setWidth 8
  row := Function.update a.row i (a.row i ++ [m])

/-- The array after a packet that was routed, or was not. -/
def OutArr.collect (a : OutArr) (m : BufId) : Option Word → OutArr
  | none => a
  | some outIfIdx => a.add outIfIdx.toNat m

/-- `egr_idx & (1 << j)`. -/
def OutArr.used (a : OutArr) (j : ℕ) : Bool := (a.egrIdx.setWidth 32 &&& (1#32 <<< j)) ≠ 0

/-- Route each packet. -/
def routeLoop : List BufId → OutArr → RouterM OutArr
  | [], a => return a
  | m :: ms, a => do
      let r ← routePacket env w m
      routeLoop ms (a.collect m r)

/-- Batch egress enqueue and notify, for the interfaces `js`. -/
def flushLoop (a : OutArr) : List ℕ → RouterM Unit
  | [] => return
  | j :: js => do
      if a.used j then
        let _ ← pktqDoMenqueue w (BitVec.ofNat 32 j) (a.row j)
      flushLoop a js

/-- `router_if_input` by a worker of interface `w`. -/
def routerIfInput (pkts : List BufId) : RouterM Unit := do
  if pkts = [] then return
  let devCount := (← get).devCount
  let outArr ← malloc env (4 * pkts.length * devCount)
  let ptrArr ← malloc env (4 * devCount)
  if ¬ outArr ∨ ¬ ptrArr then
    logOp (.oom w)
    bufFreeAll pkts
    if outArr then release (4 * pkts.length * devCount)
    return
  let a ← routeLoop env w pkts ⟨0, fun _ => []⟩
  flushLoop w a (List.range' 1 devCount)
  release (4 * devCount)
  release (4 * pkts.length * devCount)

end Packet

end Router

end TrustedGateway
