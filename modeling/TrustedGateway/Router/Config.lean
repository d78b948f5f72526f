import TrustedGateway.Router.ArpIsolation
import TrustedGateway.Router.RouteSafety

/-!
# The configuration file of the router

`parse_config` reads a file of `ifconfig` and `route` commands and fills the addresses of the
interfaces and the routing table.  A `route` command with an address index is checked against the
addresses configured so far; one without an index means the first address, and is not checked.  So
a file can be accepted and leave a route whose interface has no address at all, and the first
packet that takes it panics the router when its next hop has to be asked for.

## Main definitions

* `strsepAll`, `strTokenize`, `inetPton` — the string functions.
* `parseCommand`, `parseConfig` — the parser.
* `lastRoute`, `Addressed` — of the commands of a file: the route in force, and the interfaces
  that get an address.
* `RoutesValid`, `PanicFree` — the routes can be used, and no packet panics the router.
* `routesValid_iff` — a file leaves them so exactly if the routes without an index lead to
  interfaces with an address.
-/

namespace TrustedGateway

open Programs StepSystem

namespace Router

/-! ## Strings -/

/-- The characters of a C string before its end. -/
abbrev Token := List Char

/-- `strsep`: the token before the first delimiter, and what follows it, if there is one. -/
def strsep (delim : List Char) (s : Token) : Option (Token × Option Token) :=
  if s = [] then none
  else some (s.takeWhile (· ∉ delim), (s.dropWhile (· ∉ delim)).tail?)

/-- The tokens of a string, with `acc` the characters of the current one. -/
def strsepFrom (delim : List Char) (acc : Token) : Token → List Token
  | [] => if acc = [] then [] else [acc.reverse]
  | c :: s =>
    if c ∈ delim then acc.reverse :: strsepFrom delim [] s
    else strsepFrom delim (c :: acc) s

/-- The tokens that a loop around `strsep` sees. -/
def strsepAll (delim : List Char) (s : Token) : List Token := strsepFrom delim [] s

theorem strsepFrom_eq (delim : List Char) (acc s : Token) (h : acc ≠ [] ∨ s ≠ []) :
    strsepFrom delim acc s = (acc.reverse ++ s.takeWhile (· ∉ delim)) ::
      ((s.dropWhile (· ∉ delim)).tail?.map (strsepAll delim)).getD [] := by
  induction s generalizing acc with
  | nil => simp_all [strsepFrom]
  | cons c s ih =>
    by_cases hc : c ∈ delim
    · simp [strsepFrom, strsepAll, hc]
    · rw [strsepFrom, if_neg hc, ih _ (.inl (List.cons_ne_nil c acc))]
      simp [hc]

/-- The loop: `strsep` is called until there is nothing left. -/
theorem strsepAll_eq (delim : List Char) (s : Token) :
    strsepAll delim s = match strsep delim s with
      | none => []
      | some (token, rest) => token :: (rest.map (strsepAll delim)).getD [] := by
  by_cases hs : s = []
  · subst hs
    rfl
  · rw [strsepAll, strsepFrom_eq delim [] s (.inr hs), strsep, if_neg hs]
    rfl

/-- `str_tokenize`, with the array of `n` tokens. -/
def strTokenize (line : Token) (n : ℕ) : List Token :=
  let sep := [' ', '\t']
  ((strsepAll sep line).filter fun token => ¬ token.any (· ∈ sep)).take n

/-- `strcasecmp`. -/
def strcasecmp : Token → Token → ℤ
  | [], [] => 0
  | c₁ :: _, [] => c₁.toLower.toNat
  | [], c₂ :: _ => -c₂.toLower.toNat
  | c₁ :: s₁, c₂ :: s₂ =>
    if c₁.toLower.toNat = c₂.toLower.toNat then strcasecmp s₁ s₂
    else (c₁.toLower.toNat : ℤ) - c₂.toLower.toNat

/-- The loop of `inet_pton4`; `tmp` has the current octet in front. -/
def inetPton4 : Token → Bool → ℕ → List ℕ → Option Ip4Addr
  | [], _, octets, tmp =>
    if octets < 4 then none else some fun k => BitVec.ofNat 8 (tmp.reverse.getD k 0)
  | ch :: src, sawDigit, octets, tmp =>
    if ch.isDigit then
      let new := tmp.headD 0 * 10 + (ch.toNat - '0'.toNat)
      if 255 < new then none
      else if sawDigit then inetPton4 src true octets (new :: tmp.tail)
      else if 4 < octets + 1 then none
      else inetPton4 src true (octets + 1) (new :: tmp.tail)
    else if ch = '.' ∧ sawDigit then
      if octets = 4 then none else inetPton4 src false octets (0 :: tmp)
    else none

/-- `inet_pton` for `AF_INET`: `none` is the result 0, which leaves the destination as it was.  It
never gives -1. -/
def inetPton (src : Token) : Option Ip4Addr := inetPton4 src false 0 [0]

/-! ## The parser -/

def maxIfnetIds : ℕ := 32
def bstgwMaxNetifIps : ℕ := 2

/-- Name and addresses of a registered interface. -/
structure IfConf where
  name : Token
  ips : List Ip4Addr
  deriving DecidableEq

/-- One more address. -/
def IfConf.addIp (ifp : IfConf) (ip : Ip4Addr) : IfConf := { ifp with ips := ifp.ips ++ [ip] }

section Parser

variable {Net : Type} [DecidableEq Net]

/-- The functions of other libraries that the parser calls.  `Net` are the networks that the table
of routes tells apart. -/
structure ConfEnv (Net : Type) where
  lpmStrtobin : Token → Option Net
  strtoul : Token → ℕ
  strdup : Bool
  /-- Whether `calloc` succeeds for a route, by the number of the routes before. -/
  calloc : ℕ → Bool
  lpmInsert : ℕ → Bool

/-- The registered interfaces in the order of their indices from 1 on, and the table. -/
structure ConfState (Net : Type) where
  ifs : List IfConf
  rtable : Net → Option RouteInfo
  adds : ℕ

abbrev ConfM (Net : Type) := Prog Abort (ConfState Net)

/-- `ifnet_nametoindex`: a new interface is put in front of the list. -/
def ifnetNametoindex (ifs : List IfConf) (ifname : Token) : ℕ :=
  ifs.length - ifs.reverse.findIdx (·.name = ifname)

/-- The addresses of an interface. -/
def ifIps (ifs : List IfConf) (i : ℕ) : List Ip4Addr := (ifs[i - 1]?).elim [] IfConf.ips

variable (env : ConfEnv Net)

/-- `route_add`. -/
def routeAdd (net : Net) (rt : RouteInfo) : ConfM Net ℤ := do
  let adds := (← get).adds
  modify fun s => { s with adds := adds + 1 }
  if ¬ env.calloc adds then return -1
  if ¬ env.lpmInsert adds then return -1
  modify fun s => { s with rtable := Function.update s.rtable net (some rt) }
  return 0

/-- The route that the words after the interface make; `none` is -1. -/
def routeInfo (ifIdx : ℕ) (opts : List Token) : ConfM Net (Option RouteInfo) := do
  let rt : RouteInfo := ⟨BitVec.ofNat 32 ifIdx, 0, fun _ => 0, 0⟩
  match opts with
  | [] => return some rt
  | idxStr :: hop =>
    match (← get).ifs[ifIdx - 1]? with
    | none => throw (.panic "assertion(ifp != NULL)")
    | some ifp =>
      let idx : Word := BitVec.ofNat 32 (env.strtoul idxStr)
      if ifp.ips.length ≤ idx.toNat then return none
      match hop with
      | [] => return some { rt with ifAddrIdx := idx }
      | gateway :: _ =>
        return some { rt with
          ifAddrIdx := idx
          nextHop := (inetPton gateway).getD fun _ => 0
          addrLen := 4 }

/-- The `route` command. -/
def parseRoute (tokens : List Token) : ConfM Net ℤ := do
  match tokens with
  | _ :: cidr :: ifname :: opts =>
    match env.lpmStrtobin cidr with
    | none => return -1
    | some net =>
      let ifIdx := ifnetNametoindex (← get).ifs ifname
      if ifIdx = 0 then return -1
      match ← routeInfo env ifIdx opts with
      | none => return -1
      | some rt => routeAdd env net rt
  | _ => return -1

/-- The `ifconfig` command.  Without an address, `inet_pton` reads through a null pointer. -/
def parseIfconfig (tokens : List Token) : ConfM Net ℤ := do
  match tokens with
  | _ :: ifname :: rest =>
    let ifIdx := ifnetNametoindex (← get).ifs ifname
    if ifIdx = 0 then return -1
    match (← get).ifs[ifIdx - 1]? with
    | none => throw (.panic "assertion(ifp != NULL)")
    | some ifp =>
      if bstgwMaxNetifIps ≤ ifp.ips.length then return -1
      match rest with
      | [] => throw .nullDeref
      | addr :: _ =>
        modify fun s => { s with
          ifs := s.ifs.modify (ifIdx - 1) (·.addIp ((inetPton addr).getD fun _ => 0)) }
        return 0
  | _ => return -1

omit [DecidableEq Net] in
/-- The first token is this word. -/
def isCommand (word : String) (tokens : List Token) : Bool :=
  strcasecmp (tokens.headD []) word.toList = 0

/-- `parse_command`. -/
def parseCommand (tokens : List Token) : ConfM Net ℤ :=
  if isCommand "route" tokens then parseRoute env tokens
  else if isCommand "ifconfig" tokens then parseIfconfig tokens
  else return -1

/-- The loop of `parse_config`. -/
def parseLines : List Token → ConfM Net ℤ
  | [] => return 0
  | line :: lines => do
      if line.head? = some '#' then parseLines lines
      else if strTokenize line 5 = [] then parseLines lines
      else if (← parseCommand env (strTokenize line 5)) = -1 then return -1
      else parseLines lines

/-- `parse_config`. -/
def parseConfig (configStr : Token) : ConfM Net ℤ :=
  if env.strdup then parseLines env (strsepAll ['\n'] configStr) else return -1

/-! ## The commands of a file -/

omit [DecidableEq Net] in
/-- The tokens of a line that has a command. -/
def command? (line : Token) : Option (List Token) :=
  if line.head? = some '#' ∨ strTokenize line 5 = [] then none else some (strTokenize line 5)

omit [DecidableEq Net] in
/-- The commands of a file. -/
def commands (configStr : Token) : List (List Token) :=
  (strsepAll ['\n'] configStr).filterMap command?

/-- The command sets the route to this network. -/
def RoutesTo (net : Net) (tokens : List Token) : Prop :=
  isCommand "route" tokens ∧ tokens[1]?.bind env.lpmStrtobin = some net

instance (net : Net) (tokens : List Token) : Decidable (RoutesTo env net tokens) :=
  inferInstanceAs (Decidable (_ ∧ _))

/-- The command that sets the route to a network last. -/
def lastRoute (cmds : List (List Token)) (net : Net) : Option (List Token) :=
  (cmds.filter (RoutesTo env net ·)).getLast?

omit [DecidableEq Net] in
/-- The command gives an address to interface `i`. -/
def AddressFor (ifs : List IfConf) (i : ℕ) (tokens : List Token) : Prop :=
  isCommand "ifconfig" tokens ∧ tokens[1]?.map (ifnetNametoindex ifs) = some i

omit [DecidableEq Net] in
/-- Interface `i` has an address from before, or a command gives it one. -/
def Addressed (ifs : List IfConf) (cmds : List (List Token)) (i : ℕ) : Prop :=
  ifIps ifs i ≠ [] ∨ ∃ tokens ∈ cmds, AddressFor ifs i tokens

instance (ifs : List IfConf) (i : ℕ) (tokens : List Token) :
    Decidable (AddressFor ifs i tokens) := inferInstanceAs (Decidable (_ ∧ _))

instance (ifs : List IfConf) (cmds : List (List Token)) (i : ℕ) :
    Decidable (Addressed ifs cmds i) := inferInstanceAs (Decidable (_ ∨ _))

theorem mem_of_lastRoute {cmds : List (List Token)} {net : Net} {tokens : List Token}
    (h : lastRoute env cmds net = some tokens) : tokens ∈ cmds :=
  List.mem_of_mem_filter (List.mem_of_getLast? h)

theorem lastRoute_concat (cmds : List (List Token)) (tokens : List Token) (net : Net) :
    lastRoute env (cmds ++ [tokens]) net =
      if RoutesTo env net tokens then some tokens else lastRoute env cmds net := by
  unfold lastRoute
  by_cases h : RoutesTo env net tokens <;> simp [h]

omit [DecidableEq Net] in
theorem addressed_concat {ifs : List IfConf} {cmds : List (List Token)} {tokens : List Token}
    {i : ℕ} : Addressed ifs (cmds ++ [tokens]) i ↔
      Addressed ifs cmds i ∨ AddressFor ifs i tokens := by
  simp only [Addressed, List.mem_append, List.mem_singleton, or_and_right, exists_or,
    exists_eq_left, or_assoc]

omit [DecidableEq Net] in
/-- No word is both commands. -/
theorem not_ifconfig_of_route {tokens : List Token} (h : isCommand "route" tokens) :
    ¬ isCommand "ifconfig" tokens := by
  unfold isCommand at *
  generalize tokens.headD [] = word at *
  cases word with
  | nil => simp [strcasecmp] at h
  | cons c t =>
    simp only [decide_eq_true_eq] at h ⊢
    have hr : c.toLower.toNat = 114 := by
      by_contra hne
      have : (c.toLower.toNat : ℤ) - 114 = 0 := by simpa [strcasecmp, hne] using h
      omega
    simp [strcasecmp, hr]

/-! ## What an accepted command does -/

section Interfaces

omit [DecidableEq Net]

variable {ifs : List IfConf} {i j : ℕ} {ip : Ip4Addr}

theorem ifnetNametoindex_eq (ifs : List IfConf) (ifname : Token) :
    ifnetNametoindex ifs ifname = (ifs.map IfConf.name).length -
      (ifs.map IfConf.name).reverse.findIdx (· = ifname) := by
  rw [ifnetNametoindex, List.length_map, ← List.map_reverse, List.findIdx_map]
  rfl

theorem ifnetNametoindex_congr {ifs' : List IfConf}
    (h : ifs'.map IfConf.name = ifs.map IfConf.name) (ifname : Token) :
    ifnetNametoindex ifs' ifname = ifnetNametoindex ifs ifname := by
  rw [ifnetNametoindex_eq, h, ← ifnetNametoindex_eq]

theorem ifnetNametoindex_le (ifs : List IfConf) (ifname : Token) :
    ifnetNametoindex ifs ifname ≤ ifs.length := Nat.sub_le _ _

theorem map_name_modify : (ifs.modify i (·.addIp ip)).map IfConf.name = ifs.map IfConf.name := by
  refine List.ext_getElem? fun k => ?_
  rw [List.getElem?_map, List.getElem?_map, List.getElem?_modify]
  cases ifs[k]? with
  | none => rfl
  | some ifp => by_cases hk : i = k <;> simp [hk, IfConf.addIp]

theorem ifIps_modify (hi : 0 < i) (hj : 0 < j) (hlen : j ≤ ifs.length) :
    ifIps (ifs.modify (j - 1) (·.addIp ip)) i =
      if i = j then ifIps ifs i ++ [ip] else ifIps ifs i := by
  rw [ifIps, ifIps, List.getElem?_modify]
  by_cases hij : i = j
  · subst hij
    rw [List.getElem?_eq_getElem (by omega)]
    simp [IfConf.addIp]
  · rw [if_neg hij]
    cases ifs[i - 1]? with
    | none => rfl
    | some ifp => simp [show j - 1 ≠ i - 1 by omega]

/-- The route that a command with these tokens makes, when the interfaces have these addresses. -/
def Made (ifs : List IfConf) (tokens : List Token) (rt : RouteInfo) : Prop :=
  ∃ ifname, tokens[2]? = some ifname ∧ 0 < ifnetNametoindex ifs ifname ∧
    rt.ifIdx = BitVec.ofNat 32 (ifnetNametoindex ifs ifname) ∧
    if tokens.length = 3 then rt.ifAddrIdx = 0
    else rt.ifAddrIdx.toNat < (ifIps ifs (ifnetNametoindex ifs ifname)).length

/-- Interfaces only get more addresses. -/
theorem Made.modify {tokens : List Token} {rt : RouteInfo} (h : Made ifs tokens rt) (hj : 0 < j)
    (hlen : j ≤ ifs.length) : Made (ifs.modify (j - 1) (·.addIp ip)) tokens rt := by
  obtain ⟨ifname, htok, hpos, hidx, haddr⟩ := h
  refine ⟨ifname, htok, ?_⟩
  rw [ifnetNametoindex_congr map_name_modify, ifIps_modify hpos hj hlen]
  refine ⟨hpos, hidx, ?_⟩
  split_ifs at haddr ⊢
  · exact haddr
  · rw [List.length_append]
    omega
  · exact haddr

end Interfaces

section Commands

variable {s : ConfState Net} {tokens : List Token}

omit [DecidableEq Net] in
theorem post_routeInfo (cmd cidr : Token) {ifname : Token} {opts : List Token}
    (hpos : 0 < ifnetNametoindex s.ifs ifname) :
    Post (routeInfo env (ifnetNametoindex s.ifs ifname) opts) (fun r s' => s' = s ∧
      ∀ rt, r = some rt → Made s.ifs (cmd :: cidr :: ifname :: opts) rt) s := by
  cases opts with
  | nil =>
    refine ⟨rfl, fun rt hrt => ⟨ifname, rfl, hpos, ?_⟩⟩
    cases hrt
    exact ⟨rfl, rfl⟩
  | cons idxStr hop =>
    rw [Post, routeInfo, wp_bind, wp_get]
    cases hifp : s.ifs[ifnetNametoindex s.ifs ifname - 1]? with
    | none => trivial
    | some ifp =>
      refine wp_ite.mpr ⟨fun _ => ⟨rfl, by simp⟩, fun hlt => ?_⟩
      have hips : ifIps s.ifs (ifnetNametoindex s.ifs ifname) = ifp.ips := by simp [ifIps, hifp]
      cases hop <;>
      · refine ⟨rfl, fun rt hrt => ⟨ifname, rfl, hpos, ?_⟩⟩
        cases hrt
        simpa [hips] using hlt

theorem post_routeAdd (net : Net) (rt : RouteInfo) : Post (routeAdd env net rt)
    (fun r s' => r ≠ -1 →
      s'.ifs = s.ifs ∧ s'.rtable = Function.update s.rtable net (some rt)) s := by
  rw [Post, routeAdd, wp_bind, wp_get, wp_bind, wp_modify]
  exact wp_ite.mpr ⟨by simp, fun _ => wp_ite.mpr ⟨by simp, fun _ _ => ⟨rfl, rfl⟩⟩⟩

/-- A `route` command that is accepted. -/
theorem post_parseRoute : Post (parseRoute env tokens) (fun r s' => r ≠ -1 →
    ∃ net rt, tokens[1]?.bind env.lpmStrtobin = some net ∧ Made s.ifs tokens rt ∧
      s'.ifs = s.ifs ∧ s'.rtable = Function.update s.rtable net (some rt)) s := by
  unfold parseRoute
  split
  · next cmd cidr ifname opts =>
    cases hnet : env.lpmStrtobin cidr with
    | none => simp
    | some net =>
      rw [Post, wp_bind, wp_get]
      refine wp_ite.mpr ⟨by simp, fun hne => ?_⟩
      refine (post_routeInfo env cmd cidr (Nat.pos_of_ne_zero hne)).seq ?_
      rintro r _ ⟨rfl, hmade⟩
      cases r with
      | none => simp
      | some rt =>
        refine (post_routeAdd env net rt).imp fun _ s' hadd hne => ?_
        exact ⟨net, rt, hnet, hmade rt rfl, hadd hne⟩
  · simp

omit [DecidableEq Net] in
/-- An `ifconfig` command that is accepted. -/
theorem post_parseIfconfig : Post (parseIfconfig tokens) (fun r s' => r ≠ -1 →
    ∃ j ip, tokens[1]?.map (ifnetNametoindex s.ifs) = some j ∧ 0 < j ∧
      s'.ifs = s.ifs.modify (j - 1) (·.addIp ip) ∧ s'.rtable = s.rtable) s := by
  unfold parseIfconfig
  split
  · next cmd ifname rest =>
    rw [Post, wp_bind, wp_get]
    refine wp_ite.mpr ⟨by simp, fun hne => ?_⟩
    rw [wp_bind, wp_get]
    cases s.ifs[ifnetNametoindex s.ifs ifname - 1]? with
    | none => trivial
    | some ifp =>
      refine wp_ite.mpr ⟨by simp, fun _ => ?_⟩
      cases rest with
      | nil => trivial
      | cons addr _ =>
        rw [wp_bind, wp_modify, wp_pure]
        exact fun _ => ⟨_, _, rfl, Nat.pos_of_ne_zero hne, rfl, rfl⟩
  · simp

end Commands

/-! ## What an accepted file does -/

/-- Interfaces and table after the commands `cmds`, with `ifs` the interfaces before them. -/
structure Parsed (ifs : List IfConf) (cmds : List (List Token)) (s : ConfState Net) : Prop where
  names : s.ifs.map IfConf.name = ifs.map IfConf.name
  addressed : ∀ i, 0 < i → (ifIps s.ifs i ≠ [] ↔ Addressed ifs cmds i)
  unset : ∀ net, lastRoute env cmds net = none → s.rtable net = none
  routes : ∀ net tokens, lastRoute env cmds net = some tokens →
    ∃ rt, s.rtable net = some rt ∧ Made s.ifs tokens rt

section Steps

variable {env} {ifs : List IfConf} {cmds : List (List Token)} {s : ConfState Net}
  {tokens : List Token}

theorem Parsed.start (hnew : s.rtable = fun _ => none) : Parsed env s.ifs [] s where
  names := rfl
  addressed _ _ := by simp [Addressed]
  unset net _ := congrFun hnew net
  routes _ _ h := nomatch h

/-- A command changes a route or the addresses. -/
theorem Parsed.step (h : Parsed env ifs cmds s) : Post (parseCommand env tokens)
    (fun r s' => r ≠ -1 → Parsed env ifs (cmds ++ [tokens]) s') s := by
  refine wp_ite.mpr ⟨fun hroute => ?_, fun hroute => wp_ite.mpr ⟨fun hifc => ?_, by simp⟩⟩
  · refine (post_parseRoute env).imp fun r s' hr hne => ?_
    obtain ⟨net, rt, hnet, hmade, hifs, htab⟩ := hr hne
    have hto : ∀ net', RoutesTo env net' tokens ↔ net = net' := by simp [RoutesTo, hroute, hnet]
    refine ⟨hifs ▸ h.names, fun i hi => ?_, fun net' => ?_, fun net' tokens' => ?_⟩
    · rw [hifs, h.addressed i hi, addressed_concat]
      simp [AddressFor, not_ifconfig_of_route hroute]
    · simp only [lastRoute_concat, hto, htab]
      split_ifs with hn
      · simp
      · intro hlast
        rw [Function.update_of_ne (Ne.symm hn), h.unset net' hlast]
    · simp only [lastRoute_concat, hto, htab, hifs]
      split_ifs with hn
      · intro ht
        cases ht
        exact ⟨rt, by simp [hn], hmade⟩
      · intro hlast
        rw [Function.update_of_ne (Ne.symm hn)]
        exact h.routes net' tokens' hlast
  · refine post_parseIfconfig.imp fun r s' hr hne => ?_
    obtain ⟨j, ip, hj, hpos, hifs, htab⟩ := hr hne
    have hto : ∀ net, ¬ RoutesTo env net tokens := by simp [RoutesTo, hroute]
    have hlen : j ≤ s.ifs.length := by
      obtain ⟨ifname, -, rfl⟩ := Option.map_eq_some_iff.mp hj
      exact ifnetNametoindex_le _ _
    have hj' : tokens[1]?.map (ifnetNametoindex ifs) = some j := by
      rw [← hj]
      refine congrArg (tokens[1]?.map ·) (funext fun ifname => ?_)
      exact (ifnetNametoindex_congr h.names ifname).symm
    refine ⟨by rw [hifs, map_name_modify, h.names], fun i hi => ?_, fun net => ?_,
      fun net tokens' => ?_⟩
    · rw [hifs, ifIps_modify hi hpos hlen, addressed_concat, ← h.addressed i hi]
      by_cases hij : i = j
      · simp [hij, AddressFor, hifc, hj']
      · simp [hij, AddressFor, hj', Ne.symm hij]
    · rw [lastRoute_concat, if_neg (hto net), htab]
      exact h.unset net
    · rw [lastRoute_concat, if_neg (hto net), htab, hifs]
      intro hlast
      obtain ⟨rt, hrt, hmade⟩ := h.routes net tokens' hlast
      exact ⟨rt, hrt, hmade.modify hpos hlen⟩

/-- **A file** that is accepted, line by line. -/
theorem Parsed.run (h : Parsed env ifs cmds s) (lines : List Token) :
    Post (parseLines env lines)
      (fun r s' => r = 0 → Parsed env ifs (cmds ++ lines.filterMap command?) s') s := by
  induction lines generalizing cmds s with
  | nil => simpa [parseLines] using h
  | cons line lines ih =>
    refine wp_ite.mpr ⟨fun hcomment => ?_, fun hcomment => wp_ite.mpr ⟨fun hempty => ?_,
      fun hempty => ?_⟩⟩
    · simpa [command?, hcomment] using ih h
    · simpa [command?, hempty] using ih h
    · refine h.step.seq fun r s₁ h₁ => wp_ite.mpr ⟨by simp, fun hne => ?_⟩
      simpa [command?, hcomment, hempty] using ih (h₁ hne)

end Steps

/-! ## The router afterwards -/

omit [DecidableEq Net]

/-- Every entry refers to a registered interface and to one of its addresses. -/
def RoutesValid (s : ConfState Net) : Prop :=
  ∀ net rt, s.rtable net = some rt → 0 < rt.ifIdx.toNat ∧ rt.ifIdx.toNat ≤ s.ifs.length ∧
    rt.ifAddrIdx.toNat < (ifIps s.ifs rt.ifIdx.toNat).length

/-- A route that a packet may carry: none yet, or one of the table. -/
def FromTable (rtable : Net → Option RouteInfo) (rt : RouteInfo) : Prop :=
  rt.ifIdx = 0 ∨ ∃ net rt₀ addr, rtable net = some rt₀ ∧ rt = rt₀.resolve addr

/-- A router with the interfaces and the table of a configuration. -/
def Configured (conf : ConfState Net) (s : RouterState) : Prop :=
  s.devCount = conf.ifs.length ∧
    (∀ i, 0 < i → i ≤ conf.ifs.length → (s.ifnet i).ips = ifIps conf.ifs i) ∧
    ∀ b, FromTable conf.rtable (s.priv b).route

/-- A batch is routed with the entries of the table.  What happens elsewhere does not change the
interfaces' addresses, and gives no packet a route. -/
def ServedBy (rtable : Net → Option RouteInfo) (s : RouterState) : RouterInput → Prop
  | .batch env _ _ => ∀ addr rt, env.rtable addr = some rt → ∃ net, rtable net = some rt
  | .elsewhere s' => s'.devCount = s.devCount ∧ (∀ i, (s'.ifnet i).ips = (s.ifnet i).ips) ∧
      ∀ b, (s'.priv b).route.ifIdx = 0 ∨ (s'.priv b).route = (s.priv b).route

/-- In no run of the router does a batch end in the panic of `arp_resolve`. -/
def PanicFree (conf : ConfState Net) : Prop :=
  ∀ s₀ is s inp, Configured conf s₀ → Run routerStep (ServedBy conf.rtable) s₀ is s →
    ServedBy conf.rtable s inp → routerStep s inp ≠ .error invalidAddrIdx

section Afterwards

variable {n : ℕ} {ips : ℕ → List Ip4Addr} {rtable : Net → Option RouteInfo} {s s' : RouterState}
  {inp : RouterInput}

theorem Provisioned.foldl_store {P : RouteInfo → Prop} (h : Provisioned n ips P s)
    (frames : List RxFrame) : Provisioned n ips P (frames.foldl store s) := by
  induction frames generalizing s with
  | nil => exact h
  | cons f frames ih => exact ih ⟨h.devCount, h.addrs, h.stored⟩

section

variable (hP : ∀ rt, FromTable rtable rt → RouteUsable n ips rt)
  (h : Provisioned n ips (FromTable rtable) s)
include hP h

/-- A batch of a router whose routes can be used. -/
theorem wp_batch {env : RouterEnv} {w : ℕ} {frames : List RxFrame}
    (hserved : ServedBy rtable s (.batch env w frames)) :
    Wp (fun e s' => e ≠ invalidAddrIdx ∧ Provisioned n ips (FromTable rtable) s')
      (routerIfInput env w (frames.map RxFrame.buf))
      (fun _ s' => Provisioned n ips (FromTable rtable) s') (frames.foldl store s) := by
  refine sound_routerIfInput env w hP (fun addr rt hrt => ?_) _ _ (h.foldl_store frames)
  obtain ⟨net, hnet⟩ := hserved addr rt hrt
  exact .inr ⟨net, rt, addr, hnet, rfl⟩

theorem Provisioned.routerStep (hserved : ServedBy rtable s inp)
    (hstep : routerStep s inp = .ok s') :
    Provisioned n ips (FromTable rtable) s' := by
  cases inp with
  | elsewhere t =>
    cases hstep
    obtain ⟨hdev, hips, hroute⟩ := hserved
    refine ⟨hdev.trans h.devCount, fun i => (hips i).trans (h.addrs i), fun b => ?_⟩
    rcases hroute b with hz | heq
    · exact .inl hz
    · exact heq ▸ h.stored b
  | batch env w frames =>
    rw [Router.routerStep] at hstep
    split at hstep
    · next s₁ hrun =>
      cases hstep
      exact (wp_batch hP h hserved).ok hrun
    · cases hstep

theorem routerStep_ne_panic (hserved : ServedBy rtable s inp) :
    routerStep s inp ≠ .error invalidAddrIdx := by
  intro hstep
  cases inp with
  | elsewhere t => cases hstep
  | batch env w frames =>
    rw [Router.routerStep] at hstep
    split at hstep
    · cases hstep
    · next e s₁ hrun =>
      cases hstep
      exact ((wp_batch hP h hserved).error hrun).1 rfl

end

/-- Valid routes do not panic the router. -/
theorem RoutesValid.panicFree {conf : ConfState Net} (h : RoutesValid conf) : PanicFree conf := by
  intro s₀ is s inp hconf hrun hserved
  obtain ⟨hdev, hips, hroute⟩ := hconf
  have hP : ∀ rt, FromTable conf.rtable rt →
      RouteUsable conf.ifs.length (fun i => (s₀.ifnet i).ips) rt := by
    rintro rt (hz | ⟨net, rt₀, addr, hnet, rfl⟩) hpos hle
    · simp [hz] at hpos
    · obtain ⟨-, -, haddr⟩ := h net rt₀ hnet
      dsimp only
      rw [hips _ hpos hle, RouteInfo.ifIdx_resolve, RouteInfo.ifAddrIdx_resolve]
      exact haddr
  have hinv := hrun.inv (I := Provisioned conf.ifs.length (fun i => (s₀.ifnet i).ips)
    (FromTable conf.rtable)) (fun _ _ _ h hg hs => h.routerStep hP hg hs)
    ⟨hdev, fun _ => rfl, hroute⟩
  exact routerStep_ne_panic hP hinv hserved

end Afterwards

variable [DecidableEq Net]

/-- **Accepted configurations and the panic.**  After a file was accepted, every route can be used
and no packet panics the router, exactly if the following holds of the file: where the last `route`
command for a network has no address index, its interface had an address before or gets one by an
`ifconfig` command. -/
theorem routesValid_iff {s₀ s : ConfState Net} {configStr : Token}
    (hnew : s₀.rtable = fun _ => none) (hfew : s₀.ifs.length ≤ maxIfnetIds)
    (hok : runFrom (parseConfig env configStr) s₀ = (.ok 0, s)) :
    (RoutesValid s ∧ PanicFree s) ↔ ∀ net tokens ifname,
      lastRoute env (commands configStr) net = some tokens → tokens.length = 3 →
      tokens[2]? = some ifname →
      Addressed s₀.ifs (commands configStr) (ifnetNametoindex s₀.ifs ifname) := by
  have hp : Parsed env s₀.ifs (commands configStr) s := by
    have hpost : Post (parseConfig env configStr)
        (fun r s' => r = 0 → Parsed env s₀.ifs (commands configStr) s') s₀ :=
      wp_ite.mpr ⟨fun _ => (Parsed.start hnew).run _, by simp⟩
    exact hpost.ok hok rfl
  have hlen : s.ifs.length = s₀.ifs.length := by simpa using congrArg List.length hp.names
  have hidx : ∀ ifname, (BitVec.ofNat 32 (ifnetNametoindex s.ifs ifname)).toNat =
      ifnetNametoindex s.ifs ifname := by
    intro ifname
    have := ifnetNametoindex_le s.ifs ifname
    rw [BitVec.toNat_ofNat, Nat.mod_eq_of_lt (by unfold maxIfnetIds at hfew; omega)]
  constructor
  · rintro ⟨hvalid, -⟩ net tokens ifname hlast hthree htok
    obtain ⟨rt, hrt, ifname', htok', hpos, hif, haddr⟩ := hp.routes net tokens hlast
    rw [htok] at htok'
    cases htok'
    obtain ⟨-, -, hlt⟩ := hvalid net rt hrt
    rw [hif, hidx] at hlt
    rw [← ifnetNametoindex_congr hp.names, ← hp.addressed _ hpos]
    exact List.ne_nil_of_length_pos (by omega)
  · intro hcond
    have hvalid : RoutesValid s := by
      intro net rt hrt
      cases hlast : lastRoute env (commands configStr) net with
      | none =>
        rw [hp.unset net hlast] at hrt
        cases hrt
      | some tokens =>
        obtain ⟨rt', hrt', ifname, htok, hpos, hif, haddr⟩ := hp.routes net tokens hlast
        rw [hrt] at hrt'
        cases hrt'
        rw [hif, hidx]
        refine ⟨hpos, ifnetNametoindex_le _ _, ?_⟩
        split_ifs at haddr with hthree
        · have := hcond net tokens ifname hlast hthree htok
          rw [← ifnetNametoindex_congr hp.names, ← hp.addressed _ hpos] at this
          rw [haddr]
          exact List.length_pos_iff.mpr this
        · exact haddr
    exact ⟨hvalid, hvalid.panicFree⟩

end Parser

section Demo

/-- A table that tells networks apart as they are written. -/
def demoConf : ConfEnv Token where
  lpmStrtobin := some
  strtoul := fun token => token.foldl (fun n c => 10 * n + (c.toNat - '0'.toNat)) 0
  strdup := true
  calloc := fun _ => true
  lpmInsert := fun _ => true

/-- Interfaces without addresses, and an empty table. -/
def demoIfs (names : List String) : ConfState Token where
  ifs := names.map fun name => ⟨name.toList, []⟩
  rtable := fun _ => none
  adds := 0

/-- Two interfaces with an address each, and the routes to them. -/
def demoFile : Token :=
  "ifconfig NW 192.168.178.11\nifconfig imx6q-fec 192.168.178.49\n".toList ++
    "route 192.168.178.49/32 NW\nroute 192.168.178.0/24 imx6q-fec\n".toList

/-- Both routes have no address index, and both interfaces have an address. -/
theorem routesValid_demoFile :
    ∃ s, runFrom (parseConfig demoConf demoFile) (demoIfs ["NW", "imx6q-fec"]) = (.ok 0, s) ∧
      s.ifs.map IfConf.ips = [[![192, 168, 178, 11]], [![192, 168, 178, 49]]] ∧
      RoutesValid s ∧ PanicFree s := by
  obtain ⟨r, s, hrun, hr⟩ := exists_ok_of_returns (x := parseConfig demoConf demoFile)
    (s := demoIfs ["NW", "imx6q-fec"]) (f := fun p => (p.1, p.2.ifs.map IfConf.ips))
    (b := (0, [[![192, 168, 178, 11]], [![192, 168, 178, 49]]])) (by decide +kernel)
  obtain ⟨rfl, hips⟩ := Prod.mk.inj hr
  have hcond : ∀ tokens ∈ commands demoFile, ∀ ifname ∈ tokens[2]?, tokens.length = 3 →
      isCommand "route" tokens → Addressed (demoIfs ["NW", "imx6q-fec"]).ifs (commands demoFile)
        (ifnetNametoindex (demoIfs ["NW", "imx6q-fec"]).ifs ifname) := by decide +kernel
  refine ⟨s, hrun, hips, (routesValid_iff demoConf rfl (by decide) hrun).mpr ?_⟩
  intro net tokens ifname hlast hlen htok
  have hroute := List.of_mem_filter (List.mem_of_getLast? hlast)
  exact hcond tokens (mem_of_lastRoute demoConf hlast) ifname htok hlen (of_decide_eq_true hroute).1

/-- One route, and no address. -/
def demoBare : Token := "route 0.0.0.0/0 NW".toList

/-- The router with that route, its interface without addresses. -/
def demoBareRouter : RouterState :=
  { demoState 1 [demoIp] with ifnet := fun i => { demoIfnet i with ips := [] } }

/-- The file is accepted, and the first packet panics the router. -/
theorem panics_demoBare :
    ∃ s, runFrom (parseConfig demoConf demoBare) (demoIfs ["NW"]) = (.ok 0, s) ∧
      ¬ RoutesValid s ∧ Configured s demoBareRouter ∧
      (∀ addr rt, (demoEnv 1).rtable addr = some rt → ∃ net, s.rtable net = some rt) ∧
      (runFrom (routerIfInput (demoEnv 1) 1 [1]) demoBareRouter).1 = .error invalidAddrIdx := by
  obtain ⟨r, s, hrun, hr⟩ := exists_ok_of_returns (x := parseConfig demoConf demoBare)
    (s := demoIfs ["NW"]) (f := fun p => (p.1, p.2.ifs, p.2.rtable "0.0.0.0/0".toList))
    (b := (0, [⟨"NW".toList, []⟩], some ⟨1, 0, fun _ => 0, 0⟩)) (by decide +kernel)
  simp only [Prod.mk.injEq] at hr
  obtain ⟨rfl, hifs, hroute⟩ := hr
  refine ⟨s, hrun, fun hvalid => ?_, ⟨?_, fun i _ _ => ?_, fun b => .inl rfl⟩, ?_,
    by decide +kernel⟩
  · have h := (hvalid _ _ hroute).2.2
    rw [hifs] at h
    exact absurd h (by decide)
  · rw [hifs]
    rfl
  · rw [hifs, ifIps]
    match i - 1 with
    | 0 => rfl
    | _ + 1 => rfl
  · intro addr rt hrt
    cases hrt
    exact ⟨_, hroute⟩

end Demo

end Router

end TrustedGateway
