import TrustedGateway.Router.Config

/-!
# The language of the configuration file

The comment at the head of `config.c` gives the language: lines of words between blanks,

    ifconfig <if-name> <ip>
    route <dst-ip/cidr> <out-if-name> [<ifnet-ip-idx> [<next-hop-ip>]]

with comments and blank lines between them.  The parser differs from it in these places.

* `str_tokenize` wants to skip the empty tokens between two blanks, but looks at the first character
  of `sep` instead of `token`.  They become words of their own: a line that starts with a blank is
  refused, and `ifconfig NW  10.0.0.1` with two blanks has an empty word for its address.
* `inet_pton` returns 0 for a text that is no address, and the parser looks for -1.  The address
  stays zero.
* `ifconfig NW` is one word short, and a null pointer goes to `inet_pton`.
* Words behind the last one that is read are ignored, the index need not be a number, and the
  command may be in capital letters.

## Main results

* `lineStep_eq_iff` — without empty tokens, the lines that are read as documented are these.
* `config_language` — files of such lines.
-/

namespace TrustedGateway

open Programs StepSystem

namespace Router

/-! ## Words and lines -/

/-- A blank or a tab. -/
def isBlank (c : Char) : Bool := decide (c ∈ [' ', '\t'])

/-- The words of a line stand between runs of blanks. -/
def words (line : Token) : List Token := (line.splitOnP isBlank).filter fun w => decide (w ≠ [])

/-- The lines of a file. -/
def fileLines (configStr : Token) : List Token := configStr.splitOnP fun c => decide (c ∈ ['\n'])

theorem modifyHead_self (ts : List Token) : ts.modifyHead (fun t => t) = ts := by
  cases ts <;> rfl

/-- A loop around `strsep` sees all parts of the string but an empty last one. -/
theorem splitOnP_eq_strsepFrom (delim : List Char) (acc s : Token) :
    (s.splitOnP fun c => decide (c ∈ delim)).modifyHead (acc.reverse ++ ·) =
        strsepFrom delim acc s ∨
      (s.splitOnP fun c => decide (c ∈ delim)).modifyHead (acc.reverse ++ ·) =
        strsepFrom delim acc s ++ [[]] := by
  induction s generalizing acc with
  | nil =>
    by_cases hacc : acc = []
    · exact .inr (by simp [strsepFrom, hacc])
    · exact .inl (by simp [strsepFrom, hacc])
  | cons c s ih =>
    rw [List.splitOnP_cons_eq_if_modifyHead, strsepFrom]
    by_cases hc : c ∈ delim
    · have h := ih []
      simpa [hc, modifyHead_self] using h
    · have h := ih (c :: acc)
      simpa [hc, Function.comp_def] using h

theorem splitOnP_eq_strsepAll (delim : List Char) (s : Token) :
    (s.splitOnP fun c => decide (c ∈ delim)) = strsepAll delim s ∨
      (s.splitOnP fun c => decide (c ∈ delim)) = strsepAll delim s ++ [[]] := by
  have h := splitOnP_eq_strsepFrom delim [] s
  simpa [modifyHead_self, strsepAll] using h

/-- No token has a delimiter in it. -/
theorem not_mem_of_mem_strsepFrom {delim : List Char} {acc s token : Token}
    (hacc : ∀ c ∈ acc, c ∉ delim) (h : token ∈ strsepFrom delim acc s) :
    ∀ c ∈ token, c ∉ delim := by
  induction s generalizing acc with
  | nil =>
    simp only [strsepFrom] at h
    split at h
    · cases h
    · rw [List.mem_singleton] at h
      subst h
      simpa using hacc
  | cons c s ih =>
    simp only [strsepFrom] at h
    split at h
    · rcases List.mem_cons.mp h with rfl | h
      · simpa using hacc
      · exact ih (by simp) h
    · next hc => exact ih (List.forall_mem_cons.mpr ⟨hc, hacc⟩) h

/-- `strpbrk` finds nothing: the tokens are the first ones that `strsep` gives. -/
theorem strTokenize_eq (line : Token) (n : ℕ) :
    strTokenize line n = (strsepAll [' ', '\t'] line).take n := by
  have hall : (strsepAll [' ', '\t'] line).filter
      (fun token => ¬ token.any (· ∈ [' ', '\t'])) = strsepAll [' ', '\t'] line := by
    refine List.filter_eq_self.mpr fun token htoken => ?_
    have hfree := not_mem_of_mem_strsepFrom (by simp) htoken
    simpa using hfree
  rw [strTokenize, hall]

theorem words_eq (line : Token) :
    words line = (strsepAll [' ', '\t'] line).filter fun w => decide (w ≠ []) := by
  unfold words isBlank
  rcases splitOnP_eq_strsepAll [' ', '\t'] line with h | h
  · rw [h]
  · rw [h, List.filter_append]
    simp

/-- If no token is empty, the tokens are the first words. -/
theorem strTokenize_eq_words {line : Token} {n : ℕ} (h : [] ∉ strTokenize line n) :
    strTokenize line n = (words line).take n := by
  rw [strTokenize_eq] at h ⊢
  rw [words_eq]
  generalize strsepAll [' ', '\t'] line = tokens at h ⊢
  induction tokens generalizing n with
  | nil => rfl
  | cons t tokens ih =>
    cases n with
    | zero => rfl
    | succ n =>
      rw [List.take_succ_cons, List.mem_cons, not_or] at h
      rw [List.filter_cons_of_pos (by simpa using Ne.symm h.1), List.take_succ_cons,
        List.take_succ_cons, ih h.2]

/-! ## Commands -/

/-- A decimal number. -/
def isDecimal (token : Token) : Bool := decide (token ≠ []) && token.all Char.isDigit

def decimalValue (token : Token) : ℕ :=
  token.foldl (fun n c => 10 * n + (c.toNat - '0'.toNat)) 0

section Words

variable {Net : Type} (env : ConfEnv Net) (s : ConfState Net)

/-- How a line ends: with a state, with -1 (`none`), or with an abort. -/
def outcome (x : ConfM Net ℤ) : Except (Option Abort) (ConfState Net) :=
  match runFrom x s with
  | (.ok r, s') => if r = -1 then .error none else .ok s'
  | (.error e, _) => .error (some e)

variable {env s}

theorem outcome_eq_of_wp {x : ConfM Net ℤ} {o : Except (Option Abort) (ConfState Net)}
    (h : Wp (fun e _ => o = .error (some e)) x
      (fun r s' => o = if r = -1 then .error none else .ok s') s) : outcome s x = o := by
  unfold outcome
  rcases hx : runFrom x s with ⟨e | r, s'⟩
  · exact (h.error hx).symm
  · exact (h.ok hx).symm

theorem exists_run_of_outcome_ok {x : ConfM Net ℤ} {s' : ConfState Net} (h : outcome s x = .ok s') :
    ∃ r, r ≠ -1 ∧ runFrom x s = (.ok r, s') := by
  unfold outcome at h
  rcases hx : runFrom x s with ⟨e | r, s₁⟩ <;> simp only [hx] at h
  · cases h
  · split_ifs at h with hr
    cases h
    exact ⟨r, hr, rfl⟩

theorem exists_run_of_outcome_rejected {x : ConfM Net ℤ} (h : outcome s x = .error none) :
    ∃ s', runFrom x s = (.ok (-1), s') := by
  unfold outcome at h
  rcases hx : runFrom x s with ⟨e | r, s₁⟩ <;> simp only [hx] at h
  · cases h
  · split_ifs at h with hr
    exact ⟨s₁, by rw [hr]⟩

/-! ### The command `ifconfig` -/

variable (env s)

/-- The words of the two commands. -/
def ifconfigWord : Token := "ifconfig".toList

def routeWord : Token := "route".toList

/-- One more address for interface `i`. -/
def ConfState.addIp (s : ConfState Net) (i : ℕ) (ip : Ip4Addr) : ConfState Net :=
  { s with ifs := s.ifs.modify (i - 1) (·.addIp ip) }

/-- `ifconfig <if-name> <ip>`, behind the command: a known interface with room for another address,
and an address. -/
def documentedIfconfig : List Token → Option (ConfState Net)
  | [ifname, addr] =>
    let i := ifnetNametoindex s.ifs ifname
    if 0 < i ∧ (ifIps s.ifs i).length < bstgwMaxNetifIps then (inetPton addr).map (s.addIp i)
    else none
  | _ => none

/-- The checks of an `ifconfig` command, on the words behind the command. -/
def ifconfigPasses : List Token → Bool
  | ifname :: _ => decide (0 < ifnetNametoindex s.ifs ifname) &&
      decide ((ifIps s.ifs (ifnetNametoindex s.ifs ifname)).length < bstgwMaxNetifIps)
  | [] => false

/-- The address that `inet_pton` leaves: zero, if the text is none. -/
def readAddr (addr : Token) : Ip4Addr := (inetPton addr).getD fun _ => 0

/-- What `ifconfig` needs to look like. -/
def ifconfigForm : List Token → Bool
  | [cmd, _, addr] => decide (cmd = ifconfigWord) && (inetPton addr).isSome
  | _ => false

variable {env s}

/-- A known interface is in the list. -/
theorem exists_ifp {i : ℕ} (hpos : 0 < i) (hle : i ≤ s.ifs.length) :
    ∃ ifp, s.ifs[i - 1]? = some ifp ∧ ifIps s.ifs i = ifp.ips := by
  have hlt : i - 1 < s.ifs.length := by omega
  exact ⟨_, List.getElem?_eq_getElem hlt, by simp [ifIps, hlt]⟩

theorem outcome_parseIfconfig (cmd ifname : Token) (rest : List Token) :
    outcome s (parseIfconfig (cmd :: ifname :: rest)) =
      if ifconfigPasses s (ifname :: rest) then
        rest.head?.elim (.error (some .nullDeref)) fun addr =>
          .ok (s.addIp (ifnetNametoindex s.ifs ifname) (readAddr addr))
      else .error none := by
  refine outcome_eq_of_wp ?_
  simp only [parseIfconfig, wp_bind, wp_get]
  refine wp_ite.mpr ⟨fun hz => ?_, fun hne => ?_⟩
  · simp [ifconfigPasses, hz]
  have hpos : 0 < ifnetNametoindex s.ifs ifname := Nat.pos_of_ne_zero hne
  obtain ⟨ifp, hifp, hips⟩ := exists_ifp hpos (ifnetNametoindex_le s.ifs ifname)
  simp only [wp_bind, wp_get, hifp]
  refine wp_ite.mpr ⟨fun hfull => ?_, fun hroom => ?_⟩
  · simp [ifconfigPasses, hips, Nat.not_lt.mpr hfull]
  · have hpass : ifconfigPasses s (ifname :: rest) = true := by
      simp [ifconfigPasses, hpos, hips, Nat.lt_of_not_le hroom]
    cases rest with
    | nil => simp [hpass]
    | cons addr rest => simp [hpass, ConfState.addIp, readAddr]

theorem outcome_parseIfconfig_of_not (cmd : Token) {args : List Token}
    (h : ifconfigPasses s args = false) :
    outcome s (parseIfconfig (cmd :: args)) = .error none := by
  cases args with
  | nil => rfl
  | cons ifname rest => rw [outcome_parseIfconfig, h, if_neg (by simp)]

theorem documentedIfconfig_eq (ifname addr : Token) (rest : List Token) :
    documentedIfconfig s (ifname :: addr :: rest) =
      if ifconfigPasses s (ifname :: addr :: rest) ∧ rest = [] then
        (inetPton addr).map (s.addIp (ifnetNametoindex s.ifs ifname))
      else none := by
  cases rest with
  | nil => simp [documentedIfconfig, ifconfigPasses]
  | cons _ _ => simp [documentedIfconfig]

/-- An `ifconfig` command is read as documented exactly if it has the form or does not pass. -/
theorem ifconfig_iff (cmd : Token) (args : List Token) :
    outcome s (parseIfconfig (cmd :: args)) =
        (if cmd = ifconfigWord then documentedIfconfig s args else none).elim
          (.error none) .ok ↔
      (ifconfigPasses s args → ifconfigForm (cmd :: args)) := by
  cases hp : ifconfigPasses s args with
  | false =>
    have hnone : documentedIfconfig s args = none := by
      match args with
      | [] | [_] => rfl
      | ifname :: addr :: rest => rw [documentedIfconfig_eq, hp, if_neg (by simp)]
    rw [outcome_parseIfconfig_of_not cmd hp, hnone, ite_self]
    simp
  | true =>
    match args with
    | [] => cases hp
    | [ifname] =>
      rw [outcome_parseIfconfig, hp]
      simp [documentedIfconfig, ifconfigForm]
    | ifname :: addr :: rest =>
      rw [outcome_parseIfconfig, documentedIfconfig_eq, hp]
      cases rest with
      | nil =>
        by_cases hcmd : cmd = ifconfigWord
        · cases haddr : inetPton addr with
          | none => simp [ifconfigForm, haddr]
          | some ip => simp [hcmd, ifconfigForm, haddr, readAddr]
        · simp [hcmd, ifconfigForm]
      | cons _ _ => simp [ifconfigForm]

/-! ### What may follow the interface of a route -/

variable (env s)

/-- The route through interface `i` with its address `k` to the destination itself. -/
def directRoute (i : ℕ) (k : Word) : RouteInfo where
  ifIdx := BitVec.ofNat 32 i
  addrLen := 0
  nextHop := fun _ => 0
  ifAddrIdx := k

/-- The route by a next hop. -/
def hopRoute (i : ℕ) (k : Word) (ip : Ip4Addr) : RouteInfo :=
  { directRoute i k with nextHop := ip, addrLen := 4 }

/-- `<ifnet-ip-idx>`: a number below the count of addresses of interface `i`. -/
def documentedIndex (i : ℕ) (idx : Token) : Option Word :=
  if isDecimal idx ∧ decimalValue idx < (ifIps s.ifs i).length then
    some (BitVec.ofNat 32 (decimalValue idx))
  else none

/-- `[<ifnet-ip-idx> [<next-hop-ip>]]`, for a route through interface `i`. -/
def documentedRouteInfo (i : ℕ) : List Token → Option RouteInfo
  | [] => some (directRoute i 0)
  | [idx] => (documentedIndex s i idx).map (directRoute i)
  | [idx, hop] => (documentedIndex s i idx).bind fun k => (inetPton hop).map (hopRoute i k)
  | _ => none

/-- What `strtoul` makes of a decimal number: the number, or `ULONG_MAX`. -/
def ReadsDecimals : Prop :=
  ∀ token, isDecimal token → env.strtoul token = min (decimalValue token) (2 ^ 32 - 1)

/-- The check of the index, if there is one. -/
def indexPasses (i : ℕ) (opts : List Token) : Bool :=
  opts.head?.all fun idx => decide (env.strtoul idx % 2 ^ 32 < (ifIps s.ifs i).length)

/-- The checks of a `route` command, on the words behind the command. -/
def routePasses : List Token → Bool
  | cidr :: ifname :: opts => (env.lpmStrtobin cidr).isSome &&
      decide (0 < ifnetNametoindex s.ifs ifname) &&
      indexPasses env s (ifnetNametoindex s.ifs ifname) opts &&
      env.calloc s.adds && env.lpmInsert s.adds
  | _ => false

/-- The route that the parser reads. -/
def readRoute (i : ℕ) : List Token → RouteInfo
  | [] => directRoute i 0
  | [idx] => directRoute i (BitVec.ofNat 32 (env.strtoul idx))
  | idx :: hop :: _ => hopRoute i (BitVec.ofNat 32 (env.strtoul idx)) (readAddr hop)

/-- What may follow the interface of a route. -/
def optsForm : List Token → Bool
  | [] => true
  | [idx] => isDecimal idx
  | [idx, hop] => isDecimal idx && (inetPton hop).isSome
  | _ => false

variable {env s}

theorem wp_routeInfo {E : Abort → ConfState Net → Prop} {i : ℕ} (hpos : 0 < i)
    (hle : i ≤ s.ifs.length) (opts : List Token) :
    Wp E (routeInfo env i opts) (fun r s' => s' = s ∧
      r = if indexPasses env s i opts then some (readRoute env i opts) else none) s := by
  obtain ⟨ifp, hifp, hips⟩ := exists_ifp hpos hle
  cases opts with
  | nil => exact ⟨rfl, rfl⟩
  | cons idx hop =>
    simp only [routeInfo, wp_bind, wp_get, hifp]
    refine wp_ite.mpr ⟨fun hout => ⟨rfl, ?_⟩, fun hin => ?_⟩
    · rw [BitVec.toNat_ofNat] at hout
      simp [indexPasses, hips, hout]
    · rw [BitVec.toNat_ofNat] at hin
      have hpass : indexPasses env s i (idx :: hop) = true := by
        simpa [indexPasses, hips] using hin
      cases hop with
      | nil | cons gateway rest => exact ⟨rfl, (if_pos hpass).symm⟩

/-- The index of the parser is the documented one, if it is a decimal number. -/
theorem documentedIndex_eq (hul : ReadsDecimals env) {i : ℕ}
    (hlen : (ifIps s.ifs i).length ≤ bstgwMaxNetifIps) (idx : Token) (opts : List Token) :
    documentedIndex s i idx = if isDecimal idx ∧ indexPasses env s i (idx :: opts) then
      some (BitVec.ofNat 32 (env.strtoul idx)) else none := by
  by_cases hdec : isDecimal idx = true
  · have hread := hul idx hdec
    unfold bstgwMaxNetifIps at hlen
    by_cases hlt : decimalValue idx < (ifIps s.ifs i).length
    · have hval : env.strtoul idx = decimalValue idx := by omega
      have hpass : indexPasses env s i (idx :: opts) = true := by
        have hmod : env.strtoul idx % 2 ^ 32 < (ifIps s.ifs i).length := by omega
        simpa [indexPasses] using hmod
      rw [documentedIndex, if_pos ⟨hdec, hlt⟩, if_pos ⟨hdec, hpass⟩, hval]
    · have hpass : indexPasses env s i (idx :: opts) = false := by
        have hmod : ¬ env.strtoul idx % 2 ^ 32 < (ifIps s.ifs i).length := by omega
        simpa [indexPasses] using hmod
      rw [documentedIndex, if_neg fun h => hlt h.2, hpass, if_neg (by simp)]
  · rw [documentedIndex, if_neg fun h => hdec h.1, if_neg fun h => hdec h.1]

theorem documentedRouteInfo_eq (hul : ReadsDecimals env) {i : ℕ}
    (hlen : (ifIps s.ifs i).length ≤ bstgwMaxNetifIps) (opts : List Token) :
    documentedRouteInfo s i opts =
      if indexPasses env s i opts ∧ optsForm opts then some (readRoute env i opts) else none := by
  match opts with
  | [] => rfl
  | [idx] =>
    rw [documentedRouteInfo, documentedIndex_eq hul hlen idx []]
    by_cases h : isDecimal idx ∧ indexPasses env s i [idx]
    · simp [h, optsForm, readRoute]
    · rw [if_neg h, if_neg fun h' => h ⟨h'.2, h'.1⟩]
      rfl
  | [idx, hop] =>
    rw [documentedRouteInfo, documentedIndex_eq hul hlen idx [hop]]
    by_cases h : isDecimal idx ∧ indexPasses env s i [idx, hop]
    · cases hhop : inetPton hop <;> simp [h, optsForm, readRoute, readAddr, hhop]
    · rw [if_neg h, if_neg fun h' => ?_]
      · rfl
      · have hform : isDecimal idx ∧ (inetPton hop).isSome := by simpa [optsForm] using h'.2
        exact h ⟨hform.1, h'.1⟩
  | _ :: _ :: _ :: _ => simp [documentedRouteInfo, optsForm]

end Words

/-! ### The command `route` -/

section Grammar

variable {Net : Type} [DecidableEq Net] (env : ConfEnv Net) (s : ConfState Net)

/-- A route that was inserted. -/
def ConfState.addRoute (s : ConfState Net) (net : Net) (rt : RouteInfo) : ConfState Net :=
  { s with adds := s.adds + 1, rtable := Function.update s.rtable net (some rt) }

/-- `route <dst-ip/cidr> <out-if-name> …`, behind the command.  The insertion has to succeed. -/
def documentedRoute : List Token → Option (ConfState Net)
  | cidr :: ifname :: opts =>
    let i := ifnetNametoindex s.ifs ifname
    if 0 < i ∧ env.calloc s.adds ∧ env.lpmInsert s.adds then
      (env.lpmStrtobin cidr).bind fun net => (documentedRouteInfo s i opts).map (s.addRoute net)
    else none
  | _ => none

/-- What `route` needs to look like. -/
def routeForm : List Token → Bool
  | cmd :: _ :: _ :: opts => decide (cmd = routeWord) && optsForm opts
  | _ => false

/-- The parts of `if_ips` that are used are in the array. -/
def WithinArrays : Prop := ∀ i, 0 < i → (ifIps s.ifs i).length ≤ bstgwMaxNetifIps

variable {env s}

theorem outcome_parseRoute (cmd cidr ifname : Token) (opts : List Token) :
    outcome s (parseRoute env (cmd :: cidr :: ifname :: opts)) =
      if routePasses env s (cidr :: ifname :: opts) then
        (env.lpmStrtobin cidr).elim (.error none) fun net =>
          .ok (s.addRoute net (readRoute env (ifnetNametoindex s.ifs ifname) opts))
      else .error none := by
  refine outcome_eq_of_wp ?_
  simp only [parseRoute]
  cases hnet : env.lpmStrtobin cidr with
  | none => simp [routePasses, hnet]
  | some net =>
    simp only [wp_bind, wp_get]
    refine wp_ite.mpr ⟨fun hz => ?_, fun hne => ?_⟩
    · simp [routePasses, hz]
    have hpos : 0 < ifnetNametoindex s.ifs ifname := Nat.pos_of_ne_zero hne
    refine (wp_routeInfo hpos (ifnetNametoindex_le s.ifs ifname) opts).seq ?_
    intro r s' h
    rw [h.1, h.2]
    cases hidx : indexPasses env s (ifnetNametoindex s.ifs ifname) opts with
    | false => simp [routePasses, hidx]
    | true =>
      simp only [if_true, routeAdd, wp_bind, wp_get, wp_modify]
      refine wp_ite.mpr ⟨fun hmem => ?_, fun hmem => ?_⟩
      · simp [routePasses, hmem]
      refine wp_ite.mpr ⟨fun hins => ?_, fun hins => ?_⟩
      · simp [routePasses, hins]
      · have hpass : routePasses env s (cidr :: ifname :: opts) = true := by
          rw [not_not] at hmem hins
          simp [routePasses, hnet, hpos, hidx, hmem, hins]
        simp [hpass, ConfState.addRoute]

theorem documentedRoute_eq (hul : ReadsDecimals env) (hin : WithinArrays s) (cidr ifname : Token)
    (opts : List Token) :
    documentedRoute env s (cidr :: ifname :: opts) =
      if routePasses env s (cidr :: ifname :: opts) ∧ optsForm opts then
        (env.lpmStrtobin cidr).map fun net =>
          s.addRoute net (readRoute env (ifnetNametoindex s.ifs ifname) opts)
      else none := by
  simp only [documentedRoute]
  by_cases hpos : 0 < ifnetNametoindex s.ifs ifname
  · rw [documentedRouteInfo_eq hul (hin _ hpos)]
    cases hnet : env.lpmStrtobin cidr with
    | none => simp [routePasses, hnet]
    | some net =>
      by_cases hmem : env.calloc s.adds = true ∧ env.lpmInsert s.adds = true
      · rw [if_pos ⟨hpos, hmem⟩]
        simp [routePasses, hnet, hpos, hmem]
      · rw [if_neg fun h => hmem h.2, if_neg fun h => hmem ?_]
        have hpass := h.1
        simp only [routePasses, Bool.and_eq_true] at hpass
        exact ⟨hpass.1.2, hpass.2⟩
  · simp [routePasses, hpos]

/-- A `route` command is read as documented exactly if it has the form or does not pass. -/
theorem route_iff (hul : ReadsDecimals env) (hin : WithinArrays s) (cmd : Token)
    (args : List Token) :
    outcome s (parseRoute env (cmd :: args)) =
        (if cmd = routeWord then documentedRoute env s args else none).elim (.error none) .ok ↔
      (routePasses env s args → routeForm (cmd :: args)) := by
  match args with
  | [] =>
    have hfew : outcome s (parseRoute env [cmd]) = .error none := rfl
    simp [hfew, routePasses, documentedRoute]
  | [cidr] =>
    have hfew : outcome s (parseRoute env [cmd, cidr]) = .error none := rfl
    simp [hfew, routePasses, documentedRoute]
  | cidr :: ifname :: opts =>
    rw [documentedRoute_eq hul hin, outcome_parseRoute]
    cases hp : routePasses env s (cidr :: ifname :: opts) with
    | false => simp
    | true =>
      obtain ⟨net, hnet⟩ : ∃ net, env.lpmStrtobin cidr = some net := by
        simp only [routePasses, Bool.and_eq_true] at hp
        exact Option.isSome_iff_exists.mp hp.1.1.1.1
      by_cases hcmd : cmd = routeWord
      · cases hopts : optsForm opts <;> simp [hcmd, hopts, hnet, routeForm]
      · simp [hcmd, hnet, routeForm]

/-! ## Lines -/

variable (env s)

/-- What the words of a line denote. -/
def documentedCommand : List Token → Option (ConfState Net)
  | [] => some s
  | cmd :: args =>
    if cmd = ifconfigWord then documentedIfconfig s args
    else if cmd = routeWord then documentedRoute env s args
    else none

/-- What a line denotes. -/
def documentedLine (line : Token) : Option (ConfState Net) :=
  if line.head? = some '#' then some s else documentedCommand env s (words line)

/-- One line in the loop of `parse_config`. -/
def parseLine (line : Token) : ConfM Net ℤ :=
  if line.head? = some '#' ∨ strTokenize line 5 = [] then return 0
  else parseCommand env (strTokenize line 5)

def lineStep (line : Token) : Except (Option Abort) (ConfState Net) :=
  outcome s (parseLine env line)

/-- The line is read as documented. -/
def LineDocumented (line : Token) : Prop :=
  lineStep env s line = (documentedLine env s line).elim (.error none) .ok

/-- Where the checks of the parser pass, the words have the documented form. -/
def PlainWords (ws : List Token) : Prop :=
  (isCommand "route" ws → routePasses env s ws.tail → routeForm ws) ∧
    (isCommand "ifconfig" ws → ifconfigPasses s ws.tail → ifconfigForm ws)

/-- A comment, or a line without empty tokens whose words are plain. -/
def PlainLine (line : Token) : Prop :=
  line.head? = some '#' ∨ [] ∉ strTokenize line 5 ∧ PlainWords env s (words line)

instance (ws : List Token) : Decidable (PlainWords env s ws) :=
  inferInstanceAs (Decidable ((_ → _ → _) ∧ (_ → _ → _)))

instance (line : Token) : Decidable (PlainLine env s line) :=
  inferInstanceAs (Decidable (_ ∨ _ ∧ _))

variable {env s}

/-- The parser looks at the first five words only. -/
theorem parseCommand_take (ws : List Token) :
    parseCommand env (ws.take 5) = parseCommand env ws := by
  match ws with
  | [] | [_] | [_, _] | [_, _, _] | [_, _, _, _] | _ :: _ :: _ :: _ :: _ :: _ => rfl

/-- A command is read as documented exactly if its words are plain. -/
theorem command_iff (hul : ReadsDecimals env) (hin : WithinArrays s) (cmd : Token)
    (args : List Token) :
    outcome s (parseCommand env (cmd :: args)) =
        (documentedCommand env s (cmd :: args)).elim (.error none) .ok ↔
      PlainWords env s (cmd :: args) := by
  rw [parseCommand, documentedCommand, PlainWords, List.tail_cons]
  by_cases hr : isCommand "route" (cmd :: args) = true
  · have hi : ¬ isCommand "ifconfig" (cmd :: args) = true := not_ifconfig_of_route hr
    have hne : cmd ≠ ifconfigWord := by
      rintro rfl
      exact hi rfl
    rw [if_pos hr, if_neg hne, route_iff hul hin]
    simp [hr, hi]
  · have hnr : cmd ≠ routeWord := by
      rintro rfl
      exact hr rfl
    rw [if_neg hr, if_neg hnr]
    by_cases hi : isCommand "ifconfig" (cmd :: args) = true
    · rw [if_pos hi, ifconfig_iff]
      simp [hr, hi]
    · have hne : cmd ≠ ifconfigWord := by
        rintro rfl
        exact hi rfl
      have hout : outcome s (pure (-1) : ConfM Net ℤ) = .error none := rfl
      rw [if_neg hi, if_neg hne, hout]
      simp [hr, hi]

/-- **One line.**  Without empty tokens it is read as documented exactly if it is plain. -/
theorem lineStep_eq_iff (hul : ReadsDecimals env) (hin : WithinArrays s) {line : Token}
    (hclean : line.head? = some '#' ∨ [] ∉ strTokenize line 5) :
    LineDocumented env s line ↔ PlainLine env s line := by
  unfold LineDocumented lineStep parseLine documentedLine PlainLine
  by_cases hcomment : line.head? = some '#'
  · have hout : outcome s (pure 0 : ConfM Net ℤ) = .ok s := rfl
    simp [hcomment, hout]
  · have hempty := hclean.resolve_left hcomment
    have htokens := strTokenize_eq_words hempty
    cases hw : words line with
    | nil =>
      have hout : outcome s (pure 0 : ConfM Net ℤ) = .ok s := rfl
      rw [hw, List.take_nil] at htokens
      simp [hcomment, htokens, hout, documentedCommand, PlainWords, isCommand, strcasecmp]
    | cons cmd args =>
      have htake : strTokenize line 5 ≠ [] := by simp [htokens, hw]
      rw [if_neg (by simp [hcomment, htake]), if_neg hcomment, htokens, hw, parseCommand_take,
        command_iff hul hin, ← hw, ← htokens]
      simp [hcomment, hempty]

/-- The lines leave the addresses in their arrays. -/
theorem WithinArrays.lineStep {s' : ConfState Net} (hin : WithinArrays s) {line : Token}
    (h : lineStep env s line = .ok s') : WithinArrays s' := by
  unfold Router.lineStep parseLine at h
  split at h
  · cases h
    exact hin
  unfold parseCommand at h
  split at h
  · obtain ⟨r, hne, hrun⟩ := exists_run_of_outcome_ok h
    obtain ⟨-, -, -, -, hifs, -⟩ := (post_parseRoute env).ok hrun hne
    unfold WithinArrays
    rwa [hifs]
  split at h
  · match htokens : strTokenize line 5 with
    | [] | [_] =>
      rw [htokens] at h
      cases h
    | cmd :: ifname :: rest =>
      rw [htokens, outcome_parseIfconfig] at h
      split at h
      · next hpass =>
        simp only [ifconfigPasses, Bool.and_eq_true, decide_eq_true_eq] at hpass
        obtain ⟨hpos, hroom⟩ := hpass
        cases rest with
        | nil => cases h
        | cons addr rest =>
          cases h
          intro i hi
          rw [ConfState.addIp, ifIps_modify hi hpos (ifnetNametoindex_le s.ifs ifname)]
          split
          · next hij =>
            rw [List.length_append, hij]
            exact hroom
          · exact hin i hi
      · cases h
  · cases h

/-! ## Files -/

variable (env s)

/-- What a file denotes, if it is in the language. -/
def documentedConfig (configStr : Token) : Option (ConfState Net) :=
  (fileLines configStr).foldlM (documentedLine env) s

/-- **The file is parsed as documented**: it is accepted exactly when it is in the language, and
then interfaces and routes are those that it denotes. -/
def ParsedAsDocumented (configStr : Token) : Prop :=
  match documentedConfig env s configStr with
  | some s' => runFrom (parseConfig env configStr) s = (.ok 0, s')
  | none => ∃ s', runFrom (parseConfig env configStr) s = (.ok (-1), s')

/-- The loop reads these lines as documented. -/
def LinesDocumented (ls : List Token) : Prop :=
  match ls.foldlM (documentedLine env) s with
  | some s' => runFrom (parseLines env ls) s = (.ok 0, s')
  | none => ∃ s', runFrom (parseLines env ls) s = (.ok (-1), s')

variable {env s}

/-- What is returned then, and the interfaces. -/
theorem ParsedAsDocumented.result {configStr : Token} (h : ParsedAsDocumented env s configStr) :
    (runFrom (parseConfig env configStr) s).1 =
        .ok (if (documentedConfig env s configStr).isSome then 0 else -1) ∧
      ∀ s', documentedConfig env s configStr = some s' →
        (runFrom (parseConfig env configStr) s).2.ifs = s'.ifs := by
  unfold ParsedAsDocumented at h
  cases hdoc : documentedConfig env s configStr with
  | none =>
    rw [hdoc] at h
    obtain ⟨s', h⟩ := h
    exact ⟨by rw [h]; rfl, by simp⟩
  | some s' =>
    rw [hdoc] at h
    refine ⟨by rw [h]; rfl, ?_⟩
    rintro _ ⟨⟩
    rw [h]

theorem parseLines_cons (line : Token) (ls : List Token) :
    parseLines env (line :: ls) =
      parseLine env line >>= fun r => if r = -1 then pure (-1) else parseLines env ls := by
  rw [parseLines, parseLine]
  by_cases hc : line.head? = some '#'
  · simp [hc]
  · by_cases ht : strTokenize line 5 = [] <;> simp [hc, ht]

/-- An empty line at the end makes no difference. -/
theorem parseLines_snoc_nil (ls : List Token) :
    parseLines env (ls ++ [[]]) = parseLines env ls := by
  induction ls with
  | nil => simp [parseLines, strTokenize, strsepAll, strsepFrom]
  | cons line ls ih => rw [List.cons_append, parseLines_cons, parseLines_cons, ih]

theorem parseConfig_eq (configStr : Token) :
    parseConfig env configStr =
      if env.strdup then parseLines env (fileLines configStr) else return -1 := by
  unfold parseConfig fileLines
  rcases splitOnP_eq_strsepAll ['\n'] configStr with h | h
  · rw [h]
  · rw [h, parseLines_snoc_nil]

/-- After a line that is accepted as documented, the other lines count. -/
theorem linesDocumented_cons_of_ok {s₁ : ConfState Net} {line : Token} {ls : List Token}
    (hstep : lineStep env s line = .ok s₁) (hdoc : documentedLine env s line = some s₁) :
    LinesDocumented env s (line :: ls) ↔ LinesDocumented env s₁ ls := by
  obtain ⟨r, hne, hrun⟩ := exists_run_of_outcome_ok hstep
  unfold LinesDocumented
  rw [List.foldlM_cons, hdoc, parseLines_cons, runFrom_bind, hrun]
  simp only [if_neg hne]
  rfl

/-- A line that is read as documented. -/
theorem LineDocumented.cons {line : Token} {ls : List Token} (hline : LineDocumented env s line)
    (hrest : ∀ s₁, lineStep env s line = .ok s₁ → LinesDocumented env s₁ ls) :
    LinesDocumented env s (line :: ls) := by
  unfold LineDocumented at hline
  cases hdoc : documentedLine env s line with
  | none =>
    rw [hdoc] at hline
    obtain ⟨s', hrun⟩ := exists_run_of_outcome_rejected hline
    unfold LinesDocumented
    rw [List.foldlM_cons, hdoc, parseLines_cons, runFrom_bind, hrun]
    exact ⟨s', rfl⟩
  | some s₁ =>
    rw [hdoc] at hline
    exact (linesDocumented_cons_of_ok hline hdoc).mpr (hrest s₁ hline)

/-- A file of one line. -/
theorem lineDocumented_of_singleton {line : Token} (h : LinesDocumented env s [line]) :
    LineDocumented env s line := by
  unfold LinesDocumented at h
  rw [List.foldlM_cons, parseLines_cons, runFrom_bind] at h
  unfold LineDocumented lineStep outcome
  rcases hrun : runFrom (parseLine env line) s with ⟨e | r, s₁⟩ <;> rw [hrun] at h <;>
    cases hdoc : documentedLine env s line <;> rw [hdoc] at h
  · obtain ⟨_, h⟩ := h
    cases h
  · cases h
  · obtain ⟨_, h⟩ := h
    by_cases hr : r = -1
    · simp [hr]
    · simp only [if_neg hr] at h
      cases h
  · by_cases hr : r = -1
    · simp only [if_pos hr] at h
      cases h
    · simp only [if_neg hr] at h
      cases h
      simp [hr]

/-- The beginnings of a file are read as documented exactly if all lines are. -/
theorem forall_linesDocumented_iff {ls : List Token} :
    (∀ ls', ls' <+: ls → LinesDocumented env s ls') ↔
      EachStep (lineStep env) (LineDocumented env) s ls := by
  induction ls generalizing s with
  | nil =>
    refine ⟨fun _ => trivial, fun _ ls' hpre => ?_⟩
    rw [List.prefix_nil.mp hpre]
    rfl
  | cons line ls ih =>
    constructor
    · intro h
      have hline := lineDocumented_of_singleton (h [line] (by simp))
      refine ⟨hline, fun s₁ hstep => ih.mp fun ls' hpre => ?_⟩
      have hdoc : documentedLine env s line = some s₁ := by
        unfold LineDocumented at hline
        rw [hstep] at hline
        cases hd : documentedLine env s line <;> rw [hd] at hline <;> cases hline
        rfl
      have hboth := h (line :: ls') (List.cons_prefix_cons.mpr ⟨rfl, hpre⟩)
      exact (linesDocumented_cons_of_ok hstep hdoc).mp hboth
    · rintro ⟨hline, hrest⟩ ls' hpre
      rcases List.prefix_cons_iff.mp hpre with rfl | ⟨ls'', rfl, htail⟩
      · rfl
      · exact hline.cons fun s₁ hstep => ih.mpr (hrest s₁ hstep) ls'' htail

/-- **The language of the parser.**  If there is memory for the copy of the file and every line that
the loop comes to is plain, then the file is accepted exactly when it is in the documented language,
no missing word is used, and interfaces and routes are those that the file denotes.  Without empty
tokens this is exact: the file and all beginnings of it are read as documented only if every line
is plain. -/
theorem config_language (hul : ReadsDecimals env) (hin : WithinArrays s) (configStr : Token) :
    (env.strdup = true → EachStep (lineStep env) (PlainLine env) s (fileLines configStr) →
      ParsedAsDocumented env s configStr) ∧
    ((∀ line ∈ fileLines configStr, line.head? = some '#' ∨ [] ∉ strTokenize line 5) →
      ((∀ ls, ls <+: fileLines configStr → LinesDocumented env s ls) ↔
        EachStep (lineStep env) (PlainLine env) s (fileLines configStr))) := by
  have hkeep : ∀ (P : ConfState Net → Token → Prop) s line s', WithinArrays s →
      P s line → LineDocumented env s line → lineStep env s line = .ok s' → WithinArrays s' :=
    fun _ _ _ _ hin _ _ hs => hin.lineStep hs
  constructor
  · intro hdup hplain
    have heach : EachStep (lineStep env) (LineDocumented env) s (fileLines configStr) := by
      refine (eachStep_iff (hkeep (PlainLine env)) (fun s line hin hA => ?_) hplain hin).mpr hplain
      exact lineStep_eq_iff hul hin (hA.imp_right And.left)
    have hall := forall_linesDocumented_iff.mpr heach _ List.prefix_rfl
    unfold ParsedAsDocumented
    rw [parseConfig_eq, if_pos hdup]
    exact hall
  · intro hclean
    rw [forall_linesDocumented_iff]
    exact eachStep_iff (hkeep fun _ line => line.head? = some '#' ∨ [] ∉ strTokenize line 5)
      (fun _ _ hin hA => lineStep_eq_iff hul hin hA) (eachStep_of_forall hclean) hin

end Grammar

section Demo

/-- The libraries of `demoConf`, with the limit of `strtoul`. -/
def demoLibs : ConfEnv Token :=
  { demoConf with strtoul := fun token => min (decimalValue token) (2 ^ 32 - 1) }

theorem readsDecimals_demoLibs : ReadsDecimals demoLibs := fun _ _ => rfl

theorem withinArrays_demoIfs (names : List String) : WithinArrays (demoIfs names) := by
  intro i _
  rw [demoIfs, ifIps, List.getElem?_map]
  cases names[i - 1]? with
  | none => decide
  | some name => exact Nat.zero_le _

/-- `router_config_str`. -/
def routerConfigStr : Token :=
  "ifconfig NW 192.168.178.11\nifconfig NW 172.16.0.11\n".toList ++
    "ifconfig imx6q-fec 192.168.178.49\nifconfig imx6q-fec 172.16.0.49\n".toList ++
    "route 192.168.178.49/32 NW 0\nroute 172.16.0.49/32 NW 1\n".toList ++
    "route 192.168.178.0/24 imx6q-fec 0\nroute 172.16.0.0/24 imx6q-fec 1\n".toList

/-- The file that comes with the router is read as documented. -/
theorem config_language_routerConfigStr :
    (documentedConfig demoLibs (demoIfs ["NW", "imx6q-fec"]) routerConfigStr).isSome = true ∧
      ParsedAsDocumented demoLibs (demoIfs ["NW", "imx6q-fec"]) routerConfigStr := by
  refine ⟨by decide +kernel, ?_⟩
  exact (config_language readsDecimals_demoLibs (withinArrays_demoIfs _) routerConfigStr).1 rfl
    (by decide +kernel)

/-- Two blanks in front of the address. -/
def demoTwoBlanks : Token := "ifconfig NW  192.168.178.11\n".toList

/-- A text that is no address, and no text at all. -/
def demoNoAddress : Token := "ifconfig NW 300.1.1.1\n".toList

def demoShort : Token := "ifconfig NW\n".toList

/-- A line of one blank is refused.  Two blanks in front of the address make it 0.0.0.0.  A text
that is no address is accepted, and without one a null pointer is used. -/
theorem config_language_fails :
    (¬ ParsedAsDocumented demoLibs (demoIfs ["NW"]) " \n".toList ∧
      (runFrom (parseConfig demoLibs " \n".toList) (demoIfs ["NW"])).1 = .ok (-1)) ∧
    (¬ ParsedAsDocumented demoLibs (demoIfs ["NW"]) demoTwoBlanks ∧
      (runFrom (parseConfig demoLibs demoTwoBlanks) (demoIfs ["NW"])).1 = .ok 0 ∧
      (runFrom (parseConfig demoLibs demoTwoBlanks) (demoIfs ["NW"])).2.ifs.map IfConf.ips =
        [[![0, 0, 0, 0]]]) ∧
    (¬ ParsedAsDocumented demoLibs (demoIfs ["NW"]) demoNoAddress ∧
      (runFrom (parseConfig demoLibs demoNoAddress) (demoIfs ["NW"])).1 = .ok 0) ∧
    ¬ ParsedAsDocumented demoLibs (demoIfs ["NW"]) demoShort ∧
      (runFrom (parseConfig demoLibs demoShort) (demoIfs ["NW"])).1 = .error .nullDeref := by
  refine ⟨⟨fun h => ?_, by decide +kernel⟩, ⟨fun h => ?_, by decide +kernel, by decide +kernel⟩,
    ⟨fun h => ?_, by decide +kernel⟩, fun h => ?_, by decide +kernel⟩
  · exact absurd h.result.1 (by decide +kernel)
  · obtain ⟨s', hdoc, hips⟩ : ∃ s', documentedConfig demoLibs (demoIfs ["NW"]) demoTwoBlanks =
        some s' ∧ s'.ifs.map IfConf.ips = [[![192, 168, 178, 11]]] :=
      Option.map_eq_some_iff.mp (by decide +kernel)
    rw [← h.result.2 s' hdoc] at hips
    exact absurd hips (by decide +kernel)
  · exact absurd h.result.1 (by decide +kernel)
  · exact absurd h.result.1 (by decide +kernel)

end Demo

end Router

end TrustedGateway
