import TrustedGateway.Lib.Prog
import TrustedGateway.Lib.Run
import TrustedGateway.ConfigService.Requests

/-!
# The bounds of the request buffer

The loop of `sw_read_https_req_data` as far as it moves the pointer `bp` and the lengths `data_len`
and `*req_idx`, all of them 32-bit words.  What is called on the way is open: `mbedtls_ssl_read`
returns any number up to the length it is given, `phr_parse_request` returns `-1`, `-2` or a number
of bytes it was given, the `Content-Length` line says anything, and a handler returns anything or
aborts.  Every use of the buffer is recorded with the values at that time.

A handled request moves `bp` to its size, counted from the start of the buffer, also when the
request itself began further on.  That is not where the rest is, but it is within bounds.

## Main results

* `turn_spec` — what a turn keeps.
* `request_buffer_in_bounds` — all uses are within bounds, and the check for consistency never
  fails.
-/

namespace TrustedGateway.RequestBuffer

open Programs StepSystem FlatMemory

/-! ## The source -/

/-- What the buffer is used for. -/
inductive Use
  | read
  | parse
  | handler
  | memmove
  /-- `data_len -= n` -/
  | subtract (n : ℕ)
  deriving DecidableEq, Repr

/-- A use with the values at that time. -/
structure Access where
  use : Use
  bp : ℕ
  dataLen : ℕ
  reqIdx : ℕ
  deriving DecidableEq, Repr

/-- The pointer as an offset into the buffer, the lengths and the flag of a client, and the uses
so far. -/
structure Cursor where
  bp : ℕ
  dataLen : ℕ
  reqIdx : ℕ
  isPartial : Bool
  log : List Access
  deriving DecidableEq, Repr

/-- The `abort()` calls within the loop. -/
inductive LoopAbort
  /-- `data_len != *req_idx || bp != req_buf` -/
  | inconsistent
  | contentLength
  | handler
  deriving DecidableEq, Repr

abbrev LoopM := Prog LoopAbort Cursor

/-- What the header lines say about a body; a value of more than ten bytes aborts. -/
inductive Announced
  | absent
  | tooLong
  | invalid
  | length (n : ℕ)
  deriving DecidableEq, Repr

/-- What is called in one turn: the results of `mbedtls_ssl_read` and `phr_parse_request` by the
length they are given, the `Content-Length`, and the result of the handler, or nothing when it
aborts. -/
structure TurnAns where
  read : ℕ → ℤ
  parse : ℕ → ℤ
  content : Announced
  handler : Option ℤ

/-- Nobody returns more than it was given. -/
structure TurnAns.Ok (ans : TurnAns) : Prop where
  read : ∀ len, ans.read len ≤ len
  parse : ∀ len, ans.parse len = -1 ∨ ans.parse len = -2 ∨ 0 < ans.parse len ∧ ans.parse len ≤ len

/-- How a turn ends. -/
inductive LoopEnd
  | again
  | ret (code : ℤ)
  deriving DecidableEq, Repr

/-- The difference of two `size_t` values. -/
def subSize (a b : ℕ) : ℕ := (a + 2 ^ 32 - b % 2 ^ 32) % 2 ^ 32

/-- Record a use of the buffer. -/
def touch (u : Use) : LoopM Unit :=
  modify fun c => { c with log := c.log ++ [⟨u, c.bp, c.dataLen, c.reqIdx⟩] }

/-- `MOVE_REST_TO_BUF_HEAD`. -/
def moveRest : LoopM Unit := do
  if (← get).bp ≠ 0 then
    touch .memmove
    modify fun c => { c with reqIdx := c.dataLen, bp := 0 }

/-- The reading part of a turn: the return value of a read that gave nothing. -/
def fill (ans : TurnAns) : LoopM (Option ℤ) := do
  let c ← get
  if c.dataLen = 0 ∨ c.isPartial then
    if c.dataLen ≠ c.reqIdx ∨ c.bp ≠ 0 then throw .inconsistent
    touch .read
    let ret := ans.read (subSize reqBufSize c.reqIdx)
    if ret ≤ 0 then return some ret
    modify fun c =>
      let reqIdx := addSize c.reqIdx ret.toNat
      { c with reqIdx := reqIdx, bp := 0, dataLen := reqIdx }
  return none

/-- The request of `nparsed + bodyLen` bytes is handled. -/
def handleAt (ans : TurnAns) (nparsed bodyLen : ℕ) : LoopM LoopEnd := do
  let size := addSize nparsed bodyLen
  touch (.subtract size)
  modify fun c => { c with isPartial := false, bp := size, dataLen := subSize c.dataLen size }
  touch .handler
  match ans.handler with
  | none => throw .handler
  | some ret =>
    if ret ≠ 0 then
      moveRest
      return .ret ret
    if (← get).dataLen = 0 then modify fun c => { c with bp := 0, reqIdx := 0 }
    return .again

/-- The request is incomplete: it is moved to the head of the buffer. -/
def waitForMore : LoopM LoopEnd := do
  moveRest
  modify fun c => { c with isPartial := true }
  return .again

/-- The rest of a turn, from the parser on. -/
def look (ans : TurnAns) : LoopM LoopEnd := do
  touch .parse
  let dataLen := (← get).dataLen
  let nparsed := ans.parse dataLen
  if nparsed = -1 then return .ret (-1)
  if nparsed = -2 then waitForMore
  else
    let nparsed := nparsed.toNat
    match ans.content with
    | .tooLong => throw .contentLength
    | .invalid => return .ret (-1)
    | .absent => handleAt ans nparsed 0
    | .length n =>
      if 0 < n ∧ subSize dataLen nparsed < n then
        if reqBufSize < addSize dataLen n then return .ret requestIsTooLongError
        waitForMore
      else handleAt ans nparsed n

/-- One turn of the loop. -/
def turn (ans : TurnAns) : LoopM LoopEnd := do
  match ← fill ans with
  | some ret => return .ret ret
  | none => look ans

/-! ## The invariant -/

/-- The bytes in use lie within those received, and these within the buffer; what is subtracted is
not more than there is. -/
def Access.InBounds (a : Access) : Prop :=
  a.bp + a.dataLen ≤ a.reqIdx ∧ a.reqIdx ≤ reqBufSize ∧ ∀ n, a.use = .subtract n → n ≤ a.dataLen

/-- All uses so far were within bounds. -/
def LogOk (c : Cursor) : Prop := ∀ a ∈ c.log, a.InBounds

/-- The bytes in use lie within those received. -/
def Within (c : Cursor) : Prop := c.bp + c.dataLen ≤ c.reqIdx ∧ c.reqIdx ≤ reqBufSize

/-- At the head of the loop: a pointer to the start of the buffer goes with all that was received,
and that is where it points when new data is to be read. -/
structure InLoop (c : Cursor) : Prop where
  within : Within c
  whole : c.bp = 0 → c.dataLen = c.reqIdx
  atHead : c.dataLen = 0 ∨ c.isPartial → c.bp = 0

section Parts
variable {c : Cursor} {ans : TurnAns} {E : LoopAbort → Cursor → Prop} {nparsed bodyLen : ℕ}

theorem subSize_of_le {a b : ℕ} (hab : b ≤ a) (ha : a < 2 ^ 32) : subSize a b = a - b := by
  unfold subSize
  omega

/-- A use within bounds. -/
theorem LogOk.touch (hl : LogOk c) (u : Use) (hw : Within c)
    (hu : ∀ n, u = .subtract n → n ≤ c.dataLen) :
    LogOk { c with log := c.log ++ [⟨u, c.bp, c.dataLen, c.reqIdx⟩] } := by
  intro a ha
  rcases List.mem_append.mp ha with ha | ha
  · exact hl a ha
  · rw [List.mem_singleton.mp ha]
    exact ⟨hw.1, hw.2, hu⟩

theorem moveRest_spec (hl : LogOk c) (hw : Within c) :
    Wp E moveRest (fun _ c' => LogOk c' ∧ c'.bp = 0 ∧ c'.dataLen = c.dataLen ∧
      c'.reqIdx = (if c.bp = 0 then c.reqIdx else c.dataLen)) c := by
  have hno : ∀ n, Use.memmove = .subtract n → n ≤ c.dataLen := by
    intro n h
    cases h
  simp only [moveRest, touch, wp_bind, wp_get, wp_ite, wp_modify, wp_pure]
  refine ⟨fun hbp => ?_, fun hbp => ?_⟩
  · rw [if_neg hbp]
    exact ⟨hl.touch .memmove hw hno, trivial, trivial, rfl⟩
  · rw [not_not] at hbp
    rw [if_pos hbp]
    exact ⟨hl, hbp, trivial, rfl⟩

/-- The reading part passes the check for consistency, and leaves some bytes to look at. -/
theorem fill_spec (hc : InLoop c) (hl : LogOk c) (ha : ans.Ok) :
    Wp (fun _ _ => False) (fill ans) (fun r c' => LogOk c' ∧ Within c' ∧
      (r = none → c'.dataLen ≠ 0 ∧ (c'.bp = 0 → c'.dataLen = c'.reqIdx))) c := by
  obtain ⟨⟨hin, hsize⟩, hwhole, hhead⟩ := hc
  have hno : ∀ n, Use.read = .subtract n → n ≤ c.dataLen := by
    intro n h
    cases h
  simp only [fill, touch, wp_bind, wp_get, wp_ite, wp_modify, wp_pure, wp_throw]
  refine ⟨fun hread => ?_, fun hread => ?_⟩
  · have hbp := hhead hread
    have hlen := hwhole hbp
    have hlog := hl.touch .read ⟨hin, hsize⟩ hno
    refine ⟨fun hbad => hbad.elim (fun h => h hlen) (fun h => h hbp), fun _ => ?_⟩
    refine ⟨fun hret => ⟨hlog, ⟨hin, hsize⟩, fun h => by cases h⟩, fun hret => ?_⟩
    have hmax := ha.read (subSize reqBufSize c.reqIdx)
    rw [subSize_of_le hsize (by decide)] at hmax hret ⊢
    have hsum : c.reqIdx + (ans.read (reqBufSize - c.reqIdx)).toNat ≤ reqBufSize := by omega
    have hlt : reqBufSize < 2 ^ 32 := by decide
    rw [addSize_of_lt (by omega)]
    refine ⟨hlog, ⟨?_, hsum⟩, fun _ => ⟨?_, fun _ => trivial⟩⟩
    · exact (Nat.zero_add _).le
    · omega
  · exact ⟨hl, ⟨hin, hsize⟩, fun _ => ⟨fun h => hread (.inl h), hwhole⟩⟩

/-- An incomplete request is moved to the head of the buffer. -/
theorem waitForMore_spec (hl : LogOk c) (hw : Within c) (hwhole : c.bp = 0 → c.dataLen = c.reqIdx) :
    Wp E waitForMore (fun r c' => LogOk c' ∧ r = .again ∧ InLoop c') c := by
  rw [waitForMore]
  refine (moveRest_spec hl hw).seq fun _ c' hmoved => ?_
  obtain ⟨hl', hbp, hlen, hidx⟩ := hmoved
  have hall : c'.dataLen = c'.reqIdx := by
    rw [hlen, hidx]
    split
    · next h => exact hwhole h
    · rfl
  have hsize : c'.reqIdx ≤ reqBufSize := by
    obtain ⟨hin, hsize⟩ := hw
    omega
  simp only [wp_bind, wp_modify, wp_pure]
  refine ⟨hl', trivial, ⟨?_, hsize⟩, fun _ => hall, fun _ => hbp⟩
  change c'.bp + c'.dataLen ≤ c'.reqIdx
  omega

/-- The request is taken off the bytes in use, and the rest is within bounds. -/
theorem handleAt_spec (hl : LogOk c) (hw : Within c) (hpos : 0 < nparsed)
    (hfits : nparsed + bodyLen ≤ c.dataLen) :
    Wp (fun e c' => e ≠ .inconsistent ∧ LogOk c') (handleAt ans nparsed bodyLen)
      (fun r c' => LogOk c' ∧ c'.reqIdx ≤ reqBufSize ∧ (r = .again → InLoop c')) c := by
  obtain ⟨hin, hsize⟩ := hw
  have hlt : reqBufSize < 2 ^ 32 := by decide
  have hadd : addSize nparsed bodyLen = nparsed + bodyLen := addSize_of_lt (by omega)
  have hsub : subSize c.dataLen (nparsed + bodyLen) = c.dataLen - (nparsed + bodyLen) :=
    subSize_of_le hfits (by omega)
  have hl₁ := hl.touch (.subtract (nparsed + bodyLen)) ⟨hin, hsize⟩ fun n h => by
    cases h
    exact hfits
  simp only [handleAt, hadd, touch, wp_bind, wp_modify, hsub]
  set c₁ : Cursor := { c with
    log := c.log ++ [⟨.subtract (nparsed + bodyLen), c.bp, c.dataLen, c.reqIdx⟩]
    isPartial := false
    bp := nparsed + bodyLen
    dataLen := c.dataLen - (nparsed + bodyLen) } with hc₁
  have hw₁ : Within c₁ := by
    refine ⟨?_, hsize⟩
    change nparsed + bodyLen + (c.dataLen - (nparsed + bodyLen)) ≤ c.reqIdx
    omega
  have hl₂ := LogOk.touch (c := c₁) hl₁ .handler hw₁ fun n h => by cases h
  set c₂ : Cursor :=
    { c₁ with log := c₁.log ++ [⟨.handler, c₁.bp, c₁.dataLen, c₁.reqIdx⟩] } with hc₂
  have hw₂ : Within c₂ := hw₁
  cases ans.handler with
  | none => exact ⟨by decide, hl₂⟩
  | some ret =>
    simp only [wp_bind, wp_ite, wp_get, wp_modify, wp_pure]
    refine ⟨fun hret => ?_, fun hret => ?_⟩
    · refine (moveRest_spec hl₂ hw₂).imp fun _ c' hmoved => ⟨hmoved.1, ?_, fun h => by cases h⟩
      obtain ⟨-, -, -, hidx⟩ := hmoved
      rw [hidx]
      change (if nparsed + bodyLen = 0 then c.reqIdx else c.dataLen - (nparsed + bodyLen)) ≤ _
      split <;> omega
    · refine ⟨fun hnone => ⟨hl₂, Nat.zero_le _, fun _ => ?_⟩,
        fun hsome => ⟨hl₂, hsize, fun _ => ?_⟩⟩
      · change c.dataLen - (nparsed + bodyLen) = 0 at hnone
        exact ⟨⟨(Nat.zero_add _).le.trans hnone.le, Nat.zero_le _⟩, fun _ => hnone, fun _ => rfl⟩
      · refine ⟨hw₂, fun hbp => ?_, fun h => ?_⟩
        · change nparsed + bodyLen = 0 at hbp
          omega
        · rcases h with h | h
          · exact absurd h hsome
          · cases h

/-- What a turn keeps.  It never fails the check for consistency. -/
theorem turn_spec (hc : InLoop c) (hl : LogOk c) (ha : ans.Ok) :
    Wp (fun e c' => e ≠ .inconsistent ∧ LogOk c') (turn ans)
      (fun r c' => LogOk c' ∧ c'.reqIdx ≤ reqBufSize ∧ (r = .again → InLoop c')) c := by
  rw [turn]
  refine ((fill_spec hc hl ha).mono (fun _ _ => False.elim) fun _ _ => id).seq ?_
  rintro (_ | ret) c₁ ⟨hl₁, hw₁, hready⟩
  · obtain ⟨hne, hwhole⟩ := hready rfl
    have hl₂ := hl₁.touch .parse hw₁ fun n h => by cases h
    have hwait := waitForMore_spec (E := fun e c' => e ≠ .inconsistent ∧ LogOk c') hl₂ hw₁ hwhole
    have hwait' := hwait.imp (R := fun r c' => LogOk c' ∧ c'.reqIdx ≤ reqBufSize ∧
      (r = .again → InLoop c')) fun r c' h => ⟨h.1, h.2.2.within.2, fun _ => h.2.2⟩
    simp only [look, touch, wp_bind, wp_modify, wp_get, wp_ite, wp_pure]
    refine ⟨fun _ => ⟨hl₂, hw₁.2, fun h => by cases h⟩,
      fun hbad => ⟨fun _ => hwait', fun hpart => ?_⟩⟩
    obtain ⟨hpos, hle⟩ := ((ha.parse c₁.dataLen).resolve_left hbad).resolve_left hpart
    cases hcontent : ans.content with
    | absent =>
      exact handleAt_spec hl₂ hw₁ (by omega) (show _ + 0 ≤ c₁.dataLen by omega)
    | tooLong => exact ⟨by decide, hl₂⟩
    | invalid => exact ⟨hl₂, hw₁.2, fun h => by cases h⟩
    | length n =>
      have hlt : reqBufSize < 2 ^ 32 := by decide
      obtain ⟨hin, hsize⟩ := hw₁
      have hsub : subSize c₁.dataLen (ans.parse c₁.dataLen).toNat =
          c₁.dataLen - (ans.parse c₁.dataLen).toNat := subSize_of_le (by omega) (by omega)
      simp only [wp_ite, wp_pure, hsub]
      refine ⟨fun hmiss => ⟨fun _ => ⟨hl₂, hsize, fun h => by cases h⟩, fun _ => hwait'⟩,
        fun hall => handleAt_spec hl₂ ⟨hin, hsize⟩ (by omega) ?_⟩
      change _ + n ≤ c₁.dataLen
      omega
  · exact ⟨hl₁, hw₁.2, fun h => by cases h⟩

end Parts

/-! ## Sessions -/

/-- Where the service is with a client. -/
inductive Where
  | outside
  | inLoop
  | aborted (e : LoopAbort)
  deriving DecidableEq, Repr

/-- A client's buffer from the handshake on. -/
structure Session where
  place : Where
  cursor : Cursor
  deriving DecidableEq, Repr

/-- `sw_init_http_cli`. -/
def Session.init : Session := ⟨.outside, ⟨0, 0, 0, false, []⟩⟩

/-- What happens to a client: `sw_read_https_req_data` comes to its loop, and the loop turns. -/
inductive SessionEvent
  | enter
  | turn (ans : TurnAns)

/-- Whatever is called keeps to its contract. -/
def SessionEvent.Ok : SessionEvent → Prop
  | .enter => True
  | .turn ans => ans.Ok

/-- One event; nothing happens after an abort, and an event out of place does nothing. -/
def sessionStep (s : Session) (ev : SessionEvent) : Session :=
  match ev, s.place with
  | .enter, .outside => ⟨.inLoop, { s.cursor with bp := 0, dataLen := s.cursor.reqIdx }⟩
  | .turn ans, .inLoop =>
    match runFrom (turn ans) s.cursor with
    | (.error e, c) => ⟨.aborted e, c⟩
    | (.ok (.ret _), c) => ⟨.outside, c⟩
    | (.ok .again, c) => ⟨.inLoop, c⟩
  | _, _ => s

/-- The invariant of a session. -/
structure SessionOk (s : Session) : Prop where
  log : LogOk s.cursor
  sound : s.place ≠ .aborted .inconsistent
  size : s.place = .outside → s.cursor.reqIdx ≤ reqBufSize
  inLoop : s.place = .inLoop → InLoop s.cursor

theorem SessionOk.init : SessionOk Session.init where
  log := fun a ha => by cases ha
  sound := fun h => by cases h
  size := fun _ => Nat.zero_le _
  inLoop := fun h => by cases h

theorem SessionOk.step {s : Session} {ev : SessionEvent} (hs : SessionOk s) (hev : ev.Ok) :
    SessionOk (sessionStep s ev) := by
  obtain ⟨place, c⟩ := s
  cases ev with
  | enter =>
    cases place with
    | outside =>
      refine ⟨hs.log, (fun h => by cases h), (fun h => by cases h), fun _ => ?_⟩
      exact ⟨⟨(Nat.zero_add _).le, hs.size rfl⟩, fun _ => rfl, fun _ => rfl⟩
    | inLoop | aborted e => exact hs
  | turn ans =>
    cases place with
    | outside | aborted e => exact hs
    | inLoop =>
      have hturn := turn_spec (hs.inLoop rfl) hs.log hev
      simp only [sessionStep]
      rcases hrun : runFrom (turn ans) c with ⟨e | (_ | ret), c'⟩
      · obtain ⟨hne, hl⟩ := hturn.error hrun
        refine ⟨hl, fun h => ?_, (fun h => by cases h), fun h => by cases h⟩
        cases h
        exact hne rfl
      · obtain ⟨hl, -, hin⟩ := hturn.ok hrun
        exact ⟨hl, (fun h => by cases h), (fun h => by cases h), fun _ => hin rfl⟩
      · obtain ⟨hl, hsize, -⟩ := hturn.ok hrun
        exact ⟨hl, (fun h => by cases h), (fun _ => hsize), fun h => by cases h⟩

theorem SessionOk.foldl {s : Session} {evs : List SessionEvent} (hs : SessionOk s)
    (hevs : ∀ ev ∈ evs, ev.Ok) : SessionOk (evs.foldl sessionStep s) := by
  induction evs generalizing s with
  | nil => exact hs
  | cons ev evs ih =>
    exact ih (hs.step (hevs ev List.mem_cons_self)) fun e he => hevs e (List.mem_cons_of_mem _ he)

/-- In every session each use of the buffer was within bounds, and the check for consistency has
not failed. -/
theorem request_buffer_in_bounds {evs : List SessionEvent} (hevs : ∀ ev ∈ evs, ev.Ok) :
    (∀ a ∈ (evs.foldl sessionStep Session.init).cursor.log, a.InBounds) ∧
      (evs.foldl sessionStep Session.init).place ≠ .aborted .inconsistent :=
  ⟨(SessionOk.init.foldl hevs).log, (SessionOk.init.foldl hevs).sound⟩

/-- A read of 90 bytes, and the parser finds a head of 30. -/
def thirtyOfNinety : TurnAns where
  read := fun len => if 90 ≤ len then 90 else 0
  parse := fun len => if 30 ≤ len then 30 else -2
  content := .length 0
  handler := some 0

theorem thirtyOfNinety_ok : thirtyOfNinety.Ok where
  read := fun len => by
    simp only [thirtyOfNinety]
    split <;> omega
  parse := fun len => by
    simp only [thirtyOfNinety]
    split <;> omega

/-- Three requests in one read: the second time the pointer does not move on. -/
def threeRequests : List SessionEvent :=
  [.enter, .turn thirtyOfNinety, .turn thirtyOfNinety, .turn thirtyOfNinety]

theorem request_buffer_threeRequests :
    (∀ a ∈ (threeRequests.foldl sessionStep Session.init).cursor.log, a.InBounds) ∧
      (threeRequests.foldl sessionStep Session.init).place ≠ .aborted .inconsistent ∧
      (threeRequests.foldl sessionStep Session.init).cursor.log.length = 10 := by
  have hevs : ∀ ev ∈ threeRequests, ev.Ok := by
    intro ev hev
    simp only [threeRequests, List.mem_cons, List.not_mem_nil, or_false] at hev
    rcases hev with rfl | rfl | rfl | rfl
    · trivial
    all_goals exact thirtyOfNinety_ok
  exact ⟨(request_buffer_in_bounds hevs).1, (request_buffer_in_bounds hevs).2, by decide⟩

end TrustedGateway.RequestBuffer
