import TrustedGateway.Lib.Heap
import TrustedGateway.ConfigService.Requests

/-!
# The web apps

`sw_fileio.c` keeps one file for each class of clients: four static pointers to heap blocks, which
are set by the command `LOAD_WEBAPP_FILE` and read, as C strings, by every `GET` of `/`.

A block has room for the file and a `NUL`, but the `NUL` is not written there.  The statement
`storage[file_len] = '\0'` indexes the pointer variable and not the block: it stores a null pointer
`4 * file_len` bytes behind the variable.  The last byte of the block stays what `malloc` left
there, so the string may go on behind the block, and the null pointer may hit another of the four
variables, or a file.  What else it may hit is not part of the model.

A `GET` changes nothing here, so it is asked after every load what any client would be sent.

## Main definitions

* `WebApps` — the four pointers with the blocks behind them, and the first file loaded of each
  class.
* `swInitWebappFile`, `getWebApp` — the source; `answerGet` — the answer of `handle_get_request`.
* `Served` — a client gets the first file loaded for its class, or a 403.
* `Harmless` — the null pointer hits nothing that is in use, and the block ends with a `NUL`.

## Main results

* `handleGetRequest_eq` — the answer to a `GET` of `/` depends on `getWebApp` alone.
* `webapps_verbatim_iff` — the files are served as they were loaded exactly when each load is
  harmless.
-/

namespace TrustedGateway.WebFiles

open StepSystem BlockHeap

/-! ## The source -/

/-- A block with a file: where it is, and its bytes. -/
structure AppBlock where
  addr : ℕ
  bytes : List Byte
  deriving DecidableEq, Repr

/-- The four static pointers, and the first file that was loaded for each class of clients. -/
structure WebApps where
  slot : ClientType → Option AppBlock
  loaded : ClientType → Option (List Byte)

/-- Nothing is loaded. -/
def WebApps.init : WebApps := ⟨fun _ => none, fun _ => none⟩

/-- A call of `sw_init_webapp_file`.  The signature is only compared with `NULL`; `block` is the
address `malloc` returns and the last byte of the new block. -/
structure LoadReq where
  fileBuffer : Option (List Byte)
  fileId : ℕ
  signed : Bool
  block : Option (ℕ × Byte)
  deriving DecidableEq, Repr

/-- The `file_id` of a class with a web app. -/
def fileType : ℕ → Option ClientType
  | 0 => some .user
  | 1 => some .admin
  | 2 => some .master
  | 3 => some .pending
  | _ => none

/-- The checks of `sw_init_webapp_file` and its `malloc`. -/
def checkWebappFile (s : WebApps) (r : LoadReq) : Option (ClientType × List Byte × ℕ × Byte) :=
  match r.fileBuffer, fileType r.fileId with
  | some file, some t =>
    if file = [] ∨ r.signed = false ∨ s.slot t ≠ none then none
    else r.block.map fun (addr, last) => (t, file, addr, last)
  | _, _ => none

/-- A word at address `p` covers the byte at `x`. -/
def Hits (p x : ℕ) : Prop := p ≤ x ∧ x < p + 4

instance (p x : ℕ) : Decidable (Hits p x) := inferInstanceAs (Decidable (_ ∧ _))

/-- The bytes from `x` on after zeroes were stored to the word at `p`. -/
def zeroWord (p : ℕ) : ℕ → List Byte → List Byte
  | _, [] => []
  | x, b :: bs => (if Hits p x then 0 else b) :: zeroWord p (x + 1) bs

/-- A null pointer is stored at `p`. -/
def WebApps.nullAt (layout : ClientType → ℕ) (p : ℕ) (s : WebApps) : WebApps :=
  { s with slot := fun t =>
      if layout t = p then none
      else (s.slot t).map fun b => { b with bytes := zeroWord p b.addr b.bytes } }

/-- The pointer is set, and the file counts as loaded if it is the first one. -/
def WebApps.store (s : WebApps) (t : ClientType) (file : List Byte) (b : AppBlock) : WebApps where
  slot := Function.update s.slot t (some b)
  loaded := Function.update s.loaded t ((s.loaded t).or (some file))

/-- Where the `NUL` goes. -/
def nulAddr (layout : ClientType → ℕ) (t : ClientType) (file : List Byte) : ℕ :=
  (layout t + 4 * file.length) % 2 ^ 32

/-- `sw_init_webapp_file`, with the addresses of the four pointers.  If `file_len + 1` runs over,
the block has no byte and the file is copied all the same. -/
def swInitWebappFile (layout : ClientType → ℕ) (s : WebApps) (r : LoadReq) :
    Except BlockHeap.Fault (ℤ × WebApps) :=
  match checkWebappFile s r with
  | none => .ok (-1, s)
  | some (t, file, addr, last) =>
    if 2 ^ 32 ≤ file.length + 1 then .error .overrun
    else .ok (0, (s.store t file ⟨addr, file ++ [last]⟩).nullAt layout (nulAddr layout t file))

/-- The bytes up to the first `NUL`. -/
def cstr (bytes : List Byte) : List Byte := bytes.takeWhile (· ≠ 0)

/-- `get_web_app`, as the string it points to; `behind` is the memory behind the block. -/
def getWebApp (behind : List Byte) (s : WebApps) : ClientType → Option (List Byte)
  | .invalid => none
  | t => (s.slot t).map fun b => cstr (b.bytes ++ behind)

/-- The answer of `handle_get_request` to a request for `/`. -/
def answerGet (app : Option (List Byte)) (o : Outbox) : Except TaAbort (ℤ × Outbox) :=
  match app with
  | none => o.sendHttpErrResp 403 "Forbidden"
  | some app =>
    match o.packIntoRespChunk app with
    | ([], o) => .ok (-1, o)
    | (chunk, o) => o.sendHttpResp 200 "OK" app.length chunk "text/html"

/-- What a client of class `t` is sent for `/`. -/
theorem handleGetRequest_eq {env : TaEnv} {g : Globals} {p : Peer} {o : Outbox} {r : Request}
    {t : ClientType} {s : WebApps} {behind : List Byte} (ht : getClientType env g p = .ok t)
    (hr : r.head.path = bytesOf "/") (hw : env.webApp = getWebApp behind s) :
    handleGetRequest env g p o r = answerGet (getWebApp behind s t) o := by
  rw [handleGetRequest, ht]
  simp only [hr, ne_eq, not_true_eq_false, if_false, hw]
  rfl

/-! ## What a response tells -/

section Answers
variable {o : Outbox}

/-- While the TLS layer takes nothing, flushing keeps the record. -/
theorem flushFrom_waiting (cs : List RespChunk) (hw : o.writes = []) :
    ∃ ret o', o.flushFrom cs = .ok (ret, o') ∧ o'.responses = o.responses ∧
      o'.queued = o.queued := by
  induction cs with
  | nil => exact ⟨0, _, rfl, rfl, rfl⟩
  | cons c cs ih =>
    have hret : Outbox.writeRet o.writes c.rest = sslWantWrite := by
      rw [hw]
      rfl
    have hneg : (o.sslWrite c.rest).1 < 0 := by
      have hwant : sslWantWrite < 0 := by decide
      rwa [← hret] at hwant
    rw [Outbox.flushFrom]
    by_cases hpos : 0 < intOfSize (c.buf.length - c.offset)
    · rw [if_pos hpos, if_pos hneg]
      exact ⟨_, _, rfl, rfl, rfl⟩
    · rw [if_neg hpos]
      exact ih

/-- The header that `send_http_resp` queues. -/
def respHeader (code : ℕ) (status : String) (datalen : ℕ) (body : List RespChunk)
    (type : String) : List Byte :=
  Outbox.httpRespHeader code status (if body ≠ [] ∧ 0 < datalen then datalen else 0)
    (if body ≠ [] ∧ 0 < datalen then type else "")

/-- The record of a response with memory to spare, while the TLS layer takes nothing. -/
theorem sendHttpResp_init (code : ℕ) (status : String) (datalen : ℕ) (body : List RespChunk)
    (type : String) :
    ∃ ret o', Outbox.init.sendHttpResp code status datalen body type = .ok (ret, o') ∧
      o'.responses.map (·.bodyBytes) = [((appendRespQueue [] body).flatMap RespChunk.rest).length] ∧
      o'.queued = respHeader code status datalen body type ++
        (appendRespQueue [] body).flatMap RespChunk.rest := by
  set hdr := respHeader code status datalen body type with hhdr
  set o₁ : Outbox := { (Outbox.init.append [⟨hdr, 0⟩]).append body with
    responses := [⟨intOfSize (if body ≠ [] ∧ 0 < datalen then datalen else 0),
      ((appendRespQueue [] body).flatMap RespChunk.rest).length⟩] }
  have hsend : Outbox.init.sendHttpResp code status datalen body type = o₁.flushRespQueue := rfl
  obtain ⟨ret, o', hflush, hresp, hqueued⟩ := flushFrom_waiting (o := o₁) o₁.respBuffer rfl
  rw [hsend, Outbox.flushRespQueue, hflush]
  refine ⟨_, _, rfl, ?_, ?_⟩
  · rw [show _ = o₁.responses from hresp]
    rfl
  · rw [show _ = o₁.queued from hqueued]
    simp [o₁, Outbox.append, appendRespQueue, RespChunk.rest, Outbox.init]

theorem forbidden_ne_ok : respHeader 403 "Forbidden" 0 [] "" ≠
    respHeader 200 "OK" ([] : List Byte).length [⟨[], 0⟩] "text/html" := by
  decide

/-- The answer tells which file it carries. -/
theorem answerGet_injective {a b : Option (List Byte)}
    (h : answerGet a Outbox.init = answerGet b Outbox.init) : a = b := by
  have hanswer : ∀ a : Option (List Byte), ∃ ret o', answerGet a Outbox.init = .ok (ret, o') ∧
      o'.responses.map (·.bodyBytes) = [(a.getD []).length] ∧
      o'.queued = (match a with
        | none => respHeader 403 "Forbidden" 0 [] ""
        | some f => respHeader 200 "OK" f.length [⟨f, 0⟩] "text/html") ++ a.getD [] := by
    rintro (_ | f)
    · obtain ⟨ret, o', hok, hresp, hqueued⟩ := sendHttpResp_init 403 "Forbidden" 0 [] ""
      exact ⟨ret, o', hok, hresp, hqueued⟩
    · obtain ⟨ret, o', hok, hresp, hqueued⟩ := sendHttpResp_init 200 "OK" f.length
        [⟨f, 0⟩] "text/html"
      refine ⟨ret, o', hok, ?_, ?_⟩
      · simpa [appendRespQueue, RespChunk.rest] using hresp
      · simpa [appendRespQueue, RespChunk.rest] using hqueued
  obtain ⟨ret, o', hok, hresp, hqueued⟩ := hanswer a
  obtain ⟨ret', o'', hok', hresp', hqueued'⟩ := hanswer b
  rw [hok, hok'] at h
  cases h
  have hlen : (a.getD []).length = (b.getD []).length := by
    rw [hresp] at hresp'
    simpa using hresp'
  rw [hqueued] at hqueued'
  have hbody : a.getD [] = b.getD [] := (List.append_inj' hqueued' hlen).2
  have hhdr := (List.append_inj' hqueued' hlen).1
  cases a with
  | none =>
    cases b with
    | none => rfl
    | some f =>
      obtain rfl : [] = f := hbody
      exact absurd hhdr forbidden_ne_ok
  | some f =>
    cases b with
    | none =>
      obtain rfl : f = [] := hbody
      exact absurd hhdr.symm forbidden_ne_ok
    | some f' => exact congrArg some hbody

end Answers

/-! ## Files in memory -/

/-- Without a `NUL`. -/
def NulFree (bytes : List Byte) : Prop := ∀ b ∈ bytes, b ≠ 0

instance (bytes : List Byte) : Decidable (NulFree bytes) := List.decidableBAll _ _

section Memory
variable {f : List Byte} {p x : ℕ} {last : Byte}

theorem cstr_zero (bs : List Byte) : cstr (0 :: bs) = [] := rfl

theorem cstr_cons {c : Byte} (hc : c ≠ 0) (bs : List Byte) : cstr (c :: bs) = c :: cstr bs :=
  List.takeWhile_cons_of_pos (decide_eq_true hc)

theorem cstr_cons_eq_cons {b c : Byte} {bs : List Byte} (hb : b ≠ 0) :
    cstr (c :: bs) = b :: f ↔ c = b ∧ cstr bs = f := by
  by_cases hc : c = 0
  · subst hc
    rw [cstr_zero]
    exact iff_of_false (List.cons_ne_nil b f).symm fun h => hb h.1.symm
  · rw [cstr_cons hc, List.cons.injEq]

theorem cstr_cons_eq_nil {c : Byte} {bs : List Byte} : cstr (c :: bs) = [] ↔ c = 0 := by
  by_cases hc : c = 0
  · subst hc
    exact iff_of_true (cstr_zero bs) rfl
  · rw [cstr_cons hc]
    exact iff_of_false (List.cons_ne_nil _ _) hc

/-- A file is read back from its block exactly when the stored word hit none of its bytes, and the
byte behind it is `NUL`, or was hit. -/
theorem cstr_zeroWord_iff (hf : NulFree f) :
    (∀ behind, cstr (zeroWord p x (f ++ [last]) ++ behind) = f) ↔
      (∀ i < f.length, ¬ Hits p (x + i)) ∧ (last = 0 ∨ Hits p (x + f.length)) := by
  induction f generalizing x with
  | nil =>
    simp only [List.nil_append, zeroWord, List.cons_append, cstr_cons_eq_nil]
    by_cases hx : Hits p x <;> simp [hx]
  | cons b f ih =>
    have hb : b ≠ 0 := hf b List.mem_cons_self
    have hfirst : (if Hits p x then 0 else b) = b ↔ ¬ Hits p x := by
      by_cases hx : Hits p x
      · rw [if_pos hx]
        exact iff_of_false hb.symm (not_not_intro hx)
      · rw [if_neg hx]
        exact iff_of_true rfl hx
    simp only [List.cons_append, zeroWord, cstr_cons_eq_cons hb, hfirst, forall_and, forall_const]
    rw [ih fun c hc => hf c (List.mem_cons_of_mem _ hc), List.length_cons,
      Nat.forall_lt_succ_left, ← and_assoc]
    simp only [Nat.add_right_comm x 1]
    exact Iff.rfl

/-- Such a block ends with a `NUL`. -/
theorem zeroWord_eq (hf : ∀ i < f.length, ¬ Hits p (x + i))
    (hlast : last = 0 ∨ Hits p (x + f.length)) : zeroWord p x (f ++ [last]) = f ++ [0] := by
  induction f generalizing x with
  | nil =>
    by_cases hx : Hits p x
    · simp [zeroWord, hx]
    · simp [zeroWord, hlast.resolve_right hx]
  | cons b f ih =>
    have hx : ¬ Hits p x := hf 0 (Nat.succ_pos _)
    rw [List.cons_append, zeroWord, if_neg hx, ih, List.cons_append]
    · intro i hi
      rw [Nat.add_right_comm]
      exact hf (i + 1) (Nat.succ_lt_succ hi)
    · rwa [Nat.add_right_comm]

theorem cstr_append_nul (hf : NulFree f) (behind : List Byte) : cstr (f ++ [0] ++ behind) = f := by
  induction f with
  | nil => rfl
  | cons b f ih =>
    rw [List.cons_append, List.cons_append, cstr_cons (hf b List.mem_cons_self),
      ih fun c hc => hf c (List.mem_cons_of_mem _ hc)]

end Memory

/-! ## One load -/

/-- Whatever lies behind the blocks, every client gets the first file that was loaded for its
class, and a 403 if there is none. -/
def Served (s : WebApps) : Prop :=
  ∀ t behind o, answerGet (getWebApp behind s t) o = answerGet (s.loaded t) o

theorem served_iff {s : WebApps} : Served s ↔ ∀ t behind, getWebApp behind s t = s.loaded t := by
  constructor
  · exact fun h t behind => answerGet_injective (h t behind Outbox.init)
  · exact fun h t behind o => by rw [h t behind]

/-- After the load the clients are served; what other classes get has not changed, and a second
file for a class is refused without effect. -/
def LoadedRight (layout : ClientType → ℕ) (s : WebApps) (r : LoadReq) : Prop :=
  ∃ ret s', swInitWebappFile layout s r = .ok (ret, s') ∧ Served s' ∧
    (∀ t, fileType r.fileId ≠ some t → ∀ behind, getWebApp behind s' t = getWebApp behind s t) ∧
    (∀ t, fileType r.fileId = some t → s.loaded t ≠ none → ret = -1 ∧ s' = s)

/-- The classes with a pointer. -/
def webTypes : List ClientType := [.user, .admin, .master, .pending]

theorem mem_webTypes {t : ClientType} : t ∈ webTypes ↔ t ≠ .invalid := by
  cases t <;> decide

/-- A load that is refused, or whose null pointer hits no pointer and no file in use and leaves a
`NUL` at the end of the block. -/
def Harmless (layout : ClientType → ℕ) (s : WebApps) (r : LoadReq) : Prop :=
  match checkWebappFile s r with
  | none => True
  | some (t, file, addr, last) =>
    let p := nulAddr layout t file
    file.length + 1 < 2 ^ 32 ∧ layout t ≠ p ∧ (∀ i < file.length, ¬ Hits p (addr + i)) ∧
      (last = 0 ∨ Hits p (addr + file.length)) ∧
      ∀ t' ∈ webTypes, ∀ b ∈ s.slot t',
        layout t' ≠ p ∧ ∀ i < b.bytes.length - 1, ¬ Hits p (b.addr + i)

instance (layout : ClientType → ℕ) (s : WebApps) (r : LoadReq) :
    Decidable (Harmless layout s r) := by
  unfold Harmless
  split <;> infer_instance

/-- The pointer of a class and the file that was loaded for it. -/
inductive Holds : Option AppBlock → Option (List Byte) → Prop
  | none : Holds none none
  | file (addr : ℕ) (f : List Byte) (hf : NulFree f) : Holds (some ⟨addr, f ++ [0]⟩) (some f)

theorem Holds.block {b : AppBlock} {o : Option (List Byte)} (h : Holds (some b) o) :
    ∃ f, NulFree f ∧ o = some f ∧ b.bytes = f ++ [0] := by
  cases h with
  | file addr f hf => exact ⟨f, hf, rfl, rfl⟩

/-- Every pointer is null or points to the file of its class, with a `NUL` behind it. -/
structure Consistent (s : WebApps) : Prop where
  holds : ∀ t, Holds (s.slot t) (s.loaded t)
  invalid : s.slot .invalid = none

/-- What a client gets from a pointer. -/
def readSlot (behind : List Byte) (slot : Option AppBlock) : Option (List Byte) :=
  slot.map fun b => cstr (b.bytes ++ behind)

theorem getWebApp_eq_readSlot {s : WebApps} (hi : s.slot .invalid = none) (behind : List Byte)
    (t : ClientType) : getWebApp behind s t = readSlot behind (s.slot t) := by
  cases t with
  | invalid =>
    rw [hi]
    rfl
  | _ => rfl

section Load
variable {layout : ClientType → ℕ} {s s' : WebApps} {r : LoadReq} {t : ClientType}
  {file : List Byte} {addr : ℕ} {last : Byte}

theorem Consistent.init : Consistent WebApps.init := ⟨fun _ => .none, rfl⟩

theorem Consistent.getWebApp_eq (hs : Consistent s) (behind : List Byte) (t : ClientType) :
    getWebApp behind s t = s.loaded t := by
  rw [getWebApp_eq_readSlot hs.invalid]
  have hh := hs.holds t
  revert hh
  generalize s.slot t = slot, s.loaded t = loaded
  rintro (_ | ⟨addr, f, hf⟩)
  · rfl
  · exact congrArg some (cstr_append_nul hf behind)

theorem Consistent.loaded_eq_none (hs : Consistent s) (ht : s.slot t = none) :
    s.loaded t = none := by
  have hh := hs.holds t
  rw [ht] at hh
  generalize s.loaded t = loaded at hh
  cases hh
  rfl

theorem Consistent.served (hs : Consistent s) : Served s :=
  served_iff.mpr fun t behind => hs.getWebApp_eq behind t

/-- What a load that is not refused has checked. -/
theorem of_checkWebappFile (hc : checkWebappFile s r = some (t, file, addr, last)) :
    r.fileBuffer = some file ∧ fileType r.fileId = some t ∧ s.slot t = none := by
  unfold checkWebappFile at hc
  split at hc
  · next file' t' hfile ht =>
      split at hc
      · cases hc
      · next hchecks =>
          obtain ⟨⟨addr', last'⟩, -, heq⟩ := Option.map_eq_some_iff.mp hc
          cases heq
          exact ⟨hfile, ht, not_not.mp fun h => hchecks (.inr (.inr h))⟩
  · cases hc

theorem fileType_ne_invalid {id : ℕ} (ht : fileType id = some t) : t ≠ .invalid := by
  rintro rfl
  unfold fileType at ht
  split at ht <;> cases ht

/-- The state after a load that is not refused. -/
def afterLoad (layout : ClientType → ℕ) (s : WebApps) (t : ClientType) (file : List Byte)
    (addr : ℕ) (last : Byte) : WebApps :=
  (s.store t file ⟨addr, file ++ [last]⟩).nullAt layout (nulAddr layout t file)

theorem slot_afterLoad_self : (afterLoad layout s t file addr last).slot t =
    if layout t = nulAddr layout t file then none
    else some ⟨addr, zeroWord (nulAddr layout t file) addr (file ++ [last])⟩ := by
  simp [afterLoad, WebApps.nullAt, WebApps.store]

theorem slot_afterLoad_of_ne {t' : ClientType} (ht : t' ≠ t) :
    (afterLoad layout s t file addr last).slot t' =
      if layout t' = nulAddr layout t file then none
      else (s.slot t').map fun b =>
        { b with bytes := zeroWord (nulAddr layout t file) b.addr b.bytes } := by
  simp [afterLoad, WebApps.nullAt, WebApps.store, ht]

theorem loaded_afterLoad (hs : Consistent s) (ht : s.slot t = none) :
    (afterLoad layout s t file addr last).loaded = Function.update s.loaded t (some file) := by
  simp [afterLoad, WebApps.nullAt, WebApps.store, hs.loaded_eq_none ht]

/-- A pointer that is overwritten or whose file is hit no longer serves the file. -/
theorem readSlot_file_iff {c : Prop} [Decidable c] {p : ℕ} (hf : NulFree file) :
    (∀ behind, readSlot behind (if c then none else some ⟨addr, zeroWord p addr (file ++ [last])⟩) =
        some file) ↔
      ¬ c ∧ (∀ i < file.length, ¬ Hits p (addr + i)) ∧
        (last = 0 ∨ Hits p (addr + file.length)) := by
  rw [← cstr_zeroWord_iff hf]
  by_cases hc : c
  · rw [if_pos hc]
    exact iff_of_false (fun h => Option.some_ne_none file (h []).symm) fun h => h.1 hc
  · rw [if_neg hc, and_iff_right hc]
    simp only [readSlot, Option.map_some, Option.some.injEq]

/-- What another class gets after the load. -/
theorem readSlot_other_iff {t' : ClientType} (hs : Consistent s) (ht : t' ≠ t) (addr : ℕ)
    (last : Byte) :
    (∀ behind, readSlot behind ((afterLoad layout s t file addr last).slot t') = s.loaded t') ↔
      ∀ b ∈ s.slot t', layout t' ≠ nulAddr layout t file ∧
        ∀ i < b.bytes.length - 1, ¬ Hits (nulAddr layout t file) (b.addr + i) := by
  rw [slot_afterLoad_of_ne ht]
  have hh := hs.holds t'
  revert hh
  generalize s.slot t' = slot, s.loaded t' = loaded
  rintro (_ | ⟨addr', f, hf⟩)
  · simp [readSlot]
  · rw [Option.map_some, readSlot_file_iff hf]
    simp

/-- The clients are served after a load that is not refused exactly when it is harmless. -/
theorem served_afterLoad_iff (hs : Consistent s) (ht : s.slot t = none) (hinv : t ≠ .invalid)
    (hf : NulFree file) (layout : ClientType → ℕ) (addr : ℕ) (last : Byte) :
    Served (afterLoad layout s t file addr last) ↔
      layout t ≠ nulAddr layout t file ∧
        (∀ i < file.length, ¬ Hits (nulAddr layout t file) (addr + i)) ∧
        (last = 0 ∨ Hits (nulAddr layout t file) (addr + file.length)) ∧
        ∀ t' ∈ webTypes, ∀ b ∈ s.slot t', layout t' ≠ nulAddr layout t file ∧
          ∀ i < b.bytes.length - 1, ¬ Hits (nulAddr layout t file) (b.addr + i) := by
  have hinvalid : (afterLoad layout s t file addr last).slot .invalid = none := by
    rw [slot_afterLoad_of_ne hinv.symm, hs.invalid]
    simp
  simp only [served_iff, getWebApp_eq_readSlot hinvalid, loaded_afterLoad hs ht]
  constructor
  · intro h
    have hself := h t
    rw [slot_afterLoad_self] at hself
    simp only [Function.update_self] at hself
    obtain ⟨h₁, h₂, h₃⟩ := (readSlot_file_iff hf).mp hself
    refine ⟨h₁, h₂, h₃, fun t' _ b hb => ?_⟩
    have htt : t' ≠ t := by
      rintro rfl
      rw [ht] at hb
      cases hb
    refine (readSlot_other_iff hs htt addr last).mp (fun behind => ?_) b hb
    rw [h t' behind, Function.update_of_ne htt]
  · rintro ⟨h₁, h₂, h₃, h₄⟩ t' behind
    by_cases htt : t' = t
    · subst htt
      rw [slot_afterLoad_self, Function.update_self]
      exact (readSlot_file_iff hf).mpr ⟨h₁, h₂, h₃⟩ behind
    · rw [Function.update_of_ne htt]
      refine (readSlot_other_iff hs htt addr last).mpr
        (fun b hb => h₄ t' (mem_webTypes.mpr ?_) b hb) behind
      rintro rfl
      rw [hs.invalid] at hb
      cases hb

/-- A harmless load keeps the pointers and the files together. -/
theorem Consistent.afterLoad (hs : Consistent s) (ht : s.slot t = none) (hinv : t ≠ .invalid)
    (hf : NulFree file) (hserved : Served (afterLoad layout s t file addr last)) :
    Consistent (afterLoad layout s t file addr last) := by
  obtain ⟨h₁, h₂, h₃, h₄⟩ := (served_afterLoad_iff hs ht hinv hf layout addr last).mp hserved
  refine ⟨fun t' => ?_, ?_⟩
  · rw [loaded_afterLoad hs ht]
    by_cases htt : t' = t
    · subst htt
      rw [slot_afterLoad_self, if_neg h₁, Function.update_self, zeroWord_eq h₂ h₃]
      exact .file addr file hf
    · rw [slot_afterLoad_of_ne htt, Function.update_of_ne htt]
      have hh := hs.holds t'
      cases hslot : s.slot t' with
      | none =>
        rw [hslot] at hh
        rw [Option.map_none, ite_self]
        exact hh
      | some b =>
        have hvalid : t' ≠ .invalid := by
          rintro rfl
          rw [hs.invalid] at hslot
          cases hslot
        obtain ⟨hne, hmiss⟩ := h₄ t' (mem_webTypes.mpr hvalid) b hslot
        rw [hslot] at hh
        obtain ⟨f, hf', hloaded, hbytes⟩ := hh.block
        have hmiss' : ∀ i < f.length, ¬ Hits (nulAddr layout t file) (b.addr + i) := by
          intro i hi
          refine hmiss i ?_
          rwa [hbytes, List.length_append]
        rw [if_neg hne, Option.map_some, hloaded, hbytes, zeroWord_eq hmiss' (.inl rfl)]
        exact .file b.addr f hf'
  · rw [slot_afterLoad_of_ne hinv.symm, hs.invalid]
    simp

/-- A load does what it should exactly when it is harmless. -/
theorem loadedRight_iff (hs : Consistent s) (hr : ∀ file ∈ r.fileBuffer, NulFree file) :
    LoadedRight layout s r ↔ Harmless layout s r := by
  unfold LoadedRight Harmless swInitWebappFile
  cases hc : checkWebappFile s r with
  | none =>
    refine iff_of_true ⟨-1, s, rfl, hs.served, fun t _ behind => rfl, fun t _ _ => ⟨rfl, rfl⟩⟩ ?_
    trivial
  | some x =>
    obtain ⟨t, file, addr, last⟩ := x
    obtain ⟨hfile, ht, hslot⟩ := of_checkWebappFile hc
    have hinv := fileType_ne_invalid ht
    have hiff := served_afterLoad_iff hs hslot hinv (hr file hfile) layout addr last
    by_cases hover : 2 ^ 32 ≤ file.length + 1
    · simp only [if_pos hover, ← hiff]
      refine iff_of_false ?_ fun h => absurd h.1 (Nat.not_lt.mpr hover)
      rintro ⟨ret, s', h, -⟩
      cases h
    · simp only [if_neg hover, ← hiff]
      constructor
      · rintro ⟨ret, s', h, hserved, -⟩
        cases h
        exact ⟨Nat.not_le.mp hover, hserved⟩
      · rintro ⟨-, hserved⟩
        refine ⟨0, _, rfl, hserved, fun t' htt behind => ?_, fun t' htt hloaded => ?_⟩
        · have hne : t' ≠ t := fun h => htt (h ▸ ht)
          refine (served_iff.mp hserved t' behind).trans ?_
          rw [loaded_afterLoad hs hslot, Function.update_of_ne hne, hs.getWebApp_eq behind t']
        · obtain rfl : t = t' := Option.some.inj (ht.symm.trans htt)
          exact absurd (hs.loaded_eq_none hslot) hloaded

/-- A load that does what it should keeps the pointers and the files together. -/
theorem Consistent.of_loadedRight (hs : Consistent s) (hr : ∀ file ∈ r.fileBuffer, NulFree file)
    (hright : LoadedRight layout s r) {ret : ℤ}
    (hload : swInitWebappFile layout s r = .ok (ret, s')) : Consistent s' := by
  obtain ⟨ret', s'', hload', hserved, -⟩ := hright
  rw [hload] at hload'
  cases hload'
  unfold swInitWebappFile at hload
  cases hc : checkWebappFile s r with
  | none =>
    rw [hc] at hload
    cases hload
    exact hs
  | some x =>
    obtain ⟨t, file, addr, last⟩ := x
    obtain ⟨hfile, ht, hslot⟩ := of_checkWebappFile hc
    rw [hc] at hload
    simp only at hload
    split at hload
    · cases hload
    · cases hload
      exact hs.afterLoad hslot (fileType_ne_invalid ht) (hr file hfile) hserved

/-! ## All loads -/

/-- One command. -/
def webStep (layout : ClientType → ℕ) (s : WebApps) (r : LoadReq) :
    Except BlockHeap.Fault WebApps :=
  (swInitWebappFile layout s r).map Prod.snd

/-- For all sequences of loads, wherever the linker puts the four pointers: every client is served
the first file of its class at any time exactly when every load on the way is harmless. -/
theorem webapps_verbatim_iff (layout : ClientType → ℕ) {reqs : List LoadReq}
    (hreqs : ∀ r ∈ reqs, ∀ file ∈ r.fileBuffer, NulFree file) :
    Served WebApps.init ∧ EachStep (webStep layout) (LoadedRight layout) WebApps.init reqs ↔
      EachStep (webStep layout) (Harmless layout) WebApps.init reqs := by
  rw [and_iff_right Consistent.init.served]
  refine eachStep_iff (I := Consistent) (fun s r s' hs hr hright hstep => ?_)
    (fun s r hs hr => loadedRight_iff hs hr) (eachStep_of_forall hreqs) Consistent.init
  obtain ⟨ret, s'', hload, -⟩ := id hright
  rw [webStep, hload] at hstep
  cases hstep
  exact hs.of_loadedRight hr hright hload

end Load

/-- Four pointers in a row. -/
def inARow : ClientType → ℕ
  | .user => 0x1000
  | .admin => 0x1004
  | .master => 0x1008
  | .pending => 0x100c
  | .invalid => 0

/-- Two files for users, and one for administrators; the memory of the blocks was zero. -/
def threeLoads : List LoadReq :=
  [⟨some [60, 97, 62, 98, 60], 0, true, some (0x8000, 0)⟩,
    ⟨some [60, 62], 0, true, some (0x8100, 0)⟩,
    ⟨some [60, 98, 62, 99], 1, true, some (0x8200, 0)⟩]

theorem webapps_threeLoads :
    Served WebApps.init ∧ EachStep (webStep inARow) (LoadedRight inARow) WebApps.init threeLoads :=
  (webapps_verbatim_iff inARow (by decide)).mpr (by decide)

/-- A file for administrators, and then a file of one byte for users, in a block that is not
zero. -/
def adminThenUser : List LoadReq :=
  [⟨some [60, 97, 62], 1, true, some (0x8000, 0)⟩, ⟨some [60], 0, true, some (0x8100, 65)⟩]

/-- The second load stores its null pointer over the first file's pointer: administrators now get a
403.  Users get what lies behind their file. -/
theorem webapps_adminThenUser :
    ((webStep inARow WebApps.init ⟨some [60, 97, 62], 1, true, some (0x8000, 0)⟩).bind
        (webStep inARow · ⟨some [60], 0, true, some (0x8100, 65)⟩)).map
      (fun s =>
        (s.loaded .admin, getWebApp [66] s .admin, s.loaded .user, getWebApp [66] s .user)) =
        .ok (some [60, 97, 62], none, some [60], some [60, 65, 66]) ∧
      ¬ EachStep (webStep inARow) (LoadedRight inARow) WebApps.init adminThenUser := by
  refine ⟨by exact rfl, ?_⟩
  rintro ⟨-, hrest⟩
  obtain ⟨⟨ret, s', hload, hserved, -⟩, -⟩ := hrest _ rfl
  cases hload
  exact absurd (served_iff.mp hserved .admin []) (by decide)

end TrustedGateway.WebFiles
