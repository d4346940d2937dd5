import Mathlib.Data.List.Infix
import MiniDb.Lib.Search
import MiniDb.Sql.Parser

/-! # Reading a request

`http.c` and the part of `server.c` that calls it. A socket is what its next calls of `recv` find:
one element after the other, none of them cut unless the buffer is too small for it. An empty
element is a call that fails, be it a timeout; behind the last one the connection is closed. -/

set_option autoImplicit false

namespace MiniDb

open Lib

/-- What is still to be received. -/
abbrev Socket := List (List UInt8)

/-- `recv` into `cap` bytes; nothing where it returns 0 or fails. -/
def recv (cap : Nat) : Socket → List UInt8 × Socket
  | [] => ([], [])
  | c :: s => if c.length ≤ cap then (c, s) else (c.take cap, c.drop cap :: s)

/-- `sizeof(buf) - 1` in `http_read_request`. -/
def httpBufMax : Nat := 8191

/-- `sizeof(req->body) - 1`. -/
def httpBodyMax : Nat := 4095

/-- The end of the header. -/
def blankLine : CString := [13, 10, 13, 10]

/-- `strstr`, as an offset. -/
def strstr (text pat : CString) : Option Nat := findPattern id pat text

/-- `strcasestr`, as an offset. -/
def strcasestr (text pat : CString) : Option Nat := findPattern tolower pat text

/-- The string in the buffer, which ends at its first NUL. -/
def bufText (buf : List UInt8) : CString := buf.takeWhile (· != 0)

/-- `atoi(cl + 15)` behind the first `Content-Length:`, 0 without one. -/
def contentLength (text : CString) : Int :=
  match strcasestr text (cstr "Content-Length:") with
  | none => 0
  | some i => atoi (text.drop (i + 15))

/-- The test that ends the receive loop: header and body are there. The sum is one of `size_t`. -/
def requestComplete (buf : List UInt8) : Bool :=
  match strstr (bufText buf) blankLine with
  | none => false
  | some i => (i + 4 + toU64 (contentLength (bufText buf))) % 2 ^ 64 ≤ buf.length

theorem recv_lt {cap : Nat} {s : Socket} (h : (recv cap s).1 ≠ []) :
    0 < (recv cap s).1.length := List.length_pos_iff.mpr h

/-- The receive loop of `http_read_request`: the bytes received, and what is left. -/
def receive (s : Socket) (buf : List UInt8) : List UInt8 × Socket :=
  if _hroom : buf.length < httpBufMax then
    let r := recv (httpBufMax - buf.length) s
    if _hgot : r.1 = [] then (buf, r.2)
    else if requestComplete (buf ++ r.1) then (buf ++ r.1, r.2)
    else receive r.2 (buf ++ r.1)
  else (buf, s)
termination_by httpBufMax - buf.length
decreasing_by
  have hpos := recv_lt _hgot
  rw [List.length_append]
  omega

/-- `http_route_t`. -/
inductive HttpRoute where
  | unknown
  | query
  | stats
  deriving DecidableEq, Repr

/-- `http_request_t`; `body_len` is the length of the body. -/
structure HttpRequest where
  valid : Bool := false
  route : HttpRoute := .unknown
  keepAlive : Bool := false
  body : List UInt8 := []
  deriving DecidableEq, Repr

/-- Whether `keep-alive` stands anywhere behind the first `Connection:`. -/
def keepAliveOf (text : CString) : Bool :=
  match strcasestr text (cstr "Connection:") with
  | none => false
  | some i => (strcasestr (text.drop i) (cstr "keep-alive")).isSome

/-- `strncmp(buf, word, strlen(word)) == 0`. -/
def startsWith (text word : CString) : Bool := text.take word.length = word

theorem head?_of_startsWith {text word : CString} {c : UInt8}
    (h : startsWith text (c :: word) = true) : text.head? = some c := by
  rw [startsWith, decide_eq_true_iff] at h
  have hhead := congrArg List.head? h
  rwa [List.head?_take, if_neg (by simp)] at hhead

/-- `http_read_request` behind the receive loop. -/
def parseRequest (buf : List UInt8) : HttpRequest :=
  let text := bufText buf
  let req : HttpRequest := { keepAlive := keepAliveOf text }
  if startsWith text (cstr "GET /stats") then { req with valid := true, route := .stats }
  else if !startsWith text (cstr "POST /query") then req
  else
    match strstr text blankLine with
    | none => { req with route := .query }
    | some hdrEnd =>
      let rest := buf.drop (hdrEnd + 4)
      let copy := min (min (toU64 (contentLength text)) rest.length) httpBodyMax
      { req with valid := true, route := .query, body := trim (rest.take copy) }

/-- `http_read_request`; `none` is its return value -1. -/
def httpReadRequest (s : Socket) : Option HttpRequest × Socket :=
  let r := receive s []
  if r.1 = [] then (none, r.2) else (some (parseRequest r.1), r.2)

/-! ## What arrives -/

/-- The bytes that arrive before the first call of `recv` that fails. -/
def delivered : Socket → List UInt8
  | [] => []
  | c :: s => if c = [] then [] else c ++ delivered s

/-- As many of them as the buffer takes. -/
def arrival (s : Socket) : List UInt8 := (delivered s).take httpBufMax

/-- What the buffer holds after one call of `recv` and the next. -/
def bufferStates (buf : List UInt8) : Socket → List (List UInt8)
  | [] => []
  | c :: s =>
    if c = [] ∨ httpBufMax ≤ buf.length then []
    else (buf ++ c).take httpBufMax :: bufferStates ((buf ++ c).take httpBufMax) s

/-- What has arrived when header and body are there, or everything. -/
def arrivalUntilComplete (buf : List UInt8) (s : Socket) : List UInt8 :=
  ((bufferStates buf s).find? requestComplete).getD ((buf ++ delivered s).take httpBufMax)

section Receive

variable {s s' : Socket} {buf : List UInt8} {c : List UInt8}

theorem delivered_failed : delivered ([] :: s) = [] := rfl

theorem delivered_cons (hc : c ≠ []) : delivered (c :: s) = c ++ delivered s := if_neg hc

theorem bufferStates_failed : bufferStates buf ([] :: s) = [] := if_pos (.inl rfl)

theorem bufferStates_full (h : httpBufMax ≤ buf.length) : bufferStates buf s = [] := by
  cases s with
  | nil => rfl
  | cons c s => exact if_pos (.inr h)

theorem bufferStates_cons (h : buf.length < httpBufMax) (hc : c ≠ []) :
    bufferStates buf (c :: s) =
      (buf ++ c).take httpBufMax :: bufferStates ((buf ++ c).take httpBufMax) s :=
  if_neg (by rw [not_or, not_le]; exact ⟨hc, h⟩)

theorem receive_full (h : httpBufMax ≤ buf.length) : receive s buf = (buf, s) := by
  rw [receive, dif_neg (not_lt.mpr h)]

theorem receive_nil (buf : List UInt8) : receive [] buf = (buf, []) := by
  rw [receive]
  split
  · rfl
  · rfl

theorem receive_failed (h : buf.length < httpBufMax) : receive ([] :: s) buf = (buf, s) := by
  rw [receive, dif_pos h]
  rfl

/-- A call that finds no more than the buffer takes. -/
theorem receive_cons (h : buf.length < httpBufMax) (hc : c ≠ [])
    (hfit : (buf ++ c).length ≤ httpBufMax) :
    receive (c :: s) buf =
      if requestComplete (buf ++ c) then (buf ++ c, s) else receive s (buf ++ c) := by
  have hrecv : recv (httpBufMax - buf.length) (c :: s) = (c, s) := by
    rw [List.length_append] at hfit
    exact if_pos (by omega)
  rw [receive, dif_pos h]
  dsimp only
  rw [dif_neg (by rw [hrecv]; exact hc), hrecv]

/-- A call that finds more fills the buffer and ends the loop. -/
theorem receive_cut (h : buf.length < httpBufMax) (hfit : httpBufMax < (buf ++ c).length) :
    receive (c :: s) buf =
      ((buf ++ c).take httpBufMax, c.drop (httpBufMax - buf.length) :: s) := by
  rw [List.length_append] at hfit
  have hrecv : recv (httpBufMax - buf.length) (c :: s) =
      (c.take (httpBufMax - buf.length), c.drop (httpBufMax - buf.length) :: s) :=
    if_neg (by omega)
  have htake : buf ++ c.take (httpBufMax - buf.length) = (buf ++ c).take httpBufMax := by
    rw [List.take_append, List.take_of_length_le h.le]
  have hne : c.take (httpBufMax - buf.length) ≠ [] := by
    apply List.ne_nil_of_length_pos
    rw [List.length_take]
    omega
  have hfull : httpBufMax ≤ ((buf ++ c).take httpBufMax).length := by
    rw [List.length_take, List.length_append]
    omega
  rw [receive, dif_pos h]
  dsimp only
  rw [dif_neg (by rw [hrecv]; exact hne), hrecv, htake]
  split
  · rfl
  · exact receive_full hfull

/-- **Where the loop stops.** -/
theorem receive_fst (s : Socket) (hle : buf.length ≤ httpBufMax) :
    (receive s buf).1 = arrivalUntilComplete buf s := by
  induction s generalizing buf with
  | nil =>
    show (receive [] buf).1 = (buf ++ []).take httpBufMax
    rw [receive_nil, List.append_nil, List.take_of_length_le hle]
  | cons c s ih =>
    by_cases hfull : httpBufMax ≤ buf.length
    · rw [receive_full hfull, arrivalUntilComplete, bufferStates_full hfull]
      show buf = (buf ++ _).take httpBufMax
      rw [List.take_append_of_le_length hfull, List.take_of_length_le hle]
    rw [not_le] at hfull
    by_cases hc : c = []
    · subst hc
      rw [receive_failed hfull, arrivalUntilComplete, bufferStates_failed, delivered_failed]
      show buf = (buf ++ []).take httpBufMax
      rw [List.append_nil, List.take_of_length_le hle]
    rw [arrivalUntilComplete, bufferStates_cons hfull hc, delivered_cons hc, List.find?_cons,
      ← List.append_assoc]
    by_cases hfit : (buf ++ c).length ≤ httpBufMax
    · rw [receive_cons hfull hc hfit, List.take_of_length_le hfit]
      cases requestComplete (buf ++ c) with
      | true => rfl
      | false => exact ih hfit
    · rw [not_le] at hfit
      rw [receive_cut hfull hfit, bufferStates_full (by
        rw [List.length_take]
        omega), List.take_append_of_le_length hfit.le]
      cases requestComplete ((buf ++ c).take httpBufMax) <;> rfl

/-- What the loop has taken is the first part of what arrives. -/
theorem receive_front (s : Socket) (hle : buf.length ≤ httpBufMax) :
    (receive s buf).1 <+: (buf ++ delivered s).take httpBufMax := by
  induction s generalizing buf with
  | nil =>
    rw [receive_nil, delivered, List.append_nil, List.take_of_length_le hle]
  | cons c s ih =>
    by_cases hfull : httpBufMax ≤ buf.length
    · rw [receive_full hfull, List.take_append_of_le_length hfull, List.take_of_length_le hle]
    rw [not_le] at hfull
    by_cases hc : c = []
    · subst hc
      rw [receive_failed hfull, delivered_failed, List.append_nil, List.take_of_length_le hle]
    rw [delivered_cons hc, ← List.append_assoc]
    by_cases hfit : (buf ++ c).length ≤ httpBufMax
    · rw [receive_cons hfull hc hfit]
      split
      · exact List.prefix_take_iff.mpr ⟨List.prefix_append _ _, hfit⟩
      · exact ih hfit
    · rw [not_le] at hfit
      rw [receive_cut hfull hfit, List.take_append_of_le_length hfit.le]

end Receive

end MiniDb
