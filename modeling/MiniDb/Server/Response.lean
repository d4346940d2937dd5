import Mathlib.Data.List.TakeWhile
import MiniDb.Lib.Block
import MiniDb.Sql.CText

/-! # Answering a request

The end of `handle_one_request`: what a statement has printed and its message are put together in a
buffer of 8192 bytes and sent. The prompt of `main.c` prints both as they are. -/

set_option autoImplicit false

namespace MiniDb

open Lib

/-- `exec_result_t`, as its texts; `out_len` is the length of `out_buf`. Every statement leaves a
message. -/
structure ExecText where
  status : Int
  message : CString
  outBuf : Option (List UInt8)
  message_ne_nil : message ≠ []
  message_le : message.length ≤ 511
  message_noNul : 0 ∉ message
  out_noNul : ∀ out ∈ outBuf, 0 ∉ out

/-- What the statement has printed. -/
def ExecText.out (res : ExecText) : List UInt8 := res.outBuf.getD []

/-- `sizeof(resp)`. -/
def respSize : Nat := 8192

/-- The first step of the assembly: `out_buf`, cut where the buffer ends. -/
def copyOutBuf (resp : List UInt8) (res : ExecText) : Option (List UInt8 × Nat) :=
  match res.outBuf with
  | none => some (resp, 0)
  | some out =>
    if out.length > 0 then do
      let copy := if out.length < respSize - 1 then out.length else respSize - 1
      guard (copy ≤ resp.length)
      return (splice resp 0 (out.take copy), copy)
    else some (resp, 0)

/-- The second step: `snprintf` of the message and a newline, which writes what there is room for
and returns what there would have been to write. -/
def printMessage (resp : List UInt8) (off : Nat) (res : ExecText) : Option (List UInt8 × Nat) :=
  if res.message ≠ [] ∧ off < respSize - 2 then do
    let text := res.message ++ [10]
    let written := text.take (respSize - off - 1) ++ [0]
    guard (off + written.length ≤ resp.length)
    let avail := respSize - off - 1
    return (splice resp off written, off + if text.length < avail then text.length else avail)
  else some (resp, off)

/-- `http_response`: what `send_response` is given. -/
structure HttpResponse where
  status : Nat
  keepAlive : Bool
  body : List UInt8
  deriving DecidableEq, Repr

/-- The part of `handle_one_request` behind `db_execute`. `junk` is what the buffer holds before. A
write past the buffer has no defined outcome. -/
def answerQuery (junk : Nat → UInt8) (keepAlive : Bool) (res : ExecText) : Option HttpResponse := do
  let (resp, off) ← copyOutBuf (regrow [] respSize junk) res
  let (resp, off) ← printMessage resp off res
  return { status := if res.status = 0 then 200 else 400, keepAlive, body := resp.take off }

/-- What the prompt prints. -/
def replOutput (res : ExecText) : List UInt8 :=
  (match res.outBuf with
    | none => []
    | some out => out.takeWhile (· != 0)) ++
  if res.message ≠ [] then res.message ++ [10] else []

section

variable {resp : List UInt8} {off : Nat} {res : ExecText}

theorem replOutput_eq (res : ExecText) : replOutput res = res.out ++ (res.message ++ [10]) := by
  rw [replOutput, if_pos res.message_ne_nil, ExecText.out]
  cases hout : res.outBuf with
  | none => rfl
  | some out =>
    have hnul := res.out_noNul out hout
    have hall : out.takeWhile (· != 0) = out := by
      rw [List.takeWhile_eq_self_iff]
      intro c hc
      rw [bne_iff_ne]
      exact fun h0 => hnul (h0 ▸ hc)
    dsimp only
    rw [hall, Option.getD_some]

/-- The buffer begins with what has been printed, as far as there is room. -/
theorem copyOutBuf_spec (hresp : resp.length = respSize) :
    ∃ resp', copyOutBuf resp res = some (resp', (res.out.take (respSize - 1)).length) ∧
      resp'.length = respSize ∧
      resp'.take (res.out.take (respSize - 1)).length = res.out.take (respSize - 1) := by
  rw [copyOutBuf, ExecText.out]
  cases res.outBuf with
  | none => exact ⟨resp, rfl, hresp, rfl⟩
  | some out =>
    rw [Option.getD_some]
    dsimp only
    by_cases hpos : out.length > 0
    · have hcopy : (if out.length < respSize - 1 then out.length else respSize - 1) =
          (out.take (respSize - 1)).length := by
        rw [List.length_take, Nat.min_def]
        split <;> split <;> omega
      have htake : out.take (out.take (respSize - 1)).length = out.take (respSize - 1) := by
        rw [List.length_take, ← List.take_take, List.take_length]
      have hfit : (out.take (respSize - 1)).length ≤ resp.length := by
        rw [hresp, List.length_take, respSize]
        omega
      rw [if_pos hpos, hcopy, htake]
      refine ⟨splice resp 0 (out.take (respSize - 1)), ?_, ?_, ?_⟩
      · simp only [guard, if_pos hfit, Option.pure_def, Option.bind_eq_bind, Option.bind_some]
      · rw [length_splice (by omega), hresp]
      · rw [splice, List.take_zero, List.nil_append, List.take_left]
    · obtain rfl := List.length_eq_zero_iff.mp (Nat.eq_zero_of_not_pos hpos)
      exact ⟨resp, rfl, hresp, rfl⟩

/-- The message follows, unless the buffer is full but for one byte. -/
theorem printMessage_spec (hresp : resp.length = respSize) (hoff : off ≤ respSize - 1) :
    ∃ resp' off', printMessage resp off res = some (resp', off') ∧ off' ≤ respSize - 1 ∧
      resp'.take off' = resp.take off ++
        if off < respSize - 2 then (res.message ++ [10]).take (respSize - 1 - off) else [] := by
  rw [printMessage]
  by_cases hroom : off < respSize - 2
  · rw [if_pos ⟨res.message_ne_nil, hroom⟩, if_pos hroom]
    set text := res.message ++ [10] with htext
    set shown := text.take (respSize - 1 - off) with hshown
    have hsub : respSize - off - 1 = respSize - 1 - off := by omega
    have hlen : (if text.length < respSize - 1 - off then text.length else respSize - 1 - off) =
        shown.length := by
      rw [hshown, List.length_take, Nat.min_def]
      split <;> split <;> omega
    have hle : shown.length ≤ respSize - 1 - off := by
      rw [hshown, List.length_take]
      exact Nat.min_le_left _ _
    have hfit : off + (shown ++ [0]).length ≤ resp.length := by
      rw [List.length_append, List.length_singleton, hresp]
      simp only [respSize] at hle hroom ⊢
      omega
    refine ⟨splice resp off (shown ++ [0]), off + shown.length, ?_, by omega, ?_⟩
    · simp only [hsub, hlen, ← hshown, guard, if_pos hfit, Option.pure_def, Option.bind_eq_bind,
        Option.bind_some]
    · have hfront : (resp.take off).length = off := by
        rw [List.length_take, hresp]
        omega
      rw [splice, ← List.append_assoc, List.append_assoc _ [0],
        List.take_left' (by rw [List.length_append, hfront])]
  · rw [if_neg fun h => hroom h.2, if_neg hroom]
    exact ⟨resp, off, rfl, hoff, (List.append_nil _).symm⟩

/-- **The body** is what has been printed and the message, cut where the buffer ends; of a message
that could only begin in the last byte nothing is sent. -/
theorem answerQuery_spec (junk : Nat → UInt8) (keepAlive : Bool) (res : ExecText) :
    ∃ r, answerQuery junk keepAlive res = some r ∧ r.status = (if res.status = 0 then 200 else 400) ∧
      r.body.length < respSize ∧
      r.body = res.out.take (respSize - 1) ++
        if (res.out.take (respSize - 1)).length < respSize - 2 then
          (res.message ++ [10]).take (respSize - 1 - (res.out.take (respSize - 1)).length)
        else [] := by
  obtain ⟨resp₁, hcopy, hlen₁, htake₁⟩ := @copyOutBuf_spec (regrow [] respSize junk) res length_regrow
  have hoff : (res.out.take (respSize - 1)).length ≤ respSize - 1 := by
    rw [List.length_take]
    exact Nat.min_le_left _ _
  obtain ⟨resp₂, off, hprint, hle, htake₂⟩ := @printMessage_spec resp₁ _ res hlen₁ hoff
  refine ⟨{ status := if res.status = 0 then 200 else 400, keepAlive, body := resp₂.take off }, ?_,
    rfl, ?_, ?_⟩
  · rw [answerQuery, hcopy, Option.bind_eq_bind, Option.bind_some]
    dsimp only
    rw [hprint]
    rfl
  · refine lt_of_le_of_lt (List.length_take_le off resp₂) ?_
    rw [respSize] at hle ⊢
    omega
  · show resp₂.take off = _
    rw [htake₂, htake₁]

/-- The whole result is sent: the text that the prompt prints, in a buffer that is large enough. -/
def SentWhole (junk : Nat → UInt8) (keepAlive : Bool) (res : ExecText) : Prop :=
  ∃ r, answerQuery junk keepAlive res = some r ∧ r.body.length < respSize ∧
    (r.status = 200 ∨ r.status = 400) ∧ r.body = res.out ++ (res.message ++ [10]) ∧
    r.body = replOutput res

/-- **The server returns the whole result** exactly if it fits the buffer. -/
theorem sentWhole_iff (junk : Nat → UInt8) (keepAlive : Bool) (res : ExecText) :
    SentWhole junk keepAlive res ↔ res.out.length + res.message.length + 1 ≤ 8191 := by
  obtain ⟨r, hrun, hstatus, hlt, hbody⟩ := answerQuery_spec junk keepAlive res
  constructor
  · rintro ⟨r', hrun', hlt', -, hwhole, -⟩
    rw [hwhole, List.length_append, List.length_append, List.length_singleton, respSize] at hlt'
    omega
  · intro hsize
    have hne := List.length_pos_iff.mpr res.message_ne_nil
    have hout : res.out.take (respSize - 1) = res.out := by
      apply List.take_of_length_le
      rw [respSize]
      omega
    have hshort : res.out.length < respSize - 2 := by
      rw [respSize]
      omega
    have hmsg : (res.message ++ [10]).take (respSize - 1 - res.out.length) = res.message ++ [10] := by
      apply List.take_of_length_le
      rw [List.length_append, List.length_singleton, respSize]
      omega
    rw [hout, if_pos hshort, hmsg] at hbody
    refine ⟨r, hrun, hlt, ?_, hbody, hbody.trans (replOutput_eq res).symm⟩
    rw [hstatus]
    split
    · exact .inl rfl
    · exact .inr rfl

/-- A row with this id and a 7 in its other column, as `append_row` prints it. -/
def rowText (id : Nat) : List UInt8 :=
  (Nat.toDigits 10 id).map (fun c => c.toNat.toUInt8) ++ cstr " | 7\n"

/-- What a SELECT leaves that finds 1100 such rows: more than the buffer holds. -/
def manyRows : ExecText where
  status := 0
  message := cstr "1100" ++
    [0xED, 0x96, 0x89, 0x20, 0xEC, 0xA1, 0xB0, 0xED, 0x9A, 0x8C] ++ cstr " (TABLE_SCAN)"
  outBuf := some (cstr "id | a\n-----------+-----------\n" ++
    (List.range' 1 1100).flatMap rowText)
  message_ne_nil := by decide
  message_le := by decide
  message_noNul := by decide
  out_noNul := by
    intro out hout
    obtain rfl := Option.some.inj hout
    decide +kernel

/-- Of a result that does not fit the end and the message are missing. -/
theorem not_sentWhole : ¬ ∀ junk keepAlive res, SentWhole junk keepAlive res := by
  intro h
  obtain ⟨r, -, hlt, -, hwhole, -⟩ := h (fun _ => 0) false manyRows
  have hlen : respSize ≤ manyRows.out.length := by decide +kernel
  rw [hwhole, List.length_append] at hlt
  omega

end

end MiniDb
