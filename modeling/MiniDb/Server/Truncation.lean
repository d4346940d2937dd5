import MiniDb.Server.Http

/-! # Requests that arrive in part

`http_read_request` reports what it has, also when the connection pauses or closes, or a buffer is
full, before the body that the header announces is complete. -/

set_option autoImplicit false

namespace MiniDb

open Lib

/-- The number that the `Content-Length` field of a header says, of any size: decimal digits behind
blanks. 0 without the field. -/
def announcedLength (header : CString) : Nat :=
  match strcasestr header (cstr "\r\nContent-Length:") with
  | none => 0
  | some i => digitsValue 0 ((header.drop (i + 17)).dropWhile fun c => c == 32 || c == 9)

example : announcedLength (cstr "POST /query HTTP/1.1\r\nContent-Length: 4294967309\r\n\r\n") =
    4294967309 := by decide +kernel

section Blanks

variable {x y w u : CString}

end Blanks

/-! ## The text received and the text that arrives -/

section Prefix

variable {s : Socket} {p a : List UInt8} {i : Nat}

theorem bufText_front (h : p <+: a) : bufText p <+: bufText a := by
  obtain ⟨t, rfl⟩ := h
  rw [bufText, bufText, List.takeWhile_append]
  split
  · rename_i hall
    have hself : p.takeWhile (· != 0) = p :=
      (List.takeWhile_sublist _).eq_of_length hall
    rw [hself]
    exact List.prefix_append _ _
  · exact List.prefix_refl _

theorem strstr_front (h : p <+: a) (hfind : strstr (bufText p) blankLine = some i) :
    strstr (bufText a) blankLine = some i := by
  obtain ⟨t, ht⟩ := bufText_front h
  rw [← ht]
  exact findPattern_append hfind (by decide)

theorem requestComplete_strstr (h : requestComplete p = true) :
    ∃ i, strstr (bufText p) blankLine = some i := by
  rw [requestComplete] at h
  cases hfind : strstr (bufText p) blankLine with
  | none =>
    rw [hfind] at h
    cases h
  | some i => exact ⟨i, rfl⟩

theorem arrivalUntilComplete_front (s : Socket) : arrivalUntilComplete [] s <+: arrival s := by
  rw [← receive_fst s (Nat.zero_le _)]
  exact receive_front s (Nat.zero_le _)

/-- The loop does not stop in front of a blank line that arrives. -/
theorem strstr_arrivalUntilComplete :
    strstr (bufText (arrivalUntilComplete [] s)) blankLine = some i ↔
      strstr (bufText (arrival s)) blankLine = some i := by
  constructor
  · exact strstr_front (arrivalUntilComplete_front s)
  · intro hfind
    cases hstop : (bufferStates [] s).find? requestComplete with
    | none =>
      rw [arrivalUntilComplete, hstop]
      exact hfind
    | some text =>
      have heq : arrivalUntilComplete [] s = text := by
        rw [arrivalUntilComplete, hstop]
        rfl
      obtain ⟨j, hj⟩ := requestComplete_strstr (List.find?_some hstop)
      have hj' := strstr_front (heq ▸ arrivalUntilComplete_front s) hj
      rw [heq, hj, ← hj', hfind]

end Prefix

/-! ## What is reported -/

section Report

variable {s : Socket} {buf : List UInt8} {req : HttpRequest} {i : Nat}

theorem parseRequest_of_blankLine (hpost : startsWith (bufText buf) (cstr "POST /query") = true)
    (hfind : strstr (bufText buf) blankLine = some i) :
    (parseRequest buf).valid = true ∧ (parseRequest buf).route = .query := by
  have hget : ¬ startsWith (bufText buf) (cstr "GET /stats") = true := by
    intro hget
    have hfirst := (head?_of_startsWith hget).symm.trans (head?_of_startsWith hpost)
    exact absurd (Option.some.inj hfirst) (by decide)
  have hpost' : ¬ (!startsWith (bufText buf) (cstr "POST /query")) = true := by simp [hpost]
  unfold parseRequest
  dsimp only
  rw [if_neg hget, if_neg hpost', hfind]
  exact ⟨rfl, rfl⟩

/-- The request that the call reports is parsed from what has arrived. -/
theorem httpReadRequest_eq_some :
    (httpReadRequest s).1 = some req ↔
      arrivalUntilComplete [] s ≠ [] ∧ req = parseRequest (arrivalUntilComplete [] s) := by
  rw [httpReadRequest, receive_fst s (Nat.zero_le _)]
  by_cases hnil : arrivalUntilComplete [] s = []
  · rw [if_pos hnil]
    simp [hnil]
  · rw [if_neg hnil]
    simp [hnil, eq_comm]

end Report

end MiniDb
