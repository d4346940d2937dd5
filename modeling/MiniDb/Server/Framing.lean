import Mathlib.Algebra.GroupWithZero.Nat
import MiniDb.Server.Http

/-! # Requests on one connection

`handle_client` calls `http_read_request` until a request does not ask to keep the connection. Each
call begins with an empty buffer, so what a call of `recv` returns beyond the end of a request is
lost with it. -/

set_option autoImplicit false

namespace MiniDb

open Lib

/-! ## The loop over a connection -/

/-- A request that this server understands and that asks to keep the connection: the header with
its blank line, which gives the length of the body. -/
structure HttpMessage where
  header : List UInt8
  body : List UInt8
  route : HttpRoute
  noNul : 0 ∉ header
  ends : strstr header blankLine = some (header.length - 4)
  length : contentLength header = body.length
  keepAlive : keepAliveOf header = true
  startLine : route = .stats ∧ startsWith header (cstr "GET /stats") = true ∨
    route = .query ∧ startsWith header (cstr "POST /query") = true
  bodySize : body.length ≤ httpBodyMax
  size : header.length + body.length ≤ httpBufMax

/-- The bytes of the request. -/
def HttpMessage.bytes (m : HttpMessage) : List UInt8 := m.header ++ m.body

/-- What the request says. -/
def HttpMessage.request (m : HttpMessage) : HttpRequest where
  valid := true
  route := m.route
  keepAlive := true
  body := if m.route = .query then trim m.body else []

section Message

variable {s cs : Socket} {m : HttpMessage} {ms : List HttpMessage} {buf q r t : List UInt8} {i : Nat}

theorem bufText_append (h : 0 ∉ q) : bufText (q ++ r) = q ++ bufText r := by
  rw [bufText, List.takeWhile_append_of_pos]
  · rfl
  · intro c hc
    rw [bne_iff_ne]
    rintro rfl
    exact h hc

theorem bufText_eq (h : 0 ∉ q) : bufText q = q := by
  have happ := bufText_append (r := []) h
  rwa [List.append_nil, show bufText [] = [] from rfl, List.append_nil] at happ

/-- A number ends where its digits do. -/
theorem digitsValue_append (h : ∃ c ∈ q, isdigit c = false) (acc : Nat) :
    digitsValue acc (q ++ r) = digitsValue acc q := by
  induction q generalizing acc with
  | nil =>
    obtain ⟨c, hc, -⟩ := h
    cases hc
  | cons d q ih =>
    rw [List.cons_append, digitsValue, digitsValue]
    split
    · rename_i hd
      apply ih
      obtain ⟨c, hc, hcd⟩ := h
      rcases List.mem_cons.mp hc with rfl | hc
      · rw [hd] at hcd
        cases hcd
      · exact ⟨c, hc, hcd⟩
    · rfl

theorem skipWs_append (h : skipWs q ≠ []) : skipWs (q ++ r) = skipWs q ++ r := by
  have hempty : (q.dropWhile isspace).isEmpty = false := by rwa [List.isEmpty_eq_false_iff]
  rw [skipWs, List.dropWhile_append, hempty, if_neg (by simp)]
  rfl

theorem atoll_of_blank (h : skipWs q = []) : atoll q = 0 := by
  rw [atoll, h]
  decide

/-- Behind a line feed a number has ended. -/
theorem atoll_append (h : skipWs q ≠ []) (hlast : q.getLast? = some 10) :
    atoll (q ++ r) = atoll q := by
  have hlf : (skipWs q).getLast? = some 10 := by
    have hsplit : q = q.takeWhile isspace ++ skipWs q := List.takeWhile_append_dropWhile.symm
    rw [hsplit, List.getLast?_append] at hlast
    cases hget : (skipWs q).getLast? with
    | none => exact absurd (List.getLast?_eq_none_iff.mp hget) h
    | some c =>
      rw [hget] at hlast
      exact hlast
  have hmem : (10 : UInt8) ∈ skipWs q := List.mem_of_getLast? hlf
  have hnum : ∀ acc, digitsValue acc (skipWs q ++ r) = digitsValue acc (skipWs q) :=
    digitsValue_append ⟨10, hmem, by decide⟩
  rw [atoll, atoll, skipWs_append h]
  cases hws : skipWs q with
  | nil => exact absurd hws h
  | cons c p =>
    rw [hws] at hnum hmem
    have hderef : deref (c :: p ++ r) = deref (c :: p) := rfl
    have htail : (c :: p ++ r).tail = p ++ r := rfl
    have hsign : deref (c :: p) = ch '-' ∨ deref (c :: p) = ch '+' →
        digitsValue 0 (p ++ r) = digitsValue 0 p := by
      intro hc
      apply digitsValue_append
      rcases List.mem_cons.mp hmem with rfl | hp
      · rcases hc with hc | hc
        · exact absurd (show (10 : UInt8) = ch '-' from hc) (by decide)
        · exact absurd (show (10 : UInt8) = ch '+' from hc) (by decide)
      · exact ⟨10, hp, by decide⟩
    rw [hderef, htail, hnum]
    by_cases hminus : deref (c :: p) = ch '-'
    · rw [if_pos hminus, if_pos hminus, hsign (.inl hminus)]
      rfl
    · by_cases hplus : deref (c :: p) = ch '+'
      · rw [if_neg hminus, if_neg hminus, if_pos hplus, if_pos hplus, hsign (.inr hplus)]
        rfl
      · rw [if_neg hminus, if_neg hminus, if_neg hplus, if_neg hplus]

theorem HttpMessage.four_le (m : HttpMessage) : 4 ≤ m.header.length := by
  have hle : m.header.length - 4 + 4 ≤ m.header.length := findPattern_le m.ends (by decide)
  omega

theorem HttpMessage.getLast? (m : HttpMessage) : m.header.getLast? = some 10 := by
  have hocc : ((m.header.drop (m.header.length - 4)).take 4).map id = [13, 10, 13, 10] :=
    findPattern_occurs m.ends
  have hfour := m.four_le
  rw [List.map_id, List.take_of_length_le (by rw [List.length_drop]; omega)] at hocc
  rw [← List.take_append_drop (m.header.length - 4) m.header, hocc, List.getLast?_append]
  rfl

/-- The length that a header gives is read from the header. -/
theorem HttpMessage.contentLength_append (m : HttpMessage) (hne : m.body ≠ []) (r : CString) :
    contentLength (m.header ++ r) = m.body.length := by
  have hpos : contentLength m.header ≠ 0 := by
    have hlen := List.length_pos_iff.mpr hne
    rw [m.length]
    omega
  rw [← m.length]
  rw [contentLength] at hpos ⊢
  rw [contentLength]
  cases hfind : strcasestr m.header (cstr "Content-Length:") with
  | none =>
    rw [hfind] at hpos
    exact absurd rfl hpos
  | some i =>
    rw [hfind] at hpos
    have hle : i + 15 ≤ m.header.length := findPattern_le hfind (by decide)
    have hfind' : strcasestr (m.header ++ r) (cstr "Content-Length:") = some i :=
      findPattern_append hfind (by decide)
    rw [hfind']
    show atoi ((m.header ++ r).drop (i + 15)) = atoi (m.header.drop (i + 15))
    rw [List.drop_append_of_le_length hle]
    have hws : skipWs (m.header.drop (i + 15)) ≠ [] := by
      intro hnil
      apply hpos
      show atoi (m.header.drop (i + 15)) = 0
      rw [atoi, atoll_of_blank hnil]
      rfl
    have hdrop : m.header.drop (i + 15) ≠ [] := by
      intro hnil
      rw [hnil] at hws
      exact hws rfl
    have hlast : (m.header.drop (i + 15)).getLast? = some 10 := by
      rw [List.getLast?_drop, if_neg (mt List.drop_eq_nil_iff.mpr hdrop), m.getLast?]
    rw [atoi, atoi, atoll_append hws hlast]

theorem HttpMessage.strstr_append (m : HttpMessage) (r : CString) :
    strstr (m.header ++ r) blankLine = some (m.header.length - 4) :=
  findPattern_append m.ends (by decide)

/-- The text of a request with a first part of its body. -/
theorem HttpMessage.contentLength_text (m : HttpMessage) (h : q <+: m.body) :
    contentLength (bufText (m.header ++ q)) = m.body.length := by
  rw [bufText_append m.noNul]
  by_cases hbody : m.body = []
  · rw [hbody, List.prefix_nil] at h
    rw [h, show bufText [] = [] from rfl, List.append_nil]
    exact m.length
  · exact m.contentLength_append hbody _

/-- What the call reports of the bytes of the request. -/
theorem HttpMessage.parseRequest (m : HttpMessage) : parseRequest m.bytes = m.request := by
  have hfour := m.four_le
  have htext : bufText m.bytes = m.header ++ bufText m.body := bufText_append m.noNul
  have hkeep : keepAliveOf (bufText m.bytes) = true := by
    have hheader := m.keepAlive
    rw [htext]
    rw [keepAliveOf] at hheader ⊢
    cases hfind : strcasestr m.header (cstr "Connection:") with
    | none =>
      rw [hfind] at hheader
      cases hheader
    | some i =>
      rw [hfind] at hheader
      have hfind' : strcasestr (m.header ++ bufText m.body) (cstr "Connection:") = some i :=
        findPattern_append hfind (by decide)
      have hle := findPattern_le hfind (by decide)
      obtain ⟨j, hj⟩ := Option.isSome_iff_exists.mp hheader
      rw [hfind']
      show (strcasestr ((m.header ++ bufText m.body).drop i) (cstr "keep-alive")).isSome = true
      rw [List.drop_append_of_le_length (by omega)]
      exact Option.isSome_iff_exists.mpr ⟨j, findPattern_append hj (by decide)⟩
  have hstart : ∀ word, startsWith m.header word = true →
      startsWith (bufText m.bytes) word = true := by
    intro word hword
    rw [startsWith, decide_eq_true_iff] at hword ⊢
    have hlen := congrArg List.length hword
    rw [List.length_take] at hlen
    rw [htext, List.take_append_of_le_length (by omega)]
    exact hword
  have hrest : m.bytes.drop (m.header.length - 4 + 4) = m.body := by
    rw [Nat.sub_add_cancel hfour, HttpMessage.bytes, List.drop_left']
    rfl
  unfold MiniDb.parseRequest
  dsimp only
  rw [hkeep]
  rcases m.startLine with ⟨hroute, hget⟩ | ⟨hroute, hpost⟩
  · rw [if_pos (hstart _ hget), HttpMessage.request, hroute, if_neg (by decide)]
  · have hget : ¬ startsWith (bufText m.bytes) (cstr "GET /stats") = true := by
      intro hget
      have hfirst := (head?_of_startsWith hget).symm.trans (head?_of_startsWith (hstart _ hpost))
      exact absurd (Option.some.inj hfirst) (by decide)
    have hlen : contentLength (bufText m.bytes) = m.body.length :=
      m.contentLength_text (List.prefix_refl _)
    have hfind : strstr (bufText m.bytes) blankLine = some (m.header.length - 4) := by
      rw [htext]
      exact m.strstr_append _
    have hcopy : min (min (toU64 (m.body.length : Int)) m.body.length) httpBodyMax =
        m.body.length := by
      have hsmall := m.bodySize
      rw [httpBodyMax] at hsmall ⊢
      rw [toU64]
      omega
    rw [if_neg hget, hstart _ hpost, if_neg (by decide), hlen, hfind]
    dsimp only
    rw [hrest, hcopy, List.take_length, HttpMessage.request, hroute, if_pos rfl]

end Message

/-! ## A connection -/

section Connection

variable {s s' : Socket} {m : HttpMessage} {ms : List HttpMessage}

end Connection

end MiniDb
