import MiniDb.Server.Truncation
import MiniDb.Server.Framing

/-! # What a body can say about the connection

`http_read_request` looks for its header fields in all that it has received. The length and the route
are found in the header, whatever the body. `keep-alive` is found in the body as well. -/

set_option autoImplicit false

namespace MiniDb

open Lib

/-- The header block of a query, up to and with its blank line, with both header fields. -/
structure QueryHeader where
  bytes : List UInt8
  noNul : 0 ∉ bytes
  ends : strstr bytes blankLine = some (bytes.length - 4)
  post : startsWith bytes (cstr "POST /query") = true
  length : (strcasestr bytes (cstr "\r\nContent-Length:")).isSome = true
  connection : (strcasestr bytes (cstr "\r\nConnection:")).isSome = true

/-- What arrives is a request with this header and a body of the length that it announces. -/
structure QueryHeader.Delivers (h : QueryHeader) (s : Socket) (body : List UInt8) : Prop where
  length : body.length = announcedLength h.bytes
  delivered : delivered s = h.bytes ++ body

/-- Requests with this header are read alike, whatever their bodies. -/
def BodyIndependent (h : QueryHeader) : Prop :=
  ∀ s s' body body', h.Delivers s body → h.Delivers s' body' →
    ∃ req req', (httpReadRequest s).1 = some req ∧ (httpReadRequest s').1 = some req' ∧
      req.valid = req'.valid ∧ req.route = req'.route ∧ req.keepAlive = req'.keepAlive

/-- The header asks for `keep-alive` itself, or no body with it fits behind the header. -/
def QueryHeader.Settled (h : QueryHeader) : Prop :=
  keepAliveOf h.bytes = true ∨ announcedLength h.bytes < 10 ∨ httpBufMax < h.bytes.length + 10

section

variable {s : Socket} {h : QueryHeader} {body q t : List UInt8}

/-! ## The text that is searched -/

theorem QueryHeader.four_le (h : QueryHeader) : 4 ≤ h.bytes.length := by
  have := findPattern_le h.ends (by decide)
  rw [show blankLine.length = 4 from rfl] at this
  omega

theorem QueryHeader.getLast? (h : QueryHeader) : h.bytes.getLast? = some 10 := by
  have hfour := h.four_le
  have hocc : (((h.bytes.drop (h.bytes.length - 4)).take 4).map id) = [13, 10, 13, 10] :=
    findPattern_occurs h.ends
  rw [List.map_id, List.take_of_length_le (by rw [List.length_drop]; omega)] at hocc
  have hlast := congrArg List.getLast? hocc
  rw [List.getLast?_drop, if_neg (by omega)] at hlast
  exact hlast

/-- Behind the first `Connection:`, which is in the header, `keep-alive` is in the header or in what
follows it. -/
theorem QueryHeader.keepAliveOf_append (h : QueryHeader) (t : List UInt8) :
    keepAliveOf (h.bytes ++ t) =
      (keepAliveOf h.bytes || (strcasestr t (cstr "keep-alive")).isSome) := by
  have hfield : (strcasestr h.bytes (cstr "Connection:")).isSome = true := by
    have hlong := findPattern_isSome_iff.mp h.connection
    refine findPattern_isSome_iff.mpr (List.IsInfix.trans ?_ hlong)
    exact ⟨(cstr "\r\n").map tolower, [], by decide⟩
  obtain ⟨i, hi⟩ := Option.isSome_iff_exists.mp hfield
  have hle : i + 11 ≤ h.bytes.length := findPattern_le hi (by decide)
  have hlast : (h.bytes.drop i).getLast? = some 10 := by
    rw [List.getLast?_drop, if_neg (by omega), h.getLast?]
  have hsplit := @findPattern_append_isSome _ _ _ tolower (cstr "keep-alive") (h.bytes.drop i) t 10
    hlast (by decide)
  have hi' : strcasestr (h.bytes ++ t) (cstr "Connection:") = some i :=
    findPattern_append hi (by decide)
  rw [keepAliveOf, keepAliveOf, hi, hi']
  dsimp only
  rw [List.drop_append_of_le_length (by omega), Bool.eq_iff_iff, Bool.or_eq_true]
  exact hsplit

/-! ## What is in the buffer -/

theorem QueryHeader.Delivers.arrival (hd : h.Delivers s body) :
    arrival s = (h.bytes ++ body).take httpBufMax := by
  rw [MiniDb.arrival, hd.delivered]

theorem QueryHeader.strstr_append (h : QueryHeader) (t : List UInt8) :
    strstr (bufText (h.bytes ++ t)) blankLine = some (h.bytes.length - 4) := by
  rw [bufText_append h.noNul]
  exact findPattern_append h.ends (by decide)

/-- A header that fits is there, with a first part of the body. -/
theorem QueryHeader.Delivers.received (hd : h.Delivers s body) (hroom : h.bytes.length ≤ httpBufMax) :
    ∃ q, q <+: body.take (httpBufMax - h.bytes.length) ∧
      arrivalUntilComplete [] s = h.bytes ++ q := by
  have harr : MiniDb.arrival s = h.bytes ++ body.take (httpBufMax - h.bytes.length) := by
    rw [hd.arrival, List.take_append, List.take_of_length_le hroom]
  have hfront := arrivalUntilComplete_front s
  have hfind : strstr (bufText (arrivalUntilComplete [] s)) blankLine =
      some (h.bytes.length - 4) := by
    rw [strstr_arrivalUntilComplete, harr]
    exact h.strstr_append _
  have hfour := h.four_le
  have hle := findPattern_le hfind (by decide)
  have htext : (bufText (arrivalUntilComplete [] s)).length ≤
      (arrivalUntilComplete [] s).length := (List.takeWhile_sublist _).length_le
  rw [show blankLine.length = 4 from rfl] at hle
  rw [harr] at hfront
  obtain ⟨q, hq⟩ := List.prefix_of_prefix_length_le (List.prefix_append _ _) hfront
    (by omega : h.bytes.length ≤ (arrivalUntilComplete [] s).length)
  refine ⟨q, ?_, hq.symm⟩
  rw [← hq] at hfront
  exact (List.prefix_append_right_inj _).mp hfront

/-- Of a header that does not fit the buffer there is as much as it takes, and nothing else. -/
theorem QueryHeader.Delivers.received_cut (hd : h.Delivers s body)
    (hlong : httpBufMax < h.bytes.length) :
    arrivalUntilComplete [] s = h.bytes.take httpBufMax := by
  have harr : MiniDb.arrival s = h.bytes.take httpBufMax := by
    rw [hd.arrival, List.take_append_of_le_length hlong.le]
  have hnone : ∀ i, strstr (bufText (h.bytes.take httpBufMax)) blankLine ≠ some i := by
    intro i hi
    have hnul : 0 ∉ h.bytes.take httpBufMax := fun h0 => h.noNul (List.mem_of_mem_take h0)
    rw [bufText_eq hnul] at hi
    have hwhole := findPattern_append (r := h.bytes.drop httpBufMax) hi (by decide)
    rw [List.take_append_drop] at hwhole
    have hle := findPattern_le hi (by decide)
    have heq := Option.some.inj (hwhole.symm.trans h.ends)
    rw [List.length_take, show blankLine.length = 4 from rfl] at hle
    omega
  cases hstop : (bufferStates [] s).find? requestComplete with
  | none =>
    rw [arrivalUntilComplete, hstop]
    exact harr
  | some p =>
    have hp : arrivalUntilComplete [] s = p := by
      rw [arrivalUntilComplete, hstop]
      rfl
    obtain ⟨i, hi⟩ := requestComplete_strstr (List.find?_some hstop)
    have hfront := arrivalUntilComplete_front s
    rw [hp, harr] at hfront
    exact absurd (strstr_front hfront hi) (hnone i)

/-! ## What is reported -/

theorem parseRequest_keepAlive (buf : List UInt8) :
    (parseRequest buf).keepAlive = keepAliveOf (bufText buf) := by
  unfold parseRequest
  dsimp only
  split
  · rfl
  · split
    · rfl
    · split
      · rfl
      · rfl

/-- A request whose header has arrived is a valid query. Its connection is kept when `keep-alive`
stands behind `Connection:` in the header, or in the body. -/
theorem QueryHeader.parseRequest (h : QueryHeader) (q : List UInt8) :
    (parseRequest (h.bytes ++ q)).valid = true ∧ (parseRequest (h.bytes ++ q)).route = .query ∧
      (parseRequest (h.bytes ++ q)).keepAlive =
        (keepAliveOf h.bytes || (strcasestr (bufText q) (cstr "keep-alive")).isSome) := by
  have hpost : startsWith (bufText (h.bytes ++ q)) (cstr "POST /query") = true := by
    have hstart := h.post
    rw [startsWith, decide_eq_true_iff] at hstart ⊢
    have hlen := congrArg List.length hstart
    rw [List.length_take] at hlen
    rw [bufText_append h.noNul, List.take_append_of_le_length (by omega)]
    exact hstart
  obtain ⟨hvalid, hroute⟩ := parseRequest_of_blankLine hpost (h.strstr_append q)
  refine ⟨hvalid, hroute, ?_⟩
  rw [parseRequest_keepAlive, bufText_append h.noNul, h.keepAliveOf_append]

theorem keepAlive_short (hshort : q.length < 10) :
    (strcasestr (bufText q) (cstr "keep-alive")).isSome = false := by
  rw [Bool.eq_false_iff]
  intro hfound
  obtain ⟨i, hi⟩ := Option.isSome_iff_exists.mp hfound
  have hle := findPattern_le hi (by decide)
  have htext : (bufText q).length ≤ q.length := (List.takeWhile_sublist _).length_le
  rw [show (cstr "keep-alive").length = 10 from rfl] at hle
  omega

/-- In one call of `recv` all arrives that the buffer takes. -/
theorem arrivalUntilComplete_single (hne : t ≠ []) :
    arrivalUntilComplete [] [t] = t.take httpBufMax := by
  have hstates : bufferStates [] [t] = [t.take httpBufMax] := by
    rw [bufferStates_cons (by decide) hne]
    rfl
  have hall : delivered [t] = t := by
    rw [delivered_cons hne]
    exact List.append_nil t
  rw [arrivalUntilComplete, hstates, List.find?_cons, hall]
  cases requestComplete (t.take httpBufMax) with
  | true => rfl
  | false => rfl

/-- **When no body has a say in the connection.** -/
theorem bodyIndependent_iff (h : QueryHeader) : BodyIndependent h ↔ h.Settled := by
  have hne : ∀ t, h.bytes ++ t ≠ [] := by
    intro t hnil
    have hfour := h.four_le
    rw [(List.append_eq_nil_iff.mp hnil).1] at hfour
    simp at hfour
  constructor
  · -- two bodies in one packet each, one of them with the word
    intro hind
    by_contra hnot
    rw [QueryHeader.Settled, not_or, not_or, Nat.not_lt, Nat.not_lt] at hnot
    obtain ⟨hkeep, hlen, hroom⟩ := hnot
    have hkeep' : keepAliveOf h.bytes = false := Bool.eq_false_iff.mpr hkeep
    set n := announcedLength h.bytes with hn
    set word := cstr "keep-alive" ++ List.replicate (n - 10) 97 with hword
    have hsingle : ∀ body, body.length = n → h.Delivers [h.bytes ++ body] body := by
      intro body hbody
      refine ⟨hbody, ?_⟩
      rw [delivered_cons (hne body)]
      exact List.append_nil _
    have hread : ∀ body, (httpReadRequest [h.bytes ++ body]).1 =
        some (parseRequest (h.bytes ++ body.take (httpBufMax - h.bytes.length))) := by
      intro body
      have harr : arrivalUntilComplete [] [h.bytes ++ body] =
          h.bytes ++ body.take (httpBufMax - h.bytes.length) := by
        rw [arrivalUntilComplete_single (hne body), List.take_append,
          List.take_of_length_le (by omega)]
      rw [httpReadRequest_eq_some, harr]
      exact ⟨hne _, rfl⟩
    have hwordLen : word.length = n := by
      rw [hword, List.length_append, List.length_replicate,
        show (cstr "keep-alive").length = 10 from rfl]
      omega
    obtain ⟨req, req', hreq, hreq', -, -, hsame⟩ :=
      hind _ _ word (List.replicate n 97) (hsingle word hwordLen)
        (hsingle _ List.length_replicate)
    rw [hread] at hreq hreq'
    obtain rfl := Option.some.inj hreq
    obtain rfl := Option.some.inj hreq'
    rw [(h.parseRequest _).2.2, (h.parseRequest _).2.2, hkeep', Bool.false_or, Bool.false_or]
      at hsame
    -- the word is found where it is
    have hfound : (strcasestr (bufText (word.take (httpBufMax - h.bytes.length)))
        (cstr "keep-alive")).isSome = true := by
      rw [hword, List.take_append, List.take_of_length_le (by
        rw [show (cstr "keep-alive").length = 10 from rfl]; omega), bufText_append (by decide)]
      apply findPattern_isSome_iff.mpr
      rw [List.map_append]
      exact (List.prefix_append _ _).isInfix
    have hmissed : ¬ (strcasestr (bufText ((List.replicate n 97).take
        (httpBufMax - h.bytes.length))) (cstr "keep-alive")).isSome = true := by
      intro hin
      rw [List.take_replicate] at hin
      have hinfix := findPattern_isSome_iff.mp hin
      have hmem : (107 : UInt8) ∈ (bufText (List.replicate
          (min (httpBufMax - h.bytes.length) n) 97)).map tolower :=
        hinfix.subset (by decide)
      obtain ⟨c, hc, heq⟩ := List.mem_map.mp hmem
      have hc' := List.eq_of_mem_replicate ((List.takeWhile_sublist _).subset hc)
      rw [hc'] at heq
      exact absurd heq (by decide)
    rw [hfound] at hsame
    exact hmissed hsame.symm
  · intro hsettled s s' body body' hd hd'
    by_cases hroom : h.bytes.length ≤ httpBufMax
    · obtain ⟨q, hq, harr⟩ := hd.received hroom
      obtain ⟨q', hq', harr'⟩ := hd'.received hroom
      obtain ⟨hvalid, hroute, hkeep⟩ := h.parseRequest q
      obtain ⟨hvalid', hroute', hkeep'⟩ := h.parseRequest q'
      refine ⟨parseRequest (h.bytes ++ q), parseRequest (h.bytes ++ q'), ?_, ?_,
        hvalid.trans hvalid'.symm, hroute.trans hroute'.symm, ?_⟩
      · rw [httpReadRequest_eq_some, harr]
        exact ⟨hne q, rfl⟩
      · rw [httpReadRequest_eq_some, harr']
        exact ⟨hne q', rfl⟩
      · rw [hkeep, hkeep']
        rcases hsettled with hheader | hshort
        · rw [hheader, Bool.true_or, Bool.true_or]
        · -- neither body has room for the word
          have hsmall : ∀ b p : List UInt8, b.length = announcedLength h.bytes →
              p <+: b.take (httpBufMax - h.bytes.length) → p.length < 10 := by
            intro b p hb hp
            have hle := hp.length_le
            rw [List.length_take] at hle
            omega
          rw [keepAlive_short (hsmall body q hd.length hq),
            keepAlive_short (hsmall body' q' hd'.length hq')]
    · rw [not_le] at hroom
      have hcut : h.bytes.take httpBufMax ≠ [] := by
        apply List.ne_nil_of_length_pos
        rw [List.length_take, httpBufMax]
        rw [httpBufMax] at hroom
        omega
      refine ⟨parseRequest (h.bytes.take httpBufMax), parseRequest (h.bytes.take httpBufMax), ?_,
        ?_, rfl, rfl, rfl⟩
      · rw [httpReadRequest_eq_some, hd.received_cut hroom]
        exact ⟨hcut, rfl⟩
      · rw [httpReadRequest_eq_some, hd'.received_cut hroom]
        exact ⟨hcut, rfl⟩

/-- The header of a query that asks to close the connection. -/
def closeHeader : QueryHeader where
  bytes := cstr "POST /query HTTP/1.1\r\nConnection: close\r\nContent-Length: 35\r\n\r\n"
  noNul := by decide +kernel
  ends := by decide +kernel
  post := by decide +kernel
  length := by decide +kernel
  connection := by decide +kernel

/-- A text in a row keeps the connection open. -/
theorem not_bodyIndependent : ¬ ∀ h, BodyIndependent h := by
  intro hall
  let word := cstr "INSERT INTO t VALUES ('keep-alive')"
  let other := cstr "INSERT INTO t VALUES ('close-that')"
  have hword : closeHeader.Delivers [closeHeader.bytes ++ word] word := by
    constructor
    · decide +kernel
    · decide +kernel
  have hother : closeHeader.Delivers [closeHeader.bytes ++ other] other := by
    constructor
    · decide +kernel
    · decide +kernel
  obtain ⟨req, req', hreq, hreq', -, -, hsame⟩ := hall closeHeader _ _ _ _ hword hother
  have hkept : (httpReadRequest [closeHeader.bytes ++ word]).1 =
      some ⟨true, .query, true, word⟩ := by
    rw [httpReadRequest_eq_some]
    decide +kernel
  have hclosed : (httpReadRequest [closeHeader.bytes ++ other]).1 =
      some ⟨true, .query, false, other⟩ := by
    rw [httpReadRequest_eq_some]
    decide +kernel
  rw [hkept] at hreq
  rw [hclosed] at hreq'
  obtain rfl := Option.some.inj hreq
  obtain rfl := Option.some.inj hreq'
  cases hsame

end

end MiniDb
