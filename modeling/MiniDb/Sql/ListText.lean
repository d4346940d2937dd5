import MiniDb.Sql.ListBounds
import MiniDb.Sql.SelectText

/-! # Reading a CREATE TABLE or an INSERT back

Both have a bracketed list, which one loop of the parser reads. If every item is read off its own
text, whatever comma or bracket follows, then the loop reads the list. Columns and values have such
texts: a quoted value may contain commas, brackets and blanks, a bare one must not. -/

set_option autoImplicit false

namespace MiniDb

open Lib

/-! ## Lists -/

/-- The items of a list, up to the closing bracket. -/
def itemsText {α : Type} (write : α → CString) : List α → CString
  | [] => [ch ')']
  | [a] => write a ++ [ch ')']
  | a :: b :: l => write a ++ (ch ',' :: ch ' ' :: itemsText write (b :: l))

/-- The text of an item is read as this item, and not beyond. -/
structure ReadsItem {α : Type} (item : CString → ParseM (α × CString)) (text : CString) (a : α) :
    Prop where
  nonempty : text ≠ []
  noBlank : isspace (deref text) = false
  noBracket : deref text ≠ ch ')'
  read : ∀ c rest, c = ch ',' ∨ c = ch ')' → item (text ++ c :: rest) = .ok (a, c :: rest)

section Items

variable {α β : Type} {item : CString → ParseM (β × CString)} {write : α → CString} {val : α → β}
  {text rest p : CString} {b : β} {c : UInt8}

theorem itemsText_ne_nil (l : List α) : itemsText write l ≠ [] := by
  cases l with
  | nil => simp [itemsText]
  | cons a l =>
    cases l with
    | nil => simp [itemsText]
    | cons b l => simp [itemsText]

/-- A blank in front of a list is skipped. -/
theorem parseItems_blank (hne : p ≠ []) (room : Nat) :
    parseItems item room (ch ' ' :: p) = parseItems item room p := by
  have hskip : skipWs (ch ' ' :: p) = skipWs p := rfl
  have hstart : startsItem (ch ' ' :: p) = true ↔ startsItem p = true := by
    rw [startsItem_iff, startsItem_iff, hskip]
    constructor
    · intro h
      refine ⟨hne, fun hclose => h.2.2 ?_, h.2.2⟩
      obtain ⟨t, rfl⟩ := (deref_eq_iff (by decide)).mp hclose
      rfl
    · intro h
      exact ⟨by simp, show ch ' ' ≠ ch ')' by decide, h.2.2⟩
  by_cases h : startsItem p = true
  · cases room with
    | zero => rw [parseItems_zero h, parseItems_zero (hstart.mpr h)]
    | succ room => rw [parseItems_succ h, parseItems_succ (hstart.mpr h), hskip]
  · rw [parseItems_of_not_startsItem h, parseItems_of_not_startsItem (mt hstart.mp h)]

theorem ReadsItem.skipWs (h : ReadsItem item text b) : skipWs (text ++ rest) = text ++ rest := by
  obtain ⟨d, t, rfl⟩ := List.exists_cons_of_ne_nil h.nonempty
  apply dropWhile_of_stopsAt
  rw [List.cons_append, stopsAt_cons]
  exact h.noBlank

theorem ReadsItem.startsItem (h : ReadsItem item text b) : startsItem (text ++ rest) = true := by
  have hskip : MiniDb.skipWs (text ++ rest) = text ++ rest := h.skipWs
  obtain ⟨d, t, rfl⟩ := List.exists_cons_of_ne_nil h.nonempty
  exact startsItem_iff.mpr ⟨by simp, h.noBracket, by rw [hskip]; exact h.noBracket⟩

/-- An item is read off a list. -/
theorem ReadsItem.parseItems (h : ReadsItem item text b) (hc : c = ch ',' ∨ c = ch ')')
    (room : Nat) : MiniDb.parseItems item (room + 1) (text ++ c :: rest) =
      MiniDb.parseItems item room (afterItem (c :: rest)) >>= fun l => pure (b :: l) := by
  rw [parseItems_succ h.startsItem, h.skipWs, h.read c rest hc, ParseM.ok_bind]

/-- The text of a list begins with its first item. -/
theorem itemsText_cons (write : α → CString) (a : α) (l : List α) :
    ∃ c rest, (c = ch ',' ∨ c = ch ')') ∧ itemsText write (a :: l) = write a ++ c :: rest := by
  cases l with
  | nil => exact ⟨_, _, .inr rfl, rfl⟩
  | cons b l => exact ⟨_, _, .inl rfl, rfl⟩

/-- What is made of a list that is read, where the array reaches. -/
theorem fits_bind {γ : Type} (fits : Prop) [Decidable fits] (l : List β) (f : List β → γ) :
    ((if fits then .ok l else .error .outOfBounds : ParseM (List β)) >>= fun x => pure (f x)) =
      if fits then .ok (f l) else .error .outOfBounds := by
  split
  · rfl
  · rfl

/-- **A list of readable items is read**, as far as the array reaches; with an item more the loop
writes behind it. -/
theorem parseItems_itemsText (l : List α) (room : Nat)
    (hread : ∀ a ∈ l, ReadsItem item (write a) (val a)) :
    parseItems item room (itemsText write l) =
      if l.length ≤ room then .ok (l.map val) else .error .outOfBounds := by
  have hend : ∀ room, parseItems item room [ch ')'] = .ok [] := fun room =>
    parseItems_of_not_startsItem (by decide) room
  induction l generalizing room with
  | nil => exact hend room
  | cons a l ih =>
    have ha := hread a (by simp)
    cases room with
    | zero =>
      obtain ⟨c, rest, -, htext⟩ := itemsText_cons write a l
      rw [htext, parseItems_zero ha.startsItem, if_neg (by simp)]
    | succ room =>
      have hrest := ih room fun a' ha' => hread a' (List.mem_cons_of_mem _ ha')
      have hlist : parseItems item (room + 1) (itemsText write (a :: l)) =
          parseItems item room (itemsText write l) >>= fun l => pure (val a :: l) := by
        cases l with
        | nil => exact ha.parseItems (.inr rfl) room
        | cons b l =>
          have hcomma : afterItem (ch ',' :: ch ' ' :: itemsText write (b :: l)) =
              ch ' ' :: itemsText write (b :: l) := rfl
          rw [itemsText, ha.parseItems (.inl rfl), hcomma, parseItems_blank (itemsText_ne_nil _)]
      rw [hlist, hrest, fits_bind]
      simp only [List.length_cons, Nat.add_le_add_iff_right, List.map_cons]

theorem itemsText_noNul {l : List α} (h : ∀ a ∈ l, 0 ∉ write a) : 0 ∉ itemsText write l := by
  induction l with
  | nil => simp [itemsText, ch]
  | cons a l ih =>
    have ha := h a (by simp)
    cases l with
    | nil => simp [itemsText, ha, ch]
    | cons b l =>
      have hl := ih fun a' ha' => h a' (List.mem_cons_of_mem _ ha')
      rw [itemsText, List.mem_append]
      simp [ha, hl, ch]

theorem keepsEnd_itemsText (write : α → CString) (l : List α) : KeepsEnd (itemsText write l) := by
  have hend : KeepsEnd [ch ')'] := ⟨[], ch ')', rfl, by decide, by decide⟩
  induction l with
  | nil => exact hend
  | cons a l ih =>
    cases l with
    | nil => exact hend.append _
    | cons b l => exact (ih.append [ch ',', ch ' ']).append (write a)

end Items

/-! ## Values -/

/-- A value as it is written: in quotes, or bare. -/
inductive ValueWord where
  | quoted (text : CString)
  | bare (text : CString)

namespace ValueWord

/-- What is meant. -/
def value : ValueWord → CString
  | quoted text => text
  | bare text => text

def text : ValueWord → CString
  | quoted text => quote :: (text ++ [quote])
  | bare text => text

/-- A character of a bare value. -/
def bareChar (c : UInt8) : Bool := c != ch ',' && c != ch ')' && !isspace c

/-- The value fits its buffer, and nothing in it ends it. -/
def WellFormed : ValueWord → Prop
  | quoted text => text.length ≤ 255 ∧ quote ∉ text ∧ 0 ∉ text
  | bare text => text.length ≤ 255 ∧ text ≠ [] ∧ deref text ≠ quote ∧ 0 ∉ text ∧
      ∀ c ∈ text, bareChar c = true

theorem WellFormed.noNul {w : ValueWord} (h : w.WellFormed) : 0 ∉ w.text := by
  cases w with
  | quoted text =>
    have hnul := h.2.2
    simp [ValueWord.text, hnul, quote]
  | bare text => exact h.2.2.2.1

theorem WellFormed.reads {w : ValueWord} (h : w.WellFormed) :
    ReadsItem parseInsertValue w.text w.value := by
  cases w with
  | quoted text =>
    obtain ⟨hlen, hquote, -⟩ := h
    refine ⟨by simp [ValueWord.text], rfl, show quote ≠ ch ')' by decide, fun c rest _ => ?_⟩
    have hspan : spanUpTo (· != quote) 255 (text ++ quote :: c :: rest) =
        (text, quote :: c :: rest) :=
      spanUpTo_of_append (fun d hd => bne_iff_ne.mpr fun heq => hquote (heq ▸ hd)) hlen
        (.inl (by simp))
    have htext : (ValueWord.quoted text).text ++ c :: rest =
        quote :: (text ++ quote :: c :: rest) := by
      simp [ValueWord.text]
    rw [htext, parseInsertValue, if_pos (show deref (quote :: _) = quote from rfl), List.tail_cons,
      readInto_value, hspan]
    rfl
  | bare text =>
    obtain ⟨hlen, hne, hquote, -, hchars⟩ := h
    obtain ⟨d, t, rfl⟩ := List.exists_cons_of_ne_nil hne
    have hd := hchars d (by simp)
    simp only [bareChar, Bool.and_eq_true, bne_iff_ne, Bool.not_eq_true'] at hd
    refine ⟨hne, hd.2, hd.1.2, fun c rest hc => ?_⟩
    have hstop : StopsAt bareChar (c :: rest) := by
      rw [stopsAt_cons]
      rcases hc with rfl | rfl
      · decide
      · decide
    have hspan : spanUpTo bareChar 255 (d :: t ++ c :: rest) = (d :: t, c :: rest) :=
      spanUpTo_of_append hchars hlen (.inl hstop)
    show parseInsertValue (d :: t ++ c :: rest) = .ok (d :: t, c :: rest)
    rw [parseInsertValue, if_neg (show ¬ deref (d :: t ++ c :: rest) = quote from hquote),
      readInto_value]
    exact congrArg Except.ok hspan

end ValueWord

/-! ## Columns

The fixed words of a text are computed with, character by character. -/

set_option maxRecDepth 4000

/-- A type as it is written; behind VARCHAR there may be a length. -/
inductive TypeWord where
  | int
  | bigint
  | varchar (length : Option CString)

/-- A column as it is written. -/
structure ColumnWord where
  name : CString
  type : TypeWord

def TypeWord.text : TypeWord → CString
  | .int => cstr "INT"
  | .bigint => cstr "BIGINT"
  | .varchar none => cstr "VARCHAR"
  | .varchar (some n) => cstr "VARCHAR" ++ (ch '(' :: (n ++ [ch ')']))

/-- A character of a name is neither a blank nor a comma nor a bracket. -/
theorem nameChar_separators {c : UInt8} (h : nameChar c = true) :
    isspace c = false ∧ c ≠ ch ',' ∧ c ≠ ch ')' ∧ c ≠ ch '(' := by
  have hb := nameChar_bounds h
  refine ⟨(nameChar_ok h).2.2, ?_, ?_, ?_⟩
  · rintro rfl
    exact absurd hb (by decide)
  · rintro rfl
    exact absurd hb (by decide)
  · rintro rfl
    exact absurd hb (by decide)

namespace ColumnWord

def text (w : ColumnWord) : CString := w.name ++ (ch ' ' :: w.type.text)

/-- What is meant; the length is kept in 16 bits. -/
def column (w : ColumnWord) : ColumnDef :=
  match w.type with
  | .int => ⟨w.name, .int, 4⟩
  | .bigint => ⟨w.name, .bigint, 8⟩
  | .varchar none => ⟨w.name, .varchar, 32⟩
  | .varchar (some n) => ⟨w.name, .varchar, digitsValue 0 n % 2 ^ 16⟩

structure WellFormed (w : ColumnWord) : Prop where
  name : IsName w.name
  length : ∀ n, w.type = .varchar (some n) → IsNumber n

/-- A number is read up to the bracket behind it. -/
theorem atoi_bracket {n : CString} (h : IsNumber n) (rest : CString) :
    toU16 (atoi (n ++ ch ')' :: rest)) = digitsValue 0 n % 2 ^ 16 := by
  have hdigits : ∀ acc, digitsValue acc (n ++ ch ')' :: rest) = digitsValue acc n := by
    have hall := h.digits
    clear h
    induction n with
    | nil => exact fun acc => if_neg (by decide)
    | cons d n ih =>
      intro acc
      have htail := ih fun e he => hall e (List.mem_cons_of_mem _ he)
      rw [List.cons_append, digitsValue, digitsValue, htail]
  have hvalue := hdigits 0
  obtain ⟨d, t, rfl⟩ := List.exists_cons_of_ne_nil h.nonempty
  have hd := h.digits d (by simp)
  have hskip : skipWs (d :: t ++ ch ')' :: rest) = d :: t ++ ch ')' :: rest := by
    apply dropWhile_of_stopsAt
    rw [List.cons_append, stopsAt_cons]
    exact (nameChar_ok (nameChar_of_isdigit hd)).2.2
  have hminus : ¬ deref (d :: t ++ ch ')' :: rest) = ch '-' := by
    show ¬ d = ch '-'
    rintro rfl
    exact absurd hd (by decide)
  have hplus : ¬ deref (d :: t ++ ch ')' :: rest) = ch '+' := by
    show ¬ d = ch '+'
    rintro rfl
    exact absurd hd (by decide)
  have hsmall := h.small
  rw [atoi, atoll]
  simp only [hskip, if_neg hminus, if_neg hplus, hvalue, toU16, int64Min, int64Max]
  generalize digitsValue 0 (d :: t) = v at hsmall ⊢
  have hclamp : max (-9223372036854775808) (min 9223372036854775807 (v : Int)) = v := by omega
  rw [hclamp, Int.bmod_eq_of_le (by omega) (by omega)]
  omega

/-- The length behind VARCHAR. -/
theorem varcharSize_bracket {n : CString} (h : IsNumber n) (rest : CString) :
    varcharSize (ch '(' :: (n ++ ch ')' :: rest)) = (digitsValue 0 n % 2 ^ 16, rest) := by
  have hclose : (n ++ ch ')' :: rest).dropWhile (· != ch ')') = ch ')' :: rest := by
    refine dropWhile_append_of_stopsAt (fun d hd => ?_) (by simp)
    rw [bne_iff_ne]
    rintro rfl
    exact absurd (h.digits _ hd) (by decide)
  have hskip : skipWs (ch '(' :: (n ++ ch ')' :: rest)) = ch '(' :: (n ++ ch ')' :: rest) := rfl
  rw [varcharSize]
  dsimp only
  rw [hskip, if_pos (show deref (ch '(' :: _) = ch '(' from rfl), List.tail_cons, atoi_bracket h,
    hclose]
  rfl

theorem WellFormed.noNul {w : ColumnWord} (h : w.WellFormed) : 0 ∉ w.text := by
  have htype : 0 ∉ w.type.text := by
    cases ht : w.type with
    | int => decide
    | bigint => decide
    | varchar length =>
      cases length with
      | none => decide
      | some n =>
        have hdigits := (h.length n ht).digits
        have hnul : 0 ∉ n := fun h0 => absurd (hdigits 0 h0) (by decide)
        have hword : 0 ∉ cstr "VARCHAR" := by decide
        simp [TypeWord.text, hword, hnul, ch]
  simp [text, h.name.ne_nul, htype, ch]

/-- The name of a column ends at the blank, the type at a comma or a bracket. -/
theorem parseColumn_words {name word q : CString} {e : UInt8} (hname : IsName name)
    (hword : IsName word) (he : e = ch ',' ∨ e = ch ')' ∨ e = ch '(') :
    parseColumn (name ++ ch ' ' :: (word ++ e :: q)) =
      if keyword (cstr "INT") word && word.length == 3 then .ok (⟨name, .int, 4⟩, e :: q)
      else if keyword (cstr "BIGINT") word then .ok (⟨name, .bigint, 8⟩, e :: q)
      else if keyword (cstr "VARCHAR") word then
        .ok (⟨name, .varchar, (varcharSize (e :: q)).1⟩, (varcharSize (e :: q)).2)
      else .error .reject := by
  have hnameSpan : spanUpTo (fun c => !isspace c && c != ch ',' && c != ch ')') 31
      (name ++ ch ' ' :: (word ++ e :: q)) = (name, ch ' ' :: (word ++ e :: q)) := by
    refine spanUpTo_name hname (fun c hc => ?_) (stopsAt_cons.mpr rfl)
    obtain ⟨hspace, hcomma, hclose, -⟩ := nameChar_separators hc
    simp [hspace, hcomma, hclose]
  have hwordSpan : spanUpTo (fun c => c != ch ',' && c != ch ')' && c != ch '(' && !isspace c) 31
      (word ++ e :: q) = (word, e :: q) := by
    refine spanUpTo_name hword (fun c hc => ?_) (stopsAt_cons.mpr ?_)
    · obtain ⟨hspace, hcomma, hclose, hopen⟩ := nameChar_separators hc
      simp [hspace, hcomma, hclose, hopen]
    · rcases he with rfl | rfl | rfl
      · rfl
      · rfl
      · rfl
  have hskip : skipWs (ch ' ' :: (word ++ e :: q)) = word ++ e :: q := skipWs_name hword
  rw [parseColumn]
  simp only [readInto_name, ParseM.ok_bind, ParseM.pure_eq, ParseM.throw_eq, hnameSpan, hskip,
    hwordSpan]

/-- A column is read off its text. -/
theorem WellFormed.reads {w : ColumnWord} (h : w.WellFormed) :
    ReadsItem parseColumn w.text w.column := by
  obtain ⟨name, type⟩ := w
  have hname : IsName name := h.name
  obtain ⟨d, t, rfl⟩ := List.exists_cons_of_ne_nil hname.nonempty
  obtain ⟨hspace, -, hclose, -⟩ := nameChar_separators (hname.chars d (by simp))
  refine ⟨by simp [text], hspace, hclose, fun c rest hc => ?_⟩
  have hc' : c = ch ',' ∨ c = ch ')' ∨ c = ch '(' := hc.imp_right .inl
  have htext : ∀ ty, text ⟨d :: t, ty⟩ ++ c :: rest =
      (d :: t) ++ ch ' ' :: (ty.text ++ c :: rest) := fun ty => by simp [text]
  rw [htext]
  cases type with
  | int =>
    have hword : IsName (cstr "INT") := ⟨by decide, by decide, by decide⟩
    rw [TypeWord.text, parseColumn_words hname hword hc']
    rfl
  | bigint =>
    have hword : IsName (cstr "BIGINT") := ⟨by decide, by decide, by decide⟩
    rw [TypeWord.text, parseColumn_words hname hword hc']
    rfl
  | varchar length =>
    have hword : IsName (cstr "VARCHAR") := ⟨by decide, by decide, by decide⟩
    cases length with
    | none =>
      have hsize : varcharSize (c :: rest) = (32, c :: rest) := by
        rcases hc with rfl | rfl
        · rfl
        · rfl
      rw [TypeWord.text, parseColumn_words hname hword hc', hsize]
      rfl
    | some n =>
      have htype : (TypeWord.varchar (some n)).text ++ c :: rest =
          cstr "VARCHAR" ++ ch '(' :: (n ++ ch ')' :: (c :: rest)) := by
        simp [TypeWord.text]
      rw [htype, parseColumn_words hname hword (.inr (.inr rfl)),
        varcharSize_bracket (h.length n rfl)]
      rfl

end ColumnWord

/-! ## Statements -/

/-- A CREATE TABLE or an INSERT. -/
inductive ListText where
  | create (table : CString) (columns : List ColumnWord)
  | insert (table : CString) (values : List ValueWord)

namespace ListText

def text : ListText → CString
  | create table columns =>
    cstr "CREATE TABLE " ++ (table ++ (ch ' ' :: ch '(' :: itemsText ColumnWord.text columns))
  | insert table values =>
    cstr "INSERT INTO " ++
      (table ++ (ch ' ' :: (cstr "VALUES (" ++ itemsText ValueWord.text values)))

/-- The statement that is meant. -/
def statement : ListText → Statement
  | create table columns =>
    { type := .createTable, tableName := table, colDefs := columns.map ColumnWord.column }
  | insert table values =>
    { type := .insert, tableName := table, insertValues := values.map ValueWord.value }

/-- The length of the list. -/
def count : ListText → Nat
  | create _ columns => columns.length
  | insert _ values => values.length

def ItemsWellFormed : ListText → Prop
  | create table columns => IsName table ∧ ∀ w ∈ columns, w.WellFormed
  | insert table values => IsName table ∧ ∀ w ∈ values, w.WellFormed

/-- Names are names, values and lengths can be read, and the text fits the parser's buffer. -/
structure WellFormed (s : ListText) : Prop where
  items : s.ItemsWellFormed
  length : s.text.length < 4096

/-- A text is taken as it is when nothing is cut off at its ends. -/
theorem commandText_eq {w : CString} (hnul : 0 ∉ w) (hlen : w.length < 4096) (hend : KeepsEnd w)
    (hskip : skipWs w = w) : commandText w = w := by
  have hne : ∀ c ∈ w, (c != 0) = true := by
    intro c hc
    rw [bne_iff_ne]
    rintro rfl
    exact hnul hc
  rw [commandText, List.takeWhile_eq_self_iff.mpr hne, List.take_of_length_le (by omega),
    hend.trim, hskip]

theorem commandText_text {s : ListText} (h : s.WellFormed) : commandText s.text = s.text := by
  have hlen := h.length
  have hitems := h.items
  cases s with
  | create table columns =>
    have hword : 0 ∉ cstr "CREATE TABLE " := by decide
    have hlist := itemsText_noNul fun w hw => (hitems.2 w hw).noNul
    refine commandText_eq ?_ hlen ?_ rfl
    · simp [text, hword, hitems.1.ne_nul, hlist, ch]
    · have hend := keepsEnd_itemsText ColumnWord.text columns
      exact ((hend.append [ch ' ', ch '(']).append table).append _
  | insert table values =>
    have hword : 0 ∉ cstr "INSERT INTO " := by decide
    have hvalues : 0 ∉ cstr "VALUES (" := by decide
    have hlist := itemsText_noNul fun w hw => (hitems.2 w hw).noNul
    refine commandText_eq ?_ hlen ?_ rfl
    · simp [text, hword, hvalues, hitems.1.ne_nul, hlist, ch]
    · have hend := keepsEnd_itemsText ValueWord.text values
      have hlast := hend.append (ch ' ' :: cstr "VALUES (")
      exact (hlast.append table).append _

theorem parseCommand_create {table : CString} {columns : List ColumnWord} (hname : IsName table)
    (hcols : ∀ w ∈ columns, w.WellFormed) :
    parseCommand (create table columns).text =
      if columns.length ≤ maxColumns then .ok (create table columns).statement
      else .error .outOfBounds := by
  set list := itemsText ColumnWord.text columns with hlist
  have hitems : parseItems parseColumn maxColumns list = _ :=
    parseItems_itemsText columns maxColumns fun w hw => (hcols w hw).reads
  have hcreate : keyword (cstr "CREATE") (create table columns).text = true := rfl
  have htable : skipWs ((cstr "TABLE " ++ (table ++ ch ' ' :: ch '(' :: list)).drop 5) =
      table ++ ch ' ' :: ch '(' :: list := skipWs_name hname
  have hspan : spanUpTo (fun c => !isspace c && c != ch '(') 31
      (table ++ ch ' ' :: ch '(' :: list) = (table, ch ' ' :: ch '(' :: list) :=
    spanUpTo_name hname (fun c hc => by simp [nameChar_separators hc]) (stopsAt_cons.mpr rfl)
  rw [parseCommand, if_pos hcreate]
  show parseCreateTable (skipWs ((cstr "TABLE " ++ (table ++ ch ' ' :: ch '(' :: list)).drop 5))
    { type := .createTable } = _
  rw [htable, parseCreateTable]
  simp only [skipWs_name hname, readInto_name, ParseM.ok_bind, hspan]
  have hopen : skipWs (ch ' ' :: ch '(' :: list) = ch '(' :: list := rfl
  have hbracket : ¬ deref (ch '(' :: list) ≠ ch '(' := not_not.mpr rfl
  rw [hopen, if_neg hbracket, List.tail_cons, hitems]
  exact fits_bind _ _ _

theorem parseCommand_insert {table : CString} {values : List ValueWord} (hname : IsName table)
    (hvalues : ∀ w ∈ values, w.WellFormed) :
    parseCommand (insert table values).text =
      if values.length ≤ maxColumns then .ok (insert table values).statement
      else .error .outOfBounds := by
  set list := itemsText ValueWord.text values with hlist
  have hitems : parseItems parseInsertValue maxColumns list = _ :=
    parseItems_itemsText values maxColumns fun w hw => (hvalues w hw).reads
  have hinsert : keyword (cstr "INSERT") (insert table values).text = true := rfl
  have hcreate : ¬ keyword (cstr "CREATE") (insert table values).text = true :=
    command_exclusive hinsert
  have htable : skipWs ((cstr "INTO " ++ (table ++ ch ' ' :: (cstr "VALUES (" ++ list))).drop 4) =
      table ++ ch ' ' :: (cstr "VALUES (" ++ list) := skipWs_name hname
  have hspan : spanUpTo (fun c => !isspace c) 31 (table ++ ch ' ' :: (cstr "VALUES (" ++ list)) =
      (table, ch ' ' :: (cstr "VALUES (" ++ list)) :=
    spanUpTo_name hname (fun c hc => by simp [nameChar_separators hc]) (stopsAt_cons.mpr rfl)
  rw [parseCommand, if_neg hcreate, if_pos hinsert]
  show parseInsert (cstr "INTO " ++ (table ++ ch ' ' :: (cstr "VALUES (" ++ list)))
    { type := .insert } = _
  rw [parseInsert]
  have hskip : skipWs (cstr "INTO " ++ (table ++ ch ' ' :: (cstr "VALUES (" ++ list))) =
      cstr "INTO " ++ (table ++ ch ' ' :: (cstr "VALUES (" ++ list)) := rfl
  have hinto : keyword (cstr "INTO") (cstr "INTO " ++ (table ++ ch ' ' ::
      (cstr "VALUES (" ++ list))) = true := rfl
  have hword : skipWs (ch ' ' :: (cstr "VALUES (" ++ list)) = cstr "VALUES (" ++ list := rfl
  have hkeyword : keyword (cstr "VALUES") (cstr "VALUES (" ++ list) = true := rfl
  have hopen : skipWs ((cstr "VALUES (" ++ list).drop 6) = ch '(' :: list := rfl
  have hbracket : ¬ deref (ch '(' :: list) ≠ ch '(' := not_not.mpr rfl
  simp only [hskip, hinto, Bool.not_true, Bool.false_eq_true, if_false, htable, readInto_name,
    ParseM.ok_bind, ParseM.pure_eq, hspan, hword, hkeyword, hopen]
  rw [if_neg hbracket, List.tail_cons, hitems]
  exact fits_bind _ _ _

/-- **The text is read as the statement that is meant**, if it has at most sixteen items; with more
items the parser writes behind its array. -/
theorem parse_text {s : ListText} (h : s.WellFormed) :
    parse s.text =
      if s.count ≤ maxColumns then .ok s.statement else .error .outOfBounds := by
  have hcommand := commandText_text h
  have hitems := h.items
  cases s with
  | create table columns =>
    have hcreate : keyword (cstr "CREATE") (create table columns).text = true := rfl
    rw [parse_command (by rw [hcommand]; exact command_exclusive hcreate), hcommand]
    exact parseCommand_create hitems.1 hitems.2
  | insert table values =>
    have hinsert : keyword (cstr "INSERT") (insert table values).text = true := rfl
    rw [parse_command (by rw [hcommand]; exact command_exclusive hinsert), hcommand]
    exact parseCommand_insert hitems.1 hitems.2

end ListText

end MiniDb
