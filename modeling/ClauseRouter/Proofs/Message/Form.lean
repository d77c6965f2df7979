import ClauseRouter.Message.Request
import ClauseRouter.Proofs.Bytes
import ClauseRouter.Proofs.Dict

/-!
# Forms are read as they were written

A client may write one text in a form in many ways: each byte as it is, unless it has a meaning of its
own there, or as a percent sign with two digits in base 16, and a blank as a plus sign too.

**Writing.**  `Form.WritesByte`, `Form.WritesText`, `Form.WritesPair` and `Form.WritesForm` are the ways
to write a byte, a text, a pair and a list of pairs.

**Reading.**  Whatever way is taken, `Form.decode` gives back the text, `Form.pair` the pair and
`Form.pairs` the list of pairs.

**Requests.**  `Request.create_written` is about a target with a query and perhaps a form in the body;
whether there is a form is said by the headers as they were sent (`Request.DeclaresForm`).
-/

namespace ClauseRouter

namespace Form

/-! ## Writing -/

/-- A byte is the digit of a number in base 16, with letters of either case. -/
def IsDigitOf (n : Nat) (digit : UInt8) : Prop :=
  (ascii "0123456789ABCDEF")[n]? = some digit ∨ (ascii "0123456789abcdef")[n]? = some digit

instance (n : Nat) (digit : UInt8) : Decidable (IsDigitOf n digit) :=
  inferInstanceAs (Decidable (_ ∨ _))

/-- The bytes that have a meaning of their own in a form. -/
def reserved : Bytes := ascii "%+&="

/-- **The ways to write a byte.** -/
inductive WritesByte : UInt8 → Bytes → Prop
  | itself {b : UInt8} (free : b ∉ reserved) : WritesByte b [b]
  | blank : WritesByte Byte.space [Byte.plus]
  | escaped {b high low : UInt8} (isHigh : IsDigitOf (b.toNat / 16) high)
      (isLow : IsDigitOf (b.toNat % 16) low) : WritesByte b [Byte.percent, high, low]

/-- The ways to write a text: each byte in one of its ways. -/
inductive WritesText : Bytes → Bytes → Prop
  | nil : WritesText [] []
  | cons {b : UInt8} {text piece written : Bytes} (first : WritesByte b piece)
      (rest : WritesText text written) : WritesText (b :: text) (piece ++ written)

/-- The ways to write a pair: its key and its value, with an equals sign between them. -/
def WritesPair (pair : Bytes × Bytes) (written : Bytes) : Prop :=
  ∃ key value, WritesText pair.1 key ∧ WritesText pair.2 value ∧
    written = key ++ Byte.equals :: value

/-- The ways to write a list of pairs: each pair in one of its ways, with ampersands between them. -/
def WritesForm (pairs : List (Bytes × Bytes)) (form : Bytes) : Prop :=
  ∃ pieces, List.Forall₂ WritesPair pairs pieces ∧ form = Bytes.join Byte.ampersand pieces

/-! ## Reading -/

/-- What is read from a digit is the number that it is the digit of. -/
lemma hexValue?_digit {n : Nat} {digit : UInt8} (isDigit : IsDigitOf n digit) :
    Bytes.hexValue? digit = some n := by
  have upper : ∀ m < 16, (ascii "0123456789ABCDEF")[m]?.all (Bytes.hexValue? · == some m) := by decide
  have lower : ∀ m < 16, (ascii "0123456789abcdef")[m]?.all (Bytes.hexValue? · == some m) := by decide
  have below : n < 16 := by
    rcases isDigit with found | found <;>
      exact (List.getElem?_eq_some_iff.mp found).1
  rcases isDigit with found | found
  · simpa [found] using upper n below
  · simpa [found] using lower n below

/-- A byte is made up of its two digits. -/
lemma ofNat_digits (b : UInt8) : UInt8.ofNat (16 * (b.toNat / 16) + b.toNat % 16) = b := by
  rw [Nat.div_add_mod]
  exact UInt8.ofNat_toNat

lemma decode_escaped {n m : Nat} {high low : UInt8} (isHigh : IsDigitOf n high)
    (isLow : IsDigitOf m low) (rest : Bytes) :
    decode (Byte.percent :: high :: low :: rest) = UInt8.ofNat (16 * n + m) :: decode rest := by
  refine (decode.eq_3 high low rest).trans ?_
  rw [hexValue?_digit isHigh, hexValue?_digit isLow]

/-- **What is written for a byte is read as this byte,** whatever comes behind. -/
lemma decode_byte {b : UInt8} {piece : Bytes} (written : WritesByte b piece) (rest : Bytes) :
    decode (piece ++ rest) = b :: decode rest := by
  cases written with
  | itself free =>
      have notPlus : b ≠ Byte.plus := by rintro rfl; exact free (by decide)
      have notPercent : b ≠ Byte.percent := by rintro rfl; exact free (by decide)
      exact decode.eq_4 b rest notPlus fun _ _ _ percent _ => notPercent percent
  | blank => rfl
  | escaped isHigh isLow =>
      simp only [List.cons_append, List.nil_append, decode_escaped isHigh isLow, ofNat_digits]

/-- What is written for a text is read as this text. -/
lemma decode_text {text written : Bytes} (h : WritesText text written) : decode written = text := by
  induction h with
  | nil => rfl
  | cons first _ ih => rw [decode_byte first, ih]

/-- No separator of a form is written for a byte. -/
lemma not_mem_of_writesByte {b separator : UInt8} {piece : Bytes} (written : WritesByte b piece)
    (separates : separator = Byte.ampersand ∨ separator = Byte.equals) : separator ∉ piece := by
  have isReserved : separator ∈ reserved := by rcases separates with rfl | rfl <;> decide
  have noDigit : Bytes.hexValue? separator = none := by rcases separates with rfl | rfl <;> decide
  have noPlus : separator ∉ [Byte.plus] := by rcases separates with rfl | rfl <;> decide
  have noPercent : separator ≠ Byte.percent := by rcases separates with rfl | rfl <;> decide
  cases written with
  | itself free =>
      rintro mem
      rw [List.mem_singleton.mp mem] at isReserved
      exact free isReserved
  | blank => exact noPlus
  | escaped isHigh isLow =>
      have digit : ∀ {n}, ¬ IsDigitOf n separator := fun isDigit => by
        simpa [noDigit] using hexValue?_digit isDigit
      rintro mem
      simp only [List.mem_cons, List.not_mem_nil, or_false, noPercent, false_or] at mem
      rcases mem with rfl | rfl
      · exact digit isHigh
      · exact digit isLow

/-- No separator of a form is written for a text. -/
lemma not_mem_of_writesText {text written : Bytes} {separator : UInt8} (h : WritesText text written)
    (separates : separator = Byte.ampersand ∨ separator = Byte.equals) : separator ∉ written := by
  induction h with
  | nil => exact List.not_mem_nil
  | cons first _ ih =>
      rw [List.mem_append, not_or]
      exact ⟨not_mem_of_writesByte first separates, ih⟩

/-- **What is written for a pair is read as this pair.** -/
lemma pair_written {keyValue : Bytes × Bytes} {written : Bytes} (h : WritesPair keyValue written) :
    pair written = keyValue := by
  obtain ⟨key, value, ofKey, ofValue, rfl⟩ := h
  have cut : Bytes.cut? Byte.equals (key ++ Byte.equals :: value) = some (key, value) :=
    Bytes.cut?_eq_some.mpr ⟨rfl, not_mem_of_writesText ofKey (.inr rfl)⟩
  rw [pair, cut]
  simp only [decode_text ofKey, decode_text ofValue]

/-- A pair that is written is not empty, and ends before the next ampersand. -/
lemma piece_of_writesPair {keyValue : Bytes × Bytes} {written : Bytes}
    (h : WritesPair keyValue written) : written ≠ [] ∧ Byte.ampersand ∉ written := by
  obtain ⟨key, value, ofKey, ofValue, rfl⟩ := h
  have apart : Byte.ampersand ≠ Byte.equals := by decide
  have noKey := not_mem_of_writesText ofKey (.inl rfl)
  have noValue := not_mem_of_writesText ofValue (.inl rfl)
  simp [noKey, noValue, apart]

lemma read_pieces {list : List (Bytes × Bytes)} {pieces : List Bytes}
    (each : List.Forall₂ WritesPair list pieces) :
    (∀ piece ∈ pieces, piece ≠ [] ∧ Byte.ampersand ∉ piece) ∧ pieces.map pair = list := by
  induction each with
  | nil => simp
  | cons first _ ih =>
      rw [List.forall_mem_cons, List.map_cons, pair_written first, ih.2]
      exact ⟨⟨piece_of_writesPair first, ih.1⟩, rfl⟩

/-- **What is written for a list of pairs is read as this list.** -/
lemma pairs_written {list : List (Bytes × Bytes)} {form : Bytes} (h : WritesForm list form) :
    pairs form = list := by
  obtain ⟨pieces, each, rfl⟩ := h
  obtain ⟨free, read⟩ := read_pieces each
  by_cases none : pieces = []
  · -- where there are no pairs there is still one piece, the empty one
    subst none
    rw [← read]
    decide
  · have kept : pieces.filter (fun piece => !piece.isEmpty) = pieces :=
      List.filter_eq_self.mpr fun piece mem => by simpa using (free piece mem).1
    rw [pairs, Bytes.split_join none fun piece mem => (free piece mem).2, kept, read]

/-! ## Requests -/

/-- The value of the last pair of a key. -/
def last? (pairs : List (Bytes × Bytes)) (key : Bytes) : Option Bytes := pairs.reverse.lookup key

/-- **The parameters after a form was read:** the last pair of a key counts, and where there is none what
was there before. -/
lemma get?_addTo {list : List (Bytes × Bytes)} {form : Bytes} (h : WritesForm list form)
    (params : Dict Bytes) (key : Bytes) :
    (addTo params form).get? key = (last? list key).or (params.get? key) := by
  rw [addTo, pairs_written h, Dict.get?_putAll, last?]

end Form

namespace Request

/-- The media type that headers tell, as they were sent: the value of the last one that has this name
in any spelling. -/
def declaredType? (headers : Dict Bytes) : Option Bytes :=
  (headers.toList.filter fun entry => headerKey entry.1 == ascii "content-type").getLast?.map Prod.snd

/-- The headers tell that the body is a form: by the front of the media type, in letters of any case. -/
def DeclaresForm (headers : Dict Bytes) : Prop :=
  ∃ front rest, declaredType? headers = some (front ++ rest) ∧
    Bytes.lower front = ascii "application/x-www-form-urlencoded"

/-- Of the headers that were sent under one key the last is kept. -/
lemma get?_headersOf (entries : List (Bytes × Bytes)) (key : Bytes) :
    (headersOf entries).get? key
      = (entries.filter fun entry => headerKey entry.1 == key).getLast?.map Prod.snd := by
  rw [headersOf, Dict.get?_ofList, lookup_eq_find?, ← List.map_reverse, List.find?_map,
    List.getLast?_filter, Option.map_map]
  rfl

/-- Whether the body is taken for a form is told by the headers as they were sent. -/
lemma hasForm_iff {request : Request} {headers : Dict Bytes}
    (sent : request.headers = headersOf headers.toList) :
    request.hasForm = true ↔ DeclaresForm headers := by
  have key : headerKey (ascii "content-type") = ascii "content-type" := by decide
  have type : request.header (ascii "content-type") = (declaredType? headers).getD [] := by
    rw [header, Dict.getD, key, sent, get?_headersOf, declaredType?]
  rw [hasForm, List.isPrefixOf_iff_prefix, type, DeclaresForm]
  cases declared : declaredType? headers with
  | none => simp [Bytes.lower, formType, ascii]
  | some value =>
      rw [Option.getD_some, Bytes.lower, List.prefix_iff_exists_append_eq]
      constructor
      · rintro ⟨rest, split⟩
        obtain ⟨front, others, rfl, isType, -⟩ := List.map_eq_append_iff.mp split.symm
        exact ⟨front, others, rfl, isType⟩
      · rintro ⟨front, rest, same, isType⟩
        refine ⟨rest.map Bytes.lowerByte, ?_⟩
        rw [Option.some.inj same, List.map_append]
        exact congrArg (· ++ _) isType.symm

/-- A target with a question mark is cut there, and a body is read if it is told to be a form. -/
lemma create_of_cut (method body : Bytes) (headers : Dict Bytes) {uri path query : Bytes}
    (cut : Bytes.cut? Byte.question uri = some (path, query)) :
    ∃ params, create method uri headers body =
        { method, uri, path, query, body, params
          headers := headersOf headers.toList, cursor := .atStart path } ∧
      (DeclaresForm headers → params = Form.addTo (Form.addTo .empty query) body) ∧
      (¬ DeclaresForm headers → params = Form.addTo .empty query) := by
  simp only [create, cut, Option.getD_some]
  split
  case isTrue form =>
    have declared : DeclaresForm headers := (hasForm_iff rfl).mp form
    exact ⟨_, rfl, fun _ => rfl, fun none => absurd declared none⟩
  case isFalse noForm =>
    have none : ¬ DeclaresForm headers := fun declared => noForm ((hasForm_iff rfl).mpr declared)
    exact ⟨_, rfl, fun declared => absurd declared none, fun _ => rfl⟩

/-- **A request is made of what was written.**  The target is cut at its first question mark, and nothing
of its path is consumed.  The parameters are the pairs of the query, and over them those of the body if
the headers tell that it is a form; of pairs with one key the last counts. -/
theorem create_written (method path query body : Bytes) (headers : Dict Bytes)
    {asked : List (Bytes × Bytes)} (noQuestion : Byte.question ∉ path)
    (ofQuery : Form.WritesForm asked query) :
    let request := create method (path ++ Byte.question :: query) headers body
    request.path = path ∧ request.query = query ∧
    request.cursor.consumed = [] ∧ request.cursor.remaining = path ∧
    (DeclaresForm headers → ∀ sent, Form.WritesForm sent body → ∀ key,
      request.params.get? key = (Form.last? sent key).or (Form.last? asked key)) ∧
    (¬ DeclaresForm headers → ∀ key, request.params.get? key = Form.last? asked key) := by
  intro request
  have cut : Bytes.cut? Byte.question (path ++ Byte.question :: query) = some (path, query) :=
    Bytes.cut?_eq_some.mpr ⟨rfl, noQuestion⟩
  obtain ⟨params, made, ofForm, ofNoForm⟩ := create_of_cut method body headers cut
  have fromQuery (key : Bytes) : (Form.addTo .empty query).get? key = Form.last? asked key := by
    rw [Form.get?_addTo ofQuery, Dict.get?_empty, Option.or_none]
  dsimp only [request]
  rw [made]
  refine ⟨rfl, rfl, rfl, rfl, fun form sent ofBody key => ?_, fun noForm key => ?_⟩
  · rw [ofForm form, Form.get?_addTo ofBody, fromQuery]
  · rw [ofNoForm noForm, fromQuery]

/-- A query and a form; the form counts only where the headers, in an odd spelling, tell that there is
one. -/
theorem create_written_search :
    let create (headers : Dict Bytes) : Request :=
      create (ascii "POST") (ascii "/search?k=%4a+&=?") headers (ascii "k=%C3%a9")
    let form : Dict Bytes := Dict.ofList
      [(ascii "Content_Type", ascii "APPLICATION/x-www-form-urlencoded; charset=utf-8")]
    (create form).path = ascii "/search" ∧ (create form).query = ascii "k=%4a+&=?" ∧
    (create form).cursor.remaining = ascii "/search" ∧
    (create form).params.get? (ascii "k") = some [0xc3, 0xa9] ∧
    (create form).params.get? [] = some (ascii "?") ∧
    (create .empty).params.get? (ascii "k") = some (ascii "J ") := by
  intro create form
  have key : Form.WritesText (ascii "k") (ascii "k" ++ []) := .cons (.itself (by decide)) .nil
  have letter : Form.WritesText (ascii "J ") ([0x25, 0x34, 0x61] ++ ([Byte.plus] ++ [])) :=
    .cons (.escaped (by decide) (by decide)) (.cons .blank .nil)
  have mark : Form.WritesText (ascii "?") (ascii "?" ++ []) := .cons (.itself (by decide)) .nil
  have accented : Form.WritesText [0xc3, 0xa9] ([0x25, 0x43, 0x33] ++ ([0x25, 0x61, 0x39] ++ [])) :=
    .cons (.escaped (by decide) (by decide)) (.cons (.escaped (by decide) (by decide)) .nil)
  have ofQuery : Form.WritesForm [(ascii "k", ascii "J "), ([], ascii "?")] (ascii "k=%4a+&=?") :=
    ⟨[ascii "k=%4a+", ascii "=?"],
      .cons ⟨_, _, key, letter, by decide⟩ (.cons ⟨_, _, .nil, mark, by decide⟩ .nil), by decide⟩
  have ofBody : Form.WritesForm [(ascii "k", [0xc3, 0xa9])] (ascii "k=%C3%a9") :=
    ⟨[ascii "k=%C3%a9"], .cons ⟨_, _, key, accented, by decide⟩ .nil, by decide⟩
  have declared : DeclaresForm form :=
    ⟨ascii "APPLICATION/x-www-form-urlencoded", ascii "; charset=utf-8", by decide, by decide⟩
  have none : ¬ DeclaresForm .empty := by rintro ⟨_, _, told, _⟩; cases told
  have made := create_written (ascii "POST") (ascii "/search") (ascii "k=%4a+&=?") (ascii "k=%C3%a9")
  have target : ascii "/search" ++ Byte.question :: ascii "k=%4a+&=?" = ascii "/search?k=%4a+&=?" := by
    decide
  obtain ⟨path, query, _, remaining, read, _⟩ := made form (by decide) ofQuery
  obtain ⟨_, _, _, _, _, readQuery⟩ := made .empty (by decide) ofQuery
  rw [target] at path query remaining read readQuery
  refine ⟨path, query, remaining, ?_, ?_, ?_⟩
  · rw [read declared _ ofBody]
    decide
  · rw [read declared _ ofBody]
    decide
  · rw [readQuery none]
    decide

end Request

end ClauseRouter
