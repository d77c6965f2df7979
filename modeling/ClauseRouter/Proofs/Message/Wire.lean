import Mathlib.Data.List.TakeDrop
import ClauseRouter.Message.Wire
import ClauseRouter.Proofs.Bytes
import ClauseRouter.Proofs.Bytes.Decimal
import ClauseRouter.Proofs.Dict

/-!
# The wire text tells the response

A client reads lines up to the first one that is empty; what is behind that is the body, whatever bytes
there are.  The first line tells the status and its reason, and every other line a header.

**Reading.**  `Wire.decode?` is such a reader.  It cuts a header line at its first colon and a status
line at the blank behind the code.

**What is sent.**  `Wire.get?_sentHeaders` says where each header that is sent comes from: the response,
or else what is filled in (`Wire.filledIn?`).

`Wire.decode_encode` says that the reader finds what was sent, if the texts of the response fit into
their lines (`Response.FitsLines`).
-/

namespace ClauseRouter

namespace Wire

/-! ## Reading -/

/-- What a client reads. -/
structure Reading where
  status : Int
  reason : Bytes
  /-- The headers, line by line. -/
  headers : List (Bytes × Bytes)
  body : Bytes
  deriving DecidableEq, Repr

/-- The lines up to the first empty one, and what is behind it; the first line has begun already. -/
def linesFrom (begun : Bytes) : Bytes → Option (List Bytes × Bytes)
  | [] => none
  | Byte.carriageReturn :: Byte.newline :: rest =>
    if begun.isEmpty then some ([], rest)
    else (linesFrom [] rest).map fun (lines, body) => (begun :: lines, body)
  | b :: rest => linesFrom (begun ++ [b]) rest

/-- The status and the reason that the first line tells. -/
def status? (line : Bytes) : Option (Int × Bytes) := do
  let rest ← line.dropPrefix? (ascii "HTTP/1.1 ")
  let (code, reason) ← Bytes.cut? Byte.space rest
  return (← Decimal.integer? code, reason)

/-- The header that a line tells. -/
def header? (line : Bytes) : Option (Bytes × Bytes) := do
  let (name, rest) ← Bytes.cut? Byte.colon line
  let value ← rest.dropPrefix? [Byte.space]
  return (name, value)

/-- Reads a response. -/
def decode? (wire : Bytes) : Option Reading := do
  let (lines, body) ← linesFrom [] wire
  let (status, reason) ← status? (← lines.head?)
  let headers ← lines.tail.mapM header?
  return ⟨status, reason, headers, body⟩

/-! ## Lines -/

/-- A text that fits into a line: there is no end of a line in it. -/
structure InLine (text : Bytes) : Prop where
  noReturn : Byte.carriageReturn ∉ text
  noNewline : Byte.newline ∉ text

instance (text : Bytes) : Decidable (InLine text) :=
  decidable_of_iff (Byte.carriageReturn ∉ text ∧ Byte.newline ∉ text)
    ⟨fun h => ⟨h.1, h.2⟩, fun h => ⟨h.noReturn, h.noNewline⟩⟩

/-- A header that fits into its line: its name and its value do, and the name ends at the colon behind
it. -/
def FitsLine (entry : Bytes × Bytes) : Prop :=
  InLine entry.1 ∧ Byte.colon ∉ entry.1 ∧ InLine entry.2

instance (entry : Bytes × Bytes) : Decidable (FitsLine entry) := inferInstanceAs (Decidable (_ ∧ _))

lemma InLine.append {text more : Bytes} (h : InLine text) (h' : InLine more) :
    InLine (text ++ more) :=
  ⟨by simp [h.noReturn, h'.noReturn], by simp [h.noNewline, h'.noNewline]⟩

lemma inLine_integer (n : Int) : InLine (Decimal.integer n) :=
  ⟨Decimal.not_mem_integer (by decide) (by decide) n, Decimal.not_mem_integer (by decide) (by decide) n⟩

lemma inLine_natural (n : Nat) : InLine (Decimal.natural n) := inLine_integer n

/-- What has no end of a line in it is part of the line that has begun. -/
lemma linesFrom_append {text : Bytes} (inLine : InLine text) (begun rest : Bytes) :
    linesFrom begun (text ++ rest) = linesFrom (begun ++ text) rest := by
  induction text generalizing begun with
  | nil => simp
  | cons b text ih =>
      have later : InLine text :=
        ⟨fun mem => inLine.noReturn (List.mem_cons_of_mem b mem),
          fun mem => inLine.noNewline (List.mem_cons_of_mem b mem)⟩
      have other : b ≠ Byte.carriageReturn := by
        rintro rfl
        exact inLine.noReturn List.mem_cons_self
      rw [List.cons_append, linesFrom.eq_3 begun b _ fun _ same _ => other same, ih later]
      simp

lemma linesFrom_end {begun : Bytes} (some : begun ≠ []) (rest : Bytes) :
    linesFrom begun (lineEnd ++ rest)
      = (linesFrom [] rest).map fun (lines, body) => (begun :: lines, body) := by
  refine (linesFrom.eq_2 begun rest).trans (if_neg ?_)
  simpa using some

/-- **Lines that are not empty** are read one after the other up to the empty one. -/
lemma linesFrom_lines {lines : List Bytes} (fit : ∀ line ∈ lines, line ≠ [] ∧ InLine line)
    (body : Bytes) :
    linesFrom [] (lines.flatMap (· ++ lineEnd) ++ (lineEnd ++ body)) = some (lines, body) := by
  induction lines with
  | nil => rfl
  | cons line lines ih =>
      obtain ⟨⟨some, inLine⟩, others⟩ := List.forall_mem_cons.mp fit
      rw [List.flatMap_cons, List.append_assoc, List.append_assoc, linesFrom_append inLine,
        List.nil_append, linesFrom_end some, ih others]
      rfl

/-! ## The two kinds of lines -/

/-- The first line without its end. -/
def statusText (r : Response) : Bytes :=
  ascii "HTTP/1.1 " ++ (Decimal.integer r.status ++ Byte.space :: r.reason)

/-- The line of a header without its end. -/
def headerText (entry : Bytes × Bytes) : Bytes := entry.1 ++ Byte.colon :: Byte.space :: entry.2

lemma headerLine_eq (entry : Bytes × Bytes) : headerLine entry = headerText entry ++ lineEnd := by
  have separator : ascii ": " = [Byte.colon, Byte.space] := by decide
  simp [headerLine, headerText, separator]

/-- **What goes out** are the lines, an empty one and the body. -/
lemma encode_eq (r : Response) :
    encode r = (statusText r :: (sentHeaders r).toList.map headerText).flatMap (· ++ lineEnd)
      ++ (lineEnd ++ sentBody r) := by
  have headers : headerLines (sentHeaders r)
      = ((sentHeaders r).toList.map headerText).flatMap (· ++ lineEnd) := by
    rw [headerLines, List.flatMap_map]
    exact congrArg (List.flatMap · _) (funext headerLine_eq)
  simp [encode, headers, statusLine, statusText]

lemma status?_statusText (r : Response) : status? (statusText r) = some (r.status, r.reason) := by
  have noBlank : Byte.space ∉ Decimal.integer r.status :=
    Decimal.not_mem_integer (by decide) (by decide) r.status
  have cut : Bytes.cut? Byte.space (Decimal.integer r.status ++ Byte.space :: r.reason)
      = some (Decimal.integer r.status, r.reason) := Bytes.cut?_eq_some.mpr ⟨rfl, noBlank⟩
  rw [status?, statusText, List.dropPrefix?_append_of_beq _ (beq_self_eq_true _)]
  simp [cut, Decimal.integer?_integer]

lemma header?_headerText {entry : Bytes × Bytes} (noColon : Byte.colon ∉ entry.1) :
    header? (headerText entry) = some entry := by
  have cut : Bytes.cut? Byte.colon (headerText entry) = some (entry.1, Byte.space :: entry.2) :=
    Bytes.cut?_eq_some.mpr ⟨rfl, noColon⟩
  simp [header?, cut, List.dropPrefix?]

/-! ## What is sent -/

/-- What is filled in under a name where a response that may have a body does not tell it. -/
def filledIn? (r : Response) (name : Bytes) : Option Bytes :=
  if r.status = 204 ∨ r.status = 304 then none
  else if name = ascii "content-length" then some (Decimal.natural r.body.length)
  else if name = ascii "content-type" then some (ascii "text/html; charset=utf-8")
  else none

lemma forbidsBody_iff (code : Int) : Response.forbidsBody code = true ↔ code = 204 ∨ code = 304 := by
  simp [Response.forbidsBody]

/-- What is filled in fits into its line. -/
lemma fitsLine_of_filledIn? {r : Response} {name value : Bytes}
    (filled : filledIn? r name = some value) : FitsLine (name, value) := by
  unfold filledIn? at filled
  split_ifs at filled with noBody isLength isType
  · have named : InLine (ascii "content-length") ∧ Byte.colon ∉ ascii "content-length" := by decide
    subst isLength
    cases filled
    exact ⟨named.1, named.2, inLine_natural _⟩
  · subst isType
    cases filled
    decide

/-- A header that is filled in unless it is there. -/
lemma get?_filled (headers : Dict Bytes) (key value name : Bytes) :
    (if headers.contains key then headers else headers.set key value).get? name
      = (headers.get? name).or (if name = key then some value else none) := by
  by_cases same : name = key
  · subst same
    cases there : headers.get? name <;> simp [Dict.contains, Dict.get?_set, there]
  · split <;> simp [Dict.get?_set, same]

/-- **The headers that are sent** are those of the response, and what is filled in. -/
lemma get?_sentHeaders (r : Response) (name : Bytes) :
    (sentHeaders r).get? name = (r.headers.get? name).or (filledIn? r name) := by
  simp only [sentHeaders, filledIn?, ← forbidsBody_iff]
  split
  · rw [Option.or_none]
  · rw [get?_filled, get?_filled, Option.or_assoc]
    by_cases isLength : name = ascii "content-length"
    · have named : name = Response.contentLength := isLength
      rw [if_pos named, if_pos isLength, Option.some_or]
    · have other : name ≠ Response.contentLength := isLength
      rw [if_neg other, if_neg isLength, Option.none_or]
      rfl

end Wire

/-- The texts of a response fit into their lines. -/
structure Response.FitsLines (r : Response) : Prop where
  reason : Wire.InLine r.reason
  headers : ∀ entry ∈ r.headers.toList, Wire.FitsLine entry

/-- A response that was finished, and may have a body, tells the length of it. -/
lemma Response.get?_finish {unfinished : Response}
    (allows : Response.forbidsBody unfinished.finish.status = false) :
    unfinished.finish.headers.get? (ascii "content-length")
      = some (Decimal.natural unfinished.finish.body.length) := by
  have status : unfinished.finish.status = unfinished.status := by
    unfold Response.finish
    split <;> rfl
  rw [status] at allows
  have finished : unfinished.finish =
      { unfinished with
        headers := unfinished.headers.set contentLength (Decimal.natural unfinished.body.length) } := by
    rw [Response.finish, allows]
    rfl
  rw [finished]
  exact (Dict.get?_set _ _ _ _).trans (if_pos rfl)

namespace Wire

/-- Every header that is sent fits into its line. -/
lemma fitsLine_of_mem_sentHeaders {r : Response} (fits : r.FitsLines) {entry : Bytes × Bytes}
    (mem : entry ∈ (sentHeaders r).toList) : FitsLine entry := by
  have sent := (sentHeaders r).get?_eq_some.mpr mem
  rw [get?_sentHeaders, Option.or_eq_some_iff] at sent
  rcases sent with there | ⟨-, filled⟩
  · exact fits.headers entry (r.headers.get?_eq_some.mp there)
  · exact fitsLine_of_filledIn? filled

/-- So does every line. -/
lemma lines_fit {r : Response} (fits : r.FitsLines) :
    ∀ line ∈ statusText r :: (sentHeaders r).toList.map headerText, line ≠ [] ∧ InLine line := by
  have version : InLine (ascii "HTTP/1.1 ") := by constructor <;> decide
  have blank : InLine [Byte.space] := by constructor <;> decide
  have separator : InLine [Byte.colon, Byte.space] := by constructor <;> decide
  rw [List.forall_mem_cons, List.forall_mem_map]
  refine ⟨⟨by simp [statusText, ascii], ?_⟩, fun entry mem => ⟨by simp [headerText], ?_⟩⟩
  · exact version.append ((inLine_integer _).append (blank.append fits.reason))
  · obtain ⟨name, -, value⟩ := fitsLine_of_mem_sentHeaders fits mem
    exact name.append (separator.append value)

lemma mapM_header? {entries : List (Bytes × Bytes)}
    (each : ∀ entry ∈ entries, header? (headerText entry) = some entry) :
    (entries.map headerText).mapM header? = some entries := by
  induction entries with
  | nil => rfl
  | cons entry entries ih =>
      obtain ⟨first, others⟩ := List.forall_mem_cons.mp each
      rw [List.map_cons, List.mapM_cons, first, ih others]
      rfl

/-- **The wire text tells the response.**  A client reads

* the status and the reason;
* the headers of the response and those that are filled in, each in one line and no others;
* the body with all its bytes, or nothing where the status forbids one;
* where a finished response may have a body, the number of bytes behind the empty line as its length. -/
theorem decode_encode (r : Response) (fits : r.FitsLines) :
    ∃ (headers : Dict Bytes) (body : Bytes),
      decode? (encode r) = some ⟨r.status, r.reason, headers.toList, body⟩ ∧
      (∀ name, headers.get? name = (r.headers.get? name).or (filledIn? r name)) ∧
      (body = if r.status = 204 ∨ r.status = 304 then [] else r.body) ∧
      ∀ unfinished : Response, r = unfinished.finish → r.status ≠ 204 → r.status ≠ 304 →
        headers.get? (ascii "content-length") = some (Decimal.natural body.length) := by
  refine ⟨sentHeaders r, sentBody r, ?_, get?_sentHeaders r, ?_, ?_⟩
  · have each : ∀ entry ∈ (sentHeaders r).toList, header? (headerText entry) = some entry :=
      fun entry mem => header?_headerText (fitsLine_of_mem_sentHeaders fits mem).2.1
    rw [decode?, encode_eq, linesFrom_lines (lines_fit fits)]
    simp only [Option.bind_eq_bind, Option.bind_some, List.head?_cons, status?_statusText,
      List.tail_cons, mapM_header? each]
    rfl
  · simp only [sentBody, forbidsBody_iff]
  · rintro unfinished rfl withBody notModified
    have allows : Response.forbidsBody unfinished.finish.status = false := by
      simpa [Response.forbidsBody] using ⟨withBody, notModified⟩
    rw [get?_sentHeaders, sentBody, allows, Response.get?_finish allows]
    rfl

/-- A finished response with a header without a value, a reason of two words and a body that looks like
the end of the headers. -/
theorem decode_encode_finished :
    let unfinished : Response :=
      { status := 404, reason := ascii "Not Found", headers := Dict.ofList [(ascii "x-empty", [])]
        body := ascii "a\r\n\r\nb" }
    ∃ (headers : Dict Bytes) (body : Bytes),
      decode? (encode unfinished.finish)
        = some ⟨404, ascii "Not Found", headers.toList, body⟩ ∧
      body = ascii "a\r\n\r\nb" ∧ headers.get? (ascii "x-empty") = some [] ∧
      headers.get? (ascii "content-length") = some (ascii "6") := by
  intro unfinished
  have fits : unfinished.finish.FitsLines := ⟨by decide, by decide⟩
  obtain ⟨headers, body, read, told, sent, length⟩ := decode_encode unfinished.finish fits
  have body_eq : body = ascii "a\r\n\r\nb" := sent.trans (by decide)
  refine ⟨headers, body, read, body_eq, (told _).trans (by decide), ?_⟩
  rw [length unfinished rfl (by decide) (by decide), body_eq]
  decide

end Wire

end ClauseRouter
