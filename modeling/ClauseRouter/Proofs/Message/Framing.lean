import ClauseRouter.Proofs.Message.Wire

/-!
# The framing of a response

What the headers of a response tell of its body has to fit the body that goes out: a status that forbids
a body leaves neither the body nor its length and media type, and otherwise the length is told.  Two
places see to that, `Response.finish` where a clause commits the response and `Wire.encode` where it is
sent.

* `Response.IsFinished` — to finish a response changes nothing; `Response.isFinished_iff` says when, and
  `Response.isFinished_finish` that once is enough.
* `Wire.headerLines_erase` — a header that is dropped takes its own line with it and no other byte.
* `Wire.encode_finish` — the bytes that go out for a response that does not tell its length, finished or
  not.  They are the same but in one case: `Wire.encode` sends no body where the status forbids one, but
  leaves it to `Response.finish` to drop the media type.
-/

namespace ClauseRouter

namespace Response

/-- To finish the response changes nothing. -/
def IsFinished (r : Response) : Prop := r.finish = r

/-- **What the headers tell of the body fits the body.** -/
structure IsFramed (r : Response) : Prop where
  bodiless : r.status = 204 ∨ r.status = 304 → r.body = [] ∧
    r.headers.get? (ascii "content-type") = none ∧ r.headers.get? (ascii "content-length") = none
  told : ¬ (r.status = 204 ∨ r.status = 304) →
    r.headers.get? (ascii "content-length") = some (Decimal.natural r.body.length)

lemma finish_of_bodiless {r : Response} (bodiless : r.status = 204 ∨ r.status = 304) :
    r.finish =
      { r with headers := (r.headers.erase contentType).erase contentLength, body := [] } :=
  if_pos ((Wire.forbidsBody_iff r.status).mpr bodiless)

lemma finish_of_told {r : Response} (told : ¬ (r.status = 204 ∨ r.status = 304)) :
    r.finish = { r with headers := r.headers.set contentLength (Decimal.natural r.body.length) } :=
  if_neg (mt (Wire.forbidsBody_iff r.status).mp told)

@[simp] lemma status_finish (r : Response) : r.finish.status = r.status := by
  unfold finish
  split <;> rfl

@[simp] lemma reason_finish (r : Response) : r.finish.reason = r.reason := by
  unfold finish
  split <;> rfl

/-- A response that is finished is framed. -/
lemma isFramed_finish (r : Response) : r.finish.IsFramed where
  bodiless bodiless := by
    rw [status_finish] at bodiless
    rw [finish_of_bodiless bodiless]
    refine ⟨rfl, ?_, ?_⟩
    · rw [Dict.get?_erase, Dict.get?_erase]
      rfl
    · rw [Dict.get?_erase]
      rfl
  told told := by
    rw [status_finish] at told
    rw [finish_of_told told]
    exact (Dict.get?_set _ _ _ _).trans (if_pos rfl)

/-- **A response is finished exactly if it is framed.** -/
lemma isFinished_iff {r : Response} : r.IsFinished ↔ r.IsFramed := by
  refine ⟨fun finished => finished ▸ isFramed_finish r, fun framed => ?_⟩
  unfold IsFinished
  by_cases bodiless : r.status = 204 ∨ r.status = 304
  · obtain ⟨empty, untyped, untold⟩ := framed.bodiless bodiless
    rw [finish_of_bodiless bodiless, contentType, Dict.erase_of_get?_eq_none _ untyped, contentLength,
      Dict.erase_of_get?_eq_none _ untold, ← empty]
  · rw [finish_of_told bodiless, contentLength, Dict.set_of_get?_eq_some _ (framed.told bodiless)]

/-- To finish a response twice is to finish it once. -/
lemma isFinished_finish (r : Response) : r.finish.IsFinished :=
  isFinished_iff.mpr (isFramed_finish r)

end Response

namespace Wire

/-- **A header that is dropped** takes its line with it, and nothing else. -/
lemma headerLines_erase {headers : Dict Bytes} {name value : Bytes}
    (there : headers.get? name = some value) :
    ∃ before after, headerLines headers = before ++ headerLine (name, value) ++ after ∧
      headerLines (headers.erase name) = before ++ after := by
  obtain ⟨before, after, all, others⟩ := headers.exists_toList_erase there
  refine ⟨before.flatMap headerLine, after.flatMap headerLine, ?_, ?_⟩
  · rw [headerLines, all]
    simp
  · rw [headerLines, others, List.flatMap_append]

/-- So the lines without it are other lines. -/
lemma headerLines_erase_ne {headers : Dict Bytes} {name value : Bytes}
    (there : headers.get? name = some value) :
    headerLines (headers.erase name) ≠ headerLines headers := by
  obtain ⟨before, after, all, others⟩ := headerLines_erase there
  have line : (headerLine (name, value)).length ≠ 0 := by simp [headerLine, lineEnd]
  rw [all, others]
  intro same
  have lengths := congrArg List.length same
  simp only [List.length_append] at lengths
  omega

/-- What goes out for a status that forbids a body: the headers as they are, and nothing behind the empty
line. -/
lemma encode_of_bodiless {r : Response} (bodiless : r.status = 204 ∨ r.status = 304) :
    encode r = statusLine r ++ headerLines r.headers ++ lineEnd := by
  have forbids := (forbidsBody_iff r.status).mpr bodiless
  rw [encode, sentHeaders, sentBody, if_pos forbids, if_pos forbids, List.append_nil]

/-- A response that may have a body, and does not tell its length, is sent as if it were finished. -/
lemma encode_finish_of_told {r : Response} (told : ¬ (r.status = 204 ∨ r.status = 304))
    (untold : r.headers.get? (ascii "content-length") = none) : encode r.finish = encode r := by
  have sent : sentHeaders r.finish = sentHeaders r := by
    refine Dict.ext_get? fun name => ?_
    rw [get?_sentHeaders, get?_sentHeaders, Response.finish_of_told told]
    simp only [filledIn?, Dict.get?_set, if_neg told]
    by_cases length : name = ascii "content-length"
    · have named : name = Response.contentLength := length
      rw [if_pos named, if_pos length, length, untold]
      rfl
    · have other : name ≠ Response.contentLength := length
      rw [if_neg other]
  have body : sentBody r.finish = sentBody r := by
    rw [Response.finish_of_told told]
    rfl
  have line : statusLine r.finish = statusLine r := by simp [statusLine]
  rw [encode, encode, sent, body, line]

/-- **Finished or not,** a response that does not tell its length goes out in the same bytes, except if
its status forbids a body and it has a media type.  If the status forbids a body, the headers are sent
as they are, and for the finished response all but the media type. -/
theorem encode_finish {r : Response} (untold : r.headers.get? (ascii "content-length") = none) :
    (encode r.finish = encode r ↔
      (r.status = 204 ∨ r.status = 304 → r.headers.get? (ascii "content-type") = none)) ∧
    (r.status = 204 ∨ r.status = 304 →
      encode r = statusLine r ++ headerLines r.headers ++ lineEnd ∧
      encode r.finish
        = statusLine r ++ headerLines (r.headers.erase (ascii "content-type")) ++ lineEnd) := by
  have finished (bodiless : r.status = 204 ∨ r.status = 304) : encode r.finish
      = statusLine r ++ headerLines (r.headers.erase (ascii "content-type")) ++ lineEnd := by
    have absent : (r.headers.erase (ascii "content-type")).get? (ascii "content-length") = none := by
      rw [Dict.get?_erase, untold]
      exact ite_self _
    rw [encode_of_bodiless (by simpa using bodiless), Response.finish_of_bodiless bodiless,
      Response.contentType, Response.contentLength, Dict.erase_of_get?_eq_none _ absent]
    rfl
  refine ⟨⟨fun same bodiless => ?_, fun untyped => ?_⟩,
    fun bodiless => ⟨encode_of_bodiless bodiless, finished bodiless⟩⟩
  · rw [finished bodiless, encode_of_bodiless bodiless] at same
    by_contra typed
    obtain ⟨mediaType, there⟩ := Option.ne_none_iff_exists'.mp typed
    exact headerLines_erase_ne there (by simpa using same)
  · by_cases bodiless : r.status = 204 ∨ r.status = 304
    · rw [finished bodiless, encode_of_bodiless bodiless,
        Dict.erase_of_get?_eq_none _ (untyped bodiless)]
    · exact encode_finish_of_told bodiless untold

/-- A response without a body whose other headers go out. -/
theorem encode_finish_of_etag :
    let r : Response :=
      { status := 304, reason := ascii "Not Modified", body := ascii "unsent"
        headers := Dict.ofList [(ascii "etag", ascii "7")] }
    r.headers.get? (ascii "content-length") = none ∧ encode r.finish = encode r ∧
      encode r.finish = ascii "HTTP/1.1 304 Not Modified\r\netag: 7\r\n\r\n" := by
  intro r
  have untold : r.headers.get? (ascii "content-length") = none := by decide
  obtain ⟨same, wire⟩ := encode_finish untold
  have untyped : r.headers.get? (ascii "content-type") = none := by decide
  have finished := (wire (.inr rfl)).2
  exact ⟨untold, same.mpr fun _ => untyped, finished.trans (by decide)⟩

/-- The media type of a response that may have no body goes out, unless the response was finished. -/
theorem not_encode_finish_of_typed :
    let r : Response :=
      { status := 204, reason := ascii "No Content"
        headers := Dict.ofList [(ascii "content-type", ascii "text/plain")] }
    r.headers.get? (ascii "content-length") = none ∧
      encode r = ascii "HTTP/1.1 204 No Content\r\ncontent-type: text/plain\r\n\r\n" ∧
      encode r.finish = ascii "HTTP/1.1 204 No Content\r\n\r\n" ∧ encode r.finish ≠ encode r := by
  decide

end Wire

end ClauseRouter
