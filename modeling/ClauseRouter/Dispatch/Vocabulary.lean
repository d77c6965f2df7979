import ClauseRouter.Dispatch.Matcher

/-!
# The built-in matchers

How each kind of condition that needs no handler code is prepared.

* Matchers of paths: `Matcher.template?`, `Matcher.regex?`, `Matcher.anySegment`.
* What is found out while the clause is prepared: `Matcher.verb`, `Matcher.host`, `Matcher.hostPattern?`.
* Predicates on the frame: `Matcher.extension?`, `Matcher.parameter`, `Matcher.header`, `Matcher.accept`.

A predicate that captures appends to the live captures of the frame itself.
-/

namespace ClauseRouter.Matcher

/-- A prepared matcher, or the fault of a malformed pattern. -/
def orMalformed {α : Type} (made : Option α) : Except Fault α :=
  match made with
  | some a => .ok a
  | none => .error .malformedPattern

/-! ## Paths -/

/-- The path goes on with an instance of a template. -/
def template? (text : Bytes) : Except Fault Matcher := do
  let test ← orMalformed (PathTest.ofTemplate? text)
  return ⟨.template, Template.expand text, .path test⟩

/-- The path goes on with a match of a pattern, whose text has to be well formed on its own and when
it is anchored. -/
def regex? (source : Bytes) : Except Fault Matcher := do
  let _ ← orMalformed (Pattern.compile? source)
  let test ← orMalformed (PathTest.ofPattern? source)
  return ⟨.regex, source, .path test⟩

/-- The path goes on with any segment. -/
def anySegment : Matcher := ⟨.anySegment, Template.segmentPattern, .path .anySegment⟩

/-! ## Method and host -/

/-- The method is the one of a verb. -/
def verb (request : Request) (verb : Verb) : Matcher := known (request.hasVerb verb)

/-- The host is this one, in any case of its letters. -/
def host (request : Request) (name : Bytes) : Matcher := known (Bytes.lower name == request.host)

/-- A pattern occurs in the host. -/
def hostPattern? (request : Request) (source : Bytes) : Except Fault Matcher := do
  let pattern ← orMalformed (Pattern.compile? source)
  return known (pattern.occursIn request.host)

/-! ## Predicates on the frame -/

/-- A predicate that asks the request. -/
def asking (question : Request → Bool) : Matcher :=
  predicate fun frame => pure (.returned (question frame.request), frame)

/-- A predicate that was never given. -/
def unset : Matcher := asking fun _ => false

/-- There is a header of this name. -/
def header (name : Bytes) : Matcher := asking fun request => request.hasHeader name

/-- Passes, and captures the value of a parameter unless it is empty. -/
def parameter (key : Bytes) : Matcher :=
  predicate fun frame =>
    let value := frame.request.param key
    pure (.returned true, if value.isEmpty then frame else frame.capture [value])

/-- The media types that a request accepts, in order. -/
def acceptedTypes (request : Request) : List Bytes :=
  (Bytes.split Byte.comma (request.header (ascii "accept"))).map Bytes.trim

/-- The media type is one that the client accepts; the response is then of that type. -/
def accept (mediaType : Bytes) : Matcher :=
  predicate fun frame =>
    if (acceptedTypes frame.request).contains mediaType then
      pure (.returned true, frame.respond fun r =>
        { r with headers := r.headers.set Response.contentType mediaType })
    else pure (.returned false, frame)

/-- The pattern text of a last segment with an extension; what stands before the dot is a group. -/
def extensionPattern (source : Bytes) : Bytes := ascii "([^/]+?)\\." ++ source ++ ascii "$"

/-- The extension that stands for any: one or more word bytes. -/
def anyExtension : Bytes := ascii "\\w+"

/-- The path ends here, with an extension. -/
def extension? (source : Bytes) : Except Fault Matcher := do
  let test ← orMalformed (PathTest.ofPattern? (extensionPattern source))
  return predicate fun frame =>
    match test.run frame.request.cursor with
    | .rejected => pure (.returned false, frame)
    | .taken found after => pure (.returned true, (frame.moveTo after).capture found)
    | .overrun found claimed remaining =>
      pure (.faulted (.overrun claimed remaining), frame.capture found)

end ClauseRouter.Matcher
