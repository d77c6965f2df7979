import ClauseRouter.Proofs.Dict
import ClauseRouter.Proofs.Dispatch.Captures

/-!
# What a clause that fails leaves

A clause whose conditions run no code of the handler does four things to its frame: it clears the live
captures and adds to them, it moves the cursor, and it sets the media type of the response where one is
accepted.  When the clause fails the cursor is put back, but not the media type.

**Conditions.**  `Frame.Grazed` says what conditions without code have done to a frame, and a matcher
that does no more `Matcher.Grazes` it.  The built-in ones do no more (`Matcher.Builtin.grazes`).

**Clauses.**  `Condition.Lead` — the conditions of a clause come to an outcome; those up to the first
that fails decide it (`Condition.Lead.first_failing`).  A clause returns in no other way
(`Program.failed_of_returned`), so `Application.failed_clause` tells all that is left of one that
returns.
-/

namespace ClauseRouter

/-- A response of a media type, if one is given. -/
def Response.ofType (r : Response) : Option Bytes → Response
  | some mediaType => { r with headers := r.headers.set contentType mediaType }
  | none => r

/-- Of two media types the second counts. -/
lemma Response.ofType_ofType (r : Response) (first second : Option Bytes) :
    (r.ofType first).ofType second = r.ofType (second.or first) := by
  cases second with
  | none => rfl
  | some later =>
      cases first with
      | none => rfl
      | some earlier =>
          have headers : (r.headers.set contentType earlier).set contentType later
              = r.headers.set contentType later :=
            Dict.ext_get? fun key => by
              simp only [Dict.get?_set]
              split <;> rfl
          simp only [ofType, headers, Option.some_or]

/-! ## What such conditions do -/

/-- **What conditions without code do to a frame:** in passing, they set the media types listed. -/
structure Frame.Grazed (types : List Bytes) (before after : Frame) : Prop where
  request : after.request = { before.request with cursor := after.request.cursor }
  response : after.response = before.response.ofType types.getLast?
  commitment : after.commitment = before.commitment

namespace Frame.Grazed

variable {types more : List Bytes} {before between after : Frame}

lemma refl (frame : Frame) : Grazed [] frame frame := ⟨rfl, rfl, rfl⟩

lemma trans (h : Grazed types before between) (h' : Grazed more between after) :
    Grazed (types ++ more) before after := by
  refine ⟨?_, ?_, h'.commitment.trans h.commitment⟩
  · rw [h'.request, h.request]
  · rw [h'.response, h.response, Response.ofType_ofType, List.getLast?_append]

/-- What changes nothing but the cursor and the live captures. -/
lemma become (h : Grazed types before between) {event : Event} {stage : Stage}
    (request : stage.request = { between.request with cursor := stage.request.cursor })
    (response : stage.response = between.response)
    (commitment : stage.commitment = between.commitment) :
    Grazed types before (between.become event stage) := by
  refine ⟨?_, response.trans h.response, commitment.trans h.commitment⟩
  rw [show (between.become event stage).request = stage.request from rfl, request, h.request]

lemma note (h : Grazed types before between) (event : Event) :
    Grazed types before (between.note event) :=
  h.become rfl rfl rfl

lemma moveTo (h : Grazed types before between) (cursor : Cursor) :
    Grazed types before (between.moveTo cursor) :=
  h.become rfl rfl rfl

lemma capture (h : Grazed types before between) (found : Captures) :
    Grazed types before (between.capture found) :=
  h.become rfl rfl rfl

/-- What sets no media type sets none, whether it passes or not. -/
lemma either (h : Grazed [] before after) (passed : Bool) :
    Grazed (if passed then [] else []) before after := by
  rwa [ite_self]

end Frame.Grazed

namespace Matcher

/-- **What a matcher does that runs no handler code:** nothing happens in the host, and where the matcher
passes it sets the media types that are listed. -/
def Grazes (matcher : Matcher) (types : List Bytes) : Prop :=
  ∀ frame host, ∃ verdict after, matcher.evaluate frame host = ⟨(verdict, after), host, []⟩ ∧
    ∀ passed, verdict.ending = .returned passed →
      Frame.Grazed (if passed then types else []) frame after

lemma grazes_known (verdict : Bool) : (known verdict).Grazes [] := fun frame _ =>
  ⟨⟨.returned verdict, []⟩, frame, rfl, fun passed _ => (Frame.Grazed.refl frame).either passed⟩

lemma grazes_asking (question : Request → Bool) : (asking question).Grazes [] := fun frame _ =>
  ⟨⟨.returned (question frame.request), []⟩, frame, rfl,
    fun passed _ => (Frame.Grazed.refl frame).either passed⟩

/-- A matcher of paths moves the cursor. -/
lemma grazes_path (kind : MatcherKind) (pattern : Bytes) (test : PathTest) :
    Grazes ⟨kind, pattern, .path test⟩ [] := fun frame host => by
  simp only [evaluate]
  cases test.run frame.request.cursor with
  | rejected => exact ⟨_, _, rfl, fun passed _ => (Frame.Grazed.refl frame).either passed⟩
  | taken found cursor =>
      exact ⟨_, _, rfl, fun passed _ => ((Frame.Grazed.refl frame).moveTo cursor).either passed⟩
  | overrun found claimed remaining => exact ⟨_, _, rfl, fun _ returned => by cases returned⟩

/-- An extension moves the cursor and captures the stem. -/
lemma grazes_extension {source : Bytes} {matcher : Matcher} (made : extension? source = .ok matcher) :
    matcher.Grazes [] := fun frame host => by
  obtain ⟨test, _, h⟩ := Except.bind_eq_ok.mp made
  cases h
  simp only [evaluate, predicate, bind]
  cases test.run frame.request.cursor with
  | rejected => exact ⟨_, _, rfl, fun passed _ => (Frame.Grazed.refl frame).either passed⟩
  | taken found cursor =>
      have captured := ((Frame.Grazed.refl frame).moveTo cursor).capture found
      exact ⟨_, _, rfl, fun passed _ => captured.either passed⟩
  | overrun found claimed remaining => exact ⟨_, _, rfl, fun _ returned => by cases returned⟩

/-- A parameter is captured unless its value is empty. -/
lemma grazes_parameter (key : Bytes) : (parameter key).Grazes [] := fun frame _ => by
  refine ⟨⟨.returned true, []⟩, _, rfl, fun passed _ => Frame.Grazed.either ?_ passed⟩
  split
  · exact .refl frame
  · exact (Frame.Grazed.refl frame).capture _

/-- A media type that is accepted is set. -/
lemma grazes_accept (mediaType : Bytes) : (accept mediaType).Grazes [mediaType] := fun frame host => by
  by_cases accepted : (acceptedTypes frame.request).contains mediaType
  · refine ⟨_, _, by simp only [evaluate, accept, predicate, bind, if_pos accepted]; rfl, ?_⟩
    intro passed ending
    cases ending
    exact ⟨rfl, rfl, rfl⟩
  · refine ⟨_, _, by simp only [evaluate, accept, predicate, bind, if_neg accepted]; rfl, ?_⟩
    intro passed ending
    cases ending
    exact .refl frame

/-- **A matcher without code** sets no more than its media type. -/
lemma Builtin.grazes {matcher : Matcher} {type : Option Bytes} (builtin : matcher.Builtin type) :
    matcher.Grazes type.toList := by
  cases builtin with
  | path kind pattern test => exact grazes_path kind pattern test
  | known verdict => exact grazes_known verdict
  | asking question => exact grazes_asking question
  | parameter key => exact grazes_parameter key
  | extension made => exact grazes_extension made
  | accept mediaType => exact grazes_accept mediaType

end Matcher

/-! ## Clauses of such conditions -/

namespace Matcher

variable {matcher : Matcher} {frame after : Frame} {host : Host} {verdict : Verdict}

/-- Behind a matcher that has passed the others are tried. -/
lemma evaluateAll_of_passed
    (h : matcher.evaluate (frame.note .tried) host = ⟨(verdict, after), host, []⟩)
    (passed : verdict.ending = .returned true) (rest : List Matcher) :
    evaluateAll (matcher :: rest) frame host
      = evaluateAll rest ((after.capture verdict.found).note .passed) host := by
  simp only [evaluateAll, bind, h, passed]
  rfl

/-- A matcher that has not passed is the last that is tried. -/
lemma evaluateAll_of_not_passed
    (h : matcher.evaluate (frame.note .tried) host = ⟨(verdict, after), host, []⟩)
    (ended : verdict.ending ≠ .returned true) (rest : List Matcher) :
    evaluateAll (matcher :: rest) frame host
      = ⟨(verdict.ending, after.capture verdict.found), host, []⟩ := by
  simp only [evaluateAll, bind, h]
  obtain ⟨ending, found⟩ := verdict
  cases ending with
  | returned passed =>
      cases passed with
      | false => rfl
      | true => exact absurd rfl ended
  | halted response => rfl
  | faulted fault => rfl

end Matcher

/-- The conditions of a clause, prepared for a request and tried in a frame, come to an outcome. -/
def Condition.Lead (env : Environment) (request : Request) (clause : List Condition) (frame : Frame)
    (host : Host) (outcome : Outcome (Ending × Frame)) : Prop :=
  ∃ matchers, prepareAll env request clause = .ok matchers ∧
    Matcher.evaluateAll matchers frame host = outcome

namespace Condition.Lead

variable {env : Environment} {request : Request} {condition : Condition} {clause : List Condition}
  {matcher : Matcher} {frame after : Frame} {host : Host} {verdict : Verdict}
  {outcome : Outcome (Ending × Frame)}

lemma nil (frame : Frame) (host : Host) :
    Lead env request [] frame host ⟨(.returned true, frame), host, []⟩ :=
  ⟨[], rfl, rfl⟩

/-- A first condition that passes leaves the outcome to the others. -/
lemma cons (made : condition.prepare env request = .ok matcher)
    (tried : matcher.evaluate (frame.note .tried) host = ⟨(verdict, after), host, []⟩)
    (passed : verdict.ending = .returned true)
    (others : Lead env request clause ((after.capture verdict.found).note .passed) host outcome) :
    Lead env request (condition :: clause) frame host outcome := by
  obtain ⟨matchers, prepared, rfl⟩ := others
  refine ⟨matcher :: matchers, ?_, Matcher.evaluateAll_of_passed tried passed matchers⟩
  simp only [prepareAll, made, prepared]
  rfl

/-- A condition alone that does not pass decides. -/
lemma single (made : condition.prepare env request = .ok matcher)
    (tried : matcher.evaluate (frame.note .tried) host = ⟨(verdict, after), host, []⟩)
    (ended : verdict.ending ≠ .returned true) :
    Lead env request [condition] frame host
      ⟨(verdict.ending, after.capture verdict.found), host, []⟩ := by
  refine ⟨[matcher], ?_, Matcher.evaluateAll_of_not_passed tried ended []⟩
  simp only [prepareAll, made]
  rfl

/-- **The conditions up to the first that fails decide a clause** of conditions that run no code; and of
what happens those that passed set the media types. -/
lemma first_failing : ∀ {clause : List Condition} {frame : Frame}
    {outcome : Outcome (Ending × Frame)},
    (∀ c ∈ clause, c.IsCodeless) → Lead env request clause frame host outcome →
      outcome.value.1 = .returned false →
        outcome.host = host ∧ outcome.lines = [] ∧
          ∃ passed failing rest between, clause = passed ++ failing :: rest ∧
            Lead env request passed frame host ⟨(.returned true, between), host, []⟩ ∧
            Lead env request (passed ++ [failing]) frame host outcome ∧
            Frame.Grazed (passed.filterMap mediaType?) frame outcome.value.2
  | [], _, _, _, ⟨_, prepared, led⟩, failed => by
      cases prepared
      subst led
      cases failed
  | condition :: clause, frame, _, codeless, ⟨_, prepared, led⟩, failed => by
      obtain ⟨codeless, others⟩ := List.forall_mem_cons.mp codeless
      obtain ⟨matcher, made, prepared⟩ := Except.bind_eq_ok.mp prepared
      obtain ⟨matchers, behind, same⟩ := Except.bind_eq_ok.mp prepared
      cases same
      obtain ⟨verdict, after, tried, grazes⟩ :=
        (Condition.builtin made codeless).grazes (frame.note .tried) host
      have start : Frame.Grazed [] frame (frame.note .tried) := (Frame.Grazed.refl frame).note .tried
      by_cases passed : verdict.ending = .returned true
      · rw [Matcher.evaluateAll_of_passed tried passed] at led
        obtain ⟨host', lines, more, failing, rest, between, rfl, through, stuck, grazed⟩ :=
          first_failing others ⟨matchers, behind, led⟩ failed
        refine ⟨host', lines, condition :: more, failing, rest, between, rfl,
          cons made tried passed through, cons made tried passed stuck, ?_⟩
        have first := ((start.trans (grazes true passed)).capture verdict.found).note .passed
        have all := first.trans grazed
        have types : (condition :: more).filterMap mediaType?
            = condition.mediaType?.toList ++ more.filterMap mediaType? := by
          cases type : condition.mediaType? <;> simp [type]
        rwa [types]
      · rw [Matcher.evaluateAll_of_not_passed tried passed] at led
        subst led
        refine ⟨rfl, rfl, [], condition, clause, frame, rfl, nil frame host,
          single made tried passed, ?_⟩
        exact (start.trans (grazes false failed)).capture verdict.found

end Condition.Lead

namespace Program

variable {env : Environment} {clause : List Condition} {body : Captures → Program} {frame : Frame}
  {host : Host}

/-- Of a clause that fails, the cursor is put back. -/
lemma perform_on_of_failed {outcome : Outcome (Ending × Frame)} (running : frame.commitment = none)
    (led : Condition.Lead env frame.request clause frame.openClause host outcome)
    (failed : outcome.value.1 = .returned false) (body : Captures → Program) :
    (on clause body).perform env frame host
      = ⟨(.returned false, outcome.value.2.restore frame.request.cursor), outcome.host,
          outcome.lines⟩ := by
  obtain ⟨matchers, made, led⟩ := led
  simp only [perform, made, Frame.tryClause, running, Frame.tryClause.attemptClause, bind, led, failed]
  simp [pure]

/-- **A clause returns only if its conditions fail,** since its body does not return. -/
lemma failed_of_returned {verdict : Bool} (running : frame.commitment = none)
    (returned : ((on clause body).perform env frame host).value.1 = .returned verdict) :
    ∃ outcome, Condition.Lead env frame.request clause frame.openClause host outcome ∧
      outcome.value.1 = .returned false := by
  cases made : prepareAll env frame.request clause with
  | error fault =>
      simp only [perform, made] at returned
      cases returned
  | ok matchers =>
      refine ⟨_, ⟨matchers, made, rfl⟩, ?_⟩
      simp only [perform, made, Frame.tryClause, running, Frame.tryClause.attemptClause,
        Hosted.value_bind, Hosted.value_pure] at returned
      generalize Matcher.evaluateAll matchers frame.openClause host = outcome at returned ⊢
      obtain ⟨⟨ending, after⟩, host', _⟩ := outcome
      cases ending with
      | halted response => cases returned
      | faulted fault => cases returned
      | returned passed =>
          cases passed with
          | false => rfl
          | true =>
              -- the body has run, and what it left was committed
              simp only [Hosted.value_bind] at returned
              generalize (body after.captures).perform env _ host' = ran at returned
              obtain ⟨⟨ending, left⟩, _, _⟩ := ran
              cases ending with
              | halted response => cases returned
              | faulted fault => cases returned
              | returned _ =>
                  simp only [Hosted.value_pure, Frame.commit] at returned
                  split at returned <;> cases returned

end Program

namespace Application

variable {app : Application} {clause : List Condition} {body : Captures → Program} {frame : Frame}
  {host : Host}

/-- A clause without code whose conditions pass enters its body. -/
lemma entered?_isSome_iff {outcome : Outcome (Ending × Frame)}
    (led : Condition.Lead app.environment frame.request clause frame.openClause host outcome) :
    (app.entered? clause frame host).isSome ↔ outcome.value.1 = .returned true := by
  obtain ⟨matchers, made, rfl⟩ := led
  simp only [entered?, made, Option.isSome_map, Frame.chosen?]
  generalize (Matcher.evaluateAll matchers frame.openClause host).value = tried
  obtain ⟨ending, after⟩ := tried
  cases ending with
  | returned passed => cases passed <;> simp
  | halted response => simp
  | faulted fault => simp

/-- **What is left of a clause that fails:** everything is as it was, but for the media type of the
response, which is the one of the last condition that accepted one before the first that failed.  What
stands behind that one makes no difference. -/
theorem failed_clause (codeless : ∀ condition ∈ clause, condition.IsCodeless)
    (running : frame.commitment = none) {verdict : Bool}
    (returned : ((Program.on clause body).perform app.environment frame host).value.1
      = .returned verdict) :
    let outcome := (Program.on clause body).perform app.environment frame host
    let after := outcome.value.2
    after.request = frame.request ∧ after.commitment = none ∧ outcome.host = host ∧
      outcome.lines = [] ∧
    ∃ passed failing rest, clause = passed ++ failing :: rest ∧
      (app.entered? passed frame host).isSome ∧
      ¬ (app.entered? (passed ++ [failing]) frame host).isSome ∧
      after.response = frame.response.ofType (passed.filterMap Condition.mediaType?).getLast? ∧
      ∀ other : Captures → Program,
        (Program.on (passed ++ [failing]) other).perform app.environment frame host = outcome := by
  intro outcome after
  obtain ⟨tried, led, failed⟩ := Program.failed_of_returned running returned
  obtain ⟨host', lines, passed, failing, rest, between, split, through, stuck, grazed⟩ :=
    led.first_failing codeless failed
  have whole : outcome = _ := Program.perform_on_of_failed running led failed body
  have left : after = tried.value.2.restore frame.request.cursor :=
    congrArg (fun outcome : Outcome (Ending × Frame) => outcome.value.2) whole
  rw [left, whole]
  refine ⟨?_, grazed.commitment.trans running, host', lines, passed, failing, rest, split,
    (entered?_isSome_iff through).mpr rfl, ?_, grazed.response,
    fun other => Program.perform_on_of_failed running stuck failed other⟩
  · exact congrArg (fun request => { request with cursor := frame.request.cursor }) grazed.request
  · rw [entered?_isSome_iff stuck, failed]
    nofun

/-- Two media types are accepted before the method decides, and a third one is not reached. -/
theorem failed_clause_of_method :
    let request : Request :=
      { cursor := .atStart (ascii "/x/y"), method := ascii "GET",
        headers := Dict.ofList [(ascii "accept", ascii "text/html, text/plain, image/png")] }
    let clause : List Condition :=
      [.accept (ascii "text/plain"), .template (ascii ":a"), .accept (ascii "text/html"), .verb .post,
        .accept (ascii "image/png")]
    let outcome := (Program.on clause fun _ => .skip).perform ({} : Application).environment
      (.initial request) ⟨0, [], []⟩
    let after := outcome.value.2
    after.request = request ∧ after.response = ({} : Response).ofType (some (ascii "text/html")) ∧
      ∃ passed failing rest, clause = passed ++ failing :: rest ∧
        after.response = ({} : Response).ofType (passed.filterMap Condition.mediaType?).getLast? := by
  intro request clause outcome after
  have codeless : ∀ condition ∈ clause, condition.IsCodeless := by
    simp [clause, Condition.IsCodeless]
  have running : (Frame.initial request).commitment = none := rfl
  have returned : outcome.value.1 = .returned false := rfl
  obtain ⟨same, _, _, _, passed, failing, rest, split, _, _, response, _⟩ :=
    failed_clause codeless running returned
  exact ⟨same, rfl, passed, failing, rest, split, response⟩

end Application

end ClauseRouter
