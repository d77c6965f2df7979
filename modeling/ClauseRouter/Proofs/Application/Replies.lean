import ClauseRouter.Proofs.Dispatch.Passage
import ClauseRouter.Proofs.Dispatch.Run
import ClauseRouter.Proofs.Message.Framing

/-!
# The responses that a dispatch replies

A dispatch replies what its frame has committed.  If nothing was committed, and no fault leaves the
handler, it replies the response that the handler was working on, as not found.

**Finished replies.**  What a clause commits is finished, and so is what is not found.  So a reply is
finished if the handler halts with finished responses only, and delegates to endpoints whose replies
are finished (`Application.dispatch_replies`).  By induction this holds of a whole tree of applications
that delegate to each other (`Application.tree_replies_finished`).

**What is not found.**  The response that the handler was working on is not cleared:
`Application.unmatched_isBare_iff` tells what is replied, and that it is bare exactly if the handler has
left no body.
-/

namespace ClauseRouter

/-- All responses that an endpoint replies have a property. -/
def Endpoint.Replies (good : Response → Prop) (endpoint : Endpoint) : Prop :=
  ∀ ⦃request : Request⦄ ⦃host : Host⦄ ⦃response : Response⦄,
    (endpoint request host).value = .ok response → good response

/-- If the outcome that code finds, when there is one, is good, then so is the one that it leaves. -/
def Passage.upholds (good : Response → Prop) : Passage := fun found left =>
  (∀ response, found.1 = some response → good response) →
    ∀ response, left.1 = some response → good response

/-- **To uphold a property of finished responses is a lawful passage** for code that halts with good
responses, and calls endpoints that reply them. -/
lemma Passage.upholds_lawful {good halts : Response → Prop} {calls : Endpoint → Prop}
    (finished : ∀ r : Response, good r.finish) (halted : ∀ response, halts response → good response)
    (called : ∀ endpoint, calls endpoint → endpoint.Replies good) :
    (upholds good).Lawful halts calls where
  refl _ := id
  trans h h' := h' ∘ h
  remember _ _ _ _ := id
  finish left _ _ _ same := Option.some.inj same ▸ finished left
  halt allowed _ _ _ same := Option.some.inj same ▸ halted _ allowed
  reply allowed _ _ _ replied _ _ same := Option.some.inj same ▸ called _ allowed replied
  call _ _ _ _ := id

namespace Application

/-! ## Finished replies -/

section

variable {good halts : Response → Prop} {calls : Endpoint → Prop} {app : Application}

/-- **What a dispatch replies** is committed, or else it is the response that the handler has left, as not
found. -/
lemma exists_of_replied {handler : Program} (defined : app.handler = some handler) {request : Request}
    {host : Host} {response : Response} (replied : (app.dispatch request host).value = .ok response) :
    let left := (app.handle handler request host).2
    left.commitment = some response ∨
      left.commitment = none ∧ response = (left.response.setStatus notFound).finish := by
  intro left
  have run := app.run_handle handler request host
  rw [value_dispatch defined] at replied
  cases ended : (app.handle handler request host).1 with
  | faulted fault =>
      rw [ended] at replied
      cases replied
  | halted carried =>
      rw [ended] at replied
      cases replied
      exact .inl (run.carries response ended)
  | returned verdict =>
      rw [ended] at replied
      cases outcome : left.commitment with
      | some committed =>
          simp only [replyOf, left, outcome] at replied
          cases replied
          exact .inl rfl
      | none =>
          simp only [replyOf, left, outcome] at replied
          cases replied
          exact .inr ⟨rfl, rfl⟩

/-- **A dispatch replies good responses** if finished ones are good, its handler halts with good ones and
the endpoints that it calls reply good ones. -/
lemma dispatch_replies (finished : ∀ r : Response, good r.finish)
    (halted : ∀ response, halts response → good response)
    (called : ∀ endpoint, calls endpoint → endpoint.Replies good)
    (delegates : app.Delegates calls) (commits : app.Halts halts) : Endpoint.Replies good app.dispatch := by
  intro request host response replied
  cases defined : app.handler with
  | none =>
      simp only [dispatch, defined, Hosted.value_pure] at replied
      cases replied
  | some handler =>
      have lawful := Passage.upholds_lawful finished halted called
      have upheld : ∀ outcome, (app.handle handler request host).2.commitment = some outcome →
          good outcome :=
        perform_passes lawful delegates (.inr commits) defined (.initial request) host
          fun _ none => by cases none
      rcases exists_of_replied defined replied with committed | ⟨_, rfl⟩
      · exact upheld response committed
      · exact finished _

/-- **A tree of applications** without middlewares: the code of each halts by itself with certain responses
only, and delegates to no more than the applications below it. -/
inductive IsTree (halts : Response → Prop) : Application → Prop
  | node {app : Application} (below : Application → Prop) (bare : app.middlewares = [])
      (commits : app.Halts halts)
      (delegates : app.Delegates fun endpoint => ∃ guest, below guest ∧ endpoint = guest.call)
      (trees : ∀ guest, below guest → IsTree halts guest) : IsTree halts app

lemma IsTree.call_eq (tree : app.IsTree halts) : app.call = app.dispatch := by
  cases tree with
  | node _ bare _ _ _ => rw [call, bare]; rfl

/-- All replies in a tree of applications are good if finished responses are, and those with which the
applications halt. -/
lemma IsTree.replies (finished : ∀ r : Response, good r.finish)
    (halted : ∀ response, halts response → good response) (tree : app.IsTree halts) :
    Endpoint.Replies good app.dispatch := by
  induction tree with
  | node below bare commits delegates trees replies =>
      refine dispatch_replies finished halted ?_ delegates commits
      rintro _ ⟨guest, under, rfl⟩
      rw [(trees guest under).call_eq]
      exact replies guest under

end

/-- **All replies in a tree of applications are finished,** whatever its handlers do to their responses
and in whatever clause they commit them, if they never halt by themselves, or with finished responses
only.  If the status of a reply forbids a body, there is neither a body nor its media type nor its
length; otherwise the length is that of the body. -/
theorem tree_replies_finished {halts : Response → Prop}
    (halted : ∀ response, halts response → response.IsFinished) {app : Application}
    (tree : app.IsTree halts) {request : Request} {host : Host} {response : Response}
    (replied : (app.dispatch request host).value = .ok response) :
    response.finish = response ∧
    (response.status = 204 ∨ response.status = 304 → response.body = [] ∧
      response.headers.get? (ascii "content-type") = none ∧
      response.headers.get? (ascii "content-length") = none) ∧
    (¬ (response.status = 204 ∨ response.status = 304) →
      response.headers.get? (ascii "content-length")
        = some (Decimal.natural response.body.length)) := by
  have finished := tree.replies Response.isFinished_finish halted replied
  have framed := Response.isFinished_iff.mp finished
  exact ⟨finished, framed.bodiless, framed.told⟩

/-- A clause that delegates to an application, which tells a length and writes another body. -/
theorem tree_replies_finished_of_delegation :
    let inner : Program := .on [.template (ascii "b")] fun _ =>
      .seq (.respond fun r => r.setHeader (ascii "Content-Length") (ascii "99")) (.write (ascii "text"))
    let guest : Application := { handler := some inner }
    let outer : Program := .on [.template (ascii "a")] fun _ => .delegate guest.call
    let app : Application := { handler := some outer }
    app.IsTree (fun _ => False) ∧ ∃ response,
      (app.dispatch { cursor := .atStart (ascii "/a/b") } ⟨0, [], []⟩).value = .ok response ∧
        response.status = 200 ∧ response.body = ascii "text" ∧ response.finish = response ∧
        response.headers.get? (ascii "content-length") = some (ascii "4") := by
  intro inner guest outer app
  have leaf : guest.IsTree fun _ => False :=
    .node (fun _ => False) rfl
      (halts_of_handler ⟨⟨trivial, trivial⟩, fun _ => ⟨trivial, trivial⟩⟩)
      (delegates_of_handler ⟨⟨trivial, trivial⟩, fun _ => ⟨trivial, trivial⟩⟩) (fun _ h => h.elim)
  have tree : app.IsTree fun _ => False :=
    .node (· = guest) rfl (halts_of_handler ⟨⟨trivial, trivial⟩, fun _ => trivial⟩)
      (delegates_of_handler ⟨⟨trivial, trivial⟩, fun _ => ⟨guest, rfl, rfl⟩⟩)
      (fun _ same => same ▸ leaf)
  have ran : (app.dispatch { cursor := .atStart (ascii "/a/b") } ⟨0, [], []⟩).value.toOption.map
      (fun r => (r.status, r.body)) = some (200, ascii "text") := by
    decide +kernel
  cases replied : (app.dispatch { cursor := .atStart (ascii "/a/b") } ⟨0, [], []⟩).value with
  | error fault => simp [replied, Except.toOption] at ran
  | ok response =>
      obtain ⟨status, body⟩ : response.status = 200 ∧ response.body = ascii "text" := by
        simpa [replied, Except.toOption] using ran
      obtain ⟨finished, _, told⟩ := tree_replies_finished (fun _ h => h.elim) tree replied
      have length := told (by simp [status])
      rw [body] at length
      exact ⟨tree, response, rfl, status, body, finished, length⟩

end Application

/-! ## What is not found -/

/-- The response tells that nothing was found, and nothing else. -/
structure Response.IsBareNotFound (r : Response) : Prop where
  status : r.status = 404
  reason : r.reason = ascii "Not Found"
  body : r.body = []
  length : r.headers.get? (ascii "content-length") = some (ascii "0")

/-- What the status of what is not found makes of a response that is then finished. -/
lemma Response.notFound_finish (r : Response) :
    (r.setStatus Application.notFound).finish =
      { r with
        status := 404
        reason := ascii "Not Found"
        headers := r.headers.set contentLength (Decimal.natural r.body.length) } := by
  have told : ¬ ((r.setStatus Application.notFound).status = 204 ∨
      (r.setStatus Application.notFound).status = 304) := by
    simp [setStatus, Application.notFound]
  exact finish_of_told told

/-- It is bare exactly if there was no body. -/
lemma Response.isBareNotFound_iff (r : Response) :
    (r.setStatus Application.notFound).finish.IsBareNotFound ↔ r.body = [] := by
  rw [notFound_finish]
  refine ⟨IsBareNotFound.body, fun empty => ⟨rfl, rfl, empty, ?_⟩⟩
  have length : Decimal.natural r.body.length = ascii "0" := by
    rw [empty]
    decide
  exact (Dict.get?_set _ _ _ _).trans ((if_pos rfl).trans (congrArg some length))

namespace Frame

/-- The moment of the last change of the response. -/
def lastResponded? (frame : Frame) : Option Moment :=
  (frame.history.filter (·.event = .responded)).getLast?

lemma lastResponded?_become (frame : Frame) (event : Event) (stage : Stage) :
    (frame.become event stage).lastResponded?
      = if event = .responded then some ⟨event, stage⟩ else frame.lastResponded? := by
  by_cases responded : event = .responded
  · simp [lastResponded?, responded]
  · simp [lastResponded?, responded]

/-- The response of a frame is what its last change has made of it, and fresh if there was none. -/
def Accounted (frame : Frame) : Prop :=
  frame.response = (frame.lastResponded?.map (·.stage.response)).getD {}

/-- Nothing else changes the response, step by step. -/
lemma Step.accounted {before after : Frame} (h : Step before after) (accounted : before.Accounted) :
    after.Accounted := by
  cases h with
  | respond idle change => simp [Accounted, Frame.respond, lastResponded?_become]
  | _ =>
      simp only [Accounted, note, Frame.amend, moveTo, Frame.capture, Frame.openClause, Frame.restore,
        lastResponded?_become, toStage_become, reduceCtorEq, if_false]
      exact accounted

lemma Accounted.body_eq_nil_iff {frame : Frame} (accounted : frame.Accounted) :
    frame.response.body = [] ↔
      ∀ moment, frame.lastResponded? = some moment → moment.stage.response.body = [] := by
  rw [accounted]
  cases frame.lastResponded? <;> simp

end Frame

namespace Application

/-- In the frame that a dispatch leaves, the response is what its last change has made of it. -/
lemma accounted_handle (app : Application) (handler : Program) (request : Request) (host : Host) :
    (app.handle handler request host).2.Accounted :=
  (app.run_handle handler request host).steps.invariant Frame.Accounted Frame.Step.accounted rfl

/-- **What is replied if nothing was committed,** and no fault leaves the handler: the response as the
last change of it has left it, with the status of what is not found and the length of its body.  So it
is bare exactly if that change, if there was any, has left no body. -/
theorem unmatched_isBare_iff {app : Application} {handler : Program} {request : Request} {host : Host}
    {verdict : Bool} (returned : (app.handle handler request host).1 = .returned verdict)
    (uncommitted : (app.handle handler request host).2.commitment = none) :
    let left := (app.handle handler request host).2
    ∃ response, ((app.define handler).dispatch request host).value = .ok response ∧
      response.status = 404 ∧ response.reason = ascii "Not Found" ∧
      response.body = left.response.body ∧
      (∀ name, response.headers.get? name
        = if name = ascii "content-length" then some (Decimal.natural left.response.body.length)
          else left.response.headers.get? name) ∧
      (response.IsBareNotFound ↔
        ∀ moment, left.lastResponded? = some moment → moment.stage.response.body = []) := by
  intro left
  have accounted : left.Accounted := app.accounted_handle handler request host
  refine ⟨(left.response.setStatus notFound).finish, ?reply, ?status, ?reason, ?body, ?headers,
    (Response.isBareNotFound_iff _).trans accounted.body_eq_nil_iff⟩
  case reply =>
    have dispatched : ((app.define handler).dispatch request host).value
        = replyOf (app.handle handler request host).1 left := value_dispatch rfl request host
    rw [dispatched, returned, replyOf, uncommitted]
  all_goals rw [Response.notFound_finish]
  case headers => exact fun name => Dict.get?_set _ _ name _

/-- A clause that fails behind a matcher that has set the media type. -/
theorem unmatched_isBare_of_accept :
    let handler : Program := .on [.accept (ascii "text/plain"), .truth false] fun _ => .write (ascii "x")
    let request : Request := { headers := Dict.ofList [(ascii "accept", ascii "text/plain")] }
    ∃ response, ((define {} handler).dispatch request ⟨0, [], []⟩).value = .ok response ∧
      response.IsBareNotFound ∧
      response.headers.get? (ascii "content-type") = some (ascii "text/plain") := by
  intro handler request
  have returned : (handle {} handler request ⟨0, [], []⟩).1 = .returned false := rfl
  have uncommitted : (handle {} handler request ⟨0, [], []⟩).2.commitment = none := rfl
  obtain ⟨response, replied, _, _, _, headers, bare⟩ := unmatched_isBare_iff returned uncommitted
  refine ⟨response, replied, bare.mpr fun moment last => ?_, ?_⟩
  · have bodies : (handle {} handler request ⟨0, [], []⟩).2.lastResponded?.map
        (·.stage.response.body) = some [] := by
      decide +kernel
    simpa [last] using bodies
  · rw [headers]
    decide +kernel

/-- What was written while nothing was committed is replied. -/
theorem not_unmatched_isBare_of_write :
    let handler : Program := .write (ascii "x")
    (handle {} handler {} ⟨0, [], []⟩).1 = .returned true ∧
      (handle {} handler {} ⟨0, [], []⟩).2.commitment = none ∧
      ∃ response, ((define {} handler).dispatch {} ⟨0, [], []⟩).value = .ok response ∧
        response.body = ascii "x" ∧ ¬ response.IsBareNotFound :=
  ⟨rfl, rfl, _, rfl, rfl, fun bare => absurd bare.body (by decide)⟩

end Application

end ClauseRouter
