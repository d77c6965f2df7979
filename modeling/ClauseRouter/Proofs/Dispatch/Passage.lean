import Mathlib.Tactic.Lemma
import ClauseRouter.Application.Basic
import ClauseRouter.Proofs.Dispatch.Vocabulary

/-!
# What handler code makes of the outcome and of its host

Handler code fixes the outcome of its frame, changes the values of sessions in its host, and calls other
endpoints.  In all else that it does the outcome and the host stay as they are.  So a relation between
the outcome and the host that code finds and those that it leaves, if it covers these and can be put
together from step to step, covers whatever handler code does.

* `Program.Delegates`, `Program.Halts` — the endpoints to which a program may delegate and the responses
  with which it may halt have a property.
* `Passage.Lawful` — what is asked of such a relation.
* `Program.perform_passes`, `Application.perform_passes` — programs and handlers keep to it, if these
  endpoints and responses are as it asks.

Conditions and the names of an application are handler code as well.
-/

namespace ClauseRouter

mutual

/-- All endpoints to which a program may delegate have a property. -/
def Program.Delegates (allowed : Endpoint → Prop) : Program → Prop
  | .delegate endpoint => allowed endpoint
  | .seq first second => first.Delegates allowed ∧ second.Delegates allowed
  | .observe next => ∀ view, (next view).Delegates allowed
  | .on clause body => allDelegate allowed clause ∧ ∀ found, (body found).Delegates allowed
  | .probe condition next => condition.Delegates allowed ∧ ∀ report, (next report).Delegates allowed
  | .attempt body _ recover =>
    body.Delegates allowed ∧ ∀ caught, (recover caught).Delegates allowed
  | .answer _ | .respond _ | .amend _ | .remember _ | .trace _ | .raise _ | .halt _ => True

/-- So do those to which the code of a condition may delegate. -/
def Condition.Delegates (allowed : Endpoint → Prop) : Condition → Prop
  | .check code => code.Delegates allowed
  | .template _ | .regex _ | .anySegment | .truth _ | .verb _ | .host _ | .hostPattern _
  | .extension _ | .parameter _ | .header _ | .accept _ | .named _ _ | .unset => True

/-- So do those of a clause. -/
def allDelegate (allowed : Endpoint → Prop) : List Condition → Prop
  | [] => True
  | condition :: rest => condition.Delegates allowed ∧ allDelegate allowed rest

end

mutual

/-- All responses with which a program may halt by itself, other than by a clause or a delegation, have
a property. -/
def Program.Halts (allowed : Response → Prop) : Program → Prop
  | .halt response => allowed response
  | .seq first second => first.Halts allowed ∧ second.Halts allowed
  | .observe next => ∀ view, (next view).Halts allowed
  | .on clause body => allHalt allowed clause ∧ ∀ found, (body found).Halts allowed
  | .probe condition next => condition.Halts allowed ∧ ∀ report, (next report).Halts allowed
  | .attempt body _ recover => body.Halts allowed ∧ ∀ caught, (recover caught).Halts allowed
  | .answer _ | .respond _ | .amend _ | .remember _ | .trace _ | .raise _ | .delegate _ => True

/-- So do those of the code of a condition. -/
def Condition.Halts (allowed : Response → Prop) : Condition → Prop
  | .check code => code.Halts allowed
  | .template _ | .regex _ | .anySegment | .truth _ | .verb _ | .host _ | .hostPattern _
  | .extension _ | .parameter _ | .header _ | .accept _ | .named _ _ | .unset => True

/-- So do those of a clause. -/
def allHalt (allowed : Response → Prop) : List Condition → Prop
  | [] => True
  | condition :: rest => condition.Halts allowed ∧ allHalt allowed rest

end

namespace Application

/-- The endpoints to which the handler of an application and its named conditions may delegate have a
property. -/
def Delegates (allowed : Endpoint → Prop) (app : Application) : Prop :=
  (∀ handler, app.handler = some handler → handler.Delegates allowed) ∧
    ∀ name condition, app.names.get? name = some condition →
      ∀ argument, (condition argument).Delegates allowed

/-- So do the responses with which they may halt by themselves. -/
def Halts (allowed : Response → Prop) (app : Application) : Prop :=
  (∀ handler, app.handler = some handler → handler.Halts allowed) ∧
    ∀ name condition, app.names.get? name = some condition →
      ∀ argument, (condition argument).Halts allowed

/-- Without named conditions, it is the handler that counts. -/
lemma delegates_of_handler {allowed : Endpoint → Prop} {handler : Program}
    (delegates : handler.Delegates allowed) : Delegates allowed { handler := some handler } :=
  ⟨fun _ defined => Option.some.inj defined ▸ delegates, fun _ _ named => by cases named⟩

lemma halts_of_handler {allowed : Response → Prop} {handler : Program}
    (commits : handler.Halts allowed) : Halts allowed { handler := some handler } :=
  ⟨fun _ defined => Option.some.inj defined ▸ commits, fun _ _ named => by cases named⟩

end Application

/-! ## Passages -/

/-- A relation between the outcome and the host that code finds and those that it leaves. -/
abbrev Passage := Option Response × Host → Option Response × Host → Prop

namespace Passage

/-- **The laws of a passage,** for code that halts with certain responses and calls certain endpoints. -/
structure Lawful (passage : Passage) (halts : Response → Prop) (calls : Endpoint → Prop) : Prop where
  refl (found : Option Response × Host) : passage found found
  trans {found between left : Option Response × Host} :
    passage found between → passage between left → passage found left
  remember (outcome : Option Response) (host : Host) (key : SessionKey)
    (change : Dict Bytes → Dict Bytes) :
    passage (outcome, host) (outcome, host.updateSession key change)
  /-- A clause commits the response that its body has left, -/
  finish (left : Response) (host : Host) : passage (none, host) (some left.finish, host)
  /-- a halt commits the response that it is given, -/
  halt {response : Response} (allowed : halts response) (host : Host) :
    passage (none, host) (some response, host)
  /-- and a delegation the response that is replied. -/
  reply {endpoint : Endpoint} (allowed : calls endpoint) {request : Request} {host : Host}
    {response : Response} (replied : (endpoint request host).value = .ok response) :
    passage (none, host) (some response, (endpoint request host).host)
  call {endpoint : Endpoint} (allowed : calls endpoint) (outcome : Option Response)
    (request : Request) (host : Host) :
    passage (outcome, host) (outcome, (endpoint request host).host)

/-- From an outcome, in every host, a computation leads to what is in the relation. -/
def Leads {α : Type} (passage : Passage) (outcome : Option Response) (act : Hosted (α × Frame)) :
    Prop :=
  ∀ host, passage (outcome, host) ((act host).value.2.commitment, (act host).host)

/-- Code keeps to a passage, whatever frame it finds. -/
def Holds (passage : Passage) (code : Frame → Hosted (Ending × Frame)) : Prop :=
  ∀ frame, passage.Leads frame.commitment (code frame)

end Passage

/-- The code of a matcher, if it has any, keeps to a passage. -/
def Matcher.Passes (passage : Passage) (matcher : Matcher) : Prop :=
  ∀ code, matcher.test = .code code → passage.Holds code

/-- What an environment makes of a name keeps to a passage. -/
def Environment.Passes (passage : Passage) (env : Environment) : Prop :=
  ∀ ⦃name argument : Bytes⦄ ⦃request : Request⦄ ⦃matcher : Matcher⦄,
    env.named name argument request = .ok matcher → matcher.Passes passage

variable {passage : Passage} {halts : Response → Prop} {calls : Endpoint → Prop}

namespace Passage

variable {α β : Type} {outcome : Option Response}

/-- One computation after the other. -/
lemma Leads.bind (lawful : passage.Lawful halts calls) {act : Hosted (α × Frame)}
    {next : α × Frame → Hosted (β × Frame)} (first : passage.Leads outcome act)
    (second : ∀ a after, passage.Leads after.commitment (next (a, after))) :
    passage.Leads outcome (act >>= next) :=
  fun host => lawful.trans (first host) (second _ _ _)

namespace Lawful

variable (lawful : passage.Lawful halts calls)

include lawful

/-- What leaves the outcome and the host alone. -/
lemma stay {a : α} {after : Frame} (same : after.commitment = outcome) :
    passage.Leads outcome (pure (a, after)) :=
  fun host => same ▸ lawful.refl (after.commitment, host)

/-- A commit of a response that may be committed. -/
lemma commit {response : Response} (frame : Frame)
    (allowed : ∀ host, passage (none, host) (some response, host)) :
    passage.Leads frame.commitment (pure (frame.commit response)) := by
  intro host
  unfold Frame.commit
  split
  · exact lawful.refl (frame.commitment, host)
  · rename_i running
    rw [running]
    exact allowed host

end Lawful

end Passage

/-! ## Matchers -/

namespace Matcher

lemma passes_of_path {kind : MatcherKind} {pattern : Bytes} {test : PathTest} :
    Passes passage ⟨kind, pattern, .path test⟩ :=
  fun _ h => by cases h

lemma known_passes (verdict : Bool) : (known verdict).Passes passage := fun _ h => by cases h

lemma predicate_passes {code : Frame → Hosted (Ending × Frame)} (h : passage.Holds code) :
    (predicate code).Passes passage :=
  fun _ e => by cases e; exact h

variable (lawful : passage.Lawful halts calls)

include lawful

lemma asking_passes (question : Request → Bool) : (asking question).Passes passage :=
  predicate_passes fun _ => lawful.stay rfl

lemma parameter_passes (key : Bytes) : (parameter key).Passes passage := by
  refine predicate_passes fun frame => ?_
  dsimp only
  split
  · exact lawful.stay rfl
  · exact lawful.stay rfl

lemma accept_passes (mediaType : Bytes) : (accept mediaType).Passes passage := by
  refine predicate_passes fun frame => ?_
  split
  · exact lawful.stay rfl
  · exact lawful.stay rfl

lemma extension?_passes {source : Bytes} {matcher : Matcher} (h : extension? source = .ok matcher) :
    matcher.Passes passage := by
  obtain ⟨test, _, h⟩ := Except.bind_eq_ok.mp h
  cases h
  refine predicate_passes fun frame => ?_
  split
  · exact lawful.stay rfl
  · exact lawful.stay rfl
  · exact lawful.stay rfl

/-- A matcher without code keeps to every passage. -/
lemma Builtin.passes {matcher : Matcher} {type : Option Bytes} (builtin : matcher.Builtin type) :
    matcher.Passes passage := by
  cases builtin with
  | path kind pattern test => exact passes_of_path
  | known verdict => exact known_passes verdict
  | asking question => exact asking_passes lawful question
  | parameter key => exact parameter_passes lawful key
  | extension made => exact extension?_passes lawful made
  | accept mediaType => exact accept_passes lawful mediaType

lemma evaluate_passes {matcher : Matcher} (passes : matcher.Passes passage) (frame : Frame) :
    passage.Leads frame.commitment (matcher.evaluate frame) := by
  unfold evaluate
  split
  · split
    · exact lawful.stay rfl
    · exact lawful.stay rfl
    · exact lawful.stay rfl
  · exact lawful.stay rfl
  · rename_i code made
    exact .bind lawful (passes code made frame) fun ending after => lawful.stay rfl

/-- **The matchers of a clause** keep to a passage, one after the other. -/
lemma evaluateAll_passes : ∀ {matchers : List Matcher}, (∀ m ∈ matchers, m.Passes passage) →
    passage.Holds (evaluateAll matchers)
  | [], _, frame => lawful.stay rfl
  | matcher :: rest, passes, frame => by
      obtain ⟨first, others⟩ := List.forall_mem_cons.mp passes
      have tried := evaluate_passes lawful first (frame.note .tried)
      refine .bind lawful tried fun verdict after => ?_
      dsimp only
      split
      · exact evaluateAll_passes others ((after.capture verdict.found).note .passed)
      · exact lawful.stay rfl

end Matcher

/-! ## Clauses and programs -/

namespace Frame

variable (lawful : passage.Lawful halts calls)

include lawful

lemma remember_passes (frame : Frame) (change : Dict Bytes → Dict Bytes) :
    passage.Leads frame.commitment (frame.remember change >>= fun ending => pure (ending, frame)) := by
  intro host
  unfold remember
  split
  · exact lawful.refl (frame.commitment, host)
  · exact lawful.remember frame.commitment host _ change

lemma delegate_passes {endpoint : Endpoint} (allowed : calls endpoint) :
    passage.Holds fun frame => frame.delegate endpoint := by
  intro frame host
  have called := lawful.call allowed frame.commitment frame.request host
  have same : (frame.note .delegated).request = frame.request := rfl
  simp only [delegate, bind, same]
  cases replied : (endpoint frame.request host).value with
  | error fault => exact called
  | ok response =>
      cases outcome : (frame.note .delegated).commitment with
      | some _ =>
          simp only [commit, outcome]
          exact called
      | none =>
          have running : frame.commitment = none := outcome
          simp only [commit, outcome]
          rw [running]
          exact lawful.reply allowed replied

/-- **A clause** keeps to a passage if its matchers and its body do. -/
lemma tryClause_passes {matchers : List Matcher} (passes : ∀ m ∈ matchers, m.Passes passage)
    {body : Captures → Frame → Hosted (Ending × Frame)} (bodies : ∀ found, passage.Holds (body found)) :
    passage.Holds fun frame => frame.tryClause matchers body := by
  intro frame
  simp only [tryClause]
  split
  · exact lawful.stay rfl
  · refine .bind lawful ?attempt fun ending after => lawful.stay rfl
    refine .bind lawful (Matcher.evaluateAll_passes lawful passes frame.openClause) fun ending chosen => ?_
    dsimp only
    split
    · have ran := bodies chosen.captures (chosen.note (.entered chosen.captures))
      refine .bind lawful ran fun ending after => ?_
      dsimp only
      split
      · exact lawful.commit after (lawful.finish _)
      · exact lawful.stay rfl
    · exact lawful.stay rfl

end Frame

section

variable {env : Environment}

mutual

/-- **Every program** keeps to a passage if it delegates and halts as the passage asks; some passages ask
nothing of halts. -/
lemma Program.perform_passes (lawful : passage.Lawful halts calls) (known : env.Passes passage) :
    ∀ program : Program, program.Delegates calls →
      (∀ response, halts response) ∨ program.Halts halts → passage.Holds (program.perform env)
  | .answer verdict, _, _, frame => lawful.stay rfl
  | .seq first second, delegates, commits, frame => by
      have ran := first.perform_passes lawful known delegates.1 (commits.imp_right And.left) frame
      refine .bind lawful ran fun ending after => ?_
      dsimp only
      split
      · exact second.perform_passes lawful known delegates.2 (commits.imp_right And.right) after
      · exact lawful.stay rfl
  | .observe next, delegates, commits, frame => fun host =>
      (next _).perform_passes lawful known (delegates _) (commits.imp_right (· _))
        (frame.note .observed) host
  | .respond change, _, _, frame => lawful.stay rfl
  | .amend change, _, _, frame => lawful.stay rfl
  | .remember change, _, _, frame => frame.remember_passes lawful change
  | .trace _, _, _, frame => fun host => lawful.refl (frame.commitment, host)
  | .raise _, _, _, frame => lawful.stay rfl
  | .on clause body, delegates, commits, frame => by
      simp only [Program.perform]
      split
      · exact lawful.stay rfl
      · rename_i matchers made
        have passes := prepareAll_passes lawful known clause delegates.1 (commits.imp_right And.left) made
        exact Frame.tryClause_passes lawful passes
          (fun found => (body found).perform_passes lawful known (delegates.2 found)
            (commits.imp_right (·.2 found))) frame
  | .probe condition next, delegates, commits, frame => by
      simp only [Program.perform]
      split
      · exact lawful.stay rfl
      · rename_i matcher made
        have passes := condition.prepare_passes lawful known delegates.1 (commits.imp_right And.left) made
        refine .bind lawful (matcher.evaluate_passes lawful passes frame) fun verdict after => ?_
        dsimp only
        split
        · exact (next _).perform_passes lawful known (delegates.2 _) (commits.imp_right (·.2 _)) after
        · exact lawful.stay rfl
  | .attempt body scope recover, delegates, commits, frame => by
      have ran := body.perform_passes lawful known delegates.1 (commits.imp_right And.left) frame
      simp only [Program.perform]
      refine .bind lawful ran fun ending after => ?_
      dsimp only
      split
      · exact (recover _).perform_passes lawful known (delegates.2 _) (commits.imp_right (·.2 _)) after
      · exact lawful.stay rfl
  | .halt response, _, commits, frame =>
      lawful.commit frame (lawful.halt (commits.elim (· response) id))
  | .delegate _, allowed, _, frame => Frame.delegate_passes lawful allowed frame

/-- So does the matcher to which a condition is prepared. -/
lemma Condition.prepare_passes (lawful : passage.Lawful halts calls) (known : env.Passes passage)
    {request : Request} : ∀ (condition : Condition) {matcher : Matcher}, condition.Delegates calls →
      (∀ response, halts response) ∨ condition.Halts halts →
        condition.prepare env request = .ok matcher → matcher.Passes passage
  | .named name argument, _, _, _, made => known made
  | .check code, _, delegates, commits, made => by
      cases made
      exact Matcher.predicate_passes (code.perform_passes lawful known delegates commits)
  | .template _, _, _, _, made | .regex _, _, _, _, made | .anySegment, _, _, _, made
  | .truth _, _, _, _, made | .verb _, _, _, _, made | .host _, _, _, _, made
  | .hostPattern _, _, _, _, made | .extension _, _, _, _, made | .parameter _, _, _, _, made
  | .header _, _, _, _, made | .accept _, _, _, _, made | .unset, _, _, _, made =>
      Matcher.Builtin.passes lawful (Condition.builtin made trivial)

/-- So do those of a clause. -/
lemma prepareAll_passes (lawful : passage.Lawful halts calls) (known : env.Passes passage)
    {request : Request} : ∀ (clause : List Condition) {matchers : List Matcher},
      allDelegate calls clause → (∀ response, halts response) ∨ allHalt halts clause →
        prepareAll env request clause = .ok matchers → ∀ m ∈ matchers, m.Passes passage
  | [], _, _, _, made => by cases made; simp
  | condition :: rest, _, delegates, commits, made => by
      obtain ⟨first, madeFirst, made⟩ := Except.bind_eq_ok.mp made
      obtain ⟨others, madeRest, made⟩ := Except.bind_eq_ok.mp made
      cases made
      exact List.forall_mem_cons.mpr
        ⟨condition.prepare_passes lawful known delegates.1 (commits.imp_right And.left) madeFirst,
          prepareAll_passes lawful known rest delegates.2 (commits.imp_right And.right) madeRest⟩

end

end

namespace Application

variable (lawful : passage.Lawful halts calls) {app : Application} (delegates : app.Delegates calls)
  (commits : (∀ response, halts response) ∨ app.Halts halts)

include lawful delegates commits

/-- What a name stands for keeps to a passage, however deep names use each other. -/
lemma resolve_passes :
    ∀ depth : Nat, Environment.Passes passage ⟨app.settings, resolve app.settings app.names depth⟩
  | 0, _, _, _, _, made => by cases made
  | depth + 1, name, argument, request, matcher, made => by
      simp only [resolve] at made
      cases known : app.names.get? name with
      | none => simp [known] at made
      | some condition =>
          rw [known] at made
          exact (condition argument).prepare_passes lawful (resolve_passes depth)
            (delegates.2 name condition known argument)
            (commits.imp_right (·.2 name condition known argument)) made

/-- **The handler of an application** keeps to a passage, if it delegates and halts as the passage asks. -/
lemma perform_passes {handler : Program} (defined : app.handler = some handler) :
    passage.Holds (handler.perform app.environment) :=
  handler.perform_passes lawful (resolve_passes lawful delegates commits depthLimit)
    (delegates.1 handler defined) (commits.imp_right (·.1 handler defined))

end Application

end ClauseRouter
