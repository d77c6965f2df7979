import ClauseRouter.Proofs.Dispatch.Run

/-!
# Delegation

To delegate to an application comes to what the handler of the application comes to by itself, although
it then runs in a frame of its own: with the request as it stands, a fresh response, and without the
live captures of the frame around it.

**Code that overlooks the live captures.**  `Program.Overlooks` — outside the clauses that it tries, code
does not go by the live captures.  Inside a clause it may: they were cleared where the clause began, so
all of them are the clause's own.

**Two frames.**  `Frame.Alike` — two frames differ in their histories, and perhaps in their live
captures.  Code that overlooks the captures does the same in both (`Program.perform_blind`); where the
captures are the same as well, as they are inside a clause, all code does.

`Application.delegation_transparent` says what this means for delegation.
-/

namespace ClauseRouter

/-! ## Code that overlooks the live captures -/

mutual

/-- **Code that does not go by the live captures,** except inside the clauses that it tries.  Outside of
them it tries no other named matchers than those whose names are `tried`. -/
def Program.Overlooks (tried : Bytes → Prop) : Program → Prop
  | .seq first second => first.Overlooks tried ∧ second.Overlooks tried
  | .observe next =>
    (∀ view captures, next { view with captures } = next view) ∧ ∀ view, (next view).Overlooks tried
  | .probe condition next => condition.Overlooks tried ∧ ∀ report, (next report).Overlooks tried
  | .attempt body _ recover => body.Overlooks tried ∧ ∀ caught, (recover caught).Overlooks tried
  | .answer _ | .respond _ | .amend _ | .remember _ | .trace _ | .raise _ | .on _ _ | .halt _
  | .delegate _ => True

/-- Neither does the code of a condition. -/
def Condition.Overlooks (tried : Bytes → Prop) : Condition → Prop
  | .check code => code.Overlooks tried
  | .named name _ => tried name
  | .template _ | .regex _ | .anySegment | .truth _ | .verb _ | .host _ | .hostPattern _
  | .extension _ | .parameter _ | .header _ | .accept _ | .unset => True

end

/-- **A handler does not go by the live captures** that it finds.  A named matcher that it tries outside
a clause runs in the same frame, so what that one goes by the handler goes by. -/
def Application.Overlooks (app : Application) (handler : Program) : Prop :=
  ∃ tried : Bytes → Prop, handler.Overlooks tried ∧
    ∀ name condition, app.names.get? name = some condition → tried name →
      ∀ argument, (condition argument).Overlooks tried

/-! ## Computations that agree -/

/-- Two computations come to related values, leave the same host and write the same lines. -/
def Hosted.Agree {α : Type} (same : α → α → Prop) (act other : Hosted α) : Prop :=
  ∀ host, same (act host).value (other host).value ∧ (act host).host = (other host).host ∧
    (act host).lines = (other host).lines

namespace Hosted.Agree

variable {α β : Type} {same : α → α → Prop} {alike : β → β → Prop}

lemma pure {a b : α} (h : same a b) : Agree same (Pure.pure a) (Pure.pure b) := fun _ => ⟨h, rfl, rfl⟩

lemma bind {act other : Hosted α} {next next' : α → Hosted β} (first : Agree same act other)
    (second : ∀ a b, same a b → Agree alike (next a) (next' b)) :
    Agree alike (act >>= next) (other >>= next') := fun host => by
  obtain ⟨values, hosts, lines⟩ := first host
  obtain ⟨values', hosts', lines'⟩ := second _ _ values (other host).host
  simp only [Bind.bind]
  rw [hosts, lines, lines']
  exact ⟨values', hosts', rfl⟩

lemma mono {weaker : α → α → Prop} {act other : Hosted α} (h : Agree same act other)
    (weaken : ∀ {a b}, same a b → weaker a b) : Agree weaker act other :=
  fun host => (h host).imp_left weaken

lemma symm {act other : Hosted α} (h : Agree same act other) (turn : ∀ {a b}, same a b → same b a) :
    Agree same other act := fun host => by
  obtain ⟨values, hosts, lines⟩ := h host
  exact ⟨turn values, hosts.symm, lines.symm⟩

/-- Behind one computation, two that agree. -/
lemma behind (act : Hosted α) {next next' : α → Hosted β}
    (second : ∀ a, Agree alike (next a) (next' a)) : Agree alike (act >>= next) (act >>= next') :=
  have first : Agree (· = ·) act act := fun _ => ⟨rfl, rfl, rfl⟩
  first.bind fun a _ same => same ▸ second a

end Hosted.Agree

/-! ## Frames that are alike -/

namespace Frame

/-- **Two frames differ in their histories,** and perhaps in their live captures. -/
structure Alike (captures : Prop) (frame other : Frame) : Prop where
  request : frame.request = other.request
  response : frame.response = other.response
  commitment : frame.commitment = other.commitment
  captures : captures → frame.captures = other.captures

/-- Two results are the same, with frames that are alike. -/
def Likewise {α : Type} (captures : Prop) (result other : α × Frame) : Prop :=
  result.1 = other.1 ∧ Alike captures result.2 other.2

/-- Behind computations that come to likewise results, two that agree in frames that are alike. -/
lemma Likewise.bind {α β : Type} {captures : Prop} {same : β → β → Prop}
    {act act' : Hosted (α × Frame)} {next next' : α × Frame → Hosted β}
    (first : Hosted.Agree (Likewise captures) act act')
    (second : ∀ result frame other, Alike captures frame other →
      Hosted.Agree same (next (result, frame)) (next' (result, other))) :
    Hosted.Agree same (act >>= next) (act' >>= next') := by
  refine first.bind ?_
  rintro ⟨result, frame⟩ ⟨_, other⟩ ⟨rfl, alike⟩
  exact second result frame other alike

/-- **Two tries of a clause are interchangeable:** they end in the same way, and leave frames that are alike
where the cursor is put back; and if all has passed, also before that and with the same captures. -/
structure Interchangeable (captures : Prop) (result other : Ending × Frame) : Prop where
  ending : result.1 = other.1
  restored (cursor : Cursor) : Alike captures (result.2.restore cursor) (other.2.restore cursor)
  entered : result.1 = .returned true → Alike True result.2 other.2

/-- Code does the same in frames that are alike. -/
def Blind (captures : Prop) (code : Frame → Hosted (Ending × Frame)) : Prop :=
  ∀ frame other, Alike captures frame other → Hosted.Agree (Likewise captures) (code frame) (code other)

namespace Alike

variable {captures : Prop} {frame other : Frame}

lemma refl (frame : Frame) : Alike captures frame frame := ⟨rfl, rfl, rfl, fun _ => rfl⟩

lemma symm (h : Alike captures frame other) : Alike captures other frame :=
  ⟨h.request.symm, h.response.symm, h.commitment.symm, fun same => (h.captures same).symm⟩

lemma note (h : Alike captures frame other) (event : Event) :
    Alike captures (frame.note event) (other.note event) :=
  ⟨h.request, h.response, h.commitment, h.captures⟩

lemma respond (h : Alike captures frame other) (change : Response → Response) :
    Alike captures (frame.respond change) (other.respond change) :=
  ⟨h.request, congrArg change h.response, h.commitment, h.captures⟩

lemma amend (h : Alike captures frame other) (change : Request → Request) :
    Alike captures (frame.amend change) (other.amend change) :=
  ⟨congrArg change h.request, h.response, h.commitment, h.captures⟩

lemma capture (h : Alike captures frame other) (found : Captures) :
    Alike captures (frame.capture found) (other.capture found) :=
  ⟨h.request, h.response, h.commitment, fun same => congrArg (· ++ found) (h.captures same)⟩

lemma moveTo (h : Alike captures frame other) (cursor : Cursor) :
    Alike captures (frame.moveTo cursor) (other.moveTo cursor) :=
  ⟨congrArg ({ · with cursor }) h.request, h.response, h.commitment, h.captures⟩

/-- Where a clause begins the captures are the same, whatever they were. -/
lemma openClause (h : Alike captures frame other) : Alike True frame.openClause other.openClause :=
  ⟨h.request, h.response, h.commitment, fun _ => rfl⟩

lemma restore (h : Alike True frame other) (cursor : Cursor) :
    Alike captures (frame.restore cursor) (other.restore cursor) :=
  ⟨congrArg ({ · with cursor }) h.request, h.response, h.commitment, fun _ => h.captures trivial⟩

lemma commit (h : Alike captures frame other) (response : Response) :
    Likewise captures (frame.commit response) (other.commit response) := by
  unfold Frame.commit
  rw [← h.commitment]
  split
  · exact ⟨rfl, h⟩
  · exact ⟨rfl, h.request, h.response, rfl, h.captures⟩

/-- They hold the same, but for the captures; -/
lemma stage_eq (h : Alike captures frame other) (found : Captures) :
    { frame.toStage with captures := found } = { other.toStage with captures := found } := by
  simp only [h.request, h.response, h.commitment]

/-- and in all if these are the same. -/
lemma toStage_eq (h : Alike True frame other) : frame.toStage = other.toStage :=
  (h.stage_eq frame.captures).trans (by rw [h.captures trivial])

/-- Code sees the same in both, but for the captures. -/
lemma view (h : Alike captures frame other) (settings : Settings) (host : Host) :
    other.view settings host = { frame.view settings host with captures := other.captures } := by
  simp only [Frame.view, Frame.outcome, h.request, h.response, h.commitment]

end Alike

lemma Likewise.symm {α : Type} {captures : Prop} {result other : α × Frame}
    (h : Likewise captures result other) : Likewise captures other result := ⟨h.1.symm, h.2.symm⟩

lemma Likewise.interchangeable {captures : Prop} {result other : Ending × Frame}
    (h : Likewise True result other) : Interchangeable captures result other :=
  ⟨h.1, h.2.restore, fun _ => h.2⟩

lemma Interchangeable.refl {captures : Prop} (result : Ending × Frame) :
    Interchangeable captures result result :=
  Likewise.interchangeable ⟨rfl, .refl _⟩

end Frame

open ClauseRouter.Frame (Alike Likewise Interchangeable Blind)

/-! ## Matchers -/

variable {captures : Prop}

/-- The code of a matcher, if it has any, does the same in frames that are alike. -/
def Matcher.Blind (captures : Prop) (matcher : Matcher) : Prop :=
  ∀ code, matcher.test = .code code → Frame.Blind captures code

/-- A name stands for matchers that do the same in frames that are alike, if it is one of those that may
be tried anywhere, or else the live captures are the same. -/
def Environment.Blind (tried : Bytes → Prop) (env : Environment) : Prop :=
  ∀ ⦃name argument : Bytes⦄ ⦃request : Request⦄ ⦃matcher : Matcher⦄,
    env.named name argument request = .ok matcher →
      ∀ captures : Prop, captures ∨ tried name → matcher.Blind captures

namespace Matcher

lemma blind_of_path {kind : MatcherKind} {pattern : Bytes} {test : PathTest} :
    Blind captures ⟨kind, pattern, .path test⟩ :=
  fun _ h => by cases h

lemma blind_known (verdict : Bool) : (known verdict).Blind captures := fun _ h => by cases h

lemma blind_predicate {code : Frame → Hosted (Ending × Frame)} (h : Frame.Blind captures code) :
    (predicate code).Blind captures :=
  fun _ e => by cases e; exact h

lemma blind_asking (question : Request → Bool) : (asking question).Blind captures :=
  blind_predicate fun _ _ alike =>
    .pure ⟨congrArg (fun request => Ending.returned (question request)) alike.request, alike⟩

lemma blind_parameter (key : Bytes) : (parameter key).Blind captures :=
  blind_predicate fun frame other alike => by
    simp only [alike.request]
    split
    · exact .pure ⟨rfl, alike⟩
    · exact .pure ⟨rfl, alike.capture _⟩

lemma blind_accept (mediaType : Bytes) : (accept mediaType).Blind captures :=
  blind_predicate fun frame other alike => by
    simp only [alike.request]
    split
    · exact .pure ⟨rfl, alike.respond fun r =>
        { r with headers := r.headers.set Response.contentType mediaType }⟩
    · exact .pure ⟨rfl, alike⟩

lemma blind_extension {source : Bytes} {matcher : Matcher} (made : extension? source = .ok matcher) :
    matcher.Blind captures := by
  obtain ⟨test, _, h⟩ := Except.bind_eq_ok.mp made
  cases h
  refine blind_predicate fun frame other alike => ?_
  simp only [alike.request]
  split
  · exact .pure ⟨rfl, alike⟩
  · exact .pure ⟨rfl, (alike.moveTo _).capture _⟩
  · exact .pure ⟨rfl, alike.capture _⟩

/-- A matcher without code does the same in frames that are alike. -/
lemma Builtin.blind {matcher : Matcher} {type : Option Bytes} (builtin : matcher.Builtin type) :
    matcher.Blind captures := by
  cases builtin with
  | path kind pattern test => exact blind_of_path
  | known verdict => exact blind_known verdict
  | asking question => exact blind_asking question
  | parameter key => exact blind_parameter key
  | extension made => exact blind_extension made
  | accept mediaType => exact blind_accept mediaType

/-- A matcher comes to the same in frames that are alike. -/
lemma evaluate_alike {matcher : Matcher} (blind : matcher.Blind captures) {frame other : Frame}
    (alike : Alike captures frame other) :
    Hosted.Agree (Likewise captures) (matcher.evaluate frame) (matcher.evaluate other) := by
  unfold evaluate
  split
  case h_1 test _ =>
    rw [alike.request]
    split
    · exact .pure ⟨rfl, alike⟩
    · exact .pure ⟨rfl, alike.moveTo _⟩
    · exact .pure ⟨rfl, alike⟩
  case h_2 verdict _ => exact .pure ⟨rfl, alike⟩
  case h_3 code made =>
    exact Likewise.bind (blind code made frame other alike) fun _ _ _ alike' => .pure ⟨rfl, alike'⟩

/-- So do all matchers of a clause. -/
lemma evaluateAll_alike : ∀ {matchers : List Matcher}, (∀ m ∈ matchers, m.Blind captures) →
    Frame.Blind captures (evaluateAll matchers)
  | [], _, _, _, alike => .pure ⟨rfl, alike⟩
  | matcher :: rest, blind, frame, other, alike => by
      obtain ⟨first, others⟩ := List.forall_mem_cons.mp blind
      refine Likewise.bind (evaluate_alike first (alike.note .tried)) fun verdict _ _ alike' => ?_
      have captured := alike'.capture verdict.found
      dsimp only
      split
      · exact evaluateAll_alike others _ _ (captured.note .passed)
      · exact .pure ⟨rfl, captured⟩

end Matcher

/-! ## Code -/

/-- **A clause comes to the same if the tries of its matchers are interchangeable,** whatever its body goes
by. -/
lemma Frame.tryClause_interchange {matchers others : List Matcher}
    {body : Captures → Frame → Hosted (Ending × Frame)} (bodies : ∀ found, Blind True (body found))
    {frame other : Frame} (alike : Alike captures frame other)
    (tried : Hosted.Agree (Interchangeable captures) (Matcher.evaluateAll matchers frame.openClause)
      (Matcher.evaluateAll others other.openClause)) :
    Hosted.Agree (Likewise captures) (frame.tryClause matchers body) (other.tryClause others body) := by
  have attempt : Hosted.Agree (Interchangeable captures)
      (tryClause.attemptClause matchers body frame.openClause)
      (tryClause.attemptClause others body other.openClause) := by
    refine tried.bind ?_
    rintro ⟨ending, left⟩ ⟨_, left'⟩ ⟨rfl, restored, entered⟩
    dsimp only
    split
    · have alike' := entered rfl
      rw [alike'.captures trivial]
      refine Likewise.bind (bodies _ _ _ (alike'.note _)) fun _ _ _ alike'' => ?_
      dsimp only
      split
      · rw [alike''.response]
        exact .pure (alike''.commit _).interchangeable
      · exact .pure (Likewise.interchangeable ⟨rfl, alike''⟩)
    · exact .pure ⟨rfl, restored, entered⟩
  simp only [tryClause]
  rw [← alike.commitment, alike.request]
  split
  · exact .pure ⟨rfl, alike⟩
  · refine attempt.bind ?_
    rintro ⟨ending, left⟩ ⟨_, left'⟩ ⟨rfl, restored, _⟩
    exact .pure ⟨rfl, restored _⟩

/-- **A clause does the same in frames that are alike,** whatever its matchers and its body go by: it
begins without captures in both. -/
lemma Frame.tryClause_alike {matchers : List Matcher} (blind : ∀ m ∈ matchers, m.Blind True)
    {body : Captures → Frame → Hosted (Ending × Frame)} (bodies : ∀ found, Blind True (body found)) :
    Blind captures fun frame => frame.tryClause matchers body := fun _ _ alike =>
  tryClause_interchange bodies alike <|
    (Matcher.evaluateAll_alike blind _ _ alike.openClause).mono Likewise.interchangeable

section

variable {env : Environment} {tried : Bytes → Prop}

mutual

/-- **Code that overlooks the live captures does the same in frames that are alike;** where the captures
are the same, all code does. -/
lemma Program.perform_blind (known : env.Blind tried) : ∀ (program : Program) {captures : Prop},
    captures ∨ program.Overlooks tried → Blind captures (program.perform env)
  | .answer verdict, _, _, _, _, alike => .pure ⟨rfl, alike⟩
  | .seq first second, _, h, frame, other, alike => by
      have ran := first.perform_blind known (h.imp_right And.left) _ _ alike
      refine Likewise.bind ran fun _ _ _ alike' => ?_
      dsimp only
      split
      · exact second.perform_blind known (h.imp_right And.right) _ _ alike'
      · exact .pure ⟨rfl, alike'⟩
  | .observe next, _, h, frame, other, alike => by
      refine .behind Hosted.host fun host => ?_
      have view := alike.view env.settings host
      have seen : next (other.view env.settings host) = next (frame.view env.settings host) := by
        rw [view]
        rcases h with same | overlooks
        · rw [← alike.captures same]
          rfl
        · exact overlooks.1 _ _
      rw [seen]
      exact (next _).perform_blind known (h.imp_right (·.2 _)) _ _ (alike.note .observed)
  | .respond change, _, _, _, _, alike => .pure ⟨rfl, alike.respond change⟩
  | .amend change, _, _, _, _, alike => .pure ⟨rfl, alike.amend change⟩
  | .remember change, _, _, frame, other, alike => by
      simp only [Program.perform, Frame.remember]
      rw [alike.request]
      exact .behind _ fun _ => .pure ⟨rfl, alike⟩
  | .trace text, _, _, _, _, alike => .behind _ fun _ => .pure ⟨rfl, alike⟩
  | .raise fault, _, _, _, _, alike => .pure ⟨rfl, alike⟩
  | .on clause body, _, _, frame, other, alike => by
      simp only [Program.perform]
      rw [alike.request]
      cases made : prepareAll env other.request clause with
      | error fault => exact .pure ⟨rfl, alike⟩
      | ok matchers =>
          exact Frame.tryClause_alike (prepareAll_blind known clause made)
            (fun found => (body found).perform_blind known (.inl trivial)) _ _ alike
  | .probe condition next, _, h, frame, other, alike => by
      simp only [Program.perform]
      rw [alike.request]
      cases made : condition.prepare env other.request with
      | error fault => exact .pure ⟨rfl, alike⟩
      | ok matcher =>
          have blind := condition.prepare_blind known (h.imp_right And.left) made
          refine Likewise.bind (matcher.evaluate_alike blind alike) fun _ _ _ alike' => ?_
          dsimp only
          split
          · exact (next _).perform_blind known (h.imp_right (·.2 _)) _ _ alike'
          · exact .pure ⟨rfl, alike'⟩
  | .attempt body scope recover, _, h, frame, other, alike => by
      simp only [Program.perform]
      have ran := body.perform_blind known (h.imp_right And.left) _ _ alike
      refine Likewise.bind ran fun _ _ _ alike' => ?_
      dsimp only
      split
      · exact (recover _).perform_blind known (h.imp_right (·.2 _)) _ _ alike'
      · exact .pure ⟨rfl, alike'⟩
  | .halt response, _, _, _, _, alike => .pure (alike.commit response)
  | .delegate endpoint, _, _, frame, other, alike => by
      have noted := alike.note .delegated
      simp only [Program.perform, Frame.delegate, noted.request]
      refine .behind _ fun reply => ?_
      cases reply with
      | ok response => exact .pure (noted.commit response)
      | error fault => exact .pure ⟨rfl, noted⟩

/-- So do the matchers of conditions. -/
lemma Condition.prepare_blind (known : env.Blind tried) {request : Request} :
    ∀ (condition : Condition) {captures : Prop} {matcher : Matcher},
      captures ∨ condition.Overlooks tried → condition.prepare env request = .ok matcher →
        matcher.Blind captures
  | .named name argument, _, _, h, made => known made _ h
  | .check code, _, _, h, made => by
      cases made
      exact Matcher.blind_predicate (code.perform_blind known h)
  | .template _, _, _, _, made | .regex _, _, _, _, made | .anySegment, _, _, _, made
  | .truth _, _, _, _, made | .verb _, _, _, _, made | .host _, _, _, _, made
  | .hostPattern _, _, _, _, made | .extension _, _, _, _, made | .parameter _, _, _, _, made
  | .header _, _, _, _, made | .accept _, _, _, _, made | .unset, _, _, _, made =>
      (Condition.builtin made trivial).blind

/-- In a clause, where the captures are the same, so do all matchers. -/
lemma prepareAll_blind (known : env.Blind tried) {request : Request} :
    ∀ (clause : List Condition) {matchers : List Matcher},
      prepareAll env request clause = .ok matchers → ∀ m ∈ matchers, m.Blind True
  | [], _, made => by cases made; simp
  | condition :: rest, _, made => by
      obtain ⟨first, madeFirst, h⟩ := Except.bind_eq_ok.mp made
      obtain ⟨others, madeRest, h⟩ := Except.bind_eq_ok.mp h
      cases h
      exact List.forall_mem_cons.mpr
        ⟨condition.prepare_blind known (.inl trivial) madeFirst, prepareAll_blind known rest madeRest⟩

end

end

/-- What a name stands for does the same in frames that are alike, however deep names use each other. -/
lemma Application.resolve_blind {app : Application} {tried : Bytes → Prop}
    (overlooks : ∀ name condition, app.names.get? name = some condition → tried name →
      ∀ argument, (condition argument).Overlooks tried) :
    ∀ depth : Nat, Environment.Blind tried ⟨app.settings, resolve app.settings app.names depth⟩
  | 0, _, _, _, _, made, _, _ => by cases made
  | depth + 1, name, argument, request, matcher, made, captures, h => by
      simp only [resolve] at made
      cases known : app.names.get? name with
      | none => simp [known] at made
      | some condition =>
          rw [known] at made
          exact (condition argument).prepare_blind (resolve_blind overlooks depth)
            (h.imp_right (overlooks name condition known · argument)) made

/-- A handler that overlooks the live captures does the same in frames that are alike. -/
lemma Application.Overlooks.perform_alike {app : Application} {handler : Program}
    (overlooks : app.Overlooks handler) {frame other : Frame} (alike : Alike False frame other) :
    Hosted.Agree (Likewise False) (handler.perform app.environment frame)
      (handler.perform app.environment other) := by
  obtain ⟨tried, handlerOverlooks, namesOverlook⟩ := overlooks
  have known : app.environment.Blind tried := resolve_blind namesOverlook depthLimit
  exact handler.perform_blind known (.inr handlerOverlooks) frame other alike

/-! ## Delegation -/

/-- What a frame comes to that delegates, by the reply. -/
def Frame.replied (frame : Frame) : Reply → Ending × Frame
  | .ok response => (frame.note .delegated).commit response
  | .error fault => (.faulted fault, frame.note .delegated)

lemma Frame.delegate_eq (frame : Frame) (endpoint : Endpoint) (host : Host) :
    frame.delegate endpoint host = ⟨frame.replied (endpoint frame.request host).value,
      (endpoint frame.request host).host, (endpoint frame.request host).lines⟩ := by
  have request : (frame.note .delegated).request = frame.request := rfl
  simp only [delegate, bind, request]
  generalize endpoint frame.request host = called
  obtain ⟨reply, after, lines⟩ := called
  cases reply <;> simp [replied, pure]

/-- A response that is replied is committed. -/
lemma Frame.replied_ok {frame : Frame} (running : frame.commitment = none) (response : Response) :
    (frame.replied (.ok response)).1 = .halted response ∧
      (frame.replied (.ok response)).2.commitment = some response := by
  have still : (frame.note .delegated).commitment = none := running
  simp [replied, commit, still]

namespace Application

/-- The reply that an ending leaves is the same for frames that are alike. -/
lemma replyOf_alike {captures : Prop} {frame other : Frame} (alike : Alike captures frame other)
    (ending : Ending) : replyOf ending frame = replyOf ending other := by
  cases ending with
  | returned verdict => simp only [replyOf, alike.commitment, alike.response]
  | halted response => rfl
  | faulted fault => rfl

/-- What an application without middlewares replies is what the run of its handler leaves. -/
lemma call_guest (app : Application) (handler : Program) (request : Request) (host : Host) :
    let ran := handler.perform app.environment (.initial request) host
    (app.reset.define handler).call request host
      = ⟨replyOf ran.value.1 ran.value.2, ran.host, ran.lines⟩ := by
  intro ran
  have lines : ran.lines ++ [] = ran.lines := List.append_nil _
  exact congrArg (Outcome.mk _ _) lines

namespace Overlooks

variable {app : Application} {handler : Program} (overlooks : app.Overlooks handler) {frame : Frame}
  (running : frame.commitment = none) (fresh : frame.response = {}) (host : Host)

include overlooks running fresh

/-- A handler does the same in a frame of its own as in a running one with a fresh response. -/
lemma perform_initial :
    let direct := handler.perform app.environment frame host
    let inside := handler.perform app.environment (.initial frame.request) host
    Likewise False direct.value inside.value ∧ direct.host = inside.host ∧
      direct.lines = inside.lines := by
  have alike : Alike False frame (.initial frame.request) := ⟨rfl, fresh, running, nofun⟩
  exact overlooks.perform_alike alike host

/-- **To delegate to the handler** comes to the reply that the handler leaves in the frame itself. -/
lemma perform_delegate :
    let direct := handler.perform app.environment frame host
    (Program.delegate (app.reset.define handler).call).perform app.environment frame host
      = ⟨frame.replied (replyOf direct.value.1 direct.value.2), direct.host, direct.lines⟩ := by
  intro direct
  obtain ⟨⟨endings, left⟩, hosts, lines⟩ := overlooks.perform_initial running fresh host
  have delegated := frame.delegate_eq (app.reset.define handler).call host
  rw [call_guest, ← hosts, ← lines, ← endings, ← replyOf_alike left] at delegated
  exact delegated

/-- What a halt carries is the outcome of the frame, as it is for a frame of its own. -/
lemma carries {response : Response}
    (halted : (handler.perform app.environment frame host).value.1 = .halted response) :
    (handler.perform app.environment frame host).value.2.commitment = some response := by
  obtain ⟨⟨endings, left⟩, _⟩ := overlooks.perform_initial running fresh host
  rw [left.commitment]
  exact (app.run_handle handler frame.request host).carries response (endings.symm.trans halted)

end Overlooks

/-- **Delegation is transparent.**  Where the frame is running and its response fresh, to delegate to an
application without middlewares, with the same settings and named matchers, comes to what its handler
comes to in the frame itself.  A fault is passed on; what the handler commits is committed; and where it
commits nothing, the response that it leaves is, with the status of what was not found. -/
theorem delegation_transparent {app : Application} {handler : Program}
    (overlooks : app.Overlooks handler) {frame : Frame} (running : frame.commitment = none)
    (fresh : frame.response = {}) (host : Host) :
    let direct := handler.perform app.environment frame host
    let guest := app.reset.define handler
    let delegated := (Program.delegate guest.call).perform app.environment frame host
    let commits response :=
      delegated.value.1 = .halted response ∧ delegated.value.2.commitment = some response
    (∀ fault, direct.value.1 = .faulted fault →
      delegated.value.1 = .faulted fault ∧ delegated.value.2.commitment = none) ∧
    (∀ response, direct.value.1 = .halted response → direct.value.2.commitment = some response) ∧
    ((∀ fault, direct.value.1 ≠ .faulted fault) →
      (∀ response, direct.value.2.commitment = some response → commits response) ∧
      (direct.value.2.commitment = none →
        commits (direct.value.2.response.setStatus notFound).finish)) ∧
    delegated.host = direct.host ∧ delegated.lines = direct.lines := by
  intro direct guest delegated commits
  have delegates : delegated = _ := overlooks.perform_delegate running fresh host
  have carries : ∀ response, direct.value.1 = .halted response →
      direct.value.2.commitment = some response :=
    fun _ halted => overlooks.carries running fresh host halted
  have commits_of_reply {response : Response}
      (reply : replyOf direct.value.1 direct.value.2 = .ok response) : commits response := by
    rw [reply] at delegates
    simp only [commits, delegates]
    exact frame.replied_ok running response
  refine ⟨fun fault faulted => ?_, carries, fun quiet => ⟨fun response committed => ?_, fun none => ?_⟩,
    by rw [delegates], by rw [delegates]⟩
  · rw [delegates, faulted]
    exact ⟨rfl, running⟩
  · apply commits_of_reply
    cases ended : direct.value.1 with
    | faulted fault => exact absurd ended (quiet fault)
    | halted other =>
        have same := (carries other ended).symm.trans committed
        rw [Option.some.inj same]
        rfl
    | returned verdict => simp only [replyOf, committed]
  · apply commits_of_reply
    cases ended : direct.value.1 with
    | faulted fault => exact absurd ended (quiet fault)
    | halted other => exact absurd ((carries other ended).symm.trans none) nofun
    | returned verdict => simp only [replyOf, none]

/-- A clause behind a segment that was captured by the clause around it. -/
theorem delegation_transparent_of_clause :
    let frame : Frame := { request := { cursor := ⟨ascii "/x", ascii "/y"⟩ }, captures := [ascii "x"] }
    let handler : Program := .on [.template (ascii ":b")] fun found => .write found.flatten
    let guest := (reset {}).define handler
    let delegated := (Program.delegate guest.call).perform (environment {}) frame ⟨0, [], []⟩
    ∃ response, delegated.value.1 = .halted response ∧ response.body = ascii "y" := by
  intro frame handler guest delegated
  have overlooks : ({} : Application).Overlooks handler := ⟨fun _ => False, trivial, nofun⟩
  have direct : (handler.perform (environment {}) frame ⟨0, [], []⟩).value.2.commitment.map
      Response.body = some (ascii "y") := by
    decide +kernel
  obtain ⟨response, committed, body⟩ := Option.map_eq_some_iff.mp direct
  have running : frame.commitment = none := rfl
  have fresh : frame.response = {} := rfl
  obtain ⟨_, _, commits, _⟩ := delegation_transparent overlooks running fresh ⟨0, [], []⟩
  obtain ⟨halted, _⟩ := (commits nofun).1 response committed
  exact ⟨response, halted, body⟩

/-- A handler that goes by the captures around it does not find them in a frame of its own. -/
example :
    let frame : Frame := { request := {}, captures := [ascii "x"] }
    let handler : Program := .observe fun view => .halt { body := view.captures.flatten }
    let committed (code : Program) : Option Bytes :=
      (code.perform (environment {}) frame ⟨0, [], []⟩).value.2.commitment.map Response.body
    committed handler = some (ascii "x") ∧
      committed (.delegate ((reset {}).define handler).call) = some [] := by
  decide +kernel

end Application

end ClauseRouter
