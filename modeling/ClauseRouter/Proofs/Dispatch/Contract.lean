import ClauseRouter.Proofs.Dispatch.Conduct
import ClauseRouter.Proofs.Dispatch.Step
import ClauseRouter.Proofs.Dispatch.Vocabulary
import ClauseRouter.Proofs.Path.Consumption

/-!
# Contracts of handler code

What is true of everything that handler code can do is true of every handler.  A `Contract` says from
which frames code may begin and what it may come to, and `Contract.Lawful` lists what has to be shown
of a contract: one law for each thing that code of a `Conduct` does to its frame, and for each way in
which code goes on.

The induction over programs and conditions is done here once, for all lawful contracts.

* `Contract.Keeps` — code keeps a contract, in every host.
* `Frame.tryClause_keeps` — a clause keeps what its matchers and its body keep.
* `Program.perform_keeps` — every program that obeys a conduct keeps the contracts that are lawful for
  it.

**Named conditions** are conditions again, so `Application.environment_keeps` covers them by induction
on how deep they nest.
-/

namespace ClauseRouter

/-- What code may rely on, and what it has to come to. -/
structure Contract where
  /-- The frames from which code may begin. -/
  pre : Frame → Prop
  /-- How code that began at a frame may end, and the frame that it leaves. -/
  post : Frame → Ending → Frame → Prop
  /-- The frames that a clause begun at a frame may have reached when it tries a matcher or enters
  its body. -/
  chosen : Frame → Frame → Prop

namespace Contract

/-- **The laws of a contract,** for code of a given conduct. -/
structure Lawful (contract : Contract) (conduct : Conduct) : Prop where
  stay {f : Frame} {ending : Ending} (begun : contract.pre f)
    (goesOn : ∀ response, ending ≠ .halted response) : contract.post f ending f
  observe {f g : Frame} {ending : Ending} (h : contract.post f ending g) :
    contract.post f ending (g.note .observed)
  view {f : Frame} (begun : contract.pre f) (settings : Settings) (host : Host) :
    conduct.sees (f.view settings host)
  respond {f g : Frame} {ending : Ending} (h : contract.post f ending g)
    (change : Response → Response) : contract.post f ending (g.respond change)
  amend {f g : Frame} {ending : Ending} (h : contract.post f ending g)
    {change : Request → Request} (allowed : conduct.amends change) :
    contract.post f ending (g.amend change)
  move {f g : Frame} {ending : Ending} (h : contract.post f ending g) {cursor : Cursor}
    (along : cursor.path = g.request.cursor.path) : contract.post f ending (g.moveTo cursor)
  capture {f g : Frame} {ending : Ending} (h : contract.post f ending g) (found : Captures) :
    contract.post f ending (g.capture found)
  delegate {f : Frame} (begun : contract.pre f) :
    contract.post f (.returned true) (f.note .delegated)
  commit {f : Frame} (begun : contract.pre f) (response : Response) :
    contract.post f (f.commit response).1 (f.commit response).2
  /-- Where code ends other code may begin, -/
  next {f g : Frame} {ending : Ending} (h : contract.post f ending g)
    (goesOn : ∀ response, ending = .halted response → conduct.swallows) : contract.pre g
  /-- and what that comes to, both come to. -/
  trans {f g g' : Frame} {first second : Ending} (h : contract.post f first g)
    (h' : contract.post g second g') : contract.post f second g'
  openClause {f : Frame} (begun : contract.pre f) (running : f.commitment = none) :
    contract.chosen f.openClause f.openClause
  /-- To try a matcher and to enter the body are the ways out of the choice. -/
  select {f g : Frame} (h : contract.chosen f g) {event : Event}
    (selects : event = .tried ∨ event = .entered g.captures) :
    contract.pre (g.note event) ∧ ∀ {ending : Ending} {g' : Frame},
      contract.post (g.note event) ending g' → contract.post f ending g'
  pass {f g : Frame} (h : contract.post f (.returned true) g) :
    contract.chosen f (g.note .passed)
  restore {f g : Frame} {ending : Ending} (begun : contract.pre f) (running : f.commitment = none)
    (h : contract.post f.openClause ending g) :
    contract.post f ending (g.restore f.request.cursor)

/-- Code keeps a contract, from every frame and in every host. -/
def Keeps (contract : Contract) (code : Frame → Hosted (Ending × Frame)) : Prop :=
  ∀ (frame : Frame) (host : Host), contract.pre frame →
    contract.post frame (code frame host).value.1 (code frame host).value.2

end Contract

/-- The code of a matcher, if it has any, keeps a contract. -/
def Matcher.Keeps (contract : Contract) (matcher : Matcher) : Prop :=
  ∀ code, matcher.test = .code code → contract.Keeps code

/-- What an environment makes of a name keeps a contract. -/
def Environment.Keeps (contract : Contract) (env : Environment) : Prop :=
  ∀ ⦃name argument : Bytes⦄ ⦃request : Request⦄ ⦃matcher : Matcher⦄,
    env.named name argument request = .ok matcher → matcher.Keeps contract

variable {contract : Contract} {conduct : Conduct}

namespace Contract.Lawful

lemma returned (laws : contract.Lawful conduct) {frame : Frame} (begun : contract.pre frame)
    (verdict : Bool) : contract.post frame (.returned verdict) frame :=
  laws.stay begun fun _ h => by cases h

lemma faulted (laws : contract.Lawful conduct) {frame : Frame} (begun : contract.pre frame)
    (fault : Fault) : contract.post frame (.faulted fault) frame :=
  laws.stay begun fun _ h => by cases h

end Contract.Lawful

/-! ## Matchers -/

namespace Matcher

/-- A matcher without code keeps any contract. -/
lemma keeps_of_path {kind : MatcherKind} {pattern : Bytes} {test : PathTest} :
    Keeps contract ⟨kind, pattern, .path test⟩ :=
  fun _ h => by cases h

lemma known_keeps (verdict : Bool) : (known verdict).Keeps contract := fun _ h => by cases h

lemma predicate_keeps {code : Frame → Hosted (Ending × Frame)} (h : contract.Keeps code) :
    (predicate code).Keeps contract :=
  fun _ e => by cases e; exact h

variable (laws : contract.Lawful conduct)

include laws

lemma evaluate_keeps {matcher : Matcher} (keeps : matcher.Keeps contract) {frame : Frame}
    (begun : contract.pre frame) (host : Host) :
    contract.post frame (matcher.evaluate frame host).value.1.ending
      (matcher.evaluate frame host).value.2 := by
  cases made : matcher.test with
  | path test =>
      cases outcome : test.run frame.request.cursor with
      | rejected => simpa [evaluate, made, outcome] using laws.returned begun false
      | taken found after =>
          have moved := laws.move (laws.returned begun true) (PathTest.path_of_taken outcome)
          simpa [evaluate, made, outcome] using moved
      | overrun found claimed remaining =>
          simpa [evaluate, made, outcome] using laws.faulted begun _
  | known verdict => simpa [evaluate, made] using laws.returned begun verdict
  | code code => simpa [evaluate, made] using keeps code made frame host begun

/-- **The matchers of a clause** end the clause, or else choose it if all of them pass. -/
lemma evaluateAll_keeps : ∀ {matchers : List Matcher}, (∀ m ∈ matchers, m.Keeps contract) →
    ∀ {begin frame : Frame}, contract.chosen begin frame → ∀ host : Host,
      ((evaluateAll matchers frame host).value.1 = .returned true ∧
        contract.chosen begin (evaluateAll matchers frame host).value.2) ∨
      ((evaluateAll matchers frame host).value.1 ≠ .returned true ∧
        contract.post begin (evaluateAll matchers frame host).value.1
          (evaluateAll matchers frame host).value.2)
  | [], _, begin, frame, chosen, host => .inl ⟨rfl, chosen⟩
  | matcher :: rest, keeps, begin, frame, chosen, host => by
      obtain ⟨begun, since⟩ := laws.select chosen (.inl rfl)
      have tried := evaluate_keeps laws (keeps matcher List.mem_cons_self) begun host
      simp only [evaluateAll, Hosted.value_bind]
      generalize matcher.evaluate (frame.note .tried) host = outcome at tried ⊢
      obtain ⟨⟨⟨ending, found⟩, after⟩, host', _⟩ := outcome
      have captured := laws.capture (since tried) found
      cases ending with
      | returned verdict =>
          cases verdict with
          | true =>
              exact evaluateAll_keeps (fun m h => keeps m (List.mem_cons_of_mem _ h))
                (laws.pass captured) host'
          | false => exact .inr ⟨by simp, captured⟩
      | halted response => exact .inr ⟨by simp, captured⟩
      | faulted fault => exact .inr ⟨by simp, captured⟩

/-! ### The built-in matchers -/

lemma asking_keeps (question : Request → Bool) : (asking question).Keeps contract :=
  predicate_keeps fun _ _ begun => laws.returned begun _

lemma parameter_keeps (key : Bytes) : (parameter key).Keeps contract := by
  refine predicate_keeps fun frame host begun => ?_
  simp only [Hosted.value_pure]
  split
  · exact laws.returned begun true
  · exact laws.capture (laws.returned begun true) _

lemma accept_keeps (mediaType : Bytes) : (accept mediaType).Keeps contract := by
  refine predicate_keeps fun frame host begun => ?_
  split
  · have responded := laws.respond (laws.returned begun true) fun r =>
      { r with headers := r.headers.set Response.contentType mediaType }
    exact responded
  · exact laws.returned begun false

lemma extension?_keeps {source : Bytes} {matcher : Matcher} (h : extension? source = .ok matcher) :
    matcher.Keeps contract := by
  obtain ⟨test, _, h⟩ := Except.bind_eq_ok.mp h
  cases h
  refine predicate_keeps fun frame host begun => ?_
  cases outcome : test.run frame.request.cursor with
  | rejected => exact laws.returned begun false
  | taken found after =>
      have moved := laws.move (laws.returned begun true) (PathTest.path_of_taken outcome)
      exact laws.capture moved found
  | overrun found claimed remaining => exact laws.capture (laws.faulted begun _) found

/-- A matcher without code keeps every lawful contract. -/
lemma Builtin.keeps {matcher : Matcher} {type : Option Bytes} (builtin : matcher.Builtin type) :
    matcher.Keeps contract := by
  cases builtin with
  | path kind pattern test => exact keeps_of_path
  | known verdict => exact known_keeps verdict
  | asking question => exact asking_keeps laws question
  | parameter key => exact parameter_keeps laws key
  | extension made => exact extension?_keeps laws made
  | accept mediaType => exact accept_keeps laws mediaType

end Matcher

/-! ## Clauses and programs -/

namespace Frame

variable (laws : contract.Lawful conduct)

include laws

lemma delegate_keeps (endpoint : Endpoint) : contract.Keeps fun frame => frame.delegate endpoint := by
  intro frame host begun
  have called := laws.delegate begun
  have goesOn : contract.pre (frame.note .delegated) := laws.next called (by simp)
  simp only [delegate, Hosted.value_bind]
  generalize endpoint (frame.note .delegated).request host = outcome
  obtain ⟨reply, host', _⟩ := outcome
  cases reply with
  | ok response => exact laws.trans called (laws.commit goesOn response)
  | error fault => exact laws.trans called (laws.faulted goesOn fault)

variable {matchers : List Matcher} (keeps : ∀ m ∈ matchers, m.Keeps contract)
  {body : Captures → Frame → Hosted (Ending × Frame)} (bodies : ∀ found, contract.Keeps (body found))

include keeps bodies

/-- What comes of a clause before its cursor is put back. -/
lemma attemptClause_keeps {frame : Frame} (begun : contract.pre frame)
    (running : frame.commitment = none) (host : Host) :
    contract.post frame.openClause
      (tryClause.attemptClause matchers body frame.openClause host).value.1
      (tryClause.attemptClause matchers body frame.openClause host).value.2 := by
  have choice := Matcher.evaluateAll_keeps laws keeps (laws.openClause begun running) host
  simp only [tryClause.attemptClause, Hosted.value_bind]
  generalize Matcher.evaluateAll matchers frame.openClause host = outcome at choice ⊢
  obtain ⟨⟨ending, after⟩, host', _⟩ := outcome
  rcases choice with ⟨rfl, chosen⟩ | ⟨ne, stopped⟩
  · obtain ⟨entered, since⟩ := laws.select chosen (.inr rfl)
    have ran := since (bodies after.captures _ host' entered)
    simp only [Hosted.value_bind]
    generalize body after.captures (after.note (.entered after.captures)) host' = outcome at ran ⊢
    obtain ⟨⟨ending, ended⟩, host'', _⟩ := outcome
    cases ending with
    | returned verdict => exact laws.trans ran (laws.commit (laws.next ran (by simp)) _)
    | halted response => exact ran
    | faulted fault => exact ran
  · cases ending with
    | returned verdict =>
        cases verdict with
        | true => exact absurd rfl ne
        | false => exact stopped
    | halted response => exact stopped
    | faulted fault => exact stopped

/-- **A clause keeps what its matchers and its body keep.** -/
lemma tryClause_keeps : contract.Keeps fun frame => frame.tryClause matchers body := by
  intro frame host begun
  cases running : frame.commitment with
  | some outcome =>
      have again := laws.commit begun {}
      simp only [Frame.commit, running] at again
      simp only [tryClause, running, Hosted.value_pure]
      exact again
  | none =>
      have attempt := attemptClause_keeps laws keeps bodies begun running host
      simp only [tryClause, running, Hosted.value_bind, Hosted.value_pure]
      exact laws.restore begun running attempt

end Frame

section

variable {env : Environment}

mutual

/-- **Every program of a conduct** keeps the contracts that are lawful for it. -/
lemma Program.perform_keeps (laws : contract.Lawful conduct) (known : env.Keeps contract) :
    ∀ program : Program, program.Obeys conduct → contract.Keeps (program.perform env)
  | .answer verdict, _, frame, host, begun => laws.returned begun verdict
  | .seq first second, obeys, frame, host, begun => by
      have ran := first.perform_keeps laws known obeys.1 frame host begun
      simp only [Program.perform, Hosted.value_bind]
      generalize first.perform env frame host = outcome at ran ⊢
      obtain ⟨⟨ending, after⟩, host', _⟩ := outcome
      cases ending with
      | returned verdict =>
          have goesOn := laws.next ran (by simp)
          exact laws.trans ran
            (second.perform_keeps laws known obeys.2 after host' goesOn)
      | halted response => exact ran
      | faulted fault => exact ran
  | .observe next, obeys, frame, host, begun => by
      have looked := laws.observe (laws.returned begun true)
      have goesOn := laws.next looked (by simp)
      exact laws.trans looked
        ((next _).perform_keeps laws known (obeys _ (laws.view begun _ _)) _ host goesOn)
  | .respond change, _, frame, host, begun => laws.respond (laws.returned begun true) change
  | .amend change, obeys, frame, host, begun => laws.amend (laws.returned begun true) obeys
  | .remember change, _, frame, host, begun => by
      simp only [Program.perform, Frame.remember, Hosted.value_bind]
      cases frame.request.session with
      | none => exact laws.faulted begun _
      | some key => exact laws.returned begun true
  | .trace text, _, frame, host, begun => laws.returned begun true
  | .raise fault, _, frame, host, begun => laws.faulted begun fault
  | .on clause body, obeys, frame, host, begun => by
      simp only [Program.perform]
      cases made : prepareAll env frame.request clause with
      | error fault => exact laws.faulted begun fault
      | ok matchers =>
          have keeps := prepareAll_keeps laws known clause obeys.1 made
          exact Frame.tryClause_keeps laws keeps
            (fun found => (body found).perform_keeps laws known (obeys.2 found))
            frame host begun
  | .probe condition next, obeys, frame, host, begun => by
      simp only [Program.perform]
      cases made : condition.prepare env frame.request with
      | error fault => exact laws.faulted begun fault
      | ok matcher =>
          have keeps := condition.prepare_keeps laws known obeys.1 made
          have ran := Matcher.evaluate_keeps laws keeps begun host
          simp only [Hosted.value_bind]
          generalize matcher.evaluate frame host = outcome at ran ⊢
          obtain ⟨⟨⟨ending, found⟩, after⟩, host', _⟩ := outcome
          cases ending with
          | returned passed =>
              have goesOn := laws.next ran (by simp)
              exact laws.trans ran
                ((next _).perform_keeps laws known (obeys.2 _) after host' goesOn)
          | halted response => exact ran
          | faulted fault => exact ran
  | .attempt body scope recover, obeys, frame, host, begun => by
      have ran := body.perform_keeps laws known obeys.1 frame host begun
      simp only [Program.perform, Hosted.value_bind]
      generalize body.perform env frame host = outcome at ran ⊢
      obtain ⟨⟨ending, after⟩, host', _⟩ := outcome
      cases caught : ending.caught? scope with
      | none => simpa [caught] using ran
      | some signal =>
          -- what was caught is a halt only where the attempt swallows it
          have goesOn : contract.pre after := by
            refine laws.next ran fun response halted => ?_
            subst halted
            cases scope with
            | everything => exact obeys.2.1 rfl
            | faults => cases caught
          have recovered := (recover signal).perform_keeps laws known
            (obeys.2.2 signal) after host' goesOn
          simpa [caught] using laws.trans ran recovered
  | .halt response, _, frame, host, begun => laws.commit begun response
  | .delegate endpoint, _, frame, host, begun => Frame.delegate_keeps laws endpoint frame host begun

/-- So does the matcher to which a condition is prepared. -/
lemma Condition.prepare_keeps (laws : contract.Lawful conduct) (known : env.Keeps contract)
    {request : Request} : ∀ (condition : Condition) {matcher : Matcher},
      condition.Obeys conduct → condition.prepare env request = .ok matcher →
        matcher.Keeps contract
  | .named name argument, matcher, _, h => known h
  | .check code, matcher, obeys, h => by
      cases h
      exact Matcher.predicate_keeps (code.perform_keeps laws known obeys)
  | .template _, _, _, h | .regex _, _, _, h | .anySegment, _, _, h | .truth _, _, _, h
  | .verb _, _, _, h | .host _, _, _, h | .hostPattern _, _, _, h | .extension _, _, _, h
  | .parameter _, _, _, h | .header _, _, _, h | .accept _, _, _, h | .unset, _, _, h =>
      Matcher.Builtin.keeps laws (Condition.builtin h trivial)

/-- So do those of a clause. -/
lemma prepareAll_keeps (laws : contract.Lawful conduct) (known : env.Keeps contract)
    {request : Request} : ∀ (clause : List Condition) {matchers : List Matcher},
      allObey conduct clause → prepareAll env request clause = .ok matchers →
        ∀ m ∈ matchers, m.Keeps contract
  | [], matchers, _, h => by cases h; simp
  | condition :: rest, matchers, obeys, h => by
      obtain ⟨first, made, h⟩ := Except.bind_eq_ok.mp h
      obtain ⟨others, madeRest, h⟩ := Except.bind_eq_ok.mp h
      cases h
      intro m mem
      rcases List.mem_cons.mp mem with rfl | mem
      · exact condition.prepare_keeps laws known obeys.1 made
      · exact prepareAll_keeps laws known rest obeys.2 madeRest m mem

end

end

/-! ## Applications -/

namespace Application

variable (laws : contract.Lawful conduct) {app : Application}

include laws

/-- What a name stands for keeps a contract, however deep names use each other. -/
lemma resolve_keeps (obeys : app.Obeys conduct) :
    ∀ depth : Nat, Environment.Keeps contract ⟨app.settings, resolve app.settings app.names depth⟩
  | 0, _, _, _, _, h => by cases h
  | depth + 1, name, argument, request, matcher, h => by
      simp only [resolve] at h
      cases known : app.names.get? name with
      | none => simp [known] at h
      | some condition =>
          rw [known] at h
          exact (condition argument).prepare_keeps laws (resolve_keeps obeys depth)
            (obeys name condition known argument) h

lemma environment_keeps (obeys : app.Obeys conduct) : app.environment.Keeps contract :=
  resolve_keeps laws obeys depthLimit

end Application

end ClauseRouter
