import ClauseRouter.Proofs.Dispatch.Delegation
import ClauseRouter.Proofs.Dispatch.Failure
import ClauseRouter.Proofs.Path.Templates

/-!
# Plain templates one after the other

A clause that asks for `s/t` may as well ask for `s` and then for `t`, if both are plain templates.  The
parts of `s/t` are those of `s` and those of `t`, and to take some parts after the others is to take all
of them.

**Where the second one fails,** the first has moved the cursor and has captured.  A clause puts the
cursor back, but what was captured stays in the live captures.  So the tries of the two clauses are
`Frame.Interchangeable`: where the cursor is put back they leave the same, but for the live captures.

* `Matcher.evaluateAll_join` — the tries are interchangeable.
* `Application.templates_compose` — the rule for clauses, whatever stands before and behind.
-/

namespace ClauseRouter

open ClauseRouter.Frame (Alike Likewise Interchangeable)

/-! ## Matchers -/

/-- Parts fit a path or they do not. -/
lemma Cursor.consumeParts_cases (parts : List Part) (c : Cursor) :
    c.consumeParts parts = .rejected ∨ ∃ found after, c.consumeParts parts = .taken found after :=
  (PathTest.keepsSegments_parts parts c).imp_right fun ⟨found, after, taken, _⟩ => ⟨found, after, taken⟩

namespace Matcher

/-- The matcher of a plain template. -/
def plain (template : Bytes) : Matcher :=
  ⟨.template, Template.expand template, .path (.parts (Template.parts template))⟩

variable {template : Bytes} {matchers : List Matcher} {frame : Frame}

/-- A template that fits moves the cursor and captures, and the others are tried behind it. -/
lemma evaluateAll_plain_of_taken {found : Captures} {after : Cursor}
    (taken : frame.request.cursor.consumeParts (Template.parts template) = .taken found after)
    (host : Host) :
    evaluateAll (plain template :: matchers) frame host
      = evaluateAll matchers ((((frame.note .tried).moveTo after).capture found).note .passed) host := by
  have tried : (plain template).evaluate (frame.note .tried) host
      = ⟨(⟨.returned true, found⟩, (frame.note .tried).moveTo after), host, []⟩ := by
    have run : (frame.note .tried).request.cursor.consumeParts (Template.parts template) = _ := taken
    simp only [evaluate, plain, PathTest.run, run]
    rfl
  exact evaluateAll_of_passed tried rfl matchers

/-- One that does not fit is the last that is tried. -/
lemma evaluateAll_plain_of_rejected
    (rejected : frame.request.cursor.consumeParts (Template.parts template) = .rejected) (host : Host) :
    evaluateAll (plain template :: matchers) frame host
      = ⟨(.returned false, (frame.note .tried).capture []), host, []⟩ := by
  have tried : (plain template).evaluate (frame.note .tried) host
      = ⟨(⟨.returned false, []⟩, frame.note .tried), host, []⟩ := by
    have run : (frame.note .tried).request.cursor.consumeParts (Template.parts template) = _ := rejected
    simp only [evaluate, plain, PathTest.run, run]
    rfl
  exact evaluateAll_of_not_passed tried (fun passed => by cases passed) matchers

/-- **A template and its two halves are interchangeable** in front of any matchers. -/
lemma evaluateAll_join (s t : Bytes) (blind : ∀ m ∈ matchers, m.Blind True) (frame : Frame) :
    Hosted.Agree (Interchangeable False) (evaluateAll (plain (s ++ Byte.slash :: t) :: matchers) frame)
      (evaluateAll (plain s :: plain t :: matchers) frame) := by
  intro host
  have joined := frame.request.cursor.consumeParts_append (Template.parts_ne_nil s)
    (Template.parts_ne_nil t)
  rw [← Template.parts_append_slash] at joined
  rcases frame.request.cursor.consumeParts_cases (Template.parts s) with
    missed | ⟨first, between, taken⟩
  case inl =>
    rw [missed] at joined
    rw [evaluateAll_plain_of_rejected joined, evaluateAll_plain_of_rejected missed]
    exact ⟨.refl _, rfl, rfl⟩
  case inr =>
    rw [taken] at joined
    rw [evaluateAll_plain_of_taken taken]
    rcases between.consumeParts_cases (Template.parts t) with missed | ⟨second, final, taken'⟩
    case inl =>
      simp only [missed] at joined
      rw [evaluateAll_plain_of_rejected joined, evaluateAll_plain_of_rejected missed]
      -- the first half has moved the cursor, which is put back, and captured
      exact ⟨⟨rfl, fun _ => ⟨rfl, rfl, rfl, False.elim⟩, fun passed => by cases passed⟩, rfl, rfl⟩
    case inr =>
      simp only [taken'] at joined
      rw [evaluateAll_plain_of_taken joined, evaluateAll_plain_of_taken taken']
      refine (evaluateAll_alike blind _ _ ?_).mono Likewise.interchangeable host
      exact ⟨rfl, rfl, rfl, fun _ => (List.append_assoc _ _ _).symm⟩

/-- So they are behind any matchers. -/
lemma evaluateAll_behind {captures : Prop} {others : List Matcher}
    (interchange : ∀ frame, Hosted.Agree (Interchangeable captures) (evaluateAll matchers frame)
      (evaluateAll others frame)) :
    ∀ (front : List Matcher) (frame : Frame), Hosted.Agree (Interchangeable captures)
      (evaluateAll (front ++ matchers) frame) (evaluateAll (front ++ others) frame)
  | [], frame => interchange frame
  | matcher :: front, frame => by
      refine .behind (matcher.evaluate (frame.note .tried)) fun (verdict, after) => ?_
      dsimp only
      split
      · exact evaluateAll_behind interchange front _
      · exact .pure (.refl _)

end Matcher

/-- A body is entered at the same stage in tries that are interchangeable. -/
lemma Frame.chosen?_interchange {captures : Prop} {frame : Frame} {host : Host}
    {matchers others : List Matcher}
    (interchange : Interchangeable captures (Matcher.evaluateAll matchers frame.openClause host).value
      (Matcher.evaluateAll others frame.openClause host).value) :
    (frame.chosen? matchers host).map (·.toStage) = (frame.chosen? others host).map (·.toStage) := by
  unfold chosen?
  generalize (Matcher.evaluateAll matchers frame.openClause host).value = tried at interchange ⊢
  generalize (Matcher.evaluateAll others frame.openClause host).value = tried' at interchange ⊢
  obtain ⟨ending, after⟩ := tried
  obtain ⟨ending', after'⟩ := tried'
  obtain ⟨rfl, _, entered⟩ := interchange
  cases ending with
  | returned verdict =>
      cases verdict with
      | true => exact congrArg some (entered rfl).toStage_eq
      | false => rfl
  | halted response => rfl
  | faulted fault => rfl

/-! ## Clauses -/

section

variable {env : Environment} {request : Request} {template : Bytes}

lemma prepareAll_append (first second : List Condition) :
    prepareAll env request (first ++ second) = do
      let matchers ← prepareAll env request first
      let others ← prepareAll env request second
      return matchers ++ others := by
  induction first with
  | nil =>
      rw [List.nil_append]
      cases prepareAll env request second <;> rfl
  | cons condition first ih => simp [prepareAll, ih]

lemma prepareAll_plain (plain : Template.isPlain template) (clause : List Condition) :
    prepareAll env request (.template template :: clause) = do
      let matchers ← prepareAll env request clause
      return Matcher.plain template :: matchers := by
  have made : PathTest.ofTemplate? template = some (.parts (Template.parts template)) := if_pos plain
  simp only [prepareAll, Condition.prepare, Matcher.template?_eq_ok made]
  rfl

end

namespace Application

/-- Where the live captures are the same, all named matchers do the same. -/
lemma environment_blind (app : Application) : app.environment.Blind fun _ => False :=
  resolve_blind (fun _ _ _ tried => tried.elim) depthLimit

/-- Two clauses of which one has a template and the other its halves are prepared alike: both fault, or
they have the same matchers before and behind. -/
lemma prepareAll_compose {s t : Bytes} (plain : Template.isPlain s) (plain' : Template.isPlain t)
    (app : Application) (before after : List Condition) (request : Request) :
    let whole := prepareAll app.environment request (before ++ .template (s ++ Byte.slash :: t) :: after)
    let apart := prepareAll app.environment request (before ++ .template s :: .template t :: after)
    (∃ fault, whole = .error fault ∧ apart = .error fault) ∨
    ∃ front behind, whole = .ok (front ++ Matcher.plain (s ++ Byte.slash :: t) :: behind) ∧
      apart = .ok (front ++ Matcher.plain s :: Matcher.plain t :: behind) ∧
      ∀ frame, Hosted.Agree (Interchangeable False)
        (Matcher.evaluateAll (front ++ Matcher.plain (s ++ Byte.slash :: t) :: behind) frame)
        (Matcher.evaluateAll (front ++ Matcher.plain s :: Matcher.plain t :: behind) frame) := by
  intro whole apart
  simp only [whole, apart, prepareAll_append, prepareAll_plain plain, prepareAll_plain plain',
    prepareAll_plain (Template.isPlain_join plain plain')]
  cases prepareAll app.environment request before with
  | error fault => exact .inl ⟨fault, rfl, rfl⟩
  | ok front =>
      cases made : prepareAll app.environment request after with
      | error fault => exact .inl ⟨fault, rfl, rfl⟩
      | ok behind =>
          have blind := prepareAll_blind app.environment_blind after made
          exact .inr ⟨front, behind, rfl, rfl,
            Matcher.evaluateAll_behind (Matcher.evaluateAll_join s t blind) front⟩

section

variable {s t : Bytes} (plain : Template.isPlain s) (plain' : Template.isPlain t) (app : Application)
  (before after : List Condition) (frame : Frame) (host : Host)

include plain plain'

/-- The two clauses enter their bodies at the same stage, or neither does. -/
lemma entered?_compose :
    (app.entered? (before ++ .template (s ++ Byte.slash :: t) :: after) frame host).map (·.2.toStage)
      = (app.entered? (before ++ .template s :: .template t :: after) frame host).map (·.2.toStage) := by
  rcases prepareAll_compose plain plain' app before after frame.request with
    ⟨fault, whole, apart⟩ | ⟨front, behind, whole, apart, interchange⟩
  · simp only [entered?, whole, apart]
  · simp only [entered?, whole, apart, Option.map_map]
    exact Frame.chosen?_interchange (interchange frame.openClause host).1

/-- However they end, they leave the same but for the live captures. -/
lemma perform_compose (body : Captures → Program) :
    Hosted.Agree (Likewise False)
      ((Program.on (before ++ .template (s ++ Byte.slash :: t) :: after) body).perform
        app.environment frame)
      ((Program.on (before ++ .template s :: .template t :: after) body).perform
        app.environment frame) := by
  rcases prepareAll_compose plain plain' app before after frame.request with
    ⟨fault, whole, apart⟩ | ⟨front, behind, whole, apart, interchange⟩
  · simp only [Program.perform, whole, apart]
    exact .pure ⟨rfl, .refl frame⟩
  · simp only [Program.perform, whole, apart]
    have bodies (found : Captures) : Frame.Blind True ((body found).perform app.environment) :=
      (body found).perform_blind app.environment_blind (.inl trivial)
    exact Frame.tryClause_interchange bodies (.refl frame) (interchange frame.openClause)

end

/-- **Plain templates compose.**  A template that is made of two with a slash between them consumes what the
two consume one after the other, and captures what they capture.

So in a clause the one can stand for the two, and the two for the one: the body is entered or not, with the
same captures and the same cursor, and however the clause ends, it leaves the same but for the live
captures. -/
theorem templates_compose {s t : Bytes} (plain : Template.isPlain s) (plain' : Template.isPlain t) :
    let joined := s ++ Byte.slash :: t
    Template.isPlain joined ∧
    (∀ (c final : Cursor) (found : Captures),
      c.consumeParts (Template.parts joined) = .taken found final ↔
        ∃ first between second, c.consumeParts (Template.parts s) = .taken first between ∧
          between.consumeParts (Template.parts t) = .taken second final ∧ found = first ++ second) ∧
    ∀ (app : Application) (before after : List Condition) (frame : Frame) (host : Host),
      let whole := before ++ .template joined :: after
      let apart := before ++ .template s :: .template t :: after
      (app.entered? whole frame host).map (·.2.toStage)
        = (app.entered? apart frame host).map (·.2.toStage) ∧
      ∀ body : Captures → Program,
        let outcome := (Program.on whole body).perform app.environment frame host
        let outcome' := (Program.on apart body).perform app.environment frame host
        outcome.value.1 = outcome'.value.1 ∧ outcome.host = outcome'.host ∧
        outcome.lines = outcome'.lines ∧
        { outcome.value.2.toStage with captures := [] }
          = { outcome'.value.2.toStage with captures := [] } := by
  intro joined
  refine ⟨Template.isPlain_join plain plain', fun c final found => ?consumes,
    fun app before after frame host => ⟨?entered, fun body => ?leaves⟩⟩
  case consumes =>
    rw [Template.parts_append_slash]
    exact Cursor.consumeParts_append_eq_taken (Template.parts_ne_nil s) (Template.parts_ne_nil t)
  case entered => exact entered?_compose plain plain' app before after frame host
  case leaves =>
    obtain ⟨⟨endings, alike⟩, hosts, lines⟩ :=
      perform_compose plain plain' app before after frame body host
    exact ⟨endings, hosts, lines, alike.stage_eq []⟩

/-- A text and a placeholder, in front of a predicate. -/
theorem templates_compose_of_placeholder :
    let request : Request := { cursor := .atStart (ascii "/users/7/edit") }
    let behind : List Condition := [.check .skip]
    Template.isPlain (ascii "users") ∧ Template.isPlain (ascii ":id") ∧
      (entered? {} (.template (ascii "users") :: .template (ascii ":id") :: behind) (.initial request)
        ⟨0, [], []⟩).map (fun entered => (entered.2.captures, entered.2.request.cursor))
        = some ([ascii "7"], ⟨ascii "/users/7", ascii "/edit"⟩) := by
  intro request behind
  have text : Template.isPlain (ascii "users") := by decide
  have placeholder : Template.isPlain (ascii ":id") := by decide
  obtain ⟨_, _, clause⟩ := templates_compose text placeholder
  obtain ⟨same, _⟩ := clause {} [] behind (.initial request) ⟨0, [], []⟩
  have whole : (entered? {} (.template (ascii "users/:id") :: behind) (.initial request)
      ⟨0, [], []⟩).map (fun entered => (entered.2.captures, entered.2.request.cursor))
        = some ([ascii "7"], ⟨ascii "/users/7", ascii "/edit"⟩) := by
    decide +kernel
  have apart := congrArg (Option.map fun stage : Stage => (stage.captures, stage.request.cursor)) same
  rw [Option.map_map, Option.map_map] at apart
  exact ⟨text, placeholder, apart.symm.trans whole⟩

end Application

end ClauseRouter
