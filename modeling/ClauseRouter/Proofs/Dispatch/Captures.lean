import Mathlib.Data.List.Forall2
import ClauseRouter.Proofs.Dispatch.Run
import ClauseRouter.Proofs.Dispatch.Vocabulary

/-!
# Whose captures a body gets

All clauses of a dispatch share one list of live captures.  It is cleared where a clause begins, and
nowhere else, so a clause that is tried by a predicate of another one clears what that one has captured
so far, and leaves its own captures behind.

**The books.**  A `Ledger` goes through the history of a stretch of a dispatch and says of every capture
whether it belongs to the clause that is open throughout or to a clause inside, and which of them are
live.  A `Stretch` is a piece of the history whose entries agree with what is live at its two ends;
all handler code makes stretches (`Stretch.lawful`).

**Matchers.**  `Matcher.captured` is what a matcher captures when it is tried: the groups of a pattern,
the stem of an extension, the value of a parameter (`Condition.captured_prepare`), nothing at all if it is
a clause (`Application.captured_clause`).

**Clauses.**  `Application.captures_handed` tells the captures that a body gets from what the matchers
captured.  They are the same exactly if what clauses inside have cleared is what they have left behind,
as it is when there are none.
-/

namespace ClauseRouter

/-! ## The books -/

/-- The captures of a stretch of a dispatch, as they are booked by a clause that is open throughout. -/
structure Ledger where
  /-- The number of clauses that were begun inside and are not over. -/
  depth : Nat := 0
  /-- What the clause captured itself and lost where a clause inside began. -/
  lost : Captures := []
  /-- What the clause captured itself since. -/
  kept : Captures := []
  /-- What is live and was not captured by the clause itself. -/
  stray : Captures := []
  deriving DecidableEq, Repr

namespace Ledger

/-- What the clause captured itself. -/
def own (ledger : Ledger) : Captures := ledger.lost ++ ledger.kept

/-- What is live. -/
def live (ledger : Ledger) : Captures := ledger.stray ++ ledger.kept

/-- Books a moment. -/
def book (ledger : Ledger) (moment : Moment) : Ledger :=
  match moment.event with
  | .opened => { depth := ledger.depth + 1, lost := ledger.own }
  | .restored => { ledger with depth := ledger.depth - 1 }
  | .captured =>
    let found := moment.stage.captures.drop ledger.live.length
    if ledger.depth = 0 then { ledger with kept := ledger.kept ++ found }
    else { ledger with stray := ledger.stray ++ found }
  | _ => ledger

/-- Books one moment after the other. -/
def through (ledger : Ledger) (moments : List Moment) : Ledger := moments.foldl book ledger

/-- The books of what happened between two frames; what was live before is not the clause's own. -/
def between (before after : Frame) : Ledger :=
  ({ stray := before.captures } : Ledger).through (after.history.drop before.history.length)

/-- The books agree with what is live in a frame, and clauses inside have cleared all else. -/
structure Fits (ledger : Ledger) (frame : Frame) : Prop where
  live : ledger.live = frame.captures
  cleared : ledger.depth ≠ 0 → ledger.kept = []

lemma fits_fresh (frame : Frame) : ({ stray := frame.captures } : Ledger).Fits frame :=
  ⟨List.append_nil _, fun inside => absurd rfl inside⟩

/-- As long as no clause begins inside, nothing is lost and nothing is left behind. -/
lemma through_of_no_clause {moments : List Moment} (none : ∀ moment ∈ moments, moment.event ≠ .opened) :
    ∀ ledger : Ledger, ledger.depth = 0 →
      (ledger.through moments).lost = ledger.lost ∧ (ledger.through moments).stray = ledger.stray := by
  induction moments with
  | nil => exact fun _ _ => ⟨rfl, rfl⟩
  | cons moment moments ih =>
      intro ledger outside
      obtain ⟨first, others⟩ := List.forall_mem_cons.mp none
      have step : (ledger.book moment).depth = 0 ∧ (ledger.book moment).lost = ledger.lost ∧
          (ledger.book moment).stray = ledger.stray := by
        unfold book
        split
        · exact absurd ‹_› first
        · simp [outside]
        · simp [outside]
        · exact ⟨outside, rfl, rfl⟩
      obtain ⟨depth, lost, stray⟩ := step
      obtain ⟨lost', stray'⟩ := ih others _ depth
      exact ⟨lost'.trans lost, stray'.trans stray⟩

end Ledger

/-- **A piece of the history** between two frames.  Whatever the books were before, they agree with the
second frame if they agreed with the first, and what the clause that is open throughout captures is
`grown`. -/
structure Stretch (before after : Frame) (moments : List Moment) (grown : Captures) : Prop where
  history : after.history = before.history ++ moments
  books : ∀ ledger : Ledger, ledger.Fits before →
    (ledger.through moments).Fits after ∧ (ledger.through moments).depth = ledger.depth ∧
      (ledger.through moments).own = ledger.own ++ if ledger.depth = 0 then grown else []

namespace Stretch

variable {before between after : Frame} {moments : List Moment} {grown : Captures}

lemma refl (frame : Frame) : Stretch frame frame [] [] :=
  ⟨(List.append_nil _).symm, fun ledger fits => ⟨fits, rfl, by simp [Ledger.through]⟩⟩

lemma trans {more : List Moment} {grown' : Captures} (h : Stretch before between moments grown)
    (h' : Stretch between after more grown') :
    Stretch before after (moments ++ more) (grown ++ grown') := by
  refine ⟨by rw [h'.history, h.history, List.append_assoc], fun ledger fits => ?_⟩
  obtain ⟨fits, depth, own⟩ := h.books ledger fits
  obtain ⟨fits', depth', own'⟩ := h'.books _ fits
  rw [Ledger.through, List.foldl_append]
  refine ⟨fits', depth'.trans depth, own'.trans ?_⟩
  rw [own, depth, List.append_assoc]
  split <;> simp

/-- One more moment at which the captures stay and no clause begins or ends. -/
lemma step {event : Event} {stage : Stage} (h : Stretch before after moments grown)
    (same : stage.captures = after.captures)
    (idle : ∀ ledger : Ledger, ledger.book ⟨event, stage⟩ = ledger) :
    Stretch before (after.become event stage) (moments ++ [⟨event, stage⟩]) grown := by
  have single : Stretch after (after.become event stage) [⟨event, stage⟩] [] := by
    refine ⟨rfl, fun ledger fits => ?_⟩
    have booked : ledger.through [⟨event, stage⟩] = ledger := idle ledger
    rw [booked]
    exact ⟨⟨fits.live.trans same.symm, fits.cleared⟩, rfl, by simp⟩
  simpa using h.trans single

lemma moved (frame : Frame) (cursor : Cursor) :
    Stretch frame (frame.moveTo cursor) [⟨.moved, (frame.moveTo cursor).toStage⟩] [] :=
  (refl frame).step rfl fun _ => rfl

lemma responded (frame : Frame) (change : Response → Response) :
    Stretch frame (frame.respond change) [⟨.responded, (frame.respond change).toStage⟩] [] :=
  (refl frame).step rfl fun _ => rfl

/-- What is captured where no clause inside is open is the clause's own. -/
lemma capture (h : Stretch before after moments grown) (found : Captures) :
    ∃ more, Stretch before (after.capture found) more (grown ++ found) := by
  refine ⟨_, h.trans ⟨rfl, fun ledger fits => ?_⟩⟩
  have booked : (after.captures ++ found).drop ledger.live.length = found := by
    rw [fits.live, List.drop_left]
  simp only [Ledger.through, List.foldl_cons, List.foldl_nil, Ledger.book, booked]
  -- the stretch itself is at depth zero, but the books may have come to it from inside other clauses
  split
  case isTrue outside =>
    refine ⟨⟨?_, fun inside => absurd outside inside⟩, rfl, (List.append_assoc _ _ _).symm⟩
    rw [Ledger.live, ← List.append_assoc]
    exact congrArg (· ++ found) fits.live
  case isFalse inside =>
    have cleared := fits.cleared inside
    refine ⟨⟨?_, fun _ => cleared⟩, rfl, by simp [Ledger.own]⟩
    have live := fits.live
    simp only [Ledger.live, cleared, List.append_nil] at live ⊢
    rw [live]
    rfl

/-- **A clause inside captures nothing for the clause around it.** -/
lemma clause (h : Stretch before.openClause after moments grown) (cursor : Cursor) :
    ∃ more, Stretch before (after.restore cursor) more [] := by
  let restored : Moment :=
    ⟨.restored, { after.toStage with request := { after.request with cursor } }⟩
  refine ⟨⟨.opened, before.openClause.toStage⟩ :: moments ++ [restored], ?_, fun ledger fits => ?_⟩
  · rw [Frame.restore, Frame.history_become, h.history]
    simp [Frame.openClause, restored]
  · -- the clause is booked one deeper, where nothing is kept
    let opened : Ledger := { depth := ledger.depth + 1, lost := ledger.own }
    obtain ⟨fits', depth, own⟩ := h.books opened ⟨rfl, fun _ => rfl⟩
    rw [if_neg (Nat.succ_ne_zero _), List.append_nil] at own
    have booked : ledger.through (⟨.opened, before.openClause.toStage⟩ :: moments ++ [restored])
        = { opened.through moments with depth := (opened.through moments).depth - 1 } := by
      rw [Ledger.through, List.foldl_append]
      rfl
    rw [booked]
    refine ⟨⟨fits'.live, fun _ => fits'.cleared ?_⟩, ?_, ?_⟩
    · rw [depth]
      exact Nat.succ_ne_zero _
    · dsimp only
      rw [depth]
      rfl
    · simpa [Ledger.own, opened] using own

lemma commit (h : Stretch before after moments grown) (response : Response) :
    ∃ more, Stretch before (after.commit response).2 more grown := by
  unfold Frame.commit
  split
  · exact ⟨_, h⟩
  · exact ⟨_, h.step rfl fun _ => rfl⟩

/-- Code makes stretches. -/
def contract : Contract where
  pre _ := True
  post before _ after := ∃ moments grown, Stretch before after moments grown
  chosen before after := ∃ moments grown, Stretch before after moments grown

/-- **To make a stretch is a lawful contract.** -/
lemma lawful : contract.Lawful (.unlimited True) where
  stay _ _ := ⟨_, _, refl _⟩
  observe := fun ⟨_, _, h⟩ => ⟨_, _, h.step rfl fun _ => rfl⟩
  view _ _ _ := trivial
  respond := fun ⟨_, _, h⟩ _ => ⟨_, _, h.step rfl fun _ => rfl⟩
  amend := fun ⟨_, _, h⟩ _ _ => ⟨_, _, h.step rfl fun _ => rfl⟩
  move := fun ⟨_, _, h⟩ _ _ => ⟨_, _, h.step rfl fun _ => rfl⟩
  capture := fun ⟨_, _, h⟩ found => (h.capture found).imp fun _ h => ⟨_, h⟩
  delegate _ := ⟨_, _, (refl _).step rfl fun _ => rfl⟩
  commit _ response := ((refl _).commit response).imp fun _ h => ⟨_, h⟩
  next _ _ := trivial
  trans := fun ⟨_, _, h⟩ ⟨_, _, h'⟩ => ⟨_, _, h.trans h'⟩
  openClause _ _ := ⟨_, _, refl _⟩
  select := fun ⟨_, _, h⟩ event selects => by
    refine ⟨trivial, fun ⟨_, _, h'⟩ => ⟨_, _, (h.step rfl fun _ => ?_).trans h'⟩⟩
    rcases selects with rfl | rfl <;> rfl
  pass := fun ⟨_, _, h⟩ => ⟨_, _, h.step rfl fun _ => rfl⟩
  restore := fun _ _ ⟨_, _, h⟩ => (h.clause _).imp fun _ h => ⟨_, h⟩

/-- The books of a stretch. -/
lemma between_eq (h : Stretch before after moments grown) :
    Ledger.between before after = ({ stray := before.captures } : Ledger).through moments := by
  rw [Ledger.between, h.history, List.drop_left]

lemma own_between (h : Stretch before after moments grown) :
    (Ledger.between before after).own = grown := by
  obtain ⟨_, _, own⟩ := h.books _ (Ledger.fits_fresh before)
  rw [h.between_eq, own]
  rfl

end Stretch

/-! ## Matchers -/

/-- What a matcher of paths captures. -/
def Consumption.found : Consumption → Captures
  | rejected => []
  | taken found _ | overrun found _ _ => found

namespace Matcher

/-- The frame after a matcher of a clause has been tried. -/
def attempted (matcher : Matcher) (frame : Frame) (host : Host) : Frame :=
  let tried := (matcher.evaluate (frame.note .tried) host).value
  tried.2.capture tried.1.found

/-- What a matcher of a clause captures when it is tried. -/
def captured (matcher : Matcher) (frame : Frame) (host : Host) : Captures :=
  (Ledger.between frame (matcher.attempted frame host)).own

/-- What each of the matchers of a clause captures, as long as they pass. -/
def capturedEach : List Matcher → Frame → Host → List Captures
  | [], _, _ => []
  | matcher :: rest, frame, host =>
    matcher.captured frame host ::
      capturedEach rest ((matcher.attempted frame host).note .passed)
        (matcher.evaluate (frame.note .tried) host).host

section

variable {matcher : Matcher} {frame : Frame} {host : Host} {moments : List Moment} {grown : Captures}

lemma stretch_attempted
    (h : Stretch (frame.note .tried) (matcher.evaluate (frame.note .tried) host).value.2 moments grown) :
    ∃ more, Stretch frame (matcher.attempted frame host) more
      (grown ++ (matcher.evaluate (frame.note .tried) host).value.1.found) := by
  have tried : Stretch frame (frame.note .tried) _ [] := (Stretch.refl frame).step rfl fun _ => rfl
  exact (tried.trans h).capture _

lemma captured_eq (matcher : Matcher)
    (h : Stretch (frame.note .tried) (matcher.evaluate (frame.note .tried) host).value.2 moments grown) :
    matcher.captured frame host
      = grown ++ (matcher.evaluate (frame.note .tried) host).value.1.found := by
  obtain ⟨_, attempted⟩ := stretch_attempted h
  exact attempted.own_between

/-- What is captured by code is booked by the code itself. -/
lemma captured_predicate {code : Frame → Hosted (Ending × Frame)}
    (h : Stretch (frame.note .tried) (code (frame.note .tried) host).value.2 moments grown) :
    (predicate code).captured frame host = grown :=
  (captured_eq (predicate code) h).trans (List.append_nil grown)

end

/-! ### What each kind of matcher captures -/

/-- A matcher of paths captures the groups of its match. -/
lemma captured_path (kind : MatcherKind) (pattern : Bytes) (test : PathTest) (frame : Frame)
    (host : Host) :
    captured ⟨kind, pattern, .path test⟩ frame host = (test.run frame.request.cursor).found := by
  let matcher : Matcher := ⟨kind, pattern, .path test⟩
  have run : test.run (frame.note .tried).request.cursor = test.run frame.request.cursor := rfl
  -- the frame hardly changes while the matcher runs
  have stretch : ∃ moments, Stretch (frame.note .tried)
      (matcher.evaluate (frame.note .tried) host).value.2 moments [] := by
    cases outcome : test.run frame.request.cursor with
    | rejected => exact ⟨_, by simpa [matcher, evaluate, run, outcome] using Stretch.refl _⟩
    | taken found after =>
        exact ⟨_, by simpa [matcher, evaluate, run, outcome] using Stretch.moved (frame.note .tried) after⟩
    | overrun found claimed remaining =>
        exact ⟨_, by simpa [matcher, evaluate, run, outcome] using Stretch.refl _⟩
  obtain ⟨_, stretch⟩ := stretch
  rw [captured_eq matcher stretch]
  cases outcome : test.run frame.request.cursor <;>
    simp [matcher, evaluate, run, outcome, Consumption.found]

lemma captured_known (verdict : Bool) (frame : Frame) (host : Host) :
    (known verdict).captured frame host = [] :=
  captured_eq (known verdict) (Stretch.refl _)

/-- What only asks the request captures nothing. -/
lemma captured_asking (question : Request → Bool) (frame : Frame) (host : Host) :
    (asking question).captured frame host = [] :=
  captured_predicate (Stretch.refl _)

lemma captured_accept (mediaType : Bytes) (frame : Frame) (host : Host) :
    (accept mediaType).captured frame host = [] := by
  by_cases accepted : (acceptedTypes frame.request).contains mediaType
  · have responded := Stretch.responded (frame.note .tried) fun r =>
      { r with headers := r.headers.set Response.contentType mediaType }
    have accepted' : (acceptedTypes (frame.note .tried).request).contains mediaType := accepted
    apply captured_predicate
    rw [if_pos accepted']
    exact responded
  · have rejected : ¬ (acceptedTypes (frame.note .tried).request).contains mediaType := accepted
    apply captured_predicate
    rw [if_neg rejected]
    exact Stretch.refl _

/-- The value of a parameter is captured unless it is empty. -/
lemma captured_parameter (key : Bytes) (frame : Frame) (host : Host) :
    (parameter key).captured frame host
      = if (frame.request.param key).isEmpty then [] else [frame.request.param key] := by
  split
  case isTrue empty =>
    have empty' : ((frame.note .tried).request.param key).isEmpty := empty
    apply captured_predicate
    simp only [Hosted.value_pure, if_pos empty']
    exact Stretch.refl _
  case isFalse given =>
    have given' : ¬ ((frame.note .tried).request.param key).isEmpty := given
    obtain ⟨moments, captured⟩ := (Stretch.refl (frame.note .tried)).capture [frame.request.param key]
    apply captured_predicate
    simp only [Hosted.value_pure, if_neg given']
    exact captured

/-- The stem of an extension is captured: what its pattern captures. -/
lemma captured_extension {source : Bytes} {matcher : Matcher} (h : extension? source = .ok matcher) :
    ∃ test, PathTest.ofPattern? (extensionPattern source) = some test ∧
      ∀ frame host, matcher.captured frame host = (test.run frame.request.cursor).found := by
  obtain ⟨test, made, h⟩ := Except.bind_eq_ok.mp h
  cases h
  refine ⟨test, eq_some_of_orMalformed made, fun frame host => ?_⟩
  have run : test.run (frame.note .tried).request.cursor = test.run frame.request.cursor := rfl
  cases outcome : test.run frame.request.cursor with
  | rejected =>
      apply captured_predicate
      simp only [run, outcome, Hosted.value_pure]
      exact Stretch.refl _
  | taken found after =>
      obtain ⟨moments, captured⟩ := (Stretch.moved (frame.note .tried) after).capture found
      apply captured_predicate
      simp only [run, outcome, Hosted.value_pure]
      exact captured
  | overrun found claimed remaining =>
      obtain ⟨moments, captured⟩ := (Stretch.refl (frame.note .tried)).capture found
      apply captured_predicate
      simp only [run, outcome, Hosted.value_pure]
      exact captured

end Matcher

namespace Condition

/-- The groups of a match in front of what remains of the path. -/
def groups (test : Option PathTest) (request : Request) : Captures :=
  (test.map fun test => (test.run request.cursor).found).getD []

/-- **What a condition captures** of a request, if it runs no handler code: the groups of its match on the
path, with the stem of an extension as one of them, and the value of a parameter unless it is empty. -/
def captures (request : Request) : Condition → Captures
  | .template text => groups (PathTest.ofTemplate? text) request
  | .regex source => groups (PathTest.ofPattern? source) request
  | .anySegment => groups (some .anySegment) request
  | .extension source => groups (PathTest.ofPattern? (Matcher.extensionPattern source)) request
  | .parameter key => if (request.param key).isEmpty then [] else [request.param key]
  | .truth _ | .verb _ | .host _ | .hostPattern _ | .header _ | .accept _ | .unset | .named _ _
  | .check _ => []

/-- What a condition is prepared to captures just that. -/
lemma captured_prepare {env : Environment} {request : Request} {frame : Frame} {host : Host} :
    ∀ {condition : Condition} {matcher : Matcher}, condition.prepare env request = .ok matcher →
      condition.IsCodeless → matcher.captured frame host = condition.captures frame.request
  | .template _, _, made, _ => by
      obtain ⟨test, compiled, h⟩ := Except.bind_eq_ok.mp made
      cases h
      rw [Matcher.captured_path, captures, Matcher.eq_some_of_orMalformed compiled]
      rfl
  | .regex _, _, made, _ => by
      obtain ⟨_, _, h⟩ := Except.bind_eq_ok.mp made
      obtain ⟨test, compiled, h⟩ := Except.bind_eq_ok.mp h
      cases h
      rw [Matcher.captured_path, captures, Matcher.eq_some_of_orMalformed compiled]
      rfl
  | .anySegment, _, made, _ => by
      cases made
      exact Matcher.captured_path _ _ .anySegment frame host
  | .extension _, _, made, _ => by
      obtain ⟨test, compiled, captured⟩ := Matcher.captured_extension made
      rw [captured, captures, compiled]
      rfl
  | .parameter key, _, made, _ => by cases made; exact Matcher.captured_parameter key frame host
  | .truth verdict, _, made, _ => by cases made; exact Matcher.captured_known verdict frame host
  | .verb _, _, made, _ => by cases made; exact Matcher.captured_known _ frame host
  | .host _, _, made, _ => by cases made; exact Matcher.captured_known _ frame host
  | .hostPattern _, _, made, _ => by
      obtain ⟨_, _, h⟩ := Except.bind_eq_ok.mp made
      cases h
      exact Matcher.captured_known _ frame host
  | .header _, _, made, _ => by cases made; exact Matcher.captured_asking _ frame host
  | .accept mediaType, _, made, _ => by cases made; exact Matcher.captured_accept mediaType frame host
  | .unset, _, made, _ => by cases made; exact Matcher.captured_asking _ frame host

end Condition

/-- Each condition of a clause is prepared to the matcher at its place. -/
lemma prepareAll_each {env : Environment} {request : Request} :
    ∀ {clause : List Condition} {matchers : List Matcher},
      prepareAll env request clause = .ok matchers →
        List.Forall₂ (fun condition matcher => condition.prepare env request = .ok matcher)
          clause matchers
  | [], _, made => by
      cases made
      exact .nil
  | _ :: _, _, made => by
      obtain ⟨matcher, first, made⟩ := Except.bind_eq_ok.mp made
      obtain ⟨others, rest, made⟩ := Except.bind_eq_ok.mp made
      cases made
      exact .cons first (prepareAll_each rest)

namespace Matcher

/-! ### What the matchers of a clause capture -/

lemma value_evaluateAll_cons (matcher : Matcher) (rest : List Matcher) (frame : Frame) (host : Host) :
    (evaluateAll (matcher :: rest) frame host).value
      = match (matcher.evaluate (frame.note .tried) host).value.1.ending with
        | .returned true => (evaluateAll rest ((matcher.attempted frame host).note .passed)
            (matcher.evaluate (frame.note .tried) host).host).value
        | ending => (ending, matcher.attempted frame host) := by
  simp only [evaluateAll, Hosted.value_bind, attempted]
  generalize matcher.evaluate (frame.note .tried) host = outcome
  obtain ⟨⟨⟨ending, found⟩, after⟩, host', _⟩ := outcome
  cases ending with
  | returned verdict => cases verdict <;> rfl
  | halted response => rfl
  | faulted fault => rfl

/-- **When the matchers of a clause have passed,** each has captured its own for the clause. -/
lemma stretch_evaluateAll : ∀ {matchers : List Matcher}, (∀ m ∈ matchers, m.Keeps Stretch.contract) →
    ∀ {frame after : Frame} {host : Host},
      (evaluateAll matchers frame host).value = (.returned true, after) →
        ∃ moments, Stretch frame after moments (capturedEach matchers frame host).flatten
  | [], _, frame, after, host, h => by
      cases h
      exact ⟨_, Stretch.refl _⟩
  | matcher :: rest, keeps, frame, after, host, h => by
      rw [value_evaluateAll_cons] at h
      split at h
      · obtain ⟨_, _, evaluated⟩ :=
          evaluate_keeps Stretch.lawful (keeps matcher List.mem_cons_self) trivial host
        obtain ⟨_, attempted⟩ := stretch_attempted evaluated
        have passed : Stretch _ ((matcher.attempted frame host).note .passed) _ _ :=
          attempted.step rfl fun _ => rfl
        obtain ⟨_, others⟩ :=
          stretch_evaluateAll (fun m mem => keeps m (List.mem_cons_of_mem _ mem)) h
        rw [capturedEach, List.flatten_cons, captured_eq matcher evaluated]
        exact ⟨_, passed.trans others⟩
      · rename_i ended
        exact absurd (congrArg Prod.fst h) ended

end Matcher

/-! ## Clauses -/

/-- The frame in which a clause that is tried in a frame enters its body, if it does. -/
def Frame.chosen? (frame : Frame) (matchers : List Matcher) (host : Host) : Option Frame :=
  match (Matcher.evaluateAll matchers frame.openClause host).value with
  | (.returned true, after) => some after
  | _ => none

/-- Of a body no more counts than what it does with the captures that it gets. -/
lemma Frame.tryClause_congr {frame after : Frame} {matchers : List Matcher} {host : Host}
    (running : frame.commitment = none)
    (all : (Matcher.evaluateAll matchers frame.openClause host).value = (.returned true, after))
    {body other : Captures → Frame → Hosted (Ending × Frame)}
    (same : body after.captures = other after.captures) :
    frame.tryClause matchers body host = frame.tryClause matchers other host := by
  have attempt : tryClause.attemptClause matchers body frame.openClause host
      = tryClause.attemptClause matchers other frame.openClause host := by
    simp only [tryClause.attemptClause, bind]
    generalize Matcher.evaluateAll matchers frame.openClause host = outcome at all ⊢
    obtain ⟨value, host', lines⟩ := outcome
    cases all
    simp only [same]
  simp only [tryClause, running, bind, attempt]

namespace Application

variable (app : Application) (clause : List Condition) (body : Captures → Program) (frame : Frame)
  (host : Host)

lemma environment_stretch : app.environment.Keeps Stretch.contract :=
  app.environment_keeps Stretch.lawful (obeys_unlimited (.inl trivial))

lemma prepareAll_stretch {app : Application} {clause : List Condition} {request : Request}
    {matchers : List Matcher} (made : prepareAll app.environment request clause = .ok matchers) :
    ∀ m ∈ matchers, m.Keeps Stretch.contract :=
  prepareAll_keeps Stretch.lawful app.environment_stretch clause
    (allObey_unlimited clause (.inl trivial)) made

/-- A clause captures nothing for the clause around it. -/
lemma stretch_on :
    ∃ moments, Stretch frame ((Program.on clause body).perform app.environment frame host).value.2
      moments [] := by
  simp only [Program.perform]
  cases made : prepareAll app.environment frame.request clause with
  | error fault => exact ⟨_, Stretch.refl _⟩
  | ok matchers =>
      cases running : frame.commitment with
      | some outcome =>
          simp only [Frame.tryClause, running, Hosted.value_pure]
          exact ⟨_, Stretch.refl _⟩
      | none =>
          have bodies (found : Captures) :
              Stretch.contract.Keeps ((body found).perform app.environment) :=
            (body found).perform_keeps Stretch.lawful app.environment_stretch
              ((body found).obeys_unlimited (.inl trivial))
          obtain ⟨_, _, attempt⟩ := Frame.attemptClause_keeps Stretch.lawful (prepareAll_stretch made)
            bodies (trivial : Stretch.contract.pre frame) running host
          simp only [Frame.tryClause, running, Hosted.value_bind, Hosted.value_pure]
          exact attempt.clause _

/-- **A predicate that tries a clause captures nothing,** whatever is captured inside. -/
lemma captured_clause :
    (Matcher.predicate ((Program.on clause body).perform app.environment)).captured frame host
      = [] := by
  obtain ⟨_, stretch⟩ := app.stretch_on clause body (frame.note .tried) host
  exact Matcher.captured_predicate stretch

/-- The prepared matchers of a clause that is tried in a frame, and the frame in which it enters its
body, if it does. -/
def entered? : Option (List Matcher × Frame) :=
  match prepareAll app.environment frame.request clause with
  | .error _ => none
  | .ok matchers => (frame.chosen? matchers host).map (matchers, ·)

lemma of_entered? {app : Application} {clause : List Condition} {frame after : Frame} {host : Host}
    {matchers : List Matcher} (h : app.entered? clause frame host = some (matchers, after)) :
    prepareAll app.environment frame.request clause = .ok matchers ∧
      (Matcher.evaluateAll matchers frame.openClause host).value = (.returned true, after) := by
  unfold entered? at h
  split at h
  · cases h
  · rename_i prepared made
    obtain ⟨chosen, entered, same⟩ := Option.map_eq_some_iff.mp h
    cases same
    refine ⟨made, ?_⟩
    unfold Frame.chosen? at entered
    split at entered
    · rename_i all
      rw [all, Option.some.inj entered]
    · cases entered

/-- **The captures that a body gets** are what the matchers captured, without what clauses inside have
cleared, behind what those have left.  So they are what the matchers captured exactly if what was cleared
is what was left, as it is when no clause begins inside.

What the matchers of the clause captured is told by its conditions, and a predicate that tries another
clause captures nothing for this one. -/
theorem captures_handed {app : Application} {clause : List Condition} {frame after : Frame}
    {host : Host} {matchers : List Matcher} (running : frame.commitment = none)
    (entered : app.entered? clause frame host = some (matchers, after)) :
    let books := Ledger.between frame.openClause after
    let captured := (Matcher.capturedEach matchers frame.openClause host).flatten
    (∀ body other : Captures → Program, body after.captures = other after.captures →
      (Program.on clause body).perform app.environment frame host
        = (Program.on clause other).perform app.environment frame host) ∧
    captured = books.lost ++ books.kept ∧ after.captures = books.stray ++ books.kept ∧
    (after.captures = captured ↔ books.stray = books.lost) ∧
    ((∀ moment ∈ after.history.drop frame.openClause.history.length, moment.event ≠ .opened) →
      after.captures = captured) ∧
    List.Forall₂ (fun condition matcher => condition.IsCodeless →
      ∀ tried entry, Matcher.captured matcher tried entry = condition.captures tried.request)
      clause matchers ∧
    ∀ (inner : List Condition) (body : Captures → Program) (tried : Frame) (entry : Host),
      (Matcher.predicate ((Program.on inner body).perform app.environment)).captured tried entry
        = [] := by
  intro books captured
  obtain ⟨made, all⟩ := of_entered? entered
  obtain ⟨moments, stretch⟩ := Matcher.stretch_evaluateAll (prepareAll_stretch made) all
  have own : books.own = captured := stretch.own_between
  have live : books.live = after.captures := by
    rw [← (stretch.books _ (Ledger.fits_fresh _)).1.live, ← stretch.between_eq]
  -- both end with what was captured since the last clause inside began
  have iff : after.captures = captured ↔ books.stray = books.lost := by
    rw [← own, ← live]
    exact List.append_left_inj _
  refine ⟨fun body other same => ?_, own.symm, live.symm, iff, fun none => iff.mpr ?_,
    (prepareAll_each made).imp fun _ _ made codeless _ _ => Condition.captured_prepare made codeless,
    app.captured_clause⟩
  · simp only [Program.perform, made]
    exact Frame.tryClause_congr running all (funext fun inside => by rw [same])
  · obtain ⟨lost, stray⟩ := Ledger.through_of_no_clause none
      { stray := frame.openClause.captures } rfl
    exact stray.trans lost.symm

/-- A clause with a placeholder and a parameter. -/
theorem captures_handed_of_parameter :
    let request : Request :=
      { cursor := .atStart (ascii "/x"), params := Dict.ofList [(ascii "k", ascii "v")] }
    let clause : List Condition := [.template (ascii ":a"), .parameter (ascii "k"), .check .skip]
    ∃ matchers after, entered? {} clause (.initial request) ⟨0, [], []⟩ = some (matchers, after) ∧
      after.captures = (Matcher.capturedEach matchers (Frame.initial request).openClause
        ⟨0, [], []⟩).flatten ∧ after.captures = [ascii "x", ascii "v"] := by
  intro request clause
  have found : ((entered? {} clause (.initial request) ⟨0, [], []⟩).map fun entered =>
      (entered.2.captures, decide (∀ moment ∈ entered.2.history.drop
        (Frame.initial request).openClause.history.length, moment.event ≠ .opened)))
      = some ([ascii "x", ascii "v"], true) := by
    decide +kernel
  obtain ⟨⟨matchers, after⟩, entered, same⟩ := Option.map_eq_some_iff.mp found
  obtain ⟨captures, none⟩ := Prod.mk.inj same
  obtain ⟨_, _, _, _, own, _⟩ := captures_handed rfl entered
  exact ⟨matchers, after, entered, own (of_decide_eq_true none), captures⟩

/-- A clause that a predicate tries in vain clears what was captured before it; and what it captured
itself is left behind. -/
theorem not_captured_of_inner_clause :
    let handed (path : Bytes) (inner : List Condition) : Option (Captures × Captures) :=
      let frame : Frame := .initial { cursor := .atStart path }
      let tries : Condition := .check (.seq (.on inner fun _ => .skip) (.answer true))
      (entered? {} [.template (ascii ":a"), tries] frame ⟨0, [], []⟩).map fun (matchers, after) =>
        (after.captures, (Matcher.capturedEach matchers frame.openClause ⟨0, [], []⟩).flatten)
    handed (ascii "/x") [.template (ascii "nope")] = some ([], [ascii "x"]) ∧
      handed (ascii "/x/y") [.template (ascii ":b"), .truth false]
        = some ([ascii "y"], [ascii "x"]) := by
  decide +kernel

end Application

end ClauseRouter
