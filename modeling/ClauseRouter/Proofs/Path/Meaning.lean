import ClauseRouter.Proofs.Path.Boundary
import ClauseRouter.Proofs.Pattern.Tandem

/-!
# What a pattern means as a matcher

A pattern is compiled on its own, and once more inside its anchor.  What is matched is the anchored one:
there every group has the next higher number, but back-references are not told.

* `Matcher.Means` — a matcher takes whole matches of a pattern, and captures what its groups keep.
* `Matcher.means_enclosed` — the matcher of a pattern between the anchors means that pattern.
* `Matcher.regex_meaning` — so a pattern without back-references keeps its meaning, and one with
  back-references gets another one, or none.
-/

namespace ClauseRouter

open Pattern (Token anchorRoom weighed?)

/-- A cursor takes whole matches of the pattern that stands between the anchors. -/
lemma Cursor.matchWhole?_of_consume {pattern : Pattern} (fits : pattern.node.Fits pattern.groups)
    {segments : Nat} (positive : segments ≠ 0) {c after : Cursor} {found : Captures}
    (taken : c.consume pattern.enclosed segments = .taken found after) :
    ∃ text held, c.remaining = Byte.slash :: text ++ after.remaining ∧
      after.consumed = c.consumed ++ Byte.slash :: text ∧ pattern.matchWhole? text = some held ∧
      found = held.map fun slot => slot.getD [] := by
  obtain ⟨window, goesOn, slots, shown, within, search⟩ := search?_of_consume taken
  obtain ⟨text, left, held, last, rfl, alone, rfl⟩ := Pattern.matchWhole?_of_search?_enclosed fits search
  -- the search sees a window only, behind which the path may go on
  obtain ⟨behind, whole, _⟩ := Path.window_append positive c.remaining
  rw [shown] at whole
  have front : c.remaining = Byte.slash :: text ++ (left ++ behind) := by simpa using whole
  cases taken.symm.trans (consume_of_some shown within search front rfl)
  exact ⟨text, held, front, rfl, alone, by simp⟩

namespace Matcher

/-- **A matcher means a pattern:** whenever it passes, the text that it has moved behind a slash is a whole
match of the pattern, and what it has captured is what the groups keep, in their order. -/
def Means (matcher : Matcher) (pattern : Pattern) : Prop :=
  ∀ frame host verdict after, (matcher.evaluate frame host).value = (verdict, after) →
    verdict.ending = .returned true → ∃ text held,
      frame.request.cursor.remaining = Byte.slash :: text ++ after.request.cursor.remaining ∧
      after.request.cursor.consumed = frame.request.cursor.consumed ++ Byte.slash :: text ∧
      pattern.matchWhole? text = some held ∧ verdict.found = held.map fun slot => slot.getD []

/-- The matcher of an anchored pattern. -/
def ofAnchored (source : Bytes) (anchored : Pattern) : Matcher :=
  ⟨.regex, source, .path (.pattern anchored (Path.span source))⟩

lemma means_enclosed {pattern : Pattern} (fits : pattern.node.Fits pattern.groups) (source : Bytes) :
    (ofAnchored source pattern.enclosed).Means pattern := by
  intro frame host verdict after value passed
  cases ran : frame.request.cursor.consume pattern.enclosed (Path.span source) with
  | rejected =>
      simp only [ofAnchored, evaluate, PathTest.run, ran] at value
      cases value
      cases passed
  | taken found moved =>
      simp only [ofAnchored, evaluate, PathTest.run, ran] at value
      cases value
      exact Cursor.matchWhole?_of_consume fits (Path.span_ne_zero source) ran
  | overrun found claimed remaining =>
      simp only [ofAnchored, evaluate, PathTest.run, ran] at value
      cases value
      cases passed

lemma exists_ok_of_isOk {α : Type} {made : Except Fault α} (ok : made.isOk) : ∃ a, made = .ok a := by
  cases made with
  | ok a => exact ⟨a, rfl⟩
  | error fault => cases ok

lemma regex?_eq_ok_iff {source : Bytes} {pattern : Pattern}
    (accepted : Pattern.compile? source = some pattern) {matcher : Matcher} :
    regex? source = .ok matcher ↔ ∃ anchored,
      Pattern.compile? (Path.anchored source) = some anchored ∧ matcher = ofAnchored source anchored := by
  constructor
  · intro made
    obtain ⟨_, _, made⟩ := Except.bind_eq_ok.mp made
    obtain ⟨test, prepared, made⟩ := Except.bind_eq_ok.mp made
    obtain ⟨anchored, compiled, rfl⟩ := Option.map_eq_some_iff.mp (eq_some_of_orMalformed prepared)
    cases made
    exact ⟨anchored, compiled, rfl⟩
  · rintro ⟨anchored, compiled, rfl⟩
    rw [regex?, accepted, PathTest.ofPattern?, compiled]
    rfl

/-- The matcher of a text is the one of what its tokens make with back-references lowered. -/
lemma regex?_eq_ok_iff_lowered {source : Bytes} {tokens : List Token} {pattern : Pattern}
    (accepted : Pattern.compile? source = some pattern) (scanned : Token.scan source = some tokens)
    (matcher : Matcher) : regex? source = .ok matcher ↔ ∃ lowered weight,
      weighed? (tokens.map Token.lowered) = some (lowered, weight) ∧
        weight + anchorRoom ≤ Pattern.Parser.weightLimit ∧
        matcher = ofAnchored source lowered.enclosed := by
  obtain ⟨first, balanced⟩ := by
    simpa [Pattern.selfContained, scanned] using Pattern.selfContained_of_compile? accepted
  rw [regex?_eq_ok_iff accepted, Pattern.compile?_anchored_eq_shifted scanned first balanced]
  constructor
  · rintro ⟨anchored, compiled, rfl⟩
    obtain ⟨⟨lowered, weight⟩, built, compiled⟩ := Option.bind_eq_some_iff.mp compiled
    obtain ⟨room, compiled⟩ := Option.ite_none_right_eq_some.mp compiled
    cases compiled
    exact ⟨lowered, weight, built, room, rfl⟩
  · rintro ⟨lowered, weight, built, room, rfl⟩
    exact ⟨_, by rw [built, Option.bind_some, if_pos room], rfl⟩

/-- **What becomes of a pattern in its matcher.**  Let a text be a pattern on its own that has no
conditions on places.  If it has no back-references either, its matcher is built unless the pattern with
its anchor is too heavy, and means the pattern.  In all cases the matcher is built exactly if the text
with the numbers of back-references one less is a pattern that is not too heavy, and means that one. -/
theorem regex_meaning {source : Bytes} {tokens : List Token} {pattern : Pattern}
    (accepted : Pattern.compile? source = some pattern) (scanned : Token.scan source = some tokens)
    (free : ∀ token ∈ tokens, token.isFree) :
    ∃ weight, weighed? tokens = some (pattern, weight) ∧
    ((∀ token ∈ tokens, token.isReference = false) →
      ((∃ matcher, regex? source = .ok matcher) ↔ weight + anchorRoom ≤ Pattern.Parser.weightLimit) ∧
      ∀ matcher, regex? source = .ok matcher → matcher.Means pattern) ∧
    ((∃ matcher, regex? source = .ok matcher) ↔
      ∃ lowered weight, weighed? (tokens.map Token.lowered) = some (lowered, weight) ∧
        weight + anchorRoom ≤ Pattern.Parser.weightLimit) ∧
    ∀ matcher lowered weight, regex? source = .ok matcher →
      weighed? (tokens.map Token.lowered) = some (lowered, weight) → matcher.Means lowered := by
  have built := regex?_eq_ok_iff_lowered accepted scanned
  have free' : ∀ token ∈ tokens.map Token.lowered, token.isFree := by
    simpa [Token.isFree_lowered] using free
  have means : ∀ matcher lowered weight, regex? source = .ok matcher →
      weighed? (tokens.map Token.lowered) = some (lowered, weight) → matcher.Means lowered := by
    intro matcher lowered weight made weighed
    obtain ⟨_, _, weighed', _, rfl⟩ := (built _).mp made
    cases weighed.symm.trans weighed'
    exact means_enclosed (Pattern.fits_of_weighed? weighed free') source
  have made : (∃ matcher, regex? source = .ok matcher) ↔
      ∃ lowered weight, weighed? (tokens.map Token.lowered) = some (lowered, weight) ∧
        weight + anchorRoom ≤ Pattern.Parser.weightLimit := by
    constructor
    · rintro ⟨matcher, made⟩
      obtain ⟨lowered, weight, weighed, room, _⟩ := (built _).mp made
      exact ⟨lowered, weight, weighed, room⟩
    · rintro ⟨lowered, weight, weighed, room⟩
      exact ⟨_, (built _).mpr ⟨lowered, weight, weighed, room, rfl⟩⟩
  obtain ⟨⟨pattern, weight⟩, alone, rfl⟩ :=
    Option.map_eq_some_iff.mp ((Pattern.compile?_eq_weighed? scanned).symm.trans accepted)
  refine ⟨weight, alone, fun plain => ?_, made, means⟩
  -- without back-references nothing is lowered, so the pattern in the anchor is the one alone
  have same : tokens.map Token.lowered = tokens := Token.map_lowered plain
  rw [same] at made means
  refine ⟨?_, fun matcher built => means matcher pattern weight built alone⟩
  rw [made]
  constructor
  · rintro ⟨_, _, weighed, room⟩
    cases alone.symm.trans weighed
    exact room
  · exact fun room => ⟨pattern, weight, alone, room⟩

/-- A pattern without back-references, and one with a back-reference to its second group, which its matcher
takes for one to the first. -/
theorem regex_meaning_of_groups :
    (∃ pattern matcher, Pattern.compile? (ascii "(\\d+)-(\\d+)") = some pattern ∧
      regex? (ascii "(\\d+)-(\\d+)") = .ok matcher ∧ matcher.Means pattern) ∧
    ∃ lowered matcher, Pattern.compile? (ascii "(a)(b)\\1") = some lowered ∧
      regex? (ascii "(a)(b)\\2") = .ok matcher ∧ matcher.Means lowered := by
  constructor
  · have compiled : (Pattern.compile? (ascii "(\\d+)-(\\d+)")).isSome ∧
        (regex? (ascii "(\\d+)-(\\d+)")).isOk := by decide +kernel
    have shape : (Token.scan (ascii "(\\d+)-(\\d+)")).any
        (·.all fun token => token.isFree && !token.isReference) := by decide +kernel
    obtain ⟨pattern, accepted⟩ := Option.isSome_iff_exists.mp compiled.1
    obtain ⟨tokens, scanned, shape⟩ := (Option.any_eq_true _ _).mp shape
    simp only [List.all_eq_true, Bool.and_eq_true, Bool.not_eq_true'] at shape
    obtain ⟨_, _, plain, _⟩ :=
      regex_meaning accepted scanned fun token mem => (shape token mem).1
    obtain ⟨matcher, made⟩ := exists_ok_of_isOk compiled.2
    exact ⟨pattern, matcher, accepted, made, (plain fun token mem => (shape token mem).2).2 matcher made⟩
  · have compiled : (Pattern.compile? (ascii "(a)(b)\\2")).isSome ∧
        (regex? (ascii "(a)(b)\\2")).isOk := by decide +kernel
    have shape : (Token.scan (ascii "(a)(b)\\2")).any (·.all Token.isFree) := by decide +kernel
    have lowering : (Token.scan (ascii "(a)(b)\\2")).map (·.map Token.lowered)
        = Token.scan (ascii "(a)(b)\\1") := by decide +kernel
    obtain ⟨pattern, accepted⟩ := Option.isSome_iff_exists.mp compiled.1
    obtain ⟨tokens, scanned, shape⟩ := (Option.any_eq_true _ _).mp shape
    obtain ⟨_, _, _, built, means⟩ := regex_meaning accepted scanned (List.all_eq_true.mp shape)
    obtain ⟨matcher, made⟩ := exists_ok_of_isOk compiled.2
    obtain ⟨lowered, weight, weighed, _⟩ := built.mp ⟨matcher, made⟩
    rw [scanned] at lowering
    refine ⟨lowered, matcher, ?_, made, means matcher lowered weight made weighed⟩
    rw [Pattern.compile?_eq_weighed? lowering.symm, weighed]
    rfl

/-- Inside the anchor a back-reference can mean a group that is still open, and then there is no matcher,
or another group than it means in the pattern. -/
theorem not_regex_meaning_of_reference :
    ((Pattern.compile? (ascii "(a)\\1")).isSome ∧ (regex? (ascii "(a)\\1")).isOk = false) ∧
    ∃ pattern matcher, Pattern.compile? (ascii "(a)(b)\\2") = some pattern ∧
      regex? (ascii "(a)(b)\\2") = .ok matcher ∧ ¬ matcher.Means pattern := by
  refine ⟨by decide +kernel, ?_⟩
  have alone : (Pattern.compile? (ascii "(a)(b)\\2")).map (·.matchWhole? (ascii "aba")) = some none := by
    decide +kernel
  have taken : (PathTest.ofPattern? (ascii "(a)(b)\\2")).map (·.run (.atStart (ascii "/aba")))
      = some (.taken [ascii "a", ascii "b"] ⟨ascii "/aba", []⟩) := by decide +kernel
  obtain ⟨pattern, accepted, alone⟩ := Option.map_eq_some_iff.mp alone
  obtain ⟨test, prepared, taken⟩ := Option.map_eq_some_iff.mp taken
  refine ⟨pattern, ⟨.regex, ascii "(a)(b)\\2", .path test⟩, accepted, ?_, fun means => ?_⟩
  · rw [regex?, accepted, prepared]
    rfl
  · have value : (evaluate ⟨.regex, ascii "(a)(b)\\2", .path test⟩
        (.initial { cursor := .atStart (ascii "/aba") }) ⟨0, [], []⟩).value
          = (⟨.returned true, [ascii "a", ascii "b"]⟩,
            (Frame.initial { cursor := .atStart (ascii "/aba") }).moveTo ⟨ascii "/aba", []⟩) := by
      simp [evaluate, Frame.initial, taken]
    obtain ⟨text, held, _, moved, whole, _⟩ := means _ _ _ _ value rfl
    obtain rfl : ascii "aba" = text := List.tail_eq_of_cons_eq moved
    cases alone.symm.trans whole

end Matcher

end ClauseRouter
