import ClauseRouter.Proofs.Dispatch.Vocabulary
import ClauseRouter.Proofs.Path.Consumption
import ClauseRouter.Proofs.Pattern.Anchored

/-!
# Segments stay whole

A matcher of paths moves whole segments: what it moves begins with a slash, and what it leaves is
empty or begins with one.

* `Cursor.MovesSegments` — the rule, for two cursors.
* `PathTest.KeepsSegments` — a matcher of paths obeys the rule, and does not claim more than there is.
* `Path.window_append` — a window is the front of its path, and all of it if the path ends there.
* `PathTest.keepsSegments_pattern` — a pattern obeys the rule exactly if its first group ends segments,
  as the one of an anchored tree does (`Pattern.endsSegments_anchored`).
* `Matcher.segment_boundary` — hence the rule for patterns of their own, and for which templates.

A template may also be text that is no pattern of its own.  Then the parenthesis of the anchor may
close inside the template, and the rule may fail: `Matcher.not_segment_boundary_of_template`.
-/

namespace ClauseRouter

/-- Segments move from the front of what remains to the end of what is consumed. -/
structure Cursor.MovesSegments (before after : Cursor) : Prop where
  moved : ∃ text, before.remaining = Byte.slash :: text ++ after.remaining ∧
    after.consumed = before.consumed ++ Byte.slash :: text
  boundary : after.remaining = [] ∨ after.remaining.head? = some Byte.slash

/-- A matcher of paths rejects a path or moves whole segments. -/
def PathTest.KeepsSegments (test : PathTest) : Prop :=
  ∀ c, test.run c = .rejected ∨ ∃ found after, test.run c = .taken found after ∧ c.MovesSegments after

/-! ## Parts -/

lemma PathTest.keepsSegments_parts (parts : List Part) : (PathTest.parts parts).KeepsSegments := by
  intro c
  unfold PathTest.run Cursor.consumeParts
  cases parts with
  | nil => exact .inl rfl
  | cons part parts =>
      simp only [List.isEmpty_cons, Bool.false_eq_true, if_false]
      cases h : takeParts (part :: parts) c.remaining with
      | none => exact .inl rfl
      | some taking =>
          obtain ⟨found, taken, rest⟩ := taking
          obtain ⟨⟨text, rfl⟩, boundary⟩ := takeParts_boundary (by simp) h
          exact .inr ⟨found, _, rfl, ⟨text, takeParts_eq_some h, rfl⟩, boundary⟩

/-! ## Windows -/

lemma Path.throughSlashes?_append {n : Nat} {path text : Bytes}
    (h : Path.throughSlashes? n path = some text) : ∃ behind, path = text ++ behind := by
  induction path generalizing n text with
  | nil => cases n <;> simp_all [throughSlashes?]
  | cons b path ih =>
      cases n with
      | zero => exact ⟨b :: path, by simp_all [throughSlashes?]⟩
      | succ n =>
          rw [throughSlashes?, Option.map_eq_some_iff] at h
          obtain ⟨text, h, rfl⟩ := h
          obtain ⟨behind, rfl⟩ := ih h
          exact ⟨behind, rfl⟩

lemma Path.count_throughSlashes? {n : Nat} {path text : Bytes}
    (h : Path.throughSlashes? n path = some text) : text.count Byte.slash = n := by
  induction path generalizing n text with
  | nil => cases n <;> simp_all [throughSlashes?]
  | cons b path ih =>
      cases n with
      | zero => simp_all [throughSlashes?]
      | succ n =>
          rw [throughSlashes?, Option.map_eq_some_iff] at h
          obtain ⟨text, h, rfl⟩ := h
          have count := ih h
          by_cases slash : b = Byte.slash
          · simp_all
          · simp_all

/-- A window is the front of its path, and if the path does not go on behind it, all of it. -/
lemma Path.window_append {segments : Nat} (positive : segments ≠ 0) (path : Bytes) :
    ∃ behind, path = (Path.window segments path).1 ++ behind ∧
      ((Path.window segments path).2 = false → behind = []) := by
  cases path with
  | nil => exact ⟨[], by simp [window, positive]⟩
  | cons b path =>
      cases h : throughSlashes? segments path with
      | none => exact ⟨[], by simp [window, h]⟩
      | some text =>
          obtain ⟨behind, rfl⟩ := throughSlashes?_append h
          exact ⟨behind, by simp [window, h]⟩

/-! ## Patterns -/

lemma Path.span_ne_zero (source : Bytes) : Path.span source ≠ 0 := by unfold Path.span; omega

/-- **The first group of a pattern ends segments:** in every path in whose window the pattern matches,
a slash and as many bytes as the group has are followed by a slash or by nothing. -/
def Pattern.EndsSegments (pattern : Pattern) (segments : Nat) : Prop :=
  ∀ path slots, (Path.window segments path).1.length ≤ Path.windowLimit →
    pattern.search? (Path.window segments path).1 (Path.window segments path).2 = some slots →
      ∃ text rest, path = Byte.slash :: text ++ rest ∧
        text.length = (Pattern.firstText slots).length ∧
        (rest = [] ∨ rest.head? = some Byte.slash)

/-- Which patterns keep segments. -/
lemma PathTest.keepsSegments_pattern {pattern : Pattern} {segments : Nat} :
    (PathTest.pattern pattern segments).KeepsSegments ↔ pattern.EndsSegments segments := by
  constructor
  · intro keeps path slots within search
    have ran := Cursor.consume_of_matched (c := ⟨[], path⟩) rfl within search
    rcases keeps ⟨[], path⟩ with rejected | ⟨found, after, taken, moves⟩
    · cases advanced : Cursor.advance? ⟨[], path⟩ _ with
      | none => rw [advanced, Option.elim_none] at ran; cases ran.symm.trans rejected
      | some after => rw [advanced, Option.elim_some] at ran; cases ran.symm.trans rejected
    · cases advanced : Cursor.advance? ⟨[], path⟩ _ with
      | none => rw [advanced, Option.elim_none] at ran; cases ran.symm.trans taken
      | some moved =>
          rw [advanced, Option.elim_some] at ran
          cases ran.symm.trans taken
          obtain ⟨text, front, consumed⟩ := moves.moved
          refine ⟨text, after.remaining, front, ?_, moves.boundary⟩
          have count := Cursor.length_of_advance? advanced
          rw [consumed] at count
          simp only [List.nil_append, List.length_cons, List.length_nil] at count
          omega
  · intro ends c
    by_cases within : (Path.window segments c.remaining).1.length ≤ Path.windowLimit
    · cases search : pattern.search? (Path.window segments c.remaining).1
          (Path.window segments c.remaining).2 with
      | none => exact .inl (Cursor.consume_of_none rfl search)
      | some slots =>
          obtain ⟨text, rest, front, same, boundary⟩ := ends _ slots within search
          exact .inr ⟨_, _, Cursor.consume_of_some rfl within search front same,
            ⟨text, front, rfl⟩, boundary⟩
    · exact .inl (Cursor.consume_of_long rfl (Nat.lt_of_not_le within))

/-- The first group of an anchored tree is what the anchor encloses, so it ends segments. -/
lemma Pattern.endsSegments_anchored {body : Node} {last segments : Nat} (distinct : 1 ≤ last)
    (positive : segments ≠ 0) :
    (⟨.anchored body last, last + 1⟩ : Pattern).EndsSegments segments := by
  intro path slots within search
  obtain ⟨behind, whole, ends⟩ := Path.window_append positive path
  obtain ⟨text, more, front, first, boundary⟩ :=
    boundary_of_search?_anchored body last (last + 1) distinct (by omega) search
  obtain ⟨others, rfl⟩ := List.head?_eq_some_iff.mp first
  rw [front, List.append_assoc] at whole
  refine ⟨text, more ++ behind, whole, rfl, ?_⟩
  rcases boundary with slash | ⟨rfl, closed⟩
  · exact .inr (by simp [slash])
  · exact .inl (ends closed)

lemma PathTest.keepsSegments_ofPattern? {source : Bytes} {test : PathTest}
    (contained : Pattern.selfContained source) (h : PathTest.ofPattern? source = some test) :
    test.KeepsSegments := by
  obtain ⟨pattern, compiled, rfl⟩ := Option.map_eq_some_iff.mp h
  obtain ⟨body, last, distinct, rfl⟩ := Pattern.compile?_anchored contained compiled
  exact PathTest.keepsSegments_pattern.mpr
    (Pattern.endsSegments_anchored distinct (Path.span_ne_zero source))

/-! ## Matchers -/

namespace Matcher

/-- A matcher returns true and has moved whole segments, or returns false and has captured and
changed nothing. -/
def KeepsSegments (matcher : Matcher) : Prop :=
  ∀ frame host, ∃ verdict after, (matcher.evaluate frame host).value = (verdict, after) ∧
    ((verdict.ending = .returned true ∧
        frame.request.cursor.MovesSegments after.request.cursor) ∨
      (verdict.ending = .returned false ∧ verdict.found = [] ∧ after = frame))

lemma keepsSegments_path {kind : MatcherKind} {pattern : Bytes} {test : PathTest} :
    KeepsSegments ⟨kind, pattern, .path test⟩ ↔ test.KeepsSegments := by
  constructor
  · intro keeps c
    obtain ⟨verdict, after, value, keeps⟩ := keeps (.initial { cursor := c }) ⟨0, [], []⟩
    cases ran : test.run c with
    | rejected => exact .inl rfl
    | taken found moved =>
        simp only [evaluate, Frame.initial, ran] at value
        cases value
        rcases keeps with ⟨_, moves⟩ | ⟨returned, _⟩
        · exact .inr ⟨found, moved, rfl, moves⟩
        · cases returned
    | overrun found claimed remaining =>
        simp only [evaluate, Frame.initial, ran] at value
        cases value
        rcases keeps with ⟨returned, _⟩ | ⟨returned, _⟩ <;> cases returned
  · intro keeps frame host
    rcases keeps frame.request.cursor with rejected | ⟨found, after, taken, moves⟩
    · exact ⟨⟨.returned false, []⟩, frame, by simp [evaluate, rejected], .inr ⟨rfl, rfl, rfl⟩⟩
    · exact ⟨⟨.returned true, found⟩, frame.moveTo after, by simp [evaluate, taken],
        .inl ⟨rfl, moves⟩⟩

lemma template?_eq_ok {text : Bytes} {test : PathTest} (h : PathTest.ofTemplate? text = some test) :
    template? text = .ok ⟨.template, Template.expand text, .path test⟩ := by
  rw [template?, h]; rfl

lemma keepsSegments_regex? {source : Bytes} {matcher : Matcher} (h : regex? source = .ok matcher) :
    matcher.KeepsSegments := by
  obtain ⟨pattern, alone, h⟩ := Except.bind_eq_ok.mp h
  obtain ⟨test, anchored, h⟩ := Except.bind_eq_ok.mp h
  cases h
  have contained := Pattern.selfContained_of_compile? (eq_some_of_orMalformed alone)
  exact keepsSegments_path.mpr
    (PathTest.keepsSegments_ofPattern? contained (eq_some_of_orMalformed anchored))

/-- A template matches its parts, or else its anchored pattern. -/
lemma template?_cases {text : Bytes} {matcher : Matcher} (h : template? text = .ok matcher) :
    ∃ test, matcher = ⟨.template, Template.expand text, .path test⟩ ∧
      ((Template.isPlain text ∧ test = .parts (Template.parts text)) ∨
        (¬ Template.isPlain text ∧ PathTest.ofPattern? (Template.expand text) = some test)) := by
  obtain ⟨test, prepared, h⟩ := Except.bind_eq_ok.mp h
  cases h
  have prepared := eq_some_of_orMalformed prepared
  unfold PathTest.ofTemplate? at prepared
  split at prepared
  · rename_i plain
    exact ⟨test, rfl, .inl ⟨plain, (Option.some.inj prepared).symm⟩⟩
  · rename_i special
    exact ⟨test, rfl, .inr ⟨special, prepared⟩⟩

/-- **Segments stay whole:** a matcher of a segment, or of a pattern that is compiled on its own before
it is anchored, does not fault on any request.  If it passes, it has moved whole segments; if not, it
has done nothing.  A template is compiled only when it is anchored, so for a matcher of a template
the same is true exactly if the template is plain or the first group of its anchored pattern ends
segments; it is true of all templates that are self-contained, as patterns are. -/
theorem segment_boundary (text : Bytes) (matcher : Matcher) :
    anySegment.KeepsSegments ∧
    (regex? text = .ok matcher → matcher.KeepsSegments) ∧
    (template? text = .ok matcher →
      (matcher.KeepsSegments ↔ Template.isPlain text ∨
        ∃ pattern, Pattern.compile? (Path.anchored (Template.expand text)) = some pattern ∧
          pattern.EndsSegments (Path.span (Template.expand text))) ∧
      (Pattern.selfContained (Template.expand text) → matcher.KeepsSegments)) := by
  refine ⟨?_, keepsSegments_regex?, fun made => ?_⟩
  · exact keepsSegments_path.mpr (PathTest.keepsSegments_parts _)
  · obtain ⟨test, rfl, ⟨plain, rfl⟩ | ⟨special, prepared⟩⟩ := template?_cases made
    · have keeps := PathTest.keepsSegments_parts (Template.parts text)
      rw [keepsSegments_path]
      exact ⟨⟨fun _ => .inl plain, fun _ => keeps⟩, fun _ => keeps⟩
    · rw [keepsSegments_path]
      refine ⟨?_, fun contained => PathTest.keepsSegments_ofPattern? contained prepared⟩
      obtain ⟨pattern, compiled, rfl⟩ := Option.map_eq_some_iff.mp prepared
      rw [PathTest.keepsSegments_pattern]
      constructor
      · intro ends
        exact .inr ⟨pattern, compiled, ends⟩
      · rintro (plain | ⟨other, compiled', ends⟩)
        · exact absurd plain special
        · cases compiled.symm.trans compiled'
          exact ends

/-- A template with a group in the middle of a part, and the same text as a pattern. -/
theorem segment_boundary_of_group :
    (∃ matcher, template? (ascii "v(\\d+)") = .ok matcher ∧ matcher.KeepsSegments) ∧
    ∃ matcher, regex? (ascii "v(\\d+)") = .ok matcher ∧ matcher.KeepsSegments := by
  constructor
  · have made : (PathTest.ofTemplate? (ascii "v(\\d+)")).isSome := by decide +kernel
    obtain ⟨test, made⟩ := Option.isSome_iff_exists.mp made
    have prepared := template?_eq_ok made
    exact ⟨_, prepared, ((segment_boundary _ _).2.2 prepared).2 (by decide +kernel)⟩
  · cases made : regex? (ascii "v(\\d+)") with
    | ok matcher => exact ⟨matcher, rfl, (segment_boundary _ _).2.1 made⟩
    | error fault =>
        have compiles : (regex? (ascii "v(\\d+)")).isOk := by decide +kernel
        rw [made] at compiles
        cases compiles

/-- A template whose matcher, on some path, neither rejects nor moves whole segments. -/
lemma not_keepsSegments_of_run {text : Bytes} {c : Cursor} {outcome : Consumption}
    (run : (PathTest.ofTemplate? text).map (·.run c) = some outcome) (rejects : outcome ≠ .rejected)
    (breaks : ∀ found after, outcome = .taken found after → ¬ c.MovesSegments after) :
    ∃ matcher, template? text = .ok matcher ∧ ¬ matcher.KeepsSegments := by
  obtain ⟨test, made, rfl⟩ := Option.map_eq_some_iff.mp run
  refine ⟨_, template?_eq_ok made, fun keeps => ?_⟩
  rcases keepsSegments_path.mp keeps c with rejected | ⟨found, after, taken, moves⟩
  · exact rejects rejected
  · exact breaks found after taken moves

/-- Where a parenthesis of the template closes that of the anchor, a match can claim more than there
is, and it can end in the middle of a segment. -/
theorem not_segment_boundary_of_template :
    (∃ matcher, template? (ascii ")|(.*") = .ok matcher ∧ ¬ matcher.KeepsSegments) ∧
    ∃ matcher, template? (ascii "a)|(b") = .ok matcher ∧ ¬ matcher.KeepsSegments := by
  have overruns : (PathTest.ofTemplate? (ascii ")|(.*")).map (·.run (.atStart []))
      = some (.overrun [[]] 1 0) := by decide +kernel
  have splits : (PathTest.ofTemplate? (ascii "a)|(b")).map (·.run (.atStart (ascii "/ab")))
      = some (.taken [[]] ⟨ascii "/a", ascii "b"⟩) := by decide +kernel
  refine ⟨not_keepsSegments_of_run overruns (by simp) (by simp), ?_⟩
  refine not_keepsSegments_of_run splits (by simp) fun found after same moves => ?_
  cases same
  rcases moves.boundary with done | slash
  · exact absurd done (by decide)
  · exact absurd slash (by decide)

end Matcher

end ClauseRouter
