import ClauseRouter.Proofs.Path.Instance
import ClauseRouter.Proofs.Path.PlainMatch

/-!
# Templates accept their instances

A matcher of a template whose text is ordinary passes exactly if the path begins with an instance of the
template.  What it captures are values that make up the instance, and what it moves is the instance.

* `PathTest.starts_of_taken`, `PathTest.taken_of_starts` — the two halves of the rule.
* `Matcher.accepts_instances` — the rule for matchers.

Where placeholders share a segment, there can be more than one choice of their values; a pattern captures
the values of one of them.  In a plain template there is no choice.
-/

namespace ClauseRouter

open Pattern (compile?)

open Template

namespace Template

lemma parts_ne_nil (template : Bytes) : parts template ≠ [] := fun empty =>
  List.splitOn_ne_nil Byte.slash template (List.map_eq_nil_iff.mp empty)

/-- The slashes among items are in their text, too. -/
lemma count_slash_le (items : List Item) :
    items.count (.byte Byte.slash) ≤ (items.flatMap Item.source).count Byte.slash := by
  induction items with
  | nil => exact Nat.le_refl 0
  | cons item items ih =>
      rw [List.flatMap_cons, List.count_append]
      cases item with
      | byte b => by_cases slash : b = Byte.slash <;> simp [Item.source, slash] <;> omega
      | segment => simp; omega

/-- So a pattern spans more segments than there are slashes in what it matches. -/
lemma count_slash_lt_span (template : Bytes) :
    (itemsFrom false template).count (.byte Byte.slash) < Path.span (expand template) := by
  rw [Path.span, expand, expandFrom_eq]
  exact Nat.lt_one_add_iff.mpr (count_slash_le _)

/-- The pattern of an ordinary template, if it is light enough. -/
lemma compile?_ordinary {template : Bytes} (ordinary : isOrdinary template) :
    compile? (Path.anchored (expand template))
      = if itemsWeight (itemsFrom false template) + 17 ≤ Pattern.Parser.weightLimit then
          some (itemsPattern (itemsFrom false template))
        else none := by
  rw [expand, expandFrom_eq]
  exact compile?_items (isOrdinary_itemsFrom ordinary false)

end Template

/-- **What the test of an ordinary template takes is an instance.** -/
lemma PathTest.starts_of_taken {template : Bytes} (ordinary : isOrdinary template) {test : PathTest}
    (made : ofTemplate? template = some test) {c after : Cursor} {found : Captures}
    (taken : test.run c = .taken found after) :
    ∃ rest, Starts template found c.remaining rest ∧ after = c.past template found rest := by
  rw [← Cursor.movesItems_iff]
  unfold ofTemplate? at made
  split at made
  · rename_i plain
    cases made
    rw [itemsFrom_eq plain]
    exact (Cursor.consumeParts_iff (parts_ne_nil template) fun _ => not_mem_of_literal plain).mp taken
  · obtain ⟨pattern, compiled, rfl⟩ := Option.map_eq_some_iff.mp made
    rw [compile?_ordinary ordinary] at compiled
    split at compiled
    · cases compiled
      exact Cursor.movesItems_of_consume (Path.span_ne_zero _) taken
    · cases compiled

/-- **The test of an ordinary template takes something where there is an instance.**  What fits in a window
is light enough to be compiled. -/
lemma PathTest.taken_of_starts {template : Bytes} (ordinary : isOrdinary template) {c : Cursor}
    {values : Captures} {rest : Bytes} (starts : Starts template values c.remaining rest)
    (within : isPlain template ∨
      (Path.window (Path.span (expand template)) c.remaining).1.length ≤ Path.windowLimit) :
    ∃ test found after, ofTemplate? template = some test ∧ test.run c = .taken found after ∧
      (isPlain template → found = values) := by
  have moves := Cursor.movesItems_iff.mpr ⟨rest, starts, rfl⟩
  by_cases plain : isPlain template
  · rw [itemsFrom_eq plain] at moves
    have taken := (Cursor.consumeParts_iff (parts_ne_nil template) fun _ => not_mem_of_literal plain).mpr
      moves
    exact ⟨.parts (Template.parts template), values, _, if_pos plain, taken, fun _ => rfl⟩
  · have wide := count_slash_lt_span template
    have within := within.resolve_left plain
    -- an item weighs at most five for every byte of its text, which is within the window
    have light : itemsWeight (itemsFrom false template) + 17 ≤ Pattern.Parser.weightLimit := by
      have weight := moves.itemsWeight_le wide within
      rw [Path.windowLimit] at weight
      rw [Pattern.Parser.weightLimit]
      omega
    obtain ⟨found, after, taken⟩ := Cursor.consume_of_movesItems moves wide within
    refine ⟨.pattern _ (Path.span (expand template)), found, after, ?_, taken,
      fun isPlain => absurd isPlain plain⟩
    rw [ofTemplate?, if_neg plain, ofPattern?, compile?_ordinary ordinary, if_pos light]
    rfl

namespace Matcher

/-- A matcher of paths that passes has captured and moved what its test has taken. -/
lemma run_of_evaluate {kind : MatcherKind} {pattern : Bytes} {test : PathTest} {frame after : Frame}
    {host : Host} {verdict : Verdict}
    (evaluated : (evaluate ⟨kind, pattern, .path test⟩ frame host).value = (verdict, after))
    (passed : verdict.ending = .returned true) :
    test.run frame.request.cursor = .taken verdict.found after.request.cursor := by
  cases ran : test.run frame.request.cursor with
  | rejected =>
      simp only [evaluate, ran] at evaluated
      cases evaluated
      cases passed
  | taken found moved =>
      simp only [evaluate, ran] at evaluated
      cases evaluated
      rfl
  | overrun found claimed remaining =>
      simp only [evaluate, ran] at evaluated
      cases evaluated
      cases passed

/-- **Templates accept exactly their instances.**  Take a template in which nothing but its placeholders
is special.

A matcher of it that passes has captured a value for each placeholder, none of them empty or with a slash
in it, and has moved the template with these values, up to the end of a segment.

If a path begins with the template with any such values, up to the end of a segment, then there is a
matcher of the template, and it passes, unless the template is not plain and the window too long to be
searched.  If the template is plain, these values are what it captures. -/
theorem accepts_instances {template : Bytes} (ordinary : isOrdinary template) (frame : Frame)
    (host : Host) :
    (∀ matcher verdict after, template? template = .ok matcher →
      (matcher.evaluate frame host).value = (verdict, after) → verdict.ending = .returned true →
        ∃ rest, Starts template verdict.found frame.request.cursor.remaining rest ∧
          after.request.cursor = frame.request.cursor.past template verdict.found rest) ∧
    ∀ values rest, Starts template values frame.request.cursor.remaining rest →
      (isPlain template ∨ (Path.window (Path.span (expand template))
        frame.request.cursor.remaining).1.length ≤ Path.windowLimit) →
      ∃ matcher verdict after, template? template = .ok matcher ∧
        (matcher.evaluate frame host).value = (verdict, after) ∧ verdict.ending = .returned true ∧
        (isPlain template → verdict.found = values) := by
  constructor
  · intro matcher verdict after made evaluated passed
    obtain ⟨test, prepared, h⟩ := Except.bind_eq_ok.mp made
    cases h
    exact PathTest.starts_of_taken ordinary (eq_some_of_orMalformed prepared)
      (run_of_evaluate evaluated passed)
  · intro values rest starts within
    obtain ⟨test, found, after, prepared, taken, exact_values⟩ :=
      PathTest.taken_of_starts ordinary starts within
    refine ⟨_, ⟨.returned true, found⟩, frame.moveTo after, template?_eq_ok prepared, ?_, rfl, exact_values⟩
    simp [evaluate, taken]

/-- Two placeholders that share a segment: there is more than one choice of their values. -/
theorem accepts_instances_of_shared_segment :
    let template := ascii "x:id-:rev"
    let frame := Frame.initial { cursor := .atStart (ascii "/x12-3-4/edit") }
    isOrdinary template ∧
    Starts template [ascii "12", ascii "3-4"] (ascii "/x12-3-4/edit") (ascii "/edit") ∧
    ∃ matcher verdict after, template? template = .ok matcher ∧
      (matcher.evaluate frame ⟨0, [], []⟩).value = (verdict, after) ∧
      verdict.ending = .returned true ∧
      ∃ rest, Starts template verdict.found (ascii "/x12-3-4/edit") rest ∧
        after.request.cursor = (Cursor.atStart (ascii "/x12-3-4/edit")).past template verdict.found rest := by
  intro template frame
  have ordinary : isOrdinary template := by decide +kernel
  have starts : Starts template [ascii "12", ascii "3-4"] (ascii "/x12-3-4/edit") (ascii "/edit") :=
    ⟨by decide +kernel, by decide +kernel, by decide +kernel, by decide +kernel⟩
  have within : (Path.window (Path.span (expand template)) frame.request.cursor.remaining).1.length
      ≤ Path.windowLimit := by decide +kernel
  obtain ⟨sound, complete⟩ := accepts_instances ordinary frame ⟨0, [], []⟩
  obtain ⟨matcher, verdict, after, made, evaluated, passed, _⟩ :=
    complete _ _ starts (.inr within)
  exact ⟨ordinary, starts, matcher, verdict, after, made, evaluated, passed,
    sound matcher verdict after made evaluated passed⟩

/-- The first of them takes as much as it can. -/
example : (PathTest.ofTemplate? (ascii "x:id-:rev")).map (·.run (.atStart (ascii "/x12-3-4/edit")))
    = some (.taken [ascii "12-3", ascii "4"] ⟨ascii "/x12-3-4", ascii "/edit"⟩) := by
  decide +kernel

end Matcher

end ClauseRouter
