import ClauseRouter.Proofs.Pattern.Scan

/-!
# When an anchor encloses its pattern

`Path.anchored` ties a pattern to the front of a path by text alone, so a pattern with a parenthesis
too many can end the group that is to hold it.  A text is **self-contained** if that cannot happen:
its parentheses pair up among themselves, and it does not change the parenthesis in front of it.

* `Pattern.selfContained_of_compile?` — a text that is a pattern of its own is self-contained.
* `Pattern.compile?_anchored` — a self-contained text, anchored, is one group between the slash in
  front and the slash or end behind it: `Node.anchored`.

Both follow the parentheses that the parser has open, `Parser.Effect` saying what one token does to
them.
-/

namespace ClauseRouter.Pattern

/-- The number of open parentheses behind a token, unless it closes one that is not open. -/
def Token.depth? : Nat → Token → Option Nat
  | depth, .opening _ => some (depth + 1)
  | 0, .closing => none
  | depth + 1, .closing => some depth
  | depth, _ => some depth

/-- The parentheses of a list of tokens pair up. -/
def Token.balanced (tokens : List Token) : Bool := tokens.foldlM Token.depth? 0 == some 0

/-- The text can stand in parentheses without changing what they mean. -/
def selfContained (source : Bytes) : Bool :=
  source.head? != some Byte.question && (Token.scan source).any Token.balanced

/-! ## What a token does to the open parentheses -/

lemma Bracket.depth?_of_step {bracket next : Bracket} {token : Token}
    (h : bracket.step token = some next) (n : Nat) : token.depth? n = some n := by
  cases token with
  | opening _ | closing =>
      obtain ⟨_, _, trail⟩ := bracket
      cases trail <;> cases h
  | _ => cases n <;> rfl

namespace Parser

/-- What a token does to the parentheses that are open. -/
inductive Effect (before after : Parser) : Token → Prop
  | opens {kind : GroupKind} (outer : after.outer = before.level :: before.outer) :
      Effect before after (.opening kind)
  | closes {below : Level} (outer : before.outer = below :: after.outer)
      (enclosure : after.level.enclosure = below.enclosure) : Effect before after .closing
  | stays {token : Token} (depth : ∀ n, token.depth? n = some n)
      (outer : after.outer = before.outer)
      (enclosure : after.level.enclosure = before.level.enclosure) : Effect before after token

lemma effect_of_stepOutside {before after : Parser} {token : Token}
    (h : before.stepOutside token = some after) :
    Effect before after token ∧ before.groups ≤ after.groups := by
  cases token with
  | opening kind =>
      cases h
      cases kind <;> exact ⟨.opens rfl, by simp [openGroup, openLevel]⟩
  | closing =>
      simp only [stepOutside, close?] at h
      split at h
      · cases h
      · rename_i below outer hout
        split at h
        · cases h
        all_goals
          cases h
          exact ⟨.closes hout rfl, Nat.le_refl _⟩
  | reference number =>
      obtain ⟨slot, _, rfl⟩ := Option.map_eq_some_iff.mp h
      exact ⟨.stays (fun n => by cases n <;> rfl) rfl rfl, Nat.le_refl _⟩
  | quantifier repetition greedy =>
      obtain ⟨piece, _, rfl⟩ := Option.map_eq_some_iff.mp h
      exact ⟨.stays (fun n => by cases n <;> rfl) rfl rfl, Nat.le_refl _⟩
  | one _ | start | finish | boundary | noBoundary | bar | bracketOpening _ =>
      cases h
      exact ⟨.stays (fun n => by cases n <;> rfl) rfl rfl, Nat.le_refl _⟩
  | bracketByte _ | bracketCollating _ | bracketItem _ | bracketDash | bracketClosing => cases h

lemma effect_of_step {before after : Parser} {token : Token}
    (h : before.step token = some after) :
    Effect before after token ∧ before.groups ≤ after.groups := by
  unfold step at h
  split at h
  · exact effect_of_stepOutside h
  · cases h
    exact ⟨.stays (fun n => by cases n <;> rfl) rfl rfl, Nat.le_refl _⟩
  · obtain ⟨next, stepped, rfl⟩ := Option.map_eq_some_iff.mp h
    exact ⟨.stays (Bracket.depth?_of_step stepped) rfl rfl, Nat.le_refl _⟩

/-- A token keeps count of the open parentheses, -/
lemma depth?_of_step {before after : Parser} {token : Token} (h : before.step token = some after) :
    token.depth? before.outer.length = some after.outer.length := by
  cases (effect_of_step h).1 with
  | opens outer => rw [outer]; rfl
  | closes outer _ => rw [outer]; rfl
  | stays depth outer _ => rw [depth, outer]

/-- and so does a run. -/
lemma depth?_of_run {tokens : List Token} {before after : Parser}
    (h : before.run tokens = some after) :
    tokens.foldlM Token.depth? before.outer.length = some after.outer.length := by
  induction tokens generalizing before with
  | nil => cases h; rfl
  | cons token tokens ih =>
      obtain ⟨next, stepped, h⟩ := Option.bind_eq_some_iff.mp h
      rw [List.foldlM_cons, depth?_of_step stepped]
      exact ih h

lemma groups_le_of_run {tokens : List Token} {before after : Parser}
    (h : before.run tokens = some after) : before.groups ≤ after.groups := by
  induction tokens generalizing before with
  | nil => cases h; exact Nat.le_refl _
  | cons token tokens ih =>
      obtain ⟨next, stepped, h⟩ := Option.bind_eq_some_iff.mp h
      exact Nat.le_trans (effect_of_step stepped).2 (ih h)

/-- `depth` parentheses are open inside the one that opened a level, and the levels around that
one are given. -/
def Enclosed (enclosure : Enclosure) (around : List Level) (depth : Nat) (parser : Parser) : Prop :=
  ∃ inner level, parser.level :: parser.outer = inner ++ level :: around ∧
    inner.length = depth ∧ level.enclosure = enclosure

lemma Enclosed.step {enclosure : Enclosure} {around : List Level} {depth next : Nat}
    {before after : Parser} {token : Token} (h : before.Enclosed enclosure around depth)
    (stepped : before.step token = some after) (counted : token.depth? depth = some next) :
    after.Enclosed enclosure around next := by
  obtain ⟨inner, level, levels, rfl, rfl⟩ := h
  cases (effect_of_step stepped).1 with
  | opens outer =>
      cases counted
      exact ⟨after.level :: inner, level, by rw [outer, levels, List.cons_append], rfl, rfl⟩
  | closes outer same =>
      -- a parenthesis inside is open, so it is that one which closes
      cases inner with
      | nil => simp [Token.depth?] at counted
      | cons innermost inner =>
          cases counted
          rw [List.cons_append, List.cons.injEq, outer] at levels
          cases inner with
          | nil =>
              obtain ⟨rfl, rfl⟩ := List.cons.inj levels.2
              exact ⟨[], after.level, rfl, rfl, same⟩
          | cons below inner =>
              rw [List.cons_append, List.cons.injEq] at levels
              exact ⟨after.level :: inner, level, by rw [levels.2.2]; rfl, rfl, rfl⟩
  | stays count outer same =>
      rw [count, Option.some.injEq] at counted
      cases inner with
      | nil =>
          obtain ⟨rfl, rfl⟩ := List.cons.inj levels
          exact ⟨[], after.level, by rw [outer]; rfl, counted, same⟩
      | cons innermost inner =>
          rw [List.cons_append, List.cons.injEq] at levels
          exact ⟨after.level :: inner, level, by rw [outer, levels.2]; rfl, counted, rfl⟩

lemma Enclosed.run {enclosure : Enclosure} {around : List Level} {tokens : List Token}
    {depth last : Nat} {before after : Parser} (h : before.Enclosed enclosure around depth)
    (ran : before.run tokens = some after)
    (counted : tokens.foldlM Token.depth? depth = some last) :
    after.Enclosed enclosure around last := by
  induction tokens generalizing before depth with
  | nil => cases ran; cases counted; exact h
  | cons token tokens ih =>
      obtain ⟨next, stepped, ran⟩ := Option.bind_eq_some_iff.mp ran
      obtain ⟨depth', counting, counted⟩ := Option.bind_eq_some_iff.mp counted
      exact ih (h.step stepped counting) ran counted

end Parser

/-! ## Patterns of their own -/

lemma Token.head_of_scanFrom_repeated {repetition : Repetition} {source : Bytes}
    {tokens : List Token} (h : scanFrom (.repeated repetition) source = some tokens) :
    ∃ greedy more, tokens = .quantifier repetition greedy :: more := by
  cases source with
  | nil => cases h; exact ⟨true, [], rfl⟩
  | cons b source =>
      by_cases question : b = Byte.question
      · have step : Mode.step (.repeated repetition) b
            = some ([.quantifier repetition false], .plain) := by simp [Mode.step, question]
        rw [scanFrom_cons step, Option.map_eq_some_iff] at h
        obtain ⟨more, _, rfl⟩ := h
        exact ⟨false, more, rfl⟩
      · have step : Mode.step (.repeated repetition) b
            = some (Mode.emit (.quantifier repetition true) (Mode.plainStep b)) := by
          simp [Mode.step, question]
        rw [scanFrom_cons step, Option.map_eq_some_iff] at h
        obtain ⟨more, _, rfl⟩ := h
        exact ⟨true, _, rfl⟩

/-- **A text that is a pattern of its own is self-contained.** -/
lemma selfContained_of_compile? {source : Bytes} {pattern : Pattern}
    (h : compile? source = some pattern) : selfContained source = true := by
  obtain ⟨tokens, scanned, h⟩ := Option.bind_eq_some_iff.mp h
  obtain ⟨parser, ran, h⟩ := Option.bind_eq_some_iff.mp h
  obtain ⟨node, finished, _⟩ := Option.bind_eq_some_iff.mp h
  have closed : parser.outer = [] := by
    unfold Parser.finish? at finished
    split at finished
    · assumption
    · cases finished
  have counted := Parser.depth?_of_run ran
  rw [closed] at counted
  have first : source.head? ≠ some Byte.question := by
    -- the first token would be a quantifier, with nothing in front of it to repeat
    intro first
    obtain ⟨rest, rfl⟩ := List.head?_eq_some_iff.mp first
    have begun : Token.Mode.step .plain Byte.question = some ([], .repeated .question) := rfl
    rw [Token.scan, Token.scanFrom_cons begun, Option.map_eq_some_iff] at scanned
    obtain ⟨tokens, scanned, rfl⟩ := scanned
    obtain ⟨greedy, more, rfl⟩ := Token.head_of_scanFrom_repeated scanned
    cases ran
  have balanced : Token.balanced tokens = true := beq_iff_eq.mpr counted
  simp [selfContained, scanned, balanced, first]

/-! ## The tree of an anchored pattern -/

def Node.separator (slot : Nat) : Node :=
  .group slot (.either (.seq .empty (.one (.single Byte.slash))) (.seq .empty (.check .finish)))

/-- The tree of an anchored pattern: the start, a slash, what is anchored as the first group, and a
separator as the last one. -/
def Node.anchored (body : Node) (last : Nat) : Node :=
  .seq (.seq (.seq (.seq .empty (.check .start)) (.one (.single Byte.slash))) (.group 0 body))
    (.separator last)

lemma Level.disjunctionWeight_pushAtom (level : Level) (atom : Piece) :
    (level.pushAtom atom).disjunctionWeight = level.disjunctionWeight := rfl

namespace Parser

/-- The level below the group of an anchored pattern. -/
def anchorLevel : Level :=
  ⟨.whole, none, .append .empty ⟨.check .start, 1⟩, some ⟨.one (.single Byte.slash), 1⟩⟩

def anchored : Parser := ⟨none, .opened (.capture 0), [anchorLevel], 1, 5⟩

/-- The weight that the anchors add to what stands between them. -/
def anchorWeight : Nat := 11

/-- What the tokens behind an anchored pattern make of it. -/
lemma finish?_of_anchorClosing {parser : Parser} (bracket : parser.bracket = none)
    (enclosure : parser.level.enclosure = .capture 0) (outer : parser.outer = [anchorLevel]) :
    ((parser.run Token.anchorClosing).bind fun closed =>
        closed.finish?.bind fun node => some (⟨node, closed.groups⟩ : Pattern))
      = if parser.built + parser.level.disjunctionWeight + anchorWeight ≤ weightLimit then
          some ⟨.anchored parser.level.disjunction.node parser.groups, parser.groups + 1⟩
        else none := by
  obtain ⟨_, ⟨_, alternatives, terms, last⟩, _, groups, built⟩ := parser
  cases bracket; cases enclosure; cases outer
  generalize inside : (⟨.capture 0, alternatives, terms, last⟩ : Level) = level
  have closed : run ⟨none, level, [anchorLevel], groups, built⟩ Token.anchorClosing
      = some ⟨none, (anchorLevel.pushAtom ⟨.group 0 level.disjunction.node,
          level.disjunction.weight + 2⟩).pushAtom ⟨.separator groups, 8⟩, [], groups + 1,
          built + level.disjunctionWeight + 2 + 0 + 1 + 1 + 1 + 3 + 2⟩ := by
    rw [← inside]; rfl
  rw [closed]
  have total : built + level.disjunctionWeight + 2 + 0 + 1 + 1 + 1 + 3 + 2 + 1
      = built + level.disjunctionWeight + anchorWeight := by unfold anchorWeight; omega
  have unbarred : anchorLevel.disjunctionWeight = 1 := rfl
  simp only [Option.bind_some, finish?, Level.disjunctionWeight_pushAtom, unbarred, total]
  split <;> rfl

end Parser

/-- Compiling an anchored pattern: its tokens are read inside the parenthesis of the anchor, and
then the anchor is closed. -/
lemma compile?_anchored_eq {source : Bytes} {tokens : List Token}
    (scanned : Token.scan source = some tokens) (first : source.head? ≠ some Byte.question) :
    compile? (Path.anchored source) = (Parser.anchored.run tokens).bind fun parser =>
      (parser.run Token.anchorClosing).bind fun closed =>
        closed.finish?.bind fun node => some ⟨node, closed.groups⟩ := by
  have opened : Parser.initial.run Token.anchorOpening = some Parser.anchored := rfl
  rw [compile?, Token.scan_anchored scanned first]
  show (Parser.initial.run _ >>= _) = _
  rw [Parser.run, List.append_assoc, List.foldlM_append, ← Parser.run, opened]
  show ((List.foldlM _ _ _) >>= _) = _
  rw [List.foldlM_append, Option.bind_eq_bind, Option.bind_eq_bind, Option.bind_assoc]
  rfl

/-- **A self-contained text, anchored, is enclosed:** its pattern is one group between the slash in
front and the separator behind. -/
lemma compile?_anchored {source : Bytes} {pattern : Pattern} (contained : selfContained source)
    (h : compile? (Path.anchored source) = some pattern) :
    ∃ body last, 1 ≤ last ∧ pattern = ⟨.anchored body last, last + 1⟩ := by
  simp only [selfContained, Bool.and_eq_true, bne_iff_ne, Option.any_eq_true] at contained
  obtain ⟨first, tokens, scanned, balanced⟩ := contained
  rw [compile?_anchored_eq scanned first] at h
  obtain ⟨parser, ran, h⟩ := Option.bind_eq_some_iff.mp h
  have enclosed : Parser.anchored.Enclosed (.capture 0) [Parser.anchorLevel] 0 :=
    ⟨[], .opened (.capture 0), rfl, rfl, rfl⟩
  obtain ⟨inner, level, levels, depth, enclosure⟩ := enclosed.run ran (beq_iff_eq.mp balanced)
  obtain rfl := List.length_eq_zero_iff.mp depth
  obtain ⟨rfl, outer⟩ := List.cons.inj levels
  have bracket : parser.bracket = none := by
    -- a parenthesis does not close inside a bracket expression
    obtain ⟨closed, closing, _⟩ := Option.bind_eq_some_iff.mp h
    obtain ⟨next, stepped, _⟩ := Option.bind_eq_some_iff.mp closing
    cases reading : parser.bracket with
    | none => rfl
    | some bracket =>
        unfold Parser.step at stepped
        simp only [reading] at stepped
        obtain ⟨next, stepped, _⟩ := Option.map_eq_some_iff.mp stepped
        have impossible := Bracket.depth?_of_step stepped 0
        cases impossible
  rw [Parser.finish?_of_anchorClosing bracket enclosure outer] at h
  split at h
  · cases h
    exact ⟨_, parser.groups, Parser.groups_le_of_run ran, rfl⟩
  · cases h

end ClauseRouter.Pattern
