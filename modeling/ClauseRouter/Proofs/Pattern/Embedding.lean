import ClauseRouter.Proofs.Pattern.Nesting

/-!
# A pattern inside its anchor

The anchor of a pattern is a group around it, so inside the anchor every group of the pattern has the next
higher number.  A back-reference is not told: it means the group that has its number there, and that is
the one before the group that it means in the pattern alone.

* `Token.lowered`, `Node.shifted` — the numbers of back-references one less, and of all slots one more.
* `Parser.embedded` — the parser of the anchored pattern, at a token of the pattern.
* `Parser.Rooted.run_embedded` — inside the anchor a pattern is read as it is alone, but for its
  back-references.
* `compile?_anchored_eq_shifted` — so its tree is the shifted one of the pattern with back-references
  lowered.
-/

namespace ClauseRouter.Pattern

/-- The token with the number of a back-reference one less. -/
def Token.lowered : Token → Token
  | reference number => reference (number - 1)
  | token => token

lemma Token.depth?_lowered (token : Token) (depth : Nat) :
    token.lowered.depth? depth = token.depth? depth := by
  cases token <;> rfl

lemma Token.foldlM_depth?_lowered (tokens : List Token) (depth : Nat) :
    (tokens.map lowered).foldlM depth? depth = tokens.foldlM depth? depth := by
  induction tokens generalizing depth with
  | nil => rfl
  | cons token tokens ih => simp only [List.map_cons, List.foldlM_cons, depth?_lowered, ih]

/-- Whether a token is a back-reference. -/
def Token.isReference : Token → Bool
  | reference _ => true
  | _ => false

lemma Token.map_lowered {tokens : List Token} (plain : ∀ token ∈ tokens, token.isReference = false) :
    tokens.map lowered = tokens := by
  refine (List.map_congr_left fun token mem => ?_).trans (List.map_id tokens)
  cases token with
  | reference number => cases plain _ mem
  | _ => rfl

/-- The tree with every slot one further on. -/
def Node.shifted : Node → Node
  | empty => empty
  | one set => one set
  | group slot body => group (slot + 1) body.shifted
  | seq first second => seq first.shifted second.shifted
  | either left right => either left.shifted right.shifted
  | loop required greedy body => loop required greedy body.shifted
  | optional greedy body => optional greedy body.shifted
  | interval least extra greedy body => interval least extra greedy body.shifted
  | reference slot => reference (slot + 1)
  | check assertion => check assertion
  | lookahead negated body => lookahead negated body.shifted

@[simp] lemma Node.loops_shifted (node : Node) : node.shifted.loops = node.loops := by
  induction node with
  | seq first second ih ih' => simp only [shifted, loops, ih, ih']
  | either left right ih ih' => simp only [shifted, loops, ih, ih']
  | group slot body ih => simp only [shifted, loops, ih]
  | loop required greedy body ih => simp only [shifted, loops, ih]
  | optional greedy body ih => simp only [shifted, loops, ih]
  | interval least extra greedy body ih => simp only [shifted, loops, ih]
  | lookahead negated body ih => simp only [shifted, loops, ih]
  | _ => rfl

/-! ## Pieces and levels -/

/-- The piece with every slot one further on. -/
def Piece.shifted (piece : Piece) : Piece := ⟨piece.node.shifted, piece.weight⟩

lemma Piece.shifted_repeated (piece : Piece) (greedy : Bool) (repetition : Repetition) :
    (piece.repeated greedy repetition).shifted = piece.shifted.repeated greedy repetition := by
  cases repetition <;> rfl

lemma Piece.addedWeight_shifted (piece : Piece) (greedy : Bool) (repetition : Repetition) :
    piece.shifted.addedWeight greedy repetition = piece.addedWeight greedy repetition := by
  cases repetition <;> rfl

/-- What opens a level inside an anchor: the group of the anchor is the first. -/
def Enclosure.embedded : Enclosure → Enclosure
  | whole => capture 0
  | capture slot => capture (slot + 1)
  | plain => plain
  | lookahead negated => lookahead negated

namespace Level

/-- A level inside an anchor. -/
def embedded (level : Level) : Level where
  enclosure := level.enclosure.embedded
  alternatives := level.alternatives.map Piece.shifted
  terms := level.terms.shifted
  last := level.last.map Piece.shifted

variable (level : Level)

lemma sequence_embedded : level.embedded.sequence = level.sequence.shifted := by
  obtain ⟨enclosure, alternatives, terms, last⟩ := level
  cases last <;> rfl

lemma disjunction_embedded : level.embedded.disjunction = level.disjunction.shifted := by
  have sequence := level.sequence_embedded
  obtain ⟨enclosure, alternatives, terms, last⟩ := level
  cases alternatives with
  | none => simp only [disjunction, sequence]; rfl
  | some left => simp only [disjunction, sequence]; rfl

lemma disjunctionWeight_embedded : level.embedded.disjunctionWeight = level.disjunctionWeight := by
  simp only [disjunctionWeight, embedded, Option.isSome_map]

lemma pushAtom_embedded (atom : Piece) :
    level.embedded.pushAtom atom.shifted = (level.pushAtom atom).embedded := by
  simp only [pushAtom, sequence_embedded]
  rfl

lemma pushAssertion_embedded (assertion : Piece) :
    level.embedded.pushAssertion assertion.shifted = (level.pushAssertion assertion).embedded := by
  simp only [pushAssertion, sequence_embedded]
  rfl

end Level

/-! ## The parser -/

/-- There are no back-references inside brackets. -/
lemma Bracket.step_lowered (bracket : Bracket) (token : Token) :
    bracket.step token.lowered = bracket.step token := by
  obtain ⟨_, _, trail⟩ := bracket
  cases token with
  | reference number => cases trail <;> rfl
  | _ => rfl

namespace Parser

/-- The parser inside an anchor, where it is as far as the parser of the pattern alone. -/
def embedded (parser : Parser) : Parser where
  bracket := parser.bracket
  level := parser.level.embedded
  outer := parser.outer.map Level.embedded ++ [anchorLevel]
  groups := parser.groups + 1
  built := parser.built + 2

lemma embedded_initial : initial.embedded = anchored := rfl

/-- What has opened the levels of a parser, from the inside out. -/
def enclosures (parser : Parser) : List Enclosure :=
  (parser.level :: parser.outer).map Level.enclosure

/-- The pattern as a whole is the outermost level, and nothing else is. -/
def Rooted (parser : Parser) : Prop :=
  ∃ inner, parser.enclosures = inner ++ [.whole] ∧ .whole ∉ inner

lemma rooted_initial : initial.Rooted := ⟨[], rfl, List.not_mem_nil⟩

variable {parser next : Parser}

lemma Rooted.enclosure_eq_whole_iff (rooted : parser.Rooted) :
    parser.level.enclosure = .whole ↔ parser.outer = [] := by
  obtain ⟨inner, levels, others⟩ := rooted
  cases inner with
  | nil =>
      obtain ⟨innermost, outer⟩ := List.cons.inj levels
      exact ⟨fun _ => List.map_eq_nil_iff.mp outer, fun _ => innermost⟩
  | cons enclosure inner =>
      obtain ⟨rfl, outer⟩ := List.cons.inj levels
      refine ⟨fun whole => absurd (whole ▸ List.mem_cons_self) others, fun closed => ?_⟩
      rw [closed] at outer
      cases inner <;> cases outer

lemma enclosure_ne_of_opening {kind : GroupKind} (stepped : parser.step (.opening kind) = some next) :
    next.level.enclosure ≠ .whole := by
  unfold step at stepped
  split at stepped
  · cases stepped
    cases kind <;> exact fun same => by cases same
  · rename_i same
    cases same
  · rename_i bracket _ _
    obtain ⟨_, impossible, _⟩ := Option.map_eq_some_iff.mp stepped
    cases Bracket.depth?_of_step impossible 0

lemma Rooted.step (rooted : parser.Rooted) {token : Token} (stepped : parser.step token = some next) :
    next.Rooted := by
  obtain ⟨inner, levels, others⟩ := rooted
  cases (effect_of_step stepped).1 with
  | opens outer =>
      refine ⟨next.level.enclosure :: inner, ?_, ?_⟩
      · rw [enclosures, outer, List.map_cons, List.cons_append, ← levels, enclosures]
      · exact List.not_mem_cons_of_ne_of_not_mem (enclosure_ne_of_opening stepped).symm others
  | closes outer enclosure =>
      have below : parser.enclosures = parser.level.enclosure :: next.enclosures := by
        rw [enclosures, outer, enclosures, List.map_cons, List.map_cons, List.map_cons, enclosure]
      rw [below] at levels
      cases inner with
      | nil => cases (List.cons.inj levels).2
      | cons innermost inner =>
          exact ⟨inner, (List.cons.inj levels).2, fun mem => others (List.mem_cons_of_mem _ mem)⟩
  | stays _ outer enclosure =>
      refine ⟨inner, ?_, others⟩
      rw [← levels, enclosures, enclosures, outer, List.map_cons, List.map_cons, enclosure]

lemma Rooted.run {tokens : List Token} (rooted : parser.Rooted) (ran : parser.run tokens = some next) :
    next.Rooted := by
  induction tokens generalizing parser with
  | nil => cases ran; exact rooted
  | cons token tokens ih =>
      obtain ⟨between, stepped, ran⟩ := Option.bind_eq_some_iff.mp ran
      exact ih (rooted.step stepped) ran

lemma mem_openSlots {slot : Nat} :
    slot ∈ parser.openSlots ↔
      ∃ level ∈ parser.level :: parser.outer, level.enclosure = .capture slot := by
  rw [openSlots, List.mem_filterMap]
  refine exists_congr fun level => and_congr_right fun _ => ?_
  cases level.enclosure <;> simp

/-- The group of the anchor is open as long as the pattern is read, -/
lemma Rooted.zero_mem_openSlots (rooted : parser.Rooted) : 0 ∈ parser.embedded.openSlots := by
  obtain ⟨inner, levels, _⟩ := rooted
  have there : .whole ∈ parser.enclosures := levels ▸ List.mem_append_right _ (.head _)
  obtain ⟨root, there, whole⟩ := List.mem_map.mp there
  refine mem_openSlots.mpr ⟨root.embedded, ?_, congrArg Enclosure.embedded whole⟩
  exact List.mem_append_left [anchorLevel] (List.mem_map_of_mem there)

/-- and the others that are open are those of the pattern. -/
lemma succ_mem_openSlots {slot : Nat} :
    slot + 1 ∈ parser.embedded.openSlots ↔ slot ∈ parser.openSlots := by
  have inside (level : Level) :
      level.embedded.enclosure = .capture (slot + 1) ↔ level.enclosure = .capture slot := by
    rw [Level.embedded]
    cases level.enclosure <;> simp [Enclosure.embedded]
  rw [mem_openSlots, mem_openSlots]
  constructor
  · rintro ⟨level, there, captures⟩
    rcases List.mem_append.mp (show level ∈ (parser.level :: parser.outer).map Level.embedded
      ++ [anchorLevel] from there) with own | anchor
    · obtain ⟨alone, open', rfl⟩ := List.mem_map.mp own
      exact ⟨alone, open', (inside alone).mp captures⟩
    · rw [List.mem_singleton.mp anchor] at captures
      cases captures
  · rintro ⟨level, there, captures⟩
    exact ⟨level.embedded, List.mem_append_left [anchorLevel] (List.mem_map_of_mem there),
      (inside level).mpr captures⟩

/-- **A back-reference inside an anchor** means the group before the one that it means alone. -/
lemma Rooted.slotOf?_embedded (rooted : parser.Rooted) (number : Nat) :
    parser.embedded.slotOf? number = (parser.slotOf? (number - 1)).map (· + 1) := by
  have groups : parser.embedded.groups = parser.groups + 1 := rfl
  match number with
  | 0 => rfl
  | 1 => simp [slotOf?, rooted.zero_mem_openSlots]
  | number + 2 => simp [slotOf?, succ_mem_openSlots, groups]

/-! ## One token inside an anchor -/

lemma addAtom_embedded (atom : Piece) (weight : Nat) :
    parser.embedded.addAtom atom.shifted weight = (parser.addAtom atom weight).embedded := by
  simp only [addAtom, embedded, Level.pushAtom_embedded, Nat.add_right_comm]

lemma addAssertion_embedded (assertion : Piece) (weight : Nat) :
    parser.embedded.addAssertion assertion.shifted weight
      = (parser.addAssertion assertion weight).embedded := by
  simp only [addAssertion, embedded, Level.pushAssertion_embedded, Nat.add_right_comm]

lemma addCheck_embedded (assertion : Assertion) :
    parser.embedded.addCheck assertion = (parser.addCheck assertion).embedded :=
  addAssertion_embedded ⟨.check assertion, 1⟩ 1

lemma openGroup_embedded (kind : GroupKind) :
    parser.embedded.openGroup kind = (parser.openGroup kind).embedded := by
  cases kind <;> rfl

lemma nextAlternative_embedded :
    parser.embedded.nextAlternative = parser.nextAlternative.embedded := by
  simp only [nextAlternative, embedded, Level.disjunction_embedded, Level.disjunctionWeight_embedded,
    Nat.add_right_comm]
  rfl

lemma quantify?_embedded (repetition : Repetition) (greedy : Bool) :
    parser.embedded.quantify? repetition greedy
      = (parser.quantify? repetition greedy).map embedded := by
  obtain ⟨bracket, ⟨enclosure, alternatives, terms, last⟩, outer, groups, built⟩ := parser
  cases last with
  | none => rfl
  | some last =>
      simp only [quantify?, embedded, Level.embedded, Option.map_some, Piece.shifted_repeated,
        Piece.addedWeight_shifted, Nat.add_right_comm]

/-- A parenthesis of the pattern closes inside the anchor as it does alone. -/
lemma Rooted.close?_embedded (rooted : parser.Rooted) (inside : parser.outer ≠ []) :
    parser.embedded.close? = parser.close?.map embedded := by
  obtain ⟨below, outer, levels⟩ := List.exists_cons_of_ne_nil inside
  have around : parser.embedded.outer = below.embedded :: (outer.map Level.embedded ++ [anchorLevel]) := by
    rw [embedded, levels]
    rfl
  have beneath : (⟨parser.embedded.bracket, below.embedded, outer.map Level.embedded ++ [anchorLevel],
        parser.embedded.groups, parser.embedded.built + parser.level.disjunctionWeight⟩ : Parser)
      = embedded ⟨parser.bracket, below, outer, parser.groups,
          parser.built + parser.level.disjunctionWeight⟩ := by
    simp only [embedded, Nat.add_right_comm]
  have innermost : parser.embedded.level = parser.level.embedded := rfl
  have enclosure : parser.level.embedded.enclosure = parser.level.enclosure.embedded := rfl
  simp only [close?, levels, around, innermost, enclosure, Level.disjunction_embedded,
    Level.disjunctionWeight_embedded, beneath]
  cases opened : parser.level.enclosure with
  | whole => exact absurd (rooted.enclosure_eq_whole_iff.mp opened) inside
  | capture slot =>
      simp only [Enclosure.embedded, Option.map_some, ← addAtom_embedded]
      rfl
  | plain =>
      simp only [Enclosure.embedded, Option.map_some, ← addAtom_embedded]
      rfl
  | lookahead negated =>
      simp only [Enclosure.embedded, Option.map_some, ← addAssertion_embedded]
      rfl

/-- **A token inside the anchor** does what it does alone, with the number of a back-reference lowered. -/
lemma Rooted.step_embedded (rooted : parser.Rooted) {token : Token}
    (inside : token = .closing → parser.outer ≠ []) :
    parser.embedded.step token = (parser.step token.lowered).map embedded := by
  unfold Parser.step
  cases bracket : parser.bracket with
  | some reading =>
      have bracket' : parser.embedded.bracket = some reading := bracket
      have inBracket : ((reading.step token).map fun reading =>
            ({ parser.embedded with bracket := some reading } : Parser))
          = ((reading.step token.lowered).map fun reading =>
              ({ parser with bracket := some reading } : Parser)).map embedded := by
        rw [Bracket.step_lowered, Option.map_map]
        rfl
      cases token with
      | bracketClosing =>
          simp only [bracket']
          exact congrArg some
            (@addAtom_embedded { parser with bracket := none } ⟨.one reading.close, 1⟩ 1)
      | _ => simpa only [bracket', Token.lowered] using inBracket
  | none =>
      have bracket' : parser.embedded.bracket = none := bracket
      simp only [bracket']
      cases token with
      | one set => exact congrArg some (addAtom_embedded ⟨.one set, 1⟩ 1)
      | reference number =>
          simp only [Token.lowered, stepOutside, rooted.slotOf?_embedded, Option.map_map]
          congr 1
          funext slot
          exact addAtom_embedded ⟨.reference slot, 1⟩ 1
      | start | finish | boundary | noBoundary => exact congrArg some (addCheck_embedded _)
      | bar => exact congrArg some nextAlternative_embedded
      | opening kind => exact congrArg some (openGroup_embedded kind)
      | closing => exact rooted.close?_embedded (inside rfl)
      | quantifier repetition greedy => exact quantify?_embedded repetition greedy
      | bracketOpening negated => rfl
      | bracketByte _ | bracketCollating _ | bracketItem _ | bracketDash | bracketClosing => rfl

/-! ## A pattern inside an anchor -/

/-- **Inside the anchor a pattern is read as it is alone,** but for its back-references. -/
lemma Rooted.run_embedded {tokens : List Token} {last : Nat} (rooted : parser.Rooted)
    (counted : tokens.foldlM Token.depth? parser.outer.length = some last) :
    parser.embedded.run tokens = (parser.run (tokens.map Token.lowered)).map embedded := by
  induction tokens generalizing parser with
  | nil => rfl
  | cons token tokens ih =>
      obtain ⟨depth, counting, counted⟩ := Option.bind_eq_some_iff.mp counted
      have inside : token = .closing → parser.outer ≠ [] := by
        rintro rfl closed
        rw [closed] at counting
        cases counting
      rw [Parser.run, List.foldlM_cons, rooted.step_embedded inside, List.map_cons, Parser.run,
        List.foldlM_cons]
      cases stepped : parser.step token.lowered with
      | none => rfl
      | some next =>
          have same := depth?_of_step stepped
          rw [Token.depth?_lowered, counting] at same
          cases same
          exact ih (rooted.step stepped) counted

end Parser

/-- The weight that a pattern gets in its anchor: that of the anchor, and of the group. -/
def anchorRoom : Nat := Parser.anchorWeight + 2

/-- The pattern between the anchors, whose group has the first slot. -/
def enclosed (pattern : Pattern) : Pattern :=
  ⟨.anchored pattern.node.shifted (pattern.groups + 1), pattern.groups + 2⟩

/-- What the tokens behind an anchored pattern make of it, if it ends where it would end alone. -/
lemma Parser.finish?_embedded {parser : Parser} (whole : parser.level.enclosure = .whole)
    (closed : parser.outer = []) :
    ((parser.embedded.run Token.anchorClosing).bind fun closed =>
        closed.finish?.bind fun node => some (⟨node, closed.groups⟩ : Pattern))
      = parser.finish?.bind fun node =>
          if parser.built + parser.level.disjunctionWeight + anchorRoom ≤ weightLimit then
            some (enclosed ⟨node, parser.groups⟩)
          else none := by
  cases reading : parser.bracket with
  | some bracket =>
      have unfinished : parser.finish? = none := by rw [finish?, reading]
      have stuck : parser.embedded.step .closing = none := by
        have bracket' : parser.embedded.bracket = some bracket := reading
        have impossible : bracket.step .closing = none := by
          obtain ⟨_, _, trail⟩ := bracket
          cases trail <;> rfl
        simp only [step, bracket', impossible, Option.map_none]
      rw [unfinished, run, Token.anchorClosing, List.foldlM_cons, stuck]
      rfl
  | none =>
      have enclosure : parser.embedded.level.enclosure = .capture 0 := congrArg Enclosure.embedded whole
      have outer : parser.embedded.outer = [anchorLevel] := by rw [embedded, closed]; rfl
      have bracket' : parser.embedded.bracket = none := reading
      have room : parser.embedded.built + parser.embedded.level.disjunctionWeight + anchorWeight
          = parser.built + parser.level.disjunctionWeight + anchorRoom := by
        have weight : parser.embedded.level.disjunctionWeight = parser.level.disjunctionWeight :=
          parser.level.disjunctionWeight_embedded
        have built : parser.embedded.built = parser.built + 2 := rfl
        rw [weight, built, anchorRoom]
        omega
      have tree : parser.embedded.level.disjunction = parser.level.disjunction.shifted :=
        parser.level.disjunction_embedded
      rw [finish?_of_anchorClosing bracket' enclosure outer, room, tree, finish?, reading, closed]
      by_cases fits : parser.built + parser.level.disjunctionWeight ≤ weightLimit
      · simp only [if_pos fits, Option.bind_some]
        rfl
      · have heavier : ¬ parser.built + parser.level.disjunctionWeight + anchorRoom ≤ weightLimit :=
          fun light => fits (Nat.le_trans (Nat.le_add_right _ _) light)
        simp only [if_neg fits, if_neg heavier, Option.bind_none]

/-- The pattern of a list of tokens, with its weight. -/
def weighed? (tokens : List Token) : Option (Pattern × Nat) := do
  let parser ← Parser.initial.run tokens
  let node ← parser.finish?
  return (⟨node, parser.groups⟩, parser.built + parser.level.disjunctionWeight)

lemma compile?_eq_weighed? {source : Bytes} {tokens : List Token}
    (scanned : Token.scan source = some tokens) :
    compile? source = (weighed? tokens).map Prod.fst := by
  simp only [compile?, scanned, weighed?, Option.bind_eq_bind, Option.bind_some, Option.map_bind,
    Option.map_some, Option.pure_def, Function.comp_def]

/-- **The pattern of an anchored text** is the one of the text with back-references lowered, between the
anchors, unless it is too heavy for that. -/
lemma compile?_anchored_eq_shifted {source : Bytes} {tokens : List Token}
    (scanned : Token.scan source = some tokens) (first : source.head? ≠ some Byte.question)
    (balanced : Token.balanced tokens) :
    compile? (Path.anchored source) = (weighed? (tokens.map Token.lowered)).bind fun built =>
      if built.2 + anchorRoom ≤ Parser.weightLimit then some built.1.enclosed else none := by
  have counted := beq_iff_eq.mp balanced
  rw [compile?_anchored_eq scanned first, ← Parser.embedded_initial,
    Parser.rooted_initial.run_embedded counted, weighed?]
  cases ran : Parser.initial.run (tokens.map Token.lowered) with
  | none => rfl
  | some parser =>
      have closed : parser.outer = [] := by
        have still := Parser.depth?_of_run ran
        rw [Token.foldlM_depth?_lowered] at still
        exact List.length_eq_zero_iff.mp (Option.some.inj (still.symm.trans counted))
      have whole := (Parser.rooted_initial.run ran).enclosure_eq_whole_iff.mpr closed
      simp only [Option.map_some, Option.bind_some, Parser.finish?_embedded whole closed,
        Option.bind_eq_bind, Option.bind_assoc, Option.pure_def]

end ClauseRouter.Pattern
