import ClauseRouter.Proofs.Pattern.Embedding

/-!
# The slots of a pattern

The slots of a pattern are those of its groups, so a tree that the parser builds has no others.  And it has
no conditions if the text has none.

* `Node.Fits` — a tree without conditions, whose slots are all below a number.
* `Parser.Fits` — what the parser has built so far is made of such trees; a token keeps that
  (`Parser.Fits.step`).
* `fits_of_weighed?` — so the tree of a pattern fits its groups.
-/

namespace ClauseRouter.Pattern

/-- Whether a token asks nothing of the place where it stands. -/
def Token.isFree : Token → Bool
  | start | finish | boundary | noBoundary => false
  | opening (.lookahead _) => false
  | _ => true

lemma Token.isFree_lowered (token : Token) : token.lowered.isFree = token.isFree := by
  cases token <;> rfl

/-- **A tree without conditions,** whose slots are all below a number. -/
def Node.Fits (groups : Nat) : Node → Prop
  | empty => True
  | one _ => True
  | group slot body => slot < groups ∧ body.Fits groups
  | seq first second => first.Fits groups ∧ second.Fits groups
  | either left right => left.Fits groups ∧ right.Fits groups
  | loop _ _ body => body.Fits groups
  | optional _ body => body.Fits groups
  | interval _ _ _ body => body.Fits groups
  | reference slot => slot < groups
  | check _ => False
  | lookahead _ _ => False

variable {groups more : Nat}

lemma Node.Fits.mono {node : Node} (fits : node.Fits groups) (le : groups ≤ more) : node.Fits more := by
  induction node with
  | group slot body ih => exact ⟨Nat.lt_of_lt_of_le fits.1 le, ih fits.2⟩
  | seq first second ih ih' => exact ⟨ih fits.1, ih' fits.2⟩
  | either left right ih ih' => exact ⟨ih fits.1, ih' fits.2⟩
  | loop required greedy body ih => exact ih fits
  | optional greedy body ih => exact ih fits
  | interval least extra greedy body ih => exact ih fits
  | reference slot => exact Nat.lt_of_lt_of_le fits le
  | _ => exact fits

lemma Piece.fits_repeated {piece : Piece} (fits : piece.node.Fits groups) (greedy : Bool)
    (repetition : Repetition) : (piece.repeated greedy repetition).node.Fits groups := by
  cases repetition <;> exact fits

/-- What opens a level of a tree without conditions. -/
def Enclosure.Fits (groups : Nat) : Enclosure → Prop
  | whole => True
  | capture slot => slot < groups
  | plain => True
  | lookahead _ => False

/-- All that has been read of a level fits. -/
structure Level.Fits (groups : Nat) (level : Level) : Prop where
  enclosure : level.enclosure.Fits groups
  alternatives : ∀ piece ∈ level.alternatives, piece.node.Fits groups
  terms : level.terms.node.Fits groups
  last : ∀ piece ∈ level.last, piece.node.Fits groups

namespace Level.Fits

variable {level : Level}

lemma opened {enclosure : Enclosure} (fits : enclosure.Fits groups) :
    (Level.opened enclosure).Fits groups where
  enclosure := fits
  alternatives _ mem := by cases mem
  terms := trivial
  last _ mem := by cases mem

lemma mono (fits : level.Fits groups) (le : groups ≤ more) : level.Fits more where
  enclosure := by
    have own := fits.enclosure
    cases opened : level.enclosure with
    | capture slot => rw [opened] at own; exact Nat.lt_of_lt_of_le own le
    | lookahead negated => rw [opened] at own; exact own
    | whole => trivial
    | plain => trivial
  alternatives piece mem := (fits.alternatives piece mem).mono le
  terms := fits.terms.mono le
  last piece mem := (fits.last piece mem).mono le

lemma sequence (fits : level.Fits groups) : level.sequence.node.Fits groups := by
  unfold Level.sequence
  split
  · exact fits.terms
  · rename_i last found
    exact ⟨fits.terms, fits.last last found⟩

lemma disjunction (fits : level.Fits groups) : level.disjunction.node.Fits groups := by
  unfold Level.disjunction
  split
  · exact fits.sequence
  · rename_i left found
    exact ⟨fits.alternatives left found, fits.sequence⟩

lemma pushAtom (fits : level.Fits groups) {atom : Piece} (own : atom.node.Fits groups) :
    (level.pushAtom atom).Fits groups where
  enclosure := fits.enclosure
  alternatives := fits.alternatives
  terms := fits.sequence
  last _ mem := Option.some.inj mem ▸ own

end Level.Fits

namespace Parser

/-- All that has been read fits the groups that have been opened. -/
def Fits (parser : Parser) : Prop := ∀ level ∈ parser.level :: parser.outer, level.Fits parser.groups

namespace Fits

variable {parser next : Parser}

lemma initial : Parser.initial.Fits := by
  intro level mem
  rw [List.mem_singleton.mp mem]
  exact .opened trivial

lemma level (fits : parser.Fits) : parser.level.Fits parser.groups := fits _ List.mem_cons_self

lemma outer (fits : parser.Fits) {level : Level} (mem : level ∈ parser.outer) :
    level.Fits parser.groups := fits _ (List.mem_cons_of_mem _ mem)

/-- Another innermost level, with the same groups. -/
lemma replace (fits : parser.Fits) {bracket : Option Bracket} {level : Level} {built : Nat}
    (own : level.Fits parser.groups) :
    Parser.Fits ⟨bracket, level, parser.outer, parser.groups, built⟩ := by
  intro other mem
  rcases List.mem_cons.mp mem with rfl | mem
  · exact own
  · exact fits.outer mem

lemma addAtom (fits : parser.Fits) (atom : Piece) (own : atom.node.Fits parser.groups) (weight : Nat) :
    (parser.addAtom atom weight).Fits :=
  fits.replace (fits.level.pushAtom own)

lemma openGroup (fits : parser.Fits) {kind : GroupKind} (free : (Token.opening kind).isFree) :
    (parser.openGroup kind).Fits := by
  intro level mem
  cases kind with
  | capture =>
      rcases List.mem_cons.mp mem with rfl | mem
      · exact .opened (Nat.lt_succ_self _)
      · exact (fits level mem).mono (Nat.le_succ _)
  | plain =>
      rcases List.mem_cons.mp mem with rfl | mem
      · exact .opened trivial
      · exact fits level mem
  | lookahead negated => cases free

lemma close? (fits : parser.Fits) (closed : parser.close? = some next) : next.Fits := by
  let inside := parser.level.disjunction
  have body : inside.node.Fits parser.groups := fits.level.disjunction
  have enclosure := fits.level.enclosure
  unfold Parser.close? at closed
  split at closed
  · cases closed
  · rename_i below outer levels
    have around : Parser.Fits ⟨parser.bracket, below, outer, parser.groups,
        parser.built + parser.level.disjunctionWeight⟩ :=
      fun level mem => fits.outer (levels ▸ mem)
    split at closed
    · cases closed
    · rename_i slot opened
      cases closed
      rw [opened] at enclosure
      exact around.addAtom ⟨.group slot inside.node, inside.weight + 2⟩ ⟨enclosure, body⟩ 2
    · cases closed
      exact around.addAtom ⟨inside.node, inside.weight + 1⟩ body 1
    · rename_i negated opened
      rw [opened] at enclosure
      exact enclosure.elim

lemma slotOf? {number slot : Nat} (found : parser.slotOf? number = some slot) : slot < parser.groups := by
  unfold Parser.slotOf? at found
  split at found
  · rename_i known
    cases found
    simp only [Bool.and_eq_true, decide_eq_true_eq] at known
    omega
  · cases found

lemma stepOutside (fits : parser.Fits) {token : Token} (free : token.isFree)
    (stepped : parser.stepOutside token = some next) : next.Fits := by
  have own := fits.level
  cases token with
  | one set => cases stepped; exact fits.addAtom ⟨.one set, 1⟩ trivial 1
  | reference number =>
      obtain ⟨slot, found, rfl⟩ := Option.map_eq_some_iff.mp stepped
      exact fits.addAtom ⟨.reference slot, 1⟩ (Fits.slotOf? found) 1
  | start | finish | boundary | noBoundary => cases free
  | bar =>
      cases stepped
      exact fits.replace ⟨own.enclosure, fun _ mem => Option.some.inj mem ▸ own.disjunction, trivial,
        fun _ mem => by cases mem⟩
  | opening kind => cases stepped; exact fits.openGroup free
  | closing => exact fits.close? stepped
  | quantifier repetition greedy =>
      obtain ⟨piece, found, rfl⟩ := Option.map_eq_some_iff.mp stepped
      exact fits.replace ⟨own.enclosure, own.alternatives, own.terms, fun _ mem =>
        Option.some.inj mem ▸ Piece.fits_repeated (own.last piece found) greedy repetition⟩
  | bracketOpening negated => cases stepped; exact fits.replace own
  | bracketByte _ | bracketCollating _ | bracketItem _ | bracketDash | bracketClosing => cases stepped

/-- **A token that is no condition** keeps it that way. -/
lemma step (fits : parser.Fits) {token : Token} (free : token.isFree)
    (stepped : parser.step token = some next) : next.Fits := by
  unfold Parser.step at stepped
  split at stepped
  · exact fits.stepOutside free stepped
  · rename_i bracket _
    cases stepped
    have outside : Parser.Fits { parser with bracket := none } := fits.replace fits.level
    exact outside.addAtom ⟨.one bracket.close, 1⟩ trivial 1
  · obtain ⟨reading, _, rfl⟩ := Option.map_eq_some_iff.mp stepped
    exact fits.replace fits.level

lemma run (fits : parser.Fits) {tokens : List Token} (free : ∀ token ∈ tokens, token.isFree)
    (ran : parser.run tokens = some next) : next.Fits := by
  induction tokens generalizing parser with
  | nil => cases ran; exact fits
  | cons token tokens ih =>
      obtain ⟨between, stepped, ran⟩ := Option.bind_eq_some_iff.mp ran
      obtain ⟨first, others⟩ := List.forall_mem_cons.mp free
      exact ih (fits.step first stepped) others ran

end Fits

end Parser

/-- **The tree of a pattern fits its groups,** if the text has no conditions. -/
lemma fits_of_weighed? {tokens : List Token} {pattern : Pattern} {weight : Nat}
    (built : weighed? tokens = some (pattern, weight)) (free : ∀ token ∈ tokens, token.isFree) :
    pattern.node.Fits pattern.groups := by
  obtain ⟨parser, ran, built⟩ := Option.bind_eq_some_iff.mp built
  obtain ⟨node, finished, built⟩ := Option.bind_eq_some_iff.mp built
  cases built
  have fits := (Parser.Fits.initial.run free ran).level.disjunction
  unfold Parser.finish? at finished
  split at finished
  · split at finished
    · cases finished
      exact fits
    · cases finished
  · cases finished

end ClauseRouter.Pattern
