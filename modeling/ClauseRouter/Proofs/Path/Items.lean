import ClauseRouter.Proofs.Pattern.Nesting
import ClauseRouter.Path.Template

/-!
# The items of a template

A template becomes the text of a pattern by its placeholders only.  If nothing else in it is special to
patterns, the pattern is a row of **items**, each of them one byte that stands for itself or a group for
one segment.

* `Template.itemsFrom` — the items of a template; `Template.expandFrom_eq` — the text of the pattern, item
  by item.
* `Template.isOrdinary` — no byte of a template is special to patterns.
* `Template.scan_items`, `Template.run_items` — the tokens of items, and what the parser makes of them.
* `Template.compile?_items` — the anchored pattern of items.  All that can stand in its way is the limit
  on the weight of a pattern.
-/

namespace ClauseRouter

open Pattern

namespace Template

/-- An item of the pattern of a template: a byte that stands for itself, or a segment. -/
inductive Item where
  | byte (b : UInt8)
  | segment
  deriving DecidableEq, Repr

/-- The bytes that are special to patterns, outside of brackets. -/
def operators : Bytes := ascii "\\^$.|?*+()[]\x7b\x7d"

/-- Nothing in a template is special to patterns, so all that is no placeholder stands for itself. -/
def isOrdinary (template : Bytes) : Bool := template.all fun b => !operators.contains b

/-- The bytes of words are not special. -/
lemma not_operator_of_isWordByte {b : UInt8} (word : Bytes.isWordByte b) :
    (!operators.contains b) = true := by
  have none_word : ∀ b ∈ operators, Bytes.isWordByte b = false := by decide +kernel
  rw [Bool.not_eq_true', List.contains_eq_mem, decide_eq_false_iff_not]
  intro mem
  rw [none_word b mem] at word
  cases word

namespace Item

def source : Item → Bytes
  | byte b => [b]
  | segment => segmentPattern

/-- Bytes that stand for themselves are not special. -/
def isOrdinary : Item → Bool
  | byte b => !operators.contains b
  | segment => true

def tokens : Item → List Token
  | byte b => [.one (.single b)]
  | segment => [.opening .capture, .bracketOpening true, .bracketByte Byte.slash, .bracketClosing,
      .quantifier .plus true, .closing]

/-- The number of groups in an item, which is also that of its loops. -/
def groups : Item → Nat
  | byte _ => 0
  | segment => 1

def weight : Item → Nat
  | byte _ => 1
  | segment => 5

def segmentByte : ByteSet := ⟨true, [.byte Byte.slash]⟩

/-- The tree of a segment: as many bytes as there are up to a slash, but one at least. -/
def segmentNode : Node := .seq .empty (.loop true true (.one segmentByte))

/-- The tree of an item whose group, if it has one, takes a given slot. -/
def node (slot : Nat) : Item → Node
  | byte b => .one (.single b)
  | segment => .group slot segmentNode

lemma loops_node (slot : Nat) (item : Item) : (item.node slot).loops = item.groups := by
  cases item <;> rfl

end Item

/-! ## Text -/

/-- The items of a template, read from its inside on: in the middle of a name, word bytes belong to the
placeholder. -/
def itemsFrom (inName : Bool) : Bytes → List Item
  | [] => []
  | b :: rest =>
    if inName && Bytes.isWordByte b then itemsFrom true rest
    else if b == Byte.colon && rest.head?.any Bytes.isWordByte then .segment :: itemsFrom true rest
    else .byte b :: itemsFrom false rest

/-- **The text of a template** is that of its items. -/
lemma expandFrom_eq (inName : Bool) (template : Bytes) :
    expandFrom inName template = (itemsFrom inName template).flatMap Item.source := by
  induction template generalizing inName with
  | nil => rfl
  | cons b rest ih =>
      rw [expandFrom, itemsFrom]
      split
      · exact ih true
      · split
        · rw [ih true]
          rfl
        · rw [ih false]
          rfl

lemma isOrdinary_itemsFrom {template : Bytes} (ordinary : isOrdinary template) (inName : Bool) :
    ∀ item ∈ itemsFrom inName template, item.isOrdinary := by
  induction template generalizing inName with
  | nil => simp [itemsFrom]
  | cons b rest ih =>
      obtain ⟨first, others⟩ := (Bool.and_eq_true _ _).mp (List.all_cons.symm.trans ordinary)
      rw [itemsFrom]
      split
      · exact ih others true
      · split
        · exact List.forall_mem_cons.mpr ⟨rfl, ih others true⟩
        · exact List.forall_mem_cons.mpr ⟨first, ih others false⟩

lemma itemsFrom_literal {text : Bytes} (plain : text.all fun b => !special.contains b)
    (rest : Bytes) :
    itemsFrom false (text ++ rest) = text.map .byte ++ itemsFrom false rest := by
  induction text with
  | nil => rfl
  | cons b text ih =>
      rw [List.all_cons, Bool.and_eq_true] at plain
      have other : b ≠ Byte.colon := by
        rintro rfl
        exact absurd plain.1 (by decide)
      simp [itemsFrom, other, ih plain.2]

lemma itemsFrom_name {name : Bytes} (word : name.all Bytes.isWordByte) (rest : Bytes) :
    itemsFrom true (name ++ rest) = itemsFrom true rest := by
  induction name with
  | nil => rfl
  | cons b name ih =>
      rw [List.all_cons, Bool.and_eq_true] at word
      simp [itemsFrom, word.1, ih word.2]

/-- Behind a name its placeholder makes no difference. -/
lemma itemsFrom_of_ends {rest : Bytes} (ends : ∀ b, rest.head? = some b → ¬ Bytes.isWordByte b)
    (inName : Bool) : itemsFrom inName rest = itemsFrom false rest := by
  cases rest with
  | nil => rfl
  | cons b rest => simp [itemsFrom, ends b rfl]

/-- A placeholder is one item, if its name ends where the text goes on. -/
lemma itemsFrom_placeholder {name rest : Bytes} (nonempty : name ≠ [])
    (word : name.all Bytes.isWordByte) (ends : ∀ b, rest.head? = some b → ¬ Bytes.isWordByte b) :
    itemsFrom false (Byte.colon :: name ++ rest) = .segment :: itemsFrom false rest := by
  obtain ⟨b, name, rfl⟩ := List.exists_cons_of_ne_nil nonempty
  have first : Bytes.isWordByte b = true := ((Bool.and_eq_true _ _).mp (List.all_cons.symm.trans word)).1
  have opened : itemsFrom false (Byte.colon :: (b :: name ++ rest))
      = .segment :: itemsFrom true (b :: name ++ rest) := by
    rw [itemsFrom]
    simp [first]
  rw [List.cons_append, opened, itemsFrom_name word, itemsFrom_of_ends ends]

/-! ## Tokens -/

/-- A byte that is not special is a token of its own. -/
lemma plainStep_of_not_operator {b : UInt8} (ordinary : (!operators.contains b) = true) :
    Token.Mode.plainStep b = ([.one (.single b)], .plain) := by
  unfold Token.Mode.plainStep
  split
  all_goals first
    | rfl
    | exact absurd ordinary (by decide)

/-- The tokens of a group for one segment, up to its quantifier. -/
lemma scanFrom_segmentGroup (rest : Bytes) :
    Token.scanFrom .plain (Byte.openParen :: Byte.openBracket :: Byte.caret :: Byte.slash ::
        Byte.closeBracket :: Byte.plus :: rest)
      = (Token.scanFrom (.repeated .plus) rest).map ([.opening .capture, .bracketOpening true,
          .bracketByte Byte.slash, .bracketClosing] ++ ·) := by
  have paren : Token.Mode.step .plain Byte.openParen = some ([], .paren) := rfl
  have opening : Token.Mode.step .paren Byte.openBracket
      = some ([.opening .capture], .bracketStart) := rfl
  have negated : Token.Mode.step .bracketStart Byte.caret
      = some ([.bracketOpening true], .bracket) := rfl
  have slash : Token.Mode.step .bracket Byte.slash
      = some ([.bracketByte Byte.slash], .bracket) := rfl
  have closed : Token.Mode.step .bracket Byte.closeBracket
      = some ([.bracketClosing], .plain) := rfl
  have plus : Token.Mode.step .plain Byte.plus = some ([], .repeated .plus) := rfl
  simp only [Token.scanFrom_cons paren, Token.scanFrom_cons opening, Token.scanFrom_cons negated,
    Token.scanFrom_cons slash, Token.scanFrom_cons closed, Token.scanFrom_cons plus, Option.map_map]
  rfl

/-- The tokens of an item, with whatever comes behind it. -/
lemma scanFrom_item {item : Item} (ordinary : item.isOrdinary) (rest : Bytes) :
    Token.scanFrom .plain (item.source ++ rest)
      = (Token.scanFrom .plain rest).map (item.tokens ++ ·) := by
  cases item with
  | byte b =>
      have step : Token.Mode.step .plain b = some ([.one (.single b)], .plain) :=
        congrArg some (plainStep_of_not_operator ordinary)
      exact Token.scanFrom_cons step rest
  | segment =>
      have text : segmentPattern = [Byte.openParen, Byte.openBracket, Byte.caret, Byte.slash,
          Byte.closeBracket, Byte.plus, Byte.closeParen] := by decide
      have closing : Token.Mode.step (.repeated .plus) Byte.closeParen
          = some ([.quantifier .plus true, .closing], .plain) := rfl
      rw [Item.source, text]
      simp only [List.cons_append, List.nil_append, scanFrom_segmentGroup, Token.scanFrom_cons closing,
        Option.map_map]
      rfl

/-- The tokens of items, with whatever comes behind them. -/
lemma scanFrom_items {items : List Item} (ordinary : ∀ item ∈ items, item.isOrdinary) (rest : Bytes) :
    Token.scanFrom .plain (items.flatMap Item.source ++ rest)
      = (Token.scanFrom .plain rest).map (items.flatMap Item.tokens ++ ·) := by
  induction items with
  | nil => simp
  | cons item items ih =>
      obtain ⟨first, others⟩ := List.forall_mem_cons.mp ordinary
      rw [List.flatMap_cons, List.append_assoc, scanFrom_item first, ih others, Option.map_map]
      simp [Function.comp_def]

/-- **The tokens of a template** are those of its items. -/
lemma scan_items {items : List Item} (ordinary : ∀ item ∈ items, item.isOrdinary) :
    Token.scan (items.flatMap Item.source) = some (items.flatMap Item.tokens) := by
  have scanned := scanFrom_items ordinary []
  rw [List.append_nil] at scanned
  rw [Token.scan, scanned]
  simp [Token.scanFrom, Token.Mode.finish]

lemma head_items {items : List Item} (ordinary : ∀ item ∈ items, item.isOrdinary) :
    (items.flatMap Item.source).head? ≠ some Byte.question := by
  cases items with
  | nil => simp
  | cons item items =>
      cases item with
      | byte b =>
          have own := ordinary (.byte b) (by simp)
          rintro first
          cases first
          exact absurd own (by decide)
      | segment =>
          have text : segmentPattern.head? = some Byte.openParen := by decide
          rw [List.flatMap_cons, Item.source, List.head?_append, text, Option.some_or]
          decide

/-! ## The tree -/

/-- The items of a template behind a tree, the groups taking the slots from `slot` on. -/
def nodeFrom (slot : Nat) (before : Node) : List Item → Node
  | [] => before
  | item :: items => nodeFrom (slot + item.groups) (.seq before (item.node slot)) items

def take (parser : Parser) (item : Item) : Parser :=
  { parser.addAtom ⟨item.node parser.groups, item.weight⟩ item.weight with
    groups := parser.groups + item.groups }

lemma run_item {parser : Parser} (bracket : parser.bracket = none) (item : Item) :
    parser.run item.tokens = some (take parser item) := by
  obtain ⟨_, level, outer, groups, built⟩ := parser
  cases bracket
  cases item <;> rfl

lemma run_items {items : List Item} {parser : Parser} (bracket : parser.bracket = none) :
    parser.run (items.flatMap Item.tokens) = some (items.foldl take parser) := by
  induction items generalizing parser with
  | nil => rfl
  | cons item items ih =>
      rw [Parser.run, List.flatMap_cons, List.foldlM_append, ← Parser.run, run_item bracket]
      exact ih bracket

def itemsWeight : List Item → Nat
  | [] => 0
  | item :: items => item.weight + itemsWeight items

def itemsGroups : List Item → Nat
  | [] => 0
  | item :: items => item.groups + itemsGroups items

/-- What items add to a parser between two bars. -/
lemma foldl_take (items : List Item) (parser : Parser) :
    let behind := items.foldl take parser
    behind.bracket = parser.bracket ∧ behind.outer = parser.outer ∧
      behind.level.enclosure = parser.level.enclosure ∧
      behind.level.alternatives = parser.level.alternatives ∧
      behind.groups = parser.groups + itemsGroups items ∧
      behind.built = parser.built + itemsWeight items ∧
      behind.level.sequence.node = nodeFrom parser.groups parser.level.sequence.node items := by
  induction items generalizing parser with
  | nil => exact ⟨rfl, rfl, rfl, rfl, rfl, rfl, rfl⟩
  | cons item items ih =>
      obtain ⟨bracket, outer, enclosure, alternatives, groups, built, node⟩ := ih (take parser item)
      refine ⟨bracket, outer, enclosure, alternatives, ?_, ?_, node⟩
      · rw [List.foldl_cons, groups]
        simp [take, itemsGroups, Nat.add_assoc]
      · rw [List.foldl_cons, built]
        simp [take, Parser.addAtom, itemsWeight, Nat.add_assoc]

/-- The anchored pattern of items: all of them are in the first group, and every segment is a group in
it. -/
def itemsPattern (items : List Item) : Pattern :=
  let last := itemsGroups items + 1
  ⟨.anchored (nodeFrom 1 .empty items) last, last + 1⟩

/-- **Compiling the pattern of a template** in which nothing but its placeholders is special. -/
lemma compile?_items {items : List Item} (ordinary : ∀ item ∈ items, item.isOrdinary) :
    compile? (Path.anchored (items.flatMap Item.source))
      = if itemsWeight items + 17 ≤ Parser.weightLimit then some (itemsPattern items) else none := by
  rw [compile?_anchored_eq (scan_items ordinary) (head_items ordinary), run_items rfl,
    Option.bind_some]
  obtain ⟨bracket, outer, enclosure, alternatives, groups, built, tree⟩ :=
    foldl_take items Parser.anchored
  have disjunction : (List.foldl take Parser.anchored items).level.disjunction.node
      = nodeFrom 1 .empty items := by
    rw [Level.disjunction, alternatives]
    exact tree
  have total : (List.foldl take Parser.anchored items).built
      + (List.foldl take Parser.anchored items).level.disjunctionWeight
      + Parser.anchorWeight = itemsWeight items + 17 := by
    rw [built, Level.disjunctionWeight, alternatives]
    simp [Parser.anchored, Parser.anchorWeight, Level.opened]
    omega
  -- what the anchors close is the level that they have opened
  rw [Parser.finish?_of_anchorClosing bracket enclosure outer, total, disjunction, groups,
    Nat.add_comm Parser.anchored.groups]
  rfl

end Template

end ClauseRouter
