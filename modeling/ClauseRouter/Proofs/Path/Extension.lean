import ClauseRouter.Proofs.Path.PlainMatch
import ClauseRouter.Proofs.Path.Windows

/-!
# File names with an extension

The condition of an extension passes exactly where the path is a file name: one segment, with a stem, a
dot, and the extension behind it.

* `Path.IsFile` — a path is a file name.
* `Pattern.compile?_extension` — the pattern of an extension: a stem, what stands for the extension, and the
  end.
* `Template.explores_file` — matching it goes on behind the file names, whatever the extension is.
* `Pattern.search?_file`, `Cursor.consume_file` — so it finds the file name that the whole path is.
* `Matcher.extension_iff` — hence when the condition passes, and what it leaves.

The stem is matched as short as can be.  That does not show: a file name has one stem only, since there is
no dot in its extension (`Path.stem_unique`).
-/

namespace ClauseRouter

open Pattern Template

/-! ## File names -/

namespace Path

/-- **A path is a file name:** one segment, made of a stem, a dot and an extension. -/
def IsFile (stem extension path : Bytes) : Prop :=
  IsSegment stem ∧ path = Byte.slash :: stem ++ Byte.dot :: extension

/-- The stem is all in front of the last dot. -/
lemma stem_unique {stem stem' extension extension' : Bytes} (undotted : Byte.dot ∉ extension)
    (undotted' : Byte.dot ∉ extension')
    (same : stem ++ Byte.dot :: extension = stem' ++ Byte.dot :: extension') : stem = stem' := by
  -- if one stem were longer, then the other extension would have a dot
  rcases List.append_eq_append_iff.mp same with ⟨more, rfl, rest⟩ | ⟨more, rfl, rest⟩
  · cases more with
    | nil => exact (List.append_nil stem).symm
    | cons b more =>
        rw [(List.cons.inj rest).2] at undotted
        exact absurd (List.mem_append_right more List.mem_cons_self) undotted
  · cases more with
    | nil => exact List.append_nil stem'
    | cons b more =>
        rw [(List.cons.inj rest).2] at undotted'
        exact absurd (List.mem_append_right more List.mem_cons_self) undotted'

end Path

/-! ## The pattern -/

namespace Template

/-- The group of a stem: a segment, as short as can be. -/
def stemGroup : Node := .group 1 (.seq .empty (.loop true false (.one Item.segmentByte)))

/-- The tree of a stem and the dot behind it. -/
def stemNode : Node := .seq (.seq .empty stemGroup) ((Item.byte Byte.dot).node 2)

/-- The pattern of a file name, whose tree up to the end is given: it has one group, the stem. -/
def filePattern (file : Node) : Pattern := ⟨.anchored (.seq file (.check .finish)) 2, 3⟩

/-- The tree of a file name with this extension. -/
def fileNode (extension : Bytes) : Node := nodeFrom 2 stemNode (extension.map .byte)

/-- The tree of a file name with an extension of word bytes. -/
def anyFileNode : Node := .seq stemNode (.loop true true (.one (.ofClass .word)))

/-- The tokens in front of an extension. -/
def stemTokens : List Token :=
  [.opening .capture, .bracketOpening true, .bracketByte Byte.slash, .bracketClosing,
    .quantifier .plus false, .closing, .one (.single Byte.dot)]

lemma scanFrom_stem (rest : Bytes) :
    Token.scanFrom .plain (ascii "([^/]+?)\\." ++ rest)
      = (Token.scanFrom .plain rest).map (stemTokens ++ ·) := by
  have text : ascii "([^/]+?)\\." = [Byte.openParen, Byte.openBracket, Byte.caret, Byte.slash,
      Byte.closeBracket, Byte.plus, Byte.question, Byte.closeParen, Byte.backslash, Byte.dot] := by
    decide
  have shortest : Token.Mode.step (.repeated .plus) Byte.question
      = some ([.quantifier .plus false], .plain) := rfl
  have closing : Token.Mode.step .plain Byte.closeParen = some ([.closing], .plain) := rfl
  have escape : Token.Mode.step .plain Byte.backslash = some ([], .escape false) := rfl
  have dot : Token.Mode.step (.escape false) Byte.dot
      = some ([.one (.single Byte.dot)], .plain) := rfl
  rw [text]
  simp only [List.cons_append, List.nil_append, scanFrom_segmentGroup, Token.scanFrom_cons shortest,
    Token.scanFrom_cons closing, Token.scanFrom_cons escape, Token.scanFrom_cons dot, Option.map_map]
  rfl

variable {extension : Bytes}

lemma source_bytes (text : Bytes) : (text.map Item.byte).flatMap Item.source = text := by
  induction text with
  | nil => rfl
  | cons b text ih => exact congrArg (b :: ·) ih

/-- The tokens of the pattern of an extension. -/
lemma scan_extension (word : ∀ b ∈ extension, Bytes.isWordByte b) :
    Token.scan (Matcher.extensionPattern extension)
      = some (stemTokens ++ (extension.map Item.byte).flatMap Item.tokens ++ [.finish]) := by
  have ordinary : ∀ item ∈ extension.map Item.byte, item.isOrdinary := by
    intro item mem
    obtain ⟨b, inside, rfl⟩ := List.mem_map.mp mem
    exact not_operator_of_isWordByte (word b inside)
  have ending : Token.scanFrom .plain (ascii "$") = some [.finish] := by decide
  have items := scanFrom_items ordinary (ascii "$")
  rw [source_bytes, ending] at items
  rw [Token.scan, Matcher.extensionPattern, List.append_assoc, scanFrom_stem, items]
  rfl

/-- The parser behind the tokens of a stem, inside of the anchor. -/
def stemParser : Parser :=
  take { Parser.anchored.addAtom ⟨stemGroup, 5⟩ 5 with groups := 2 } (.byte Byte.dot)

lemma run_stemTokens : Parser.anchored.run stemTokens = some stemParser := rfl

lemma itemsGroups_bytes (text : Bytes) : itemsGroups (text.map .byte) = 0 := by
  induction text with
  | nil => rfl
  | cons b text ih => rw [List.map_cons, itemsGroups, ih]; rfl

lemma itemsWeight_bytes (text : Bytes) : itemsWeight (text.map .byte) = text.length := by
  induction text with
  | nil => rfl
  | cons b text ih => rw [List.map_cons, itemsWeight, ih, List.length_cons, Nat.add_comm]; rfl

/-- What the end of the path and the anchors make of a file name. -/
lemma finish?_checked {parser : Parser} (bracket : parser.bracket = none)
    (enclosure : parser.level.enclosure = .capture 0) (outer : parser.outer = [Parser.anchorLevel])
    (alternatives : parser.level.alternatives = none) :
    ((parser.run [.finish]).bind fun checked => (checked.run Token.anchorClosing).bind fun closed =>
        closed.finish?.bind fun node => some (⟨node, closed.groups⟩ : Pattern))
      = if parser.built + 2 + Parser.anchorWeight ≤ Parser.weightLimit then
          some ⟨.anchored (.seq parser.level.sequence.node (.check .finish)) parser.groups,
            parser.groups + 1⟩
        else none := by
  obtain ⟨_, ⟨_, _, terms, last⟩, _, groups, built⟩ := parser
  cases bracket; cases enclosure; cases outer; cases alternatives
  let parser : Parser := ⟨none, ⟨.capture 0, none, terms, last⟩, [Parser.anchorLevel], groups, built⟩
  exact @Parser.finish?_of_anchorClosing (parser.addCheck .finish) rfl rfl rfl

/-- The weight of the pattern of an extension, without the extension. -/
def fileWeight : Nat := 24

/-- **Compiling the pattern of an extension.** -/
lemma compile?_extension (word : ∀ b ∈ extension, Bytes.isWordByte b) :
    compile? (Path.anchored (Matcher.extensionPattern extension))
      = if extension.length + fileWeight ≤ Parser.weightLimit then some (filePattern (fileNode extension))
        else none := by
  have first : (Matcher.extensionPattern extension).head? ≠ some Byte.question := by
    have opened : (ascii "([^/]+?)\\.").head? = some Byte.openParen := by decide
    rw [Matcher.extensionPattern, List.append_assoc, List.head?_append, opened, Option.some_or]
    decide
  have items : stemParser.run ((extension.map Item.byte).flatMap Item.tokens)
      = some ((extension.map Item.byte).foldl take stemParser) := run_items rfl
  obtain ⟨bracket, outer, enclosure, alternatives, groups, built, tree⟩ :=
    foldl_take (extension.map Item.byte) stemParser
  rw [itemsGroups_bytes] at groups
  rw [itemsWeight_bytes] at built
  have ran : Parser.anchored.run (stemTokens ++ (extension.map Item.byte).flatMap Item.tokens ++ [.finish])
      = ((extension.map Item.byte).foldl take stemParser).run [.finish] := by
    rw [Parser.run, List.foldlM_append, List.foldlM_append, ← Parser.run, run_stemTokens]
    show (stemParser.run _ >>= _) = _
    rw [items]
    rfl
  have total : ((extension.map Item.byte).foldl take stemParser).built + 2 + Parser.anchorWeight
      = extension.length + fileWeight := by
    have before : stemParser.built = 11 := rfl
    rw [built, before, Parser.anchorWeight, fileWeight]
    omega
  rw [compile?_anchored_eq (scan_extension word) first, ran,
    finish?_checked bracket enclosure outer alternatives, total, groups, tree]
  rfl

lemma compile?_anyExtension :
    compile? (Path.anchored (Matcher.extensionPattern Matcher.anyExtension))
      = some (filePattern anyFileNode) := by
  decide +kernel

/-! ## Matching a file name -/

variable (attempt : Attempt) (base : Nat) (Accepts : Bytes → Prop)

/-- A place behind a file name, whose extension is one of those that are accepted. -/
def ReachesFile (s later : State) : Prop :=
  ∃ stem extension, Path.IsSegment stem ∧ Accepts extension ∧
    stem ++ Byte.dot :: extension <+: s.rest ∧
    later = behind s 1 [stem] (stem ++ Byte.dot :: extension)

lemma run_stemNode (next : Next) :
    stemNode.run attempt base next
      = stemGroup.run attempt base (((Item.byte Byte.dot).node 2).run attempt (base + 1) next) := by
  have loops : (Node.seq .empty stemGroup).loops = 1 := rfl
  rw [stemNode, Node.run, loops, Node.run, Node.run, Node.loops]
  rfl

lemma fills_stem {values : Captures} {text : Bytes} :
    Fills [.segment, .byte Byte.dot] values text ↔
      ∃ stem, Path.IsSegment stem ∧ values = [stem] ∧ text = stem ++ [Byte.dot] := by
  constructor
  · rintro ⟨⟩
    rename_i stem values text proper rest
    obtain ⟨rfl, rfl⟩ := fills_byte.mp rest
    exact ⟨stem, proper, rfl, rfl⟩
  · rintro ⟨stem, proper, rfl, rfl⟩
    exact .segment proper (.byte .nil)

lemma advance_behind (s : State) (slot : Nat) (found : Captures) (text more : Bytes) :
    (behind s slot found text).advance more = behind s slot found (text ++ more) := by
  rw [behind, State.advance_withSlots, ← State.advance_append]
  rfl

/-- A stem and a dot, and behind them the places of an extension. -/
lemma explores_stem {tail : Next → Next} (inner : Explores tail fun s later =>
      ∃ extension, Accepts extension ∧ extension <+: s.rest ∧ later = s.advance extension) :
    Explores (fun next => stemNode.run attempt base (tail next)) (ReachesFile Accepts) := by
  have stem : Explores (stemNode.run attempt base) (Reaches [.segment, .byte Byte.dot] 1) := by
    have both := (explores_segmentGroup attempt false 1 base).comp
      (explores_byte attempt Byte.dot 2 (base + 1))
    have same : stemNode.run attempt base = _ := funext fun next => run_stemNode attempt base next
    rw [same]
    exact both.congr fun s later => reaches_cons.symm
  refine (stem.comp inner).congr fun s later => ?_
  constructor
  · rintro ⟨_, ⟨values, text, made, ⟨left, front⟩, rfl⟩, extension, accepted, ⟨left', front'⟩, rfl⟩
    obtain ⟨value, proper, rfl, rfl⟩ := fills_stem.mp made
    rw [rest_behind, ← front, List.drop_left] at front'
    refine ⟨value, extension, proper, accepted, ⟨left', ?_⟩, ?_⟩
    · rw [← front, ← front', List.append_cons, List.append_assoc]
    · rw [advance_behind, ← List.append_cons]
  · rintro ⟨value, extension, proper, accepted, ⟨left, front⟩, rfl⟩
    rw [List.append_cons, List.append_assoc] at front
    refine ⟨_, ⟨[value], _, fills_stem.mpr ⟨value, proper, rfl, rfl⟩, ⟨_, front⟩, rfl⟩, extension,
      accepted, ⟨left, ?_⟩, ?_⟩
    · rw [rest_behind, ← front, List.drop_left]
    · rw [advance_behind, ← List.append_cons]

/-- The tree of one extension goes on behind it. -/
lemma explores_fileNode (extension : Bytes) :
    Explores ((fileNode extension).run attempt base) (ReachesFile (· = extension)) := by
  have tail : Explores (fun next => runItems attempt next 2 (base + stemNode.loops) (extension.map .byte))
      fun s later => ∃ text, text = extension ∧ text <+: s.rest ∧ later = s.advance text := by
    refine (explores_runItems attempt (extension.map .byte) 2 _).congr fun s later => ?_
    constructor
    · rintro ⟨values, text, made, front, rfl⟩
      obtain ⟨rfl, rfl⟩ := fills_literal.mp made
      exact ⟨_, rfl, front, behind_nil s 2 _⟩
    · rintro ⟨_, rfl, front, rfl⟩
      exact ⟨[], _, fills_literal.mpr ⟨rfl, rfl⟩, front, (behind_nil s 2 _).symm⟩
  have same : (fileNode extension).run attempt base = _ :=
    funext fun next => run_nodeFrom attempt base next (extension.map .byte) 2 stemNode
  rw [same]
  exact explores_stem attempt base (· = extension) tail

/-- One or more bytes of words. -/
def IsWordText (text : Bytes) : Prop := text ≠ [] ∧ ∀ b ∈ text, Bytes.isWordByte b

/-- The tree of any extension goes on behind all that are made of word bytes. -/
lemma explores_anyFileNode : Explores (anyFileNode.run attempt base) (ReachesFile IsWordText) := by
  have contains (b : UInt8) : (ByteSet.ofClass .word).contains b = Bytes.isWordByte b := by
    simp [ByteSet.ofClass, ByteSet.contains, ByteSet.Item.contains, CharClass.contains]
  refine explores_stem attempt base IsWordText
    ((Explores.loop_one (.ofClass .word) attempt true (base + stemNode.loops)).congr fun s later => ?_)
  simp only [contains, IsWordText, and_assoc]

end Template

/-! ## Searching a file name -/

namespace Pattern

variable {file : Node} {Accepts : Bytes → Prop} {openEnd : Bool}

/-- The search of a file name is one run of its tree, behind the slash in front. -/
lemma search?_filePattern (rest : Bytes) :
    (filePattern file).search? (Byte.slash :: rest) openEnd
      = (file.run ⟨0, false, openEnd⟩ 0 ((Node.check .finish).run ⟨0, false, openEnd⟩ file.loops
          (finish [.segment] openEnd file.loops (startAt [.segment] rest)))
            (startAt [.segment] rest)).found? := by
  rw [filePattern, search?_anchored]
  rfl

/-- What the search does at the end of a file name. -/
lemma found?_finish_file (base : Nat) (stem text : Bytes) :
    (finish [.segment] false base (startAt [.segment] text)
        (behind (startAt [.segment] text) 1 [stem] text)).found?
      = some [some text, some stem, some []] := by
  have count : [stem].length = itemsGroups [.segment] := rfl
  have ended := found?_finish false count base text []
  rw [List.append_nil] at ended
  rw [ended]
  rfl

/-- The places of a file name that ends where the subject does. -/
lemma explores_ended (explores : Explores (file.run ⟨0, false, openEnd⟩ 0) (ReachesFile Accepts)) :
    Explores (fun next => file.run ⟨0, false, openEnd⟩ 0
        ((Node.check .finish).run ⟨0, false, openEnd⟩ file.loops next)) fun s later =>
      openEnd = false ∧ ∃ stem extension, Path.IsSegment stem ∧ Accepts extension ∧
        s.rest = stem ++ Byte.dot :: extension ∧ later = behind s 1 [stem] s.rest := by
  have ends : Explores ((Node.check .finish).run ⟨0, false, openEnd⟩ file.loops) _ := .check .finish
  refine (explores.comp ends).congr fun s later => ?_
  simp only [Assertion.holds, Bool.and_eq_true, List.isEmpty_iff, Bool.not_eq_true']
  constructor
  · rintro ⟨_, ⟨stem, extension, proper, accepted, ⟨left, front⟩, rfl⟩, ⟨ended, closed⟩, rfl⟩
    rw [rest_behind, ← front, List.drop_left] at ended
    rw [ended, List.append_nil] at front
    exact ⟨closed, stem, extension, proper, accepted, front.symm, by rw [front]⟩
  · rintro ⟨closed, stem, extension, proper, accepted, front, rfl⟩
    refine ⟨_, ⟨stem, extension, proper, accepted, ⟨[], ?_⟩, rfl⟩, ⟨?_, closed⟩, ?_⟩
    · rw [front, List.append_nil]
    · rw [rest_behind, front, List.drop_length]
    · rw [front]

/-- **The search of a file name** finds one if the subject is one, and if it ends there.  Its slots are the
segment, the stem, and what separates them from what is next, which is nothing. -/
lemma search?_file (explores : Explores (file.run ⟨0, false, openEnd⟩ 0) (ReachesFile Accepts))
    (undotted : ∀ extension, Accepts extension → Byte.dot ∉ extension) {rest : Bytes} {slots : Slots} :
    (filePattern file).search? (Byte.slash :: rest) openEnd = some slots ↔
      openEnd = false ∧ ∃ stem extension, Path.IsSegment stem ∧ Accepts extension ∧
        rest = stem ++ Byte.dot :: extension ∧ slots = [some rest, some stem, some []] := by
  have visits := explores_ended explores _
    (restores_finish [.segment] openEnd file.loops (startAt [.segment] rest)) (startAt [.segment] rest)
  have sound {slots : Slots}
      (search : (filePattern file).search? (Byte.slash :: rest) openEnd = some slots) :
      openEnd = false ∧ ∃ stem extension, Path.IsSegment stem ∧ Accepts extension ∧
        rest = stem ++ Byte.dot :: extension ∧ slots = [some rest, some stem, some []] := by
    rw [search?_filePattern, Answer.found?_eq_some] at search
    obtain ⟨_, ⟨rfl, stem, extension, proper, accepted, front, rfl⟩, finished⟩ := visits.sound search
    rw [← Answer.found?_eq_some] at finished
    exact ⟨rfl, stem, extension, proper, accepted, front,
      (Option.some.inj ((found?_finish_file file.loops stem rest).symm.trans finished)).symm⟩
  refine ⟨sound, ?_⟩
  rintro ⟨rfl, stem, extension, proper, accepted, front, rfl⟩
  have finished := found?_finish_file file.loops stem rest
  rw [Answer.found?_eq_some] at finished
  obtain ⟨slots, matched⟩ :=
    visits.complete ⟨rfl, stem, extension, proper, accepted, front, rfl⟩ ⟨_, finished⟩
  have search : (filePattern file).search? (Byte.slash :: rest) false = some slots := by
    rw [search?_filePattern, Answer.found?_eq_some]
    exact matched
  -- what is found may have come by another way, but there is only one stem
  obtain ⟨_, stem', extension', _, accepted', front', rfl⟩ := sound search
  rw [search, Path.stem_unique (undotted _ accepted) (undotted _ accepted') (front.symm.trans front')]

end Pattern

/-! ## Consuming a file name -/

/-- A path that is a file name has no slash but the one in front, so it is its own window. -/
lemma Path.window_of_isFile {stem extension path : Bytes} (own : IsFile stem extension path)
    (whole : Byte.slash ∉ extension) : Path.window 2 path = (path, false) := by
  obtain ⟨⟨_, whole'⟩, rfl⟩ := own
  refine Path.window_of_few (by decide) ?_
  have none : Byte.slash ∉ stem ++ Byte.dot :: extension := by
    simp only [List.mem_append, List.mem_cons, not_or]
    exact ⟨whole', by decide, whole⟩
  rw [List.cons_append, List.tail_cons, List.count_eq_zero.mpr none]
  decide

namespace Cursor

variable {file : Node} {Accepts : Bytes → Prop} {c : Cursor}

lemma consume_of_isFile (explores : Explores (file.run ⟨0, false, false⟩ 0) (ReachesFile Accepts))
    (undotted : ∀ extension, Accepts extension → Byte.dot ∉ extension) {stem extension : Bytes}
    (accepted : Accepts extension) (own : Path.IsFile stem extension c.remaining)
    (shown : Path.window 2 c.remaining = (c.remaining, false))
    (within : c.remaining.length ≤ Path.windowLimit) :
    c.consume (filePattern file) 2 = .taken [stem] ⟨c.consumed ++ c.remaining, []⟩ := by
  obtain ⟨proper, front⟩ := own
  have search : (filePattern file).search? c.remaining false
      = some [some (stem ++ Byte.dot :: extension), some stem, some []] := by
    rw [front]
    exact (Pattern.search?_file explores undotted).mpr
      ⟨rfl, stem, extension, proper, accepted, rfl, rfl⟩
  have whole : c.remaining = Byte.slash :: (stem ++ Byte.dot :: extension) ++ [] := by
    rw [List.append_nil]
    exact front
  rw [consume_of_some shown within search whole rfl, front]
  rfl

/-- What matches in a window is the whole path, since the path ends there. -/
lemma isFile_of_search?
    (explores : ∀ openEnd, Explores (file.run ⟨0, false, openEnd⟩ 0) (ReachesFile Accepts))
    (undotted : ∀ extension, Accepts extension → Byte.dot ∉ extension) {window : Bytes} {goesOn : Bool}
    {slots : Slots} (shown : Path.window 2 c.remaining = (window, goesOn))
    (search : (filePattern file).search? window goesOn = some slots) :
    Path.window 2 c.remaining = (c.remaining, false) ∧
      ∃ stem extension, Accepts extension ∧ Path.IsFile stem extension c.remaining := by
  obtain ⟨rest, rfl⟩ := List.head?_eq_some_iff.mp (Pattern.head?_of_search?_anchored search)
  obtain ⟨rfl, stem, extension, proper, accepted, rfl, _⟩ :=
    (Pattern.search?_file (explores goesOn) undotted).mp search
  obtain ⟨behind, whole, ends⟩ := Path.window_append (by decide : 2 ≠ 0) c.remaining
  simp only [shown, ends, List.append_nil] at whole
  exact ⟨by rw [shown, whole], stem, extension, accepted, proper, whole⟩

/-- **The pattern of a file name** consumes the whole path if that is one and fits the window, and then it
captures the stem. -/
lemma consume_file
    (explores : ∀ openEnd, Explores (file.run ⟨0, false, openEnd⟩ 0) (ReachesFile Accepts))
    (word : ∀ extension, Accepts extension → ∀ b ∈ extension, Bytes.isWordByte b) {found : Captures}
    {after : Cursor} :
    c.consume (filePattern file) 2 = .taken found after ↔
      ∃ stem extension, Accepts extension ∧ Path.IsFile stem extension c.remaining ∧
        c.remaining.length ≤ Path.windowLimit ∧ found = [stem] ∧
        after = ⟨c.consumed ++ c.remaining, []⟩ := by
  have absent (b : UInt8) (other : Bytes.isWordByte b = false) :
      ∀ extension, Accepts extension → b ∉ extension := by
    intro extension accepted mem
    rw [word extension accepted b mem] at other
    cases other
  have undotted := absent Byte.dot (by decide)
  constructor
  · intro consumed
    obtain ⟨window, goesOn, slots, shown, within, search⟩ := search?_of_consume consumed
    obtain ⟨own_window, stem, extension, accepted, own⟩ := isFile_of_search? explores undotted shown search
    cases shown.symm.trans own_window
    cases consumed.symm.trans (consume_of_isFile (explores false) undotted accepted own own_window within)
    exact ⟨stem, extension, accepted, own, within, rfl, rfl⟩
  · rintro ⟨stem, extension, accepted, own, within, rfl, rfl⟩
    have shown := Path.window_of_isFile own (absent Byte.slash (by decide) extension accepted)
    exact consume_of_isFile (explores false) undotted accepted own shown within

/-- If not, it rejects the path. -/
lemma consume_file_cases : c.consume (filePattern file) 2 = .rejected ∨
    ∃ found after, c.consume (filePattern file) 2 = .taken found after := by
  have ends : (filePattern file).EndsSegments 2 :=
    Pattern.endsSegments_anchored (by decide) (by decide)
  exact (PathTest.keepsSegments_pattern.mpr ends c).imp_right
    fun ⟨found, after, taken, _⟩ => ⟨found, after, taken⟩

end Cursor

/-! ## The condition -/

namespace Matcher

/-- **The condition of an extension passes,** and leaves a frame. -/
def PassesExtension (source : Bytes) (frame : Frame) (host : Host) (after : Frame) : Prop :=
  ∃ matcher, extension? source = .ok matcher ∧
    (matcher.evaluate frame host).value = (⟨.returned true, []⟩, after)

/-- **The condition of an extension recognises file names.**

* It passes exactly if all that remains of the path is a file name whose extension is accepted, and is not
  longer than the limit of a window.  Then it captures the stem and nothing else, and consumes the path.
* If it can be prepared at all, then it either passes, or returns false and leaves the frame as it is. -/
structure RecognisesFiles (source : Bytes) (Accepts : Bytes → Prop) : Prop where
  passes_iff (frame : Frame) (host : Host) (after : Frame) : PassesExtension source frame host after ↔
    ∃ stem extension, Accepts extension ∧
      Path.IsFile stem extension frame.request.cursor.remaining ∧
      frame.request.cursor.remaining.length ≤ Path.windowLimit ∧
      after = (frame.moveTo
        ⟨frame.request.cursor.consumed ++ frame.request.cursor.remaining, []⟩).capture [stem]
  passes_or (frame : Frame) (host : Host) {matcher : Matcher} (made : extension? source = .ok matcher) :
    (∃ after, PassesExtension source frame host after) ∨
      (matcher.evaluate frame host).value = (⟨.returned false, []⟩, frame)

variable {source : Bytes} {file : Node} {Accepts : Bytes → Prop}

lemma extension?_eq_ok_iff {matcher : Matcher} : extension? source = .ok matcher ↔
    ∃ anchored, Pattern.compile? (Path.anchored (extensionPattern source)) = some anchored ∧
      matcher = predicate fun frame =>
        match (PathTest.pattern anchored (Path.span (extensionPattern source))).run frame.request.cursor with
        | .rejected => pure (.returned false, frame)
        | .taken found after => pure (.returned true, (frame.moveTo after).capture found)
        | .overrun found claimed remaining =>
          pure (.faulted (.overrun claimed remaining), frame.capture found) := by
  constructor
  · intro made
    obtain ⟨test, prepared, made⟩ := Except.bind_eq_ok.mp made
    obtain ⟨anchored, compiled, rfl⟩ := Option.map_eq_some_iff.mp (eq_some_of_orMalformed prepared)
    exact ⟨anchored, compiled, (Except.ok.inj made).symm⟩
  · rintro ⟨anchored, compiled, rfl⟩
    rw [extension?, PathTest.ofPattern?, compiled]
    rfl

/-- What the condition comes to is what the cursor does with its pattern. -/
lemma value_extension {matcher : Matcher} (made : extension? source = .ok matcher)
    (span : Path.span (extensionPattern source) = 2)
    (only : ∀ anchored, Pattern.compile? (Path.anchored (extensionPattern source)) = some anchored →
      anchored = filePattern file) (frame : Frame) (host : Host) :
    (frame.request.cursor.consume (filePattern file) 2 = .rejected ∧
        (matcher.evaluate frame host).value = (⟨.returned false, []⟩, frame)) ∨
      ∃ found after, frame.request.cursor.consume (filePattern file) 2 = .taken found after ∧
        (matcher.evaluate frame host).value
          = (⟨.returned true, []⟩, (frame.moveTo after).capture found) := by
  obtain ⟨anchored, compiled, rfl⟩ := extension?_eq_ok_iff.mp made
  obtain rfl := only anchored compiled
  rw [span]
  rcases Cursor.consume_file_cases with rejected | ⟨found, after, taken⟩
  · have run : (PathTest.pattern (filePattern file) 2).run frame.request.cursor = .rejected := rejected
    exact .inl ⟨rejected, by simp [predicate, evaluate, run]⟩
  · have run : (PathTest.pattern (filePattern file) 2).run frame.request.cursor
        = .taken found after := taken
    exact .inr ⟨found, after, taken, by simp [predicate, evaluate, run]⟩

/-- A condition whose pattern is that of a file name recognises file names, if the pattern can be compiled
for all extensions that fit a window. -/
lemma recognisesFiles (span : Path.span (extensionPattern source) = 2)
    (only : ∀ anchored, Pattern.compile? (Path.anchored (extensionPattern source)) = some anchored →
      anchored = filePattern file)
    (light : ∀ extension, Accepts extension → extension.length ≤ Path.windowLimit →
      Pattern.compile? (Path.anchored (extensionPattern source)) = some (filePattern file))
    (explores : ∀ openEnd, Explores (file.run ⟨0, false, openEnd⟩ 0) (ReachesFile Accepts))
    (word : ∀ extension, Accepts extension → ∀ b ∈ extension, Bytes.isWordByte b) :
    RecognisesFiles source Accepts where
  passes_iff frame host after := by
    constructor
    · rintro ⟨matcher, made, passed⟩
      rcases value_extension made span only frame host with ⟨_, failed⟩ | ⟨found, moved, taken, value⟩
      · cases failed.symm.trans passed
      · cases value.symm.trans passed
        obtain ⟨stem, extension, accepted, own, within, rfl, rfl⟩ :=
          (Cursor.consume_file explores word).mp taken
        exact ⟨stem, extension, accepted, own, within, rfl⟩
    · rintro ⟨stem, extension, accepted, own, within, rfl⟩
      have short : extension.length ≤ Path.windowLimit := by
        rw [own.2] at within
        simp only [List.cons_append, List.length_cons, List.length_append] at within
        omega
      have made := extension?_eq_ok_iff.mpr ⟨_, light extension accepted short, rfl⟩
      refine ⟨_, made, ?_⟩
      have taken := (Cursor.consume_file explores word).mpr
        ⟨stem, extension, accepted, own, within, rfl, rfl⟩
      rcases value_extension made span only frame host with ⟨rejected, _⟩ | ⟨found, moved, taken', value⟩
      · cases rejected.symm.trans taken
      · cases taken'.symm.trans taken
        exact value
  passes_or frame host matcher made := by
    rcases value_extension made span only frame host with ⟨_, failed⟩ | ⟨found, moved, _, value⟩
    · exact .inr failed
    · exact .inl ⟨_, matcher, made, value⟩

/-- A pattern text of an extension has the slash of its class only. -/
lemma span_extensionPattern (whole : Byte.slash ∉ source) :
    Path.span (extensionPattern source) = 2 := by
  have front : (ascii "([^/]+?)\\.").count Byte.slash = 1 := by decide
  have ending : (ascii "$").count Byte.slash = 0 := by decide
  rw [Path.span, extensionPattern, List.count_append, List.count_append, front, ending,
    List.count_eq_zero.mpr whole]

/-- **An extension matches just the file names that have it.**

* For an extension of word bytes, be there any or not, these are the file names with that extension.  The
  condition can be prepared unless its pattern is too heavy; then no path that fits a window has such an
  extension.
* For any extension these are the file names with an extension of word bytes, so the stem is all in front of
  the last dot.  The condition can be prepared. -/
theorem extension_iff :
    (∀ extension : Bytes, (∀ b ∈ extension, Bytes.isWordByte b) →
      RecognisesFiles extension (· = extension) ∧
      ((∃ matcher, extension? extension = .ok matcher) ↔
        extension.length + fileWeight ≤ Pattern.Parser.weightLimit)) ∧
    RecognisesFiles anyExtension IsWordText ∧ ∃ matcher, extension? anyExtension = .ok matcher := by
  refine ⟨fun extension word => ⟨?_, ?_⟩, ?_, ?_⟩
  · have whole : Byte.slash ∉ extension := fun mem => absurd (word _ mem) (by decide)
    refine recognisesFiles (span_extensionPattern whole) (fun anchored compiled => ?_) ?_
      (fun _ => explores_fileNode _ 0 extension) (fun _ same => same ▸ word)
    · rw [compile?_extension word] at compiled
      exact (Option.some.inj (Option.ite_none_right_eq_some.mp compiled).2).symm
    · rintro _ rfl short
      rw [compile?_extension word]
      unfold Path.windowLimit at short
      exact if_pos (by unfold fileWeight Pattern.Parser.weightLimit; omega)
  · simp only [extension?_eq_ok_iff, compile?_extension word]
    constructor
    · rintro ⟨_, anchored, compiled, _⟩
      exact (Option.ite_none_right_eq_some.mp compiled).1
    · exact fun light => ⟨_, _, if_pos light, rfl⟩
  · refine recognisesFiles (span_extensionPattern (by decide)) (fun anchored compiled => ?_)
      (fun _ _ _ => compile?_anyExtension) (fun _ => explores_anyFileNode _ 0) (fun _ own => own.2)
    exact (Option.some.inj (compile?_anyExtension.symm.trans compiled)).symm
  · exact ⟨_, extension?_eq_ok_iff.mpr ⟨_, compile?_anyExtension, rfl⟩⟩

/-- A file name whose stem has the extension already, at the end of a path that was begun before. -/
theorem extension_iff_of_css :
    (∀ b ∈ ascii "css", Bytes.isWordByte b) ∧ ∀ (request : Request) (host : Host),
      request.cursor = ⟨ascii "/style", ascii "/app.css.css"⟩ →
      PassesExtension (ascii "css") (.initial request) host
        (((Frame.initial request).moveTo ⟨ascii "/style/app.css.css", []⟩).capture [ascii "app.css"]) := by
  have letters : (ascii "css").all Bytes.isWordByte := by decide
  have word : ∀ b ∈ ascii "css", Bytes.isWordByte b := List.all_eq_true.mp letters
  refine ⟨word, fun request host here => ?_⟩
  refine ((extension_iff.1 (ascii "css") word).1.passes_iff _ host _).mpr
    ⟨ascii "app.css", ascii "css", rfl, ?_, ?_, ?_⟩
  · rw [Frame.initial, here]
    exact ⟨by decide, by decide⟩
  · rw [Frame.initial, here]
    decide
  · rw [Frame.initial, here]
    rfl

end Matcher

end ClauseRouter
