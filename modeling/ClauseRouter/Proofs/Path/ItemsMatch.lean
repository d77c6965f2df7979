import ClauseRouter.Proofs.Path.Items
import ClauseRouter.Proofs.Pattern.Search

/-!
# Matching the pattern of a template

The pattern of a template whose text is ordinary finds exactly the texts that its items describe: every
byte stands for itself, and every segment for any text that is not empty and has no slash.  Where two
segments share a part of the path, more than one choice of their texts may do; the search finds one if
there is any.

* `Template.Fills` — a text made of items, and the texts of their segments.
* `Template.explores_runItems` — matching items goes on behind the texts made of them, and nowhere else.
* `Template.fills_of_search?`, `Template.search?_of_fills` — the anchored pattern of items finds a text
  made of them in front of the end of a segment, if there is one.
-/

namespace ClauseRouter

open Pattern

/-- A text that can be one segment of a path. -/
def Path.IsSegment (text : Bytes) : Prop := text ≠ [] ∧ Byte.slash ∉ text

instance (text : Bytes) : Decidable (Path.IsSegment text) := inferInstanceAs (Decidable (_ ∧ _))

namespace Template

/-! ## Texts made of items -/

/-- **A text is made of items,** with these texts for their segments. -/
inductive Fills : List Item → Captures → Bytes → Prop
  | nil : Fills [] [] []
  | byte {b : UInt8} {items : List Item} {values : Captures} {text : Bytes} :
      Fills items values text → Fills (.byte b :: items) values (b :: text)
  | segment {value : Bytes} {items : List Item} {values : Captures} {text : Bytes} :
      Path.IsSegment value → Fills items values text →
        Fills (.segment :: items) (value :: values) (value ++ text)

lemma fills_byte {b : UInt8} {values : Captures} {text : Bytes} :
    Fills [.byte b] values text ↔ values = [] ∧ text = [b] := by
  constructor
  · rintro ⟨⟩
    rename_i none
    cases none
    exact ⟨rfl, rfl⟩
  · rintro ⟨rfl, rfl⟩
    exact .byte .nil

lemma fills_segment {values : Captures} {text : Bytes} :
    Fills [.segment] values text ↔ values = [text] ∧ Path.IsSegment text := by
  constructor
  · rintro ⟨⟩
    rename_i proper none
    cases none
    rw [List.append_nil]
    exact ⟨rfl, proper⟩
  · rintro ⟨rfl, proper⟩
    have made := Fills.segment proper .nil
    rwa [List.append_nil] at made

namespace Fills

variable {items : List Item} {values : Captures} {text : Bytes}

lemma length_values (h : Fills items values text) : values.length = itemsGroups items := by
  induction h with
  | nil => rfl
  | byte _ ih => rw [itemsGroups, Item.groups, Nat.zero_add, ih]
  | segment _ _ ih => rw [List.length_cons, itemsGroups, Item.groups, ih, Nat.add_comm]

lemma append (h : Fills items values text) {more : List Item} {values' : Captures} {text' : Bytes}
    (h' : Fills more values' text') : Fills (items ++ more) (values ++ values') (text ++ text') := by
  induction h with
  | nil => exact h'
  | byte _ ih => exact .byte ih
  | segment proper _ ih =>
      rw [List.append_assoc]
      exact .segment proper ih

/-- What is made of one row of items and another is made of two texts. -/
lemma exists_of_append {more : List Item} (h : Fills (items ++ more) values text) :
    ∃ first first' second second', values = first ++ second ∧ text = first' ++ second' ∧
      Fills items first first' ∧ Fills more second second' := by
  induction items generalizing values text with
  | nil => exact ⟨[], [], values, text, rfl, rfl, .nil, h⟩
  | cons item items ih =>
      cases h with
      | byte h =>
          obtain ⟨first, first', second, second', rfl, rfl, h, h'⟩ := ih h
          exact ⟨first, _ :: first', second, second', rfl, rfl, .byte h, h'⟩
      | segment proper h =>
          obtain ⟨first, first', second, second', rfl, rfl, h, h'⟩ := ih h
          exact ⟨_ :: first, _ ++ first', second, second', rfl, by rw [List.append_assoc],
            .segment proper h, h'⟩

/-- Every item gives the text a byte at least, so what can be made within a window is light. -/
lemma itemsWeight_le (h : Fills items values text) : itemsWeight items ≤ 5 * text.length := by
  induction h with
  | nil => exact Nat.zero_le _
  | byte _ ih =>
      rw [itemsWeight, Item.weight, List.length_cons]
      omega
  | segment proper _ ih =>
      have positive := List.length_pos_iff.mpr proper.1
      rw [itemsWeight, Item.weight, List.length_append]
      omega

/-- A text has the slashes of the items. -/
lemma count_slash (h : Fills items values text) :
    text.count Byte.slash = items.count (.byte Byte.slash) := by
  induction h with
  | nil => rfl
  | @byte b _ _ _ _ ih => by_cases slash : b = Byte.slash <;> simp [slash, ih]
  | segment proper _ ih => simp [List.count_eq_zero.mpr proper.2, ih]

end Fills

/-! ## Slots -/

/-- The slots with captures in them, from a given slot on. -/
def fill (slot : Nat) : Captures → Slots → Slots
  | [], slots => slots
  | text :: found, slots => fill (slot + 1) found (slots.set slot (some text))

lemma fill_append (found more : Captures) : ∀ (slot : Nat) (slots : Slots),
    fill slot (found ++ more) slots = fill (slot + found.length) more (fill slot found slots) := by
  induction found with
  | nil => intro slot slots; rfl
  | cons text found ih =>
      intro slot slots
      rw [List.cons_append, fill, fill, ih, List.length_cons, Nat.add_right_comm, Nat.add_assoc]

lemma fill_append_replicate (found : Captures) (behind : Slots) : ∀ (before : Slots),
    fill before.length found (before ++ (List.replicate found.length none ++ behind))
      = before ++ (found.map some ++ behind) := by
  induction found with
  | nil => intro before; rfl
  | cons text found ih =>
      intro before
      have filled := ih (before ++ [some text])
      rw [List.length_append, List.length_singleton] at filled
      simpa [fill, List.replicate_succ] using filled

/-- The state behind a text, with captures in the slots from a given one on. -/
def behind (s : State) (slot : Nat) (found : Captures) (text : Bytes) : State :=
  (s.advance text).withSlots (fill slot found s.slots)

lemma behind_nil (s : State) (slot : Nat) (text : Bytes) : behind s slot [] text = s.advance text := by
  rw [behind, fill, ← State.slots_advance s text, State.withSlots_slots]

lemma rest_behind (s : State) (slot : Nat) (found : Captures) (text : Bytes) :
    (behind s slot found text).rest = s.rest.drop text.length := State.rest_advance s text

lemma behind_behind (s : State) (slot : Nat) (found more : Captures) (text text' : Bytes) :
    behind (behind s slot found text) (slot + found.length) more text'
      = behind s slot (found ++ more) (text ++ text') := by
  have slots : (behind s slot found text).slots = fill slot found s.slots := rfl
  rw [behind, slots, ← fill_append, behind, State.advance_withSlots, State.withSlots_withSlots,
    ← State.advance_append]
  rfl

/-! ## Matching items -/

/-- Matches items one after another, with slots and loops numbered from given numbers on. -/
def runItems (attempt : Attempt) (next : Next) : (slot base : Nat) → List Item → Next
  | _, _, [] => next
  | slot, base, item :: items =>
    (item.node slot).run attempt base
      (runItems attempt next (slot + item.groups) (base + item.groups) items)

/-- The tree of items matches them one after another. -/
lemma run_nodeFrom (attempt : Attempt) (base : Nat) (next : Next) (items : List Item) (slot : Nat)
    (before : Node) :
    (nodeFrom slot before items).run attempt base next
      = before.run attempt base (runItems attempt next slot (base + before.loops) items) := by
  induction items generalizing slot before with
  | nil => rfl
  | cons item items ih =>
      rw [nodeFrom, ih, Node.run, Node.loops, Item.loops_node, ← Nat.add_assoc]
      rfl

lemma contains_single (b c : UInt8) : (ByteSet.single b).contains c = (c == b) := by
  simp [ByteSet.single, ByteSet.contains, ByteSet.Item.contains]

lemma contains_segmentByte (b : UInt8) : Item.segmentByte.contains b = (b != Byte.slash) := by
  simp only [Item.segmentByte, ByteSet.contains, ByteSet.Item.contains, List.any_cons, List.any_nil,
    Bool.or_false, Bool.bne_true]
  rfl

/-- The places behind the texts that are made of items. -/
def Reaches (items : List Item) (slot : Nat) (s later : State) : Prop :=
  ∃ values text, Fills items values text ∧ text <+: s.rest ∧ later = behind s slot values text

lemma reaches_nil {slot : Nat} {s later : State} : Reaches [] slot s later ↔ s = later := by
  constructor
  · rintro ⟨_, _, ⟨⟩, _, rfl⟩
    exact (behind_nil s slot []).symm
  · rintro rfl
    exact ⟨[], [], .nil, List.nil_prefix, (behind_nil s slot []).symm⟩

/-- The places of more items are those of the others, behind the places of the first. -/
lemma reaches_cons {item : Item} {items : List Item} {slot : Nat} {s later : State} :
    Reaches (item :: items) slot s later ↔
      ∃ between, Reaches [item] slot s between ∧
        Reaches items (slot + item.groups) between later := by
  have groups {values : Captures} {text : Bytes} (h : Fills [item] values text) :
      item.groups = values.length := h.length_values.symm
  constructor
  · rintro ⟨values, text, made, ⟨left, front⟩, rfl⟩
    have made : Fills ([item] ++ items) values text := made
    obtain ⟨first, first', second, second', rfl, rfl, h, h'⟩ := made.exists_of_append
    rw [List.append_assoc] at front
    refine ⟨_, ⟨first, first', h, ⟨_, front⟩, rfl⟩, second, second', h', ?_, ?_⟩
    · rw [rest_behind, ← front, List.drop_left]
      exact ⟨left, rfl⟩
    · rw [groups h, behind_behind]
  · rintro ⟨_, ⟨first, first', h, ⟨left, front⟩, rfl⟩, second, second', h', front', rfl⟩
    rw [rest_behind, ← front, List.drop_left] at front'
    obtain ⟨more, rfl⟩ := front'
    refine ⟨_, _, h.append h', ⟨more, by rw [← front, List.append_assoc]⟩, ?_⟩
    rw [groups h, behind_behind]

variable (attempt : Attempt)

lemma explores_byte (b : UInt8) (slot base : Nat) :
    Explores (((Item.byte b).node slot).run attempt base) (Reaches [.byte b] slot) := by
  refine (Explores.one (.single b)).congr fun s later => ?_
  constructor
  · rintro ⟨c, rest, left, inside, rfl⟩
    obtain rfl : c = b := by simpa [contains_single] using inside
    exact ⟨[], [c], fills_byte.mpr ⟨rfl, rfl⟩, ⟨rest, left.symm⟩, (behind_nil s slot [c]).symm⟩
  · rintro ⟨values, text, made, ⟨rest, front⟩, rfl⟩
    obtain ⟨rfl, rfl⟩ := fills_byte.mp made
    exact ⟨b, rest, front.symm, by simp [contains_single], behind_nil s slot [b]⟩

lemma isSegment_iff {text : Bytes} :
    Path.IsSegment text ↔ text ≠ [] ∧ ∀ b ∈ text, Item.segmentByte.contains b := by
  simp only [contains_segmentByte, bne_iff_ne]
  exact and_congr_right fun _ =>
    ⟨fun none b mem slash => none (slash ▸ mem), fun all mem => all _ mem rfl⟩

/-- The group of a segment goes on behind every text that can be one, be it as long as can be or as short as
can be. -/
lemma explores_segmentGroup (greedy : Bool) (slot base : Nat) :
    Explores ((Node.group slot (.seq .empty (.loop true greedy (.one Item.segmentByte)))).run attempt base)
      (Reaches [.segment] slot) := by
  have inner : Explores
      ((Node.seq .empty (.loop true greedy (.one Item.segmentByte))).run attempt base) _ :=
    Explores.refl.comp (Explores.loop_one Item.segmentByte attempt greedy (base + 0))
  -- the slot of the group gets the text that the loop has passed
  have kept {s : State} {text : Bytes} (front : text <+: s.rest) :
      (s.advance text).withSlots ((s.advance text).slots.set slot
        (some ((s.advance text).textSince s))) = behind s slot [text] text := by
    rw [State.advance_textSince front, State.slots_advance]
    rfl
  refine (inner.group slot).congr fun s later => ?_
  constructor
  · rintro ⟨_, ⟨_, rfl, text, nonempty, all, front, rfl⟩, rfl⟩
    exact ⟨[text], text, fills_segment.mpr ⟨rfl, isSegment_iff.mpr ⟨nonempty, all⟩⟩, front, kept front⟩
  · rintro ⟨values, text, made, front, rfl⟩
    obtain ⟨rfl, proper⟩ := fills_segment.mp made
    obtain ⟨nonempty, all⟩ := isSegment_iff.mp proper
    exact ⟨_, ⟨s, rfl, text, nonempty, all, front, rfl⟩, (kept front).symm⟩

/-- **Matching items goes on behind the texts that are made of them.** -/
lemma explores_runItems (items : List Item) (slot base : Nat) :
    Explores (fun next => runItems attempt next slot base items) (Reaches items slot) := by
  induction items generalizing slot base with
  | nil => exact Explores.refl.congr fun s later => reaches_nil.symm
  | cons item items ih =>
      have first : Explores ((item.node slot).run attempt base) (Reaches [item] slot) := by
        cases item with
        | byte b => exact explores_byte attempt b slot base
        | segment => exact explores_segmentGroup attempt true slot base
      exact (first.comp (ih (slot + item.groups) (base + item.groups))).congr fun s later =>
        reaches_cons.symm

/-! ## The whole search -/

/-- Whether a separator finds the end of a segment in front of what is left of a subject. -/
def endsSegment (left : Bytes) (openEnd : Bool) : Bool :=
  left.head? == some Byte.slash || (left.isEmpty && !openEnd)

lemma endsSegment_iff {left : Bytes} {openEnd : Bool} :
    endsSegment left openEnd ↔ left.head? = some Byte.slash ∨ left = [] ∧ openEnd = false := by
  simp [endsSegment]

section

variable (items : List Item) (openEnd : Bool)

/-- How the search ends: the first group keeps its text, and the separator what comes next. -/
def finish (base : Nat) (start : State) : Next :=
  Next.keeping ((Node.separator (itemsGroups items + 1)).run ⟨0, false, openEnd⟩ base
    fun s => .matched s.slots) 0 start

lemma restores_finish (base : Nat) (start : State) : (finish items openEnd base start).Restores := by
  refine Next.Restores.keeping (fun s slots failed => ?_) 0 start
  rw [Node.run_separator] at failed
  split at failed
  · cases failed
  · cases failed; rfl

/-- The place behind the slash in front of a path. -/
def startAt (rest : Bytes) : State :=
  ⟨1, some Byte.slash, rest, List.replicate (itemsGroups items + 2) none, []⟩

lemma search?_itemsPattern (rest : Bytes) :
    (itemsPattern items).search? (Byte.slash :: rest) openEnd
      = (runItems ⟨0, false, openEnd⟩ (finish items openEnd (nodeFrom 1 .empty items).loops
          (startAt items rest)) 1 0 items (startAt items rest)).found? := by
  rw [itemsPattern, search?_anchored]
  show ((nodeFrom 1 .empty items).run _ 0 _ _).found? = _
  rw [run_nodeFrom]
  rfl

variable {items}

/-- What is found if the search ends behind a text. -/
lemma found?_finish {values : Captures} (count : values.length = itemsGroups items) (base : Nat)
    (text left : Bytes) :
    (finish items openEnd base (startAt items (text ++ left))
        (behind (startAt items (text ++ left)) 1 values text)).found?
      = if endsSegment left openEnd then
          some (some text :: (values.map some ++ [some (left.take 1)]))
        else none := by
  let start := startAt items (text ++ left)
  have rest : (behind start 1 values text).rest = left := by
    rw [rest_behind]
    exact List.drop_left
  have kept : (behind start 1 values text).textSince start = text :=
    State.advance_textSince ⟨left, rfl⟩
  have filled : (behind start 1 values text).slots = [none] ++ (values.map some ++ [none]) := by
    have slots : start.slots = [none] ++ (List.replicate values.length none ++ [none]) := by
      simp [start, startAt, count, List.replicate_succ, ← List.replicate_succ']
    rw [← fill_append_replicate]
    exact congrArg (fill 1 values) slots
  -- the last slot is that of the separator
  have held (x : Option Bytes) : (([none] ++ (values.map some ++ [none])).set 0 (some text)).set
      (itemsGroups items + 1) x = some text :: (values.map some ++ [x]) := by
    simp [← count]
  rw [finish, found?_keeping, kept, filled, Node.run_separator, held]
  have separated : State.atSeparator { behind start 1 values text with
      slots := ([none] ++ (values.map some ++ [none])).set 0 (some text) } openEnd
        = endsSegment left openEnd := by
    rw [endsSegment, ← rest]
    rfl
  rw [separated]
  cases endsSegment left openEnd with
  | true => exact congrArg (fun left => some (some text :: (values.map some ++ [some (left.take 1)]))) rest
  | false => rfl

variable {openEnd}

/-- **What the search finds is made of the items,** and in front of the end of a segment. -/
lemma fills_of_search? {rest : Bytes} {slots : Slots}
    (h : (itemsPattern items).search? (Byte.slash :: rest) openEnd = some slots) :
    ∃ values text left, rest = text ++ left ∧ Fills items values text ∧ endsSegment left openEnd ∧
      slots = some text :: (values.map some ++ [some (left.take 1)]) := by
  rw [search?_itemsPattern, Answer.found?_eq_some] at h
  obtain ⟨_, ⟨values, text, made, ⟨left, front⟩, rfl⟩, finished⟩ :=
    (explores_runItems _ items 1 0 _ (restores_finish items openEnd _ _) _).sound h
  obtain rfl : text ++ left = rest := front
  rw [← Answer.found?_eq_some, found?_finish openEnd made.length_values] at finished
  split at finished
  · rename_i ends
    exact ⟨values, text, left, rfl, made, ends, (Option.some.inj finished).symm⟩
  · cases finished

/-- **The search finds something** if there is a text made of the items in front of the end of a
segment. -/
lemma search?_of_fills {values : Captures} {text left : Bytes} (made : Fills items values text)
    (ends : endsSegment left openEnd) :
    ∃ slots, (itemsPattern items).search? (Byte.slash :: (text ++ left)) openEnd = some slots := by
  have finished := found?_finish openEnd made.length_values (nodeFrom 1 .empty items).loops text left
  rw [if_pos ends, Answer.found?_eq_some] at finished
  obtain ⟨slots, matched⟩ := (explores_runItems ⟨0, false, openEnd⟩ items 1 0 _
    (restores_finish items openEnd _ _) _).complete ⟨values, text, made, ⟨left, rfl⟩, rfl⟩ ⟨_, finished⟩
  exact ⟨slots, (search?_itemsPattern ..).trans (Answer.found?_eq_some.mpr matched)⟩

end

end Template

end ClauseRouter
