import ClauseRouter.Proofs.Path.Boundary
import ClauseRouter.Proofs.Path.ItemsMatch

/-!
# Consuming what items make up

A cursor consumes the pattern of items in a window of the path, which may be cut off in the middle of it.
For the pattern this makes no difference: all that it could find is in the window, together with the slash
behind it.

* `Cursor.MovesItems` — a cursor moves a text that is made of items, up to the end of a segment.
* `Path.window_of_few_slashes` — the window shows such a text and that a segment ends behind it.
* `Cursor.movesItems_of_consume`, `Cursor.consume_of_movesItems` — hence the cursor moves a text made of
  the items if it can, and nothing else.
-/

namespace ClauseRouter

open Template

/-- **A cursor moves a text that is made of items,** with these texts for their segments, up to the end of
a segment. -/
def Cursor.MovesItems (items : List Item) (values : Captures) (before after : Cursor) : Prop :=
  ∃ text rest, Fills items values text ∧ before.remaining = Byte.slash :: text ++ rest ∧
    (rest = [] ∨ rest.head? = some Byte.slash) ∧
    after = ⟨before.consumed ++ Byte.slash :: text, rest⟩

/-- **A window shows a text** that has fewer slashes than the window spans segments, and that a segment
ends behind it. -/
lemma Path.window_of_few_slashes {segments : Nat} {text rest : Bytes}
    (few : text.count Byte.slash < segments)
    (boundary : rest = [] ∨ rest.head? = some Byte.slash) :
    ∃ left goesOn, window segments (Byte.slash :: text ++ rest)
        = (Byte.slash :: text ++ left, goesOn) ∧ endsSegment left goesOn := by
  rw [List.cons_append]
  cases shown : throughSlashes? segments (text ++ rest) with
  | none =>
      refine ⟨rest, false, by simp [window, shown], ?_⟩
      rw [endsSegment_iff]
      exact boundary.symm.imp_right fun ended => ⟨ended, rfl⟩
  | some window =>
      -- the window has more slashes than the text, so it goes on behind the text
      have more : text.count Byte.slash < window.count Byte.slash := by
        rwa [count_throughSlashes? shown]
      obtain ⟨behind, whole⟩ := throughSlashes?_append shown
      rcases List.append_eq_append_iff.mp whole with ⟨left, rfl, rest_eq⟩ | ⟨left, rfl, _⟩
      · refine ⟨left, true, by simp [Path.window, shown], endsSegment_iff.mpr (.inl ?_)⟩
        cases left with
        | nil => simp at more
        | cons b left =>
            rw [rest_eq] at boundary
            simpa using boundary
      · rw [List.count_append] at more
        omega

namespace Cursor

variable {items : List Item} {segments : Nat} {c after : Cursor}

/-- What is found in the window is moved. -/
lemma exists_consume_of_search? (positive : segments ≠ 0) {path : Bytes} {goesOn : Bool}
    (shown : Path.window segments c.remaining = (Byte.slash :: path, goesOn))
    (within : (Byte.slash :: path).length ≤ Path.windowLimit) {slots : Pattern.Slots}
    (search : (itemsPattern items).search? (Byte.slash :: path) goesOn = some slots) :
    ∃ found after, c.consume (itemsPattern items) segments = .taken found after ∧
      c.MovesItems items found after := by
  obtain ⟨behind, whole, ends⟩ := Path.window_append positive c.remaining
  rw [shown] at whole ends
  obtain ⟨values, text, left, rfl, made, ended, rfl⟩ := fills_of_search? search
  have front : c.remaining = Byte.slash :: text ++ (left ++ behind) := by simpa using whole
  refine ⟨values, _, ?_, text, left ++ behind, made, front, ?_, rfl⟩
  · rw [consume_of_some shown within search front rfl]
    simp [Function.comp_def]
  · rcases endsSegment_iff.mp ended with slash | ⟨rfl, closed⟩
    · exact .inr (by simp [slash])
    · exact .inl (by simp [ends closed])

/-- **What the pattern of items consumes is made of them.** -/
lemma movesItems_of_consume (positive : segments ≠ 0) {found : Captures}
    (taken : c.consume (itemsPattern items) segments = .taken found after) :
    c.MovesItems items found after := by
  obtain ⟨window, goesOn, slots, shown, within, search⟩ := search?_of_consume taken
  obtain ⟨path, rfl⟩ : ∃ path, window = Byte.slash :: path :=
    List.head?_eq_some_iff.mp (Pattern.head?_of_search?_anchored search)
  obtain ⟨_, _, consumed, moves⟩ := exists_consume_of_search? positive shown within search
  cases taken.symm.trans consumed
  exact moves

/-- Such a text shows in the window, if that spans as many segments. -/
lemma MovesItems.shown {values : Captures} (moves : c.MovesItems items values after)
    (wide : items.count (.byte Byte.slash) < segments) :
    ∃ text left goesOn, Fills items values text ∧
      Path.window segments c.remaining = (Byte.slash :: text ++ left, goesOn) ∧
      endsSegment left goesOn := by
  obtain ⟨text, rest, made, front, boundary, rfl⟩ := moves
  obtain ⟨left, goesOn, shown, ends⟩ :=
    Path.window_of_few_slashes (made.count_slash ▸ wide) boundary
  exact ⟨text, left, goesOn, made, front ▸ shown, ends⟩

/-- **The pattern of items consumes something** if a text made of them is there to be moved, and the window
may be searched. -/
lemma consume_of_movesItems {values : Captures} (moves : c.MovesItems items values after)
    (wide : items.count (.byte Byte.slash) < segments)
    (within : (Path.window segments c.remaining).1.length ≤ Path.windowLimit) :
    ∃ found after, c.consume (itemsPattern items) segments = .taken found after := by
  obtain ⟨text, left, goesOn, made, shown, ends⟩ := moves.shown wide
  rw [shown] at within
  obtain ⟨slots, search⟩ := search?_of_fills made ends
  obtain ⟨found, after, consumed, _⟩ :=
    exists_consume_of_search? (Nat.ne_zero_of_lt wide) shown within search
  exact ⟨found, after, consumed⟩

/-- What fits in a window that may be searched is made of few items. -/
lemma MovesItems.itemsWeight_le {values : Captures} (moves : c.MovesItems items values after)
    (wide : items.count (.byte Byte.slash) < segments)
    (within : (Path.window segments c.remaining).1.length ≤ Path.windowLimit) :
    itemsWeight items ≤ 5 * Path.windowLimit := by
  obtain ⟨text, left, goesOn, made, shown, _⟩ := moves.shown wide
  rw [shown, List.cons_append, List.length_cons, List.length_append] at within
  have weight := made.itemsWeight_le
  omega

end Cursor

end ClauseRouter
