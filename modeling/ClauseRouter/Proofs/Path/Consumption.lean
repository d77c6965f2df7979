import Mathlib.Tactic.ByContra
import Mathlib.Tactic.Lemma
import ClauseRouter.Path.Window

/-!
# Consuming a path keeps it

Whatever a matcher of paths does, the two parts of the cursor make up the same path as before:
bytes only move from the front of what remains to the end of what is consumed.

* `exists_of_takeParts_cons` — what one part does.
* `takeParts_eq_some` — the bytes that parts take and the bytes they leave make up the path.
* `takeParts_append`, `Cursor.consumeParts_append` — parts can be taken some after the others.
* `PathTest.path_of_taken` — hence a match keeps the path, part by part as well as by a pattern.
-/

namespace ClauseRouter

lemma Cursor.path_of_advance? {c after : Cursor} {count : Nat} (h : c.advance? count = some after) :
    after.path = c.path := by
  unfold Cursor.advance? at h
  split at h
  · simp only [Option.some.injEq] at h
    subst h
    simp [Cursor.path]
  · simp at h

lemma Cursor.length_of_advance? {c after : Cursor} {count : Nat} (h : c.advance? count = some after) :
    after.consumed.length = c.consumed.length + count := by
  unfold Cursor.advance? at h
  split at h
  · rename_i within
    simp only [Option.some.injEq] at h
    subst h
    simp [within]
  · simp at h

/-- Advancing over a text that comes next. -/
lemma Cursor.advance?_of_remaining {c : Cursor} {moved rest : Bytes}
    (h : c.remaining = moved ++ rest) :
    c.advance? moved.length = some ⟨c.consumed ++ moved, rest⟩ := by
  have within : moved.length ≤ c.remaining.length := by rw [h, List.length_append]; omega
  rw [Cursor.advance?, if_pos within, h, List.take_left, List.drop_left]

lemma Cursor.consume_of_long {pattern : Pattern} {segments : Nat} {c : Cursor} {window : Bytes}
    {goesOn : Bool} (h : Path.window segments c.remaining = (window, goesOn))
    (long : Path.windowLimit < window.length) : c.consume pattern segments = .rejected := by
  simp [Cursor.consume, h, long]

lemma Cursor.consume_of_none {pattern : Pattern} {segments : Nat} {c : Cursor} {window : Bytes}
    {goesOn : Bool} (h : Path.window segments c.remaining = (window, goesOn))
    (missed : pattern.search? window goesOn = none) : c.consume pattern segments = .rejected := by
  simp [Cursor.consume, h, missed]

/-- What takes something has found it in the window. -/
lemma Cursor.search?_of_consume {pattern : Pattern} {segments : Nat} {c after : Cursor}
    {found : Captures} (taken : c.consume pattern segments = .taken found after) :
    ∃ window goesOn slots, Path.window segments c.remaining = (window, goesOn) ∧
      window.length ≤ Path.windowLimit ∧ pattern.search? window goesOn = some slots := by
  cases shown : Path.window segments c.remaining with
  | mk window goesOn =>
      by_cases long : Path.windowLimit < window.length
      · rw [consume_of_long shown long] at taken
        cases taken
      · cases search : pattern.search? window goesOn with
        | none =>
            rw [consume_of_none shown search] at taken
            cases taken
        | some slots => exact ⟨window, goesOn, slots, rfl, Nat.le_of_not_lt long, search⟩

/-- The text of the first group, nothing where the group was no part of the match. -/
def Pattern.firstText (slots : Pattern.Slots) : Bytes := (slots.map fun slot => slot.getD []).headD []

/-- A pattern that matches claims as many bytes as its first group has, and one. -/
lemma Cursor.consume_of_matched {pattern : Pattern} {segments : Nat} {c : Cursor} {window : Bytes}
    {goesOn : Bool} (h : Path.window segments c.remaining = (window, goesOn))
    (within : window.length ≤ Path.windowLimit) {slots : Pattern.Slots}
    (matched : pattern.search? window goesOn = some slots) :
    c.consume pattern segments
      = (c.advance? (1 + (Pattern.firstText slots).length)).elim
          (.overrun (slots.map fun slot => slot.getD []).tail.dropLast
            (1 + (Pattern.firstText slots).length) c.remaining.length)
          (.taken (slots.map fun slot => slot.getD []).tail.dropLast) := by
  simp only [Cursor.consume, h, matched, if_neg (Nat.not_lt.mpr within), Pattern.firstText]
  cases c.advance? _ with
  | none => rfl
  | some after => rfl

/-- If that many bytes remain behind a slash, it takes them with the slash. -/
lemma Cursor.consume_of_some {pattern : Pattern} {segments : Nat} {c : Cursor} {window : Bytes}
    {goesOn : Bool} (h : Path.window segments c.remaining = (window, goesOn))
    (within : window.length ≤ Path.windowLimit) {slots : Pattern.Slots}
    (matched : pattern.search? window goesOn = some slots) {text rest : Bytes}
    (front : c.remaining = Byte.slash :: text ++ rest)
    (same : text.length = (Pattern.firstText slots).length) :
    c.consume pattern segments = .taken (slots.map fun slot => slot.getD []).tail.dropLast
      ⟨c.consumed ++ Byte.slash :: text, rest⟩ := by
  have advanced := Cursor.advance?_of_remaining front
  rw [List.length_cons, same, Nat.add_comm] at advanced
  rw [Cursor.consume_of_matched h within matched, advanced]
  rfl

lemma takeParts_slash (part : Part) (parts : List Part) (path : Bytes) :
    takeParts (part :: parts) (Byte.slash :: path)
      = if part.accepts (path.takeWhile (· != Byte.slash)) then
          (takeParts parts (path.dropWhile (· != Byte.slash))).map fun (found, taken, rest) =>
            (part.captures (path.takeWhile (· != Byte.slash)) ++ found,
              Byte.slash :: path.takeWhile (· != Byte.slash) ++ taken, rest)
        else none := by
  show (if _ then _ else none) = _
  simp only [Option.map_eq_bind]
  rfl

/-- **Parts one after the other:** those behind take from what those in front have left. -/
lemma takeParts_append (first second : List Part) (path : Bytes) :
    takeParts (first ++ second) path =
      (takeParts first path).bind fun (found, taken, between) =>
        (takeParts second between).map fun (found', taken', rest) =>
          (found ++ found', taken ++ taken', rest) := by
  induction first generalizing path with
  | nil => simp [takeParts]
  | cons part parts ih =>
      cases path with
      | nil => rfl
      | cons b path =>
          by_cases slash : b = Byte.slash
          · subst slash
            rw [List.cons_append, takeParts_slash, takeParts_slash]
            split
            · rw [ih]
              cases takeParts parts (path.dropWhile (· != Byte.slash)) <;>
                simp [Function.comp_def]
            · rfl
          · simp [takeParts, slash]

/-- Everything that is true when a list of parts has taken something: the first part has taken one
segment with the slash in front of it, and the other parts what follows. -/
lemma exists_of_takeParts_cons {part : Part} {parts : List Part} {path : Bytes} {found : Captures}
    {taken rest : Bytes} (h : takeParts (part :: parts) path = some (found, taken, rest)) :
    ∃ segment behind found' taken', path = Byte.slash :: segment ++ behind ∧
      Byte.slash ∉ segment ∧ (behind = [] ∨ behind.head? = some Byte.slash) ∧
      part.accepts segment ∧ takeParts parts behind = some (found', taken', rest) ∧
      found = part.captures segment ++ found' ∧ taken = Byte.slash :: segment ++ taken' := by
  have first : path.head? = some Byte.slash := by
    cases path with
    | nil => simp [takeParts] at h
    | cons b path =>
        by_contra other
        have ne : b ≠ Byte.slash := by simpa using other
        simp [takeParts, ne] at h
  obtain ⟨path, rfl⟩ := List.head?_eq_some_iff.mp first
  rw [takeParts_slash] at h
  split at h
  · rename_i accepted
    simp only [Option.map_eq_some_iff, Prod.mk.injEq, Prod.exists] at h
    obtain ⟨found', taken', rest', took, rfl, rfl, rfl⟩ := h
    refine ⟨_, _, found', taken', ?_, ?_, ?_, accepted, took, rfl, rfl⟩
    · rw [List.cons_append, List.takeWhile_append_dropWhile]
    · intro mem
      have inside := List.all_eq_true.mp List.all_takeWhile Byte.slash mem
      simp at inside
    · have stop := List.head?_dropWhile_not (· != Byte.slash) path
      cases left : path.dropWhile (· != Byte.slash) with
      | nil => exact .inl rfl
      | cons b rest =>
          rw [left] at stop
          exact .inr (by simpa using stop)
  · simp at h

/-- The bytes that parts take and the bytes that they leave make up the path. -/
lemma takeParts_eq_some {parts : List Part} {path : Bytes} {found : Captures} {taken rest : Bytes}
    (h : takeParts parts path = some (found, taken, rest)) : path = taken ++ rest := by
  induction parts generalizing path found taken with
  | nil => cases h; rfl
  | cons part parts ih =>
      obtain ⟨segment, behind, found', taken', rfl, _, _, _, took, _, rfl⟩ :=
        exists_of_takeParts_cons h
      rw [ih took, List.append_assoc]

/-- What parts leave is empty or begins with a slash, once they have taken something. -/
lemma takeParts_boundary {parts : List Part} (nonempty : parts ≠ []) {path : Bytes}
    {found : Captures} {taken rest : Bytes} (h : takeParts parts path = some (found, taken, rest)) :
    (∃ text, taken = Byte.slash :: text) ∧ (rest = [] ∨ rest.head? = some Byte.slash) := by
  induction parts generalizing path found taken with
  | nil => exact absurd rfl nonempty
  | cons part parts ih =>
      obtain ⟨segment, behind, found', taken', rfl, _, boundary, _, took, _, rfl⟩ :=
        exists_of_takeParts_cons h
      refine ⟨⟨_, rfl⟩, ?_⟩
      cases parts with
      | nil => cases took; exact boundary
      | cons next parts => exact (ih (by simp) took).2

lemma Cursor.path_of_consumeParts {parts : List Part} {c after : Cursor} {found : Captures}
    (h : c.consumeParts parts = .taken found after) : after.path = c.path := by
  unfold Cursor.consumeParts at h
  split at h
  · simp at h
  · split at h
    · simp at h
    · rename_i found' taken rest htake
      simp only [Consumption.taken.injEq] at h
      obtain ⟨_, rfl⟩ := h
      simp [Cursor.path, takeParts_eq_some htake]

/-- So consuming all of them is consuming some and then the others. -/
lemma Cursor.consumeParts_append {first second : List Part} (nonempty : first ≠ [])
    (nonempty' : second ≠ []) (c : Cursor) :
    c.consumeParts (first ++ second) =
      match c.consumeParts first with
      | .taken found between =>
        match between.consumeParts second with
        | .taken found' after => .taken (found ++ found') after
        | refused => refused
      | refused => refused := by
  have whole : (first ++ second).isEmpty = false := by simp [nonempty]
  have front : first.isEmpty = false := by simp [nonempty]
  have back : second.isEmpty = false := by simp [nonempty']
  simp only [consumeParts, whole, front, back, takeParts_append, Bool.false_eq_true, if_false]
  cases takeParts first c.remaining with
  | none => rfl
  | some taking =>
      obtain ⟨found, taken, between⟩ := taking
      cases taking : takeParts second between with
      | none => simp [taking]
      | some taking' => simp [taking]

/-- They fit exactly if some fit and then the others. -/
lemma Cursor.consumeParts_append_eq_taken {first second : List Part} (nonempty : first ≠ [])
    (nonempty' : second ≠ []) {c after : Cursor} {found : Captures} :
    c.consumeParts (first ++ second) = .taken found after ↔
      ∃ found₁ between found₂, c.consumeParts first = .taken found₁ between ∧
        between.consumeParts second = .taken found₂ after ∧ found = found₁ ++ found₂ := by
  rw [c.consumeParts_append nonempty nonempty']
  cases c.consumeParts first with
  | rejected => simp
  | overrun _ _ _ => simp
  | taken found₁ between =>
      cases taken : between.consumeParts second with
      | rejected => simp [taken]
      | overrun _ _ _ => simp [taken]
      | taken found₂ final =>
          simp only [taken]
          constructor
          · rintro ⟨⟩
            exact ⟨_, _, _, rfl, taken, rfl⟩
          · rintro ⟨_, _, _, ⟨⟩, taken', rfl⟩
            rw [taken] at taken'
            cases taken'
            rfl

lemma Cursor.path_of_consume {pattern : Pattern} {segments : Nat} {c after : Cursor}
    {found : Captures} (h : c.consume pattern segments = .taken found after) :
    after.path = c.path := by
  unfold Cursor.consume at h
  dsimp only at h
  split at h
  · simp at h
  · split at h
    · simp at h
    · split at h
      · rename_i hadvance
        simp only [Consumption.taken.injEq] at h
        obtain ⟨_, rfl⟩ := h
        exact Cursor.path_of_advance? hadvance
      · simp at h

/-- **A match keeps the path:** what a matcher of paths takes is what it moves. -/
lemma PathTest.path_of_taken {test : PathTest} {c after : Cursor} {found : Captures}
    (h : test.run c = .taken found after) : after.path = c.path := by
  cases test with
  | parts parts => exact Cursor.path_of_consumeParts h
  | pattern anchored span => exact Cursor.path_of_consume h

end ClauseRouter
