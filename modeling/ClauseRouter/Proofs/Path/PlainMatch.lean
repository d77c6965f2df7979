import ClauseRouter.Proofs.Path.ItemsConsume
import ClauseRouter.Proofs.Path.PlainPattern

/-!
# Matching the parts of a plain template

A plain template leaves a search no choice.  What stands behind a placeholder is a slash or the end of a
path, so there is only one text of its items in front of the end of a segment: the segments of the path,
one by one, as `takeParts` takes them.

* `Template.fills_partItems` — the items of one part make up the segments that it accepts.
* `Template.takeParts_iff` — parts take what is made of their items.
* `Cursor.consumeParts_iff` — hence parts move what the pattern of the items could move.
-/

namespace ClauseRouter

namespace Template

/-! ## Parts -/

lemma fills_literal {text : Bytes} {values : Captures} {made : Bytes} :
    Fills (text.map .byte) values made ↔ values = [] ∧ made = text := by
  induction text generalizing made with
  | nil =>
      constructor
      · rintro ⟨⟩
        exact ⟨rfl, rfl⟩
      · rintro ⟨rfl, rfl⟩
        exact .nil
  | cons b text ih =>
      constructor
      · rintro ⟨⟩
        rename_i rest
        obtain ⟨rfl, rfl⟩ := ih.mp rest
        exact ⟨rfl, rfl⟩
      · rintro ⟨rfl, rfl⟩
        exact .byte (ih.mpr ⟨rfl, rfl⟩)

/-- The items of a part make up the segments that it accepts. -/
lemma fills_partItems {part : Part} (whole : ∀ text, part = .literal text → Byte.slash ∉ text)
    {values : Captures} {segment : Bytes} :
    Fills (partItems part) values segment
      ↔ part.accepts segment ∧ Byte.slash ∉ segment ∧ values = part.captures segment := by
  cases part with
  | literal text =>
      have inside := whole text rfl
      rw [partItems, fills_literal, Part.accepts, beq_iff_eq, Part.captures]
      constructor
      · rintro ⟨rfl, rfl⟩
        exact ⟨rfl, inside, rfl⟩
      · rintro ⟨rfl, _, rfl⟩
        exact ⟨rfl, rfl⟩
  | placeholder =>
      rw [partItems, fills_segment, Path.IsSegment, Part.accepts, Part.captures, Bool.not_eq_true',
        List.isEmpty_eq_false_iff]
      exact ⟨fun ⟨captured, nonempty, inside⟩ => ⟨nonempty, inside, captured⟩,
        fun ⟨nonempty, inside, captured⟩ => ⟨captured, nonempty, inside⟩⟩

/-- A segment ends where the next one begins. -/
lemma segment_append {segment behind : Bytes} (whole : Byte.slash ∉ segment)
    (boundary : behind = [] ∨ behind.head? = some Byte.slash) :
    (segment ++ behind).takeWhile (· != Byte.slash) = segment ∧
      (segment ++ behind).dropWhile (· != Byte.slash) = behind := by
  have inside : ∀ b ∈ segment, (b != Byte.slash) = true := by
    intro b mem
    rw [bne_iff_ne]
    rintro rfl
    exact whole mem
  have ended : behind.takeWhile (· != Byte.slash) = [] ∧ behind.dropWhile (· != Byte.slash) = behind := by
    rcases boundary with rfl | slash
    · exact ⟨rfl, rfl⟩
    · obtain ⟨rest, rfl⟩ := List.head?_eq_some_iff.mp slash
      simp
  rw [List.takeWhile_append_of_pos inside, List.dropWhile_append_of_pos inside, ended.1, ended.2,
    List.append_nil]
  exact ⟨rfl, rfl⟩

/-- What a row of parts does: its first part takes a segment, and the others what follows. -/
lemma takeParts_cons_iff {part : Part} {parts : List Part} {path : Bytes} {found : Captures}
    {taken rest : Bytes} :
    takeParts (part :: parts) path = some (found, taken, rest) ↔
      ∃ segment behind found' taken', path = Byte.slash :: segment ++ behind ∧
        Byte.slash ∉ segment ∧ (behind = [] ∨ behind.head? = some Byte.slash) ∧
        part.accepts segment ∧ takeParts parts behind = some (found', taken', rest) ∧
        found = part.captures segment ++ found' ∧ taken = Byte.slash :: segment ++ taken' := by
  refine ⟨exists_of_takeParts_cons, ?_⟩
  rintro ⟨segment, behind, found', taken', rfl, whole, boundary, accepted, took, rfl, rfl⟩
  obtain ⟨same, left⟩ := segment_append whole boundary
  rw [List.cons_append, takeParts_slash, same, left, if_pos accepted, took]
  rfl

/-- **Parts take what is made of their items,** in front of the end of a segment. -/
lemma takeParts_iff {parts : List Part} (nonempty : parts ≠ [])
    (whole : ∀ text, .literal text ∈ parts → Byte.slash ∉ text) {path : Bytes} {found : Captures}
    {taken rest : Bytes} :
    takeParts parts path = some (found, taken, rest) ↔
      ∃ text, taken = Byte.slash :: text ∧ path = Byte.slash :: text ++ rest ∧
        Fills (items parts) found text ∧ (rest = [] ∨ rest.head? = some Byte.slash) := by
  induction parts generalizing path found taken with
  | nil => exact absurd rfl nonempty
  | cons part parts ih =>
      -- the last part has no slash behind it, so a single part is a case of its own
      have own : ∀ text, part = .literal text → Byte.slash ∉ text := fun text eq =>
        whole text (by simp [eq])
      rw [takeParts_cons_iff]
      cases parts with
      | nil =>
          have single : items [part] = partItems part := by simp [items]
          simp only [single, fills_partItems own, takeParts, Option.some.injEq, Prod.mk.injEq]
          constructor
          · rintro ⟨segment, behind, _, _, rfl, inside, boundary, accepted, ⟨rfl, rfl, rfl⟩, rfl, rfl⟩
            exact ⟨segment, by simp, rfl, ⟨accepted, inside, by simp⟩, boundary⟩
          · rintro ⟨text, rfl, rfl, ⟨accepted, inside, rfl⟩, boundary⟩
            exact ⟨text, rest, [], [], rfl, inside, boundary, accepted, ⟨rfl, rfl, rfl⟩, by simp, by simp⟩
      | cons next parts =>
          have rest_iff := @ih (by simp) fun text mem => whole text (List.mem_cons_of_mem _ mem)
          simp only [rest_iff, items_cons_cons]
          constructor
          · rintro ⟨segment, _, found', _, rfl, inside, _, accepted, ⟨text, rfl, rfl, made, boundary⟩,
              rfl, rfl⟩
            refine ⟨segment ++ Byte.slash :: text, by simp, by simp, ?_, boundary⟩
            exact ((fills_partItems own).mpr ⟨accepted, inside, rfl⟩).append made.byte
          · rintro ⟨_, rfl, rfl, made, boundary⟩
            obtain ⟨_, segment, found', _, rfl, rfl, first, others⟩ := made.exists_of_append
            obtain ⟨accepted, inside, rfl⟩ := (fills_partItems own).mp first
            cases others
            rename_i text others
            exact ⟨segment, Byte.slash :: text ++ rest, found', Byte.slash :: text, by simp, inside,
              .inr rfl, accepted, ⟨text, rfl, rfl, others, boundary⟩, rfl, by simp⟩

end Template

/-- **Consuming parts moves what is made of their items.** -/
lemma Cursor.consumeParts_iff {parts : List Part} (nonempty : parts ≠ [])
    (whole : ∀ text, .literal text ∈ parts → Byte.slash ∉ text) {c after : Cursor} {found : Captures} :
    c.consumeParts parts = .taken found after ↔ c.MovesItems (Template.items parts) found after := by
  have parted : parts.isEmpty = false := by simpa using nonempty
  rw [consumeParts, parted]
  constructor
  · intro consumed
    cases took : takeParts parts c.remaining with
    | none =>
        rw [took] at consumed
        cases consumed
    | some taking =>
        obtain ⟨found', taken, rest⟩ := taking
        obtain ⟨text, rfl, front, made, boundary⟩ := (Template.takeParts_iff nonempty whole).mp took
        rw [took] at consumed
        cases consumed
        exact ⟨text, rest, made, front, boundary, rfl⟩
  · rintro ⟨text, rest, made, front, boundary, rfl⟩
    rw [(Template.takeParts_iff nonempty whole).mpr ⟨text, rfl, front, made, boundary⟩]
    rfl

end ClauseRouter
