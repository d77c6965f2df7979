import ClauseRouter.Proofs.Path.PlainMatch

/-!
# Plain templates need no pattern

The parts of a plain template, compared with the segments of a path one by one, do what the pattern
of the template does on the window of the path that it is searched in.  Both move a text made of the items
of the template, and in front of a segment's end there is only one.

**Weight.**  A pattern has a limit on its weight, and parts have none: a template of very many parts
is compared, while its pattern cannot be compiled (`Template.compile?_expand`).
-/

namespace ClauseRouter

open Pattern (compile? Parser.weightLimit)

/-! ## The pattern and the parts -/

namespace Template

/-- The pattern of a template has at least as many slashes as there are slashes between its parts. -/
lemma length_le_count_slash (parts : List Part) :
    parts.length ≤ 1 + ((items parts).flatMap Item.source).count Byte.slash := by
  induction parts with
  | nil => simp
  | cons part parts ih =>
      cases parts with
      | nil => simp
      | cons next parts =>
          rw [items_cons_cons, List.flatMap_append, List.flatMap_cons, Item.source, List.count_append,
            List.count_append, List.count_singleton_self, List.length_cons]
          omega

/-- The slashes among the items are those between the parts. -/
lemma count_slash_items {parts : List Part} (nonempty : parts ≠ [])
    (whole : ∀ text, .literal text ∈ parts → Byte.slash ∉ text) :
    (items parts).count (.byte Byte.slash) < parts.length := by
  induction parts with
  | nil => exact absurd rfl nonempty
  | cons part parts ih =>
      have own : (partItems part).count (.byte Byte.slash) = 0 := by
        cases part with
        | literal text =>
            have inside := whole text List.mem_cons_self
            rw [List.count_eq_zero]
            simpa [partItems] using inside
        | placeholder => rfl
      cases parts with
      | nil => simp [items, own]
      | cons next parts =>
          have others := ih (by simp) fun text mem => whole text (List.mem_cons_of_mem _ mem)
          rw [items_cons_cons, List.count_append, own, List.count_cons_self, List.length_cons]
          omega

/-- **The anchored pattern of a plain template does what its parts do.** -/
lemma consume_anchoredPattern {parts : List Part} (nonempty : parts ≠ [])
    (whole : ∀ text, .literal text ∈ parts → Byte.slash ∉ text) {segments : Nat}
    (wide : parts.length ≤ segments) {c : Cursor}
    (within : (Path.window segments c.remaining).1.length ≤ Path.windowLimit) :
    c.consume (anchoredPattern parts) segments = c.consumeParts parts := by
  have few := Nat.lt_of_lt_of_le (count_slash_items nonempty whole) wide
  have positive : segments ≠ 0 := Nat.ne_zero_of_lt few
  have keeps : (PathTest.pattern (anchoredPattern parts) segments).KeepsSegments :=
    PathTest.keepsSegments_pattern.mpr (Pattern.endsSegments_anchored (Nat.le_add_left 1 _) positive)
  -- neither of the two overruns, so it is enough that each takes what the other takes
  rcases keeps c with rejected | ⟨found, after, taken, _⟩
  · rcases PathTest.keepsSegments_parts parts c with rejected' | ⟨found, after, taken, _⟩
    · exact rejected.trans rejected'.symm
    · have moves := (Cursor.consumeParts_iff nonempty whole).mp taken
      obtain ⟨_, _, taken'⟩ := Cursor.consume_of_movesItems moves few within
      cases rejected.symm.trans taken'
  · have moves := Cursor.movesItems_of_consume positive taken
    exact taken.trans ((Cursor.consumeParts_iff nonempty whole).mpr moves).symm

/-- **A plain template needs no pattern:** its parts do on every path what its anchored pattern does,
as long as the window of the path may be searched.  The pattern can be compiled if and only if it is
not too heavy. -/
theorem consume_eq_consumeParts {template : Bytes} (plain : isPlain template) :
    ((compile? (Path.anchored (expand template))).isSome
        ↔ weight (parts template) ≤ Parser.weightLimit) ∧
      ∀ pattern, compile? (Path.anchored (expand template)) = some pattern →
        ∀ c : Cursor,
          (Path.window (Path.span (expand template)) c.remaining).1.length ≤ Path.windowLimit →
            c.consume pattern (Path.span (expand template)) = c.consumeParts (parts template) := by
  rw [compile?_expand plain]
  constructor
  · split <;> simp_all
  · intro pattern compiled c within
    split at compiled
    · cases compiled
      have nonempty : parts template ≠ [] := fun empty =>
        List.splitOn_ne_nil Byte.slash template (List.map_eq_nil_iff.mp empty)
      have wide : (parts template).length ≤ Path.span (expand template) := by
        rw [Path.span, expand_eq plain]
        exact length_le_count_slash _
      exact consume_anchoredPattern nonempty (fun text mem => not_mem_of_literal plain mem) wide
        within
    · cases compiled

/-- A template with text and a placeholder, on a path that goes on behind both. -/
theorem consume_eq_consumeParts_users :
    ∃ pattern, compile? (Path.anchored (expand (ascii "users/:id"))) = some pattern ∧
      Cursor.consume pattern 3 ⟨[], ascii "/users/7/posts"⟩
        = .taken [ascii "7"] ⟨ascii "/users/7", ascii "/posts"⟩ := by
  have plain : isPlain (ascii "users/:id") := by decide +kernel
  have light : weight (parts (ascii "users/:id")) ≤ Parser.weightLimit := by decide +kernel
  obtain ⟨compiles, agree⟩ := consume_eq_consumeParts plain
  obtain ⟨pattern, compiled⟩ := Option.isSome_iff_exists.mp (compiles.mpr light)
  refine ⟨pattern, compiled, ?_⟩
  have same := agree pattern compiled ⟨[], ascii "/users/7/posts"⟩ (by decide +kernel)
  have spans : Path.span (expand (ascii "users/:id")) = 3 := by decide +kernel
  rw [spans] at same
  rw [same]
  decide +kernel

/-! ## Heavy templates -/

/-- A row of `n + 1` placeholders. -/
def row (n : Nat) : Bytes := Bytes.join Byte.slash (List.replicate (n + 1) (ascii ":a"))

section

variable (n : Nat)

lemma split_row : Bytes.split Byte.slash (row n) = List.replicate (n + 1) (ascii ":a") := by
  refine Bytes.split_join (by simp) fun text mem => ?_
  rw [List.eq_of_mem_replicate mem]
  decide

lemma isPlain_row : isPlain (row n) := by
  have plain : isPlainPart (ascii ":a") = true := by decide
  rw [isPlain, split_row, List.all_eq_true]
  intro text mem
  rwa [List.eq_of_mem_replicate mem]

lemma parts_row : parts (row n) = List.replicate (n + 1) .placeholder := by
  have placeholder : Part.ofText (ascii ":a") = .placeholder := by decide
  rw [parts, split_row, List.map_replicate, placeholder]

/-- Every placeholder of a row weighs five, and every slash one. -/
lemma weight_row : weight (parts (row n)) = 6 * n + 22 := by
  rw [parts_row, weight]
  induction n with
  | zero => rfl
  | succ n ih =>
      have first : items (List.replicate (n + 2) .placeholder)
          = .segment :: .byte Byte.slash :: items (List.replicate (n + 1) .placeholder) := by
        rw [List.replicate_succ, List.replicate_succ, items_cons_cons]
        rfl
      rw [first, itemsWeight, itemsWeight, Item.weight, Item.weight]
      omega

end

/-- On a path without segments, the parts of a long row reject, while its pattern cannot be
compiled. -/
theorem compile?_row_eq_none :
    isPlain (row 16669) ∧ compile? (Path.anchored (expand (row 16669))) = none ∧
      (Path.window (Path.span (expand (row 16669))) (ascii "/")).1.length ≤ Path.windowLimit ∧
      Cursor.consumeParts (parts (row 16669)) ⟨[], ascii "/"⟩ = .rejected := by
  have slash : ascii "/" = [Byte.slash] := by decide
  refine ⟨isPlain_row _, ?_, ?_, ?_⟩
  · rw [compile?_expand (isPlain_row _), weight_row]
    rfl
  · obtain ⟨behind, whole, _⟩ := Path.window_append (Path.span_ne_zero (expand (row 16669))) (ascii "/")
    have short := congrArg List.length whole
    rw [slash, List.length_append, List.length_singleton] at short
    rw [slash, Path.windowLimit]
    omega
  · rw [parts_row, slash, Cursor.consumeParts, List.replicate_succ, takeParts_slash]
    rfl

end Template

end ClauseRouter
