import ClauseRouter.Proofs.Path.ItemsConsume

/-!
# Instances of a template

What a template means, without patterns: a path goes on with the text of the template in which every
placeholder, a colon with the longest name behind it, is replaced by a segment of its own.

* `Template.instantiate` — the text with values for its placeholders; `Template.placeholders` — how many
  it needs.
* `Template.Starts` — a path that begins with an instance, in front of the end of a segment;
  `Cursor.past` — the cursor behind it.
* `Template.fills_iff` — the instances of a template are the texts made of its items;
  `Cursor.movesItems_iff` — hence they are what a cursor moves for the items.
-/

namespace ClauseRouter

namespace Template

/-- A colon in front of a word byte begins a placeholder. -/
def opens (b : UInt8) (rest : Bytes) : Bool := b == Byte.colon && rest.head?.any Bytes.isWordByte

/-- The number of placeholders in a template. -/
def placeholders : Bytes → Nat
  | [] => 0
  | b :: rest => if opens b rest then placeholders rest + 1 else placeholders rest

/-- A template with its placeholders replaced by values, in order.  The name of a placeholder ends
where the word bytes end. -/
def instantiate : Bytes → Captures → Bytes
  | [], _ => []
  | b :: rest, values =>
    if opens b rest then
      values.headD [] ++ instantiate (rest.dropWhile Bytes.isWordByte) values.tail
    else b :: instantiate rest values
termination_by template => template.length
decreasing_by
  · exact Nat.lt_succ_of_le (List.dropWhile_sublist _).length_le
  · exact Nat.lt_succ_self _

/-- **A path begins with an instance of a template:** every placeholder has a value of its own, which
could be a segment, and where the instance ends a segment ends. -/
structure Starts (template : Bytes) (values : Captures) (path rest : Bytes) : Prop where
  count : values.length = placeholders template
  proper : ∀ value ∈ values, Path.IsSegment value
  path_eq : path = Byte.slash :: instantiate template values ++ rest
  boundary : rest = [] ∨ rest.head? = some Byte.slash

end Template

/-- The cursor behind an instance of a template. -/
def Cursor.past (c : Cursor) (template : Bytes) (values : Captures) (rest : Bytes) : Cursor :=
  ⟨c.consumed ++ Byte.slash :: Template.instantiate template values, rest⟩

namespace Template

/-! ## Items -/

/-- A name has no items, and no placeholders. -/
lemma itemsFrom_true (rest : Bytes) :
    itemsFrom true rest = itemsFrom false (rest.dropWhile Bytes.isWordByte) := by
  have ends : ∀ b, (rest.dropWhile Bytes.isWordByte).head? = some b → ¬ Bytes.isWordByte b := by
    intro b first
    have stop := List.head?_dropWhile_not Bytes.isWordByte rest
    rw [first] at stop
    simpa using stop
  have read := itemsFrom_name (List.all_takeWhile (p := Bytes.isWordByte) (l := rest))
    (rest.dropWhile Bytes.isWordByte)
  rwa [List.takeWhile_append_dropWhile, itemsFrom_of_ends ends] at read

lemma placeholders_dropWhile (rest : Bytes) :
    placeholders (rest.dropWhile Bytes.isWordByte) = placeholders rest := by
  induction rest with
  | nil => rfl
  | cons b rest ih =>
      by_cases word : Bytes.isWordByte b
      · have other : b ≠ Byte.colon := by
          rintro rfl
          exact absurd word (by decide)
        rw [List.dropWhile_cons_of_pos word, ih, placeholders]
        simp [opens, other]
      · rw [List.dropWhile_cons_of_neg word]

lemma itemsFrom_cons (b : UInt8) (rest : Bytes) :
    itemsFrom false (b :: rest)
      = if opens b rest then .segment :: itemsFrom false (rest.dropWhile Bytes.isWordByte)
        else .byte b :: itemsFrom false rest := by
  rw [← itemsFrom_true, itemsFrom, Bool.false_and, opens]
  rfl

/-- **The instances of a template are made of its items.** -/
lemma fills_iff {template : Bytes} {values : Captures} {text : Bytes} :
    Fills (itemsFrom false template) values text ↔
      values.length = placeholders template ∧ (∀ value ∈ values, Path.IsSegment value) ∧
        text = instantiate template values := by
  -- along the template, where a placeholder takes one of the values
  fun_induction instantiate template values generalizing text with
  | case1 values =>
      rw [itemsFrom, placeholders, List.length_eq_zero_iff]
      constructor
      · rintro ⟨⟩
        exact ⟨rfl, by simp, rfl⟩
      · rintro ⟨rfl, _, rfl⟩
        exact .nil
  | case2 values b rest opening ih =>
      rw [itemsFrom_cons, if_pos opening, placeholders, if_pos opening]
      constructor
      · rintro ⟨⟩
        rename_i value values text proper made
        obtain ⟨count, others, rfl⟩ := ih.mp made
        rw [placeholders_dropWhile] at count
        exact ⟨by rw [List.length_cons, ← count]; rfl, List.forall_mem_cons.mpr ⟨proper, others⟩, rfl⟩
      · rintro ⟨count, proper, rfl⟩
        obtain ⟨value, values, rfl⟩ := List.exists_cons_of_length_eq_add_one count
        obtain ⟨proper, others⟩ := List.forall_mem_cons.mp proper
        refine .segment proper (ih.mpr ⟨?_, others, rfl⟩)
        rw [placeholders_dropWhile]
        exact Nat.succ.inj count
  | case3 values b rest other ih =>
      rw [itemsFrom_cons, if_neg other, placeholders, if_neg other]
      constructor
      · rintro ⟨⟩
        rename_i text made
        obtain ⟨count, proper, rfl⟩ := ih.mp made
        exact ⟨count, proper, rfl⟩
      · rintro ⟨count, proper, rfl⟩
        exact .byte (ih.mpr ⟨count, proper, rfl⟩)

end Template

/-- The texts that a cursor moves for the items of a template are its instances. -/
lemma Cursor.movesItems_iff {template : Bytes} {values : Captures} {before after : Cursor} :
    before.MovesItems (Template.itemsFrom false template) values after ↔
      ∃ rest, Template.Starts template values before.remaining rest ∧
        after = before.past template values rest := by
  constructor
  · rintro ⟨text, rest, made, front, boundary, rfl⟩
    obtain ⟨count, proper, rfl⟩ := Template.fills_iff.mp made
    exact ⟨rest, ⟨count, proper, front, boundary⟩, rfl⟩
  · rintro ⟨rest, ⟨count, proper, front, boundary⟩, rfl⟩
    exact ⟨_, rest, Template.fills_iff.mpr ⟨count, proper, rfl⟩, front, boundary, rfl⟩

end ClauseRouter
