import ClauseRouter.Proofs.Bytes
import ClauseRouter.Proofs.Path.Items

/-!
# The pattern of a plain template

The parts of a plain template are text without special bytes, or whole placeholders.  So the items of
its pattern can be read off its parts.

* `Template.items` — the items of a list of parts; `Template.itemsFrom_eq` — they are those of the
  template.
* `Template.compile?_expand` — the anchored pattern.  All that can stand in its way is the limit on
  the weight of a pattern: `Template.weight`.
-/

namespace ClauseRouter

open Pattern

namespace Template

def partItems : Part → List Item
  | .literal text => text.map .byte
  | .placeholder => [.segment]

/-- The items of a list of parts, with a slash between each two parts. -/
def items (parts : List Part) : List Item := [.byte Byte.slash].intercalate (parts.map partItems)

lemma items_cons_cons (part next : Part) (parts : List Part) :
    items (part :: next :: parts)
      = partItems part ++ .byte Byte.slash :: items (next :: parts) := by
  simp [items]

/-! ## Parts -/

/-- A slash between two templates is a slash between their parts. -/
lemma parts_append_slash (s t : Bytes) : parts (s ++ Byte.slash :: t) = parts s ++ parts t := by
  rw [parts, Bytes.split, List.splitOn_append_cons_self, List.map_append]
  rfl

lemma isPlain_join {s t : Bytes} (plain : isPlain s) (plain' : isPlain t) :
    isPlain (s ++ Byte.slash :: t) := by
  rw [isPlain, Bytes.split, List.splitOn_append_cons_self, List.all_append, Bool.and_eq_true]
  exact ⟨plain, plain'⟩

/-- A plain part is a name behind a colon, or text without special bytes. -/
lemma isPlainPart_cases {text : Bytes} (plain : isPlainPart text) :
    (∃ name, text = Byte.colon :: name ∧ name ≠ [] ∧ name.all Bytes.isWordByte ∧
      Part.ofText text = .placeholder) ∨
    (text.all fun b => !special.contains b) ∧ Part.ofText text = .literal text := by
  unfold isPlainPart at plain
  split at plain
  · rename_i name
    rw [Bool.and_eq_true] at plain
    cases name with
    | nil => cases plain.1
    | cons b name => exact .inl ⟨_, rfl, List.cons_ne_nil _ _, plain.2, rfl⟩
  · rename_i ordinary
    refine .inr ⟨plain, ?_⟩
    unfold Part.ofText
    split
    · exact absurd rfl (ordinary _)
    · rfl

/-- A plain part has its items on its own if the text ends behind it or goes on with a slash. -/
lemma itemsFrom_part {text : Bytes} (plain : isPlainPart text) {rest : Bytes}
    (ends : rest = [] ∨ rest.head? = some Byte.slash) :
    itemsFrom false (text ++ rest) = partItems (.ofText text) ++ itemsFrom false rest := by
  rcases isPlainPart_cases plain with ⟨name, rfl, nonempty, word, placeholder⟩ | ⟨plain, literal⟩
  · have wordEnds : ∀ b, rest.head? = some b → ¬ Bytes.isWordByte b := by
      rintro b first
      rcases ends with rfl | slash
      · cases first
      · cases slash.symm.trans first
        decide
    rw [placeholder, itemsFrom_placeholder nonempty word wordEnds]
    rfl
  · rw [literal, itemsFrom_literal plain]
    rfl

/-- The items of a plain template, part by part. -/
lemma itemsFrom_join {texts : List Bytes} (plain : ∀ text ∈ texts, isPlainPart text) :
    itemsFrom false (Bytes.join Byte.slash texts) = items (texts.map .ofText) := by
  induction texts with
  | nil => rfl
  | cons text texts ih =>
      have rest := ih fun text mem => plain text (List.mem_cons_of_mem _ mem)
      have own := plain text List.mem_cons_self
      cases texts with
      | nil =>
          have alone := itemsFrom_part own (.inl rfl)
          simpa [Bytes.join, itemsFrom, items] using alone
      | cons next texts =>
          have slash (after : Bytes) :
              itemsFrom false (Byte.slash :: after) = .byte Byte.slash :: itemsFrom false after := rfl
          rw [Bytes.join_cons_cons, itemsFrom_part own (.inr rfl), slash, rest]
          simp [items_cons_cons]

lemma isOrdinary_part {text : Bytes} (plain : isPlainPart text) : isOrdinary text := by
  have plainly (b : UInt8) : (!special.contains b) = true → (!operators.contains b) = true := by
    have within : special = operators ++ [Byte.colon] := by decide
    rw [within]
    simp +contextual
  rcases isPlainPart_cases plain with ⟨name, rfl, _, words, _⟩ | ⟨plain, _⟩
  · rw [isOrdinary, List.all_cons, Bool.and_eq_true]
    exact ⟨by decide, List.all_eq_true.mpr fun b mem =>
      not_operator_of_isWordByte (List.all_eq_true.mp words b mem)⟩
  · exact List.all_eq_true.mpr fun b mem => plainly b (List.all_eq_true.mp plain b mem)

lemma isOrdinary_join {texts : List Bytes} (plain : ∀ text ∈ texts, isPlainPart text) :
    isOrdinary (Bytes.join Byte.slash texts) := by
  induction texts with
  | nil => rfl
  | cons text texts ih =>
      have rest := ih fun text mem => plain text (List.mem_cons_of_mem _ mem)
      have own := isOrdinary_part (plain text List.mem_cons_self)
      cases texts with
      | nil => simpa [Bytes.join] using own
      | cons next texts =>
          rw [Bytes.join_cons_cons, isOrdinary, List.all_append, List.all_cons, Bool.and_eq_true,
            Bool.and_eq_true]
          exact ⟨own, by decide, rest⟩

section

variable {template : Bytes} (plain : isPlain template)

include plain

lemma isPlainPart_of_mem_split :
    ∀ text ∈ Bytes.split Byte.slash template, isPlainPart text := by
  simpa [isPlain] using plain

/-- **The items of a plain template** are those of its parts. -/
lemma itemsFrom_eq : itemsFrom false template = items (parts template) := by
  have read := itemsFrom_join (isPlainPart_of_mem_split plain)
  rw [Bytes.join_split] at read
  exact read

/-- The text of a plain template is that of its items. -/
lemma expand_eq : expand template = (items (parts template)).flatMap Item.source := by
  rw [expand, expandFrom_eq, itemsFrom_eq plain]

lemma isOrdinary_of_isPlain : isOrdinary template := by
  have ordinary := isOrdinary_join (isPlainPart_of_mem_split plain)
  rwa [Bytes.join_split] at ordinary

lemma not_mem_of_literal {text : Bytes} (mem : .literal text ∈ parts template) :
    Byte.slash ∉ text := by
  obtain ⟨part, mem, made⟩ := List.mem_map.mp mem
  rcases isPlainPart_cases (isPlainPart_of_mem_split plain part mem) with
    ⟨_, _, _, _, placeholder⟩ | ⟨_, literal⟩
  · rw [placeholder] at made; cases made
  · rw [literal] at made
    cases made
    exact Bytes.not_mem_of_mem_split mem

end

/-! ## The pattern -/

/-- The weight of the anchored pattern of a plain template. -/
def weight (parts : List Part) : Nat := itemsWeight (items parts) + 17

/-- The anchored pattern of a plain template: every part is in the first group, and every placeholder
is a group in it. -/
def anchoredPattern (parts : List Part) : Pattern := itemsPattern (items parts)

/-- **Compiling the pattern of a plain template.** -/
lemma compile?_expand {template : Bytes} (plain : isPlain template) :
    compile? (Path.anchored (expand template))
      = if weight (parts template) ≤ Parser.weightLimit then
          some (anchoredPattern (parts template))
        else none := by
  have ordinary := isOrdinary_itemsFrom (isOrdinary_of_isPlain plain) false
  rw [itemsFrom_eq plain] at ordinary
  rw [expand_eq plain]
  exact compile?_items ordinary

end Template

end ClauseRouter
