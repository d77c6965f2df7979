import ClauseRouter.Proofs.Bytes

/-!
# Splitting by position

`Bytes.collectFrom?` goes over a text by position: it finds the next separator, takes what stands before
it, and goes on behind it.  Two things could then go wrong that `Bytes.split` leaves no room for: to take a
part from behind the end of the text, and to lose or to invent a part where separators stand at an end of
the text or next to each other.

* `Bytes.collectFrom?_behind` — what it collects are the parts of what is left of the text.
* `Bytes.split_inverse` — it collects the parts of every text; joining undoes splitting, and splitting
  undoes joining.
-/

namespace ClauseRouter.Bytes

/-! ## By position -/

section

variable {separator : UInt8} {s : Bytes} {start : Nat}

/-- Where no separator is left, what is left is the last part. -/
lemma collectFrom?_of_none (before : List Bytes) (none_left : findFrom? separator s start = none) :
    collectFrom? separator s before start = (from? s start).map fun last => before ++ [last] := by
  rw [collectFrom?]
  split
  case h_1 => rfl
  case h_2 found => rw [none_left] at found; cases found

/-- Where there is a separator, what stands before it is the next part. -/
lemma collectFrom?_of_some {rest : Bytes} {stop : Nat} (before : List Bytes)
    (found : findFrom? separator s start = some stop) (here : from? s start = some rest) :
    collectFrom? separator s before start
      = collectFrom? separator s (before ++ [rest.take (stop - start)]) (stop + 1) := by
  rw [collectFrom?]
  split
  case h_1 none_left => rw [found] at none_left; cases none_left
  case h_2 found' =>
    rw [found] at found'
    cases found'
    rw [here]

end

/-! ## What is left of a text -/

section

variable {separator : UInt8} (front : Bytes)

lemma from?_behind (rest : Bytes) : from? (front ++ rest) front.length = some rest := by
  simp [from?]

lemma findFrom?_behind_of_not_mem {rest : Bytes} (absent : separator ∉ rest) :
    findFrom? separator (front ++ rest) front.length = none := by
  rw [findFrom?, List.drop_left, List.idxOf?_eq_none_iff.mpr absent]
  rfl

lemma findFrom?_behind_of_first {part : Bytes} (absent : separator ∉ part) (after : Bytes) :
    findFrom? separator (front ++ (part ++ separator :: after)) front.length
      = some (front.length + part.length) := by
  have first : (part ++ separator :: after).idxOf? separator = some part.length := by
    refine List.idxOf?_eq_some_iff.mpr ⟨by simp, by simp, fun j before same => absent ?_⟩
    rw [List.getElem_append_left before] at same
    exact same ▸ List.getElem_mem before
  rw [findFrom?, List.drop_left, first]
  rfl

end

/-- **What is collected behind a front** are the parts of the rest. -/
lemma collectFrom?_behind {separator : UInt8} (front : Bytes) (before : List Bytes) (rest : Bytes) :
    collectFrom? separator (front ++ rest) before front.length
      = some (before ++ split separator rest) := by
  by_cases mem : separator ∈ rest
  · obtain ⟨part, after, rfl, absent⟩ := List.eq_append_cons_of_mem mem
    -- the front grows by this part and its separator, and what is left gets shorter
    have moved : front ++ (part ++ separator :: after) = front ++ (part ++ [separator]) ++ after := by
      simp
    have length : front.length + part.length + 1 = (front ++ (part ++ [separator])).length := by
      simp [Nat.add_assoc]
    rw [collectFrom?_of_some before (findFrom?_behind_of_first front absent after)
      (from?_behind front _), Nat.add_sub_cancel_left, List.take_left, length, moved,
      collectFrom?_behind _ _ after, split_append_cons absent, List.append_assoc, List.singleton_append]
  · rw [collectFrom?_of_none before (findFrom?_behind_of_not_mem front mem), from?_behind,
      split_of_not_mem mem]
    rfl
termination_by rest.length

/-! ## Parts and texts -/

/-- **Splitting and joining undo each other.**  Collecting the parts by position comes to an end for every
text, and never takes from behind its end.  No part of a text has the separator in it, and joined they
are the text; parts without the separator, at least one, are the parts of what they are joined to. -/
theorem split_inverse (separator : UInt8) :
    (∀ s, collectFrom? separator s [] 0 = some (split separator s)) ∧
    (∀ s, (∀ part ∈ split separator s, separator ∉ part) ∧ join separator (split separator s) = s) ∧
    (∀ parts, parts ≠ [] → (∀ part ∈ parts, separator ∉ part) →
      split separator (join separator parts) = parts) := by
  refine ⟨fun s => ?_, fun s => ⟨fun part mem => ?_, ?_⟩, fun parts some_part free => ?_⟩
  · exact collectFrom?_behind [] [] s
  · exact not_mem_of_mem_split mem
  · exact join_split separator s
  · exact split_join some_part free

/-- Empty parts at the start, in the middle and at the end. -/
theorem split_inverse_of_empty_parts :
    let parts : List Bytes := [[], ascii "a", [], [], ascii "b", []]
    collectFrom? Byte.semicolon (ascii ";a;;;b;") [] 0 = some parts ∧
    split Byte.semicolon (ascii ";a;;;b;") = parts := by
  intro parts
  have text : join Byte.semicolon parts = ascii ";a;;;b;" := by decide
  have back := (split_inverse Byte.semicolon).2.2 parts (by decide) (by decide)
  rw [text] at back
  exact ⟨((split_inverse Byte.semicolon).1 _).trans (congrArg some back), back⟩

end ClauseRouter.Bytes
