import Mathlib.Data.List.TakeDrop
import Mathlib.Data.List.TakeWhile
import Mathlib.Tactic.Lemma
import ClauseRouter.Bytes

/-!
# What trimming, cutting and splitting leave

* `Bytes.forall_byte` — what a table of all bytes shows is true of every byte.
* `Bytes.exists_trim` — a text is what trimming leaves of it, between blanks.
* `Bytes.trim_of_tight` — blanks around a text that has none at its ends are trimmed away.
* `Bytes.tight_trim` — what trimming leaves has no blanks at its ends.
* `Bytes.cut?_eq_some`, `Bytes.cut?_eq_none` — a cut is made at the first separator, if there is one.
* `Bytes.split_join`, `Bytes.join_split` — parts without the separator come back from what they are joined
  to, and a text comes back from its parts.
* `Bytes.not_mem_of_mem_split` — no part has the separator in it.
-/

namespace ClauseRouter.Bytes

/-- Nothing but spaces and tabs. -/
def Blank (s : Bytes) : Prop := ∀ b ∈ s, isBlank b = true

/-- A text that neither begins nor ends with a blank. -/
structure Tight (s : Bytes) : Prop where
  first : ∀ b ∈ s.head?, isBlank b = false
  last : ∀ b ∈ s.getLast?, isBlank b = false

/-- What a table of the 256 bytes shows is true of every byte. -/
lemma forall_byte {p : UInt8 → Prop} (table : ∀ n < 256, p (UInt8.ofNat n)) (b : UInt8) : p b := by
  have entry := table b.toNat b.toNat_lt
  rwa [UInt8.ofNat_toNat] at entry

variable {s : Bytes}

/-! ## Blanks -/

lemma trimLeft_of_head? (first : ∀ b ∈ s.head?, isBlank b = false) : trimLeft s = s := by
  cases s with
  | nil => rfl
  | cons b s => simp [trimLeft, first b rfl]

/-- What is trimmed away in front is blank. -/
lemma exists_trimLeft (s : Bytes) : ∃ left, Blank left ∧ s = left ++ trimLeft s :=
  ⟨s.takeWhile isBlank, fun _ mem => List.mem_takeWhile_imp mem, List.takeWhile_append_dropWhile.symm⟩

/-- What is trimmed away at the end is what is trimmed away in front of the text read backwards. -/
lemma trimRight_eq (s : Bytes) : trimRight s = (trimLeft s.reverse).reverse := rfl

lemma exists_trimRight (s : Bytes) : ∃ right, Blank right ∧ s = trimRight s ++ right := by
  obtain ⟨left, blank, split⟩ := exists_trimLeft s.reverse
  refine ⟨left.reverse, fun b mem => blank b (List.mem_reverse.mp mem), ?_⟩
  rw [trimRight_eq, ← List.reverse_append, ← split, List.reverse_reverse]

/-- **A text is what trimming leaves of it,** between blanks. -/
lemma exists_trim (s : Bytes) : ∃ left right, Blank left ∧ Blank right ∧ s = left ++ trim s ++ right := by
  obtain ⟨left, blankLeft, front⟩ := exists_trimLeft s
  obtain ⟨right, blankRight, back⟩ := exists_trimRight (trimLeft s)
  refine ⟨left, right, blankLeft, blankRight, ?_⟩
  rw [List.append_assoc, trim, ← back, ← front]

lemma trimLeft_append {left : Bytes} (blank : Blank left) (s : Bytes) :
    trimLeft (left ++ s) = trimLeft s :=
  List.dropWhile_append_of_pos blank

lemma trimRight_append {right : Bytes} (blank : Blank right) (s : Bytes) :
    trimRight (s ++ right) = trimRight s := by
  have back : Blank right.reverse := fun b mem => blank b (List.mem_reverse.mp mem)
  rw [trimRight_eq, List.reverse_append, trimLeft_append back, trimRight_eq]

/-- **Blanks around a tight text** are trimmed away, and nothing else. -/
lemma trim_of_tight {left right : Bytes} (blankLeft : Blank left) (blankRight : Blank right)
    (tight : Tight s) : trim (left ++ s ++ right) = s := by
  have back : trimRight (s ++ right) = s := by
    rw [trimRight_append blankRight, trimRight_eq, trimLeft_of_head?, List.reverse_reverse]
    simpa using tight.last
  rw [trim, List.append_assoc, trimLeft_append blankLeft]
  cases s with
  | nil =>
      have empty : trimLeft right = [] := List.dropWhile_eq_nil_iff.mpr blankRight
      rw [List.nil_append, empty]
      rfl
  | cons b s => rw [trimLeft_of_head? (by simpa using tight.first), back]

lemma head?_trimLeft (s : Bytes) : ∀ b ∈ (trimLeft s).head?, isBlank b = false := by
  intro b first
  have visible := List.head?_dropWhile_not isBlank s
  rw [trimLeft] at first
  rwa [Option.mem_def.mp first] at visible

/-- **What trimming leaves is tight.** -/
lemma tight_trim (s : Bytes) : Tight (trim s) where
  first := by
    intro b first
    obtain ⟨right, -, back⟩ := exists_trimRight (trimLeft s)
    refine head?_trimLeft s b ?_
    rw [back, List.head?_append, ← trim, Option.mem_def.mp first]
    rfl
  last := by
    rw [trim, trimRight_eq, List.getLast?_reverse]
    exact head?_trimLeft _

/-! ## Separators -/

/-- **A cut is made at the first separator.** -/
lemma cut?_eq_some {separator : UInt8} {before after : Bytes} :
    cut? separator s = some (before, after) ↔
      s = before ++ separator :: after ∧ separator ∉ before := by
  rw [cut?, List.span_eq_takeWhile_dropWhile]
  constructor
  case mp =>
    intro h
    have split : s.takeWhile (· != separator) ++ s.dropWhile (· != separator) = s :=
      List.takeWhile_append_dropWhile
    have first := List.head?_dropWhile_not (· != separator) s
    cases rest : s.dropWhile (· != separator) with
    | nil => simp [rest] at h
    | cons b rest' =>
        simp only [rest, List.head?_cons, bne_eq_false_iff_eq] at h first split
        cases h
        subst first
        exact ⟨split.symm, fun mem => by simpa using List.mem_takeWhile_imp mem⟩
  case mpr =>
    rintro ⟨rfl, absent⟩
    have passed : ∀ b ∈ before, (b != separator) = true := fun b mem => by
      simpa using fun same : b = separator => absent (same ▸ mem)
    simp only [List.takeWhile_append_of_pos passed, List.dropWhile_append_of_pos passed]
    simp

/-- Where there is no separator there is no cut. -/
lemma cut?_eq_none {separator : UInt8} : cut? separator s = none ↔ separator ∉ s := by
  constructor
  · intro whole mem
    obtain ⟨before, after, split, absent⟩ := List.eq_append_cons_of_mem mem
    rw [cut?_eq_some.mpr ⟨split, absent⟩] at whole
    cases whole
  · intro absent
    refine Option.eq_none_iff_forall_ne_some.mpr fun ⟨before, after⟩ cut => absent ?_
    rw [(cut?_eq_some.mp cut).1]
    simp

/-- **Parts come back** from what they are joined to, if the separator is in none of them. -/
lemma split_join {separator : UInt8} {parts : List Bytes} (some : parts ≠ [])
    (free : ∀ part ∈ parts, separator ∉ part) : split separator (join separator parts) = parts :=
  List.splitOn_intercalate separator free some

/-- What a text is split into is joined to the text again. -/
lemma join_split (separator : UInt8) (s : Bytes) : join separator (split separator s) = s :=
  List.intercalate_splitOn separator

/-- A text without the separator is its only part. -/
lemma split_of_not_mem {separator : UInt8} (absent : separator ∉ s) : split separator s = [s] :=
  List.splitOn_eq_singleton absent

/-- What stands before the first separator is the first part. -/
lemma split_append_cons {separator : UInt8} {part : Bytes} (absent : separator ∉ part)
    (after : Bytes) : split separator (part ++ separator :: after) = part :: split separator after := by
  rw [split, List.splitOn_append_cons_self, List.splitOn_eq_singleton absent]
  rfl

/-- **No part has the separator in it.** -/
lemma not_mem_of_mem_split {separator : UInt8} {s part : Bytes} (mem : part ∈ split separator s) :
    separator ∉ part := by
  by_cases there : separator ∈ s
  · obtain ⟨first, after, rfl, absent⟩ := List.eq_append_cons_of_mem there
    rw [split_append_cons absent] at mem
    rcases List.mem_cons.mp mem with rfl | mem
    · exact absent
    · exact not_mem_of_mem_split mem
  · rw [split_of_not_mem there] at mem
    exact List.mem_singleton.mp mem ▸ there
termination_by s.length

end ClauseRouter.Bytes
