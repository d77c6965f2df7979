import ClauseRouter.Proofs.Pattern.Nesting
import ClauseRouter.Proofs.Pattern.Reach

/-!
# Searching an anchored pattern

An anchored tree matches at the start of a subject or not at all, and what its first group keeps is
followed by a slash or by the end of the subject.

* `search?_anchored` — the search is one run of the first group behind the slash in front.
* `boundary_of_search?_anchored` — the text of the first group, and what stands behind it.
-/

namespace ClauseRouter.Pattern

/-- The slots of a search that matched. -/
def Answer.found? : Answer → Option Slots
  | .matched slots => some slots
  | .failed _ => none

/-- Whether a separator matches at a place. -/
def State.atSeparator (s : State) (openEnd : Bool) : Bool :=
  s.rest.head? == some Byte.slash || (s.rest.isEmpty && !openEnd)

/-- A separator is the last that is matched: it takes a slash if one is there. -/
lemma Node.run_separator (slot : Nat) (attempt : Attempt) (base : Nat) (s : State) :
    (separator slot).run attempt base (fun s => .matched s.slots) s
      = if s.atSeparator attempt.openEnd then
          .matched (s.slots.set slot (some (s.rest.take 1)))
        else .failed s.slots := by
  obtain ⟨position, before, rest, slots, entered⟩ := s
  obtain ⟨origin, continued, openEnd⟩ := attempt
  cases rest with
  | nil =>
      cases openEnd <;> simp [separator, run, Next.orElse, Next.keeping, Assertion.holds,
        State.atSeparator, State.textSince]
  | cons b rest =>
      by_cases slash : b = Byte.slash
      · simp [separator, run, Next.orElse, Next.keeping, State.atSeparator, State.textSince,
          State.step, slash, ByteSet.contains, ByteSet.single, ByteSet.Item.contains]
      · simp [separator, run, Next.orElse, Assertion.holds, State.atSeparator, slash,
          ByteSet.contains, ByteSet.single, ByteSet.Item.contains]

variable (body : Node) (last groups : Nat)

/-- The run of the first group of an anchored tree, behind the slash in front of it. -/
def Node.runAnchored (openEnd : Bool) (rest : Bytes) : Answer :=
  (Node.group 0 body).run ⟨0, false, openEnd⟩ 0
    ((separator last).run ⟨0, false, openEnd⟩ body.loops fun s => .matched s.slots)
    ⟨1, some Byte.slash, rest, List.replicate groups none, []⟩

lemma matchAt_anchored_slash (openEnd : Bool) (rest : Bytes) :
    (⟨.anchored body last, groups⟩ : Pattern).matchAt ⟨0, false, openEnd⟩ none (Byte.slash :: rest)
      = body.runAnchored last groups openEnd rest := by
  simp [matchAt, Node.anchored, Node.runAnchored, Node.run, Node.loops, Assertion.holds,
    ByteSet.contains, ByteSet.single, ByteSet.Item.contains, State.step]

/-- In front of anything but a slash, or behind the start, an anchored tree does not match. -/
lemma matchAt_anchored_failed {attempt : Attempt} {before : Option UInt8} {rest : Bytes}
    (h : attempt.continued ∨ rest.head? ≠ some Byte.slash) :
    (⟨.anchored body last, groups⟩ : Pattern).matchAt attempt before rest
      = .failed (List.replicate groups none) := by
  obtain ⟨origin, continued, openEnd⟩ := attempt
  cases continued with
  | true => simp [matchAt, Node.anchored, Node.run, Assertion.holds]
  | false =>
      cases rest with
      | nil => simp [matchAt, Node.anchored, Node.run, Assertion.holds]
      | cons b rest =>
          have other : b ≠ Byte.slash := by simpa using h
          simp [matchAt, Node.anchored, Node.run, Assertion.holds, other,
            ByteSet.contains, ByteSet.single, ByteSet.Item.contains]

lemma searchFrom_anchored_continued (rest : Bytes) : ∀ {attempt : Attempt} {before : Option UInt8},
    attempt.continued = true →
      (⟨.anchored body last, groups⟩ : Pattern).searchFrom attempt before rest = none := by
  induction rest with
  | nil =>
      intro attempt before h
      rw [searchFrom, matchAt_anchored_failed body last groups (.inl h)]
  | cons b rest ih =>
      intro attempt before h
      rw [searchFrom, matchAt_anchored_failed body last groups (.inl h)]
      exact ih rfl

/-- **An anchored pattern matches behind a slash at the start of a subject,** -/
lemma search?_anchored (openEnd : Bool) (rest : Bytes) :
    (⟨.anchored body last, groups⟩ : Pattern).search? (Byte.slash :: rest) openEnd
      = (body.runAnchored last groups openEnd rest).found? := by
  rw [search?, searchFrom, matchAt_anchored_slash]
  cases answer : body.runAnchored last groups openEnd rest with
  | matched slots => rfl
  | failed slots =>
      dsimp only
      rw [searchFrom_anchored_continued body last groups rest rfl, Answer.found?]

/-- or nowhere. -/
lemma search?_anchored_eq_none {subject : Bytes} (h : subject.head? ≠ some Byte.slash)
    (openEnd : Bool) :
    (⟨.anchored body last, groups⟩ : Pattern).search? subject openEnd = none := by
  cases subject with
  | nil => rw [search?, searchFrom, matchAt_anchored_failed body last groups (.inr h)]
  | cons b rest =>
      rw [search?, searchFrom, matchAt_anchored_failed body last groups (.inr h)]
      dsimp only
      rw [searchFrom_anchored_continued body last groups rest rfl]

variable {body last groups} in
/-- So a subject in which it matches begins with a slash. -/
lemma head?_of_search?_anchored {subject : Bytes} {openEnd : Bool} {slots : Slots}
    (search : (⟨.anchored body last, groups⟩ : Pattern).search? subject openEnd = some slots) :
    subject.head? = some Byte.slash := by
  refine Decidable.byContradiction fun other => ?_
  rw [search?_anchored_eq_none body last groups other] at search
  cases search

/-- The place behind the first group, and what the slots hold in the end. -/
lemma Node.matched_of_runAnchored {openEnd : Bool} {rest : Bytes} {slots : Slots}
    (h : body.runAnchored last groups openEnd rest = .matched slots) :
    ∃ text behind, ∃ held : Slots, rest = text ++ behind ∧ held.length = groups ∧
      slots = (held.set 0 (some text)).set last (some (behind.take 1)) ∧
      (behind.head? = some Byte.slash ∨ behind = [] ∧ openEnd = false) := by
  have ends : Next.Even fun s => .matched s.slots := fun _ => rfl
  have separated := (separator last).run_leadsTo ⟨0, false, openEnd⟩ body.loops ends
  have kept := Next.LeadsTo.keeping separated.even 0
    ⟨1, some Byte.slash, rest, List.replicate groups none, []⟩
  obtain ⟨later, reached, h⟩ := (body.run_leadsTo ⟨0, false, openEnd⟩ 0 kept.even).reaches h
  rw [Next.keeping, run_separator] at h
  split at h
  · rename_i held tried
    cases h
    split at tried
    · rename_i atSeparator
      cases tried
      refine ⟨_, later.rest, later.slots, reached.textSince, ?_, rfl, ?_⟩
      · rw [reached.slots, List.length_replicate]
      · simpa [State.atSeparator] using atSeparator
    · cases tried
  · cases h

/-- **What the first group keeps ends at a boundary:** a slash comes next, or the subject is over and
has its end here. -/
lemma boundary_of_search?_anchored {subject : Bytes} {openEnd : Bool} {slots : Slots}
    (distinct : 1 ≤ last) (room : 1 ≤ groups)
    (h : (⟨.anchored body last, groups⟩ : Pattern).search? subject openEnd = some slots) :
    ∃ text behind, subject = Byte.slash :: text ++ behind ∧ slots.head? = some (some text) ∧
      (behind.head? = some Byte.slash ∨ behind = [] ∧ openEnd = false) := by
  obtain ⟨rest, rfl⟩ := List.head?_eq_some_iff.mp (head?_of_search?_anchored h)
  rw [search?_anchored] at h
  cases answer : body.runAnchored last groups openEnd rest with
  | failed slots => rw [answer] at h; cases h
  | matched held =>
      rw [answer] at h
      cases h
      obtain ⟨text, behind, held, rfl, size, rfl, boundary⟩ := body.matched_of_runAnchored _ _ answer
      refine ⟨text, behind, rfl, ?_, boundary⟩
      cases held with
      | nil => cases size; cases room
      | cons first held =>
          obtain ⟨n, rfl⟩ := Nat.exists_eq_add_of_le' distinct
          rfl

end ClauseRouter.Pattern
