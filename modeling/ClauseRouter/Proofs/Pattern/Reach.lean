import Mathlib.Tactic.Lemma
import ClauseRouter.Pattern.Basic

/-!
# Where a search can get to

A tree is matched with a continuation.  Whatever the tree is, a match of it is a match of the
continuation further on in the subject: `Node.run_leadsTo`.  The search may go back over what it
did and try again; it never loses a slot on the way, so a match has one for every group
(`length_of_search?`).

* `State.Reaches` — one state is further on in the same subject, with as many slots.
* `Next.LeadsTo` — one way to go on matches only by way of another.  The lemmas about it follow the
  combinators from which `Node.run` is built.
-/

namespace ClauseRouter.Pattern

/-! ## States further on -/

lemma State.rest_step {s : State} {b : UInt8} {rest : Bytes} (left : s.rest = b :: rest) :
    (s.step b).rest = rest := by
  rw [step, left, List.tail_cons]

/-- A state further on in the same subject, with as many slots. -/
structure State.Reaches (s later : State) : Prop where
  text : ∃ text, s.rest = text ++ later.rest ∧ later.position = s.position + text.length
  slots : later.slots.length = s.slots.length

namespace State.Reaches

lemma refl (s : State) : s.Reaches s := ⟨⟨[], rfl, rfl⟩, rfl⟩

lemma trans {s later last : State} (first : s.Reaches later) (second : later.Reaches last) :
    s.Reaches last := by
  obtain ⟨text, rest, position⟩ := first.text
  obtain ⟨text', rest', position'⟩ := second.text
  refine ⟨⟨text ++ text', by rw [rest, rest', List.append_assoc], ?_⟩, second.slots.trans first.slots⟩
  rw [position', position, List.length_append, Nat.add_assoc]

/-- The text on the way to a later state. -/
lemma textSince {s later : State} (h : s.Reaches later) :
    s.rest = later.textSince s ++ later.rest := by
  obtain ⟨text, rest, position⟩ := h.text
  simp [State.textSince, position, rest]

lemma step {s : State} {b : UInt8} {rest : Bytes} (h : s.rest = b :: rest) :
    s.Reaches (s.step b) := ⟨⟨[b], by simp [State.step, h], rfl⟩, rfl⟩

lemma advance {text : Bytes} {s : State} (h : text <+: s.rest) : s.Reaches (s.advance text) := by
  induction text generalizing s with
  | nil => exact refl s
  | cons b text ih =>
      obtain ⟨rest, h⟩ := h
      exact (step h.symm).trans (ih ⟨rest, (rest_step h.symm).symm⟩)

end State.Reaches

/-! ## Ways to go on -/

/-- What the slots hold when a search is over. -/
def Answer.slots : Answer → Slots
  | .matched slots => slots
  | .failed slots => slots

namespace Next

/-- A way to go on that hands on as many slots as it got. -/
def Even (next : Next) : Prop := ∀ s, (next s).slots.length = s.slots.length

/-- A way to go on that matches only by way of another, further on in the subject. -/
structure LeadsTo (first next : Next) : Prop where
  even : first.Even
  reaches : ∀ {s slots}, first s = .matched slots → ∃ later, s.Reaches later ∧
    next later = .matched slots

namespace LeadsTo

variable {first second next : Next}

lemma refl (even : next.Even) : next.LeadsTo next := ⟨even, fun h => ⟨_, .refl _, h⟩⟩

lemma trans (h : first.LeadsTo second) (h' : second.LeadsTo next) : first.LeadsTo next := by
  refine ⟨h.even, fun matched => ?_⟩
  obtain ⟨later, reached, matched⟩ := h.reaches matched
  obtain ⟨last, reached', matched⟩ := h'.reaches matched
  exact ⟨last, reached.trans reached', matched⟩

/-- It is enough that from every state the way is one that leads there. -/
lemma of_agree (h : ∀ s, ∃ same : Next, same.LeadsTo next ∧ first s = same s) :
    first.LeadsTo next := by
  refine ⟨fun s => ?_, fun {s slots} matched => ?_⟩
  · obtain ⟨same, leads, agree⟩ := h s
    rw [agree]
    exact leads.even s
  · obtain ⟨same, leads, agree⟩ := h s
    exact leads.reaches (agree ▸ matched)

/-- Failing leads anywhere. -/
lemma fails : LeadsTo (fun s => .failed s.slots) next := ⟨fun _ => rfl, fun h => by cases h⟩

/-- Going on from a state further on. -/
lemma from_later {move : State → State} (h : first.LeadsTo next)
    (reached : ∀ s : State, s.Reaches (move s)) : LeadsTo (fun s => first (move s)) next := by
  refine ⟨fun s => (h.even _).trans (reached s).slots, fun {s slots} matched => ?_⟩
  obtain ⟨later, reached', matched⟩ := h.reaches matched
  exact ⟨later, (reached s).trans reached', matched⟩

lemma orElse (h : first.LeadsTo next) (h' : second.LeadsTo next) :
    (first.orElse second).LeadsTo next := by
  constructor
  · intro s
    have even := h.even s
    unfold Next.orElse
    cases tried : first s with
    | matched slots => rwa [tried] at even
    | failed slots => rw [tried] at even; exact (h'.even _).trans even
  · intro s slots matched
    have even := h.even s
    unfold Next.orElse at matched
    cases tried : first s with
    | matched slots' => rw [tried] at matched; exact h.reaches (tried.trans matched)
    | failed slots' =>
        rw [tried] at matched even
        obtain ⟨later, reached, matched⟩ := h'.reaches matched
        have goneBack : s.Reaches { s with slots := slots' } := ⟨⟨[], rfl, rfl⟩, even⟩
        exact ⟨later, goneBack.trans reached, matched⟩

lemma keeping (even : next.Even) (slot : Nat) (start : State) :
    (next.keeping slot start).LeadsTo next := by
  constructor
  · intro s
    have kept := even { s with slots := s.slots.set slot (some (s.textSince start)) }
    rw [List.length_set] at kept
    unfold Next.keeping
    cases tried : next _ with
    | matched slots => rwa [tried] at kept
    | failed slots => rw [tried] at kept; exact (List.length_set ..).trans kept
  · intro s slots matched
    unfold Next.keeping at matched
    cases tried : next _ with
    | matched slots' =>
        rw [tried] at matched
        exact ⟨{ s with slots := s.slots.set slot _ }, ⟨⟨[], rfl, rfl⟩, List.length_set ..⟩,
          tried.trans matched⟩
    | failed slots' => rw [tried] at matched; cases matched

variable {again exit : Next}

/-- A way to go on that depends on a condition of the state. -/
lemma ite {condition : State → Bool} (h : first.LeadsTo next) (h' : second.LeadsTo next) :
    LeadsTo (fun s => if condition s then first s else second s) next := by
  refine ⟨fun s => ?_, fun {s slots} matched => ?_⟩
  · split
    · exact h.even s
    · exact h'.even s
  · split at matched
    · exact h.reaches matched
    · exact h'.reaches matched

variable {again exit : Next}

lemma pass (greedy : Bool) (loop : Nat) (h : again.LeadsTo next) (h' : exit.LeadsTo next) :
    (Next.pass greedy loop again exit).LeadsTo next := by
  have entering : LeadsTo (fun s => again (s.enter loop)) next :=
    h.from_later fun s => ⟨⟨[], rfl, rfl⟩, rfl⟩
  cases greedy with
  | true => exact ite (entering.orElse h') h'
  | false => exact ite (h'.orElse entering) h'

lemma passes {body : Next → Next} (h : ∀ next, next.Even → (body next).LeadsTo next)
    (greedy : Bool) (loop : Nat) (even : exit.Even) (budget : Nat) :
    (Next.passes greedy loop body exit budget).LeadsTo exit := by
  induction budget with
  | zero => exact refl even
  | succ budget ih => exact pass greedy loop ((h _ ih.even).trans ih) (refl even)

variable {body : Nat → Next → Next}

lemma copies (h : ∀ i next, next.Even → (body i next).LeadsTo next) (even : exit.Even)
    (count first : Nat) : (Next.copies body exit first count).LeadsTo exit := by
  induction count generalizing first with
  | zero => exact refl even
  | succ count ih =>
      have rest := ih (first + 1)
      exact (h first _ rest.even).trans rest

lemma optionalCopies (h : ∀ i next, next.Even → (body i next).LeadsTo next) (greedy : Bool)
    (loop : Nat → Nat) (even : exit.Even) (count first : Nat) :
    (Next.optionalCopies greedy loop body exit first count).LeadsTo exit := by
  induction count generalizing first with
  | zero => exact refl even
  | succ count ih =>
      have rest := ih (first + 1)
      exact pass greedy (loop first) ((h first _ rest.even).trans rest) (refl even)

end LeadsTo

end Next

/-! ## Trees -/

/-- **A tree matches only by way of what is to follow it.** -/
theorem Node.run_leadsTo (node : Node) : ∀ (attempt : Attempt) (base : Nat) {next : Next},
    next.Even → (node.run attempt base next).LeadsTo next := by
  induction node with
  | empty => intro _ _ _ even; exact .refl even
  | one set =>
      intro _ _ next even
      refine ⟨fun s => ?_, fun {s slots} matched => ?_⟩
      · simp only [Node.run]
        split
        · split
          · exact even _
          · rfl
        · rfl
      · simp only [Node.run] at matched
        split at matched
        · rename_i b rest hrest
          split at matched
          · exact ⟨s.step b, .step hrest, matched⟩
          · cases matched
        · cases matched
  | group slot body ih =>
      intro attempt base next even
      refine .of_agree fun s => ?_
      have kept := Next.LeadsTo.keeping even slot s
      exact ⟨_, (ih attempt base kept.even).trans kept, rfl⟩
  | seq first second ih ih' =>
      intro attempt base next even
      have behind := ih' attempt (base + first.loops) even
      exact (ih attempt base behind.even).trans behind
  | either left right ih ih' =>
      intro attempt base next even
      exact (ih attempt base even).orElse (ih' attempt (base + left.loops) even)
  | loop required greedy body ih =>
      intro attempt base next even
      have again := fun budget => Next.LeadsTo.passes (fun next even => ih attempt (base + 1) even)
        greedy base even budget
      cases required with
      | true =>
          refine .of_agree fun s => ?_
          have rest := again (2 * (s.rest.length + 1))
          exact ⟨_, (ih attempt (base + 1) rest.even).trans rest, rfl⟩
      | false => exact .of_agree fun s => ⟨_, again (2 * (s.rest.length + 1)), rfl⟩
  | optional greedy body ih =>
      intro attempt base next even
      exact .pass greedy base (ih attempt (base + 1) even) (.refl even)
  | interval least extra greedy body ih =>
      intro attempt base next even
      cases extra with
      | none =>
          let above := base + least * body.loops
          have more : Next.LeadsTo (fun s => Next.passes greedy above
              (body.run attempt (above + 1)) next (2 * (s.rest.length + 1)) s) next :=
            .of_agree fun s => ⟨_, .passes (fun _ even => ih attempt _ even) greedy above even
              (2 * (s.rest.length + 1)), rfl⟩
          exact (Next.LeadsTo.copies (fun i next even => ih attempt _ even) more.even least 0).trans
            more
      | some count =>
          let above i := base + least * body.loops + i * (body.loops + 1)
          have more : Next.LeadsTo (Next.optionalCopies greedy above
              (fun i => body.run attempt (above i + 1)) next 0 count) next :=
            .optionalCopies (fun _ _ even => ih attempt _ even) greedy above even count 0
          exact (Next.LeadsTo.copies (fun _ _ even => ih attempt _ even) more.even least 0).trans
            more
  | reference slot =>
      intro _ _ next even
      refine ⟨fun s => ?_, fun {s slots} matched => ?_⟩
      · simp only [Node.run]
        split
        · rfl
        · rename_i text _
          split
          · rename_i comes
            have reached := State.Reaches.advance (List.isPrefixOf_iff_prefix.mp comes)
            exact (even _).trans reached.slots
          · rfl
      · simp only [Node.run] at matched
        split at matched
        · cases matched
        · split at matched
          · rename_i comes
            exact ⟨_, .advance (List.isPrefixOf_iff_prefix.mp comes), matched⟩
          · cases matched
  | check assertion =>
      intro _ _ _ even
      exact .ite (.refl even) .fails
  | lookahead negated body ih =>
      intro attempt base next even
      have ends : Next.Even fun s => .matched s.slots := fun _ => rfl
      have inside (s : State) :=
        (ih { attempt with origin := s.position } base ends).even { s with entered := [] }
      refine ⟨fun s => ?_, fun {s slots} matched => ?_⟩
      · have kept := inside s
        simp only [Node.run]
        split
        · rename_i found
          rw [found] at kept
          split
          · exact kept
          · exact (even _).trans kept
        · split
          · exact even _
          · rfl
      · have kept := inside s
        simp only [Node.run] at matched
        split at matched
        · rename_i held found
          rw [found] at kept
          split at matched
          · cases matched
          · exact ⟨{ s with slots := held }, ⟨⟨[], rfl, rfl⟩, kept⟩, matched⟩
        · split at matched
          · exact ⟨s, .refl s, matched⟩
          · cases matched

/-! ## Searches -/

section

variable {pattern : Pattern} {slots : Slots}

lemma length_of_matchAt {attempt : Attempt} {before : Option UInt8} {rest : Bytes}
    (matched : pattern.matchAt attempt before rest = .matched slots) : slots.length = pattern.groups := by
  have ends : Next.Even fun s => .matched s.slots := fun _ => rfl
  have even := (pattern.node.run_leadsTo attempt 0 ends).even
    ⟨attempt.origin, before, rest, List.replicate pattern.groups none, []⟩
  have kept : (pattern.matchAt attempt before rest).slots.length = pattern.groups :=
    even.trans List.length_replicate
  rwa [matched] at kept

lemma length_of_searchFrom {attempt : Attempt} {before : Option UInt8} {rest : Bytes}
    (search : pattern.searchFrom attempt before rest = some slots) : slots.length = pattern.groups := by
  induction rest generalizing attempt before with
  | nil =>
      rw [searchFrom] at search
      split at search
      · rename_i matched
        cases search
        exact length_of_matchAt matched
      · cases search
  | cons b rest ih =>
      rw [searchFrom] at search
      split at search
      · rename_i matched
        cases search
        exact length_of_matchAt matched
      · exact ih search

/-- **A match has a slot for every group.** -/
lemma length_of_search? {subject : Bytes} {openEnd : Bool}
    (search : pattern.search? subject openEnd = some slots) : slots.length = pattern.groups :=
  length_of_searchFrom search

end

end ClauseRouter.Pattern
