import ClauseRouter.Proofs.Pattern.Anchored

/-!
# Moving through a subject

The equations of what a search does on its way: it advances over texts, takes single bytes, and keeps
texts in slots.

* `State.advance_append`, `State.advance_textSince` — advancing over texts, and the text in between.
* `run_one_of_contains`, `run_one_of_not_contains` — one byte of a set.
* `set_slot?`, `found?_keeping` — a slot that gets a text, and gets its old one back.
-/

namespace ClauseRouter.Pattern

/-! ## Places -/

namespace State

@[simp] lemma slots_advance (s : State) (text : Bytes) : (s.advance text).slots = s.slots := by
  induction text generalizing s with
  | nil => rfl
  | cons b text ih => exact ih (s.step b)

@[simp] lemma rest_advance (s : State) (text : Bytes) :
    (s.advance text).rest = s.rest.drop text.length := by
  induction text generalizing s with
  | nil => rfl
  | cons b text ih =>
      have rest := ih (s.step b)
      rw [step, List.drop_tail] at rest
      exact rest

@[simp] lemma position_advance (s : State) (text : Bytes) :
    (s.advance text).position = s.position + text.length := by
  induction text generalizing s with
  | nil => rfl
  | cons b text ih =>
      have position := ih (s.step b)
      rw [List.length_cons, Nat.add_comm text.length, ← Nat.add_assoc]
      exact position

lemma advance_append (s : State) (text more : Bytes) :
    s.advance (text ++ more) = (s.advance text).advance more := List.foldl_append

/-- The same place with other texts in the slots. -/
def withSlots (s : State) (slots : Slots) : State := { s with slots := slots }

lemma withSlots_slots (s : State) : s.withSlots s.slots = s := rfl

lemma withSlots_withSlots (s : State) (slots slots' : Slots) :
    (s.withSlots slots).withSlots slots' = s.withSlots slots' := rfl

lemma advance_withSlots (s : State) (slots : Slots) (text : Bytes) :
    (s.withSlots slots).advance text = (s.advance text).withSlots slots := by
  induction text generalizing s with
  | nil => rfl
  | cons b text ih => exact ih (s.step b)

lemma advance_textSince {s : State} {text : Bytes} (h : text <+: s.rest) :
    (s.advance text).textSince s = text := by
  rw [textSince, position_advance, Nat.add_sub_cancel_left]
  exact (List.prefix_iff_eq_take.mp h).symm

end State

lemma run_one_of_contains {set : ByteSet} {attempt : Attempt} {base : Nat} {next : Next} {s : State}
    {b : UInt8} {rest : Bytes} (h : s.rest = b :: rest) (inside : set.contains b) :
    (Node.one set).run attempt base next s = next (s.step b) := by
  simp [Node.run, h, inside]

lemma run_one_of_not_contains {set : ByteSet} {attempt : Attempt} {base : Nat} {next : Next}
    {s : State} (h : s.rest.head?.any set.contains = false) :
    (Node.one set).run attempt base next s = .failed s.slots := by
  unfold Node.run
  cases left : s.rest with
  | nil => rfl
  | cons b rest =>
      rw [left] at h
      simp_all

/-! ## Slots -/

lemma set_slot? (s : State) (slot : Nat) : s.slots.set slot (s.slot? slot) = s.slots := by
  by_cases within : slot < s.slots.length
  · have held : s.slot? slot = s.slots[slot] := by simp [State.slot?, within]
    rw [held, List.set_getElem_self]
  · exact List.set_eq_of_length_le (by omega)

lemma Answer.found?_eq_some {answer : Answer} {slots : Slots} :
    answer.found? = some slots ↔ answer = .matched slots := by
  cases answer <;> simp [found?]

lemma found?_keeping (next : Next) (slot : Nat) (start s : State) :
    (next.keeping slot start s).found?
      = (next { s with slots := s.slots.set slot (some (s.textSince start)) }).found? := by
  unfold Next.keeping
  split
  · rename_i matched
    rw [matched]
  · rename_i failed
    rw [failed]
    rfl

end ClauseRouter.Pattern
