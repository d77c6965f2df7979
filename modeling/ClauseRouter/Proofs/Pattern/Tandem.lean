import ClauseRouter.Proofs.Pattern.Search
import ClauseRouter.Proofs.Pattern.Slots

/-!
# A pattern in its anchor and on its own

The tree of an anchored pattern is searched in the path, where more may stand behind the text that it
takes; the pattern on its own is searched in that text alone.  Both searches take the same steps, slots
and lengths apart, as long as the first one stays in the text.  It may go beyond, where the other one
fails.  But then it takes more than the text, if it matches at all, so it is not the search that was
looked for.

* `Pattern.matchWhole?` — a pattern on its own matches the whole of a text.
* `State.Beside`, `State.Past` — the places of the two searches, and those that only the first one has.
* `Answer.Parallel` — the two come to the same, unless the first one took something else.
* `Next.Overshoots` — what goes on beyond the text takes something else.
* `Twin` — two searches that come to the same whenever what follows them does.  The lemmas about it
  follow the combinators from which `Node.run` is built; `Node.twin_run` is the one for trees.
* `matchWhole?_of_search?_enclosed` — so what a pattern takes between its anchors is a whole match of it.
-/

namespace ClauseRouter.Pattern

/-- Matches at the end of the subject. -/
def Next.atEnd : Next := fun s => if s.rest.isEmpty then .matched s.slots else .failed s.slots

/-- The texts of the groups where a pattern on its own matches the whole of a subject. -/
def matchWhole? (pattern : Pattern) (subject : Bytes) : Option Slots :=
  (pattern.node.run ⟨0, false, false⟩ 0 .atEnd
    ⟨0, none, subject, List.replicate pattern.groups none, []⟩).found?

variable (text behind : Bytes) (groups : Nat)

/-! ## Places -/

/-- A place in the path, and the same place in the text alone.  The slash in front is in the path only,
and so are the slots of the anchor, around those of the pattern. -/
structure State.Beside (s t : State) : Prop where
  position : s.position = t.position + 1
  rest : s.rest = t.rest ++ behind
  slots : s.slots = none :: t.slots ++ [none]
  entered : s.entered = t.entered
  room : t.slots.length = groups
  within : t.position + t.rest.length = text.length

/-- A place in the path that is beyond the text. -/
structure State.Past (s : State) : Prop where
  short : s.rest.length < behind.length
  within : s.position + s.rest.length = text.length + behind.length + 1

/-- A place is further on than another one, or loops have begun more passes there. -/
def State.Onward (t later : State) : Prop :=
  later.rest.length < t.rest.length ∨
    later.rest.length = t.rest.length ∧ ∀ loop, t.entered.count loop ≤ later.entered.count loop

namespace State

variable {text behind groups}

namespace Onward

lemma refl (t : State) : t.Onward t := .inr ⟨rfl, fun _ => Nat.le_refl _⟩

lemma trans {t later last : State} (first : t.Onward later) (second : later.Onward last) :
    t.Onward last := by
  rcases first with shorter | ⟨same, more⟩
  · rcases second with shorter' | ⟨same', _⟩
    · exact .inl (Nat.lt_trans shorter' shorter)
    · exact .inl (same' ▸ shorter)
  · rcases second with shorter' | ⟨same', more'⟩
    · exact .inl (same ▸ shorter')
    · exact .inr ⟨same'.trans same, fun loop => Nat.le_trans (more loop) (more' loop)⟩

lemma le {t later : State} (onward : t.Onward later) : later.rest.length ≤ t.rest.length :=
  onward.elim Nat.le_of_lt fun same => Nat.le_of_eq same.1

lemma step {t : State} {b : UInt8} {rest : Bytes} (left : t.rest = b :: rest) : t.Onward (t.step b) := by
  refine .inl ?_
  rw [rest_step left, left]
  exact Nat.lt_succ_self _

lemma advance {taken : Bytes} {t : State} (comes : taken <+: t.rest) : t.Onward (t.advance taken) := by
  induction taken generalizing t with
  | nil => exact refl t
  | cons b taken ih =>
      obtain ⟨rest, left⟩ := comes
      exact (step left.symm).trans (ih ⟨rest, (rest_step left.symm).symm⟩)

lemma enter (t : State) (loop : Nat) : t.Onward (t.enter loop) :=
  .inr ⟨rfl, fun _ => List.count_le_count_cons⟩

end Onward

namespace Beside

variable {s t : State}

lemma step (beside : Beside text behind groups s t) {b : UInt8} {rest : Bytes} (left : t.rest = b :: rest) :
    Beside text behind groups (s.step b) (t.step b) where
  position := congrArg (· + 1) beside.position
  rest := by
    rw [rest_step left]
    exact rest_step (by rw [beside.rest, left, List.cons_append])
  slots := beside.slots
  entered := rfl
  room := beside.room
  within := by
    have within := beside.within
    rw [left, List.length_cons] at within
    rw [rest_step left]
    show t.position + 1 + rest.length = text.length
    omega

lemma advance {taken : Bytes} (beside : Beside text behind groups s t) (comes : taken <+: t.rest) :
    Beside text behind groups (s.advance taken) (t.advance taken) := by
  induction taken generalizing s t with
  | nil => exact beside
  | cons b taken ih =>
      obtain ⟨rest, left⟩ := comes
      exact ih (beside.step left.symm) ⟨rest, (rest_step left.symm).symm⟩

lemma enter (beside : Beside text behind groups s t) (loop : Nat) :
    Beside text behind groups (s.enter loop) (t.enter loop) :=
  ⟨beside.position, beside.rest, beside.slots, congrArg (loop :: ·) beside.entered, beside.room,
    beside.within⟩

lemma mayEnter (beside : Beside text behind groups s t) (loop : Nat) :
    s.mayEnter loop = t.mayEnter loop := by
  rw [State.mayEnter, State.mayEnter, beside.entered]

/-- Beyond the text, behind something that the text does not go on with. -/
lemma past (beside : Beside text behind groups s t) {taken : Bytes} (comes : taken <+: s.rest)
    (leaves : ¬ taken <+: t.rest) : Past text behind (s.advance taken) := by
  have within := beside.within
  have position := beside.position
  have total : s.rest.length = t.rest.length + behind.length := by rw [beside.rest, List.length_append]
  have fits := comes.length_le
  have longer : t.rest.length < taken.length := by
    refine Nat.lt_of_not_le fun short => leaves ?_
    rw [beside.rest] at comes
    exact List.prefix_of_prefix_length_le comes (List.prefix_append _ _) short
  refine ⟨?_, ?_⟩
  · rw [rest_advance, List.length_drop]
    omega
  · rw [rest_advance, position_advance, List.length_drop]
    omega

/-- The text of a group is the same in both. -/
lemma textSince {start start' : State} (beside : Beside text behind groups s t)
    (begun : Beside text behind groups start start') : s.textSince start = t.textSince start' := by
  have within := beside.within
  have within' := begun.within
  have count : s.position - start.position = t.position - start'.position := by
    rw [beside.position, begun.position]
    omega
  rw [State.textSince, State.textSince, count, begun.rest]
  exact List.take_append_of_le_length (by omega)

/-- A slot of the pattern is the next one in the anchor. -/
lemma slot? (beside : Beside text behind groups s t) {slot : Nat} (inside : slot < groups) :
    s.slot? (slot + 1) = t.slot? slot := by
  rw [← beside.room] at inside
  rw [State.slot?, State.slot?, beside.slots, List.cons_append, List.getElem?_cons_succ,
    List.getElem?_append_left inside]

lemma keep (beside : Beside text behind groups s t) {slot : Nat} (inside : slot < groups)
    (kept : Option Bytes) :
    Beside text behind groups { s with slots := s.slots.set (slot + 1) kept }
      { t with slots := t.slots.set slot kept } where
  position := beside.position
  rest := beside.rest
  slots := by
    rw [← beside.room] at inside
    show s.slots.set (slot + 1) kept = _
    rw [beside.slots, List.cons_append, List.set_cons_succ, List.set_append_left _ _ inside]
    rfl
  entered := beside.entered
  room := by rw [List.length_set, beside.room]
  within := beside.within

end Beside

namespace Past

variable {s : State}

lemma step (past : Past text behind s) {b : UInt8} {rest : Bytes} (left : s.rest = b :: rest) :
    Past text behind (s.step b) := by
  obtain ⟨short, within⟩ := past
  rw [left, List.length_cons] at short within
  have position : (s.step b).position = s.position + 1 := rfl
  refine ⟨?_, ?_⟩
  · rw [rest_step left]
    omega
  · rw [rest_step left, position]
    omega

lemma advance {taken : Bytes} (past : Past text behind s) (comes : taken <+: s.rest) :
    Past text behind (s.advance taken) := by
  induction taken generalizing s with
  | nil => exact past
  | cons b taken ih =>
      obtain ⟨rest, left⟩ := comes
      exact ih (past.step left.symm) ⟨rest, (rest_step left.symm).symm⟩

end Past

end State

/-! ## The passes of a loop -/

/-- How many passes a loop may begin from a place on, at most. -/
def State.passesLeft (s : State) (loop : Nat) : Nat := 2 * s.rest.length + (2 - s.entered.count loop)

namespace State

variable {text behind groups} {s t later : State} {loop : Nat}

lemma passesLeft_le (s : State) (loop : Nat) : s.passesLeft loop ≤ 2 * (s.rest.length + 1) := by
  unfold passesLeft
  omega

lemma not_mayEnter_of_passesLeft (s : State) (none : s.passesLeft loop = 0) :
    s.mayEnter loop = false := by
  unfold passesLeft at none
  rw [mayEnter, decide_eq_false_iff_not]
  omega

lemma Beside.passesLeft (beside : Beside text behind groups s t) (loop : Nat) :
    s.passesLeft loop = t.passesLeft loop + 2 * behind.length := by
  rw [State.passesLeft, State.passesLeft, beside.rest, beside.entered, List.length_append]
  omega

/-- A pass that is begun is one less. -/
lemma Onward.passesLeft_lt (onward : (t.enter loop).Onward later) (may : t.mayEnter loop = true) :
    later.passesLeft loop < t.passesLeft loop := by
  rw [mayEnter, decide_eq_true_eq] at may
  unfold State.passesLeft
  rcases onward with shorter | ⟨same, more⟩
  · have shorter : later.rest.length < t.rest.length := shorter
    omega
  · have same : later.rest.length = t.rest.length := same
    have begun : t.entered.count loop + 1 ≤ later.entered.count loop := by
      have more := more loop
      rwa [State.enter, List.count_cons_self] at more
    omega

end State

lemma Next.passes_of_not_mayEnter {greedy : Bool} {loop budget : Nat} {body : Next → Next} {exit : Next}
    {s : State} (may : s.mayEnter loop = false) : Next.passes greedy loop body exit budget s = exit s := by
  cases budget with
  | zero => rfl
  | succ budget => simp [Next.passes, Next.pass, may]

/-! ## Answers -/

/-- **Two searches come to the same,** or the first one took something else than the text.  If they fail
the slots are as they were. -/
inductive Answer.Parallel (slots slots' : Slots) : Answer → Answer → Prop
  | failed : Parallel slots slots' (.failed slots) (.failed slots')
  | matched (held : Slots) (last : Option Bytes) :
      Parallel slots slots' (.matched (some text :: held ++ [last])) (.matched held)
  | astray {found : Slots} {answer : Answer} (other : found.head? ≠ some (some text)) :
      Parallel slots slots' (.matched found) answer

namespace Next

/-- A way to go on that takes something else than the text when it goes on beyond it, and leaves the
slots as they are if it fails. -/
structure Overshoots (next : Next) : Prop where
  restores : next.Restores
  astray {s : State} {found : Slots} (past : s.Past text behind) (matched : next s = .matched found) :
    found.head? ≠ some (some text)

/-- From a place on, two ways to go on come to the same. -/
def Parallel (next next' : Next) (t : State) : Prop :=
  ∀ s' t', State.Beside text behind groups s' t' → t.Onward t' →
    Answer.Parallel text s'.slots t'.slots (next s') (next' t')

variable {text behind groups}

namespace Overshoots

variable {first second again exit next : Next}

/-- Beyond the text the other search has come to its end. -/
lemma parallel (strays : next.Overshoots text behind) {s : State} (past : s.Past text behind)
    (slots' : Slots) : Answer.Parallel text s.slots slots' (next s) (.failed slots') := by
  cases answer : next s with
  | matched found => exact .astray (strays.astray past answer)
  | failed found =>
      rw [strays.restores _ _ answer]
      exact .failed

/-- It is enough that from every place the way is one that overshoots. -/
lemma of_agree (h : ∀ s, ∃ same : Next, same.Overshoots text behind ∧ next s = same s) :
    next.Overshoots text behind := by
  refine ⟨fun s slots failed => ?_, fun {s found} past matched => ?_⟩
  · obtain ⟨same, strays, agree⟩ := h s
    exact strays.restores s slots (agree ▸ failed)
  · obtain ⟨same, strays, agree⟩ := h s
    exact strays.astray past (agree ▸ matched)

lemma orElse (strays : first.Overshoots text behind) (strays' : second.Overshoots text behind) :
    (first.orElse second).Overshoots text behind := by
  refine .of_agree fun s => ?_
  cases tried : first s with
  | matched found => exact ⟨first, strays, by rw [Next.orElse, tried]⟩
  | failed slots =>
      obtain rfl := strays.restores _ _ tried
      exact ⟨second, strays', by rw [Next.orElse, tried]⟩

lemma enter (strays : again.Overshoots text behind) (loop : Nat) :
    Overshoots text behind fun s => again (s.enter loop) := by
  refine ⟨fun s => strays.restores (s.enter loop), fun {s found} past matched => ?_⟩
  have entered : (s.enter loop).Past text behind := ⟨past.short, past.within⟩
  exact strays.astray entered matched

lemma pass (greedy : Bool) (loop : Nat) (strays : again.Overshoots text behind)
    (strays' : exit.Overshoots text behind) : (Next.pass greedy loop again exit).Overshoots text behind := by
  have entering := strays.enter loop
  refine .of_agree fun s => ?_
  cases may : s.mayEnter loop with
  | false => exact ⟨exit, strays', by rw [Next.pass, may]; rfl⟩
  | true =>
      cases greedy with
      | true => exact ⟨_, entering.orElse strays', by rw [Next.pass, may]; rfl⟩
      | false => exact ⟨_, strays'.orElse entering, by rw [Next.pass, may]; rfl⟩

lemma keeping (strays : next.Overshoots text behind) (slot : Nat) (start : State) :
    (next.keeping slot start).Overshoots text behind := by
  refine ⟨strays.restores.keeping slot start, fun {s found} past matched => ?_⟩
  have kept : (s.withSlots (s.slots.set slot (some (s.textSince start)))).Past text behind :=
    ⟨past.short, past.within⟩
  exact strays.astray kept (Next.keeping_eq_matched.mp matched)

end Overshoots

variable {next next' first first' second second' again again' exit exit' : Next} {s t : State}

lemma Parallel.mono (parallel : Parallel text behind groups next next' t) {later : State}
    (onward : t.Onward later) : Parallel text behind groups next next' later :=
  fun s' t' beside further => parallel s' t' beside (onward.trans further)

lemma parallel_orElse
    (parallel : Answer.Parallel text s.slots t.slots (first s) (first' t))
    (parallel' : Answer.Parallel text s.slots t.slots (second s) (second' t)) :
    Answer.Parallel text s.slots t.slots (first.orElse second s) (first'.orElse second' t) := by
  unfold Next.orElse
  generalize first s = answer at parallel ⊢
  generalize first' t = answer' at parallel ⊢
  cases parallel with
  | failed => exact parallel'
  | matched held last => exact .matched held last
  | astray other => exact .astray other

/-- A loop may begin a pass in both searches, or in none. -/
lemma parallel_pass (beside : s.Beside text behind groups t) (greedy : Bool) {loop : Nat}
    (parallel : t.mayEnter loop = true →
      Answer.Parallel text s.slots t.slots (again (s.enter loop)) (again' (t.enter loop)))
    (parallel' : Answer.Parallel text s.slots t.slots (exit s) (exit' t)) :
    Answer.Parallel text s.slots t.slots (Next.pass greedy loop again exit s)
      (Next.pass greedy loop again' exit' t) := by
  unfold Next.pass
  rw [beside.mayEnter]
  cases may : t.mayEnter loop with
  | false => exact parallel'
  | true =>
      let entering : Next := fun s => again (s.enter loop)
      let entering' : Next := fun s => again' (s.enter loop)
      have entered : Answer.Parallel text s.slots t.slots (entering s) (entering' t) := parallel may
      cases greedy with
      | true => exact parallel_orElse entered parallel'
      | false => exact parallel_orElse parallel' entered

/-- A group keeps the same text in both searches. -/
lemma parallel_keeping (beside : s.Beside text behind groups t) {start start' : State}
    (begun : start.Beside text behind groups start') {slot : Nat} (inside : slot < groups)
    (parallel : Parallel text behind groups next next' t) :
    Answer.Parallel text s.slots t.slots (next.keeping (slot + 1) start s)
      (next'.keeping slot start' t) := by
  have kept := parallel _ _ (beside.keep inside (some (t.textSince start')))
    (.inr ⟨rfl, fun _ => Nat.le_refl _⟩)
  unfold Next.keeping
  rw [beside.textSince begun]
  generalize next _ = answer at kept ⊢
  generalize next' _ = answer' at kept ⊢
  cases kept with
  | failed =>
      simp only [List.set_set, set_slot?]
      exact .failed
  | matched held last => exact .matched held last
  | astray other => exact .astray other

end Next

/-! ## Searches -/

/-- **Two searches that come to the same whenever what follows them does.** -/
structure Twin (search search' : Next → Next) : Prop where
  overshoots {next : Next} (strays : next.Overshoots text behind) : (search next).Overshoots text behind
  parallel {next next' : Next} {s t : State} (strays : next.Overshoots text behind)
    (beside : s.Beside text behind groups t) (follows : next.Parallel text behind groups next' t) :
    Answer.Parallel text s.slots t.slots (search next s) (search' next' t)

namespace Twin

variable {text behind groups} {search search' inner inner' : Next → Next}
  {body body' : Nat → Next → Next}

/-- From a place on, two such searches come to the same. -/
lemma follows (twin : Twin text behind groups search search') {next next' : Next} {t : State}
    (strays : next.Overshoots text behind) (follows : next.Parallel text behind groups next' t) :
    (search next).Parallel text behind groups (search' next') t :=
  fun _ _ beside onward => twin.parallel strays beside (follows.mono onward)

lemma here : Twin text behind groups (fun next => next) fun next => next where
  overshoots strays := strays
  parallel _ beside follows := follows _ _ beside (.refl _)

/-- One search inside another. -/
lemma comp (twin : Twin text behind groups search search') (twin' : Twin text behind groups inner inner') :
    Twin text behind groups (fun next => search (inner next)) fun next => search' (inner' next) where
  overshoots strays := twin.overshoots (twin'.overshoots strays)
  parallel strays beside follows :=
    twin.parallel (twin'.overshoots strays) beside (twin'.follows strays follows)

lemma pass (twin : Twin text behind groups search search') (twin' : Twin text behind groups inner inner')
    (greedy : Bool) (loop : Nat) :
    Twin text behind groups (fun next => Next.pass greedy loop (search next) (inner next))
      fun next => Next.pass greedy loop (search' next) (inner' next) where
  overshoots strays := .pass greedy loop (twin.overshoots strays) (twin'.overshoots strays)
  parallel strays beside follows :=
    Next.parallel_pass beside greedy
      (fun _ => twin.parallel strays (beside.enter loop) (follows.mono (.enter _ loop)))
      (twin'.parallel strays beside follows)

lemma either (twin : Twin text behind groups search search')
    (twin' : Twin text behind groups inner inner') :
    Twin text behind groups (fun next => Next.orElse (search next) (inner next))
      fun next => Next.orElse (search' next) (inner' next) where
  overshoots strays := (twin.overshoots strays).orElse (twin'.overshoots strays)
  parallel strays beside follows :=
    Next.parallel_orElse (twin.parallel strays beside follows) (twin'.parallel strays beside follows)

lemma copies (twin : ∀ i, Twin text behind groups (body i) (body' i)) (count : Nat) :
    ∀ first, Twin text behind groups (fun exit => Next.copies body exit first count)
      fun exit => Next.copies body' exit first count := by
  induction count with
  | zero => exact fun _ => here
  | succ count ih => exact fun first => (twin first).comp (ih (first + 1))

lemma optionalCopies (twin : ∀ i, Twin text behind groups (body i) (body' i)) (greedy : Bool)
    (loop : Nat → Nat) (count : Nat) :
    ∀ first, Twin text behind groups
      (fun exit => Next.optionalCopies greedy loop body exit first count)
      fun exit => Next.optionalCopies greedy loop body' exit first count := by
  induction count with
  | zero => exact fun _ => here
  | succ count ih =>
      exact fun first => ((twin first).comp (ih (first + 1))).pass here greedy (loop first)

lemma overshoots_passes (twin : Twin text behind groups search search') {exit : Next}
    (strays : exit.Overshoots text behind) (greedy : Bool) (loop budget : Nat) :
    (Next.passes greedy loop search exit budget).Overshoots text behind := by
  induction budget with
  | zero => exact strays
  | succ budget ih => exact .pass greedy loop (twin.overshoots ih) strays

/-- **The passes of a loop** come to the same as long as no budget runs out before a loop may not begin
another pass: the longer search has a larger budget. -/
lemma parallel_passes (twin : Twin text behind groups search search') (greedy : Bool) {loop : Nat}
    {exit exit' : Next} (strays : exit.Overshoots text behind) {budget budget' : Nat} {s t : State}
    (beside : s.Beside text behind groups t) (enough : s.passesLeft loop ≤ budget)
    (enough' : t.passesLeft loop ≤ budget') (follows : exit.Parallel text behind groups exit' t) :
    Answer.Parallel text s.slots t.slots (Next.passes greedy loop search exit budget s)
      (Next.passes greedy loop search' exit' budget' t) := by
  -- on the larger budget: every pass makes the bound of passes left smaller in both
  induction budget generalizing budget' s t with
  | zero =>
      have may := s.not_mayEnter_of_passesLeft (Nat.le_zero.mp enough)
      rw [beside.mayEnter] at may
      rw [Next.passes_of_not_mayEnter may]
      exact follows s t beside (.refl t)
  | succ budget ih =>
      cases budget' with
      | zero =>
          have may := t.not_mayEnter_of_passesLeft (Nat.le_zero.mp enough')
          rw [← beside.mayEnter] at may
          rw [Next.passes_of_not_mayEnter may]
          exact follows s t beside (.refl t)
      | succ budget' =>
          have passes := twin.overshoots_passes strays greedy loop budget
          refine Next.parallel_pass beside greedy (fun may => ?_) (follows s t beside (.refl t))
          refine twin.parallel passes (beside.enter loop) fun s' t' beside' onward => ?_
          have fewer := onward.passesLeft_lt may
          have own := beside.passesLeft loop
          have own' := beside'.passesLeft loop
          exact ih beside' (by omega) (by omega) (follows.mono ((State.Onward.enter t loop).trans onward))

/-- A loop, whose budget is set where it begins. -/
lemma loop (twin : Twin text behind groups search search') (greedy : Bool) (loop : Nat) :
    Twin text behind groups
      (fun next s => Next.passes greedy loop search next (2 * (s.rest.length + 1)) s)
      fun next t => Next.passes greedy loop search' next (2 * (t.rest.length + 1)) t where
  overshoots strays := .of_agree fun _ => ⟨_, twin.overshoots_passes strays greedy loop _, rfl⟩
  parallel strays beside follows :=
    twin.parallel_passes greedy strays beside (State.passesLeft_le _ loop) (State.passesLeft_le _ loop) follows

/-- A loop that has made its first pass. -/
lemma required (twin : Twin text behind groups search search') (greedy : Bool) (loop : Nat) :
    Twin text behind groups
      (fun next s => search (Next.passes greedy loop search next (2 * (s.rest.length + 1))) s)
      fun next t => search' (Next.passes greedy loop search' next (2 * (t.rest.length + 1))) t where
  overshoots strays :=
    .of_agree fun _ => ⟨_, twin.overshoots (twin.overshoots_passes strays greedy loop _), rfl⟩
  parallel {next next' s t} strays beside follows := by
    refine twin.parallel (twin.overshoots_passes strays greedy loop _) beside fun s' t' beside' onward => ?_
    have shorter := onward.le
    have shorter' : s'.rest.length ≤ s.rest.length := by
      rw [beside'.rest, beside.rest, List.length_append, List.length_append]
      omega
    refine twin.parallel_passes greedy strays beside' ?_ ?_ (follows.mono onward)
    · exact Nat.le_trans (s'.passesLeft_le loop) (by omega)
    · exact Nat.le_trans (t'.passesLeft_le loop) (by omega)

end Twin

/-! ## Trees -/

variable {text behind groups} {attempt attempt' : Attempt} {base : Nat}

/-- One byte, which may be the first one beyond the text. -/
lemma Twin.one (set : ByteSet) :
    Twin text behind groups ((Node.one set).run attempt base) ((Node.one set).run attempt' base) where
  overshoots {next} strays := by
    refine ⟨fun s slots failed => ?_, fun {s found} past matched => ?_⟩
    · rcases s.head_cases set with ⟨b, rest, left, inside, _⟩ | outside
      · rw [run_one_of_contains left inside] at failed
        show slots = (s.step b).slots
        exact strays.restores _ _ failed
      · rw [run_one_of_not_contains outside] at failed
        exact (Answer.failed.inj failed).symm
    · rcases s.head_cases set with ⟨b, rest, left, inside, _⟩ | outside
      · rw [run_one_of_contains left inside] at matched
        exact strays.astray (past.step left) matched
      · rw [run_one_of_not_contains outside] at matched
        cases matched
  parallel {next next' s t} strays beside follows := by
    rcases t.head_cases set with ⟨b, rest, left, inside, _⟩ | outside
    · have left' : s.rest = b :: (rest ++ behind) := by rw [beside.rest, left, List.cons_append]
      rw [run_one_of_contains left inside, run_one_of_contains left' inside]
      exact follows _ _ (beside.step left) (.step left)
    · rw [run_one_of_not_contains outside]
      rcases s.head_cases set with ⟨b, rest, left, inside, _⟩ | outside'
      · -- the text is at its end, and the byte stands behind it
        rw [run_one_of_contains left inside]
        have leaves : ¬ [b] <+: t.rest := by
          rintro ⟨more, comes⟩
          rw [← comes] at outside
          exact absurd inside (by simpa using outside)
        exact strays.parallel (beside.past ⟨rest, left.symm⟩ leaves) t.slots
      · rw [run_one_of_not_contains outside']
        exact .failed

/-- A back-reference goes on behind the text of its slot, or fails. -/
lemma State.reference_cases (s : State) (slot : Nat) {attempt : Attempt} {base : Nat} {next : Next} :
    (∃ taken, taken <+: s.rest ∧
        (Node.reference slot).run attempt base next s = next (s.advance taken)) ∨
      (Node.reference slot).run attempt base next s = .failed s.slots := by
  unfold Node.run
  split
  · exact .inr rfl
  · rename_i taken _
    split
    · rename_i comes
      exact .inl ⟨taken, List.isPrefixOf_iff_prefix.mp comes, rfl⟩
    · exact .inr rfl

/-- The text of a slot once more, which may end beyond the text. -/
lemma Twin.reference {slot : Nat} (inside : slot < groups) :
    Twin text behind groups ((Node.reference (slot + 1)).run attempt base)
      ((Node.reference slot).run attempt' base) where
  overshoots {next} strays := by
    refine ⟨fun s slots failed => ?_, fun {s found} past matched => ?_⟩
    · rcases s.reference_cases (slot + 1) with ⟨taken, comes, goesOn⟩ | fails
      · rw [goesOn] at failed
        rw [strays.restores _ _ failed, State.slots_advance]
      · rw [fails] at failed
        exact (Answer.failed.inj failed).symm
    · rcases s.reference_cases (slot + 1) with ⟨taken, comes, goesOn⟩ | fails
      · rw [goesOn] at matched
        exact strays.astray (past.advance comes) matched
      · rw [fails] at matched
        cases matched
  parallel {next next' s t} strays beside follows := by
    unfold Node.run
    rw [beside.slot? inside]
    cases t.slot? slot with
    | none => exact .failed
    | some taken =>
        dsimp only
        by_cases comes : taken <+: t.rest
        · have comes' : taken <+: s.rest := beside.rest ▸ comes.trans (List.prefix_append _ _)
          rw [if_pos (List.isPrefixOf_iff_prefix.mpr comes), if_pos (List.isPrefixOf_iff_prefix.mpr comes')]
          have further := follows _ _ (beside.advance comes) (.advance comes)
          rwa [State.slots_advance, State.slots_advance] at further
        · rw [if_neg (mt List.isPrefixOf_iff_prefix.mp comes)]
          by_cases comes' : taken <+: s.rest
          · rw [if_pos (List.isPrefixOf_iff_prefix.mpr comes')]
            have strayed := strays.parallel (beside.past comes' comes) t.slots
            rwa [State.slots_advance] at strayed
          · rw [if_neg (mt List.isPrefixOf_iff_prefix.mp comes')]
            exact .failed

/-- A group. -/
lemma Twin.group {slot : Nat} (inside : slot < groups) {body body' : Next → Next}
    (twin : Twin text behind groups body body') :
    Twin text behind groups (fun next s => body (next.keeping (slot + 1) s) s)
      fun next s => body' (next.keeping slot s) s where
  overshoots strays := .of_agree fun s => ⟨_, twin.overshoots (strays.keeping (slot + 1) s), rfl⟩
  parallel {_ _ s t} strays beside follows := by
    refine twin.parallel (strays.keeping (slot + 1) s) beside fun s' t' beside' onward => ?_
    exact Next.parallel_keeping beside' beside inside (follows.mono onward)

/-- **A tree that fits its groups is searched in both places alike.** -/
theorem Node.twin_run (attempt attempt' : Attempt) {node : Node} (fits : node.Fits groups) (base : Nat) :
    Twin text behind groups (node.shifted.run attempt base) (node.run attempt' base) := by
  induction node generalizing base with
  | empty => exact .here
  | one set => exact .one set
  | group slot body ih => exact .group fits.1 (ih fits.2 base)
  | seq first second ih ih' =>
      have twin := (ih fits.1 base).comp (ih' fits.2 (base + first.loops))
      simpa only [shifted, run, loops_shifted] using twin
  | either left right ih ih' =>
      have twin := (ih fits.1 base).either (ih' fits.2 (base + left.loops))
      simpa only [shifted, run, loops_shifted] using twin
  | loop required greedy body ih =>
      have twin := ih fits (base + 1)
      cases required with
      | false => exact twin.loop greedy base
      | true => exact twin.required greedy base
  | optional greedy body ih => exact (ih fits (base + 1)).pass .here greedy base
  | interval least extra greedy body ih =>
      let above := base + least * body.loops
      have copies := Twin.copies (fun i => ih fits (base + i * body.loops)) least 0
      cases extra with
      | none =>
          have twin := copies.comp ((ih fits (above + 1)).loop greedy above)
          simpa only [shifted, run, loops_shifted] using twin
      | some count =>
          let loop i := above + i * (body.loops + 1)
          have more := Twin.optionalCopies (fun i => ih fits (loop i + 1)) greedy loop count 0
          simpa only [shifted, run, loops_shifted] using copies.comp more
  | reference slot => exact .reference fits
  | check assertion => exact fits.elim
  | lookahead negated body ih => exact fits.elim

/-! ## The anchor -/

/-- What follows the first group of an anchored tree: the text is kept, and a separator has to come. -/
def Next.closing (openEnd : Bool) (last base : Nat) (start : State) : Next :=
  ((Node.separator last).run ⟨0, false, openEnd⟩ base fun s => .matched s.slots).keeping 0 start

namespace Next

variable {openEnd : Bool} {last : Nat} {start s : State} {found : Slots}

lemma closing_restores : (closing openEnd last base start).Restores := by
  refine Restores.keeping (fun s slots failed => ?_) 0 start
  rw [Node.run_separator] at failed
  split at failed
  · cases failed
  · exact (Answer.failed.inj failed).symm

lemma eq_of_closing (matched : closing openEnd last base start s = .matched found) :
    s.atSeparator openEnd = true ∧
      found = (s.slots.set 0 (some (s.textSince start))).set last (some (s.rest.take 1)) := by
  have separated := keeping_eq_matched.mp matched
  rw [Node.run_separator] at separated
  split at separated
  · rename_i atSeparator
    exact ⟨atSeparator, (Answer.matched.inj separated).symm⟩
  · cases separated

/-- The first slot holds what was taken. -/
lemma textSince_of_closing (distinct : 1 ≤ last)
    (matched : closing openEnd last base start s = .matched found)
    (kept : found.head? = some (some text)) : s.textSince start = text := by
  obtain ⟨_, rfl⟩ := eq_of_closing matched
  obtain ⟨last, rfl⟩ := Nat.exists_eq_add_of_le' distinct
  cases held : s.slots with
  | nil => rw [held] at kept; cases kept
  | cons first others =>
      rw [held] at kept
      exact Option.some.inj (Option.some.inj kept)

end Next

/-- The place behind the slash of a path that begins with a text. -/
def State.behindSlash (text behind : Bytes) (groups : Nat) : State :=
  ⟨1, some Byte.slash, text ++ behind, List.replicate (groups + 2) none, []⟩

/-- The start of the text alone. -/
def State.alone (text : Bytes) (groups : Nat) : State :=
  ⟨0, none, text, List.replicate groups none, []⟩

lemma State.beside_alone :
    (behindSlash text behind groups).Beside text behind groups (alone text groups) where
  position := rfl
  rest := rfl
  slots := by
    show List.replicate (groups + 2) none = none :: List.replicate groups none ++ [none]
    rw [List.replicate_succ, List.replicate_succ']
    rfl
  entered := rfl
  room := List.length_replicate
  within := Nat.zero_add _

namespace Next

variable {openEnd : Bool}

/-- Beyond the text more is taken than the text. -/
lemma closing_overshoots :
    (closing openEnd (groups + 1) base (.behindSlash text behind groups)).Overshoots text behind := by
  refine ⟨closing_restores, fun {s found} past matched kept => ?_⟩
  have same := textSince_of_closing (Nat.le_add_left 1 groups) matched kept
  obtain ⟨short, within⟩ := past
  have length := congrArg List.length same
  simp only [State.textSince, State.behindSlash, List.length_take, List.length_append] at length
  omega

/-- At the end of the text a separator comes, -/
lemma closing_of_ended (boundary : behind.head? = some Byte.slash ∨ behind = [] ∧ openEnd = false)
    {s t : State} (beside : s.Beside text behind groups t) (left : t.rest = []) :
    closing openEnd (groups + 1) base (.behindSlash text behind groups) s
      = .matched (some text :: t.slots ++ [some (behind.take 1)]) := by
  have rest : s.rest = behind := by rw [beside.rest, left, List.nil_append]
  have atSeparator : s.atSeparator openEnd = true := by
    rw [State.atSeparator, rest]
    rcases boundary with slash | ⟨rfl, rfl⟩
    · rw [slash]
      rfl
    · rfl
  have whole : s.textSince (.behindSlash text behind groups) = text := by
    have within := beside.within
    rw [left, List.length_nil, Nat.add_zero] at within
    rw [beside.textSince State.beside_alone, State.textSince, within]
    exact List.take_length
  have kept : (s.slots.set 0 (some text)).set (groups + 1) (some (behind.take 1))
      = some text :: t.slots ++ [some (behind.take 1)] := by
    rw [beside.slots, List.cons_append, List.set_cons_zero, List.set_cons_succ,
      List.set_append_right _ _ (Nat.le_of_eq beside.room), beside.room, Nat.sub_self]
    rfl
  refine keeping_eq_matched.mpr ?_
  have same : (s.withSlots (s.slots.set 0 (some text))).atSeparator openEnd = true := atSeparator
  rw [whole, Node.run_separator, if_pos same, ← kept, ← rest]
  rfl

/-- and in front of it less is taken than the text. -/
lemma closing_parallel (boundary : behind.head? = some Byte.slash ∨ behind = [] ∧ openEnd = false) :
    (closing openEnd (groups + 1) base (.behindSlash text behind groups)).Parallel text behind groups
      atEnd (.alone text groups) := by
  intro s t beside _
  cases left : t.rest with
  | nil =>
      have ended : atEnd t = .matched t.slots := by rw [atEnd, left]; rfl
      rw [ended, closing_of_ended boundary beside left]
      exact .matched t.slots _
  | cons b rest =>
      have ended : atEnd t = .failed t.slots := by rw [atEnd, left]; rfl
      rw [ended]
      cases answer : closing openEnd (groups + 1) base (.behindSlash text behind groups) s with
      | failed slots =>
          rw [closing_restores _ _ answer]
          exact .failed
      | matched found =>
          refine .astray fun kept => ?_
          have same := textSince_of_closing (Nat.le_add_left 1 groups) answer kept
          rw [beside.textSince State.beside_alone] at same
          have length := congrArg List.length same
          have within := beside.within
          rw [left, List.length_cons] at within
          simp only [State.textSince, State.alone, List.length_take] at length
          omega

end Next

/-- **What an anchored tree takes is a whole match of the pattern on its own,** with the same groups. -/
lemma matchWhole?_of_runAnchored {pattern : Pattern} (fits : pattern.node.Fits pattern.groups)
    {openEnd : Bool} {rest : Bytes} {slots : Slots}
    (matched : pattern.node.shifted.runAnchored (pattern.groups + 1) (pattern.groups + 2) openEnd rest
      = .matched slots) :
    ∃ text behind held last, rest = text ++ behind ∧ matchWhole? pattern text = some held ∧
      slots = some text :: held ++ [last] := by
  obtain ⟨text, behind, kept, rfl, size, found, boundary⟩ := Node.matched_of_runAnchored _ _ _ matched
  let start := State.behindSlash text behind pattern.groups
  let next := Next.closing openEnd (pattern.groups + 1) pattern.node.shifted.loops start
  have ran : pattern.node.shifted.run ⟨0, false, openEnd⟩ 0 next start = .matched slots := matched
  have both : Answer.Parallel text start.slots (State.alone text pattern.groups).slots
      (pattern.node.shifted.run ⟨0, false, openEnd⟩ 0 next start)
      (pattern.node.run ⟨0, false, false⟩ 0 .atEnd (.alone text pattern.groups)) :=
    (Node.twin_run _ _ fits 0).parallel Next.closing_overshoots State.beside_alone
      (Next.closing_parallel boundary)
  rw [ran] at both
  generalize whole : pattern.node.run _ 0 _ _ = answer at both
  cases both with
  | matched held last =>
      refine ⟨text, behind, held, last, rfl, ?_, rfl⟩
      exact Answer.found?_eq_some.mpr whole
  | astray other =>
      refine absurd ?_ other
      rw [found]
      cases kept with
      | nil => cases size
      | cons first kept => rfl

/-- **A match of a pattern between its anchors is a whole match of the pattern on its own,** behind a slash,
and its groups keep the same. -/
lemma matchWhole?_of_search?_enclosed {pattern : Pattern} (fits : pattern.node.Fits pattern.groups)
    {openEnd : Bool} {subject : Bytes} {slots : Slots}
    (search : pattern.enclosed.search? subject openEnd = some slots) :
    ∃ text behind held last, subject = Byte.slash :: text ++ behind ∧
      pattern.matchWhole? text = some held ∧ slots = some text :: held ++ [last] := by
  obtain ⟨rest, rfl⟩ := List.head?_eq_some_iff.mp (head?_of_search?_anchored search)
  rw [enclosed, search?_anchored, Answer.found?_eq_some] at search
  obtain ⟨text, behind, held, last, rfl, whole, rfl⟩ := matchWhole?_of_runAnchored fits search
  exact ⟨text, behind, held, last, rfl, whole, rfl⟩

end ClauseRouter.Pattern
