import ClauseRouter.Proofs.Pattern.Advance

/-!
# What a search finds

A tree that is matched with a continuation goes on at one place after another.  If no slot is changed by
a way that fails, it does not matter in which order the places come: the search matches exactly if the
continuation matches at one of them.

* `Next.Restores` — a way to go on that leaves the slots alone if it fails.
* `Visits` — what a search does at one place: it goes on at some places, and at no others.
* `Explores` — the places of a search, from wherever it begins.  `Explores.comp` is one search inside
  another; `Explores.one`, `Explores.check`, `Explores.group` and `Explores.loop_one` are the places of
  single bytes, of conditions, of groups, and of loops over single bytes.
-/

namespace ClauseRouter.Pattern

/-! ## What comes next -/

/-- Either a byte of a set comes next, or none does. -/
lemma State.head_cases (set : ByteSet) (s : State) :
    (∃ b rest, s.rest = b :: rest ∧ set.contains b ∧ (s.step b).rest = rest) ∨
      s.rest.head?.any set.contains = false := by
  cases left : s.rest with
  | nil => exact .inr rfl
  | cons b rest =>
      cases inside : set.contains b with
      | true => exact .inl ⟨b, rest, rfl, inside, rest_step left⟩
      | false => exact .inr inside

/-- The places behind the texts of bytes of a set that come next. -/
def State.Follows (set : ByteSet) (s later : State) : Prop :=
  ∃ text, text <+: s.rest ∧ (∀ b ∈ text, set.contains b) ∧ later = s.advance text

/-- The places behind the texts of such bytes that are not empty. -/
lemma State.exists_follows_iff {set : ByteSet} {s later : State} :
    (∃ b rest, s.rest = b :: rest ∧ set.contains b ∧ (s.step b).Follows set later) ↔
      ∃ text, text ≠ [] ∧ (∀ b ∈ text, set.contains b) ∧ text <+: s.rest ∧ later = s.advance text := by
  constructor
  · rintro ⟨b, rest, left, inside, text, front, all, rfl⟩
    rw [rest_step left] at front
    exact ⟨b :: text, List.cons_ne_nil b text, List.forall_mem_cons.mpr ⟨inside, all⟩,
      left ▸ List.cons_prefix_cons.mpr ⟨rfl, front⟩, rfl⟩
  · rintro ⟨text, nonempty, all, ⟨rest, left⟩, rfl⟩
    obtain ⟨b, text, rfl⟩ := List.exists_cons_of_ne_nil nonempty
    obtain ⟨inside, all⟩ := List.forall_mem_cons.mp all
    exact ⟨b, _, left.symm, inside, text, ⟨rest, (rest_step left.symm).symm⟩, all, rfl⟩

/-- A text of such bytes begins with one, or is empty. -/
lemma State.follows_iff {set : ByteSet} {s later : State} : s.Follows set later ↔
    (∃ b rest, s.rest = b :: rest ∧ set.contains b ∧ (s.step b).Follows set later) ∨ later = s := by
  rw [exists_follows_iff]
  constructor
  · rintro ⟨text, front, all, rfl⟩
    by_cases empty : text = []
    · subst empty
      exact .inr rfl
    · exact .inl ⟨text, empty, all, front, rfl⟩
  · rintro (⟨text, _, all, front, rfl⟩ | rfl)
    · exact ⟨text, front, all, rfl⟩
    · exact ⟨[], List.nil_prefix, by simp, rfl⟩

/-! ## Places -/

namespace Next

/-- A way to go on that leaves the slots as they are if it fails. -/
def Restores (next : Next) : Prop := ∀ s slots, next s = .failed slots → slots = s.slots

/-- A way to go on matches from a place. -/
def Matches (next : Next) (s : State) : Prop := ∃ slots, next s = .matched slots

/-- A group that fails takes its text out again. -/
lemma Restores.keeping {next : Next} (restores : next.Restores) (slot : Nat) (start : State) :
    (next.keeping slot start).Restores := by
  intro s slots failed
  unfold Next.keeping at failed
  split at failed
  · cases failed
  · rename_i left tried
    cases failed
    rw [restores _ _ tried, List.set_set, set_slot?]

lemma keeping_eq_matched {next : Next} {slot : Nat} {start s : State} {slots : Slots} :
    next.keeping slot start s = .matched slots
      ↔ next (s.withSlots (s.slots.set slot (some (s.textSince start)))) = .matched slots := by
  unfold Next.keeping State.withSlots
  split
  · rename_i matched
    rw [matched]
  · rename_i failed
    rw [failed]
    simp

end Next

/-- **What a search does at one place:** it goes on with `next` at some places, and at no others. -/
structure Visits (search next : Next) (s : State) (places : State → Prop) : Prop where
  restores {slots : Slots} (failed : search s = .failed slots) : slots = s.slots
  /-- A match is a match of the continuation at one of the places. -/
  sound {slots : Slots} (matched : search s = .matched slots) :
    ∃ later, places later ∧ next later = .matched slots
  /-- If the continuation matches at one of the places, the search does not fail. -/
  complete {later : State} (reached : places later) (goesOn : next.Matches later) : search.Matches s

namespace Visits

variable {search first second between next : Next} {s : State} {places places' : State → Prop}

lemma here (restores : next.Restores) (s : State) : Visits next next s (· = s) where
  restores failed := restores _ _ failed
  sound matched := ⟨s, rfl, matched⟩
  complete reached goesOn := reached ▸ goesOn

lemma nowhere (failed : search s = .failed s.slots) (none : ∀ later, ¬ places later) :
    Visits search next s places where
  restores failed' := (Answer.failed.inj (failed.symm.trans failed')).symm
  sound matched := by cases failed.symm.trans matched
  complete reached := absurd reached (none _)

lemma congr (h : Visits search next s places) (same : ∀ later, places later ↔ places' later) :
    Visits search next s places' := by
  have same : places = places' := funext fun later => propext (same later)
  exact same ▸ h

/-- A search that does what another one does at another place, where the slots hold the same. -/
lemma of_eq {other : Next} {s' : State} (h : Visits search next s places) (same : other s' = search s)
    (slots : s'.slots = s.slots) : Visits other next s' places where
  restores failed := (h.restores (same.symm.trans failed)).trans slots.symm
  sound matched := h.sound (same ▸ matched)
  complete reached goesOn := by
    obtain ⟨found, matched⟩ := h.complete reached goesOn
    exact ⟨found, same.trans matched⟩

/-- What one way to go on cannot find, the other one looks for with the same slots. -/
lemma orElse (h : Visits first next s places) (h' : Visits second next s places') :
    Visits (Next.orElse first second) next s fun later => places later ∨ places' later := by
  cases tried : first s with
  | matched slots =>
      have same : Next.orElse first second s = first s := by rw [Next.orElse, tried]
      refine ⟨fun failed => h.restores (same ▸ failed), fun matched => ?_, fun _ _ => ⟨slots, ?_⟩⟩
      · obtain ⟨later, reached, matched⟩ := h.sound (same ▸ matched)
        exact ⟨later, .inl reached, matched⟩
      · rw [same, tried]
  | failed slots =>
      -- the second way starts with the slots of the first one's failure, which are the old ones
      obtain rfl := h.restores tried
      have same : Next.orElse first second s = second s := by
        rw [Next.orElse, tried]
      refine ⟨fun failed => h'.restores (same ▸ failed), fun matched => ?_, fun reached goesOn => ?_⟩
      · obtain ⟨later, reached, matched⟩ := h'.sound (same ▸ matched)
        exact ⟨later, .inr reached, matched⟩
      · rcases reached with reached | reached
        · obtain ⟨found, matched⟩ := h.complete reached goesOn
          cases tried.symm.trans matched
        · obtain ⟨found, matched⟩ := h'.complete reached goesOn
          exact ⟨found, same.trans matched⟩

/-- A loop that may begin a pass goes on at the places of the pass and at those where it lets go, and it does
not matter which of them it prefers. -/
lemma pass {again exit : Next} {loop : Nat} (greedy : Bool) (may : s.mayEnter loop)
    (h : Visits (fun s => again (s.enter loop)) next s places) (h' : Visits exit next s places') :
    Visits (Next.pass greedy loop again exit) next s fun later => places later ∨ places' later := by
  have entered : Next.pass greedy loop again exit s
      = if greedy then Next.orElse (fun s => again (s.enter loop)) exit s
        else Next.orElse exit (fun s => again (s.enter loop)) s := by
    rw [Next.pass, if_pos may]
  cases greedy with
  | true => exact (h.orElse h').of_eq entered rfl
  | false => exact ((h'.orElse h).of_eq entered rfl).congr fun _ => or_comm

/-- A search whose continuation is a search. -/
lemma trans {reach : State → State → Prop} (h : Visits search between s places)
    (h' : ∀ s, Visits between next s (reach s)) :
    Visits search next s fun later => ∃ between, places between ∧ reach between later where
  restores := h.restores
  sound matched := by
    obtain ⟨between, first, matched⟩ := h.sound matched
    obtain ⟨later, second, matched⟩ := (h' between).sound matched
    exact ⟨later, ⟨between, first, second⟩, matched⟩
  complete := fun ⟨between, first, second⟩ goesOn =>
    h.complete first ((h' between).complete second goesOn)

/-- One byte of a set, and then what is reached from behind it. -/
lemma one_then {set : ByteSet} {attempt : Attempt} {base : Nat} {reach : UInt8 → State → Prop}
    (behind : ∀ b rest, s.rest = b :: rest → Visits between next (s.step b) (reach b)) :
    Visits ((Node.one set).run attempt base between) next s fun later =>
      ∃ b rest, s.rest = b :: rest ∧ set.contains b ∧ reach b later := by
  rcases s.head_cases set with ⟨b, rest, left, inside, _⟩ | outside
  · refine ((behind b rest left).of_eq (run_one_of_contains left inside) rfl).congr fun later => ?_
    constructor
    · exact fun reached => ⟨b, rest, left, inside, reached⟩
    · rintro ⟨c, rest', left', _, reached⟩
      cases left.symm.trans left'
      exact reached
  · refine Visits.nowhere (run_one_of_not_contains outside) ?_
    rintro _ ⟨b, rest, left, inside, _⟩
    rw [left] at outside
    exact absurd inside (by simpa using outside)

/-- A group that ends goes on with its text in its slot. -/
lemma keeping (restores : next.Restores) (slot : Nat) (start s : State) :
    Visits (next.keeping slot start) next s
      (· = s.withSlots (s.slots.set slot (some (s.textSince start)))) where
  restores failed := restores.keeping slot start _ _ failed
  sound matched := ⟨_, rfl, Next.keeping_eq_matched.mp matched⟩
  complete := by
    rintro _ rfl ⟨slots, matched⟩
    exact ⟨slots, Next.keeping_eq_matched.mpr matched⟩

end Visits

/-- **A search and the places it goes on at.** -/
def Explores (search : Next → Next) (reach : State → State → Prop) : Prop :=
  ∀ next : Next, next.Restores → ∀ s, Visits (search next) next s (reach s)

namespace Explores

variable {search inner : Next → Next} {reach reach' : State → State → Prop}

lemma restores (h : Explores search reach) {next : Next} (restores : next.Restores) :
    (search next).Restores := fun s _ failed => (h next restores s).restores failed

/-- Going on at once. -/
lemma refl : Explores (fun next => next) Eq := fun _ restores s =>
  (Visits.here restores s).congr fun _ => eq_comm

/-- One search inside another goes on at the places of the inner one behind those of the outer one. -/
lemma comp (h : Explores search reach) (h' : Explores inner reach') :
    Explores (fun next => search (inner next))
      fun s later => ∃ between, reach s between ∧ reach' between later :=
  fun next restores s => (h _ (h'.restores restores) s).trans (h' next restores)

lemma congr (h : Explores search reach) (same : ∀ s later, reach s later ↔ reach' s later) :
    Explores search reach' := fun next restores s => (h next restores s).congr (same s)

/-! ## Trees -/

variable {attempt : Attempt} {base : Nat}

/-- One byte of a set. -/
lemma one (set : ByteSet) :
    Explores ((Node.one set).run attempt base) fun s later =>
      ∃ b rest, s.rest = b :: rest ∧ set.contains b ∧ later = s.step b :=
  fun _ restores _ => Visits.one_then fun _ _ _ => Visits.here restores _

/-- A condition on the place. -/
lemma check (assertion : Assertion) :
    Explores ((Node.check assertion).run attempt base) fun s later =>
      assertion.holds attempt s ∧ s = later := by
  intro next restores s
  cases holds : assertion.holds attempt s with
  | true =>
      have same : (Node.check assertion).run attempt base next s = next s := by simp [Node.run, holds]
      exact ((Visits.here restores s).of_eq same rfl).congr fun later =>
        ⟨fun here => ⟨holds, here.symm⟩, fun here => here.2.symm⟩
  | false =>
      refine Visits.nowhere (by simp [Node.run, holds]) fun _ reached => ?_
      exact Bool.false_ne_true (holds.symm.trans reached.1)

/-- A group goes on where its tree does, with the text in its slot. -/
lemma group (slot : Nat) {body : Node} (h : Explores (body.run attempt base) reach) :
    Explores ((Node.group slot body).run attempt base) fun s later => ∃ between, reach s between ∧
      later = between.withSlots (between.slots.set slot (some (between.textSince s))) := by
  intro next restores s
  have inside := (h _ (restores.keeping slot s) s).trans (Visits.keeping restores slot s)
  exact inside.of_eq rfl rfl

end Explores

/-! ## Loops over single bytes -/

section

variable (set : ByteSet) (attempt : Attempt) (greedy : Bool) (base : Nat) {next : Next}

/-- **A loop over single bytes goes on behind every text of such bytes,** be it greedy or reluctant. -/
lemma passes_one (loop : Nat) (restores : next.Restores) (budget : Nat) {s : State}
    (fresh : s.entered = []) (enough : s.rest.length ≤ budget) :
    Visits (Next.passes greedy loop ((Node.one set).run attempt base) next budget) next s
      (s.Follows set) := by
  -- every pass takes a byte, so the budget lasts as long as the subject
  induction budget generalizing s with
  | zero =>
      have ended : s.rest = [] := List.length_eq_zero_iff.mp (Nat.le_zero.mp enough)
      exact (Visits.here restores s).congr fun _ => (State.follows_iff.trans (by simp [ended])).symm
  | succ budget ih =>
      have may : s.mayEnter loop := by simp [State.mayEnter, fresh]
      have once : Visits (fun s => (Node.one set).run attempt base
          (Next.passes greedy loop ((Node.one set).run attempt base) next budget) (s.enter loop)) next s
          fun later => ∃ b rest, s.rest = b :: rest ∧ set.contains b ∧ (s.step b).Follows set later := by
        refine Visits.of_eq (s := s.enter loop) (Visits.one_then fun b rest left => ih rfl ?_) rfl rfl
        rw [State.rest_step left]
        have length := congrArg List.length (show s.rest = b :: rest from left)
        rw [List.length_cons] at length
        omega
      exact (once.pass greedy may (Visits.here restores s)).congr fun _ => State.follows_iff.symm

/-- **A loop over single bytes that needs one** goes on behind the texts of such bytes that are not
empty. -/
lemma Explores.loop_one :
    Explores ((Node.loop true greedy (.one set)).run attempt base) fun s later =>
      ∃ text, text ≠ [] ∧ (∀ b ∈ text, set.contains b) ∧ text <+: s.rest ∧ later = s.advance text := by
  intro next restores s
  have loop : (Node.loop true greedy (.one set)).run attempt base next s
      = (Node.one set).run attempt (base + 1) (Next.passes greedy base
          ((Node.one set).run attempt (base + 1)) next (2 * (s.rest.length + 1))) s := rfl
  refine Visits.congr ?_ fun _ => State.exists_follows_iff
  refine (Visits.one_then fun b rest left => ?_).of_eq loop rfl
  refine passes_one set attempt greedy (base + 1) base restores _ rfl ?_
  rw [State.rest_step left, left, List.length_cons]
  omega

end

end ClauseRouter.Pattern
