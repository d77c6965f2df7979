import ClauseRouter.Proofs.Path.Boundary
import ClauseRouter.Proofs.Pattern.Embedding

/-!
# A pattern sees its window only

A path that has more segments than a pattern can span is cut behind the slash that follows them.  What is
behind the cut is neither seen nor taken, and the cut itself is no end for the pattern.

* `Path.Cut` — a window that is cut.  `Path.window_of_cut` and `Path.exists_cut` tell that these are the
  windows of the paths that have segments enough.
* `Pattern.groups_of_weighed?` — the groups of a pattern are its parentheses that capture, so there are as
  many of them with back-references lowered (`Pattern.exists_anchored`).
* `Cursor.Bite` — what a matcher takes of a window.
* `Cursor.consume_window` — it is the same whatever is behind the window, and what it is.
-/

namespace ClauseRouter

/-! ## Cuts -/

namespace Path

/-- **A window that is cut:** it ends with the slash that follows its last segment.  The slash in front of
the first one does not count. -/
def Cut (segments : Nat) (window : Bytes) : Prop :=
  window.getLast? = some Byte.slash ∧ window.tail.count Byte.slash = segments

instance (segments : Nat) (window : Bytes) : Decidable (Cut segments window) :=
  inferInstanceAs (Decidable (_ ∧ _))

lemma throughSlashes?_of_last {n : Nat} {text : Bytes} (last : text.getLast? = some Byte.slash)
    (count : text.count Byte.slash = n) (behind : Bytes) :
    throughSlashes? n (text ++ behind) = some text := by
  induction text generalizing n with
  | nil => cases last
  | cons b text ih =>
      -- the slash at the end is still to come
      have some_more : n ≠ 0 := by
        rintro rfl
        exact List.count_eq_zero.mp count (List.mem_of_getLast? last)
      obtain ⟨n, rfl⟩ := Nat.exists_eq_succ_of_ne_zero some_more
      rw [List.cons_append, throughSlashes?]
      cases text with
      | nil =>
          obtain rfl : b = Byte.slash := by simpa using last
          obtain rfl : n = 0 := by simpa using count.symm
          simp [throughSlashes?]
      | cons c text =>
          rw [List.getLast?_cons_cons] at last
          rw [ih last (by by_cases slash : b = Byte.slash <;> simp_all [List.count_cons]), Option.map_some]

/-- A path that begins with a cut window has that window, -/
lemma window_of_cut {segments : Nat} (positive : segments ≠ 0) {window : Bytes}
    (cut : Cut segments window) (behind : Bytes) :
    Path.window segments (window ++ behind) = (window, true) := by
  obtain ⟨last, count⟩ := cut
  cases window with
  | nil => exact absurd count.symm positive
  | cons b text =>
      have some_more : text ≠ [] := by
        rintro rfl
        exact positive count.symm
      obtain ⟨c, text, rfl⟩ := List.exists_cons_of_ne_nil some_more
      rw [List.getLast?_cons_cons] at last
      rw [List.cons_append, Path.window, throughSlashes?_of_last last count]

lemma throughSlashes?_eq_none {n : Nat} {text : Bytes} :
    throughSlashes? n text = none ↔ text.count Byte.slash < n := by
  induction text generalizing n with
  | nil => cases n <;> simp [throughSlashes?]
  | cons b text ih =>
      cases n with
      | zero => simp [throughSlashes?]
      | succ n =>
          rw [throughSlashes?, Option.map_eq_none_iff, ih]
          by_cases slash : b = Byte.slash <;> simp [slash]

lemma getLast?_of_throughSlashes? {n : Nat} (positive : n ≠ 0) {path text : Bytes}
    (h : throughSlashes? n path = some text) : text.getLast? = some Byte.slash := by
  induction path generalizing n text with
  | nil => cases n <;> simp_all [throughSlashes?]
  | cons b path ih =>
      obtain ⟨n, rfl⟩ := Nat.exists_eq_succ_of_ne_zero positive
      rw [throughSlashes?, Option.map_eq_some_iff] at h
      obtain ⟨text, h, rfl⟩ := h
      by_cases last : b = Byte.slash ∧ n = 0
      · obtain ⟨rfl, rfl⟩ := last
        rw [if_pos (beq_self_eq_true _), throughSlashes?] at h
        cases h
        rfl
      · have more := ih (by split <;> simp_all) h
        rw [List.getLast?_cons, more]
        rfl

/-- and a path that has segments enough begins with one. -/
lemma exists_cut {segments : Nat} (positive : segments ≠ 0) {path : Bytes}
    (enough : segments ≤ path.tail.count Byte.slash) :
    ∃ window behind, path = window ++ behind ∧ Cut segments window := by
  cases path with
  | nil => exact absurd (Nat.le_zero.mp enough) positive
  | cons b path =>
      cases h : throughSlashes? segments path with
      | none => exact absurd (throughSlashes?_eq_none.mp h) (Nat.not_lt.mpr enough)
      | some text =>
          obtain ⟨behind, rfl⟩ := throughSlashes?_append h
          refine ⟨b :: text, behind, rfl, ?_, count_throughSlashes? h⟩
          rw [List.getLast?_cons, getLast?_of_throughSlashes? positive h]
          rfl

/-- A path that has fewer is its own window. -/
lemma window_of_few {segments : Nat} (positive : segments ≠ 0) {path : Bytes}
    (few : path.tail.count Byte.slash < segments) : Path.window segments path = (path, false) := by
  cases path with
  | nil => simp [Path.window, positive]
  | cons b path =>
      have none : throughSlashes? segments path = none := throughSlashes?_eq_none.mpr few
      rw [Path.window, none]

end Path

/-! ## Groups -/

namespace Pattern

/-- The number of groups that tokens open. -/
def Token.captures (tokens : List Token) : Nat := tokens.count (.opening .capture)

lemma Token.captures_lowered (tokens : List Token) :
    captures (tokens.map Token.lowered) = captures tokens := by
  induction tokens with
  | nil => rfl
  | cons token tokens ih =>
      unfold captures at ih ⊢
      rw [List.map_cons, List.count_cons, List.count_cons, ih]
      cases token <;> rfl

namespace Parser

lemma groups_of_stepOutside {before after : Parser} {token : Token}
    (h : before.stepOutside token = some after) : after.groups = before.groups + Token.captures [token] := by
  cases token with
  | opening kind =>
      cases h
      cases kind <;> rfl
  | closing =>
      simp only [stepOutside, close?] at h
      split at h
      · cases h
      · split at h
        · cases h
        all_goals
          cases h
          rfl
  | reference number =>
      obtain ⟨slot, _, rfl⟩ := Option.map_eq_some_iff.mp h
      rfl
  | quantifier repetition greedy =>
      obtain ⟨piece, _, rfl⟩ := Option.map_eq_some_iff.mp h
      rfl
  | one _ | start | finish | boundary | noBoundary | bar | bracketOpening _ =>
      cases h
      rfl
  | bracketByte _ | bracketCollating _ | bracketItem _ | bracketDash | bracketClosing => cases h

/-- A token opens a group if it is a parenthesis that captures. -/
lemma groups_of_step {before after : Parser} {token : Token}
    (h : before.step token = some after) : after.groups = before.groups + Token.captures [token] := by
  unfold step at h
  split at h
  · exact groups_of_stepOutside h
  · cases h
    rfl
  · rename_i token _ _ _ _ _
    obtain ⟨next, stepped, rfl⟩ := Option.map_eq_some_iff.mp h
    cases token with
    | opening kind => cases Bracket.depth?_of_step stepped 0
    | _ => rfl

lemma groups_of_run {tokens : List Token} {before after : Parser}
    (h : before.run tokens = some after) : after.groups = before.groups + Token.captures tokens := by
  induction tokens generalizing before with
  | nil => cases h; rfl
  | cons token tokens ih =>
      obtain ⟨next, stepped, h⟩ := Option.bind_eq_some_iff.mp h
      rw [ih h, groups_of_step stepped, Nat.add_assoc, Token.captures, Token.captures,
        ← List.count_append]
      rfl

end Parser

/-- **The groups of a pattern are its parentheses that capture.** -/
lemma groups_of_weighed? {tokens : List Token} {pattern : Pattern} {weight : Nat}
    (built : weighed? tokens = some (pattern, weight)) : pattern.groups = Token.captures tokens := by
  obtain ⟨parser, ran, built⟩ := Option.bind_eq_some_iff.mp built
  obtain ⟨node, _, built⟩ := Option.bind_eq_some_iff.mp built
  cases built
  exact (Parser.groups_of_run ran).trans (Nat.zero_add _)

/-- The anchored pattern of a text that is a pattern of its own has two groups more: the one of the anchor
in front, and the separator behind. -/
lemma exists_anchored {source : Bytes} {alone anchored : Pattern} (compiles : compile? source = some alone)
    (anchors : compile? (Path.anchored source) = some anchored) :
    ∃ body, anchored = ⟨.anchored body (alone.groups + 1), alone.groups + 2⟩ := by
  obtain ⟨tokens, scanned, _⟩ := Option.bind_eq_some_iff.mp compiles
  obtain ⟨first, balanced⟩ := by
    simpa [selfContained, scanned] using selfContained_of_compile? compiles
  rw [compile?_eq_weighed? scanned, Option.map_eq_some_iff] at compiles
  obtain ⟨⟨_, weight⟩, own, rfl⟩ := compiles
  rw [compile?_anchored_eq_shifted scanned first balanced, Option.bind_eq_some_iff] at anchors
  obtain ⟨⟨lowered, weight'⟩, inside, anchors⟩ := anchors
  obtain ⟨_, anchors⟩ := Option.ite_none_right_eq_some.mp anchors
  have same : lowered.groups = _ := (groups_of_weighed? inside).trans (Token.captures_lowered tokens)
  rw [← groups_of_weighed? own] at same
  cases anchors
  exact ⟨lowered.node.shifted, by rw [enclosed, same]⟩

end Pattern

/-! ## Bites -/

namespace Cursor

/-- What a matcher takes of a window: what it captures, what it moves, and what it leaves of the window. -/
structure Bite where
  found : Captures
  moved : Bytes
  left : Bytes

/-- The captures of a match: what the groups between the first and the last keep, and nothing for those that
were no part of the match. -/
def captured (groups : Nat) (slots : Pattern.Slots) : Captures :=
  ((slots.drop 1).take groups).map fun slot => slot.getD []

lemma tail_dropLast_eq_captured {groups : Nat} {slots : Pattern.Slots} (size : slots.length = groups + 2) :
    (slots.map fun slot => slot.getD []).tail.dropLast = captured groups slots := by
  rw [captured, ← List.map_tail, ← List.map_dropLast, List.dropLast_eq_take, List.drop_one,
    List.length_tail, size]
  rfl

lemma length_captured {groups : Nat} {slots : Pattern.Slots} (size : slots.length = groups + 2) :
    (captured groups slots).length = groups := by
  rw [captured, List.length_map, List.length_take, List.length_drop, size]
  omega

/-- A cursor takes a bite, or nothing. -/
def bitten (c : Cursor) (behind : Bytes) : Option Bite → Consumption
  | none => .rejected
  | some bite => .taken bite.found ⟨c.consumed ++ bite.moved, bite.left ++ behind⟩

/-- **What a pattern takes of a window:** it captures what its groups keep in the search, and what it moves
is followed by a slash in the window or, if the path ends there, by nothing. -/
structure Bite.IsOf (bite : Bite) (pattern : Pattern) (groups : Nat) (window : Bytes) (goesOn : Bool) :
    Prop where
  whole : window = bite.moved ++ bite.left
  boundary : bite.left.head? = some Byte.slash ∨ bite.left = [] ∧ goesOn = false
  found : ∃ slots, pattern.search? window goesOn = some slots ∧ slots.length = groups + 2 ∧
    bite.found = captured groups slots

/-- A window decides what is taken of it, and whether anything is. -/
lemma exists_bite (body : Pattern.Node) (groups segments : Nat) (window : Bytes) (goesOn : Bool) :
    ∃ bite : Option Bite,
      (∀ b ∈ bite, b.IsOf ⟨.anchored body (groups + 1), groups + 2⟩ groups window goesOn) ∧
      ∀ (c : Cursor) behind, Path.window segments c.remaining = (window, goesOn) →
        c.remaining = window ++ behind →
        c.consume ⟨.anchored body (groups + 1), groups + 2⟩ segments = c.bitten behind bite := by
  by_cases within : window.length ≤ Path.windowLimit
  · cases search : (⟨.anchored body (groups + 1), groups + 2⟩ : Pattern).search? window goesOn with
    | none => exact ⟨none, nofun, fun c behind shown _ => consume_of_none shown search⟩
    | some slots =>
        obtain ⟨text, left, rfl, first, boundary⟩ := Pattern.boundary_of_search?_anchored body
          (groups + 1) (groups + 2) (Nat.le_add_left 1 _) (Nat.le_add_left 1 _) search
        have size : slots.length = groups + 2 := Pattern.length_of_search? search
        refine ⟨some ⟨captured groups slots, Byte.slash :: text, left⟩, ?_, fun c behind shown whole => ?_⟩
        · rintro _ ⟨⟩
          exact ⟨rfl, boundary, slots, search, size, rfl⟩
        · obtain ⟨others, rfl⟩ := List.head?_eq_some_iff.mp first
          have front : c.remaining = Byte.slash :: text ++ (left ++ behind) := by simpa using whole
          rw [consume_of_some shown within search front rfl, tail_dropLast_eq_captured size]
          rfl
  · exact ⟨none, nofun, fun c behind shown _ => consume_of_long shown (Nat.lt_of_not_le within)⟩

/-- What is moved has no more slashes than there are segments in the window. -/
lemma Bite.IsOf.count_moved {bite : Bite} {pattern : Pattern} {groups segments : Nat}
    (positive : segments ≠ 0) {path : Bytes}
    (own : bite.IsOf pattern groups (Path.window segments path).1 (Path.window segments path).2) :
    bite.moved.count Byte.slash ≤ segments := by
  have head (window : Bytes) : window.count Byte.slash ≤ window.tail.count Byte.slash + 1 := by
    cases window with
    | nil => exact Nat.zero_le _
    | cons b window =>
        rw [List.count_cons, List.tail_cons]
        split <;> omega
  have total := head (bite.moved ++ bite.left)
  rcases Nat.lt_or_ge (path.tail.count Byte.slash) segments with few | enough
  · have whole : path = bite.moved ++ bite.left := by
      simpa only [Path.window_of_few positive few] using own.whole
    rw [whole] at few
    rw [List.count_append] at total
    omega
  · obtain ⟨window, behind, rfl, cut⟩ := Path.exists_cut positive enough
    have shown := Path.window_of_cut positive cut behind
    have front := own.whole
    have boundary := own.boundary
    rw [shown] at front boundary
    -- the slash behind what is moved is one more
    obtain ⟨rest, left⟩ := List.head?_eq_some_iff.mp
      (boundary.resolve_right fun ends => absurd ends.2 (by simp))
    rw [← front, cut.2, front, List.count_append, left, List.count_cons_self] at total
    omega

/-- **A pattern sees and takes its window only.**  Let a text be a pattern of its own and also in the anchor,
where it is matched with at least one segment.

* A path that has more segments begins with a window that is cut, and what is behind the cut makes no
  difference: be it what it may, the same is captured, moved and left of the window, or all of them are
  rejected.  What is moved is then followed by a slash of the window, so the cut was no end.
* A path that has not is its own window.
* In all cases the path is rejected, or it loses some text in front that has at most as many slashes as
  there are segments; there is one capture for each group of the pattern, and it is empty if the group was
  no part of the match.
* If the window is longer than the limit, then the matcher returns false, and neither the frame nor the
  host is changed. -/
theorem consume_window {source : Bytes} {alone anchored : Pattern} {segments : Nat}
    (compiles : Pattern.compile? source = some alone)
    (anchors : Pattern.compile? (Path.anchored source) = some anchored) (positive : 1 ≤ segments) :
    (∀ path : Bytes, segments ≤ path.tail.count Byte.slash →
      ∃ window behind, path = window ++ behind ∧ Path.Cut segments window) ∧
    (∀ window, Path.Cut segments window → ∃ bite : Option Bite,
      (∀ consumed behind, (⟨consumed, window ++ behind⟩ : Cursor).consume anchored segments
        = bitten ⟨consumed, window ++ behind⟩ behind bite) ∧
      ∀ b ∈ bite, b.IsOf anchored alone.groups window true ∧ b.left.head? = some Byte.slash) ∧
    (∀ path : Bytes, path.tail.count Byte.slash < segments → Path.window segments path = (path, false)) ∧
    (∀ c : Cursor, c.consume anchored segments = .rejected ∨ ∃ bite behind,
      c.consume anchored segments = c.bitten behind (some bite) ∧
      bite.IsOf anchored alone.groups (Path.window segments c.remaining).1
        (Path.window segments c.remaining).2 ∧
      c.remaining = bite.moved ++ (bite.left ++ behind) ∧ bite.moved.count Byte.slash ≤ segments ∧
      bite.found.length = alone.groups) ∧
    ∀ kind (frame : Frame),
      Path.windowLimit < (Path.window segments frame.request.cursor.remaining).1.length →
      frame.request.cursor.consume anchored segments = .rejected ∧
      Matcher.evaluate ⟨kind, source, .path (.pattern anchored segments)⟩ frame
        = pure (⟨.returned false, []⟩, frame) := by
  have positive : segments ≠ 0 := Nat.pos_iff_ne_zero.mp positive
  obtain ⟨body, rfl⟩ := Pattern.exists_anchored compiles anchors
  refine ⟨fun path => Path.exists_cut positive, fun window cut => ?_,
    fun path => Path.window_of_few positive, fun c => ?_, fun kind frame long => ?_⟩
  · obtain ⟨bite, own, consumes⟩ := exists_bite body alone.groups segments window true
    refine ⟨bite, fun consumed behind => consumes _ behind (Path.window_of_cut positive cut behind) rfl,
      fun b mem => ⟨own b mem, (own b mem).boundary.resolve_right fun ends => ?_⟩⟩
    exact absurd ends.2 (by simp)
  · obtain ⟨bite, own, consumes⟩ := exists_bite body alone.groups segments
      (Path.window segments c.remaining).1 (Path.window segments c.remaining).2
    obtain ⟨behind, whole, _⟩ := Path.window_append positive c.remaining
    have consumed := consumes c behind rfl whole
    cases bite with
    | none => exact .inl consumed
    | some bite =>
        have own := own bite rfl
        obtain ⟨slots, _, size, found⟩ := own.found
        rw [own.whole, List.append_assoc] at whole
        exact .inr ⟨bite, behind, consumed, own, whole, own.count_moved positive,
          found ▸ length_captured size⟩
  · have rejected : (PathTest.pattern ⟨.anchored body (alone.groups + 1), alone.groups + 2⟩ segments).run
        frame.request.cursor = .rejected := consume_of_long rfl long
    exact ⟨rejected, by simp only [Matcher.evaluate, rejected]⟩

/-- A pattern with a group that is no part of the match, whatever is behind the first segment. -/
theorem consume_window_of_option : ∃ alone anchored,
    Pattern.compile? (ascii "(\\d+)(x)?") = some alone ∧
    Pattern.compile? (Path.anchored (ascii "(\\d+)(x)?")) = some anchored ∧
    ∀ behind, (⟨[], ascii "/12/" ++ behind⟩ : Cursor).consume anchored 1
      = .taken [ascii "12", []] ⟨ascii "/12", Byte.slash :: behind⟩ := by
  have compiled : (Pattern.compile? (ascii "(\\d+)(x)?")).isSome := by decide +kernel
  have ran : (Pattern.compile? (Path.anchored (ascii "(\\d+)(x)?"))).map
      (fun anchored => (⟨[], ascii "/12/" ++ []⟩ : Cursor).consume anchored 1)
        = some (.taken [ascii "12", []] ⟨ascii "/12", [Byte.slash]⟩) := by decide +kernel
  obtain ⟨alone, compiles⟩ := Option.isSome_iff_exists.mp compiled
  obtain ⟨anchored, anchors, ran⟩ := Option.map_eq_some_iff.mp ran
  obtain ⟨_, cuts, _⟩ := consume_window compiles anchors (Nat.le_refl 1)
  obtain ⟨bite, same, _⟩ := cuts (ascii "/12/") (by decide)
  refine ⟨alone, anchored, compiles, anchors, fun behind => (same [] behind).trans ?_⟩
  -- what is behind the window does not matter, so it is enough to look where nothing is
  cases bite with
  | none => cases (same [] []).symm.trans ran
  | some bite =>
      have known := Consumption.taken.inj ((same [] []).symm.trans ran)
      simp only [List.nil_append, List.append_nil, Cursor.mk.injEq] at known
      obtain ⟨found, moved, left⟩ := known
      rw [bitten, found, moved, left]
      rfl

end Cursor

end ClauseRouter
