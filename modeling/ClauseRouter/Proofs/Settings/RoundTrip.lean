import ClauseRouter.Proofs.Dict
import ClauseRouter.Proofs.Settings.Tokens

/-!
# Settings that are written and loaded again

A settings text can be written for every dictionary whose keys and values can be spelled, and those
are the dictionaries that loading a text gives.

* `Settings.written` — the text for a list of entries, one directive on a line.
* `Settings.Writable` — every key is a word that is no number, every value the content of a string.
* `Settings.entriesOf_written` — from the text the entries are read back, in their order.
* `Settings.writable_of_load` — what is loaded into empty settings can be written.
* `Settings.load_written` — both together: the round trip.

Places are of no concern here: the lemmas on `Reader.scan` speak of some place where a token stands.
-/

namespace ClauseRouter.Settings

/-! ## Writing -/

/-- A directive on a line of its own: the key, a blank, the value as a string, a semicolon. -/
def line (key value : Bytes) : Bytes :=
  key ++ Byte.space :: quoted value ++ [Byte.semicolon, Byte.newline]

/-- The text for a list of entries. -/
def written (entries : List (Bytes × Bytes)) : Bytes :=
  entries.flatMap fun entry => line entry.1 entry.2

/-- Settings for which a text can be written. -/
def Writable (settings : Settings) : Prop :=
  ∀ key value, settings.get? key = some value → IsKey key ∧ IsValue value

lemma writable_iff {settings : Settings} :
    settings.Writable ↔ ∀ entry ∈ settings.toList, IsKey entry.1 ∧ IsValue entry.2 := by
  simp only [Writable, Dict.get?_eq_some, Prod.forall]
  rfl

instance (settings : Settings) : Decidable settings.Writable :=
  decidable_of_iff _ writable_iff.symm

namespace Reader

/-! ## Tokens, one after the other -/

lemma skipSpace_space {r : Reader} {b : UInt8} {rest : Bytes} (front : r.rest = b :: rest)
    (space : Bytes.isSpace b) :
    r.skipSpace = (⟨rest, r.offset + 1, r.place.past b⟩ : Reader).skipSpace := by
  obtain ⟨text, offset, place⟩ := r
  cases front
  simp only [skipSpace, skipSpaceFrom, space, if_true]

lemma skipSpace_solid {r : Reader} {b : UInt8} {rest : Bytes} (front : r.rest = b :: rest)
    (solid : Bytes.isSpace b = false) : r.skipSpace = r := by
  obtain ⟨text, offset, place⟩ := r
  cases front
  simp only [skipSpace, skipSpaceFrom, solid, Bool.false_eq_true, if_false]

/-- A scan starts with passing white space. -/
lemma scan_congr {r r' : Reader} (same : r.skipSpace = r'.skipSpace) : r.scan = r'.scan := by
  conv_lhs => rw [Reader.scan]
  conv_rhs => rw [Reader.scan]
  simp only [same]

/-- White space does not change what is scanned. -/
lemma scan_space {r : Reader} {b : UInt8} {rest : Bytes} (front : r.rest = b :: rest)
    (space : Bytes.isSpace b) : ∃ behind : Reader, behind.rest = rest ∧ r.scan = behind.scan :=
  ⟨⟨rest, r.offset + 1, r.place.past b⟩, rfl, scan_congr (skipSpace_space front space)⟩

/-- The next token, if it is neither a comment nor a bad one, comes first in the scan. -/
lemma scan_token {r behind : Reader} {b : UInt8} {rest : Bytes} {token : Token}
    (front : r.rest = b :: rest) (solid : Bytes.isSpace b = false)
    (taken : r.next = (token, behind)) (valid : token.kind ≠ .invalid)
    (listed : token.kind ≠ .comment) : r.scan = .cons token behind.scan := by
  rw [Reader.scan]
  simp [skipSpace_solid front solid, front, taken, valid, listed]

/-- **A line is scanned as a key, a string and a semicolon.** -/
lemma scan_line {r : Reader} {key value rest : Bytes} (isKey : IsKey key) (isValue : IsValue value)
    (front : r.rest = line key value ++ rest) :
    ∃ (first second third : Place) (behind : Reader), behind.rest = rest ∧
      r.scan = .cons ⟨.word, key, first⟩ (.cons ⟨.string, value, second⟩
        (.cons ⟨.semicolon, [Byte.semicolon], third⟩ behind.scan)) := by
  -- the key
  have keyFront : r.rest
      = key ++ (Byte.space :: quoted value ++ Byte.semicolon :: Byte.newline :: rest) := by
    simpa [line] using front
  have word := next_word isKey.toIsWord (by simp; decide) keyFront
  have noNumber : ¬ key.all Bytes.isDigit := fun digits =>
    isKey.noNumber (List.all_eq_true.mp digits)
  rw [if_neg noNumber] at word
  obtain ⟨b, tail, rfl⟩ := List.exists_cons_of_ne_nil isKey.nonempty
  have first : r.scan = _ := scan_token (by rw [front]; rfl)
    (isWordByte_elsewhere (isKey.bytes b List.mem_cons_self)).1 word (by simp) (by simp)
  have afterKey : (r.skip (b :: tail).length).rest
      = Byte.space :: (quoted value ++ Byte.semicolon :: Byte.newline :: rest) := by
    simp [skip, front, line]
  -- the value
  obtain ⟨atValue, valueFront, skipped⟩ := scan_space afterKey (by decide)
  have second := scan_token valueFront (by decide) (next_quoted isValue valueFront) (by simp)
    (by simp)
  have afterValue : (atValue.skip (quoted value).length).rest
      = Byte.semicolon :: Byte.newline :: rest := by
    simp [skip, valueFront]
  -- the semicolon and the end of the line
  have third := scan_token afterValue (by decide) (next_semicolon afterValue) (by simp) (by simp)
  have afterEnd : ((atValue.skip (quoted value).length).skip 1).rest = Byte.newline :: rest :=
    congrArg (List.drop 1) afterValue
  obtain ⟨behind, restFront, ended⟩ := scan_space afterEnd (by decide)
  exact ⟨_, _, _, behind, restFront, by rw [first, skipped, second, third, ended]⟩

end Reader

/-! ## From the text to the entries -/

lemma Directive.joined_singleton (value : Bytes) : joined [value] = value :=
  (List.intercalate_singleton : [Byte.space].intercalate [value] = value)

/-- The tokens of the directives that are written, and the entries that are read from them. -/
lemma scan_written (entries : List (Bytes × Bytes))
    (shaped : ∀ entry ∈ entries, IsKey entry.1 ∧ IsValue entry.2) {r : Reader}
    (front : r.rest = written entries) :
    ∃ tokens finish, r.scan = .complete tokens finish ∧
      ∀ stop, Directive.read stop tokens = .ok entries := by
  induction entries generalizing r with
  | nil =>
      refine ⟨[], r.place, ?_, fun _ => rfl⟩
      obtain ⟨text, offset, place⟩ := r
      cases front
      rw [Reader.scan]
      rfl
  | cons entry entries ih =>
      obtain ⟨key, value⟩ := entry
      obtain ⟨⟨isKey, isValue⟩, others⟩ := List.forall_mem_cons.mp shaped
      obtain ⟨first, second, third, behind, restFront, scanned⟩ :=
        Reader.scan_line isKey isValue front
      obtain ⟨tokens, finish, rest, read⟩ := ih others restFront
      refine ⟨_, finish, by rw [scanned, rest]; rfl, fun stop => ?_⟩
      have directive : Directive.read stop (⟨.word, key, first⟩ :: ⟨.string, value, second⟩ ::
          ⟨.semicolon, [Byte.semicolon], third⟩ :: tokens)
          = (Directive.read stop tokens).map ((key, Directive.joined [value]) :: ·) := rfl
      rw [directive, read, Directive.joined_singleton]
      rfl

/-- **The entries that are written are read back, in their order.** -/
lemma entriesOf_written {entries : List (Bytes × Bytes)}
    (shaped : ∀ entry ∈ entries, IsKey entry.1 ∧ IsValue entry.2) :
    entriesOf (written entries) = .ok entries := by
  obtain ⟨tokens, finish, scanned, read⟩ :=
    scan_written entries shaped (r := { rest := written entries }) rfl
  rw [entriesOf, scan, scanned]
  simp only [read]

/-! ## From the entries to the text -/

namespace Directive

/-- Values with blanks between them make up a value. -/
lemma isValue_joined {values : List Bytes} (each : ∀ value ∈ values, IsValue value) :
    IsValue (joined values) := by
  induction values with
  | nil => exact ⟨by simp [joined, Bytes.join], by simp [joined, Bytes.join]⟩
  | cons value values ih =>
      obtain ⟨first, others⟩ := List.forall_mem_cons.mp each
      cases values with
      | nil => rwa [joined_singleton]
      | cons second values =>
          rw [joined, Bytes.join_cons_cons]
          exact first.append ((ih others).cons (by decide) fun _ => by decide)

mutual

/-- **What is read from tokens can be written**: where a directive may start. -/
lemma shaped_read {finish : Place} {entries : List (Bytes × Bytes)} :
    ∀ {tokens : List Token}, (∀ token ∈ tokens, token.Shaped) →
      read finish tokens = .ok entries → ∀ entry ∈ entries, IsKey entry.1 ∧ IsValue entry.2
  | [], _, h => by
      cases h
      simp
  | token :: rest, shaped, h => by
      obtain ⟨first, others⟩ := List.forall_mem_cons.mp shaped
      rw [read] at h
      split at h
      case isTrue word =>
        exact shaped_readValues (first.key (by simpa using word)) (by simp) others h
      case isFalse => cases h

/-- **What is read from tokens can be written**: where the values of a key go on. -/
lemma shaped_readValues {finish : Place} {key : Token} {entries : List (Bytes × Bytes)}
    {values : List Bytes} (isKey : IsKey key.text) (each : ∀ value ∈ values, IsValue value) :
    ∀ {tokens : List Token}, (∀ token ∈ tokens, token.Shaped) →
      readValues finish key values tokens = .ok entries →
        ∀ entry ∈ entries, IsKey entry.1 ∧ IsValue entry.2
  | [], _, h => by cases h
  | token :: rest, shaped, h => by
      obtain ⟨first, others⟩ := List.forall_mem_cons.mp shaped
      rw [readValues] at h
      split at h
      case isTrue value =>
        refine shaped_readValues isKey ?_ others h
        simpa [or_imp, forall_and] using ⟨each, first.value value⟩
      case isFalse =>
        split at h
        case isTrue => cases h
        case isFalse =>
          split at h
          case isTrue => cases h
          case isFalse =>
            cases behind : read finish rest with
            | error error => rw [behind] at h; cases h
            | ok rest =>
                rw [behind] at h
                cases h
                exact List.forall_mem_cons.mpr
                  ⟨⟨isKey, isValue_joined each⟩, shaped_read others behind⟩

end

end Directive

lemma shaped_entriesOf {text : Bytes} {entries : List (Bytes × Bytes)}
    (h : entriesOf text = .ok entries) : ∀ entry ∈ entries, IsKey entry.1 ∧ IsValue entry.2 := by
  rw [entriesOf] at h
  cases scanned : scan text with
  | failed => rw [scanned] at h; cases h
  | complete tokens finish =>
      rw [scanned] at h
      cases read : Directive.read finish tokens with
      | error => simp [read] at h
      | ok found =>
          simp only [read] at h
          cases h
          exact Directive.shaped_read (Reader.shaped_scan scanned) read

/-- **What is loaded into empty settings can be written.** -/
lemma writable_of_load {text : Bytes} {loaded : Settings} (h : load Dict.empty text = .ok loaded) :
    Writable loaded := by
  intro key value stored
  rw [load] at h
  cases read : entriesOf text with
  | error => rw [read] at h; cases h
  | ok entries =>
      rw [read] at h
      cases h
      rw [Dict.get?_overlay, Dict.get?_empty, Option.or_none, Dict.get?_ofList] at stored
      -- of several directives with one key the last one counts
      have entry : (key, value) ∈ entries := by
        obtain ⟨before, behind, same, -⟩ := List.lookup_eq_some_iff.mp stored
        rw [← List.mem_reverse, same]
        simp
      exact shaped_entriesOf read _ entry

/-! ## The round trip -/

/-- **Settings survive being written and loaded.**  The text written for settings that can be
written, in whatever order, lays exactly these over the old settings: every key of theirs gets its
value, and all else stays.  And every text that empty settings load gives settings that can be
written, and that are loaded again from every text written for them. -/
theorem load_written :
    (∀ (upper : Settings) (order : List (Bytes × Bytes)),
      upper.Writable → order.Perm upper.toList → ∀ old : Settings,
        old.load (written order) = .ok (old.overlay upper) ∧
          ∀ key, (old.overlay upper).get? key = (upper.get? key).or (old.get? key)) ∧
      ∀ (text : Bytes) (loaded : Settings), load Dict.empty text = .ok loaded →
        loaded.Writable ∧ ∀ order : List (Bytes × Bytes), order.Perm loaded.toList →
          load Dict.empty (written order) = .ok loaded := by
  have forward (upper : Settings) (order : List (Bytes × Bytes)) (writable : upper.Writable)
      (perm : order.Perm upper.toList) (old : Settings) :
      old.load (written order) = .ok (old.overlay upper) := by
    have shaped : ∀ entry ∈ order, IsKey entry.1 ∧ IsValue entry.2 := fun entry mem =>
      writable_iff.mp writable entry (perm.mem_iff.mp mem)
    rw [load, entriesOf_written shaped]
    simp only [Dict.ofList_perm perm]
  refine ⟨fun upper order writable perm old => ⟨forward upper order writable perm old, fun key =>
    Dict.get?_overlay old upper key⟩, fun text loaded h => ⟨writable_of_load h, fun order perm => ?_⟩⟩
  rw [forward loaded order (writable_of_load h) perm]
  exact congrArg _ (Dict.ext_get? fun key => by simp [Dict.get?_overlay])

/-- A value with quotes, a comment sign and a semicolon, laid over other settings; and a directive
with several values and a comment, loaded from what is written for it. -/
theorem load_written_greeting :
    (∃ merged : Settings,
      load (Dict.ofList [(ascii "80a", ascii "old"), (ascii "kept", ascii "k")])
          (ascii "greeting \"say \\\\\"hi\\\"; # twice\";\n80a \"\";\n") = .ok merged ∧
        merged.toList = [(ascii "80a", []), (ascii "greeting", ascii "say \\\"hi\"; # twice"),
          (ascii "kept", ascii "k")]) ∧
    ∃ loaded : Settings,
      load Dict.empty (ascii "/a 1 b \"c \\\"\"; // note\nk v;\nk w;") = .ok loaded ∧
        load Dict.empty (ascii "k \"w\";\n/a \"1 b c \\\"\";\n") = .ok loaded := by
  obtain ⟨forward, back⟩ := load_written
  constructor
  · have order : List.Perm
        [(ascii "greeting", ascii "say \\\"hi\"; # twice"), (ascii "80a", ([] : Bytes))]
        (Dict.ofList [(ascii "80a", []), (ascii "greeting", ascii "say \\\"hi\"; # twice")]).toList :=
      List.Perm.swap _ _ _
    exact ⟨_, (forward _ _ (by decide +kernel) order _).1, by decide +kernel⟩
  · have read : entriesOf (ascii "/a 1 b \"c \\\"\"; // note\nk v;\nk w;")
        = .ok [(ascii "/a", ascii "1 b c \""), (ascii "k", ascii "v"), (ascii "k", ascii "w")] := by
      decide +kernel
    have first : load Dict.empty (ascii "/a 1 b \"c \\\"\"; // note\nk v;\nk w;")
        = .ok (Dict.ofList [(ascii "/a", ascii "1 b c \""), (ascii "k", ascii "w")]) := by
      rw [load, read]
      rfl
    have order : List.Perm [(ascii "k", ascii "w"), (ascii "/a", ascii "1 b c \"")]
        (Dict.ofList [(ascii "/a", ascii "1 b c \""), (ascii "k", ascii "w")]).toList :=
      List.Perm.swap _ _ _
    exact ⟨_, first, (back _ _ first).2 _ order⟩

end ClauseRouter.Settings
