import ClauseRouter.Proofs.Dict
import ClauseRouter.Proofs.Settings.Grammar

/-!
# Loading in place

`Settings.loadInPlace` goes over the listed tokens by position and changes the settings where they are.  Two
things could then go wrong that `Settings.load` leaves no room for: to look at a position behind the last
token, and to stop when a part of the directives has been put already.

* `Directive.readAt_listed` — no position behind the end is looked at, since no other token stands for
  the end (`Reader.kind_scan`) and the reader does not pass it.
* `Settings.run_loadInPlace` — loading in place comes to the same as loading.
* `Settings.load_iff_grammatical` — both put all directives of a text or none.
-/

namespace ClauseRouter.Settings

/-! ## By position -/

namespace Directive

/-- The token that stands for the end. -/
def endToken (finish : Place) : Token := ⟨.finish, [], finish⟩

section

variable {tokens : List Token} {before : Settings} {i : Nat} {token : Token}

/-- Where there is a token, it decides how the reader goes on. -/
lemma readAt_of_token (here : tokens[i]? = some token) :
    readAt tokens before i
      = if token.kind = .finish then some (.ok before)
        else if token.kind = .word then readValuesAt tokens before token [] (i + 1)
        else some (.error (.expectedKey token)) := by
  rw [readAt]
  split
  case h_1 none => rw [here] at none; cases none
  case h_2 found => rw [here] at found; cases found; rfl

/-- Behind a key as well. -/
lemma readValuesAt_of_token {key : Token} {values : List Bytes} (here : tokens[i]? = some token) :
    readValuesAt tokens before key values i
      = if token.isValue then readValuesAt tokens before key (values ++ [token.text]) (i + 1)
        else if token.kind ≠ .semicolon then some (.error (.missingSemicolon token.place key.text))
        else if values.isEmpty then some (.error (.noValue key))
        else readAt tokens (before.set key.text (joined values)) (i + 1) := by
  rw [readValuesAt]
  split
  case h_1 none => rw [here] at none; cases none
  case h_2 found => rw [here] at found; cases found; rfl

end

lemma getElem?_behind (front : List Token) (token : Token) (rest : List Token) :
    (front ++ token :: rest)[front.length]? = some token := by
  simp

mutual

/-- **By position the same is read,** if no token but the last one stands for the end. -/
lemma readAt_eq (finish : Place) (before : Settings) (front : List Token) :
    ∀ rest : List Token, (∀ token ∈ rest, token.kind ≠ .finish) →
      readAt (front ++ (rest ++ [endToken finish])) before front.length
        = some ((read finish rest).map before.putAll)
  | [], _ => by
      rw [List.nil_append, readAt_of_token (getElem?_behind front _ [])]
      rfl
  | token :: rest, inside => by
      obtain ⟨notEnd, inside⟩ := List.forall_mem_cons.mp inside
      have moved : front ++ (token :: rest ++ [endToken finish])
          = (front ++ [token]) ++ (rest ++ [endToken finish]) := by simp
      have length : front.length + 1 = (front ++ [token]).length := by simp
      rw [List.cons_append, readAt_of_token (getElem?_behind front token _), if_neg notEnd, read,
        ← List.cons_append, moved, length]
      by_cases word : token.kind = .word
      · simpa [word] using readValuesAt_eq finish before (front ++ [token]) token [] rest inside
      · simp [word, Except.map]

/-- Where the values of a key go on as well. -/
lemma readValuesAt_eq (finish : Place) (before : Settings) (front : List Token) (key : Token)
    (values : List Bytes) :
    ∀ rest : List Token, (∀ token ∈ rest, token.kind ≠ .finish) →
      readValuesAt (front ++ (rest ++ [endToken finish])) before key values front.length
        = some ((readValues finish key values rest).map before.putAll)
  | [], _ => by
      rw [List.nil_append, readValuesAt_of_token (getElem?_behind front _ [])]
      rfl
  | token :: rest, inside => by
      obtain ⟨_, inside⟩ := List.forall_mem_cons.mp inside
      have moved : front ++ (token :: rest ++ [endToken finish])
          = (front ++ [token]) ++ (rest ++ [endToken finish]) := by simp
      have length : front.length + 1 = (front ++ [token]).length := by simp
      rw [List.cons_append, readValuesAt_of_token (getElem?_behind front token _), readValues,
        ← List.cons_append, moved, length]
      by_cases value : token.isValue
      · rw [if_pos value, if_pos value]
        exact readValuesAt_eq finish before (front ++ [token]) key _ rest inside
      rw [if_neg value, if_neg value]
      by_cases semicolon : token.kind = .semicolon
      · by_cases empty : values = []
        · simp [semicolon, empty, Except.map]
        · have behind := readAt_eq finish (before.set key.text (joined values)) (front ++ [token])
            rest inside
          simp only [semicolon, ne_eq, not_true_eq_false, if_false, List.isEmpty_iff, empty, behind,
            bne_self_eq_false, Bool.false_eq_true]
          cases read finish rest <;> rfl
      · simp [semicolon, Except.map]

end

end Directive

/-! ## The end of the tokens -/

namespace Reader

/-- Where something is left, the next token is not the end. -/
lemma kind_next {r : Reader} (some_left : r.rest ≠ []) : r.next.1.kind ≠ .finish := by
  rw [next]
  split
  case h_1 none => exact absurd none some_left
  case h_2 b tail front =>
    split_ifs
    · simp
    · rw [takeString]
      dsimp only
      split_ifs <;> simp
    · dsimp only
      split_ifs <;> simp
    · simp
    · simp

/-- **No token of a text stands for its end** but the one that is listed behind them. -/
lemma kind_scan {r : Reader} {tokens : List Token} {finish : Place}
    (h : r.scan = .complete tokens finish) : ∀ token ∈ tokens, token.kind ≠ .finish := by
  fun_induction Reader.scan r generalizing tokens finish with
  | case1 r none =>
      obtain ⟨rfl, -⟩ := Scan.complete.inj h
      simp
  | case2 => cases h
  | case3 =>
      rename_i ih
      exact ih h
  | case4 r some_left =>
      rename_i ih
      cases behind : r.skipSpace.next.2.scan with
      | failed => rw [behind] at h; cases h
      | complete others stop =>
          rw [behind] at h
          obtain ⟨rfl, -⟩ := Scan.complete.inj h
          exact List.forall_mem_cons.mpr ⟨kind_next some_left, ih behind⟩

end Reader

/-- **No position behind the end is looked at:** the listed tokens are read by position as they are
read in order. -/
lemma Directive.readAt_listed {text : Bytes} {tokens : List Token} {finish : Place}
    (scanned : scan text = .complete tokens finish) (before : Settings) :
    readAt (Scan.complete tokens finish).listed before 0
      = some ((read finish tokens).map before.putAll) :=
  readAt_eq finish before [] tokens (Reader.kind_scan scanned)

/-! ## In place -/

lemma run_forM_set (entries : List (Bytes × Bytes)) (settings : Settings) :
    (entries.forM fun entry => modify fun settings => settings.set entry.1 entry.2 :
      ExceptT Stop (StateM Settings) Unit).run.run settings
      = (.ok (), settings.putAll entries) := by
  induction entries generalizing settings with
  | nil => rfl
  | cons entry entries ih => exact ih (settings.set entry.1 entry.2)

/-- **To load in place comes to the same as to load:** the settings that are left are those loaded or,
if there are none, the old ones. -/
lemma run_loadInPlace (old : Settings) (text : Bytes) :
    (loadInPlace text).run.run old
      = match old.load text with
        | .ok loaded => (.ok (), loaded)
        | .error error => (.error (.refused error), old) := by
  rw [loadInPlace, load, entriesOf]
  cases scanned : scan text with
  | failed before bad behind => rfl
  | complete tokens finish =>
      simp only [Directive.readAt_listed scanned]
      cases Directive.read finish tokens with
      | error error => rfl
      | ok entries => exact run_forM_set _ old

/-- **A text is loaded exactly if it is a sequence of directives,** and then all of them are.

* Then, under every key that has a directive, the settings have the values of the last one, and under
  every other key what they had.
* Otherwise there is an error, and what has been put in place until then is nothing.
* Neither way is a position looked at behind the end of the tokens.
* A file is loaded as its content is.  One that could not be read is refused, and changes nothing. -/
theorem load_iff_grammatical (old : Settings) (text : Bytes) :
    ((∃ loaded, old.load text = .ok loaded) ↔ ∃ entries, Grammatical text entries) ∧
    (∀ entries, Grammatical text entries → ∃ loaded, old.load text = .ok loaded ∧
      (loadInPlace text).run.run old = (.ok (), loaded) ∧
      ∀ key, loaded.get? key = (entries.reverse.lookup key).or (old.get? key)) ∧
    ((¬ ∃ entries, Grammatical text entries) → ∃ error, old.load text = .error error ∧
      (loadInPlace text).run.run old = (.error (.refused error), old)) ∧
    ∀ file, old.loadFile file (some text) = old.load text ∧
      loadFileInPlace file (some text) = loadInPlace text ∧
      old.loadFile file none = .error (.unreadable file) ∧
      (loadFileInPlace file none).run.run old = (.error (.refused (.unreadable file)), old) := by
  have inPlace := run_loadInPlace old text
  have loads (entries : List (Bytes × Bytes)) (grammatical : Grammatical text entries) :
      old.load text = .ok (old.overlay (Dict.ofList entries)) := by
    rw [load, entriesOf_eq_ok_iff.mpr grammatical]
  refine ⟨⟨?_, ?_⟩, ?_, ?_, fun file => ⟨rfl, rfl, rfl, rfl⟩⟩
  · rintro ⟨loaded, h⟩
    rw [load] at h
    cases read : entriesOf text with
    | error error => rw [read] at h; cases h
    | ok entries => exact ⟨entries, entriesOf_eq_ok_iff.mp read⟩
  · rintro ⟨entries, grammatical⟩
    exact ⟨_, loads entries grammatical⟩
  · intro entries grammatical
    rw [loads entries grammatical] at inPlace
    refine ⟨_, loads entries grammatical, inPlace, fun key => ?_⟩
    rw [Dict.get?_overlay, Dict.get?_ofList]
  · intro other
    cases read : entriesOf text with
    | ok entries => exact absurd ⟨entries, entriesOf_eq_ok_iff.mp read⟩ other
    | error error =>
        have refused : old.load text = .error error := by rw [load, read]
        rw [refused] at inPlace
        exact ⟨error, refused, inPlace⟩

/-- Directives in front of a bad one are not put. -/
example : ((loadInPlace (ascii "a 1; b")).run.run (Dict.ofList [(ascii "kept", ascii "yes")])).2.toList
    = [(ascii "kept", ascii "yes")] := by
  rw [run_loadInPlace]
  decide +kernel

end ClauseRouter.Settings
