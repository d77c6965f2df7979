import ClauseRouter.Dict
import ClauseRouter.Settings.Directive

/-!
# Settings

The settings of an application are a dictionary.  They are set one by one or loaded from a text of
directives.

* `Settings.load` — lays the directives of a text over the settings, all of them or none.
* `Directive.readAt`, `Settings.loadInPlace` — go over the listed tokens by position and change the
  settings where they are: **what has been put when loading stops stays put.**
* `Settings.number`, `Settings.switch` — a setting read as a number or as `on` and `off`.
-/

namespace ClauseRouter

/-- The settings of an application. -/
abbrev Settings := Dict Bytes

namespace Settings

/-! ## Loading -/

/-- Why settings could not be loaded. -/
inductive LoadError where
  /-- There is no such file to be read. -/
  | unreadable (file : Bytes)
  /-- The text does not even fall into tokens. -/
  | badToken (token : Token)
  /-- The tokens do not form directives. -/
  | directive (error : DirectiveError)
  deriving DecidableEq, Repr

/-- What is said of a file that cannot be opened. -/
def unopened (file : Bytes) : Bytes := ascii "failed to open the file " ++ file

/-- How an error is told. -/
def LoadError.message (error : LoadError) : Bytes :=
  ascii "settings: " ++
    match error with
    | unreadable file => unopened file
    | badToken token => Scan.complaint token
    | directive error => error.message

/-- The entries of a text, in the order of its directives. -/
def entriesOf (text : Bytes) : Except LoadError (List (Bytes × Bytes)) :=
  match scan text with
  | .failed _ bad _ => .error (.badToken bad)
  | .complete tokens finish =>
    match Directive.read finish tokens with
    | .ok entries => .ok entries
    | .error error => .error (.directive error)

/-- Lays the directives of a text over the settings; of directives with one key the last counts. -/
def load (settings : Settings) (text : Bytes) : Except LoadError Settings :=
  match entriesOf text with
  | .ok entries => .ok (settings.overlay (Dict.ofList entries))
  | .error error => .error error

/-- Loads the content of a file, if it could be read. -/
def loadFile (settings : Settings) (file : Bytes) (content : Option Bytes) :
    Except LoadError Settings :=
  match content with
  | some text => settings.load text
  | none => .error (.unreadable file)

/-! ## Loading in place -/

namespace Directive

mutual

/-- Reads directives by position, from one on at which a directive may start, into what has been read
before.  There is no result if a position is looked at that the list does not have. -/
def readAt (tokens : List Token) (before : Settings) (i : Nat) :
    Option (Except DirectiveError Settings) :=
  match _at : tokens[i]? with
  | none => none
  | some token =>
    if token.kind = .finish then some (.ok before)
    else if token.kind = .word then readValuesAt tokens before token [] (i + 1)
    else some (.error (.expectedKey token))
termination_by tokens.length - i
decreasing_by
  have within := (List.getElem?_eq_some_iff.mp _at).1
  omega

/-- Reads on at a position where the values of a key go on. -/
def readValuesAt (tokens : List Token) (before : Settings) (key : Token) (values : List Bytes)
    (i : Nat) : Option (Except DirectiveError Settings) :=
  match _at : tokens[i]? with
  | none => none
  | some token =>
    if token.isValue then readValuesAt tokens before key (values ++ [token.text]) (i + 1)
    else if token.kind ≠ .semicolon then some (.error (.missingSemicolon token.place key.text))
    else if values.isEmpty then some (.error (.noValue key))
    else readAt tokens (before.set key.text (joined values)) (i + 1)
termination_by tokens.length - i
decreasing_by
  all_goals
    have within := (List.getElem?_eq_some_iff.mp _at).1
    omega

end

end Directive

/-- What stops loading. -/
inductive Stop where
  /-- A position behind the last token was looked at. -/
  | overrun
  /-- The text was refused. -/
  | refused (error : LoadError)
  deriving DecidableEq, Repr

/-- Loads the directives of a text, changing the settings one entry at a time. -/
def loadInPlace (text : Bytes) : ExceptT Stop (StateM Settings) Unit :=
  match scan text with
  | .failed _ bad _ => throw (.refused (.badToken bad))
  | .complete tokens finish =>
    match Directive.readAt (Scan.complete tokens finish).listed Dict.empty 0 with
    | none => throw .overrun
    | some (.error error) => throw (.refused (.directive error))
    | some (.ok upper) =>
      upper.toList.forM fun entry => modify fun settings => settings.set entry.1 entry.2

/-- Loads the content of a file in the same way, if it could be read. -/
def loadFileInPlace (file : Bytes) (content : Option Bytes) : ExceptT Stop (StateM Settings) Unit :=
  match content with
  | some text => loadInPlace text
  | none => throw (.refused (.unreadable file))

/-! ## Values with a form -/

/-- Why a value does not have the form asked for. -/
inductive ValueError where
  | emptyNumber
  | notNumber (text : Bytes)
  | numberTooLarge (text : Bytes)
  | notSwitch (text : Bytes)
  deriving DecidableEq, Repr

/-- How an error is told. -/
def ValueError.message : ValueError → Bytes
  | emptyNumber => ascii "Empty number"
  | notNumber text => ascii "Invalid number: " ++ text
  | numberTooLarge text => ascii "Number too large: " ++ text
  | notSwitch text => ascii "Expect on/off, got: " ++ text

/-- The most digits of a number, so that every number fits into 32 bits with a sign. -/
def digitLimit : Nat := 9

/-- Reads a number: one to nine decimal digits. -/
def toNumber (text : Bytes) : Except ValueError Nat :=
  if text.isEmpty then .error .emptyNumber
  else if !text.all Bytes.isDigit then .error (.notNumber text)
  else if text.length > digitLimit then .error (.numberTooLarge text)
  else .ok (Decimal.value text)

/-- Reads a switch: `on` or `off`. -/
def toSwitch (text : Bytes) : Except ValueError Bool :=
  if text == ascii "on" then .ok true
  else if text == ascii "off" then .ok false
  else .error (.notSwitch text)

/-- A setting read as a number; where there is none, a given one. -/
def number (settings : Settings) (key : Bytes) (fallback : Int) : Except ValueError Int :=
  match settings.get? key with
  | none => .ok fallback
  | some text => (toNumber text).map Int.ofNat

/-- A setting read as a switch; where there is none, a given one. -/
def switch (settings : Settings) (key : Bytes) (fallback : Bool) : Except ValueError Bool :=
  match settings.get? key with
  | none => .ok fallback
  | some text => toSwitch text

end Settings

end ClauseRouter
