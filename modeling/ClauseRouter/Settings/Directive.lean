import ClauseRouter.Settings.Token

/-!
# Directives

The tokens of a settings text form directives: a key, one or more values and a semicolon.  The key is
a word; the values are words, numbers or strings, and are kept as one text with single blanks
between them.

`Directive.read` takes the tokens one at a time.  It says what is wrong with the first directive that
is not well formed, and gives the entries of all of them otherwise, in order.
-/

namespace ClauseRouter.Settings

/-- Why a token list is not a list of directives. -/
inductive DirectiveError where
  /-- A directive starts with something that is no word. -/
  | expectedKey (found : Token)
  /-- The values of a key are followed by something that is neither a value nor a semicolon; `place`
  is where it stands. -/
  | missingSemicolon (place : Place) (key : Bytes)
  /-- A semicolon follows the key at once. -/
  | noValue (key : Token)
  deriving DecidableEq, Repr

/-- How an error is told. -/
def DirectiveError.message : DirectiveError → Bytes
  | expectedKey found =>
    found.place.describe ++ ascii ": expected a key, got '" ++ found.text ++ ascii "'"
  | missingSemicolon place key =>
    place.describe ++ ascii ": missing ';' after '" ++ key ++ ascii "'"
  | noValue key =>
    key.place.describe ++ ascii ": '" ++ key.text ++ ascii "' has no value"

/-- Whether a token can be a value. -/
def Token.isValue (token : Token) : Bool :=
  token.kind == .word || token.kind == .number || token.kind == .string

namespace Directive

/-- The text of a list of values. -/
def joined (values : List Bytes) : Bytes := Bytes.join Byte.space values

mutual

/-- The entries of the directives in a token list, where a directive may start. -/
def read (finish : Place) : List Token → Except DirectiveError (List (Bytes × Bytes))
  | [] => .ok []
  | token :: rest =>
    if token.kind == .word then readValues finish token [] rest
    else .error (.expectedKey token)

/-- The entries of the directives in a token list, where the values of a key go on. -/
def readValues (finish : Place) (key : Token) (values : List Bytes) :
    List Token → Except DirectiveError (List (Bytes × Bytes))
  | [] => .error (.missingSemicolon finish key.text)
  | token :: rest =>
    if token.isValue then readValues finish key (values ++ [token.text]) rest
    else if token.kind != .semicolon then .error (.missingSemicolon token.place key.text)
    else if values.isEmpty then .error (.noValue key)
    else do
      let entries ← read finish rest
      return (key.text, joined values) :: entries

end

end Directive

end ClauseRouter.Settings
