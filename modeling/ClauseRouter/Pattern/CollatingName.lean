import ClauseRouter.Bytes

/-!
# Collating names

Inside brackets a byte of ASCII can be written by its name in the portable character set, as in
`[[.hyphen.]]` or `[[=a=]]`.  The table lists the names in the order of the bytes; `byte?` looks a
name up.  Names are compared exactly, and a letter is its own name.
-/

namespace ClauseRouter.Pattern.CollatingName

/-- The names of the 128 bytes of ASCII, in order. -/
def names : List String :=
  ["NUL", "SOH", "STX", "ETX", "EOT", "ENQ", "ACK", "alert",
   "backspace", "tab", "newline", "vertical-tab", "form-feed", "carriage-return", "SO", "SI",
   "DLE", "DC1", "DC2", "DC3", "DC4", "NAK", "SYN", "ETB",
   "CAN", "EM", "SUB", "ESC", "IS4", "IS3", "IS2", "IS1",
   "space", "exclamation-mark", "quotation-mark", "number-sign",
   "dollar-sign", "percent-sign", "ampersand", "apostrophe",
   "left-parenthesis", "right-parenthesis", "asterisk", "plus-sign",
   "comma", "hyphen", "period", "slash",
   "zero", "one", "two", "three", "four", "five", "six", "seven",
   "eight", "nine", "colon", "semicolon",
   "less-than-sign", "equals-sign", "greater-than-sign", "question-mark",
   "commercial-at", "A", "B", "C", "D", "E", "F", "G",
   "H", "I", "J", "K", "L", "M", "N", "O",
   "P", "Q", "R", "S", "T", "U", "V", "W",
   "X", "Y", "Z", "left-square-bracket",
   "backslash", "right-square-bracket", "circumflex", "underscore",
   "grave-accent", "a", "b", "c", "d", "e", "f", "g",
   "h", "i", "j", "k", "l", "m", "n", "o",
   "p", "q", "r", "s", "t", "u", "v", "w",
   "x", "y", "z", "left-curly-bracket",
   "vertical-line", "right-curly-bracket", "tilde", "DEL"]

/-- The byte of a name, if the name is in the table. -/
def byte? (name : Bytes) : Option UInt8 :=
  (names.findIdx? fun text => ascii text == name).map UInt8.ofNat

end ClauseRouter.Pattern.CollatingName
