import ClauseRouter.Bytes

/-!
# Cookies

A cookie header lists pairs of name and value, separated by semicolons, with blanks around them.

* `Cookie.value` — the value of the first pair of a name; what has no `=` is no pair.
* `Cookie.session` — the text that hands a session's identifier to a client.
-/

namespace ClauseRouter.Cookie

/-- The pairs of a cookie header, in order; a value may hold `=` itself. -/
def pairs (header : Bytes) : List (Bytes × Bytes) :=
  (Bytes.split Byte.semicolon header).filterMap fun text => Bytes.cut? Byte.equals (Bytes.trim text)

/-- The value of the first pair of a name; empty if there is none. -/
def value (header name : Bytes) : Bytes := ((pairs header).lookup name).getD []

/-- The cookie that a client is to send back with every request, and that scripts cannot read. -/
def session (name id : Bytes) : Bytes := name ++ [Byte.equals] ++ id ++ ascii "; Path=/; HttpOnly"

end ClauseRouter.Cookie
