import ClauseRouter.Message.Form
import ClauseRouter.Path.Cursor

/-!
# Requests

A request as the router sees it: the parts of the request line, the headers, the parameters of the
query and of a form in the body, and the cursor that says how much of the path has been routed.

* `Request.create` — a fresh request from method, target, headers and body.
* `Request.headerKey` — the one spelling under which a header is kept and looked up.
* `Request.host` — the host that the request names, without brackets or what follows a colon.
* `RequestPart` — the parts of a request that handlers and middlewares can assign.
-/

namespace ClauseRouter

/-- Where the session of a request is kept: the number of a store and an identifier in it. -/
structure SessionKey where
  store : Nat
  id : Bytes
  deriving DecidableEq, Repr

/-- The methods that have a test of their own. -/
inductive Verb where
  | get
  | post
  | put
  | delete
  deriving DecidableEq, Repr

/-- The word that names a method in a request line. -/
def Verb.word : Verb → Bytes
  | get => ascii "GET"
  | post => ascii "POST"
  | put => ascii "PUT"
  | delete => ascii "DELETE"

/-- A request under way. -/
structure Request where
  method : Bytes := []
  /-- The target as it was sent, query included. -/
  uri : Bytes := []
  path : Bytes := []
  query : Bytes := []
  version : Bytes := ascii "HTTP/1.1"
  body : Bytes := []
  /-- The headers, under the keys that `Request.headerKey` gives. -/
  headers : Dict Bytes := Dict.empty
  params : Dict Bytes := Dict.empty
  /-- How far the path has been routed. -/
  cursor : Cursor := .atStart []
  session : Option SessionKey := none

namespace Request

/-- The key of a header: letters in lower case, underscores as hyphens. -/
def headerKey (name : Bytes) : Bytes :=
  (Bytes.lower name).map fun b => if b == Byte.underscore then Byte.hyphen else b

/-- Whether there is a header of a name, in any spelling. -/
def hasHeader (r : Request) (name : Bytes) : Bool := r.headers.contains (headerKey name)

/-- The value of a header, in any spelling of its name; empty if there is none. -/
def header (r : Request) (name : Bytes) : Bytes := r.headers.getD (headerKey name) []

/-- The value of a parameter; empty if there is none. -/
def param (r : Request) (key : Bytes) : Bytes := r.params.getD key []

/-- Whether the method is the one that a verb names. -/
def hasVerb (r : Request) (verb : Verb) : Bool := r.method == verb.word

/-- The host of a host header in lower case: what stands in brackets, or else before the first
colon. -/
def hostOf (text : Bytes) : Bytes :=
  match Bytes.lower (Bytes.trim text) with
  | Byte.openBracket :: rest =>
    match Bytes.cut? Byte.closeBracket rest with
    | some (address, _) => address
    | none => Byte.openBracket :: rest
  | name => name.takeWhile (· != Byte.colon)

/-- The host that a request names. -/
def host (r : Request) : Bytes := hostOf (r.header (ascii "host"))

/-- The media type of a form in a body. -/
def formType : Bytes := ascii "application/x-www-form-urlencoded"

/-- Whether the body is a form, by the front of its content type. -/
def hasForm (r : Request) : Bool := formType.isPrefixOf (Bytes.lower (r.header (ascii "content-type")))

/-- The headers of a list of entries, under their keys; of entries with one key the last counts. -/
def headersOf (entries : List (Bytes × Bytes)) : Dict Bytes :=
  Dict.ofList (entries.map fun entry => (headerKey entry.1, entry.2))

/-- A fresh request, nothing of its path consumed.  The headers are taken in the byte order of the
names as they were sent, and the body's parameters are laid over those of the query. -/
def create (method uri : Bytes) (headers : Dict Bytes) (body : Bytes) : Request :=
  let (path, query) := (Bytes.cut? Byte.question uri).getD (uri, [])
  let request : Request :=
    { method, uri, path, query, body
      headers := headersOf headers.toList
      params := Form.addTo .empty query
      cursor := .atStart path }
  if request.hasForm then { request with params := Form.addTo request.params body } else request

end Request

/-! ## Parts that can be assigned -/

/-- The parts of a request that are single texts. -/
inductive RequestPart where
  | method
  | uri
  | path
  | query
  | version
  | body
  | consumed
  | remaining
  deriving DecidableEq, Repr

namespace RequestPart

/-- The text of a part. -/
def get (r : Request) : RequestPart → Bytes
  | method => r.method
  | uri => r.uri
  | path => r.path
  | query => r.query
  | version => r.version
  | body => r.body
  | consumed => r.cursor.consumed
  | remaining => r.cursor.remaining

/-- Puts a text in place of a part; no other part follows it. -/
def set (r : Request) (text : Bytes) : RequestPart → Request
  | method => { r with method := text }
  | uri => { r with uri := text }
  | path => { r with path := text }
  | query => { r with query := text }
  | version => { r with version := text }
  | body => { r with body := text }
  | consumed => { r with cursor := { r.cursor with consumed := text } }
  | remaining => { r with cursor := { r.cursor with remaining := text } }

end RequestPart

end ClauseRouter
