import ClauseRouter.Bytes.Decimal
import ClauseRouter.Dict

/-!
# Responses

A response is a status with its reason, headers and a body.  Handlers change it as they go;
`Response.finish` gives it the form in which a clause commits it.

* `Response.write`, `Response.setStatus`, `Response.setHeader`, `Response.redirect` — the changes.
* `Response.finish` — the length of the body as a header; a response that may have no body loses it.
* `Response.error` — the small plain-text response of a host for a status code.
-/

namespace ClauseRouter

/-- A response under way. -/
structure Response where
  status : Int := 200
  reason : Bytes := ascii "OK"
  headers : Dict Bytes := Dict.empty
  body : Bytes := []

namespace Response

/-- The reason phrase of a status code. -/
def reasonPhrase (code : Int) : Bytes :=
  if code = 200 then ascii "OK"
  else if code = 201 then ascii "Created"
  else if code = 204 then ascii "No Content"
  else if code = 301 then ascii "Moved Permanently"
  else if code = 302 then ascii "Found"
  else if code = 303 then ascii "See Other"
  else if code = 304 then ascii "Not Modified"
  else if code = 400 then ascii "Bad Request"
  else if code = 401 then ascii "Unauthorized"
  else if code = 403 then ascii "Forbidden"
  else if code = 404 then ascii "Not Found"
  else if code = 405 then ascii "Method Not Allowed"
  else if code = 500 then ascii "Internal Server Error"
  else ascii "Unknown"

/-- The name of the header that tells the length of the body. -/
def contentLength : Bytes := ascii "content-length"

/-- The name of the header that tells the media type of the body. -/
def contentType : Bytes := ascii "content-type"

/-- Whether a status forbids a body. -/
def forbidsBody (code : Int) : Bool := code == 204 || code == 304

/-- Sets the status, and the reason that goes with it. -/
def setStatus (r : Response) (code : Int) : Response :=
  { r with status := code, reason := reasonPhrase code }

/-- Appends to the body. -/
def write (r : Response) (text : Bytes) : Response := { r with body := r.body ++ text }

/-- Sets a header, its name in lower case. -/
def setHeader (r : Response) (name value : Bytes) : Response :=
  { r with headers := r.headers.set (Bytes.lower name) value }

/-- The value of a header, looked up in lower case; empty if there is none. -/
def header (r : Response) (name : Bytes) : Bytes := r.headers.getD (Bytes.lower name) []

/-- Sets the status and says where to look instead. -/
def redirect (r : Response) (location : Bytes) (code : Int) : Response :=
  { r.setStatus code with headers := r.headers.set (ascii "location") location }

/-- The status of a redirection unless another one is asked for. -/
def found : Int := 302

/-- The response as a clause commits it. -/
def finish (r : Response) : Response :=
  if forbidsBody r.status then
    { r with headers := (r.headers.erase contentType).erase contentLength, body := [] }
  else { r with headers := r.headers.set contentLength (Decimal.natural r.body.length) }

/-- The plain-text response of a host for a status code; the connection is closed after it. -/
def error (code : Int) : Response :=
  let body := Decimal.integer code ++ [Byte.space] ++ reasonPhrase code ++ [Byte.newline]
  { status := code
    reason := reasonPhrase code
    headers :=
      Dict.ofList
        [(contentType, ascii "text/plain; charset=utf-8"),
         (contentLength, Decimal.natural body.length),
         (ascii "connection", ascii "close")]
    body := body }

end Response

end ClauseRouter
