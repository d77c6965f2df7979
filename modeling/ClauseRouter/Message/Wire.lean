import ClauseRouter.Message.Response

/-!
# The wire text of a response

A response goes out as a status line, one line for each header in the order of the dictionary, an
empty line and the body.  Where the status allows a body, a length and a media type are filled in if
they are missing; where it does not, no body is sent whatever the response holds.
-/

namespace ClauseRouter.Wire

/-- The two bytes that end a line. -/
def lineEnd : Bytes := [Byte.carriageReturn, Byte.newline]

/-- The media type of a body that does not tell its own. -/
def defaultType : Bytes := ascii "text/html; charset=utf-8"

/-- The headers that are sent: those of the response, and a length and a media type if the status
allows a body and they are missing. -/
def sentHeaders (r : Response) : Dict Bytes :=
  if Response.forbidsBody r.status then r.headers
  else
    let headers :=
      if r.headers.contains Response.contentLength then r.headers
      else r.headers.set Response.contentLength (Decimal.natural r.body.length)
    if headers.contains Response.contentType then headers
    else headers.set Response.contentType defaultType

/-- The body that is sent. -/
def sentBody (r : Response) : Bytes := if Response.forbidsBody r.status then [] else r.body

/-- The first line. -/
def statusLine (r : Response) : Bytes :=
  ascii "HTTP/1.1 " ++ Decimal.integer r.status ++ [Byte.space] ++ r.reason ++ lineEnd

/-- The line of one header. -/
def headerLine (entry : Bytes × Bytes) : Bytes := entry.1 ++ ascii ": " ++ entry.2 ++ lineEnd

/-- The lines of all headers. -/
def headerLines (headers : Dict Bytes) : Bytes := headers.toList.flatMap headerLine

/-- The bytes that go out for a response. -/
def encode (r : Response) : Bytes :=
  statusLine r ++ headerLines (sentHeaders r) ++ lineEnd ++ sentBody r

end ClauseRouter.Wire
