import ClauseRouter.Application.Middleware

/-!
# The logger

`Middleware.logger` writes one line for every request that passes it, once the reply is there: the
status and the size of a response, or the message of a fault.  Requests and replies pass unchanged.
-/

namespace ClauseRouter

namespace LogLine

/-- The method and the path of a request. -/
def subject (request : Request) : Bytes :=
  request.method ++ [Byte.space] ++ request.path ++ ascii " -> "

/-- The line of a response. -/
def info (request : Request) (response : Response) : Bytes :=
  ascii "[INFO] " ++ subject request ++ Decimal.integer response.status ++ ascii " (" ++
    Decimal.natural response.body.length ++ ascii " bytes)"

/-- The line of a fault. -/
def error (request : Request) (fault : Fault) : Bytes :=
  ascii "[ERROR] " ++ subject request ++ fault.message

/-- The line of a reply. -/
def of (request : Request) : Reply → Bytes
  | .ok response => info request response
  | .error fault => error request fault

end LogLine

/-- Writes a line about every request, and its reply, that passes. -/
def Middleware.logger : Middleware := fun request =>
  .pass request fun reply => .write (.logged (LogLine.of request reply)) (.answer reply)

end ClauseRouter
