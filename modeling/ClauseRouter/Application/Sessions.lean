import ClauseRouter.Application.Middleware
import ClauseRouter.Message.Cookie

/-!
# Sessions for requests

`Middleware.sessions` gives every request that passes a session of its store: the one that its cookie
names or, if that is not alive, a new one, which the response then tells the client by a cookie.
Before that, whatever has expired is dropped from the store.

`SessionPolicy.ofSettings` reads the name of the cookie and the idle timeout from settings.
-/

namespace ClauseRouter

/-- How sessions are handed out. -/
structure SessionPolicy where
  /-- The name of the cookie. -/
  cookie : Bytes
  /-- The longest idle time, in seconds. -/
  timeout : UInt64
  deriving DecidableEq, Repr

namespace SessionPolicy

/-- The name of the cookie unless the settings tell another one. -/
def defaultCookie : Bytes := ascii "onroute.session"

/-- The policy that settings ask for; the timeout has to be a number. -/
def ofSettings (settings : Settings) : Except Fault SessionPolicy :=
  match settings.number (ascii "session_timeout") (Int.ofNat Store.defaultTimeout) with
  | .ok timeout =>
    .ok ⟨settings.getD (ascii "session_cookie") defaultCookie, UInt64.ofNat timeout.toNat⟩
  | .error error => .error (.value error)

end SessionPolicy

/-- The session identifier in the cookies of a request; empty if there is none. -/
def Request.sessionId (request : Request) (cookie : Bytes) : Bytes :=
  Cookie.value (request.header (ascii "cookie")) cookie

/-- Tells the client about a session. -/
def Response.offerSession (response : Response) (cookie id : Bytes) : Response :=
  { response with headers := response.headers.set (ascii "set-cookie") (Cookie.session cookie id) }

/-- Gives every request that passes a session of a store. -/
def Middleware.sessions (cookie : Bytes) (store : Nat) : Middleware := fun request =>
  let find (host : Host) : Option (Bytes × Bool × Host) :=
    (host.sweep store).obtain? store (request.sessionId cookie)
  .attend (fun host => ((find host).map fun found => found.2.2).getD host) fun host =>
    match find host with
    | none => .answer (.error .noFreshId)
    | some (id, isNew, _) =>
      .pass { request with session := some ⟨store, id⟩ } fun reply =>
        .answer (if isNew then reply.map fun response => response.offerSession cookie id else reply)

end ClauseRouter
