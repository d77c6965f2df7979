import ClauseRouter.Host

/-!
# Middlewares

A middleware stands between a caller and an endpoint.  It may change the request on the way in and the
reply on the way out, call the endpoint behind it once, several times or not at all, and use the host.

* `Relay` — what a middleware does with one request, as a tree: it answers, or does something and goes
  on.  Like all that runs in a host it cannot see what has been written.
* `Relay.run` — runs the tree around an endpoint.
* `Middleware.chain` — the endpoint that a list of middlewares makes of another one; the first of the
  list is outermost.
-/

namespace ClauseRouter

/-- What a middleware does with one request. -/
inductive Relay where
  /-- Answers. -/
  | answer (reply : Reply)
  /-- Calls the endpoint behind with a request and goes on with its reply. -/
  | pass (request : Request) (next : Reply → Relay)
  /-- Changes the host and goes on by what the host was before. -/
  | attend (change : Host → Host) (next : Host → Relay)
  /-- Writes a line and goes on. -/
  | write (line : Line) (next : Relay)

/-- Runs a relay in front of an endpoint. -/
def Relay.run (endpoint : Endpoint) : Relay → Hosted Reply
  | answer reply => pure reply
  | pass request next => do
    let reply ← endpoint request
    (next reply).run endpoint
  | attend change next => do
    let host ← Hosted.host
    Hosted.modify change
    (next host).run endpoint
  | write line next => do
    Hosted.write line
    next.run endpoint

/-- A middleware, by what it does with each request. -/
abbrev Middleware := Request → Relay

namespace Middleware

/-- A middleware around an endpoint. -/
def around (middleware : Middleware) (endpoint : Endpoint) : Endpoint := fun request =>
  (middleware request).run endpoint

/-- A list of middlewares around an endpoint, the first outermost. -/
def chain (middlewares : List Middleware) (endpoint : Endpoint) : Endpoint :=
  middlewares.foldr around endpoint

end Middleware

end ClauseRouter
