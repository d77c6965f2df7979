import ClauseRouter.Application.Basic
import ClauseRouter.Application.Logger
import ClauseRouter.Application.Sessions
import ClauseRouter.Message.Wire

/-!
# A small site

A site that uses most of what the router offers, with an administration of its own behind a named
matcher, and the command that sends one request to it.

* `Demo.site` — the application, for given settings and a store for its sessions.
* `Demo.run` — the command: a method, a target and, if there is one, a settings file.
-/

namespace ClauseRouter.Demo

/-! ## The site -/

/-- The handler of the administration. -/
def administration : Program :=
  .on [.template (ascii "dashboard")] fun _ =>
    .observe fun view =>
      .write (ascii "admin dashboard (mounted at " ++ view.request.cursor.consumed ++ ascii ")")

/-- Passes if the client says that it has a role. -/
def role (name : Bytes) : Condition :=
  .check (.observe fun view => .answer (view.request.header (ascii "x-role") == name))

/-- The name of the counter in a session. -/
def visitsKey : Bytes := ascii "visits"

/-- Counts a visit in the session. -/
def countVisit : Program :=
  .observe fun view =>
    match view.session with
    | none => .raise .noSession
    | some values =>
      match (values.get? visitsKey).elim (.ok 0) Settings.toNumber with
      | .error error => .raise (.value error)
      | .ok visits =>
        let count := Decimal.natural (visits + 1)
        .seq (.remember fun values => values.set visitsKey count) (.write (ascii "visits: " ++ count))

/-- The clauses of the site. -/
def clauses (admin : Endpoint) : List Program :=
  [ .on [.verb .get, .template []] fun _ =>
      .observe fun view =>
        .write (view.settings.getD (ascii "greeting") (ascii "Hello") ++ ascii " from onroute"),
    .on [.verb .get, .template (ascii "users/:id")] fun captures =>
      let user := captures.headD []
      .seq (.on [.template (ascii "posts")] fun _ => .write (ascii "posts of user " ++ user))
        (.write (ascii "user " ++ user)),
    .on [.template (ascii "styles"), .extension (ascii "css")] fun captures =>
      .seq
        (.respond fun r => { r with headers := r.headers.set Response.contentType (ascii "text/css") })
        (.write (ascii "/* stylesheet " ++ captures.headD [] ++ ascii " */")),
    .on [.verb .get, .template (ascii "search"), .parameter (ascii "q")] fun captures =>
      match captures with
      | [] => .write (ascii "search: nothing asked")
      | asked :: _ => .write (ascii "search: " ++ asked),
    .on [.template (ascii "api"), .accept (ascii "application/json")] fun _ =>
      .write (ascii "\x7b\"status\":\"ok\"\x7d"),
    .on [.template visitsKey] fun _ => countVisit,
    .on [.template (ascii "admin"), .named (ascii "role") (ascii "admin")] fun _ => .delegate admin,
    .on [.template (ascii "login")] fun _ =>
      .respond fun r => r.redirect (ascii "/") Response.found ]

/-- The site, its sessions in a store of the host. -/
def site (settings : Settings) (policy : SessionPolicy) (store : Nat) : Application where
  handler := some (.all (clauses (Application.call { handler := some administration, settings })))
  settings := settings
  middlewares := [.logger, .sessions policy.cookie store]
  names := Dict.empty.set (ascii "role") role

/-! ## The command -/

/-- What a run of the command leaves. -/
structure Run where
  exitCode : Nat
  output : Bytes
  errors : Bytes
  deriving DecidableEq, Repr

/-- A text as a line of its own. -/
def line (text : Bytes) : Bytes := text ++ [Byte.newline]

/-- How the command is used. -/
def usage : Bytes := ascii "Usage: ./route_demo METHOD URI [settings_file]"

/-- A run that ends before there is a request. -/
def failed (message : Bytes) : Run := ⟨1, [], line message⟩

/-- A run that ends by a fault before there is a request. -/
def fatal (fault : Fault) : Run := failed (ascii "[FATAL] " ++ fault.message)

/-- The headers that the command sends, by its settings. -/
def headers (settings : Settings) : Dict Bytes :=
  Dict.ofList
    [(ascii "host", settings.getD (ascii "host") (ascii "localhost")),
     (ascii "accept", settings.getD (ascii "accept") (ascii "text/html")),
     (ascii "x-role", settings.getD (ascii "role") (ascii "guest"))]

/-- The lines of a log. -/
def logText (lines : List Line) : Bytes :=
  lines.flatMap fun
    | .logged text => line text
    | .traced _ => []

/-- Sends a request to the site.  A fault is told, and answered as an error of the server. -/
def send (settings : Settings) (policy : SessionPolicy) (host : Host) (method uri : Bytes) : Run :=
  let (store, host) := host.addStore policy.timeout
  let outcome := (site settings policy store).call (.create method uri (headers settings) []) host
  let log := logText outcome.lines
  match outcome.value with
  | .ok response => ⟨0, line (Wire.encode response), log⟩
  | .error fault =>
    ⟨0, line (Wire.encode (.error 500)),
      log ++ line (ascii "[ERROR] dispatch failed: " ++ fault.message)⟩

/-- Sends a request under settings from which its sessions take their policy. -/
def start (settings : Settings) (host : Host) (method uri : Bytes) : Run :=
  match SessionPolicy.ofSettings settings with
  | .error fault => fatal fault
  | .ok policy => send settings policy host method uri

/-- The command: `read` gives the content of a file, if it can be opened.  Arguments are terminated
texts, so an argument ends at its first NUL byte. -/
def run (arguments : List Bytes) (read : Bytes → Option Bytes) (host : Host) : Run :=
  match arguments.map Bytes.beforeNul with
  | [method, uri] => start Dict.empty host method uri
  | [method, uri, file] =>
    match Settings.loadFile Dict.empty file (read file) with
    | .error error => fatal (.settings error)
    | .ok settings => start settings host method uri
  | _ => failed usage

end ClauseRouter.Demo
