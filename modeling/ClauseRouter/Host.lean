import ClauseRouter.Fault
import ClauseRouter.Message.Request
import ClauseRouter.Message.Response
import ClauseRouter.Session.Store

/-!
# The host of a dispatch

What a dispatch does besides answering is done through its host: the host has the clock, the random
source and the session stores, and it takes the lines that are written on the way.

* `Host` — what the host lends.
* `Hosted α` — a computation that uses a host.  **Lines can only be added**: nothing that runs in a host
  can see what has been written before it, or by others.
* `Endpoint` — whatever answers requests in a host.
-/

namespace ClauseRouter

/-- What a host lends to the dispatches that run in it. -/
structure Host where
  /-- The clock, in seconds. -/
  now : UInt64
  /-- The random words that are still to come. -/
  words : List UInt64
  /-- The session stores, by number. -/
  stores : List Store := []

namespace Host

/-- Adds a store without sessions; its number comes with the host. -/
def addStore (host : Host) (timeout : UInt64) : Nat × Host :=
  (host.stores.length, { host with stores := host.stores ++ [{ timeout }] })

/-- Drops the expired sessions of a store. -/
def sweep (host : Host) (number : Nat) : Host :=
  { host with stores := host.stores.modify number fun store => store.sweep host.now }

/-- Asks a store for the session of an identifier: the identifier of the session that it gives, and
whether that is a new one. -/
def obtain? (host : Host) (number : Nat) (id : Bytes) : Option (Bytes × Bool × Host) := do
  let store ← host.stores[number]?
  let obtained ← store.obtain? host.now host.words id
  return (obtained.id, obtained.isNew,
    { host with words := obtained.words, stores := host.stores.set number obtained.store })

/-- The values of a session. -/
def sessionValues? (host : Host) (key : SessionKey) : Option (Dict Bytes) := do
  let store ← host.stores[key.store]?
  let session ← store.sessions.get? key.id
  return session.values

/-- Changes the values of a session. -/
def updateSession (host : Host) (key : SessionKey) (change : Dict Bytes → Dict Bytes) : Host :=
  { host with
    stores := host.stores.modify key.store fun store =>
      store.update key.id fun s => { s with values := change s.values } }

end Host

/-- A line that was written. -/
inductive Line where
  /-- A line of the log, without its end. -/
  | logged (text : Bytes)
  /-- A line that a handler or a middleware left as a trace. -/
  | traced (text : Bytes)
  deriving DecidableEq, Repr

/-- What a computation in a host leaves. -/
structure Outcome (α : Type) where
  value : α
  host : Host
  /-- The lines written by the computation, in order. -/
  lines : List Line

/-- A computation that uses a host. -/
def Hosted (α : Type) : Type := Host → Outcome α

namespace Hosted

instance : Monad Hosted where
  pure a := fun host => ⟨a, host, []⟩
  bind act next := fun host =>
    let first := act host
    let second := next first.value first.host
    ⟨second.value, second.host, first.lines ++ second.lines⟩

@[simp] theorem value_pure {α : Type} (a : α) (host : Host) :
    ((pure a : Hosted α) host).value = a := rfl

/-- What a sequence gives is what its second part gives, in the host that the first part leaves. -/
@[simp] theorem value_bind {α β : Type} (act : Hosted α) (next : α → Hosted β) (host : Host) :
    ((act >>= next) host).value = (next (act host).value (act host).host).value := rfl

/-- The host as it is now. -/
def host : Hosted Host := fun host => ⟨host, host, []⟩

/-- Changes the host. -/
def modify (change : Host → Host) : Hosted Unit := fun host => ⟨(), change host, []⟩

/-- Writes a line. -/
def write (line : Line) : Hosted Unit := fun host => ⟨(), host, [line]⟩

end Hosted

/-- What comes back for a request: a response or a fault. -/
abbrev Reply := Except Fault Response

/-- Whatever answers requests in a host. -/
abbrev Endpoint := Request → Hosted Reply

end ClauseRouter
