import ClauseRouter.Dict

/-!
# Session stores

A store keeps sessions under their identifiers.  A session that has been idle for longer than the
store's timeout is **expired**; it is never handed out again, and dropped when it is found.

* `Session.expired` — the test, on a clock of 64 bits.  The idle time is a difference of two readings
  **modulo 2^64**, so an access later than the clock counts as very long ago.
* `Store.draw?` — a fresh identifier: the first word of a random source whose spelling is not taken.
* `Store.obtain?` — the session of an identifier, or a new one under a fresh identifier.
* `Store.sweep` — drops what is expired.
-/

namespace ClauseRouter

/-- A session: values that outlive a request. -/
structure Session where
  /-- The identifier under which it was created. -/
  id : Bytes
  /-- The clock when it was last handed out. -/
  lastAccess : UInt64
  values : Dict Bytes

/-- Whether a session has been idle for longer than a timeout. -/
def Session.expired (s : Session) (now timeout : UInt64) : Bool := now - s.lastAccess > timeout

/-- Sessions with a common timeout. -/
structure Store where
  sessions : Dict Session := Dict.empty
  /-- The longest idle time, in seconds. -/
  timeout : UInt64

namespace Store

/-- The timeout of a store unless another one is asked for: five minutes. -/
def defaultTimeout : Nat := 300

/-- The number of digits of an identifier. -/
def idLength : Nat := 16

/-- The hexadecimal digit of a number below 16, in capitals. -/
def hexDigit (n : Nat) : UInt8 := if n < 10 then UInt8.ofNat (0x30 + n) else UInt8.ofNat (0x37 + n)

/-- The last digits of a number in base 16, a given number of them. -/
def hexDigits (n : Nat) : Nat → Bytes
  | 0 => []
  | count + 1 => hexDigits (n / 16) count ++ [hexDigit (n % 16)]

/-- The identifier that a random word spells. -/
def spell (word : UInt64) : Bytes := hexDigits word.toNat idLength

/-- A fresh identifier from a random source, and what is left of the source.  Words whose identifier
is taken are passed over. -/
def draw? (store : Store) : List UInt64 → Option (Bytes × List UInt64)
  | [] => none
  | word :: words =>
    if store.sessions.contains (spell word) then store.draw? words else some (spell word, words)

/-- The number of sessions. -/
def size (store : Store) : Nat := store.sessions.size

/-- Drops the expired sessions. -/
def sweep (store : Store) (now : UInt64) : Store :=
  { store with sessions := store.sessions.filter fun _ s => !s.expired now store.timeout }

/-- Changes a session, if there is one of that identifier. -/
def update (store : Store) (id : Bytes) (change : Session → Session) : Store :=
  match store.sessions.get? id with
  | some s => { store with sessions := store.sessions.set id (change s) }
  | none => store

/-- A session that was asked for. -/
structure Obtained where
  /-- The identifier of the session. -/
  id : Bytes
  /-- Whether it was created for the occasion. -/
  isNew : Bool
  /-- The store that holds it. -/
  store : Store
  /-- What is left of the random source. -/
  words : List UInt64

/-- A new session without values under a fresh identifier. -/
def create? (store : Store) (now : UInt64) (words : List UInt64) : Option Obtained :=
  (store.draw? words).map fun (id, words) =>
    ⟨id, true, { store with sessions := store.sessions.set id ⟨id, now, .empty⟩ }, words⟩

/-- The session of an identifier, its access noted, or a new one.  An expired session is dropped
first. -/
def obtain? (store : Store) (now : UInt64) (words : List UInt64) (id : Bytes) : Option Obtained :=
  match store.sessions.get? id with
  | none => store.create? now words
  | some s =>
    if s.expired now store.timeout then
      { store with sessions := store.sessions.erase id }.create? now words
    else
      some
        ⟨id, false, { store with sessions := store.sessions.set id { s with lastAccess := now } },
          words⟩

end Store

end ClauseRouter
