import ClauseRouter.Settings.Basic

/-!
# Faults

A fault ends a dispatch without a response, unless something on the way out deals with it.  `Fault`
lists the causes; `Fault.message` is what a log says of them.
-/

namespace ClauseRouter

/-- The kinds of fault that a handler can raise in its own name. -/
inductive Grievance where
  /-- A mistake in the program. -/
  | logic
  /-- A condition that only shows at run time. -/
  | runtime
  /-- A value outside its range. -/
  | range
  /-- An argument that makes no sense. -/
  | argument
  deriving DecidableEq, Repr

/-- Why a dispatch ended without a response. -/
inductive Fault where
  /-- A pattern text is malformed. -/
  | malformedPattern
  /-- A pattern claims more bytes of a path than remain. -/
  | overrun (claimed remaining : Nat)
  /-- No matcher of that name has been defined. -/
  | unknownMatcher (name : Bytes)
  /-- A matcher of that name has been defined already, or the name is reserved. -/
  | redefinition (name : Bytes)
  /-- An application was to use a middleware that is not there. -/
  | noMiddleware
  /-- An application without a handler was asked to dispatch. -/
  | noHandler
  /-- A handler asked for the session of a request that has none. -/
  | noSession
  /-- Settings could not be loaded. -/
  | settings (error : Settings.LoadError)
  /-- A setting does not have the form asked for. -/
  | value (error : Settings.ValueError)
  /-- A handler raised a fault in its own name. -/
  | raised (grievance : Grievance) (text : Bytes)
  /-- The random source has no fresh identifier left. -/
  | noFreshId
  /-- Named matchers refer to each other too deeply. -/
  | tooDeep
  deriving DecidableEq, Repr

namespace Fault

/-- What there is to be said of a fault. -/
def text : Fault → Bytes
  | malformedPattern => ascii "malformed pattern"
  | overrun claimed remaining =>
    ascii "basic_string::substr: __pos (which is " ++ Decimal.natural claimed ++
      ascii ") > this->size() (which is " ++ Decimal.natural remaining ++ ascii ")"
  | unknownMatcher name => ascii "unknown matcher: " ++ name
  | redefinition name => ascii "cannot redefine matcher: " ++ name
  | noMiddleware => ascii "Application::use: null middleware"
  | noHandler => ascii "Application::dispatch: no handler defined"
  | noSession =>
    ascii ("You're missing a session handler. You can get started by adding " ++
      "app.use(new SessionMiddleware(app.settings()))")
  | settings error => error.message
  | value error => error.message
  | raised _ text => text
  | noFreshId => ascii "no fresh session identifier"
  | tooDeep => ascii "matchers nest too deeply"

/-- What a log says of a fault.  Messages are terminated texts, so nothing behind a NUL byte shows. -/
def message (fault : Fault) : Bytes := Bytes.beforeNul fault.text

end Fault

/-- What is put together from two parts goes well if both parts do. -/
theorem Except.bind_eq_ok {ε α β : Type} {made : Except ε α} {next : α → Except ε β} {b : β} :
    (made >>= next) = .ok b ↔ ∃ a, made = .ok a ∧ next a = .ok b := by
  cases made <;> simp [bind, Except.bind]

end ClauseRouter
