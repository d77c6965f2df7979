import ClauseRouter.Application.Basic
import Mathlib.Data.List.Basic
import Mathlib.Data.List.ReduceOption

/-!
# What middlewares do around an endpoint

The middlewares of an application stand around its dispatch in the order of their registration.  A
middleware may call the endpoint behind it several times, or not at all, and does other things in
between.  So what matters is not only the reply but what happens on the way, and in which order.

**Deeds.**  `Relay.deeds` lists what a middleware does with one request: the calls of the endpoint
behind it, the changes of the host, the lines.  In `Middleware.deeds` every call of a middleware further
inside stands for the deeds of that middleware, so only calls of the endpoint itself are left.
`Middleware.lead_chain` says that nothing else happens: the deeds lead from the host at the start to the
host at the end, and write all the lines.

**Composition.**  `Middleware.deeds_append` — the deeds of a chain in two parts; the outer part deals
with the inner one as with any other endpoint.  To walk through the chain by positions comes to the same
(`Application.callFrom_eq`).

**Endpoints that answer alike.**  Middlewares cannot see the lines that the endpoint behind them writes,
so they do the same in front of endpoints that differ in nothing else (`Middleware.deeds_congr`).
-/

namespace ClauseRouter

/-- What a middleware does in front of the endpoint behind it. -/
inductive Deed where
  /-- It calls the endpoint with a request, in a host. -/
  | called (request : Request) (host : Host)
  /-- It leaves the host like this. -/
  | attended (host : Host)
  /-- It writes a line. -/
  | wrote (line : Line)

namespace Deed

/-- The deeds that a deed stands for, given those behind a call. -/
def unfolded (behind : Request → Host → List Deed) : Deed → List Deed
  | called request host => behind request host
  | attended host => [attended host]
  | wrote line => [wrote line]

/-- The request and the host of a call. -/
def call? : Deed → Option (Request × Host)
  | called request host => some (request, host)
  | attended _ => none
  | wrote _ => none

/-- **Deeds lead from one host to another** and write lines on the way, if calls are answered by a given
endpoint. -/
inductive Lead (endpoint : Endpoint) : Host → List Deed → Host → List Line → Prop
  | done (host : Host) : Lead endpoint host [] host []
  | called {host last : Host} {deeds : List Deed} {lines : List Line} (request : Request)
      (rest : Lead endpoint (endpoint request host).host deeds last lines) :
      Lead endpoint host (called request host :: deeds) last ((endpoint request host).lines ++ lines)
  | attended {host later last : Host} {deeds : List Deed} {lines : List Line}
      (rest : Lead endpoint later deeds last lines) :
      Lead endpoint host (attended later :: deeds) last lines
  | wrote {host last : Host} {deeds : List Deed} {lines : List Line} (line : Line)
      (rest : Lead endpoint host deeds last lines) :
      Lead endpoint host (wrote line :: deeds) last (line :: lines)

namespace Lead

variable {endpoint behind : Endpoint} {host middle last : Host} {deeds more : List Deed}
  {lines others : List Line}

lemma append (first : Lead endpoint host deeds middle lines)
    (second : Lead endpoint middle more last others) :
    Lead endpoint host (deeds ++ more) last (lines ++ others) := by
  induction first with
  | done => exact second
  | called request _ ih =>
      rw [List.append_assoc]
      exact .called request (ih second)
  | attended _ ih => exact .attended (ih second)
  | wrote line _ ih => exact .wrote line (ih second)

/-- What an endpoint does may be put in the place of its calls. -/
lemma unfold {inner : Request → Host → List Deed}
    (opened : ∀ request host, Lead behind host (inner request host) (endpoint request host).host
      (endpoint request host).lines)
    (lead : Lead endpoint host deeds last lines) :
    Lead behind host (deeds.flatMap (unfolded inner)) last lines := by
  induction lead with
  | done host => exact .done host
  | called request _ ih => exact (opened request _).append ih
  | attended _ ih => exact .attended ih
  | wrote line _ ih => exact .wrote line ih

end Lead

/-- Calls may be unfolded one after the other or at once. -/
lemma flatMap_unfolded (first second : Request → Host → List Deed) (deeds : List Deed) :
    (deeds.flatMap (unfolded first)).flatMap (unfolded second)
      = deeds.flatMap (unfolded fun request host => (first request host).flatMap (unfolded second)) := by
  rw [List.flatMap_assoc]
  congr 1
  funext deed
  cases deed <;> rfl

/-- The calls behind deeds are those behind their calls. -/
lemma filterMap_call?_flatMap (behind : Request → Host → List Deed) (deeds : List Deed) :
    (deeds.flatMap (unfolded behind)).filterMap call?
      = (deeds.filterMap call?).flatMap fun call => (behind call.1 call.2).filterMap call? := by
  induction deeds with
  | nil => rfl
  | cons deed deeds ih =>
      rw [List.flatMap_cons, List.filterMap_append, ih]
      cases deed <;> rfl

end Deed

/-- Two endpoints answer alike: they give the same replies and leave the same hosts. -/
structure Endpoint.Alike (endpoint other : Endpoint) : Prop where
  value : ∀ request host, (endpoint request host).value = (other request host).value
  host : ∀ request host, (endpoint request host).host = (other request host).host

/-! ## One middleware -/

namespace Relay

/-- What a relay does in front of an endpoint. -/
def deeds (endpoint : Endpoint) : Relay → Host → List Deed
  | answer _, _ => []
  | pass request next, host =>
    let outcome := endpoint request host
    .called request host :: (next outcome.value).deeds endpoint outcome.host
  | attend change next, host => .attended (change host) :: (next host).deeds endpoint (change host)
  | write line next, host => .wrote line :: next.deeds endpoint host

/-- **The deeds of a relay lead to the end of its run.** -/
lemma lead_run (endpoint : Endpoint) : ∀ (relay : Relay) (host : Host),
    Deed.Lead endpoint host (relay.deeds endpoint host) (relay.run endpoint host).host
      (relay.run endpoint host).lines
  | answer _, host => .done host
  | pass request next, _ => .called request ((next _).lead_run endpoint _)
  | attend _ next, host => .attended ((next host).lead_run endpoint _)
  | write line next, host => .wrote line (next.lead_run endpoint host)

variable {endpoint other : Endpoint}

/-- What a relay does, answers and leaves is the same in front of endpoints that answer alike. -/
lemma run_alike (alike : endpoint.Alike other) : ∀ (relay : Relay) (host : Host),
    relay.deeds endpoint host = relay.deeds other host ∧
      (relay.run endpoint host).value = (relay.run other host).value ∧
      (relay.run endpoint host).host = (relay.run other host).host
  | answer _, _ => ⟨rfl, rfl, rfl⟩
  | pass request next, host => by
      obtain ⟨same, value, left⟩ := run_alike alike (next (endpoint request host).value)
        (endpoint request host).host
      simp only [deeds, run, bind, ← alike.value, ← alike.host]
      exact ⟨congrArg _ same, value, left⟩
  | attend change next, host => by
      obtain ⟨same, value, left⟩ := run_alike alike (next host) (change host)
      exact ⟨congrArg _ same, value, left⟩
  | write line next, host => by
      obtain ⟨same, value, left⟩ := run_alike alike next host
      exact ⟨congrArg _ same, value, left⟩

end Relay

/-! ## Chains of middlewares -/

namespace Middleware

/-- What middlewares do around an endpoint; the calls that are left are those of the endpoint itself. -/
def deeds (endpoint : Endpoint) : List Middleware → Request → Host → List Deed
  | [], request, host => [.called request host]
  | middleware :: rest, request, host =>
    ((middleware request).deeds (chain rest endpoint) host).flatMap
      (Deed.unfolded (deeds endpoint rest))

/-- **The deeds of a chain lead to the end of its run.** -/
lemma lead_chain (endpoint : Endpoint) : ∀ (middlewares : List Middleware) (request : Request)
    (host : Host), Deed.Lead endpoint host (deeds endpoint middlewares request host)
      (chain middlewares endpoint request host).host (chain middlewares endpoint request host).lines
  | [], request, host => by
      have called : Deed.Lead endpoint host [.called request host] _ _ := .called request (.done _)
      rwa [List.append_nil] at called
  | middleware :: rest, request, host =>
      ((middleware request).lead_run (chain rest endpoint) host).unfold (lead_chain endpoint rest)

lemma chain_append (outer inner : List Middleware) (endpoint : Endpoint) :
    chain (outer ++ inner) endpoint = chain outer (chain inner endpoint) :=
  List.foldr_append

/-- **The outer part of a chain deals with the inner one as with any other endpoint.** -/
lemma deeds_append (endpoint : Endpoint) (inner : List Middleware) :
    ∀ (outer : List Middleware) (request : Request) (host : Host),
      deeds endpoint (outer ++ inner) request host
        = (deeds (chain inner endpoint) outer request host).flatMap
            (Deed.unfolded (deeds endpoint inner))
  | [], _, _ => by simp [deeds, Deed.unfolded]
  | middleware :: rest, request, host => by
      have ih : deeds endpoint (rest ++ inner) = fun request host =>
          (deeds (chain inner endpoint) rest request host).flatMap
            (Deed.unfolded (deeds endpoint inner)) :=
        funext fun request => funext fun host => deeds_append endpoint inner rest request host
      rw [List.cons_append, deeds, deeds, chain_append, Deed.flatMap_unfolded, ih]

variable {endpoint other : Endpoint}

/-- A chain around endpoints that answer alike is one of them itself. -/
lemma chain_alike (alike : endpoint.Alike other) :
    ∀ middlewares : List Middleware, (chain middlewares endpoint).Alike (chain middlewares other)
  | [] => alike
  | middleware :: rest => by
      have behind := chain_alike alike rest
      exact ⟨fun request host => ((middleware request).run_alike behind host).2.1,
        fun request host => ((middleware request).run_alike behind host).2.2⟩

/-- **Middlewares do the same in front of endpoints that answer alike.** -/
lemma deeds_congr (alike : endpoint.Alike other) : ∀ middlewares : List Middleware,
    deeds endpoint middlewares = deeds other middlewares
  | [] => rfl
  | middleware :: rest => by
      funext request host
      rw [deeds, deeds, deeds_congr alike rest,
        ((middleware request).run_alike (chain_alike alike rest) host).1]

end Middleware

/-! ## Applications -/

namespace Application

/-- What the middlewares of an application do with a request, with the runs of its dispatch. -/
def deeds (app : Application) : Request → Host → List Deed :=
  Middleware.deeds app.dispatch app.middlewares

/-- To walk through the middlewares by positions comes to a chain of those from there on. -/
lemma callFrom_eq (app : Application) (index : Nat) :
    app.callFrom index = Middleware.chain (app.middlewares.drop index) app.dispatch := by
  induction index using callFrom.induct app with
  | case1 index inside ih =>
      rw [callFrom, dif_pos inside, ih, List.drop_eq_getElem_cons inside]
      rfl
  | case2 index outside =>
      rw [callFrom, dif_neg outside, List.drop_eq_nil_of_le (Nat.le_of_not_lt outside)]
      rfl

lemma register_eq (app : Application) (middlewares : List (Option Middleware)) :
    app.register middlewares
      = { app with middlewares := app.middlewares ++ middlewares.reduceOption } := by
  induction middlewares generalizing app with
  | nil => simp [register]
  | cons middleware rest ih =>
      rw [register, List.foldl_cons]
      refine (ih _).trans ?_
      cases middleware with
      | none => rw [List.reduceOption_cons_of_none]; rfl
      | some middleware =>
          simp [use, Except.toOption, List.reduceOption_cons_of_some, List.append_assoc]

/-- **The middlewares of an application are composed in the order of their registration.**

* An application with two lists of middlewares, one after the other, gives the same outcome as the first
  list around an endpoint that is the application with the second list alone, and does the same on the
  way.  Its dispatch is that of the application without any middlewares.
* What happens on the way is all that happens: it leads to the host that is left, and to the lines.
* The endpoint behind each middleware is the chain of those that come later.
* The dispatch runs as often as the last middleware calls the endpoint behind it, with those requests and
  in those hosts.
* Middlewares are registered behind those that are there; where none is given, that is refused and
  changes nothing. -/
theorem middlewares_compose (app : Application) :
    (∀ outer inner : List Middleware,
      let whole : Application := { app with middlewares := outer ++ inner }
      let behind : Application := { app with middlewares := inner }
      whole.call = Middleware.chain outer behind.call ∧
      (∀ request host, whole.deeds request host
        = (Middleware.deeds behind.call outer request host).flatMap (Deed.unfolded behind.deeds)) ∧
      whole.dispatch = app.dispatch) ∧
    (∀ request host, Deed.Lead app.dispatch host (app.deeds request host)
      (app.call request host).host (app.call request host).lines) ∧
    (app.call = app.callFrom 0 ∧
      ∀ index, app.callFrom index
        = call { app with middlewares := app.middlewares.drop index }) ∧
    (∀ (outer : List Middleware) (last : Middleware) (request : Request) (host : Host),
      (deeds { app with middlewares := outer ++ [last] } request host).filterMap Deed.call?
        = ((Middleware.deeds (last.around app.dispatch) outer request host).filterMap
            Deed.call?).flatMap fun entry =>
              ((last entry.1).deeds app.dispatch entry.2).filterMap Deed.call?) ∧
    app.use none = .error .noMiddleware ∧
    ∀ middlewares : List (Option Middleware), app.register middlewares
      = { app with middlewares := app.middlewares ++ middlewares.reduceOption } := by
  refine ⟨fun outer inner => ⟨Middleware.chain_append outer inner _, ?_, rfl⟩, ?_, ⟨?_, ?_⟩, ?_, rfl,
    app.register_eq⟩
  · exact Middleware.deeds_append app.dispatch inner outer
  · exact Middleware.lead_chain app.dispatch app.middlewares
  · rw [callFrom_eq, List.drop_zero]
    rfl
  · exact app.callFrom_eq
  · intro outer last request host
    have inner : Middleware.deeds app.dispatch [last] = fun request host =>
        (last request).deeds app.dispatch host := by
      funext request host
      have opened : Deed.unfolded (Middleware.deeds app.dispatch []) = fun deed => [deed] := by
        funext deed
        cases deed <;> rfl
      rw [Middleware.deeds, opened, List.flatMap_singleton']
      rfl
    have split := Middleware.deeds_append app.dispatch [last] outer request host
    rw [inner] at split
    exact (congrArg (List.filterMap Deed.call?) split).trans (Deed.filterMap_call?_flatMap _ _)

end Application

end ClauseRouter
