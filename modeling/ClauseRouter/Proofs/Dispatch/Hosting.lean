import ClauseRouter.Application.Logger
import ClauseRouter.Proofs.Dispatch.Passage

/-!
# What handler code does to its host

A program changes its host in two ways: it changes the values of a session, and it delegates to another
endpoint.  So a relation between hosts that covers both, and can be put together from step to step,
covers whatever handler code does.

* `Host.Law` — what is asked of such a relation; as a `Passage` it asks nothing of the outcome.
* `Hosted.Within` — a computation changes its host only as the relation says.
* `Application.dispatch_within` — dispatches stay within a law if the endpoints to which they delegate do.
* `Relay.Within`, `Application.call_within` — the same with middlewares around the dispatch.
-/

namespace ClauseRouter

/-- **A law for hosts:** a relation between a host and a later one that can be put together, and covers
a change of the values of a session. -/
structure Host.Law (law : Host → Host → Prop) : Prop where
  refl (host : Host) : law host host
  trans {host middle later : Host} : law host middle → law middle later → law host later
  remember (host : Host) (key : SessionKey) (change : Dict Bytes → Dict Bytes) :
    law host (host.updateSession key change)

/-- A computation changes its host within a law. -/
def Hosted.Within {α : Type} (law : Host → Host → Prop) (act : Hosted α) : Prop :=
  ∀ host, law host (act host).host

/-- Whatever the request, an endpoint changes its host within a law. -/
def Endpoint.Within (law : Host → Host → Prop) (endpoint : Endpoint) : Prop :=
  ∀ request, Hosted.Within law (endpoint request)

variable {law : Host → Host → Prop}

/-! ## Computations -/

namespace Hosted.Within

variable {α β : Type}

lemma pure (lawful : Host.Law law) (a : α) : Hosted.Within law (Pure.pure a : Hosted α) :=
  fun host => lawful.refl host

/-- One computation after the other stays within a law. -/
lemma bind (lawful : Host.Law law) {act : Hosted α} {next : α → Hosted β}
    (first : Hosted.Within law act) (second : ∀ a, Hosted.Within law (next a)) :
    Hosted.Within law (act >>= next) :=
  fun host => lawful.trans (first host) (second _ _)

lemma host (lawful : Host.Law law) : Hosted.Within law Hosted.host := lawful.refl

lemma write (lawful : Host.Law law) (line : Line) : Hosted.Within law (Hosted.write line) :=
  lawful.refl

end Hosted.Within

/-! ## Dispatches -/

/-- **To stay within a law is a lawful passage,** whatever becomes of the outcome. -/
lemma Host.Law.passage (lawful : Host.Law law) :
    Passage.Lawful (fun found left => law found.2 left.2) (fun _ => True) (Endpoint.Within law) where
  refl found := lawful.refl found.2
  trans := lawful.trans
  remember _ := lawful.remember
  finish _ := lawful.refl
  halt _ := lawful.refl
  reply within _ _ _ _ := within _ _
  call within _ := within

/-- **A dispatch** stays within a law if the endpoints to which it delegates do. -/
lemma Application.dispatch_within (lawful : Host.Law law) {app : Application}
    (delegates : app.Delegates (Endpoint.Within law)) : Endpoint.Within law app.dispatch := by
  intro request
  unfold dispatch
  cases defined : app.handler with
  | none => exact .pure lawful _
  | some handler =>
      have passes := perform_passes lawful.passage delegates (.inl fun _ => trivial) defined
      exact .bind lawful (passes (.initial request)) fun _ => .pure lawful _

/-! ## Middlewares -/

/-- A relay changes its host within a law, on whatever the endpoint behind it replies. -/
def Relay.Within (law : Host → Host → Prop) : Relay → Prop
  | answer _ => True
  | pass _ next => ∀ reply, (next reply).Within law
  | attend change next => (∀ host, law host (change host)) ∧ ∀ host, (next host).Within law
  | write _ next => next.Within law

lemma Relay.run_within (lawful : Host.Law law) {endpoint : Endpoint}
    (within : endpoint.Within law) :
    ∀ relay : Relay, relay.Within law → Hosted.Within law (relay.run endpoint)
  | answer _, _ => .pure lawful _
  | pass request next, kept =>
      .bind lawful (within request) fun reply => (next reply).run_within lawful within (kept reply)
  | attend _ next, kept =>
      .bind lawful (.host lawful) fun host =>
        .bind lawful kept.1 fun _ => (next host).run_within lawful within (kept.2 host)
  | write line next, kept =>
      .bind lawful (.write lawful line) fun _ => next.run_within lawful within kept

/-- Middlewares that stay within a law keep an endpoint within it. -/
lemma Middleware.chain_within (lawful : Host.Law law) {endpoint : Endpoint}
    (within : endpoint.Within law) :
    ∀ {middlewares : List Middleware}, (∀ m ∈ middlewares, ∀ request, (m request).Within law) →
      Endpoint.Within law (chain middlewares endpoint)
  | [], _ => within
  | m :: rest, kept => fun request => by
      have inner := chain_within lawful within fun other mem => kept other (List.mem_cons_of_mem m mem)
      exact (m request).run_within lawful inner (kept m List.mem_cons_self request)

/-- **So does a call,** with middlewares that do. -/
lemma Application.call_within (lawful : Host.Law law) {app : Application}
    (delegates : app.Delegates (Endpoint.Within law))
    (middlewares : ∀ m ∈ app.middlewares, ∀ request, (m request).Within law) :
    Endpoint.Within law app.call :=
  Middleware.chain_within lawful (dispatch_within lawful delegates) middlewares

end ClauseRouter
