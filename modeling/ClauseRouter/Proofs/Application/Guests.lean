import ClauseRouter.Proofs.Application.Sessions
import ClauseRouter.Proofs.Dispatch.Hosting

/-!
# Applications as guests of a store

What a request does to a session store while it is served is a `Host.Course`: handlers change the values
of sessions, and session middlewares sweep and ask.  So the courses that a sequence of `Visits` is made
of are there for every application, whatever its handler does, and for applications that delegate to
each other.

* `Host.Follows` — whatever becomes of a store is a course of it.
* `Host.follows_law` — this is a law for hosts.
* `Middleware.sessions_follows`, `Middleware.logger_follows` — middlewares that stay within it.
* `Application.call_follows` — so does the call of an application behind such middlewares.
* `Visits.serve` — so every request that such an application serves is one more visit.
-/

namespace ClauseRouter

open Store (Happening)

variable {number : Nat}

namespace Host

/-- **Whatever has become of a store** by the time of a later host is a course of it. -/
def Follows (number : Nat) (host later : Host) : Prop :=
  ∀ store, host.stores[number]? = some store → ∃ happenings, Course number host happenings later

lemma Course.follows {host later : Host} {happenings : List Happening}
    (course : Course number host happenings later) : Follows number host later :=
  fun _ _ => ⟨happenings, course⟩

/-- A host in which the store is as it was, and the clock as well, follows. -/
lemma follows_of_untouched {host later : Host} (now : later.now = host.now)
    (untouched : later.stores[number]? = host.stores[number]?) : Follows number host later :=
  fun _ there => ⟨[], (Course.refl there).wait (by rw [now]; exact UInt64.le_refl _) untouched⟩

lemma updateSession_follows (host : Host) (key : SessionKey) (change : Dict Bytes → Dict Bytes) :
    Follows number host (host.updateSession key change) := by
  intro store there
  obtain ⟨other, id⟩ := key
  by_cases own : other = number
  · subst own
    cases stored : store.sessions.get? id with
    | some s =>
        have held := sessionValues?_eq_some.mpr ⟨store, s, there, stored, rfl⟩
        exact ⟨_, Course.remember held change⟩
    | none =>
        refine follows_of_untouched rfl ?_ store there
        simp [updateSession, List.getElem?_modify_eq, there, Store.update, stored]
  · refine follows_of_untouched rfl ?_ store there
    simp [updateSession, own]

/-- **To follow is a law for hosts.** -/
lemma follows_law : Law (Follows number) where
  refl _ := follows_of_untouched rfl rfl
  trans first second store there := by
    obtain ⟨happenings, course⟩ := first store there
    obtain ⟨between, reached⟩ := course.arrives
    obtain ⟨others, course'⟩ := second between reached
    exact ⟨happenings ++ others, course.trans course'⟩
  remember := updateSession_follows

/-- To sweep a store and ask it for a session follows, whichever store it is. -/
lemma obtain?_follows {host entry : Host} {other : Nat} {asked id : Bytes} {isNew : Bool}
    (found : (host.sweep other).obtain? other asked = some (id, isNew, entry)) :
    Follows number host entry := by
  intro store there
  by_cases own : other = number
  · subst own
    exact ⟨_, Course.ask there found⟩
  · cases there' : host.stores[other]? with
    | none => simp [obtain?, sweep, there'] at found
    | some store' =>
        rw [obtain?_eq (stores_sweep there'), Option.map_eq_some_iff] at found
        obtain ⟨answer, -, same⟩ := found
        cases same
        refine follows_of_untouched rfl ?_ store there
        simp [answered, sweep, own]

end Host

open Host (Follows follows_law)

namespace Middleware

/-- A session middleware follows, whichever store it has. -/
lemma sessions_follows (cookie : Bytes) (other : Nat) (request : Request) :
    Relay.Within (Follows number) (sessions cookie other request) := by
  refine ⟨fun host => ?_, fun host => ?_⟩
  · cases found : (host.sweep other).obtain? other (request.sessionId cookie) with
    | none =>
        simp only [found, Option.map_none, Option.getD_none]
        exact follows_law.refl host
    | some triple =>
        simp only [found, Option.map_some, Option.getD_some]
        exact Host.obtain?_follows found
  · cases found : (host.sweep other).obtain? other (request.sessionId cookie) with
    | none => simp only [found, Relay.Within]
    | some triple => simp only [found, Relay.Within, implies_true]

lemma logger_follows (request : Request) : Relay.Within (Follows number) (logger request) :=
  fun _ => trivial

end Middleware

/-- **Every call of an application follows,** if its middlewares do, and the endpoints to which its
handler and its named conditions delegate. -/
theorem Application.call_follows {app : Application}
    (delegates : app.Delegates (Endpoint.Within (Follows number)))
    (middlewares : ∀ m ∈ app.middlewares, ∀ request, (m request).Within (Follows number)) :
    Endpoint.Within (Follows number) app.call :=
  call_within follows_law delegates middlewares

/-- **One more request is one more visit,** whatever the request is, if it is served by an endpoint that
follows. -/
theorem Visits.serve {cookie : Bytes} {host reached : Host} {store : Store}
    {happenings : List Happening} (there : host.stores[number]? = some store)
    (visits : Visits cookie number host happenings reached) {endpoint : Endpoint}
    (follows : endpoint.Within (Follows number)) (request : Request) :
    ∃ more, Visits cookie number host (happenings ++ more)
      (Middleware.around (Middleware.sessions cookie number) endpoint request reached).host := by
  obtain ⟨between, arrived⟩ := (visits.course there).arrives
  cases found : (reached.sweep number).obtain? number (request.sessionId cookie) with
  | none =>
      refine ⟨[], ?_⟩
      rw [Middleware.around_sessions, found, List.append_nil]
      exact visits
  | some triple =>
      obtain ⟨id, isNew, entry⟩ := triple
      obtain ⟨opened, entered⟩ := (Host.Course.ask arrived found).arrives
      obtain ⟨inner, own⟩ := follows _ entry opened entered
      exact ⟨_, visits.visit found own⟩

end ClauseRouter
