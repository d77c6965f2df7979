import ClauseRouter.Application.Basic
import ClauseRouter.Application.Sessions
import ClauseRouter.Proofs.Message.Cookie
import ClauseRouter.Proofs.Session.Continuity

/-!
# Sessions from one request to the next

A client that comes without a session gets a new one.  If it sends the cookie back with its later
requests, the endpoint finds in the session what was last left there, whoever else has been served in
the meantime.

* `Middleware.around_sessions` — what the middleware does with one request, in one equation.
* `Host.Course` — a stretch of time in the life of a store, between two states of its host.
* `Visits` — requests that go through the middleware one after the other, each with an endpoint of its
  own; an endpoint may hold whatever course it likes, and nested requests are part of that.
* `Visits.course` — such requests are a course themselves.
* `session_continues` — the session of a client along the way.
-/

namespace ClauseRouter

open Store (Happening IsIdentifier NeverIdle lastAccess lastLeft)

/-! ## Stores in a host -/

namespace Host

variable {host later : Host} {number : Nat} {store after : Store} {id asked : Bytes} {isNew : Bool}
  {happenings others : List Happening}

lemma stores_sweep (there : host.stores[number]? = some store) :
    (host.sweep number).stores[number]? = some (store.sweep host.now) := by
  simp [sweep, List.getElem?_modify_eq, there]

@[simp] lemma now_sweep (host : Host) (number : Nat) : (host.sweep number).now = host.now := rfl

@[simp] lemma words_sweep (host : Host) (number : Nat) :
    (host.sweep number).words = host.words := rfl

/-- The host after a store has answered a request for a session. -/
def answered (host : Host) (number : Nat) (answer : Store.Obtained) : Host :=
  { host with words := answer.words, stores := host.stores.set number answer.store }

lemma stores_answered (there : host.stores[number]? = some store) (answer : Store.Obtained) :
    (host.answered number answer).stores[number]? = some answer.store := by
  have inside : number < host.stores.length := (List.getElem?_eq_some_iff.mp there).1
  exact List.getElem?_set_self inside

/-- A host answers what its store answers. -/
lemma obtain?_eq (there : host.stores[number]? = some store) (asked : Bytes) :
    host.obtain? number asked = (store.obtain? host.now host.words asked).map fun answer =>
      (answer.id, answer.isNew, host.answered number answer) := by
  simp only [obtain?, there, Option.bind_eq_bind, Option.bind_some]
  cases store.obtain? host.now host.words asked <;> rfl

/-- The values of a session are those that its store has. -/
lemma sessionValues?_eq_some {values : Dict Bytes} :
    host.sessionValues? ⟨number, id⟩ = some values ↔
      ∃ store s, host.stores[number]? = some store ∧ store.sessions.get? id = some s ∧
        s.values = values := by
  simp [sessionValues?, Option.bind_eq_some_iff]

/-- **A stretch of time in the life of a store,** between two states of its host. -/
def Course (number : Nat) (host : Host) (happenings : List Happening) (later : Host) : Prop :=
  ∃ store after, host.stores[number]? = some store ∧ later.stores[number]? = some after ∧
    store.Course host.now happenings later.now after

namespace Course

lemma refl (there : host.stores[number]? = some store) : Course number host [] host :=
  ⟨store, store, there, there, .start⟩

lemma trans {middle : Host} (first : Course number host happenings middle)
    (second : Course number middle others later) :
    Course number host (happenings ++ others) later := by
  obtain ⟨store, between, there, reached, first⟩ := first
  obtain ⟨between', after, reached', left, second⟩ := second
  obtain rfl : between = between' := Option.some.inj (reached.symm.trans reached')
  exact ⟨store, after, there, left, first.trans second⟩

lemma arrives (course : Course number host happenings later) :
    ∃ after, later.stores[number]? = some after := by
  obtain ⟨_, after, _, reached, _⟩ := course
  exact ⟨after, reached⟩

/-- Time passes, and what happens is none of the store's business. -/
lemma wait {middle : Host} (course : Course number host happenings middle)
    (passes : middle.now ≤ later.now) (untouched : later.stores[number]? = middle.stores[number]?) :
    Course number host happenings later := by
  obtain ⟨store, after, there, reached, course⟩ := course
  exact ⟨store, after, there, untouched.trans reached, course.wait passes⟩

/-- The store is swept and asked for a session. -/
lemma ask (there : host.stores[number]? = some store)
    (found : (host.sweep number).obtain? number asked = some (id, isNew, later)) :
    Course number host [.asked host.now asked] later := by
  have swept := stores_sweep there
  rw [obtain?_eq swept, Option.map_eq_some_iff] at found
  obtain ⟨answer, obtained, same⟩ := found
  cases same
  exact ⟨store, answer.store, there, stores_answered swept answer, Store.Course.start.sweep.ask obtained⟩

/-- The values of a session are changed. -/
lemma remember {values : Dict Bytes} (held : host.sessionValues? ⟨number, id⟩ = some values)
    (change : Dict Bytes → Dict Bytes) :
    Course number host [.left id (change values)] (host.updateSession ⟨number, id⟩ change) := by
  obtain ⟨store, s, there, stored, rfl⟩ := sessionValues?_eq_some.mp held
  refine ⟨store, _, there, ?_, Store.Course.start.leave id (change s.values)⟩
  simp [updateSession, List.getElem?_modify_eq, there, Store.update, stored]

/-- **A session that has been used is what its store answers with,** and has the values last left in
it. -/
lemma finds (course : Course number host happenings later) (there : host.stores[number]? = some store)
    (opened : store.sessions.get? id = some ⟨id, host.now, .empty⟩)
    (neverIdle : NeverIdle id store.timeout host.now (happenings ++ [.asked later.now id])) :
    ∃ entry, (later.sweep number).obtain? number id = some (id, false, entry) ∧
      entry.sessionValues? ⟨number, id⟩ = some (lastLeft id happenings) := by
  obtain ⟨store', after, there', reached, course⟩ := course
  obtain rfl : store = store' := Option.some.inj (there.symm.trans there')
  obtain ⟨earlier, last⟩ := Store.neverIdle_append_singleton.mp neverIdle
  have keeps := course.keeps opened earlier
  have inTime := last later.now rfl
  rw [← course.timeout_eq] at inTime
  have swept := stores_sweep reached
  obtain ⟨answer, obtained, finds⟩ := Store.obtain?_of_live (keeps.sweep.live inTime) later.words
  refine ⟨(later.sweep number).answered number answer, ?_, ?_⟩
  · rw [obtain?_eq swept, now_sweep, words_sweep, obtained, ← finds.same, ← finds.isOld]
    rfl
  · exact sessionValues?_eq_some.mpr ⟨_, _, stores_answered swept answer, finds.refreshed, rfl⟩

end Course

/-- **A request for a session that is not live gets a new one,** if one of the random words spells an
identifier that is not in use after the sweep. -/
lemma obtain?_of_stranger (there : host.stores[number]? = some store)
    (stranger : ¬ ∃ s, store.Live host.now asked s) {word : UInt64} (mem : word ∈ host.words)
    (unused : (store.sweep host.now).sessions.get? (Store.spell word) = none) :
    ∃ id entry opened, (host.sweep number).obtain? number asked = some (id, true, entry) ∧
      IsIdentifier id ∧ (store.sweep host.now).sessions.get? id = none ∧
      entry.now = host.now ∧ entry.stores[number]? = some opened ∧
      opened.timeout = store.timeout ∧
      opened.sessions.get? id = some ⟨id, host.now, .empty⟩ := by
  have swept := stores_sweep there
  have absent : (store.sweep host.now).sessions.get? asked = none := by
    rw [Option.eq_none_iff_forall_ne_some]
    intro s left
    exact stranger ⟨s, Store.get?_sweep_eq_some.mp left⟩
  have alone : (store.sweep host.now).without asked = store.sweep host.now := by
    rw [Store.without, Dict.erase_of_get?_eq_none _ absent]
  have stale : ¬ ∃ s, (store.sweep host.now).Live host.now asked s := by
    rintro ⟨s, stored, -⟩
    rw [absent] at stored
    cases stored
  obtain ⟨fresh, rest, drawn⟩ := Store.exists_draw? mem unused
  rw [← alone] at drawn
  obtain ⟨answer, obtained, same, opens⟩ := Store.obtain?_of_not_live stale drawn
  refine ⟨answer.id, (host.sweep number).answered number answer, answer.store, ?_, opens.identifier,
    ?_, rfl, stores_answered swept answer, opens.timeout, opens.empty⟩
  · rw [obtain?_eq swept, now_sweep, words_sweep, obtained, ← opens.isNew]
    rfl
  · rw [← alone]
    exact opens.fresh

end Host

/-! ## One request -/

namespace Middleware

/-- **What the middleware does with a request.**  The endpoint gets the request with the session that
the swept store gives, and only the reply with a new session is changed. -/
lemma around_sessions (cookie : Bytes) (number : Nat) (endpoint : Endpoint) (request : Request)
    (host : Host) :
    around (sessions cookie number) endpoint request host =
      match (host.sweep number).obtain? number (request.sessionId cookie) with
      | none => ⟨.error .noFreshId, host, []⟩
      | some (id, isNew, entry) =>
        let outcome := endpoint { request with session := some ⟨number, id⟩ } entry
        { outcome with
          value :=
            if isNew then outcome.value.map fun response => response.offerSession cookie id
            else outcome.value } := by
  simp only [around, sessions, Relay.run]
  cases found : (host.sweep number).obtain? number (request.sessionId cookie) with
  | none => simp [bind, pure, Hosted.host, Hosted.modify, Relay.run, found]
  | some triple => simp [bind, pure, Hosted.host, Hosted.modify, Relay.run, found]

end Middleware

/-! ## Many requests -/

/-- **Requests that go through the middleware** one after the other.  Between two of them time passes,
and anything may happen that leaves the store alone.  A request that no identifier could be drawn for
leaves the host as it was, so there is nothing to say of it. -/
inductive Visits (cookie : Bytes) (number : Nat) (host : Host) : List Happening → Host → Prop
  | start : Visits cookie number host [] host
  | wait {happenings : List Happening} {reached later : Host} :
      Visits cookie number host happenings reached → reached.now ≤ later.now →
        later.stores[number]? = reached.stores[number]? →
          Visits cookie number host happenings later
  | visit {happenings inner : List Happening} {reached entry : Host} {endpoint : Endpoint}
      {request : Request} {id : Bytes} {isNew : Bool} :
      Visits cookie number host happenings reached →
        (reached.sweep number).obtain? number (request.sessionId cookie) = some (id, isNew, entry) →
          Host.Course number entry inner
            (endpoint { request with session := some ⟨number, id⟩ } entry).host →
            Visits cookie number host
              (happenings ++ .asked reached.now (request.sessionId cookie) :: inner)
              (Middleware.around (Middleware.sessions cookie number) endpoint request reached).host

variable {cookie : Bytes} {number : Nat} {host later : Host} {store : Store}
  {happenings : List Happening}

/-- **Requests are a course** of the store. -/
lemma Visits.course (there : host.stores[number]? = some store)
    (visits : Visits cookie number host happenings later) :
    Host.Course number host happenings later := by
  induction visits with
  | start => exact .refl there
  | wait _ passes untouched ih => exact ih.wait passes untouched
  | @visit happenings inner reached entry endpoint request id isNew visits found own ih =>
      obtain ⟨between, arrived⟩ := ih.arrives
      have entered := Host.Course.ask arrived found
      have passed := (ih.trans entered).trans own
      rw [Middleware.around_sessions, found]
      simpa using passed

/-- An identifier can be read back from a cookie. -/
lemma Cookie.isValue_of_isIdentifier {id : Bytes} (identifier : IsIdentifier id) :
    Cookie.IsValue id where
  noSemicolon mem := by
    have digit := identifier.digits _ mem
    revert digit
    decide
  last b last := by
    have digit := identifier.digits b (List.mem_of_getLast? last)
    rw [Bool.eq_false_iff]
    intro blank
    rw [Bytes.isBlank, Bool.or_eq_true, beq_iff_eq, beq_iff_eq] at blank
    rcases blank with rfl | rfl <;> exact absurd digit (by decide)

/-- **A session goes on from one request to the next.**  A request that does not name a live session
reaches the endpoint with a new session without values, and the reply is the endpoint's with the cookie
set.

After that the endpoint may hold any course of its own, and any further requests may follow.  As long
as the session is never idle for too long, a request with the cookie reaches its endpoint with the same
session and the values last left in it, and the reply is the endpoint's. -/
theorem session_continues (isName : Cookie.IsName cookie)
    (there : host.stores[number]? = some store) {request : Request}
    (stranger : ¬ ∃ s, store.Live host.now (request.sessionId cookie) s) {word : UInt64}
    (mem : word ∈ host.words)
    (unused : (store.sweep host.now).sessions.get? (Store.spell word) = none) (endpoint : Endpoint) :
    ∃ id entry outcome, outcome = endpoint { request with session := some ⟨number, id⟩ } entry ∧
      IsIdentifier id ∧ (store.sweep host.now).sessions.get? id = none ∧
      entry.now = host.now ∧ entry.sessionValues? ⟨number, id⟩ = some .empty ∧
      Middleware.around (Middleware.sessions cookie number) endpoint request host
        = { outcome with
            value := outcome.value.map fun response =>
              { response with
                headers := response.headers.set (ascii "set-cookie")
                  (cookie ++ ascii "=" ++ id ++ ascii "; Path=/; HttpOnly") } } ∧
      ∀ own between later, Host.Course number entry own outcome.host →
        Visits cookie number outcome.host between later →
          NeverIdle id store.timeout host.now (own ++ between ++ [.asked later.now id]) →
            ∀ (endpoint : Endpoint) (request : Request),
              Cookie.FirstPair (request.header (ascii "cookie")) cookie id →
                ∃ entry, entry.sessionValues? ⟨number, id⟩ = some (lastLeft id (own ++ between)) ∧
                  Middleware.around (Middleware.sessions cookie number) endpoint request later
                    = endpoint { request with session := some ⟨number, id⟩ } entry := by
  obtain ⟨id, entry, opened, found, identifier, fresh, now, entered, timeout, empty⟩ :=
    Host.obtain?_of_stranger there stranger mem unused
  refine ⟨id, entry, _, rfl, identifier, fresh, now,
    Host.sessionValues?_eq_some.mpr ⟨opened, _, entered, empty, rfl⟩, ?_, ?_⟩
  · rw [Middleware.around_sessions, found]
    rfl
  intro own between later course visits neverIdle endpoint request first
  have named : request.sessionId cookie = id :=
    Cookie.value_of_firstPair isName (Cookie.isValue_of_isIdentifier identifier) first
  obtain ⟨left, reached⟩ := course.arrives
  rw [← timeout, ← now] at neverIdle
  rw [← now] at empty
  obtain ⟨again, back, values⟩ := (course.trans (visits.course reached)).finds entered empty neverIdle
  refine ⟨again, values, ?_⟩
  rw [Middleware.around_sessions, named, back]
  rfl

/-- A client comes at second 1000 and its name is kept in its new session.  When it comes back at second
1300 with the cookie that it was sent, the name is there. -/
theorem session_continues_of_return :
    let middleware := Middleware.sessions (ascii "sid") 0
    let greeter : Application :=
      { handler := some (.remember fun values => values.set (ascii "user") (ascii "ann")) }
    let first := middleware.around greeter.dispatch {} ⟨1000, [7], [{ timeout := 300 }]⟩
    ∃ id, ∀ (endpoint : Endpoint) (request : Request),
      request.header (ascii "cookie") = Cookie.session (ascii "sid") id →
        ∃ entry, entry.sessionValues? ⟨0, id⟩
            = some (Dict.empty.set (ascii "user") (ascii "ann")) ∧
          middleware.around endpoint request { first.host with now := 1300 }
            = endpoint { request with session := some ⟨0, id⟩ } entry := by
  intro middleware greeter first
  have isName : Cookie.IsName (ascii "sid") := by
    refine ⟨by decide, by decide, fun b first => ?_⟩
    have head : (ascii "sid").head? = some 0x73 := by decide
    rw [head, Option.mem_some_iff] at first
    rw [← first]
    decide
  have stranger : ¬ ∃ s, Store.Live { timeout := 300 } 1000 (Request.sessionId {} (ascii "sid")) s := by
    rintro ⟨s, stored, -⟩
    rw [Dict.get?_empty] at stored
    cases stored
  have unused : (Store.sweep { timeout := 300 } 1000).sessions.get? (Store.spell 7) = none := rfl
  obtain ⟨id, entry, outcome, reached, -, -, now, empty, answered, goesOn⟩ :=
    @session_continues (ascii "sid") 0 ⟨1000, [7], [{ timeout := 300 }]⟩ { timeout := 300 } isName rfl
      {} stranger 7 (List.mem_singleton_self 7) unused greeter.dispatch
  have hosts : first.host = outcome.host := by
    show (Middleware.around _ _ _ _).host = _
    rw [answered]
  have own := Host.Course.remember empty fun values => values.set (ascii "user") (ascii "ann")
  have left : outcome.host
      = entry.updateSession ⟨0, id⟩ fun values => values.set (ascii "user") (ascii "ann") := by
    rw [reached]
    rfl
  rw [← left] at own
  have later : Visits (ascii "sid") 0 outcome.host [] { outcome.host with now := 1300 } := by
    refine Visits.start.wait ?_ rfl
    rw [left]
    show entry.now ≤ 1300
    rw [now]
    decide
  have neverIdle : NeverIdle id 300 1000
      ([] ++ [.left id (Dict.empty.set (ascii "user") (ascii "ann"))] ++ [.asked 1300 id]) := by
    rw [Store.neverIdle_append_singleton, Store.neverIdle_append_singleton]
    refine ⟨⟨Store.neverIdle_nil, fun _ asked => by cases asked⟩, fun _ asked => ?_⟩
    cases asked
    show UInt64.toNat 1300 ≤ UInt64.toNat 1000 + UInt64.toNat 300
    decide
  refine ⟨id, fun endpoint request back => ?_⟩
  have pair : Cookie.FirstPair (request.header (ascii "cookie")) (ascii "sid") id :=
    back ▸ Cookie.firstPair_session _ _
  obtain ⟨again, values, continued⟩ := goesOn _ _ _ own later neverIdle endpoint request pair
  refine ⟨again, ?_, ?_⟩
  · rw [values]
    simp [lastLeft, Happening.left?]
  · rw [hosts]
    exact continued

end ClauseRouter
