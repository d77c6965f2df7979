import ClauseRouter.Proofs.Dispatch.Composition

/-!
# Routes that part ways

Two plain templates part ways if at one place both have text, and not the same text.  No path goes on with
instances of both of them, so of two clauses that ask for the one and for the other at most one enters its
body.

A template that does not fit leaves no trace but in the history: the clause has cleared the live captures,
and the next one would have cleared them anyway (`Frame.tryClause_running`).  So it makes no difference
in which order the two clauses stand.

* `Template.Diverge` — two templates part ways.
* `Cursor.rejected_of_diverge` — a path that one of them fits does not fit the other.
* `Application.divergent_routes_commute` — the rule for clauses, and for whatever follows them.
-/

namespace ClauseRouter

open ClauseRouter.Frame (Alike Likewise Blind)

/-! ## Paths -/

namespace Template

/-- **Two templates part ways:** there is a place where both have text, and not the same. -/
def Diverge (s t : Bytes) : Prop :=
  ∃ (place : Nat) (text other : Bytes), (parts s)[place]? = some (.literal text) ∧
    (parts t)[place]? = some (.literal other) ∧ text ≠ other

lemma Diverge.symm {s t : Bytes} (diverge : Diverge s t) : Diverge t s := by
  obtain ⟨place, text, other, here, here', different⟩ := diverge
  exact ⟨place, other, text, here', here, different.symm⟩

/-- Where two lists of parts take from one path, their texts at one place are the same segment. -/
lemma literal_eq_of_takeParts {place : Nat} {text other : Bytes} {parts parts' : List Part}
    {path : Bytes} {taking taking' : Captures × Bytes × Bytes}
    (took : takeParts parts path = some taking) (took' : takeParts parts' path = some taking')
    (here : parts[place]? = some (.literal text)) (here' : parts'[place]? = some (.literal other)) :
    text = other := by
  induction place generalizing parts parts' path taking taking' with
  | zero =>
      rw [← List.head?_eq_getElem?] at here here'
      obtain ⟨rest, rfl⟩ := List.head?_eq_some_iff.mp here
      obtain ⟨rest', rfl⟩ := List.head?_eq_some_iff.mp here'
      obtain ⟨segment, behind, _, _, rfl, whole, boundary, fits, _⟩ := takeParts_cons_iff.mp took
      rw [List.cons_append, takeParts_slash, (segment_append whole boundary).1] at took'
      split at took'
      · rename_i fits'
        have first : segment = text := by simpa [Part.accepts] using fits
        have second : segment = other := by simpa [Part.accepts] using fits'
        exact first.symm.trans second
      · cases took'
  | succ place ih =>
      cases parts with
      | nil => cases here
      | cons part parts =>
          cases parts' with
          | nil => cases here'
          | cons part' parts' =>
              obtain ⟨segment, behind, _, _, rfl, whole, boundary, _, others, _⟩ :=
                takeParts_cons_iff.mp took
              rw [List.cons_append, takeParts_slash, (segment_append whole boundary).2] at took'
              split at took'
              · obtain ⟨_, others', _⟩ := Option.map_eq_some_iff.mp took'
                exact ih others others' here here'
              · cases took'

end Template

namespace Cursor

lemma exists_takeParts {parts : List Part} {c after : Cursor} {found : Captures}
    (taken : c.consumeParts parts = .taken found after) :
    ∃ taking, takeParts parts c.remaining = some taking := by
  unfold consumeParts at taken
  split at taken
  · cases taken
  · split at taken
    · cases taken
    · rename_i took
      exact ⟨_, took⟩

/-- **A path that a template fits does not fit one that parts ways with it.** -/
lemma rejected_of_diverge {s t : Bytes} (diverge : Template.Diverge s t) {c after : Cursor}
    {found : Captures} (taken : c.consumeParts (Template.parts s) = .taken found after) :
    c.consumeParts (Template.parts t) = .rejected := by
  obtain ⟨place, text, other, here, here', different⟩ := diverge
  rcases c.consumeParts_cases (Template.parts t) with rejected | ⟨found', after', taken'⟩
  · exact rejected
  · obtain ⟨_, took⟩ := exists_takeParts taken
    obtain ⟨_, took'⟩ := exists_takeParts taken'
    exact absurd (Template.literal_eq_of_takeParts took took' here here') different

end Cursor

/-! ## One program after the other -/

namespace Program

variable {env : Environment} {first second : Program} {frame after : Frame} {host : Host}

/-- Behind a program that comes to its end and does nothing to the host, the other one is run. -/
lemma perform_seq_of_returned {verdict : Bool}
    (ended : first.perform env frame host = ⟨(.returned verdict, after), host, []⟩) :
    (seq first second).perform env frame host = second.perform env after host := by
  simp only [perform, bind, ended]
  rfl

/-- A program that does not come to its end is the last that is run. -/
lemma perform_seq_of_left
    (left : ∀ verdict, (first.perform env frame host).value.1 ≠ .returned verdict) :
    (seq first second).perform env frame host = first.perform env frame host := by
  simp only [perform, bind]
  generalize first.perform env frame host = outcome at left ⊢
  obtain ⟨⟨ending, after⟩, host', lines⟩ := outcome
  cases ending with
  | returned verdict => exact absurd rfl (left verdict)
  | halted response => simp [pure]
  | faulted fault => simp [pure]

end Program

/-! ## Clauses of one template -/

/-- The frame behind a clause whose template did not fit. -/
def Frame.missed (frame : Frame) : Frame :=
  ((frame.openClause.note .tried).capture []).restore frame.request.cursor

lemma Frame.alike_missed (frame : Frame) : Alike False frame frame.missed :=
  ⟨rfl, rfl, rfl, False.elim⟩

section

variable {t : Bytes} {frame : Frame}

/-- A clause has cleared the live captures when its template is tried. -/
lemma Matcher.evaluateAll_opened_of_taken {found : Captures} {after : Cursor}
    (taken : frame.request.cursor.consumeParts (Template.parts t) = .taken found after) (host : Host) :
    evaluateAll [plain t] frame.openClause host
      = ⟨(.returned true,
          (((frame.openClause.note .tried).moveTo after).capture found).note .passed), host, []⟩ := by
  have opened : frame.openClause.request.cursor.consumeParts (Template.parts t)
      = .taken found after := taken
  exact evaluateAll_plain_of_taken opened host

lemma Matcher.evaluateAll_opened_of_rejected
    (rejected : frame.request.cursor.consumeParts (Template.parts t) = .rejected) (host : Host) :
    evaluateAll [plain t] frame.openClause host
      = ⟨(.returned false, (frame.openClause.note .tried).capture []), host, []⟩ := by
  have opened : frame.openClause.request.cursor.consumeParts (Template.parts t) = .rejected := rejected
  exact evaluateAll_plain_of_rejected opened host

variable (plain : Template.isPlain t)

include plain

/-- The one template of a clause decides. -/
lemma Condition.lead_plain (env : Environment) (request : Request) (frame : Frame) (host : Host) :
    Lead env request [.template t] frame host (Matcher.evaluateAll [Matcher.plain t] frame host) :=
  ⟨_, prepareAll_plain plain [], rfl⟩

/-- A clause whose template does not fit leaves next to nothing behind. -/
lemma Program.perform_on_of_rejected (running : frame.commitment = none)
    (rejected : frame.request.cursor.consumeParts (Template.parts t) = .rejected) (env : Environment)
    (host : Host) (body : Captures → Program) :
    (on [.template t] body).perform env frame host = ⟨(.returned false, frame.missed), host, []⟩ := by
  have led := Condition.lead_plain plain env frame.request frame.openClause host
  rw [Matcher.evaluateAll_opened_of_rejected rejected] at led
  exact perform_on_of_failed running led rfl body

/-- One whose template fits does not come to its end. -/
lemma Program.not_returned_of_taken (running : frame.commitment = none) {found : Captures}
    {after : Cursor}
    (taken : frame.request.cursor.consumeParts (Template.parts t) = .taken found after)
    (env : Environment) (host : Host) (body : Captures → Program) (verdict : Bool) :
    ((on [.template t] body).perform env frame host).value.1 ≠ .returned verdict := by
  intro returned
  obtain ⟨outcome, ⟨matchers, made, led⟩, failed⟩ := failed_of_returned running returned
  cases (prepareAll_plain plain []).symm.trans made
  rw [← led, Matcher.evaluateAll_opened_of_taken taken] at failed
  cases failed

/-- The stage at which such a clause enters its body: the template has moved the cursor, and what it
captured is all that has been captured. -/
lemma Application.entered?_plain (app : Application) (host : Host) :
    (app.entered? [.template t] frame host).map (·.2.toStage)
      = match frame.request.cursor.consumeParts (Template.parts t) with
        | .taken found cursor =>
          some { frame.toStage with captures := found, request := { frame.request with cursor } }
        | _ => none := by
  have made : prepareAll app.environment frame.request [.template t] = .ok [Matcher.plain t] :=
    prepareAll_plain plain []
  simp only [entered?, made, Frame.chosen?]
  rcases frame.request.cursor.consumeParts_cases (Template.parts t) with
    rejected | ⟨found, after, taken⟩
  · rw [Matcher.evaluateAll_opened_of_rejected rejected, rejected]
    rfl
  · rw [Matcher.evaluateAll_opened_of_taken taken, taken]
    rfl

end

/-- **In a running frame a clause does not go by the live captures,** whatever its matchers and its body
go by: it begins by clearing them. -/
lemma Frame.tryClause_running {matchers : List Matcher} (blind : ∀ m ∈ matchers, m.Blind True)
    {body : Captures → Frame → Hosted (Ending × Frame)} (bodies : ∀ found, Blind True (body found))
    {frame other : Frame} (running : other.commitment = none) (alike : Alike False frame other) :
    Hosted.Agree (Likewise True) (frame.tryClause matchers body) (other.tryClause matchers body) := by
  have running' : frame.commitment = none := alike.commitment.trans running
  have opened : frame.openClause = Frame.openClause { frame with captures := other.captures } := rfl
  have cleared : frame.tryClause matchers body
      = Frame.tryClause { frame with captures := other.captures } matchers body := by
    simp only [tryClause, running', opened]
  rw [cleared]
  exact tryClause_alike blind bodies _ _
    ⟨alike.request, alike.response, alike.commitment, fun _ => rfl⟩

namespace Application

variable (app : Application) {s t : Bytes} {frame : Frame}

/-- So a clause of a template does the same behind one whose template did not fit. -/
lemma perform_on_missed (plain : Template.isPlain s) (running : frame.commitment = none)
    (body : Captures → Program) :
    Hosted.Agree (Likewise True) ((Program.on [.template s] body).perform app.environment frame)
      ((Program.on [.template s] body).perform app.environment frame.missed) := by
  have made : ∀ request, prepareAll app.environment request [.template s] = .ok [Matcher.plain s] :=
    fun _ => prepareAll_plain plain []
  have blind : ∀ m ∈ [Matcher.plain s], m.Blind True :=
    prepareAll_blind app.environment_blind _ (made frame.request)
  simp only [Program.perform, made]
  exact Frame.tryClause_running blind
    (fun found => (body found).perform_blind app.environment_blind (.inl trivial)) running
    frame.alike_missed

/-- **A clause whose template does not fit** can stand before or behind a clause of another template. -/
lemma perform_swap_of_rejected (plain : Template.isPlain s) (plain' : Template.isPlain t)
    (running : frame.commitment = none)
    (rejected : frame.request.cursor.consumeParts (Template.parts t) = .rejected)
    (first second : Captures → Program) :
    Hosted.Agree (Likewise True)
      ((Program.seq (.on [.template s] first) (.on [.template t] second)).perform app.environment frame)
      ((Program.seq (.on [.template t] second) (.on [.template s] first)).perform app.environment
        frame) := by
  intro host
  have stillRunning : frame.missed.commitment = none := running
  have missed := Program.perform_on_of_rejected plain' running rejected app.environment host second
  rw [Program.perform_seq_of_returned missed]
  rcases frame.request.cursor.consumeParts_cases (Template.parts s) with
    rejected' | ⟨found, after, taken⟩
  · -- neither fits, and both orders leave the same
    have missed' := Program.perform_on_of_rejected plain running rejected' app.environment host first
    rw [Program.perform_seq_of_returned missed',
      Program.perform_on_of_rejected plain' stillRunning rejected,
      Program.perform_on_of_rejected plain stillRunning rejected']
    exact ⟨⟨rfl, .refl _⟩, rfl, rfl⟩
  · rw [Program.perform_seq_of_left
      fun verdict => Program.not_returned_of_taken plain running taken _ host first verdict]
    exact app.perform_on_missed plain running first host

/-- So clauses of templates that part ways can change places. -/
lemma perform_swap (plain : Template.isPlain s) (plain' : Template.isPlain t)
    (diverge : Template.Diverge s t) (running : frame.commitment = none)
    (first second : Captures → Program) :
    Hosted.Agree (Likewise True)
      ((Program.seq (.on [.template s] first) (.on [.template t] second)).perform app.environment frame)
      ((Program.seq (.on [.template t] second) (.on [.template s] first)).perform app.environment
        frame) := by
  rcases frame.request.cursor.consumeParts_cases (Template.parts t) with
    rejected | ⟨found, after, taken⟩
  · exact app.perform_swap_of_rejected plain plain' running rejected first second
  · have rejected := Cursor.rejected_of_diverge diverge.symm taken
    exact (app.perform_swap_of_rejected plain' plain running rejected second first).symm Likewise.symm

/-- A clause of a template that returns is one whose template did not fit. -/
lemma perform_on_of_returned (plain : Template.isPlain s) (running : frame.commitment = none)
    {body : Captures → Program} {host : Host} {verdict : Bool}
    (returned : ((Program.on [.template s] body).perform app.environment frame host).value.1
      = .returned verdict) :
    (Program.on [.template s] body).perform app.environment frame host
      = ⟨(.returned false, frame.missed), host, []⟩ := by
  rcases frame.request.cursor.consumeParts_cases (Template.parts s) with
    rejected | ⟨found, after, taken⟩
  · exact Program.perform_on_of_rejected plain running rejected _ host body
  · exact absurd returned (Program.not_returned_of_taken plain running taken _ host body verdict)

/-- Two such clauses that come to their end have cleared the live captures. -/
lemma perform_seq_of_both_returned (plain : Template.isPlain s) (plain' : Template.isPlain t)
    (running : frame.commitment = none) {first second : Captures → Program} {host : Host}
    {verdict : Bool}
    (returned : ((Program.seq (.on [.template s] first) (.on [.template t] second)).perform
      app.environment frame host).value.1 = .returned verdict) :
    (Program.seq (.on [.template s] first) (.on [.template t] second)).perform app.environment frame host
      = ⟨(.returned false, frame.missed.missed), host, []⟩ := by
  rcases frame.request.cursor.consumeParts_cases (Template.parts s) with
    rejected | ⟨found, after, taken⟩
  · have missed := Program.perform_on_of_rejected plain running rejected app.environment host first
    rw [Program.perform_seq_of_returned missed] at returned ⊢
    have running' : frame.missed.commitment = none := running
    exact app.perform_on_of_returned plain' running' returned
  · have stays := Program.not_returned_of_taken plain running taken app.environment host first
    rw [Program.perform_seq_of_left stays] at returned
    exact absurd returned (stays verdict)

/-- **Routes that part ways can be reordered.**  Of two clauses that ask for plain templates with different
texts at one place, at most one enters its body, and at the same stage whether it stands first or behind
the other one.  In both orders they come to the same, and so does whatever follows them.  If they come to
their end, the request and the response are as they were. -/
theorem divergent_routes_commute (plain : Template.isPlain s) (plain' : Template.isPlain t)
    (diverge : Template.Diverge s t) (running : frame.commitment = none) (host : Host)
    (first second : Captures → Program) :
    let route := Program.on [.template s] first
    let other := Program.on [.template t] second
    let run (program : Program) := program.perform app.environment frame host
    let entered (text : Bytes) (frame : Frame) :=
      (app.entered? [.template text] frame host).map (·.2.toStage)
    let same (program program' : Program) :=
      (run program).value.1 = (run program').value.1 ∧
      (run program).value.2.toStage = (run program').value.2.toStage ∧
      (run program).host = (run program').host ∧ (run program).lines = (run program').lines
    (entered s frame = none ∨ entered t frame = none) ∧
    (∀ verdict, (run other).value.1 = .returned verdict →
      entered s (run other).value.2 = entered s frame) ∧
    (∀ verdict, (run route).value.1 = .returned verdict →
      entered t (run route).value.2 = entered t frame) ∧
    same (.seq route other) (.seq other route) ∧
    (∀ rest, same (.seq (.seq route other) rest) (.seq (.seq other route) rest)) ∧
    ∀ verdict, (run (.seq route other)).value.1 = .returned verdict →
      let after := (run (.seq route other)).value.2
      after.request = frame.request ∧ after.response = frame.response ∧ after.commitment = none ∧
        (run (.seq route other)).host = host ∧ (run (.seq route other)).lines = [] := by
  intro route other run entered same
  have swapped := app.perform_swap plain plain' diverge running first second
  have same_of {program program' : Program}
      (agree : Hosted.Agree (Likewise True) (program.perform app.environment frame)
        (program'.perform app.environment frame)) : same program program' := by
    obtain ⟨⟨endings, alike⟩, hosts, lines⟩ := agree host
    exact ⟨endings, alike.toStage_eq, hosts, lines⟩
  refine ⟨?once, ?behind, ?behind', same_of swapped, fun rest => same_of ?follows, ?returns⟩
  case once =>
    simp only [entered, entered?_plain plain app host, entered?_plain plain' app host]
    rcases frame.request.cursor.consumeParts_cases (Template.parts s) with
      rejected | ⟨found, after, taken⟩
    · exact .inl (by rw [rejected])
    · exact .inr (by rw [Cursor.rejected_of_diverge diverge taken])
  case behind =>
    intro verdict returned
    have missed := app.perform_on_of_returned plain' running returned
    simp only [entered, run, other, missed, entered?_plain plain app host]
    rfl
  case behind' =>
    intro verdict returned
    have missed := app.perform_on_of_returned plain running returned
    simp only [entered, run, route, missed, entered?_plain plain' app host]
    rfl
  case follows =>
    refine Likewise.bind swapped fun ending left left' alike => ?_
    dsimp only
    split
    · exact rest.perform_blind app.environment_blind (.inl trivial) _ _ alike
    · exact .pure ⟨rfl, alike⟩
  case returns =>
    intro verdict returned
    have missed := app.perform_seq_of_both_returned plain plain' running returned
    simp only [run, route, other, missed]
    exact ⟨rfl, rfl, running, trivial, trivial⟩

/-- The posts of a user, and the settings of whoever is logged in. -/
theorem divergent_routes_commute_of_users :
    let request : Request := { cursor := .atStart (ascii "/users/7/posts/3") }
    let posts := Program.on [.template (ascii "users/:id/posts")] fun found => .write found.flatten
    let settings := Program.on [.template (ascii "users/me/settings")] fun _ => .skip
    let body (program : Program) : Option Bytes :=
      (program.perform (environment {}) (.initial request) ⟨0, [], []⟩).value.2.commitment.map
        Response.body
    Template.Diverge (ascii "users/:id/posts") (ascii "users/me/settings") ∧
      body (.seq posts settings) = some (ascii "7") ∧ body (.seq settings posts) = some (ascii "7") := by
  intro request posts settings body
  have diverge : Template.Diverge (ascii "users/:id/posts") (ascii "users/me/settings") :=
    ⟨2, ascii "posts", ascii "settings", by decide, by decide, by decide⟩
  have running : (Frame.initial request).commitment = none := rfl
  have first : body (.seq posts settings) = some (ascii "7") := by decide +kernel
  obtain ⟨_, _, _, ⟨_, stages, _⟩, _⟩ :=
    divergent_routes_commute {} (by decide) (by decide) diverge running ⟨0, [], []⟩
      (fun found => .write found.flatten) fun _ => .skip
  have swapped := congrArg (fun stage : Stage => stage.commitment.map Response.body) stages
  exact ⟨diverge, first, swapped.symm.trans first⟩

end Application

end ClauseRouter
