import Mathlib.Tactic.Lemma
import ClauseRouter.Application.Basic

/-!
# Handler code that keeps to something

Some properties hold of all handler code, others only where the code leaves certain things alone.  What
it has to leave alone is read off the tree.

* `Conduct` — what code may do and see.
* `Program.Obeys` — a program keeps to a conduct, whatever it sees, captures and catches.
* `Program.Forwards` — no attempt in a program catches the signal of a commit.
* `Program.obeys_unlimited` — every program keeps to a conduct that asks for nothing else than to
  forward the signal, or not even that.

Conditions and the names of an application are handler code as well.
-/

namespace ClauseRouter

/-- What code may do, and what it may come to see. -/
structure Conduct where
  /-- The changes of the request that code may make. -/
  amends : (Request → Request) → Prop
  /-- What code may come to see. -/
  sees : View → Prop
  /-- Whether code may swallow the signal of a commit. -/
  swallows : Prop

/-- The conduct without limits, but perhaps on whether the signal of a commit is swallowed. -/
def Conduct.unlimited (swallows : Prop) : Conduct := ⟨fun _ => True, fun _ => True, swallows⟩

mutual

/-- A program keeps to a conduct. -/
def Program.Obeys (conduct : Conduct) : Program → Prop
  | .seq first second => first.Obeys conduct ∧ second.Obeys conduct
  | .observe next => ∀ view, conduct.sees view → (next view).Obeys conduct
  | .amend change => conduct.amends change
  | .on clause body => allObey conduct clause ∧ ∀ found, (body found).Obeys conduct
  | .probe condition next => condition.Obeys conduct ∧ ∀ report, (next report).Obeys conduct
  | .attempt body scope recover =>
    body.Obeys conduct ∧ (scope = .everything → conduct.swallows) ∧
      ∀ caught, (recover caught).Obeys conduct
  | .answer _ | .respond _ | .remember _ | .trace _ | .raise _ | .halt _ | .delegate _ => True

/-- The code of a condition keeps to a conduct. -/
def Condition.Obeys (conduct : Conduct) : Condition → Prop
  | .check code => code.Obeys conduct
  | .template _ | .regex _ | .anySegment | .truth _ | .verb _ | .host _ | .hostPattern _
  | .extension _ | .parameter _ | .header _ | .accept _ | .named _ _ | .unset => True

/-- The code of a clause keeps to a conduct. -/
def allObey (conduct : Conduct) : List Condition → Prop
  | [] => True
  | condition :: rest => condition.Obeys conduct ∧ allObey conduct rest

end

mutual

/-- No attempt in a program catches the signal of a commit. -/
def Program.Forwards : Program → Prop
  | .seq first second => first.Forwards ∧ second.Forwards
  | .observe next => ∀ view, (next view).Forwards
  | .on clause body => allForward clause ∧ ∀ found, (body found).Forwards
  | .probe condition next => condition.Forwards ∧ ∀ report, (next report).Forwards
  | .attempt body scope recover =>
    body.Forwards ∧ scope = .faults ∧ ∀ caught, (recover caught).Forwards
  | .answer _ | .respond _ | .amend _ | .remember _ | .trace _ | .raise _ | .halt _ | .delegate _ => True

/-- No attempt in the code of a condition does. -/
def Condition.Forwards : Condition → Prop
  | .check code => code.Forwards
  | .template _ | .regex _ | .anySegment | .truth _ | .verb _ | .host _ | .hostPattern _
  | .extension _ | .parameter _ | .header _ | .accept _ | .named _ _ | .unset => True

/-- No attempt in the code of a clause does. -/
def allForward : List Condition → Prop
  | [] => True
  | condition :: rest => condition.Forwards ∧ allForward rest

end

namespace Application

/-- The conditions that an application knows by name keep to a conduct. -/
def Obeys (conduct : Conduct) (app : Application) : Prop :=
  ∀ name condition, app.names.get? name = some condition →
    ∀ argument, (condition argument).Obeys conduct

/-- No condition that an application knows by name catches the signal of a commit. -/
def Forwards (app : Application) : Prop :=
  ∀ name condition, app.names.get? name = some condition → ∀ argument, (condition argument).Forwards

end Application

/-! ## Wider conducts -/

/-- What obeys a conduct obeys every wider one: it may do no more, and sees no less. -/
structure Conduct.Within (conduct wider : Conduct) : Prop where
  amends : ∀ change, conduct.amends change → wider.amends change
  sees : ∀ view, wider.sees view → conduct.sees view
  swallows : conduct.swallows → wider.swallows

section

variable {conduct wider : Conduct}

mutual

lemma Program.Obeys.mono (within : conduct.Within wider) :
    ∀ {program : Program}, program.Obeys conduct → program.Obeys wider
  | .seq _ _, h => ⟨h.1.mono within, h.2.mono within⟩
  | .observe _, h => fun view seen => (h view (within.sees view seen)).mono within
  | .amend change, h => within.amends change h
  | .on _ _, h => ⟨allObey_mono within h.1, fun found => (h.2 found).mono within⟩
  | .probe _ _, h => ⟨h.1.mono within, fun report => (h.2 report).mono within⟩
  | .attempt _ _ _, h =>
      ⟨h.1.mono within, fun everything => within.swallows (h.2.1 everything),
        fun caught => (h.2.2 caught).mono within⟩
  | .answer _, _ | .respond _, _ | .remember _, _ | .trace _, _ | .raise _, _ | .halt _, _
  | .delegate _, _ => trivial

lemma Condition.Obeys.mono (within : conduct.Within wider) :
    ∀ {condition : Condition}, condition.Obeys conduct → condition.Obeys wider
  | .check code, h =>
      have obeys : code.Obeys conduct := h
      obeys.mono within
  | .template _, _ | .regex _, _ | .anySegment, _ | .truth _, _ | .verb _, _ | .host _, _
  | .hostPattern _, _ | .extension _, _ | .parameter _, _ | .header _, _ | .accept _, _
  | .named _ _, _ | .unset, _ => trivial

lemma allObey_mono (within : conduct.Within wider) :
    ∀ {clause : List Condition}, allObey conduct clause → allObey wider clause
  | [], _ => trivial
  | _ :: _, h => ⟨h.1.mono within, allObey_mono within h.2⟩

end

lemma Application.Obeys.mono (within : conduct.Within wider) {app : Application}
    (h : app.Obeys conduct) : app.Obeys wider :=
  fun name condition known argument => (h name condition known argument).mono within

end

/-! ## Code without limits -/

section

variable {swallows : Prop}

mutual

/-- **Every program that forwards the signal of a commit** keeps to the conduct that asks for this only;
where it may be swallowed, every program does. -/
lemma Program.obeys_unlimited :
    ∀ program : Program, swallows ∨ program.Forwards → program.Obeys (.unlimited swallows)
  | .seq first second, h =>
      ⟨first.obeys_unlimited (h.imp_right And.left), second.obeys_unlimited (h.imp_right And.right)⟩
  | .observe next, h => fun view _ => (next view).obeys_unlimited (h.imp_right (· view))
  | .on clause body, h =>
      ⟨allObey_unlimited clause (h.imp_right And.left),
        fun found => (body found).obeys_unlimited (h.imp_right (·.2 found))⟩
  | .probe condition next, h =>
      ⟨condition.obeys_unlimited (h.imp_right And.left),
        fun report => (next report).obeys_unlimited (h.imp_right (·.2 report))⟩
  | .attempt body scope recover, h => by
      refine ⟨body.obeys_unlimited (h.imp_right And.left), fun everything => ?_,
        fun caught => (recover caught).obeys_unlimited (h.imp_right (·.2.2 caught))⟩
      rcases h with swallow | ⟨_, rfl, _⟩
      · exact swallow
      · cases everything
  | .amend _, _ | .answer _, _ | .respond _, _ | .remember _, _ | .trace _, _ | .raise _, _
  | .halt _, _ | .delegate _, _ => trivial

/-- So does every condition. -/
lemma Condition.obeys_unlimited :
    ∀ condition : Condition, swallows ∨ condition.Forwards → condition.Obeys (.unlimited swallows)
  | .check code, h => code.obeys_unlimited h
  | .template _, _ | .regex _, _ | .anySegment, _ | .truth _, _ | .verb _, _ | .host _, _
  | .hostPattern _, _ | .extension _, _ | .parameter _, _ | .header _, _ | .accept _, _
  | .named _ _, _ | .unset, _ => trivial

/-- So does every clause. -/
lemma allObey_unlimited :
    ∀ clause : List Condition, swallows ∨ allForward clause → allObey (.unlimited swallows) clause
  | [], _ => trivial
  | condition :: rest, h =>
      ⟨condition.obeys_unlimited (h.imp_right And.left), allObey_unlimited rest (h.imp_right And.right)⟩

end

lemma Application.obeys_unlimited {app : Application} (h : swallows ∨ app.Forwards) :
    app.Obeys (.unlimited swallows) :=
  fun name condition known argument =>
    (condition argument).obeys_unlimited (h.imp_right (· name condition known argument))

end

end ClauseRouter
