import Mathlib.Tactic.Lemma
import ClauseRouter.Dispatch.Perform

/-!
# The built-in matchers

Most conditions run no code of the handler.  They are prepared to one of a few kinds of matchers, so what
is to be shown of all of them is shown of these.

* `Condition.IsCodeless` — conditions that run no handler code; `Condition.mediaType?` is the media type
  that one of them may set.
* `Matcher.Builtin` — the kinds of matchers.
* `Condition.builtin` — what such conditions are prepared to.
-/

namespace ClauseRouter

namespace Condition

/-- Conditions that run no handler code: neither a predicate nor what the application has named. -/
def IsCodeless : Condition → Prop
  | .check _ | .named _ _ => False
  | .template _ | .regex _ | .anySegment | .truth _ | .verb _ | .host _ | .hostPattern _
  | .extension _ | .parameter _ | .header _ | .accept _ | .unset => True

/-- The media type that a condition gives to the response where it passes. -/
def mediaType? : Condition → Option Bytes
  | .accept mediaType => some mediaType
  | .template _ | .regex _ | .anySegment | .truth _ | .verb _ | .host _ | .hostPattern _
  | .extension _ | .parameter _ | .header _ | .named _ _ | .unset | .check _ => none

end Condition

lemma Matcher.eq_some_of_orMalformed {α : Type} {made : Option α} {a : α}
    (h : orMalformed made = .ok a) : made = some a := by
  cases made with
  | none => cases h
  | some b => cases h; rfl

/-- **The matchers that run no handler code,** with the media type that they may set. -/
inductive Matcher.Builtin : Option Bytes → Matcher → Prop
  | path (kind : MatcherKind) (pattern : Bytes) (test : PathTest) :
      Builtin none ⟨kind, pattern, .path test⟩
  | known (verdict : Bool) : Builtin none (.known verdict)
  | asking (question : Request → Bool) : Builtin none (.asking question)
  | parameter (key : Bytes) : Builtin none (.parameter key)
  | extension {source : Bytes} {matcher : Matcher} (made : extension? source = .ok matcher) :
      Builtin none matcher
  | accept (mediaType : Bytes) : Builtin (some mediaType) (.accept mediaType)

/-- **Conditions without code** are prepared to such matchers. -/
lemma Condition.builtin {env : Environment} {request : Request} :
    ∀ {condition : Condition} {matcher : Matcher}, condition.prepare env request = .ok matcher →
      condition.IsCodeless → matcher.Builtin condition.mediaType?
  | .template _, _, made, _ => by
      obtain ⟨test, _, h⟩ := Except.bind_eq_ok.mp made
      cases h
      exact .path _ _ test
  | .regex _, _, made, _ => by
      obtain ⟨_, _, h⟩ := Except.bind_eq_ok.mp made
      obtain ⟨test, _, h⟩ := Except.bind_eq_ok.mp h
      cases h
      exact .path _ _ test
  | .anySegment, _, made, _ => by cases made; exact .path _ _ .anySegment
  | .truth verdict, _, made, _ => by cases made; exact .known verdict
  | .verb _, _, made, _ => by cases made; exact .known _
  | .host _, _, made, _ => by cases made; exact .known _
  | .hostPattern _, _, made, _ => by
      obtain ⟨_, _, h⟩ := Except.bind_eq_ok.mp made
      cases h
      exact .known _
  | .extension _, _, made, _ => .extension made
  | .parameter key, _, made, _ => by cases made; exact .parameter key
  | .header _, _, made, _ => by cases made; exact .asking _
  | .accept mediaType, _, made, _ => by cases made; exact .accept mediaType
  | .unset, _, made, _ => by cases made; exact .asking _

end ClauseRouter
