import ClauseRouter.Dict

/-!
# Forms

Query strings and form bodies are lists of `key=value` pairs joined by `&`, in which a byte may be
written as `%` and two hexadecimal digits, and a blank as `+`.

* `Form.decode` — undoes that spelling; a `%` without two digits after it stands for itself.
* `Form.pairs` — the pairs of a form, in order.  A pair without `=` has the empty value, and nothing
  between two `&` is no pair.
-/

namespace ClauseRouter.Form

/-- Undoes the spelling of one key or value. -/
def decode : Bytes → Bytes
  | [] => []
  | Byte.plus :: rest => Byte.space :: decode rest
  | Byte.percent :: high :: low :: rest =>
    match Bytes.hexValue? high, Bytes.hexValue? low with
    | some h, some l => UInt8.ofNat (16 * h + l) :: decode rest
    | _, _ => Byte.percent :: decode (high :: low :: rest)
  | b :: rest => b :: decode rest

/-- A pair with its key and value decoded. -/
def pair (text : Bytes) : Bytes × Bytes :=
  match Bytes.cut? Byte.equals text with
  | some (key, value) => (decode key, decode value)
  | none => (decode text, [])

/-- The pairs of a form, in order. -/
def pairs (form : Bytes) : List (Bytes × Bytes) :=
  ((Bytes.split Byte.ampersand form).filter fun text => !text.isEmpty).map pair

/-- Lays the pairs of a form over parameters; of pairs with one key the last counts. -/
def addTo (params : Dict Bytes) (form : Bytes) : Dict Bytes := params.putAll (pairs form)

end ClauseRouter.Form
