import Chattice.Adapters.GoogleChat.Envelope

/-!
# Form inputs

Each widget of a submitted form has one of four known input variants, or an unknown one that is kept
as it is.
-/

namespace Chattice.GoogleChat

open Json Python

/-- What the parsers take from the standard library: `datetime.fromisoformat` (the instant, with no
offset for a naive value), `int` and `str.isdigit` on strings, base64, `json.loads` and UTF-8. `none`
is the documented exception. -/
structure Stdlib where
  fromisoformat : String → Option (Int × Option Int)
  int : String → Option Int
  isdigit : String → Bool
  b64decode : String → Option (List UInt8)
  loadsBytes : List UInt8 → Option Json
  loads : String → Option Json
  decode : List UInt8 → Option String

def knownInputs : List String := ["stringInputs", "dateInput", "dateTimeInput", "timeInput"]

/-- The message of a form input error: `Form input '{widget}'` and the rest. -/
def inputError (widget rest : String) : Exc :=
  .invalidInteractionPayload [.text "Form input ", .repr (.str widget), .text rest]

/-- `_epoch` -/
def epoch (lib : Stdlib) (widget : String) (body : Fields) : Except Exc Int :=
  match get body "msSinceEpoch" with
  | .int n => .ok n
  | .str s =>
    if lib.isdigit s then
      match lib.int s with
      | some n => .ok n
      | none => .error (.other "ValueError")
    else .error (inputError widget " requires integer-compatible msSinceEpoch")
  | _ => .error (inputError widget " requires integer-compatible msSinceEpoch")

/-- `_optional_bool` -/
def optionalBool (widget : String) (body : Fields) (key : String) : Except Exc (Option Bool) :=
  match get body key with
  | .null => .ok none
  | .bool b => .ok (some b)
  | _ => .error (inputError widget ("." ++ key ++ " must be boolean"))

def strings : List Json → Option (List String)
  | [] => some []
  | .str s :: items => (strings items).map (s :: ·)
  | _ => none

/-- `_parse_value` -/
def parseValue (lib : Stdlib) (widget kind : String) (body : Fields) : Except Exc FormValue :=
  if kind = "stringInputs" then
    match get body "value" with
    | .list items =>
      match strings items with
      | some values => .ok (.stringInput values)
      | none => .error (inputError widget ".stringInputs.value must be a string list")
    | _ => .error (inputError widget ".stringInputs.value must be a string list")
  else if kind = "dateInput" then do
    let msSinceEpoch ← epoch lib widget body
    pure (.dateInput msSinceEpoch)
  else if kind = "dateTimeInput" then do
    let hasDate ← optionalBool widget body "hasDate"
    let hasTime ← optionalBool widget body "hasTime"
    let msSinceEpoch ← epoch lib widget body
    pure (.dateTimeInput msSinceEpoch hasDate hasTime)
  else
    match get body "hours", get body "minutes" with
    | .int hours, .int minutes =>
      if 0 ≤ hours ∧ hours ≤ 23 ∧ 0 ≤ minutes ∧ minutes ≤ 59 then .ok (.timeInput hours minutes)
      else .error (inputError widget ".timeInput requires valid hours/minutes")
    | _, _ => .error (inputError widget ".timeInput requires valid hours/minutes")

/-- One widget of `parse_form_inputs`. -/
def parseFormInput (lib : Stdlib) : String × Fields → Except Exc (String × FormValue)
  | (widget, input) =>
    match knownInputs.filter fun kind => (input.lookup kind).isSome with
    | [] =>
      let kind := match input with
        | [] => "unknown"
        | (key, _) :: _ => key
      .ok (widget, .unknownFormInput kind input)
    | [kind] =>
      match get input kind with
      | .dict body => do
        let value ← parseValue lib widget kind body
        pure (widget, value)
      | _ => .error (inputError widget ("." ++ kind ++ " must be a mapping"))
    | _ => .error (inputError widget " contains multiple input variants")

/-- `parse_form_inputs` on the validated mapping of mappings. -/
def parseFormInputs (lib : Stdlib) (values : List (String × Fields)) : Except Exc FormInputs :=
  values.mapM (parseFormInput lib)

end Chattice.GoogleChat
