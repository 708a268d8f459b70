import Chattice.Events.Base
import Chattice.Python.Str

/-!
# Envelope families of an interaction

A direct event carries its fields itself; an App Home style payload wraps them in `chat`. A payload
may do both as long as the two do not disagree. The raw payload is kept beside the merged event; its
deep copy has the same value.
-/

namespace Chattice.GoogleChat

open Json Python

/-- The failures of the adapter and of the ingress around it. The first three are the
`GoogleInteractionError`s. -/
inductive Exc where
  | invalidInteractionPayload (text : Text)
  | conflictingEnvelope (text : Text)
  | unsupportedEnvelope (text : Text)
  | pubSubEnvelopeError (text : Text)
  | other (className : String)
  deriving Repr

structure NormalizedEnvelope where
  event : Fields
  raw : Fields

/-- One direct field beside a wrapped event of the same type. -/
def mergeField (event : Fields) : String × Json → Except Exc Fields
  | (key, value) =>
    if key ∈ ["chat", "commonEventObject", "common", "type"] then .ok event
    else
      match event.lookup key with
      | some wrapped =>
        if !pyEq wrapped value then
          .error (.conflictingEnvelope
            [.text "Direct and wrapped event field ", .repr (.str key), .text " conflicts"])
        else .ok event
      | none => .ok (set event key value)

def selectEvent (raw : Fields) : Except Exc Fields :=
  match get raw "chat" with
  | .null =>
    match get raw "type" with
    | .null => .error (.unsupportedEnvelope
        [.text "Expected a direct 'type' field or wrapped 'chat' event"])
    | _ => .ok (pop raw "commonEventObject")
  | .dict wrapped =>
    match get wrapped "type" with
    | .null => .error (.unsupportedEnvelope [.text "The wrapped 'chat' event requires 'type'"])
    | wrappedType =>
      match get raw "type" with
      | .null => .ok wrapped
      | directType =>
        if !pyEq directType wrappedType then
          .error (.conflictingEnvelope [.text "Direct and wrapped event types conflict: ",
            .repr directType, .text " != ", .repr wrappedType])
        else raw.foldlM mergeField wrapped
  | _ => .error (.unsupportedEnvelope [.text "The wrapped 'chat' value must be a mapping"])

def commonObject (name : String) : Json → Except Exc (Option Fields)
  | .null => .ok none
  | .dict fields => .ok (some fields)
  | _ => .error (.invalidInteractionPayload [.text ("'" ++ name ++ "' must be a mapping")])

/-- `normalize_envelope` -/
def normalizeEnvelope (payload : Fields) : Except Exc NormalizedEnvelope := do
  let event ← selectEvent payload
  let innerCommon ← commonObject "common" (get event "common")
  let outerCommon ← commonObject "commonEventObject" (get payload "commonEventObject")
  match innerCommon, outerCommon with
  | some inner, some outer =>
    if !pyEq (.dict inner) (.dict outer) then
      .error (.conflictingEnvelope
        [.text "'common' and 'commonEventObject' contain conflicting data"])
    else .ok ⟨set event "common" (.dict outer), payload⟩
  | _, some outer => .ok ⟨set event "common" (.dict outer), payload⟩
  | _, none => .ok ⟨event, payload⟩

end Chattice.GoogleChat
