import Chattice.Adapters.GoogleChat.Parser

/-!
# Pub/Sub push ingress

A push envelope carries the interaction as base64 JSON in `message.data`. The adapter decodes it,
parses the interaction and keeps the whole envelope in `raw`.
-/

namespace Chattice.Pubsub

open GoogleChat Json Python

/-- `raise PubSubEnvelopeError(text)` -/
def envelopeError (text : String) : Exc := .pubSubEnvelopeError [.text text]

/-- `decode_message_data`: `none` where the payload is no push envelope. -/
def decodeMessageData (lib : Stdlib) (payload : Fields) : Except Exc (Option Fields) :=
  match get payload "message" with
  | .null => .ok none
  | .dict message =>
    match get message "data" with
    | .str data =>
      match lib.b64decode data with
      | none => .error (envelopeError "'message.data' is not valid base64")
      | some decoded =>
        match lib.loadsBytes decoded with
        | none => .error (envelopeError "'message.data' does not contain valid JSON")
        | some (.dict inner) => .ok (some inner)
        | some _ => .error (envelopeError "'message.data' must decode to a JSON object")
    | _ => .error (envelopeError "'message.data' must be a base64 string")
  | _ => .error (envelopeError "Pub/Sub push payload requires a 'message' object")

/-- `PubSubPushAdapter.parse_envelope` -/
def parseEnvelope (lib : Stdlib) : Json → Except Exc Event
  | .dict payload => do
    match ← decodeMessageData lib payload with
    | none => .error (envelopeError "Pub/Sub push payload requires a 'message' object")
    | some interaction => do
      let event ← parseInteraction lib interaction
      -- the full envelope, not just the inner interaction
      pure { event with raw := .dict payload }
  | _ => .error (envelopeError "Pub/Sub push payload must be a mapping")

end Chattice.Pubsub
