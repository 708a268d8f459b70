import Chattice.Transports.Pubsub
import Chattice.Transports.PubsubRunner.Handle

/-!
# `PubSubPullRunner._parse`

The data of a pulled message is the JSON of an interaction, or of a push envelope around one: a
`message` mapping with a string `data` marks an envelope.
-/

namespace Chattice.PubsubRunner

open GoogleChat Json Pubsub

/-- `message.data` as text. -/
def dataText (lib : Stdlib) : MessageData → Except GoogleChat.Exc String
  | .bytes data =>
    match lib.decode data with
    | some text => .ok text
    | none => .error (.other "UnicodeDecodeError")
  | .text text => .ok text
  | .other => .error (envelopeError "message data is not text")

/-- A `message` mapping with a string `data`. -/
def isEnvelope (payload : Fields) : Bool :=
  match get payload "message" with
  | .dict message =>
    match get message "data" with
    | .str _ => true
    | _ => false
  | _ => false

/-- The interaction a decoded payload stands for. -/
def innerInteraction (lib : Stdlib) (payload : Fields) : Except GoogleChat.Exc Fields :=
  if isEnvelope payload then do
    let inner ← decodeMessageData lib payload
    pure (inner.getD payload)
  else pure payload

/-- `_parse` -/
def parseMessage (lib : Stdlib) (data : MessageData) : Except GoogleChat.Exc Event := do
  let raw ← dataText lib data
  match lib.loads raw with
  | none => .error (envelopeError "message data is not valid JSON")
  | some (.dict payload) => do
    let interaction ← innerInteraction lib payload
    parseInteraction lib interaction
  | some _ => .error (envelopeError "interaction must be a JSON object")

end Chattice.PubsubRunner
