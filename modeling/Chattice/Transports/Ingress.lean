import Chattice.Data.Except
import Chattice.Events.Message
import Chattice.Transports.PubsubRunner.Parse

/-!
# The same interaction on every ingress path

An interaction can be parsed directly, pushed inside a Pub/Sub envelope, or pulled as the JSON of
that envelope. All three give the same event but for `raw`, which is the envelope on the push path;
the message properties are recomputed from `raw`.

* `parseMessage_envelope` : the pull path gives the event of the interaction itself;
* `parseEnvelope_envelope` : the push path gives it with the envelope as `raw`;
* `ingress_agrees_iff` : the three agree on the message content exactly when the message is `Bare`.
-/

namespace Chattice.Pubsub

open GoogleChat Json PubsubRunner

/-- A push envelope: `message` carries base64 `data`. What Pub/Sub puts around it (`attributes`,
`messageId`, `publishTime`, `orderingKey`, `subscription`) has none of the names a Chat payload
uses. -/
structure PushEnvelope where
  payload : Fields
  message : Fields
  data : String
  get_message : get payload "message" = .dict message
  get_data : get message "data" = .str data
  get_chat : get payload "chat" = .null
  get_content : ∀ key ∈ contentKeys, get message key = .null

namespace PushEnvelope

variable (e : PushEnvelope)

theorem rawMessage_payload : rawMessage (.dict e.payload) = e.message := by
  simp only [rawMessage, e.get_chat, e.get_message]

theorem isEnvelope_payload : isEnvelope e.payload = true := by
  simp only [isEnvelope, e.get_message, e.get_data]

theorem content_empty {event : Event} (h : event.content.isSome = true) :
    { event with raw := .dict e.payload }.content = some .empty := by
  have hsome : { event with raw := Json.dict e.payload }.content.isSome = true := by
    unfold Event.content at h ⊢
    split at h
    · next heq => rw [heq]; rfl
    · cases h
  refine (content_eq_empty hsome).mpr ?_
  rw [rawMessage_payload]
  exact Bare.of_missing e.get_content

/-- The envelope wraps the interaction: base64 and JSON decoding give it back. -/
def Wraps (lib : Stdlib) (interaction : Fields) : Prop :=
  ∃ bytes, lib.b64decode e.data = some bytes ∧ lib.loadsBytes bytes = some (.dict interaction)

theorem decodeMessageData_payload {lib : Stdlib} {interaction : Fields}
    (h : e.Wraps lib interaction) :
    decodeMessageData lib e.payload = .ok (some interaction) := by
  obtain ⟨bytes, hbytes, hloads⟩ := h
  simp only [decodeMessageData, e.get_message, e.get_data, hbytes, hloads]

/-- The push path: the event of the interaction, with the envelope as `raw`. -/
theorem parseEnvelope_envelope {lib : Stdlib} {interaction : Fields} {event : Event}
    (hwraps : e.Wraps lib interaction) (hparse : parseInteraction lib interaction = .ok event) :
    parseEnvelope lib (.dict e.payload) = .ok { event with raw := .dict e.payload } := by
  have hdecode := e.decodeMessageData_payload hwraps
  exact Except.bind_eq_ok.mpr ⟨_, hdecode, Except.bind_eq_ok.mpr ⟨event, hparse, rfl⟩⟩

/-- The pull path: the event of the interaction itself. -/
theorem parseMessage_envelope {lib : Stdlib} {interaction : Fields} {data : MessageData}
    {text : String} (hwraps : e.Wraps lib interaction) (htext : dataText lib data = .ok text)
    (hloads : lib.loads text = some (.dict e.payload)) :
    parseMessage lib data = parseInteraction lib interaction := by
  have hinner : innerInteraction lib e.payload = .ok interaction := by
    unfold innerInteraction
    rw [if_pos e.isEnvelope_payload, e.decodeMessageData_payload hwraps]
    rfl
  simp only [parseMessage, htext, Except.ok_bind, hloads, hinner]

end PushEnvelope

theorem normalizeEnvelope_raw {payload : Fields} {envelope : NormalizedEnvelope}
    (h : normalizeEnvelope payload = .ok envelope) : envelope.raw = payload := by
  unfold normalizeEnvelope at h
  obtain ⟨event, -, h⟩ := Except.bind_eq_ok.mp h
  obtain ⟨innerCommon, -, h⟩ := Except.bind_eq_ok.mp h
  obtain ⟨outerCommon, -, h⟩ := Except.bind_eq_ok.mp h
  split at h
  · split at h
    · cases h
    · cases h
      rfl
  · cases h
    rfl
  · cases h
    rfl

theorem interactionEvent_raw {lib : Stdlib} {raw : Fields} {model : InteractionModel}
    {event : Event} (h : interactionEvent lib raw model = .ok event) : event.raw = .dict raw := by
  unfold interactionEvent at h
  obtain ⟨eventTime, -, h⟩ := Except.bind_eq_ok.mp h
  obtain ⟨dialog, -, h⟩ := Except.bind_eq_ok.mp h
  obtain ⟨body, -, h⟩ := Except.bind_eq_ok.mp h
  rw [← Except.pure_eq_ok.mp h]

theorem parseInteraction_raw {lib : Stdlib} {payload : Fields} {event : Event}
    (h : parseInteraction lib payload = .ok event) : event.raw = .dict payload := by
  unfold parseInteraction at h
  obtain ⟨envelope, henvelope, h⟩ := Except.bind_eq_ok.mp h
  have hraw := normalizeEnvelope_raw henvelope
  split at h
  · cases h
  · split at h
    · cases h
    · rw [interactionEvent_raw h, hraw]

/-- **Main result.** The three ingress paths give a `MESSAGE` interaction the same attachments,
annotations, mentions, quote, reaction summaries and flags exactly when its message has none of
them: on the push path the properties read the Pub/Sub message in place of the Chat one. -/
theorem ingress_agrees_iff {lib : Stdlib} {e : PushEnvelope} {interaction : Fields}
    {data : MessageData} {text : String} {event : Event} (hwraps : e.Wraps lib interaction)
    (htext : dataText lib data = .ok text) (hloads : lib.loads text = some (.dict e.payload))
    (hparse : parseInteraction lib interaction = .ok event)
    (hmessage : event.content.isSome = true) :
    (∃ pushed pulled, parseEnvelope lib (.dict e.payload) = .ok pushed ∧
      parseMessage lib data = .ok pulled ∧
      pushed.content = event.content ∧ pulled.content = event.content) ↔
    Bare (rawMessage (.dict interaction)) := by
  have hempty : event.content = some .empty ↔ Bare (rawMessage (.dict interaction)) := by
    rw [content_eq_empty hmessage, parseInteraction_raw hparse]
  have hpushed := e.parseEnvelope_envelope hwraps hparse
  have hpulled := (e.parseMessage_envelope hwraps htext hloads).trans hparse
  rw [← hempty]
  constructor
  · rintro ⟨pushed, pulled, hpush, -, hcontent, -⟩
    rw [hpushed] at hpush
    cases hpush
    rw [← hcontent]
    exact e.content_empty hmessage
  · intro hcontent
    refine ⟨_, event, hpushed, hpulled, ?_, rfl⟩
    rw [hcontent]
    exact e.content_empty hmessage

/-! ## Two interactions on the three paths -/

def asciiBytes (text : String) : List UInt8 := text.toList.map fun c => .ofNat c.toNat

def envelopeOf (base64 : String) : PushEnvelope where
  payload := [
    ("message", .dict [("data", .str base64), ("messageId", .str "m-1"),
      ("publishTime", .str "2000-01-01T10:00:00Z")]),
    ("subscription", .str "projects/p/subscriptions/s")]
  message := [("data", .str base64), ("messageId", .str "m-1"),
    ("publishTime", .str "2000-01-01T10:00:00Z")]
  data := base64
  get_message := rfl
  get_data := rfl
  get_chat := rfl
  get_content := by
    simp only [contentKeys, List.forall_mem_cons]
    exact ⟨rfl, rfl, rfl, rfl, rfl, rfl, List.forall_mem_nil _⟩

def envelopeTextOf (base64 : String) : String :=
  "\x7b\"message\": \x7b\"data\": \"" ++ base64 ++ "\", \"messageId\": \"m-1\", " ++
    "\"publishTime\": \"2000-01-01T10:00:00Z\"\x7d, " ++
    "\"subscription\": \"projects/p/subscriptions/s\"\x7d"

/-- The decoders on the envelope text, and on the interaction text in its base64 data. -/
def stdlibOf (interaction : Fields) (interactionText base64 : String) : Stdlib where
  fromisoformat _ := none
  int _ := none
  isdigit _ := false
  b64decode s := if s = base64 then some (asciiBytes interactionText) else none
  loadsBytes data := if data = asciiBytes interactionText then some (.dict interaction) else none
  loads s := if s = envelopeTextOf base64 then some (.dict (envelopeOf base64).payload) else none
  decode data :=
    if data = asciiBytes (envelopeTextOf base64) then some (envelopeTextOf base64) else none

section

variable (interaction : Fields) (interactionText base64 : String)

theorem stdlibOf_wraps :
    (envelopeOf base64).Wraps (stdlibOf interaction interactionText base64) interaction :=
  ⟨asciiBytes interactionText, if_pos rfl, if_pos rfl⟩

theorem stdlibOf_dataText :
    dataText (stdlibOf interaction interactionText base64)
      (.bytes (asciiBytes (envelopeTextOf base64))) = .ok (envelopeTextOf base64) := by
  simp only [dataText, stdlibOf, if_true]

theorem stdlibOf_loads :
    (stdlibOf interaction interactionText base64).loads (envelopeTextOf base64) =
      some (.dict (envelopeOf base64).payload) := if_pos rfl

end

/-- The event of a `MESSAGE` that only says hi. -/
def hiEvent (interaction : Fields) : Event where
  raw := .dict interaction
  eventTime := none
  actor := none
  space := none
  thread := none
  dialog := none
  locale := none
  timezone := none
  body := .message "hi" (some ⟨none⟩) none none none

def hiInteraction : Fields := [("type", .str "MESSAGE"), ("message", .dict [("text", .str "hi")])]

def hiBase64 : String := "eyJ0eXBlIjogIk1FU1NBR0UiLCAibWVzc2FnZSI6IHsidGV4dCI6ICJoaSJ9fQ=="

def hiStdlib : Stdlib :=
  stdlibOf hiInteraction
    "\x7b\"type\": \"MESSAGE\", \"message\": \x7b\"text\": \"hi\"\x7d\x7d" hiBase64

theorem hi_agrees :
    ∃ pushed pulled, parseEnvelope hiStdlib (.dict (envelopeOf hiBase64).payload) = .ok pushed ∧
      parseMessage hiStdlib (.bytes (asciiBytes (envelopeTextOf hiBase64))) = .ok pulled ∧
      pushed.content = (hiEvent hiInteraction).content ∧
      pulled.content = (hiEvent hiInteraction).content := by
  refine (ingress_agrees_iff (stdlibOf_wraps _ _ _) (stdlibOf_dataText _ _ _)
    (stdlibOf_loads _ _ _) rfl rfl).mpr (Bare.of_missing ?_)
  simp only [contentKeys, List.forall_mem_cons]
  exact ⟨rfl, rfl, rfl, rfl, rfl, rfl, List.forall_mem_nil _⟩

def privateInteraction : Fields :=
  [("type", .str "MESSAGE"),
    ("message", .dict [("text", .str "hi"),
      ("privateMessageViewer", .dict [("name", .str "users/1")])])]

def privateBase64 : String :=
  "eyJ0eXBlIjogIk1FU1NBR0UiLCAibWVzc2FnZSI6IHsidGV4dCI6ICJoaSIsICJwcml2YXRlTWVzc2FnZVZpZXdlciI6" ++
    "IHsibmFtZSI6ICJ1c2Vycy8xIn19fQ=="

def privateStdlib : Stdlib :=
  stdlibOf privateInteraction
    ("\x7b\"type\": \"MESSAGE\", \"message\": \x7b\"text\": \"hi\", " ++
      "\"privateMessageViewer\": \x7b\"name\": \"users/1\"\x7d\x7d\x7d") privateBase64

/-- A private message is not private any more when it is pushed. -/
theorem pushed_private_message :
    ¬ ∀ (lib : Stdlib) (e : PushEnvelope) (interaction : Fields) (data : MessageData)
      (text : String) (event : Event), e.Wraps lib interaction → dataText lib data = .ok text →
      lib.loads text = some (.dict e.payload) → parseInteraction lib interaction = .ok event →
      event.content.isSome = true →
      ∃ pushed pulled, parseEnvelope lib (.dict e.payload) = .ok pushed ∧
        parseMessage lib data = .ok pulled ∧
        pushed.content = event.content ∧ pulled.content = event.content := by
  intro h
  have hwraps : (envelopeOf privateBase64).Wraps privateStdlib privateInteraction :=
    stdlibOf_wraps _ _ _
  have hparse : parseInteraction privateStdlib privateInteraction =
      .ok (hiEvent privateInteraction) := rfl
  obtain ⟨pushed, pulled, hpush, -, hcontent, -⟩ :=
    h _ _ _ _ _ _ hwraps (stdlibOf_dataText _ _ _) (stdlibOf_loads _ _ _) hparse rfl
  rw [PushEnvelope.parseEnvelope_envelope _ hwraps hparse] at hpush
  cases hpush
  have hprivate := congrArg (Option.map MessageContent.isPrivate) hcontent
  cases hprivate

end Chattice.Pubsub
