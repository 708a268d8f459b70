import Chattice.Adapters.GoogleChat.Merging
import Chattice.Transports.Encoders
import Chattice.Transports.Ingress

/-!
# The two wire shapes of a pulled message

The data of a message is the JSON of an interaction, or of a push envelope with the interaction as
base64 JSON in `message.data`. The runner tells them apart by a string `data` in `message`, which an
interaction may have too.

* `Event.Same` : `==` of two events, `raw` apart;
* `innerInteraction_of_push` : an envelope is always unwrapped;
* `wireShapes_iff` : the interactions that are never taken for an envelope, and those whose event is
  the same by both shapes.
-/

namespace Chattice

open GoogleChat (SameValue)

/-! ## Equality of events -/

/-- `==` of two dictionaries, whatever their order. -/
def SameDict {α : Type} (same : α → α → Prop) (a b : List (String × α)) : Prop :=
  ∀ key, Option.Rel same (a.lookup key) (b.lookup key)

def FormValue.Same : FormValue → FormValue → Prop
  | .unknownFormInput kind raw, .unknownFormInput kind' raw' =>
    kind = kind' ∧ SameValue (.dict raw) (.dict raw')
  | a, b => a = b

def EventBody.Same : EventBody → EventBody → Prop
  | .action name parameters formInputs senderType source ref,
    .action name' parameters' formInputs' senderType' source' ref' =>
    name = name' ∧ SameDict Eq parameters parameters' ∧ SameDict FormValue.Same formInputs formInputs' ∧
      senderType = senderType' ∧ source = source' ∧ ref = ref'
  | .widgetUpdated name parameters formInputs, .widgetUpdated name' parameters' formInputs' =>
    name = name' ∧ SameDict Eq parameters parameters' ∧ SameDict FormValue.Same formInputs formInputs'
  | .formSubmit name parameters formInputs, .formSubmit name' parameters' formInputs' =>
    name = name' ∧ SameDict Eq parameters parameters' ∧ SameDict FormValue.Same formInputs formInputs'
  | a, b => a = b

/-- `==` of two events: `raw` and the space of a thread are not compared, times are by instant. -/
structure Event.Same (a b : Event) : Prop where
  eventTime : a.eventTime.map DateTime.micros = b.eventTime.map DateTime.micros
  actor : a.actor = b.actor
  space : a.space = b.space
  thread : (a.thread.map fun t => (t.name, t.threadKey)) = b.thread.map fun t => (t.name, t.threadKey)
  dialog : a.dialog = b.dialog
  locale : a.locale = b.locale
  timezone : a.timezone = b.timezone
  body : a.body.Same b.body

theorem SameDict.refl {α : Type} {same : α → α → Prop} (hsame : ∀ a, same a a)
    (items : List (String × α)) : SameDict same items items := by
  intro key
  cases items.lookup key with
  | none => exact .none
  | some value => exact .some (hsame value)

theorem FormValue.Same.refl (value : FormValue) : value.Same value := by
  cases value with
  | unknownFormInput kind raw => exact ⟨rfl, .inl rfl⟩
  | _ => rfl

theorem EventBody.Same.refl (body : EventBody) : body.Same body := by
  cases body with
  | action name parameters formInputs =>
    exact ⟨rfl, .refl (fun _ => rfl) parameters, .refl FormValue.Same.refl formInputs, rfl, rfl, rfl⟩
  | widgetUpdated name parameters formInputs =>
    exact ⟨rfl, .refl (fun _ => rfl) parameters, .refl FormValue.Same.refl formInputs⟩
  | formSubmit name parameters formInputs =>
    exact ⟨rfl, .refl (fun _ => rfl) parameters, .refl FormValue.Same.refl formInputs⟩
  | _ => rfl

theorem Event.Same.refl (event : Event) : event.Same event :=
  ⟨rfl, rfl, rfl, rfl, rfl, rfl, rfl, .refl event.body⟩

end Chattice

namespace Chattice.PubsubRunner

open GoogleChat Json Pubsub

/-! ## The publisher's side -/

/-- The JSON of the payload as the data of a pulled message, as bytes or as text. -/
def wire (encoders : Encoders) (payload : Fields) : List MessageData :=
  [.bytes (encoders.encode (encoders.dumps (.dict payload))), .text (encoders.dumps (.dict payload))]

/-- `message` is a mapping with the given string as `data`. -/
def HasData (payload : Fields) (data : String) : Prop :=
  ∃ message, get payload "message" = .dict message ∧ get message "data" = .str data

/-- Every data of the payload is parsed to an event equal to the given one. -/
def ReadAs (lib : Stdlib) (encoders : Encoders) (payload : Fields) (event : Event) : Prop :=
  ∀ data ∈ wire encoders payload, ∃ event', parseMessage lib data = .ok event' ∧ event'.Same event

/-- The interaction holds the base64 JSON of one with an equal event. -/
def WrapsSame (lib : Stdlib) (interaction : Fields) (event : Event) : Prop :=
  ∃ inner event', decodeMessageData lib interaction = .ok (some inner) ∧
    parseInteraction lib inner = .ok event' ∧ event'.Same event

/-! ## What the runner reads -/

theorem isEnvelope_iff (payload : Fields) : isEnvelope payload = true ↔ ∃ data, HasData payload data := by
  unfold isEnvelope
  constructor
  · intro h
    split at h
    · next message hmessage =>
      split at h
      · next data hdata => exact ⟨data, message, hmessage, hdata⟩
      · cases h
    · cases h
  · rintro ⟨data, message, hmessage, hdata⟩
    simp only [hmessage, hdata]

theorem isEnvelope_eq_false_iff (payload : Fields) :
    isEnvelope payload = false ↔ ¬ ∃ data, HasData payload data := by
  rw [← isEnvelope_iff, Bool.not_eq_true]

variable {lib : Stdlib} {encoders : Encoders} {payload interaction : Fields}

theorem innerInteraction_of_not_isEnvelope (h : isEnvelope payload = false) :
    innerInteraction lib payload = .ok payload := by
  rw [innerInteraction, h]
  rfl

theorem innerInteraction_of_hasData {data : String} (h : HasData payload data) {inner : Fields} :
    innerInteraction lib payload = .ok inner ↔ decodeMessageData lib payload = .ok (some inner) := by
  have hdecoded : decodeMessageData lib payload ≠ .ok none := by
    obtain ⟨message, hmessage, hdata⟩ := h
    unfold decodeMessageData
    simp only [hmessage, hdata]
    split
    · nofun
    · split <;> nofun
  rw [innerInteraction, if_pos ((isEnvelope_iff payload).mpr ⟨data, h⟩)]
  cases hcase : decodeMessageData lib payload with
  | error e => exact iff_of_false nofun nofun
  | ok found =>
    cases found with
    | none => exact absurd hcase hdecoded
    | some found =>
      show Except.ok found = Except.ok inner ↔ _
      rw [Except.ok.injEq, Except.ok.injEq, Option.some.injEq]

/-- **An envelope is unwrapped.** -/
theorem innerInteraction_of_push (hlib : encoders.Inverted lib)
    (h : HasData payload (encoders.data interaction)) :
    innerInteraction lib payload = .ok interaction := by
  rw [innerInteraction_of_hasData h]
  obtain ⟨message, hmessage, hdata⟩ := h
  unfold decodeMessageData
  simp only [hmessage, hdata, Encoders.data, hlib.b64decode, hlib.loadsBytes]

/-- Both kinds of data are the JSON of the payload. -/
theorem parseMessage_of_wire (hlib : encoders.Inverted lib) {data : MessageData}
    (h : data ∈ wire encoders payload) :
    parseMessage lib data = innerInteraction lib payload >>= parseInteraction lib := by
  have hraw : dataText lib data = .ok (encoders.dumps (.dict payload)) := by
    obtain rfl | h := List.mem_cons.mp h
    · rw [dataText, hlib.decode]
    · obtain rfl := List.mem_singleton.mp h
      rfl
  rw [parseMessage, hraw, Except.ok_bind, hlib.loads]

theorem readAs_iff (hlib : encoders.Inverted lib) {event : Event} :
    ReadAs lib encoders payload event ↔ ∃ inner event', innerInteraction lib payload = .ok inner ∧
      parseInteraction lib inner = .ok event' ∧ event'.Same event := by
  constructor
  · intro h
    obtain ⟨event', hparse, hsame⟩ := h _ List.mem_cons_self
    rw [parseMessage_of_wire hlib List.mem_cons_self] at hparse
    obtain ⟨inner, hinner, hevent⟩ := Except.bind_eq_ok.mp hparse
    exact ⟨inner, event', hinner, hevent, hsame⟩
  · rintro ⟨inner, event', hinner, hevent, hsame⟩ data hdata
    rw [parseMessage_of_wire hlib hdata, hinner]
    exact ⟨event', hevent, hsame⟩

theorem readAs_of_plain (hlib : encoders.Inverted lib) {event : Event}
    (hevent : parseInteraction lib interaction = .ok event) (h : isEnvelope interaction = false) :
    ReadAs lib encoders interaction event :=
  (readAs_iff hlib).mpr ⟨interaction, event, innerInteraction_of_not_isEnvelope h, hevent, .refl event⟩

theorem readAs_of_push (hlib : encoders.Inverted lib) {event : Event}
    (hevent : parseInteraction lib interaction = .ok event)
    (h : HasData payload (encoders.data interaction)) : ReadAs lib encoders payload event :=
  (readAs_iff hlib).mpr ⟨interaction, event, innerInteraction_of_push hlib h, hevent, .refl event⟩

/-- **The two wire shapes.** For every accepted interaction and every push envelope around it: both
shapes give its event and neither is taken for the other exactly when its own `message` has no string
`data`; where it has one, both give the event only if that data is an interaction with an equal
event. -/
theorem wireShapes_iff (hlib : encoders.Inverted lib) {event : Event}
    (hevent : parseInteraction lib interaction = .ok event)
    (henvelope : HasData payload (encoders.data interaction)) :
    ((ReadAs lib encoders interaction event ∧ ReadAs lib encoders payload event ∧
        isEnvelope interaction = false ∧ isEnvelope payload = true) ↔
      ¬ ∃ data, HasData interaction data) ∧
    ((ReadAs lib encoders interaction event ∧ ReadAs lib encoders payload event) ↔
      (¬ ∃ data, HasData interaction data) ∨ WrapsSame lib interaction event) := by
  have hpush := readAs_of_push hlib hevent henvelope
  constructor
  · rw [← isEnvelope_eq_false_iff]
    constructor
    · rintro ⟨-, -, hplain, -⟩
      exact hplain
    · intro hplain
      exact ⟨readAs_of_plain hlib hevent hplain, hpush, hplain, (isEnvelope_iff payload).mpr ⟨_, henvelope⟩⟩
  · by_cases hdata : ∃ data, HasData interaction data
    · rw [and_iff_left hpush, or_iff_right (not_not_intro hdata), readAs_iff hlib]
      obtain ⟨data, hdata⟩ := hdata
      simp only [innerInteraction_of_hasData hdata, WrapsSame]
    · exact iff_of_true ⟨readAs_of_plain hlib hevent ((isEnvelope_eq_false_iff _).mpr hdata), hpush⟩
        (.inl hdata)

/-! ## A greeting -/

def hiText : String := "\x7b\"t" ++ "ype\": \"MESSAGE\", \"message\": \x7b\"text\": \"hi\"\x7d\x7d"

def hiData : String := Base64.b64encode (Base64.utf8 hiText)

def hiPush : Fields := [("message", .dict [("data", .str hiData)])]

def hiPushText : String := "\x7b\"m" ++ ("essage\": \x7b\"data\": \"" ++ hiData ++ "\"\x7d\x7d")

/-- The interaction that says hi and the envelope around it. -/
def hiDocuments : List (Json × String) :=
  [(.dict hiInteraction, hiText), (.dict hiPush, hiPushText)]

theorem hiText_toList : ∃ rest, hiText.toList = '\x7b' :: '"' :: 't' :: rest := by
  rw [hiText, String.toList_append]
  exact ⟨_, rfl⟩

theorem hiPushText_toList : ∃ rest, hiPushText.toList = '\x7b' :: '"' :: 'm' :: rest := by
  rw [hiPushText, String.toList_append]
  exact ⟨_, rfl⟩

theorem hiText_ne_push : hiText ≠ hiPushText := by
  obtain ⟨rest, hrest⟩ := hiText_toList
  obtain ⟨rest', hrest'⟩ := hiPushText_toList
  intro h
  rw [h, hrest'] at hrest
  simp at hrest

theorem hiDocuments_inverted : (wireEncoders hiDocuments).Inverted (wireLib hiDocuments) := by
  refine wireEncoders_inverted ?_ ?_
  · intro item hitem
    simp only [hiDocuments, List.mem_cons, List.not_mem_nil, or_false] at hitem
    obtain rfl | rfl := hitem
    · obtain ⟨rest, hrest⟩ := hiText_toList
      exact ⟨_, _, hrest, by decide⟩
    · obtain ⟨rest, hrest⟩ := hiPushText_toList
      exact ⟨_, _, hrest, by decide⟩
  · intro a ha b hb hab
    simp only [hiDocuments, List.mem_cons, List.not_mem_nil, or_false] at ha hb
    obtain rfl | rfl := ha <;> obtain rfl | rfl := hb
    · rfl
    · exact absurd hab hiText_ne_push
    · exact absurd hab.symm hiText_ne_push
    · rfl

theorem hiPush_hasData : HasData hiPush ((wireEncoders hiDocuments).data hiInteraction) := by
  have hdumps : (wireEncoders hiDocuments).dumps (.dict hiInteraction) = hiText := by
    show dumpsAll hiDocuments (.dict hiInteraction) = _
    rw [dumpsAll, hiDocuments, List.find?_cons_of_pos (by simp)]
  rw [Encoders.data, hdumps]
  exact ⟨[("data", .str hiData)], rfl, rfl⟩

/-- A message without `data` is read alike by both shapes. -/
theorem hi_readAlike :
    ReadAs (wireLib hiDocuments) (wireEncoders hiDocuments) hiInteraction (hiEvent hiInteraction) ∧
    ReadAs (wireLib hiDocuments) (wireEncoders hiDocuments) hiPush (hiEvent hiInteraction) := by
  have hevent : parseInteraction (wireLib hiDocuments) hiInteraction = .ok (hiEvent hiInteraction) := rfl
  have hplain : ¬ ∃ data, HasData hiInteraction data := by
    rintro ⟨data, message, hmessage, hdata⟩
    cases hmessage
    cases hdata
  have hboth := (wireShapes_iff hiDocuments_inverted hevent hiPush_hasData).1.mpr hplain
  exact ⟨hboth.1, hboth.2.1⟩

/-- A message with a field `data` of its own. -/
def noted : Fields :=
  [("type", .str "MESSAGE"), ("message", .dict [("text", .str "hi"), ("data", .str "n/a")])]

/-- Its event is that of the message, and the runner takes it for an envelope. -/
theorem noted_taken : (wireEncoders []).Inverted (wireLib []) ∧
    parseInteraction (wireLib []) noted = .ok (hiEvent noted) ∧
    ∀ data ∈ wire (wireEncoders []) noted, parseMessage (wireLib []) data =
      .error (envelopeError "'message.data' is not valid base64") := by
  have hlib : (wireEncoders []).Inverted (wireLib []) := wireEncoders_inverted nofun nofun
  have hdecode : (wireLib []).b64decode "n/a" = none := by decide
  refine ⟨hlib, rfl, fun data hdata => ?_⟩
  have hmessage : get noted "message" = .dict [("text", .str "hi"), ("data", .str "n/a")] := rfl
  have hnote : get [("text", .str "hi"), ("data", .str "n/a")] "data" = .str "n/a" := rfl
  rw [parseMessage_of_wire hlib hdata]
  simp only [innerInteraction, isEnvelope, decodeMessageData, hmessage, hnote, hdecode]
  rfl

end Chattice.PubsubRunner
