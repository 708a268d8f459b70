import Chattice.Capabilities.Response
import Chattice.Cards.Dialog

/-!
# `_serialize`: synchronous responses

What a handler returns over HTTP becomes a response, or a `TypeError` when the event does not take it.

* `serialize` : the serializer; a dialog and a card are rendered by the SDK;
* `serialize_dialog_iff`, `serialize_card_updates_iff`, … : which events take which payload;
* `capabilities_match` : they are the events that advertise the capability, and an event that advertises
  a synchronous response takes a text unless the app was removed from the space.
-/

namespace Chattice.Serializer

open Capabilities
open Cards (Card Dialog Sdk)
open Python (Text)

/-! ## Payloads and responses -/

inductive ActionStatusCode where
  | ok | invalidArgument
  deriving DecidableEq, Repr

/-- `status_code.value` -/
def ActionStatusCode.value : ActionStatusCode → String
  | .ok => "OK"
  | .invalidArgument => "INVALID_ARGUMENT"

structure ActionStatus where
  statusCode : ActionStatusCode
  userFacingMessage : Option String

/-- `to_dict` -/
def ActionStatus.toDict (status : ActionStatus) : Json.Fields :=
  ("statusCode", .str status.statusCode.value) ::
    (status.userFacingMessage.map fun message => ("userFacingMessage", Json.str message)).toList

structure WidgetAutocomplete where
  widgetId : String
  suggestions : List String

/-- `to_dict` -/
def WidgetAutocomplete.toDict (autocomplete : WidgetAutocomplete) : Json :=
  let items := autocomplete.suggestions.map fun text => Json.dict [("text", .str text)]
  .dict [("actionResponse", .dict [
    ("type", .str "UPDATE_WIDGET"),
    ("updatedWidget", .dict [
      ("widget", .str autocomplete.widgetId),
      ("suggestions", .dict [("items", .list items)])])])]

/-- `RequestConfigResponse.to_dict` -/
def requestConfigDict (authUrl : String) : Json :=
  .dict [("actionResponse", .dict [("type", .str "REQUEST_CONFIG"), ("authUrl", .str authUrl)])]

/-- What a handler returns. The content of a mapping is the JSON value that `json.dumps` writes, if it
writes one. -/
inductive Payload where
  | none
  | text (s : String)
  | raw (content : Option Json)
  | dict (className : String) (content : Option Json)
  | dialog (dialog : Dialog)
  | actionStatus (status : ActionStatus)
  | card (card : Card)
  | widgetAutocomplete (autocomplete : WidgetAutocomplete)
  | requestConfig (authUrl : String)
  | other (className : String)

/-- A response with status 200: with no body, or with a JSON one. -/
inductive Response where
  | empty
  | json (content : Json)

inductive Exc where
  | typeError (text : Text)
  /-- The exception of the payload's own rendering. -/
  | rendering (e : Cards.Exc)

/-- `raise TypeError(text)` -/
def typeError {α : Type} (text : Text) : Except Exc α := .error (.typeError text)

def rendered {α : Type} : Except Cards.Exc α → Except Exc α
  | .ok a => .ok a
  | .error e => .error (.rendering e)

/-! ## The serializer -/

def unsupported (className : String) : Except Exc Response :=
  typeError [.text "Unsupported synchronous response payload ", .text className]

/-- `Response(content=encoded, media_type="application/json")` -/
def encoded (className : String) : Option Json → Except Exc Response
  | some content => .ok (.json content)
  | Option.none => unsupported className

def serializeDialog (sdk : Sdk) (dialog : Dialog) (event : AnyEvent) : Except Exc Response :=
  if canOpenDialog (some event) then do
    let data ← rendered (dialog.toDict sdk)
    return .json (.dict [("actionResponse",
      .dict [("type", .str "DIALOG"), ("dialogAction", .dict data)])])
  else typeError [.text "Dialog responses require a command or a REQUEST_DIALOG action"]

def submitsDialog : AnyEvent → Bool
  | .known event =>
    match event.body with
    | .action .. => event.hasDialog .submitDialog
    | _ => false
  | .other _ => false

def serializeStatus (status : ActionStatus) (event : AnyEvent) : Except Exc Response :=
  if submitsDialog event then
    .ok (.json (.dict [("actionResponse", .dict [
      ("type", .str "DIALOG"),
      ("dialogAction", .dict [("actionStatus", .dict status.toDict)])])]))
  else typeError [.text "ActionStatus responses require a SUBMIT_DIALOG ActionEvent"]

/-- `{"action": {"navigations": [{navigation: card}]}}` -/
def navigations (navigation : String) (card : Json.Fields) : Json :=
  .dict [("action", .dict [("navigations", .list [.dict [(navigation, .dict card)]])])]

/-- The body of a card message, with the type of its action response if it has one. -/
def cardBody (actionResponse : Option String) (card : Json.Fields) : Json :=
  .dict (("cardsV2", .list [.dict [("cardId", .str "card"), ("card", .dict card)]]) ::
    (actionResponse.map fun type => ("actionResponse", Json.dict [("type", .str type)])).toList)

def reprOption : Option String → Json
  | some s => .str s
  | Option.none => .null

def cardResponse (card : Json.Fields) : Option EventBody → Except Exc Response
  | some .appHome => .ok (.json (navigations "pushCard" card))
  | some (.formSubmit ..) => .ok (.json (.dict [("renderActions", navigations "updateCard" card)]))
  | some (.message _ _ matchedUrl _ _) =>
    .ok (.json (cardBody (if matchedUrl.isSome then some "UPDATE_USER_MESSAGE_CARDS" else .none) card))
  | some (.action _ _ _ senderType _ _) =>
    if senderType = some "BOT" then .ok (.json (cardBody (some "UPDATE_MESSAGE") card))
    else if senderType = some "HUMAN" then
      .ok (.json (cardBody (some "UPDATE_USER_MESSAGE_CARDS") card))
    else typeError
      [.text ("Card responses to CARD_CLICKED require the original " ++
        "message sender type (BOT or HUMAN) — got "), .repr (reprOption senderType)]
  | _ => .ok (.json (cardBody .none card))

def serializeCard (sdk : Sdk) (card : Card) (event : AnyEvent) : Except Exc Response := do
  let data ← rendered (card.toDict sdk)
  cardResponse data event.body

def serializeWidget (autocomplete : WidgetAutocomplete) (event : AnyEvent) : Except Exc Response :=
  match event.body with
  | some (.widgetUpdated ..) => .ok (.json autocomplete.toDict)
  | _ => typeError [.text "WidgetAutocomplete responses require a WIDGET_UPDATED event"]

def removedFromSpace (event : AnyEvent) : Bool :=
  match event.body with
  | some .removedFromSpace => true
  | _ => false

/-- The rules of `_serialize` for each class of payload. -/
def respond (sdk : Sdk) (payload : Payload) (event : AnyEvent) : Except Exc Response :=
  match payload with
  | .none => .ok .empty
  | .text s => .ok (.json (.dict [("text", .str s)]))
  | .raw content => encoded "RawInteractionResponse" content
  | .dict className content => encoded className content
  | .dialog dialog => serializeDialog sdk dialog event
  | .actionStatus status => serializeStatus status event
  | .card card => serializeCard sdk card event
  | .widgetAutocomplete autocomplete => serializeWidget autocomplete event
  | .requestConfig authUrl => .ok (.json (requestConfigDict authUrl))
  | .other className => unsupported className

def Payload.isNone : Payload → Bool
  | .none => true
  | _ => false

/-- `_serialize` -/
def serialize (sdk : Sdk) (payload : Payload) (event : AnyEvent) : Except Exc Response :=
  if payload.isNone then .ok .empty
  else if removedFromSpace event then
    typeError [.text "REMOVED_FROM_SPACE cannot receive a response"]
  else respond sdk payload event

/-! ## The shapes of a response -/

def Updates (type : String) (response : Response) : Prop :=
  ∃ content action, response = .json (.dict content) ∧
    Json.get content "actionResponse" = .dict action ∧ Json.get action "type" = .str type

/-- Navigations, in render actions or alone. -/
def Navigates (response : Response) : Prop :=
  ∃ content action items, response = .json (.dict content) ∧
    (Json.get content "action" = .dict action ∨
      ∃ render, Json.get content "renderActions" = .dict render ∧
        Json.get render "action" = .dict action) ∧
    Json.get action "navigations" = .list items

theorem updates_cardBody {type : String} {actionResponse : Option String} {card : Json.Fields} :
    Updates type (.json (cardBody actionResponse card)) ↔ actionResponse = some type := by
  constructor
  · rintro ⟨content, action, hcontent, haction, htype⟩
    cases hcontent
    cases actionResponse with
    | none => cases haction
    | some type' =>
      cases haction
      cases htype
      rfl
  · rintro rfl
    exact ⟨_, _, rfl, rfl, rfl⟩

theorem not_updates_navigations {type navigation : String} {card : Json.Fields} :
    ¬ Updates type (.json (navigations navigation card)) := by
  rintro ⟨content, action, hcontent, haction, -⟩
  cases hcontent
  cases haction

theorem not_updates_render {type : String} {value : Json} :
    ¬ Updates type (.json (.dict [("renderActions", value)])) := by
  rintro ⟨content, action, hcontent, haction, -⟩
  cases hcontent
  cases haction

theorem navigates_navigations {navigation : String} {card : Json.Fields} :
    Navigates (.json (navigations navigation card)) :=
  ⟨_, _, _, rfl, .inl rfl, rfl⟩

theorem navigates_render {navigation : String} {card : Json.Fields} :
    Navigates (.json (.dict [("renderActions", navigations navigation card)])) :=
  ⟨_, _, _, rfl, .inr ⟨_, rfl, rfl⟩, rfl⟩

theorem not_navigates_cardBody {actionResponse : Option String} {card : Json.Fields} :
    ¬ Navigates (.json (cardBody actionResponse card)) := by
  rintro ⟨content, action, items, hcontent, haction, -⟩
  cases hcontent
  cases actionResponse with
  | none =>
    obtain haction | ⟨render, hrender, -⟩ := haction
    · cases haction
    · cases hrender
  | some type =>
    obtain haction | ⟨render, hrender, -⟩ := haction
    · cases haction
    · cases hrender

/-! ## Which events take a payload -/

/-- The serializer takes the payload. -/
def Accepts (sdk : Sdk) (payload : Payload) (event : AnyEvent) : Prop :=
  ∃ response, serialize sdk payload event = .ok response

variable {sdk : Sdk} {event : AnyEvent}

theorem removedFromSpace_iff : removedFromSpace event = true ↔ event.body = some .removedFromSpace := by
  unfold removedFromSpace
  split
  · next h => exact iff_of_true rfl h
  · next h => exact iff_of_false nofun h

theorem not_accepts_of_removed {payload : Payload} (hpayload : payload.isNone = false)
    (hremoved : event.body = some .removedFromSpace) : ¬ Accepts sdk payload event := by
  rintro ⟨response, hresponse⟩
  unfold serialize at hresponse
  rw [hpayload, removedFromSpace_iff.mpr hremoved] at hresponse
  cases hresponse

theorem serialize_eq_respond {payload : Payload} (h : event.body ≠ some .removedFromSpace) :
    serialize sdk payload event = respond sdk payload event := by
  have hguard : removedFromSpace event = false :=
    Bool.eq_false_iff.mpr fun hremoved => h (removedFromSpace_iff.mp hremoved)
  unfold serialize
  rw [hguard]
  cases payload with
  | _ => rfl

theorem canOpenDialog_of_removed (hremoved : event.body = some .removedFromSpace) :
    canOpenDialog (some event) = false := by
  cases event with
  | known event =>
    have hbody : event.body = .removedFromSpace := Option.some_inj.mp hremoved
    simp only [canOpenDialog, hbody]
  | other className => cases hremoved

theorem accepts_text_iff {s : String} :
    Accepts sdk (.text s) event ↔ event.body ≠ some .removedFromSpace := by
  constructor
  · intro h hremoved
    exact not_accepts_of_removed rfl hremoved h
  · intro h
    exact ⟨_, serialize_eq_respond h⟩

/-- A dialog that the SDK renders is taken where a dialog can be opened. -/
theorem accepts_dialog_iff {dialog : Dialog} {data : Json.Fields} (hdata : dialog.toDict sdk = .ok data) :
    Accepts sdk (.dialog dialog) event ↔ canOpenDialog (some event) = true := by
  by_cases hremoved : event.body = some .removedFromSpace
  · rw [canOpenDialog_of_removed hremoved]
    exact iff_of_false (not_accepts_of_removed rfl hremoved) Bool.false_ne_true
  · unfold Accepts
    rw [serialize_eq_respond hremoved, respond, serializeDialog, hdata]
    split
    · next h => exact iff_of_true ⟨_, rfl⟩ h
    · next h => exact iff_of_false nofun h

theorem accepts_widget_iff {autocomplete : WidgetAutocomplete} :
    Accepts sdk (.widgetAutocomplete autocomplete) event ↔
      .updateWidget ∈ eventCapabilities event.body := by
  by_cases hremoved : event.body = some .removedFromSpace
  · refine iff_of_false (not_accepts_of_removed rfl hremoved) ?_
    rw [hremoved]
    exact Finset.notMem_empty _
  · unfold Accepts
    rw [serialize_eq_respond hremoved, respond, serializeWidget, updateWidget_mem_iff]
    split
    · next h =>
      rw [h]
      exact iff_of_true ⟨_, rfl⟩ ⟨_, _, _, rfl⟩
    · next h =>
      refine iff_of_false nofun ?_
      rintro ⟨functionName, parameters, formInputs, hbody⟩
      exact h functionName parameters formInputs hbody

/-! ## Cards -/

/-- The response has the shapes that the event advertises, and no other. -/
structure Shaped (body : Option EventBody) (response : Response) : Prop where
  bot : Updates "UPDATE_MESSAGE" response ↔ .cardUpdateBot ∈ eventCapabilities body
  user : Updates "UPDATE_USER_MESSAGE_CARDS" response ↔ .cardUpdateUser ∈ eventCapabilities body
  home : Navigates response ↔ .appHome ∈ eventCapabilities body

theorem shaped_of_home {body : Option EventBody} {response : Response}
    (hcapabilities : eventCapabilities body = {.appHome}) (hnavigates : Navigates response)
    (hupdates : ∀ type, ¬ Updates type response) : Shaped body response where
  bot := by
    rw [hcapabilities]
    exact iff_of_false (hupdates _) (by decide)
  user := by
    rw [hcapabilities]
    exact iff_of_false (hupdates _) (by decide)
  home := by
    rw [hcapabilities]
    exact iff_of_true hnavigates (by decide)

/-- A message with the card is shaped by the type of its action response. -/
theorem shaped_of_cardBody {body : Option EventBody} {actionResponse : Option String}
    {capabilities : Finset ResponseCapability} (card : Json.Fields)
    (hcapabilities : eventCapabilities body = capabilities)
    (hbot : actionResponse = some "UPDATE_MESSAGE" ↔ .cardUpdateBot ∈ capabilities)
    (huser : actionResponse = some "UPDATE_USER_MESSAGE_CARDS" ↔ .cardUpdateUser ∈ capabilities)
    (hhome : .appHome ∉ capabilities) : Shaped body (.json (cardBody actionResponse card)) where
  bot := by
    rw [hcapabilities]
    exact updates_cardBody.trans hbot
  user := by
    rw [hcapabilities]
    exact updates_cardBody.trans huser
  home := by
    rw [hcapabilities]
    exact iff_of_false not_navigates_cardBody hhome

theorem shaped_of_bot {body : Option EventBody} (card : Json.Fields)
    (hcapabilities : eventCapabilities body = {.cardUpdateBot}) :
    Shaped body (.json (cardBody (some "UPDATE_MESSAGE") card)) :=
  shaped_of_cardBody card hcapabilities (by decide) (by decide) (by decide)

theorem shaped_of_user {body : Option EventBody} (card : Json.Fields)
    (hcapabilities : eventCapabilities body = {.cardUpdateUser}) :
    Shaped body (.json (cardBody (some "UPDATE_USER_MESSAGE_CARDS") card)) :=
  shaped_of_cardBody card hcapabilities (by decide) (by decide) (by decide)

theorem shaped_of_new {body : Option EventBody} (card : Json.Fields)
    (hcapabilities : ∀ capability ∈ eventCapabilities body, capability = .updateWidget) :
    Shaped body (.json (cardBody none card)) where
  bot := by
    refine updates_cardBody.trans (iff_of_false nofun fun hmem => ?_)
    cases hcapabilities _ hmem
  user := by
    refine updates_cardBody.trans (iff_of_false nofun fun hmem => ?_)
    cases hcapabilities _ hmem
  home := by
    refine iff_of_false not_navigates_cardBody fun hmem => ?_
    cases hcapabilities _ hmem

theorem shaped_cardResponse {card : Json.Fields} {body : Option EventBody} {response : Response}
    (h : cardResponse card body = .ok response) : Shaped body response := by
  unfold cardResponse at h
  split at h
  · cases h
    exact shaped_of_home rfl navigates_navigations fun _ => not_updates_navigations
  · cases h
    exact shaped_of_home rfl navigates_render fun _ => not_updates_render
  · next text message matchedUrl senderType argumentText =>
    cases h
    cases matchedUrl with
    | none => exact shaped_of_new card fun _ hmem => absurd hmem (Finset.notMem_empty _)
    | some url => exact shaped_of_user card rfl
  · next name parameters formInputs senderType source message =>
    split at h
    · next hbot =>
      cases h
      exact shaped_of_bot card (if_pos hbot)
    · next hbot =>
      split at h
      · next hhuman =>
        cases h
        exact shaped_of_user card ((if_neg hbot).trans (if_pos hhuman))
      · cases h
  · next hhome hform hmessage haction =>
    cases h
    refine shaped_of_new card fun capability hmem => ?_
    unfold eventCapabilities at hmem
    split at hmem
    case _ => exact absurd rfl hhome
    case _ => exact absurd rfl (hform _ _ _)
    case _ => exact Finset.mem_singleton.mp hmem
    case _ => exact absurd rfl (haction _ _ _ _ _ _)
    case _ => exact absurd rfl (hmessage _ _ _ _ _)
    case _ => exact absurd hmem (Finset.notMem_empty _)

/-- A card is refused only where nothing is advertised for it. -/
theorem eventCapabilities_of_refused {card : Json.Fields} {body : Option EventBody} {e : Exc}
    (h : cardResponse card body = .error e) : eventCapabilities body = ∅ := by
  unfold cardResponse at h
  split at h
  · cases h
  · cases h
  · cases h
  · split at h
    · cases h
    · next hbot =>
      split at h
      · cases h
      · next hhuman => exact (if_neg hbot).trans (if_neg hhuman)
  · cases h

/-- The response to a card that the SDK renders has a shape exactly when the event advertises it. -/
theorem serialize_card_iff {card : Card} {data : Json.Fields} (hdata : card.toDict sdk = .ok data)
    {shape : Response → Prop} {capability : ResponseCapability}
    (hshape : ∀ response, Shaped event.body response →
      (shape response ↔ capability ∈ eventCapabilities event.body)) :
    (∃ response, serialize sdk (.card card) event = .ok response ∧ shape response) ↔
      capability ∈ eventCapabilities event.body := by
  by_cases hremoved : event.body = some .removedFromSpace
  · refine iff_of_false ?_ ?_
    · rintro ⟨response, hresponse, -⟩
      exact not_accepts_of_removed rfl hremoved ⟨response, hresponse⟩
    · rw [hremoved]
      exact Finset.notMem_empty _
  · have hserialize : serialize sdk (.card card) event = cardResponse data event.body := by
      rw [serialize_eq_respond hremoved, respond, serializeCard, hdata]
      rfl
    rw [hserialize]
    cases hresponse : cardResponse data event.body with
    | error e =>
      rw [eventCapabilities_of_refused hresponse]
      refine iff_of_false ?_ (Finset.notMem_empty _)
      rintro ⟨response, h, -⟩
      cases h
    | ok response =>
      rw [← hshape response (shaped_cardResponse hresponse)]
      constructor
      · rintro ⟨response', h, hshape'⟩
        cases h
        exact hshape'
      · intro h
        exact ⟨response, rfl, h⟩

/-! ## The capabilities -/

/-- What the event takes is what it advertises; a payload that is rendered is one whose `to_dict`
returns. -/
structure Matches (sdk : Sdk) (event : AnyEvent) (capabilities : Finset ResponseCapability) : Prop where
  dialogs : ∀ dialog data, dialog.toDict sdk = .ok data →
    (Accepts sdk (.dialog dialog) event ↔ .dialogs ∈ capabilities)
  updateWidget : ∀ autocomplete,
    Accepts sdk (.widgetAutocomplete autocomplete) event ↔ .updateWidget ∈ capabilities
  cardUpdateBot : ∀ card data, card.toDict sdk = .ok data →
    ((∃ response, serialize sdk (.card card) event = .ok response ∧
      Updates "UPDATE_MESSAGE" response) ↔ .cardUpdateBot ∈ capabilities)
  cardUpdateUser : ∀ card data, card.toDict sdk = .ok data →
    ((∃ response, serialize sdk (.card card) event = .ok response ∧
      Updates "UPDATE_USER_MESSAGE_CARDS" response) ↔ .cardUpdateUser ∈ capabilities)
  appHome : ∀ card data, card.toDict sdk = .ok data →
    ((∃ response, serialize sdk (.card card) event = .ok response ∧ Navigates response) ↔
      .appHome ∈ capabilities)
  text : ∀ s, Accepts sdk (.text s) event ↔
    .syncResponse ∈ capabilities ∧ event.body ≠ some .removedFromSpace

theorem mem_http_iff {capability : ResponseCapability} (hsync : capability ≠ .syncResponse)
    (hdialogs : capability ≠ .dialogs) :
    capability ∈ eventCapabilities event.body ↔ capability ∈ httpCapabilities (some event) :=
  (mem_httpCapabilities hsync hdialogs (some event)).symm

/-- **Main result.** Over HTTP every event takes what it advertises, except a text after the app was
removed from the space. -/
theorem capabilities_match (sdk : Sdk) (event : AnyEvent) :
    ∃ capabilities, resolve "http" (some event) = .ok capabilities ∧ Matches sdk event capabilities := by
  refine ⟨httpCapabilities (some event), resolve_http _, ?_⟩
  constructor
  · intro dialog data hdata
    rw [accepts_dialog_iff hdata, dialogs_mem_iff]
  · intro autocomplete
    rw [accepts_widget_iff, mem_http_iff (by decide) (by decide)]
  · intro card data hdata
    rw [← mem_http_iff (by decide) (by decide)]
    exact serialize_card_iff hdata fun _ hshaped => hshaped.bot
  · intro card data hdata
    rw [← mem_http_iff (by decide) (by decide)]
    exact serialize_card_iff hdata fun _ hshaped => hshaped.user
  · intro card data hdata
    rw [← mem_http_iff (by decide) (by decide)]
    exact serialize_card_iff hdata fun _ hshaped => hshaped.home
  · intro s
    rw [accepts_text_iff]
    exact (and_iff_right (syncResponse_mem (some event))).symm

def removed : AnyEvent :=
  .known ⟨.null, none, none, none, none, none, none, none, .removedFromSpace⟩

/-- The synchronous response is advertised, and a text is refused. -/
theorem removed_refuses_text :
    (∃ capabilities, resolve "http" (some removed) = .ok capabilities ∧
      .syncResponse ∈ capabilities) ∧ ¬ Accepts Cards.facadeSdk (.text "bye") removed := by
  refine ⟨⟨_, rfl, syncResponse_mem _⟩, ?_⟩
  rintro ⟨response, hresponse⟩
  cases hresponse

end Chattice.Serializer
