import Chattice.Cards.Widgets
import Chattice.Data.Except
import Chattice.Protobuf.Message
import Chattice.Python.Url
import Mathlib.Algebra.Order.Ring.Rat

/-!
# Cards and SDK messages

`to_proto`, `from_proto` and the JSON of a card. The SDK and the protobuf runtime are parameters: what
their messages can hold and what they read from JSON. The dict that nests a message in a constructor
call (`_proto_dict`) stands for the message itself.
-/

namespace Chattice.Cards

open Protobuf
open Python (Text isHttpsUrl)

/-- What building, reading and checking a card may raise. -/
inductive Exc where
  | valueError (text : Text)
  | notImplementedError (text : Text)
  | assetPublishError (text : Text)
  | parseError (text : Text)
  /-- The SDK message of this type does not hold the values. -/
  | sdkError (type : String)
  deriving Repr

/-- The SDK's messages and the protobuf runtime. -/
structure Sdk where
  /-- A message of the type can hold these fields. -/
  holds : String → Message → Bool
  /-- `ParseDict(data, Type(), ignore_unknown_fields=True)` -/
  parse : String → Json.Fields → Except Text Message
  /-- The 32-bit number a message keeps. -/
  float32 : Rat → Rat
  /-- The enumerator an `open_as` value stands for. -/
  openAs : Json → Option Scalar
  specialNetloc : String → Bool

/-- A number a 32-bit float holds. -/
def Representable32 (q : Rat) : Prop :=
  ∃ m : Int, m.natAbs < 2 ^ 24 ∧ ((∃ e ≤ 104, q = m * 2 ^ e) ∨ ∃ e ≤ 149, q = m / 2 ^ e)

/-- What the facades rely on: messages are read back from their JSON, and keep 32-bit numbers. -/
structure Sdk.Lawful (sdk : Sdk) : Prop where
  lossless : ∀ type m, sdk.holds type m = true → sdk.parse type m.toDict = .ok m
  float32 : ∀ q, Representable32 q → sdk.float32 q = q

/-- `Type(**kwargs)` -/
def Sdk.construct (sdk : Sdk) (type : String) (kwargs : List (String × Option Value)) :
    Except Exc Message :=
  if sdk.holds type (.build kwargs) then .ok (.build kwargs) else .error (.sdkError type)

theorem construct_eq_ok {sdk : Sdk} {type : String} {kwargs : List (String × Option Value)}
    {m : Message} :
    sdk.construct type kwargs = .ok m ↔ sdk.holds type (.build kwargs) = true ∧ m = .build kwargs := by
  unfold Sdk.construct
  split
  · next h => exact ⟨fun hm => ⟨h, (Except.ok.inj hm).symm⟩, fun hm => congrArg _ hm.2.symm⟩
  · next h => exact ⟨nofun, fun hm => absurd hm.1 h⟩

/-- `ParseDict` where its error is not caught. -/
def Sdk.parseDict (sdk : Sdk) (type : String) (data : Json.Fields) : Except Exc Message :=
  match sdk.parse type data with
  | .ok m => .ok m
  | .error error => .error (.parseError error)

/-- The value of a field whose message is built when the attribute is set. -/
def optional {α : Type} (write : α → Except Exc Message) : Option α → Except Exc (Option Value)
  | some a => (write a).map ofMessage
  | none => .ok none

theorem optional_eq_ok {α : Type} {write : α → Except Exc Message} {a : Option α}
    {value : Option Value} (h : optional write a = .ok value) :
    (a = none ∧ value = none) ∨ ∃ b m, a = some b ∧ write b = .ok m ∧ value = ofMessage m := by
  cases a with
  | none => exact .inl ⟨rfl, (Except.ok.inj h).symm⟩
  | some b =>
    simp only [optional] at h
    cases hm : write b with
    | error e =>
      rw [hm] at h
      cases h
    | ok m =>
      rw [hm] at h
      exact .inr ⟨b, m, rfl, hm, (Except.ok.inj h).symm⟩

/-- The names of the enumerators with the number 0. -/
def interactionZero : String := "INTERACTION_UNSPECIFIED"
def buttonTypeZero : String := "TYPE_UNSPECIFIED"
def inputTypeZero : String := "INPUT_TYPE_UNSPECIFIED"
/-- "the SDK LoadIndicator enum has NO unspecified value (SPINNER == 0 == unset)" -/
def loadIndicatorZero : String := "SPINNER"

/-- `text or None` -/
def orNone (s : String) : Option String := if s = "" then none else some s

/-- `n or None` -/
def intOrNone (n : Int) : Option Int := if n = 0 then none else some n

/-- `value.name if value else None` -/
def enumOrNone (zero name : String) : Option String := if name = zero then none else some name

/-! ## Actions and links -/

/-- `{key: value for …}`: a later value of a key takes the place of the earlier. -/
def dictSet (items : List (String × String)) (item : String × String) : List (String × String) :=
  match items with
  | [] => [item]
  | (key, value) :: rest => if key = item.1 then item :: rest else (key, value) :: dictSet rest item

/-- `[{"key": key, "value": value} for …]` -/
def parametersToProto (parameters : List (String × String)) : List Message :=
  parameters.map fun (key, value) => .build [("key", ofText key), ("value", ofText value)]

/-- `{p.key: p.value for p in parameters}` -/
def parametersFromProto (parameters : List Message) : List (String × String) :=
  (parameters.map fun p => (p.text "key", p.text "value")).foldl dictSet []

def Action.toProto (sdk : Sdk) (action : Action) : Except Exc Message :=
  sdk.construct "Action" [
    ("function", action.function.bind ofText),
    ("parameters", ofMessages (parametersToProto action.parameters)),
    ("interaction", action.interaction.bind (ofEnum interactionZero))]

def Action.fromProto (proto : Message) : Action where
  function := orNone (proto.text "function")
  parameters := parametersFromProto (proto.messages "parameters")
  interaction := enumOrNone interactionZero (proto.enumName "interaction" interactionZero)

def OpenLink.toProto (sdk : Sdk) (link : OpenLink) : Except Exc Message :=
  sdk.construct "OpenLink" [
    ("url", ofText link.url),
    ("open_as", (link.openAs.bind sdk.openAs).map .scalar)]

def OpenLink.fromProto (proto : Message) : OpenLink where
  url := proto.text "url"
  openAs := match proto.lookup "open_as" with
    | some (.scalar s) => some s.toJson
    | _ => none

/-! ## Widgets -/

def TextParagraph.toProto (sdk : Sdk) (widget : TextParagraph) : Except Exc Message :=
  sdk.construct "TextParagraph" [
    ("text", ofText widget.text),
    ("max_lines", widget.maxLines.bind ofInt)]

/-- The number of a channel, which a message holds with 32 bits. -/
def numberToProto (sdk : Sdk) (value : Json) : Except Exc Rat :=
  match value.number with
  | some q => .ok (sdk.float32 q)
  | none => .error (.sdkError "Color")

/-- The field `alpha` is a message: it takes a `FloatValue` or the mapping of one, and no number. -/
def alphaToProto (sdk : Sdk) : Channel → Except Exc (Option Value)
  | .floatValue q => .ok (ofFloatValue q)
  | .plain .null => .ok none
  | .plain (.dict []) => .ok (ofFloatValue 0)
  | .plain (.dict [("value", .null)]) => .ok (ofFloatValue 0)
  | .plain (.dict [("value", value)]) => do return ofFloatValue (← numberToProto sdk value)
  | .plain _ => .error (.sdkError "Color")

/-- The other fields are numbers. -/
def floatToProto (sdk : Sdk) : Channel → Except Exc (Option Value)
  | .plain .null => .ok none
  | .plain value => do return ofFloat (← numberToProto sdk value)
  | .floatValue _ => .error (.sdkError "Color")

/-- An entry of a colour mapping; `None` leaves a field unset. -/
def channelToProto (sdk : Sdk) (item : String × Channel) : Except Exc (String × Option Value) :=
  if item.1 = "alpha" then do return (item.1, ← alphaToProto sdk item.2)
  else if item.1 ∈ ["red", "green", "blue"] then do return (item.1, ← floatToProto sdk item.2)
  else .error (.sdkError "Color")

def IsScalar (value : Option Value) : Prop := ∃ s : Option Scalar, value = s.map .scalar

theorem alphaToProto_isScalar {sdk : Sdk} {channel : Channel} {value : Option Value}
    (h : alphaToProto sdk channel = .ok value) : IsScalar value := by
  unfold alphaToProto at h
  split at h
  · cases h
    exact ⟨some _, rfl⟩
  · cases h
    exact ⟨none, rfl⟩
  · cases h
    exact ⟨some _, rfl⟩
  · cases h
    exact ⟨some _, rfl⟩
  · obtain ⟨q, -, h⟩ := Except.bind_eq_ok.mp h
    cases h
    exact ⟨some _, rfl⟩
  · cases h

theorem floatToProto_isScalar {sdk : Sdk} {channel : Channel} {value : Option Value}
    (h : floatToProto sdk channel = .ok value) : IsScalar value := by
  unfold floatToProto at h
  split at h
  · cases h
    exact ⟨none, rfl⟩
  · obtain ⟨q, -, h⟩ := Except.bind_eq_ok.mp h
    cases h
    unfold ofFloat
    split
    · exact ⟨none, rfl⟩
    · exact ⟨some _, rfl⟩
  · cases h

theorem channelToProto_eq_ok {sdk : Sdk} {item : String × Channel} {sent : String × Option Value}
    (h : channelToProto sdk item = .ok sent) : sent.1 = item.1 ∧ IsScalar sent.2 := by
  unfold channelToProto at h
  split at h
  · obtain ⟨value, hvalue, h⟩ := Except.bind_eq_ok.mp h
    cases h
    exact ⟨rfl, alphaToProto_isScalar hvalue⟩
  · split at h
    · obtain ⟨value, hvalue, h⟩ := Except.bind_eq_ok.mp h
      cases h
      exact ⟨rfl, floatToProto_isScalar hvalue⟩
    · cases h

def colorToProto (sdk : Sdk) : Color → Except Exc Message
  | .mapping items => do sdk.construct "Color" (← items.mapM (channelToProto sdk))
  | .message red green blue alpha =>
    sdk.construct "Color" [("red", ofFloat red), ("green", ofFloat green), ("blue", ofFloat blue),
      ("alpha", alpha.bind ofFloatValue)]
  | .other _ => .error (.sdkError "Color")

/-- `_color_to_mapping`: the value of `alpha` is the `FloatValue`. -/
def colorToMapping (color : Message) : Color :=
  .mapping [("red", .plain (.float (color.float "red"))),
    ("green", .plain (.float (color.float "green"))),
    ("blue", .plain (.float (color.float "blue"))), ("alpha", .floatValue (color.floatValue "alpha"))]

/-- `_button_type_name` -/
def buttonTypeName (name : String) : Option String :=
  if name = "" ∨ name = "TYPE_UNSPECIFIED" ∨ name = "BUTTON_TYPE_UNSPECIFIED" then none
  else some name

def Button.actionToProto (button : Button) (function : String) : Message :=
  .build [
    ("function", ofText function),
    ("parameters", ofMessages (parametersToProto button.parameters)),
    ("interaction", button.interaction.bind (ofEnum interactionZero)),
    ("required_widgets", ofTexts button.requiredWidgets),
    ("persist_values", ofBool button.persistValues),
    ("load_indicator", ofEnum loadIndicatorZero (if button.loadIndicator then "SPINNER" else "NONE"))]

/-- The `on_click` of a button. -/
def Button.onClickToProto (button : Button) : Except Exc Message :=
  match button.action, button.openLink with
  | some function, _ => .ok (.build [("action", ofMessage (button.actionToProto function))])
  | none, some url =>
    .ok (.build [("open_link", ofMessage (.build [("url", ofText url)]))])
  | none, none => .error (.valueError [.text "Button requires 'action' or 'open_link'"])

def Button.toProto (sdk : Sdk) (button : Button) : Except Exc Message := do
  let onClick ← button.onClickToProto
  let color ← optional (colorToProto sdk) button.color
  sdk.construct "Button" [
    ("text", ofText button.text),
    ("on_click", ofMessage onClick),
    ("disabled", ofBool button.disabled),
    ("color", color),
    ("type", button.type.bind (ofEnum buttonTypeZero)),
    ("alt_text", button.altText.bind ofText)]

/-- A button of `Section.from_proto`. -/
def Button.fromProto (b : Message) : Except Exc Button :=
  let onClick := b.message "on_click"
  if onClick.hasField "action" then
    let action := onClick.message "action"
    .ok {
      text := b.text "text"
      action := orNone (action.text "function")
      parameters := parametersFromProto (action.messages "parameters")
      interaction := enumOrNone interactionZero (action.enumName "interaction" interactionZero)
      disabled := b.bool "disabled"
      altText := orNone (b.text "alt_text")
      requiredWidgets := action.texts "required_widgets"
      persistValues := action.bool "persist_values"
      loadIndicator := action.enumName "load_indicator" loadIndicatorZero == "SPINNER"
      type := buttonTypeName (b.enumName "type" buttonTypeZero)
      color := if b.hasField "color" then some (colorToMapping (b.message "color")) else none
      openLink := none
      notBoth := .inr rfl }
  else if onClick.hasField "open_link" then
    .ok {
      text := b.text "text"
      openLink := some ((onClick.message "open_link").text "url")
      disabled := b.bool "disabled"
      altText := orNone (b.text "alt_text")
      type := buttonTypeName (b.enumName "type" buttonTypeZero)
      action := none
      parameters := []
      interaction := none
      requiredWidgets := []
      persistValues := false
      loadIndicator := false
      color := none
      notBoth := .inl rfl }
  else
    .error (.notImplementedError [.text "Button onClick kind ",
      .repr (((onClick.head?.map Prod.fst).map Json.str).getD .null), .text " is not rebuildable"])

def ButtonList.toProto (sdk : Sdk) (widget : ButtonList) : Except Exc Message := do
  let buttons ← widget.buttons.mapM (Button.toProto sdk)
  sdk.construct "ButtonList" [("buttons", ofMessages buttons)]

def TextInputType.value : TextInputType → String
  | .text => "TEXT"
  | .integer => "INTEGER"
  | .float => "FLOAT"
  | .email => "EMAIL"
  | .emojiPicker => "EMOJI_PICKER"

/-- `TextInputType(value)` -/
def TextInputType.ofValue (value : String) : Except Exc TextInputType :=
  match [TextInputType.text, .integer, .float, .email, .emojiPicker].find? (·.value = value) with
  | some type => .ok type
  | none => .error (.valueError [.repr (.str value), .text " is not a valid TextInputType"])

def Validation.toProto (sdk : Sdk) (validation : Validation) : Except Exc Message :=
  sdk.construct "Validation" [
    ("character_limit", validation.characterLimit.bind ofInt),
    ("input_type", validation.inputType.bind fun type => ofEnum inputTypeZero type.value)]

/-- The validation of `Section.from_proto`: none when neither field is set. -/
def Validation.fromProto (proto : Message) : Except Exc (Option Validation) :=
  let inputType := proto.enumName "input_type" inputTypeZero
  if proto.int "character_limit" ≠ 0 ∨ inputType ≠ inputTypeZero then do
    let type ← match enumOrNone inputTypeZero inputType with
      | some name => some <$> TextInputType.ofValue name
      | none => .ok none
    return some ⟨intOrNone (proto.int "character_limit"), type⟩
  else .ok none

def TextInput.toProto (sdk : Sdk) (widget : TextInput) : Except Exc Message := do
  let validation ← optional (Validation.toProto sdk) widget.validation
  sdk.construct "TextInput" [
    ("name", ofText widget.name),
    ("label", ofText widget.label),
    ("hint_text", widget.hintText.bind ofText),
    ("value", widget.value.bind ofText),
    ("validation", validation)]

def SelectionInput.toProto (sdk : Sdk) (widget : SelectionInput) : Except Exc Message := do
  let items ← widget.items.mapM fun item =>
    sdk.construct "SelectionItem" (item.map fun entry => (entry.1, ofText entry.2))
  let source ← optional (Action.toProto sdk) widget.externalDataSource
  sdk.construct "SelectionInput" [
    ("name", ofText widget.name),
    ("label", ofText widget.label),
    ("items", ofMessages items),
    ("external_data_source", source),
    ("multi_select_max_selected_items", widget.multiSelectMaxSelectedItems.bind ofInt),
    ("multi_select_min_query_length", widget.multiSelectMinQueryLength.bind ofInt)]

def DateTimePicker.toProto (sdk : Sdk) (widget : DateTimePicker) : Except Exc Message :=
  sdk.construct "DateTimePicker" [
    ("name", ofText widget.name),
    ("label", ofText widget.label),
    ("value_ms_epoch", widget.valueMsEpoch.bind ofInt64),
    ("timezone_offset_date", widget.timezoneOffsetDate.bind ofInt)]

def OnClick.toProto (sdk : Sdk) : OnClick → Except Exc Message
  | .action clicked => do return .build [("action", ofMessage (← clicked.toProto sdk))]
  | .openLink link => do return .build [("open_link", ofMessage (← link.toProto sdk))]

/-- The click of an image: an action, a link or nothing the facade knows. -/
def OnClick.fromProto (onClick : Message) : Option OnClick :=
  if onClick.hasField "action" then some (.action (.fromProto (onClick.message "action")))
  else if onClick.hasField "open_link" then
    some (.openLink (.fromProto (onClick.message "open_link")))
  else none

def Image.toProto (sdk : Sdk) (image : Image) : Except Exc Message :=
  match image.source with
  | .file _ => .error (.assetPublishError [.text ("Local Card images must be resolved through the " ++
      "message resource clients before serialization")])
  | .url imageUrl => do
    let onClick ← optional (OnClick.toProto sdk) image.onClick
    sdk.construct "Image" [
      ("image_url", ofText imageUrl),
      ("alt_text", image.altText.bind ofText),
      ("on_click", onClick)]

/-- `Image(image_url, alt_text, on_click)` -/
def Image.ofUrl (sdk : Sdk) (imageUrl : String) (altText : Option String)
    (onClick : Option OnClick) : Except Exc Image :=
  if isHttpsUrl sdk.specialNetloc imageUrl then .ok ⟨.url imageUrl, altText, onClick⟩
  else .error (.valueError [.text ("Image.image_url must be an absolute HTTPS URL; local " ++
    "paths, bytes and data: URLs require Image.from_path() or Image.from_bytes()")])

/-- `RawWidget(payload)` -/
def RawWidget.ofPayload (sdk : Sdk) (payload : Json.Fields) : Except Exc RawWidget :=
  match sdk.parse "Widget" payload with
  | .ok _ => .ok ⟨payload⟩
  | .error error =>
    .error (.valueError (.text "RawWidget payload is not a valid Cards v2 widget: " :: error))

/-! ## Sections -/

/-- The widget kinds of the facade. -/
inductive Kind where
  | textParagraph | divider | buttonList | textInput | selectionInput | dateTimePicker | image
  deriving DecidableEq, Repr

def Kind.field : Kind → String
  | .textParagraph => "text_paragraph"
  | .divider => "divider"
  | .buttonList => "button_list"
  | .textInput => "text_input"
  | .selectionInput => "selection_input"
  | .dateTimePicker => "date_time_picker"
  | .image => "image"

def Kind.all : List Kind :=
  [.textParagraph, .divider, .buttonList, .textInput, .selectionInput, .dateTimePicker, .image]

/-- The supported kind a widget message has set. -/
def whichWidget (widget : Message) : Option Kind := Kind.all.find? fun k => widget.hasField k.field

/-- `_widget_dict` -/
def Widget.toProto (sdk : Sdk) : Widget → Except Exc Message
  | .textParagraph w => do return [(Kind.textParagraph.field, .message (← w.toProto sdk))]
  | .divider => do return [(Kind.divider.field, .message (← sdk.construct "Divider" []))]
  | .buttonList w => do return [(Kind.buttonList.field, .message (← w.toProto sdk))]
  | .textInput w => do return [(Kind.textInput.field, .message (← w.toProto sdk))]
  | .selectionInput w => do return [(Kind.selectionInput.field, .message (← w.toProto sdk))]
  | .dateTimePicker w => do return [(Kind.dateTimePicker.field, .message (← w.toProto sdk))]
  | .image w => do return [(Kind.image.field, .message (← w.toProto sdk))]
  | .raw w => sdk.parseDict "Widget" w.payload

/-- `to_proto_dict` -/
def Section.toProtoDict (sdk : Sdk) (part : Section) : Except Exc Message := do
  let widgets ← part.widgets.mapM (Widget.toProto sdk)
  return .build [("header", part.header.bind ofText), ("widgets", ofMessages widgets)]

def TextInput.fromProto (ti : Message) : Except Exc TextInput := do
  let validation ← Validation.fromProto (ti.message "validation")
  return {
    name := ti.text "name"
    label := ti.text "label"
    hintText := orNone (ti.text "hint_text")
    value := orNone (ti.text "value")
    validation }

def SelectionInput.fromProto (si : Message) : SelectionInput where
  name := si.text "name"
  label := si.text "label"
  items := (si.messages "items").map fun i => [("text", i.text "text"), ("value", i.text "value")]
  externalDataSource :=
    if si.hasField "external_data_source" then
      let source := si.message "external_data_source"
      some {
        function := orNone (source.text "function")
        parameters := parametersFromProto (source.messages "parameters")
        interaction := none }
    else none
  multiSelectMaxSelectedItems := intOrNone (si.int "multi_select_max_selected_items")
  multiSelectMinQueryLength := intOrNone (si.int "multi_select_min_query_length")

/-- A widget of `Section.from_proto`. -/
def Widget.fromProto (sdk : Sdk) (widget : Message) : Except Exc Widget :=
  match whichWidget widget with
  | some .textParagraph =>
    let tp := widget.message Kind.textParagraph.field
    .ok (.textParagraph ⟨tp.text "text", intOrNone (tp.int "max_lines")⟩)
  | some .divider => .ok .divider
  | some .buttonList => do
    let bl := widget.message Kind.buttonList.field
    return .buttonList ⟨← (bl.messages "buttons").mapM Button.fromProto⟩
  | some .textInput => do
    return .textInput (← TextInput.fromProto (widget.message Kind.textInput.field))
  | some .selectionInput =>
    .ok (.selectionInput (.fromProto (widget.message Kind.selectionInput.field)))
  | some .dateTimePicker =>
    let dp := widget.message Kind.dateTimePicker.field
    .ok (.dateTimePicker {
      name := dp.text "name"
      label := dp.text "label"
      valueMsEpoch := intOrNone (dp.int "value_ms_epoch")
      timezoneOffsetDate := intOrNone (dp.int "timezone_offset_date") })
  | some .image => do
    let image := widget.message Kind.image.field
    return .image (← Image.ofUrl sdk (image.text "image_url") (orNone (image.text "alt_text"))
      (OnClick.fromProto (image.message "on_click")))
  | none => do return .raw (← RawWidget.ofPayload sdk widget.toDict)

def Section.fromProto (sdk : Sdk) (proto : Message) : Except Exc Section := do
  let widgets ← (proto.messages "widgets").mapM (Widget.fromProto sdk)
  return ⟨orNone (proto.text "header"), widgets⟩

/-! ## Cards -/

def CardHeader.toProto (header : CardHeader) : Message :=
  .build [
    ("title", ofText header.title),
    ("subtitle", header.subtitle.bind ofText),
    ("image_url", header.imageUrl.bind ofText)]

def Card.toProto (sdk : Sdk) (card : Card) : Except Exc Message :=
  match card.raw with
  | some raw => sdk.parseDict "Card" raw
  | none => do
    let header := ("header", card.header.bind fun header => ofMessage header.toProto)
    let name := ("name", card.name.bind ofText)
    let _ ← sdk.construct "Card" [header, name]
    let sections ← card.sections.mapM (Section.toProtoDict sdk)
    -- `card.sections.append(section)` for each section
    sdk.construct "Card" [header, name, ("sections", ofMessages sections)]

theorem Card.toProto_eq_ok {sdk : Sdk} {card : Card} (hraw : card.raw = none) {m : Message}
    (hm : card.toProto sdk = .ok m) : ∃ sections,
      card.sections.mapM (Section.toProtoDict sdk) = .ok sections ∧ sdk.holds "Card" m = true ∧
        m = .build [("header", card.header.bind fun header => ofMessage header.toProto),
          ("name", card.name.bind ofText), ("sections", ofMessages sections)] := by
  simp only [toProto, hraw] at hm
  obtain ⟨_, -, hm⟩ := Except.bind_eq_ok.mp hm
  obtain ⟨sections, hsections, hm⟩ := Except.bind_eq_ok.mp hm
  obtain ⟨hholds, rfl⟩ := construct_eq_ok.mp hm
  exact ⟨sections, hsections, hholds, rfl⟩

/-- `to_dict` -/
def Card.toDict (sdk : Sdk) (card : Card) : Except Exc Json.Fields :=
  match card.raw with
  | some raw => .ok raw
  | none => (card.toProto sdk).map Message.toDict

/-- The header of `Card.from_proto`: none when its three fields are unset. -/
def CardHeader.fromProto (header : Message) : Option CardHeader :=
  if header.text "title" ≠ "" ∨ header.text "subtitle" ≠ "" ∨ header.text "image_url" ≠ "" then
    some {
      title := header.text "title"
      subtitle := orNone (header.text "subtitle")
      imageUrl := orNone (header.text "image_url") }
  else none

def Card.fromProto (sdk : Sdk) (proto : Message) : Except Exc Card := do
  let sections ← (proto.messages "sections").mapM (Section.fromProto sdk)
  return {
    header := CardHeader.fromProto (proto.message "header")
    sections
    name := orNone (proto.text "name")
    raw := none }

end Chattice.Cards
