import Chattice.Cards.Descriptors
import Chattice.Protobuf.Spelling

/-!
# Dialogs and the date-time picker

A dialog rejects the typed picker and a raw widget with the key `dateTimePicker`; what it sends is what
the protobuf parser reads from the raw payloads, at any depth and under either name of a field.

* `Widget.sets_toProto` : an accepted widget sends a picker exactly when its payload is read with one;
* `Dialog.pickerFree_iff` : a dialog sends no picker exactly when no payload is read with one.
-/

namespace Chattice.Cards

open Protobuf

/-- `_reject_datetime_picker` -/
def rejectDatetimePicker (widget : Widget) : Except Exc Unit :=
  let rejected := match widget with
    | .dateTimePicker _ => true
    | .raw w => (w.payload.lookup "dateTimePicker").isSome
    | _ => false
  if rejected then
    .error (.valueError [.text ("DateTimePicker is not supported inside dialogs (documented " ++
      "Google Chat constraint); use it in card messages instead")])
  else .ok ()

/-- `Dialog(body)`: the constructor has checked the widgets of every section. -/
structure Dialog where
  body : Card
  checked : ∀ part ∈ body.sections, ∀ widget ∈ part.widgets, rejectDatetimePicker widget = .ok ()

def Dialog.toProto (sdk : Sdk) (dialog : Dialog) : Except Exc Message := do
  let body ← dialog.body.toProto sdk
  sdk.construct "Dialog" [("body", ofMessage body)]

/-- `to_dict` -/
def Dialog.toDict (sdk : Sdk) (dialog : Dialog) : Except Exc Json.Fields := do
  let m ← dialog.toProto sdk
  return [("dialog", .dict m.toDict)]

def pickerKey : String := "dateTimePicker"

/-- The parser reads the payload of the type with a picker, in the message itself or below it. -/
def readsPicker (sdk : Sdk) (type : String) (payload : Json.Fields) : Bool :=
  match sdk.parse type payload with
  | .ok m => m.sets pickerKey
  | .error _ => false

/-- A raw widget with a picker for the parser. -/
def Widget.hidesPicker (sdk : Sdk) : Widget → Bool
  | .raw w => readsPicker sdk "Widget" w.payload
  | _ => false

/-- A picker for the parser in the snapshot of `Card.from_dict`, or else in a raw widget. -/
def Card.hidesPicker (sdk : Sdk) (card : Card) : Bool :=
  match card.raw with
  | some raw => readsPicker sdk "Card" raw
  | none => card.sections.any fun part => part.widgets.any (Widget.hidesPicker sdk)

/-- Colours and selection items have no field for a picker. -/
def Sdk.NoPickerEntry (sdk : Sdk) : Prop :=
  ∀ type ∈ ["Color", "SelectionItem"], ∀ m, sdk.holds type m = true →
    ∀ entry ∈ m, jsonName entry.1 ≠ pickerKey

/-! ## What a typed widget sends -/

theorem sets_parametersToProto (parameters : List (String × String)) :
    (parametersToProto parameters).any (Message.sets pickerKey) = false := by
  rw [parametersToProto, List.any_map, List.any_eq_false]
  rintro ⟨key, value⟩ -
  simp (disch := decide) [sets_build_cons]

theorem Action.sets_toProto {sdk : Sdk} {action : Action} {m : Message}
    (hm : action.toProto sdk = .ok m) : m.sets pickerKey = false := by
  obtain ⟨-, rfl⟩ := construct_eq_ok.mp hm
  simp (disch := decide) [sets_build_cons, sets_parametersToProto]

theorem OpenLink.sets_toProto {sdk : Sdk} {link : OpenLink} {m : Message}
    (hm : link.toProto sdk = .ok m) : m.sets pickerKey = false := by
  obtain ⟨-, rfl⟩ := construct_eq_ok.mp hm
  have hscalar : setsIn pickerKey ((link.openAs.bind sdk.openAs).map .scalar) = false := by
    cases link.openAs.bind sdk.openAs <;> rfl
  rw [sets_build_cons pickerKey (by decide), sets_build_cons pickerKey (by decide), hscalar]
  simp

theorem OnClick.sets_toProto {sdk : Sdk} {click : OnClick} {m : Message}
    (hm : click.toProto sdk = .ok m) : m.sets pickerKey = false := by
  cases click with
  | action clicked =>
    obtain ⟨inner, hinner, hm⟩ := Except.bind_eq_ok.mp hm
    cases hm
    simp (disch := decide) [sets_build_cons, Action.sets_toProto hinner]
  | openLink link =>
    obtain ⟨inner, hinner, hm⟩ := Except.bind_eq_ok.mp hm
    cases hm
    simp (disch := decide) [sets_build_cons, OpenLink.sets_toProto hinner]

theorem setsIn_optional {α : Type} {write : α → Except Exc Message}
    (h : ∀ a m, write a = .ok m → m.sets pickerKey = false) {a : Option α} {value : Option Value}
    (hvalue : optional write a = .ok value) : setsIn pickerKey value = false := by
  obtain ⟨-, rfl⟩ | ⟨b, m, -, hm, rfl⟩ := optional_eq_ok hvalue
  · rfl
  · exact h b m hm

theorem any_sets_eq {α : Type} {write : α → Except Exc Message} {hides : α → Bool} {l : List α}
    {messages : List Message} (hmessages : l.mapM write = .ok messages)
    (h : ∀ a ∈ l, ∀ m, write a = .ok m → m.sets pickerKey = hides a) :
    messages.any (Message.sets pickerKey) = l.any hides := by
  have hall := Except.mapM_eq_ok.mp hmessages
  clear hmessages
  induction hall with
  | nil => rfl
  | cons hm _ ih =>
    rw [List.any_cons, List.any_cons, h _ (.head _) _ hm, ih fun a ha => h a (.tail _ ha)]

theorem any_sets_mapM {α : Type} {write : α → Except Exc Message} {l : List α} {messages : List Message}
    (hmessages : l.mapM write = .ok messages)
    (h : ∀ a ∈ l, ∀ m, write a = .ok m → m.sets pickerKey = false) :
    messages.any (Message.sets pickerKey) = false := by
  have hnone : ∀ a ∈ l, ∀ m, write a = .ok m → m.sets pickerKey = (fun _ => false) a := h
  rw [any_sets_eq hmessages hnone]
  exact List.any_eq_false.mpr fun _ _ => nofun

theorem parseDict_sets {sdk : Sdk} {type : String} {data : Json.Fields} {m : Message}
    (hm : sdk.parseDict type data = .ok m) : m.sets pickerKey = readsPicker sdk type data := by
  unfold Sdk.parseDict at hm
  unfold readsPicker
  cases hfound : sdk.parse type data with
  | ok found =>
    rw [hfound] at hm
    cases hm
    rfl
  | error error =>
    rw [hfound] at hm
    cases hm

/-- A message of such a type has no entry for a picker, whatever the keys of its mapping. -/
theorem sets_construct {sdk : Sdk} (hsdk : sdk.NoPickerEntry) {type : String}
    (htype : type ∈ ["Color", "SelectionItem"]) {kwargs : List (String × Option Value)}
    (hvalue : ∀ kwarg ∈ kwargs, setsIn pickerKey kwarg.2 = false) {m : Message}
    (hm : sdk.construct type kwargs = .ok m) : m.sets pickerKey = false := by
  obtain ⟨hholds, rfl⟩ := construct_eq_ok.mp hm
  refine sets_of_forall pickerKey fun entry hentry => ⟨hsdk type htype _ hholds entry hentry, ?_⟩
  obtain ⟨kwarg, hkwarg, hentry⟩ := List.mem_filterMap.mp hentry
  obtain ⟨v, hv, rfl⟩ := Option.map_eq_some_iff.mp hentry
  have hset := hvalue kwarg hkwarg
  rwa [hv] at hset

theorem colorToProto_sets {sdk : Sdk} (hsdk : sdk.NoPickerEntry) {color : Color} {m : Message}
    (hm : colorToProto sdk color = .ok m) : m.sets pickerKey = false := by
  cases color with
  | mapping items =>
    obtain ⟨channels, hchannels, hm⟩ := Except.bind_eq_ok.mp hm
    refine sets_construct hsdk (.head _) (fun kwarg hkwarg => ?_) hm
    obtain ⟨item, -, hitem⟩ := Except.exists_of_mem_mapM hchannels hkwarg
    obtain ⟨-, s, hs⟩ := channelToProto_eq_ok hitem
    rw [hs]
    cases s <;> rfl
  | message red green blue alpha =>
    have halpha : setsIn pickerKey (alpha.bind ofFloatValue) = false := by cases alpha <;> rfl
    obtain ⟨-, rfl⟩ := construct_eq_ok.mp hm
    simp (disch := decide) [sets_build_cons, halpha]
  | other value => cases hm

theorem Button.sets_toProto {sdk : Sdk} (hsdk : sdk.NoPickerEntry) {button : Button} {m : Message}
    (hm : button.toProto sdk = .ok m) : m.sets pickerKey = false := by
  obtain ⟨onClick, hclick, hm⟩ := Except.bind_eq_ok.mp hm
  obtain ⟨color, hcolor, hm⟩ := Except.bind_eq_ok.mp hm
  obtain ⟨-, rfl⟩ := construct_eq_ok.mp hm
  have hcolorSets := setsIn_optional (fun _ _ h => colorToProto_sets hsdk h) hcolor
  have hclickSets : onClick.sets pickerKey = false := by
    unfold onClickToProto at hclick
    split at hclick
    · cases hclick
      simp (disch := decide) [sets_build_cons, actionToProto, sets_parametersToProto]
    · cases hclick
      simp (disch := decide) [sets_build_cons]
    · cases hclick
  simp (disch := decide) [sets_build_cons, hcolorSets, hclickSets]

theorem Validation.sets_toProto {sdk : Sdk} {validation : Validation} {m : Message}
    (hm : validation.toProto sdk = .ok m) : m.sets pickerKey = false := by
  obtain ⟨-, rfl⟩ := construct_eq_ok.mp hm
  have htype : setsIn pickerKey
      (validation.inputType.bind fun type : TextInputType => ofEnum inputTypeZero type.value) = false :=
    setsIn_bind pickerKey (fun type : TextInputType => setsIn_ofEnum pickerKey _ type.value) _
  simp (disch := decide) [sets_build_cons, htype]

theorem TextInput.sets_toProto {sdk : Sdk} {widget : TextInput} {m : Message}
    (hm : widget.toProto sdk = .ok m) : m.sets pickerKey = false := by
  obtain ⟨validation, hvalidation, hm⟩ := Except.bind_eq_ok.mp hm
  obtain ⟨-, rfl⟩ := construct_eq_ok.mp hm
  have hvalidationSets := setsIn_optional (fun _ _ h => Validation.sets_toProto h) hvalidation
  simp (disch := decide) [sets_build_cons, hvalidationSets]

theorem SelectionInput.sets_toProto {sdk : Sdk} (hsdk : sdk.NoPickerEntry) {widget : SelectionInput}
    {m : Message} (hm : widget.toProto sdk = .ok m) : m.sets pickerKey = false := by
  obtain ⟨items, hitems, hm⟩ := Except.bind_eq_ok.mp hm
  obtain ⟨source, hsource, hm⟩ := Except.bind_eq_ok.mp hm
  obtain ⟨-, rfl⟩ := construct_eq_ok.mp hm
  have hsourceSets := setsIn_optional (fun _ _ h => Action.sets_toProto h) hsource
  have hitemsSets := any_sets_mapM hitems fun item _ m hm => by
    refine sets_construct hsdk (.tail _ (.head _)) (fun kwarg hkwarg => ?_) hm
    obtain ⟨entry, -, rfl⟩ := List.mem_map.mp hkwarg
    exact setsIn_ofText pickerKey entry.2
  simp (disch := decide) [sets_build_cons, hsourceSets, hitemsSets]

theorem Image.sets_toProto {sdk : Sdk} {image : Image} {m : Message}
    (hm : image.toProto sdk = .ok m) : m.sets pickerKey = false := by
  unfold toProto at hm
  split at hm
  · cases hm
  · obtain ⟨click, hclick, hm⟩ := Except.bind_eq_ok.mp hm
    obtain ⟨-, rfl⟩ := construct_eq_ok.mp hm
    have hclickSets := setsIn_optional (fun _ _ h => OnClick.sets_toProto h) hclick
    simp (disch := decide) [sets_build_cons, hclickSets]

theorem ButtonList.sets_toProto {sdk : Sdk} (hsdk : sdk.NoPickerEntry) {widget : ButtonList}
    {m : Message} (hm : widget.toProto sdk = .ok m) : m.sets pickerKey = false := by
  obtain ⟨buttons, hbuttons, hm⟩ := Except.bind_eq_ok.mp hm
  obtain ⟨-, rfl⟩ := construct_eq_ok.mp hm
  have hbuttonsSets := any_sets_mapM hbuttons fun _ _ _ h => Button.sets_toProto hsdk h
  simp (disch := decide) [sets_build_cons, hbuttonsSets]

theorem TextParagraph.sets_toProto {sdk : Sdk} {widget : TextParagraph} {m : Message}
    (hm : widget.toProto sdk = .ok m) : m.sets pickerKey = false := by
  obtain ⟨-, rfl⟩ := construct_eq_ok.mp hm
  simp (disch := decide) [sets_build_cons]

theorem jsonName_field_ne {kind : Kind} (hkind : kind ≠ .dateTimePicker) :
    jsonName kind.field ≠ pickerKey := by
  cases kind with
  | dateTimePicker => exact absurd rfl hkind
  | _ => decide

theorem sets_field (kind : Kind) (hkind : kind ≠ .dateTimePicker) {write : Except Exc Message}
    (hwrite : ∀ inner, write = .ok inner → inner.sets pickerKey = false) {m : Message}
    (hm : (do return [(kind.field, .message (← write))]) = Except.ok m) :
    m.sets pickerKey = false := by
  obtain ⟨inner, hinner, hm⟩ := Except.bind_eq_ok.mp hm
  cases hm
  refine sets_of_forall pickerKey fun entry hentry => ?_
  cases List.mem_singleton.mp hentry
  exact ⟨jsonName_field_ne hkind, hwrite inner hinner⟩

/-- **An accepted widget** sends a picker exactly when the parser reads one from its payload. -/
theorem Widget.sets_toProto {sdk : Sdk} (hsdk : sdk.NoPickerEntry) {widget : Widget}
    (hchecked : rejectDatetimePicker widget = .ok ()) {m : Message}
    (hm : widget.toProto sdk = .ok m) : m.sets pickerKey = widget.hidesPicker sdk := by
  cases widget with
  | textParagraph w => exact sets_field .textParagraph nofun (fun _ h => TextParagraph.sets_toProto h) hm
  | divider =>
    refine sets_field .divider nofun (fun inner h => ?_) hm
    obtain ⟨-, rfl⟩ := construct_eq_ok.mp h
    rfl
  | buttonList w => exact sets_field .buttonList nofun (fun _ h => ButtonList.sets_toProto hsdk h) hm
  | textInput w => exact sets_field .textInput nofun (fun _ h => TextInput.sets_toProto h) hm
  | selectionInput w =>
    exact sets_field .selectionInput nofun (fun _ h => SelectionInput.sets_toProto hsdk h) hm
  | dateTimePicker w => cases hchecked
  | image w => exact sets_field .image nofun (fun _ h => Image.sets_toProto h) hm
  | raw w =>
    exact parseDict_sets hm

/-! ## What a dialog sends -/

theorem Section.sets_toProtoDict {sdk : Sdk} (hsdk : sdk.NoPickerEntry) {part : Section}
    (hchecked : ∀ widget ∈ part.widgets, rejectDatetimePicker widget = .ok ()) {m : Message}
    (hm : part.toProtoDict sdk = .ok m) :
    m.sets pickerKey = part.widgets.any (Widget.hidesPicker sdk) := by
  obtain ⟨widgets, hwidgets, hm⟩ := Except.bind_eq_ok.mp hm
  cases hm
  have hany := any_sets_eq hwidgets fun widget hmem _ h =>
    Widget.sets_toProto hsdk (hchecked widget hmem) h
  simp (disch := decide) [sets_build_cons, hany]

theorem Card.sets_toProto {sdk : Sdk} (hsdk : sdk.NoPickerEntry) {card : Card}
    (hchecked : ∀ part ∈ card.sections, ∀ widget ∈ part.widgets, rejectDatetimePicker widget = .ok ())
    {m : Message} (hm : card.toProto sdk = .ok m) : m.sets pickerKey = card.hidesPicker sdk := by
  cases hraw : card.raw with
  | some raw =>
    simp only [toProto, hraw] at hm
    simp only [hidesPicker, hraw]
    exact parseDict_sets hm
  | none =>
    obtain ⟨sections, hsections, -, rfl⟩ := toProto_eq_ok hraw hm
    have hany := any_sets_eq hsections fun part hmem _ h =>
      Section.sets_toProtoDict hsdk (hchecked part hmem) h
    have hheader : setsIn pickerKey (card.header.bind fun header => ofMessage header.toProto) = false :=
      setsIn_bind pickerKey (fun header => by
        simp (disch := decide) [CardHeader.toProto, sets_build_cons]) card.header
    simp (disch := decide) [sets_build_cons, hidesPicker, hraw, hany, hheader]

/-- **Pickers in dialogs.** For every dialog that can be constructed and serialized, its JSON has the key
`dateTimePicker` nowhere exactly when the parser reads no picker from the raw payloads of its card. -/
theorem Dialog.pickerFree_iff {sdk : Sdk} (hsdk : sdk.NoPickerEntry) (dialog : Dialog)
    {data : Json.Fields} (hdata : dialog.toDict sdk = .ok data) :
    fieldsHaveKey pickerKey data = false ↔ dialog.body.hidesPicker sdk = false := by
  obtain ⟨m, hm, hdata⟩ := Except.bind_eq_ok.mp hdata
  cases hdata
  obtain ⟨body, hbody, hm⟩ := Except.bind_eq_ok.mp hm
  obtain ⟨-, rfl⟩ := construct_eq_ok.mp hm
  have hjson : fieldsHaveKey pickerKey [("dialog", .dict (Message.toDict
      (.build [("body", ofMessage body)])))] = body.sets pickerKey := by
    show ("dialog" == pickerKey || fieldsHaveKey pickerKey (Message.toDict _) || false) = _
    have hdialog : ("dialog" == pickerKey) = false := by decide
    rw [hdialog, Bool.false_or, Bool.or_false, Message.toDict, fieldsHaveKey_toDict]
    show Message.sets pickerKey _ = _
    simp (disch := decide) [sets_build_cons]
  rw [hjson, Card.sets_toProto hsdk dialog.checked hbody]

/-! ## Which payloads hide a picker -/

/-- The SDK reads messages by a schema in which the picker is a message. -/
structure Sdk.ReadsBy (sdk : Sdk) (schema : Schema) : Prop where
  parse : ∀ type data m, sdk.parse type data = .ok m → readMessage schema type data = some m
  picker : schema.IsMessage pickerKey

/-- A payload that is read has a picker when one of its objects has it as `dateTimePicker` or
`date_time_picker`, wherever the schema has a widget. -/
theorem readsPicker_eq_spells {sdk : Sdk} {schema : Schema} (hsdk : sdk.ReadsBy schema) {type : String}
    {payload : Json.Fields} {m : Message} (hm : sdk.parse type payload = .ok m) :
    readsPicker sdk type payload = spells schema pickerKey type payload := by
  have hread := readMessage_sets hsdk.picker (hsdk.parse type payload m hm)
  rw [readsPicker, hm]
  exact hread

theorem facadeSdk_noPickerEntry : facadeSdk.NoPickerEntry := by
  intro type htype m hholds entry hentry
  obtain ⟨field, hfield, hname⟩ := exists_field_of_conforms hholds entry hentry
  have hnames : ∀ type ∈ ["Color", "SelectionItem"], ∀ field ∈ cardTypes.fields type,
      jsonName field.name ≠ pickerKey := by decide
  exact hname ▸ hnames type htype field hfield

theorem facadeSdk_readsBy : facadeSdk.ReadsBy cardTypes where
  parse _ _ _ hm := facadeSdk_parse.mp hm
  picker type field hfield hname := by
    have hpickers : ∀ entry ∈ cardTypes, ∀ field ∈ entry.2, jsonName field.name = pickerKey →
        field.kind = .message "DateTimePicker" := by decide
    obtain hnone | hmem := cardTypes.fields_eq type
    · rw [hnone] at hfield
      cases hfield
    · exact ⟨_, hpickers _ hmem field hfield hname⟩

/-! ## Pickers that pass the check -/

def rawCard (payload : Json.Fields) : Card := ⟨none, [⟨none, [.raw ⟨payload⟩]⟩], none, none⟩

def ownNamePayload : Json.Fields := [("date_time_picker", .dict [("name", .str "when")])]

def columnPayload (widget : Json) : Json.Fields :=
  [("columns", .dict [("columnItems", .list [.dict [("widgets", .list [widget])]])])]

def nestedPayload : Json.Fields :=
  columnPayload (.dict [("dateTimePicker", .dict [("name", .str "when")])])

theorem rawCard_checked {payload : Json.Fields} (h : (payload.lookup "dateTimePicker").isSome = false) :
    ∀ part ∈ (rawCard payload).sections, ∀ widget ∈ part.widgets,
      rejectDatetimePicker widget = .ok () := by
  intro part hpart widget hwidget
  cases List.mem_singleton.mp hpart
  cases List.mem_singleton.mp hwidget
  simp only [rejectDatetimePicker, h]
  rfl

def textPayload : Json.Fields :=
  columnPayload (.dict [("textParagraph", .dict [("text", .str "when")])])

/-- A dialog with a column of text sends no picker. -/
theorem textColumn_pickerFree : ∃ data,
    Dialog.toDict facadeSdk ⟨rawCard textPayload, rawCard_checked rfl⟩ = .ok data ∧
      fieldsHaveKey pickerKey data = false := by
  obtain ⟨data, hdata⟩ : ∃ data,
      Dialog.toDict facadeSdk ⟨rawCard textPayload, rawCard_checked rfl⟩ = .ok data := ⟨_, rfl⟩
  exact ⟨data, hdata, (Dialog.pickerFree_iff facadeSdk_noPickerEntry _ hdata).mpr rfl⟩

/-- A picker under its own name, and one inside a column, reach a dialog. -/
theorem hidden_pickers_sent :
    (RawWidget.ofPayload facadeSdk ownNamePayload = .ok ⟨ownNamePayload⟩ ∧
      ∃ (dialog : Dialog) (data : Json.Fields), dialog.body = rawCard ownNamePayload ∧
        dialog.toDict facadeSdk = .ok data ∧ fieldsHaveKey pickerKey data = true) ∧
    RawWidget.ofPayload facadeSdk nestedPayload = .ok ⟨nestedPayload⟩ ∧
      ∃ (dialog : Dialog) (data : Json.Fields), dialog.body = rawCard nestedPayload ∧
        dialog.toDict facadeSdk = .ok data ∧ fieldsHaveKey pickerKey data = true :=
  ⟨⟨rfl, ⟨rawCard ownNamePayload, rawCard_checked rfl⟩, _, rfl, rfl, rfl⟩,
    rfl, ⟨rawCard nestedPayload, rawCard_checked rfl⟩, _, rfl, rfl, rfl⟩

end Chattice.Cards
