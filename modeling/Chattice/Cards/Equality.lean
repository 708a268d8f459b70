import Chattice.Cards.Proto

/-!
# Equality of cards, and the cards a round trip is about

* `pyEq` : `==` of the facades; dictionaries are equal whatever their order;
* `Regular` : every optional field is unset or has a value other than its default;
* `Kept` : nothing that the reader drops is set.
-/

namespace Chattice.Cards

open Protobuf
open Python (isHttpsUrl)

/-! ## Equality of the facades -/

/-- `==` of two dictionaries of texts. -/
def sameDict (a b : List (String × String)) : Bool :=
  a.length == b.length && a.all fun (key, value) => b.lookup key == some value

/-- `==` of two tuples. -/
def sameList {α : Type} (same : α → α → Bool) : List α → List α → Bool
  | [], [] => true
  | a :: l, b :: l' => same a b && sameList same l l'
  | _, _ => false

/-- `==` of two values that may be `None`. -/
def sameOption {α : Type} (same : α → α → Bool) : Option α → Option α → Bool
  | none, none => true
  | some a, some b => same a b
  | _, _ => false

def Action.pyEq (a b : Action) : Bool :=
  a.function == b.function && sameDict a.parameters b.parameters && a.interaction == b.interaction

def OpenLink.pyEq (a b : OpenLink) : Bool := a.url == b.url && sameOption Json.pyEq a.openAs b.openAs

def OnClick.pyEq : OnClick → OnClick → Bool
  | .action a, .action b => a.pyEq b
  | .openLink a, .openLink b => a.pyEq b
  | _, _ => false

/-- A message equals no other value. -/
def Channel.pyEq : Channel → Channel → Bool
  | .plain a, .plain b => Json.pyEq a b
  | .floatValue q, .floatValue r => q == r
  | _, _ => false

def Color.pyEq : Color → Color → Bool
  | .mapping items, .mapping items' =>
    items.length == items'.length && items.all fun (key, channel) =>
      (items'.lookup key).any channel.pyEq
  | .message red green blue alpha, .message red' green' blue' alpha' =>
    red == red' && green == green' && blue == blue' && alpha == alpha'
  | .other a, .other b => Json.pyEq a b
  | _, _ => false

def Button.pyEq (a b : Button) : Bool :=
  a.text == b.text && a.action == b.action && a.interaction == b.interaction &&
    sameDict a.parameters b.parameters && a.openLink == b.openLink &&
    sameOption Color.pyEq a.color b.color && a.type == b.type && a.disabled == b.disabled &&
    a.altText == b.altText && a.requiredWidgets == b.requiredWidgets &&
    a.persistValues == b.persistValues && a.loadIndicator == b.loadIndicator

def SelectionInput.pyEq (a b : SelectionInput) : Bool :=
  a.name == b.name && a.label == b.label && sameList sameDict a.items b.items &&
    sameOption Action.pyEq a.externalDataSource b.externalDataSource &&
    a.multiSelectMaxSelectedItems == b.multiSelectMaxSelectedItems &&
    a.multiSelectMinQueryLength == b.multiSelectMinQueryLength

def Image.pyEq (a b : Image) : Bool :=
  a.source == b.source && a.altText == b.altText && sameOption OnClick.pyEq a.onClick b.onClick

def Widget.pyEq : Widget → Widget → Bool
  | .textParagraph a, .textParagraph b => a == b
  | .divider, .divider => true
  | .buttonList a, .buttonList b => sameList Button.pyEq a.buttons b.buttons
  | .textInput a, .textInput b => a == b
  | .selectionInput a, .selectionInput b => a.pyEq b
  | .dateTimePicker a, .dateTimePicker b => a == b
  | .image a, .image b => a.pyEq b
  | .raw a, .raw b => Json.pyEq (.dict a.payload) (.dict b.payload)
  | _, _ => false

def Section.pyEq (a b : Section) : Bool :=
  a.header == b.header && sameList Widget.pyEq a.widgets b.widgets

/-- `_raw` is not compared. -/
def Card.pyEq (a b : Card) : Bool :=
  a.header == b.header && sameList Section.pyEq a.sections b.sections && a.name == b.name

/-! ## The cards in question -/

/-- The number a channel stands for: that of a `FloatValue`, or of the mapping of one, is its value. -/
def Channel.amount : Channel → Option Rat
  | .floatValue q => some q
  | .plain (.dict [("value", value)]) => value.number
  | .plain value => value.number

/-- The four channels, with numbers that a message holds. -/
def CompleteColor : Color → Prop
  | .mapping items =>
    (items.map Prod.fst).Perm ["red", "green", "blue", "alpha"] ∧
      ∀ item ∈ items, ∃ q, item.2.amount = some q ∧ Representable32 q
  | .message red green blue alpha =>
    Representable32 red ∧ Representable32 green ∧ Representable32 blue ∧
      ∃ q, alpha = some q ∧ Representable32 q
  | .other _ => False

structure Action.Regular (action : Action) : Prop where
  function : action.function ≠ some ""
  parameters : (action.parameters.map Prod.fst).Nodup
  interaction : action.interaction ≠ some interactionZero

def OnClick.Regular : OnClick → Prop
  | .action clicked => clicked.Regular
  | .openLink link => link.openAs = none

structure Button.Regular (button : Button) : Prop where
  action : button.action ≠ some ""
  openLink : button.openLink ≠ some ""
  parameters : (button.parameters.map Prod.fst).Nodup
  interaction : button.interaction ≠ some interactionZero
  color : ∀ color, button.color = some color → CompleteColor color
  type : ∀ name ∈ ["", "TYPE_UNSPECIFIED", "BUTTON_TYPE_UNSPECIFIED"], button.type ≠ some name
  altText : button.altText ≠ some ""

structure TextInput.Regular (widget : TextInput) : Prop where
  hintText : widget.hintText ≠ some ""
  value : widget.value ≠ some ""
  characterLimit : ∀ validation, widget.validation = some validation →
    validation.characterLimit ≠ some 0

structure SelectionInput.Regular (widget : SelectionInput) : Prop where
  items : ∀ item ∈ widget.items, (item.map Prod.fst).Perm ["text", "value"]
  source : ∀ action, widget.externalDataSource = some action → action.Regular
  maxSelectedItems : widget.multiSelectMaxSelectedItems ≠ some 0
  minQueryLength : widget.multiSelectMinQueryLength ≠ some 0

/-- An image by URL, as its constructor admits it. -/
structure Image.Regular (sdk : Sdk) (image : Image) : Prop where
  source : ∃ url, image.source = .url url ∧ isHttpsUrl sdk.specialNetloc url = true
  altText : image.altText ≠ some ""
  onClick : ∀ click, image.onClick = some click → click.Regular

/-- A widget of the typed facades. -/
def Widget.Regular (sdk : Sdk) : Widget → Prop
  | .textParagraph w => w.maxLines ≠ some 0
  | .divider => True
  | .buttonList w => ∀ button ∈ w.buttons, button.Regular
  | .textInput w => w.Regular
  | .selectionInput w => w.Regular
  | .dateTimePicker w => w.valueMsEpoch ≠ some 0 ∧ w.timezoneOffsetDate ≠ some 0
  | .image w => w.Regular sdk
  | .raw _ => False

structure Section.Regular (sdk : Sdk) (part : Section) : Prop where
  header : part.header ≠ some ""
  widgets : ∀ widget ∈ part.widgets, widget.Regular sdk

/-- A card built from the typed facades. -/
structure Card.Regular (sdk : Sdk) (card : Card) : Prop where
  raw : card.raw = none
  name : card.name ≠ some ""
  header : ∀ header, card.header = some header → header.subtitle ≠ some "" ∧ header.imageUrl ≠ some ""
  sections : ∀ part ∈ card.sections, part.Regular sdk

/-! ## What is read back -/

/-- An open-link button has nothing that belongs to an action, and no colour. -/
structure Button.Unadorned (button : Button) : Prop where
  color : button.color = none
  interaction : button.interaction = none
  parameters : button.parameters = []
  requiredWidgets : button.requiredWidgets = []
  persistValues : button.persistValues = false
  loadIndicator : button.loadIndicator = false

/-- A mapping with the `FloatValue` that the reader puts there. -/
def Color.HasFloatValue : Color → Prop
  | .mapping items => ∃ q, items.lookup "alpha" = some (.floatValue q)
  | _ => False

structure Button.Kept (button : Button) : Prop where
  link : button.openLink ≠ none → button.Unadorned
  action : button.openLink = none → ∀ color, button.color = some color → color.HasFloatValue

/-- Nothing the reader drops or changes is set. -/
def Widget.Kept : Widget → Prop
  | .buttonList w => ∀ button ∈ w.buttons, button.Kept
  | .textInput w => w.validation ≠ some ⟨none, none⟩
  | .selectionInput w => ∀ action, w.externalDataSource = some action → action.interaction = none
  | _ => True

/-- A header has a title, a subtitle or an image, and every widget is kept. -/
structure Card.Kept (card : Card) : Prop where
  header : card.header ≠ some ⟨"", none, none⟩
  widgets : ∀ part ∈ card.sections, ∀ widget ∈ part.widgets, widget.Kept

end Chattice.Cards
