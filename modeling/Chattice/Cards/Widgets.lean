import Chattice.Json

/-!
# Card widgets

The frozen widget facades. A colour and `open_as` are passed to the SDK as they are; mappings are
the lists of their items.
-/

namespace Chattice.Cards

structure Action where
  function : Option String
  parameters : List (String × String)
  interaction : Option String
  deriving DecidableEq, Repr

structure OpenLink where
  url : String
  openAs : Option Json
  deriving Repr

inductive OnClick where
  | action (action : Action)
  | openLink (link : OpenLink)
  deriving Repr

structure TextParagraph where
  text : String
  maxLines : Option Int
  deriving DecidableEq, Repr

/-- A value of a colour mapping: a plain one, or a `google.protobuf.FloatValue`. -/
inductive Channel where
  | plain (value : Json)
  | floatValue (q : Rat)
  deriving Repr

/-- A colour: a mapping, a `google.type.Color`, or what the SDK refuses. -/
inductive Color where
  | mapping (items : List (String × Channel))
  | message (red green blue : Rat) (alpha : Option Rat)
  | other (value : Json)
  deriving Repr

/-- A button: an action or a link. -/
structure Button where
  text : String
  action : Option String
  interaction : Option String
  parameters : List (String × String)
  openLink : Option String
  color : Option Color
  type : Option String
  disabled : Bool
  altText : Option String
  requiredWidgets : List String
  persistValues : Bool
  loadIndicator : Bool
  /-- "Button accepts either an action or an open link, not both" -/
  notBoth : action = none ∨ openLink = none

structure ButtonList where
  buttons : List Button

inductive TextInputType where
  | text | integer | float | email | emojiPicker
  deriving DecidableEq, Repr

structure Validation where
  characterLimit : Option Int
  inputType : Option TextInputType
  deriving DecidableEq, Repr

structure TextInput where
  name : String
  label : String
  hintText : Option String
  value : Option String
  validation : Option Validation
  deriving DecidableEq, Repr

structure SelectionInput where
  name : String
  label : String
  items : List (List (String × String))
  externalDataSource : Option Action
  multiSelectMaxSelectedItems : Option Int
  multiSelectMinQueryLength : Option Int
  deriving DecidableEq, Repr

structure DateTimePicker where
  name : String
  label : String
  valueMsEpoch : Option Int
  timezoneOffsetDate : Option Int
  deriving DecidableEq, Repr

/-- The content of a local image: a path that is read when the card is sent, or a snapshot. -/
inductive LocalContent where
  | path (path : String)
  | bytes (data : List UInt8)
  deriving DecidableEq, Repr

structure LocalImageSource where
  content : LocalContent
  filename : String
  contentType : String
  namespaceName : Option String
  deriving DecidableEq, Repr

/-- An image has a URL (`image_url`) or a local source (`_local_source`), never both. -/
inductive ImageSource where
  | url (imageUrl : String)
  | file (source : LocalImageSource)
  deriving DecidableEq, Repr

structure Image where
  source : ImageSource
  altText : Option String
  onClick : Option OnClick
  deriving Repr

/-- `image._local_source` -/
def Image.localSource (image : Image) : Option LocalImageSource :=
  match image.source with
  | .url _ => none
  | .file source => some source

/-- An arbitrary widget as its documented JSON. -/
structure RawWidget where
  payload : List (String × Json)
  deriving Repr

inductive Widget where
  | textParagraph (widget : TextParagraph)
  | divider
  | buttonList (widget : ButtonList)
  | textInput (widget : TextInput)
  | selectionInput (widget : SelectionInput)
  | dateTimePicker (widget : DateTimePicker)
  | image (widget : Image)
  | raw (widget : RawWidget)

structure CardHeader where
  title : String
  subtitle : Option String
  imageUrl : Option String
  deriving DecidableEq, Repr

structure Section where
  header : Option String
  widgets : List Widget

/-- A Cards v2 card; `raw` is the snapshot `Card.from_dict` keeps. -/
structure Card where
  header : Option CardHeader
  sections : List Section
  name : Option String
  raw : Option (List (String × Json))

/-- A message accessory widget: a button list is the only kind. -/
structure AccessoryWidget where
  buttonList : ButtonList

end Chattice.Cards
