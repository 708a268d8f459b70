import Chattice.Json

/-!
# Domain events

The frozen event dataclasses: the fields every event has (`Event`) and those of its class
(`EventBody`). `raw` keeps the payload the event was read from; the message properties are
recomputed from it.
-/

namespace Chattice

structure UserRef where
  name : Option String
  displayName : Option String
  type : Option String
  deriving DecidableEq, Repr

structure SpaceRef where
  name : Option String
  displayName : Option String
  type : Option String
  spaceType : Option String
  singleUserBotDm : Option Bool
  deriving DecidableEq, Repr

structure ThreadRef where
  name : Option String
  threadKey : Option String
  space : Option SpaceRef
  deriving DecidableEq, Repr

structure MessageRef where
  name : Option String
  deriving DecidableEq, Repr

/-- An aware `datetime`: the instant in microseconds and the offset it was written with. -/
structure DateTime where
  micros : Int
  utcoffset : Int
  deriving DecidableEq, Repr

inductive DialogEventType where
  | requestDialog | submitDialog | cancelDialog
  | other (type : String)
  deriving DecidableEq, Repr

structure DialogMetadata where
  type : DialogEventType
  isDialogEvent : Bool
  deriving DecidableEq, Repr

structure TimeZone where
  id : Option String
  offsetMs : Option Int
  deriving DecidableEq, Repr

inductive CommandKind where
  | slashCommand | quickCommand | messageAction
  deriving DecidableEq, Repr

inductive ActionSource where
  | message | dialog | home
  deriving DecidableEq, Repr

inductive FormValue where
  | stringInput (values : List String)
  | dateInput (msSinceEpoch : Int)
  | dateTimeInput (msSinceEpoch : Int) (hasDate hasTime : Option Bool)
  | timeInput (hours minutes : Int)
  | unknownFormInput (kind : String) (raw : List (String × Json))
  deriving Repr

abbrev FormInputs := List (String × FormValue)

/-- The class of an event with the fields of that class. -/
inductive EventBody where
  | message (text : String) (message : Option MessageRef)
      (matchedUrl senderType argumentText : Option String)
  | command (commandId : Int) (commandType : Option String) (kind : Option CommandKind)
      (sourceKind messageText : Option String) (targetMessage : Option MessageRef)
  | addedToSpace
  | removedFromSpace
  | appHome
  | action (name : String) (parameters : List (String × String)) (formInputs : FormInputs)
      (senderType : Option String) (source : Option ActionSource) (message : Option MessageRef)
  | widgetUpdated (functionName : String) (parameters : List (String × String))
      (formInputs : FormInputs)
  | formSubmit (functionName : String) (parameters : List (String × String))
      (formInputs : FormInputs)
  | unknown (originalType : String)
  deriving Repr

structure Event where
  raw : Json
  eventTime : Option DateTime
  actor : Option UserRef
  space : Option SpaceRef
  thread : Option ThreadRef
  dialog : Option DialogMetadata
  locale : Option String
  timezone : Option TimeZone
  body : EventBody
  deriving Repr

namespace Event

/-- `event.space.name if event.space is not None else None`. -/
def spaceName (event : Event) : Option String := event.space.bind SpaceRef.name

end Event

end Chattice
