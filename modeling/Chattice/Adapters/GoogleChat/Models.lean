import Chattice.Adapters.GoogleChat.Envelope

/-!
# Boundary models

The permissive models of the untrusted boundary: strict types, unknown fields allowed, every field
found under its alias or its own name. A validation returns the model, or nothing where the
validator reports an error.
-/

namespace Chattice.GoogleChat

open Json

def validStr : Json → Option String
  | .str s => some s
  | _ => none

def validBool : Json → Option Bool
  | .bool b => some b
  | _ => none

def validInt : Json → Option Int
  | .int n => some n
  | _ => none

/-- The value of a field that has an alias. -/
def fieldValue (fields : Fields) (aliasName name : String) : Option Json :=
  (fields.lookup aliasName).or (fields.lookup name)

/-- `T | None = None` -/
def optional {α : Type} (valid : Json → Option α) (fields : Fields) (aliasName name : String) :
    Option (Option α) :=
  match fieldValue fields aliasName name with
  | none | some .null => some none
  | some value => (valid value).map some

/-- A field with a default that is no `None`. -/
def defaulted {α : Type} (valid : Json → Option α) (default : α) (fields : Fields)
    (aliasName name : String) : Option α :=
  match fieldValue fields aliasName name with
  | none => some default
  | some value => valid value

/-- `list[T]` -/
def validList {α : Type} (valid : Json → Option α) : Json → Option (List α)
  | .list items => items.mapM valid
  | _ => none

/-- `dict[str, T]` -/
def validDict {α : Type} (valid : Json → Option α) : Json → Option (List (String × α))
  | .dict fields => fields.mapM fun (key, value) => (valid value).map fun v => (key, v)
  | _ => none

/-- `dict[str, object]` -/
def validObject : Json → Option Fields
  | .dict fields => some fields
  | _ => none

structure UserModel where
  name : Option String
  displayName : Option String
  type : Option String

def UserModel.validate : Json → Option UserModel
  | .dict fields => do
    let name ← optional validStr fields "name" "name"
    let displayName ← optional validStr fields "displayName" "display_name"
    let type ← optional validStr fields "type" "type"
    pure ⟨name, displayName, type⟩
  | _ => none

structure SpaceModel where
  name : Option String
  displayName : Option String
  type : Option String
  spaceType : Option String
  singleUserBotDm : Option Bool

def SpaceModel.validate : Json → Option SpaceModel
  | .dict fields => do
    let name ← optional validStr fields "name" "name"
    let displayName ← optional validStr fields "displayName" "display_name"
    let type ← optional validStr fields "type" "type"
    let spaceType ← optional validStr fields "spaceType" "space_type"
    let singleUserBotDm ← optional validBool fields "singleUserBotDm" "single_user_bot_dm"
    pure ⟨name, displayName, type, spaceType, singleUserBotDm⟩
  | _ => none

structure ThreadModel where
  name : Option String
  threadKey : Option String

def ThreadModel.validate : Json → Option ThreadModel
  | .dict fields => do
    let name ← optional validStr fields "name" "name"
    let threadKey ← optional validStr fields "threadKey" "thread_key"
    pure ⟨name, threadKey⟩
  | _ => none

structure SlashCommandModel where
  commandId : Option String

def SlashCommandModel.validate : Json → Option SlashCommandModel
  | .dict fields => do
    let commandId ← optional validStr fields "commandId" "command_id"
    pure ⟨commandId⟩
  | _ => none

structure MatchedUrlModel where
  url : Option String

def MatchedUrlModel.validate : Json → Option MatchedUrlModel
  | .dict fields => do
    let url ← optional validStr fields "url" "url"
    pure ⟨url⟩
  | _ => none

structure MessageModel where
  name : Option String
  text : Option String
  sender : Option UserModel
  space : Option SpaceModel
  thread : Option ThreadModel
  createTime : Option String
  argumentText : Option String
  slashCommand : Option SlashCommandModel
  matchedUrl : Option MatchedUrlModel

def MessageModel.validate : Json → Option MessageModel
  | .dict fields => do
    let name ← optional validStr fields "name" "name"
    let text ← optional validStr fields "text" "text"
    let sender ← optional UserModel.validate fields "sender" "sender"
    let space ← optional SpaceModel.validate fields "space" "space"
    let thread ← optional ThreadModel.validate fields "thread" "thread"
    let createTime ← optional validStr fields "createTime" "create_time"
    let argumentText ← optional validStr fields "argumentText" "argument_text"
    let slashCommand ← optional SlashCommandModel.validate fields "slashCommand" "slash_command"
    let matchedUrl ← optional MatchedUrlModel.validate fields "matchedUrl" "matched_url"
    pure ⟨name, text, sender, space, thread, createTime, argumentText, slashCommand, matchedUrl⟩
  | _ => none

structure ActionParameterModel where
  key : String
  value : String

def ActionParameterModel.validate : Json → Option ActionParameterModel
  | .dict fields => do
    let key ← (fields.lookup "key").bind validStr
    let value ← (fields.lookup "value").bind validStr
    pure ⟨key, value⟩
  | _ => none

structure FormActionModel where
  actionMethodName : Option String
  parameters : List ActionParameterModel

def FormActionModel.validate : Json → Option FormActionModel
  | .dict fields => do
    let actionMethodName ← optional validStr fields "actionMethodName" "action_method_name"
    let parameters ← defaulted (validList ActionParameterModel.validate) [] fields
      "parameters" "parameters"
    pure ⟨actionMethodName, parameters⟩
  | _ => none

structure TimeZoneModel where
  id : Option String
  offset : Option Int

def TimeZoneModel.validate : Json → Option TimeZoneModel
  | .dict fields => do
    let id ← optional validStr fields "id" "id"
    let offset ← optional validInt fields "offset" "offset"
    pure ⟨id, offset⟩
  | _ => none

structure CommonEventModel where
  userLocale : Option String
  timeZone : Option TimeZoneModel
  formInputs : List (String × Fields)
  parameters : List (String × String)
  invokedFunction : Option String

def CommonEventModel.validate : Json → Option CommonEventModel
  | .dict fields => do
    let userLocale ← optional validStr fields "userLocale" "user_locale"
    let timeZone ← optional TimeZoneModel.validate fields "timeZone" "time_zone"
    let formInputs ← defaulted (validDict validObject) [] fields "formInputs" "form_inputs"
    let parameters ← defaulted (validDict validStr) [] fields "parameters" "parameters"
    let invokedFunction ← optional validStr fields "invokedFunction" "invoked_function"
    pure ⟨userLocale, timeZone, formInputs, parameters, invokedFunction⟩
  | _ => none

structure AppCommandMetadataModel where
  appCommandId : Option Int
  appCommandType : Option String

def AppCommandMetadataModel.validate : Json → Option AppCommandMetadataModel
  | .dict fields => do
    let appCommandId ← optional validInt fields "appCommandId" "app_command_id"
    let appCommandType ← optional validStr fields "appCommandType" "app_command_type"
    pure ⟨appCommandId, appCommandType⟩
  | _ => none

structure InteractionModel where
  type : String
  eventTime : Option String
  message : Option MessageModel
  user : Option UserModel
  thread : Option ThreadModel
  space : Option SpaceModel
  action : Option FormActionModel
  isDialogEvent : Option Bool
  dialogEventType : Option String
  common : Option CommonEventModel
  appCommandMetadata : Option AppCommandMetadataModel

def InteractionModel.validate (fields : Fields) : Option InteractionModel := do
  let type ← (fields.lookup "type").bind validStr
  let eventTime ← optional validStr fields "eventTime" "event_time"
  let message ← optional MessageModel.validate fields "message" "message"
  let user ← optional UserModel.validate fields "user" "user"
  let thread ← optional ThreadModel.validate fields "thread" "thread"
  let space ← optional SpaceModel.validate fields "space" "space"
  let action ← optional FormActionModel.validate fields "action" "action"
  let isDialogEvent ← optional validBool fields "isDialogEvent" "is_dialog_event"
  let dialogEventType ← optional validStr fields "dialogEventType" "dialog_event_type"
  let common ← optional CommonEventModel.validate fields "common" "common"
  let appCommandMetadata ← optional AppCommandMetadataModel.validate fields
    "appCommandMetadata" "app_command_metadata"
  pure ⟨type, eventTime, message, user, thread, space, action, isDialogEvent, dialogEventType,
    common, appCommandMetadata⟩

end Chattice.GoogleChat
