import Chattice.Adapters.GoogleChat.Inputs
import Chattice.Adapters.GoogleChat.Models

/-!
# `parse_interaction`

From a validated interaction to a domain event: the common metadata first, then one branch for each
event type.
-/

namespace Chattice.GoogleChat

open Json Python

def invalid (text : Text) : Exc := .invalidInteractionPayload text

/-- `_timestamp` -/
def timestamp (lib : Stdlib) : Option String → Except Exc (Option DateTime)
  | none => .ok none
  | some value =>
    let normalized :=
      if value.toList.getLast? = some 'Z' then .ofList (value.toList.dropLast ++ "+00:00".toList)
      else value
    match lib.fromisoformat normalized with
    | none => .error (invalid [.text "Invalid eventTime timestamp: ", .repr (.str value)])
    | some (_, none) => .error (invalid [.text "eventTime must include a timezone offset"])
    | some (micros, some utcoffset) => .ok (some ⟨micros, utcoffset⟩)

/-- `_user` -/
def toUser (value : UserModel) : UserRef := ⟨value.name, value.displayName, value.type⟩

/-- `_space` -/
def toSpace (value : SpaceModel) : SpaceRef :=
  ⟨value.name, value.displayName, value.type, value.spaceType, value.singleUserBotDm⟩

/-- `_thread` -/
def toThread (space : Option SpaceRef) (value : ThreadModel) : ThreadRef :=
  ⟨value.name, value.threadKey, space⟩

/-- `DialogEventType(type_)`, or the string itself. -/
def dialogEventType (type : String) : DialogEventType :=
  if type = "REQUEST_DIALOG" then .requestDialog
  else if type = "SUBMIT_DIALOG" then .submitDialog
  else if type = "CANCEL_DIALOG" then .cancelDialog
  else .other type

/-- `_dialog` -/
def toDialog (isDialog : Option Bool) : Option String → Except Exc (Option DialogMetadata)
  | none =>
    if isDialog = some true then
      .error (invalid [.text "isDialogEvent=true requires a dialogEventType"])
    else .ok none
  | some type =>
    if isDialog = some false then
      .error (invalid [.text "dialogEventType present requires isDialogEvent=true"])
    else .ok (some ⟨dialogEventType type, true⟩)

/-- `_action_source` -/
def actionSource (raw : Fields) (model : InteractionModel) (dialog : Option DialogMetadata) :
    Option ActionSource :=
  if dialog.isSome then some .dialog
  else
    match get raw "chat" with
    | .dict _ => some .home
    | _ => if model.message.isSome then some .message else none

/-- `_app_command_kind` -/
def appCommandKind (value : String) : Option CommandKind :=
  if value = "QUICK_COMMAND" then some .quickCommand
  else if value = "MESSAGE_ACTION" then some .messageAction
  else none

/-- The parameters of the form action, without duplicates. -/
def fallbackParameters (parameters : List ActionParameterModel) :
    Except Exc (List (String × String)) :=
  parameters.foldlM
    (fun collected item =>
      if (collected.lookup item.key).isSome then
        .error (invalid [.text "Duplicate action parameter ", .repr (.str item.key)])
      else .ok (collected ++ [(item.key, item.value)]))
    []

/-- `a == b` of two string dictionaries. -/
def sameParameters (a b : List (String × String)) : Bool :=
  a.length == b.length && a.all fun (key, value) => b.lookup key == some value

/-- `_common_action`: parameters, form inputs and function name. -/
def commonAction (lib : Stdlib) (model : InteractionModel) :
    Except Exc (List (String × String) × FormInputs × String) := do
  let commonParameters := (model.common.map CommonEventModel.parameters).getD []
  let commonFunction := model.common.bind CommonEventModel.invokedFunction
  let formInputs ←
    parseFormInputs lib ((model.common.map CommonEventModel.formInputs).getD [])
  let fallbackFunction := model.action.bind FormActionModel.actionMethodName
  let fallback ← fallbackParameters ((model.action.map FormActionModel.parameters).getD [])
  if !commonParameters.isEmpty && !fallback.isEmpty && !sameParameters commonParameters fallback then
    .error (.conflictingEnvelope [.text "common.parameters conflicts with action.parameters"])
  else if truthy commonFunction && truthy fallbackFunction && commonFunction != fallbackFunction then
    .error (.conflictingEnvelope
      [.text "common.invokedFunction conflicts with action.actionMethodName"])
  else
    pure (if commonParameters.isEmpty then fallback else commonParameters, formInputs,
      if truthy commonFunction then commonFunction.getD ""
      else if truthy fallbackFunction then fallbackFunction.getD "" else "")

/-- `_require_actor_space` -/
def requireActorSpace (type : String) (actor : Option UserRef) (space : Option SpaceRef) :
    Except Exc Unit :=
  if actor.isSome && space.isSome then .ok ()
  else .error (invalid [.text (type ++ " requires user and space")])

/-- `_slash_command_event` -/
def slashCommandBody (lib : Stdlib) (message : MessageModel) (command : SlashCommandModel) :
    Except Exc EventBody :=
  match command.commandId with
  | none => .error (invalid [.text "MESSAGE slashCommand requires commandId"])
  | some rawId =>
    match lib.int rawId with
    | none => .error (invalid
        [.text "slashCommand commandId is not an int64 string: ", .repr (.str rawId)])
    | some commandId => .ok (.command commandId none (some .slashCommand) (some "SLASH_COMMAND")
        ((message.argumentText.map strip).or message.text) none)

/-- The branch of a `MESSAGE`. -/
def messageBody (lib : Stdlib) : Option MessageModel → Except Exc EventBody
  | none => .error (invalid [.text "MESSAGE requires a message object"])
  | some message =>
    match message.slashCommand with
    | some command => slashCommandBody lib message command
    | none =>
      match message.text with
      | none => .error (invalid [.text "MESSAGE requires message.text"])
      | some text => .ok (.message text (some ⟨message.name⟩)
          (message.matchedUrl.bind MatchedUrlModel.url) (message.sender.bind UserModel.type)
          (message.argumentText.map strip))

/-- The branch of an `APP_COMMAND`. -/
def appCommandBody (model : InteractionModel) : Except Exc EventBody :=
  match model.appCommandMetadata.bind AppCommandMetadataModel.appCommandId,
    model.appCommandMetadata.bind AppCommandMetadataModel.appCommandType with
  | some commandId, some commandType =>
    let kind := appCommandKind commandType
    .ok (.command commandId (some commandType) kind (some commandType)
      (model.message.bind MessageModel.text)
      (if kind = some .messageAction then
        (model.message.bind MessageModel.name).map fun name => ⟨some name⟩
      else none))
  | _, _ => .error (invalid [.text "APP_COMMAND requires appCommandMetadata ID and type"])

def actionBody (lib : Stdlib) (raw : Fields) (model : InteractionModel)
    (actor : Option UserRef) (space : Option SpaceRef) (dialog : Option DialogMetadata) :
    Except Exc EventBody := do
  let (parameters, formInputs, functionName) ← commonAction lib model
  if model.type = "CARD_CLICKED" then
    if functionName = "" then
      .error (invalid
        [.text "CARD_CLICKED requires common.invokedFunction or action.actionMethodName"])
    else
      pure (.action functionName parameters formInputs
        ((model.message.bind MessageModel.sender).bind UserModel.type)
        (actionSource raw model dialog)
        (if truthy (model.message.bind MessageModel.name) then
          some ⟨model.message.bind MessageModel.name⟩ else none))
  else if model.type = "WIDGET_UPDATED" then
    if functionName = "" then
      .error (invalid [.text "WIDGET_UPDATED requires an associated invoked function"])
    else pure (.widgetUpdated functionName parameters formInputs)
  else if model.type = "APP_COMMAND" then appCommandBody model
  else do
    requireActorSpace model.type actor space
    pure (.formSubmit functionName parameters formInputs)

def knownTypes : List String :=
  ["MESSAGE", "ADDED_TO_SPACE", "REMOVED_FROM_SPACE", "CARD_CLICKED", "WIDGET_UPDATED",
    "APP_COMMAND", "APP_HOME", "SUBMIT_FORM"]

def eventBody (lib : Stdlib) (raw : Fields) (model : InteractionModel)
    (actor : Option UserRef) (space : Option SpaceRef) (dialog : Option DialogMetadata) :
    Except Exc EventBody :=
  if model.type ∉ knownTypes then pure (.unknown model.type)
  else if model.type = "MESSAGE" then messageBody lib model.message
  else if model.type = "ADDED_TO_SPACE" then do
    requireActorSpace model.type actor space
    pure .addedToSpace
  else if model.type = "REMOVED_FROM_SPACE" then do
    requireActorSpace model.type actor space
    pure .removedFromSpace
  else if model.type = "APP_HOME" then do
    requireActorSpace model.type actor space
    pure .appHome
  else actionBody lib raw model actor space dialog

def interactionEvent (lib : Stdlib) (raw : Fields) (model : InteractionModel) :
    Except Exc Event := do
  let eventTime ← timestamp lib model.eventTime
  let actor := (model.user.or (model.message.bind MessageModel.sender)).map toUser
  let space := (model.space.or (model.message.bind MessageModel.space)).map toSpace
  let thread := (model.thread.or (model.message.bind MessageModel.thread)).map (toThread space)
  let dialog ← toDialog model.isDialogEvent model.dialogEventType
  let body ← eventBody lib raw model actor space dialog
  pure {
    raw := .dict raw
    eventTime, actor, space, thread, dialog
    locale := model.common.bind CommonEventModel.userLocale
    timezone := (model.common.bind CommonEventModel.timeZone).map fun zone => ⟨zone.id, zone.offset⟩
    body }

/-- `parse_interaction`. The validator's report in the first message is left out. -/
def parseInteraction (lib : Stdlib) (payload : Fields) : Except Exc Event := do
  let envelope ← normalizeEnvelope payload
  match InteractionModel.validate envelope.event with
  | none => .error (invalid [.text "Invalid Google Chat interaction payload: "])
  | some model =>
    if model.type = "UNSPECIFIED" ∨ model.type = "TYPE_UNSPECIFIED" then
      .error (invalid [.text "UNSPECIFIED is not an interaction event"])
    else interactionEvent lib envelope.raw model

end Chattice.GoogleChat
