import Chattice.Cards.Assets
import Chattice.Client.Bot

/-!
# `Messages.create` and `Messages.update`

The method bodies in source order. A creation: the local checks of its arguments, the checks of an
attachment send, the published card, the uploads, then the request and the executor. `actualMode` is
the identity the checks consult; `identity` is the one of the namespace, on which the request runs.
-/

namespace Chattice.Client

open Asyncio Asyncio.Coro Cards Python

/-! ## Files and attachments -/

/-- `MAX_ATTACHMENT_SIZE_BYTES` -/
def maxAttachmentSizeBytes : Nat := 200 * 1024 * 1024

/-- `InputFile.validate` -/
def InputFile.validate (file : InputFile) : Coro sig Unit :=
  match file.source with
  | .bytes _ => pure ()
  | .path path =>
    tryElse (awaitCall (.stat path))
      (fun
        | .osError true _ => raise (.osError true
            [.text "attachment file disappeared: ", .repr (.str path)])
        | error => raise error)
      fun found =>
        if !found.isRegular then
          raise (.valueError
            [.text "attachment path stopped being a regular file: ", .repr (.str path)])
        else if found.size > maxAttachmentSizeBytes then
          raise (.valueError [.text "attachment grew past the 200 MB Google upload limit"])
        else pure ()

/-- `asyncio.to_thread(file.read)` -/
def InputFile.read (file : InputFile) : Coro sig (List UInt8) := do
  let content ← awaitCall (.readFile file)
  match file.source with
  | .bytes data => pure data
  | .path _ => pure content

/-- `Attachments.upload` of the user namespace. -/
def uploadAttachment (bot : Bot) (space : String) (file : InputFile) (timeout : Option Rat) :
    Coro sig UploadedAttachment := do
  let parent ← ofExcept (canonicalSpace (.name space))
  file.validate
  let response ← execute bot .mediaUpload .user fun _client => do
    let data ← file.read
    let _credentials ← resolveUserCredentials bot
    awaitCall (.uploadMedia parent file.filename file.contentType data timeout)
  match Json.get response "attachmentDataRef" with
  | .dict dataRef => pure ⟨parent, file.filename, dataRef, some response⟩
  | _ => raise (chatApiError
      [.text "media.upload returned no attachmentDataRef; got ", .repr (.dict response)])

/-- `mapping.get(key) or mapping.get(alternative)` where it is a non-empty string. -/
def refText (mapping : List (String × Json)) (key alternative : String) : Option String :=
  let value := if (Json.get mapping key).truthy then Json.get mapping key
    else Json.get mapping alternative
  match value with
  | .str s => if s = "" then none else some s
  | _ => none

/-- `_attachment_data_ref_proto` -/
def attachmentDataRefProto (mapping : List (String × Json)) : AttachmentDataRef where
  resourceName := refText mapping "resourceName" "resource_name"
  attachmentUploadToken := refText mapping "attachmentUploadToken" "attachment_upload_token"

/-! ## Local checks -/

/-- The combinations an attachment send excludes, and the identity it needs. -/
def attachmentGuards (identity : AuthMode) (args : CreateArgs) : Except Exc Unit :=
  if !args.hasAttachments then .ok ()
  else if args.privateTo.isSome then
    .error (chatApiError [.text ("private_to cannot be combined with attachments " ++
      "(Google: private messages omit attachments).")])
  else if args.hasAccessoryWidgets then
    .error (chatApiError [.text ("attachments cannot be combined with accessory widgets " ++
      "(Google restriction).")])
  else if identity ≠ .user then
    .error (.capabilityNotSupported [.text ("attachment messages are USER-authenticated; call " ++
      "bot.user.messages.create(...) to send attachments.")])
  else .ok ()

def notifyGuards (actualMode : Option AuthMode) (args : CreateArgs) : Except Exc Unit :=
  match args.notify with
  | none => .ok ()
  | some notify =>
    if notify ≠ "force" ∧ notify ≠ "silent" then
      .error (chatApiError
        [.text "notify must be 'force', 'silent', or None; got ", .repr (.str notify)])
    else if args.hasAttachments then
      .error (.capabilityNotSupported [.text ("notify (createMessageNotificationOptions) " ++
        "requires app authentication and cannot be combined with attachments: attachment " ++
        "messages are USER-authenticated.")])
    else if actualMode ≠ some .app then
      .error (.capabilityNotSupported [.text ("createMessageNotificationOptions requires app " ++
        "authentication (chat.bot).")])
    else .ok ()

/-- The checks of `private_to`; the canonical viewer. -/
def privateViewer (actualMode : Option AuthMode) (args : CreateArgs) :
    Except Exc (Option String) :=
  match args.privateTo with
  | none => .ok none
  | some privateTo =>
    match canonicalUser privateTo "private_to" with
    | .error error => .error error
    | .ok viewer =>
      if actualMode ≠ some .app then
        .error (.capabilityNotSupported [.text ("Private messages (privateMessageViewer) " ++
          "require app authentication (chat.bot).")])
      else if args.hasAccessoryWidgets then
        .error (chatApiError [.text ("private_to cannot be combined with accessory widgets " ++
          "(Google: privateMessageViewer is not compatible with accessory widgets).")])
      else .ok (some viewer)

def cardGuard (actualMode : Option AuthMode) (args : CreateArgs) : Except Exc Unit :=
  if args.card.isSome ∧ actualMode = some .user then
    .error (.capabilityNotSupported [.text ("User-auth card creation is a Google Developer " ++
      "Preview (PreviewFeature.USER_AUTH_CARDS); use app auth or bot.raw.app() for preview " ++
      "surfaces.")])
  else .ok ()

def accessoryGuard (actualMode : Option AuthMode) (args : CreateArgs) : Except Exc Unit :=
  if args.hasAccessoryWidgets ∧ actualMode ≠ some .app then
    .error (.capabilityNotSupported
      [.text "Accessory widgets require app authentication (chat.bot)."])
  else .ok ()

def modeGuard (actualMode : Option AuthMode) : Except Exc Unit :=
  if actualMode = some .none then
    .error (.capabilityNotSupported [.text ("MESSAGE_CREATE is not supported in this " ++
      "configuration. Creating messages requires app or user authentication and an admissible " ++
      "OAuth scope.")])
  else .ok ()

/-- The check of one attachment before any upload. -/
def checkItem (parent : String) : AttachmentItem → Coro sig Unit
  | .uploaded item => do
    let space ← ofExcept (canonicalSpace (.name item.space))
    if space ≠ parent then
      raise (chatApiError [.text "UploadedAttachment is scoped to space ",
        .repr (.str item.space), .text "; cannot send it in ", .repr (.str parent)])
    else pure ()
  | .file file => file.validate

/-- What an attachment send asks of the user credentials. -/
def userCredentialsGuard (credentials : Option Credentials) : Except Exc Unit :=
  if credentials.isNone then
    .error (.capabilityNotSupported [.text ("Sending message attachments requires USER " ++
      "authentication for both media.upload and messages.create. Configure " ++
      "user_credentials_provider=... — UserCredentialsProvider, or " ++
      "DelegatedUserCredentialsProvider for domain-wide delegation.")])
  else if classify credentials = some .app then
    .error (.capabilityNotSupported [.text ("the user credentials provider returned " ++
      "service-account credentials; Google treats attachment sends as USER-authenticated calls " ++
      "— use DelegatedUserCredentialsProvider (with_subject) to impersonate a Workspace user " ++
      "through domain-wide delegation.")])
  else .ok ()

def AttachmentItem.isFile : AttachmentItem → Bool
  | .file _ => true
  | .uploaded _ => false

/-- Fail before any media I/O when the user identity or its scopes are absent. -/
def checkAttachmentSend (bot : Bot) (identity : AuthMode) (args : CreateArgs) :
    Coro sig Unit :=
  if args.hasAttachments then do
    let credentials ← resolveUserCredentials bot
    ofExcept (userCredentialsGuard credentials)
    preflightOnly bot .messagesCreate identity
    if args.attachmentList.any AttachmentItem.isFile then
      preflightOnly bot .mediaUpload identity
    else pure ()
  else pure ()

/-! ## The request -/

/-- The data reference of one attachment; a local file is uploaded first. -/
def attach (bot : Bot) (parent : String) (timeout : Option Rat) :
    AttachmentItem → Coro sig AttachmentDataRef
  | .uploaded item => pure (attachmentDataRefProto item.attachmentDataRef)
  | .file file => do
    let uploaded ← uploadAttachment bot parent file timeout
    pure (attachmentDataRefProto uploaded.attachmentDataRef)

def CreateArgs.hasThread (args : CreateArgs) : Bool :=
  match args.thread with
  | none => false
  | some thread => thread.name.isSome || thread.threadKey.isSome

/-- `effective_option` -/
def CreateArgs.effectiveOption (args : CreateArgs) : MessageReplyOption :=
  match args.replyOption with
  | some option => if args.hasThread then option else .unspecified
  | none => .unspecified

def CreateArgs.notificationOptions (args : CreateArgs) : Option NotificationType :=
  if args.notify = some "force" then some .forceNotify
  else if args.notify = some "silent" then some .silent
  else none

/-- `message.cards_v2` of the resolved card. -/
def cardsV2 (platform : Platform) : Option Card → Except Exc (List CardWithId)
  | none => .ok []
  | some card =>
    match platform.cardToProto card with
    | .error error => .error error
    | .ok proto => .ok [⟨"card", proto⟩]

def buildRequest (platform : Platform) (args : CreateArgs) (parent : String)
    (viewer : Option String) (card : Option Card) (attached : List AttachmentDataRef) :
    Except Exc CreateMessageRequest := do
  let cards ← cardsV2 platform card
  let accessoryWidgets ← (args.accessoryWidgets.getD []).mapM platform.accessoryToProto
  pure {
    parent
    message := {
      text := args.text.getD ""
      markupSyntax := args.markupSyntax
      attachment := attached
      privateMessageViewer := viewer
      cardsV2 := cards
      accessoryWidgets
      thread := ⟨args.thread.bind ThreadRef.name, args.thread.bind ThreadRef.threadKey⟩ }
    requestId := args.requestId
    messageId := args.messageId
    messageReplyOption := args.effectiveOption
    createMessageNotificationOptions := args.notificationOptions }

/-- The card of the request: the resolved copy of the argument. -/
def resolvedCard (platform : Platform) (bot : Bot) (args : CreateArgs) :
    Coro sig (Option Card) :=
  match args.card with
  | none => pure none
  | some card => do
    let resolved ← resolveCardAssets platform card bot.hasAssetPublisher
    pure (some resolved)

/-- The rest of the method after the local checks: publish the card, upload, send. -/
def send (platform : Platform) (bot : Bot) (identity : AuthMode) (args : CreateArgs)
    (parent : String) (viewer : Option String) : Coro sig Json := do
  let card ← resolvedCard platform bot args
  let attached ← forEach (attach bot parent args.timeout) args.attachmentList
  let request ← ofExcept (buildRequest platform args parent viewer card attached)
  execute bot .messagesCreate identity fun client =>
    awaitCall (.createMessage client request args.timeout)

/-- The identity the checks consult: the user for attachment sends, else the primary one. -/
def actualModeAsync (bot : Bot) (args : CreateArgs) : Coro sig (Option AuthMode) :=
  if args.hasAttachments then pure (some .user) else authModeAsync bot

/-- `Messages.create` of the namespace with the given identity. -/
def create (platform : Platform) (bot : Bot) (identity : AuthMode) (args : CreateArgs) :
    Coro sig Json := do
  ofExcept (validateCardAssets args.card bot.hasAssetPublisher)
  let actualMode ← actualModeAsync bot args
  ofExcept (attachmentGuards identity args)
  ofExcept (notifyGuards actualMode args)
  let viewer ← ofExcept (privateViewer actualMode args)
  ofExcept (cardGuard actualMode args)
  let parent ← ofExcept (canonicalSpace args.space)
  let _checked ← forEach (checkItem parent) args.attachmentList
  ofExcept (accessoryGuard actualMode args)
  ofExcept (modeGuard actualMode)
  checkAttachmentSend bot identity args
  send platform bot identity args parent viewer

/-! ## Updates -/

/-- `_effective_config`: the config wins over the timeout. -/
def UpdateArgs.effectiveConfig (args : UpdateArgs) : RequestConfig :=
  args.config.getD { timeout := args.timeout }

def updateGuard (args : UpdateArgs) : Except Exc Unit :=
  if args.text.isNone ∧ args.card.isNone then
    .error (chatApiError [.text "update_message requires text or card"])
  else .ok ()

def updateModeGuard (actualMode : Option AuthMode) : Except Exc Unit :=
  if actualMode = some .none then
    .error (.capabilityNotSupported [.text ("MESSAGE_UPDATE is not supported in this " ++
      "configuration. Updating messages requires app or user authentication and an admissible " ++
      "OAuth scope.")])
  else .ok ()

def publishedCard (platform : Platform) (bot : Bot) (card : Option Card) :
    Coro sig (Option Card) :=
  match card with
  | none => pure none
  | some card => do
    let resolved ← resolveCardAssets platform card bot.hasAssetPublisher
    pure (some resolved)

def updateRequest (platform : Platform) (args : UpdateArgs) (card : Option Card) :
    Except Exc UpdateMessageRequest := do
  let cards ← cardsV2 platform card
  pure {
    name := args.name
    text := args.text
    cardsV2 := cards
    updateMask := (if args.text.isSome then ["text"] else []) ++
      if args.card.isSome then ["cards_v2"] else [] }

/-- `Messages.update` of the namespace with the given identity. -/
def update (platform : Platform) (bot : Bot) (identity : AuthMode) (args : UpdateArgs) :
    Coro sig Json := do
  ofExcept (updateGuard args)
  let actualMode ← authModeAsync bot
  ofExcept (updateModeGuard actualMode)
  ofExcept (validateCardAssets args.card bot.hasAssetPublisher)
  let card ← publishedCard platform bot args.card
  let request ← ofExcept (updateRequest platform args card)
  execute bot .messagesUpdate identity fun client =>
    awaitCall (.updateMessage client request args.effectiveConfig)

end Chattice.Client
