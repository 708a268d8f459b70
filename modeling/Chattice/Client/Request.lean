import Chattice.Asyncio.Coro
import Chattice.Cards.Widgets
import Chattice.Events.Base
import Chattice.Python.Str

/-!
# Requests of the Bot client

The arguments of a message creation, the request that is sent, the exceptions of the client, and
what its coroutines await. A proto message is its JSON.
-/

namespace Chattice.Client

open Asyncio Cards Python

/-! ## Exceptions -/

/-- The class of a `GoogleAPICallError`. -/
inductive GoogleError where
  | notFound | alreadyExists | conflict | permissionDenied | forbidden | invalidArgument
  | resourceExhausted | tooManyRequests | serviceUnavailable | internalServerError | badGateway
  | gatewayTimeout | deadlineExceeded | unauthenticated | unauthorized
  | other (className : String)
  deriving DecidableEq, Repr

/-- `ChatAPIError` and its subclasses. -/
inductive ChatError where
  | api | notFound | alreadyExists | permissionDenied | invalidArgument | rateLimit
  | serviceUnavailable | unauthenticated
  deriving DecidableEq, Repr

/-- The exceptions the client raises, wraps or tells apart. `FileNotFoundError` is the `OSError`
with `notFound`. -/
inductive Exc where
  | chatApiError (kind : ChatError) (text : Text)
  | capabilityNotSupported (text : Text)
  | assetPublisherNotConfigured (text : Text)
  | assetPublishError (text : Text)
  | valueError (text : Text)
  | runtimeError (text : Text)
  | osError (notFound : Bool) (text : Text)
  | googleApiCallError (kind : GoogleError) (message : String)
  | other (className : String)
  deriving Repr

/-- `raise ChatAPIError(text)` -/
def chatApiError (text : Text) : Exc := .chatApiError .api text

/-- The subclass `wrap_api_error` picks. -/
def GoogleError.wrapper : GoogleError → ChatError
  | .alreadyExists | .conflict => .alreadyExists
  | .notFound => .notFound
  | .permissionDenied | .forbidden => .permissionDenied
  | .invalidArgument => .invalidArgument
  | .resourceExhausted | .tooManyRequests => .rateLimit
  | .serviceUnavailable | .internalServerError | .badGateway | .gatewayTimeout
  | .deadlineExceeded => .serviceUnavailable
  | .unauthenticated | .unauthorized => .unauthenticated
  | .other _ => .api

/-- `wrap_api_error` -/
def wrapApiError (kind : GoogleError) (message : String) : Exc :=
  .chatApiError kind.wrapper [.text message]

/-! ## Arguments -/

/-- `SpaceRef | str` -/
inductive SpaceTarget where
  | ref (space : SpaceRef)
  | name (name : String)
  deriving DecidableEq, Repr

/-- `UserRef | str` -/
inductive UserTarget where
  | ref (user : UserRef)
  | name (name : String)
  deriving DecidableEq, Repr

inductive FileSource where
  | path (path : String)
  | bytes (data : List UInt8)
  deriving DecidableEq, Repr

structure InputFile where
  filename : String
  contentType : Option String
  source : FileSource
  deriving DecidableEq, Repr

structure UploadedAttachment where
  space : String
  filename : String
  attachmentDataRef : List (String × Json)
  raw : Option (List (String × Json))
  deriving Repr

inductive AttachmentItem where
  | file (file : InputFile)
  | uploaded (attachment : UploadedAttachment)
  deriving Repr

inductive MessageReplyOption where
  | unspecified | fallbackToNewThread | orFail
  deriving DecidableEq, Repr

/-- The arguments of `Messages.create`; `markup_syntax` is the SDK's enum value. -/
structure CreateArgs where
  space : SpaceTarget
  text : Option String := none
  markupSyntax : Option Int := none
  thread : Option ThreadRef := none
  replyOption : Option MessageReplyOption := none
  requestId : Option String := none
  messageId : Option String := none
  timeout : Option Rat := none
  accessoryWidgets : Option (List AccessoryWidget) := none
  card : Option Card := none
  notify : Option String := none
  privateTo : Option UserTarget := none
  attachments : Option (List AttachmentItem) := none

namespace CreateArgs

/-- `attachments or ()` -/
def attachmentList (args : CreateArgs) : List AttachmentItem := args.attachments.getD []

/-- `bool(attachments)` -/
def hasAttachments (args : CreateArgs) : Bool := !args.attachmentList.isEmpty

/-- `bool(accessory_widgets)` -/
def hasAccessoryWidgets (args : CreateArgs) : Bool := !(args.accessoryWidgets.getD []).isEmpty

end CreateArgs

/-- `RequestConfig`; a retry policy is its settings. -/
structure RequestConfig where
  timeout : Option Rat := none
  retry : Option Json := none
  metadata : List (String × List UInt8) := []
  deriving Repr

/-- The arguments of `Messages.update`. -/
structure UpdateArgs where
  name : String
  text : Option String := none
  card : Option Card := none
  timeout : Option Rat := none
  config : Option RequestConfig := none

/-! ## The request -/

structure AttachmentDataRef where
  resourceName : Option String
  attachmentUploadToken : Option String
  deriving DecidableEq, Repr

structure Thread where
  name : Option String
  threadKey : Option String
  deriving DecidableEq, Repr

structure CardWithId where
  cardId : String
  card : Json
  deriving Repr

structure MessageProto where
  text : String
  markupSyntax : Option Int
  attachment : List AttachmentDataRef
  privateMessageViewer : Option String
  cardsV2 : List CardWithId
  accessoryWidgets : List Json
  thread : Thread
  deriving Repr

inductive NotificationType where
  | forceNotify | silent
  deriving DecidableEq, Repr

structure CreateMessageRequest where
  parent : String
  message : MessageProto
  requestId : Option String
  messageId : Option String
  messageReplyOption : MessageReplyOption
  createMessageNotificationOptions : Option NotificationType
  deriving Repr

structure UpdateMessageRequest where
  name : String
  text : Option String
  cardsV2 : List CardWithId
  updateMask : List String
  deriving Repr

/-! ## Awaited calls -/

/-- The two SDK clients of a `Bot`. -/
inductive SdkClient where
  | app | user
  deriving DecidableEq, Repr

structure FileStat where
  isRegular : Bool
  size : Nat
  deriving DecidableEq, Repr

/-- What the client awaits, and the file system calls it makes in between. A resolution of
credentials returns without a value here: the value is the `Bot`'s. -/
inductive Call where
  | resolveCredentials
  | resolveUserCredentials
  | initializeClient (client : SdkClient)
  | stat (path : String)
  | readImage (path : String)
  | readFile (file : InputFile)
  | publish (data : List UInt8) (filename contentType : String) (namespaceName : Option String)
  | uploadMedia (parent filename : String) (contentType : Option String) (data : List UInt8)
      (timeout : Option Rat)
  | createMessage (client : SdkClient) (request : CreateMessageRequest) (timeout : Option Rat)
  | updateMessage (client : SdkClient) (request : UpdateMessageRequest) (config : RequestConfig)

abbrev Call.Res : Call → Type
  | .resolveCredentials | .resolveUserCredentials | .initializeClient _ => Unit
  | .stat _ => FileStat
  | .readImage _ | .readFile _ => List UInt8
  | .publish .. => Json
  | .uploadMedia .. => List (String × Json)
  | .createMessage .. | .updateMessage .. => Json

def Call.isSend : Call → Bool
  | .createMessage .. => true
  | _ => false

def Call.isAsset : Call → Bool
  | .readImage _ | .publish .. => true
  | _ => false

abbrev sig : Sig where
  Call := Call
  Res := Call.Res
  Eff := Empty
  Exc := Exc

abbrev awaitCall (c : Call) : Coro sig c.Res := Coro.call (S := sig) c

/-- What the client takes from its libraries: the serializers of the facades, which raise for values
the protos reject, and the verdict of `urlsplit` on a network location with brackets or non-ASCII
code points. -/
structure Platform where
  cardToProto : Card → Except Exc Json
  accessoryToProto : AccessoryWidget → Except Exc Json
  specialNetloc : String → Bool

end Chattice.Client
