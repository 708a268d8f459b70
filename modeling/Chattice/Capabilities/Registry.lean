import Chattice.Auth

/-!
# The operation registry

The specs of the message and upload operations and the local preflight over them. A frozen set of
scopes is the list of its members; unknown scopes are `none`.
-/

namespace Chattice.Capabilities

inductive Operation where
  | messagesCreate | messagesUpdate | mediaUpload
  deriving DecidableEq, Repr

/-- `Operation.name` -/
def Operation.name : Operation → String
  | .messagesCreate => "MESSAGES_CREATE"
  | .messagesUpdate => "MESSAGES_UPDATE"
  | .mediaUpload => "MEDIA_UPLOAD"

inductive ExecutionVariant where
  | normal | admin | import
  deriving DecidableEq, Repr

/-- One identity-specific, any-of OAuth scope rule. -/
structure AuthPath where
  identity : AuthMode
  anyScope : List String
  variant : ExecutionVariant := .normal

structure OperationSpec where
  operation : Operation
  authPaths : List AuthPath
  description : String
  preview : Bool := false

def scopes (names : List String) : List String :=
  names.map ("https://www.googleapis.com/auth/" ++ ·)

/-- `OperationRegistry.spec` over `SPECS`. -/
def spec : Operation → OperationSpec
  | .messagesCreate => {
      operation := .messagesCreate
      authPaths := [
        ⟨.app, scopes ["chat.bot"], .normal⟩,
        ⟨.user, scopes ["chat.messages.create", "chat.messages", "chat.import"], .normal⟩]
      description :=
        "Creating messages requires app or user authentication and an admissible OAuth scope." }
  | .messagesUpdate => {
      operation := .messagesUpdate
      authPaths := [
        ⟨.app, scopes ["chat.bot"], .normal⟩,
        ⟨.user, scopes ["chat.messages", "chat.import"], .normal⟩]
      description :=
        "Updating messages requires app or user authentication and an admissible OAuth scope." }
  | .mediaUpload => {
      operation := .mediaUpload
      authPaths := [
        ⟨.user, scopes ["chat.messages.create", "chat.messages", "chat.import"], .normal⟩]
      description := "media.upload requires user authentication." }

/-- Whether the local configuration allows an attempt. -/
def preflight (operation : Operation) (identity : AuthMode) (known : Option (List String))
    (variant : ExecutionVariant) : Bool :=
  let paths := (spec operation).authPaths.filter
    fun path => path.identity == identity && path.variant == variant
  match known with
  | none => !paths.isEmpty
  | some known => paths.any fun path => path.anyScope.any known.contains

end Chattice.Capabilities
