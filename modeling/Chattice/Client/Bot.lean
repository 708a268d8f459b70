import Chattice.Asyncio.Calls
import Chattice.Capabilities.Registry
import Chattice.Client.Names

/-!
# The Bot: credentials, identities and the executor

What `Bot.__init__` keeps, how credentials are classified and resolved for an identity, and the one
path that runs a registered operation: preview gate, preflight of the identity, the identity's
client, the call.

* `authModeAsync_returns`, `preflightOperation_returns` : what the resolutions decide;
* `execute_calls` : a message is sent after the gate and the preflight, on the identity's client.
-/

namespace Chattice.Client

open Asyncio Asyncio.Coro Capabilities Python

/-- A Bot: single credentials, one provider, or separate app and user providers. -/
structure Bot where
  credentials : Option Credentials
  credentialsProvider : Option CredentialsProvider
  appCredentialsProvider : Option CredentialsProvider
  userCredentialsProvider : Option CredentialsProvider
  authMode : Option AuthMode
  hasAssetPublisher : Bool
  previewEnabled : Bool
  /-- "app_credentials_provider/user_credentials_provider cannot be combined with
  credentials/credentials_provider" -/
  dualAlone : appCredentialsProvider.isSome = true ∨ userCredentialsProvider.isSome = true →
    credentials = none ∧ credentialsProvider = none
  /-- "auth_mode is implied by the app/user credential providers; pass it only for a
  single-identity Bot" -/
  dualMode : appCredentialsProvider.isSome = true ∨ userCredentialsProvider.isSome = true →
    authMode = none

/-- `Bot._classify` -/
def classify : Option Credentials → Option AuthMode
  | none => none
  | some credentials =>
    if truthy credentials.subject then some .user
    else if credentials.hasSigner then some .app
    else if truthy credentials.refreshToken then some .user
    else none

/-- `_scope_attribute` -/
def scopeAttribute : ScopeAttribute → Option (List String)
  | .absent | .other => none
  | .text scope => some [scope]
  | .items scopes => scopes.mapM id

/-- `_credential_scopes` -/
def credentialScopes (authMode : AuthMode) (credentials : Credentials) : Option (List String) :=
  match authMode with
  | .user =>
    match scopeAttribute credentials.grantedScopes with
    | some granted => some granted
    | none => scopeAttribute credentials.scopes
  | .app =>
    match scopeAttribute credentials.scopes, scopeAttribute credentials.defaultScopes with
    | none, none => none
    | explicit, defaults => some (explicit.getD [] ++ defaults.getD [])
  | .none => some []

namespace Bot

/-- What `_resolve_credentials_async` returns when it returns. -/
def primaryCredentials (bot : Bot) : Option Credentials :=
  match bot.credentialsProvider.or bot.appCredentialsProvider with
  | some provider => provider
  | none => bot.credentials

/-- What `_resolve_user_credentials_async` returns when it returns. -/
def userCredentials (bot : Bot) : Option Credentials :=
  match bot.userCredentialsProvider with
  | some provider => provider
  | none =>
    if classify bot.primaryCredentials = some .user then bot.primaryCredentials else none

/-- What `_auth_mode_async` returns when it returns. -/
def primaryMode (bot : Bot) : Option AuthMode :=
  match bot.authMode with
  | some mode => some mode
  | none => classify bot.primaryCredentials

def credentialsOf (bot : Bot) (identity : AuthMode) : Option Credentials :=
  if identity = .user then bot.userCredentials else bot.primaryCredentials

end Bot

def clientOf (identity : AuthMode) : SdkClient := if identity = .user then .user else .app

def SdkClient.credentials (client : SdkClient) (bot : Bot) : Option Credentials :=
  match client with
  | .app => bot.primaryCredentials
  | .user => bot.userCredentials

/-! ## Resolution and preflight -/

/-- `_resolve_credentials_async`: the provider may raise, the caller may be cancelled. -/
def resolveCredentials (bot : Bot) : Coro sig (Option Credentials) := do
  awaitCall .resolveCredentials
  pure bot.primaryCredentials

/-- `_resolve_user_credentials_async` -/
def resolveUserCredentials (bot : Bot) : Coro sig (Option Credentials) := do
  awaitCall .resolveUserCredentials
  pure bot.userCredentials

/-- `_auth_mode_async`: an explicit mode, or the class of the primary credentials. -/
def authModeAsync (bot : Bot) : Coro sig (Option AuthMode) :=
  match bot.authMode with
  | some mode => pure (some mode)
  | none => do
    let credentials ← resolveCredentials bot
    pure (classify credentials)

/-- `OperationRegistry.require` -/
def require (operation : Operation) (identity : AuthMode) (known : Option (List String))
    (variant : ExecutionVariant) : Except Exc Unit :=
  if preflight operation identity known variant then .ok ()
  else .error (.capabilityNotSupported [.text (operation.name ++
    " is not supported in this configuration. " ++ (spec operation).description)])

/-- `_preflight_operation` after the credentials of the identity are resolved. -/
def preflightCredentials (operation : Operation) (identity : AuthMode) (variant : ExecutionVariant)
    (credentials : Option Credentials) : Except Exc Unit :=
  match credentials with
  | none =>
    if identity = .user then
      .error (.capabilityNotSupported [.text "USER identity is not configured on this Bot"])
    else
      .error (.capabilityNotSupported [.text ("The APP identity has no credentials; pass " ++
        "google.auth credentials or a credentials_provider to Bot(...)")])
  | some credentials =>
    match classify (some credentials) with
    | none => .ok ()
    | some mode =>
      if mode ≠ identity then
        .error (.capabilityNotSupported [.text ("Requested " ++ identity.name ++
          " identity but resolved credentials are " ++ mode.name)])
      else require operation mode (credentialScopes mode credentials) variant

def resolveFor (bot : Bot) (identity : AuthMode) : Coro sig (Option Credentials) :=
  if identity = .user then resolveUserCredentials bot else resolveCredentials bot

/-- `_preflight_operation` -/
def preflightOperation (bot : Bot) (operation : Operation) (identity : AuthMode)
    (variant : ExecutionVariant) : Coro sig Unit := do
  let credentials ← resolveFor bot identity
  ofExcept (preflightCredentials operation identity variant credentials)

/-- "… is a preview operation and requires explicit opt-in: Bot(..., enable_preview=True)" -/
def previewGate (bot : Bot) (operation : Operation) : Except Exc Unit :=
  if (spec operation).preview && !bot.previewEnabled then
    .error (.capabilityNotSupported [.text (operation.name ++
      " is a preview operation and requires explicit opt-in: Bot(..., enable_preview=True)")])
  else .ok ()

/-- `OperationExecutor.execute`: Google's errors are wrapped, the others pass. -/
def execute {α : Type} (bot : Bot) (operation : Operation) (identity : AuthMode)
    (rpc : SdkClient → Coro sig α) : Coro sig α := do
  ofExcept (previewGate bot operation)
  preflightOperation bot operation identity .normal
  awaitCall (.initializeClient (clientOf identity))
  tryElse (rpc (clientOf identity))
    (fun
      | .googleApiCallError kind message => raise (wrapApiError kind message)
      | error => raise error)
    pure

/-- `ResourceClient._preflight`: the executor's chain with a call that does nothing. -/
def preflightOnly (bot : Bot) (operation : Operation) (identity : AuthMode) : Coro sig Unit :=
  execute bot operation identity fun _ => pure ()

/-! ## What they return and call -/

variable {bot : Bot} {operation : Operation} {identity : AuthMode}

theorem resolveCredentials_returns {credentials : Option Credentials} :
    (resolveCredentials bot).Returns credentials ↔ credentials = bot.primaryCredentials := by
  unfold resolveCredentials
  rw [bind_eq, returns_bind]
  constructor
  · rintro ⟨_, -, h⟩
    simpa [eq_comm] using h
  · rintro rfl
    exact ⟨(), returns_call, rfl⟩

theorem resolveUserCredentials_returns {credentials : Option Credentials} :
    (resolveUserCredentials bot).Returns credentials ↔ credentials = bot.userCredentials := by
  unfold resolveUserCredentials
  rw [bind_eq, returns_bind]
  constructor
  · rintro ⟨_, -, h⟩
    simpa [eq_comm] using h
  · rintro rfl
    exact ⟨(), returns_call, rfl⟩

theorem authModeAsync_returns {mode : Option AuthMode} :
    (authModeAsync bot).Returns mode ↔ mode = bot.primaryMode := by
  unfold authModeAsync Bot.primaryMode
  cases bot.authMode with
  | some explicit => simp [eq_comm]
  | none =>
    simp only [bind_eq, pure_eq, returns_bind, returns_done, resolveCredentials_returns,
      Outcome.ret.injEq, exists_eq_left, eq_comm]

theorem resolveFor_returns {credentials : Option Credentials} :
    (resolveFor bot identity).Returns credentials ↔ credentials = bot.credentialsOf identity := by
  unfold resolveFor Bot.credentialsOf
  split
  · exact resolveUserCredentials_returns
  · exact resolveCredentials_returns

theorem preflightOperation_returns {variant : ExecutionVariant} :
    (preflightOperation bot operation identity variant).Returns () ↔
      preflightCredentials operation identity variant (bot.credentialsOf identity) = .ok () := by
  unfold preflightOperation
  simp only [bind_eq, returns_bind, returns_ofExcept, resolveFor_returns, exists_eq_left]

theorem preflightOperation_within {P : Call → Prop} {variant : ExecutionVariant}
    (happ : P .resolveCredentials) (huser : P .resolveUserCredentials) :
    (preflightOperation bot operation identity variant).Within P := by
  unfold preflightOperation
  refine within_bind ?_ fun _ => within_ofExcept
  unfold resolveFor
  split
  · exact within_bind (within_call huser) fun _ => within_done
  · exact within_bind (within_call happ) fun _ => within_done

theorem execute_within {α : Type} {rpc : SdkClient → Coro sig α} {P : Call → Prop}
    (happ : P .resolveCredentials) (huser : P .resolveUserCredentials)
    (hclient : ∀ client, P (.initializeClient client)) (hrpc : ∀ client, (rpc client).Within P) :
    (execute bot operation identity rpc).Within P := by
  unfold execute
  refine within_bind within_ofExcept fun _ => ?_
  refine within_bind (preflightOperation_within happ huser) fun _ => ?_
  refine within_bind (within_call (hclient _)) fun _ => ?_
  refine within_tryElse (hrpc _) (fun error => ?_) fun _ => within_done
  split <;> exact within_done

/-- A send goes through the gate and the preflight, and is made on the client of the identity. -/
theorem execute_calls {α : Type} {rpc : SdkClient → Coro sig α} {k : Call}
    (hk : k.isSend = true) :
    (execute bot operation identity rpc).Calls k ↔
      previewGate bot operation = .ok () ∧
        preflightCredentials operation identity .normal (bot.credentialsOf identity) = .ok () ∧
          (rpc (clientOf identity)).Calls k := by
  have hpreflight : ¬ (preflightOperation bot operation identity .normal).Calls k := by
    intro h
    have hquiet : k.isSend = false := preflightOperation_within (P := (·.isSend = false)) rfl rfl k h
    rw [hk] at hquiet
    cases hquiet
  have hclient : k ≠ .initializeClient (clientOf identity) := by
    rintro rfl
    cases hk
  unfold execute
  simp only [bind_eq, calls_bind, calls_ofExcept, false_or, returns_ofExcept, hpreflight]
  constructor
  · rintro ⟨⟨⟩, hgate, ⟨⟩, hcredentials, h | ⟨_, -, h⟩⟩
    · exact absurd (calls_call.mp h) hclient
    · rw [calls_tryElse] at h
      · refine ⟨hgate, preflightOperation_returns.mp hcredentials, h.resolve_right ?_⟩
        rintro ⟨_, -, hdone⟩
        exact calls_done hdone
      · intro error
        split <;> exact calls_done
  · rintro ⟨hgate, hcredentials, h⟩
    refine ⟨(), hgate, (), preflightOperation_returns.mpr hcredentials, .inr ⟨(), returns_call, ?_⟩⟩
    unfold tryElse
    exact calls_andThen.mpr (.inl h)

end Chattice.Client
