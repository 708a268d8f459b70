/-!
# Authentication identities
-/

namespace Chattice

/-- The outgoing authentication identity class. -/
inductive AuthMode where
  | app | user | none
  deriving DecidableEq, Repr

/-- `AuthMode.name` -/
def AuthMode.name : AuthMode → String
  | .app => "APP"
  | .user => "USER"
  | .none => "NONE"

/-- A scope attribute of a credentials object: missing or `None`, one string, an iterable with
`none` for an item that is not a string, or another value. -/
inductive ScopeAttribute where
  | absent
  | text (scope : String)
  | items (scopes : List (Option String))
  | other
  deriving DecidableEq, Repr

/-- What the client reads of a credentials object: the attributes that classify it and its scopes. -/
structure Credentials where
  subject : Option String
  hasSigner : Bool
  refreshToken : Option String
  grantedScopes : ScopeAttribute
  scopes : ScopeAttribute
  defaultScopes : ScopeAttribute
  deriving DecidableEq, Repr

/-- A credentials provider, by the value it returns when it succeeds: a `Bot` calls it until it has
succeeded once and keeps the result. -/
abbrev CredentialsProvider := Option Credentials

end Chattice
