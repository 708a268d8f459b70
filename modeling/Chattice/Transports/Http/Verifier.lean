import Chattice.Python.Str

/-!
# `GoogleTokenVerifier`

A request is verified by its bearer token: google-auth decodes the token for the audience, and the claims
must be those of Google Chat. What google-auth answers is a parameter.

* `extractBearer`, `verify` : the verifier;
* `BearerHeader`, `Authentic` : what a header, and a request, must look like;
* `verify_iff` : the requests that are let through, and what is raised for the others.
-/

namespace Chattice.Python

/-- `s.lower()` of a string of ASCII letters; no other letter becomes one of those compared with here. -/
def lower (s : String) : String := s.map Char.toLower

/-! ## Splitting at a space -/

theorem splitOnce_space_iff {l before after : List Char} :
    splitOnce [' '] l = some (before, after) ↔ l = before ++ ' ' :: after ∧ ' ' ∉ before := by
  induction l generalizing before with
  | nil => simp [splitOnce]
  | cons c rest ih =>
    rw [splitOnce]
    by_cases hc : c = ' '
    · subst hc
      have hprefix : [' '].isPrefixOf (' ' :: rest) = true := rfl
      rw [if_pos hprefix]
      constructor
      · intro h
        cases h
        exact ⟨rfl, List.not_mem_nil⟩
      · rintro ⟨heq, hnot⟩
        cases before with
        | nil =>
          cases heq
          rfl
        | cons b before =>
          cases heq
          exact absurd List.mem_cons_self hnot
    · have hprefix : ¬ [' '].isPrefixOf (c :: rest) = true := by
        rw [List.isPrefixOf_iff_prefix, List.cons_prefix_cons]
        exact fun h => hc h.1.symm
      rw [if_neg hprefix, Option.map_eq_some_iff]
      constructor
      · rintro ⟨⟨before', after'⟩, hrest, heq⟩
        cases heq
        obtain ⟨rfl, hnot⟩ := ih.mp hrest
        refine ⟨rfl, fun hmem => ?_⟩
        obtain h | h := List.mem_cons.mp hmem
        · exact hc h.symm
        · exact hnot h
      · rintro ⟨heq, hnot⟩
        cases before with
        | nil =>
          cases heq
          exact absurd rfl hc
        | cons b before =>
          cases heq
          exact ⟨(before, after), ih.mpr ⟨rfl, fun h => hnot (List.mem_cons_of_mem _ h)⟩, rfl⟩

theorem partition_space_iff {s before after : String} : partition s " " = some (before, after) ↔
    s.toList = before.toList ++ ' ' :: after.toList ∧ ' ' ∉ before.toList := by
  unfold partition
  rw [Option.map_eq_some_iff]
  constructor
  · rintro ⟨⟨b, a⟩, hsplit, heq⟩
    cases heq
    rw [String.toList_ofList, String.toList_ofList]
    exact splitOnce_space_iff.mp hsplit
  · intro h
    refine ⟨(before.toList, after.toList), splitOnce_space_iff.mpr h, ?_⟩
    dsimp only
    rw [String.ofList_toList, String.ofList_toList]

theorem strip_eq_word_iff {s word : String} (hne : word.toList ≠ [])
    (hword : ∀ c ∈ word.toList, isSpace c = false) : strip s = word ↔
      ∃ left right, s.toList = left ++ word.toList ++ right ∧ (∀ c ∈ left, isSpace c = true) ∧
        ∀ c ∈ right, isSpace c = true := by
  have hspaces (l : List Char) : ∀ c ∈ l.takeWhile isSpace, isSpace c = true :=
    List.all_eq_true.mp List.all_takeWhile
  constructor
  · rintro rfl
    rw [strip, String.toList_ofList]
    refine ⟨s.toList.takeWhile isSpace,
      ((s.toList.dropWhile isSpace).reverse.takeWhile isSpace).reverse, ?_, hspaces _, fun c hc => ?_⟩
    · rw [List.append_assoc, ← List.reverse_append, List.takeWhile_append_dropWhile, List.reverse_reverse,
        List.takeWhile_append_dropWhile]
    · exact hspaces _ c (List.mem_reverse.mp hc)
  · rintro ⟨left, right, heq, hleft, hright⟩
    have hdrop (pad : List Char) {rest : List Char} (hpad : ∀ c ∈ pad, isSpace c = true) (hrest : rest ≠ [])
        (hsolid : ∀ h : rest ≠ [], isSpace (rest.head h) = false) : (pad ++ rest).dropWhile isSpace = rest := by
      rw [List.dropWhile_append_of_pos hpad]
      cases rest with
      | nil => exact absurd rfl hrest
      | cons c rest => exact List.dropWhile_cons_of_neg (Bool.eq_false_iff.mp (hsolid hrest))
    have hfirst : (left ++ (word.toList ++ right)).dropWhile isSpace = word.toList ++ right := by
      refine hdrop left hleft (List.append_ne_nil_of_left_ne_nil hne _) fun _ => ?_
      rw [List.head_append_of_ne_nil hne]
      exact hword _ (List.head_mem hne)
    have hlast : (right.reverse ++ word.toList.reverse).dropWhile isSpace = word.toList.reverse := by
      refine hdrop right.reverse (fun c hc => hright c (List.mem_reverse.mp hc))
        (by rwa [ne_eq, List.reverse_eq_nil_iff]) fun h => ?_
      exact hword _ (List.mem_reverse.mp (List.head_mem h))
    rw [strip, heq, List.append_assoc, hfirst, List.reverse_append, hlast, List.reverse_reverse,
      String.ofList_toList]

end Chattice.Python

namespace Chattice.Http

open Python

/-! ## Requests -/

/-- `IncomingRequest`, without the time it was received. -/
structure IncomingRequest where
  method : String
  path : String
  body : List UInt8
  headers : List (String × String)
  deriving DecidableEq, Repr

/-- `header`: the first value whose name is equal, whatever the case. -/
def IncomingRequest.header (request : IncomingRequest) (name : String) : Option String :=
  (request.headers.find? fun field => lower field.1 = lower name).map Prod.snd

/-- The exceptions of a verifier: a `VerificationError`, or another one. -/
inductive Exc where
  | verification (text : String)
  | other (className : String)
  deriving DecidableEq, Repr

/-- `extract_bearer` -/
def extractBearer (request : IncomingRequest) : Except Exc String :=
  match request.header "Authorization" with
  | none => .error (.verification "Missing Authorization header")
  | some header =>
    let (scheme, rest) := (partition header " ").getD (header, "")
    if lower scheme ≠ "bearer" ∨ strip rest = "" then
      .error (.verification "Malformed Authorization header")
    else if (strip rest).toList.any isSpace then .error (.verification "Malformed Authorization header")
    else .ok (strip rest)

/-! ## The verifier -/

def chatIssuer : String := "chat@system.gserviceaccount.com"

def chatCertsUrl : String :=
  "https://www.googleapis.com/service_accounts/v1/metadata/x509/" ++ chatIssuer

def googleAccountIssuers : List String := ["accounts.google.com", "https://accounts.google.com"]

/-- What google-auth raises. A `TransportError` is a `GoogleAuthError`. -/
inductive GoogleExc where
  | transport
  | googleAuth
  | valueError
  | other (className : String)
  deriving DecidableEq, Repr

/-- `google.oauth2.id_token`: the claims of a token that it accepts for the audience. -/
structure GoogleAuth where
  verifyOauth2Token (token audience : String) : Except GoogleExc Json.Fields
  verifyToken (token audience certsUrl : String) (clockSkewInSeconds : Int) : Except GoogleExc Json.Fields

/-- `claims.get(name) == value` -/
def claimIs (claims : Json.Fields) (name value : String) : Bool :=
  match Json.get claims name with
  | .str s => s == value
  | _ => false

/-- `claims.get("email_verified") is True` -/
def emailVerified (claims : Json.Fields) : Bool :=
  match Json.get claims "email_verified" with
  | .bool b => b
  | _ => false

/-- `_validate_issuer` -/
def validateIssuer (claims : Json.Fields) : Except Exc Unit :=
  if claimIs claims "iss" chatIssuer then .ok ()
  else if googleAccountIssuers.any (claimIs claims "iss") && claimIs claims "email" chatIssuer then .ok ()
  else .error (.verification "Invalid token issuer")

/-- The claims of an endpoint-URL audience. -/
def validateIdentity (claims : Json.Fields) : Except Exc Unit :=
  if claimIs claims "email" chatIssuer then
    if emailVerified claims then .ok () else .error (.verification "Token email is not verified")
  else .error (.verification "Token identity is not the Google Chat service")

/-- The `except` clauses of `verify`. -/
def GoogleExc.raised : GoogleExc → Exc
  | .transport => .verification "Cannot reach Google Chat issuer certificates"
  | .googleAuth | .valueError => .verification "Invalid bearer token"
  | .other className => .other className

structure GoogleTokenVerifier where
  audience : String
  clockSkewInSeconds : Int

/-- The claims that are decoded, and their check. -/
def GoogleTokenVerifier.validate (self : GoogleTokenVerifier) (google : GoogleAuth) (token : String) :
    Except Exc Unit :=
  if startsWith self.audience "https://" then
    match google.verifyOauth2Token token self.audience with
    | .ok claims => validateIdentity claims
    | .error e => .error e.raised
  else
    match google.verifyToken token self.audience chatCertsUrl self.clockSkewInSeconds with
    | .ok claims => validateIssuer claims
    | .error e => .error e.raised

/-- `verify` -/
def GoogleTokenVerifier.verify (self : GoogleTokenVerifier) (google : GoogleAuth)
    (request : IncomingRequest) : Except Exc Unit := do
  let token ← extractBearer request
  self.validate google token

/-! ## The requests that are let through -/

/-- The scheme in any case, a space, and one word with white space around it. -/
def BearerHeader (header token : String) : Prop :=
  token.toList ≠ [] ∧ (∀ c ∈ token.toList, isSpace c = false) ∧
    ∃ scheme left right : List Char, header.toList = scheme ++ ' ' :: (left ++ token.toList ++ right) ∧
      ' ' ∉ scheme ∧ lower (.ofList scheme) = "bearer" ∧ (∀ c ∈ left, isSpace c = true) ∧
      ∀ c ∈ right, isSpace c = true

/-- What the claims must say: an endpoint URL takes the verified e-mail of Google Chat, a project number
the issuer Google Chat, or a Google account with that e-mail. -/
def GoogleTokenVerifier.Accepts (self : GoogleTokenVerifier) (google : GoogleAuth) (token : String) : Prop :=
  ∃ claims,
    if startsWith self.audience "https://" then
      google.verifyOauth2Token token self.audience = .ok claims ∧
        Json.get claims "email" = .str chatIssuer ∧ Json.get claims "email_verified" = .bool true
    else
      google.verifyToken token self.audience chatCertsUrl self.clockSkewInSeconds = .ok claims ∧
        (Json.get claims "iss" = .str chatIssuer ∨
          (∃ issuer ∈ googleAccountIssuers, Json.get claims "iss" = .str issuer) ∧
            Json.get claims "email" = .str chatIssuer)

/-- A request with a bearer token of Google Chat. -/
def GoogleTokenVerifier.Authentic (self : GoogleTokenVerifier) (google : GoogleAuth)
    (request : IncomingRequest) : Prop :=
  ∃ header token, request.header "Authorization" = some header ∧ BearerHeader header token ∧
    self.Accepts google token

theorem claimIs_iff {claims : Json.Fields} {name value : String} :
    claimIs claims name value = true ↔ Json.get claims name = .str value := by
  unfold claimIs
  split
  · next s hs =>
    rw [hs, beq_iff_eq]
    exact ⟨congrArg Json.str, Json.str.inj⟩
  · next hother =>
    refine iff_of_false Bool.false_ne_true fun h => ?_
    exact hother value h

theorem emailVerified_iff {claims : Json.Fields} :
    emailVerified claims = true ↔ Json.get claims "email_verified" = .bool true := by
  unfold emailVerified
  split
  · next b hb =>
    rw [hb]
    exact ⟨congrArg Json.bool, Json.bool.inj⟩
  · next hother =>
    refine iff_of_false Bool.false_ne_true fun h => ?_
    exact hother true h

theorem validateIdentity_iff {claims : Json.Fields} : validateIdentity claims = .ok () ↔
    Json.get claims "email" = .str chatIssuer ∧ Json.get claims "email_verified" = .bool true := by
  rw [← claimIs_iff, ← emailVerified_iff, validateIdentity]
  cases claimIs claims "email" chatIssuer <;> cases emailVerified claims <;> simp

theorem validateIssuer_iff {claims : Json.Fields} : validateIssuer claims = .ok () ↔
    Json.get claims "iss" = .str chatIssuer ∨
      (∃ issuer ∈ googleAccountIssuers, Json.get claims "iss" = .str issuer) ∧
        Json.get claims "email" = .str chatIssuer := by
  have hany : googleAccountIssuers.any (claimIs claims "iss") = true ↔
      ∃ issuer ∈ googleAccountIssuers, Json.get claims "iss" = .str issuer := by
    rw [List.any_eq_true]
    exact exists_congr fun issuer => and_congr_right fun _ => claimIs_iff
  rw [← claimIs_iff, ← claimIs_iff, ← hany, validateIssuer]
  cases claimIs claims "iss" chatIssuer <;> cases googleAccountIssuers.any (claimIs claims "iss") <;>
    cases claimIs claims "email" chatIssuer <;> simp

theorem validate_iff {self : GoogleTokenVerifier} {google : GoogleAuth} {token : String} :
    self.validate google token = .ok () ↔ self.Accepts google token := by
  unfold GoogleTokenVerifier.validate GoogleTokenVerifier.Accepts
  split
  · split
    · next claims hclaims =>
      rw [validateIdentity_iff, hclaims]
      simp
    · next hraised =>
      rw [hraised]
      simp
  · split
    · next claims hclaims =>
      rw [validateIssuer_iff, hclaims]
      simp
    · next hraised =>
      rw [hraised]
      simp

/-- The token of a header that has a space. -/
theorem bearerHeader_iff {header scheme rest token : String} (hsplit : partition header " " = some (scheme, rest)) :
    BearerHeader header token ↔
      lower scheme = "bearer" ∧ strip rest = token ∧ token ≠ "" ∧ ∀ c ∈ token.toList, isSpace c = false := by
  obtain ⟨hheader, hscheme⟩ := partition_space_iff.mp hsplit
  have hempty : token.toList ≠ [] ↔ token ≠ "" := not_congr String.toList_eq_nil_iff
  constructor
  · rintro ⟨hne, hword, scheme', left, right, hheader', hscheme', hlower, hleft, hright⟩
    have hsplit' : partition header " " =
        some (.ofList scheme', .ofList (left ++ token.toList ++ right)) := by
      rw [partition_space_iff, String.toList_ofList, String.toList_ofList]
      exact ⟨hheader', hscheme'⟩
    obtain ⟨rfl, rfl⟩ := Prod.mk.inj (Option.some_inj.mp (hsplit.symm.trans hsplit'))
    refine ⟨hlower, (strip_eq_word_iff hne hword).mpr ⟨left, right, ?_, hleft, hright⟩, hempty.mp hne, hword⟩
    rw [String.toList_ofList]
  · rintro ⟨hlower, hstrip, hne, hword⟩
    obtain ⟨left, right, hrest, hleft, hright⟩ := (strip_eq_word_iff (hempty.mpr hne) hword).mp hstrip
    refine ⟨hempty.mpr hne, hword, scheme.toList, left, right, ?_, hscheme, ?_, hleft, hright⟩
    · rw [hheader, hrest]
    · rwa [String.ofList_toList]

theorem not_bearerHeader {header token : String} (hsplit : partition header " " = none) :
    ¬ BearerHeader header token := by
  rintro ⟨-, -, scheme, left, right, hheader, hscheme, -⟩
  have hsplit' : partition header " " = some (.ofList scheme, .ofList (left ++ token.toList ++ right)) := by
    rw [partition_space_iff, String.toList_ofList, String.toList_ofList]
    exact ⟨hheader, hscheme⟩
  rw [hsplit] at hsplit'
  cases hsplit'

theorem extractBearer_iff {request : IncomingRequest} {token : String} :
    extractBearer request = .ok token ↔
      ∃ header, request.header "Authorization" = some header ∧ BearerHeader header token := by
  unfold extractBearer
  cases request.header "Authorization" with
  | none => simp
  | some header =>
    dsimp only
    rw [show (∃ header', some header = some header' ∧ BearerHeader header' token) ↔ BearerHeader header token by
      simp]
    cases hsplit : partition header " " with
    | none =>
      have hstrip : strip "" = "" := rfl
      simp [hstrip, not_bearerHeader hsplit]
    | some parts =>
      obtain ⟨scheme, rest⟩ := parts
      rw [bearerHeader_iff hsplit, Option.getD_some]
      dsimp only
      split
      · next hmalformed =>
        refine iff_of_false (by intro h; cases h) ?_
        rintro ⟨hlower, hstrip, hne, -⟩
        obtain h | h := hmalformed
        · exact h hlower
        · exact hne (hstrip ▸ h)
      · next hwell =>
        obtain ⟨hlower, hne⟩ := not_or.mp hwell
        split
        · next hspace =>
          refine iff_of_false (by intro h; cases h) ?_
          rintro ⟨-, rfl, -, hword⟩
          obtain ⟨c, hc, hspace⟩ := List.any_eq_true.mp hspace
          rw [hword c hc] at hspace
          cases hspace
        · next hword =>
          constructor
          · intro h
            cases h
            refine ⟨not_not.mp hlower, rfl, hne, fun c hc => Bool.eq_false_iff.mpr fun hspace => hword ?_⟩
            exact List.any_eq_true.mpr ⟨c, hc, hspace⟩
          · rintro ⟨-, rfl, -, -⟩
            rfl

theorem extractBearer_error {request : IncomingRequest} {e : Exc} (h : extractBearer request = .error e) :
    ∃ text, e = .verification text := by
  unfold extractBearer at h
  split at h
  · cases h
    exact ⟨_, rfl⟩
  · dsimp only at h
    split at h
    · cases h
      exact ⟨_, rfl⟩
    · split at h
      · cases h
        exact ⟨_, rfl⟩
      · cases h

/-- What google-auth raises for the token. -/
def GoogleTokenVerifier.Raises (self : GoogleTokenVerifier) (google : GoogleAuth) (token : String)
    (e : GoogleExc) : Prop :=
  if startsWith self.audience "https://" then google.verifyOauth2Token token self.audience = .error e
  else google.verifyToken token self.audience chatCertsUrl self.clockSkewInSeconds = .error e

theorem validate_error {self : GoogleTokenVerifier} {google : GoogleAuth} {token className : String}
    (h : self.validate google token = .error (.other className)) :
    self.Raises google token (.other className) := by
  have hraised {e : GoogleExc} (he : e.raised = .other className) : e = .other className := by
    cases e <;> cases he
    rfl
  unfold GoogleTokenVerifier.validate at h
  unfold GoogleTokenVerifier.Raises
  split
  · next haudience =>
    rw [if_pos haudience] at h
    split at h
    · unfold validateIdentity at h
      split at h
      · split at h <;> cases h
      · cases h
    · next e he => rw [he, hraised (Except.error.inj h)]
  · next haudience =>
    rw [if_neg haudience] at h
    split at h
    · unfold validateIssuer at h
      split at h
      · cases h
      · split at h <;> cases h
    · next e he => rw [he, hraised (Except.error.inj h)]

/-- **Main result.** The requests with a bearer token of Google Chat are let through, and no others; a
request that is not raises a `VerificationError`, unless google-auth raises an exception that is neither a
`ValueError` nor its own. -/
theorem verify_iff (self : GoogleTokenVerifier) (google : GoogleAuth) (request : IncomingRequest) :
    (self.verify google request = .ok () ↔ self.Authentic google request) ∧
      ∀ e, self.verify google request = .error e → (∃ text, e = .verification text) ∨
        ∃ token className, extractBearer request = .ok token ∧ e = .other className ∧
          self.Raises google token (.other className) := by
  unfold GoogleTokenVerifier.verify
  cases hbearer : extractBearer request with
  | error e =>
    constructor
    · refine iff_of_false (by intro h; cases h) ?_
      rintro ⟨header, token, hheader, htoken, -⟩
      rw [extractBearer_iff.mpr ⟨header, hheader, htoken⟩] at hbearer
      cases hbearer
    · intro e' he'
      cases he'
      exact .inl (extractBearer_error hbearer)
  | ok token =>
    change (self.validate google token = .ok () ↔ _) ∧ ∀ e, self.validate google token = .error e → _
    constructor
    · rw [validate_iff]
      constructor
      · intro haccepts
        obtain ⟨header, hheader, htoken⟩ := extractBearer_iff.mp hbearer
        exact ⟨header, token, hheader, htoken, haccepts⟩
      · rintro ⟨header, token', hheader, htoken', haccepts⟩
        rw [extractBearer_iff.mpr ⟨header, hheader, htoken'⟩] at hbearer
        cases hbearer
        exact haccepts
    · intro e he
      cases e with
      | verification text => exact .inl ⟨text, rfl⟩
      | other className => exact .inr ⟨token, className, rfl, rfl, validate_error he⟩

end Chattice.Http
