import Chattice.Client.Request

/-!
# Canonical resource names

`_canonical_space`, `_canonical_user` and `_canonical_group` read an argument and share one policy: a
bare id is put under its collection, a name in the collection passes, anything else raises.
`_membership_name` only lets a name pass.
-/

namespace Chattice.Client

open Python

/-- A trimmed name under `collection`, which ends with a slash: `malformed` is the error of a name
with a slash that is not `collection{id}`. -/
def canonicalIn (collection name : String) (empty malformed : Exc) : Except Exc String :=
  if name == "" then .error empty
  else if contains name '/' then
    if !startsWith name collection || count name '/' != 1 then .error malformed
    else .ok name
  else .ok (collection ++ name)

/-- `_canonical_space`. The second part of its last message is no f-string: the text shows the
placeholder itself. -/
def canonicalSpace (space : SpaceTarget) : Except Exc String :=
  let name := match space with
    | .ref space => space.name
    | .name name => some name
  match name with
  | none => .error (chatApiError [.text "SpaceRef has no name; cannot target a space"])
  | some name =>
    canonicalIn "spaces/" (strip name)
      (chatApiError [.text "space must be a non-empty identifier"])
      (chatApiError [.text ("space must be a bare space ID or a canonical " ++
        "'spaces/\x7bid\x7d' resource name; got \x7bparent!r\x7d")])

/-- `_canonical_user` for the given parameter name. -/
def canonicalUser (user : UserTarget) (parameter : String) : Except Exc String :=
  let name := match user with
    | .ref user => user.name
    | .name name => some name
  match name with
  | none =>
    .error (chatApiError [.text (parameter ++ " UserRef has no name; cannot target a user")])
  | some name =>
    canonicalIn "users/" (strip name)
      (chatApiError [.text (parameter ++ " must be a non-empty user identifier")])
      (chatApiError [.text (parameter ++ " must be a bare user ID or a canonical " ++
        "'users/\x7bid\x7d' resource name; got "), .repr (.str (strip name))])

/-- `_canonical_group` -/
def canonicalGroup (group : String) : Except Exc String :=
  canonicalIn "groups/" (strip group)
    (chatApiError [.text "group must be a non-empty group identifier"])
    (chatApiError [.text "group must be a bare group ID or a canonical 'groups/\x7bid\x7d' name"])

def notMembership : Exc :=
  chatApiError [.text ("membership name must be a canonical " ++
    "'spaces/\x7bspace\x7d/members/\x7bmember\x7d' resource name")]

/-- `_membership_name` -/
def membershipName (name : String) : Except Exc String :=
  let value := strip name
  match partition value "/members/" with
  | none => .error notMembership
  | some (space, member) =>
    if !startsWith value "spaces/" || removePrefix space "spaces/" == "" || member == "" then
      .error notMembership
    else .ok value

end Chattice.Client
