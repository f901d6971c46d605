import Mathlib

/-!
# Subscription tokens

The token of a user is derived from its name, its proxy secret and a nonce.  The secret is
taken from the links of the user, so that neither the transport nor the masking domain
matters.
-/

namespace TelemtPanel.Subpage

structure UserLinks where
  classic : List String
  secure : List String
  tls : List String
  tlsDomains : List String
deriving DecidableEq, Repr

/-- The name and the links of a user of the proxy. -/
structure UserInfo where
  username : String
  links : UserLinks
deriving DecidableEq, Repr

/-- Whether a list consists of 32 lowercase hexadecimal digits. -/
def isHex32 (text : List Char) : Bool :=
  text.length = 32 && text.all fun c => (decide ('0' ≤ c) && decide (c ≤ '9')) ||
    (decide ('a' ≤ c) && decide (c ≤ 'f'))

/-- Whether `hex.DecodeString` accepts a lowercase text. -/
def isHex (text : List Char) : Bool :=
  text.length % 2 = 0 && text.all fun c => (decide ('0' ≤ c) && decide (c ≤ '9')) ||
    (decide ('a' ≤ c) && decide (c ≤ 'f'))

section Secrets

-- The `secret` parameter in the query of a link, if the link is a URL.
variable (query : String → Option String)

def secretParam (link : String) : Option (List Char) :=
  match query link with
  | none => none
  | some value =>
      let secret := value.toList.map Char.toLower
      if secret = [] then none else some secret

/-- The secret of a classic link. -/
def classicSecret (link : String) : Option (List Char) :=
  (secretParam query link).filter isHex32

/-- The secret of a secure link, which may be marked with `dd`. -/
def secureSecret (link : String) : Option (List Char) :=
  ((secretParam query link).map fun secret =>
    if secret.take 2 = ['d', 'd'] then secret.drop 2 else secret).filter isHex32

/-- The secret of a fake TLS link, between the mark `ee` and the masking domain. -/
def tlsSecret (link : String) : Option (List Char) :=
  match secretParam query link with
  | none => none
  | some secret =>
      if secret.length ≤ 34 ∨ secret.take 2 ≠ ['e', 'e'] ∨
          isHex32 ((secret.drop 2).take 32) = false then none
      else if isHex (secret.drop 34) = false then none
      else some ((secret.drop 2).take 32)

/-- `ExtractSecret`: the first secret of the classic, the secure and the fake TLS links. -/
def extractSecret (links : UserLinks) : Option String :=
  ((links.classic.findSome? (classicSecret query)).or
    ((links.secure.findSome? (secureSecret query)).or
      ((links.tls.findSome? (tlsSecret query)).or
        (links.tlsDomains.findSome? (tlsSecret query))))).map String.ofList

end Secrets

def findUser (users : List UserInfo) (username : String) : Option UserInfo :=
  users.find? (·.username = username)

theorem username_of_findUser {users : List UserInfo} {username : String} {user : UserInfo}
    (found : findUser users username = some user) : user.username = username := by
  simpa using List.find?_some found

end TelemtPanel.Subpage
