import ApiShell.Encoding.Base64
import ApiShell.Host.Basic
import ApiShell.Text.Blank

/-!
# Credentials

A credential is a text in which environment variables are expanded.  A text that starts with `Bearer `
or `Basic ` is sent as it is, one with a colon is a user with a password, and anything else is a key
that goes into a header of its own.
-/

namespace ApiShell.Request

/-- A character with which the name of a variable starts. -/
def isNameStart (c : Char) : Bool := c.isAlpha || c == '_'

/-- A character of the name of a variable. -/
def isNameChar (c : Char) : Bool := isNameStart c || c.isDigit

/-- The name at the beginning of a text. -/
def takeVariable (cs : List Char) : Option (List Char × List Char) :=
  match cs with
  | c :: rest =>
    if isNameStart c then some (c :: rest.takeWhile isNameChar, rest.dropWhile isNameChar) else none
  | [] => none

/-- The name behind a dollar sign, in braces or not, and what follows it. -/
def takeReference (cs : List Char) : Option (List Char × List Char) :=
  match cs with
  | '{' :: rest =>
    match takeVariable rest with
    | some (name, '}' :: after) => some (name, after)
    | _ => none
  | _ => takeVariable cs

theorem takeVariable_length {cs name rest : List Char} (h : takeVariable cs = some (name, rest)) :
    rest.length < cs.length := by
  unfold takeVariable at h
  split at h
  · split at h
    · cases h
      rename_i cs _
      have := (List.dropWhile_suffix (l := cs) isNameChar).length_le
      simp only [List.length_cons]
      omega
    · cases h
  · cases h

theorem takeReference_length {cs name rest : List Char} (h : takeReference cs = some (name, rest)) :
    rest.length < cs.length := by
  unfold takeReference at h
  split at h
  · split at h
    · rename_i hv
      cases h
      have := takeVariable_length hv
      simp only [List.length_cons] at this ⊢
      omega
    · cases h
  · exact takeVariable_length h

/-- Expand variables; what they expand to is not looked at again. -/
def expandWith (value : String → String) (cs : List Char) : List Char :=
  match cs with
  | [] => []
  | '$' :: rest =>
    match h : takeReference rest with
    | some (name, after) =>
      have := takeReference_length h
      (value (String.ofList name)).toList ++ expandWith value after
    | none => '$' :: expandWith value rest
  | c :: rest => c :: expandWith value rest
termination_by cs.length

/-- Expand environment variables; those that are not set are empty. -/
def expand (host : Host) (s : String) : String :=
  String.ofList (expandWith host.valueOf s.toList)

/-- The header that carries a credential whose variables are expanded, if there is one. -/
def credentialHeader? (keyHeader : String) (credential : String) : Option (String × String) :=
  let value := Text.trim credential
  if value = "" then none
  else if Text.startsWith value "Bearer " || Text.startsWith value "Basic " then
    some ("Authorization", value)
  else if value.toList.contains ':' then
    let token := String.ofList (Base64.encode (Text.utf8 value.toList))
    some ("Authorization", s!"Basic {token}")
  else some (keyHeader, value)

/-- The header that carries a credential, if there is one. -/
def resolveAuth (host : Host) (auth keyHeader : String) : Option (String × String) :=
  credentialHeader? keyHeader (expand host auth)

end ApiShell.Request
