import ApiShell.Decimal.Numeral
import ApiShell.Encoding.Percent
import ApiShell.Encoding.Punycode
import ApiShell.Text.Blank
import ApiShell.Text.Lower
import ApiShell.Text.Quoted
import ApiShell.Text.Split
import ApiShell.Text.WordChar

/-!
# Addresses

An address is read into its parts, each part in the one form in which it is sent: names in lower case,
no port that the scheme implies, no `.` and `..` segments, and every character that may not stand in its
part percent-encoded.
-/

namespace ApiShell.Http

/-- An address in its parts. -/
structure Url where
  scheme : List Char
  userInfo : List Char
  host : List Char
  port : Option Int
  path : List Char
  query : Option (List Char)
  fragment : Option (List Char)
deriving DecidableEq

/-- Why a text is no address. -/
inductive UrlProblem where
  | tooLong
  | unprintable (c : Char) (position : Nat)
  | badPort (port : List Char)
  | badIPv4 (host : List Char)
  | badIPv6 (host : List Char)
  | badHost (host : List Char)
  | bareAbsolutePath
  | doubleSlash
  | leadingColon
deriving DecidableEq, Repr

/-- The text of a problem. -/
def UrlProblem.message : UrlProblem → String
  | tooLong => "URL too long"
  | unprintable c position =>
    let shown := Text.quoted (String.ofList [c])
    s!"Invalid non-printable ASCII character in URL, {shown} at position {position}."
  | badPort port => "Invalid port: " ++ Text.quoted (String.ofList port)
  | badIPv4 host => "Invalid IPv4 address: " ++ Text.quoted (String.ofList host)
  | badIPv6 host => "Invalid IPv6 address: " ++ Text.quoted (String.ofList host)
  | badHost host => "Invalid IDNA hostname: " ++ Text.quoted (String.ofList host)
  | bareAbsolutePath => "For absolute URLs, path must be empty or begin with '/'"
  | doubleSlash => "Relative URLs cannot have a path starting with '//'"
  | leadingColon => "Relative URLs cannot have a path starting with ':'"

namespace Url

/-- The greatest length of an address. -/
def maxLength : Nat := 65536

/-- A printable ASCII character that is none of `not`. -/
def isAllowed (not : List Char) (c : Char) : Bool :=
  0x20 ≤ c.toNat && c.toNat < 0x7F && !not.contains c

/-- The characters that stand in a query as they are. -/
def isQueryChar (c : Char) : Bool := isAllowed [' ', '"', '#', '<', '>'] c

/-- The characters that stand in a fragment as they are. -/
def isFragmentChar (c : Char) : Bool := isAllowed [' ', '"', '<', '>', '\x60'] c

/-- The characters that stand in a path as they are. -/
def isPathChar (c : Char) : Bool :=
  isAllowed [' ', '"', '#', '<', '>', '?', '\x60', '\x7b', '\x7d'] c

/-- The characters that stand in the name and password of a user as they are. -/
def isUserChar (c : Char) : Bool :=
  isPathChar c && !(['/', ';', '=', '@', '[', '\\', ']', '^', '|'].contains c)

/-- The characters that stand in the name of a host as they are. -/
def isHostChar (c : Char) : Bool := "!$&'()*+,;=\"\x60\x7b\x7d%|\\".toList.contains c

/-- A decimal number below 256 without zeros in front. -/
def isOctet (cs : List Char) : Bool :=
  !cs.isEmpty && cs.length ≤ 3 && cs.all Char.isDigit && (cs.length == 1 || cs.head? != some '0') &&
    Decimal.ofDigits 10 (cs.filterMap (Decimal.digitIn? 10)) < 256

/-- Four numbers with points between them. -/
def isIPv4 (cs : List Char) : Bool :=
  let parts := Text.splitAt '.' cs
  parts.length == 4 && parts.all isOctet

/-- Digits, any character, digits, and so on: four runs of digits. -/
def looksLikeIPv4 (cs : List Char) : Bool :=
  let rec runs : Nat → List Char → Bool
    | 0, cs => !cs.isEmpty && cs.all Char.isDigit
    | n + 1, c :: cs =>
      c.isDigit && (List.range ((cs.takeWhile Char.isDigit).length + 1)).any fun k =>
        match cs.drop k with
        | _ :: rest => runs n rest
        | [] => false
    | _ + 1, [] => false
  runs 3 cs

/-- Groups of up to four hexadecimal digits with colons between them. -/
def areGroups (parts : List (List Char)) : Bool :=
  parts.all fun p => !p.isEmpty && p.length ≤ 4 && p.all fun c => (Json.hexValue? c).isSome

/-- Cut a text at a double colon. -/
def cutDoubleColon : List Char → Option (List Char × List Char)
  | ':' :: ':' :: cs => some ([], cs)
  | c :: cs => (cutDoubleColon cs).map fun r => (c :: r.1, r.2)
  | [] => none

/-- The groups of a part of an address, and how many there are; the last one may be four numbers. -/
def groupCount? (mayEndInIPv4 : Bool) (cs : List Char) : Option Nat :=
  if cs.isEmpty then some 0
  else
    let parts := Text.splitAt ':' cs
    match parts.getLast? with
    | some last =>
      if mayEndInIPv4 && isIPv4 last then
        if areGroups parts.dropLast then some (parts.length + 1) else none
      else if areGroups parts then some parts.length else none
    | none => none

/-- Eight groups of hexadecimal digits, of which a double colon leaves some out. -/
def isIPv6 (cs : List Char) : Bool :=
  let address := cs.takeWhile (· != '%')
  let zone := cs.drop (address.length + 1)
  let hasZone := address.length < cs.length
  !(hasZone && (zone.isEmpty || zone.contains '%')) &&
  match cutDoubleColon address with
  | some (before, after) =>
    match groupCount? false before, groupCount? true after with
    | some m, some n => m + n < 8
    | _, _ => false
  | none => groupCount? true address == some 8

/-- A label of a host name in the form in which it is sent. -/
def encodeLabel (label : List Char) : Option (List Char) :=
  let sent := if label.all (·.toNat < 128) then label else "xn--".toList ++ Punycode.encode label
  let isGood := label.all fun c => c == '-' || (Text.isWordChar c && c != '_')
  if label.isEmpty || !isGood || label.head? == some '-' || label.getLast? == some '-' ||
      63 < sent.length then none
  else some sent

/-- A host name beyond ASCII in the form in which it is sent. -/
def encodeName (host : List Char) : Option (List Char) := do
  let dots := host.map fun c => if ['\u3002', '\uff0e', '\uff61'].contains c then '.' else c
  let labels := Text.splitAt '.' dots
  let (labels, ending) :=
    if labels.getLast? == some [] then (labels.dropLast, ['.']) else (labels, [])
  let sent ← labels.mapM encodeLabel
  return Text.joinWith ['.'] sent ++ ending

/-- A host in the form in which it is sent. -/
def encodeHost (host : List Char) : Except UrlProblem (List Char) :=
  if host.isEmpty then .ok []
  else if looksLikeIPv4 host then if isIPv4 host then .ok host else .error (.badIPv4 host)
  else if host.head? == some '[' && host.getLast? == some ']' then
    let inner := host.drop 1 |>.dropLast
    if isIPv6 inner then .ok inner else .error (.badIPv6 host)
  else if host.all (·.toNat < 128) then
    .ok (Percent.encode isHostChar (Text.lowerChars host))
  else match encodeName (Text.lowerChars host) with
    | some name => .ok name
    | none => .error (.badHost host)

/-- The port that a scheme implies. -/
def impliedPort (scheme : String) : Option Int :=
  match scheme with
  | "ftp" => some 21
  | "http" | "ws" => some 80
  | "https" | "wss" => some 443
  | _ => none

/-- The port of an address; the one that the scheme implies is left out. -/
def readPort (scheme port : List Char) : Except UrlProblem (Option Int) :=
  if port.isEmpty then .ok none
  else match Decimal.integer? 10 port with
    | none => .error (.badPort port)
    | some n => .ok (if impliedPort (String.ofList scheme) == some n then none else some n)

/-- Drop the segments `.`, and `..` together with the segment before; `before` is what precedes, the
last segment first. -/
def dropDots (before : List (List Char)) : List (List Char) → List (List Char)
  | [] => before.reverse
  | ['.'] :: rest => dropDots before rest
  | ['.', '.'] :: rest => dropDots (if before == [[]] then before else before.drop 1) rest
  | segment :: rest => dropDots (segment :: before) rest

/-- A path without `.` and `..` segments. -/
def normalPath (path : List Char) : List Char :=
  let segments := Text.splitAt '/' path
  if segments.any fun s => s == ['.'] || s == ['.', '.'] then
    Text.joinWith ['/'] (dropDots [] segments)
  else path

/-- The parts of a text as they stand there. -/
structure Raw where
  scheme : List Char
  authority : List Char
  path : List Char
  query : Option (List Char)
  fragment : Option (List Char)

/-- Cut a text at the first `mark`; without one there is no second part. -/
def cutOff (mark : Char) (cs : List Char) : List Char × Option (List Char) :=
  match Text.cutAt? mark cs with
  | some (before, after) => (before, some after)
  | none => (cs, none)

/-- A character of a scheme. -/
def isSchemeChar (c : Char) : Bool := c.isAlphanum || ['+', '.', '-'].contains c

/-- Cut off the scheme.  An empty one may stand before a colon. -/
def cutScheme (cs : List Char) : List Char × List Char :=
  let name := cs.takeWhile isSchemeChar
  match cs.drop name.length with
  | ':' :: rest => if name.isEmpty || name.head?.any Char.isAlpha then (name, rest) else ([], cs)
  | _ => ([], cs)

/-- The parts of a text. -/
def Raw.ofText (cs : List Char) : Raw :=
  let (cs, fragment) := cutOff '#' cs
  let (scheme, rest) := cutScheme cs
  let (authority, rest) := match rest with
    | '/' :: '/' :: more =>
      let authority := more.takeWhile fun c => c != '/' && c != '?'
      (authority, more.drop authority.length)
    | _ => ([], rest)
  let (path, query) := cutOff '?' rest
  ⟨scheme, authority, path, query, fragment⟩

/-- Cut an authority into user, host and port. -/
def cutAuthority (cs : List Char) : List Char × List Char × List Char :=
  let rest := (cs.reverse.takeWhile (· != '@')).reverse
  let user := cs.take (cs.length - rest.length - 1)
  let bracket := (rest.reverse.dropWhile (· != ']')).reverse
  let host :=
    if rest.head? == some '[' && !bracket.isEmpty then bracket
    else rest.takeWhile (· != ':')
  let port := match rest.drop host.length with
    | ':' :: port => port
    | port => port
  (user, host, port)

/-- The address that the parts make. -/
def ofRaw (raw : Raw) : Except UrlProblem Url := do
  let (user, host, port) := cutAuthority raw.authority
  let sentUser := Percent.encodeOnce isUserChar user
  let sentHost ← encodeHost host
  let sentPort ← readPort raw.scheme port
  let hasScheme := !raw.scheme.isEmpty
  let hasAuthority := !sentUser.isEmpty || !sentHost.isEmpty || sentPort.isSome
  if hasAuthority && !raw.path.isEmpty && raw.path.head? != some '/' then throw .bareAbsolutePath
  if !hasScheme && !hasAuthority then
    if raw.path.take 2 == ['/', '/'] then throw .doubleSlash
    if raw.path.head? == some ':' then throw .leadingColon
  let path := if hasScheme || hasAuthority then normalPath raw.path else raw.path
  return {
    scheme := Text.lowerChars raw.scheme
    userInfo := sentUser
    host := sentHost
    port := sentPort
    path := Percent.encodeOnce isPathChar path
    query := raw.query.map (Percent.encodeOnce isQueryChar)
    fragment := raw.fragment.map (Percent.encodeOnce isFragmentChar) }

/-- The place of the first control character of ASCII. -/
def control? (cs : List Char) : Option (Char × Nat) :=
  (cs.zipIdx.find? fun c => c.1.toNat < 0x20 || c.1.toNat == 0x7F)

/-- Read an address. -/
def ofText (s : String) : Except UrlProblem Url :=
  let cs := s.toList
  if maxLength < cs.length then .error .tooLong
  else match control? cs with
    | some (c, i) => .error (.unprintable c i)
    | none => ofRaw (Raw.ofText cs)

/-- The host and the port of an address. -/
def location (u : Url) : List Char :=
  let host := if u.host.contains ':' then '[' :: u.host ++ [']'] else u.host
  match u.port with
  | some n => host ++ ':' :: (toString n).toList
  | none => host

/-- What stands behind the two slashes. -/
def authority (u : Url) : List Char :=
  if u.userInfo.isEmpty then u.location else u.userInfo ++ '@' :: u.location

/-- The text of an address. -/
def chars (u : Url) : List Char :=
  (if u.scheme.isEmpty then [] else u.scheme ++ [':']) ++
    (if u.authority.isEmpty then [] else '/' :: '/' :: u.authority) ++ u.path ++
    (match u.query with
      | some q => '?' :: q
      | none => []) ++
    match u.fragment with
    | some f => '#' :: f
    | none => []

/-- The text of an address. -/
def text (u : Url) : String := String.ofList u.chars

/-- The parts of an address, to be read again. -/
def raw (u : Url) : Raw := ⟨u.scheme, u.authority, u.path, u.query, u.fragment⟩

/-- The address has a scheme and a host. -/
def isAbsolute (u : Url) : Bool := !u.scheme.isEmpty && !u.host.isEmpty

/-- An address that is not absolute is a path on the server. -/
def onServer (u : Url) : Except UrlProblem Url :=
  if u.isAbsolute then .ok u
  else ofRaw ⟨[], [], '/' :: u.path.dropWhile (· == '/'), u.query, none⟩

/-- The pairs of a query with those of the same key next to each other, keys in the order in which they
are first seen. -/
def grouped (pairs : List (String × String)) : List (String × String) :=
  (pairs.map Prod.fst).eraseDups.flatMap fun key => pairs.filter (·.1 == key)

/-- The text of a query. -/
def queryText (pairs : List (String × String)) : List Char :=
  Text.joinWith ['&'] ((grouped pairs).map fun p =>
    Percent.encodeForm p.1.toList ++ '=' :: Percent.encodeForm p.2.toList)

/-- Put pairs in the place of the query; without pairs there is none. -/
def withQuery (u : Url) (pairs : List (String × String)) : Except UrlProblem Url :=
  let query := queryText pairs
  if maxLength < query.length then .error .tooLong
  else ofRaw { u.raw with query := if pairs.isEmpty then none else some query }

/-- The path that a relative path means at an address with a path. -/
def joinPath (base path : List Char) : List Char :=
  let segments :=
    if path.head? == some '/' then Text.splitAt '/' path
    else
      let parts := Text.splitAt '/' base
      let parts := if parts.getLast? == some [] then parts else parts.dropLast
      let all := parts ++ Text.splitAt '/' path
      match all with
      | first :: more => first :: (more.dropLast.filter (!·.isEmpty)) ++ more.getLast?.toList
      | [] => []
  let kept := segments.foldl (fun kept s =>
    if s == ['.', '.'] then kept.dropLast else if s == ['.'] then kept else kept ++ [s]) []
  let kept := match segments.getLast? with
    | some ['.'] | some ['.', '.'] => kept ++ [[]]
    | _ => kept
  let joined := Text.joinWith ['/'] kept
  if joined.isEmpty then ['/'] else joined

/-- The address that a relative one means at another address. -/
def join (base u : Url) : Except UrlProblem Url :=
  let filled (part : Option (List Char)) : Option (List Char) :=
    part.bind fun cs => if cs.isEmpty then none else some cs
  if !u.authority.isEmpty then
    ofRaw ⟨base.scheme, u.authority, u.path, filled u.query, filled u.fragment⟩
  else if u.path.isEmpty then
    ofRaw ⟨base.scheme, base.authority, base.path, (filled u.query).or (filled base.query),
      filled u.fragment⟩
  else ofRaw ⟨base.scheme, base.authority, joinPath base.path u.path, filled u.query,
    filled u.fragment⟩

end Url

/-- Why a redirection cannot be followed. -/
inductive RedirectProblem where
  /-- The location is no address. -/
  | location (problem : UrlProblem)
  /-- The location makes no address where it is found. -/
  | target (problem : UrlProblem)

/-- Where a redirection leads. -/
def Url.redirect (u : Url) (location : String) : Except RedirectProblem Url := do
  let target ← (Url.ofText location).mapError .location
  let target ←
    if !target.scheme.isEmpty && target.host.isEmpty then
      (Url.ofRaw { target with host := u.host }.raw).mapError .target
    else pure target
  let target ← if target.isAbsolute then pure target else (u.join target).mapError .target
  match u.fragment, target.fragment.getD [] with
  | some (c :: cs), [] => pure { target with fragment := some (c :: cs) }
  | _, _ => pure target

end ApiShell.Http
