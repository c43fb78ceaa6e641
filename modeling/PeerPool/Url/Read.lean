import PeerPool.Text.Split
import PeerPool.Url.Basic
import PeerPool.Url.Host

/-! Reading a locator, and following a reference from it. Both bring paths into normal
form: segments of dots are resolved, and what a path cannot hold is escaped. -/

namespace PeerPool.Url

open Text

/-- The text without the controls and spaces around it, and without tabs and line breaks in it. -/
def clean (text : List Char) : List Char :=
  let trimmed := ((text.dropWhile (·.toNat ≤ 0x20)).reverse.dropWhile (·.toNat ≤ 0x20)).reverse
  trimmed.filter fun c => c ≠ '\t' && c ≠ '\n' && c ≠ '\r'

def isSchemeChar (c : Char) : Bool := c.isAlphanum || c = '+' || c = '-' || c = '.'

/-- The scheme in lower case, and what follows its colon. -/
def scheme? (text : List Char) : Option (String × List Char) :=
  let scheme := text.takeWhile isSchemeChar
  match text.dropWhile isSchemeChar with
  | ':' :: rest =>
    if scheme.head?.any Char.isAlpha then some (String.ofList (scheme.map Char.toLower), rest) else none
  | _ => none

/-- The text in front of the query, the query and the fragment. -/
def splitTail (text : List Char) : List Char × Option (List Char) × Option (List Char) :=
  let (front, fragment) := match splitOnce ['#'] text with
    | some (front, fragment) => (front, some fragment)
    | none => (text, none)
  match splitOnce ['?'] front with
  | some (body, query) => (body, some query, fragment)
  | none => (front, none, fragment)

def isSlash (special : Bool) (c : Char) : Bool := c = '/' || (special && c = '\\')

/-- The pieces of a path between its slashes. -/
def pieces (special : Bool) (path : List Char) : List (List Char) :=
  separate '/' (path.map fun c => if isSlash special c then '/' else c)

/-- A segment that denotes the one it stands in. -/
def isHere (segment : List Char) : Bool := [".", "%2e", "%2E"].contains (String.ofList segment)

/-- A segment that denotes the one above. -/
def isAbove (segment : List Char) : Bool :=
  ["..", ".%2e", ".%2E", "%2e.", "%2E.", "%2e%2e", "%2e%2E", "%2E%2e", "%2E%2E"].contains (String.ofList segment)

/-- Follows pieces from a path. The last one names something in the segment that the
others lead to. -/
def walk (path : List String) : List (List Char) → List String
  | [] => path
  | segment :: rest =>
    let next :=
      if isAbove segment then path.dropLast ++ (if rest.isEmpty then [""] else [])
      else if isHere segment then path ++ (if rest.isEmpty then [""] else [])
      else path ++ [percentEncode escapedInPath segment]
    walk next rest

/-- A port, unless it is the one that the scheme implies. -/
def port? (scheme : String) (text : List Char) : Option (Option UInt16) :=
  if text.isEmpty then some none
  else do
    let value ← natural? 10 text
    if 65535 < value then none
    else
      let port := UInt16.ofNat value
      return if defaultPort? scheme = some port then none else some port

/-- The text up to the first colon outside brackets. -/
def splitPort (inside : Bool) : List Char → List Char × Option (List Char)
  | [] => ([], none)
  | c :: rest =>
    if c = ':' && !inside then ([], some rest)
    else
      let (host, port) := splitPort (if c = '[' then true else if c = ']' then false else inside) rest
      (c :: host, port)

/-- The text before and after the last at sign. -/
def splitCredentials (text : List Char) : Option (List Char) × List Char :=
  match splitOnce ['@'] text.reverse with
  | some (after, before) => (some before.reverse, after.reverse)
  | none => (none, text)

def authority? (scheme : String) (text : List Char) : Option Authority := do
  let (credentials, rest) := splitCredentials text
  if credentials.isSome && rest.isEmpty then none
  else
    let (hostText, portText) := splitPort false rest
    let host ← if isSpecial scheme then domainHost? hostText else plainHost? hostText
    if host.isEmpty && portText.isSome then none
    else
      let port ← port? scheme (portText.getD [])
      let (username, password) := match splitOnce [':'] (credentials.getD []) with
        | some (username, password) => (username, password)
        | none => (credentials.getD [], [])
      let encoded := percentEncode escapedInCredentials
      return ⟨encoded username, if password.isEmpty then none else some (encoded password), host, port⟩

/-- The path behind an authority. A special scheme always has one. -/
def pathAfter (special : Bool) (text : List Char) : List String :=
  match text with
  | [] => if special then [""] else []
  | c :: rest => walk [] (pieces special (if isSlash special c then rest else c :: rest))

/-- The authority and the path of a locator of a special scheme other than `file`, whose
slashes before the host may be any number. -/
def special? (scheme : String) (body : List Char) : Option (Option Authority × UrlPath) := do
  let body := body.dropWhile (isSlash true)
  let authority ← authority? scheme (body.takeWhile (!isSlash true ·))
  return (some authority, .segments (pathAfter true (body.dropWhile (!isSlash true ·))))

/-- A file on a host, or on this one, which is not named. -/
def file? (body : List Char) : Option (Option Authority × UrlPath) := do
  let body := body.map fun c => if c = '\\' then '/' else c
  match body with
  | '/' :: '/' :: rest =>
    let hostText := rest.takeWhile (· ≠ '/')
    let host ← if hostText.isEmpty then some "" else domainHost? hostText
    let path := (pathAfter true (rest.dropWhile (· ≠ '/'))).dropWhile (·.isEmpty)
    return (some { host := if host = "localhost" then "" else host }, .segments (if path.isEmpty then [""] else path))
  | _ =>
    let path := (pathAfter true body).dropWhile (·.isEmpty)
    return (some { host := "" }, .segments (if path.isEmpty then [""] else path))

def other? (scheme : String) (body : List Char) : Option (Option Authority × UrlPath) := do
  match body with
  | '/' :: '/' :: rest =>
    let authority ← authority? scheme (rest.takeWhile (· ≠ '/'))
    return (some authority, .segments (pathAfter false (rest.dropWhile (· ≠ '/'))))
  | '/' :: rest => return (none, .segments (walk [] (pieces false rest)))
  | _ => return (none, .opaqueText (percentEncode isControl body))

def read? (text : String) : Option Url := do
  let (scheme, rest) ← scheme? (clean text.toList)
  let (body, query, fragment) := splitTail rest
  let (authority, path) ←
    if scheme = "file" then file? body
    else if isSpecial scheme then special? scheme body
    else other? scheme body
  return {
    scheme := scheme, authority := authority, path := path
    query := query.map (percentEncode (escapedInQuery (isSpecial scheme)))
    fragment := fragment.map (percentEncode escapedInFragment) }

/-- Follows a reference that begins with a segment of a path. It replaces the last segment,
the query and the fragment, and cannot be followed from a path that has no segments. -/
def follow? (base : Url) (reference : String) : Option Url :=
  match base.path with
  | .opaqueText _ => none
  | .segments names =>
    let special := isSpecial base.scheme
    let (body, query, fragment) := splitTail (clean reference.toList)
    some { base with
      path := .segments (walk names.dropLast (pieces special body))
      query := query.map (percentEncode (escapedInQuery special))
      fragment := fragment.map (percentEncode escapedInFragment) }

end PeerPool.Url
