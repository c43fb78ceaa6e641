import PeerPool.Text.Number

/-! Uniform resource locators in normal form, and their text. -/

namespace PeerPool

/-- Who is asked: a host, at a port if it is not the one that the scheme implies. -/
structure Authority where
  username : String := ""
  password : Option String := none
  host : String
  port : Option UInt16 := none
deriving DecidableEq, Repr

/-- A path of segments between slashes, or a text that is no such path. -/
inductive UrlPath where
  | segments (names : List String)
  | opaqueText (text : String)
deriving DecidableEq, Repr

structure Url where
  scheme : String
  authority : Option Authority
  path : UrlPath
  query : Option String := none
  fragment : Option String := none
deriving DecidableEq, Repr

namespace Url

/-- The port that a scheme implies. The schemes that imply one write their paths and hosts
in a way of their own. -/
def defaultPort? (scheme : String) : Option UInt16 :=
  [("http", 80), ("https", 443), ("ws", 80), ("wss", 443), ("ftp", 21)].lookup scheme

/-- A scheme whose paths may be written with backslashes and whose hosts are domains or addresses. -/
def isSpecial (scheme : String) : Bool := scheme = "file" || (defaultPort? scheme).isSome

def writeCredentials (authority : Authority) : String :=
  match authority.password with
  | some password => authority.username ++ ":" ++ password ++ "@"
  | none => if authority.username.isEmpty then "" else authority.username ++ "@"

def writePort : Option UInt16 → String
  | some port => ":" ++ String.ofList (Text.decimal port.toNat)
  | none => ""

def writeAuthority (authority : Authority) : String :=
  "//" ++ writeCredentials authority ++ authority.host ++ writePort authority.port

def writeSegments (names : List String) : String := String.join (names.map ("/" ++ ·))

/-- A path without a host may not begin like one. -/
def writePath (authority : Option Authority) : UrlPath → String
  | .opaqueText text => text
  | .segments names =>
    let guarded := authority.isNone && 1 < names.length && names.head? = some ""
    (if guarded then "/." else "") ++ writeSegments names

def write (url : Url) : String :=
  url.scheme ++ ":" ++ (url.authority.map writeAuthority).getD "" ++ writePath url.authority url.path ++
  (url.query.map ("?" ++ ·)).getD "" ++ (url.fragment.map ("#" ++ ·)).getD ""

end Url

end PeerPool
