import EventGateway.Text.Form

/-! The URL that a client is given for a server. Its path and its query are not used. -/

namespace EventGateway

inductive UrlFault
  | noScheme
  /-- What follows the scheme is not a path, so no other path can take its place. -/
  | noPath
  | noHost
  | port
  deriving DecidableEq, Repr

namespace UrlFault

def message : UrlFault → String
  | noScheme => "relative URL without a base"
  | noPath => "relative URL with a cannot-be-a-base base"
  | noHost => "empty host"
  | port => "invalid port number"

end UrlFault

/-- The scheme in small letters, and who is asked: a host, with a port if one is named. -/
structure ServerUrl where
  scheme : String
  authority : String
  deriving DecidableEq, Repr

namespace ServerUrl

/-- Control characters and spaces do not count at the ends, line breaks and tabs nowhere. -/
def cleaned (s : String) : List Char :=
  let front := s.toList.dropWhile (· ≤ ' ')
  (front.reverse.dropWhile (· ≤ ' ')).reverse.filter (· ∉ ['\t', '\n', '\r'])

def isSchemeChar (c : Char) : Bool := c.isAlphanum || c ∈ ['+', '-', '.']

def splitScheme? (cs : List Char) : Option (String × List Char) :=
  match cs.head?.all Char.isAlpha, cs.takeWhile isSchemeChar, cs.dropWhile isSchemeChar with
  | true, scheme, ':' :: rest => some ((String.ofList scheme).toLower, rest)
  | _, _, _ => none

def hosted : List String := ["ws", "wss", "http", "https", "ftp"]

/-- The schemes for which a backslash is a slash. -/
def isSlashOf (scheme : String) (c : Char) : Bool :=
  c = '/' || (c = '\\' && scheme ∈ "file" :: hosted)

def authorityOf (scheme : String) (cs : List Char) : List Char :=
  cs.takeWhile fun c => !(isSlashOf scheme c || c ∈ ['?', '#'])

/-- Without the user, who stands before the last at sign. -/
def withoutUser (cs : List Char) : List Char := (cs.reverse.takeWhile (· ≠ '@')).reverse

def splitPort (cs : List Char) : List Char × List Char :=
  let inner := if cs.head? = some '[' then cs.takeWhile (· ≠ ']') else []
  let rest := cs.drop inner.length
  (inner ++ rest.takeWhile (· ≠ ':'), (rest.dropWhile (· ≠ ':')).drop 1)

def isPort (cs : List Char) : Bool :=
  cs.all Char.isDigit && cs.foldl (fun n c => n * 10 + (c.toNat - '0'.toNat)) 0 < UInt16.size

def ofHosted (scheme : String) (rest : List Char) : Except UrlFault ServerUrl :=
  let authority := withoutUser (authorityOf scheme (rest.dropWhile (isSlashOf scheme)))
  let (host, port) := splitPort authority
  if host.isEmpty then .error .noHost
  else if !isPort port then .error .port
  else .ok ⟨scheme, String.ofList authority⟩

def ofOther (scheme : String) (rest : List Char) : Except UrlFault ServerUrl :=
  match rest with
  | c :: d :: r =>
    if isSlashOf scheme c && isSlashOf scheme d then
      .ok ⟨scheme, String.ofList (withoutUser (authorityOf scheme r))⟩
    else if isSlashOf scheme c || scheme = "file" then .ok ⟨scheme, ""⟩
    else .error .noPath
  | [c] => if isSlashOf scheme c || scheme = "file" then .ok ⟨scheme, ""⟩ else .error .noPath
  | [] => if scheme = "file" then .ok ⟨scheme, ""⟩ else .error .noPath

def ofText (s : String) : Except UrlFault ServerUrl :=
  match splitScheme? (cleaned s) with
  | none => .error .noScheme
  | some (scheme, rest) =>
    if scheme ∈ hosted then ofHosted scheme rest else ofOther scheme rest

def hasStreams (u : ServerUrl) : Bool := u.scheme ∈ ["ws", "wss"]

end ServerUrl

end EventGateway
