import EventGateway.Http.Message

/-! Media types, as far as to tell whether a body is declared as JSON. -/

namespace EventGateway.Http

def isTokenChar (c : Char) : Bool := c.isAlphanum || c ∈ "!#$%&'*+-.^_`|~".toList

structure MediaType where
  type : String
  subtype : String
  /-- The part of the subtype behind its last plus sign. -/
  suffix : Option String
  deriving DecidableEq, Repr

namespace MediaType

def afterValue? : List Char → Option (List Char)
  | '"' :: r =>
    match (r.dropWhile (· ≠ '"')) with
    | [] => none
    | _ :: rest => some (rest.dropWhile (· = ' '))
  | s => if (s.takeWhile isTokenChar).isEmpty then none else some (s.dropWhile isTokenChar)

def afterParameter? (s : List Char) : Option (List Char) :=
  let s := s.dropWhile (· = ' ')
  match s.takeWhile isTokenChar, s.dropWhile isTokenChar with
  | _ :: _, '=' :: r => afterValue? r
  | _, _ => none

def areParameters : Nat → List Char → Bool
  | _, [] => true
  | n + 1, ';' :: r =>
    match afterParameter? r with
    | some rest => areParameters n rest
    | none => false
  | _, _ => false

/-- A plus sign that nothing stands before is part of the subtype. -/
def ofParts (type subtype : List Char) : MediaType :=
  let tail := (subtype.reverse.takeWhile (· ≠ '+')).reverse
  let front := subtype.take (subtype.length - tail.length - 1)
  if front.isEmpty then ⟨String.ofList type, String.ofList subtype, none⟩
  else ⟨String.ofList type, String.ofList front, some (String.ofList tail)⟩

def ofText? (s : String) : Option MediaType :=
  let s := s.toList.map Char.toLower
  match s.takeWhile isTokenChar, s.dropWhile isTokenChar with
  | t :: ts, '/' :: r =>
    if areParameters r.length (r.dropWhile isTokenChar) then
      some (ofParts (t :: ts) (r.takeWhile isTokenChar))
    else none
  | _, _ => none

def isJson (m : MediaType) : Bool :=
  m.type = "application" && (m.subtype = "json" || m.suffix = some "json")

end MediaType

def Request.declaresJson (r : Request) : Bool :=
  match (r.header? "content-type").bind visibleText? with
  | none => false
  | some s =>
    match MediaType.ofText? s with
    | some m => m.isJson
    | none => false

end EventGateway.Http
