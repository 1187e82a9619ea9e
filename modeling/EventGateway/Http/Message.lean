import EventGateway.Text.Form

/-! Requests and responses, as far as the service looks at them. -/

namespace EventGateway.Http

inductive Method
  | get
  | head
  | post
  | delete
  | other (name : String)
  deriving DecidableEq, Repr

namespace Method

def name : Method → String
  | get => "GET"
  | head => "HEAD"
  | post => "POST"
  | delete => "DELETE"
  | other n => n

def ofName (s : String) : Method :=
  match [get, head, post, delete].find? fun m => m.name = s with
  | some m => m
  | none => other s

end Method

/-- Header names are compared without their case. -/
structure Header where
  name : String
  value : List UInt8
  deriving DecidableEq, Repr

structure Request where
  method : Method
  target : String
  headers : List Header
  body : List UInt8

structure Response where
  status : Nat
  contentType : Option String := none
  allow : Option String := none
  body : String := ""
  deriving DecidableEq, Repr

def resource (target : String) : List Char := target.toList.takeWhile (· ≠ '#')

namespace Request

def path (r : Request) : String := String.ofList ((resource r.target).takeWhile (· ≠ '?'))

def query (r : Request) : String :=
  String.ofList (((resource r.target).dropWhile (· ≠ '?')).drop 1)

def header? (r : Request) (name : String) : Option (List UInt8) :=
  (r.headers.find? fun h => h.name.toLower = name.toLower).map Header.value

end Request

def isVisible (b : UInt8) : Bool := b == 9 || (32 ≤ b && b < 127)

def visibleText? (value : List UInt8) : Option String :=
  if value.all isVisible then some (String.ofList (value.map fun b => Char.ofNat b.toNat)) else none

namespace Response

def text (status : Nat) (body : String) : Response :=
  ⟨status, some "text/plain; charset=utf-8", none, body⟩

def json (status : Nat) (body : String) : Response := ⟨status, some "application/json", none, body⟩

def empty (status : Nat) : Response := { status := status }

def withoutBody (r : Response) : Response := { r with body := "" }

def isSuccess (r : Response) : Bool := 200 ≤ r.status && r.status < 300

end Response

end EventGateway.Http
