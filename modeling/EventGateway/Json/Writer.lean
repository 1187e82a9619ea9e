import EventGateway.Json.Value

/-! Writing values as JSON, without blanks. -/

namespace EventGateway.Json

def hexChar (n : Nat) : Char := (Nat.digitChar n)

/-- Only quotes, backslashes and controls are escaped. -/
def escapeChar (c : Char) : List Char :=
  if c = '"' then ['\\', '"']
  else if c = '\\' then ['\\', '\\']
  else if c = '\x08' then ['\\', 'b']
  else if c = '\x0c' then ['\\', 'f']
  else if c = '\n' then ['\\', 'n']
  else if c = '\r' then ['\\', 'r']
  else if c = '\t' then ['\\', 't']
  else if c < ' ' then ['\\', 'u', '0', '0', hexChar (c.toNat / 16), hexChar (c.toNat % 16)]
  else [c]

def writeString (s : String) : List Char := '"' :: (s.toList.flatMap escapeChar ++ ['"'])

def Number.write : Number → List Char
  | int n => (toString n).toList
  | float x => (x.render floatLayout).toList

namespace Value

mutual

def write : Value → List Char
  | null => ['n', 'u', 'l', 'l']
  | bool true => ['t', 'r', 'u', 'e']
  | bool false => ['f', 'a', 'l', 's', 'e']
  | number n => n.write
  | string s => writeString s
  | array items => '[' :: (writeItems items ++ [']'])
  | object members => '\x7b' :: (writeMembers members ++ ['\x7d'])

def writeItems : List Value → List Char
  | [] => []
  | [v] => write v
  | v :: w :: r => write v ++ ',' :: writeItems (w :: r)

def writeMembers : List (String × Value) → List Char
  | [] => []
  | [(n, v)] => writeString n ++ ':' :: write v
  | (n, v) :: m :: r => writeString n ++ ':' :: write v ++ ',' :: writeMembers (m :: r)

end

def render (v : Value) : String := String.ofList v.write

def int (n : Int) : Value := .number (.int n)

def optionalMember (name : String) : Option String → List (String × Value)
  | some s => [(name, .string s)]
  | none => []

end Value

end EventGateway.Json
