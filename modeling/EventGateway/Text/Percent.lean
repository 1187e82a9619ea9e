import EventGateway.Text.Utf8

/-! Percent encoding: an octet written as a percent sign and two hexadecimal digits. -/

namespace EventGateway.Text

def octet (c : Char) : UInt8 := UInt8.ofNat c.toNat

def hexDigit? (b : UInt8) : Option UInt8 :=
  if octet '0' ≤ b ∧ b ≤ octet '9' then some (b - octet '0')
  else if octet 'a' ≤ b ∧ b ≤ octet 'f' then some (b - octet 'a' + 10)
  else if octet 'A' ≤ b ∧ b ≤ octet 'F' then some (b - octet 'A' + 10)
  else none

def hexOctet? (a b : UInt8) : Option UInt8 :=
  match hexDigit? a, hexDigit? b with
  | some x, some y => some (x * 16 + y)
  | _, _ => none

def escape? (p a b : UInt8) : Option UInt8 := if p = octet '%' then hexOctet? a b else none

/-- A percent sign without two digits stands for itself. -/
def percentDecode : List UInt8 → List UInt8
  | [] => []
  | [a] => [a]
  | [a, b] => [a, b]
  | p :: a :: b :: r =>
    match escape? p a b with
    | some x => x :: percentDecode r
    | none => p :: percentDecode (a :: b :: r)

def upperHexDigit (n : UInt8) : UInt8 := if n < 10 then octet '0' + n else octet 'A' + (n - 10)

def percentOctet (b : UInt8) : List UInt8 :=
  [octet '%', upperHexDigit (b / 16), upperHexDigit (b % 16)]

def percentEncode (plain : UInt8 → Bool) (bytes : List UInt8) : List UInt8 :=
  bytes.flatMap fun b => if plain b then [b] else percentOctet b

def percentText? (s : String) : Option String := ofUtf8? (percentDecode (toUtf8 s))

end EventGateway.Text
