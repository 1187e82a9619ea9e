/-! Base64 without padding. Each list of octets has one written form, and only that is read. -/

namespace EventGateway.Secret.Base64

def alphabet : List Char :=
  "ABCDEFGHIJKLMNOPQRSTUVWXYZabcdefghijklmnopqrstuvwxyz0123456789+/".toList

def digit (n : Nat) : Char := alphabet.getD n 'A'

def value? (c : Char) : Option Nat := alphabet.findIdx? (· = c)

def encode : List UInt8 → List Char
  | a :: b :: c :: r =>
    let n := a.toNat * 65536 + b.toNat * 256 + c.toNat
    digit (n / 262144) :: digit (n / 4096 % 64) :: digit (n / 64 % 64) :: digit (n % 64) ::
      encode r
  | [a, b] =>
    let n := a.toNat * 256 + b.toNat
    [digit (n / 1024), digit (n / 16 % 64), digit (n % 16 * 4)]
  | [a] => [digit (a.toNat / 4), digit (a.toNat % 4 * 16)]
  | [] => []

def decodeFour (a b c d : Char) : Option (List UInt8) := do
  let n := (← value? a) * 262144 + (← value? b) * 4096 + (← value? c) * 64 + (← value? d)
  pure [(n / 65536).toUInt8, (n / 256 % 256).toUInt8, (n % 256).toUInt8]

/-- The last two or three digits; the bits that belong to no octet must be zero. -/
def decodeThree (a b c : Char) : Option (List UInt8) := do
  let n := (← value? a) * 4096 + (← value? b) * 64 + (← value? c)
  if n % 4 = 0 then pure [(n / 1024).toUInt8, (n / 4 % 256).toUInt8] else none

def decodeTwo (a b : Char) : Option (List UInt8) := do
  let n := (← value? a) * 64 + (← value? b)
  if n % 16 = 0 then pure [(n / 16).toUInt8] else none

def decode : List Char → Option (List UInt8)
  | a :: b :: c :: d :: r => do
    let front ← decodeFour a b c d
    let rest ← decode r
    pure (front ++ rest)
  | [a, b, c] => decodeThree a b c
  | [a, b] => decodeTwo a b
  | [_] => none
  | [] => some []

end EventGateway.Secret.Base64
