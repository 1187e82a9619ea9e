/-! Socket addresses: an IPv4 or IPv6 address with a port, and how they are written. -/

namespace EventGateway.Network

inductive SocketAddress
  | v4 (a b c d : UInt8) (port : UInt16)
  | v6 (groups : List UInt16) (scopeId : UInt32) (port : UInt16)
  deriving DecidableEq, Repr

/-- Reads something from the front of a text; gives it with the rest. -/
abbrev Read (α : Type) := List Char → Option (α × List Char)

def readChar (c : Char) : Read Unit
  | d :: r => if c = d then some ((), r) else none
  | [] => none

def digit? (base : Nat) (c : Char) : Option Nat :=
  let n :=
    if c.isDigit then c.toNat - '0'.toNat
    else if 'a' ≤ c ∧ c ≤ 'z' then c.toNat - 'a'.toNat + 10
    else if 'A' ≤ c ∧ c ≤ 'Z' then c.toNat - 'A'.toNat + 10
    else base
  if n < base then some n else none

def isDigitOf (base : Nat) (c : Char) : Bool := (digit? base c).isSome

def ofDigits (base : Nat) (s : List Char) : Nat :=
  s.foldl (fun n c => n * base + (digit? base c).getD 0) 0

def readNumber (base bound : Nat) : Read Nat := fun s =>
  let digits := s.takeWhile (isDigitOf base)
  if digits.isEmpty then none
  else if ofDigits base digits < bound then
    some (ofDigits base digits, s.dropWhile (isDigitOf base))
  else none

/-- A byte in decimal, without a leading zero. -/
def readByte : Read UInt8 := fun s =>
  let digits := s.takeWhile Char.isDigit
  if 3 < digits.length ∨ (1 < digits.length ∧ digits.head? = some '0') then none
  else (readNumber 10 256 s).map fun (n, r) => (UInt8.ofNat n, r)

structure Four where
  a : UInt8
  b : UInt8
  c : UInt8
  d : UInt8

def readFour : Read Four := fun s => do
  let (a, s) ← readByte s
  let (_, s) ← readChar '.' s
  let (b, s) ← readByte s
  let (_, s) ← readChar '.' s
  let (c, s) ← readByte s
  let (_, s) ← readChar '.' s
  let (d, s) ← readByte s
  pure (⟨a, b, c, d⟩, s)

/-- A group has one to four hexadecimal digits. -/
def readGroup : Read UInt16 := fun s =>
  if 4 < (s.takeWhile (isDigitOf 16)).length then none
  else (readNumber 16 UInt16.size s).map fun (n, r) => (UInt16.ofNat n, r)

/-- A colon comes before everything but the first. -/
def readNext {α : Type} (first : Bool) (read : Read α) : Read α := fun s =>
  if first then read s
  else do
    let (_, s) ← readChar ':' s
    read s

def joinBytes (a b : UInt8) : UInt16 := a.toUInt16 * 256 + b.toUInt16

/-- At most `room` groups, with whether the last two were written as an IPv4 address. -/
def readGroups : (room : Nat) → (first : Bool) → List Char → (List UInt16 × Bool) × List Char
  | 0, _, s => (([], false), s)
  | room + 1, first, s =>
    match if 0 < room then readNext first readFour s else none with
    | some (f, r) => (([joinBytes f.a f.b, joinBytes f.c f.d], true), r)
    | none =>
      match readNext first readGroup s with
      | none => (([], false), s)
      | some (g, r) =>
        let rest := readGroups room false r
        ((g :: rest.1.1, rest.1.2), rest.2)

/-- Eight groups, or fewer around two colons that stand for zeros. -/
def readEight : Read (List UInt16) := fun s =>
  let head := readGroups 8 true s
  if head.1.1.length = 8 then some (head.1.1, head.2)
  else if head.1.2 then none
  else do
    let (_, s) ← readChar ':' head.2
    let (_, s) ← readChar ':' s
    let tail := readGroups (7 - head.1.1.length) true s
    let zeros := List.replicate (8 - head.1.1.length - tail.1.1.length) 0
    pure (head.1.1 ++ zeros ++ tail.1.1, tail.2)

def readPort : Read UInt16 := fun s => do
  let (_, s) ← readChar ':' s
  let (n, s) ← readNumber 10 UInt16.size s
  pure (UInt16.ofNat n, s)

def readScopeId : Read UInt32 := fun s => do
  let (_, s) ← readChar '%' s
  let (n, s) ← readNumber 10 UInt32.size s
  pure (UInt32.ofNat n, s)

namespace SocketAddress

def readV4 : Read SocketAddress := fun s => do
  let (f, s) ← readFour s
  let (port, s) ← readPort s
  pure (v4 f.a f.b f.c f.d port, s)

def readV6 : Read SocketAddress := fun s => do
  let (_, s) ← readChar '[' s
  let (groups, s) ← readEight s
  let (scopeId, s) := (readScopeId s).getD (0, s)
  let (_, s) ← readChar ']' s
  let (port, s) ← readPort s
  pure (v6 groups scopeId port, s)

def ofText? (s : String) : Option SocketAddress :=
  match readV4 s.toList <|> readV6 s.toList with
  | some (a, []) => some a
  | _ => none

end SocketAddress

def renderFour (a b c d : UInt8) : String :=
  ".".intercalate ([a, b, c, d].map toString)

def renderGroup (g : UInt16) : String := String.ofList (Nat.toDigits 16 g.toNat)

def renderGroups (gs : List UInt16) : String := ":".intercalate (gs.map renderGroup)

def zerosAhead (gs : List UInt16) : Nat := (gs.takeWhile (· = 0)).length

def longestZeros : List UInt16 → Nat × Nat
  | [] => (0, 0)
  | g :: r =>
    let here := zerosAhead (g :: r)
    let later := longestZeros r
    if later.2 ≤ here then (0, here) else (later.1 + 1, later.2)

/-- Two colons stand for the longest run of at least two zeros. -/
def renderEight (gs : List UInt16) : String :=
  match gs with
  | [0, 0, 0, 0, 0, 0xffff, g, h] =>
    "::ffff:" ++ renderFour (g >>> 8).toUInt8 g.toUInt8 (h >>> 8).toUInt8 h.toUInt8
  | _ =>
    let zeros := longestZeros gs
    if zeros.2 < 2 then renderGroups gs
    else renderGroups (gs.take zeros.1) ++ "::" ++ renderGroups (gs.drop (zeros.1 + zeros.2))

def SocketAddress.render : SocketAddress → String
  | v4 a b c d port => renderFour a b c d ++ ":" ++ toString port
  | v6 groups scopeId port =>
    "[" ++ renderEight groups ++ (if scopeId = 0 then "" else "%" ++ toString scopeId) ++ "]:" ++
      toString port

/-- Whether the address is of every machine: the loopback, or all there are. -/
def SocketAddress.isLocal : SocketAddress → Bool
  | v4 a b c d _ => a = 127 || (a = 0 && b = 0 && c = 0 && d = 0)
  | v6 groups _ _ => groups.dropLast.all (· = 0) && groups.getLast?.all (· ≤ 1)

end EventGateway.Network
