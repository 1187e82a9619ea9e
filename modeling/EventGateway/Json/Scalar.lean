import EventGateway.Json.Token

/-! The values of number and string tokens. Digits are gathered while they fit 64 bits and the
exponent counts the rest; a number that is no 64-bit integer is a double. -/

namespace EventGateway.Json

namespace StringToken

def isLeading (u : Nat) : Bool := 0xd800 ≤ u ∧ u ≤ 0xdbff

def isTrailing (u : Nat) : Bool := 0xdc00 ≤ u ∧ u ≤ 0xdfff

def joined (lead trail : Nat) : Char :=
  Char.ofNat ((lead - 0xd800) * 0x400 + (trail - 0xdc00) + 0x10000)

def endError? : StringEnd → Option SyntaxError
  | .closed => none
  | .cut => some .eofString
  | .control => some .controlCharacter
  | .badEscape => some .invalidEscape
  | .badHex => some .invalidEscape

def unpairedError : StringEnd → SyntaxError
  | .cut => .eofString
  | .badHex => .invalidEscape
  | _ => .unexpectedEndOfHexEscape

def join (ending : StringEnd) : List Piece → Except SyntaxError (List Glyph)
  | [] =>
    match endError? ending with
    | some e => .error e
    | none => .ok []
  | .char c :: r => (join ending r).map (some c :: ·)
  | .broken :: r => (join ending r).map (none :: ·)
  | .unit u :: r =>
    if isTrailing u then .error .loneSurrogate
    else if isLeading u then
      match r with
      | .unit v :: r =>
        if isTrailing v then (join ending r).map (some (joined u v) :: ·) else .error .loneSurrogate
      | [] => .error (unpairedError ending)
      | _ => .error .unexpectedEndOfHexEscape
    else (join ending r).map (some (Char.ofNat u) :: ·)

def read (t : StringToken) : Except SyntaxError String :=
  match join t.ending t.pieces with
  | .error e => .error e
  | .ok gs => if gs.contains none then .error .invalidUnicode else .ok (String.ofList (gs.filterMap id))

/-- A string that is passed over may hold lone surrogates and broken bytes. -/
def skip (t : StringToken) : Except SyntaxError Unit :=
  match endError? t.ending with
  | some e => .error e
  | none => .ok ()

end StringToken

namespace Magnitude

def tenPow (n : Nat) : Magnitude := (Magnitude.ofNat? (Nat.pow 10 n)).getD .zero

def scaleTen? (x : Magnitude) (e : Int) : Option Magnitude :=
  if e.natAbs ≤ 308 then
    if 0 ≤ e then x.mul? (tenPow e.natAbs) else x.div? (tenPow e.natAbs)
  else if x.isZero then some x
  else if 0 ≤ e then none
  else (x.div? (tenPow 308)).bind fun y => scaleTen? y (e + 308)
termination_by (-e).toNat
decreasing_by omega

end Magnitude

namespace NumberToken

def digitValue (c : Char) : Nat := c.toNat - '0'.toNat

/-- Takes in digits up to the first that does not fit, which is left with all after it. -/
def gather (n : Nat) : List Char → Nat × List Char
  | [] => (n, [])
  | c :: r => if n * 10 + digitValue c < UInt64.size then gather (n * 10 + digitValue c) r else (n, c :: r)

def digitsValue (cs : List Char) : Nat := cs.foldl (fun n c => n * 10 + digitValue c) 0

def float (t : NumberToken) (n : Nat) (e : Int) : Except SyntaxError Number :=
  match (Magnitude.ofNat? n).bind fun x => Magnitude.scaleTen? x e with
  | some x => .ok (.float ⟨t.negative, x⟩)
  | none => .error .numberOutOfRange

def value (t : NumberToken) : Except SyntaxError Number :=
  let whole := gather 0 t.whole
  let places : Int := whole.2.length
  let fraction := t.fraction.map fun ds => (gather whole.1 ds, ds.length)
  let n := (fraction.map fun f => f.1.1).getD whole.1
  let places := places - ((fraction.map fun f => f.2 - f.1.2.length).getD 0 : Nat)
  match t.exponent with
  | some (minus, ds) =>
    let e := digitsValue ds
    if e < 0x80000000 then t.float n (if minus then places - e else places + e)
    else if n ≠ 0 ∧ ¬minus then .error .numberOutOfRange
    else .ok (.float ⟨t.negative, .zero⟩)
  | none =>
    if whole.2.isEmpty ∧ t.fraction.isNone ∧ ¬(t.negative ∧ (n = 0 ∨ 0x8000000000000000 < n)) then
      .ok (.int (if t.negative then -(n : Int) else n))
    else t.float n places

def read (t : NumberToken) : Except SyntaxError Number :=
  match t.ending with
  | .complete => t.value
  | .wrong => .error .invalidNumber
  | .cut => .error .eofValue

/-- A number that is passed over may have any size. -/
def skip (t : NumberToken) : Except SyntaxError Unit :=
  if t.ending = .complete then .ok () else .error .invalidNumber

end NumberToken

end EventGateway.Json
