import EventGateway.Toml.Value

/-! Values that are one word: booleans, numbers, dates and times. -/

namespace EventGateway.Toml

def isAtomChar (c : Char) : Bool :=
  c.isAlphanum || c = '+' || c = '-' || c = '_' || c = '.' || c = ':'

/-- The digits of a number without the underscores, each of which stands between two digits. -/
def ungroup (p : Char → Bool) : List Char → Option (List Char)
  | [] => none
  | [c] => if p c then some [c] else none
  | c :: '_' :: r => if p c then (ungroup p r).map (c :: ·) else none
  | c :: r => if p c then (ungroup p r).map (c :: ·) else none

def digitValue (c : Char) : Nat :=
  if c.isDigit then c.toNat - '0'.toNat
  else if 'a' ≤ c ∧ c ≤ 'f' then c.toNat - 'a'.toNat + 10
  else c.toNat - 'A'.toNat + 10

def digitsValue (base : Nat) (s : List Char) : Nat :=
  s.foldl (fun n c => n * base + digitValue c) 0

def isDigitBelow (base : Nat) (c : Char) : Bool :=
  (c.isDigit || ('a' ≤ c && c ≤ 'f') || ('A' ≤ c && c ≤ 'F')) && digitValue c < base

def unsign : List Char → Bool × List Char
  | '+' :: r => (false, r)
  | '-' :: r => (true, r)
  | s => (false, s)

def inRange? (n : Int) : Option Int64 :=
  if Int64.minValue.toInt ≤ n ∧ n ≤ Int64.maxValue.toInt then some (Int64.ofInt n) else none

def decimalDigits? (s : List Char) : Option (List Char) :=
  (ungroup (isDigitBelow 10) s).bind fun ds =>
    if 1 < ds.length ∧ ds.head? = some '0' then none else some ds

def based? (base : Nat) (s : List Char) : Option Int64 :=
  (ungroup (isDigitBelow base) s).bind fun ds => inRange? (digitsValue base ds)

def integer? : List Char → Option Int64
  | '0' :: 'x' :: r => based? 16 r
  | '0' :: 'o' :: r => based? 8 r
  | '0' :: 'b' :: r => based? 2 r
  | s =>
    (decimalDigits? (unsign s).2).bind fun ds =>
      let n : Int := digitsValue 10 ds
      inRange? (if (unsign s).1 then -n else n)

/-- `digits * 10 ^ exponent`, rounded; exponents far beyond all doubles are not computed. -/
def realOf (negative : Bool) (digits : Nat) (exponent : Int) : Real :=
  let places : Int := (Nat.toDigits 10 digits).length + exponent
  if digits = 0 ∨ places < -400 then .finite ⟨negative, Magnitude.zero⟩
  else if 400 < places then .infinite negative
  else
    match Magnitude.ofQuotient? (digits * Nat.pow 10 exponent.toNat) (Nat.pow 10 (-exponent).toNat) with
    | some x => .finite ⟨negative, x⟩
    | none => .infinite negative

def isGroupChar (c : Char) : Bool := c.isDigit || c = '_'

def exponent? : List Char → Option Int
  | [] => some 0
  | e :: r =>
    if e = 'e' ∨ e = 'E' then
      (ungroup (isDigitBelow 10) (unsign r).2).map fun ds =>
        let n : Int := digitsValue 10 ds
        if (unsign r).1 then -n else n
    else none

def fraction? : List Char → Option (List Char × Int)
  | '.' :: r =>
    (ungroup (isDigitBelow 10) (r.takeWhile isGroupChar)).bind fun ds =>
      (exponent? (r.dropWhile isGroupChar)).map fun e => (ds, e)
  | [] => none
  | s => (exponent? s).map fun e => ([], e)

/-- Numbers too large are refused when they are positive. -/
def real? (s : List Char) : Option Real :=
  let negative := (unsign s).1
  let body := (unsign s).2
  if body = ['i', 'n', 'f'] then some (.infinite negative)
  else if body = ['n', 'a', 'n'] then some .notANumber
  else do
    let whole ← decimalDigits? (body.takeWhile isGroupChar)
    let (part, e) ← fraction? (body.dropWhile isGroupChar)
    let x := realOf negative (digitsValue 10 (whole ++ part)) (e - part.length)
    if x = .infinite false then none else pure x

def pair? (low high : Nat) (a b : Char) : Option Nat :=
  let n := digitsValue 10 [a, b]
  if a.isDigit && b.isDigit && low ≤ n && n ≤ high then some n else none

def isLeapYear (y : Nat) : Bool := y % 4 = 0 && (y % 100 ≠ 0 || y % 400 = 0)

def daysIn (year month : Nat) : Nat :=
  if month = 2 then (if isLeapYear year then 29 else 28)
  else if month = 4 ∨ month = 6 ∨ month = 9 ∨ month = 11 then 30
  else 31

def isDate : List Char → Bool
  | [a, b, c, d, '-', m, n, '-', x, y] =>
    [a, b, c, d].all Char.isDigit &&
      match pair? 1 12 m n with
      | some month => (pair? 1 (daysIn (digitsValue 10 [a, b, c, d]) month) x y).isSome
      | none => false
  | _ => false

def isOffset : List Char → Bool
  | [] => true
  | ['Z'] => true
  | ['z'] => true
  | [s, a, b, ':', c, d] =>
    (s = '+' || s = '-') && (pair? 0 23 a b).isSome && (pair? 0 59 c d).isSome
  | _ => false

def isTimeEnd (offset : Bool) : List Char → Bool
  | '.' :: r =>
    !(r.takeWhile Char.isDigit).isEmpty &&
      (if offset then isOffset (r.dropWhile Char.isDigit) else (r.dropWhile Char.isDigit).isEmpty)
  | r => if offset then isOffset r else r.isEmpty

def isTime (offset : Bool) : List Char → Bool
  | a :: b :: ':' :: c :: d :: ':' :: e :: f :: r =>
    (pair? 0 23 a b).isSome && (pair? 0 59 c d).isSome && (pair? 0 60 e f).isSome &&
      isTimeEnd offset r
  | _ => false

def isMoment (s : List Char) : Bool :=
  isTime false s ||
    match s.drop 10 with
    | t :: r => (t = 'T' || t = 't') && isDate (s.take 10) && isTime true r
    | [] => false

def atom? (s : List Char) : Option Value :=
  if s = ['t', 'r', 'u', 'e'] then some (.boolean true)
  else if s = ['f', 'a', 'l', 's', 'e'] then some (.boolean false)
  else
    match integer? s, real? s with
    | some n, _ => some (.integer n)
    | none, some x => some (.real x)
    | none, none => if isMoment s then some .dateTime else none

/-- A blank may stand between a date and its time. -/
def readDate (s : List Char) : Option (Value × List Char) :=
  match s with
  | ' ' :: r =>
    let time := r.takeWhile isAtomChar
    if time.isEmpty then some (.dateTime, s)
    else if isTime true time then some (.dateTime, r.dropWhile isAtomChar)
    else none
  | s => some (.dateTime, s)

def readAtom (s : List Char) : Option (Value × List Char) :=
  let word := s.takeWhile isAtomChar
  let rest := s.dropWhile isAtomChar
  if isDate word then readDate rest else (atom? word).map fun v => (v, rest)

end EventGateway.Toml
