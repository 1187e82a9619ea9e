/-! Doubles in exact arithmetic: a magnitude is `significand * 2 ^ exponent`, and a quotient of
naturals is rounded to the nearest one, a tie to the even significand. -/

namespace EventGateway

structure Magnitude where
  significand : Nat
  exponent : Int
  deriving DecidableEq, Repr

namespace Magnitude

def leastFull : Nat := 0x10000000000000

def zero : Magnitude := ⟨0, 0⟩

def isZero (x : Magnitude) : Bool := x.significand == 0

def scaled (num den : Nat) (e : Int) : Nat × Nat :=
  if 0 ≤ e then (num, den * Nat.pow 2 e.toNat) else (num * Nat.pow 2 (-e).toNat, den)

def roundHalfEven (num den : Nat) : Nat :=
  let q := num / den
  let twice := 2 * (num % den)
  if twice < den then q else if den < twice then q + 1 else q + q % 2

/-- The unit of the last place of a quotient: 53 bits, and never below that of the least double. -/
def unitOf (num den : Nat) : Int :=
  let guess : Int := (num.log2 : Int) - den.log2 - 53
  let (n, d) := scaled num den guess
  max (if n / d < 2 * leastFull then guess else guess + 1) (-1074)

/-- The double nearest to `num / den`, or none when it lies beyond the largest. -/
def ofQuotient? (num den : Nat) : Option Magnitude :=
  if num = 0 then some zero
  else
    let e := unitOf num den
    let (n, d) := scaled num den e
    let m := roundHalfEven n d
    let x : Magnitude := if m = 2 * leastFull then ⟨leastFull, e + 1⟩ else ⟨m, e⟩
    if x.exponent ≤ 971 then some x else none

def ofNat? (n : Nat) : Option Magnitude := ofQuotient? n 1

def fraction (x : Magnitude) : Nat × Nat :=
  if 0 ≤ x.exponent then (x.significand * Nat.pow 2 x.exponent.toNat, 1)
  else (x.significand, Nat.pow 2 (-x.exponent).toNat)

def mul? (x y : Magnitude) : Option Magnitude :=
  let (a, b) := x.fraction
  let (c, d) := y.fraction
  ofQuotient? (a * c) (b * d)

def div? (x y : Magnitude) : Option Magnitude :=
  let (a, b) := x.fraction
  let (c, d) := y.fraction
  ofQuotient? (a * d) (b * c)

end Magnitude

structure Binary64 where
  negative : Bool
  magnitude : Magnitude
  deriving DecidableEq, Repr

end EventGateway
