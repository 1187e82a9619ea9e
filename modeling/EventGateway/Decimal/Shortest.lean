import EventGateway.Decimal.Binary64

/-! The shortest decimal that reads back as a given double, and its layout. -/

namespace EventGateway

/-- `digits * 10 ^ exponent`. -/
structure Decimal where
  digits : Nat
  exponent : Int
  deriving DecidableEq, Repr

namespace Magnitude

/-- Four times the magnitude, and the bounds of what rounds to it, over one denominator. -/
structure Interval where
  low : Nat
  value : Nat
  high : Nat
  den : Nat
  closed : Bool

def interval (x : Magnitude) : Interval :=
  let up := Nat.pow 2 x.exponent.toNat
  let below := if x.significand = leastFull ∧ -1074 < x.exponent then 1 else 2
  { low := (4 * x.significand - below) * up
    value := 4 * x.significand * up
    high := (4 * x.significand + 2) * up
    den := 4 * Nat.pow 2 (-x.exponent).toNat
    closed := x.significand % 2 = 0 }

/-- Whether `num / den` rounds to the magnitude of the interval. -/
def Interval.holds (i : Interval) (num den : Nat) : Bool :=
  let a := i.low * den
  let b := num * i.den
  let c := i.high * den
  if i.closed then a ≤ b ∧ b ≤ c else a < b ∧ b < c

def leadingPlace (num den : Nat) : Int :=
  if den ≤ num then ((Nat.toDigits 10 (num / den)).length : Int) - 1
  else
    match (List.range 400).find? fun j => den ≤ num * Nat.pow 10 j with
    | some j => -(j : Int)
    | none => 0

/-- The nearer of the two neighbours, on the grid of `n` digits, that round back. -/
def Interval.onGrid? (i : Interval) (lead : Int) (n : Nat) : Option Decimal :=
  let unit : Int := lead - (n : Int) + 1
  let (a, b) := (Nat.pow 10 unit.toNat, Nat.pow 10 (-unit).toNat)
  let q := i.value * b / (i.den * a)
  let r := i.value * b % (i.den * a)
  let down := i.holds (q * a) b
  let up := i.holds ((q + 1) * a) b
  let nearerUp := i.den * a < 2 * r ∨ (i.den * a = 2 * r ∧ q % 2 = 1)
  if down ∧ up then some ⟨if nearerUp then q + 1 else q, unit⟩
  else if down then some ⟨q, unit⟩
  else if up then some ⟨q + 1, unit⟩
  else none

/-- The first grid that has a decimal which reads back gives the shortest one. -/
def shortest (x : Magnitude) : Decimal :=
  if x.isZero then ⟨0, 0⟩
  else
    let i := x.interval
    let lead := leadingPlace i.value i.den
    ((List.range 17).findSome? fun n => i.onGrid? lead (n + 1)).getD ⟨0, 0⟩

end Magnitude

/-- Which decimals are written positionally: those whose point stands in the given places. -/
structure DecimalLayout where
  leastPoint : Option Int
  greatestPoint : Option Int

namespace Decimal

/-- Digits without trailing zeros, and the place of the point counted from the first of them. -/
def parts (d : Decimal) : List Char × Int :=
  let cs := Nat.toDigits 10 d.digits
  ((cs.reverse.dropWhile (· = '0')).reverse, cs.length + d.exponent)

def render (layout : DecimalLayout) (d : Decimal) : List Char :=
  if d.digits = 0 then ['0', '.', '0']
  else
    let (cs, point) := d.parts
    let positional :=
      layout.leastPoint.all (· ≤ point) ∧ layout.greatestPoint.all (point ≤ ·)
    if positional then
      if point ≤ 0 then '0' :: '.' :: (List.replicate (-point).toNat '0' ++ cs)
      else if cs.length ≤ point.toNat then
        cs ++ List.replicate (point.toNat - cs.length) '0' ++ ['.', '0']
      else cs.take point.toNat ++ '.' :: cs.drop point.toNat
    else
      let e := point - 1
      let tail := if cs.length ≤ 1 then [] else '.' :: cs.drop 1
      cs.take 1 ++ tail ++ 'e' :: (if e < 0 then '-' else '+') :: Nat.toDigits 10 e.natAbs

end Decimal

namespace Binary64

def render (layout : DecimalLayout) (x : Binary64) : String :=
  let digits := String.ofList (x.magnitude.shortest.render layout)
  if x.negative then "-" ++ digits else digits

end Binary64

end EventGateway
