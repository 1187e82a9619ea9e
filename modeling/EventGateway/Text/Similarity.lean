/-! How alike two words are, between 0 and 1, by the letters they have in common and their order. -/

namespace EventGateway.Text

def markFirst (low high : Nat) (c : Char) : Nat → List (Char × Bool) → Option (List (Char × Bool))
  | _, [] => none
  | i, (d, marked) :: r =>
    if low ≤ i && i < high && c = d && !marked then some ((d, true) :: r)
    else (markFirst low high c (i + 1) r).map ((d, marked) :: ·)

def partners (range : Nat) : Nat → List Char → List (Char × Bool) → List Char × List (Char × Bool)
  | _, [], b => ([], b)
  | i, c :: r, b =>
    match markFirst (i - range) (i + range + 1) c 0 b with
    | some b =>
      let p := partners range (i + 1) r b
      (c :: p.1, p.2)
    | none => partners range (i + 1) r b

/-- Letters are in common when they are less than half of the longer word apart; every two of them
that come in another order count as one that is out of place. -/
def similarity (a b : String) : Float :=
  let (x, y) := (a.toList, b.toList)
  let range := max x.length y.length / 2 - 1
  let p := partners range 0 x (y.map (·, false))
  let marked := (p.2.filter Prod.snd).map Prod.fst
  let common := p.1.length
  let misplaced := ((p.1.zip marked).filter fun q => q.1 ≠ q.2).length / 2
  if x.isEmpty && y.isEmpty then 1
  else if common = 0 then 0
  else
    (common.toFloat / x.length.toFloat + common.toFloat / y.length.toFloat +
      (common - misplaced).toFloat / common.toFloat) / 3

end EventGateway.Text
