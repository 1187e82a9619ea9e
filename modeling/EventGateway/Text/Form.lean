import EventGateway.Text.Percent

/-! Form fields as a query holds them: pairs joined by ampersands, with plus signs for spaces. -/

namespace EventGateway.Text

def splitAt (separator : UInt8) : List UInt8 → List (List UInt8)
  | [] => [[]]
  | b :: r =>
    if b = separator then [] :: splitAt separator r
    else
      match splitAt separator r with
      | [] => [[b]]
      | p :: ps => (b :: p) :: ps

namespace Form

def readPart (bytes : List UInt8) : String :=
  ofUtf8Lossy (percentDecode (bytes.map fun b => if b = octet '+' then octet ' ' else b))

/-- The name stands before the first equals sign. -/
def readPair (bytes : List UInt8) : String × String :=
  (readPart (bytes.takeWhile (· ≠ octet '=')), readPart ((bytes.dropWhile (· ≠ octet '=')).drop 1))

def read (query : String) : List (String × String) :=
  ((splitAt (octet '&') (toUtf8 query)).filter (! ·.isEmpty)).map readPair

def isPlain (b : UInt8) : Bool :=
  (octet '0' ≤ b && b ≤ octet '9') || (octet 'a' ≤ b && b ≤ octet 'z') ||
    (octet 'A' ≤ b && b ≤ octet 'Z') ||
    b == octet '*' || b == octet '-' || b == octet '.' || b == octet '_'

def writePart (s : String) : List UInt8 :=
  (toUtf8 s).flatMap fun b =>
    if b = octet ' ' then [octet '+'] else percentEncode isPlain [b]

def writePair (p : String × String) : List UInt8 :=
  writePart p.1 ++ octet '=' :: writePart p.2

def writePairs : List (String × String) → List UInt8
  | [] => []
  | [p] => writePair p
  | p :: q :: r => writePair p ++ octet '&' :: writePairs (q :: r)

def write (pairs : List (String × String)) : String :=
  String.ofList ((writePairs pairs).map fun b => Char.ofNat b.toNat)

def repeatedAfter (names seen : List String) : List (String × String) → Option String
  | [] => none
  | (n, _) :: r =>
    if n ∈ names ∧ n ∈ seen then some n else repeatedAfter names (n :: seen) r

def repeated? (names : List String) (pairs : List (String × String)) : Option String :=
  repeatedAfter names [] pairs

end Form

end EventGateway.Text
