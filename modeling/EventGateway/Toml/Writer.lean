/-! Writing strings, each in the plainest form that can hold it. -/

namespace EventGateway.Toml

def longestRun (q : Char) (s : List Char) : Nat := go 0 s
where
  go : Nat → List Char → Nat
  | n, [] => n
  | n, c :: r => if c = q then go (n + 1) r else max n (go 0 r)

inductive StringForm
  | basic
  | literal
  | longBasic
  | longLiteral
  deriving DecidableEq, Repr

def isHidden (c : Char) : Bool := (c < ' ' && c ≠ '\t' && c ≠ '\n') || c = '\x7f'

/-- Without controls: in double quotes if nothing has to be escaped, else in single quotes, then in
three of either kind. What is left is escaped. -/
def formOf (s : List Char) : StringForm :=
  if s.any isHidden then (if s.contains '\n' then .longBasic else .basic)
  else if !s.contains '\\' && !s.contains '"' && !s.contains '\n' then .basic
  else if !s.contains '\'' && !s.contains '\n' then .literal
  else if !s.contains '\\' && longestRun '"' s ≤ 2 then .longBasic
  else if longestRun '\'' s ≤ 2 then .longLiteral
  else if s.contains '\n' then .longBasic
  else .basic

def hexUpper (n : Nat) : Char := if n < 10 then Char.ofNat (48 + n) else Char.ofNat (55 + n)

def escapeChar (c : Char) : List Char :=
  if c = '\x08' then ['\\', 'b']
  else if c = '\t' then ['\\', 't']
  else if c = '\n' then ['\\', 'n']
  else if c = '\x0c' then ['\\', 'f']
  else if c = '\r' then ['\\', 'r']
  else if c = '"' then ['\\', '"']
  else if c = '\\' then ['\\', '\\']
  else if c < ' ' ∨ c = '\x7f' then
    ['\\', 'u', '0', '0', hexUpper (c.toNat / 16), hexUpper (c.toNat % 16)]
  else [c]

def basicText (s : List Char) : List Char := s.flatMap escapeChar

/-- Line feeds stand as they are, and of a run of quotes every third is escaped. -/
def longBasicText : (quotes : Nat) → List Char → List Char
  | _, [] => []
  | quotes, c :: r =>
    if c = '\n' then c :: longBasicText 0 r
    else if c = '"' then
      if quotes < 2 then c :: longBasicText (quotes + 1) r
      else escapeChar c ++ longBasicText 0 r
    else escapeChar c ++ longBasicText 0 r

/-- A string over several lines starts on a line of its own. -/
def firstLine (s : List Char) : List Char := if s.contains '\n' then ['\n'] else []

def writeString (s : String) : List Char :=
  let s := s.toList
  match formOf s with
  | .basic => '"' :: (basicText s ++ ['"'])
  | .literal => '\'' :: (s ++ ['\''])
  | .longBasic => ['"', '"', '"'] ++ firstLine s ++ longBasicText 0 s ++ ['"', '"', '"']
  | .longLiteral => ['\'', '\'', '\''] ++ firstLine s ++ s ++ ['\'', '\'', '\'']

end EventGateway.Toml
