import EventGateway.Toml.Scan

/-! Quoted strings: in double quotes with escapes, in single quotes as they are, and both kinds in
three quotes over several lines. -/

namespace EventGateway.Toml

/-- Within a string: between characters, or in an escape that is not complete. -/
inductive StringState
  | text
  | escape
  | hex (owed value : Nat)
  /-- Behind a backslash and blanks, before the end of the line. -/
  | lineBreak
  /-- Behind a line break that is left out together with all blanks and lines after it. -/
  | folded

def letterOf? (c : Char) : Option Char :=
  if c = 'b' then some '\x08'
  else if c = 't' then some '\t'
  else if c = 'n' then some '\n'
  else if c = 'f' then some '\x0c'
  else if c = 'r' then some '\r'
  else if c = '"' then some '"'
  else if c = '\\' then some '\\'
  else none

def hexValue? (c : Char) : Option Nat :=
  if c.isDigit then some (c.toNat - '0'.toNat)
  else if 'a' ≤ c ∧ c ≤ 'f' then some (c.toNat - 'a'.toNat + 10)
  else if 'A' ≤ c ∧ c ≤ 'F' then some (c.toNat - 'A'.toNat + 10)
  else none

def charOf? (n : Nat) : Option Char :=
  if n.isValidChar then some (Char.ofNat n) else none

def push (c : Char) (r : Option (List Char × List Char)) : Option (List Char × List Char) :=
  r.map fun p => (c :: p.1, p.2)

def readBasic : StringState → List Char → Option (List Char × List Char)
  | _, [] => none
  | .escape, c :: r =>
    match letterOf? c with
    | some d => push d (readBasic .text r)
    | none =>
      if c = 'u' then readBasic (.hex 4 0) r
      else if c = 'U' then readBasic (.hex 8 0) r
      else none
  | .hex owed value, c :: r =>
    match hexValue? c with
    | none => none
    | some d =>
      if 1 < owed then readBasic (.hex (owed - 1) (value * 16 + d)) r
      else
        match charOf? (value * 16 + d) with
        | some x => push x (readBasic .text r)
        | none => none
  | _, c :: r =>
    if c = '"' then some ([], r)
    else if c = '\\' then readBasic .escape r
    else if isPlain c then push c (readBasic .text r)
    else none

/-- How many of a run of quotes belong to the string that they end: all but three, at most two. -/
def closingExtra (run : Nat) : Nat := min (run - 3) 2

def closeRun (q : Char) (s : List Char) : List Char × List Char :=
  let extra := closingExtra (s.takeWhile (· = q)).length
  (List.replicate extra q, s.drop (extra + 3))

def isRun (q : Char) (s : List Char) : Bool := 3 ≤ (s.takeWhile (· = q)).length

def readLongBasic : StringState → List Char → Option (List Char × List Char)
  | _, [] => none
  | .escape, c :: r =>
    match letterOf? c with
    | some d => push d (readLongBasic .text r)
    | none =>
      if c = 'u' then readLongBasic (.hex 4 0) r
      else if c = 'U' then readLongBasic (.hex 8 0) r
      else if isBlank c then readLongBasic .lineBreak r
      else if c = '\n' then readLongBasic .folded r
      else none
  | .hex owed value, c :: r =>
    match hexValue? c with
    | none => none
    | some d =>
      if 1 < owed then readLongBasic (.hex (owed - 1) (value * 16 + d)) r
      else
        match charOf? (value * 16 + d) with
        | some x => push x (readLongBasic .text r)
        | none => none
  | .lineBreak, c :: r =>
    if isBlank c then readLongBasic .lineBreak r
    else if c = '\n' then readLongBasic .folded r
    else none
  | .folded, c :: r =>
    if isBlank c || c = '\n' then readLongBasic .folded r
    else if isRun '"' (c :: r) then some (closeRun '"' (c :: r))
    else if c = '\\' then readLongBasic .escape r
    else if isPlain c then push c (readLongBasic .text r)
    else none
  | .text, c :: r =>
    if isRun '"' (c :: r) then some (closeRun '"' (c :: r))
    else if c = '\\' then readLongBasic .escape r
    else if isPlain c || c = '\n' then push c (readLongBasic .text r)
    else none

def readLiteral : List Char → Option (List Char × List Char)
  | [] => none
  | c :: r =>
    if c = '\'' then some ([], r)
    else if isPlain c then push c (readLiteral r)
    else none

def readLongLiteral : List Char → Option (List Char × List Char)
  | [] => none
  | c :: r =>
    if isRun '\'' (c :: r) then some (closeRun '\'' (c :: r))
    else if isPlain c || c = '\n' then push c (readLongLiteral r)
    else none

/-- A line feed right behind the opening quotes is left out. -/
def skipFirstLine : List Char → List Char
  | '\n' :: r => r
  | s => s

def readString? : List Char → Option (String × List Char)
  | '"' :: '"' :: '"' :: r => made (readLongBasic .text (skipFirstLine r))
  | '\'' :: '\'' :: '\'' :: r => made (readLongLiteral (skipFirstLine r))
  | '"' :: r => made (readBasic .text r)
  | '\'' :: r => made (readLiteral r)
  | _ => none
where
  made (p : Option (List Char × List Char)) : Option (String × List Char) :=
    p.map fun p => (String.ofList p.1, p.2)

end EventGateway.Toml
