/-! What stands between the parts of a TOML text: blanks, comments and ends of lines. -/

namespace EventGateway.Toml

/-- The text with every end of line as a line feed. A carriage return stands before one. -/
def unifyLines : List Char → Option (List Char)
  | [] => some []
  | '\r' :: '\n' :: r => (unifyLines r).map ('\n' :: ·)
  | c :: r => if c = '\r' then none else (unifyLines r).map (c :: ·)

def isBlank (c : Char) : Bool := c = ' ' || c = '\t'

def isPlain (c : Char) : Bool := c = '\t' || (' ' ≤ c && c ≠ '\x7f')

def skipBlanks (s : List Char) : List Char := s.dropWhile isBlank

def skipComment : List Char → List Char
  | '#' :: r => r.dropWhile isPlain
  | s => s

def lineEnd? (s : List Char) : Option (List Char) :=
  match skipComment (skipBlanks s) with
  | [] => some []
  | '\n' :: r => some r
  | _ => none

/-- Skips blanks, lines and comments, being inside of one or not. -/
def skipVoidFrom : (inComment : Bool) → List Char → List Char
  | _, [] => []
  | true, c :: r =>
    if c = '\n' then skipVoidFrom false r
    else if isPlain c then skipVoidFrom true r
    else c :: r
  | false, c :: r =>
    if isBlank c || c = '\n' then skipVoidFrom false r
    else if c = '#' then skipVoidFrom true r
    else c :: r

def skipVoid (s : List Char) : List Char := skipVoidFrom false s

end EventGateway.Toml
