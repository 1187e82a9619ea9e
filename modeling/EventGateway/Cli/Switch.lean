import EventGateway.Text.Similarity

/-! The switches of the command line, and what is said about their use. -/

namespace EventGateway.Cli

inductive Switch
  | config
  | listen
  | help
  | version
  deriving DecidableEq, Repr

namespace Switch

def all : List Switch := [config, listen, help, version]

def name : Switch → String
  | config => "config"
  | listen => "listen"
  | help => "help"
  | version => "version"

def letter : Switch → Char
  | config => 'c'
  | listen => 'l'
  | help => 'h'
  | version => 'V'

def takesValue : Switch → Bool
  | config => true
  | listen => true
  | help => false
  | version => false

def display : Switch → String
  | config => "--config <CONFIG>"
  | listen => "--listen <LISTEN>"
  | help => "--help"
  | version => "--version"

def ofName? (n : List Char) : Option Switch := all.find? fun s => s.name.toList = n

def ofLetter? (c : Char) : Option Switch := all.find? fun s => s.letter = c

/-- Names that are less alike than this are not proposed. -/
def threshold : Float := 0.7

/-- The switch whose name is most like a word; of several the first. -/
def similar? (word : String) : Option Switch :=
  (all.foldl (fun best s =>
    let score := Text.similarity word s.name
    if best.2 < score then (some s, score) else best) (none, threshold)).1

end Switch

def programName : String := "wsnotify-server"

def usage : List Switch → String
  | [] => "Usage: " ++ programName ++ " [OPTIONS]"
  | used => "Usage: " ++ programName ++ " " ++ " ".intercalate (used.map Switch.display)

inductive ArgumentFault
  | unexpected (argument : String) (similar : Option Switch) (used : List Switch)
  | unexpectedValue (value : String) (s : Switch) (used : List Switch)
  | noValue (s : Switch)
  | address (value : String)
  | repeated (s : Switch)
  deriving DecidableEq, Repr

namespace ArgumentFault

def summary : ArgumentFault → String
  | unexpected a _ _ => "unexpected argument '" ++ a ++ "' found"
  | unexpectedValue v s _ =>
    "unexpected value '" ++ v ++ "' for '" ++ s.display ++ "' found; no more were expected"
  | noValue s => "a value is required for '" ++ s.display ++ "' but none was supplied"
  | address v =>
    "invalid value '" ++ v ++ "' for '" ++ Switch.listen.display ++ "': invalid socket address syntax"
  | repeated s => "the argument '" ++ s.display ++ "' cannot be used multiple times"

def tip (s : Switch) : String := "  tip: a similar argument exists: '--" ++ s.name ++ "'"

def advice : ArgumentFault → List String
  | unexpected _ similar used => (similar.map tip).toList ++ [usage used]
  | unexpectedValue _ _ used => [usage used]
  | noValue _ => []
  | address _ => []
  | repeated _ => [usage []]

def hint : String := "For more information, try '--help'."

def message (f : ArgumentFault) : String :=
  "\n\n".intercalate (("error: " ++ f.summary) :: f.advice ++ [hint]) ++ "\n"

end ArgumentFault

end EventGateway.Cli
