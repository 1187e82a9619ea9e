import EventGateway.Toml.Atom
import EventGateway.Toml.Quoted
import EventGateway.Toml.Tree

/-! A TOML text as one table. Its lines are read one after the other; a header names the table
that the following members belong to. -/

namespace EventGateway.Toml

def isBare (c : Char) : Bool := c.isAlphanum || c = '_' || c = '-'

def readKey (s : List Char) : Option (String × List Char) :=
  match s with
  | '"' :: r => (readBasic .text r).map fun p => (String.ofList p.1, p.2)
  | '\'' :: r => (readLiteral r).map fun p => (String.ofList p.1, p.2)
  | s =>
    if (s.takeWhile isBare).isEmpty then none
    else some (String.ofList (s.takeWhile isBare), s.dropWhile isBare)

/-- Containers nest less deep than this, and a key has fewer parts. -/
def depthLimit : Nat := 80

def readPathOf : (n : Nat) → List Char → Option (List String × List Char)
  | 0, _ => none
  | n + 1, s =>
    match readKey (skipBlanks s) with
    | none => none
    | some (k, r) =>
      match skipBlanks r with
      | '.' :: r => (readPathOf n r).map fun p => (k :: p.1, p.2)
      | r => some ([k], r)

def readPath (s : List Char) : Option (List String × List Char) := readPathOf (depthLimit - 1) s

mutual

/-- A value inside of `depth` containers, with enough `fuel` for two steps a character. -/
def readValue : (fuel depth : Nat) → List Char → Option (Value × List Char)
  | 0, _, _ => none
  | fuel + 1, depth, s =>
    match s with
    | '[' :: r =>
      if depthLimit ≤ depth + 1 then none
      else (readItems fuel (depth + 1) r).map fun p => (.array p.1, p.2)
    | '\x7b' :: r =>
      if depthLimit ≤ depth + 1 then none
      else
        match skipBlanks r with
        | '\x7d' :: r => some (.table [], r)
        | r =>
          match readMembers fuel (depth + 1) r with
          | none => none
          | some (ms, r) => (inlineTable? ms).map fun v => (v, r)
    | '"' :: _ => (readString? s).map fun p => (.string p.1, p.2)
    | '\'' :: _ => (readString? s).map fun p => (.string p.1, p.2)
    | _ => readAtom s

/-- The items of an array and its end; a comma may follow the last one. -/
def readItems : (fuel depth : Nat) → List Char → Option (List Value × List Char)
  | 0, _, _ => none
  | fuel + 1, depth, s =>
    match skipVoid s with
    | ']' :: r => some ([], r)
    | s =>
      match readValue fuel depth s with
      | none => none
      | some (v, r) =>
        match skipVoid r with
        | ',' :: r => (readItems fuel depth r).map fun p => (v :: p.1, p.2)
        | ']' :: r => some ([v], r)
        | _ => none

/-- The members of an inline table, of which there is one at least, and its end. -/
def readMembers : (fuel depth : Nat) → List Char → Option (List (List String × Value) × List Char)
  | 0, _, _ => none
  | fuel + 1, depth, s =>
    match readPath s with
    | some (path, '=' :: r) =>
      match readValue fuel depth (skipBlanks r) with
      | none => none
      | some (v, r) =>
        match skipBlanks r with
        | ',' :: r => (readMembers fuel depth r).map fun p => ((path, v) :: p.1, p.2)
        | '\x7d' :: r => some ([(path, v)], r)
        | _ => none
    | _ => none

end

inductive Line
  | nothing
  | member (path : List String) (v : Value)
  | header (path : List String)
  | arrayHeader (path : List String)

def readLine (s : List Char) : Option (Line × List Char) :=
  match s with
  | [] => some (.nothing, [])
  | '\n' :: r => some (.nothing, r)
  | '#' :: _ => (lineEnd? s).map fun r => (.nothing, r)
  | '[' :: '[' :: r =>
    match readPath r with
    | some (path, ']' :: ']' :: r) => (lineEnd? r).map fun r => (.arrayHeader path, r)
    | _ => none
  | '[' :: r =>
    match readPath r with
    | some (path, ']' :: r) => (lineEnd? r).map fun r => (.header path, r)
    | _ => none
  | s =>
    match readPath s with
    | some (path, '=' :: r) =>
      match readValue (2 * r.length + 2) 0 (skipBlanks r) with
      | none => none
      | some (v, r) => (lineEnd? r).map fun r => (.member path v, r)
    | _ => none

def readLines : (n : Nat) → List Char → Option (List Line)
  | 0, _ => none
  | n + 1, s =>
    match skipBlanks s with
    | [] => some []
    | s =>
      match readLine s with
      | none => none
      | some (l, r) => (readLines n r).map (l :: ·)

/-- The table that members are added to, and where it goes when it is complete. -/
structure Builder where
  root : Entries
  current : Entries
  path : List String
  inArray : Bool

namespace Builder

def initial : Builder := ⟨[], [], [], false⟩

/-- Puts a table at a name, behind those before it when it belongs to an array. -/
def place (inArray : Bool) (current : Entries) (k : String) (_dotted : Bool) (es : Entries) :
    Option (Unit × Entries) :=
  match Entries.find? es k, inArray with
  | none, true => some ((), Entries.add es k (.tables [current]))
  | none, false => some ((), Entries.add es k (.table false false current))
  | some (.tables ts), true => some ((), Entries.replace es k (.tables (ts ++ [current])))
  | some _, _ => none

def finish (b : Builder) : Option Entries :=
  match b.path.getLast? with
  | none => some b.current
  | some k =>
    (Entries.alter false (place b.inArray b.current k) b.path.dropLast false b.root).map Prod.snd

/-- Takes out the table that a header names. It is there already only as an implicit one. -/
def takeOut (k : String) (_dotted : Bool) (es : Entries) : Option (Entries × Entries) :=
  match Entries.find? es k with
  | none => some ([], es)
  | some (.table true false c) => some (c, Entries.remove es k)
  | some _ => none

def openTable (root : Entries) (path : List String) : Option Builder :=
  match path.getLast? with
  | none => none
  | some k =>
    (Entries.alter false (takeOut k) path.dropLast false root).map fun p => ⟨p.2, p.1, path, false⟩

def arrayAt (k : String) (_dotted : Bool) (es : Entries) : Option (Unit × Entries) :=
  match Entries.find? es k with
  | none => some ((), Entries.add es k (.tables []))
  | some (.tables _) => some ((), es)
  | some _ => none

def openArray (root : Entries) (path : List String) : Option Builder :=
  match path.getLast? with
  | none => none
  | some k =>
    (Entries.alter false (arrayAt k) path.dropLast false root).map fun p => ⟨p.2, [], path, true⟩

def step (b : Builder) : Line → Option Builder
  | .nothing => some b
  | .member path v => (b.current.insert path v).map fun es => { b with current := es }
  | .header path => b.finish.bind fun root => openTable root path
  | .arrayHeader path => b.finish.bind fun root => openArray root path

end Builder

def withoutMark : List Char → List Char
  | '\ufeff' :: r => r
  | s => s

def read? (text : String) : Option (List (String × Value)) :=
  match unifyLines (withoutMark text.toList) with
  | none => none
  | some s =>
    match readLines (s.length + 1) s with
    | none => none
    | some ls =>
      ((ls.foldlM Builder.step Builder.initial).bind Builder.finish).map Node.toMembers

end EventGateway.Toml
