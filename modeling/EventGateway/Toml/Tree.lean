import EventGateway.Toml.Value

/-! Tables in the making. A table may come into being without a header of its own: on the way to
another one (implicit), or through a dotted key. Such tables can still be added to. -/

namespace EventGateway.Toml

inductive Node
  | leaf (v : Value)
  | table (implicit dotted : Bool) (entries : List (String × Node))
  | tables (ts : List (List (String × Node)))

abbrev Entries := List (String × Node)

namespace Node

mutual

def toValue : Node → Value
  | leaf v => v
  | table _ _ es => .table (toMembers es)
  | tables ts => .array (toTables ts)

def toMembers : List (String × Node) → List (String × Value)
  | [] => []
  | (k, n) :: r => (k, toValue n) :: toMembers r

def toTables : List (List (String × Node)) → List Value
  | [] => []
  | es :: r => .table (toMembers es) :: toTables r

end

end Node

namespace Entries

def find? (es : Entries) (k : String) : Option Node := es.lookup k

def replace (es : Entries) (k : String) (n : Node) : Entries :=
  es.map fun e => if e.1 = k then (k, n) else e

def add (es : Entries) (k : String) (n : Node) : Entries := es ++ [(k, n)]

def remove (es : Entries) (k : String) : Entries := es.filter fun e => e.1 ≠ k

/-- Changes the table that a path leads to, which is told whether it is a dotted one. Tables on
the way that are not there are made; a dotted path leads through no table with a header. -/
def alter {α : Type} (dottedPath : Bool) (f : (dotted : Bool) → Entries → Option (α × Entries)) :
    List String → (dotted : Bool) → Entries → Option (α × Entries)
  | [], dotted, es => f dotted es
  | k :: ks, _, es =>
    match find? es k with
    | none => (alter dottedPath f ks dottedPath []).map fun p =>
        (p.1, add es k (.table true dottedPath p.2))
    | some (.leaf _) => none
    | some (.table implicit dotted c) =>
      if dottedPath && !implicit then none
      else (alter dottedPath f ks dotted c).map fun p =>
        (p.1, replace es k (.table implicit dotted p.2))
    | some (.tables ts) =>
      match ts.getLast? with
      | none => none
      | some c => (alter dottedPath f ks false c).map fun p =>
          (p.1, replace es k (.tables (ts.dropLast ++ [p.2])))

/-- Adds a value to the table of its key. That is a dotted table exactly when the key has parts
before its last one. -/
def addLeaf (nested : Bool) (k : String) (v : Value) (dotted : Bool) (es : Entries) :
    Option (Unit × Entries) :=
  if dotted ≠ nested then none
  else if (find? es k).isSome then none
  else some ((), add es k (.leaf v))

def insert (es : Entries) (path : List String) (v : Value) : Option Entries :=
  match path.getLast? with
  | none => none
  | some k =>
    (alter true (addLeaf (!path.dropLast.isEmpty) k v) path.dropLast false es).map Prod.snd

def insertAll (es : Entries) : List (List String × Value) → Option Entries
  | [] => some es
  | (path, v) :: r => (insert es path v).bind fun es => insertAll es r

end Entries

def inlineTable? (members : List (List String × Value)) : Option Value :=
  (Entries.insertAll [] members).map fun es => .table (Node.toMembers es)

end EventGateway.Toml
