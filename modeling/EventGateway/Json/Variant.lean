import EventGateway.Json.Record

/-! Values that are one of several variants: a bare name, or a record with a tag. -/

namespace EventGateway.Json

def Face.variant (variants : List String) (f : Face) : Except DataError String :=
  match f.text "variant identifier" with
  | .error e => .error e
  | .ok s => if s ∈ variants then .ok s else .error (.unknownVariant s variants)

def Face.unit : Face → Except DataError Unit
  | null => .ok ()
  | f => .error (.invalidType f "unit")

namespace Draft

def variantName (variants : List String) (d : Draft) : Except Error String := do
  let f ← fromText d.face
  (f.variant variants).mapError .data

def unit (d : Draft) : Except Error Unit := do
  let f ← fromText d.face
  f.unit.mapError .data

/-- A variant without fields: its name, or an object with the name as its one member. -/
def bareVariant (variants : List String) : Draft → Except Error String
  | string s => (string s).variantName variants
  | object ((n, d) :: more) e => do
    let name ← (string n).variantName variants
    d.unit
    match more, e with
    | [], .closed => pure name
    | [], .stopped [] => SyntaxError.throw .eofObject
    | _, _ => SyntaxError.throw .expectedValue
  | object [] .closed => SyntaxError.throw .expectedValue
  | object [] (.stopped rest) => (ofTokens rest).1.variantName variants
  | absent rest => SyntaxError.throw (absentError rest)
  | uncoloned rest => SyntaxError.throw (uncolonedError rest)
  | _ => SyntaxError.throw .expectedValue

/-- A tag and the members beside it, in a list the tag comes first. Everything beside the tag is
read as a value, wherever the tag stands. -/
structure Tagged where
  variant : String
  content : Value

def tagMembers (tag : String) (variants : List String) (members : List (StringToken × Draft)) :
    Except Error (Option String × List (String × Value)) :=
  members.foldlM (fun s m => do
    let name ← fromText m.1.read
    if name = tag then
      match s.1 with
      | some _ => DataError.throw (.duplicateField tag)
      | none => do
        let v ← m.2.variantName variants
        pure (some v, s.2)
    else do
      let v ← fromText (m.2.value 2)
      pure (s.1, s.2 ++ [(name, v)])) (none, [])

def tagged (name tag : String) (variants : List String) : Draft → Except Error Tagged
  | object members e => do
    let (v, ms) ← tagMembers tag variants members
    fromText (e.check (Ending.objectError members.isEmpty))
    match v with
    | none => DataError.throw (.missingField tag)
    | some v => pure ⟨v, .object ms⟩
  | array [] e => do
    fromText (e.check Ending.listError)
    DataError.throw (.missingField tag)
  | array (d :: r) e => do
    let v ← d.variantName variants
    let vs ← fromText (itemValues 2 r)
    fromText (e.check Ending.listError)
    pure ⟨v, .array vs⟩
  | d => d.mismatch ("internally tagged enum " ++ name)

end Draft

namespace Value

def sequenceText (n : Nat) : String :=
  toString n ++ (if n = 1 then " element" else " elements") ++ " in sequence"

def record (name : String) {ts : List Type} (fs : Fields Value ts) : Value → Except Error (Row ts)
  | object ms => fs.ofMembers skipMember ms
  | array items => do
    let (row, rest) ← rowOfItems name fs.size fs items 0
    if rest.isEmpty then pure row
    else DataError.throw (.invalidLength items.length (sequenceText fs.size))
  | v => DataError.throw (.invalidType v.face name)

end Value

end EventGateway.Json
