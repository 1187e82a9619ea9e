import EventGateway.Json.Value

/-! Records: named fields read from the members of an object, or from a list in their order. -/

namespace EventGateway.Json

structure Field (δ α : Type) where
  name : String
  read : δ → Except Error α
  /-- What an object without the member gives. -/
  missing : Option α := none
  /-- What a list that ends before the field gives. -/
  missingItem : Option α := none

inductive Fields (δ : Type) : List Type → Type 1
  | nil : Fields δ []
  | cons {α : Type} {ts : List Type} (f : Field δ α) (fs : Fields δ ts) : Fields δ (α :: ts)

def Row : List Type → Type
  | [] => Unit
  | α :: ts => α × Row ts

def Slots : List Type → Type
  | [] => Unit
  | α :: ts => Option α × Slots ts

namespace Fields

variable {δ : Type}

def empty : {ts : List Type} → Fields δ ts → Slots ts
  | _, nil => ()
  | _, cons _ fs => (none, fs.empty)

def size : {ts : List Type} → Fields δ ts → Nat
  | _, nil => 0
  | _, cons _ fs => fs.size + 1

def insideMember {α : Type} (name : String) (r : Except Error α) : Except Error α :=
  r.mapError (.inside (.member name))

/-- Takes in a member. One without a field is passed over, a field comes once. -/
def put (skip : δ → Except Error Unit) :
    {ts : List Type} → Fields δ ts → String → δ → Slots ts → Except Error (Slots ts)
  | _, nil, name, d, s => do
    insideMember name (skip d)
    pure s
  | _, cons f fs, name, d, (x, s) =>
    if name = f.name then
      match x with
      | some _ => DataError.throw (.duplicateField name)
      | none => do
        let a ← insideMember name (f.read d)
        pure (some a, s)
    else do
      let s ← fs.put skip name d s
      pure (x, s)

def finish : {ts : List Type} → Fields δ ts → Slots ts → Except Error (Row ts)
  | _, nil, _ => .ok ()
  | _, cons f fs, (x, s) =>
    match x <|> f.missing with
    | none => DataError.throw (.missingField f.name)
    | some a => do
      let row ← fs.finish s
      pure (a, row)

def ofMembers {ts : List Type} (fs : Fields δ ts) (skip : δ → Except Error Unit)
    (members : List (String × δ)) : Except Error (Row ts) := do
  let s ← members.foldlM (fun s m => fs.put skip m.1 m.2 s) fs.empty
  fs.finish s

end Fields

def lengthText (name : String) (n : Nat) : String :=
  name ++ " with " ++ toString n ++ " element" ++ (if n = 1 then "" else "s")

namespace Face

def text (expected : String) : Face → Except DataError String
  | string s => .ok s
  | f => .error (.invalidType f expected)

def flag : Face → Except DataError Bool
  | bool b => .ok b
  | f => .error (.invalidType f "a boolean")

/-- An integer from `low` to `high`; a double is none, whatever its value. -/
def integer (low high : Int) (expected : String) : Face → Except DataError Int
  | number (.int n) =>
    if low ≤ n ∧ n ≤ high then .ok n else .error (.invalidValue (number (.int n)) expected)
  | f => .error (.invalidType f expected)

def int64 (f : Face) : Except DataError Int64 :=
  (f.integer Int64.minValue.toInt Int64.maxValue.toInt "i64").map Int64.ofInt

/-- A count is an unsigned integer of 64 bits. -/
def count (f : Face) : Except DataError Nat :=
  (f.integer 0 (UInt64.size - 1) "usize").map Int.toNat

def optional {α : Type} (read : Face → Except DataError α) : Face → Except DataError (Option α)
  | null => .ok none
  | f => (read f).map some

end Face

def Field.scalar {δ α : Type} (face : δ → Except SyntaxError Face) (name : String)
    (read : Face → Except DataError α) : Field δ α where
  name := name
  read d := do
    let f ← fromText (face d)
    (read f).mapError .data

def Field.optional {δ α : Type} (face : δ → Except SyntaxError Face) (name : String)
    (read : Face → Except DataError α) : Field δ (Option α) :=
  { Field.scalar face name (Face.optional read) with missing := some none }

/-- A field that may be left out of an object and at the end of a list. -/
def Field.lenient {δ α : Type} (face : δ → Except SyntaxError Face) (name : String)
    (read : Face → Except DataError α) : Field δ (Option α) :=
  { Field.optional face name read with missingItem := some none }

namespace Draft

def skipMember (d : Draft) : Except Error Unit := fromText d.skip

def mismatch {α : Type} (d : Draft) (expected : String) : Except Error α := do
  let f ← fromText d.face
  DataError.throw (.invalidType f expected)

def insideItem {α : Type} (i : Nat) (r : Except Error α) : Except Error α :=
  r.mapError (.inside (.item i))

def rowOfItems (name : String) (n : Nat) (e : Ending) :
    {ts : List Type} → Fields Draft ts → List Draft → Nat → Except Error (Row ts × List Draft)
  | _, .nil, items, _ => .ok ((), items)
  | _, .cons f fs, d :: r, i => do
    let a ← insideItem i (f.read d)
    let (row, rest) ← rowOfItems name n e fs r (i + 1)
    pure ((a, row), rest)
  | _, .cons f fs, [], i => do
    insideItem i (fromText (e.check Ending.listError))
    match f.missingItem with
    | none => DataError.throw (.invalidLength i (lengthText name n))
    | some a => do
      let (row, rest) ← rowOfItems name n e fs [] (i + 1)
      pure ((a, row), rest)

def endOfList (e : Ending) (any : Bool) : List Draft → Except SyntaxError Unit
  | [] => e.check Ending.lastItemError
  | absent rest :: _ => .error (if any then .trailingCharacters else Ending.lastItemError rest)
  | _ :: _ => .error .trailingCharacters

def readMembers {ts : List Type} (fs : Fields Draft ts) (members : List (StringToken × Draft)) :
    Except Error (Slots ts) :=
  members.foldlM (fun s m => do
    let name ← fromText m.1.read
    fs.put skipMember name m.2 s) fs.empty

def record (name : String) {ts : List Type} (fs : Fields Draft ts) : Draft → Except Error (Row ts)
  | object members e => do
    let s ← readMembers fs members
    fromText (e.check (Ending.objectError members.isEmpty))
    fs.finish s
  | array items e => do
    let (row, rest) ← rowOfItems name fs.size e fs items 0
    fromText (endOfList e (0 < fs.size) rest)
    pure row
  | d => d.mismatch name

end Draft

namespace Value

def faceOf (v : Value) : Except SyntaxError Face := .ok v.face

def skipMember (_ : Value) : Except Error Unit := .ok ()

def rowOfItems (name : String) (n : Nat) :
    {ts : List Type} → Fields Value ts → List Value → Nat → Except Error (Row ts × List Value)
  | _, .nil, items, _ => .ok ((), items)
  | _, .cons f fs, v :: r, i => do
    let a ← f.read v
    let (row, rest) ← rowOfItems name n fs r (i + 1)
    pure ((a, row), rest)
  | _, .cons _ _, [], i => DataError.throw (.invalidLength i (lengthText name n))

end Value

end EventGateway.Json
