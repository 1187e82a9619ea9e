import EventGateway.Json.Draft

/-! Reading a draft: as a value, as the face of one, or passing over it. The first thing in the
text that is wrong for the reader decides its error. -/

namespace EventGateway.Json

inductive Value
  | null
  | bool (b : Bool)
  | number (n : Number)
  | string (s : String)
  | array (items : List Value)
  | object (members : List (String × Value))

namespace Value

def face : Value → Face
  | null => .null
  | bool b => .bool b
  | number n => .number n
  | string s => .string s
  | array _ => .array
  | object _ => .object

end Value

def SyntaxError.throw {α : Type} (e : SyntaxError) : Except Error α := .error (.malformed e)

def DataError.throw {α : Type} (e : DataError) : Except Error α := .error (.data e)

def fromText {α : Type} (r : Except SyntaxError α) : Except Error α := r.mapError .malformed

namespace Ending

def listError : List Token → SyntaxError
  | [] => .eofList
  | [.comma] => .eofValue
  | .comma :: .closeBracket :: _ => .trailingComma
  | _ => .expectedListCommaOrEnd

def skippedListError : List Token → SyntaxError
  | [] => .eofList
  | [.comma] => .eofValue
  | .comma :: .closeBracket :: _ => .expectedValue
  | _ => .expectedListCommaOrEnd

def objectError (fresh : Bool) : List Token → SyntaxError
  | [] => .eofObject
  | [.comma] => if fresh then .keyMustBeString else .eofValue
  | .comma :: .closeBrace :: _ => if fresh then .keyMustBeString else .trailingComma
  | .comma :: _ => .keyMustBeString
  | _ => if fresh then .keyMustBeString else .expectedObjectCommaOrEnd

def skippedObjectError (fresh : Bool) : List Token → SyntaxError
  | [] => .eofObject
  | [.comma] => if fresh then .keyMustBeString else .eofObject
  | .comma :: _ => .keyMustBeString
  | _ => if fresh then .keyMustBeString else .expectedObjectCommaOrEnd

def lastItemError : List Token → SyntaxError
  | [] => .eofList
  | .comma :: .closeBracket :: _ => .trailingComma
  | _ => .trailingCharacters

def check (error : List Token → SyntaxError) : Ending → Except SyntaxError Unit
  | closed => .ok ()
  | stopped rest => .error (error rest)

end Ending

namespace Draft

def wordError (cut : Bool) : SyntaxError := if cut then .eofValue else .expectedIdent

def absentError (rest : List Token) : SyntaxError :=
  if rest.isEmpty then .eofValue else .expectedValue

def uncolonedError (rest : List Token) : SyntaxError :=
  if rest.isEmpty then .eofObject else .expectedColon

/-- What a reader of a single value sees. Containers are not looked into. -/
def face : Draft → Except SyntaxError Face
  | null => .ok .null
  | bool b => .ok (.bool b)
  | word cut => .error (wordError cut)
  | number n => n.read.map .number
  | string s => s.read.map .string
  | array _ _ => .ok .array
  | object _ _ => .ok .object
  | absent rest => .error (absentError rest)
  | uncoloned rest => .error (uncolonedError rest)

mutual

def skip : Draft → Except SyntaxError Unit
  | null => .ok ()
  | bool _ => .ok ()
  | word cut => .error (wordError cut)
  | number n => n.skip
  | string s => s.skip
  | array items e => do
    skipItems items
    e.check Ending.skippedListError
  | object members e => do
    skipMembers members
    e.check (Ending.skippedObjectError members.isEmpty)
  | absent rest => .error (absentError rest)
  | uncoloned rest => .error (uncolonedError rest)

def skipItems : List Draft → Except SyntaxError Unit
  | [] => .ok ()
  | d :: r => do
    skip d
    skipItems r

def skipMembers : List (StringToken × Draft) → Except SyntaxError Unit
  | [] => .ok ()
  | (n, d) :: r => do
    n.skip
    skip d
    skipMembers r

end

/-- Containers nest at most this deep in a value that is read. -/
def depthLimit : Nat := 127

mutual

/-- The value, whose containers are the `depth`-th of the text and deeper. -/
def value (depth : Nat) : Draft → Except SyntaxError Value
  | null => .ok .null
  | bool b => .ok (.bool b)
  | word cut => .error (wordError cut)
  | number n => n.read.map .number
  | string s => s.read.map .string
  | array items e =>
    if depthLimit < depth then .error .recursionLimit
    else do
      let vs ← itemValues (depth + 1) items
      e.check Ending.listError
      pure (.array vs)
  | object members e =>
    if depthLimit < depth then .error .recursionLimit
    else do
      let ms ← memberValues (depth + 1) members
      e.check (Ending.objectError members.isEmpty)
      pure (.object ms)
  | absent rest => .error (absentError rest)
  | uncoloned rest => .error (uncolonedError rest)

def itemValues (depth : Nat) : List Draft → Except SyntaxError (List Value)
  | [] => .ok []
  | d :: r => do
    let v ← value depth d
    let vs ← itemValues depth r
    pure (v :: vs)

def memberValues (depth : Nat) :
    List (StringToken × Draft) → Except SyntaxError (List (String × Value))
  | [] => .ok []
  | (n, d) :: r => do
    let name ← n.read
    let v ← value depth d
    let ms ← memberValues depth r
    pure ((name, v) :: ms)

end

end Draft

/-- Reads a whole text: the reader has its say before anything after the value does. -/
def readGlyphs {α : Type} (reader : Draft → Except Error α) (s : List Glyph) : Except Error α := do
  let (d, rest) := Draft.ofTokens (tokens s)
  let a ← reader d
  if rest.isEmpty then pure a else SyntaxError.throw .trailingCharacters

def readText {α : Type} (reader : Draft → Except Error α) (s : String) : Except Error α :=
  readGlyphs reader (glyphs s)

end EventGateway.Json
