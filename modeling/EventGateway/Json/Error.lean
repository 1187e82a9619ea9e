import EventGateway.Decimal.Shortest
import EventGateway.Text.Printable

/-! What can be wrong with a JSON text: it is not JSON, or a value is not the one wanted. -/

namespace EventGateway.Json

inductive SyntaxError
  | eofList
  | eofObject
  | eofString
  | eofValue
  | expectedColon
  | expectedListCommaOrEnd
  | expectedObjectCommaOrEnd
  | expectedIdent
  | expectedValue
  | invalidEscape
  | invalidNumber
  | numberOutOfRange
  | invalidUnicode
  | controlCharacter
  | keyMustBeString
  | loneSurrogate
  | trailingComma
  | trailingCharacters
  | unexpectedEndOfHexEscape
  | recursionLimit
  deriving DecidableEq, Repr

namespace SyntaxError

def message : SyntaxError → String
  | eofList => "EOF while parsing a list"
  | eofObject => "EOF while parsing an object"
  | eofString => "EOF while parsing a string"
  | eofValue => "EOF while parsing a value"
  | expectedColon => "expected `:`"
  | expectedListCommaOrEnd => "expected `,` or `]`"
  | expectedObjectCommaOrEnd => "expected `,` or `\x7d`"
  | expectedIdent => "expected ident"
  | expectedValue => "expected value"
  | invalidEscape => "invalid escape"
  | invalidNumber => "invalid number"
  | numberOutOfRange => "number out of range"
  | invalidUnicode => "invalid unicode code point"
  | controlCharacter => "control character (\\u0000-\\u001F) found while parsing a string"
  | keyMustBeString => "key must be a string"
  | loneSurrogate => "lone leading surrogate in hex escape"
  | trailingComma => "trailing comma"
  | trailingCharacters => "trailing characters"
  | unexpectedEndOfHexEscape => "unexpected end of hex escape"
  | recursionLimit => "recursion limit exceeded"

end SyntaxError

inductive Number
  | int (n : Int)
  | float (x : Binary64)
  deriving DecidableEq, Repr

/-- What a reader of a single value sees of it: scalars in full, containers by their sort. -/
inductive Face
  | null
  | bool (b : Bool)
  | number (n : Number)
  | string (s : String)
  | array
  | object
  deriving DecidableEq, Repr

/-- Doubles in messages are positional when their point stands in places -4 to 16. -/
def floatLayout : DecimalLayout := ⟨some (-4), some 16⟩

namespace Face

def describe : Face → String
  | null => "null"
  | bool b => "boolean `" ++ (if b then "true" else "false") ++ "`"
  | number (.int n) => "integer `" ++ toString n ++ "`"
  | number (.float x) => "floating point `" ++ x.render floatLayout ++ "`"
  | string s => "string " ++ Text.quoted s
  | array => "sequence"
  | object => "map"

end Face

inductive DataError
  | missingField (name : String)
  | duplicateField (name : String)
  | invalidType (found : Face) (expected : String)
  | invalidValue (found : Face) (expected : String)
  | invalidLength (length : Nat) (expected : String)
  | unknownVariant (name : String) (variants : List String)
  | refused (reason : String)
  deriving DecidableEq, Repr

namespace DataError

def alternatives (names : List String) : String :=
  let ticked := names.map fun n => "`" ++ n ++ "`"
  match ticked with
  | [a] => a
  | [a, b] => a ++ " or " ++ b
  | as => "one of " ++ ", ".intercalate as

def message : DataError → String
  | missingField n => "missing field `" ++ n ++ "`"
  | duplicateField n => "duplicate field `" ++ n ++ "`"
  | invalidType f e => "invalid type: " ++ f.describe ++ ", expected " ++ e
  | invalidValue f e => "invalid value: " ++ f.describe ++ ", expected " ++ e
  | invalidLength n e => "invalid length " ++ toString n ++ ", expected " ++ e
  | unknownVariant n vs => "unknown variant `" ++ n ++ "`, expected " ++ alternatives vs
  | refused r => r

end DataError

inductive Place
  | member (name : String)
  | item (index : Nat)
  deriving DecidableEq, Repr

def Place.name : Place → String
  | member n => n
  | item i => "[" ++ toString i ++ "]"

inductive Error
  | malformed (e : SyntaxError)
  | data (e : DataError)
  | inside (place : Place) (e : Error)
  deriving DecidableEq, Repr

inductive Category
  | malformed
  | data
  | eof
  deriving DecidableEq, Repr

namespace Error

def reason : Error → String
  | malformed e => e.message
  | data e => e.message
  | inside _ e => e.reason

/-- What the reader of a text says of a fault in it. It ends in the line and the column, as in
` at line 1 column 5`, or in nothing, where the fault is found behind the reading. -/
def message (e : Error) (position : String) : String := e.reason ++ position

def placedMessage (position : String) : Error → String
  | inside p e => p.name ++ ": " ++ e.placedMessage position
  | e => e.message position

def category : Error → Category
  | malformed .eofList | malformed .eofObject | malformed .eofString | malformed .eofValue => .eof
  | malformed _ => .malformed
  | data _ => .data
  | inside _ e => e.category

end Error

end EventGateway.Json
