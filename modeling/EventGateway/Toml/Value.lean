import EventGateway.Decimal.Shortest

/-! Values of a TOML text. -/

namespace EventGateway.Toml

inductive Real
  | finite (x : Binary64)
  | infinite (negative : Bool)
  | notANumber
  deriving DecidableEq, Repr

/-- Dates and times are recognised, but what they say is not kept. -/
inductive Value
  | string (s : String)
  | integer (n : Int64)
  | real (x : Real)
  | boolean (b : Bool)
  | dateTime
  | array (items : List Value)
  | table (members : List (String × Value))

namespace Real

def render : Real → String
  | finite x => x.render ⟨none, none⟩
  | infinite negative => if negative then "-inf" else "inf"
  | notANumber => "NaN"

end Real

end EventGateway.Toml
