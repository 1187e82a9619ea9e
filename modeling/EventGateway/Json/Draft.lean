import EventGateway.Json.Scalar

/-! A draft is what can be made out of a text: a tree that holds, where the text stops being JSON,
the tokens found there. The tree is built in one pass over the tokens with a stack of the
containers that are still open. -/

namespace EventGateway.Json

/-- How a container ends: closed, or where something else stands than may follow. -/
inductive Ending
  | closed
  | stopped (rest : List Token)

inductive Draft
  | null
  | bool (b : Bool)
  | word (cut : Bool)
  | number (n : NumberToken)
  | string (s : StringToken)
  | array (items : List Draft) (ending : Ending)
  | object (members : List (StringToken × Draft)) (ending : Ending)
  /-- No value stands where one has to. -/
  | absent (rest : List Token)
  /-- No colon stands between a name and its value. -/
  | uncoloned (rest : List Token)

namespace Draft

/-- An open container, newest entry first. An object's frame holds the name whose value comes. -/
inductive Frame
  | array (items : List Draft)
  | object (members : List (StringToken × Draft)) (name : StringToken)

inductive Place
  | value
  | firstItem
  | firstName
  | name (members : List (StringToken × Draft))
  | colon (members : List (StringToken × Draft)) (name : StringToken)
  | done (d : Draft)

/-- The draft of the whole text when nothing follows `d` in the innermost container. -/
def unwind : List Frame → Draft → Draft
  | [], d => d
  | .array items :: st, d => unwind st (.array (d :: items).reverse (.stopped []))
  | .object members n :: st, d => unwind st (.object ((n, d) :: members).reverse (.stopped []))

inductive Step
  | go (p : Place) (stack : List Frame)
  | halt (d : Draft)

def stepValue (t : Token) (ts : List Token) (stack : List Frame) : Step :=
  match t with
  | .null => .go (.done .null) stack
  | .bool b => .go (.done (.bool b)) stack
  | .word cut => .go (.done (.word cut)) stack
  | .number n => .go (.done (.number n)) stack
  | .string s => .go (.done (.string s)) stack
  | .openBracket => .go .firstItem stack
  | .openBrace => .go .firstName stack
  | _ => .halt (unwind stack (.absent (t :: ts)))

/-- A token after a complete value. A comma that nothing follows belongs to the ending. -/
def stepDone (d : Draft) (t : Token) (ts : List Token) : List Frame → Step
  | [] => .halt d
  | .array items :: stack =>
    match t, ts with
    | .closeBracket, _ => .go (.done (.array (d :: items).reverse .closed)) stack
    | .comma, [] => .halt (unwind stack (.array (d :: items).reverse (.stopped [.comma])))
    | .comma, .closeBracket :: r =>
      .halt (unwind stack (.array (d :: items).reverse (.stopped (.comma :: .closeBracket :: r))))
    | .comma, _ => .go .value (.array (d :: items) :: stack)
    | _, _ => .halt (unwind stack (.array (d :: items).reverse (.stopped (t :: ts))))
  | .object members n :: stack =>
    match t with
    | .closeBrace => .go (.done (.object ((n, d) :: members).reverse .closed)) stack
    | .comma => .go (.name ((n, d) :: members)) stack
    | _ => .halt (unwind stack (.object ((n, d) :: members).reverse (.stopped (t :: ts))))

def step (t : Token) (ts : List Token) (stack : List Frame) : Place → Step
  | .value => stepValue t ts stack
  | .firstItem =>
    match t with
    | .closeBracket => .go (.done (.array [] .closed)) stack
    | _ => stepValue t ts (.array [] :: stack)
  | .firstName =>
    match t with
    | .closeBrace => .go (.done (.object [] .closed)) stack
    | .string s => .go (.colon [] s) stack
    | _ => .halt (unwind stack (.object [] (.stopped (t :: ts))))
  | .name members =>
    match t with
    | .string s => .go (.colon members s) stack
    | _ => .halt (unwind stack (.object members.reverse (.stopped (.comma :: t :: ts))))
  | .colon members n =>
    match t with
    | .colon => .go .value (.object members n :: stack)
    | _ => .halt (unwind (.object members n :: stack) (.uncoloned (t :: ts)))
  | .done d => stepDone d t ts stack

def atEnd (stack : List Frame) : Place → Draft
  | .value => unwind stack (.absent [])
  | .firstItem => unwind stack (.array [] (.stopped []))
  | .firstName => unwind stack (.object [] (.stopped []))
  | .name members => unwind stack (.object members.reverse (.stopped [.comma]))
  | .colon members n => unwind (.object members n :: stack) (.uncoloned [])
  | .done d =>
    match stack with
    | [] => d
    | .array items :: stack => unwind stack (.array (d :: items).reverse (.stopped []))
    | .object members n :: stack => unwind stack (.object ((n, d) :: members).reverse (.stopped []))

def build : List Token → Place → List Frame → Draft × List Token
  | [], p, stack => (atEnd stack p, [])
  | t :: ts, .done d, [] => (d, t :: ts)
  | t :: ts, p, stack =>
    match step t ts stack p with
    | .go p stack => build ts p stack
    | .halt d => (d, [])

def ofTokens (ts : List Token) : Draft × List Token := build ts .value []

end Draft

end EventGateway.Json
