import EventGateway.Admin.Refusal
import EventGateway.Filter

/-! Requests for an event stream: who is to listen on it, as the query says, and whether the
connection can become one. -/

namespace EventGateway

open Http

namespace Identity

def names : List String := ["sessionId", "userId"]

def ofQuery (query : String) : Except Refusal Filter :=
  let pairs := Text.Form.read query
  match Text.Form.repeated? names pairs with
  | some f => .error (.query f)
  | none => .ok ⟨pairs.lookup "sessionId", pairs.lookup "userId"⟩

/-- A listener without a session gets a fresh one. -/
def settle (fresh : String) (f : Filter) : Filter :=
  ⟨some ((nonEmpty? f.sessionId).getD fresh), nonEmpty? f.userId⟩

end Identity

namespace Upgrade

def mentions (r : Request) (name word : String) : Bool :=
  match (r.header? name).bind Text.ofUtf8? with
  | none => false
  | some v => v.toLower.contains word

def equals (r : Request) (name word : String) : Bool :=
  match (r.header? name).bind Text.ofUtf8? with
  | none => false
  | some v => v.toLower = word

def fault? (r : Request) : Option UpgradeFault :=
  if r.method ≠ .get then some .method
  else if !mentions r "connection" "upgrade" then some .connection
  else if !equals r "upgrade" "websocket" then some .upgrade
  else if (r.header? "sec-websocket-key").isNone then some .key
  else if !equals r "sec-websocket-version" "13" then some .version
  else none

end Upgrade

end EventGateway
