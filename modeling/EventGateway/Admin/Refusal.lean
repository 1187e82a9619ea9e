import EventGateway.Http.Message
import EventGateway.Tasks

/-! Why a request is refused, and what the answer says. -/

namespace EventGateway

open Http

inductive UpgradeFault
  | method
  | connection
  | upgrade
  | key
  | version
  /-- All is there, but nothing can take the connection over. -/
  | connectionState
  deriving DecidableEq, Repr

inductive Refusal
  | noRoute
  | method (allowed : List Method)
  | noSecret
  | unreadableSecret
  | wrongSecret
  | path (parameter : String)
  | query (field : String)
  | notJson
  | bodyTooLong
  | body (e : Json.Error)
  | upgrade (f : UpgradeFault)
  | task (e : TaskError)
  | publish (e : PublishError)
  deriving DecidableEq, Repr

namespace UpgradeFault

def status : UpgradeFault → Nat
  | method => 405
  | connectionState => 426
  | _ => 400

def message : UpgradeFault → String
  | method => "Request method must be `GET`"
  | connection => "Connection header did not include 'upgrade'"
  | upgrade => "`Upgrade` header did not include 'websocket'"
  | key => "`Sec-WebSocket-Key` header missing"
  | version => "`Sec-WebSocket-Version` header did not include '13'"
  | connectionState =>
    "WebSocket request couldn't be upgraded since no upgrade state was present"

end UpgradeFault

namespace Refusal

/-- A failed task operation; what publishing refused is told apart. -/
def ofTask : TaskError → Refusal
  | .publish e => publish e
  | e => task e

def taskStatus : TaskError → Nat
  | .stale _ _ => 409
  | .unknown _ => 404
  | _ => 400

def publishResponse : PublishError → Response
  | .unknownTopic t => Response.text 422 (PublishError.unknownTopic t).message
  | .delivery .closed => Response.text 503 "event delivery failed"
  | .delivery (.rejected _) => Response.text 502 "event delivery failed"

/-- A body of the wrong type is told apart from one that is no JSON. -/
def bodyResponse (e : Json.Error) (position : String) : Response :=
  match e.category with
  | .data => Response.text 422
      ("Failed to deserialize the JSON body into the target type: " ++ e.placedMessage position)
  | _ => Response.text 400
      ("Failed to parse the request body as JSON: " ++ e.placedMessage position)

/-- `position` is what the reader of the body says of where a fault is. -/
def response (position : Json.Error → String) : Refusal → Response
  | noRoute => Response.empty 404
  | method allowed =>
    { status := 405, allow := some (",".intercalate (allowed.map Method.name)) }
  | noSecret => Response.text 401 "missing Wsnotify-Admin-Authorization header"
  | unreadableSecret => Response.text 400 "invalid header format"
  | wrongSecret => Response.text 401 "invalid admin secret"
  | path p => Response.text 400 ("Invalid URL: Invalid UTF-8 in `" ++ p ++ "`")
  | query f =>
    Response.text 400 ("Failed to deserialize query string: duplicate field `" ++ f ++ "`")
  | notJson => Response.text 415 "Expected request with `Content-Type: application/json`"
  | bodyTooLong => Response.text 413 "Failed to buffer the request body: length limit exceeded"
  | body e => bodyResponse e (position e)
  | upgrade f => Response.text f.status f.message
  | task e => Response.text (taskStatus e) e.message
  | publish e => publishResponse e

end Refusal

end EventGateway
