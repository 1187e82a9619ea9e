import EventGateway.Cli.Switch
import EventGateway.Network.Address

/-! Reading the command line. A value that comes as an argument of its own is looked at when the
next switch begins, or at the end. -/

namespace EventGateway.Cli

open Network

structure Arguments where
  config : String
  listen : Option SocketAddress
  deriving DecidableEq

inductive Stop
  | help
  | version
  | fault (f : ArgumentFault)
  deriving DecidableEq, Repr

structure Reader where
  config : Option String := none
  listen : Option SocketAddress := none
  /-- The switches that are set, in the order of their setting. -/
  used : List Switch := []
  /-- The last switch, when it is not set yet, with its value once that has come. -/
  pending : Option (Switch × Option String) := none

namespace Reader

def fail {α : Type} (f : ArgumentFault) : Except Stop α := .error (.fault f)

def readConfig (value : String) : Except Stop String :=
  if value = "" then fail (.noValue .config) else .ok value

def readListen (value : String) : Except Stop SocketAddress :=
  match SocketAddress.ofText? value with
  | some a => .ok a
  | none => fail (.address value)

def set (r : Reader) (s : Switch) (value : String) : Except Stop Reader :=
  if s ∈ r.used then fail (.repeated s)
  else
    let r := { r with used := r.used ++ [s] }
    match s with
    | .config => (readConfig value).map fun c => { r with config := some c }
    | .listen => (readListen value).map fun a => { r with listen := some a }
    | .help => .error .help
    | .version => .error .version

def settle (r : Reader) : Except Stop Reader :=
  match r.pending with
  | none => .ok r
  | some (s, none) => fail (.noValue s)
  | some (s, some v) => { r with pending := none }.set s v

def isWaiting (r : Reader) : Bool :=
  match r.pending with
  | some (_, none) => true
  | _ => false

def supply (r : Reader) (value : String) : Reader :=
  { r with pending := r.pending.map fun p => (p.1, some value) }

def take (r : Reader) (s : Switch) (attached : Option String) : Except Stop Reader :=
  match s.takesValue, attached with
  | true, some v => r.settle.bind (·.set s v)
  | true, none => r.settle.map fun r => { r with pending := some (s, none) }
  | false, some v => fail (.unexpectedValue v s r.used)
  | false, none => r.settle.bind (·.set s "")

def refuse {α : Type} (argument : String) : Except Stop α := fail (.unexpected argument none [])

/-- What stands before the first equals sign, and what is behind it. -/
def splitEquals (cs : List Char) : List Char × Option String :=
  match cs.dropWhile (· ≠ '=') with
  | _ :: v => (cs.takeWhile (· ≠ '='), some (String.ofList v))
  | [] => (cs, none)

def withSimilar (used : List Switch) : Option Switch → List Switch
  | some s => if s ∈ used then used else used ++ [s]
  | none => used

def readLong (r : Reader) (cs : List Char) : Except Stop Reader :=
  let (name, attached) := splitEquals cs
  match Switch.ofName? name with
  | some s => r.take s attached
  | none =>
    let similar := Switch.similar? (String.ofList name)
    fail (.unexpected ("--" ++ String.ofList name) similar (withSimilar r.used similar))

/-- What is attached to a letter. A switch without a value ends the reading, whatever follows. -/
def attachedTo (s : Switch) (rest : List Char) : Option String :=
  match s.takesValue, rest with
  | true, '=' :: v => some (String.ofList v)
  | true, c :: v => some (String.ofList (c :: v))
  | _, _ => none

def readShort (r : Reader) (c : Char) (rest : List Char) : Except Stop Reader :=
  match Switch.ofLetter? c with
  | some s => r.take s (attachedTo s rest)
  | none => refuse (String.ofList ['-', c])

def readOne (r : Reader) (argument : String) : Except Stop Reader :=
  match argument.toList with
  | '-' :: '-' :: cs => r.readLong cs
  | '-' :: c :: rest => r.readShort c rest
  | _ => if r.isWaiting then .ok (r.supply argument) else refuse argument

/-- Two dashes alone end the switches, and nothing else is expected. -/
def readAll (r : Reader) : List String → Except Stop Reader
  | [] => r.settle
  | "--" :: [] => r.settle
  | "--" :: a :: _ => refuse a
  | a :: rest =>
    match r.readOne a with
    | .error e => .error e
    | .ok r => r.readAll rest

end Reader

namespace Arguments

def configVariable : String := "WSNOTIFY_CONFIG"

def defaultConfig : String := "./wsnotify-config.toml"

def read (environment : String → Option String) (arguments : List String) :
    Except Stop Arguments :=
  match ({} : Reader).readAll arguments with
  | .error e => .error e
  | .ok r =>
    match r.config, environment configVariable with
    | some c, _ => .ok ⟨c, r.listen⟩
    | none, some c => (Reader.readConfig c).map fun c => ⟨c, r.listen⟩
    | none, none => .ok ⟨defaultConfig, r.listen⟩

def help (environment : String → Option String) : List String :=
  ["wsnotify - server-push event notification gateway",
    "",
    usage [],
    "",
    "Options:",
    "  -c, --config <CONFIG>  TOML configuration file [env: " ++ configVariable ++ "=" ++
      (environment configVariable).getD "" ++ "] [default: " ++ defaultConfig ++ "]",
    "  -l, --listen <LISTEN>  Listen address, overriding `server.listen`",
    "  -h, --help             Print help",
    "  -V, --version          Print version"]

end Arguments

end EventGateway.Cli
