import EventGateway.Network.Address
import EventGateway.Hub
import EventGateway.Toml.Document
import EventGateway.Toml.Writer

/-! What a configuration file says, and how it is read and written. -/

namespace EventGateway

open Network

structure Settings where
  listen : SocketAddress
  /-- As plain text, or as it is stored. -/
  secret : String
  topics : List String
  subscriberBuffer : Nat
  deriving DecidableEq, Repr

inductive SettingsFault
  | missing (name : String)
  | type (found expected : String)
  | value (found expected : String)
  | length (n : Nat) (expected : String)
  | address
  deriving DecidableEq, Repr

namespace SettingsFault

def message : SettingsFault → String
  | missing n => "missing field `" ++ n ++ "`"
  | type f e => "invalid type: " ++ f ++ ", expected " ++ e
  | value f e => "invalid value: " ++ f ++ ", expected " ++ e
  | length n e => "invalid length " ++ toString n ++ ", expected " ++ e
  | address => "invalid socket address syntax"

end SettingsFault

namespace Toml.Value

def describe : Value → String
  | string s => "string " ++ Text.quoted s
  | integer n => "integer `" ++ toString n.toInt ++ "`"
  | real x => "floating point `" ++ x.render ++ "`"
  | boolean b => "boolean `" ++ (if b then "true" else "false") ++ "`"
  | dateTime => "map"
  | array _ => "sequence"
  | table _ => "map"

end Toml.Value

namespace Settings

open Toml (Value)

def mismatch {α : Type} (v : Value) (expected : String) : Except SettingsFault α :=
  .error (.type v.describe expected)

def readText : Value → Except SettingsFault String
  | .string s => .ok s
  | v => mismatch v "a string"

def readTexts : List Value → Except SettingsFault (List String)
  | [] => .ok []
  | v :: r => do
    let s ← readText v
    let ss ← readTexts r
    pure (s :: ss)

def readTopics : Value → Except SettingsFault (List String)
  | .array vs => readTexts vs
  | v => mismatch v "a sequence"

def readCount : Value → Except SettingsFault Nat
  | .integer n =>
    if 0 ≤ n.toInt then .ok n.toInt.toNat else .error (.value (Value.integer n).describe "usize")
  | v => mismatch v "usize"

def readAddress : Value → Except SettingsFault SocketAddress
  | .string s =>
    match SocketAddress.ofText? s with
    | some a => .ok a
    | none => .error .address
  | v => mismatch v "socket address"

def defaultListen : SocketAddress := .v4 0 0 0 0 8080

def defaultTopics : List String := Topic.all.map Topic.name

structure Events where
  topics : List String := defaultTopics
  subscriberBuffer : Nat := Hub.defaultCapacity

/-- A section is a table, or an array of its values in order. Anything behind is passed over. -/
def readServer : Value → Except SettingsFault SocketAddress
  | .table ms => members defaultListen ms
  | .dateTime => .ok defaultListen
  | .array [] => .ok defaultListen
  | .array (v :: _) => readAddress v
  | v => mismatch v "struct ServerConfig"
where
  members (a : SocketAddress) : List (String × Value) → Except SettingsFault SocketAddress
  | [] => .ok a
  | (k, v) :: r =>
    if k = "listen" then do
      let a ← readAddress v
      members a r
    else members a r

def readAdmin : Value → Except SettingsFault String
  | .table ms => members none ms
  | .dateTime => .error (.missing "secret")
  | .array [] => .error (.length 0 "struct AdminConfig with 1 element")
  | .array (v :: _) => readText v
  | v => mismatch v "struct AdminConfig"
where
  members (s : Option String) : List (String × Value) → Except SettingsFault String
  | [] =>
    match s with
    | some s => .ok s
    | none => .error (.missing "secret")
  | (k, v) :: r =>
    if k = "secret" then do
      let s ← readText v
      members (some s) r
    else members s r

def readEvents : Value → Except SettingsFault Events
  | .table ms => members {} ms
  | .dateTime => .ok {}
  | .array [] => .ok {}
  | .array [t] => do
    let topics ← readTopics t
    pure { topics := topics }
  | .array (t :: n :: _) => do
    let topics ← readTopics t
    let buffer ← readCount n
    pure ⟨topics, buffer⟩
  | v => mismatch v "struct EventsConfig"
where
  members (e : Events) : List (String × Value) → Except SettingsFault Events
  | [] => .ok e
  | (k, v) :: r =>
    if k = "topics" then do
      let ts ← readTopics v
      members { e with topics := ts } r
    else if k = "subscriber_buffer" then do
      let n ← readCount v
      members { e with subscriberBuffer := n } r
    else members e r

structure Sections where
  listen : SocketAddress := defaultListen
  secret : Option String := none
  events : Events := {}

def readSections (s : Sections) : List (String × Value) → Except SettingsFault Sections
  | [] => .ok s
  | (k, v) :: r =>
    if k = "server" then do
      let a ← readServer v
      readSections { s with listen := a } r
    else if k = "admin" then do
      let t ← readAdmin v
      readSections { s with secret := some t } r
    else if k = "events" then do
      let e ← readEvents v
      readSections { s with events := e } r
    else readSections s r

def ofMembers (ms : List (String × Value)) : Except SettingsFault Settings :=
  match readSections {} ms with
  | .error e => .error e
  | .ok s =>
    match s.secret with
    | none => .error (.missing "admin")
    | some t => .ok ⟨s.listen, t, s.events.topics, s.events.subscriberBuffer⟩

end Settings

inductive ConfigTextError
  | malformed
  | fault (f : SettingsFault)
  deriving DecidableEq, Repr

namespace Settings

def ofText (s : String) : Except ConfigTextError Settings :=
  match Toml.read? s with
  | none => .error .malformed
  | some ms => (ofMembers ms).mapError .fault

/-- An array with more than one item has a line for each. -/
def writeTopics : List String → List Char
  | [] => ['[', ']']
  | [t] => '[' :: (Toml.writeString t ++ [']'])
  | ts => "[\n".toList ++ (ts.flatMap fun t => "    ".toList ++ Toml.writeString t ++ ",\n".toList) ++
      [']']

def greatestCount : Nat := 0x7fffffffffffffff

def write (s : Settings) : List Char :=
  "[server]\nlisten = ".toList ++ Toml.writeString s.listen.render ++
    "\n\n[admin]\nsecret = ".toList ++ Toml.writeString s.secret ++
    "\n\n[events]\ntopics = ".toList ++ writeTopics s.topics ++
    "\nsubscriber_buffer = ".toList ++ (toString s.subscriberBuffer).toList ++ ['\n']

def toText? (s : Settings) : Option String :=
  if s.subscriberBuffer ≤ greatestCount then some (String.ofList s.write) else none

def isHashed (s : Settings) : Bool := "$argon2".isPrefixOf s.secret

end Settings

end EventGateway
