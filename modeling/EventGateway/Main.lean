import EventGateway.Cli.Program
import EventGateway.Secret.Stored
import Std.Http

/-! The command line: files, signals and connections around the program. A request cannot become
an event stream here. -/

namespace EventGateway.Cli

open Std.Async

def readEnvironment : IO (String → Option String) := do
  let found ← [Arguments.configVariable, logVariable].mapM fun n => do
    pure (n, ← IO.getEnv n)
  pure fun n => (found.lookup n).join

def readSurroundings : IO Surroundings := do
  let environment ← readEnvironment
  let home ← IO.currentDir
  let salt ← IO.getRandomBytes 16
  pure {
    environment := environment
    home := home.toString
    bind := fun _ => .ok ()
    hash := fun s => (Secret.Stored.ofSecret s salt.toList).render
    positions := .silent }

def lookAt (name path : String) : IO Directory := do
  try
    let bytes ← IO.FS.readBinFile path
    pure ⟨[(name, .file bytes.toList)]⟩
  catch e =>
    match e with
    | .noFileOrDirectory .. => pure .empty
    | _ => pure ⟨[(name, .folder)]⟩

/-- Writes the file again if it has changed: beside the old one first, and then over it. -/
def keep (name path : String) (old new : Directory) : IO Unit := do
  if old.find? name ≠ new.find? name then
    if let some (.file bytes) := new.find? name then
      let staging := Loader.stagingName path
      IO.FS.writeBinFile staging ⟨bytes.toArray⟩
      IO.FS.rename staging path

def printLog (w : Surroundings) (lines : List LogLine) : IO Unit := do
  let filter := LogFilter.ofSetting (w.environment logVariable)
  for l in lines.filter filter.admits do
    IO.println (l.level.name ++ " " ++ l.source.name ++ ": " ++ l.message)

def finish (e : Ending) : IO UInt32 := do
  IO.eprint e.stderr
  pure e.code.toUInt32

def nativeAddress : Network.SocketAddress → Std.Net.SocketAddress
  | .v4 a b c d port => .v4 ⟨.ofParts a b c d, port⟩
  | .v6 groups _ port =>
    let g (i : Nat) := groups.getD i 0
    .v6 ⟨.ofParts (g 0) (g 1) (g 2) (g 3) (g 4) (g 5) (g 6) (g 7), port⟩

structure Desk where
  program : Std.Mutex Listening

def readRequest (r : Std.Http.Request Std.Http.Body.Stream) : Async Http.Request := do
  let body : ByteArray ← r.body.readAll
  pure {
    method := Http.Method.ofName (toString r.line.method)
    target := toString r.line.uri
    headers := r.line.headers.toList.map fun h => ⟨h.1.value, Text.toUtf8 h.2.value⟩
    body := body.toList }

def headerOf (name : Std.Http.Header.Name) (value : Option String)
    (b : Std.Http.Response.Builder) : Std.Http.Response.Builder :=
  match value.bind Std.Http.Header.Value.ofString? with
  | some v => b.header name v
  | none => b

def respond (r : Http.Response) : Async (Std.Http.Response Std.Http.Body.Full) :=
  let status := (Std.Http.Status.ofCode none r.status.toUInt16).getD .internalServerError
  (headerOf (.mk "content-type") r.contentType
    (headerOf (.mk "allow") r.allow (Std.Http.Response.withStatus status))).fromBytes r.body.toUTF8

def Desk.answer (d : Desk) (r : Http.Request) : BaseIO Http.Response :=
  d.program.atomically do
    let s ← get
    let p := s.gateway.handle Secret.opens r
    set { s with gateway := p.2 }
    pure p.1

instance : Std.Http.Server.Handler Desk where
  ResponseBody := Std.Http.Body.Full
  responseBodyInstance := inferInstance
  onRequest d r := do
    let request ← readRequest r
    respond (← d.answer request)

def nextSignal (waiters : List (Signal × Signal.Waiter)) : Async Signal :=
  Selectable.one (waiters.map fun p => .case p.2.selector fun _ => pure p.1).toArray

def Desk.happen (d : Desk) (w : Surroundings) (old : Directory) (signal : Signal) :
    BaseIO (Trace (Except Ending Listening)) :=
  d.program.atomically do
    let t := Cli.happen w (← get) old (.signal signal)
    if let .ok s := t.state then set s
    pure t

partial def attend (w : Surroundings) (name path : String) (d : Desk)
    (waiters : List (Signal × Signal.Waiter)) : IO UInt32 := do
  let signal ← (nextSignal waiters).block
  let old ← lookAt name path
  let t ← d.happen w old signal
  keep name path old t.directory
  printLog w t.log
  match t.state with
  | .error e => finish e
  | .ok _ => attend w name path d waiters

def openWaiters : IO (List (Signal × Signal.Waiter)) :=
  [(.hangUp, .sighup), (.terminate, .sigterm), (.interrupt, .sigint)].mapM fun q => do
    pure (q.1, ← Signal.Waiter.mk q.2 true)

/-- Error codes of sockets come with their sign turned. -/
def bindFault : IO.Error → BindFault
  | .unsupportedOperation code details =>
    if 0 - code = 99 then .notLocal else .other details
  | e => .other (toString e)

def tryListen (a : Network.SocketAddress) (d : Desk) : IO (Except BindFault Unit) := do
  try
    discard (Std.Http.Server.serve (nativeAddress a) d).block
    pure (.ok ())
  catch e => pure (.error (bindFault e))

def listen (w : Surroundings) (path : String) (p : Prepared) : IO UInt32 := do
  let waiters ← openWaiters
  let d : Desk := ⟨← Std.Mutex.new p.listening⟩
  let q := p.settle (← tryListen p.loaded.runtime.listen d)
  printLog w q.1
  match q.2 with
  | .error e => finish e
  | .ok _ => attend w p.loader.name path d waiters

def launch (w : Surroundings) (a : Arguments) : IO UInt32 := do
  let name := Directory.nameOf w.home a.config
  let old ← lookAt name a.config
  let t := prepare w a old
  keep name a.config old t.directory
  printLog w t.log
  match t.state with
  | .error e => finish e
  | .ok p => listen w a.config p

def mainOf (arguments : List String) : IO UInt32 := do
  let w ← readSurroundings
  match Arguments.read w.environment arguments with
  | .ok a => launch w a
  | .error e =>
    let r := stopped w .empty e
    for l in r.stdout do IO.println l
    match r.ending with
    | some e => finish e
    | none => pure 0

end EventGateway.Cli

def main (arguments : List String) : IO UInt32 := EventGateway.Cli.mainOf arguments
