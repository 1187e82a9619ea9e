import EventGateway.Cli.Arguments
import EventGateway.Config.Load
import EventGateway.Log.Filter
import EventGateway.Service.Gateway

/-! The life of the program: it reads its arguments and its configuration, listens, and then lives
on signals until one of them ends it. -/

namespace EventGateway.Cli

open Network

inductive BindFault
  | notLocal
  | other (reason : String)
  deriving DecidableEq, Repr

def BindFault.message : BindFault → String
  | notLocal => "Cannot assign requested address (os error 99)"
  | other r => r

structure Surroundings where
  environment : String → Option String
  /-- The path of the directory that it is started in. -/
  home : String
  bind : SocketAddress → Except BindFault Unit
  hash : String → String
  positions : Positions

inductive Signal
  | hangUp
  | terminate
  | interrupt
  deriving DecidableEq, Repr

inductive Happening
  | write (bytes : List UInt8)
  | remove
  | signal (s : Signal)

structure Listening where
  loader : Loader
  gateway : Gateway

structure Trace (α : Type) where
  state : α
  log : List LogLine
  directory : Directory

structure Ending where
  code : Nat
  stderr : String

def ownKinds : List Kind := [.configurationChanged]

def startLog : LogLine := ⟨.main, .info, "Starting wsnotify-server v" ++ Answer.version⟩

def closedLog : LogLine := ⟨.hub, .info, "Event hub closed"⟩

def report (message : String) (cause : Option String) : String :=
  "Error: " ++ message ++ "\n" ++
    match cause with
    | none => ""
    | some c => "\nCaused by:\n    " ++ c.replace "\n" "\n    " ++ "\n"

def causeOf : ConfigError → Option String
  | .access e => some e.message
  | .topic e => some e.message
  | _ => none

def loadLog {α : Type} (l : Loader) (d : Directory) : Except ConfigError α → List LogLine
  | .ok _ => if l.replaces d then [Loader.replacedLog] else []
  | .error _ => []

def stopLog (g : Gateway) : List LogLine :=
  closedLog ::
    (if g.service.tasks.live = 0 then []
      else [⟨.main, .warn, "Shutting down with tasks that never reported a terminal status"⟩]) ++
    [⟨.main, .info, "Stopped"⟩]

structure Prepared where
  loader : Loader
  loaded : Loaded
  positions : Positions

def checkTopics (c : Loaded) : List LogLine × Except Ending Unit :=
  match c.registry.ensureKinds ownKinds with
  | .error e =>
    ([⟨.main, .error, "A topic the server publishes is disabled"⟩],
      .error ⟨1, report e.message none⟩)
  | .ok () => ([⟨.main, .info, "Topic registry initialized"⟩], .ok ())

def prepare (w : Surroundings) (a : Arguments) (d : Directory) : Trace (Except Ending Prepared) :=
  let l : Loader := ⟨Directory.nameOf w.home a.config, a.listen⟩
  let p := l.load w.hash d
  match p.1 with
  | .error e =>
    ⟨.error ⟨1, report (e.message a.config) (causeOf e)⟩,
      [startLog, ⟨.main, .error, "Cannot load configuration"⟩], p.2⟩
  | .ok c =>
    let q := checkTopics c
    ⟨q.2.map fun _ => ⟨l, c, w.positions⟩,
      startLog :: loadLog l d p.1 ++ ⟨.main, .info, "Configuration loaded"⟩ :: q.1, p.2⟩

def Prepared.listening (p : Prepared) : Listening :=
  let c := p.loaded
  ⟨p.loader, .start (.start c.runtime c.registry p.positions c.subscriberBuffer)⟩

def Prepared.settle (p : Prepared) (answer : Except BindFault Unit) :
    List LogLine × Except Ending Listening :=
  match answer with
  | .ok () => ([⟨.listener, .info, "Listening"⟩], .ok p.listening)
  | .error e => (stopLog p.listening.gateway, .error ⟨1, report e.message none⟩)

def start (w : Surroundings) (a : Arguments) (d : Directory) : Trace (Except Ending Listening) :=
  let t := prepare w a d
  match t.state with
  | .error e => ⟨.error e, t.log, t.directory⟩
  | .ok p =>
    let q := p.settle (w.bind p.loaded.runtime.listen)
    ⟨q.2, t.log ++ q.1, t.directory⟩

def appliedLog (s : Listening) (c : Loaded) (applied : List LogLine) : List LogLine :=
  (if c.registry.same s.gateway.service.registry then []
    else [⟨.lifecycle, .warn, "events.topics changed; restart to apply"⟩]) ++
    applied ++ [⟨.lifecycle, .info, "Config reloaded"⟩]

/-- Loads the configuration again and puts it in, with what the service logs of it. The streams
have not sent on anything yet. -/
def attempt (hash : String → String) (s : Listening) (d : Directory) :
    Except ConfigError (Loaded × List LogLine) × Listening × Directory :=
  let p := s.loader.load hash d
  match p.1 with
  | .error e => (.error e, s, p.2)
  | .ok c =>
    let q := s.gateway.service.reload c.runtime
    (.ok (c, q.1), { s with gateway := { s.gateway with service := q.2 } }, p.2)

/-- The topics and the buffer of a running program stay as they are. -/
def reload (w : Surroundings) (s : Listening) (d : Directory) : Trace Listening :=
  let p := attempt w.hash s d
  let begun := ⟨.lifecycle, .info, "Reloading config"⟩ :: loadLog s.loader d p.1
  match p.1 with
  | .error _ =>
    ⟨s, begun ++ [⟨.lifecycle, .error, "Config reload failed, keeping the current config"⟩], p.2.2⟩
  | .ok (c, applied) =>
    ⟨{ p.2.1 with gateway := p.2.1.gateway.settle }, begun ++ appliedLog s c applied, p.2.2⟩

def stop (s : Listening) : List LogLine :=
  ⟨.lifecycle, .info, "Shutting down"⟩ :: stopLog s.gateway

def happen (w : Surroundings) (s : Listening) (d : Directory) :
    Happening → Trace (Except Ending Listening)
  | .write bytes => ⟨.ok s, [], d.put s.loader.name (.file bytes)⟩
  | .remove => ⟨.ok s, [], d.remove s.loader.name⟩
  | .signal .hangUp =>
    let t := reload w s d
    ⟨.ok t.state, t.log, t.directory⟩
  | .signal _ => ⟨.error ⟨0, ""⟩, stop s, d⟩

def live (w : Surroundings) (t : Trace (Except Ending Listening)) :
    List Happening → Trace (Except Ending Listening)
  | [] => t
  | h :: hs =>
    match t.state with
    | .error _ => t
    | .ok s =>
      let u := happen w s t.directory h
      live w ⟨u.state, t.log ++ u.log, u.directory⟩ hs

structure Run where
  ending : Option Ending
  log : List LogLine
  stdout : List String
  directory : Directory

def stopped (w : Surroundings) (d : Directory) : Stop → Run
  | .help => ⟨some ⟨0, ""⟩, [], Arguments.help w.environment, d⟩
  | .version => ⟨some ⟨0, ""⟩, [], [programName ++ " " ++ Answer.version], d⟩
  | .fault f => ⟨some ⟨2, f.message⟩, [], [], d⟩

def logVariable : String := "RUST_LOG"

def ofTrace (w : Surroundings) (t : Trace (Except Ending Listening)) : Run :=
  let shown := t.log.filter (LogFilter.ofSetting (w.environment logVariable)).admits
  match t.state with
  | .error e => ⟨some e, shown, [], t.directory⟩
  | .ok _ => ⟨none, shown, [], t.directory⟩

def run (w : Surroundings) (arguments : List String) (d : Directory) (hs : List Happening) : Run :=
  match Arguments.read w.environment arguments with
  | .error e => stopped w d e
  | .ok a => ofTrace w (live w (start w a d) hs)

end EventGateway.Cli
