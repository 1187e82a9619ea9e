import EventGateway.Config.Directory
import EventGateway.Config.Settings
import EventGateway.Service.Basic

/-! Loading a configuration file. A secret in plain text is replaced by what it is stored as, and
the file is written again. -/

namespace EventGateway

open Network

inductive ConfigError
  | access (e : AccessError)
  | malformed
  | fault (f : SettingsFault)
  | noSecret
  | noBuffer
  | topic (e : InvalidTopic)
  | noTopics
  | notWritable
  deriving DecidableEq, Repr

namespace ConfigError

def message (path : String) : ConfigError → String
  | access e => "cannot access " ++ path ++ ": " ++ e.message
  | malformed => "malformed config"
  | fault f => "malformed config: " ++ f.message
  | noSecret => "invalid config: admin.secret is empty"
  | noBuffer => "invalid config: events.subscriber_buffer must be at least 1"
  | topic e => "events.topics: " ++ e.message
  | noTopics => "invalid config: events.topics is empty"
  | notWritable => "cannot encode config: out-of-range value"

end ConfigError

/-- Where the configuration is, and the address that holds in place of the one in it. -/
structure Loader where
  name : String
  listen : Option SocketAddress
  deriving DecidableEq

structure Loaded where
  runtime : Runtime
  registry : Registry
  subscriberBuffer : Nat

namespace Loader

/-- What stands before the last part of a path, its slash included. -/
def folderPart (path : List Char) : List Char := (path.reverse.dropWhile (· ≠ '/')).reverse

def lastPart (path : List Char) : List Char := (path.reverse.takeWhile (· ≠ '/')).reverse

/-- A name without its last extension; a dot at the front begins none. -/
def stem (name : List Char) : List Char :=
  let front := (name.reverse.dropWhile (· ≠ '.')).drop 1
  if front.isEmpty then name else front.reverse

def stagingName (path : String) : String :=
  String.ofList (folderPart path.toList ++ stem (lastPart path.toList) ++ ".toml.tmp".toList)

def override (l : Loader) (s : Settings) : Settings := { s with listen := l.listen.getD s.listen }

def read (l : Loader) (d : Directory) : Except ConfigError Settings :=
  match d.readText l.name with
  | .error e => .error (.access e)
  | .ok text =>
    match Settings.ofText text with
    | .error .malformed => .error .malformed
    | .error (.fault f) => .error (.fault f)
    | .ok s => .ok (l.override s)

def validate (s : Settings) : Except ConfigError Registry :=
  if s.secret = "" then .error .noSecret
  else if s.subscriberBuffer = 0 then .error .noBuffer
  else
    match Registry.ofNames s.topics with
    | .error e => .error (.topic e)
    | .ok r => if r.isEmpty then .error .noTopics else .ok r

/-- Writes the settings beside the file and moves them into its place. What has been done before a
fault is not taken back. -/
def persist (l : Loader) (d : Directory) (s : Settings) : Except ConfigError Unit × Directory :=
  match s.toText? with
  | none => (.error .notWritable, d)
  | some text =>
    match d.write (stagingName l.name) (Text.toUtf8 text) with
    | .error e => (.error (.access e), d)
    | .ok d =>
      match d.rename (stagingName l.name) l.name with
      | .error e => (.error (.access e), d)
      | .ok d => (.ok (), d)

def secured (hash : String → String) (s : Settings) : Settings :=
  { s with secret := hash s.secret }

def loaded (s : Settings) (r : Registry) : Loaded := ⟨⟨s.listen, s.secret⟩, r, s.subscriberBuffer⟩

def replacedLog : LogLine := ⟨.config, .info, "Replaced plaintext admin secret with its hash"⟩

/-- What the file holds, and the directory afterwards; `hash` gives the stored form of a secret. -/
def load (hash : String → String) (l : Loader) (d : Directory) :
    Except ConfigError Loaded × Directory :=
  match l.read d with
  | .error e => (.error e, d)
  | .ok s =>
    match validate s with
    | .error e => (.error e, d)
    | .ok r =>
      if s.isHashed then (.ok (loaded s r), d)
      else
        match l.persist d (secured hash s) with
        | (.error e, d) => (.error e, d)
        | (.ok (), d) => (.ok (loaded (secured hash s) r), d)

def replaces (l : Loader) (d : Directory) : Bool :=
  match l.read d with
  | .error _ => false
  | .ok s => !s.isHashed

end Loader

end EventGateway
