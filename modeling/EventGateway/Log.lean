/-! Log lines, without their fields. -/

namespace EventGateway

inductive Level
  | error
  | warn
  | info
  | debug
  | trace
  deriving DecidableEq, Repr

namespace Level

def all : List Level := [error, warn, info, debug, trace]

def name : Level → String
  | error => "ERROR"
  | warn => "WARN"
  | info => "INFO"
  | debug => "DEBUG"
  | trace => "TRACE"

/-- How much a level lets through: errors always rank first. -/
def rank : Level → Nat
  | error => 1
  | warn => 2
  | info => 3
  | debug => 4
  | trace => 5

end Level

inductive LogSource
  | main
  | config
  | listener
  | lifecycle
  | hub
  | publisher
  deriving DecidableEq, Repr

def LogSource.name : LogSource → String
  | main => "wsnotify_server"
  | config => "wsnotify_server::config"
  | listener => "wsnotify_server::server"
  | lifecycle => "wsnotify_server::shutdown"
  | hub => "wsnotify_core::events::hub"
  | publisher => "wsnotify_core::events::publisher"

structure LogLine where
  source : LogSource
  level : Level
  message : String
  deriving DecidableEq, Repr

end EventGateway
