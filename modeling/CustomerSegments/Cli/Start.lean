import CustomerSegments.Cli.Arguments
import CustomerSegments.Config.Load
import CustomerSegments.Net.Address
import CustomerSegments.Redis.Connect

namespace CustomerSegments

/-- A host that is no address. -/
inductive ListenError where
  | badAddress
deriving DecidableEq, Repr

def ListenError.message : ListenError → String
  | badAddress => "invalid IP address syntax"

namespace Settings

def hostAddress (s : Settings) : Except ListenError Net.Address :=
  match Net.Address.ofText? s.api.host with
  | some address => .ok address
  | none => .error .badAddress

/-- Where requests are served. -/
def apiAddress (s : Settings) : Except ListenError (Net.Address × UInt16) :=
  s.hostAddress.map fun address => (address, s.api.httpPort)

/-- Where measurements are served, if they are. -/
def metricsAddress (s : Settings) : Except ListenError (Option (Net.Address × UInt16)) :=
  if s.metrics.enabled then s.hostAddress.map fun address => some (address, s.metrics.port)
  else .ok none

end Settings

namespace Cli

inductive Level where
  | info
  | warn
deriving DecidableEq, Repr

def Level.name : Level → String
  | info => "INFO"
  | warn => "WARN"

/-- A line of the log. -/
structure LogLine where
  level : Level
  message : String
  fields : List (String × Json)

/-- Why a run that has begun ends. -/
inductive Failure where
  | store (e : Redis.ConnectError)
  | listen (e : ListenError)
deriving DecidableEq

/-- The words for a failure, where there are any. -/
def Failure.message? : Failure → Option String
  | store e => e.message?
  | listen e => some e.message

/-- How a run goes on or ends. -/
inductive Ending where
  | stopped (stop : Stop)
  | failed (failure : Failure)
  /-- the node is ready to listen -/
  | listening (settings : Settings) (layout : Option Redis.Layout)

/-- A run up to the point where it ends or listens. -/
structure Run where
  log : List LogLine
  ending : Ending

/-- The system around a run: the variables, the files, and what connecting to a server gives. -/
structure Host where
  environment : List (String × String)
  file : String → Config.SettingsFile
  connect : RedisSettings → Except Redis.ConnectError Redis.Layout

/-- Opens the store that the settings name. -/
def openStore (host : Host) (s : Settings) : Except Redis.ConnectError (Option Redis.Layout) :=
  match s.store.backend with
  | .memory => .ok none
  | .redis => (host.connect s.redis).map some

/-- The run behind the log line on the settings. -/
def startStore (host : Host) (s : Settings) : Run :=
  match openStore host s with
  | .error e => ⟨[], .failed (.store e)⟩
  | .ok layout =>
    let metrics : List LogLine :=
      match s.metricsAddress with
      | .ok _ => []
      | .error e =>
        [⟨.warn, "Failed to start metrics exporter", [("error", .string e.message)]⟩]
    let ready : LogLine := ⟨.info, "Audience Express is ready to serve traffic", []⟩
    let ending : Ending :=
      match s.apiAddress with
      | .ok _ => .listening s layout
      | .error e => .failed (.listen e)
    ⟨metrics ++ [ready], ending⟩

/-- Starts a node. Settings that do not load give way to the defaults, and the command line wins
over all others. -/
def start (host : Host) (words : List String) : Run :=
  match Arguments.parse words (fun name => host.environment.lookup name) with
  | .error stop => ⟨[], .stopped stop⟩
  | .ok arguments =>
    let starting : LogLine := ⟨.info, "Audience Express starting up", []⟩
    let (loading, loaded) : List LogLine × Settings :=
      match Config.load (arguments.config.map host.file) host.environment with
      | .ok s => ([], s)
      | .error e =>
        ([⟨.warn, "Failed to load config, using defaults", [("error", .string e.message)]⟩], {})
    let s := arguments.override loaded
    let configured : LogLine :=
      ⟨.info, "Configuration loaded", [("node_id", .string s.nodeId),
        ("http_port", .ofNat s.api.httpPort.toNat), ("store", .string s.store.backend.title)]⟩
    let rest := startStore host s
    ⟨starting :: loading ++ configured :: rest.log, rest.ending⟩

/-- The exit code of a run that ends. -/
def Ending.exitCode : Ending → Option Nat
  | stopped .usage => some 2
  | stopped _ => some 0
  | failed _ => some 1
  | listening _ _ => none

/-- What a run that stops at its command line says. -/
def Stop.output : Stop → Option String
  | help => some "Customer segmentation and audience sizing service"
  | version => some "audience-express 0.1.0"
  | usage => none

end Cli

end CustomerSegments
