import CustomerSegments.Config.Settings
import CustomerSegments.Decimal.Digits

namespace CustomerSegments.Cli

/-- What the command line and the variables bound to it ask for. -/
structure Arguments where
  config : Option String
  nodeId : Option String
  httpPort : Option UInt16
  store : Option Backend
deriving DecidableEq

/-- Why a command line leads to no run. -/
inductive Stop where
  | help
  | version
  | usage
deriving DecidableEq, Repr

/-- The options that take a value. -/
inductive Opt where
  | config
  | nodeId
  | httpPort
  | store
deriving DecidableEq, Repr

namespace Opt

def ofName? : String → Option Opt
  | "config" => some config
  | "node-id" => some nodeId
  | "http-port" => some httpPort
  | "store" => some store
  | _ => none

/-- The variable that stands in for an option. -/
def variableName : Opt → String
  | config => "AUDIENCE_EXPRESS_CONFIG"
  | nodeId => "AUDIENCE_EXPRESS__NODE_ID"
  | httpPort => "AUDIENCE_EXPRESS__API__HTTP_PORT"
  | store => "AUDIENCE_EXPRESS__STORE__BACKEND"

def all : List Opt := [config, nodeId, httpPort, store]

end Opt

namespace Arguments

def none : Arguments := ⟨.none, .none, .none, .none⟩

def has (a : Arguments) : Opt → Bool
  | .config => a.config.isSome
  | .nodeId => a.nodeId.isSome
  | .httpPort => a.httpPort.isSome
  | .store => a.store.isSome

/-- A port: an integer with any number of zeros in front. -/
def port? (value : String) : Option UInt16 :=
  (Decimal.int64? value.toList).bind fun n =>
    if 0 ≤ n ∧ n ≤ 65535 then some (.ofNat n.toNat) else .none

/-- Takes the value of an option; one that was given before, or a bad value, is a mistake. -/
def take (a : Arguments) (option : Opt) (value : String) : Except Stop Arguments :=
  if a.has option then .error .usage
  else
    match option with
    | .config => .ok { a with config := some value }
    | .nodeId => .ok { a with nodeId := some value }
    | .httpPort =>
      match port? value with
      | some port => .ok { a with httpPort := some port }
      | .none => .error .usage
    | .store =>
      match Backend.parse value with
      | .ok backend => .ok { a with store := some backend }
      | .error _ => .error .usage

/-- A word that cannot be the value of the option before it. -/
def isFlag (word : String) : Bool :=
  word.startsWith "-" && word ≠ "-"

/-- The outcome of short flags: the first one counts. -/
def shortFlags : List Char → Stop
  | 'h' :: _ => .help
  | 'V' :: _ => .version
  | _ => .usage

/-- Reads the words of a command line from left to right; the first mistake or the first request
for help or the version ends the reading. -/
def read (a : Arguments) : List String → Except Stop Arguments
  | [] => .ok a
  | ["--"] => .ok a
  | word :: rest =>
    match word.toList with
    | '-' :: '-' :: name =>
      let key := String.ofList (name.takeWhile (· ≠ '='))
      match Opt.ofName? key, name.dropWhile (· ≠ '='), rest with
      | some option, '=' :: value, rest => do
        (← a.take option (String.ofList value)).read rest
      | some option, _, value :: rest =>
        if isFlag value then .error .usage
        else do (← a.take option value).read rest
      | .none, [], _ =>
        if key = "help" then .error .help
        else if key = "version" then .error .version
        else .error .usage
      | _, _, _ => .error .usage
    | '-' :: flags => .error (shortFlags flags)
    | _ => .error .usage

/-- Takes the variables of the options that the command line does not give. -/
def takeVariables (a : Arguments) (lookup : String → Option String) : Except Stop Arguments :=
  Opt.all.foldlM (fun a option =>
    match a.has option, lookup option.variableName with
    | false, some value => a.take option value
    | _, _ => .ok a) a

/-- Reads a command line and the variables bound to it. -/
def parse (words : List String) (lookup : String → Option String) : Except Stop Arguments := do
  (← none.read words).takeVariables lookup

/-- Settings with what the command line asks for in place of what was loaded. -/
def override (a : Arguments) (s : Settings) : Settings :=
  { s with
    nodeId := a.nodeId.getD s.nodeId
    api := { s.api with httpPort := a.httpPort.getD s.api.httpPort }
    store := { s.store with backend := a.store.getD s.store.backend } }

end Arguments

end CustomerSegments.Cli
