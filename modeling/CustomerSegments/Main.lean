import CustomerSegments.Cli.Start
import CustomerSegments.Json.Text

namespace CustomerSegments.Cli

/-- The line that is printed for a line of the log. -/
def LogLine.text (l : LogLine) : String :=
  (Json.mk [("level", .string l.level.name), ("target", .string "audience_express"),
    ("fields", .mk (("message", .string l.message) :: l.fields))]).text

/-- The variables in a list of definitions with a null character behind each. -/
def variablesIn (definitions : String) : List (String × String) :=
  (definitions.splitOn "\x00").filterMap fun definition =>
    match definition.splitOn "=" with
    | name :: value :: more => some (name, "=".intercalate (value :: more))
    | _ => none

/-- The text of a file; none if it cannot be read. -/
def readText (path : String) : IO (Option String) := do
  try
    return some (← IO.FS.readFile path)
  catch _ => return none

def settingsIn (text : Option String) : Config.SettingsFile :=
  match text.map Json.ofText? with
  | none => .absent
  | some (.ok document) => .document document
  | some (.error _) => .unreadable

/-- The system that a run finds. Nothing here opens a connection, so no server is in reach. -/
def currentHost (words : List String) : IO Host := do
  let environment := variablesIn ((← readText "/proc/self/environ").getD "")
  let path := match Arguments.parse words (fun name => environment.lookup name) with
    | .ok arguments => arguments.config
    | .error _ => none
  let file ← match path with
    | some path => readText path
    | none => pure none
  return { environment, file := fun _ => settingsIn file, connect := fun _ => .error .unusable }

end CustomerSegments.Cli

open CustomerSegments.Cli in
/-- Starts a node up to the point where it would listen, and ends with its exit code. -/
def main (words : List String) : IO UInt32 := do
  let run := start (← currentHost words) words
  for line in run.log do
    IO.println line.text
  match run.ending with
  | .stopped stop =>
    match stop.output with
    | some text => IO.println text
    | none => IO.eprintln "Usage: audience-express [OPTIONS]"
  | .failed e => IO.eprintln ("Error: " ++ e.message?.getD "the store cannot be opened")
  | .listening _ _ => IO.eprintln "Error: there is no listener to hand the node to"
  return UInt32.ofNat (run.ending.exitCode.getD 1)
