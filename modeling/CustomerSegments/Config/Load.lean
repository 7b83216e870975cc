import CustomerSegments.Config.Settings
import CustomerSegments.Config.Source
import CustomerSegments.Decimal.Shortest

namespace CustomerSegments.Config

/-- Plain notation at any size, and no point behind a whole number. -/
def plainNotation : Decimal.Notation := ⟨-400, 400, false⟩

/-- The text of a float. -/
def floatText (x : Float) : String :=
  match Double.ofFloat? x with
  | some d => String.ofList (plainNotation.text d)
  | none => if x.isNaN then "NaN" else if 0 < x then "inf" else "-inf"

namespace Value

def text? : Value → Option String
  | text s => some s
  | flag b => some (if b then "true" else "false")
  | integer n => some (String.ofList (Decimal.ofInt n))
  | float x => some (floatText x)
  | _ => none

/-- A float as a number without a sign in 64 bits: rounded, and cut to the range. -/
def wordOfFloat (x : Float) : Nat :=
  match Double.ofFloat? x with
  | some d => if d.isNegative then 0 else min d.roundedMagnitude 18446744073709551615
  | none => if 0 < x then 18446744073709551615 else 0

/-- The truth value of a word. -/
def flagOfWord? (s : String) : Option Bool :=
  match Text.lower s with
  | "true" | "on" | "yes" => some true
  | "false" | "off" | "no" => some false
  | _ => none

/-- A number without a sign in 64 bits. -/
def word? : Value → Option Nat
  | integer n => if 0 ≤ n then some n.toNat else none
  | float x => some (wordOfFloat x)
  | flag b => some b.toNat
  | text s => ((flagOfWord? s).map Bool.toNat).or (Decimal.nat64? s.toList)
  | _ => none

def port? (v : Value) : Option UInt16 :=
  v.word?.bind fun n => if n ≤ 65535 then some (.ofNat n) else none

def flag? : Value → Option Bool
  | flag b => some b
  | integer n => some (n != 0)
  | float x => some (x != 0)
  | text "1" => some true
  | text "0" => some false
  | text s => flagOfWord? s
  | _ => none

def texts? : Value → Option (List String)
  | list items => items.mapM text?
  | _ => none

/-- A backend by its name in any case; the name may also be that of the one entry of a table. -/
def backend? : Value → Option Backend
  | text s => named s
  | table [(name, _)] => named name
  | _ => none
where
  named (s : String) : Option Backend :=
    match Text.lower s with
    | "memory" => some .memory
    | "redis" => some .redis
    | _ => none

/-- The entries of a record with these names, from a table, or from a list in their order. -/
def entries? (names : List String) : Value → Option (List (String × Value))
  | table entries => some entries
  | list items => some (names.zip items)
  | _ => none

end Value

/-- An entry that may be missing. -/
def entry? (entries : List (String × Value)) (name : String) (read : Value → Option α)
    (default : α) : Option α :=
  match entries.lookup name with
  | none => some default
  | some v => read v

def api? (v : Value) : Option ApiSettings := do
  let entries ← v.entries? ["host", "http_port"]
  some ⟨← entry? entries "host" Value.text? "0.0.0.0",
    ← entry? entries "http_port" Value.port? 8080⟩

def metrics? (v : Value) : Option MetricsSettings := do
  let entries ← v.entries? ["enabled", "port"]
  some ⟨← entry? entries "enabled" Value.flag? true, ← entry? entries "port" Value.port? 9091⟩

def store? (v : Value) : Option StoreSettings := do
  let entries ← v.entries? ["backend"]
  some ⟨← entry? entries "backend" Value.backend? .memory⟩

def redis? (v : Value) : Option RedisSettings := do
  let entries ← v.entries? ["urls", "key_prefix", "connect_timeout_ms", "scan_batch_size"]
  let word (v : Value) : Option UInt64 := v.word?.map UInt64.ofNat
  some ⟨← entry? entries "urls" Value.texts? ["redis://localhost:6379"],
    ← entry? entries "key_prefix" Value.text? "audience",
    ← entry? entries "connect_timeout_ms" word 5000,
    ← entry? entries "scan_batch_size" word 500⟩

/-- The settings that a value holds; every part may be missing. -/
def settings? (v : Value) : Option Settings := do
  let entries ← v.entries? ["node_id", "api", "metrics", "store", "redis"]
  some ⟨← entry? entries "node_id" Value.text? "node-01", ← entry? entries "api" api? {},
    ← entry? entries "metrics" metrics? {}, ← entry? entries "store" store? {},
    ← entry? entries "redis" redis? {}⟩

/-- Why settings cannot be loaded. -/
inductive LoadError where
  | fileMissing
  | fileNotObject
  | invalid
deriving DecidableEq, Repr

def LoadError.message : LoadError → String
  | fileMissing => "the settings file does not exist"
  | fileNotObject => "the settings file holds no object"
  | invalid => "a setting has a value of another kind"

/-- A file that is named: its document, if there is such a file and it holds one. -/
inductive SettingsFile where
  | absent
  | unreadable
  | document (j : Json)

/-- Loads settings from a file, if one is named, and over it from the variables of the
environment. -/
def load (file : Option SettingsFile) (environment : List (String × String)) :
    Except LoadError Settings := do
  let root ← match file with
    | none => .ok Value.nothing
    | some .absent => .error .fileMissing
    | some (.document (.object members)) => .ok (overlayDocument .nothing members)
    | some _ => .error .fileNotObject
  match settings? (overlayVariables root environment) with
  | some s => .ok s
  | none => .error .invalid

end CustomerSegments.Config
