import CustomerSegments.Json.Decoder

namespace CustomerSegments

/-- Where records are kept. -/
inductive Backend where
  | memory
  | redis
deriving DecidableEq, Repr

namespace Backend

def name : Backend → String
  | memory => "memory"
  | redis => "redis"

/-- The name with a capital, as the log shows it. -/
def title : Backend → String
  | memory => "Memory"
  | redis => "Redis"

/-- The backend with a name in any case, or what is wrong with the name. -/
def parse (token : String) : Except String Backend :=
  match String.ofList (token.toList.map Char.toLower) with
  | "memory" => .ok memory
  | "redis" => .ok redis
  | other => .error ("unknown store backend '" ++ other ++ "'")

def toJson (b : Backend) : Json :=
  .string b.name

def decoder : Json.Decoder Backend :=
  .choice [("memory", memory), ("redis", redis)]

end Backend

/-- Where requests are served. -/
structure ApiSettings where
  host : String := "0.0.0.0"
  httpPort : UInt16 := 8080
deriving DecidableEq

/-- Where measurements are served. -/
structure MetricsSettings where
  enabled : Bool := true
  port : UInt16 := 9091
deriving DecidableEq

structure StoreSettings where
  backend : Backend := .memory
deriving DecidableEq

/-- How a Redis server is used. -/
structure RedisSettings where
  urls : List String := ["redis://localhost:6379"]
  keyPrefix : String := "audience"
  connectTimeoutMs : UInt64 := 5000
  scanBatchSize : UInt64 := 500
deriving DecidableEq

structure Settings where
  nodeId : String := "node-01"
  api : ApiSettings := {}
  metrics : MetricsSettings := {}
  store : StoreSettings := {}
  redis : RedisSettings := {}
deriving DecidableEq

namespace Settings

/-- A port. -/
def port : Json.Decoder UInt16 := fun source r =>
  (Json.Decoder.integer 0 65535 source r).map fun n => .ofNat n.toNat

/-- A number without a sign in 64 bits. -/
def word : Json.Decoder UInt64 := fun source r =>
  (Json.Decoder.integer 0 18446744073709551615 source r).map fun n => .ofNat n.toNat

def apiDecoder : Json.Decoder ApiSettings :=
  .record ["host", "http_port"] fun f =>
    ApiSettings.mk <$> f.defaulted "host" .string "0.0.0.0" <*> f.defaulted "http_port" port 8080

def metricsDecoder : Json.Decoder MetricsSettings :=
  .record ["enabled", "port"] fun f =>
    MetricsSettings.mk <$> f.defaulted "enabled" .bool true <*> f.defaulted "port" port 9091

def storeDecoder : Json.Decoder StoreSettings :=
  .record ["backend"] fun f => StoreSettings.mk <$> f.defaulted "backend" Backend.decoder .memory

def redisDecoder : Json.Decoder RedisSettings :=
  .record ["urls", "key_prefix", "connect_timeout_ms", "scan_batch_size"] fun f =>
    RedisSettings.mk <$> f.defaulted "urls" (.list .string) ["redis://localhost:6379"] <*>
      f.defaulted "key_prefix" .string "audience" <*>
      f.defaulted "connect_timeout_ms" word 5000 <*> f.defaulted "scan_batch_size" word 500

/-- Reads settings from a document; every part may be missing. -/
def decoder : Json.Decoder Settings :=
  .record ["node_id", "api", "metrics", "store", "redis"] fun f =>
    Settings.mk <$> f.defaulted "node_id" .string "node-01" <*>
      f.defaulted "api" apiDecoder {} <*> f.defaulted "metrics" metricsDecoder {} <*>
      f.defaulted "store" storeDecoder {} <*> f.defaulted "redis" redisDecoder {}

def toJson (s : Settings) : Json :=
  .mk [("node_id", .string s.nodeId),
    ("api", .mk [("host", .string s.api.host), ("http_port", .ofNat s.api.httpPort.toNat)]),
    ("metrics", .mk [("enabled", .bool s.metrics.enabled),
      ("port", .ofNat s.metrics.port.toNat)]),
    ("store", .mk [("backend", s.store.backend.toJson)]),
    ("redis", .mk [("urls", .array (s.redis.urls.map .string)),
      ("key_prefix", .string s.redis.keyPrefix),
      ("connect_timeout_ms", .ofUInt64 s.redis.connectTimeoutMs),
      ("scan_batch_size", .ofUInt64 s.redis.scanBatchSize)])]

end Settings

end CustomerSegments
