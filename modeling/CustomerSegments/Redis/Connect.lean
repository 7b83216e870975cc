import CustomerSegments.Config.Settings
import CustomerSegments.Redis.Store

namespace CustomerSegments.Redis

/-- The characters that no host has. -/
def hostBreakers : List Char :=
  [' ', '#', '<', '>', '?', '@', '[', '\\', ']', '^', '|', '/', ':', '%']

/-- A host with an optional port. -/
def isAuthority (cs : List Char) : Bool :=
  match cs with
  | '[' :: rest =>
    rest.contains ']' && isPort ((rest.dropWhile (· ≠ ']')).drop 1)
  | cs =>
    let host := cs.takeWhile (· ≠ ':')
    !host.isEmpty && host.all (!hostBreakers.contains ·) && isPort (cs.dropWhile (· ≠ ':'))
where
  isPort : List Char → Bool
    | [] => true
    | ':' :: digits =>
      digits.isEmpty || ((Decimal.natural? digits).any (· ≤ 65535))
    | _ => false

/-- A path that names a database by its number, or nothing. -/
def isDatabase (cs : List Char) : Bool :=
  let name := ((cs.dropWhile (· = '/')).reverse.dropWhile (· = '/')).reverse
  name.isEmpty || (Decimal.int64? name).isSome

/-- A url that a client can open: of a host, or of a socket in the file system. -/
def isUrl (url : String) : Bool :=
  let cs := url.toList
  let scheme := String.ofList ((cs.takeWhile (· ≠ ':')).map Char.toLower)
  match cs.dropWhile (· ≠ ':') with
  | ':' :: '/' :: '/' :: rest =>
    let rest := rest.takeWhile fun c => c ≠ '?' && c ≠ '#'
    let authority := rest.takeWhile (· ≠ '/')
    let path := rest.dropWhile (· ≠ '/')
    if scheme = "redis" then
      let host := (authority.reverse.takeWhile (· ≠ '@')).reverse
      isAuthority host && isDatabase path
    else if scheme = "unix" || scheme = "redis+unix" then
      (authority.isEmpty || String.ofList authority = "localhost") && !path.isEmpty
    else false
  | _ => false

/-- Why there is no connection. -/
inductive ConnectError where
  | unusable
  | timedOut (url : String)
  | refused (refusal : Refusal)
deriving DecidableEq, Repr

/-- The words for a failure to connect; for an unusable url there are none. -/
def ConnectError.message? : ConnectError → Option String
  | unusable => none
  | timedOut url => some ("timed out connecting to Redis at " ++ url)
  | refused refusal => some refusal.message

/-- The url that counts: the first one. -/
def urlOf (settings : RedisSettings) : String :=
  settings.urls.headD "redis://localhost:6379"

/-- Connects to a server and makes sure that it answers, given whether a url leads to one. No
server answers within no time at all. -/
def connect (settings : RedisSettings) (leadsToServer : String → Bool) :
    Action (Except ConnectError Layout) :=
  let url := urlOf settings
  if !leadsToServer url && !isUrl url then pure (.error .unusable)
  else if settings.connectTimeoutMs = 0 then pure (.error (.timedOut url))
  else if !leadsToServer url then pure (.error .unusable)
  else do
    match ← Task.backend Command.ping with
    | .ok _ => pure (.ok ⟨settings.keyPrefix, settings.scanBatchSize.toNat⟩)
    | .error refusal => pure (.error (.refused refusal))

end CustomerSegments.Redis
