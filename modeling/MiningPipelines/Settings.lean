import MiningPipelines.Failure
import MiningPipelines.Json.Record
import MiningPipelines.Registry
import MiningPipelines.Text.Blank
import MiningPipelines.Text.Digits

/-!
# Client settings

Where the engine is, how long to wait for it, how many messages may wait in between, and
how results find their handlers. Settings come from a document or from named variables
over the defaults; only the latter are checked at once (`Settings.validate`).
-/

namespace MiningPipelines

structure Settings where
  backendUrl : String
  /-- In milliseconds. -/
  connectTimeout : UInt64
  /-- In milliseconds; without it a run may last for ever. -/
  requestTimeout : Option UInt64
  channelCapacity : UInt64
  mode : CorrelationMode
deriving DecidableEq

namespace CorrelationMode

def all : List CorrelationMode := [tagged, positional]

def name : CorrelationMode → String
  | tagged => "tagged"
  | positional => "positional"

/-- Reads a mode, whatever its case and with blanks around it. -/
def parse (text : String) : Except SettingsFault CorrelationMode :=
  let tag := String.ofList (lowerAscii (trimBlank text.toList))
  match all.find? fun mode => mode.name == tag with
  | some mode => .ok mode
  | none => .error (.unknownMode tag)

/-- Reads a mode by its name, or from an object with the name over null. -/
def ofDocument? : Document → Option CorrelationMode
  | .text tag => all.find? fun mode => mode.name == tag
  | .object [(tag, .null)] => all.find? fun mode => mode.name == tag
  | _ => none

end CorrelationMode

namespace Settings

def default : Settings := ⟨"http://localhost:8080", 5000, none, 64, .tagged⟩

/-- Refuses a blank URL and a channel without room. -/
def validate (s : Settings) : Except SettingsFault Unit :=
  if isBlankText s.backendUrl then .error .emptyUrl
  else if s.channelCapacity = 0 then .error .zeroCapacity
  else .ok ()

/-- Joins a route onto the URL, with one slash between them. -/
def endpoint (s : Settings) (route : String) : String :=
  String.ofList (s.backendUrl.toList.reverse.dropWhile (· == '/')).reverse ++ "/" ++ route

/-- The route that runs pipelines. -/
def executeRoute : String := "pipelines/execute"

/-- The route that looks up values of finished executions. -/
def contextRoute : String := "context/get"

/-! ## Documents -/

def toDocument (s : Settings) : Document :=
  .object [("backend_url", .text s.backendUrl),
    ("connect_timeout_ms", .number (.natural s.connectTimeout)),
    ("request_timeout_ms",
      match s.requestTimeout with
      | some n => .number (.natural n)
      | none => .null),
    ("channel_capacity", .number (.natural s.channelCapacity)),
    ("correlation_mode", .text s.mode.name)]

/-- Reads settings; an absent field keeps its default. -/
def ofDocument? (d : Document) : Option Settings := do
  let r ← d.record? ["backend_url", "connect_timeout_ms", "request_timeout_ms",
    "channel_capacity", "correlation_mode"]
  let backendUrl ← r.orElse "backend_url" default.backendUrl Document.text?
  let connectTimeout ← r.orElse "connect_timeout_ms" default.connectTimeout Document.uint64?
  let requestTimeout ← r.slot "request_timeout_ms" Document.uint64?
  let channelCapacity ← r.orElse "channel_capacity" default.channelCapacity Document.uint64?
  let mode ← r.orElse "correlation_mode" default.mode CorrelationMode.ofDocument?
  some ⟨backendUrl, connectTimeout, requestTimeout, channelCapacity, mode⟩

/-! ## Variables -/

/-- The number that decimal digits write, below `2 ^ 64`. -/
def digits? (cs : List Char) : Option UInt64 := do
  let n ← decimal? cs
  if n < UInt64.size then some (.ofNat n) else none

/-- Reads milliseconds: digits with blanks around them and perhaps a plus sign. -/
def milliseconds (name value : String) : Except SettingsFault UInt64 :=
  let digits := match trimBlank value.toList with
    | '+' :: rest => rest
    | cs => cs
  match digits? digits with
  | some n => .ok n
  | none => .error (.notMilliseconds name value)

def urlVariable : String := "FICUS_BACKEND_URL"

def connectTimeoutVariable : String := "FICUS_CONNECT_TIMEOUT_MS"

def requestTimeoutVariable : String := "FICUS_REQUEST_TIMEOUT_MS"

def modeVariable : String := "FICUS_CORRELATION_MODE"

/-- A variable read by `read`, or `default` if it is not set. -/
def overlay {α : Type} (lookup : String → Option String) (name : String) (default : α)
    (read : String → Except SettingsFault α) : Except SettingsFault α :=
  match lookup name with
  | some text => read text
  | none => .ok default

/-- The defaults under the variables that are set. -/
def ofVariables (lookup : String → Option String) : Except SettingsFault Settings := do
  let backendUrl ← overlay lookup urlVariable default.backendUrl .ok
  let connectTimeout ← overlay lookup connectTimeoutVariable default.connectTimeout
    (milliseconds connectTimeoutVariable)
  let requestTimeout ← overlay lookup requestTimeoutVariable default.requestTimeout
    fun text => do .ok (some (← milliseconds requestTimeoutVariable text))
  let mode ← overlay lookup modeVariable default.mode CorrelationMode.parse
  let s : Settings :=
    ⟨backendUrl, connectTimeout, requestTimeout, default.channelCapacity, mode⟩
  s.validate
  .ok s

end Settings

end MiningPipelines
