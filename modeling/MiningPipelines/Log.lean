/-!
# Log records

What the client writes to a log: a level, a target that names the place, and a text.
-/

namespace MiningPipelines

inductive LogLevel where
  | error
  | warn
  | info
  | debug
deriving DecidableEq

def LogLevel.name : LogLevel → String
  | error => "ERROR"
  | warn => "WARN"
  | info => "INFO"
  | debug => "DEBUG"

/-- One record of the log. -/
structure LogRecord where
  level : LogLevel
  target : String
  text : String
deriving DecidableEq

namespace LogRecord

/-- The run of a pipeline. -/
def ofRun (level : LogLevel) (text : String) : LogRecord :=
  ⟨level, "ficus_pipelines::executor", text⟩

/-- The correlation of results with handlers. -/
def ofCallbacks (level : LogLevel) (text : String) : LogRecord :=
  ⟨level, "ficus_pipelines::callbacks", text⟩

/-- The events of a run. -/
def ofEvents (level : LogLevel) (text : String) : LogRecord :=
  ⟨level, "ficus_pipelines::events", text⟩

/-- What the engine itself reports. -/
def ofEngine (text : String) : LogRecord := ⟨.info, "ficus_pipelines::remote", text⟩

/-- The HTTP transport. -/
def ofHttp (text : String) : LogRecord :=
  ⟨.debug, "ficus_pipelines::transport::http", text⟩

/-- The gRPC transport. -/
def ofGrpc (text : String) : LogRecord :=
  ⟨.debug, "ficus_pipelines::transport::grpc", text⟩

/-- The handlers that print. -/
def ofPrinter (text : String) : LogRecord := ⟨.info, "ficus_parts::eventlog::util", text⟩

end LogRecord

end MiningPipelines
