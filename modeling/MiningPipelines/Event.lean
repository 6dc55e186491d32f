import MiningPipelines.Json.Record
import MiningPipelines.Log

/-!
# Events of a run

A run reports its start, the log lines of the engine, each result that reached its
handler, and how it ended. An event has a JSON form, an object with the kind of the event
under `type`, and a log form.
-/

namespace MiningPipelines

/-- What a run reports. -/
inductive Event where
  | started (runId : String) (parts handlers : Nat)
  | logMessage (runId text : String)
  | dispatched (runId : String) (messageIndex partIndex : Nat) (part : String)
  | succeeded (runId executionId : String) (delivered : Nat)
  | failed (runId error : String)
  | cancelled (runId : String) (delivered : Nat)
deriving DecidableEq

namespace Event

/-- The name of the kind of event. -/
def kind : Event → String
  | started _ _ _ => "started"
  | logMessage _ _ => "logMessage"
  | dispatched _ _ _ _ => "partialResultDispatched"
  | succeeded _ _ _ => "succeeded"
  | failed _ _ => "failed"
  | cancelled _ _ => "cancelled"

def runId : Event → String
  | started id _ _ => id
  | logMessage id _ => id
  | dispatched id _ _ _ => id
  | succeeded id _ _ => id
  | failed id _ => id
  | cancelled id _ => id

/-- The event ends its run. -/
def isTerminal : Event → Bool
  | succeeded _ _ _ | failed _ _ | cancelled _ _ => true
  | _ => false

/-! ## JSON -/

def countDocument (n : Nat) : Document := .number (.natural (.ofNat n))

/-- The fields of the event, without its kind. -/
def fields : Event → List (String × Document)
  | started id parts handlers =>
    [("runId", .text id), ("parts", countDocument parts), ("handlers", countDocument handlers)]
  | logMessage id text => [("runId", .text id), ("message", .text text)]
  | dispatched id messageIndex partIndex part =>
    [("runId", .text id), ("messageIndex", countDocument messageIndex),
      ("partIndex", countDocument partIndex), ("part", .text part)]
  | succeeded id executionId delivered =>
    [("runId", .text id), ("executionId", .text executionId),
      ("dispatched", countDocument delivered)]
  | failed id error => [("runId", .text id), ("error", .text error)]
  | cancelled id delivered => [("runId", .text id), ("dispatched", countDocument delivered)]

/-- The document of the event. -/
def toDocument (e : Event) : Document := .object (("type", .text e.kind) :: e.fields)

/-- A count in a document. -/
def count? (d : Document) : Option Nat := d.uint64?.map UInt64.toNat

/-- Reads the fields of an event of the given kind. -/
def ofFields? (kind : String) (d : Document) : Option Event :=
  if kind = "started" then do
    let r ← d.record? ["runId", "parts", "handlers"]
    let id ← r.required "runId" Document.text?
    let parts ← r.required "parts" count?
    let handlers ← r.required "handlers" count?
    some (.started id parts handlers)
  else if kind = "logMessage" then do
    let r ← d.record? ["runId", "message"]
    let id ← r.required "runId" Document.text?
    let text ← r.required "message" Document.text?
    some (.logMessage id text)
  else if kind = "partialResultDispatched" then do
    let r ← d.record? ["runId", "messageIndex", "partIndex", "part"]
    let id ← r.required "runId" Document.text?
    let messageIndex ← r.required "messageIndex" count?
    let partIndex ← r.required "partIndex" count?
    let part ← r.required "part" Document.text?
    some (.dispatched id messageIndex partIndex part)
  else if kind = "succeeded" then do
    let r ← d.record? ["runId", "executionId", "dispatched"]
    let id ← r.required "runId" Document.text?
    let executionId ← r.required "executionId" Document.text?
    let delivered ← r.required "dispatched" count?
    some (.succeeded id executionId delivered)
  else if kind = "failed" then do
    let r ← d.record? ["runId", "error"]
    let id ← r.required "runId" Document.text?
    let error ← r.required "error" Document.text?
    some (.failed id error)
  else if kind = "cancelled" then do
    let r ← d.record? ["runId", "dispatched"]
    let id ← r.required "runId" Document.text?
    let delivered ← r.required "dispatched" count?
    some (.cancelled id delivered)
  else none

/-- Reads an event. All of the document has to be readable, also what no field needs; the
kind stands under `type`, once, or in front of an array. -/
def ofDocument? (d : Document) : Option Event :=
  if d.toJson?.isNone then none
  else
    match d with
    | .object fields =>
      match fields.filter fun (k, _) => k == "type" with
      | [(_, .text kind)] => ofFields? kind (.object (fields.filter fun (k, _) => k != "type"))
      | _ => none
    | .array (.text kind :: rest) => ofFields? kind (.array rest)
    | _ => none

/-! ## Log -/

/-- The record that the log shows for the event. -/
def logRecord : Event → LogRecord
  | started id parts handlers =>
    .ofEvents .info ("Run " ++ id ++ " submitted: " ++ toString parts ++ " parts, " ++
      toString handlers ++ " handlers")
  | logMessage _ text => .ofEngine text
  | dispatched id _ _ part => .ofEvents .debug ("Run " ++ id ++ " dispatched result to " ++ part)
  | succeeded id executionId _ =>
    .ofEvents .info ("Run " ++ id ++ " succeeded as execution " ++ executionId)
  | failed id error => .ofEvents .error ("Run " ++ id ++ " failed: " ++ error)
  | cancelled id _ => .ofEvents .info ("Run " ++ id ++ " cancelled")

end Event

end MiningPipelines
