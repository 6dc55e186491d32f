import MiningPipelines.Artifact.EventLogInfo
import MiningPipelines.Log
import MiningPipelines.Part

/-!
# Correlation of results with handlers

A pipeline is walked once to list its fetches that have handlers (`Pipeline.callbacks`),
depth first, with the fetches inside an operation before the fetch that follows it.
A `Registry` is that list with a table of its tags and a cursor. A tagged result goes to the
position that the table has for its tag; an untagged one, and in positional mode every one, goes
to the fetch at the cursor. The cursor stands behind the last fetch that a result went to.
-/

namespace MiningPipelines

/-- A fetch with a handler. -/
structure Callback where
  tag : Option Tag
  label : String
  handler : Handler
deriving DecidableEq

/-- The fetch of a part as a callback, if it has a handler. -/
def Part.own (p : Part) : List Callback :=
  match p.handler? with
  | some handler => [⟨p.tag?, p.describe, handler⟩]
  | none => []

mutual

/-- Appends the callbacks of a part to `out`. -/
def Part.collect (out : List Callback) : Part → List Callback
  | .operation op => op.collect out
  | .parallel parts => Pipeline.collect out parts
  | .fetch key tag handler => out ++ Part.own (.fetch key tag handler)
  | .fetchAfter keys before tag handler =>
    before.collect out ++ Part.own (.fetchAfter keys before tag handler)

/-- Appends the callbacks of the pipelines in a configuration. -/
def Operation.collect (out : List Callback) : Operation → List Callback
  | ⟨_, config⟩ => Config.collect out config

def Config.collect (out : List Callback) : List (String × Value) → List Callback
  | [] => out
  | (_, v) :: rest => Config.collect (v.collect out) rest

def Value.collect (out : List Callback) : Value → List Callback
  | .pipeline parts => Pipeline.collect out parts
  | _ => out

/-- Appends the callbacks of a pipeline to `out`. -/
def Pipeline.collect (out : List Callback) : List Part → List Callback
  | [] => out
  | p :: rest => Pipeline.collect (p.collect out) rest

end

/-- The callbacks of a pipeline, in the order of the walk. -/
def Pipeline.callbacks (parts : Pipeline) : List Callback := Pipeline.collect [] parts

/-- How results find their handlers. -/
inductive CorrelationMode where
  /-- By tag; a result without one goes by order. -/
  | tagged
  /-- By order alone. -/
  | positional
deriving DecidableEq

/-! ## Handlers -/

/-- What a handler did with the values of a result. -/
structure Reply where
  result : Except String Unit
  logs : List LogRecord
  /-- The handler fired the signal that cancels the run. -/
  cancels : Bool

namespace Reply

def ok : Reply := ⟨.ok (), [], false⟩

/-- A handler that ends in `result` and writes `logs`. -/
def ofResult (result : Except Failure (List LogRecord)) : Reply :=
  match result with
  | .ok logs => ⟨.ok (), logs, false⟩
  | .error f => ⟨.error f.message, [], false⟩

end Reply

/-- The meaning of the caller's handlers, by name. -/
abbrev Handlers := String → Values → Reply

namespace Handler

/-- One record for each trace. -/
def traceRecords : Nat → NamesLog → List LogRecord
  | _, [] => []
  | n, trace :: rest =>
    .ofPrinter ("trace " ++ toString n ++ ": " ++ quotedTexts trace) :: traceRecords (n + 1) rest

/-- Writes the names log among the values. -/
def printTracesOf (values : Values) : Except Failure (List LogRecord) := do
  let (v, _) ← Values.take values .namesEventLog
  let traces ← v.asNamesLog
  .ok (traceRecords 0 traces)

/-- Writes the counts among the values. -/
def printCountsOf (values : Values) : Except Failure (List LogRecord) := do
  let info ← EventLogInfo.ofValues values
  .ok [.ofPrinter (toString info.traces.toNat ++ " traces, " ++ toString info.events.toNat ++
    " events, " ++ toString info.eventClasses.toNat ++ " event classes")]

/-- Hands the values of a result to a handler. -/
def call (handlers : Handlers) (values : Values) : Handler → Reply
  | .named name => handlers name values
  | .printTraces => .ofResult (printTracesOf values)
  | .printCounts => .ofResult (printCountsOf values)

end Handler

/-! ## Dispatch -/

/-- Positions by tag. A tag keeps the position that it was first entered with. -/
abbrev TagTable := List (Tag × Nat)

namespace TagTable

/-- Enters the position of a tag that is not in the table yet. -/
def orInsert (table : TagTable) (tag : Tag) (index : Nat) : TagTable :=
  if (table.lookup tag).isSome then table else table ++ [(tag, index)]

/-- Enters the tag of a callback, if it has one. -/
def enter (table : TagTable) : Callback × Nat → TagTable
  | (c, index) =>
    match c.tag with
    | some tag => table.orInsert tag index
    | none => table

/-- The tags of the callbacks. -/
def ofCallbacks (callbacks : List Callback) : TagTable := callbacks.zipIdx.foldl enter []

end TagTable

/-- Callbacks with the table of their tags and the cursor of one run. -/
structure Registry where
  callbacks : List Callback
  byTag : TagTable
  byTag_eq : byTag = .ofCallbacks callbacks
  mode : CorrelationMode
  cursor : Nat

/-- One call of a handler. -/
structure Call where
  index : Nat
  handler : Handler
  values : Values

/-- The caller's handlers over a run. They may keep state, so what they mean depends on
the calls made before. -/
structure Behaviour where
  after : List Call → Handlers

/-- Handlers that keep no state. -/
instance : Coe (String → Values → Reply) Behaviour := ⟨fun handlers => ⟨fun _ => handlers⟩⟩

namespace Registry

def ofCallbacks (callbacks : List Callback) (mode : CorrelationMode) : Registry :=
  ⟨callbacks, .ofCallbacks callbacks, rfl, mode, 0⟩

def ofPipeline (parts : Pipeline) (mode : CorrelationMode) : Registry :=
  ofCallbacks (Pipeline.callbacks parts) mode

def size (r : Registry) : Nat := r.callbacks.length

/-- The position that the table has for a tag. -/
def indexOfTag? (r : Registry) (tag : Tag) : Option Nat := r.byTag.lookup tag

/-- The next position by order. -/
def selectNext (r : Registry) : Except ProtocolFault (Nat × Registry) :=
  if r.cursor < r.size then .ok (r.cursor, { r with cursor := r.cursor + 1 })
  else .error (.tooManyResults r.size)

/-- The position that a result goes to, and the registry behind it. -/
def select (r : Registry) (tag : Option Tag) : Except ProtocolFault (Nat × Registry) :=
  match r.mode, tag with
  | .tagged, some tag =>
    match r.indexOfTag? tag with
    | some index => .ok (index, { r with cursor := max r.cursor (index + 1) })
    | none => .error (.unknownTag tag)
  | _, _ => r.selectNext

/-- The warning about a result that should have a tag. -/
def untaggedRecords (r : Registry) (messageIndex : Nat) (tag : Option Tag) :
    List LogRecord :=
  match r.mode, tag with
  | .tagged, none =>
    [.ofCallbacks .warn ("Untagged part result at message " ++ toString messageIndex ++
      ", falling back to traversal order")]
  | _, _ => []

/-- What came of dispatching a result. -/
structure Dispatch where
  registry : Registry
  /-- The position and label of the callback, or what went wrong. -/
  result : Except Failure (Nat × String)
  calls : List Call
  logs : List LogRecord
  cancels : Bool

/-- Routes a result to its handler. The cursor moves also when the handler fails. -/
def dispatch (handlers : Handlers) (r : Registry) (messageIndex : Nat) (tag : Option Tag)
    (values : Values) : Dispatch :=
  let warning := r.untaggedRecords messageIndex tag
  match r.select tag with
  | .error cause => ⟨r, .error (.protocol messageIndex cause), [], warning, false⟩
  | .ok (index, next) =>
    match r.callbacks[index]? with
    | none => ⟨r, .error (.protocol messageIndex (.tooManyResults r.size)), [], warning, false⟩
    | some c =>
      let record := LogRecord.ofCallbacks .debug ("Dispatching message " ++
        toString messageIndex ++ " to part #" ++ toString index ++ " (" ++ c.label ++ ")")
      let reply := c.handler.call handlers values
      let result := match reply.result with
        | .ok () => .ok (index, c.label)
        | .error reason => .error (.handler c.label reason)
      ⟨next, result, [⟨index, c.handler, values⟩], warning ++ [record] ++ reply.logs,
        reply.cancels⟩

end Registry

end MiningPipelines
