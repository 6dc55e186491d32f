import MiningPipelines.Registry
import MiningPipelines.Signal
import MiningPipelines.Sink
import MiningPipelines.Wire.Decode

/-!
# Running a pipeline

A run submits one request and then drains the response stream. Log lines go to the event
sink, results go to their handlers one at a time in order of arrival, and the first final
result ends the run, as does anything that does not fit.

A stream is the list of what arrives (`Arrival`): items, and the moments at which the
caller's signal fires. Before each step the signal is looked at first, so nothing more is
read once it has fired. The whole run is a fold of `Run.handle` over the arrivals
(`Run.drain`), and `Run` keeps what the outside sees: the events handed to the sink, the
calls of handlers, the log, and what was taken from the stream.

A run whose stream stays silent ends only if its signal fires. Under a signal that cannot
fire it waits for ever, and no report stands for that: `Opening.Ends` is the condition under
which a run does end.
-/

namespace MiningPipelines

/-- One item of a response stream: a message, or a fault that ends it. -/
abbrev Item := Except Failure Wire.Message

/-- What happens while a run asks its stream for the next item. -/
inductive Arrival where
  /-- An item arrives. -/
  | item (x : Item)
  /-- The signal fires while the run is asking, and the stream goes straight on. -/
  | fires
  /-- Nothing arrives until the signal has fired, which takes a signal that can fire. -/
  | waits

/-- What comes of opening a response stream. -/
inductive Opening where
  | opened (arrivals : List Arrival)
  | refused (cause : Failure)
  /-- The stream is not open yet when the signal fires, which takes a signal that can fire. -/
  | stalled

/-- A run under the signal does not wait for ever: where its stream is silent, the signal can
fire. -/
def Opening.Ends (signal : Signal) : Opening → Prop
  | .opened arrivals => signal.canFire ∨ .waits ∉ arrivals
  | .refused _ => True
  | .stalled => signal.canFire

/-- What comes of submitting a request. -/
structure Exchange where
  logs : List LogRecord
  opening : Opening

/-- The ways to an engine: how runs are submitted, and how values of finished executions
are looked up. -/
structure Client where
  submit : Wire.Request → Exchange
  lookup : Wire.ContextRequest → Except Failure Wire.ContextReply

/-- The life of a run. -/
inductive Phase where
  | built
  | submitted
  | streaming
  | succeeded
  | failed
  | cancelled
deriving DecidableEq

namespace Phase

def name : Phase → String
  | built => "Built"
  | submitted => "Submitted"
  | streaming => "Streaming"
  | succeeded => "Succeeded"
  | failed => "Failed"
  | cancelled => "Cancelled"

/-- The run has ended. -/
def isTerminal : Phase → Bool
  | succeeded | failed | cancelled => true
  | _ => false

end Phase

/-- How a run ended, with the number of results that reached their handlers. -/
inductive Outcome where
  | succeeded (executionId : String) (delivered : Nat)
  | failed (cause : Failure) (delivered : Nat)
  | cancelled (delivered : Nat)
deriving DecidableEq

namespace Outcome

def phase : Outcome → Phase
  | succeeded _ _ => .succeeded
  | failed _ _ => .failed
  | cancelled _ => .cancelled

def delivered : Outcome → Nat
  | succeeded _ n => n
  | failed _ n => n
  | cancelled n => n

/-- The identifier of the execution, or why there is none. -/
def toResult : Outcome → Except Failure String
  | succeeded id _ => .ok id
  | failed cause _ => .error cause
  | cancelled _ => .error .cancelled

end Outcome

/-- The state of one run. -/
structure Run (σ : Type) where
  id : String
  phase : Phase
  delivered : Nat
  registry : Registry
  signal : Signal
  /-- The state of the sink. -/
  sink : σ
  /-- The events handed to the sink. -/
  events : List Event
  calls : List Call
  logs : List LogRecord
  /-- What was taken from the stream. -/
  taken : List Arrival

namespace Run

variable {σ : Type}

/-- Enters a phase. -/
def enter (r : Run σ) (next : Phase) : Run σ :=
  { r with
    phase := next
    logs := r.logs ++
      [.ofRun .debug ("Run " ++ r.id ++ ": " ++ r.phase.name ++ " -> " ++ next.name)] }

/-- Hands an event to the sink. A failed delivery is noted in the log only. -/
def emit (sink : Sink σ) (r : Run σ) (e : Event) : Run σ :=
  let delivery := sink.send r.sink e
  let warning : List LogRecord := match delivery.result with
    | .ok () => []
    | .error fault =>
      [.ofRun .warn ("Run " ++ r.id ++ ": dropped execution event: " ++ fault.message)]
  { r with
    sink := delivery.state
    events := r.events ++ [e]
    logs := r.logs ++ delivery.logs ++ warning }

/-- Ends the run after a final result or a fault. -/
def conclude (sink : Sink σ) (r : Run σ) : Except Failure String → Run σ × Outcome
  | .ok executionId =>
    ((r.enter .succeeded).emit sink (.succeeded r.id executionId r.delivered),
      .succeeded executionId r.delivered)
  | .error cause =>
    ((r.enter .failed).emit sink (.failed r.id cause.message), .failed cause r.delivered)

/-- Ends the run after the signal. -/
def cancel (sink : Sink σ) (r : Run σ) : Run σ × Outcome :=
  ((r.enter .cancelled).emit sink (.cancelled r.id r.delivered), .cancelled r.delivered)

/-- Decodes the values of a result onto `acc`, the later of one key counting. The first
entry that is no value is reported. -/
def decodeValues (acc : Values) : Wire.Entries → Except ProtocolFault Values
  | [] => .ok acc
  | (k, v) :: rest =>
    match v.decode with
    | .ok v => decodeValues (putEntry k v acc) rest
    | .error cause => .error (.undecodableValue k cause)

/-- Delivers a result to its handler. -/
def deliver (handlers : Behaviour) (sink : Sink σ) (r : Run σ) (index : Nat)
    (result : Wire.PartResult) : Run σ × Option Failure :=
  match decodeValues [] result.values with
  | .error cause => (r, some (.protocol index cause))
  | .ok values =>
    let d := r.registry.dispatch (handlers.after r.calls) index result.tag values
    let r := { r with
      registry := d.registry
      signal := if d.cancels then r.signal.fire else r.signal
      calls := r.calls ++ d.calls
      logs := r.logs ++ d.logs }
    match d.result with
    | .error cause => (r, some cause)
    | .ok (partIndex, label) =>
      ({ r with delivered := r.delivered + 1 }.emit sink
        (.dispatched r.id index partIndex label), none)

/-- What a final result says. -/
def verdict (index : Nat) : Wire.FinalResult → Except Failure String
  | ⟨some executionId, none⟩ => .ok executionId
  | ⟨none, some text⟩ => .error (.remote text)
  | _ => .error (.protocol index .notOneOutcome)

/-- Handles one message. The second part is set when it ends the run. -/
def handle (handlers : Behaviour) (sink : Sink σ) (r : Run σ) (index : Nat) :
    Wire.Message → Run σ × Option (Except Failure String)
  | ⟨none, none, some text⟩ => (r.emit sink (.logMessage r.id text), none)
  | ⟨none, some result, none⟩ =>
    match r.deliver handlers sink index result with
    | (r, none) => (r, none)
    | (r, some cause) => (r, some (.error cause))
  | ⟨some final, none, none⟩ => (r, some (verdict index final))
  | _ => (r, some (.error (.protocol index .notOneMessage)))

/-- Takes something from the stream. -/
def take (r : Run σ) (x : Arrival) : Run σ := { r with taken := r.taken ++ [x] }

/-- Takes an item and handles it. -/
def handleItem (handlers : Behaviour) (sink : Sink σ) (r : Run σ) (index : Nat) (x : Item) :
    Run σ × Option (Except Failure String) :=
  match x with
  | .ok message => (r.take (.item x)).handle handlers sink index message
  | .error cause => (r.take (.item x), some (.error cause))

/-- Takes the moment at which the signal fires. -/
def takeFire (r : Run σ) (x : Arrival) : Run σ := { r.take x with signal := r.signal.fire }

/-- Drains the stream, from the item with number `index`. While `asking`, the signal has
been looked at and the stream is being asked for that item. -/
def drain (handlers : Behaviour) (sink : Sink σ) (asking : Bool) (index : Nat) (r : Run σ) :
    List Arrival → Run σ × Outcome
  | [] =>
    if !asking && r.signal.fired then r.cancel sink
    else r.conclude sink (.error (.protocol index .noFinalResult))
  | .fires :: rest =>
    if !asking && r.signal.fired then r.cancel sink
    else drain handlers sink true index (r.takeFire .fires) rest
  | .waits :: _ => (r.takeFire .waits).cancel sink
  | .item x :: rest =>
    if !asking && r.signal.fired then r.cancel sink
    else
      match r.handleItem handlers sink index x with
      | (r, none) => drain handlers sink false (index + 1) r rest
      | (r, some result) => r.conclude sink result

end Run

/-- What a run leaves: how it ended, its last state, and whether the request was
submitted. -/
structure Report (σ : Type) where
  outcome : Outcome
  run : Run σ
  submitted : Bool

/-- Runs pipelines over a transport. -/
structure Executor (σ : Type) where
  transport : Wire.Request → Exchange
  mode : CorrelationMode
  sink : Sink σ
  handlers : Behaviour

namespace Executor

variable {σ : Type}

/-- The run before anything is sent. -/
def start (x : Executor σ) (runId : String) (parts : Pipeline) (signal : Signal)
    (state : σ) : Run σ :=
  let registry := Registry.ofPipeline parts x.mode
  let r : Run σ := ⟨runId, .built, 0, registry, signal, state, [], [], [], []⟩
  (r.enter .submitted).emit x.sink (.started runId parts.length registry.size)

/-- The request for a pipeline and its context. -/
def request (parts : Pipeline) (context : Context) : Wire.Request :=
  ⟨Pipeline.toWire parts, context.toWire⟩

/-- Runs a pipeline from a context. A signal that has fired before keeps the request from
being submitted. -/
def execute (x : Executor σ) (runId : String) (parts : Pipeline) (context : Context)
    (signal : Signal) (state : σ) : Report σ :=
  let r := x.start runId parts signal state
  if signal.fired then
    let (r, outcome) := r.cancel x.sink
    ⟨outcome, r, false⟩
  else
    let exchange := x.transport (request parts context)
    let r := { r with logs := r.logs ++ exchange.logs }
    let (r, outcome) := match exchange.opening with
      | .stalled => { r with signal := r.signal.fire }.cancel x.sink
      | .refused cause => r.conclude x.sink (.error cause)
      | .opened arrivals =>
        (r.enter .streaming).drain x.handlers x.sink false 0 arrivals
    ⟨outcome, r, true⟩

end Executor

/-- The value in the answer to a request for the value under `key`. -/
def Wire.ContextReply.toResult (key : String) (reply : Wire.ContextReply) :
    Except Failure MiningPipelines.Value :=
  match reply.error, reply.value with
  | some text, _ => .error (.remote text)
  | none, some v =>
    match v.decode with
    | .ok v => .ok v
    | .error cause => .error cause.toFailure
  | none, none => .error (.malformed (.emptyReply key))

/-- The value that a finished execution holds under `key`. -/
def Client.contextValue (client : Client) (executionId key : String) :
    Except Failure MiningPipelines.Value := do
  (← client.lookup ⟨executionId, key⟩).toResult key

end MiningPipelines
