import MiningPipelines.Run

/-!
# An engine in the client's process

An engine that runs beside the client is a script: the items with which it answers a
request. Between the two stands a bounded queue. The engine waits when the queue is full
and the client waits when it is empty, and nothing else says which of them moves next.

`Link` is the state of both ends, and `Link.run` plays a schedule of moves. A client that
reads the script as one stream (`Engine.submit`) sees the same run, whatever the
schedule.
-/

namespace MiningPipelines

/-- An engine by the items with which it answers a request. -/
structure Engine where
  script : Wire.Request → List Item

namespace Engine

/-- Answers every request with the same messages. -/
def ofMessages (messages : List Wire.Message) : Engine := ⟨fun _ => messages.map .ok⟩

/-- Submits a request and opens the stream of the script. -/
def submit (engine : Engine) (r : Wire.Request) : Exchange where
  logs := []
  opening := .opened ((engine.script r).map .item)

/-- An engine in the process keeps no values of its executions. -/
def lookup (_ : Wire.ContextRequest) : Except Failure Wire.ContextReply :=
  .error (.transport .noContextValues)

/-- The client of an engine in the process. -/
def client (engine : Engine) : Client := ⟨engine.submit, lookup⟩

end Engine

/-- A run between two items of its stream, or after its end. -/
inductive Progress (σ : Type) where
  | running (index : Nat) (r : Run σ)
  | ended (r : Run σ) (outcome : Outcome)

/-- The run takes the next item, or finds that there is none. -/
def Run.advance {σ : Type} (handlers : Behaviour) (sink : Sink σ) (index : Nat) (r : Run σ) :
    Option Item → Progress σ
  | none =>
    match r.conclude sink (.error (.protocol index .noFinalResult)) with
    | (r, outcome) => .ended r outcome
  | some x =>
    match r.handleItem handlers sink index x with
    | (r, none) => .running (index + 1) r
    | (r, some result) =>
      match r.conclude sink result with
      | (r, outcome) => .ended r outcome

/-- What the engine has still to do. -/
inductive Agenda where
  /-- It has not looked at the request. -/
  | waiting (r : Wire.Request)
  /-- It has these items left to send. -/
  | sending (left : List Item)

/-- Both ends of a queue between an engine and a run. -/
structure Link (σ : Type) where
  capacity : Nat
  agenda : Agenda
  /-- The requests that the engine has looked at. -/
  requests : List Wire.Request
  queue : List Item
  progress : Progress σ

/-- Who moves. -/
inductive Mover where
  | engine
  | client
deriving DecidableEq

namespace Link

variable {σ : Type}

/-- A link with room for at least one item, before anyone has moved. -/
def start (capacity : Nat) (request : Wire.Request) (r : Run σ) : Link σ :=
  ⟨max capacity 1, .waiting request, [], [], .running 0 r⟩

/-- The engine looks at the request, or sends its next item if there is a client and
room; otherwise it waits. -/
def moveEngine (engine : Engine) (l : Link σ) : Link σ :=
  match l.agenda, l.progress with
  | .waiting request, _ =>
    { l with agenda := .sending (engine.script request), requests := l.requests ++ [request] }
  | .sending (x :: left), .running _ _ =>
    if l.queue.length < l.capacity then
      { l with agenda := .sending left, queue := l.queue ++ [x] }
    else l
  | _, _ => l

/-- The client takes an item, or finds the end of the stream when the engine has sent all;
otherwise it waits. -/
def moveClient (handlers : Behaviour) (sink : Sink σ) (l : Link σ) : Link σ :=
  match l.progress with
  | .ended _ _ => l
  | .running index r =>
    if r.signal.fired then
      match r.cancel sink with
      | (r, outcome) => { l with progress := .ended r outcome }
    else
      match l.queue, l.agenda with
      | x :: rest, _ =>
        { l with queue := rest, progress := r.advance handlers sink index (some x) }
      | [], .sending [] => { l with progress := r.advance handlers sink index none }
      | [], _ => l

/-- Plays a schedule. -/
def run (engine : Engine) (handlers : Behaviour) (sink : Sink σ) (l : Link σ)
    (schedule : List Mover) : Link σ :=
  schedule.foldl (fun l mover =>
    match mover with
    | .engine => l.moveEngine engine
    | .client => l.moveClient handlers sink) l

end Link

end MiningPipelines
