import MiningPipelines.Event

/-!
# Event sinks

A sink takes the events of a run one by one and never makes the run wait. Each `send`
says whether the event was delivered, gives the next state of the sink, and may write to
the log.
-/

namespace MiningPipelines

/-- Why an event was not delivered. -/
inductive SendFault where
  | disconnected
  | full (kind : String)
  | poisoned
deriving DecidableEq

/-- The name of the kind of fault. -/
def SendFault.kind : SendFault → String
  | disconnected => "Disconnected"
  | full _ => "Full"
  | poisoned => "Poisoned"

def SendFault.message : SendFault → String
  | disconnected => "event receiver dropped"
  | full kind => "event buffer full, dropped " ++ kind ++ " event"
  | poisoned => "event buffer poisoned"

/-- What came of sending an event. -/
structure Delivery (σ : Type) where
  result : Except SendFault Unit
  state : σ
  logs : List LogRecord

/-- A receiver of events with states `σ`. -/
structure Sink (σ : Type) where
  send : σ → Event → Delivery σ

namespace Sink

/-- Drops every event. -/
def discarding : Sink Unit := ⟨fun s _ => ⟨.ok (), s, []⟩⟩

/-- Writes every event to the log. -/
def logging : Sink Unit := ⟨fun s e => ⟨.ok (), s, [e.logRecord]⟩⟩

/-- Keeps every event. -/
def collecting : Sink (List Event) := ⟨fun events e => ⟨.ok (), events ++ [e], []⟩⟩

/-- Delivers no event. -/
def failing : Sink Unit := ⟨fun s _ => ⟨.error .poisoned, s, []⟩⟩

end Sink

/-- A bounded buffer between a run and a reader of its events. -/
structure EventBuffer where
  capacity : Nat
  events : List Event
  /-- The reader is still there. -/
  isOpen : Bool

namespace EventBuffer

/-- An empty buffer with room for at least one event. -/
def ofCapacity (capacity : Nat) : EventBuffer := ⟨max capacity 1, [], true⟩

/-- Puts an event at the end, if there is a reader and room. -/
def send (b : EventBuffer) (e : Event) : Delivery EventBuffer :=
  if !b.isOpen then ⟨.error .disconnected, b, []⟩
  else if b.capacity ≤ b.events.length then ⟨.error (.full e.kind), b, []⟩
  else ⟨.ok (), { b with events := b.events ++ [e] }, []⟩

/-- Takes the first event. -/
def receive (b : EventBuffer) : Option Event × EventBuffer :=
  match b.events with
  | [] => (none, b)
  | e :: rest => (some e, { b with events := rest })

/-- Ends reading; what was not read is lost. -/
def close (b : EventBuffer) : EventBuffer := { b with events := [], isOpen := false }

end EventBuffer

/-- Sends into a bounded buffer. -/
def Sink.buffered : Sink EventBuffer := ⟨EventBuffer.send⟩

end MiningPipelines
