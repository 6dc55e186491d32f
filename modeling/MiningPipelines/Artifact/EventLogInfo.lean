import MiningPipelines.Values

/-!
# Counts of an event log
-/

namespace MiningPipelines

/-- How many events, traces and classes of events a log has. -/
structure EventLogInfo where
  events : UInt64
  traces : UInt64
  eventClasses : UInt64
deriving DecidableEq, Inhabited

namespace EventLogInfo

/-- Reads the three counts, all of which have to be there. -/
def ofDocument? (d : Document) : Option EventLogInfo := do
  let r ← d.record? ["eventsCount", "tracesCount", "eventClassesCount"]
  let events ← r.required "eventsCount" Document.uint64?
  let traces ← r.required "tracesCount" Document.uint64?
  let eventClasses ← r.required "eventClassesCount" Document.uint64?
  some ⟨events, traces, eventClasses⟩

def toJson (info : EventLogInfo) : Json :=
  .ofFields [("eventsCount", .number (.natural info.events)),
    ("tracesCount", .number (.natural info.traces)),
    ("eventClassesCount", .number (.natural info.eventClasses))]

/-- The counts among the values of a result. -/
def ofValues (values : Values) : Except Failure EventLogInfo :=
  Values.readArtifact values .eventLogInfo .eventLogInfo ofDocument?

end EventLogInfo

end MiningPipelines
