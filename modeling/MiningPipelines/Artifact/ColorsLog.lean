import MiningPipelines.Values

/-!
# Colored logs

A diagram of a log is a row of colored rectangles for each trace. Its legend lists the
names of the rectangles, each once, where it is first seen.
-/

namespace MiningPipelines

structure Color where
  red : UInt8
  green : UInt8
  blue : UInt8
deriving DecidableEq

structure Rectangle where
  color : Color
  startIndex : UInt32
  length : UInt32
  name : String
deriving DecidableEq

/-- Rows of rectangles, one for each trace. -/
structure ColorsLog where
  traces : List (List Rectangle)
deriving DecidableEq

/-- The JSON number of a word. -/
def Json.ofUInt32 (n : UInt32) : Json := .number (.natural n.toUInt64)

namespace Color

/-- Reads a color; a channel is below 256. -/
def ofDocument? (d : Document) : Option Color := do
  let r ← d.record? ["red", "green", "blue"]
  let red ← r.required "red" Document.uint8?
  let green ← r.required "green" Document.uint8?
  let blue ← r.required "blue" Document.uint8?
  some ⟨red, green, blue⟩

def toJson (c : Color) : Json :=
  .ofFields [("red", .number (.natural c.red.toUInt64)),
    ("green", .number (.natural c.green.toUInt64)),
    ("blue", .number (.natural c.blue.toUInt64))]

end Color

namespace Rectangle

def ofDocument? (d : Document) : Option Rectangle := do
  let r ← d.record? ["color", "startIndex", "length", "name"]
  let color ← r.required "color" Color.ofDocument?
  let startIndex ← r.required "startIndex" Document.uint32?
  let length ← r.required "length" Document.uint32?
  let name ← r.required "name" Document.text?
  some ⟨color, startIndex, length, name⟩

def toJson (r : Rectangle) : Json :=
  .ofFields [("color", r.color.toJson), ("startIndex", .ofUInt32 r.startIndex),
    ("length", .ofUInt32 r.length), ("name", .text r.name)]

end Rectangle

namespace ColorsLog

/-- Reads one row; its list may be absent. -/
def traceOfDocument? (d : Document) : Option (List Rectangle) := do
  let r ← d.record? ["eventColors"]
  r.orElse "eventColors" [] (Document.list? Rectangle.ofDocument?)

/-- Reads a log; the list of rows may be absent. -/
def ofDocument? (d : Document) : Option ColorsLog := do
  let r ← d.record? ["traces"]
  let traces ← r.orElse "traces" [] (Document.list? traceOfDocument?)
  some ⟨traces⟩

def toJson (log : ColorsLog) : Json :=
  .ofFields [("traces", .array (log.traces.map fun trace =>
    .ofFields [("eventColors", .array (trace.map Rectangle.toJson))]))]

/-- The colored log among the values of a result. -/
def ofValues (values : Values) : Except Failure ColorsLog :=
  Values.readArtifact values .colorsEventLog .colorsLog ofDocument?

/-- Appends a name that is not there yet. -/
def note (names : List String) (r : Rectangle) : List String :=
  if names.contains r.name then names else names ++ [r.name]

/-- The names of the rectangles, in the order in which they are first seen. -/
def legend (log : ColorsLog) : List String := log.traces.flatten.foldl note []

end ColorsLog

end MiningPipelines
