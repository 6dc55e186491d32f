import MiningPipelines.Proto.Message

/-!
# Reading binary messages

Each reader reads onto a message that is there already. Of two contents of a value the
later one counts, but a nested message of the same kind is read onto the earlier one. The
readers of values, parts, operations and entries call each other, and each call takes one
of the levels that a message may nest.
-/

namespace MiningPipelines

namespace Proto

/-- Reads a message around one text. -/
def readName : Nat → String → Bytes → Option String :=
  readLevels fun _ => [(1, fun _ p => p.text?)]

/-- Reads a nested message around one text, which replaces an earlier one. -/
def nameField? (n : Nat) (old : Option String) (p : Payload) : Option (Option String) :=
  (p.message? (readName n) (old.getD "")).map some

def readNamesTrace : Nat → List String → Bytes → Option (List String) :=
  readLevels fun _ => [(1, Payload.appendText?)]

def readNamesLog : Nat → List (List String) → Bytes → Option (List (List String)) :=
  readLevels fun n => [(1, Payload.append? (readNamesTrace n) [])]

def readHashesTrace : Nat → List UInt64 → Bytes → Option (List UInt64) :=
  readLevels fun _ => [(1, Payload.appendUInt64?)]

def readHashesLog : Nat → List (List UInt64) → Bytes → Option (List (List UInt64)) :=
  readLevels fun n => [(2, Payload.append? (readHashesTrace n) [])]

/-- Reads a message around a log that may be missing. -/
def readOptionalLog {α : Type} (readLog : Nat → List α → Bytes → Option (List α)) :
    Nat → Option (List α) → Bytes → Option (Option (List α)) :=
  readLevels fun n => [(1, fun log p => (p.message? (readLog n) (log.getD [])).map some)]

def readEnum : Nat → String × String → Bytes → Option (String × String) :=
  readLevels fun _ =>
    [(1, fun e p => p.text?.map fun s => (s, e.2)),
      (2, fun e p => p.text?.map fun s => (e.1, s))]

def readStrings : Nat → List String → Bytes → Option (List String) :=
  readLevels fun _ => [(1, Payload.appendText?)]

namespace Value

/-- A value that holds `c`. -/
def ofContent (c : Content) : Value := ⟨some c⟩

/-! What a value holds already when a nested message of the same kind follows. -/

def hashes : Value → Option (List (List UInt64))
  | ⟨some (.hashesLog traces)⟩ => traces
  | _ => none

def names : Value → Option (List (List String))
  | ⟨some (.namesLog traces)⟩ => traces
  | _ => none

def enumNames : Value → String × String
  | ⟨some (.enum enumType variant)⟩ => (enumType, variant)
  | _ => ("", "")

def texts : Value → List String
  | ⟨some (.strings items)⟩ => items
  | _ => []

def parts : Value → List Part
  | ⟨some (.pipeline parts)⟩ => parts
  | _ => []

def colors : Value → List (List Rectangle)
  | ⟨some (.artifact (.colorsLog traces))⟩ => traces
  | _ => []

def counts : Value → EventLogInfo
  | ⟨some (.artifact (.eventLogInfo info))⟩ => info
  | _ => .empty

def graph : Value → Graph
  | ⟨some (.artifact (.graph g))⟩ => g
  | _ => .empty

def subArrays : Value → List (List SubArray)
  | ⟨some (.artifact (.tracesSubArrays traces))⟩ => traces
  | _ => []

def indexedSubArrays : Value → List IndexedSubArray
  | ⟨some (.artifact (.traceIndexSubArrays arrays))⟩ => arrays
  | _ => []

/-- The rules of a value, given how to read the parts of a pipeline. -/
def rules (readParts : List Part → Bytes → Option (List Part)) (n : Nat) : Rules Value :=
  [(1, fun _ p => p.text?.map fun s => ofContent (.string s)),
    (2, fun v p => (p.message? (readOptionalLog readHashesLog n) v.hashes).map
      fun traces => ofContent (.hashesLog traces)),
    (3, fun v p => (p.message? (readOptionalLog readNamesLog n) v.names).map
      fun traces => ofContent (.namesLog traces)),
    (4, fun _ p => p.uint32?.map fun n => ofContent (.uint32 n)),
    (5, fun v p => (p.message? (SubArray.readLists n) v.subArrays).map
      fun traces => ofContent (.artifact (.tracesSubArrays traces))),
    (6, fun v p => (p.message? (IndexedSubArray.readList n) v.indexedSubArrays).map
      fun arrays => ofContent (.artifact (.traceIndexSubArrays arrays))),
    (7, fun _ p => p.bool?.map fun b => ofContent (.bool b)),
    (9, fun v p => (p.message? (Rectangle.readLists n) v.colors).map
      fun traces => ofContent (.artifact (.colorsLog traces))),
    (10, fun v p => (p.message? (readEnum n) v.enumNames).map
      fun (enumType, variant) => ofContent (.enum enumType variant)),
    (11, fun v p => (p.message? (EventLogInfo.read n) v.counts).map
      fun info => ofContent (.artifact (.eventLogInfo info))),
    (12, fun v p => (p.message? (readStrings n) v.texts).map
      fun items => ofContent (.strings items)),
    (13, fun v p => (p.message? readParts v.parts).map
      fun parts => ofContent (.pipeline parts)),
    (15, fun v p => (p.message? (Graph.read n) v.graph).map
      fun g => ofContent (.artifact (.graph g))),
    (16, fun _ p => p.single?.map fun x => ofContent (.float x))]

end Value

namespace Operation

def empty : Operation := ⟨"", none⟩

end Operation

namespace Entry

def empty : Entry := ⟨none, none⟩

end Entry

namespace Part

/-- A part of the given shape. -/
def ofShape (s : Shape) : Part := ⟨some s⟩

/-! What a part is already when a nested message of the same shape follows. -/

def op : Part → Operation
  | ⟨some (.operation op)⟩ => op
  | _ => .empty

def children : Part → List Part
  | ⟨some (.parallel parts)⟩ => parts
  | _ => []

/-- The key and the tag of a fetch. -/
def fetched : Part → Option String × Option String
  | ⟨some (.fetch key tag)⟩ => (key, tag)
  | _ => (none, none)

/-- The key, the operation and the tag of a fetch after an operation. -/
def fetchedAfter : Part → Option String × Option Operation × Option String
  | ⟨some (.fetchAfter key before tag)⟩ => (key, before, tag)
  | _ => (none, none, none)

end Part

/-- Reads the key and the tag of a fetch. -/
def readFetch :
    Nat → Option String × Option String → Bytes → Option (Option String × Option String) :=
  readLevels fun n =>
    [(1, fun (key, tag) p => (nameField? n key p).map fun key => (key, tag)),
      (2, fun (key, tag) p => (nameField? n tag p).map fun tag => (key, tag))]

mutual

/-- Reads a value. -/
def Value.read : Nat → Value → Bytes → Option Value
  | 0, _, _ => none
  | n + 1, v, bs => merge n (Value.rules (Part.readList n) n) v bs

/-- Reads a message of parts: a pipeline, or what runs in parallel. -/
def Part.readList : Nat → List Part → Bytes → Option (List Part)
  | 0, _, _ => none
  | n + 1, parts, bs => merge n [(1, Payload.append? (Part.read n) ⟨none⟩)] parts bs

/-- Reads a part. -/
def Part.read : Nat → Part → Bytes → Option Part
  | 0, _, _ => none
  | n + 1, part, bs =>
    merge n
      [(1, fun part p => (p.message? (Operation.read n) part.op).map
          fun op => .ofShape (.operation op)),
        (2, fun part p => (p.message? (Part.readList n) part.children).map
          fun parts => .ofShape (.parallel parts)),
        (3, fun part p => (p.message? (readFetch n) part.fetched).map
          fun (key, tag) => .ofShape (.fetch key tag)),
        (4, fun part p => (p.message? (Part.readFetchAfter n) part.fetchedAfter).map
          fun (key, before, tag) => .ofShape (.fetchAfter key before tag))]
      part bs

/-- Reads the key, the operation and the tag of a fetch after an operation. -/
def Part.readFetchAfter :
    Nat → Option String × Option Operation × Option String → Bytes →
      Option (Option String × Option Operation × Option String)
  | 0, _, _ => none
  | n + 1, fetch, bs =>
    merge n
      [(1, fun (key, before, tag) p => (nameField? n key p).map
          fun key => (key, before, tag)),
        (2, fun (key, before, tag) p =>
          (p.message? (Operation.read n) (before.getD .empty)).map
            fun op => (key, some op, tag)),
        (3, fun (key, before, tag) p => (nameField? n tag p).map
          fun tag => (key, before, tag))]
      fetch bs

/-- Reads an operation. -/
def Operation.read : Nat → Operation → Bytes → Option Operation
  | 0, _, _ => none
  | n + 1, op, bs =>
    merge n
      [(1, fun op p => p.text?.map fun s => { op with name := s }),
        (2, fun op p => (p.message? (Entry.readList n) (op.config.getD [])).map
          fun entries => { op with config := some entries })]
      op bs

/-- Reads a configuration. -/
def Entry.readList : Nat → List Entry → Bytes → Option (List Entry)
  | 0, _, _ => none
  | n + 1, entries, bs => merge n [(1, Payload.append? (Entry.read n) .empty)] entries bs

/-- Reads an entry. -/
def Entry.read : Nat → Entry → Bytes → Option Entry
  | 0, _, _ => none
  | n + 1, entry, bs =>
    merge n
      [(1, fun entry p => (nameField? n entry.key p).map fun key => { entry with key := key }),
        (2, fun entry p => (p.message? (Value.read n) (entry.value.getD ⟨none⟩)).map
          fun v => { entry with value := some v })]
      entry bs

end

/-- Reads a request. -/
def Request.read : Nat → Request → Bytes → Option Request :=
  readLevels fun n =>
    [(1, fun r p => (p.message? (Part.readList n) (r.pipeline.getD [])).map
        fun parts => { r with pipeline := some parts }),
      (2, fun r p => (p.append? (Entry.read n) .empty r.context).map
        fun entries => { r with context := entries })]

def PartResult.empty : PartResult := ⟨[], none⟩

/-- Reads the values for one fetch. -/
def PartResult.read : Nat → PartResult → Bytes → Option PartResult :=
  readLevels fun n =>
    [(1, fun r p => (p.append? (Entry.read n) .empty r.values).map
        fun entries => { r with values := entries }),
      (2, fun r p => (nameField? n r.tag p).map fun tag => { r with tag := tag })]

/-- The identifier that a verdict holds already. -/
def Verdict.executionId : Option Verdict → String
  | some (success executionId) => executionId
  | _ => ""

/-- Reads how a run ended. -/
def Verdict.read : Nat → Option Verdict → Bytes → Option (Option Verdict) :=
  readLevels fun n =>
    [(1, fun v p => (p.message? (readName n) (executionId v)).map
        fun id => some (.success id)),
      (2, fun _ p => p.text?.map fun s => some (.error s))]

namespace Message

def empty : Message := ⟨none⟩

/-! What a message says already when a nested message of the same kind follows. -/

def verdict : Message → Option Verdict
  | ⟨some (.final verdict)⟩ => verdict
  | _ => none

def result : Message → PartResult
  | ⟨some (.result r)⟩ => r
  | _ => .empty

def logText : Message → String
  | ⟨some (.log text)⟩ => text
  | _ => ""

/-- Reads a message of a stream. -/
def read : Nat → Message → Bytes → Option Message :=
  readLevels fun n =>
    [(1, fun m p => (p.message? (Verdict.read n) m.verdict).map
        fun verdict => ⟨some (.final verdict)⟩),
      (2, fun m p => (p.message? (PartResult.read n) m.result).map
        fun r => ⟨some (.result r)⟩),
      (3, fun m p => (p.message? (readName n) m.logText).map
        fun text => ⟨some (.log text)⟩)]

end Message

/-- Reads a request for a value. -/
def ContextRequest.read : Nat → ContextRequest → Bytes → Option ContextRequest :=
  readLevels fun n =>
    [(1, fun r p => (nameField? n r.executionId p).map
        fun id => { r with executionId := id }),
      (2, fun r p => (nameField? n r.key p).map fun key => { r with key := key })]

/-- The value that an answer holds already. -/
def ContextReply.found : ContextReply → Value
  | ⟨some (.value v)⟩ => v
  | _ => ⟨none⟩

/-- Reads the answer to a request for a value. -/
def ContextReply.read : Nat → ContextReply → Bytes → Option ContextReply :=
  readLevels fun n =>
    [(1, fun r p => (p.message? (Value.read n) r.found).map fun v => ⟨some (.value v)⟩),
      (2, fun _ p => p.text?.map fun s => ⟨some (.error s)⟩)]

/-! ## Whole messages -/

def Value.parse : Bytes → Option Value := Value.read maxLevels ⟨none⟩

def Request.parse : Bytes → Option Request := Request.read maxLevels ⟨none, []⟩

def Message.parse : Bytes → Option Message := Message.read maxLevels .empty

def ContextRequest.parse : Bytes → Option ContextRequest :=
  ContextRequest.read maxLevels ⟨none, none⟩

def ContextReply.parse : Bytes → Option ContextReply := ContextReply.read maxLevels ⟨none⟩

end Proto

end MiningPipelines
