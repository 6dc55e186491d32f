import Mathlib.Data.Set.List
import Mathlib.Logic.Function.Defs
import MiningPipelines.Artifact.ColorsLog
import MiningPipelines.Artifact.EventLogInfo
import MiningPipelines.Artifact.Graph
import MiningPipelines.Proofs.AllOrNothing
import MiningPipelines.Proofs.Sending

/-!
# Analysis results a caller reads

The client has types of its own for three analysis results, beside the messages of the binary
protocol. A graph and the counts of a log have more values there (a text may be missing, a
count has 64 bits), so each message has a typed form (`Proto.Graph.typed`,
`Proto.EventLogInfo.typed`). A colored log has fewer (a color cannot be missing, a channel has
8 bits), so each log has a message (`ColorsLog.toProto`).

Both forms have one JSON payload, and reading the payload into either form undoes writing it. So a
result that comes in a message is read as its typed form (`typed_results_arrive`), and a typed
result that has a message comes back from it (`typed_results_return`).
-/

namespace MiningPipelines

open Function

/-! ## Messages and their typed forms -/

namespace Proto

def GraphNode.typed (v : GraphNode) : MiningPipelines.GraphNode := ⟨v.id, some v.data⟩

def GraphEdge.typed (e : GraphEdge) : MiningPipelines.GraphEdge :=
  ⟨e.source, e.target, some e.data⟩

/-- The graph that a message gives; no text is missing. -/
def Graph.typed (g : Graph) : MiningPipelines.Graph :=
  ⟨g.nodes.map GraphNode.typed, g.edges.map GraphEdge.typed⟩

/-- The counts that a message gives. -/
def EventLogInfo.typed (info : EventLogInfo) : MiningPipelines.EventLogInfo :=
  ⟨info.events.toUInt64, info.traces.toUInt64, info.eventClasses.toUInt64⟩

/-- The rectangle has a color, and its channels have 8 bits. -/
def Rectangle.Drawable (r : Rectangle) : Prop :=
  ∃ c, r.color = some c ∧ c.red ≤ 255 ∧ c.green ≤ 255 ∧ c.blue ≤ 255

end Proto

def Color.toProto (c : Color) : Proto.Color :=
  ⟨c.red.toUInt32, c.green.toUInt32, c.blue.toUInt32⟩

def Rectangle.toProto (r : Rectangle) : Proto.Rectangle :=
  ⟨some r.color.toProto, r.startIndex, r.length, r.name⟩

/-- The message of a colored log, as a list of traces. -/
def ColorsLog.toProto (log : ColorsLog) : List (List Proto.Rectangle) :=
  log.traces.map (List.map Rectangle.toProto)

/-! ## Numbers of several widths -/

/-- A channel up to 255 is not changed by narrowing it. -/
theorem toUInt32_toUInt8 {n : UInt32} (h : n.toNat < UInt8.size) : n.toUInt8.toUInt32 = n := by
  rw [← UInt32.toNat_inj, UInt8.toNat_toUInt32, UInt32.toNat_toUInt8]
  exact Nat.mod_eq_of_lt h

theorem toUInt64_toUInt32 {n : UInt64} (h : n.toNat < UInt32.size) : n.toUInt32.toUInt64 = n := by
  rw [← UInt64.toNat_inj, UInt32.toNat_toUInt64, UInt64.toNat_toUInt32]
  exact Nat.mod_eq_of_lt h

namespace Json

theorem ofNat_toNat_uint64 (n : UInt64) : ofNat n.toNat = .number (.natural n) := by
  simp [ofNat]

theorem ofNat_toNat_uint32 (n : UInt32) : ofNat n.toNat = .number (.natural n.toUInt64) := by
  simp [ofNat]

/-- A channel is read back exactly if it is the wide form of a byte. -/
theorem uint8?_ofNat {n : UInt32} {b : UInt8} :
    (ofNat n.toNat).toDocument.uint8? = some b ↔ b.toUInt32 = n := by
  have hread : (ofNat n.toNat).toDocument.uint8? =
      if n.toNat < UInt8.size then some n.toUInt8 else none := by
    simp [ofNat, toDocument, Document.uint8?, Document.uint64?]
  rw [hread, Option.ite_none_right_eq_some, Option.some.injEq]
  constructor
  · rintro ⟨hn, rfl⟩
    exact toUInt32_toUInt8 hn
  · rintro rfl
    exact ⟨b.toNat_lt_size, by simp⟩

/-- A count is read back exactly if it fits 32 bits. -/
theorem uint32?_natural {n : UInt64} {k : UInt32} :
    (number (.natural n)).toDocument.uint32? = some k ↔ k.toUInt64 = n := by
  have hread : (number (.natural n)).toDocument.uint32? =
      if n.toNat < UInt32.size then some n.toUInt32 else none := rfl
  rw [hread, Option.ite_none_right_eq_some, Option.some.injEq]
  constructor
  · rintro ⟨hn, rfl⟩
    exact toUInt64_toUInt32 hn
  · rintro rfl
    exact ⟨k.toNat_lt_size, by simp⟩

end Json

/-! ## One payload for both forms -/

theorem GraphNode.toJson_typed (v : Proto.GraphNode) : v.typed.toJson = v.toJson := by
  rw [toJson, Proto.GraphNode.toJson, Json.ofNat_toNat_uint64]
  rfl

theorem GraphEdge.toJson_typed (e : Proto.GraphEdge) : e.typed.toJson = e.toJson := by
  rw [toJson, Proto.GraphEdge.toJson, Json.ofNat_toNat_uint64, Json.ofNat_toNat_uint64]
  rfl

/-- The typed graph is written as the message is. -/
theorem Graph.toJson_typed (g : Proto.Graph) : g.typed.toJson = g.toJson := by
  simp [toJson, Proto.Graph.toJson, Proto.Graph.typed, Function.comp_def,
    GraphNode.toJson_typed, GraphEdge.toJson_typed]

/-- The typed counts are written as the message is. -/
theorem EventLogInfo.toJson_typed (info : Proto.EventLogInfo) :
    info.typed.toJson = info.toJson := by
  simp only [toJson, Proto.EventLogInfo.toJson, Proto.EventLogInfo.typed, Json.ofNat_toNat_uint32]

/-- Channels are written as numbers, whatever width they have. -/
theorem Color.toJson_toProto (c : Color) : c.toProto.toJson = c.toJson := by
  simp [toJson, Proto.Color.toJson, toProto, Json.ofNat]

theorem Rectangle.toJson_toProto (r : Rectangle) : r.toProto.toJson = r.toJson := by
  simp [toJson, Proto.Rectangle.toJson, toProto, Json.ofUInt32, Json.ofNat_toNat_uint32,
    Color.toJson_toProto]

/-- A typed log is written as the message made of it. -/
theorem ColorsLog.toJson_toProto (log : ColorsLog) :
    Proto.Rectangle.listsToJson log.toProto = log.toJson := by
  simp [toJson, Proto.Rectangle.listsToJson, Proto.Rectangle.listToJson, toProto,
    Function.comp_def, Rectangle.toJson_toProto]

/-! ## Reading undoes writing -/

theorem GraphNode.ofDocument?_toJson (v : GraphNode) :
    ofDocument? v.toJson.toDocument = some v := by
  obtain ⟨id, data⟩ := v
  obtain ⟨r, hr, hfind⟩ := Json.exists_record?_ofFields ["id", "data"]
    [("id", .number (.natural id)), ("data", .ofText? data)]
  rw [ofDocument?, toJson, hr]
  cases data <;> simp [Record.required, Record.slot, hfind, Json.ofText?, Json.toDocument,
    Document.uint64?, Document.text?]

theorem GraphEdge.ofDocument?_toJson (e : GraphEdge) :
    ofDocument? e.toJson.toDocument = some e := by
  obtain ⟨source, target, data⟩ := e
  obtain ⟨r, hr, hfind⟩ := Json.exists_record?_ofFields ["fromNode", "toNode", "data"]
    [("fromNode", .number (.natural source)), ("toNode", .number (.natural target)),
      ("data", .ofText? data)]
  rw [ofDocument?, toJson, hr]
  cases data <;> simp [Record.required, Record.slot, hfind, Json.ofText?, Json.toDocument,
    Document.uint64?, Document.text?]

/-- Every typed graph is read back. -/
theorem Graph.ofDocument?_toJson (g : Graph) : ofDocument? g.toJson.toDocument = some g := by
  obtain ⟨r, hr, hfind⟩ := Json.exists_record?_ofFields ["nodes", "edges"]
    [("nodes", .array (g.nodes.map GraphNode.toJson)),
      ("edges", .array (g.edges.map GraphEdge.toJson))]
  rw [ofDocument?, toJson, hr]
  simp [Record.orElse, hfind, Proto.list?_array GraphNode.ofDocument?_toJson,
    Proto.list?_array GraphEdge.ofDocument?_toJson]

/-- Typed counts of any size are read back. -/
theorem EventLogInfo.ofDocument?_toJson (info : EventLogInfo) :
    ofDocument? info.toJson.toDocument = some info := by
  obtain ⟨r, hr, hfind⟩ := Json.exists_record?_ofFields
    ["eventsCount", "tracesCount", "eventClassesCount"]
    [("eventsCount", .number (.natural info.events)),
      ("tracesCount", .number (.natural info.traces)),
      ("eventClassesCount", .number (.natural info.eventClasses))]
  rw [ofDocument?, toJson, hr]
  simp [Record.required, hfind, Json.toDocument, Document.uint64?]

/-- Counts can be read into the message exactly if they come from one. -/
theorem EventLogInfo.isPartialInv_typed : IsPartialInv Proto.EventLogInfo.typed
    fun info : EventLogInfo => Proto.EventLogInfo.ofDocument? info.toJson.toDocument := by
  rintro ⟨events, traces, classes⟩ ⟨n, m, k⟩
  obtain ⟨r, hr, hfind⟩ := Json.exists_record?_ofFields
    ["eventsCount", "tracesCount", "eventClassesCount"]
    [("eventsCount", .number (.natural n)), ("tracesCount", .number (.natural m)),
      ("eventClassesCount", .number (.natural k))]
  change Proto.EventLogInfo.ofDocument? (toJson ⟨n, m, k⟩).toDocument = _ ↔ _
  rw [Proto.EventLogInfo.ofDocument?, toJson, hr]
  simp [Record.orElse, hfind, Json.uint32?_natural, Option.bind_eq_some_iff,
    Proto.EventLogInfo.typed]

/-! A colored log can be read from a message exactly if it has that message. -/

/-- A color is read exactly if its channels are bytes, and then it is sent as it came. -/
theorem Color.isPartialInv_toProto : IsPartialInv toProto
    fun c : Proto.Color => ofDocument? c.toJson.toDocument := by
  rintro ⟨red, green, blue⟩ ⟨r, g, b⟩
  obtain ⟨record, hrecord, hfind⟩ := Json.exists_record?_ofFields ["red", "green", "blue"]
    [("red", .ofNat r.toNat), ("green", .ofNat g.toNat), ("blue", .ofNat b.toNat)]
  change ofDocument? (Proto.Color.toJson ⟨r, g, b⟩).toDocument = _ ↔ _
  rw [ofDocument?, Proto.Color.toJson, hrecord]
  simp [Record.required, hfind, Json.uint8?_ofNat, Option.bind_eq_some_iff, toProto]

/-- A rectangle is read exactly if it has a color that is. -/
theorem Rectangle.isPartialInv_toProto : IsPartialInv toProto
    fun r : Proto.Rectangle => ofDocument? r.toJson.toDocument := by
  rintro ⟨color, start, length, name⟩ ⟨c, s, l, n⟩
  obtain ⟨record, hrecord, hfind⟩ := Json.exists_record?_ofFields
    ["color", "startIndex", "length", "name"]
    [("color", (c.map Proto.Color.toJson).getD .null), ("startIndex", .ofNat s.toNat),
      ("length", .ofNat l.toNat), ("name", .text n)]
  have hcolor : ∀ x, record.required "color" Color.ofDocument? = some x ↔ some x.toProto = c := by
    intro x
    cases c with
    | none => simp [Record.required, hfind, Json.toDocument, Color.ofDocument?, Document.record?]
    | some c => simp [Record.required, hfind, Color.isPartialInv_toProto x c]
  have hread : ofDocument? (Proto.Rectangle.toJson ⟨c, s, l, n⟩).toDocument =
      (record.required "color" Color.ofDocument?).bind fun x => some ⟨x, s, l, n⟩ := by
    rw [ofDocument?, Proto.Rectangle.toJson, hrecord]
    simp [Record.required, hfind]
  change ofDocument? (Proto.Rectangle.toJson ⟨c, s, l, n⟩).toDocument = _ ↔ _
  simp only [hread, Option.bind_eq_some_iff, hcolor, Option.some.injEq, toProto,
    Proto.Rectangle.mk.injEq, mk.injEq]
  constructor
  · rintro ⟨_, hc, rfl, rfl, rfl, rfl⟩
    exact ⟨hc, rfl, rfl, rfl⟩
  · rintro ⟨hc, rfl, rfl, rfl⟩
    exact ⟨_, hc, rfl, rfl, rfl, rfl⟩

/-- Lists are read back exactly if their items are. -/
theorem isPartialInv_mapM {α β : Type} {g : β → α} {f : α → Option β} (h : IsPartialInv g f) :
    IsPartialInv (List.map g) (List.mapM f) := by
  intro bs as
  induction as generalizing bs with
  | nil => simp
  | cons a as ih =>
    rw [List.mapM_cons]
    cases bs with
    | nil => simp [Option.bind_eq_some_iff]
    | cons b bs =>
      simp only [bind, pure, Option.bind_eq_some_iff, h _ _, ih, List.map_cons, List.cons.injEq,
        Option.some.injEq]
      constructor
      · rintro ⟨_, rfl, _, rfl, rfl, rfl⟩
        exact ⟨rfl, rfl⟩
      · rintro ⟨rfl, rfl⟩
        exact ⟨_, rfl, _, rfl, rfl, rfl⟩

/-- A log is read exactly if it is one that could have been sent. -/
theorem ColorsLog.isPartialInv_toProto : IsPartialInv toProto
    fun traces => ofDocument? (Proto.Rectangle.listsToJson traces).toDocument := by
  have htrace : ∀ trace, traceOfDocument? (Proto.Rectangle.listToJson trace).toDocument =
      trace.mapM fun r => Rectangle.ofDocument? r.toJson.toDocument :=
    Proto.readList_map Rectangle.ofDocument? "eventColors"
  have hmk : ∀ d, ofDocument? d = ((d.record? ["traces"]).bind fun r =>
      r.orElse "traces" [] (Document.list? traceOfDocument?)).map mk := by
    intro d
    cases hrecord : d.record? ["traces"] with
    | none => simp [ofDocument?, hrecord]
    | some r => simp [ofDocument?, hrecord, Option.map_eq_bind]
  intro ⟨rows⟩ traces
  change ofDocument? (Proto.Rectangle.listsToJson traces).toDocument = _ ↔ _
  rw [hmk, Proto.Rectangle.listsToJson, Proto.readList_map, funext htrace,
    Option.map_eq_some_iff]
  have hrows := isPartialInv_mapM (isPartialInv_mapM Rectangle.isPartialInv_toProto) rows traces
  simp only [mk.injEq, exists_eq_right]
  exact hrows

/-- A rectangle can be drawn exactly if it is the message of one that a caller can read. -/
theorem Rectangle.mem_range_toProto {r : Proto.Rectangle} :
    r ∈ Set.range toProto ↔ r.Drawable := by
  have hle : ∀ b : UInt8, b.toUInt32 ≤ 255 := by
    intro b
    have hb := b.toNat_lt_size
    rw [UInt32.le_iff_toNat_le, UInt8.toNat_toUInt32]
    exact Nat.le_of_lt_succ hb
  have hwiden : ∀ n : UInt32, n ≤ 255 → n.toUInt8.toUInt32 = n :=
    fun n hn => toUInt32_toUInt8 (Nat.lt_succ_of_le (UInt32.le_iff_toNat_le.1 hn))
  constructor
  · rintro ⟨x, rfl⟩
    exact ⟨x.color.toProto, rfl, hle _, hle _, hle _⟩
  · obtain ⟨color, start, length, name⟩ := r
    rintro ⟨⟨red, green, blue⟩, rfl, hred, hgreen, hblue⟩
    refine ⟨⟨⟨red.toUInt8, green.toUInt8, blue.toUInt8⟩, start, length, name⟩, ?_⟩
    rw [toProto, Color.toProto, hwiden _ hred, hwiden _ hgreen, hwiden _ hblue]

/-- A log can be drawn exactly if each of its rectangles can. -/
theorem ColorsLog.exists_toProto_iff {traces : List (List Proto.Rectangle)} :
    (∃ log : ColorsLog, log.toProto = traces) ↔
      ∀ trace ∈ traces, ∀ r ∈ trace, r.Drawable := by
  have hrange : traces ∈ Set.range (List.map (List.map Rectangle.toProto)) ↔
      ∀ trace ∈ traces, ∀ r ∈ trace, r.Drawable := by
    simp only [Set.range_list_map, Set.mem_ofPred_eq, Rectangle.mem_range_toProto]
  rw [← hrange]
  exact ⟨fun ⟨log, h⟩ => ⟨log.traces, h⟩, fun ⟨rows, h⟩ => ⟨⟨rows⟩, h⟩⟩

/-! ## Results that come in a message -/

namespace Proto

/-- The entry of a result with an analysis result under a key. -/
def Artifact.under (a : Artifact) (key : Key) : Entry :=
  ⟨some key.name, some ⟨some (.artifact a)⟩⟩

/-- What a caller reads from an analysis result under a key is as `P` says, whatever stands
before and behind it in the result of a part. -/
structure Artifact.Arrives (a : Artifact) (key : Key) (P : Values → Prop) : Prop where
  /-- The entry is decoded to a value, and this can be read wherever it is under the key. -/
  received : ∀ before after tag, ∃ u v,
    Message.toWire ⟨some (.result ⟨before ++ a.under key :: after, tag⟩)⟩ = .result
      ⟨tag, Entry.listToWire before ++ (key.name, u) :: Entry.listToWire after⟩ ∧
    u.decode = .ok v ∧ ∀ values, Values.get? values key.name = some v → P values
  /-- If the other entries are decoded too, and no later one has the key, a handler gets values
  to read it from. -/
  delivered : ∀ before after tag, (∀ e ∈ after, e.toWire.1 ≠ key.name) →
    (∀ e ∈ before ++ after, ∃ v, e.toWire.2.decode = .ok v) →
    ∃ values, Run.decodeValues []
      (PartResult.toWire ⟨before ++ a.under key :: after, tag⟩).values = .ok values ∧ P values

theorem Entry.listToWire_eq_map : ∀ entries : List Entry, listToWire entries = entries.map toWire
  | [] => rfl
  | e :: rest => by rw [listToWire, listToWire_eq_map rest, List.map_cons]

/-- It is enough to read the value that has the message as its payload. -/
theorem Artifact.Arrives.of_value {a : Artifact} {key : Key} {P : Values → Prop}
    (h : ∀ values, Values.get? values key.name = some (.artifact a.kind a.toJson) → P values) :
    a.Arrives key P := by
  have hwire : ∀ before after, Entry.listToWire (before ++ a.under key :: after) =
      Entry.listToWire before ++
        (key.name, ⟨[.artifact a.kind a.toJson]⟩) :: Entry.listToWire after := by
    intro before after
    simp only [Entry.listToWire_eq_map, List.map_append, List.map_cons]
    rfl
  refine ⟨fun before after tag => ⟨⟨[.artifact a.kind a.toJson]⟩, _, ?_, rfl, h⟩,
    fun before after tag hlater hothers => ?_⟩
  · exact congrArg (fun values => Wire.Message.result ⟨tag, values⟩) (hwire before after)
  · obtain ⟨hbefore, hafter⟩ := List.forall_mem_append.1 hothers
    have hd : Wire.Entries.Decodable (Entry.listToWire (before ++ a.under key :: after)) := by
      rw [Entry.listToWire_eq_map, Wire.Entries.Decodable, List.forall_mem_map,
        List.forall_mem_append, List.forall_mem_cons]
      exact ⟨hbefore, ⟨_, rfl⟩, hafter⟩
    have hlast : ∀ e ∈ Entry.listToWire after, e.1 ≠ key.name := by
      rwa [Entry.listToWire_eq_map, List.forall_mem_map]
    obtain ⟨v, hv, hget⟩ := (Values.Hold.of_decodable hd).last _ _ _ _ (hwire before after) hlast
    obtain rfl := Except.ok.inj hv
    exact ⟨_, Run.decodeValues_of_decodable [] hd, h _ hget⟩

end Proto

/-- A result under a key is read for what its document says. -/
theorem Values.readArtifact_eq_ok_iff {α : Type} {values : Values} {key : Key}
    {kind : ArtifactKind} {j : Json} (h : values.get? key.name = some (.artifact kind j))
    {read : Document → Option α} {x : α} :
    values.readArtifact key kind read = .ok x ↔ read j.toDocument = some x := by
  have hpayload : values.artifact key kind = .ok j := by
    simp only [artifact, h, Value.asArtifact, if_true]
  rw [readArtifact, hpayload, ok_bind]
  cases read j.toDocument <;> simp

/-- A caller reads graphs and counts as they were sent, and a colored log exactly if all its
rectangles can be drawn. -/
theorem typed_results_arrive :
    (∀ g : Proto.Graph, (Proto.Artifact.graph g).Arrives .graph fun values =>
      Graph.ofValues values = .ok g.typed) ∧
    (∀ info : Proto.EventLogInfo, (Proto.Artifact.eventLogInfo info).Arrives .eventLogInfo
      fun values => EventLogInfo.ofValues values = .ok info.typed) ∧
    ∀ traces, (Proto.Artifact.colorsLog traces).Arrives .colorsEventLog fun values =>
      ((∃ log, ColorsLog.ofValues values = .ok log) ↔
        ∀ trace ∈ traces, ∀ r ∈ trace, r.Drawable) ∧
      ∀ log, ColorsLog.ofValues values = .ok log ↔ log.toProto = traces := by
  refine ⟨fun g => .of_value fun values h => ?_, fun info => .of_value fun values h => ?_,
    fun traces => .of_value fun values h => ?_⟩
  · refine (Values.readArtifact_eq_ok_iff h).2 ?_
    rw [Proto.Artifact.toJson, ← Graph.toJson_typed, Graph.ofDocument?_toJson]
  · refine (Values.readArtifact_eq_ok_iff h).2 ?_
    rw [Proto.Artifact.toJson, ← EventLogInfo.toJson_typed, EventLogInfo.ofDocument?_toJson]
  · have hread : ∀ log, ColorsLog.ofValues values = .ok log ↔ log.toProto = traces :=
      fun log => (Values.readArtifact_eq_ok_iff h).trans (ColorsLog.isPartialInv_toProto log traces)
    exact ⟨by simp only [hread, ColorsLog.exists_toProto_iff], hread⟩

/-- A graph before an entry of another key, and a rectangle that has no color. -/
theorem typed_results_arrive_mixed :
    let g : Proto.Graph := ⟨[⟨1, "a"⟩, ⟨2, ""⟩], [⟨1, 2, "b"⟩]⟩
    let traces : List (List Proto.Rectangle) := [[], [⟨none, 0, 1, "a"⟩]]
    let graphs : Proto.PartResult := ⟨[] ++ (Proto.Artifact.graph g).under .graph ::
      [⟨some "k", some ⟨some (.bool true)⟩⟩], some "t"⟩
    let logs : Proto.PartResult :=
      ⟨[] ++ (Proto.Artifact.colorsLog traces).under .colorsEventLog :: [], none⟩
    (∃ values, Run.decodeValues [] graphs.toWire.values = .ok values ∧
      Graph.ofValues values = .ok g.typed) ∧
    ∃ values, Run.decodeValues [] logs.toWire.values = .ok values ∧
      ¬∃ log, ColorsLog.ofValues values = .ok log := by
  intro g traces graphs logs
  constructor
  · have hother : ∀ e ∈ ([⟨some "k", some ⟨some (.bool true)⟩⟩] : List Proto.Entry),
        e.toWire.1 ≠ Key.graph.name ∧ ∃ v, e.toWire.2.decode = .ok v :=
      List.forall_mem_singleton.2 ⟨by decide, _, rfl⟩
    exact (typed_results_arrive.1 g).delivered [] _ (some "t") (fun e he => (hother e he).1)
      fun e he => (hother e he).2
  · obtain ⟨values, hvalues, hread, -⟩ := (typed_results_arrive.2.2 traces).delivered [] [] none
      (List.forall_mem_nil _) (List.forall_mem_nil _)
    refine ⟨values, hvalues, fun h => ?_⟩
    obtain ⟨c, hc, -⟩ :=
      hread.1 h [⟨none, 0, 1, "a"⟩] (by simp [traces]) _ (List.mem_singleton_self _)
    cases hc

/-! ## Results that are sent and come back -/

/-- The payload is sent in a binary message, and what comes back is read as `x`. -/
def ReturnsAs {α : Type} (kind : ArtifactKind) (payload : Json) (read : Document → Option α)
    (x : α) : Prop :=
  ∃ m v j, (Value.artifact kind payload).toWire.toProto = .ok m ∧ m.toWire.decode = .ok v ∧
    v.asArtifact kind = .ok j ∧ read j.toDocument = some x

/-- A result is sent as the message of its kind, if it fits that. -/
theorem toProto_artifact (kind : ArtifactKind) (j : Json) :
    (Value.artifact kind j).toWire.toProto =
      (Wire.artifactToProto kind j).map fun a => ⟨some (.artifact a)⟩ := by
  simp only [Value.toWire, Wire.Value.toProto, Wire.Payload.toProto]
  cases Wire.artifactToProto kind j <;> rfl

/-- The payload is taken for a message, and what comes back is read from the payload that this
message gives. -/
theorem returnsAs_iff {α : Type} {kind : ArtifactKind} {payload : Json}
    {read : Document → Option α} {x : α} : ReturnsAs kind payload read x ↔
      ∃ a : Proto.Artifact, a.kind = kind ∧
        Proto.Artifact.ofDocument? payload.toDocument kind = some a ∧
        read a.toJson.toDocument = some x := by
  constructor
  · rintro ⟨m, v, j, hm, hv, hj, hread⟩
    rw [toProto_artifact] at hm
    cases ha : Wire.artifactToProto kind payload with
    | error fault =>
      rw [ha] at hm
      cases hm
    | ok a =>
      rw [ha] at hm
      obtain rfl := Except.ok.inj hm
      obtain rfl : Value.artifact a.kind a.toJson = v := Except.ok.inj hv
      obtain ⟨-, rfl⟩ := Wire.settle_of_artifactToProto ha
      rw [Value.asArtifact, if_pos rfl] at hj
      obtain rfl := Except.ok.inj hj
      exact ⟨a, rfl, Wire.artifactToProto_eq_ok_iff.1 ha, hread⟩
  · rintro ⟨a, rfl, ha, hread⟩
    have hproto : (Value.artifact a.kind payload).toWire.toProto = .ok ⟨some (.artifact a)⟩ := by
      rw [toProto_artifact, Wire.artifactToProto_eq_ok_iff.2 ha]
      rfl
    exact ⟨_, .artifact a.kind a.toJson, a.toJson, hproto, rfl, if_pos rfl, hread⟩

/-- Where every message of a kind has a typed form with its payload, exactly the typed forms of
messages come back. -/
theorem returnsAs_iff_exists {α β : Type} {kind : ArtifactKind} {read : Document → Option α}
    {write : α → Json} {message : β → Proto.Artifact} {typed : β → α}
    (hmessage : ∀ a : Proto.Artifact, a.kind = kind ↔ ∃ m, message m = a)
    (hwrite : ∀ m, write (typed m) = (message m).toJson)
    (hread : ∀ x, read (write x).toDocument = some x) (x : α) :
    ReturnsAs kind (write x) read x ↔ ∃ m, typed m = x := by
  rw [returnsAs_iff]
  constructor
  · rintro ⟨a, hkind, -, hx⟩
    obtain ⟨m, rfl⟩ := (hmessage a).1 hkind
    rw [← hwrite, hread] at hx
    exact ⟨m, Option.some.inj hx⟩
  · rintro ⟨m, rfl⟩
    obtain rfl := (hmessage _).2 ⟨m, rfl⟩
    rw [hwrite]
    exact ⟨message m, rfl, (message m).ofDocument?_toJson, hwrite m ▸ hread _⟩

theorem Proto.Artifact.kind_eq_graph_iff (a : Artifact) :
    a.kind = .graph ↔ ∃ g, Artifact.graph g = a := by
  cases a <;> simp [kind]

theorem Proto.Artifact.kind_eq_eventLogInfo_iff (a : Artifact) :
    a.kind = .eventLogInfo ↔ ∃ info, Artifact.eventLogInfo info = a := by
  cases a <;> simp [kind]

/-- No text of the graph is missing. -/
def Graph.Labeled (g : Graph) : Prop :=
  (∀ v ∈ g.nodes, v.data.isSome) ∧ ∀ e ∈ g.edges, e.data.isSome

/-- The counts fit in the 32 bits of their message. -/
def EventLogInfo.Small (info : EventLogInfo) : Prop :=
  info.events.toNat < UInt32.size ∧ info.traces.toNat < UInt32.size ∧
    info.eventClasses.toNat < UInt32.size

/-- A typed graph comes from a message if all its nodes and edges have their text. -/
theorem Graph.exists_typed_iff {g : Graph} : (∃ m : Proto.Graph, m.typed = g) ↔ g.Labeled := by
  constructor
  · rintro ⟨m, rfl⟩
    exact ⟨List.forall_mem_map.2 fun _ _ => rfl, List.forall_mem_map.2 fun _ _ => rfl⟩
  · rintro ⟨hnodes, hedges⟩
    obtain ⟨nodes, hnodes⟩ : g.nodes ∈ Set.range (List.map Proto.GraphNode.typed) := by
      rw [Set.range_list_map]
      intro v hv
      obtain ⟨s, hs⟩ := Option.isSome_iff_exists.1 (hnodes v hv)
      exact ⟨⟨v.id, s⟩, by rw [Proto.GraphNode.typed, ← hs]⟩
    obtain ⟨edges, hedges⟩ : g.edges ∈ Set.range (List.map Proto.GraphEdge.typed) := by
      rw [Set.range_list_map]
      intro e he
      obtain ⟨s, hs⟩ := Option.isSome_iff_exists.1 (hedges e he)
      exact ⟨⟨e.source, e.target, s⟩, by rw [Proto.GraphEdge.typed, ← hs]⟩
    exact ⟨⟨nodes, edges⟩, by rw [Proto.Graph.typed, hnodes, hedges]⟩

/-- Typed counts come from a message if they fit 32 bits. -/
theorem EventLogInfo.exists_typed_iff {info : EventLogInfo} :
    (∃ m : Proto.EventLogInfo, m.typed = info) ↔ info.Small := by
  constructor
  · rintro ⟨m, rfl⟩
    exact ⟨m.events.toNat_lt_size, m.traces.toNat_lt_size, m.eventClasses.toNat_lt_size⟩
  · rintro ⟨hevents, htraces, hclasses⟩
    refine ⟨⟨info.events.toUInt32, info.traces.toUInt32, info.eventClasses.toUInt32⟩, ?_⟩
    rw [Proto.EventLogInfo.typed, toUInt64_toUInt32 hevents, toUInt64_toUInt32 htraces,
      toUInt64_toUInt32 hclasses]

/-- Counts that do not fit are refused before anything is sent. -/
theorem EventLogInfo.toProto_of_not_small {info : EventLogInfo} (h : ¬info.Small) :
    (Value.artifact .eventLogInfo info.toJson).toWire.toProto =
      .error (.misfit "eventLogInfo") := by
  have hnone : Proto.EventLogInfo.ofDocument? info.toJson.toDocument = none := by
    rw [Option.eq_none_iff_forall_ne_some]
    intro m hm
    exact h (exists_typed_iff.1 ⟨m, (isPartialInv_typed m info).1 hm⟩)
  rw [toProto_artifact, Wire.artifactToProto, Proto.Artifact.ofDocument?, hnone]
  rfl

/-- A typed result comes back from its message exactly if it has one : every colored log, graphs in
which no text is missing, and counts that fit in 32 bits. Larger counts are not sent. -/
theorem typed_results_return :
    (∀ log : ColorsLog, ReturnsAs .colorsLog log.toJson ColorsLog.ofDocument? log) ∧
    (∀ g : Graph, ReturnsAs .graph g.toJson Graph.ofDocument? g ↔ g.Labeled) ∧
    ∀ info : EventLogInfo,
      (ReturnsAs .eventLogInfo info.toJson EventLogInfo.ofDocument? info ↔ info.Small) ∧
      (¬info.Small → (Value.artifact .eventLogInfo info.toJson).toWire.toProto =
        .error (.misfit "eventLogInfo")) := by
  refine ⟨fun log => ?_, fun g => ?_, fun info => ⟨?_, EventLogInfo.toProto_of_not_small⟩⟩
  · rw [← log.toJson_toProto]
    exact returnsAs_iff.2 ⟨.colorsLog log.toProto, rfl,
      (Proto.Artifact.colorsLog log.toProto).ofDocument?_toJson,
      (ColorsLog.isPartialInv_toProto log _).2 rfl⟩
  · rw [← Graph.exists_typed_iff]
    exact returnsAs_iff_exists Proto.Artifact.kind_eq_graph_iff Graph.toJson_typed
      Graph.ofDocument?_toJson g
  · rw [← EventLogInfo.exists_typed_iff]
    exact returnsAs_iff_exists Proto.Artifact.kind_eq_eventLogInfo_iff EventLogInfo.toJson_typed
      EventLogInfo.ofDocument?_toJson info

/-- An empty text is not missing, and 32 bits have a largest number. -/
theorem typed_results_return_limits :
    let g : Graph := ⟨[⟨1, some "a"⟩, ⟨2, some ""⟩], [⟨1, 2, some "b"⟩]⟩
    let counts : UInt64 → EventLogInfo := fun events => ⟨events, 2, 1⟩
    ReturnsAs .graph g.toJson Graph.ofDocument? g ∧
      ReturnsAs .eventLogInfo (counts 0xFFFFFFFF).toJson EventLogInfo.ofDocument?
        (counts 0xFFFFFFFF) ∧
      (Value.artifact .eventLogInfo (counts 0x100000000).toJson).toWire.toProto =
        .error (.misfit "eventLogInfo") := by
  intro g counts
  have hg : g.Labeled := by simp [g, Graph.Labeled]
  have hsmall : (counts 0xFFFFFFFF).Small := ⟨by decide, by decide, by decide⟩
  have hlarge : ¬(counts 0x100000000).Small := fun h => absurd h.1 (by decide)
  exact ⟨(typed_results_return.2.1 g).2 hg, (typed_results_return.2.2 _).1.2 hsmall,
    (typed_results_return.2.2 _).2 hlarge⟩

/-- Not every typed result has a message. -/
theorem typed_results_unsent :
    (Value.artifact .eventLogInfo (EventLogInfo.toJson ⟨0x100000000, 0, 0⟩)).toWire.toProto =
      .error (.misfit "eventLogInfo") ∧
    (Value.artifact .graph (Graph.toJson ⟨[⟨1, none⟩], []⟩)).toWire.toProto =
      .error (.misfit "graph") :=
  ⟨EventLogInfo.toProto_of_not_small fun h => absurd h.1 (by decide), rfl⟩

end MiningPipelines
