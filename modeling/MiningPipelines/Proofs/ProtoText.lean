import MiningPipelines.Proofs.WireText
import MiningPipelines.Proto.Wire

/-!
# What an engine sends, in JSON text

Whatever an engine sends is received, as `Proto.Message.toWire` describes it
(`Proto.Message.receive_eq`).

The wire form of a binary message has at most one payload in a value and at most one shape in a
part, and its analysis results are objects of natural numbers and texts. So JSON text carries it
as soon as it carries the floats in the message (`Proto.Message.writable_pieces`).
-/

namespace MiningPipelines

namespace Proto

/-! ## Receiving -/

mutual

/-- A value is received whatever is left out in it. -/
theorem Value.receive_eq : ∀ v : Value, v.receive = .ok v.toWire
  | ⟨none⟩ => rfl
  | ⟨some c⟩ => by
    rw [Value.receive, c.receive_eq]
    rfl

/-- Of all contents only a pipeline has something in it to receive. -/
theorem Content.receive_eq : ∀ c : Content, c.receive = .ok c.toWire
  | .pipeline parts => by
    rw [Content.receive, Part.receiveList_eq parts]
    rfl
  | .string _ | .hashesLog _ | .namesLog _ | .uint32 _ | .bool _ | .enum _ _ | .strings _
  | .float _ | .artifact _ => rfl

/-- A part is received whatever is left out in it. -/
theorem Part.receive_eq : ∀ p : Part, p.receive = .ok p.toWire
  | ⟨none⟩ => rfl
  | ⟨some s⟩ => by
    rw [Part.receive, s.receive_eq]
    rfl

/-- A fetch behind an operation that is missing is a fetch behind an empty one. -/
theorem Shape.receive_eq : ∀ s : Shape, s.receive = .ok s.toWire
  | .operation op => by
    rw [Shape.receive, op.receive_eq]
    rfl
  | .parallel parts => by
    rw [Shape.receive, Part.receiveList_eq parts]
    rfl
  | .fetch _ _ | .fetchAfter _ none _ => rfl
  | .fetchAfter _ (some before) _ => by
    rw [Shape.receive, Operation.receiveOption, before.receive_eq]
    rfl

theorem Part.receiveList_eq : ∀ parts : List Part,
    Part.receiveList parts = .ok (Part.listToWire parts)
  | [] => rfl
  | p :: rest => by
    rw [Part.receiveList, p.receive_eq, Part.receiveList_eq rest]
    rfl

theorem Operation.receive_eq : ∀ op : Operation, op.receive = .ok op.toWire
  | ⟨_, none⟩ => rfl
  | ⟨_, some entries⟩ => by
    rw [Operation.receive, Operation.receiveConfig, Entry.receiveList_eq entries]
    rfl

/-- Entries are received whatever is left out in them. -/
theorem Entry.receiveList_eq : ∀ entries : List Entry,
    Entry.receiveList entries = .ok (Entry.listToWire entries)
  | [] => rfl
  | ⟨_, none⟩ :: rest => by
    rw [Entry.receiveList, Entry.receive, Entry.receiveValue, Entry.receiveList_eq rest]
    rfl
  | ⟨_, some v⟩ :: rest => by
    rw [Entry.receiveList, Entry.receive, Entry.receiveValue, v.receive_eq,
      Entry.receiveList_eq rest]
    rfl

end

/-- No message of a stream fails to be received. -/
theorem Message.receive_eq (m : Message) : m.receive = .ok m.toWire := by
  obtain ⟨_ | (verdict | r | text)⟩ := m
  case some.result =>
    rw [Message.receive, Entry.receiveList_eq]
    rfl
  all_goals rfl

/-- No answer to a lookup fails to be received. -/
theorem ContextReply.receive_eq (r : ContextReply) : r.receive = .ok r.toWire := by
  obtain ⟨_ | (v | text)⟩ := r
  case some.value =>
    rw [ContextReply.receive, v.receive_eq]
    rfl
  all_goals rfl

/-! ## Analysis results -/

theorem SubArray.writable (a : SubArray) : a.toJson.Writable :=
  .ofFields (by simp [Json.Writable.ofNat])

/-- The sub-arrays of each trace. -/
theorem SubArray.writable_lists (traces : List (List SubArray)) :
    (SubArray.listsToJson traces).Writable :=
  .list (.list SubArray.writable "subArrays") "tracesSubArrays" traces

/-- A sub-array that is missing is written as null. -/
theorem IndexedSubArray.writable (a : IndexedSubArray) : a.toJson.Writable :=
  .ofFields (by simp [Json.Writable.ofNat, Json.Writable.getD_null SubArray.writable])

theorem Color.writable (c : Color) : c.toJson.Writable :=
  .ofFields (by simp [Json.Writable.ofNat])

/-- A color that is missing is written as null. -/
theorem Rectangle.writable (r : Rectangle) : r.toJson.Writable :=
  .ofFields (by simp [Json.Writable.ofNat, Json.Writable.text,
    Json.Writable.getD_null Color.writable])

/-- The rectangles of each trace. -/
theorem Rectangle.writable_lists (traces : List (List Rectangle)) :
    (Rectangle.listsToJson traces).Writable :=
  .list (.list Rectangle.writable "eventColors") "traces" traces

theorem EventLogInfo.writable (info : EventLogInfo) : info.toJson.Writable :=
  .ofFields (by simp [Json.Writable.ofNat])

theorem GraphNode.writable (v : GraphNode) : v.toJson.Writable :=
  .ofFields (by simp [Json.Writable.ofNat, Json.Writable.text])

theorem GraphEdge.writable (e : GraphEdge) : e.toJson.Writable :=
  .ofFields (by simp [Json.Writable.ofNat, Json.Writable.text])

/-- Nodes and edges are lists of objects. -/
theorem Graph.writable (g : Graph) : g.toJson.Writable :=
  .ofFields (List.forall_mem_cons.2
    ⟨.array (List.forall_mem_map.2 fun v _ => v.writable),
      List.forall_mem_singleton.2 (.array (List.forall_mem_map.2 fun e _ => e.writable))⟩)

/-- The results of an analysis are natural numbers and texts, at every depth. -/
theorem Artifact.writable : ∀ a : Artifact, a.toJson.Writable
  | colorsLog traces => Rectangle.writable_lists traces
  | eventLogInfo info => info.writable
  | graph g => g.writable
  | tracesSubArrays traces => SubArray.writable_lists traces
  | traceIndexSubArrays arrays => .list IndexedSubArray.writable "subArrays" arrays

/-- Results are objects, so their slot counts as populated. -/
theorem Artifact.toJson_ne_null (a : Artifact) : a.toJson ≠ .null := by
  cases a <;> simp [Artifact.toJson, Rectangle.listsToJson, EventLogInfo.toJson, Graph.toJson,
    SubArray.listsToJson, IndexedSubArray.listToJson, Json.ofFields]

/-! ## Floats -/

mutual

/-- The floats in a value, at any depth. -/
def Value.floats : Value → List Single
  | ⟨none⟩ => []
  | ⟨some c⟩ => c.floats

def Content.floats : Content → List Single
  | .float x => [x]
  | .pipeline parts => Part.listFloats parts
  | _ => []

def Part.floats : Part → List Single
  | ⟨none⟩ => []
  | ⟨some s⟩ => s.floats

def Shape.floats : Shape → List Single
  | .operation op => op.floats
  | .parallel parts => Part.listFloats parts
  | .fetch _ _ => []
  | .fetchAfter _ before _ => Operation.optionFloats before

def Part.listFloats : List Part → List Single
  | [] => []
  | p :: rest => p.floats ++ Part.listFloats rest

def Operation.floats : Operation → List Single
  | ⟨_, config⟩ => Operation.configFloats config

def Operation.optionFloats : Option Operation → List Single
  | none => []
  | some op => op.floats

def Operation.configFloats : Option (List Entry) → List Single
  | none => []
  | some entries => Entry.listFloats entries

/-- The floats in entries. -/
def Entry.listFloats : List Entry → List Single
  | [] => []
  | e :: rest => e.floats ++ Entry.listFloats rest

def Entry.floats : Entry → List Single
  | ⟨_, value⟩ => Entry.valueFloats value

def Entry.valueFloats : Option Value → List Single
  | none => []
  | some v => v.floats

end

/-- The floats in a message, at any depth. -/
def Message.floats : Message → List Single
  | ⟨some (.result r)⟩ => Entry.listFloats r.values
  | _ => []

mutual

theorem Value.writable : ∀ {v : Value}, (∀ x ∈ v.floats, x.Rereads) →
    v.toWire.Writable ∧ ∀ x ∈ v.toWire.pieces, x.Writable
  | ⟨none⟩, _ => ⟨⟨Nat.zero_le _, List.forall_mem_nil _⟩, List.forall_mem_nil _⟩
  | ⟨some c⟩, h => by
    obtain ⟨hc, hpieces⟩ := Content.writable h
    rw [Value.toWire, Wire.Value.pieces, Wire.Value.piecesOf, Wire.Value.piecesOf, List.append_nil]
    exact ⟨⟨Nat.le_refl _, List.forall_mem_singleton.2 hc⟩, hpieces⟩

/-- Only a float, and floats further in, can be lost in text. -/
theorem Content.writable : ∀ {c : Content}, (∀ x ∈ c.floats, x.Rereads) →
    c.toWire.Writable ∧ ∀ x ∈ c.toWire.pieces, x.Writable
  | .float x, h => ⟨h x List.mem_cons_self, List.forall_mem_nil _⟩
  | .pipeline _, h => ⟨trivial, Part.writable_pieces_list h⟩
  | .artifact a, _ => ⟨⟨a.toJson_ne_null, a.writable⟩, List.forall_mem_nil _⟩
  | .string _, _ | .hashesLog _, _ | .namesLog _, _ | .uint32 _, _ | .bool _, _ | .enum _ _, _
  | .strings _, _ => ⟨trivial, List.forall_mem_nil _⟩

/-- The wire form of a part has no more than one shape. -/
theorem Part.writable_pieces : ∀ {p : Part}, (∀ x ∈ p.floats, x.Rereads) →
    ∀ x ∈ p.toWire.pieces, x.Writable
  | ⟨none⟩, _ => List.forall_mem_singleton.2 (Nat.zero_le _)
  | ⟨some s⟩, h => by
    rw [Part.toWire, Wire.Part.pieces, Wire.Part.piecesOf, Wire.Part.piecesOf, List.append_nil]
    exact List.forall_mem_cons.2 ⟨Nat.le_refl _, Shape.writable_pieces h⟩

/-- A fetch holds no values. -/
theorem Shape.writable_pieces : ∀ {s : Shape}, (∀ x ∈ s.floats, x.Rereads) →
    ∀ x ∈ s.toWire.pieces, x.Writable
  | .operation _, h => Operation.writable_pieces h
  | .parallel _, h => Part.writable_pieces_list h
  | .fetch _ _, _ => List.forall_mem_nil _
  | .fetchAfter _ none _, _ => List.forall_mem_singleton.2 trivial
  | .fetchAfter _ (some _) _, h => Operation.writable_pieces h

theorem Part.writable_pieces_list : ∀ {parts : List Part},
    (∀ x ∈ Part.listFloats parts, x.Rereads) →
      ∀ x ∈ Wire.Pipeline.pieces (Part.listToWire parts), x.Writable
  | [], _ => List.forall_mem_nil _
  | p :: rest, h => by
    obtain ⟨hp, hrest⟩ := List.forall_mem_append.1 h
    exact List.forall_mem_append.2 ⟨Part.writable_pieces hp, Part.writable_pieces_list hrest⟩

/-- The values of an operation are those of its configuration. -/
theorem Operation.writable_pieces : ∀ {op : Operation}, (∀ x ∈ op.floats, x.Rereads) →
    ∀ x ∈ op.toWire.pieces, x.Writable
  | ⟨_, none⟩, _ => List.forall_mem_singleton.2 trivial
  | ⟨_, some _⟩, h => List.forall_mem_cons.2 ⟨trivial, Entry.writable_pieces_list h⟩

/-- An entry that lacks its value has one without payload on the wire. -/
theorem Entry.writable_pieces_list : ∀ {entries : List Entry},
    (∀ x ∈ Entry.listFloats entries, x.Rereads) →
      ∀ x ∈ Wire.Entries.pieces (Entry.listToWire entries), x.Writable
  | [], _ => List.forall_mem_nil _
  | ⟨_, none⟩ :: rest, h => by
    exact List.forall_mem_cons.2 ⟨⟨Nat.zero_le _, List.forall_mem_nil _⟩,
      Entry.writable_pieces_list h⟩
  | ⟨_, some v⟩ :: rest, h => by
    obtain ⟨hv, hrest⟩ := List.forall_mem_append.1 h
    obtain ⟨hvalue, hpieces⟩ := Value.writable hv
    exact List.forall_mem_cons.2 ⟨hvalue,
      List.forall_mem_append.2 ⟨hpieces, Entry.writable_pieces_list hrest⟩⟩

end

/-- Text carries the wire form of a message if it carries the floats in it. -/
theorem Message.writable_pieces {m : Message} (h : ∀ x ∈ m.floats, x.Rereads) :
    ∀ x ∈ m.toWire.pieces, x.Writable := by
  obtain ⟨_ | (verdict | r | text)⟩ := m
  · exact List.forall_mem_nil _
  · exact List.forall_mem_nil _
  · exact Entry.writable_pieces_list h
  · exact List.forall_mem_nil _

end Proto

end MiningPipelines
