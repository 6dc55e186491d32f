import MiningPipelines.Proofs.WrittenFields
import MiningPipelines.Proto.Message.Parser
import MiningPipelines.Proto.Message.Printer

/-!
# Binary messages are read back

Every message has its number of levels (`Value.levels` and the like), the messages around one text
and the empty ones included. Its bytes are read as the message by a reader that goes so deep, and
are refused by any other : `Restores` for each message of the schema, first for those without values
and then, along the types that hold each other, for values, parts, operations and entries.

A reader of a nested message starts from what the message around it holds already. In what was
written a field with a nested message stands once, or adds an item to a list, so the reader always
starts from an empty one.

`Proto.binary_round_trip` is the statement about the messages that stand alone. Equality of messages
is equality of their bits where they hold floats.
-/

namespace MiningPipelines

namespace Proto

/-! ## Messages without values -/

/-- A message around one text has one level, its own. -/
theorem restores_name (s : String) : Restores readName "" s (printName s) 1 :=
  .readLevels (fun _ => .text s (fun s => s) ⟨by decide, rfl⟩ fun _ => by simp) rfl

/-- Texts in a list keep their order, the empty ones included. -/
theorem restores_texts (items : List String) :
    Restores readStrings [] items (Field.texts 1 items) 1 :=
  .readLevels (fun _ => .texts ⟨by decide, rfl⟩ items []) rfl

theorem restores_namesTrace (events : List String) :
    Restores readNamesTrace [] events (printNamesTrace events) 1 :=
  .readLevels (fun _ => .texts ⟨by decide, rfl⟩ events []) rfl

/-- The hashes of a trace stand in one packed field. -/
theorem restores_hashesTrace (events : List UInt64) :
    Restores readHashesTrace [] events (printHashesTrace events) 1 :=
  .readLevels (fun _ => .packed ⟨by decide, rfl⟩ events) rfl

/-- The levels of a log with the given traces. -/
def logLevels {α : Type} (traces : List α) : Nat := Field.messagesLevels (fun _ => 1) traces + 1

/-- A log of names takes one level more than its traces, and only one if it has none. -/
theorem restores_namesLog (traces : List (List String)) :
    Restores readNamesLog [] traces (printNamesLog traces) (logLevels traces) :=
  .readLevels (fun _ => .messages (fun traces => traces) ⟨by decide, rfl⟩ (fun _ _ => by simp)
    traces [] fun trace _ => restores_namesTrace trace) rfl

theorem restores_hashesLog (traces : List (List UInt64)) :
    Restores readHashesLog [] traces (printHashesLog traces) (logLevels traces) :=
  .readLevels (fun _ => .messages (fun traces => traces) ⟨by decide, rfl⟩ (fun _ _ => by simp)
    traces [] fun trace _ => restores_hashesTrace trace) rfl

/-- A log in a message of its own, which may lack it: no log is not an empty log. -/
theorem restores_optionalLog {α : Type} {readLog : Nat → List α → Bytes → Option (List α)}
    {print : List α → Bytes} (h : ∀ log, Restores readLog [] log (print log) (logLevels log))
    (log : Option (List α)) : Restores (readOptionalLog readLog) none log
      (Field.optional 1 print log) (Field.optionalLevels logLevels log + 1) :=
  .readLevels (fun _ => .optional log (fun log => log) ⟨by decide, rfl⟩ (fun _ => rfl)
    fun log _ => h log) rfl

/-- An empty type or variant is not written, and is what the reader starts from. -/
theorem restores_enum (enumType variant : String) :
    Restores readEnum ("", "") (enumType, variant) (Field.text 1 enumType ++ Field.text 2 variant)
      1 :=
  .readLevels (fun _ => .append (.text enumType (fun s => (s, "")) ⟨by decide, rfl⟩ fun _ => rfl)
    (.text variant (fun s => (enumType, s)) ⟨by decide, rfl⟩ fun _ => rfl)) rfl

/-- Fields that are zero are not written, and are what the reader starts from. -/
theorem SubArray.restores (a : SubArray) : Restores SubArray.read .empty a a.print 1 := by
  unfold print
  exact .readLevels (fun _ => .append
    (.uint32 a.start (fun n => SubArray.mk n 0) ⟨by decide, rfl⟩ fun _ => rfl)
    (.uint32 a.stop (fun n => SubArray.mk a.start n) ⟨by decide, rfl⟩ fun _ => rfl)) rfl

theorem SubArray.restores_list (arrays : List SubArray) :
    Restores readList [] arrays (printList arrays) (logLevels arrays) :=
  .readLevels (fun _ => .messages (fun arrays => arrays) ⟨by decide, rfl⟩ (fun _ _ => by simp)
    arrays [] fun a _ => a.restores) rfl

/-- A list for each trace, each a message of its own. -/
theorem SubArray.restores_lists (traces : List (List SubArray)) :
    Restores readLists [] traces (printLists traces) (Field.messagesLevels logLevels traces + 1) :=
  .readLevels (fun _ => .messages (fun traces => traces) ⟨by decide, rfl⟩ (fun _ _ => by simp)
    traces [] fun trace _ => restores_list trace) rfl

def IndexedSubArray.levels (a : IndexedSubArray) : Nat :=
  Field.optionalLevels (fun _ => 1) a.subArray + 1

/-- The sub-array is a message inside, and may be missing. -/
theorem IndexedSubArray.restores (a : IndexedSubArray) :
    Restores IndexedSubArray.read .empty a a.print a.levels := by
  unfold print
  exact .readLevels (fun _ => .append
    (.optional a.subArray (fun s => IndexedSubArray.mk s 0) ⟨by decide, rfl⟩ (fun _ => rfl)
      fun s _ => s.restores)
    (.uint32 a.traceIndex (fun i => IndexedSubArray.mk a.subArray i) ⟨by decide, rfl⟩
      fun _ => rfl)) (by rw [levels, Nat.max_zero])

theorem IndexedSubArray.restores_list (arrays : List IndexedSubArray) :
    Restores readList [] arrays (printList arrays) (Field.messagesLevels levels arrays + 1) :=
  .readLevels (fun _ => .messages (fun arrays => arrays) ⟨by decide, rfl⟩ (fun _ _ => by simp)
    arrays [] fun a _ => a.restores) rfl

/-- The three channels stand in declared order, each read onto the ones before it. -/
theorem Color.restores (c : Color) : Restores Color.read .empty c c.print 1 := by
  unfold print
  exact .readLevels (fun _ => .append (.append
    (.uint32 c.red (fun n => Color.mk n 0 0) ⟨by decide, rfl⟩ fun _ => rfl)
    (.uint32 c.green (fun n => Color.mk c.red n 0) ⟨by decide, rfl⟩ fun _ => rfl))
    (.uint32 c.blue (fun n => Color.mk c.red c.green n) ⟨by decide, rfl⟩ fun _ => rfl)) rfl

def Rectangle.levels (r : Rectangle) : Nat := Field.optionalLevels (fun _ => 1) r.color + 1

/-- A rectangle takes two levels with a color and one without. -/
theorem Rectangle.restores (r : Rectangle) : Restores Rectangle.read .empty r r.print r.levels := by
  unfold print
  exact .readLevels (fun _ => .append (.append (.append
    (.optional r.color (fun c => Rectangle.mk c 0 0 "") ⟨by decide, rfl⟩ (fun _ => rfl)
      fun c _ => c.restores)
    (.uint32 r.startIndex (fun i => Rectangle.mk r.color i 0 "") ⟨by decide, rfl⟩ fun _ => rfl))
    (.uint32 r.length (fun i => Rectangle.mk r.color r.startIndex i "") ⟨by decide, rfl⟩
      fun _ => rfl))
    (.text r.name (fun s => Rectangle.mk r.color r.startIndex r.length s) ⟨by decide, rfl⟩
      fun _ => rfl)) (by simp only [levels, Nat.max_zero])

theorem Rectangle.restores_list (rectangles : List Rectangle) :
    Restores readList [] rectangles (printList rectangles)
      (Field.messagesLevels levels rectangles + 1) :=
  .readLevels (fun _ => .messages (fun rectangles => rectangles) ⟨by decide, rfl⟩
    (fun _ _ => by simp) rectangles [] fun r _ => r.restores) rfl

/-- The rectangles of each trace, traces without rectangles included. -/
theorem Rectangle.restores_lists (traces : List (List Rectangle)) :
    Restores readLists [] traces (printLists traces)
      (Field.messagesLevels (fun trace => Field.messagesLevels levels trace + 1) traces + 1) :=
  .readLevels (fun _ => .messages (fun traces => traces) ⟨by decide, rfl⟩ (fun _ _ => by simp)
    traces [] fun trace _ => restores_list trace) rfl

theorem EventLogInfo.restores (info : EventLogInfo) :
    Restores EventLogInfo.read .empty info info.print 1 := by
  unfold print
  exact .readLevels (fun _ => .append (.append
    (.uint32 info.events (fun n => EventLogInfo.mk n 0 0) ⟨by decide, rfl⟩ fun _ => rfl)
    (.uint32 info.traces (fun n => EventLogInfo.mk info.events n 0) ⟨by decide, rfl⟩
      fun _ => rfl))
    (.uint32 info.eventClasses (fun n => EventLogInfo.mk info.events info.traces n)
      ⟨by decide, rfl⟩ fun _ => rfl)) rfl

/-- Identifiers have all 64 bits. -/
theorem GraphNode.restores (v : GraphNode) : Restores GraphNode.read .empty v v.print 1 := by
  unfold print
  exact .readLevels (fun _ => .append
    (.uint64 v.id (fun n => GraphNode.mk n "") ⟨by decide, rfl⟩ fun _ => rfl)
    (.text v.data (fun s => GraphNode.mk v.id s) ⟨by decide, rfl⟩ fun _ => rfl)) rfl

theorem GraphEdge.restores (e : GraphEdge) : Restores GraphEdge.read .empty e e.print 1 := by
  unfold print
  exact .readLevels (fun _ => .append (.append
    (.uint64 e.source (fun n => GraphEdge.mk n 0 "") ⟨by decide, rfl⟩ fun _ => rfl)
    (.uint64 e.target (fun n => GraphEdge.mk e.source n "") ⟨by decide, rfl⟩ fun _ => rfl))
    (.text e.data (fun s => GraphEdge.mk e.source e.target s) ⟨by decide, rfl⟩ fun _ => rfl)) rfl

def Graph.levels (g : Graph) : Nat :=
  max (Field.messagesLevels (fun _ => 1) g.nodes) (Field.messagesLevels (fun _ => 1) g.edges) + 1

/-- All nodes stand before all edges, so the edges are read onto a graph that has its nodes. -/
theorem Graph.restores (g : Graph) : Restores Graph.read .empty g g.print g.levels := by
  unfold print
  exact .readLevels (fun _ => .append
    (.messages (fun nodes => Graph.mk nodes []) ⟨by decide, rfl⟩ (fun _ _ => rfl)
      g.nodes [] fun v _ => v.restores)
    (.messages (fun edges => Graph.mk g.nodes edges) ⟨by decide, rfl⟩ (fun _ _ => rfl)
      g.edges [] fun e _ => e.restores)) rfl

/-- The levels of the message of a result. -/
def Artifact.levels : Artifact → Nat
  | .colorsLog traces =>
    Field.messagesLevels (fun trace => Field.messagesLevels Rectangle.levels trace + 1) traces + 1
  | .eventLogInfo _ => 1
  | .graph g => g.levels
  | .tracesSubArrays traces => Field.messagesLevels logLevels traces + 1
  | .traceIndexSubArrays arrays => Field.messagesLevels IndexedSubArray.levels arrays + 1

/-! ## Levels of messages with values -/

/-- The levels of a message around one text, if there is one. -/
def nameLevels : Option String → Nat := Field.optionalLevels fun _ => 1

mutual

/-- The levels that a value takes, its own included. -/
def Value.levels : Value → Nat
  | ⟨none⟩ => 1
  | ⟨some c⟩ => c.levels + 1

/-- The levels of the message that a content is, if it is one. -/
def Content.levels : Content → Nat
  | .hashesLog traces => Field.optionalLevels logLevels traces + 1
  | .namesLog traces => Field.optionalLevels logLevels traces + 1
  | .enum _ _ => 1
  | .strings _ => 1
  | .pipeline parts => Part.listLevels parts + 1
  | .artifact a => a.levels
  | .string _ => 0
  | .uint32 _ => 0
  | .bool _ => 0
  | .float _ => 0

def Part.levels : Part → Nat
  | ⟨none⟩ => 1
  | ⟨some s⟩ => s.levels + 1

def Shape.levels : Shape → Nat
  | .operation op => op.levels
  | .parallel parts => Part.listLevels parts + 1
  | .fetch key tag => max (nameLevels key) (nameLevels tag) + 1
  | .fetchAfter key before tag =>
    max (max (nameLevels key) (Operation.optionLevels before)) (nameLevels tag) + 1

def Part.listLevels : List Part → Nat
  | [] => 0
  | p :: rest => max p.levels (Part.listLevels rest)

def Operation.levels : Operation → Nat
  | ⟨_, config⟩ => Operation.configLevels config + 1

def Operation.optionLevels : Option Operation → Nat
  | none => 0
  | some op => op.levels

def Operation.configLevels : Option (List Entry) → Nat
  | none => 0
  | some entries => Entry.listLevels entries + 1

def Entry.listLevels : List Entry → Nat
  | [] => 0
  | e :: rest => max e.levels (Entry.listLevels rest)

def Entry.levels : Entry → Nat
  | ⟨key, value⟩ => max (nameLevels key) (Entry.valueLevels value) + 1

def Entry.valueLevels : Option Value → Nat
  | none => 0
  | some v => v.levels

end

/-! ## Messages with values -/

/-- A field with a message around one text. -/
theorem Sets.name {α : Type} {n tag : Nat} {rules : Rules α} {rule : α → Payload → Option α}
    (o : Option String) (f : Option String → α) (hrule : rules.Has tag rule)
    (hm : ∀ p, rule (f none) p = (nameField? n none p).map f) :
    Sets n rules (Field.optional tag printName o) (nameLevels o) (f none) (f o) :=
  .optional o f hrule (fun p => by rw [hm, nameField?, Option.map_map]; rfl)
    fun s _ => restores_name s

/-- A fetch may lack its key, its tag or both. -/
theorem restores_fetch (key tag : Option String) : Restores readFetch (none, none) (key, tag)
    (Field.optional 1 printName key ++ Field.optional 2 printName tag)
    (max (nameLevels key) (nameLevels tag) + 1) :=
  .readLevels (fun _ => .append (.name key (fun key => (key, none)) ⟨by decide, rfl⟩ fun _ => rfl)
    (.name tag (fun tag => (key, tag)) ⟨by decide, rfl⟩ fun _ => rfl)) rfl

/-- Each kind of results stands in the field of its tag and is read onto a value without content. -/
theorem Artifact.sets (a : Artifact) (readParts : List Part → Bytes → Option (List Part))
    (n : Nat) : Sets n (Value.rules readParts n) (Field.printBytes a.tag a.print) a.levels ⟨none⟩
      ⟨some (.artifact a)⟩ := by
  cases a with
  | tracesSubArrays traces =>
    exact .message (fun traces => Value.ofContent (.artifact (.tracesSubArrays traces)))
      ⟨(by decide : Field.IsTag 5), rfl⟩ (fun _ => rfl) (SubArray.restores_lists traces)
  | traceIndexSubArrays arrays =>
    exact .message (fun arrays => Value.ofContent (.artifact (.traceIndexSubArrays arrays)))
      ⟨(by decide : Field.IsTag 6), rfl⟩ (fun _ => rfl) (IndexedSubArray.restores_list arrays)
  | colorsLog traces =>
    exact .message (fun traces => Value.ofContent (.artifact (.colorsLog traces)))
      ⟨(by decide : Field.IsTag 9), rfl⟩ (fun _ => rfl) (Rectangle.restores_lists traces)
  | eventLogInfo info =>
    exact .message (fun info => Value.ofContent (.artifact (.eventLogInfo info)))
      ⟨(by decide : Field.IsTag 11), rfl⟩ (fun _ => rfl) (EventLogInfo.restores info)
  | graph g =>
    exact .message (fun g => Value.ofContent (.artifact (.graph g)))
      ⟨(by decide : Field.IsTag 15), rfl⟩ (fun _ => rfl) (Graph.restores g)

/-- The parts of a pipeline are written as any other repeated messages are. -/
theorem Part.printList_eq (parts : List Part) :
    Part.printList parts = Field.messages 1 Part.print parts := by
  induction parts with
  | nil => rfl
  | cons p rest ih => rw [Part.printList, ih]; rfl

theorem Part.listLevels_eq (parts : List Part) :
    Part.listLevels parts = Field.messagesLevels Part.levels parts := by
  induction parts with
  | nil => rfl
  | cons p rest ih => rw [Part.listLevels, ih]; rfl

/-- A pipeline is read back if each of its parts is. -/
theorem Part.restores_list {parts : List Part}
    (h : ∀ p ∈ parts, Restores Part.read ⟨none⟩ p p.print p.levels) :
    Restores Part.readList [] parts (Part.printList parts) (Part.listLevels parts + 1) := by
  rw [Part.printList_eq, Part.listLevels_eq]
  exact .of_sets (fun _ _ => rfl) (fun _ _ _ => rfl) (fun _ =>
    .messages (fun parts => parts) ⟨by decide, rfl⟩ (fun _ _ => by simp) parts [] h) rfl

/-- An operation with a fetch behind it, either of which may be missing, is read back if the
operation is. -/
theorem Part.restores_fetchAfter (key : Option String) {before : Option Operation}
    (tag : Option String)
    (h : ∀ op ∈ before, Restores Operation.read .empty op op.print op.levels) :
    Restores Part.readFetchAfter (none, none, none) (key, before, tag)
      (Field.optional 1 printName key ++ Operation.printOption before ++
        Field.optional 3 printName tag)
      (max (max (nameLevels key) (Operation.optionLevels before)) (nameLevels tag) + 1) := by
  have hprint : Operation.printOption before = Field.optional 2 Operation.print before := by
    cases before <;> rfl
  have hlevels : Operation.optionLevels before = Field.optionalLevels Operation.levels before := by
    cases before <;> rfl
  rw [hprint, hlevels]
  exact .of_sets (fun _ _ => rfl) (fun _ _ _ => rfl) (fun _ => .append (.append
    (.name key (fun key => (key, none, none)) ⟨by decide, rfl⟩ fun _ => rfl)
    (.optional before (fun before => (key, before, none)) ⟨by decide, rfl⟩ (fun _ => rfl) h))
    (.name tag (fun tag => (key, before, tag)) ⟨by decide, rfl⟩ fun _ => rfl)) rfl

/-- The entries of a configuration are written as any other repeated messages are. -/
theorem Entry.printList_eq (entries : List Entry) :
    Entry.printList entries = Field.messages 1 Entry.print entries := by
  induction entries with
  | nil => rfl
  | cons e rest ih => rw [Entry.printList, ih]; rfl

theorem Entry.listLevels_eq (entries : List Entry) :
    Entry.listLevels entries = Field.messagesLevels Entry.levels entries := by
  induction entries with
  | nil => rfl
  | cons e rest ih => rw [Entry.listLevels, ih]; rfl

/-- A configuration is read back if each of its entries is. -/
theorem Entry.restores_list {entries : List Entry}
    (h : ∀ e ∈ entries, Restores Entry.read .empty e e.print e.levels) :
    Restores Entry.readList [] entries (Entry.printList entries)
      (Entry.listLevels entries + 1) := by
  rw [Entry.printList_eq, Entry.listLevels_eq]
  exact .of_sets (fun _ _ => rfl) (fun _ _ _ => rfl) (fun _ =>
    .messages (fun entries => entries) ⟨by decide, rfl⟩ (fun _ _ => by simp) entries [] h) rfl

/-- An operation is read back if the entries of its configuration are; no configuration is not an
empty one. -/
theorem Operation.restores_of_config (name : String) {config : Option (List Entry)}
    (h : ∀ entries ∈ config, ∀ e ∈ entries, Restores Entry.read .empty e e.print e.levels) :
    Restores Operation.read .empty ⟨name, config⟩ (Operation.print ⟨name, config⟩)
      (Operation.levels ⟨name, config⟩) := by
  have hprint : Operation.printConfig config = Field.optional 2 Entry.printList config := by
    cases config <;> rfl
  have hlevels : Operation.configLevels config =
      Field.optionalLevels (fun entries => Entry.listLevels entries + 1) config := by
    cases config <;> rfl
  rw [Operation.print, Operation.levels, hprint, hlevels]
  exact .of_sets (fun _ _ => rfl) (fun _ _ _ => rfl) (fun _ => .append
    (.text name (fun s => Operation.mk s none) ⟨by decide, rfl⟩ fun _ => rfl)
    (.optional config (fun config => Operation.mk name config) ⟨by decide, rfl⟩ (fun _ => rfl)
      fun entries hentries => Entry.restores_list (h entries hentries)))
    (by rw [Nat.zero_max])

/-- An entry is read back if its value is. -/
theorem Entry.restores_of_value (key : Option String) {value : Option Value}
    (h : ∀ v ∈ value, Restores Value.read ⟨none⟩ v v.print v.levels) :
    Restores Entry.read .empty ⟨key, value⟩ (Entry.print ⟨key, value⟩)
      (Entry.levels ⟨key, value⟩) := by
  have hprint : Entry.printValue value = Field.optional 2 Value.print value := by
    cases value <;> rfl
  have hlevels : Entry.valueLevels value = Field.optionalLevels Value.levels value := by
    cases value <;> rfl
  rw [Entry.print, Entry.levels, hprint, hlevels]
  exact .of_sets (fun _ _ => rfl) (fun _ _ _ => rfl) (fun _ => .append
    (.name key (fun key => Entry.mk key none) ⟨by decide, rfl⟩ fun _ => rfl)
    (.optional value (fun value => Entry.mk key value) ⟨by decide, rfl⟩ (fun _ => rfl) h)) rfl

mutual

/-- A value is read back. -/
theorem Value.restores : ∀ v : Value, Restores Value.read ⟨none⟩ v v.print v.levels
  | ⟨none⟩ => .of_sets (fun _ _ => rfl) (fun _ _ _ => rfl) (fun _ => .nil) rfl
  | ⟨some c⟩ => .of_sets (fun _ _ => rfl) (fun _ _ _ => rfl) (fun n => c.sets n) rfl

/-- The content of a value stands in one field, which is read onto a value without content. -/
theorem Content.sets : ∀ (c : Content) (n : Nat),
    Sets n (Value.rules (Part.readList n) n) c.print c.levels ⟨none⟩ ⟨some c⟩
  | .string s, _ => .string s (fun s => Value.ofContent (.string s)) ⟨by decide, rfl⟩ fun _ => rfl
  | .hashesLog traces, _ => .message (fun traces => Value.ofContent (.hashesLog traces))
    ⟨by decide, rfl⟩ (fun _ => rfl) (restores_optionalLog restores_hashesLog traces)
  | .namesLog traces, _ => .message (fun traces => Value.ofContent (.namesLog traces))
    ⟨by decide, rfl⟩ (fun _ => rfl) (restores_optionalLog restores_namesLog traces)
  | .uint32 n, _ => .varint ⟨by decide, rfl⟩ (Nat.lt_trans n.toNat_lt_size (by decide))
    (by rw [Sets.uint32?_varint]; rfl)
  | .bool b, _ => .varint ⟨by decide, rfl⟩ (by cases b <;> decide) (by cases b <;> rfl)
  | .enum enumType variant, _ => .message (fun e => Value.ofContent (.enum e.1 e.2))
    ⟨by decide, rfl⟩ (fun _ => rfl) (restores_enum enumType variant)
  | .strings items, _ => .message (fun items => Value.ofContent (.strings items))
    ⟨by decide, rfl⟩ (fun _ => rfl) (restores_texts items)
  | .pipeline parts, _ => .message (fun parts => Value.ofContent (.pipeline parts))
    ⟨by decide, rfl⟩ (fun _ => rfl) (Part.restores_list (Part.restores_each parts))
  | .float _, _ => .fixed32 ⟨by decide, rfl⟩ rfl
  | .artifact a, n => a.sets (Part.readList n) n

theorem Part.restores_each : ∀ parts : List Part,
    ∀ p ∈ parts, Restores Part.read ⟨none⟩ p p.print p.levels
  | p :: _, _, .head _ => p.restores
  | _ :: rest, p, .tail _ h => Part.restores_each rest p h

/-- A part has one shape in one field, or none. -/
theorem Part.restores : ∀ p : Part, Restores Part.read ⟨none⟩ p p.print p.levels
  | ⟨none⟩ => .of_sets (fun _ _ => rfl) (fun _ _ _ => rfl) (fun _ => .nil) rfl
  | ⟨some (.operation op)⟩ => .of_sets (fun _ _ => rfl) (fun _ _ _ => rfl) (fun _ =>
    .message (fun op => Part.ofShape (.operation op)) ⟨by decide, rfl⟩ (fun _ => rfl)
      op.restores) rfl
  | ⟨some (.parallel parts)⟩ => .of_sets (fun _ _ => rfl) (fun _ _ _ => rfl) (fun _ =>
    .message (fun parts => Part.ofShape (.parallel parts)) ⟨by decide, rfl⟩ (fun _ => rfl)
      (Part.restores_list (Part.restores_each parts))) rfl
  | ⟨some (.fetch key tag)⟩ => .of_sets (fun _ _ => rfl) (fun _ _ _ => rfl) (fun _ =>
    .message (fun f => Part.ofShape (.fetch f.1 f.2)) ⟨by decide, rfl⟩ (fun _ => rfl)
      (restores_fetch key tag)) rfl
  | ⟨some (.fetchAfter key before tag)⟩ => .of_sets (fun _ _ => rfl) (fun _ _ _ => rfl) (fun _ =>
    .message (fun f => Part.ofShape (.fetchAfter f.1 f.2.1 f.2.2)) ⟨by decide, rfl⟩ (fun _ => rfl)
      (Part.restores_fetchAfter key tag (Operation.restores_each before))) rfl

theorem Operation.restores_each : ∀ before : Option Operation,
    ∀ op ∈ before, Restores Operation.read .empty op op.print op.levels
  | some op, _, rfl => op.restores

theorem Operation.restores : ∀ op : Operation,
    Restores Operation.read .empty op op.print op.levels
  | ⟨name, config⟩ => Operation.restores_of_config name (Entry.restores_config config)

theorem Entry.restores_config : ∀ config : Option (List Entry),
    ∀ entries ∈ config, ∀ e ∈ entries, Restores Entry.read .empty e e.print e.levels
  | some entries, _, rfl => Entry.restores_each entries

theorem Entry.restores_each : ∀ entries : List Entry,
    ∀ e ∈ entries, Restores Entry.read .empty e e.print e.levels
  | e :: _, _, .head _ => e.restores
  | _ :: rest, e, .tail _ h => Entry.restores_each rest e h

theorem Entry.restores : ∀ e : Entry, Restores Entry.read .empty e e.print e.levels
  | ⟨key, value⟩ => Entry.restores_of_value key (Value.restores_each value)

theorem Value.restores_each : ∀ value : Option Value,
    ∀ v ∈ value, Restores Value.read ⟨none⟩ v v.print v.levels
  | some v, _, rfl => v.restores

end

/-! ## Requests, results and answers -/

def Request.levels (r : Request) : Nat :=
  max (Field.optionalLevels (fun parts => Part.listLevels parts + 1) r.pipeline)
    (Field.messagesLevels Entry.levels r.context) + 1

/-- A request may lack its pipeline, and its context may be empty. -/
theorem Request.restores (r : Request) : Restores Request.read ⟨none, []⟩ r r.print r.levels := by
  unfold print
  exact .readLevels (fun _ => .append
    (.optional r.pipeline (fun parts => Request.mk parts []) ⟨by decide, rfl⟩ (fun _ => rfl)
      fun parts _ => Part.restores_list (Part.restores_each parts))
    (.messages (fun entries => Request.mk r.pipeline entries) ⟨by decide, rfl⟩ (fun _ _ => rfl)
      r.context [] (Entry.restores_each r.context))) rfl

def PartResult.levels (r : PartResult) : Nat :=
  max (Field.messagesLevels Entry.levels r.values) (nameLevels r.tag) + 1

/-- The entries of a result are written before its tag. -/
theorem PartResult.restores (r : PartResult) :
    Restores PartResult.read .empty r r.print r.levels := by
  unfold print
  exact .readLevels (fun _ => .append
    (.messages (fun entries => PartResult.mk entries none) ⟨by decide, rfl⟩ (fun _ _ => rfl)
      r.values [] (Entry.restores_each r.values))
    (.name r.tag (fun tag => PartResult.mk r.values tag) ⟨by decide, rfl⟩ fun _ => rfl)) rfl

/-- The levels of a verdict; an identifier is a message of its own. -/
def Verdict.levels : Option Verdict → Nat
  | some (success _) => 2
  | _ => 1

/-- A verdict, or a final message that lacks one, which is empty. -/
theorem Verdict.restores (v : Option Verdict) :
    Restores Verdict.read none v ((v.map print).getD []) (levels v) := by
  cases v with
  | none => exact .readLevels (fun _ => .nil) rfl
  | some v =>
    cases v with
    | success id =>
      exact .readLevels (fun _ => .message (fun id => some (Verdict.success id)) ⟨by decide, rfl⟩
        (fun _ => rfl) (restores_name id)) rfl
    | error text =>
      exact .readLevels (fun _ => .string text (fun s => some (Verdict.error s)) ⟨by decide, rfl⟩
        fun _ => rfl) rfl

namespace Message

def levels : Message → Nat
  | ⟨none⟩ => 1
  | ⟨some (.final verdict)⟩ => Verdict.levels verdict + 1
  | ⟨some (.result r)⟩ => r.levels + 1
  | ⟨some (.log _)⟩ => 2

/-- Each kind of message, and the message that is of no kind. -/
theorem restores (m : Message) : Restores read .empty m m.print m.levels := by
  obtain ⟨_ | verdict | r | text⟩ := m
  · exact .readLevels (fun _ => .nil) rfl
  · exact .readLevels (fun _ => .message (fun v => Message.mk (some (.final v)))
      ⟨by decide, rfl⟩ (fun _ => rfl) (Verdict.restores verdict)) rfl
  · exact .readLevels (fun _ => .message (fun r => Message.mk (some (.result r)))
      ⟨by decide, rfl⟩ (fun _ => rfl) r.restores) rfl
  · exact .readLevels (fun _ => .message (fun s => Message.mk (some (.log s)))
      ⟨by decide, rfl⟩ (fun _ => rfl) (restores_name text)) rfl

end Message

def ContextRequest.levels (r : ContextRequest) : Nat :=
  max (nameLevels r.executionId) (nameLevels r.key) + 1

/-- A lookup may lack its run, its key or both. -/
theorem ContextRequest.restores (r : ContextRequest) :
    Restores ContextRequest.read ⟨none, none⟩ r r.print r.levels := by
  unfold print
  exact .readLevels (fun _ => .append
    (.name r.executionId (fun id => ContextRequest.mk id none) ⟨by decide, rfl⟩ fun _ => rfl)
    (.name r.key (fun key => ContextRequest.mk r.executionId key) ⟨by decide, rfl⟩
      fun _ => rfl)) rfl

namespace ContextReply

def levels : ContextReply → Nat
  | ⟨some (.value v)⟩ => v.levels + 1
  | _ => 1

/-- A lookup is answered with a value, an error or nothing. -/
theorem restores (r : ContextReply) : Restores read ⟨none⟩ r r.print r.levels := by
  obtain ⟨_ | v | text⟩ := r
  · exact .readLevels (fun _ => .nil) rfl
  · exact .readLevels (fun _ => .message (fun v => ContextReply.mk (some (.value v)))
      ⟨by decide, rfl⟩ (fun _ => rfl) v.restores) rfl
  · exact .readLevels (fun _ => .string text (fun s => ContextReply.mk (some (.error s)))
      ⟨by decide, rfl⟩ fun _ => rfl) rfl

end ContextReply

/-- Every message is read back from its bytes if it nests no deeper than the reader goes, and is
refused otherwise. Bytes in memory are fewer than `2 ^ 64`. -/
theorem binary_round_trip :
    (∀ r : Request, r.print.length < UInt64.size →
      Request.parse r.print = if r.levels ≤ maxLevels then some r else none) ∧
    (∀ m : Message, m.print.length < UInt64.size →
      Message.parse m.print = if m.levels ≤ maxLevels then some m else none) ∧
    (∀ r : ContextRequest, r.print.length < UInt64.size →
      ContextRequest.parse r.print = if r.levels ≤ maxLevels then some r else none) ∧
    (∀ r : ContextReply, r.print.length < UInt64.size →
      ContextReply.parse r.print = if r.levels ≤ maxLevels then some r else none) ∧
    ∀ v : Value, v.print.length < UInt64.size →
      Value.parse v.print = if v.levels ≤ maxLevels then some v else none :=
  ⟨fun r hlength => r.restores hlength maxLevels, fun m hlength => m.restores hlength maxLevels,
    fun r hlength => r.restores hlength maxLevels, fun r hlength => r.restores hlength maxLevels,
    fun v hlength => v.restores hlength maxLevels⟩

/-- Empty texts, empty traces and missing contents come back as they were, and so do the largest
hash and a NaN with its payload. -/
theorem binary_round_trip_nested :
    let inner : Value := ⟨some (.pipeline [⟨none⟩, ⟨some (.fetch none (some ""))⟩])⟩
    let hashes : Value := ⟨some (.hashesLog (some [[], [0, 18446744073709551615]]))⟩
    let op : Operation := ⟨"A", some [⟨some "p", some inner⟩, ⟨none, none⟩]⟩
    let request : Request :=
      ⟨some [⟨some (.fetchAfter (some "k") (some op) none)⟩], [⟨some "h", some hashes⟩]⟩
    let result : Message :=
      ⟨some (.result ⟨[⟨some "x", some ⟨some (.float ⟨0x7fc00001⟩)⟩⟩], some "t"⟩)⟩
    let reply : ContextReply :=
      ⟨some (.value ⟨some (.artifact (.colorsLog [[⟨none, 0, 300, "é"⟩]]))⟩)⟩
    Request.parse request.print = some request ∧ Message.parse result.print = some result ∧
      ContextReply.parse reply.print = some reply := by
  intro inner hashes op request result reply
  obtain ⟨hrequest, hmessage, -, hreply, -⟩ := binary_round_trip
  refine ⟨(hrequest request ?_).trans (if_pos ?_), (hmessage result ?_).trans (if_pos ?_),
    (hreply reply ?_).trans (if_pos ?_)⟩
  all_goals decide +kernel

end Proto

end MiningPipelines
