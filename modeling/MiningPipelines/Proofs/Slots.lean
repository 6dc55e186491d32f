import Mathlib.Data.List.Forall2
import MiningPipelines.Proofs.Decoding
import MiningPipelines.Wire.Slots

/-!
# Wire pipelines, slot by slot

A record of `Wire.Slotted` names its slots twice, in the table that is counted and in the search
behind the count. Both are in step with the list of what is in the slots : the table gives its
names (`Wire.Slotted.Value.populated_eq`), and the search finds its head. So decoding a record is
decoding that list (`Wire.Slotted.Value.decode_eq`), at every type that takes part in it.

The list keeps all of a record (`Wire.Slotted.Value.eq_of_listed`), since no two slots hold the
same payloads. What `Proofs.Decoding` says of lists therefore holds of records :
`Wire.Slotted.Pipeline.decode_exact`.
-/

namespace MiningPipelines

namespace Wire.Slotted

/-! ## Slots and their names -/

section Names

variable {α : Type} {slot : α → String} {table : List (String × Bool)} {os os' : List (Option α)}
  {names : List String}

/-- The table says of each slot, by its name, whether there is something in it. -/
def Tallies (slot : α → String) : List (String × Bool) → List (Option α) → Prop :=
  List.Forall₂ fun e o => e.2 = o.isSome ∧ ∀ a ∈ o, slot a = e.1

/-- The names that a table counts are those of what is in the slots. -/
theorem Tallies.counted (h : Tallies slot table os) :
    (table.filter Prod.snd).map Prod.fst = (os.filterMap id).map slot := by
  induction h with
  | nil => rfl
  | @cons e o _ _ he _ ih =>
    obtain ⟨name, isSet⟩ := e
    obtain ⟨rfl, hname⟩ := he
    cases o with
    | none => exact ih
    | some a =>
      have hname : slot a = name := hname a rfl
      simp [ih, hname]

/-- What is in a slot has a name of the table. -/
theorem Tallies.slot_mem (h : Tallies slot table os) {a : α} (ha : a ∈ os.filterMap id) :
    slot a ∈ table.map Prod.fst := by
  have hcounted : slot a ∈ (table.filter Prod.snd).map Prod.fst :=
    h.counted ▸ List.mem_map_of_mem ha
  exact (List.filter_sublist.map Prod.fst).subset hcounted

/-- What is in slots of distinct names can be told from the list of it. -/
theorem Tallies.eq_of_filterMap {table' : List (String × Bool)} (h : Tallies slot table os)
    (h' : Tallies slot table' os') (hnames : table.map Prod.fst = table'.map Prod.fst)
    (hnodup : (table.map Prod.fst).Nodup) (heq : os.filterMap id = os'.filterMap id) :
    os = os' := by
  induction h generalizing table' os' with
  | nil =>
    cases h' with
    | nil => rfl
    | cons => cases hnames
  | @cons e o _ _ he hrest ih =>
    cases h' with
    | nil => cases hnames
    | @cons e' o' _ _ he' hrest' =>
      obtain ⟨hname, hnames⟩ := List.cons.inj hnames
      obtain ⟨hfresh, hnodup⟩ := List.nodup_cons.1 hnodup
      -- If one first slot is set and the other is not, what is in it is found further on in the
      -- other list, and so under a name that the table has twice.
      cases o with
      | none =>
        cases o' with
        | none => rw [ih hrest' hnames hnodup heq]
        | some a =>
          refine absurd (Tallies.slot_mem hrest (a := a) (heq ▸ List.mem_cons_self)) ?_
          rw [he'.2 a rfl, ← hname]
          exact hfresh
      | some a =>
        cases o' with
        | none =>
          refine absurd (Tallies.slot_mem hrest' (a := a) (heq ▸ List.mem_cons_self)) ?_
          rw [he.2 a rfl, ← hnames]
          exact hfresh
        | some b =>
          obtain ⟨rfl, hlists⟩ := List.cons.inj heq
          rw [ih hrest' hnames hnodup hlists]

end Names

/-- A slot whose payloads all have its name. -/
theorem Tallies.map {α β : Type} {slot : α → String} {table : List (String × Bool)}
    {os : List (Option α)} (h : Tallies slot table os) {name : String} {f : β → α} {o : Option β}
    (hname : ∀ b, slot (f b) = name := by exact fun _ => rfl) :
    Tallies slot ((name, o.isSome) :: table) (o.map f :: os) := by
  refine .cons ⟨Option.isSome_map.symm, fun a ha => ?_⟩ h
  obtain ⟨b, -, rfl⟩ := Option.map_eq_some_iff.1 ha
  exact hname b

theorem Pipeline.payload?_eq_map (pipeline : Option (List Part)) :
    Pipeline.payload? pipeline = pipeline.map fun parts => .pipeline (Pipeline.listed parts) := by
  cases pipeline <;> rfl

theorem Operation.shape?_eq_map (op : Option Operation) :
    Operation.shape? op = op.map fun op => .operation op.listed := by
  cases op <;> rfl

theorem Pipeline.shape?_eq_map (parallel : Option (List Part)) :
    Pipeline.shape? parallel = parallel.map fun parts => .parallel (Pipeline.listed parts) := by
  cases parallel <;> rfl

theorem FetchAfter.shape?_eq_map (fetchAfter : Option FetchAfter) :
    FetchAfter.shape? fetchAfter =
      fetchAfter.map fun f => .fetchAfter f.keys f.before.listed f.tag := by
  obtain _ | ⟨_, _, _⟩ := fetchAfter <;> rfl

/-- The table of a value is in step with what is in its slots. -/
theorem Value.tallies (w : Value) : Tallies Payload.slot w.table w.payloads := by
  obtain ⟨⟩ := w
  rw [Value.payloads, Pipeline.payload?_eq_map]
  exact .map <| .map <| .map <| .map <| .map <| .map <| .map <| .map <| .map <| .map <| .map <|
    .map <| .map <| .map <| .map <| .map <| .map .nil

/-- The slots counted in a value are those that are listed. -/
theorem Value.populated_eq (w : Value) : w.populated = w.listed.slotNames := by
  rw [Value.listed]
  exact w.tallies.counted

/-- The shapes of a part, and whether they are set. -/
def Part.table (w : Part) : List (String × Bool) :=
  [("defaultPart", w.operation.isSome), ("parallelPart", w.parallel.isSome),
    ("simpleContextRequestPart", w.fetch.isSome),
    ("complexContextRequestPart", w.fetchAfter.isSome)]

/-- The shapes of a part have no table of their own in the record, but are counted as if they had.
-/
theorem Part.tallies (w : Part) : Tallies Shape.slot w.table w.shapes := by
  obtain ⟨⟩ := w
  rw [Part.shapes, Operation.shape?_eq_map, Pipeline.shape?_eq_map, FetchAfter.shape?_eq_map]
  exact .map <| .map <| .map <| .map .nil

/-- The shapes counted in a part are those that are listed. -/
theorem Part.populated_eq (w : Part) : w.populated = w.listed.slotNames := by
  have htable : w.populated = (w.table.filter Prod.snd).map Prod.fst := by
    obtain ⟨_ | _, _ | _, _ | _, _ | _⟩ := w <;> rfl
  rw [htable, Part.listed]
  exact w.tallies.counted

/-! ## Decoding -/

/-- If the search comes by the first payload, a value is decoded as the list of its payloads. -/
theorem Value.decode_of_head {w : Value} {p : Payload} {rest : List Payload}
    (hlisted : w.listed = ⟨p :: rest⟩)
    (hdecode : w.decode = checkSlots w.populated >>= fun _ => p.decode) :
    w.decode = w.listed.decode := by
  rw [hdecode, w.populated_eq, hlisted]
  cases rest <;> rfl

/-- If the search comes by the first shape, a part is decoded as the list of its shapes. -/
theorem Part.decode_of_head {w : Part} {s : Shape} {rest : List Shape}
    (hlisted : w.listed = ⟨s :: rest⟩)
    (hdecode : w.decode = checkShapes w.populated >>= fun _ => s.decode) :
    w.decode = w.listed.decode := by
  rw [hdecode, w.populated_eq, hlisted]
  cases rest <;> rfl

mutual

/-- A value is decoded as the list of its payloads. -/
theorem Value.decode_eq : ∀ w : Value, w.decode = w.listed.decode
  | ⟨string, uint32, bool, float, enum, strings, namesLog, hashesLog, pipeline, colorsLog,
      eventLogInfo, petriNet, graph, labeledDataset, tracesActivities, tracesSubArrays,
      traceIndexSubArrays⟩ => by
    -- The search goes by the fields in the order of the table : the first that is set is the head
    -- of the list, and while none is the list starts further on.
    obtain _ | s := string
    case some => exact Value.decode_of_head rfl rfl
    obtain _ | n := uint32
    case some => exact Value.decode_of_head rfl rfl
    obtain _ | b := bool
    case some => exact Value.decode_of_head rfl rfl
    obtain _ | x := float
    case some => exact Value.decode_of_head rfl rfl
    obtain _ | ⟨enumType, variant⟩ := enum
    case some => exact Value.decode_of_head rfl rfl
    obtain _ | items := strings
    case some => exact Value.decode_of_head rfl rfl
    obtain _ | traces := namesLog
    case some => exact Value.decode_of_head rfl rfl
    obtain _ | traces := hashesLog
    case some => exact Value.decode_of_head rfl rfl
    obtain _ | parts := pipeline
    case some =>
      refine Value.decode_of_head (p := .pipeline (Pipeline.listed parts)) rfl ?_
      rw [Payload.decode, ← Pipeline.decode_eq parts]
      rfl
    obtain _ | payload := colorsLog
    case some => exact Value.decode_of_head rfl rfl
    obtain _ | payload := eventLogInfo
    case some => exact Value.decode_of_head rfl rfl
    obtain _ | payload := petriNet
    case some => exact Value.decode_of_head rfl rfl
    obtain _ | payload := graph
    case some => exact Value.decode_of_head rfl rfl
    obtain _ | payload := labeledDataset
    case some => exact Value.decode_of_head rfl rfl
    obtain _ | payload := tracesActivities
    case some => exact Value.decode_of_head rfl rfl
    obtain _ | payload := tracesSubArrays
    case some => exact Value.decode_of_head rfl rfl
    obtain _ | payload := traceIndexSubArrays
    case some => exact Value.decode_of_head rfl rfl
    rfl

/-- A part is decoded as the list of its shapes. -/
theorem Part.decode_eq : ∀ w : Part, w.decode = w.listed.decode
  | ⟨operation, parallel, fetch, fetchAfter⟩ => by
    obtain _ | op := operation
    case some =>
      refine Part.decode_of_head (s := .operation op.listed) rfl ?_
      rw [Shape.decode, ← op.decode_eq]
      rfl
    obtain _ | parts := parallel
    case some =>
      refine Part.decode_of_head (s := .parallel (Pipeline.listed parts)) rfl ?_
      rw [Shape.decode, ← Pipeline.decode_eq parts]
      rfl
    obtain _ | ⟨key, tag⟩ := fetch
    case some => exact Part.decode_of_head rfl rfl
    obtain _ | ⟨keys, before, tag⟩ := fetchAfter
    case some =>
      refine Part.decode_of_head (s := .fetchAfter keys before.listed tag) rfl ?_
      rw [Shape.decode, ← before.decode_eq]
      rfl
    rfl

/-- The name of an operation is kept as it is, so only its entries matter. -/
theorem Operation.decode_eq : ∀ op : Operation, op.decode = op.listed.decode
  | ⟨name, config⟩ => by
    rw [Operation.decode, Operation.listed, Wire.Operation.decode, Entries.decodeOnto_eq [] config]

/-- Entries are appended to the same configuration one after the other. -/
theorem Entries.decodeOnto_eq (config : Config) : ∀ entries : List (String × Value),
    Entries.decodeOnto config entries = Wire.Entries.decodeOnto config (Entries.listed entries)
  | [] => rfl
  | (k, v) :: rest => by
    rw [Entries.decodeOnto, Entries.listed, Wire.Entries.decodeOnto, v.decode_eq]
    exact bind_congr fun u => bind_congr fun next => Entries.decodeOnto_eq next rest

/-- A pipeline of records is decoded as the pipeline of lists. -/
theorem Pipeline.decode_eq : ∀ w : List Part,
    Pipeline.decode w = Wire.Pipeline.decode (Pipeline.listed w)
  | [] => rfl
  | p :: rest => by
    rw [Pipeline.decode, Pipeline.listed, Wire.Pipeline.decode, p.decode_eq,
      Pipeline.decode_eq rest]
    rfl

end

/-! ## Encoding -/

mutual

/-- The record of a value lists its one payload. -/
theorem Value.listed_ofValue : ∀ v : MiningPipelines.Value, (Value.ofValue v).listed = v.toWire
  | .pipeline parts => by
    have hparts : (Value.ofValue (.pipeline parts)).listed =
      ⟨[.pipeline (Pipeline.listed (Pipeline.ofPipeline parts))]⟩ := rfl
    rw [hparts, Pipeline.listed_ofPipeline parts, MiningPipelines.Value.toWire]
  | .artifact kind _ => by cases kind <;> rfl
  | .string _ | .uint32 _ | .bool _ | .float _ | .enum _ _ | .strings _ | .namesLog _
  | .hashesLog _ => rfl

/-- The record of a part lists its one shape. -/
theorem Part.listed_ofPart : ∀ p : MiningPipelines.Part, (Part.ofPart p).listed = p.toWire
  | .operation op => by
    have hop : (Part.ofPart (.operation op)).listed =
      ⟨[.operation (Operation.ofOperation op).listed]⟩ := rfl
    rw [hop, Operation.listed_ofOperation op, MiningPipelines.Part.toWire]
  | .parallel parts => by
    have hparts : (Part.ofPart (.parallel parts)).listed =
      ⟨[.parallel (Pipeline.listed (Pipeline.ofPipeline parts))]⟩ := rfl
    rw [hparts, Pipeline.listed_ofPipeline parts, MiningPipelines.Part.toWire]
  | .fetch _ _ _ => rfl
  | .fetchAfter keys before tag handler => by
    have hbefore : (Part.ofPart (.fetchAfter keys before tag handler)).listed =
      ⟨[.fetchAfter keys (Operation.ofOperation before).listed tag]⟩ := rfl
    rw [hbefore, Operation.listed_ofOperation before, MiningPipelines.Part.toWire]

theorem Operation.listed_ofOperation : ∀ op : MiningPipelines.Operation,
    (Operation.ofOperation op).listed = op.toWire
  | ⟨name, config⟩ => by
    rw [Operation.ofOperation, Operation.listed, Entries.listed_ofConfig config,
      MiningPipelines.Operation.toWire]

/-- The entries of a configuration keep their keys and their order. -/
theorem Entries.listed_ofConfig : ∀ config : List (String × MiningPipelines.Value),
    Entries.listed (Entries.ofConfig config) = Config.toWire config
  | [] => rfl
  | (k, v) :: rest => by
    rw [Entries.ofConfig, Entries.listed, ← Value.listed, Value.listed_ofValue v,
      Entries.listed_ofConfig rest, Config.toWire]

/-- The record of a pipeline lists its wire form. -/
theorem Pipeline.listed_ofPipeline : ∀ parts : List MiningPipelines.Part,
    Pipeline.listed (Pipeline.ofPipeline parts) = MiningPipelines.Pipeline.toWire parts
  | [] => rfl
  | p :: rest => by
    rw [Pipeline.ofPipeline, Pipeline.listed, ← Part.listed, Part.listed_ofPart p,
      Pipeline.listed_ofPipeline rest, MiningPipelines.Pipeline.toWire]

end

/-! ## What a list keeps of a record -/

/-- What is in a slot can be told from its payload. -/
theorem eq_of_map {α β : Type} {f : α → β} {o o' : Option α} (h : o.map f = o'.map f)
    (hf : ∀ a b, f a = f b → a = b := by simp) : o = o' :=
  Option.map_injective (fun a b => hf a b) h

theorem nodup_valueSlots : valueSlots.Nodup := by decide

theorem nodup_partSlots : partSlots.Nodup := by decide

/-- The list of payloads says which slot each of them is in. -/
theorem Value.payloads_of_listed {w w' : Value} (h : w.listed = w'.listed) :
    w.payloads = w'.payloads :=
  w.tallies.eq_of_filterMap w'.tallies rfl nodup_valueSlots (Wire.Value.mk.inj h)

/-- The list of shapes says which field each of them is in. -/
theorem Part.shapes_of_listed {w w' : Part} (h : w.listed = w'.listed) : w.shapes = w'.shapes :=
  w.tallies.eq_of_filterMap w'.tallies rfl nodup_partSlots (Wire.Part.mk.inj h)

mutual

/-- Values with the same payloads are the same, slot for slot. -/
theorem Value.eq_of_listed : ∀ {w w' : Value}, w.listed = w'.listed → w = w'
  | ⟨string, uint32, bool, float, enum, strings, namesLog, hashesLog, pipeline, colorsLog,
      eventLogInfo, petriNet, graph, labeledDataset, tracesActivities, tracesSubArrays,
      traceIndexSubArrays⟩, ⟨_, _, _, _, _, _, _, _, pipeline', _, _, _, _, _, _, _, _⟩, h => by
    have hpayloads := Value.payloads_of_listed h
    simp only [Value.payloads, List.cons.injEq] at hpayloads
    obtain ⟨hstring, huint32, hbool, hfloat, henum, hstrings, hnamesLog, hhashesLog, hpipeline,
      hcolorsLog, heventLogInfo, hpetriNet, hgraph, hlabeledDataset, htracesActivities,
      htracesSubArrays, htraceIndexSubArrays, -⟩ := hpayloads
    have hpipeline : pipeline = pipeline' := Pipeline.eq_of_payload? hpipeline
    simp only [Value.mk.injEq]
    exact ⟨eq_of_map hstring, eq_of_map huint32, eq_of_map hbool, eq_of_map hfloat,
      eq_of_map henum, eq_of_map hstrings, eq_of_map hnamesLog, eq_of_map hhashesLog, hpipeline,
      eq_of_map hcolorsLog, eq_of_map heventLogInfo, eq_of_map hpetriNet, eq_of_map hgraph,
      eq_of_map hlabeledDataset, eq_of_map htracesActivities, eq_of_map htracesSubArrays,
      eq_of_map htraceIndexSubArrays⟩

/-- A pipeline in a value can be told from its payload. -/
theorem Pipeline.eq_of_payload? : ∀ {pipeline pipeline' : Option (List Part)},
    Pipeline.payload? pipeline = Pipeline.payload? pipeline' → pipeline = pipeline'
  | none, none, _ => rfl
  | none, some _, h | some _, none, h => by cases h
  | some parts, some parts', h => by
    have hparts : Pipeline.listed parts = Pipeline.listed parts' :=
      Payload.pipeline.inj (Option.some.inj h)
    rw [Pipeline.eq_of_listed hparts]

/-- Parts with the same shapes are the same, shape for shape. -/
theorem Part.eq_of_listed : ∀ {w w' : Part}, w.listed = w'.listed → w = w'
  | ⟨operation, parallel, fetch, fetchAfter⟩, ⟨operation', parallel', fetch', fetchAfter'⟩, h => by
    have hshapes := Part.shapes_of_listed h
    simp only [Part.shapes, List.cons.injEq] at hshapes
    obtain ⟨hoperation, hparallel, hfetch, hfetchAfter, -⟩ := hshapes
    have hoperation : operation = operation' := Operation.eq_of_shape? hoperation
    have hparallel : parallel = parallel' := Pipeline.eq_of_shape? hparallel
    have hfetchAfter : fetchAfter = fetchAfter' := FetchAfter.eq_of_shape? hfetchAfter
    have hfetch : fetch = fetch' := by
      refine eq_of_map hfetch fun f g h => ?_
      cases f
      cases g
      simpa using h
    rw [hoperation, hparallel, hfetch, hfetchAfter]

/-- An operation in a part can be told from its shape. -/
theorem Operation.eq_of_shape? : ∀ {op op' : Option Operation},
    Operation.shape? op = Operation.shape? op' → op = op'
  | none, none, _ => rfl
  | none, some _, h | some _, none, h => by cases h
  | some op, some op', h => by
    have hop : op.listed = op'.listed := Shape.operation.inj (Option.some.inj h)
    rw [Operation.eq_of_listed hop]

theorem Pipeline.eq_of_shape? : ∀ {parallel parallel' : Option (List Part)},
    Pipeline.shape? parallel = Pipeline.shape? parallel' → parallel = parallel'
  | none, none, _ => rfl
  | none, some _, h | some _, none, h => by cases h
  | some parts, some parts', h => by
    have hparts : Pipeline.listed parts = Pipeline.listed parts' :=
      Shape.parallel.inj (Option.some.inj h)
    rw [Pipeline.eq_of_listed hparts]

theorem FetchAfter.eq_of_shape? : ∀ {fetchAfter fetchAfter' : Option FetchAfter},
    FetchAfter.shape? fetchAfter = FetchAfter.shape? fetchAfter' → fetchAfter = fetchAfter'
  | none, none, _ => rfl
  | none, some ⟨_, _, _⟩, h | some ⟨_, _, _⟩, none, h => by cases h
  | some ⟨keys, before, tag⟩, some ⟨keys', before', tag'⟩, h => by
    obtain ⟨rfl, hbefore, rfl⟩ := Shape.fetchAfter.inj (Option.some.inj h)
    rw [Operation.eq_of_listed hbefore]

theorem Operation.eq_of_listed : ∀ {op op' : Operation}, op.listed = op'.listed → op = op'
  | ⟨name, config⟩, ⟨name', config'⟩, h => by
    obtain ⟨rfl, hconfig⟩ := Wire.Operation.mk.inj h
    rw [Entries.eq_of_listed hconfig]

/-- Entries that are listed alike are the same, in the same order. -/
theorem Entries.eq_of_listed : ∀ {entries entries' : List (String × Value)},
    Entries.listed entries = Entries.listed entries' → entries = entries'
  | [], [], _ => rfl
  | [], _ :: _, h | _ :: _, [], h => by cases h
  | (k, v) :: rest, (k', v') :: rest', h => by
    obtain ⟨hentry, hrest⟩ := List.cons.inj h
    obtain ⟨rfl, hv⟩ := Prod.mk.inj hentry
    rw [Value.eq_of_listed hv, Entries.eq_of_listed hrest]

/-- Pipelines that are listed alike are the same, field for field. -/
theorem Pipeline.eq_of_listed : ∀ {w w' : List Part},
    Pipeline.listed w = Pipeline.listed w' → w = w'
  | [], [], _ => rfl
  | [], _ :: _, h | _ :: _, [], h => by cases h
  | p :: rest, p' :: rest', h => by
    obtain ⟨hp, hrest⟩ := List.cons.inj h
    rw [Part.eq_of_listed hp, Pipeline.eq_of_listed hrest]

end

/-! ## Pieces -/

/-- What a pipeline of records is made of. -/
inductive Piece where
  | part (w : Part)
  | operation (op : Operation)
  | entry (key : String) (v : Value)

/-- The piece can be decoded, whatever is inside it. -/
def Piece.Sound : Piece → Prop
  | .part w => w.populated.length = 1
  | .operation op => op.name ≠ ""
  | .entry key v => key ≠ "" ∧ v.populated.length = 1 ∧ ∀ x, v.float = some x → x.isFinite

def Piece.listed : Piece → Wire.Piece
  | .part w => .part w.listed
  | .operation op => .operation op.listed
  | .entry key v => .entry key v.listed

mutual

/-- The pieces of a pipeline, at any depth. -/
def Pipeline.pieces : List Part → List Piece
  | [] => []
  | p :: rest => p.pieces ++ Pipeline.pieces rest

def Part.pieces : Part → List Piece
  | ⟨operation, parallel, fetch, fetchAfter⟩ =>
    .part ⟨operation, parallel, fetch, fetchAfter⟩ :: (Operation.piecesOf operation ++
      Pipeline.piecesOf parallel ++ FetchAfter.piecesOf fetchAfter)

def Operation.pieces : Operation → List Piece
  | ⟨name, config⟩ => .operation ⟨name, config⟩ :: Entries.pieces config

def Entries.pieces : List (String × Value) → List Piece
  | [] => []
  | (k, v) :: rest => .entry k v :: (v.pieces ++ Entries.pieces rest)

/-- The pieces of the pipeline in a value. -/
def Value.pieces : Value → List Piece
  | ⟨_, _, _, _, _, _, _, _, pipeline, _, _, _, _, _, _, _, _⟩ => Pipeline.piecesOf pipeline

def Pipeline.piecesOf : Option (List Part) → List Piece
  | none => []
  | some parts => Pipeline.pieces parts

def Operation.piecesOf : Option Operation → List Piece
  | none => []
  | some op => op.pieces

def FetchAfter.piecesOf : Option FetchAfter → List Piece
  | none => []
  | some ⟨_, before, _⟩ => before.pieces

end

/-! ### The pieces of a list -/

/-- Slots with nothing in them have no pieces. -/
theorem piecesOf_payloads (os : List (Option Payload)) :
    Wire.Value.piecesOf (os.filterMap id) = os.flatMap fun o => o.elim [] Payload.pieces := by
  induction os with
  | nil => rfl
  | cons o rest ih =>
    cases o with
    | none => exact ih
    | some p => exact congrArg (p.pieces ++ ·) ih

theorem piecesOf_shapes (os : List (Option Shape)) :
    Wire.Part.piecesOf (os.filterMap id) = os.flatMap fun o => o.elim [] Shape.pieces := by
  induction os with
  | nil => rfl
  | cons o rest ih =>
    cases o with
    | none => exact ih
    | some s => exact congrArg (s.pieces ++ ·) ih

/-- Payloads without a pipeline have no pieces. -/
theorem elim_map_pieces {α : Type} (o : Option α) {f : α → Payload}
    (hf : ∀ a, (f a).pieces = []) :
    (o.map f).elim [] Payload.pieces = [] := by
  cases o with
  | none => rfl
  | some a => exact hf a

mutual

/-- The pieces of a pipeline of records are listed as those of the pipeline of lists. -/
theorem Pipeline.map_pieces : ∀ w : List Part,
    (Pipeline.pieces w).map Piece.listed = Wire.Pipeline.pieces (Pipeline.listed w)
  | [] => rfl
  | p :: rest => by
    rw [Pipeline.pieces, List.map_append, p.map_pieces, Pipeline.map_pieces rest,
      Pipeline.listed, Wire.Pipeline.pieces, Part.listed]

/-- A fetch has no pieces of its own, so only three shapes count. -/
theorem Part.map_pieces : ∀ w : Part, w.pieces.map Piece.listed = w.listed.pieces
  | ⟨operation, parallel, fetch, fetchAfter⟩ => by
    have hfetch : (fetch.map fun f => Shape.fetch f.key f.tag).elim [] Shape.pieces = [] := by
      cases fetch <;> rfl
    rw [Part.pieces, List.map_cons, List.map_append, List.map_append,
      Operation.map_piecesOf operation, Pipeline.map_piecesOf_shape parallel,
      FetchAfter.map_piecesOf fetchAfter, Part.listed, Wire.Part.pieces, piecesOf_shapes,
      Part.shapes]
    simp only [List.flatMap_cons, List.flatMap_nil, hfetch, List.nil_append, List.append_nil,
      List.append_assoc]
    rfl

theorem Operation.map_pieces : ∀ op : Operation, op.pieces.map Piece.listed = op.listed.pieces
  | ⟨name, config⟩ => by
    rw [Operation.pieces, List.map_cons, Entries.map_pieces config, Operation.listed,
      Wire.Operation.pieces]
    rfl

theorem Entries.map_pieces : ∀ entries : List (String × Value),
    (Entries.pieces entries).map Piece.listed = Wire.Entries.pieces (Entries.listed entries)
  | [] => rfl
  | (k, v) :: rest => by
    rw [Entries.pieces, List.map_cons, List.map_append, v.map_pieces, Entries.map_pieces rest,
      Entries.listed, Wire.Entries.pieces]
    rfl

/-- Of the slots of a value only the pipeline has pieces. -/
theorem Value.map_pieces : ∀ w : Value, w.pieces.map Piece.listed = w.listed.pieces
  | ⟨string, uint32, bool, float, enum, strings, namesLog, hashesLog, pipeline, colorsLog,
      eventLogInfo, petriNet, graph, labeledDataset, tracesActivities, tracesSubArrays,
      traceIndexSubArrays⟩ => by
    rw [Value.pieces, Pipeline.map_piecesOf pipeline, Value.listed, Wire.Value.pieces,
      piecesOf_payloads, Value.payloads]
    simp only [List.flatMap_cons, List.flatMap_nil]
    rw [elim_map_pieces string fun _ => rfl, elim_map_pieces uint32 fun _ => rfl,
      elim_map_pieces bool fun _ => rfl, elim_map_pieces float fun _ => rfl,
      elim_map_pieces enum fun _ => rfl, elim_map_pieces strings fun _ => rfl,
      elim_map_pieces namesLog fun _ => rfl, elim_map_pieces hashesLog fun _ => rfl,
      elim_map_pieces colorsLog fun _ => rfl, elim_map_pieces eventLogInfo fun _ => rfl,
      elim_map_pieces petriNet fun _ => rfl, elim_map_pieces graph fun _ => rfl,
      elim_map_pieces labeledDataset fun _ => rfl, elim_map_pieces tracesActivities fun _ => rfl,
      elim_map_pieces tracesSubArrays fun _ => rfl,
      elim_map_pieces traceIndexSubArrays fun _ => rfl]
    simp only [List.nil_append, List.append_nil]

theorem Pipeline.map_piecesOf : ∀ pipeline : Option (List Part),
    (Pipeline.piecesOf pipeline).map Piece.listed =
      (Pipeline.payload? pipeline).elim [] Payload.pieces
  | none => rfl
  | some parts => Pipeline.map_pieces parts

theorem Operation.map_piecesOf : ∀ op : Option Operation,
    (Operation.piecesOf op).map Piece.listed = (Operation.shape? op).elim [] Shape.pieces
  | none => rfl
  | some op => op.map_pieces

theorem Pipeline.map_piecesOf_shape : ∀ parallel : Option (List Part),
    (Pipeline.piecesOf parallel).map Piece.listed =
      (Pipeline.shape? parallel).elim [] Shape.pieces
  | none => rfl
  | some parts => Pipeline.map_pieces parts

theorem FetchAfter.map_piecesOf : ∀ fetchAfter : Option FetchAfter,
    (FetchAfter.piecesOf fetchAfter).map Piece.listed =
      (FetchAfter.shape? fetchAfter).elim [] Shape.pieces
  | none => rfl
  | some ⟨_, before, _⟩ => before.map_pieces

end

/-- Counting the slots of the table counts the payloads. -/
theorem Value.length_populated (w : Value) : w.populated.length = w.listed.slots.length := by
  rw [w.populated_eq, Wire.Value.slotNames, List.length_map]

theorem Part.length_populated (w : Part) : w.populated.length = w.listed.shapes.length := by
  rw [w.populated_eq, Wire.Part.slotNames, List.length_map]

/-- Only the slot of floats holds one. -/
theorem Value.float_mem_listed {w : Value} {x : Single} :
    Payload.float x ∈ w.listed.slots ↔ w.float = some x := by
  obtain ⟨⟩ := w
  rw [Value.listed, Value.payloads, Pipeline.payload?_eq_map]
  simp [List.mem_filterMap, eq_comm (a := some (Payload.float x))]

/-- A piece is sound exactly if it is so by its populated slots. -/
theorem Piece.sound_listed : ∀ x : Piece, x.listed.Sound ↔ x.Sound
  | .part w => by rw [Piece.listed, Wire.Piece.Sound, Piece.Sound, w.length_populated]
  | .operation ⟨name, config⟩ => by
    rw [Piece.listed, Operation.listed]
    rfl
  | .entry key v => by
    rw [Piece.listed, Wire.Piece.Sound, Piece.Sound, v.length_populated]
    simp only [Value.float_mem_listed]

/-! ## What is accepted, and what is kept -/

/-- A pipeline of records is decoded as its lists are : exactly if its pieces are sound, and then
its record is the one that it came as. -/
theorem Pipeline.decode_exact (w : Pipeline) :
    Pipeline.decode w = Wire.Pipeline.decode (Pipeline.listed w) ∧
    ((∃ parts, Pipeline.decode w = .ok parts) ↔ ∀ x ∈ Pipeline.pieces w, x.Sound) ∧
    ∀ parts, Pipeline.decode w = .ok parts → Pipeline.ofPipeline parts = w := by
  -- The lists are equal, and they keep the records.
  refine ⟨Pipeline.decode_eq w, ?_, fun parts h => Pipeline.eq_of_listed ?_⟩
  · rw [Pipeline.decode_eq, Wire.Pipeline.decodes_iff, ← Pipeline.map_pieces, List.forall_mem_map]
    simp only [Piece.sound_listed]
  · rw [Pipeline.decode_eq] at h
    rw [Pipeline.listed_ofPipeline, Wire.Pipeline.toWire_of_decode _ h]

/-- A pipeline inside the operation before a fetch is accepted; its fetch needs no keys. -/
theorem Pipeline.decode_exact_nested :
    let inner : Pipeline := [{ parallel := some [{ fetch := some ⟨"k", none⟩ }] }]
    let config : Entries :=
      [("p", { pipeline := some inner }), ("x", { float := some ⟨0x80000000⟩ }),
        ("x", { graph := some .null })]
    let w : Pipeline := [{ fetchAfter := some ⟨[], ⟨"o", config⟩, some "t"⟩ }]
    ∃ parts, Pipeline.decode w = .ok parts ∧ Pipeline.ofPipeline parts = w := by
  intro inner config w
  have hsound : ∀ x ∈ Pipeline.pieces w, x.Sound := by
    simp [w, config, inner, Pipeline.pieces, Part.pieces, Operation.pieces, Entries.pieces,
      Value.pieces, Pipeline.piecesOf, Operation.piecesOf, FetchAfter.piecesOf, Piece.Sound,
      Part.populated, Value.populated, Value.table]
    decide
  obtain ⟨-, haccepted, hkept⟩ := Pipeline.decode_exact w
  obtain ⟨parts, hparts⟩ := haccepted.2 hsound
  exact ⟨parts, hparts, hkept parts hparts⟩

/-- Of two slots that are set the first is not taken for the value. -/
example : Value.decode { string := some "a", graph := some .null } =
    .error (.malformed (.severalPayloads ["string", "graph"])) :=
  rfl

end Wire.Slotted

end MiningPipelines
