import MiningPipelines.Proofs.Slots
import MiningPipelines.Wire.Document

/-!
# Reading populated slots

A document is read slot by slot, and what it is read for is mostly the list of the slots that are
populated. The readers of these lists call each other in the same way as those of the records do
(`Wire.readValue_succ` and the like), so that what a reader keeps can be followed through the
lists alone.
-/

namespace MiningPipelines

/-! ## Reading and then going on -/

section Map

variable {α β : Type} (f : α → β) (read : Document → Option α)

/-- What is read from each item of a list can be changed after the list was read. -/
theorem Document.list?_map (d : Document) :
    (d.list? read).map (List.map f) = d.list? fun d => (read d).map f := by
  cases d with
  | array items =>
    induction items with
    | nil => rfl
    | cons item rest ih =>
      simp only [Document.list?, List.mapM_cons] at ih ⊢
      rw [← ih]
      cases read item with
      | none => rfl
      | some a => cases List.mapM read rest <;> rfl
  | _ => rfl

theorem Record.required_map (r : Record) (name : String) :
    (r.required name read).map f = r.required name fun d => (read d).map f := by
  cases h : r.find? name <;> simp [Record.required, h]

theorem Record.orElse_map (r : Record) (name : String) (a : α) :
    (r.orElse name a read).map f = r.orElse name (f a) fun d => (read d).map f := by
  cases h : r.find? name <;> simp [Record.orElse, h]

/-- A slot that is not set stays so, whatever it is read for. -/
theorem Record.slot_map (r : Record) (name : String) :
    (r.slot name read).map (Option.map f) = r.slot name fun d => (read d).map f := by
  cases h : r.find? name with
  | none => simp [Record.slot, h]
  | some d => cases d <;> simp [Record.slot, h, Function.comp_def]

variable {f read} in
/-- A slot is read for what is made of it, and what comes after goes on from that. -/
theorem Record.slot_bind_map {γ γ' δ : Type} {read' : Document → Option β}
    {g : Option α → Option γ} {g' : Option β → Option γ'} {φ : γ → δ} {ψ : γ' → δ} (r : Record)
    (name : String) (hread : ∀ d, read' d = (read d).map f)
    (h : ∀ a, (g a).map φ = (g' (a.map f)).map ψ) :
    (r.slot name read >>= g).map φ = (r.slot name read' >>= g').map ψ := by
  rw [funext hread, ← slot_map, Option.bind_eq_bind, Option.bind_eq_bind, Option.bind_map,
    Option.map_bind, Option.map_bind]
  exact congrArg _ (funext h)

theorem Wire.readOneList_map (name : String) (d : Document) :
    (readOneList name read d).map (List.map f) =
      readOneList name (fun d => (read d).map f) d := by
  cases hr : d.record? [name] with
  | none => simp [readOneList, hr]
  | some r =>
    simp only [readOneList, hr, Option.bind_eq_bind, Option.bind_some, Record.orElse_map,
      Document.list?_map, List.map_nil]

end Map

namespace Wire

/-! ## Values -/

/-- Pipelines are listed part by part. -/
theorem Slotted.Pipeline.listed_eq_map : ∀ w : Slotted.Pipeline,
    Slotted.Pipeline.listed w = w.map Slotted.Part.listed
  | [] => rfl
  | p :: rest => congrArg (p.listed :: ·) (Slotted.Pipeline.listed_eq_map rest)

theorem Slotted.Entries.listed_eq_map : ∀ entries : Slotted.Entries,
    Slotted.Entries.listed entries = entries.map fun e => (e.1, e.2.listed)
  | [] => rfl
  | (k, v) :: rest => congrArg ((k, v.listed) :: ·) (Slotted.Entries.listed_eq_map rest)

/-- The populated slots of a value, given how to read a pipeline. -/
def readSlots (readPipeline : Document → Option Pipeline) (r : Record) :
    Option (List Payload) := do
  let string ← r.slot "string" fun d => d.text?.map .string
  let uint32 ← r.slot "uint32" fun d => d.uint32?.map .uint32
  let bool ← r.slot "bool" fun d => d.bool?.map .bool
  let float ← r.slot "float" fun d => d.single?.map .float
  let enum ← r.slot "enum" fun d => (readEnum d).map fun e => .enum e.1 e.2
  let strings ← r.slot "strings" fun d => (readOneList "strings" Document.text? d).map .strings
  let namesLog ← r.slot "namesLog" fun d => (readNamesLog d).map .namesLog
  let hashesLog ← r.slot "hashesLog" fun d => (readHashesLog d).map .hashesLog
  let pipeline ← r.slot "pipeline" fun d => (readPipeline d).map .pipeline
  let artifacts ← ArtifactKind.all.mapM fun kind =>
    r.slot kind.slot fun d => d.toJson?.map (.artifact kind)
  some (([string, uint32, bool, float, enum, strings, namesLog, hashesLog, pipeline] ++
    artifacts).filterMap id)

/-- Reading the slots of all kinds is reading one after the other, in declared order. -/
theorem mapM_artifactKind_bind {α β : Type} (read : ArtifactKind → Option α)
    (next : List α → Option β) : ArtifactKind.all.mapM read >>= next = (do
      let colorsLog ← read .colorsLog
      let eventLogInfo ← read .eventLogInfo
      let petriNet ← read .petriNet
      let graph ← read .graph
      let labeledDataset ← read .labeledDataset
      let tracesActivities ← read .tracesActivities
      let tracesSubArrays ← read .tracesSubArrays
      let traceIndexSubArrays ← read .traceIndexSubArrays
      next [colorsLog, eventLogInfo, petriNet, graph, labeledDataset, tracesActivities,
        tracesSubArrays, traceIndexSubArrays]) := by
  simp only [ArtifactKind.all, List.mapM_cons, List.mapM_nil, bind_assoc, pure_bind]

/-- The slots that are read are listed as they are read one by one. -/
theorem readSlots_eq (readPipeline : Document → Option Slotted.Pipeline) (r : Record) :
    (Slotted.readSlots readPipeline r).map Slotted.Value.listed =
      (readSlots (fun d => (readPipeline d).map Slotted.Pipeline.listed) r).map Value.mk := by
  unfold Slotted.readSlots readSlots
  -- Slot by slot on both sides, the pipeline with the list form of what is read.
  iterate 8 refine r.slot_bind_map _ (fun _ => rfl) fun _ => ?_
  refine r.slot_bind_map "pipeline" (fun _ => Option.map_map ..) fun _ => ?_
  rw [mapM_artifactKind_bind]
  iterate 8 refine r.slot_bind_map _ (fun _ => rfl) fun _ => ?_
  simp only [Option.map_some, Slotted.Value.listed, Slotted.Value.payloads,
    Slotted.Pipeline.payload?_eq_map]
  rfl

/-- A value is read for its payloads, with one level less for the pipeline in it. -/
theorem readValue_succ (n : Nat) : readValue (n + 1) = (fun d => do
    let r ← d.record? valueSlots
    let slots ← readSlots (readPipeline n) r
    some ⟨slots⟩) := by
  funext d
  rw [readValue, Slotted.readValue, Option.bind_eq_bind, Option.map_bind]
  refine congrArg _ (funext fun r => (readSlots_eq _ r).trans ?_)
  exact Option.map_eq_bind

/-! ## Pipelines -/

/-- A list of entries is listed as it is read entry by entry. -/
theorem readOneList_entries (name : String) (n : Nat) (d : Document) :
    (readOneList name (Slotted.readEntry n) d).map Slotted.Entries.listed =
      readOneList name (readEntry n) d := by
  rw [funext Slotted.Entries.listed_eq_map]
  exact readOneList_map _ _ name d

/-- A list of parts is listed as it is read part by part. -/
theorem readOneList_parts (name : String) (n : Nat) (d : Document) :
    (readOneList name (Slotted.readPart n) d).map Slotted.Pipeline.listed =
      readOneList name (readPart n) d := by
  rw [funext Slotted.Pipeline.listed_eq_map]
  exact readOneList_map _ _ name d

/-- A pipeline is read for what its parts are read for. -/
theorem readPipeline_succ (n : Nat) : readPipeline (n + 1) = readOneList "parts" (readPart n) :=
  funext fun d => readOneList_parts "parts" n d

/-- An entry is its key and what its value is read for. -/
theorem readEntry_succ (n : Nat) : readEntry (n + 1) = (fun d => do
    let r ← d.record? ["key", "value"]
    let key ← r.required "key" readKey
    let value ← r.required "value" (readValue n)
    some (key, value)) := by
  funext d
  have hvalue : ∀ r : Record, r.required "value" (readValue n) =
      (r.required "value" (Slotted.readValue n)).map Slotted.Value.listed := fun r =>
    (r.required_map _ _ "value").symm
  simp only [readEntry, Slotted.readEntry, Option.bind_eq_bind, Option.map_bind, Option.map_some,
    Function.comp_def, hvalue, Option.bind_map]

/-- An operation is its name and what its entries are read for; without a configuration there are
none. -/
theorem readOperation_succ (n : Nat) : readOperation (n + 1) = (fun d => do
    let r ← d.record? ["name", "configuration"]
    let name ← r.required "name" Document.text?
    let config ← r.orElse "configuration" []
      (readOneList "configurationParameters" (readEntry n))
    some ⟨name, config⟩) := by
  funext d
  have hconfig : ∀ r : Record, r.orElse "configuration" []
        (readOneList "configurationParameters" (readEntry n)) =
      (r.orElse "configuration" [] (readOneList "configurationParameters"
        (Slotted.readEntry n))).map Slotted.Entries.listed := fun r => by
    rw [Record.orElse_map, funext (readOneList_entries "configurationParameters" n)]
    rfl
  simp only [readOperation, Slotted.readOperation, Option.bind_eq_bind, Option.map_bind,
    Option.map_some, Function.comp_def, hconfig, Option.bind_map, Slotted.Operation.listed]

/-- Reads a fetch as a shape. -/
def readFetch (d : Document) : Option Shape := do
  let r ← d.record? ["key", "frontendPartUuid"]
  let key ← r.required "key" readKey
  let tag ← r.slot "frontendPartUuid" readTag
  some (.fetch key tag)

/-- Reads an operation with a fetch behind it as a shape, given how to read an operation. -/
def readFetchAfter (readOperation : Document → Option Operation) (d : Document) :
    Option Shape := do
  let r ← d.record? ["keys", "beforePipelinePart", "frontendPartUuid"]
  let keys ← r.required "keys" (Document.list? readKey)
  let before ← r.required "beforePipelinePart" readOperation
  let tag ← r.slot "frontendPartUuid" readTag
  some (.fetchAfter keys before tag)

theorem readFetch_eq (d : Document) :
    readFetch d = (Slotted.readFetch d).map fun f => .fetch f.key f.tag := by
  simp only [readFetch, Slotted.readFetch, Option.bind_eq_bind, Option.map_bind, Option.map_some,
    Function.comp_def]

theorem readFetchAfter_eq (n : Nat) (d : Document) : readFetchAfter (readOperation n) d =
    (Slotted.readFetchAfter (Slotted.readOperation n) d).map fun f =>
      .fetchAfter f.keys f.before.listed f.tag := by
  have hbefore : ∀ r : Record, r.required "beforePipelinePart" (readOperation n) =
      (r.required "beforePipelinePart" (Slotted.readOperation n)).map
        Slotted.Operation.listed := fun r => (r.required_map _ _ "beforePipelinePart").symm
  simp only [readFetchAfter, Slotted.readFetchAfter, Option.bind_eq_bind, Option.map_bind,
    Option.map_some, Function.comp_def, hbefore, Option.bind_map]

/-- A part is read for its shapes, in declared order. -/
theorem readPart_succ (n : Nat) : readPart (n + 1) = (fun d => do
    let r ← d.record? partSlots
    let operation ← r.slot "defaultPart" fun d => (readOperation n d).map .operation
    let parallel ← r.slot "parallelPart" fun d =>
      (readOneList "pipelineParts" (readPart n) d).map .parallel
    let fetch ← r.slot "simpleContextRequestPart" readFetch
    let fetchAfter ← r.slot "complexContextRequestPart" (readFetchAfter (readOperation n))
    some ⟨[operation, parallel, fetch, fetchAfter].filterMap id⟩) := by
  funext d
  have hoperation : (fun d => (readOperation n d).map Shape.operation) =
      fun d => (Slotted.readOperation n d).map fun op => Shape.operation op.listed :=
    funext fun d => Option.map_map ..
  have hparallel : (fun d => (readOneList "pipelineParts" (readPart n) d).map Shape.parallel) =
      fun d => (readOneList "pipelineParts" (Slotted.readPart n) d).map fun parts =>
        Shape.parallel (Slotted.Pipeline.listed parts) :=
    funext fun d => by rw [← readOneList_parts, Option.map_map]; rfl
  rw [hoperation, hparallel, funext readFetch_eq, funext (readFetchAfter_eq n)]
  simp only [readPart, Slotted.readPart, ← Record.slot_map, Option.bind_eq_bind, Option.map_bind,
    Option.bind_map, Option.map_some, Function.comp_def, Slotted.Part.listed, Slotted.Part.shapes,
    Slotted.Operation.shape?_eq_map, Slotted.Pipeline.shape?_eq_map,
    Slotted.FetchAfter.shape?_eq_map]

end Wire

end MiningPipelines
