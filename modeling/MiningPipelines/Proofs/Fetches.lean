import MiningPipelines.Proofs.Position
import MiningPipelines.Registry
import MiningPipelines.Wire.Basic

/-!
# The fetches of a wire pipeline

`Wire.Pipeline.fetches` reads the fetches off a wire pipeline from left to right : an
operation has those of the pipelines in its entries, a parallel part those of its
children, and a fetch after an operation comes behind those of the operation.

Sending a pipeline keeps its fetches, with their positions (`Pipeline.fetches_toWire`).
The walk that lists the callbacks meets the same fetches in the same order
(`Pipeline.collect_eq_fetches`) and leaves out only those without a handler. So where
every fetch has a handler, the callback with a number belongs to the fetch with that
number on the wire (`Pipeline.Handled.callback`).
-/

namespace MiningPipelines

namespace Wire

/-- What the engine sees of a fetch, with the label that the client gives to it. -/
structure Fetch where
  tag : Option Tag
  label : String
deriving DecidableEq

mutual

/-- The fetches of parts that have the numbers from `i` on. -/
def Pipeline.fetchesFrom (i : Nat) : List Part → List (Placed Fetch)
  | [] => []
  | p :: rest => p.fetches.map (.inside i) ++ Pipeline.fetchesFrom (i + 1) rest

/-- The fetches of a part. A sound one has a single shape. -/
def Part.fetches : Part → List (Placed Fetch)
  | ⟨shapes⟩ => Part.fetchesOf shapes

def Part.fetchesOf : List Shape → List (Placed Fetch)
  | [] => []
  | s :: rest => s.fetches ++ Part.fetchesOf rest

def Shape.fetches : Shape → List (Placed Fetch)
  | .operation op => op.fetches
  | .parallel parts => (Pipeline.fetchesFrom 0 parts).map (.inside 0)
  | .fetch key tag => [⟨[], tag, "Fetch(" ++ key ++ ")"⟩]
  | .fetchAfter keys before tag =>
    before.fetches ++
      [⟨[], tag, before.name ++ " -> Fetch(" ++ ", ".intercalate keys ++ ")"⟩]

def Operation.fetches : Operation → List (Placed Fetch)
  | ⟨_, config⟩ => Entries.fetchesFrom 0 config

/-- The fetches of entries that have the numbers from `i` on. -/
def Entries.fetchesFrom (i : Nat) : List (String × Value) → List (Placed Fetch)
  | [] => []
  | (_, v) :: rest => v.fetches.map (.inside i) ++ Entries.fetchesFrom (i + 1) rest

/-- The fetches of a value. A sound one has a single slot. -/
def Value.fetches : Value → List (Placed Fetch)
  | ⟨slots⟩ => Value.fetchesOf slots

def Value.fetchesOf : List Payload → List (Placed Fetch)
  | [] => []
  | s :: rest => s.fetches ++ Value.fetchesOf rest

def Payload.fetches : Payload → List (Placed Fetch)
  | .pipeline parts => Pipeline.fetchesFrom 0 parts
  | _ => []

end

/-- The fetches of a wire pipeline with their positions, from left to right. -/
def Pipeline.fetches (parts : Pipeline) : List (Placed Fetch) := Pipeline.fetchesFrom 0 parts

end Wire

/-- What the engine sees of a fetch. -/
def Part.toFetch (p : Part) : Wire.Fetch := ⟨p.tag?, p.describe⟩

mutual

theorem Pipeline.fetchesFrom_toWire : ∀ (i : Nat) (parts : List Part),
    Wire.Pipeline.fetchesFrom i (Pipeline.toWire parts) =
      (Pipeline.nodesFrom i parts).map (.map Part.toFetch)
  | _, [] => rfl
  | i, p :: rest => by
    rw [Pipeline.toWire, Wire.Pipeline.fetchesFrom, Pipeline.nodesFrom, p.fetches_toWire,
      Pipeline.fetchesFrom_toWire (i + 1) rest]
    simp [Function.comp_def, Placed.map, Placed.inside]

/-- A part has one shape on the wire, and the fetches of that are its own. -/
theorem Part.fetches_toWire : ∀ p : Part, p.toWire.fetches = p.nodes.map (.map Part.toFetch)
  | .operation op => by
    rw [Part.nodes, ← op.fetches_toWire]
    simp [Part.toWire, Wire.Part.fetches, Wire.Part.fetchesOf, Wire.Shape.fetches]
  | .parallel parts => by
    simp [Part.toWire, Wire.Part.fetches, Wire.Part.fetchesOf, Wire.Shape.fetches, Part.nodes,
      Pipeline.fetchesFrom_toWire 0 parts, Function.comp_def, Placed.map, Placed.inside]
  | .fetch _ _ _ => rfl
  | .fetchAfter keys before tag handler => by
    have hname : before.toWire.name = before.name := by cases before; rfl
    rw [Part.nodes, List.map_append, ← before.fetches_toWire]
    simp [Part.toWire, Wire.Part.fetches, Wire.Part.fetchesOf, Wire.Shape.fetches, Placed.map,
      Part.toFetch, Part.tag?, Part.describe, hname]

/-- Only the entries of an operation have fetches. -/
theorem Operation.fetches_toWire : ∀ op : Operation,
    op.toWire.fetches = op.nodes.map (.map Part.toFetch)
  | ⟨_, config⟩ => Config.fetchesFrom_toWire 0 config

theorem Config.fetchesFrom_toWire : ∀ (i : Nat) (config : List (String × Value)),
    Wire.Entries.fetchesFrom i (Config.toWire config) =
      (Config.nodesFrom i config).map (.map Part.toFetch)
  | _, [] => rfl
  | i, (_, v) :: rest => by
    rw [Config.toWire, Wire.Entries.fetchesFrom, Config.nodesFrom, v.fetches_toWire,
      Config.fetchesFrom_toWire (i + 1) rest]
    simp [Function.comp_def, Placed.map, Placed.inside]

/-- A value has one payload on the wire, and only a pipeline has fetches. -/
theorem Value.fetches_toWire : ∀ v : Value, v.toWire.fetches = v.nodes.map (.map Part.toFetch)
  | .pipeline parts => by
    rw [Value.nodes, ← Pipeline.fetchesFrom_toWire 0 parts]
    simp [Value.toWire, Wire.Value.fetches, Wire.Value.fetchesOf, Wire.Payload.fetches]
  | .string _ | .uint32 _ | .bool _ | .float _ | .enum _ _ | .strings _ | .namesLog _
  | .hashesLog _ | .artifact _ _ => rfl

end

/-- Sending a pipeline keeps its fetches and their positions. -/
theorem Pipeline.fetches_toWire (parts : Pipeline) :
    Wire.Pipeline.fetches (Pipeline.toWire parts) =
      (Pipeline.nodes parts).map (.map Part.toFetch) :=
  Pipeline.fetchesFrom_toWire 0 parts

/-! ## Callbacks -/

mutual

/-- The walk adds the callbacks of the parts behind those that it has, in order of position. -/
theorem Pipeline.collect_eq (i : Nat) : ∀ (parts : List Part) (out : List Callback),
    Pipeline.collect out parts = out ++ (Pipeline.nodesFrom i parts).flatMap fun n => n.node.own
  | [], out => (List.append_nil out).symm
  | p :: rest, out => by
    rw [Pipeline.collect, Pipeline.collect_eq (i + 1) rest, p.collect_eq, Pipeline.nodesFrom]
    simp [List.flatMap_map, Placed.inside]

/-- A fetch behind an operation adds its callback after those of the operation. -/
theorem Part.collect_eq : ∀ (p : Part) (out : List Callback),
    p.collect out = out ++ p.nodes.flatMap fun n => n.node.own
  | .operation op, out => by rw [Part.collect, op.collect_eq, Part.nodes]
  | .parallel parts, out => by
    rw [Part.collect, Pipeline.collect_eq 0 parts, Part.nodes]
    simp [List.flatMap_map, Placed.inside]
  | .fetch key tag handler, out => by simp [Part.collect, Part.nodes]
  | .fetchAfter keys before tag handler, out => by
    rw [Part.collect, before.collect_eq, Part.nodes]
    simp

theorem Operation.collect_eq : ∀ (op : Operation) (out : List Callback),
    op.collect out = out ++ op.nodes.flatMap fun n => n.node.own
  | ⟨_, config⟩, out => by rw [Operation.collect, Config.collect_eq 0 config, Operation.nodes]

theorem Config.collect_eq (i : Nat) : ∀ (config : List (String × Value)) (out : List Callback),
    Config.collect out config = out ++ (Config.nodesFrom i config).flatMap fun n => n.node.own
  | [], out => (List.append_nil out).symm
  | (_, v) :: rest, out => by
    rw [Config.collect, Config.collect_eq (i + 1) rest, v.collect_eq, Config.nodesFrom]
    simp [List.flatMap_map, Placed.inside]

theorem Value.collect_eq : ∀ (v : Value) (out : List Callback),
    v.collect out = out ++ v.nodes.flatMap fun n => n.node.own
  | .pipeline parts, out => by rw [Value.collect, Pipeline.collect_eq 0 parts, Value.nodes]
  | .string _, out | .uint32 _, out | .bool _, out | .float _, out | .enum _ _, out
  | .strings _, out | .namesLog _, out | .hashesLog _, out | .artifact _ _, out =>
    (List.append_nil out).symm

end

/-- A part has a callback of its own if it has a handler. -/
theorem Part.own_eq (p : Part) :
    p.own = (p.handler?.map (Callback.mk p.tag? p.describe)).toList := by
  unfold Part.own
  cases p.handler? <;> rfl

/-- The handler of the part at a position. -/
def Pipeline.handlerAt? (parts : Pipeline) (pos : List Nat) : Option Handler :=
  (Pipeline.at? pos parts).bind Part.handler?

/-- The callback of a fetch on the wire, if the part that it was made from has a handler. -/
def Pipeline.callback? (parts : Pipeline) (f : Placed Wire.Fetch) : Option Callback :=
  (Pipeline.handlerAt? parts f.position).map (Callback.mk f.node.tag f.node.label)

/-- The walk appends the callbacks of the fetches on the wire, from left to right. -/
theorem Pipeline.collect_eq_fetches (parts : Pipeline) (out : List Callback) :
    Pipeline.collect out parts =
      out ++ (Wire.Pipeline.fetches (Pipeline.toWire parts)).filterMap
        (Pipeline.callback? parts) := by
  rw [Pipeline.collect_eq 0, Pipeline.fetches_toWire, List.filterMap_map,
    List.filterMap_eq_flatMap_toList]
  congr 1
  refine List.flatMap_congr fun n hn => ?_
  obtain ⟨hat, -⟩ := (Pipeline.mem_nodes n.node n.position parts).1 hn
  rw [Part.own_eq]
  simp [Pipeline.callback?, Pipeline.handlerAt?, Placed.map, Part.toFetch, hat]

/-- Each fetch on the wire gives its callback, or none if its part has no handler. -/
theorem Pipeline.callbacks_eq (parts : Pipeline) :
    Pipeline.callbacks parts =
      (Wire.Pipeline.fetches (Pipeline.toWire parts)).filterMap (Pipeline.callback? parts) :=
  Pipeline.collect_eq_fetches parts []

/-- The fetches on the wire stand at different positions. -/
theorem Pipeline.nodup_fetches (parts : Pipeline) :
    ((Wire.Pipeline.fetches (Pipeline.toWire parts)).map Placed.position).Nodup := by
  rw [Pipeline.fetches_toWire, List.map_map]
  exact Pipeline.nodup_positions parts

/-- A fetch on the wire is the fetch of the pipeline at its position. -/
theorem Pipeline.mem_fetches {parts : Pipeline} {pos : List Nat} {f : Wire.Fetch} :
    ⟨pos, f⟩ ∈ Wire.Pipeline.fetches (Pipeline.toWire parts) ↔
      ∃ p, Pipeline.at? pos parts = some p ∧ p.isFetch ∧ p.toFetch = f := by
  rw [Pipeline.fetches_toWire, List.mem_map]
  constructor
  · rintro ⟨n, hn, he⟩
    obtain ⟨rfl, rfl⟩ := Placed.mk.inj he
    obtain ⟨hat, hf⟩ := (Pipeline.mem_nodes n.node n.position parts).1 hn
    exact ⟨n.node, hat, hf, rfl⟩
  · rintro ⟨p, hat, hf, rfl⟩
    exact ⟨⟨pos, p⟩, (Pipeline.mem_nodes p pos parts).2 ⟨hat, hf⟩, rfl⟩

/-! ## Pipelines with a handler for every fetch -/

/-- Every fetch of the pipeline, at any depth, has a handler. -/
def Pipeline.Handled (parts : Pipeline) : Prop :=
  ∀ pos p, Pipeline.at? pos parts = some p → p.isFetch → p.handler?.isSome

namespace Pipeline.Handled

variable {parts : Pipeline}

/-- A handled fetch has a callback with its tag and its label. -/
theorem exists_callback (h : Pipeline.Handled parts) {f : Placed Wire.Fetch}
    (hf : f ∈ Wire.Pipeline.fetches (Pipeline.toWire parts)) :
    ∃ handler, Pipeline.handlerAt? parts f.position = some handler ∧
      Pipeline.callback? parts f = some ⟨f.node.tag, f.node.label, handler⟩ := by
  obtain ⟨p, hat, hp, -⟩ := Pipeline.mem_fetches.1 hf
  obtain ⟨handler, hh⟩ := Option.isSome_iff_exists.1 (h f.position p hat hp)
  have hhandler : Pipeline.handlerAt? parts f.position = some handler := by
    rw [Pipeline.handlerAt?, hat, Option.bind_some, hh]
  exact ⟨handler, hhandler, by rw [Pipeline.callback?, hhandler, Option.map_some]⟩

/-- The callbacks are those of the fetches on the wire, one for each and in their order. -/
theorem map_some_callbacks (h : Pipeline.Handled parts) :
    (Pipeline.callbacks parts).map some =
      (Wire.Pipeline.fetches (Pipeline.toWire parts)).map (Pipeline.callback? parts) := by
  rw [Pipeline.callbacks_eq, List.map_filterMap_some_eq_filter_map_isSome, List.filter_eq_self]
  intro c hc
  obtain ⟨f, hf, rfl⟩ := List.mem_map.1 hc
  obtain ⟨_, -, hcallback⟩ := h.exists_callback hf
  rw [hcallback, Option.isSome_some]

/-- There are as many callbacks as fetches. -/
theorem length_callbacks (h : Pipeline.Handled parts) :
    (Pipeline.callbacks parts).length =
      (Wire.Pipeline.fetches (Pipeline.toWire parts)).length := by
  simpa using congrArg List.length h.map_some_callbacks

/-- The callback with a number is that of the fetch with this number on the wire. -/
theorem callback (h : Pipeline.Handled parts) {i : Nat} {f : Placed Wire.Fetch}
    (hf : (Wire.Pipeline.fetches (Pipeline.toWire parts))[i]? = some f) :
    ∃ handler, Pipeline.handlerAt? parts f.position = some handler ∧
      (Pipeline.callbacks parts)[i]? = some ⟨f.node.tag, f.node.label, handler⟩ := by
  obtain ⟨handler, hh, hcallback⟩ := h.exists_callback (List.mem_of_getElem? hf)
  refine ⟨handler, hh, ?_⟩
  have hi := congrArg (·[i]?) h.map_some_callbacks
  simp only [List.getElem?_map, hf, Option.map_some, hcallback] at hi
  obtain ⟨c, hc, hcc⟩ := Option.map_eq_some_iff.1 hi
  rw [hc, Option.some.inj hcc]

theorem map_tag_callbacks (h : Pipeline.Handled parts) :
    (Pipeline.callbacks parts).map Callback.tag =
      (Wire.Pipeline.fetches (Pipeline.toWire parts)).map fun f => f.node.tag := by
  refine List.ext_getElem? fun i => ?_
  rw [List.getElem?_map, List.getElem?_map]
  cases hf : (Wire.Pipeline.fetches (Pipeline.toWire parts))[i]? with
  | none =>
    rw [List.getElem?_eq_none_iff, ← h.length_callbacks, ← List.getElem?_eq_none_iff] at hf
    rw [hf]
    rfl
  | some f =>
    obtain ⟨_, -, hc⟩ := h.callback hf
    rw [hc]
    rfl

end Pipeline.Handled

end MiningPipelines
