import MiningPipelines.Proofs.Decoding

/-!
# There and back

What comes back when a value is sent and decoded again. A decoded pipeline has no handlers,
so the best that can come back is the value without them (`Value.bare`). For values whose
pipelines are built it does come back (`Value.decode_toWire`), since decoding repeats the
checks of the constructors. Equality of values does not look at handlers, but a NaN differs
from itself; `Value.same_bare` says that nothing else stands in the way.

Two pipelines are equal exactly if their wire forms are (`Pipeline.same_eq_toWire`).
-/

namespace MiningPipelines

/-! ## Without handlers -/

mutual

/-- The value without the handlers of its fetches. -/
def Value.bare : Value → Value
  | .pipeline parts => .pipeline (Pipeline.bare parts)
  | v => v

def Part.bare : Part → Part
  | .operation op => .operation op.bare
  | .parallel parts => .parallel (Pipeline.bare parts)
  | .fetch key tag _ => .fetch key tag none
  | .fetchAfter keys before tag _ => .fetchAfter keys before.bare tag none

def Operation.bare : Operation → Operation
  | ⟨name, config⟩ => ⟨name, Config.bare config⟩

def Config.bare : List (String × Value) → List (String × Value)
  | [] => []
  | (k, v) :: rest => (k, v.bare) :: Config.bare rest

/-- The pipeline without the handlers of its fetches, at any depth. -/
def Pipeline.bare : List Part → List Part
  | [] => []
  | p :: rest => p.bare :: Pipeline.bare rest

end

theorem Pipeline.bare_eq_map : ∀ parts : Pipeline, Pipeline.bare parts = parts.map Part.bare
  | [] => rfl
  | p :: rest => by rw [Pipeline.bare, Pipeline.bare_eq_map rest, List.map_cons]

theorem Config.bare_eq_map : ∀ config : Config,
    Config.bare config = config.map fun e => (e.1, e.2.bare)
  | [] => rfl
  | (k, v) :: rest => by rw [Config.bare, Config.bare_eq_map rest, List.map_cons]

theorem Value.parts_bare (v : Value) : v.bare.parts = Pipeline.bare v.parts := by
  cases v <;> rfl

/-- Handlers do not matter to whether a configuration accepts a value. -/
theorem Value.transportable_bare (v : Value) : v.bare.transportable = v.transportable := by
  cases v <;> rfl

namespace Part

theorem handler?_bare (p : Part) : p.bare.handler? = none := by
  cases p <;> rfl

/-- The tag and the label stay. -/
theorem toFetch_bare (p : Part) : p.bare.toFetch = p.toFetch := by
  cases p with
  | operation op => cases op; rfl
  | parallel parts =>
    simp [Part.bare, toFetch, tag?, describe, Pipeline.bare_eq_map]
  | fetch key tag handler => rfl
  | fetchAfter keys before tag handler => cases before; rfl

/-- Without handlers a part has the branches that it had, without theirs. -/
theorem branches_bare (p : Part) : p.bare.branches = p.branches.map Pipeline.bare := by
  have hconfig : ∀ op : Operation, (op.bare.config.map fun e => e.2.parts) =
      (op.config.map fun e => e.2.parts).map Pipeline.bare := by
    rintro ⟨name, config⟩
    simp [Operation.bare, Config.bare_eq_map, Value.parts_bare]
  cases p with
  | operation op => exact hconfig op
  | parallel parts => rfl
  | fetch key tag handler => rfl
  | fetchAfter keys before tag handler => exact hconfig before

end Part

mutual

/-- Without handlers, each position holds the same part without handlers. -/
theorem Pipeline.at?_bare : ∀ (pos : List Nat) (parts : Pipeline),
    Pipeline.at? pos (Pipeline.bare parts) = (Pipeline.at? pos parts).map Part.bare
  | [], _ => rfl
  | i :: rest, parts => by
    rw [Pipeline.at?, Pipeline.at?, Pipeline.bare_eq_map, List.getElem?_map]
    cases parts[i]? with
    | none => rfl
    | some p => exact Part.at?_bare rest p

/-- The parts inside stand where they stood. -/
theorem Part.at?_bare : ∀ (pos : List Nat) (p : Part),
    Part.at? pos p.bare = (Part.at? pos p).map Part.bare
  | [], _ => rfl
  | b :: rest, p => by
    rw [Part.at?, Part.at?, p.branches_bare, List.getElem?_map]
    cases p.branches[b]? with
    | none => rfl
    | some parts => exact Pipeline.at?_bare rest parts

end

/-- No fetch at any depth has a handler. -/
theorem Pipeline.handler?_of_at?_bare {parts : Pipeline} {pos : List Nat} {p : Part}
    (h : Pipeline.at? pos (Pipeline.bare parts) = some p) : p.handler? = none := by
  rw [Pipeline.at?_bare] at h
  obtain ⟨q, -, rfl⟩ := Option.map_eq_some_iff.1 h
  exact q.handler?_bare

/-- The walk finds nothing to call. -/
theorem Pipeline.callbacks_bare (parts : Pipeline) :
    Pipeline.callbacks (Pipeline.bare parts) = [] := by
  rw [Pipeline.callbacks_eq, List.filterMap_eq_nil_iff]
  rintro ⟨pos, f⟩ hf
  obtain ⟨p, hat, -, -⟩ := Pipeline.mem_fetches.1 hf
  rw [Pipeline.callback?, Pipeline.handlerAt?, hat, Option.bind_some,
    Pipeline.handler?_of_at?_bare hat, Option.map_none]

/-! ## Decoding what was sent -/

mutual

/-- A built pipeline comes back without its handlers. -/
theorem Pipeline.decode_toWire : ∀ {parts : List Part}, Pipeline.Built parts →
    Wire.Pipeline.decode (Pipeline.toWire parts) = .ok (Pipeline.bare parts)
  | [], _ => rfl
  | p :: rest, h => by
    obtain ⟨hp, hrest⟩ := List.forall_mem_cons.1 h
    rw [Pipeline.toWire, Wire.Pipeline.decode, Part.decode_toWire hp, ok_bind,
      Pipeline.decode_toWire hrest, ok_bind, Pipeline.bare]

/-- A built part comes back as its bare self. -/
theorem Part.decode_toWire : ∀ {p : Part}, p.Built → p.toWire.decode = .ok p.bare
  | .operation op, h => by
    rw [Part.toWire, Wire.Part.decode, Wire.Shape.decode, Operation.decode_toWire h.of_operation,
      ok_bind, Part.bare]
  | .parallel parts, h => by
    rw [Part.toWire, Wire.Part.decode, Wire.Shape.decode, Pipeline.decode_toWire h.of_parallel,
      ok_bind, Part.bare]
  | .fetch _ _ _, _ => rfl
  | .fetchAfter _ before _ _, h => by
    rw [Part.toWire, Wire.Part.decode, Wire.Shape.decode,
      Operation.decode_toWire h.of_fetchAfter, ok_bind, Part.bare]

/-- The name of a built operation passes the check of the constructor again. -/
theorem Operation.decode_toWire : ∀ {op : Operation}, op.Built → op.toWire.decode = .ok op.bare
  | ⟨name, config⟩, h => by
    obtain ⟨hname, hentries⟩ := Operation.built_iff.1 h
    rw [Operation.toWire, Wire.Operation.decode, Config.decodeOnto_toWire [] hentries, ok_bind,
      DecodeFault.ofRefusal_eq_ok_iff, Operation.make_eq_ok_iff]
    exact ⟨hname, rfl⟩

/-- Entries that a configuration admitted are admitted again, behind any others. -/
theorem Config.decodeOnto_toWire (start : Config) : ∀ {config : List (String × Value)},
    (∀ e ∈ config, Config.Admits e ∧ Pipeline.Built e.2.parts) →
      Wire.Entries.decodeOnto start (Config.toWire config) = .ok (start ++ Config.bare config)
  | [], _ => by rw [Config.bare, List.append_nil, Config.toWire, Wire.Entries.decodeOnto]
  | (k, v) :: rest, h => by
    obtain ⟨⟨⟨hkey, hv⟩, hparts⟩, hrest⟩ := List.forall_mem_cons.1 h
    have happend : Config.append start k v.bare = .ok (List.append start [(k, v.bare)]) :=
      Config.append_eq_ok_iff.2 ⟨⟨hkey, v.transportable_bare.trans hv⟩, rfl⟩
    rw [Config.toWire, Wire.Entries.decodeOnto, Value.decode_toWire hparts, ok_bind, happend,
      DecodeFault.ofRefusal, ok_bind, Config.decodeOnto_toWire _ hrest, Config.bare]
    simp

/-- A value whose pipelines are built comes back without handlers. -/
theorem Value.decode_toWire : ∀ {v : Value}, Pipeline.Built v.parts → v.toWire.decode = .ok v.bare
  | .pipeline parts, h => by
    have hparts : Pipeline.Built parts := h
    rw [Value.toWire, Wire.Value.decode, Wire.Payload.decode, Pipeline.decode_toWire hparts,
      ok_bind, Value.bare]
  | .string _, _ | .uint32 _, _ | .bool _, _ | .float _, _ | .enum _ _, _ | .strings _, _
  | .namesLog _, _ | .hashesLog _, _ | .artifact _ _, _ => rfl

end

/-! ## Equality -/

namespace Json

mutual

/-- The real numbers in a JSON value. -/
def reals : Json → List Double
  | .number (.real x) => [x]
  | .array items => realsOfItems items
  | .object fields => realsOfFields fields
  | _ => []

def realsOfItems : List Json → List Double
  | [] => []
  | v :: rest => v.reals ++ realsOfItems rest

def realsOfFields : List (String × Json) → List Double
  | [] => []
  | (_, v) :: rest => v.reals ++ realsOfFields rest

end

/-- The real numbers in it are finite, as JSON numbers are. -/
def Finite (v : Json) : Prop := ∀ x ∈ v.reals, x.isFinite

end Json

theorem Single.same_self {x : Single} (h : x.isNaN = false) : x.same x := by
  simp [Single.same, h]

theorem Single.not_isNaN {x : Single} (h : x.isFinite) : x.isNaN = false := by
  simp only [Single.isFinite, Single.isNaN, decide_eq_true_eq, decide_eq_false_iff_not] at *
  exact Nat.lt_asymm h

/-- Equality of numbers fails only at a NaN. -/
theorem Double.same_self {x : Double} (h : x.isFinite) : x.same x := by
  have hnan : x.isNaN = false := by
    simp only [Double.isFinite, Double.isNaN, decide_eq_true_eq, decide_eq_false_iff_not] at *
    exact Nat.lt_asymm h
  simp [Double.same, hnan]

namespace Json

mutual

/-- A result without NaN is equal to itself. -/
theorem Finite.same_self : ∀ {v : Json}, v.Finite → v.same v
  | .null, _ | .bool _, _ | .text _, _ | .number (.natural _), _ | .number (.negative _), _ => by
    simp [Json.same, Number.same]
  | .number (.real x), h => by
    have hx : x.same x := Double.same_self (h x (List.mem_singleton.2 rfl))
    rw [Json.same, Number.same, hx]
  | .array items, h => by
    rw [Json.same]
    exact Finite.sameItems_self h
  | .object fields, h => by
    rw [Json.same]
    exact Finite.sameFields_self h

theorem Finite.sameItems_self : ∀ {items : List Json},
    (∀ x ∈ realsOfItems items, x.isFinite) → sameItems items items
  | [], _ => rfl
  | v :: rest, h => by
    obtain ⟨hv, hrest⟩ := List.forall_mem_append.1 h
    have hsame : v.same v := Finite.same_self hv
    rw [sameItems, hsame, Finite.sameItems_self hrest, Bool.and_self]

theorem Finite.sameFields_self : ∀ {fields : List (String × Json)},
    (∀ x ∈ realsOfFields fields, x.isFinite) → sameFields fields fields
  | [], _ => rfl
  | (k, v) :: rest, h => by
    obtain ⟨hv, hrest⟩ := List.forall_mem_append.1 h
    have hsame : v.same v := Finite.same_self hv
    rw [sameFields, hsame, Finite.sameFields_self hrest, beq_self_eq_true, Bool.and_self,
      Bool.and_self]

end

end Json

mutual

/-- The analysis results in a value, at any depth. -/
def Value.payloads : Value → List Json
  | .pipeline parts => Pipeline.payloads parts
  | .artifact _ payload => [payload]
  | _ => []

def Part.payloads : Part → List Json
  | .operation op => op.payloads
  | .parallel parts => Pipeline.payloads parts
  | .fetch _ _ _ => []
  | .fetchAfter _ before _ _ => before.payloads

def Operation.payloads : Operation → List Json
  | ⟨_, config⟩ => Config.payloads config

def Config.payloads : List (String × Value) → List Json
  | [] => []
  | (_, v) :: rest => v.payloads ++ Config.payloads rest

/-- The analysis results in the configurations of a pipeline, at any depth. -/
def Pipeline.payloads : List Part → List Json
  | [] => []
  | p :: rest => p.payloads ++ Pipeline.payloads rest

end

/-- Configurations admit finite floats only. -/
theorem Config.Admits.not_isNaN {key : String} {v : Value} (h : Config.Admits (key, v)) :
    ∀ x, v = .float x → x.isNaN = false :=
  fun x hx => Single.not_isNaN (h.isFinite x hx)

mutual

/-- A built pipeline equals itself without its handlers. -/
theorem Pipeline.same_bare : ∀ {parts : List Part}, Pipeline.Built parts →
    (∀ j ∈ Pipeline.payloads parts, j.Finite) → Pipeline.same (Pipeline.bare parts) parts
  | [], _, _ => by rw [Pipeline.bare, Pipeline.same]
  | p :: rest, h, hj => by
    obtain ⟨hp, hrest⟩ := List.forall_mem_cons.1 h
    obtain ⟨hjp, hjrest⟩ := List.forall_mem_append.1 hj
    have hsame : p.bare.same p := Part.same_bare hp hjp
    rw [Pipeline.bare, Pipeline.same, hsame, Pipeline.same_bare hrest hjrest, Bool.and_self]

/-- A built part is equal to its bare self. -/
theorem Part.same_bare : ∀ {p : Part}, p.Built → (∀ j ∈ p.payloads, j.Finite) → p.bare.same p
  | .operation op, h, hj => by
    rw [Part.bare, Part.same]
    exact Operation.same_bare h.of_operation hj
  | .parallel parts, h, hj => by
    rw [Part.bare, Part.same]
    exact Pipeline.same_bare h.of_parallel hj
  | .fetch _ _ _, _, _ => by simp [Part.bare, Part.same]
  | .fetchAfter _ before _ _, h, hj => by
    have hsame : before.bare.same before := Operation.same_bare h.of_fetchAfter hj
    simp [Part.bare, Part.same, hsame]

theorem Operation.same_bare : ∀ {op : Operation}, op.Built → (∀ j ∈ op.payloads, j.Finite) →
    op.bare.same op
  | ⟨name, config⟩, h, hj => by
    have hsame : Config.same (Config.bare config) config :=
      Config.same_bare (Operation.built_iff.1 h).2 hj
    rw [Operation.bare, Operation.same, hsame, beq_self_eq_true, Bool.and_self]

/-- Entries keep their keys and order without handlers. -/
theorem Config.same_bare : ∀ {config : List (String × Value)},
    (∀ e ∈ config, Config.Admits e ∧ Pipeline.Built e.2.parts) →
      (∀ j ∈ Config.payloads config, j.Finite) → Config.same (Config.bare config) config
  | [], _, _ => by rw [Config.bare, Config.same]
  | (k, v) :: rest, h, hj => by
    obtain ⟨⟨hadmits, hparts⟩, hrest⟩ := List.forall_mem_cons.1 h
    obtain ⟨hjv, hjrest⟩ := List.forall_mem_append.1 hj
    have hsame : v.bare.same v := Value.same_bare hparts hadmits.not_isNaN hjv
    rw [Config.bare, Config.same, hsame, Config.same_bare hrest hjrest, beq_self_eq_true,
      Bool.and_self, Bool.and_self]

theorem Value.same_bare : ∀ {v : Value}, Pipeline.Built v.parts →
    (∀ x, v = .float x → x.isNaN = false) → (∀ j ∈ v.payloads, j.Finite) → v.bare.same v
  | .pipeline parts, h, _, hj => by
    have hparts : Pipeline.Built parts := h
    rw [Value.bare, Value.same]
    exact Pipeline.same_bare hparts hj
  | .float x, _, hx, _ => by
    rw [Value.bare, Value.same]
    · exact Single.same_self (hx x rfl)
    · simp
  | .artifact kind j, _, _, hj => by
    have hsame : j.same j := Json.Finite.same_self (hj j (List.mem_singleton.2 rfl))
    simp [Value.bare, Value.same, hsame]
  | .string _, _, _, _ | .uint32 _, _, _, _ | .bool _, _, _, _ | .enum _ _, _, _, _
  | .strings _, _, _, _ | .namesLog _, _, _, _ | .hashesLog _, _, _, _ => by
    simp [Value.bare, Value.same]

end

mutual

/-- Equality of values is that of their payloads. -/
theorem Value.same_eq_toWire : ∀ v w : Value, v.same w = v.toWire.same w.toWire
  | .pipeline ps, w => by
    cases w <;> simp [Value.same, Value.toWire, Wire.Value.same, Wire.Value.sameSlots,
      Wire.Payload.same, Pipeline.same_eq_toWire ps]
  | .string _, w | .uint32 _, w | .bool _, w | .float _, w | .enum _ _, w | .strings _, w
  | .namesLog _, w | .hashesLog _, w | .artifact _ _, w => by
    cases w <;> simp [Value.same, Value.toWire, Wire.Value.same, Wire.Value.sameSlots,
      Wire.Payload.same]

/-- Equality of parts looks at what is sent of them and at nothing else. -/
theorem Part.same_eq_toWire : ∀ p q : Part, p.same q = p.toWire.same q.toWire
  | .operation op, q => by
    cases q <;> simp [Part.same, Part.toWire, Wire.Part.same, Wire.Part.sameShapes,
      Wire.Shape.same, op.same_eq_toWire]
  | .parallel ps, q => by
    cases q <;> simp [Part.same, Part.toWire, Wire.Part.same, Wire.Part.sameShapes,
      Wire.Shape.same, Pipeline.same_eq_toWire ps]
  | .fetch _ _ _, q => by
    cases q <;> simp [Part.same, Part.toWire, Wire.Part.same, Wire.Part.sameShapes,
      Wire.Shape.same]
  | .fetchAfter _ before _ _, q => by
    cases q <;> simp [Part.same, Part.toWire, Wire.Part.same, Wire.Part.sameShapes,
      Wire.Shape.same, before.same_eq_toWire]

theorem Operation.same_eq_toWire : ∀ p q : Operation, p.same q = p.toWire.same q.toWire
  | ⟨_, xs⟩, ⟨_, ys⟩ => by
    rw [Operation.same, Config.same_eq_toWire xs ys, Operation.toWire, Operation.toWire,
      Wire.Operation.same]

theorem Config.same_eq_toWire : ∀ xs ys : List (String × Value),
    Config.same xs ys = Wire.Entries.same (Config.toWire xs) (Config.toWire ys)
  | [], [] | [], _ :: _ | _ :: _, [] => by simp [Config.same, Config.toWire, Wire.Entries.same]
  | (_, v) :: xs, (_, w) :: ys => by
    rw [Config.same, v.same_eq_toWire w, Config.same_eq_toWire xs ys, Config.toWire,
      Config.toWire, Wire.Entries.same]

/-- Pipelines are equal exactly if their wire forms are. -/
theorem Pipeline.same_eq_toWire : ∀ ps qs : List Part,
    Pipeline.same ps qs = Wire.Pipeline.same (Pipeline.toWire ps) (Pipeline.toWire qs)
  | [], [] | [], _ :: _ | _ :: _, [] => by
    simp [Pipeline.same, Pipeline.toWire, Wire.Pipeline.same]
  | p :: ps, q :: qs => by
    rw [Pipeline.same, p.same_eq_toWire q, Pipeline.same_eq_toWire ps qs, Pipeline.toWire,
      Pipeline.toWire, Wire.Pipeline.same]

end

/-! ## Round trips -/

/-- A pipeline that was sent comes back as it was, but for its handlers. -/
structure Pipeline.RoundTrip (parts : Pipeline) : Prop where
  decoded : Wire.Pipeline.decode (Pipeline.toWire parts) = .ok (Pipeline.bare parts)
  same : Pipeline.same (Pipeline.bare parts) parts
  /-- The same part stands at each position, with its tag and its label. -/
  positions : ∀ pos, Pipeline.at? pos (Pipeline.bare parts) =
    (Pipeline.at? pos parts).map Part.bare
  labels : ∀ pos p, Pipeline.at? pos parts = some p → p.bare.toFetch = p.toFetch
  /-- Keys, entries, traces and events are in the order in which they were. -/
  sent : Pipeline.toWire (Pipeline.bare parts) = Pipeline.toWire parts
  handlers : ∀ pos p, Pipeline.at? pos (Pipeline.bare parts) = some p → p.handler? = none
  callbacks : Pipeline.callbacks (Pipeline.bare parts) = []
  sound : ∀ x ∈ Wire.Pipeline.pieces (Pipeline.toWire parts), x.Sound

/-- A value that was sent comes back as it was, and so does the pipeline in it. -/
structure Value.RoundTrip (v : Value) : Prop where
  decoded : v.toWire.decode = .ok v.bare
  same : v.bare.same v
  sent : v.bare.toWire = v.toWire
  slots : v.toWire.slots.length = 1
  sound : ∀ x ∈ v.toWire.pieces, x.Sound
  parts : Pipeline.RoundTrip v.parts

/-- A built pipeline is sent, decoded and sent again, and comes back each time. -/
theorem Pipeline.Built.roundTrip {parts : Pipeline} (h : Pipeline.Built parts)
    (hj : ∀ j ∈ Pipeline.payloads parts, j.Finite) : Pipeline.RoundTrip parts := by
  have hdecoded := Pipeline.decode_toWire h
  exact ⟨hdecoded, Pipeline.same_bare h hj, fun pos => Pipeline.at?_bare pos parts,
    fun _ p _ => p.toFetch_bare, Wire.Pipeline.toWire_of_decode _ hdecoded,
    fun _ _ => Pipeline.handler?_of_at?_bare, Pipeline.callbacks_bare parts,
    (Wire.Pipeline.decodes_iff _).1 ⟨_, hdecoded⟩⟩

/-- The results in the pipeline of a value are results in the value. -/
theorem Value.payloads_parts {v : Value} {j : Json} (hj : j ∈ Pipeline.payloads v.parts) :
    j ∈ v.payloads := by
  cases v with
  | pipeline parts => exact hj
  | _ => simp [Value.parts, Pipeline.payloads] at hj

/-- Built pipelines, and values other than a NaN with built pipelines in them, come back as
they were but for the handlers, and each part and value on the wire has exactly one form.
Pipelines are equal exactly if their wire forms are. The numbers in analysis results are
finite, as all numbers of a JSON value are. -/
theorem round_trip_of_built :
    (∀ parts, Pipeline.Built parts → (∀ j ∈ Pipeline.payloads parts, j.Finite) →
      Pipeline.RoundTrip parts) ∧
    (∀ v : Value, Pipeline.Built v.parts → (∀ x, v = .float x → x.isNaN = false) →
      (∀ j ∈ v.payloads, j.Finite) → v.RoundTrip) ∧
    ∀ ps qs,
      Pipeline.same ps qs = Wire.Pipeline.same (Pipeline.toWire ps) (Pipeline.toWire qs) := by
  refine ⟨fun parts h hj => h.roundTrip hj, fun v h hnan hj => ?_, Pipeline.same_eq_toWire⟩
  have hdecoded := Value.decode_toWire h
  obtain ⟨hslots, hsound⟩ := (Wire.Value.decodes_iff v.toWire).1 ⟨_, hdecoded⟩
  exact ⟨hdecoded, Value.same_bare h hnan hj, Wire.Value.toWire_of_decode _ hdecoded, hslots,
    hsound, h.roundTrip fun j hjp => hj j (Value.payloads_parts hjp)⟩

/-- A pipeline of a fetch behind an operation, which holds a value twice under one key. -/
theorem round_trip_of_built_nested :
    let j : Json := .object [("a", .number (.real ⟨0x3ff8000000000000⟩))]
    let before : Operation := ⟨"o", [("k", .artifact .graph j), ("k", .float ⟨0x80000000⟩),
      ("p", .pipeline [.ofFetch ⟨"l", .string⟩ "a" (.named "f")])]⟩
    let parts : Pipeline := [.fetchAfter ["m"] before (some "b") (some (.named "g"))]
    (Value.pipeline parts).toWire.decode =
        .ok (.pipeline [.fetchAfter ["m"] before.bare (some "b") none]) ∧
      (Value.pipeline parts).bare.same (.pipeline parts) ∧
      Pipeline.callbacks (Pipeline.bare parts) = [] := by
  intro j before parts
  have hbefore : before.Built := Operation.built_iff.2 ⟨by decide, by
    refine List.forall_mem_cons.2 ⟨⟨⟨by decide, rfl⟩, List.forall_mem_nil _⟩, ?_⟩
    refine List.forall_mem_cons.2 ⟨⟨⟨by decide, rfl⟩, List.forall_mem_nil _⟩, ?_⟩
    exact List.forall_mem_singleton.2
      ⟨⟨by decide, rfl⟩, List.forall_mem_singleton.2 (.fetch _ _ _)⟩⟩
  have hbuilt : Pipeline.Built parts := List.forall_mem_singleton.2
    (@Part.Built.fetchAfter [⟨"m", .string⟩] _ _ _ _ hbefore rfl)
  have hj : ∀ i ∈ (Value.pipeline parts).payloads, i.Finite :=
    List.forall_mem_singleton.2 (List.forall_mem_singleton.2 (by decide))
  obtain ⟨hdecoded, hsame, -, -, -, hparts⟩ :=
    round_trip_of_built.2.1 (.pipeline parts) hbuilt (fun _ h => by cases h) hj
  exact ⟨hdecoded, hsame, hparts.callbacks⟩

end MiningPipelines
