import MiningPipelines.Proofs.Made
import MiningPipelines.Proofs.RoundTrip
import MiningPipelines.Proofs.WireText

/-!
# There and back in JSON text

What comes back when a value is sent as JSON text, read and decoded again (`Value.reread`). Text has
no form of its own for a result that is null, nor for a float that is infinite or a NaN : both are
written as null, which reads as no slot. A value of which text loses a slot so is `Value.Lossy`.

The text is refused exactly if it nests deeper than JSON text may. Of the values whose text is read,
those that are not lossy come back as they were but for the handlers, and decoding refuses the
others (`Value.textRoundTrip`). The value between is the revision of the sent one that leaves out
the results that are null, and decoding stops at the first place where one was left out
(`Wire.Value.decode_lost`). Sixteen pipelines one inside the other are already too deep
(`Value.reread_nested`).
-/

namespace MiningPipelines

namespace Wire

/-! ## Reading the text -/

/-- The value of a JSON text. -/
def Value.ofText? (s : String) : Option Value :=
  (Document.ofText s).bind Value.ofDocument?

/-- The text of a value is read unless it nests deeper than the reader goes. -/
theorem Value.ofText?_print {d : Document} {v : Value} (h : ReadsAs readValue d v) :
    Value.ofText? d.print = if d.depth ≤ Document.maxDepth then some v else none := by
  have hparse : Document.ofText d.print = some (d.asRead.cut Document.maxDepth) := by
    have hblanks : ([] : Bytes).all Document.isBlank := rfl
    have hparse := Document.parse_print_cut h.legible hblanks
    rwa [List.append_nil] at hparse
  rw [Value.ofText?, hparse, Option.bind_some]
  exact h.read (Nat.le_succ _)

/-! ## Decoding without the results that are null -/

/-- Without a null among them all results are present. -/
theorem present_of_not_mem {results : List (ArtifactKind × Json)}
    (h : Json.null ∉ results.map Prod.snd) : ∀ a ∈ results, present a.1 a.2 = some a.2 :=
  fun a ha => present_of_ne_null _ fun hnull => h (List.mem_map.2 ⟨a, ha, hnull⟩)

mutual

/-- A value that could be decoded is refused once a result in it is left out. -/
theorem Value.decode_lost : ∀ {v : Value}, v.slots.length = 1 → (∀ x ∈ v.pieces, x.Sound) →
    Json.null ∈ v.artifacts.map Prod.snd →
      (v.revise present).decode = .error (.malformed .noPayload)
  | ⟨[]⟩, hslots, _, _ => by cases hslots
  | ⟨[p]⟩, _, h, hnull => by
    rw [Value.pieces, Value.piecesOf, Value.piecesOf, List.append_nil] at h
    rw [Value.artifacts, Value.artifactsOf, Value.artifactsOf, List.append_nil] at hnull
    rw [Value.revise, Value.reviseSlots, Value.reviseSlots, List.append_nil]
    exact Payload.decode_lost h hnull
  | ⟨_ :: _ :: _⟩, hslots, _, _ => by simp at hslots

/-- The null itself leaves a value without payload; a pipeline fails at the part that has it. -/
theorem Payload.decode_lost : ∀ {p : Payload}, (∀ x ∈ p.pieces, x.Sound) →
    Json.null ∈ p.artifacts.map Prod.snd →
      Value.decode ⟨(p.revise present).toList⟩ = .error (.malformed .noPayload)
  | .pipeline parts, h, hnull => by
    rw [Payload.revise, Option.toList_some, Value.decode, Payload.decode,
      Pipeline.decode_lost h hnull]
    rfl
  | .artifact _ _, _, hnull => by
    obtain rfl := List.mem_singleton.1 hnull
    rfl

theorem Pipeline.decode_lost : ∀ {parts : List Part}, (∀ x ∈ Pipeline.pieces parts, x.Sound) →
    Json.null ∈ (Pipeline.artifacts parts).map Prod.snd →
      Pipeline.decode (Pipeline.revise present parts) = .error (.malformed .noPayload)
  | p :: rest, h, hnull => by
    obtain ⟨hp, hrest⟩ := List.forall_mem_append.1 h
    rw [Pipeline.artifacts, List.map_append, List.mem_append] at hnull
    rw [Pipeline.revise, Pipeline.decode]
    by_cases hlost : Json.null ∈ p.artifacts.map Prod.snd
    · rw [Part.decode_lost hp hlost]
      rfl
    · obtain ⟨q, hq⟩ := p.decodes_iff.2 hp
      rw [Part.revise_eq_self (present_of_not_mem hlost), hq, ok_bind,
        Pipeline.decode_lost hrest (hnull.resolve_left hlost)]
      rfl

/-- A part fails as what is inside it does. -/
theorem Part.decode_lost : ∀ {p : Part}, (∀ x ∈ p.pieces, x.Sound) →
    Json.null ∈ p.artifacts.map Prod.snd →
      (p.revise present).decode = .error (.malformed .noPayload)
  | ⟨[]⟩, _, hnull => by cases hnull
  | ⟨[s]⟩, h, hnull => by
    rw [Part.pieces, Part.piecesOf, Part.piecesOf, List.append_nil] at h
    rw [Part.artifacts, Part.artifactsOf, Part.artifactsOf, List.append_nil] at hnull
    exact Shape.decode_lost (List.forall_mem_cons.1 h).2 hnull
  | ⟨_ :: _ :: _⟩, h, _ => by
    have hshapes := h _ List.mem_cons_self
    simp [Piece.Sound] at hshapes

theorem Shape.decode_lost : ∀ {s : Shape}, (∀ x ∈ s.pieces, x.Sound) →
    Json.null ∈ s.artifacts.map Prod.snd →
      (s.revise present).decode = .error (.malformed .noPayload)
  | .operation _, h, hnull => by
    rw [Shape.revise, Shape.decode, Operation.decode_lost h hnull]
    rfl
  | .parallel _, h, hnull => by
    rw [Shape.revise, Shape.decode, Pipeline.decode_lost h hnull]
    rfl
  | .fetchAfter _ _ _, h, hnull => by
    rw [Shape.revise, Shape.decode, Operation.decode_lost h hnull]
    rfl

theorem Operation.decode_lost : ∀ {op : Operation}, (∀ x ∈ op.pieces, x.Sound) →
    Json.null ∈ op.artifacts.map Prod.snd →
      (op.revise present).decode = .error (.malformed .noPayload)
  | ⟨_, _⟩, h, hnull => by
    rw [Operation.revise, Operation.decode,
      Entries.decodeOnto_lost [] (List.forall_mem_cons.1 h).2 hnull]
    rfl

/-- Entries before the null are decoded, and the one that has it is refused. -/
theorem Entries.decodeOnto_lost (config : Config) : ∀ {entries : List (String × Value)},
    (∀ x ∈ Entries.pieces entries, x.Sound) → Json.null ∈ (Entries.artifacts entries).map Prod.snd →
      Entries.decodeOnto config (Entries.revise present entries) = .error (.malformed .noPayload)
  | (key, v) :: rest, h, hnull => by
    obtain ⟨⟨hkey, hslots, hfloat⟩, hpieces⟩ := List.forall_mem_cons.1 h
    obtain ⟨hv, hrest⟩ := List.forall_mem_append.1 hpieces
    rw [Entries.artifacts, List.map_append, List.mem_append] at hnull
    rw [Entries.revise, Entries.decodeOnto]
    by_cases hlost : Json.null ∈ v.artifacts.map Prod.snd
    · rw [Value.decode_lost hslots hv hlost]
      rfl
    · obtain ⟨u, hu⟩ := v.decodes_iff.2 ⟨hslots, hv⟩
      have happend : Config.append config key u = .ok (List.append config [(key, u)]) :=
        Config.append_eq_ok_iff.2 ⟨⟨hkey, (Value.transportable_of_decode hu).2 hfloat⟩, rfl⟩
      rw [Value.revise_eq_self (present_of_not_mem hlost), hu, ok_bind, happend,
        DecodeFault.ofRefusal, ok_bind, Entries.decodeOnto_lost _ hrest (hnull.resolve_left hlost)]

end

end Wire

/-! ## What text loses -/

mutual

/-- The floats in a value, at any depth. -/
def Value.floats : Value → List Single
  | .float x => [x]
  | .pipeline parts => Pipeline.floats parts
  | _ => []

def Part.floats : Part → List Single
  | .operation op => op.floats
  | .parallel parts => Pipeline.floats parts
  | .fetch _ _ _ => []
  | .fetchAfter _ before _ _ => before.floats

def Operation.floats : Operation → List Single
  | ⟨_, config⟩ => Config.floats config

def Config.floats : List (String × Value) → List Single
  | [] => []
  | (_, v) :: rest => v.floats ++ Config.floats rest

/-- The floats in the configurations of a pipeline, at any depth. -/
def Pipeline.floats : List Part → List Single
  | [] => []
  | p :: rest => p.floats ++ Pipeline.floats rest

end

mutual

/-- Sending keeps the results in a value, and their order. -/
theorem Value.artifacts_toWire : ∀ v : Value, v.toWire.artifacts.map Prod.snd = v.payloads
  | .pipeline parts => by
    rw [Value.toWire, Wire.Value.artifacts, Wire.Value.artifactsOf, Wire.Value.artifactsOf,
      List.append_nil, Wire.Payload.artifacts, Pipeline.artifacts_toWire parts, Value.payloads]
  | .artifact _ _ | .string _ | .uint32 _ | .bool _ | .float _ | .enum _ _ | .strings _
  | .namesLog _ | .hashesLog _ => rfl

theorem Part.artifacts_toWire : ∀ p : Part, p.toWire.artifacts.map Prod.snd = p.payloads
  | .operation op => by
    rw [Part.toWire, Wire.Part.artifacts, Wire.Part.artifactsOf, Wire.Part.artifactsOf,
      List.append_nil, Wire.Shape.artifacts, op.artifacts_toWire, Part.payloads]
  | .parallel parts => by
    rw [Part.toWire, Wire.Part.artifacts, Wire.Part.artifactsOf, Wire.Part.artifactsOf,
      List.append_nil, Wire.Shape.artifacts, Pipeline.artifacts_toWire parts, Part.payloads]
  | .fetch _ _ _ => rfl
  | .fetchAfter _ before _ _ => by
    rw [Part.toWire, Wire.Part.artifacts, Wire.Part.artifactsOf, Wire.Part.artifactsOf,
      List.append_nil, Wire.Shape.artifacts, before.artifacts_toWire, Part.payloads]

theorem Operation.artifacts_toWire : ∀ op : Operation,
    op.toWire.artifacts.map Prod.snd = op.payloads
  | ⟨_, config⟩ => by
    rw [Operation.toWire, Wire.Operation.artifacts, Config.artifacts_toWire config,
      Operation.payloads]

/-- Sending keeps the results in entries, and their order. -/
theorem Config.artifacts_toWire : ∀ config : List (String × Value),
    (Wire.Entries.artifacts (Config.toWire config)).map Prod.snd = Config.payloads config
  | [] => rfl
  | (_, v) :: rest => by
    rw [Config.toWire, Wire.Entries.artifacts, List.map_append, v.artifacts_toWire,
      Config.artifacts_toWire rest, Config.payloads]

/-- The results in the wire form of a pipeline are those in the pipeline. -/
theorem Pipeline.artifacts_toWire : ∀ parts : List Part,
    (Wire.Pipeline.artifacts (Pipeline.toWire parts)).map Prod.snd = Pipeline.payloads parts
  | [] => rfl
  | p :: rest => by
    rw [Pipeline.toWire, Wire.Pipeline.artifacts, List.map_append, p.artifacts_toWire,
      Pipeline.artifacts_toWire rest, Pipeline.payloads]

end

mutual

/-- The floats in what can be decoded are finite, apart from a float that is the value itself. -/
theorem Value.isFinite_of_sound : ∀ {v : Value}, (∀ x ∈ v.toWire.pieces, x.Sound) →
    (∀ x, v = .float x → x.isFinite) → ∀ x ∈ v.floats, x.isFinite
  | .pipeline _, h, _ => by
    rw [Value.pieces_toWire] at h
    exact Pipeline.isFinite_of_sound h
  | .float x, _, hx => List.forall_mem_singleton.2 (hx x rfl)
  | .string _, _, _ | .uint32 _, _, _ | .bool _, _, _ | .enum _ _, _, _ | .strings _, _, _
  | .namesLog _, _, _ | .hashesLog _, _, _ | .artifact _ _, _, _ => List.forall_mem_nil _

/-- The floats in a part are those in its entries. -/
theorem Part.isFinite_of_sound : ∀ {p : Part}, (∀ x ∈ p.toWire.pieces, x.Sound) →
    ∀ x ∈ p.floats, x.isFinite
  | .operation _, h => by
    rw [Part.pieces_operation] at h
    exact Operation.isFinite_of_sound (List.forall_mem_cons.1 h).2
  | .parallel _, h => by
    rw [Part.pieces_parallel] at h
    exact Pipeline.isFinite_of_sound (List.forall_mem_cons.1 h).2
  | .fetch _ _ _, _ => List.forall_mem_nil _
  | .fetchAfter _ _ _ _, h => by
    rw [Part.pieces_fetchAfter] at h
    exact Operation.isFinite_of_sound (List.forall_mem_cons.1 h).2

theorem Operation.isFinite_of_sound : ∀ {op : Operation}, (∀ x ∈ op.toWire.pieces, x.Sound) →
    ∀ x ∈ op.floats, x.isFinite
  | ⟨_, _⟩, h => Config.isFinite_of_sound (List.forall_mem_cons.1 h).2

/-- A sound entry has a finite float, if it has one. -/
theorem Config.isFinite_of_sound : ∀ {config : List (String × Value)},
    (∀ x ∈ Wire.Entries.pieces (Config.toWire config), x.Sound) →
      ∀ x ∈ Config.floats config, x.isFinite
  | [], _ => List.forall_mem_nil _
  | (_, v) :: _, h => by
    obtain ⟨⟨-, -, hfloat⟩, hpieces⟩ := List.forall_mem_cons.1 h
    obtain ⟨hv, hrest⟩ := List.forall_mem_append.1 hpieces
    have hfinite : ∀ x, v = .float x → x.isFinite := by
      rintro x rfl
      exact hfloat x List.mem_cons_self
    exact List.forall_mem_append.2
      ⟨Value.isFinite_of_sound hv hfinite, Config.isFinite_of_sound hrest⟩

theorem Pipeline.isFinite_of_sound : ∀ {parts : List Part},
    (∀ x ∈ Wire.Pipeline.pieces (Pipeline.toWire parts), x.Sound) →
      ∀ x ∈ Pipeline.floats parts, x.isFinite
  | [], _ => List.forall_mem_nil _
  | _ :: _, h => by
    obtain ⟨hp, hrest⟩ := List.forall_mem_append.1 h
    exact List.forall_mem_append.2
      ⟨Part.isFinite_of_sound hp, Pipeline.isFinite_of_sound hrest⟩

end

/-- The floats of an admitted entry are finite at any depth, if the pipelines in it were made. -/
theorem Config.Admits.isFinite_floats {key : String} {v : Value} (h : Config.Admits (key, v))
    (hmade : Pipeline.Made v.parts) : ∀ x ∈ v.floats, x.isFinite :=
  Value.isFinite_of_sound (Value.pieces_toWire v ▸ hmade.sound) h.isFinite

mutual

/-- Text carries a value if it carries the numbers in it. -/
theorem Value.carried_toWire : ∀ {v : Value}, (∀ x ∈ v.floats, x.Rereads) →
    (∀ j ∈ v.payloads, j.Writable) → v.toWire.Carried ∧ ∀ x ∈ v.toWire.pieces, x.Carried
  | .pipeline parts, hx, hj => by
    rw [Value.pieces_toWire]
    exact ⟨⟨Nat.le_refl 1, List.forall_mem_singleton.2 trivial⟩, Pipeline.carried_toWire hx hj⟩
  | .float x, hx, _ =>
    have hread : x.Rereads := hx x List.mem_cons_self
    ⟨⟨Nat.le_refl 1, List.forall_mem_singleton.2 hread⟩, List.forall_mem_nil _⟩
  | .artifact _ j, _, hj =>
    have hwritable : j.Writable := hj j List.mem_cons_self
    ⟨⟨Nat.le_refl 1, List.forall_mem_singleton.2 hwritable⟩, List.forall_mem_nil _⟩
  | .string _, _, _ | .uint32 _, _, _ | .bool _, _, _ | .enum _ _, _, _ | .strings _, _, _
  | .namesLog _, _, _ | .hashesLog _, _, _ =>
    ⟨⟨Nat.le_refl 1, List.forall_mem_singleton.2 trivial⟩, List.forall_mem_nil _⟩

/-- A part is carried if the floats and results in it are. -/
theorem Part.carried_toWire : ∀ {p : Part}, (∀ x ∈ p.floats, x.Rereads) →
    (∀ j ∈ p.payloads, j.Writable) → ∀ x ∈ p.toWire.pieces, x.Carried
  | .operation _, hx, hj => by
    rw [Part.pieces_operation]
    exact List.forall_mem_cons.2 ⟨Nat.le_refl 1, Operation.carried_toWire hx hj⟩
  | .parallel _, hx, hj => by
    rw [Part.pieces_parallel]
    exact List.forall_mem_cons.2 ⟨Nat.le_refl 1, Pipeline.carried_toWire hx hj⟩
  | .fetch _ _ _, _, _ => List.forall_mem_singleton.2 (Nat.le_refl 1)
  | .fetchAfter _ _ _ _, hx, hj => by
    rw [Part.pieces_fetchAfter]
    exact List.forall_mem_cons.2 ⟨Nat.le_refl 1, Operation.carried_toWire hx hj⟩

theorem Operation.carried_toWire : ∀ {op : Operation}, (∀ x ∈ op.floats, x.Rereads) →
    (∀ j ∈ op.payloads, j.Writable) → ∀ x ∈ op.toWire.pieces, x.Carried
  | ⟨_, _⟩, hx, hj => List.forall_mem_cons.2 ⟨trivial, Config.carried_toWire hx hj⟩

/-- Entries are carried if the floats and results in them are. -/
theorem Config.carried_toWire : ∀ {config : List (String × Value)},
    (∀ x ∈ Config.floats config, x.Rereads) → (∀ j ∈ Config.payloads config, j.Writable) →
      ∀ x ∈ Wire.Entries.pieces (Config.toWire config), x.Carried
  | [], _, _ => List.forall_mem_nil _
  | (_, _) :: _, hx, hj => by
    obtain ⟨hxv, hxrest⟩ := List.forall_mem_append.1 hx
    obtain ⟨hjv, hjrest⟩ := List.forall_mem_append.1 hj
    obtain ⟨hv, hpieces⟩ := Value.carried_toWire hxv hjv
    exact List.forall_mem_cons.2
      ⟨hv, List.forall_mem_append.2 ⟨hpieces, Config.carried_toWire hxrest hjrest⟩⟩

theorem Pipeline.carried_toWire : ∀ {parts : List Part}, (∀ x ∈ Pipeline.floats parts, x.Rereads) →
    (∀ j ∈ Pipeline.payloads parts, j.Writable) →
      ∀ x ∈ Wire.Pipeline.pieces (Pipeline.toWire parts), x.Carried
  | [], _, _ => List.forall_mem_nil _
  | _ :: _, hx, hj => by
    obtain ⟨hxp, hxrest⟩ := List.forall_mem_append.1 hx
    obtain ⟨hjp, hjrest⟩ := List.forall_mem_append.1 hj
    exact List.forall_mem_append.2
      ⟨Part.carried_toWire hxp hjp, Pipeline.carried_toWire hxrest hjrest⟩

end

mutual

/-- A value equals itself if the numbers in it are finite. -/
theorem Value.same_self : ∀ {v : Value}, (∀ x ∈ v.floats, x.isFinite) →
    (∀ j ∈ v.payloads, j.Finite) → v.same v
  | .pipeline _, hx, hj => by
    rw [Value.same]
    exact Pipeline.same_self hx hj
  | .float x, hx, _ => by
    rw [Value.same]
    exact Single.same_self (Single.not_isNaN (hx x List.mem_cons_self))
  | .artifact _ j, _, hj => by
    have hsame : j.same j := Json.Finite.same_self (hj j List.mem_cons_self)
    simp [Value.same, hsame]
  | .string _, _, _ | .uint32 _, _, _ | .bool _, _, _ | .enum _ _, _, _ | .strings _, _, _
  | .namesLog _, _, _ | .hashesLog _, _, _ => by simp [Value.same]

/-- A part without NaN is equal to itself. -/
theorem Part.same_self : ∀ {p : Part}, (∀ x ∈ p.floats, x.isFinite) →
    (∀ j ∈ p.payloads, j.Finite) → p.same p
  | .operation _, hx, hj => by
    rw [Part.same]
    exact Operation.same_self hx hj
  | .parallel _, hx, hj => by
    rw [Part.same]
    exact Pipeline.same_self hx hj
  | .fetch _ _ _, _, _ => by simp [Part.same]
  | .fetchAfter _ before _ _, hx, hj => by
    have hsame : before.same before := Operation.same_self hx hj
    simp [Part.same, hsame]

theorem Operation.same_self : ∀ {op : Operation}, (∀ x ∈ op.floats, x.isFinite) →
    (∀ j ∈ op.payloads, j.Finite) → op.same op
  | ⟨_, config⟩, hx, hj => by
    have hsame : Config.same config config := Config.same_self hx hj
    rw [Operation.same, hsame, beq_self_eq_true, Bool.and_self]

/-- Entries without NaN are equal to themselves. -/
theorem Config.same_self : ∀ {config : List (String × Value)},
    (∀ x ∈ Config.floats config, x.isFinite) → (∀ j ∈ Config.payloads config, j.Finite) →
      Config.same config config
  | [], _, _ => by rw [Config.same]
  | (_, v) :: _, hx, hj => by
    obtain ⟨hxv, hxrest⟩ := List.forall_mem_append.1 hx
    obtain ⟨hjv, hjrest⟩ := List.forall_mem_append.1 hj
    have hsame : v.same v := Value.same_self hxv hjv
    rw [Config.same, hsame, Config.same_self hxrest hjrest, beq_self_eq_true, Bool.and_self,
      Bool.and_self]

theorem Pipeline.same_self : ∀ {parts : List Part}, (∀ x ∈ Pipeline.floats parts, x.isFinite) →
    (∀ j ∈ Pipeline.payloads parts, j.Finite) → Pipeline.same parts parts
  | [], _, _ => by rw [Pipeline.same]
  | p :: _, hx, hj => by
    obtain ⟨hxp, hxrest⟩ := List.forall_mem_append.1 hx
    obtain ⟨hjp, hjrest⟩ := List.forall_mem_append.1 hj
    have hsame : p.same p := Part.same_self hxp hjp
    rw [Pipeline.same, hsame, Pipeline.same_self hxrest hjrest, Bool.and_self]

end

/-- Only finite numbers have a numeral for their text. -/
theorem Double.isFinite_of_numberOf? {x : Double} {n : Json.Number}
    (h : Document.numberOf? x.json = some n) : x.isFinite := by
  by_contra hx
  have hnull : Document.numberOf? "null" = none := by decide
  rw [Double.json, if_neg hx, hnull] at h
  cases h

namespace Json

mutual

/-- The numbers that text carries are finite. -/
theorem finite_of_legible : ∀ {v : Json}, v.toDocument.Legible → v.Finite
  | .number (.real _), h =>
    List.forall_mem_singleton.2 (Double.isFinite_of_numberOf? h)
  | .array _, h => finiteItems_of_legible h
  | .object _, h => finiteFields_of_legible h
  | .null, _ | .bool _, _ | .text _, _ | .number (.natural _), _ | .number (.negative _), _ =>
    List.forall_mem_nil _

/-- Items whose texts are numerals hold finite numbers. -/
theorem finiteItems_of_legible : ∀ {items : List Json},
    Document.LegibleItems (itemsToDocument items) → ∀ x ∈ realsOfItems items, x.isFinite
  | [], _ => List.forall_mem_nil _
  | _ :: _, ⟨hv, hrest⟩ =>
    List.forall_mem_append.2 ⟨finite_of_legible hv, finiteItems_of_legible hrest⟩

theorem finiteFields_of_legible : ∀ {fields : List (String × Json)},
    Document.LegibleFields (fieldsToDocument fields) → ∀ x ∈ realsOfFields fields, x.isFinite
  | [], _ => List.forall_mem_nil _
  | (_, _) :: _, ⟨hv, hrest⟩ =>
    List.forall_mem_append.2 ⟨finite_of_legible hv, finiteFields_of_legible hrest⟩

end

end Json

/-! ## What comes back -/

/-- What comes back from the text of the value : the decoded value or why decoding refuses it,
unless the text cannot be read. -/
def Value.reread (v : Value) : Option (Except DecodeFault Value) :=
  (Wire.Value.ofText? v.toWire.toDocument.print).map Wire.Value.decode

/-- Text loses a slot of the value, at any depth. Only the float that is the value itself can be
infinite or a NaN. -/
def Value.Lossy (v : Value) : Prop :=
  (∃ x, v = .float x ∧ x.isFinite = false) ∨ Json.null ∈ v.payloads

/-- What comes back from the text of a value, case by case. -/
structure Value.TextRoundTrip (v : Value) : Prop where
  /-- The text cannot be read exactly if it nests too deep. -/
  refused : v.reread = none ↔ Document.maxDepth < v.toWire.toDocument.depth
  back : v.toWire.toDocument.depth ≤ Document.maxDepth →
    ((∃ u, v.reread = some (.ok u) ∧ u.same v) ↔ ¬v.Lossy)
  lost : v.toWire.toDocument.depth ≤ Document.maxDepth →
    (v.reread = some (.error (.malformed .noPayload)) ↔ v.Lossy)
  /-- No other value ever comes back : all but the handlers is as it was. -/
  kept : ∀ u, v.reread = some (.ok u) → u.toWire = v.toWire ∧ u.same v

/-- A value is reread as what the wire form says that was read, if it was. -/
theorem Value.reread_eq {v : Value} {d : Document} {w : Wire.Value}
    (h : Wire.ReadsAs Wire.readValue d w) (hprint : v.toWire.toDocument.print = d.print)
    (hdepth : v.toWire.toDocument.depth = d.depth) :
    v.reread = if v.toWire.toDocument.depth ≤ Document.maxDepth then some w.decode else none := by
  rw [Value.reread, hprint, Wire.Value.ofText?_print h, hdepth]
  split <;> rfl

/-- A float that is not finite is written as null. -/
theorem Value.reread_float {x : Single} (hx : x.isFinite = false) :
    (Value.float x).reread = some (.error (.malformed .noPayload)) := by
  have hprint : (Value.float x).toWire.toDocument.print =
      (Document.object [("float", .null)]).print := by
    have hjson : x.json = "null" := by rw [Single.json, hx]; rfl
    simp only [Value.toWire, Wire.Value.toDocument, Wire.Value.slotFields, Wire.Payload.toDocument,
      Wire.Payload.slot, Document.print, Document.printFields, hjson]
  exact Value.reread_eq (Wire.readsAs_nullSlot (by decide)) hprint rfl

/-- The text of any other value is read as the value without the results in it that are null. -/
theorem Value.reread_finite {v : Value} (hfloats : ∀ x ∈ v.floats, x.Rereads)
    (hpayloads : ∀ j ∈ v.payloads, j.Writable) :
    v.reread = if v.toWire.toDocument.depth ≤ Document.maxDepth then
      some (v.toWire.revise Wire.present).decode else none := by
  obtain ⟨hv, hpieces⟩ := Value.carried_toWire hfloats hpayloads
  exact Value.reread_eq (Wire.Value.readsAs hv hpieces) rfl rfl

/-- Without the results that are null, a value that has some is refused, and one that has none is
decoded. -/
theorem Value.decode_revise {v : Value} (h : ∀ x ∈ v.toWire.pieces, x.Sound) :
    (Json.null ∈ v.payloads →
      (v.toWire.revise Wire.present).decode = .error (.malformed .noPayload)) ∧
    (Json.null ∉ v.payloads → ∃ u, (v.toWire.revise Wire.present).decode = .ok u ∧
      u.toWire = v.toWire) := by
  have hslots : v.toWire.slots.length = 1 := by cases v <;> rfl
  rw [← v.artifacts_toWire]
  refine ⟨Wire.Value.decode_lost hslots h, fun hnull => ?_⟩
  obtain ⟨u, hu⟩ := v.toWire.decodes_iff.2 ⟨hslots, h⟩
  rw [Wire.Value.revise_eq_self (Wire.present_of_not_mem hnull)]
  exact ⟨u, hu, Wire.Value.toWire_of_decode _ hu⟩

/-- The text cannot be read, or decoding refuses a lossy value, or the value comes back. -/
theorem Value.reread_cases {v : Value} (h : Pipeline.Made v.parts)
    (hfloats : ∀ x ∈ v.floats, x.isFinite → x.Rereads) (hpayloads : ∀ j ∈ v.payloads, j.Writable) :
    (Document.maxDepth < v.toWire.toDocument.depth ∧ v.reread = none) ∨
    (v.toWire.toDocument.depth ≤ Document.maxDepth ∧ v.Lossy ∧
      v.reread = some (.error (.malformed .noPayload))) ∨
    (v.toWire.toDocument.depth ≤ Document.maxDepth ∧ ¬v.Lossy ∧
      ∃ u, v.reread = some (.ok u) ∧ u.toWire = v.toWire ∧ u.same v) := by
  by_cases hinfinite : ∃ x, v = .float x ∧ x.isFinite = false
  · obtain ⟨x, rfl, hx⟩ := hinfinite
    have hdepth : (Value.float x).toWire.toDocument.depth = 1 := rfl
    exact .inr (.inl ⟨hdepth ▸ by decide, .inl ⟨x, rfl, hx⟩, Value.reread_float hx⟩)
  have hsound : ∀ x ∈ v.toWire.pieces, x.Sound := v.pieces_toWire ▸ h.sound
  have hfinite : ∀ x ∈ v.floats, x.isFinite := Value.isFinite_of_sound hsound fun x hx =>
    Bool.of_not_eq_false fun hfalse => hinfinite ⟨x, hx, hfalse⟩
  have hreread := Value.reread_finite (fun x hx => hfloats x hx (hfinite x hx)) hpayloads
  obtain ⟨hlost, hback⟩ := Value.decode_revise hsound
  by_cases hdepth : v.toWire.toDocument.depth ≤ Document.maxDepth
  · rw [if_pos hdepth] at hreread
    by_cases hnull : Json.null ∈ v.payloads
    · exact .inr (.inl ⟨hdepth, .inr hnull, hreread.trans (congrArg some (hlost hnull))⟩)
    · obtain ⟨u, hu, hwire⟩ := hback hnull
      have hself : v.same v :=
        Value.same_self hfinite fun j hj => Json.finite_of_legible (hpayloads j hj).legible
      have hsame : u.same v := by rwa [u.same_eq_toWire, hwire, ← v.same_eq_toWire]
      exact .inr (.inr ⟨hdepth, not_or.2 ⟨hinfinite, hnull⟩, u,
        hreread.trans (congrArg some hu), hwire, hsame⟩)
  · exact .inl ⟨Nat.lt_of_not_le hdepth, hreread.trans (if_neg hdepth)⟩

/-- The text of a value is refused exactly if it nests too deep. Otherwise the value comes back as
it was but for the handlers, unless text loses a slot of it; then decoding is refused. Numbers in
JSON text have to be read as they were. -/
theorem Value.textRoundTrip (v : Value) (h : Pipeline.Made v.parts)
    (hfloats : ∀ x ∈ v.floats, x.isFinite → x.Rereads) (hpayloads : ∀ j ∈ v.payloads, j.Writable) :
    v.TextRoundTrip := by
  obtain ⟨hdepth, hreread⟩ | ⟨hdepth, hlossy, hreread⟩ | ⟨hdepth, hlossy, u, hreread, hu⟩ :=
    Value.reread_cases h hfloats hpayloads
  · exact ⟨iff_of_true hreread hdepth, fun hle => absurd hle (Nat.not_le.2 hdepth),
      fun hle => absurd hle (Nat.not_le.2 hdepth), fun w hw => by cases hreread.symm.trans hw⟩
  · have hnot : ∀ w, v.reread ≠ some (.ok w) := fun w hw => by cases hreread.symm.trans hw
    exact ⟨iff_of_false (by simp [hreread]) (Nat.not_lt.2 hdepth),
      fun _ => iff_of_false (fun ⟨w, hw, _⟩ => hnot w hw) (not_not.2 hlossy),
      fun _ => iff_of_true hreread hlossy, fun w hw => absurd hw (hnot w)⟩
  · refine ⟨iff_of_false (by simp [hreread]) (Nat.not_lt.2 hdepth),
      fun _ => iff_of_true ⟨u, hreread, hu.2⟩ hlossy,
      fun _ => iff_of_false (by simp [hreread]) hlossy, fun w hw => ?_⟩
    obtain rfl : u = w := Except.ok.inj (Option.some.inj (hreread.symm.trans hw))
    exact hu

/-- A result two pipelines deep comes back, but for a handler, unless it is null. -/
theorem Value.textRoundTrip_nested :
    let value (j : Json) : Value :=
      let entries := [("k", Value.artifact .graph j), ("k", .float ⟨0x80000000⟩),
        ("p", .pipeline [.ofFetch ⟨"l", .string⟩ "a" (.named "f")])]
      .pipeline [.parallel [.operation ⟨"o", [("p", .pipeline [.operation ⟨"o", entries⟩])]⟩]]
    let j : Json := .object [("a", .number (.real ⟨0x3ff8000000000000⟩)), ("b", .null)]
    (∃ u, (value j).reread = some (.ok u) ∧ u.same (value j)) ∧
      (value .null).reread = some (.error (.malformed .noPayload)) := by
  intro value j
  have hname : "o" ≠ "" := by decide
  have hk : "k" ≠ "" := by decide
  have hp : "p" ≠ "" := by decide
  have hbuilt : ∀ i, Pipeline.Built (value i).parts := by
    intro i
    have hfetch : Pipeline.Built [.ofFetch ⟨"l", .string⟩ "a" (.named "f")] :=
      List.forall_mem_singleton.2 (.fetch _ _ _)
    have hentries : ∀ e ∈ [("k", Value.artifact .graph i), ("k", .float ⟨0x80000000⟩),
        ("p", .pipeline [.ofFetch ⟨"l", .string⟩ "a" (.named "f")])],
        Config.Admits e ∧ Pipeline.Built e.2.parts := by
      refine List.forall_mem_cons.2 ⟨⟨⟨hk, rfl⟩, List.forall_mem_nil _⟩, ?_⟩
      refine List.forall_mem_cons.2 ⟨⟨⟨hk, rfl⟩, List.forall_mem_nil _⟩, ?_⟩
      exact List.forall_mem_singleton.2 ⟨⟨hp, rfl⟩, hfetch⟩
    have hinner : ∀ e ∈ [("p", Value.pipeline [.operation ⟨"o", _⟩])],
        Config.Admits e ∧ Pipeline.Built e.2.parts :=
      List.forall_mem_singleton.2 ⟨⟨hp, rfl⟩, List.forall_mem_singleton.2
        (.operation (Operation.built_iff.2 ⟨hname, hentries⟩))⟩
    exact List.forall_mem_singleton.2 (.parallel (List.forall_mem_singleton.2
      (.operation (Operation.built_iff.2 ⟨hname, hinner⟩))))
  have hzero : (⟨0x80000000⟩ : Single).Rereads := by decide +kernel
  have hfloats : ∀ i, ∀ x ∈ (value i).floats, x.isFinite → x.Rereads :=
    fun i => List.forall_mem_singleton.2 fun _ => hzero
  have hreal : Document.numberOf? (Json.Number.real ⟨0x3ff8000000000000⟩).print =
      some (.real ⟨0x3ff8000000000000⟩) := by decide +kernel
  have hj : j.Writable := .object ⟨by decide, trivial, by decide, trivial, trivial⟩
    (List.forall_mem_cons.2 ⟨hreal, List.forall_mem_singleton.2 trivial⟩)
  have hwhole := Value.textRoundTrip (value j) (hbuilt j).made (hfloats j)
    (List.forall_mem_singleton.2 hj)
  have hlost := Value.textRoundTrip (value .null) (hbuilt .null).made (hfloats .null)
    (List.forall_mem_singleton.2 .null)
  have hlossy : ¬(value j).Lossy := by
    rintro (⟨x, hx, -⟩ | hnull)
    · cases hx
    · exact absurd (List.mem_singleton.1 hnull) (by simp [j])
  exact ⟨(hwhole.back (by decide)).2 hlossy, (hlost.lost (by decide)).2 (.inr List.mem_cons_self)⟩

/-! ## Nesting -/

/-- The value inside so many pipelines, one in the configuration of the other. -/
def Value.nested (v : Value) : Nat → Value
  | 0 => v
  | n + 1 => .pipeline [.operation ⟨"o", [("k", v.nested n)]⟩]

/-- Each pipeline takes eight levels. -/
theorem Value.depth_nested (v : Value) (n : Nat) :
    (v.nested n).toWire.toDocument.depth = 8 * n + v.toWire.toDocument.depth := by
  have hpos : 0 < v.toWire.toDocument.depth := by
    obtain ⟨slots⟩ := v.toWire
    exact Nat.succ_pos _
  have hkey : (Wire.keyDocument "k").depth = 1 := rfl
  induction n with
  | zero => rw [Value.nested, Nat.mul_zero, Nat.zero_add]
  | succ n ih =>
    simp [Value.nested, Value.toWire, Pipeline.toWire, Part.toWire, Operation.toWire, Config.toWire,
      Wire.Value.toDocument, Wire.Value.slotFields, Wire.Payload.toDocument,
      Wire.Pipeline.partDocuments, Wire.Part.toDocument, Wire.Part.shapeFields,
      Wire.Shape.toDocument, Wire.Operation.toDocument, Wire.Entries.entryDocuments,
      Document.depth, Document.depthFields, Document.depthItems, ih]
    omega

/-- Nesting adds no floats. -/
theorem Value.floats_nested (v : Value) (n : Nat) : (v.nested n).floats = v.floats := by
  induction n with
  | zero => rfl
  | succ n ih =>
    simp [Value.nested, Value.floats, Pipeline.floats, Part.floats, Operation.floats, Config.floats,
      ih]

/-- Nesting adds no results. -/
theorem Value.payloads_nested (v : Value) (n : Nat) : (v.nested n).payloads = v.payloads := by
  induction n with
  | zero => rfl
  | succ n ih =>
    simp [Value.nested, Value.payloads, Pipeline.payloads, Part.payloads, Operation.payloads,
      Config.payloads, ih]

/-- A value that an entry can hold can be nested any number of times. -/
theorem Value.made_nested {v : Value} (h : Pipeline.Made v.parts)
    (htransportable : v.transportable = .ok ()) (n : Nat) :
    Pipeline.Made (v.nested n).parts ∧ (v.nested n).transportable = .ok () := by
  have hname : "o" ≠ "" := by decide
  have hkey : "k" ≠ "" := by decide
  induction n with
  | zero => exact ⟨h, htransportable⟩
  | succ n ih =>
    have hconfig : Config.ofEntries [("k", v.nested n)] = .ok [("k", v.nested n)] :=
      Config.ofEntries_eq_ok_iff.2 ⟨List.forall_mem_singleton.2 ⟨hkey, ih.2⟩, rfl⟩
    have hop : Operation.Made ⟨"o", [("k", v.nested n)]⟩ := by
      refine .make ?_ hconfig (Operation.make_eq_ok_iff.2 ⟨hname, rfl⟩)
      exact List.forall_mem_singleton.2 ih.1
    exact ⟨List.forall_mem_singleton.2 (.operation hop), rfl⟩

/-- No value comes back from inside sixteen pipelines or more. -/
theorem Value.reread_nested {v : Value} (h : Pipeline.Made v.parts)
    (htransportable : v.transportable = .ok ()) (hfloats : ∀ x ∈ v.floats, x.isFinite → x.Rereads)
    (hpayloads : ∀ j ∈ v.payloads, j.Writable) {n : Nat} (hn : 16 ≤ n) :
    (v.nested n).reread = none := by
  have hdeep : Document.maxDepth < (v.nested n).toWire.toDocument.depth := by
    rw [v.depth_nested, Document.maxDepth]
    omega
  obtain ⟨-, hreread⟩ | ⟨hdepth, -⟩ | ⟨hdepth, -⟩ :=
    Value.reread_cases (Value.made_nested h htransportable n).1
      (by rwa [v.floats_nested]) (by rwa [v.payloads_nested])
  · exact hreread
  · exact absurd hdepth (Nat.not_le.2 hdeep)
  · exact absurd hdepth (Nat.not_le.2 hdeep)

/-- Pipelines with nothing in them that text could lose do not come back if they nest too deep. -/
theorem Value.reread_sixteen :
    let v : Value := (Value.bool true).nested 16
    Pipeline.Made v.parts ∧ v.floats = [] ∧ v.payloads = [] ∧ ¬v.Lossy ∧ v.reread = none ∧
      ¬∃ u, v.reread = some (.ok u) ∧ u.same v := by
  intro v
  have hmade : Pipeline.Made (Value.bool true).parts := List.forall_mem_nil _
  have hfloats : v.floats = [] := Value.floats_nested _ _
  have hpayloads : v.payloads = [] := Value.payloads_nested _ _
  have hreread : v.reread = none := Value.reread_nested hmade rfl (List.forall_mem_nil _)
    (List.forall_mem_nil _) (Nat.le_refl 16)
  refine ⟨(Value.made_nested hmade rfl 16).1, hfloats, hpayloads, ?_, hreread,
    fun ⟨u, hu, _⟩ => by cases hreread.symm.trans hu⟩
  rintro (⟨x, hx, -⟩ | hnull)
  · obtain ⟨parts, hparts⟩ : ∃ parts, v = .pipeline parts := ⟨_, rfl⟩
    cases hparts.symm.trans hx
  · rw [hpayloads] at hnull
    cases hnull

end MiningPipelines
