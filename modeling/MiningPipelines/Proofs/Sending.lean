import MiningPipelines.Grpc
import MiningPipelines.Proofs.Artifacts
import MiningPipelines.Proofs.Decoding
import MiningPipelines.Proofs.Layout

/-!
# What can be sent as a binary message

A wire message has a binary form exactly if each of its pieces is encodable
(`Wire.Piece.Encodable`) : a part has one shape, a value one slot, a fetch behind an operation one
key, and an analysis result fits the message of its kind. What an executor sends has one shape and
one slot throughout, so for a request the last two decide (`Wire.Piece.Sendable`,
`Executor.toProto_request`).

Read back, a binary form is the wire message that it was made from, with its analysis results
settled (`Wire.Value.toWire_of_toProto`), and it is its own binary form
(`Wire.Value.toProto_settle`).
-/

namespace MiningPipelines

namespace Wire

/-! ## What has a binary form -/

/-- The result fits the message of its kind. -/
def Fits (kind : ArtifactKind) (payload : Json) : Prop :=
  kind ∈ [ArtifactKind.colorsLog, .eventLogInfo, .graph, .tracesSubArrays, .traceIndexSubArrays] ∧
    (Proto.Artifact.ofDocument? payload.toDocument kind).isSome

/-- The piece has one form, whatever is inside it. -/
def Piece.Single : Piece → Prop
  | .part p => p.shapes.length = 1
  | .operation _ => True
  | .entry _ v => v.slots.length = 1

def Shape.Sendable : Shape → Prop
  | .fetchAfter keys _ _ => keys.length = 1
  | _ => True

def Payload.Sendable : Payload → Prop
  | .artifact kind payload => Fits kind payload
  | _ => True

/-- The binary protocol has a place for what the piece holds : one key for a fetch behind an
operation, and a message for an analysis result. -/
def Piece.Sendable : Piece → Prop
  | .part p => ∀ s ∈ p.shapes, s.Sendable
  | .operation _ => True
  | .entry _ v => ∀ p ∈ v.slots, p.Sendable

/-- The piece can be written as a binary message, whatever is inside it. -/
def Piece.Encodable (x : Piece) : Prop := x.Single ∧ x.Sendable

theorem Piece.encodable_part {shapes : List Shape} : (Piece.part ⟨shapes⟩).Encodable ↔
    shapes.length = 1 ∧ ∀ s ∈ shapes, s.Sendable :=
  Iff.rfl

theorem Piece.encodable_operation (op : Operation) : (Piece.operation op).Encodable :=
  ⟨trivial, trivial⟩

/-- An entry is judged by its value alone, an empty key included. -/
theorem Piece.encodable_entry {key : String} {v : Value} : (Piece.entry key v).Encodable ↔
    v.slots.length = 1 ∧ ∀ p ∈ v.slots, p.Sendable :=
  Iff.rfl

/-- A result is sent as what its document is read for. -/
theorem artifactToProto_eq_ok_iff {kind : ArtifactKind} {j : Json} {a : Proto.Artifact} :
    artifactToProto kind j = .ok a ↔ Proto.Artifact.ofDocument? j.toDocument kind = some a := by
  rw [artifactToProto]
  split
  · cases Proto.Artifact.ofDocument? j.toDocument kind <;> simp
  · next hkind => cases kind <;> simp_all [Proto.Artifact.hasMessage, Proto.Artifact.ofDocument?]

/-- A result fits its kind exactly if its document can be read for that. -/
theorem fits_iff {kind : ArtifactKind} {j : Json} :
    Fits kind j ↔ ∃ a, Proto.Artifact.ofDocument? j.toDocument kind = some a := by
  rw [Fits, Option.isSome_iff_exists]
  refine and_iff_right_of_imp ?_
  rintro ⟨a, ha⟩
  cases kind <;> simp_all [Proto.Artifact.ofDocument?]

mutual

/-- A wire pipeline has a binary form exactly if its pieces are encodable. -/
theorem Pipeline.encodes_iff : ∀ w : List Part,
    (∃ m, Pipeline.toProto w = .ok m) ↔ ∀ x ∈ Pipeline.pieces w, x.Encodable
  | [] => by simp [Pipeline.toProto, Pipeline.pieces]
  | p :: rest => by
    rw [Pipeline.pieces, List.forall_mem_append, ← p.encodes_iff, ← Pipeline.encodes_iff rest]
    simp only [Pipeline.toProto, bind_eq_ok_iff, Except.ok.injEq]
    constructor
    · rintro ⟨_, q, hq, qs, hqs, -⟩
      exact ⟨⟨q, hq⟩, qs, hqs⟩
    · rintro ⟨⟨q, hq⟩, qs, hqs⟩
      exact ⟨_, q, hq, qs, hqs, rfl⟩

/-- A part is sent if it has one shape, and that can be. -/
theorem Part.encodes_iff : ∀ p : Part, (∃ m, p.toProto = .ok m) ↔ ∀ x ∈ p.pieces, x.Encodable
  | ⟨[]⟩ => by simp [Part.toProto, Part.pieces, Piece.encodable_part]
  | ⟨[s]⟩ => by
    rw [Part.pieces, Part.piecesOf, Part.piecesOf, List.append_nil, List.forall_mem_cons,
      Piece.encodable_part, List.forall_mem_singleton, List.length_singleton, eq_self, true_and,
      ← s.encodes_iff]
    simp [Part.toProto, bind_eq_ok_iff]
  | ⟨s :: t :: ss⟩ => by simp [Part.toProto, Part.pieces, Piece.encodable_part]

/-- A fetch behind an operation is sent if it has one key and the operation can be. -/
theorem Shape.encodes_iff : ∀ s : Shape,
    (∃ m, s.toProto = .ok m) ↔ s.Sendable ∧ ∀ x ∈ s.pieces, x.Encodable
  | .operation op => by
    rw [Shape.pieces, ← op.encodes_iff]
    simp [Shape.toProto, bind_eq_ok_iff, Shape.Sendable]
  | .parallel parts => by
    rw [Shape.pieces, ← Pipeline.encodes_iff parts]
    simp [Shape.toProto, bind_eq_ok_iff, Shape.Sendable]
  | .fetch _ _ => by simp [Shape.toProto, Shape.pieces, Shape.Sendable]
  | .fetchAfter [key] before _ => by
    rw [Shape.pieces, ← before.encodes_iff]
    simp [Shape.toProto, bind_eq_ok_iff, Shape.Sendable]
  | .fetchAfter [] _ _ => by simp [Shape.toProto, Shape.Sendable]
  | .fetchAfter (_ :: _ :: _) _ _ => by simp [Shape.toProto, Shape.Sendable]

theorem Operation.encodes_iff : ∀ op : Operation,
    (∃ m, op.toProto = .ok m) ↔ ∀ x ∈ op.pieces, x.Encodable
  | ⟨name, config⟩ => by
    rw [Operation.pieces, List.forall_mem_cons, ← Entries.encodes_iff config]
    simp [Operation.toProto, bind_eq_ok_iff, Piece.encodable_operation]

/-- Entries are sent if each of their values is. -/
theorem Entries.encodes_iff : ∀ entries : List (String × Value),
    (∃ m, Entries.toProto entries = .ok m) ↔ ∀ x ∈ Entries.pieces entries, x.Encodable
  | [] => by simp [Entries.toProto, Entries.pieces]
  | (k, v) :: rest => by
    rw [Entries.pieces, List.forall_mem_cons, List.forall_mem_append, Piece.encodable_entry,
      ← and_assoc, ← v.encodes_iff, ← Entries.encodes_iff rest]
    simp only [Entries.toProto, bind_eq_ok_iff, Except.ok.injEq]
    constructor
    · rintro ⟨_, u, hu, us, hus, -⟩
      exact ⟨⟨u, hu⟩, us, hus⟩
    · rintro ⟨⟨u, hu⟩, us, hus⟩
      exact ⟨_, u, hu, us, hus, rfl⟩

/-- A value is sent if it has one payload, and that can be. -/
theorem Value.encodes_iff : ∀ v : Value, (∃ m, v.toProto = .ok m) ↔
    (v.slots.length = 1 ∧ ∀ p ∈ v.slots, p.Sendable) ∧ ∀ x ∈ v.pieces, x.Encodable
  | ⟨[]⟩ => by simp [Value.toProto]
  | ⟨[p]⟩ => by
    rw [Value.pieces, Value.piecesOf, Value.piecesOf, List.append_nil, List.forall_mem_singleton,
      List.length_singleton, eq_self, true_and, ← p.encodes_iff]
    simp [Value.toProto, bind_eq_ok_iff]
  | ⟨p :: q :: ps⟩ => by simp [Value.toProto]

/-- Only a pipeline and a result can keep a payload from being sent. -/
theorem Payload.encodes_iff : ∀ p : Payload,
    (∃ m, p.toProto = .ok m) ↔ p.Sendable ∧ ∀ x ∈ p.pieces, x.Encodable
  | .pipeline parts => by
    rw [Payload.pieces, ← Pipeline.encodes_iff parts]
    simp [Payload.toProto, bind_eq_ok_iff, Payload.Sendable]
  | .artifact kind j => by
    simp [Payload.toProto, bind_eq_ok_iff, Payload.pieces, Payload.Sendable, fits_iff,
      artifactToProto_eq_ok_iff]
  | .string _ | .uint32 _ | .bool _ | .float _ | .enum _ _ | .strings _ | .namesLog _
  | .hashesLog _ => by simp [Payload.toProto, Payload.pieces, Payload.Sendable]

end

/-! ## Read back -/

/-- What a trip through a binary message makes of an analysis result. -/
def settle (kind : ArtifactKind) (j : Json) : Option Json := some (Proto.Artifact.settle kind j)

/-- A result that is sent comes back settled, and of the same kind. -/
theorem settle_of_artifactToProto {kind : ArtifactKind} {j : Json} {a : Proto.Artifact}
    (h : artifactToProto kind j = .ok a) : settle kind j = some a.toJson ∧ a.kind = kind := by
  have ha := artifactToProto_eq_ok_iff.1 h
  rw [settle, Proto.Artifact.settle, ha]
  exact ⟨rfl, Proto.Artifact.kind_of_ofDocument? ha⟩

mutual

/-- Read back, the binary form of a pipeline is the pipeline with its results settled. -/
theorem Pipeline.toWire_of_toProto : ∀ (w : List Part) {m : List Proto.Part},
    Pipeline.toProto w = .ok m → Proto.Part.listToWire m = Pipeline.revise settle w
  | [], _, h => by
    obtain rfl := Except.ok.inj h
    rfl
  | p :: rest, _, h => by
    simp only [Pipeline.toProto, bind_eq_ok_iff] at h
    obtain ⟨q, hq, qs, hqs, h⟩ := h
    obtain rfl := Except.ok.inj h
    rw [Proto.Part.listToWire, Part.toWire_of_toProto p hq, Pipeline.toWire_of_toProto rest hqs,
      Pipeline.revise]

/-- A part comes back with the results in it settled. -/
theorem Part.toWire_of_toProto : ∀ (w : Part) {m : Proto.Part},
    w.toProto = .ok m → m.toWire = w.revise settle
  | ⟨[]⟩, _, h => by cases h
  | ⟨[s]⟩, _, h => by
    obtain ⟨t, ht, h⟩ := bind_eq_ok_iff.1 h
    obtain rfl := Except.ok.inj h
    rw [Proto.Part.toWire, Shape.toWire_of_toProto s ht, Part.revise, Part.reviseShapes,
      Part.reviseShapes]
  | ⟨_ :: _ :: _⟩, _, h => by cases h

theorem Shape.toWire_of_toProto : ∀ (w : Shape) {m : Proto.Shape},
    w.toProto = .ok m → m.toWire = w.revise settle
  | .operation op, _, h => by
    obtain ⟨q, hq, h⟩ := bind_eq_ok_iff.1 h
    obtain rfl := Except.ok.inj h
    rw [Proto.Shape.toWire, Operation.toWire_of_toProto op hq, Shape.revise]
  | .parallel parts, _, h => by
    obtain ⟨q, hq, h⟩ := bind_eq_ok_iff.1 h
    obtain rfl := Except.ok.inj h
    rw [Proto.Shape.toWire, Pipeline.toWire_of_toProto parts hq, Shape.revise]
  | .fetch _ _, _, h => by
    obtain rfl := Except.ok.inj h
    rfl
  | .fetchAfter [key] before _, _, h => by
    obtain ⟨q, hq, h⟩ := bind_eq_ok_iff.1 h
    obtain rfl := Except.ok.inj h
    rw [Proto.Shape.toWire, Proto.Operation.optionToWire, Operation.toWire_of_toProto before hq,
      Shape.revise]
    rfl
  | .fetchAfter [] _ _, _, h => by cases h
  | .fetchAfter (_ :: _ :: _) _ _, _, h => by cases h

theorem Operation.toWire_of_toProto : ∀ (w : Operation) {m : Proto.Operation},
    w.toProto = .ok m → m.toWire = w.revise settle
  | ⟨name, config⟩, _, h => by
    obtain ⟨c, hc, h⟩ := bind_eq_ok_iff.1 h
    obtain rfl := Except.ok.inj h
    rw [Proto.Operation.toWire, Proto.Operation.configToWire, Entries.toWire_of_toProto config hc,
      Operation.revise]

/-- Read back, the binary form of entries are the entries with their results settled. -/
theorem Entries.toWire_of_toProto : ∀ (w : List (String × Value)) {m : List Proto.Entry},
    Entries.toProto w = .ok m → Proto.Entry.listToWire m = Entries.revise settle w
  | [], _, h => by
    obtain rfl := Except.ok.inj h
    rfl
  | (k, v) :: rest, _, h => by
    simp only [Entries.toProto, bind_eq_ok_iff] at h
    obtain ⟨u, hu, us, hus, h⟩ := h
    obtain rfl := Except.ok.inj h
    rw [Proto.Entry.listToWire, Proto.Entry.toWire, Proto.Entry.valueToWire,
      Value.toWire_of_toProto v hu, Entries.toWire_of_toProto rest hus, Entries.revise]
    rfl

/-- Read back, the binary form of a value is the value with its results settled. -/
theorem Value.toWire_of_toProto : ∀ (w : Value) {m : Proto.Value},
    w.toProto = .ok m → m.toWire = w.revise settle
  | ⟨[]⟩, _, h => by cases h
  | ⟨[p]⟩, _, h => by
    obtain ⟨c, hc, h⟩ := bind_eq_ok_iff.1 h
    obtain rfl := Except.ok.inj h
    rw [Proto.Value.toWire, Value.revise_singleton (Payload.toWire_of_toProto p hc)]
  | ⟨_ :: _ :: _⟩, _, h => by cases h

/-- A payload that is sent comes back in the same slot. -/
theorem Payload.toWire_of_toProto : ∀ (w : Payload) {m : Proto.Content},
    w.toProto = .ok m → w.revise settle = some m.toWire
  | .pipeline parts, _, h => by
    obtain ⟨ps, hps, h⟩ := bind_eq_ok_iff.1 h
    obtain rfl := Except.ok.inj h
    rw [Proto.Content.toWire, Pipeline.toWire_of_toProto parts hps, Payload.revise]
  | .artifact kind j, _, h => by
    obtain ⟨a, ha, h⟩ := bind_eq_ok_iff.1 h
    obtain rfl := Except.ok.inj h
    obtain ⟨hsettle, hkind⟩ := settle_of_artifactToProto ha
    rw [Payload.revise, hsettle, Proto.Content.toWire, hkind]
    rfl
  | .string _, _, h | .uint32 _, _, h | .bool _, _, h | .float _, _, h | .enum _ _, _, h
  | .strings _, _, h | .namesLog _, _, h | .hashesLog _, _, h => by
    obtain rfl := Except.ok.inj h
    rfl

end

/-! ## Sent again -/

/-- Settling is done once: a settled result is sent as the same message. -/
theorem artifactToProto_settle (kind : ArtifactKind) (j : Json) :
    artifactToProto kind (Proto.Artifact.settle kind j) = artifactToProto kind j := by
  rw [artifactToProto, artifactToProto, Proto.Artifact.ofDocument?_settle]

mutual

/-- A pipeline with its results settled has the same binary form. -/
theorem Pipeline.toProto_settle : ∀ w : List Part,
    Pipeline.toProto (Pipeline.revise settle w) = Pipeline.toProto w
  | [] => rfl
  | p :: rest => by
    rw [Pipeline.revise, Pipeline.toProto, Part.toProto_settle p, Pipeline.toProto_settle rest,
      Pipeline.toProto]

/-- A part with settled results is sent as the same message. -/
theorem Part.toProto_settle : ∀ w : Part, (w.revise settle).toProto = w.toProto
  | ⟨[]⟩ => rfl
  | ⟨[s]⟩ => by
    rw [Part.revise, Part.reviseShapes, Part.reviseShapes, Part.toProto, Shape.toProto_settle s,
      Part.toProto]
  | ⟨s :: t :: ss⟩ => by
    have hslots := Part.slotNames_revise (f := settle) ⟨s :: t :: ss⟩
    rw [Part.revise, Part.reviseShapes, Part.reviseShapes] at hslots ⊢
    rw [Part.toProto, Part.toProto]
    exact congrArg (fun names => Except.error (Malformation.notOnePartSlot names)) hslots

theorem Shape.toProto_settle : ∀ w : Shape, (w.revise settle).toProto = w.toProto
  | .operation op => by
    rw [Shape.revise, Shape.toProto, Operation.toProto_settle op, Shape.toProto]
  | .parallel parts => by
    rw [Shape.revise, Shape.toProto, Pipeline.toProto_settle parts, Shape.toProto]
  | .fetch _ _ => rfl
  | .fetchAfter [_] before _ => by
    rw [Shape.revise, Shape.toProto, Operation.toProto_settle before, Shape.toProto]
  | .fetchAfter [] before _ => by
    obtain ⟨name, config⟩ := before
    rfl
  | .fetchAfter (_ :: _ :: _) before _ => by
    obtain ⟨name, config⟩ := before
    rfl

theorem Operation.toProto_settle : ∀ w : Operation, (w.revise settle).toProto = w.toProto
  | ⟨_, config⟩ => by
    rw [Operation.revise, Operation.toProto, Entries.toProto_settle config, Operation.toProto]

theorem Entries.toProto_settle : ∀ w : List (String × Value),
    Entries.toProto (Entries.revise settle w) = Entries.toProto w
  | [] => rfl
  | (_, v) :: rest => by
    rw [Entries.revise, Entries.toProto, Value.toProto_settle v, Entries.toProto_settle rest,
      Entries.toProto]

/-- A value with its results settled has the same binary form. -/
theorem Value.toProto_settle : ∀ w : Value, (w.revise settle).toProto = w.toProto
  | ⟨[]⟩ => rfl
  | ⟨[p]⟩ => by
    obtain ⟨q, hq, hproto⟩ := Payload.toProto_settle p
    rw [Value.revise_singleton hq, Value.toProto, Value.toProto, hproto]
  | ⟨p :: q :: ps⟩ => by
    have hslots := Value.slotNames_revise (f := settle) (fun _ _ => rfl) ⟨p :: q :: ps⟩
    obtain ⟨p', hp, -⟩ := Payload.toProto_settle p
    obtain ⟨q', hq, -⟩ := Payload.toProto_settle q
    rw [Value.revise, Value.reviseSlots, Value.reviseSlots, hp, hq] at hslots ⊢
    exact congrArg (fun names => Except.error (Malformation.notOneSlot names)) hslots

/-- A settled payload is still there, and is sent as the same message. -/
theorem Payload.toProto_settle : ∀ w : Payload,
    ∃ q, w.revise settle = some q ∧ q.toProto = w.toProto
  | .pipeline parts => by
    refine ⟨_, rfl, ?_⟩
    rw [Payload.toProto, Pipeline.toProto_settle parts, Payload.toProto]
  | .artifact kind j => by
    refine ⟨_, rfl, ?_⟩
    rw [Payload.toProto, artifactToProto_settle, Payload.toProto]
  | .string _ | .uint32 _ | .bool _ | .float _ | .enum _ _ | .strings _ | .namesLog _
  | .hashesLog _ => ⟨_, rfl, rfl⟩

end

/-! ## Values there and back -/

/-- Every analysis result in a value with a binary form fits a message. -/
theorem Value.fits_of_toProto {v : Value} {m : Proto.Value} (h : v.toProto = .ok m)
    {a : ArtifactKind × Json} (ha : a ∈ v.artifacts) : Fits a.1 a.2 := by
  obtain ⟨⟨-, hslots⟩, hpieces⟩ := v.encodes_iff.1 ⟨m, h⟩
  obtain ha | ⟨key, u, hu, ha⟩ := Value.shows_of_mem ha
  · exact hslots _ ha
  · exact (hpieces _ hu).2 _ ha

/-- What comes of a value on its trip through the binary message `m`. -/
structure Value.Returns (v : Value) (m : Proto.Value) : Prop where
  /-- The value has one slot, and so has what comes back. -/
  slot : ∃ name, v.slotNames = [name] ∧ m.toWire.slotNames = [name]
  revised : m.toWire = v.revise settle
  /-- Analysis results apart, nothing changes. -/
  same : v.artifacts = [] → m.toWire = v
  results : ∀ kind j, (kind, j) ∈ v.artifacts →
    ∃ l, Proto.Artifact.Settled kind j (Proto.Artifact.settle kind j) l
  /-- A second trip changes nothing. -/
  again : m.toWire.toProto = .ok m

/-- A value comes back from its binary message in its slot and with its results settled : absent
fields are filled in, unknown ones are dropped, and all others are kept. -/
theorem Value.returns {v : Value} {m : Proto.Value} (h : v.toProto = .ok m) : v.Returns m := by
  have hrevised := Value.toWire_of_toProto v h
  have hagain : m.toWire.toProto = .ok m := by rw [hrevised, Value.toProto_settle, h]
  refine ⟨?_, hrevised, fun hnone => ?_, fun kind j hj => ?_, hagain⟩
  · have hnames := Value.slotNames_revise (f := settle) (fun _ _ => rfl) v
    obtain ⟨⟨hlength, -⟩, -⟩ := v.encodes_iff.1 ⟨m, h⟩
    obtain ⟨p, hp⟩ := List.length_eq_one_iff.1 hlength
    have hone : v.slotNames = [p.slot] := by rw [Value.slotNames, hp]; rfl
    exact ⟨p.slot, hone, by rw [hrevised, hnames, hone]⟩
  · rw [hrevised, Value.revise_eq_self]
    simp [hnone]
  · exact Proto.Artifact.settled (Value.fits_of_toProto h hj).2

/-- An analysis result with a field too many and two too few, in the configuration of the operation
before a fetch. -/
theorem Value.returns_nested :
    let value (j : Json) : Value :=
      ⟨[.pipeline [⟨[.fetchAfter ["k"] ⟨"o", [("i", ⟨[.artifact .eventLogInfo j]⟩)]⟩ none]⟩]]⟩
    let given : Json := .object [("extra", .null), ("tracesCount", .ofNat 3)]
    let settled : Json := .object
      [("eventClassesCount", .ofNat 0), ("eventsCount", .ofNat 0), ("tracesCount", .ofNat 3)]
    ∃ m, (value given).toProto = .ok m ∧ (value given).Returns m ∧ m.toWire = value settled := by
  intro value given settled
  obtain ⟨m, hm⟩ : ∃ m, (value given).toProto = .ok m := ⟨_, rfl⟩
  have hreturns := Value.returns hm
  exact ⟨m, hm, hreturns, hreturns.revised⟩

end Wire

/-! ## Requests -/

mutual

/-- A sent pipeline has one shape in a part and one slot in a value, at any depth. -/
theorem Pipeline.single_toWire : ∀ parts : List Part,
    ∀ x ∈ Wire.Pipeline.pieces (Pipeline.toWire parts), x.Single
  | [] => List.forall_mem_nil _
  | p :: rest => List.forall_mem_append.2 ⟨p.single_toWire, Pipeline.single_toWire rest⟩

theorem Part.single_toWire : ∀ p : Part, ∀ x ∈ p.toWire.pieces, x.Single
  | .operation op => by
    rw [Part.pieces_operation]
    exact List.forall_mem_cons.2 ⟨rfl, op.single_toWire⟩
  | .parallel parts => by
    rw [Part.pieces_parallel]
    exact List.forall_mem_cons.2 ⟨rfl, Pipeline.single_toWire parts⟩
  | .fetch _ _ _ => List.forall_mem_singleton.2 rfl
  | .fetchAfter _ before _ _ => by
    rw [Part.pieces_fetchAfter]
    exact List.forall_mem_cons.2 ⟨rfl, before.single_toWire⟩

theorem Operation.single_toWire : ∀ op : Operation, ∀ x ∈ op.toWire.pieces, x.Single
  | ⟨_, config⟩ => List.forall_mem_cons.2 ⟨trivial, Config.single_toWire config⟩

/-- Sent entries have one shape in a part and one slot in a value, at any depth. -/
theorem Config.single_toWire : ∀ config : List (String × Value),
    ∀ x ∈ Wire.Entries.pieces (Config.toWire config), x.Single
  | [] => List.forall_mem_nil _
  | (_, v) :: rest => by
    obtain ⟨hlength, hv⟩ := v.single_toWire
    exact List.forall_mem_cons.2
      ⟨hlength, List.forall_mem_append.2 ⟨hv, Config.single_toWire rest⟩⟩

/-- Each value is sent in one slot. -/
theorem Value.single_toWire : ∀ v : Value,
    v.toWire.slots.length = 1 ∧ ∀ x ∈ v.toWire.pieces, x.Single
  | .pipeline parts => by
    rw [Value.pieces_toWire]
    exact ⟨rfl, Pipeline.single_toWire parts⟩
  | .string _ | .uint32 _ | .bool _ | .float _ | .enum _ _ | .strings _ | .namesLog _
  | .hashesLog _ | .artifact _ _ => ⟨rfl, List.forall_mem_nil _⟩

end

namespace Wire.Request

/-- What a request is made of, in its pipeline and in its context. -/
def pieces (r : Request) : List Piece := Pipeline.pieces r.pipeline ++ Entries.pieces r.context

/-- A request is sent exactly if all pieces of its pipeline and its context can be. -/
theorem encodes_iff (r : Request) : (∃ m, r.toProto = .ok m) ↔ ∀ x ∈ r.pieces, x.Encodable := by
  rw [pieces, List.forall_mem_append, ← Pipeline.encodes_iff, ← Entries.encodes_iff]
  simp only [Request.toProto, bind_eq_ok_iff, Except.ok.injEq]
  constructor
  · rintro ⟨_, parts, hparts, context, hcontext, -⟩
    exact ⟨⟨parts, hparts⟩, context, hcontext⟩
  · rintro ⟨⟨parts, hparts⟩, context, hcontext⟩
    exact ⟨_, parts, hparts, context, hcontext, rfl⟩

/-- The binary message `m` says what the request says, up to the form of analysis results. -/
structure SentAs (r : Request) (m : Proto.Request) : Prop where
  pipeline : ∃ parts, m.pipeline = some parts ∧
    Proto.Part.listToWire parts = Pipeline.revise settle r.pipeline ∧
    (Pipeline.artifacts r.pipeline = [] → Proto.Part.listToWire parts = r.pipeline)
  context : Proto.Entry.listToWire m.context = Entries.revise settle r.context ∧
    (Entries.artifacts r.context = [] → Proto.Entry.listToWire m.context = r.context)

/-- What was sent comes back with the results in it settled. -/
theorem sentAs_of_toProto {r : Request} {m : Proto.Request} (h : r.toProto = .ok m) :
    r.SentAs m := by
  simp only [Request.toProto, bind_eq_ok_iff] at h
  obtain ⟨parts, hparts, context, hcontext, h⟩ := h
  obtain rfl := Except.ok.inj h
  have hpipeline := Pipeline.toWire_of_toProto _ hparts
  have hentries := Entries.toWire_of_toProto _ hcontext
  refine ⟨⟨parts, rfl, hpipeline, fun hnone => ?_⟩, hentries, fun hnone => ?_⟩
  · rw [hpipeline, Pipeline.revise_eq_self]
    simp [hnone]
  · rw [hentries, Entries.revise_eq_self]
    simp [hnone]

end Wire.Request

namespace Executor

/-- The request for a pipeline has a binary form exactly if each fetch behind an operation has one
key and each analysis result fits the message of its kind, at any depth of the pipeline and of the
context. Without a binary form it is malformed, and nothing goes over the network. The binary form
says what the request says. -/
theorem toProto_request (parts : Pipeline) (context : Context) :
    ((∃ m, (request parts context).toProto = .ok m) ↔
      ∀ x ∈ (request parts context).pieces, x.Sendable) ∧
    (∀ cause, (request parts context).toProto = .error cause → ∀ s network,
      Grpc.submit s network (request parts context) = ⟨[], .refused (.malformed cause)⟩) ∧
    ∀ m, (request parts context).toProto = .ok m → (request parts context).SentAs m := by
  refine ⟨?_, fun cause h s network => ?_, fun m => Wire.Request.sentAs_of_toProto⟩
  · have hsingle : ∀ x ∈ (request parts context).pieces, x.Single :=
      List.forall_mem_append.2
        ⟨Pipeline.single_toWire parts, Config.single_toWire context.entries⟩
    rw [Wire.Request.encodes_iff]
    exact ⟨fun h x hx => (h x hx).2, fun h x hx => ⟨hsingle x hx, h x hx⟩⟩
  · rw [Grpc.submit, h]

/-- A fetch of two keys in a pipeline of the context keeps everything from being sent. -/
theorem toProto_request_nested :
    let inner (keys : List String) : Pipeline := [.fetchAfter keys ⟨"o", []⟩ (some "t") none]
    let context (keys : List String) : Context := ⟨[("p", .pipeline (inner keys))]⟩
    let parts : Pipeline := [.parallel [.fetch "k" (some "u") none]]
    (∃ m, (request parts (context ["a"])).toProto = .ok m ∧
      (request parts (context ["a"])).SentAs m) ∧
    ∀ s network, Grpc.submit s network (request parts (context ["a", "b"])) =
      ⟨[], .refused (.malformed (.severalKeys "o" 2))⟩ := by
  intro inner context parts
  refine ⟨?_, (toProto_request parts (context ["a", "b"])).2.1 _ rfl⟩
  have hsendable : ∀ x ∈ (request parts (context ["a"])).pieces, x.Sendable := by
    simp [request, context, inner, parts, Context.toWire, Config.toWire, Pipeline.toWire,
      Part.toWire, Value.toWire, Operation.toWire, Wire.Request.pieces, Wire.Pipeline.pieces,
      Wire.Part.pieces, Wire.Part.piecesOf, Wire.Shape.pieces, Wire.Operation.pieces,
      Wire.Entries.pieces, Wire.Value.pieces, Wire.Value.piecesOf, Wire.Payload.pieces,
      Wire.Piece.Sendable, Wire.Shape.Sendable, Wire.Payload.Sendable]
  obtain ⟨m, hm⟩ := (toProto_request parts (context ["a"])).1.2 hsendable
  exact ⟨m, hm, (toProto_request parts (context ["a"])).2.2 m hm⟩

end Executor

end MiningPipelines
