import MiningPipelines.Proofs.Decoding

/-!
# Analysis results in wire messages

Client and engine hand analysis results on unread, so what a transport does to one it does
wherever the result stands. `Wire.Value.artifacts` lists the results in a value, at any depth, and
`Wire.Value.revise` gives the value with each of them revised, or left out with its slot. Nothing
else in the value changes : a value whose results stay as they are is its own revision
(`Wire.Value.revise_eq_self`). A result stands in the one slot of the value itself or in that of an
entry inside it (`Wire.Value.shows_of_mem`).
-/

namespace MiningPipelines

namespace Wire

mutual

/-- The analysis results in a value, at any depth. -/
def Value.artifacts : Value → List (ArtifactKind × Json)
  | ⟨slots⟩ => Value.artifactsOf slots

def Value.artifactsOf : List Payload → List (ArtifactKind × Json)
  | [] => []
  | p :: rest => p.artifacts ++ Value.artifactsOf rest

def Payload.artifacts : Payload → List (ArtifactKind × Json)
  | .pipeline parts => Pipeline.artifacts parts
  | .artifact kind payload => [(kind, payload)]
  | _ => []

def Part.artifacts : Part → List (ArtifactKind × Json)
  | ⟨shapes⟩ => Part.artifactsOf shapes

def Part.artifactsOf : List Shape → List (ArtifactKind × Json)
  | [] => []
  | s :: rest => s.artifacts ++ Part.artifactsOf rest

def Shape.artifacts : Shape → List (ArtifactKind × Json)
  | .operation op => op.artifacts
  | .parallel parts => Pipeline.artifacts parts
  | .fetch _ _ => []
  | .fetchAfter _ before _ => before.artifacts

def Operation.artifacts : Operation → List (ArtifactKind × Json)
  | ⟨_, config⟩ => Entries.artifacts config

/-- The analysis results in entries, at any depth. -/
def Entries.artifacts : List (String × Value) → List (ArtifactKind × Json)
  | [] => []
  | (_, v) :: rest => v.artifacts ++ Entries.artifacts rest

/-- The analysis results in the configurations of a pipeline, at any depth. -/
def Pipeline.artifacts : List Part → List (ArtifactKind × Json)
  | [] => []
  | p :: rest => p.artifacts ++ Pipeline.artifacts rest

end

section

variable (f : ArtifactKind → Json → Option Json)

mutual

/-- The value with each analysis result in it revised, at any depth. -/
def Value.revise : Value → Value
  | ⟨slots⟩ => ⟨Value.reviseSlots slots⟩

/-- A slot whose result is left out is not set. -/
def Value.reviseSlots : List Payload → List Payload
  | [] => []
  | p :: rest => p.revise.toList ++ Value.reviseSlots rest

def Payload.revise : Payload → Option Payload
  | .pipeline parts => some (.pipeline (Pipeline.revise parts))
  | .artifact kind payload => (f kind payload).map (.artifact kind)
  | p => some p

def Part.revise : Part → Part
  | ⟨shapes⟩ => ⟨Part.reviseShapes shapes⟩

def Part.reviseShapes : List Shape → List Shape
  | [] => []
  | s :: rest => s.revise :: Part.reviseShapes rest

def Shape.revise : Shape → Shape
  | .operation op => .operation op.revise
  | .parallel parts => .parallel (Pipeline.revise parts)
  | .fetch key tag => .fetch key tag
  | .fetchAfter keys before tag => .fetchAfter keys before.revise tag

def Operation.revise : Operation → Operation
  | ⟨name, config⟩ => ⟨name, Entries.revise config⟩

/-- The entries with each analysis result in them revised, at any depth. -/
def Entries.revise : List (String × Value) → List (String × Value)
  | [] => []
  | (k, v) :: rest => (k, v.revise) :: Entries.revise rest

/-- The pipeline with each analysis result in it revised, at any depth. -/
def Pipeline.revise : List Part → List Part
  | [] => []
  | p :: rest => p.revise :: Pipeline.revise rest

end

end

section

variable {f : ArtifactKind → Json → Option Json}

/-- A revised payload stays in its slot. -/
theorem Payload.slot_of_revise {p q : Payload} (h : p.revise f = some q) : q.slot = p.slot := by
  cases p with
  | artifact kind j =>
    obtain ⟨_, -, rfl⟩ := Option.map_eq_some_iff.1 h
    rfl
  | _ =>
    obtain rfl := Option.some.inj h
    rfl

/-- A payload stays if no result is left out. -/
theorem Payload.exists_revise (hf : ∀ kind j, (f kind j).isSome) (p : Payload) :
    ∃ q, p.revise f = some q ∧ q.slot = p.slot := by
  suffices h : ∃ q, p.revise f = some q from h.imp fun q hq => ⟨hq, Payload.slot_of_revise hq⟩
  cases p with
  | artifact kind j =>
    obtain ⟨i, hi⟩ := Option.isSome_iff_exists.1 (hf kind j)
    exact ⟨_, congrArg (Option.map _) hi⟩
  | _ => exact ⟨_, rfl⟩

/-- Revising the one payload of a value leaves it with one. -/
theorem Value.revise_singleton {p q : Payload} (h : p.revise f = some q) :
    Value.revise f ⟨[p]⟩ = ⟨[q]⟩ := by
  rw [Value.revise, Value.reviseSlots, Value.reviseSlots, h]
  rfl

/-- The same slots are set if no result is left out. -/
theorem Value.slotNames_revise (hf : ∀ kind j, (f kind j).isSome) (v : Value) :
    (v.revise f).slotNames = v.slotNames := by
  obtain ⟨slots⟩ := v
  rw [Value.revise, Value.slotNames, Value.slotNames]
  induction slots with
  | nil => rfl
  | cons p slots ih =>
    obtain ⟨q, hq, hslot⟩ := p.exists_revise hf
    rw [Value.reviseSlots, hq, Option.toList_some, List.singleton_append, List.map_cons, hslot, ih,
      List.map_cons]

/-- Results are never a shape by themselves, so the shapes of a part stay. -/
theorem Shape.slot_revise (s : Shape) : (s.revise f).slot = s.slot := by
  cases s <;> rfl

theorem Part.slotNames_revise (p : Part) : (p.revise f).slotNames = p.slotNames := by
  obtain ⟨shapes⟩ := p
  rw [Part.revise, Part.slotNames, Part.slotNames]
  induction shapes with
  | nil => rfl
  | cons s shapes ih => rw [Part.reviseShapes, List.map_cons, s.slot_revise, ih, List.map_cons]

end

/-! ## What stays -/

section

variable {f : ArtifactKind → Json → Option Json}

mutual

/-- A value is its own revision if each analysis result in it is. -/
theorem Value.revise_eq_self : ∀ {v : Value},
    (∀ a ∈ v.artifacts, f a.1 a.2 = some a.2) → v.revise f = v
  | ⟨slots⟩, h => by rw [Value.revise, Value.reviseSlots_eq_self h]

theorem Value.reviseSlots_eq_self : ∀ {slots : List Payload},
    (∀ a ∈ Value.artifactsOf slots, f a.1 a.2 = some a.2) → Value.reviseSlots f slots = slots
  | [], _ => rfl
  | p :: rest, h => by
    obtain ⟨hp, hrest⟩ := List.forall_mem_append.1 h
    rw [Value.reviseSlots, Payload.revise_eq_self hp, Value.reviseSlots_eq_self hrest]
    rfl

/-- A payload of another kind is not revised but for the results inside it. -/
theorem Payload.revise_eq_self : ∀ {p : Payload},
    (∀ a ∈ p.artifacts, f a.1 a.2 = some a.2) → p.revise f = some p
  | .pipeline _, h => by rw [Payload.revise, Pipeline.revise_eq_self h]
  | .artifact kind j, h => by
    have hj : f kind j = some j := h (kind, j) List.mem_cons_self
    rw [Payload.revise, hj, Option.map_some]
  | .string _, _ | .uint32 _, _ | .bool _, _ | .float _, _ | .enum _ _, _ | .strings _, _
  | .namesLog _, _ | .hashesLog _, _ => rfl

/-- A part is its own revision if each analysis result in it is. -/
theorem Part.revise_eq_self : ∀ {p : Part},
    (∀ a ∈ p.artifacts, f a.1 a.2 = some a.2) → p.revise f = p
  | ⟨shapes⟩, h => by rw [Part.revise, Part.reviseShapes_eq_self h]

theorem Part.reviseShapes_eq_self : ∀ {shapes : List Shape},
    (∀ a ∈ Part.artifactsOf shapes, f a.1 a.2 = some a.2) → Part.reviseShapes f shapes = shapes
  | [], _ => rfl
  | s :: rest, h => by
    obtain ⟨hs, hrest⟩ := List.forall_mem_append.1 h
    rw [Part.reviseShapes, Shape.revise_eq_self hs, Part.reviseShapes_eq_self hrest]

theorem Shape.revise_eq_self : ∀ {s : Shape},
    (∀ a ∈ s.artifacts, f a.1 a.2 = some a.2) → s.revise f = s
  | .operation _, h => by rw [Shape.revise, Operation.revise_eq_self h]
  | .parallel _, h => by rw [Shape.revise, Pipeline.revise_eq_self h]
  | .fetch _ _, _ => rfl
  | .fetchAfter _ _ _, h => by rw [Shape.revise, Operation.revise_eq_self h]

/-- An operation is its own revision if each analysis result in its entries is. -/
theorem Operation.revise_eq_self : ∀ {op : Operation},
    (∀ a ∈ op.artifacts, f a.1 a.2 = some a.2) → op.revise f = op
  | ⟨_, _⟩, h => by rw [Operation.revise, Entries.revise_eq_self h]

/-- Entries are their own revision if each analysis result in them is. -/
theorem Entries.revise_eq_self : ∀ {entries : List (String × Value)},
    (∀ a ∈ Entries.artifacts entries, f a.1 a.2 = some a.2) → Entries.revise f entries = entries
  | [], _ => rfl
  | (_, _) :: _, h => by
    obtain ⟨hv, hrest⟩ := List.forall_mem_append.1 h
    rw [Entries.revise, Value.revise_eq_self hv, Entries.revise_eq_self hrest]

theorem Pipeline.revise_eq_self : ∀ {parts : List Part},
    (∀ a ∈ Pipeline.artifacts parts, f a.1 a.2 = some a.2) → Pipeline.revise f parts = parts
  | [], _ => rfl
  | _ :: _, h => by
    obtain ⟨hp, hrest⟩ := List.forall_mem_append.1 h
    rw [Pipeline.revise, Part.revise_eq_self hp, Pipeline.revise_eq_self hrest]

end

end

/-! ## Where results stand -/

/-- The result stands in a slot of an entry among the pieces. -/
def Shows (pieces : List Piece) (a : ArtifactKind × Json) : Prop :=
  ∃ key v, Piece.entry key v ∈ pieces ∧ Payload.artifact a.1 a.2 ∈ v.slots

/-- More pieces show no fewer results. -/
theorem Shows.mono {pieces all : List Piece} {a : ArtifactKind × Json} (h : Shows pieces a)
    (hall : pieces ⊆ all) : Shows all a := by
  obtain ⟨key, v, hv, ha⟩ := h
  exact ⟨key, v, hall hv, ha⟩

mutual

/-- A pipeline has results only in the entries of its operations. -/
theorem Pipeline.shows_of_mem : ∀ {parts : List Part} {a : ArtifactKind × Json},
    a ∈ Pipeline.artifacts parts → Shows (Pipeline.pieces parts) a
  | _ :: _, _, h => by
    obtain h | h := List.mem_append.1 h
    · exact (Part.shows_of_mem h).mono (List.subset_append_left _ _)
    · exact (Pipeline.shows_of_mem h).mono (List.subset_append_right _ _)

theorem Part.shows_of_mem : ∀ {p : Part} {a : ArtifactKind × Json},
    a ∈ p.artifacts → Shows p.pieces a
  | ⟨_⟩, _, h => (Part.shows_of_mem_of h).mono (List.subset_cons_self _ _)

theorem Part.shows_of_mem_of : ∀ {shapes : List Shape} {a : ArtifactKind × Json},
    a ∈ Part.artifactsOf shapes → Shows (Part.piecesOf shapes) a
  | _ :: _, _, h => by
    obtain h | h := List.mem_append.1 h
    · exact (Shape.shows_of_mem h).mono (List.subset_append_left _ _)
    · exact (Part.shows_of_mem_of h).mono (List.subset_append_right _ _)

/-- A fetch has none, so the results of a part are in its operation or its children. -/
theorem Shape.shows_of_mem : ∀ {s : Shape} {a : ArtifactKind × Json},
    a ∈ s.artifacts → Shows s.pieces a
  | .operation _, _, h => Operation.shows_of_mem h
  | .parallel _, _, h => Pipeline.shows_of_mem h
  | .fetchAfter _ _ _, _, h => Operation.shows_of_mem h

theorem Operation.shows_of_mem : ∀ {op : Operation} {a : ArtifactKind × Json},
    a ∈ op.artifacts → Shows op.pieces a
  | ⟨_, _⟩, _, h => (Entries.shows_of_mem h).mono (List.subset_cons_self _ _)

/-- A result in entries is the payload of one of them or stands further inside. -/
theorem Entries.shows_of_mem : ∀ {entries : List (String × Value)} {a : ArtifactKind × Json},
    a ∈ Entries.artifacts entries → Shows (Entries.pieces entries) a
  | (key, v) :: rest, a, h => by
    have hentries : v.pieces ++ Entries.pieces rest ⊆ Entries.pieces ((key, v) :: rest) :=
      List.subset_cons_self _ _
    obtain h | h := List.mem_append.1 h
    · obtain h | h := Value.shows_of_mem h
      · exact ⟨key, v, List.mem_cons_self, h⟩
      · exact h.mono (List.Subset.trans (List.subset_append_left _ _) hentries)
    · exact (Entries.shows_of_mem h).mono
        (List.Subset.trans (List.subset_append_right _ _) hentries)

/-- A result stands in a slot of the value itself or of an entry inside it. -/
theorem Value.shows_of_mem : ∀ {v : Value} {a : ArtifactKind × Json},
    a ∈ v.artifacts → Payload.artifact a.1 a.2 ∈ v.slots ∨ Shows v.pieces a
  | ⟨_⟩, _, h => Value.shows_of_mem_of h

theorem Value.shows_of_mem_of : ∀ {slots : List Payload} {a : ArtifactKind × Json},
    a ∈ Value.artifactsOf slots → Payload.artifact a.1 a.2 ∈ slots ∨ Shows (Value.piecesOf slots) a
  | p :: rest, a, h => by
    obtain h | h := List.mem_append.1 h
    · obtain rfl | h := Payload.shows_of_mem h
      · exact .inl List.mem_cons_self
      · exact .inr (h.mono (List.subset_append_left _ _))
    · obtain h | h := Value.shows_of_mem_of h
      · exact .inl (List.mem_cons_of_mem _ h)
      · exact .inr (h.mono (List.subset_append_right _ _))

/-- A payload is the result, or has it inside. -/
theorem Payload.shows_of_mem : ∀ {p : Payload} {a : ArtifactKind × Json},
    a ∈ p.artifacts → p = .artifact a.1 a.2 ∨ Shows p.pieces a
  | .pipeline _, _, h => .inr (Pipeline.shows_of_mem h)
  | .artifact _ _, _, h => by
    obtain rfl := List.mem_singleton.1 h
    exact .inl rfl

end

end Wire

end MiningPipelines
