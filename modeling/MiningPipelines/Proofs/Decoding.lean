import MiningPipelines.Proofs.Built
import MiningPipelines.Wire.Decode

/-!
# The wire pipelines that can be decoded

`Wire.Pipeline.pieces` lists what a wire pipeline is made of, at any depth : its parts, its
operations, and the entries of their configurations. Whether it can be decoded is a matter
of its pieces one by one (`Wire.Piece.Sound`) : a part has one shape, an operation a name,
and an entry a key and one payload that text can carry.

`Wire.Pipeline.decodes_iff` says that decoding accepts exactly this, and
`Wire.Pipeline.toWire_of_decode` that what it accepts is sent again as it came. Both go by
the structure of the wire pipeline, with a statement for each type that takes part in it.
They are put together in `Proofs.Slots`, where the slots of a value and the shapes of a part
are fields of a record.
-/

namespace MiningPipelines

namespace Wire

/-! ## Pieces -/

/-- What a wire pipeline is made of. -/
inductive Piece where
  | part (p : Part)
  | operation (op : Operation)
  | entry (key : String) (v : Value)

/-- The piece can be decoded, whatever is inside it. -/
def Piece.Sound : Piece → Prop
  | .part p => p.shapes.length = 1
  | .operation op => op.name ≠ ""
  | .entry key v => key ≠ "" ∧ v.slots.length = 1 ∧ ∀ x, Payload.float x ∈ v.slots → x.isFinite

mutual

/-- The pieces of a wire pipeline, at any depth. -/
def Pipeline.pieces : List Part → List Piece
  | [] => []
  | p :: rest => p.pieces ++ Pipeline.pieces rest

def Part.pieces : Part → List Piece
  | ⟨shapes⟩ => .part ⟨shapes⟩ :: Part.piecesOf shapes

def Part.piecesOf : List Shape → List Piece
  | [] => []
  | s :: rest => s.pieces ++ Part.piecesOf rest

def Shape.pieces : Shape → List Piece
  | .operation op => op.pieces
  | .parallel parts => Pipeline.pieces parts
  | .fetch _ _ => []
  | .fetchAfter _ before _ => before.pieces

def Operation.pieces : Operation → List Piece
  | ⟨name, config⟩ => .operation ⟨name, config⟩ :: Entries.pieces config

def Entries.pieces : List (String × Value) → List Piece
  | [] => []
  | (k, v) :: rest => .entry k v :: (v.pieces ++ Entries.pieces rest)

/-- The pieces of the pipelines in a value. -/
def Value.pieces : Value → List Piece
  | ⟨slots⟩ => Value.piecesOf slots

def Value.piecesOf : List Payload → List Piece
  | [] => []
  | p :: rest => p.pieces ++ Value.piecesOf rest

def Payload.pieces : Payload → List Piece
  | .pipeline parts => Pipeline.pieces parts
  | _ => []

end

/-! ## One level -/

/-- A value is read off its only payload. -/
theorem Value.decode_eq_ok_iff {v : Value} {u : MiningPipelines.Value} :
    v.decode = .ok u ↔ ∃ p, v = ⟨[p]⟩ ∧ p.decode = .ok u := by
  obtain ⟨_ | ⟨p, _ | ⟨q, ps⟩⟩⟩ := v <;> simp [Value.decode]

/-- Text can carry a decoded value unless its payload is a float that is not finite. -/
theorem Payload.transportable_of_decode {p : Payload} {u : MiningPipelines.Value}
    (h : p.decode = .ok u) : u.transportable = .ok () ↔ ∀ x, p = .float x → x.isFinite := by
  cases p with
  | pipeline parts =>
    obtain ⟨_, -, h⟩ := bind_eq_ok_iff.1 h
    obtain rfl := Except.ok.inj h
    simp [MiningPipelines.Value.transportable]
  | _ =>
    obtain rfl := Except.ok.inj h
    simp [MiningPipelines.Value.transportable]

/-- Only a float can keep a decoded value out of a configuration. -/
theorem Value.transportable_of_decode {v : Value} {u : MiningPipelines.Value}
    (h : v.decode = .ok u) :
    u.transportable = .ok () ↔ ∀ x, Payload.float x ∈ v.slots → x.isFinite := by
  obtain ⟨p, rfl, hp⟩ := Value.decode_eq_ok_iff.1 h
  rw [Payload.transportable_of_decode hp]
  simp only [List.mem_singleton, eq_comm]

end Wire

/-- A refusal of a constructor is a fault of decoding, and nothing else changes. -/
theorem DecodeFault.ofRefusal_eq_ok_iff {α : Type} {x : Except Refusal α} {a : α} :
    DecodeFault.ofRefusal x = .ok a ↔ x = .ok a := by
  cases x <;> simp [DecodeFault.ofRefusal]

theorem Config.toWire_eq_map : ∀ config : Config,
    Config.toWire config = config.map fun e => (e.1, e.2.toWire)
  | [] => rfl
  | (k, v) :: rest => by rw [Config.toWire, Config.toWire_eq_map rest, List.map_cons]

/-! ## Pieces of what is sent -/

/-- The pieces of what is sent are those of its parts. -/
theorem Pipeline.forall_pieces_toWire {P : Wire.Piece → Prop} {parts : Pipeline} :
    (∀ x ∈ Wire.Pipeline.pieces (Pipeline.toWire parts), P x) ↔
      ∀ p ∈ parts, ∀ x ∈ p.toWire.pieces, P x := by
  induction parts with
  | nil => simp [Pipeline.toWire, Wire.Pipeline.pieces]
  | cons p rest ih =>
    rw [Pipeline.toWire, Wire.Pipeline.pieces, List.forall_mem_append, ih, List.forall_mem_cons]

/-- The pieces of a value are those of the pipeline in it. -/
theorem Value.pieces_toWire (v : Value) :
    v.toWire.pieces = Wire.Pipeline.pieces (Pipeline.toWire v.parts) := by
  cases v with
  | pipeline parts =>
    rw [Value.toWire, Wire.Value.pieces, Wire.Value.piecesOf, Wire.Value.piecesOf, List.append_nil]
    rfl
  | _ => rfl

theorem Part.pieces_operation (op : Operation) :
    (Part.operation op).toWire.pieces = .part (Part.operation op).toWire :: op.toWire.pieces := by
  rw [Part.toWire, Wire.Part.pieces, Wire.Part.piecesOf, Wire.Part.piecesOf, List.append_nil]
  rfl

theorem Part.pieces_parallel (parts : Pipeline) :
    (Part.parallel parts).toWire.pieces =
      .part (Part.parallel parts).toWire :: Wire.Pipeline.pieces (Pipeline.toWire parts) := by
  rw [Part.toWire, Wire.Part.pieces, Wire.Part.piecesOf, Wire.Part.piecesOf, List.append_nil]
  rfl

/-- A part has its own piece first, and then those of what is inside it. -/
theorem Part.pieces_fetchAfter (keys : List String) (before : Operation) (tag : Option Tag)
    (handler : Option Handler) :
    (Part.fetchAfter keys before tag handler).toWire.pieces =
      .part (Part.fetchAfter keys before tag handler).toWire :: before.toWire.pieces := by
  rw [Part.toWire, Wire.Part.pieces, Wire.Part.piecesOf, Wire.Part.piecesOf, List.append_nil]
  rfl

/-- The pieces of what is sent are those of its entries, each followed by those of its value. -/
theorem Config.forall_pieces_toWire {P : Wire.Piece → Prop} {config : Config} :
    (∀ x ∈ Wire.Entries.pieces (Config.toWire config), P x) ↔
      ∀ e ∈ config, P (.entry e.1 e.2.toWire) ∧ ∀ x ∈ e.2.toWire.pieces, P x := by
  induction config with
  | nil => simp [Config.toWire, Wire.Entries.pieces]
  | cons e rest ih =>
    obtain ⟨key, v⟩ := e
    rw [Config.toWire, Wire.Entries.pieces, List.forall_mem_cons, List.forall_mem_append, ih,
      List.forall_mem_cons, and_assoc]

namespace Wire

/-! ## What is accepted -/

mutual

/-- A wire pipeline can be decoded exactly if its pieces are sound. -/
theorem Pipeline.decodes_iff : ∀ w : List Part,
    (∃ parts, Pipeline.decode w = .ok parts) ↔ ∀ x ∈ Pipeline.pieces w, x.Sound
  | [] => by simp [Pipeline.decode, Pipeline.pieces]
  | p :: rest => by
    rw [Pipeline.pieces, List.forall_mem_append, ← p.decodes_iff, ← Pipeline.decodes_iff rest]
    simp only [Pipeline.decode, bind_eq_ok_iff, Except.ok.injEq]
    constructor
    · rintro ⟨_, q, hq, qs, hqs, -⟩
      exact ⟨⟨q, hq⟩, qs, hqs⟩
    · rintro ⟨⟨q, hq⟩, qs, hqs⟩
      exact ⟨_, q, hq, qs, hqs, rfl⟩

/-- A part is decoded if it has one shape, and that can be. -/
theorem Part.decodes_iff : ∀ p : Part, (∃ q, p.decode = .ok q) ↔ ∀ x ∈ p.pieces, x.Sound
  | ⟨[]⟩ => by simp [Part.decode, Part.pieces, Piece.Sound]
  | ⟨[s]⟩ => by simp [Part.decode, Part.pieces, Part.piecesOf, Piece.Sound, s.decodes_iff]
  | ⟨s :: t :: ss⟩ => by simp [Part.decode, Part.pieces, Piece.Sound]

theorem Shape.decodes_iff : ∀ s : Shape, (∃ q, s.decode = .ok q) ↔ ∀ x ∈ s.pieces, x.Sound
  | .operation op => by
    rw [Shape.pieces, ← op.decodes_iff]
    simp [Shape.decode, bind_eq_ok_iff]
  | .parallel parts => by
    rw [Shape.pieces, ← Pipeline.decodes_iff parts]
    simp [Shape.decode, bind_eq_ok_iff]
  | .fetch _ _ => by simp [Shape.decode, Shape.pieces]
  | .fetchAfter _ before _ => by
    rw [Shape.pieces, ← before.decodes_iff]
    simp [Shape.decode, bind_eq_ok_iff]

/-- An operation is decoded if it has a name and its entries can be. -/
theorem Operation.decodes_iff : ∀ op : Operation,
    (∃ q, op.decode = .ok q) ↔ ∀ x ∈ op.pieces, x.Sound
  | ⟨name, config⟩ => by
    rw [Operation.pieces, List.forall_mem_cons, ← Entries.decodes_iff [] config]
    simp only [Operation.decode, bind_eq_ok_iff, DecodeFault.ofRefusal_eq_ok_iff,
      MiningPipelines.Operation.make_eq_ok_iff, Piece.Sound]
    constructor
    · rintro ⟨_, c, hc, hname, -⟩
      exact ⟨hname, c, hc⟩
    · rintro ⟨hname, c, hc⟩
      exact ⟨_, c, hc, hname, rfl⟩

/-- Whatever is in the configuration already, as keys may occur again. -/
theorem Entries.decodes_iff (config : Config) : ∀ entries : List (String × Value),
    (∃ c, Entries.decodeOnto config entries = .ok c) ↔ ∀ x ∈ Entries.pieces entries, x.Sound
  | [] => by simp [Entries.decodeOnto, Entries.pieces]
  | (k, v) :: rest => by
    rw [Entries.pieces, List.forall_mem_cons, List.forall_mem_append]
    simp only [Entries.decodeOnto, bind_eq_ok_iff, DecodeFault.ofRefusal_eq_ok_iff,
      Config.append_eq_ok_iff, Config.Admits, Piece.Sound]
    constructor
    · rintro ⟨c, u, hu, next, ⟨⟨hkey, hfloat⟩, -⟩, hrest⟩
      obtain ⟨hslots, hpieces⟩ := v.decodes_iff.1 ⟨u, hu⟩
      have hfloat := (Value.transportable_of_decode hu).1 hfloat
      exact ⟨⟨hkey, hslots, hfloat⟩, hpieces, (Entries.decodes_iff next rest).1 ⟨c, hrest⟩⟩
    · rintro ⟨⟨hkey, hslots, hfloat⟩, hpieces, hrest⟩
      obtain ⟨u, hu⟩ := v.decodes_iff.2 ⟨hslots, hpieces⟩
      have hfloat := (Value.transportable_of_decode hu).2 hfloat
      obtain ⟨c, hc⟩ := (Entries.decodes_iff (List.append config [(k, u)]) rest).2 hrest
      exact ⟨c, u, hu, _, ⟨⟨hkey, hfloat⟩, rfl⟩, hc⟩

/-- A value is decoded if it has one payload, and that can be. -/
theorem Value.decodes_iff : ∀ v : Value,
    (∃ u, v.decode = .ok u) ↔ v.slots.length = 1 ∧ ∀ x ∈ v.pieces, x.Sound
  | ⟨[]⟩ => by simp [Value.decode]
  | ⟨[p]⟩ => by simp [Value.decode, Value.pieces, Value.piecesOf, p.decodes_iff]
  | ⟨p :: q :: ps⟩ => by simp [Value.decode]

/-- Only a pipeline has something in it that can be refused. -/
theorem Payload.decodes_iff : ∀ p : Payload,
    (∃ u, p.decode = .ok u) ↔ ∀ x ∈ p.pieces, x.Sound
  | .pipeline parts => by
    rw [Payload.pieces, ← Pipeline.decodes_iff parts]
    simp [Payload.decode, bind_eq_ok_iff]
  | .string _ | .uint32 _ | .bool _ | .float _ | .enum _ _ | .strings _ | .namesLog _
  | .hashesLog _ | .artifact _ _ => by simp [Payload.decode, Payload.pieces]

end

/-! ## What is kept -/

mutual

/-- A decoded pipeline is sent as it came. -/
theorem Pipeline.toWire_of_decode : ∀ (w : List Part) {parts : MiningPipelines.Pipeline},
    Pipeline.decode w = .ok parts → MiningPipelines.Pipeline.toWire parts = w
  | [], _, h => by
    obtain rfl := Except.ok.inj h
    rfl
  | p :: rest, _, h => by
    simp only [Pipeline.decode, bind_eq_ok_iff] at h
    obtain ⟨q, hq, qs, hqs, h⟩ := h
    obtain rfl := Except.ok.inj h
    rw [MiningPipelines.Pipeline.toWire, Part.toWire_of_decode p hq,
      Pipeline.toWire_of_decode rest hqs]

/-- A shape is sent as the shape that it was decoded from. -/
theorem Part.toWire_of_decode : ∀ (w : Part) {p : MiningPipelines.Part},
    w.decode = .ok p → p.toWire = w
  | ⟨[]⟩, _, h => by cases h
  | ⟨[s]⟩, _, h => by
    rw [Part.decode] at h
    exact Shape.toWire_of_decode s h
  | ⟨_ :: _ :: _⟩, _, h => by cases h

theorem Shape.toWire_of_decode : ∀ (s : Shape) {p : MiningPipelines.Part},
    s.decode = .ok p → p.toWire = ⟨[s]⟩
  | .operation op, _, h => by
    obtain ⟨q, hq, h⟩ := bind_eq_ok_iff.1 h
    obtain rfl := Except.ok.inj h
    rw [MiningPipelines.Part.toWire, Operation.toWire_of_decode op hq]
  | .parallel parts, _, h => by
    obtain ⟨q, hq, h⟩ := bind_eq_ok_iff.1 h
    obtain rfl := Except.ok.inj h
    rw [MiningPipelines.Part.toWire, Pipeline.toWire_of_decode parts hq]
  | .fetch _ _, _, h => by
    obtain rfl := Except.ok.inj h
    rfl
  | .fetchAfter _ before _, _, h => by
    obtain ⟨q, hq, h⟩ := bind_eq_ok_iff.1 h
    obtain rfl := Except.ok.inj h
    rw [MiningPipelines.Part.toWire, Operation.toWire_of_decode before hq]

theorem Operation.toWire_of_decode : ∀ (w : Operation) {op : MiningPipelines.Operation},
    w.decode = .ok op → op.toWire = w
  | ⟨name, config⟩, _, h => by
    simp only [Operation.decode, bind_eq_ok_iff, DecodeFault.ofRefusal_eq_ok_iff,
      MiningPipelines.Operation.make_eq_ok_iff] at h
    obtain ⟨c, hc, -, rfl⟩ := h
    rw [MiningPipelines.Operation.toWire, Entries.toWire_of_decodeOnto [] config hc]
    rfl

/-- Entries are sent behind those that were there before. -/
theorem Entries.toWire_of_decodeOnto (config : Config) :
    ∀ (entries : List (String × Value)) {c : Config}, Entries.decodeOnto config entries = .ok c →
      Config.toWire c = Config.toWire config ++ entries
  | [], _, h => by
    obtain rfl := Except.ok.inj h
    rw [List.append_nil]
  | (k, v) :: rest, _, h => by
    simp only [Entries.decodeOnto, bind_eq_ok_iff, DecodeFault.ofRefusal_eq_ok_iff,
      Config.append_eq_ok_iff] at h
    obtain ⟨u, hu, next, ⟨-, rfl⟩, h⟩ := h
    rw [Entries.toWire_of_decodeOnto _ rest h, Config.toWire_eq_map, Config.toWire_eq_map]
    simp [Value.toWire_of_decode v hu]

/-- A payload is sent in the slot that it was decoded from. -/
theorem Value.toWire_of_decode : ∀ (w : Value) {v : MiningPipelines.Value},
    w.decode = .ok v → v.toWire = w
  | ⟨[]⟩, _, h => by cases h
  | ⟨[p]⟩, _, h => by
    rw [Value.decode] at h
    exact Payload.toWire_of_decode p h
  | ⟨_ :: _ :: _⟩, _, h => by cases h

theorem Payload.toWire_of_decode : ∀ (p : Payload) {v : MiningPipelines.Value},
    p.decode = .ok v → v.toWire = ⟨[p]⟩
  | .pipeline parts, _, h => by
    obtain ⟨q, hq, h⟩ := bind_eq_ok_iff.1 h
    obtain rfl := Except.ok.inj h
    rw [MiningPipelines.Value.toWire, Pipeline.toWire_of_decode parts hq]
  | .string _, _, h | .uint32 _, _, h | .bool _, _, h | .float _, _, h | .enum _ _, _, h
  | .strings _, _, h | .namesLog _, _, h | .hashesLog _, _, h | .artifact _ _, _, h => by
    obtain rfl := Except.ok.inj h
    rfl

end

end Wire

end MiningPipelines
