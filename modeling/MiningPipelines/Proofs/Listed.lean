import Mathlib.Data.List.Nodup
import MiningPipelines.Catalogue.Assembly
import MiningPipelines.Catalogue.Schemas
import MiningPipelines.Proofs.Sending
import MiningPipelines.Proofs.Validation

/-!
# Parts assembled under a schema

Whatever builds a part for the engine does so in one of few ways : it configures the operation of
a schema under keys that the schema lists, and perhaps fetches one key behind it. Such a part is
listed (`Part.Listed`), and so are the parts inside it. The values need no condition, since each is
checked against its key as it is appended (`Assembly.operation_eq_ok_iff`).

Three tables that are written apart have to agree for this to be worth something : the schemas have
distinct names, and each has distinct keys that are known and hold no analysis result, for which the
binary protocol may have no place (`SchemaTable.builtin_sound`). Then a pipeline of listed parts is
valid, its entries pass the check of known keys, and it can be sent in binary
(`Pipeline.listed_valid`, `Pipeline.listed_known`, `Pipeline.listed_encodable`).
-/

namespace MiningPipelines

/-! ## The tables of the catalogue -/

namespace SchemaTable

/-- Schemas with distinct names are registered one behind the other. -/
theorem schemas_foldl_register : ∀ {schemas start : List Schema},
    ((start ++ schemas).map Schema.name).Nodup →
      (schemas.foldl register ⟨start⟩).schemas = start ++ schemas
  | [], start, _ => (List.append_nil start).symm
  | s :: rest, start, h => by
    have hfresh : start.filter (fun old => old.name != s.name) = start := by
      refine List.filter_eq_self.2 fun old hold => bne_iff_ne.2 fun hname => ?_
      rw [List.map_append, List.nodup_append'] at h
      exact h.2.2 (List.mem_map_of_mem hold) (hname ▸ List.mem_cons_self ..)
    have hassoc : start ++ s :: rest = start ++ [s] ++ rest := by simp
    rw [List.foldl_cons, register, hfresh, hassoc]
    exact schemas_foldl_register (hassoc ▸ h)

/-- A table of schemas with distinct names holds them all. -/
theorem schemas_ofList {schemas : List Schema} (h : (schemas.map Schema.name).Nodup) :
    (ofList schemas).schemas = schemas :=
  schemas_foldl_register h

theorem nodup_names : ((Schema.eventLogs ++ Schema.patterns ++ Schema.activities ++
    Schema.clustering ++ Schema.models ++ Schema.diagrams).map Schema.name).Nodup := by
  decide +kernel

theorem builtin_schemas : builtin.schemas = Schema.eventLogs ++ Schema.patterns ++
    Schema.activities ++ Schema.clustering ++ Schema.models ++ Schema.diagrams :=
  schemas_ofList nodup_names

/-- A built-in schema is found under its name. -/
theorem find?_builtin {s : Schema} (h : s ∈ builtin.schemas) : builtin.find? s.name = some s :=
  find?_of_nodup (builtin_schemas ▸ nodup_names) h

end SchemaTable

theorem KeyTable.nodup_builtin : (builtin.keys.map Key.name).Nodup := by
  decide +kernel

theorem KeyTable.find?_builtin {key : Key} (h : key ∈ builtin.keys) :
    builtin.find? key.name = some key :=
  find?_of_nodup nodup_builtin h

/-- The schema is in keeping with the tables of keys and kinds. -/
structure Schema.Sound (s : Schema) : Prop where
  nodup : (s.keys.map Key.name).Nodup
  known : ∀ key ∈ s.keys, key ∈ KeyTable.builtin.keys
  /-- No key holds an analysis result. -/
  plain : ∀ key ∈ s.keys, key.kind ∈ ValueKind.plain

/-- Checked by going through the whole table. -/
theorem SchemaTable.builtin_sound {s : Schema} (h : s ∈ builtin.schemas) : s.Sound := by
  have hall : ∀ s ∈ Schema.eventLogs ++ Schema.patterns ++ Schema.activities ++ Schema.clustering ++
      Schema.models ++ Schema.diagrams, (s.keys.map Key.name).Nodup ∧
      (∀ key ∈ s.keys, key ∈ KeyTable.builtin.keys) ∧
      ∀ key ∈ s.keys, key.kind ∈ ValueKind.plain := by
    decide +kernel
  rw [builtin_schemas] at h
  obtain ⟨hnodup, hknown, hplain⟩ := hall s h
  exact ⟨hnodup, hknown, hplain⟩

/-! ## What assembling accepts -/

namespace Assembly

/-- Entries are appended if each fits its key and can be carried. -/
theorem configureOnto_eq_ok_iff : ∀ {entries : List (Key × Value)} {start config : Config},
    configureOnto start entries = .ok config ↔
      (∀ e ∈ entries, e.1.check e.2 = .ok () ∧ Config.Admits (e.1.name, e.2)) ∧
      config = start ++ entries.map fun e => (e.1.name, e.2)
  | [], start, config => by
    rw [configureOnto, List.map_nil, List.append_nil, eq_comm (a := config)]
    exact ⟨fun h => ⟨List.forall_mem_nil _, Except.ok.inj h⟩, fun h => congrArg Except.ok h.2⟩
  | (key, v) :: rest, start, config => by
    rw [configureOnto, bind_eq_ok_iff, List.forall_mem_cons]
    simp only [Config.appendKey, bind_eq_ok_iff, Config.append_eq_ok_iff, configureOnto_eq_ok_iff]
    constructor
    · rintro ⟨_, ⟨_, hcheck, hadmits, rfl⟩, hrest, rfl⟩
      exact ⟨⟨⟨hcheck, hadmits⟩, hrest⟩, by simp⟩
    · rintro ⟨⟨⟨hcheck, hadmits⟩, hrest⟩, rfl⟩
      exact ⟨_, ⟨(), hcheck, hadmits, rfl⟩, hrest, by simp⟩

/-- An assembled operation has the name of its schema and the given entries, each of which fits
its key. -/
theorem operation_eq_ok_iff {s : Schema} {entries : List (Key × Value)} {op : Operation} :
    operation s entries = .ok op ↔
      (∀ e ∈ entries, e.1.check e.2 = .ok () ∧ Config.Admits (e.1.name, e.2)) ∧ s.name ≠ "" ∧
      op = ⟨s.name, entries.map fun e => (e.1.name, e.2)⟩ := by
  rw [operation, configure, bind_eq_ok_iff]
  simp only [configureOnto_eq_ok_iff, Operation.make_eq_ok_iff, List.nil_append]
  constructor
  · rintro ⟨_, ⟨hentries, rfl⟩, hname, rfl⟩
    exact ⟨hentries, hname, rfl⟩
  · rintro ⟨hentries, hname, rfl⟩
    exact ⟨_, ⟨hentries, rfl⟩, hname, rfl⟩

end Assembly

/-! ## Listed parts -/

mutual

/-- A part assembled under a schema, or a fetch, or parts of this kind side by side. -/
inductive Part.Listed : Part → Prop
  | operation {op : Operation} : op.Listed → (Part.operation op).Listed
  | parallel {parts : Pipeline} : (∀ p ∈ parts, p.Listed) → (Part.parallel parts).Listed
  | fetch (key : Key) (tag : Tag) (handler : Handler) : (Part.ofFetch key tag handler).Listed
  | fetchAfter {key : Key} {before : Operation} {tag : Tag} {handler : Handler} {p : Part} :
      before.Listed → Part.ofFetchAfter [key] before tag handler = .ok p → p.Listed

/-- An operation under the keys of its schema. -/
inductive Operation.Listed : Operation → Prop
  | make {s : Schema} {entries : List (Key × Value)} {op : Operation} :
      s ∈ SchemaTable.builtin.schemas → (∀ e ∈ entries, e.1 ∈ s.keys) →
      (∀ e ∈ entries, ∀ p ∈ e.2.parts, Part.Listed p) → Assembly.operation s entries = .ok op →
      op.Listed

end

namespace Operation.Listed

variable {op : Operation}

/-- The operation is one of a schema, and each entry fits the key of its name. -/
theorem exists_schema (h : op.Listed) : ∃ s ∈ SchemaTable.builtin.schemas, op.name = s.name ∧
    ∀ e ∈ op.config, ∃ key ∈ s.keys, e.1 = key.name ∧ key.check e.2 = .ok () := by
  obtain ⟨hs, hkeys, -, hop⟩ := h
  obtain ⟨hentries, -, rfl⟩ := Assembly.operation_eq_ok_iff.1 hop
  refine ⟨_, hs, rfl, List.forall_mem_map.2 fun e he => ?_⟩
  exact ⟨e.1, hkeys e he, rfl, (hentries e he).1⟩

/-- The pipelines among the entries of a listed operation are listed. -/
theorem config (h : op.Listed) : ∀ e ∈ op.config, ∀ p ∈ e.2.parts, p.Listed := by
  obtain ⟨-, -, hparts, hop⟩ := h
  obtain ⟨-, -, rfl⟩ := Assembly.operation_eq_ok_iff.1 hop
  exact List.forall_mem_map.2 hparts

/-- Every entry passes the check of known keys. -/
theorem known (h : op.Listed) : ∀ e ∈ op.config, KeyTable.builtin.check e.1 e.2 = .ok () := by
  obtain ⟨s, hs, -, hentries⟩ := h.exists_schema
  intro e he
  obtain ⟨key, hkey, hname, hcheck⟩ := hentries e he
  have hknown := (SchemaTable.builtin_sound hs).known key hkey
  rw [KeyTable.check, hname, KeyTable.find?_builtin hknown]
  exact hcheck

/-- No entry holds an analysis result. -/
theorem kind (h : op.Listed) : ∀ e ∈ op.config, e.2.kind ∈ ValueKind.plain := by
  obtain ⟨s, hs, -, hentries⟩ := h.exists_schema
  intro e he
  obtain ⟨key, hkey, -, hcheck⟩ := hentries e he
  rw [Key.check_eq_ok_iff.1 hcheck]
  exact (SchemaTable.builtin_sound hs).plain key hkey

/-- The operation passes its own check. -/
theorem checkOwn (h : op.Listed) : op.checkOwn .builtin = .ok () := by
  obtain ⟨s, hs, hname, hentries⟩ := h.exists_schema
  refine checkOwn_eq_ok_iff.2 ⟨s, hname ▸ SchemaTable.find?_builtin hs, fun e he => ?_⟩
  obtain ⟨key, hkey, hkeyname, hcheck⟩ := hentries e he
  have hkind : key.kind = e.2.kind := (Key.check_eq_ok_iff.1 hcheck).symm
  exact (Schema.admits_iff_of_nodup (SchemaTable.builtin_sound hs).nodup).2
    ⟨key, hkey, hkeyname.symm, hkind⟩

/-- The operation has a binary form, whatever is in its pipelines. -/
theorem encodable (h : op.Listed) : ∀ x ∈ op.ownPieces, x.Encodable := by
  refine List.forall_mem_cons.2 ⟨Wire.Piece.encodable_operation _, ?_⟩
  refine List.forall_mem_map.2 fun e he => Wire.Piece.encodable_entry.2 ?_
  have hplain := h.kind e he
  cases hv : e.2 with
  | artifact kind payload => simp [hv, Value.kind, ValueKind.plain] at hplain
  | _ => exact ⟨rfl, List.forall_mem_singleton.2 trivial⟩

end Operation.Listed

namespace Part.Listed

variable {p : Part}

theorem operation? (h : p.Listed) : ∀ op, p.operation? = some op → op.Listed := by
  intro op hop
  cases h with
  | operation h =>
    obtain rfl := Option.some.inj hop
    exact h
  | parallel _ | fetch _ _ _ => cases hop
  | fetchAfter h hp =>
    rw [Part.eq_of_ofFetchAfter hp] at hop
    obtain rfl := Option.some.inj hop
    exact h

/-- The parts inside a listed part are listed. -/
theorem branches (h : p.Listed) : ∀ parts ∈ p.branches, ∀ q ∈ parts, q.Listed := by
  cases h with
  | operation h => exact List.forall_mem_map.2 h.config
  | parallel h => exact List.forall_mem_singleton.2 h
  | fetch _ _ _ => exact List.forall_mem_nil _
  | fetchAfter h hp =>
    rw [Part.eq_of_ofFetchAfter hp]
    exact List.forall_mem_map.2 h.config

/-- The part has a binary form, whatever is inside it. -/
theorem encodable (h : p.Listed) : ∀ x ∈ p.ownPieces, x.Encodable := by
  have hshape : (Wire.Piece.part p.toWire).Encodable := by
    cases h with
    | operation _ | parallel _ | fetch _ _ _ =>
      exact Wire.Piece.encodable_part.2 ⟨rfl, List.forall_mem_singleton.2 trivial⟩
    | fetchAfter _ hp =>
      rw [Part.eq_of_ofFetchAfter hp]
      exact Wire.Piece.encodable_part.2 ⟨rfl, List.forall_mem_singleton.2 rfl⟩
  refine List.forall_mem_cons.2 ⟨hshape, ?_⟩
  cases hop : p.operation? with
  | none => exact List.forall_mem_nil _
  | some op => exact (h.operation? op hop).encodable

end Part.Listed

/-! ## Listed pipelines -/

namespace Pipeline

variable {parts : Pipeline} (h : ∀ p ∈ parts, p.Listed)

include h

/-- A pipeline of listed parts has listed parts only, at any depth. -/
theorem everywhere_listed : Everywhere Part.Listed parts :=
  everywhere_of_branches (fun _ hp => hp.branches) h

/-- The built-in schemas accept listed parts. -/
theorem listed_valid : validate .builtin parts = .ok () :=
  (validate_eq_ok_iff .builtin parts).2 <|
    (everywhere_listed h).imp fun _ hp op hop => (hp.operation? op hop).checkOwn

/-- The built-in keys accept each entry of a listed part. -/
theorem listed_known : Everywhere (fun p => ∀ op, p.operation? = some op →
    ∀ e ∈ op.config, KeyTable.builtin.check e.1 e.2 = .ok ()) parts :=
  (everywhere_listed h).imp fun _ hp op hop => (hp.operation? op hop).known

/-- The binary protocol has a place for whatever a listed part holds. -/
theorem listed_encodable : ∀ x ∈ Wire.Pipeline.pieces (toWire parts), x.Encodable :=
  (forall_pieces_iff parts).2 <| (everywhere_listed h).imp fun _ hp => hp.encodable

end Pipeline

end MiningPipelines
