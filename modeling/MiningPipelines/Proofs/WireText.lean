import MiningPipelines.Proofs.Artifacts
import MiningPipelines.Proofs.JsonValue
import MiningPipelines.Proofs.SlotReaders

/-!
# Wire messages in JSON text

`Wire.ReadsAs` ties a document to what a reader makes of its text, and goes through the readers of
values, parts, operations and entries. Text has no more than one form for a part or a value, and
numbers are read as they were (`Wire.Piece.Carried`). Null stands for no slot at all : a message
comes back without the analysis results that are null (`Wire.Value.readsAs`), so the messages that
come back whole are those without them (`Wire.Piece.Writable`). A document that nests too deep is
not read at all.
-/

namespace MiningPipelines

/-- The text of the number is read as the number. -/
def Single.Rereads (x : Single) : Prop :=
  ((Document.numberOf? x.json).map Document.number).bind Document.single? = some x

instance (x : Single) : Decidable x.Rereads :=
  inferInstanceAs (Decidable (_ = some x))

/-- The text of a float that is reread stands for a number, and that for the float. -/
theorem Single.Rereads.exists_number {x : Single} (h : x.Rereads) :
    ∃ n, Document.numberOf? x.json = some n ∧ (Document.number n).single? = some x := by
  obtain ⟨d, hd, hx⟩ := Option.bind_eq_some_iff.1 h
  obtain ⟨n, hn, rfl⟩ := Option.map_eq_some_iff.1 hd
  exact ⟨n, hn, hx⟩

/-! ## Records -/

/-- An object that gives known fields once each is the record of these fields. -/
@[simp]
theorem Document.record?_object {names : List String} {fields : List (String × Document)}
    (hknown : ∀ f ∈ fields, f.1 ∈ names) (hnodup : (fields.map Prod.fst).Nodup) :
    record? names (.object fields) = some ⟨true, fields⟩ := by
  have hfilter : fields.filter (fun f => names.contains f.1) = fields :=
    List.filter_eq_self.2 fun f hf => List.contains_iff_mem.2 (hknown f hf)
  rw [record?, hfilter, if_pos hnodup]

namespace Record

variable {α : Type} {named : Bool} {name k : String} {d : Document}
  {rest : List (String × Document)} {read : Document → Option α}

@[simp]
theorem find?_nil : find? ⟨named, []⟩ name = none := rfl

/-- A field is looked up at the front first. -/
@[simp]
theorem find?_cons :
    find? ⟨named, (k, d) :: rest⟩ name = if k = name then some d else find? ⟨named, rest⟩ name := by
  by_cases hk : k = name <;> simp [find?, hk]

@[simp]
theorem slot_nil : slot ⟨named, []⟩ name read = some none := rfl

/-- A slot is read from the field in front if that has its name. -/
@[simp]
theorem slot_cons_self (hd : d ≠ .null) :
    slot ⟨named, (name, d) :: rest⟩ name read = (read d).map some := by
  rw [slot, find?_cons, if_pos rfl]
  split
  · contradiction
  · simp_all
  · simp_all

/-- A slot that is null is unset, and so are those that are absent. -/
@[simp]
theorem slot_null : slot ⟨named, [(k, .null)]⟩ name read = some none := by
  by_cases hk : k = name <;> simp [slot, hk]

@[simp]
theorem slot_cons_of_ne (hk : k ≠ name) :
    slot ⟨named, (k, d) :: rest⟩ name read = slot ⟨named, rest⟩ name read := by
  rw [slot, slot, find?_cons, if_neg hk]

end Record

namespace Wire

/-! ## What text can carry -/

/-- Text carries the payload. -/
def Payload.Writable : Payload → Prop
  | .float x => x.Rereads
  | .artifact _ j => j ≠ .null ∧ j.Writable
  | _ => True

def Value.Writable (v : Value) : Prop := v.slots.length ≤ 1 ∧ ∀ p ∈ v.slots, p.Writable

/-- Text carries the piece, whatever is inside it. -/
def Piece.Writable : Piece → Prop
  | .part p => p.shapes.length ≤ 1
  | .operation _ => True
  | .entry _ v => v.Writable

/-- Text carries the payload, unless it is null. -/
def Payload.Carried : Payload → Prop
  | .float x => x.Rereads
  | .artifact _ j => j.Writable
  | _ => True

def Value.Carried (v : Value) : Prop := v.slots.length ≤ 1 ∧ ∀ p ∈ v.slots, p.Carried

/-- Text carries the piece, whatever is inside it, but for a payload that is null. -/
def Piece.Carried : Piece → Prop
  | .part p => p.shapes.length ≤ 1
  | .operation _ => True
  | .entry _ v => v.Carried

/-- An analysis result, unless it is null. -/
def present (_ : ArtifactKind) : Json → Option Json
  | .null => none
  | j => some j

/-- Results other than null are present as they are. -/
theorem present_of_ne_null (kind : ArtifactKind) {j : Json} (h : j ≠ .null) :
    present kind j = some j := by
  cases j with
  | null => exact absurd rfl h
  | _ => rfl

theorem eq_of_present {kind : ArtifactKind} {i j : Json} (h : present kind j = some i) : i = j := by
  cases j with
  | null => cases h
  | _ => exact (Option.some.inj h).symm

/-- What comes back as it was comes back as something. -/
theorem Payload.Writable.carried {p : Payload} (h : p.Writable) : p.Carried := by
  cases p with
  | artifact kind j => exact h.2
  | float x => exact h
  | _ => trivial

theorem Value.Writable.carried {v : Value} (h : v.Writable) : v.Carried :=
  ⟨h.1, fun p hp => (h.2 p hp).carried⟩

theorem Piece.Writable.carried {x : Piece} (h : x.Writable) : x.Carried := by
  cases x with
  | entry key v => exact Value.Writable.carried h
  | part p => exact h
  | operation op => trivial

/-- No result is null in what text carries whole. -/
theorem Entries.revise_present {entries : Entries}
    (h : ∀ x ∈ Entries.pieces entries, x.Writable) : Entries.revise present entries = entries := by
  refine Entries.revise_eq_self fun a ha => ?_
  obtain ⟨key, v, hv, hslot⟩ := Entries.shows_of_mem ha
  exact present_of_ne_null _ ((h _ hv).2 _ hslot).1

/-- The text of the document is read as `a` if the reader goes deep enough, and not at all
otherwise. -/
structure ReadsAs {α : Type} (read : Nat → Document → Option α) (d : Document) (a : α) : Prop where
  legible : d.Legible
  read : ∀ {n levels : Nat}, levels ≤ n →
    read n (d.asRead.cut levels) = if d.depth ≤ levels then some a else none

structure ItemsReadAs {α : Type} (read : Nat → Document → Option α) (ds : List Document)
    (as : List α) : Prop where
  legible : Document.LegibleItems ds
  read : ∀ {n levels : Nat}, levels ≤ n →
    (Document.cutItems (Document.asReadItems ds) levels).mapM (read n) =
      if Document.depthItems ds ≤ levels then some as else none

namespace ItemsReadAs

variable {α : Type} {read : Nat → Document → Option α}

theorem nil : ItemsReadAs read [] [] := ⟨trivial, fun _ => (if_pos (Nat.zero_le _)).symm⟩

/-- Items are read in order, and any of them can refuse the list. -/
theorem cons {d : Document} {ds : List Document} {a : α} {as : List α} (hd : ReadsAs read d a)
    (hds : ItemsReadAs read ds as) : ItemsReadAs read (d :: ds) (a :: as) where
  legible := ⟨hd.legible, hds.legible⟩
  read {n levels} hn := by
    rw [Document.asReadItems, Document.cutItems, List.mapM_cons, hd.read hn, hds.read hn,
      Document.depthItems]
    by_cases hd : d.depth ≤ levels <;> by_cases hds : Document.depthItems ds ≤ levels <;>
      simp [hd, hds]

/-- Items that are written alike are read alike. -/
theorem map {write : α → Document} (h : ∀ a, ReadsAs read (write a) a) (as : List α) :
    ItemsReadAs read (as.map write) as := by
  induction as with
  | nil => exact nil
  | cons a as ih => exact cons (h a) ih

/-- Without a limit on the nesting the items are read. -/
theorem read_of_depth_le {ds : List Document} {as : List α} (h : ItemsReadAs read ds as) {n : Nat}
    (hn : Document.depthItems ds ≤ n) : (Document.asReadItems ds).mapM (read n) = some as := by
  have hread := h.read (Nat.le_refl n)
  rwa [if_pos hn, Document.cutItems_of_depth_le] at hread
  rwa [Document.depth_asReadItems]

end ItemsReadAs

/-- The reader makes nothing of what it cannot read. -/
def Strict {α : Type} (read : Nat → Document → Option α) : Prop :=
  ∀ n, read n .unreadable = none

/-- An object is entered, and its fields are one level deeper. -/
theorem ReadsAs.entered {α : Type} {read : Nat → Document → Option α}
    {fields : List (String × Document)} {a : α} (hlegible : Document.LegibleFields fields)
    (hstrict : Strict read)
    (hread : ∀ n levels, levels < n →
      read n (.object (Document.cutFields (Document.asReadFields fields) levels)) =
        if Document.depthFields fields ≤ levels then some a else none) :
    ReadsAs read (.object fields) a where
  legible := hlegible
  read {n levels} hn := by
    cases levels with
    | zero => exact hstrict n
    | succ levels =>
      rw [Document.asRead, Document.cut, if_neg (Nat.succ_ne_zero levels), Nat.add_sub_cancel,
        hread n levels hn, Document.depth]
      simp only [Nat.add_le_add_iff_right]

/-- A record is entered with one call of its reader. -/
theorem ReadsAs.object {α : Type} {read : Nat → Document → Option α}
    {fields : List (String × Document)} {a : α} (hlegible : Document.LegibleFields fields)
    (hstrict : Strict read)
    (hread : ∀ n levels, levels ≤ n →
      read (n + 1) (.object (Document.cutFields (Document.asReadFields fields) levels)) =
        if Document.depthFields fields ≤ levels then some a else none) :
    ReadsAs read (.object fields) a :=
  .entered hlegible hstrict fun
    | n + 1, levels, hn => hread n levels (Nat.le_of_lt_succ hn)

/-- What is read can be passed on. -/
theorem ReadsAs.map {α β : Type} {read : Nat → Document → Option α} {d : Document} {a : α}
    (h : ReadsAs read d a) (f : α → β) : ReadsAs (fun n d => (read n d).map f) d (f a) where
  legible := h.legible
  read {n levels} hn := by
    simp only [h.read hn]
    split <;> rfl

/-- What does not nest is read or not, whatever the levels. -/
theorem ReadsAs.flat {α : Type} {read : Document → Option α} {d : Document} {a : α}
    (hlegible : d.Legible) (hdepth : d.depth = 0) (hread : read d.asRead = some a) :
    ReadsAs (fun _ => read) d a where
  legible := hlegible
  read {n levels} _ := by
    have hlevels : d.depth ≤ levels := hdepth ▸ Nat.zero_le levels
    have hcut : d.asRead.cut levels = d.asRead :=
      Document.cut_of_depth_le (Document.depth_asRead d ▸ hlevels)
    rw [hcut, if_pos hlevels, hread]

/-- No text of a document other than null is read as null. -/
theorem asRead_ne_null {d : Document} (h : d ≠ .null) : d.asRead ≠ .null := by
  cases d with
  | single x => cases hx : Document.numberOf? x.json <;> simp [Document.asRead, hx]
  | null => exact absurd rfl h
  | _ => simp [Document.asRead]

/-- What is cut off is unreadable, which is not null. -/
theorem cut_ne_null {d : Document} (h : d ≠ .null) (levels : Nat) : d.cut levels ≠ .null := by
  cases d with
  | null => exact absurd rfl h
  | array items | object fields =>
    rw [Document.cut]
    split <;> simp
  | _ => simp [Document.cut]

/-- Only null reads as null. -/
theorem cut_asRead_ne_null {d : Document} (h : d ≠ .null) (levels : Nat) :
    d.asRead.cut levels ≠ .null :=
  cut_ne_null (asRead_ne_null h) levels

@[simp]
theorem oneField_ne_null (name : String) (d : Document) : oneField name d ≠ .null := by
  simp [oneField]

@[simp]
theorem asRead_oneField (name : String) (d : Document) :
    (oneField name d).asRead = oneField name d.asRead := rfl

/-- A record of one field is read for the field. -/
@[simp]
theorem readOneField_oneField {α : Type} (name : String) (read : Document → Option α)
    (d : Document) : readOneField name read (oneField name d) = read d := by
  simp [readOneField, oneField, Record.required]

/-- A record of one list is read for the list. -/
@[simp]
theorem readOneList_oneField {α : Type} (name : String) (read : Document → Option α)
    (d : Document) : readOneList name read (oneField name d) = Document.list? read d := by
  simp [readOneList, oneField, Record.orElse]

/-- The record itself is one level. -/
theorem depth_oneField (name : String) (d : Document) : (oneField name d).depth = d.depth + 1 := by
  rw [oneField, Document.depth, Document.depthFields, Document.depthFields, Nat.max_zero]

@[simp]
theorem cut_oneField_succ (name : String) (d : Document) (levels : Nat) :
    (oneField name d).cut (levels + 1) = oneField name (d.cut levels) := rfl

/-- An array is entered, and its items are read one level deeper. -/
theorem ItemsReadAs.read_array {α : Type} {read : Nat → Document → Option α} {ds : List Document}
    {as : List α} (h : ItemsReadAs read ds as) {n levels : Nat} (hn : levels ≤ n + 1) :
    Document.list? (read n) ((Document.array ds).asRead.cut levels) =
      if (Document.array ds).depth ≤ levels then some as else none := by
  cases levels with
  | zero => rfl
  | succ levels =>
    rw [Document.asRead, Document.cut, if_neg (Nat.succ_ne_zero levels), Nat.add_sub_cancel,
      Document.list?, h.read (Nat.le_of_succ_le_succ hn), Document.depth]
    simp only [Nat.add_le_add_iff_right]

/-- A record with one list is read with its items, two levels deeper. -/
theorem ItemsReadAs.read_list {α : Type} {read : Nat → Document → Option α} {ds : List Document}
    {as : List α} (h : ItemsReadAs read ds as) (name : String) {n levels : Nat}
    (hn : levels ≤ n + 2) :
    readOneList name (read n) ((oneField name (.array ds)).asRead.cut levels) =
      if (oneField name (.array ds)).depth ≤ levels then some as else none := by
  rw [asRead_oneField, depth_oneField]
  cases levels with
  | zero => rfl
  | succ levels =>
    rw [cut_oneField_succ, readOneList_oneField, h.read_array (Nat.le_of_succ_le_succ hn)]
    simp only [Nat.add_le_add_iff_right]

/-- A record of one list is read for its items, with one level less for them. -/
theorem ReadsAs.list {α : Type} {read : Nat → Document → Option α} {ds : List Document}
    {as : List α} (h : ItemsReadAs read ds as) (name : String) :
    ReadsAs (fun n => readOneList name (read n)) (oneField name (.array ds)) as where
  legible := ⟨h.legible, trivial⟩
  read hn := h.read_list name (Nat.le_add_right_of_le hn)

/-- A record with one field is read with the field. -/
theorem ReadsAs.field {α : Type} {read : Nat → Document → Option α} {d : Document} {a : α}
    (h : ReadsAs read d a) (name : String) :
    ReadsAs (fun n => readOneField name (read n)) (oneField name d) a where
  legible := ⟨h.legible, trivial⟩
  read {n levels} hn := by
    rw [asRead_oneField, depth_oneField]
    cases levels with
    | zero => rfl
    | succ levels =>
      rw [cut_oneField_succ, readOneField_oneField, h.read (Nat.le_of_succ_le hn)]
      simp only [Nat.add_le_add_iff_right]

theorem readsAs_text (s : String) : ReadsAs (fun _ => Document.text?) (.text s) s :=
  .flat trivial rfl rfl

theorem readsAs_bool (b : Bool) : ReadsAs (fun _ => Document.bool?) (.bool b) b :=
  .flat trivial rfl rfl

theorem readsAs_natural (n : UInt64) :
    ReadsAs (fun _ => Document.uint64?) (.number (.natural n)) n :=
  .flat (Document.numberOf?_natural n) rfl rfl

theorem readsAs_key (key : String) : ReadsAs (fun _ => readKey) (keyDocument key) key :=
  .field (readsAs_text key) "name"

theorem readsAs_tag (tag : Tag) : ReadsAs (fun _ => readTag) (oneField "uuid" (.text tag)) tag :=
  .field (readsAs_text tag) "uuid"

/-- Texts need no levels of their own. -/
theorem readsAs_texts (items : List String) (name : String) :
    ReadsAs (fun _ => readOneList name Document.text?) (oneField name (textsDocument items))
      items :=
  .list (.map readsAs_text items) name

/-- A log is a list of traces, each a record of its events. -/
theorem readsAs_namesLog (traces : NamesLog) :
    ReadsAs (fun _ => readNamesLog) (namesLogDocument traces) traces :=
  .list (.map (fun trace => readsAs_texts trace "events") traces) "traces"

theorem readsAs_hashesLog (traces : HashesLog) :
    ReadsAs (fun _ => readHashesLog) (hashesLogDocument traces) traces :=
  .list (.map (fun trace => .list (.map readsAs_natural trace) "events") traces) "traces"

/-- A number of 32 bits is read back from the 64 that it is written with. -/
theorem uint32?_toUInt64 (n : UInt32) :
    (Document.number (.natural n.toUInt64)).uint32? = some n := by
  simp [Document.uint32?, Document.uint64?, UInt32.toNat_lt_size n]

theorem readsAs_uint32 (n : UInt32) :
    ReadsAs (fun _ => Document.uint32?) (.number (.natural n.toUInt64)) n :=
  .flat (Document.numberOf?_natural _) rfl (uint32?_toUInt64 n)

theorem readsAs_enum (enumType variant : String) :
    ReadsAs (fun _ => readEnum) (.object [("enumType", .text enumType), ("value", .text variant)])
      (enumType, variant) where
  legible := ⟨trivial, trivial, trivial⟩
  read {n levels} _ := by
    cases levels with
    | zero => rfl
    | succ levels => exact (if_pos (Nat.succ_le_succ (Nat.zero_le levels))).symm

/-- A result is read for what its document stands for. -/
theorem readsAs_json {j : Json} (h : j.Writable) :
    ReadsAs (fun _ => Document.toJson?) j.toDocument j where
  legible := h.legible
  read {n levels} _ := by
    rw [Json.asRead_toDocument, Document.toJson?_cut, Json.toJson?_toDocument h.canonical]

/-- A float is read through the number that its text stands for. -/
theorem readsAs_single {x : Single} (h : x.Rereads) :
    ReadsAs (fun _ => Document.single?) (.single x) x := by
  obtain ⟨n, hn, hread⟩ := h.exists_number
  refine .flat (Option.isSome_iff_exists.2 ⟨n, hn⟩) rfl ?_
  rw [Document.asRead, hn]
  exact hread

/-! ## Slots -/

/-- The reader of the slot that holds the payload, given how to read a pipeline. -/
def Payload.reader (readPipeline : Document → Option Pipeline) (d : Document) :
    Payload → Option Payload
  | .string _ => d.text?.map .string
  | .uint32 _ => d.uint32?.map .uint32
  | .bool _ => d.bool?.map .bool
  | .float _ => d.single?.map .float
  | .enum _ _ => (readEnum d).map fun e => .enum e.1 e.2
  | .strings _ => (readOneList "strings" Document.text? d).map Payload.strings
  | .namesLog _ => (readNamesLog d).map Payload.namesLog
  | .hashesLog _ => (readHashesLog d).map Payload.hashesLog
  | .pipeline _ => (readPipeline d).map Payload.pipeline
  | .artifact kind _ => d.toJson?.map (.artifact kind)

/-- The one slot of a record is read, and the other slots are unset. -/
theorem readSlots_one (readPipeline : Document → Option Pipeline) (p : Payload) {d : Document}
    (hd : d ≠ .null) :
    readSlots readPipeline ⟨true, [(p.slot, d)]⟩ =
      (p.reader readPipeline d).map fun q => [q] := by
  cases h : p.reader readPipeline d with
  | none =>
    cases p <;> simp only [Payload.reader, Option.map_eq_none_iff] at h
    case artifact kind j =>
      cases kind <;> simp [readSlots, Payload.slot, ArtifactKind.all, ArtifactKind.slot, hd, h]
    all_goals simp [readSlots, Payload.slot, ArtifactKind.all, ArtifactKind.slot, hd, h]
  | some q =>
    cases p <;> simp only [Payload.reader, Option.map_eq_some_iff] at h
    case artifact kind j =>
      obtain ⟨i, hi, rfl⟩ := h
      cases kind <;> simp [readSlots, Payload.slot, ArtifactKind.all, ArtifactKind.slot, hd, hi]
    all_goals
      obtain ⟨a, ha, rfl⟩ := h
      simp [readSlots, Payload.slot, ArtifactKind.all, ArtifactKind.slot, hd, ha]

/-- A value with a null in a slot is read as one without payload. -/
theorem readSlots_null (readPipeline : Document → Option Pipeline) (name : String) :
    readSlots readPipeline ⟨true, [(name, .null)]⟩ = some [] := by
  simp [readSlots, ArtifactKind.all]

/-- Only a result that is null is written as null. -/
theorem Payload.toDocument_ne_null {p q : Payload} (h : p.revise present = some q) :
    p.toDocument ≠ .null := by
  cases p with
  | artifact kind j =>
    cases j with
    | null => cases h
    | _ => simp [Payload.toDocument, Json.toDocument]
  | _ => simp [Payload.toDocument, oneField, namesLogDocument, hashesLogDocument]

/-- A result that does not come back was written as null. -/
theorem Payload.toDocument_of_revise {p : Payload} (h : p.revise present = none) :
    p.toDocument = .null := by
  cases p with
  | artifact kind j =>
    cases j with
    | null => rfl
    | _ => cases h
  | _ => cases h

theorem Payload.slot_mem_valueSlots (p : Payload) : p.slot ∈ valueSlots := by
  cases p with
  | artifact kind j => cases kind <;> simp [valueSlots, Payload.slot, ArtifactKind.all]
  | _ => simp [valueSlots, Payload.slot]

/-! ## Objects -/

/-- Without fuel nothing is read. -/
theorem strict_readValue : Strict readValue := fun n => by cases n <;> rfl

theorem strict_readPart : Strict readPart := fun n => by cases n <;> rfl

theorem strict_readOperation : Strict readOperation := fun n => by cases n <;> rfl

theorem strict_readEntry : Strict readEntry := fun n => by cases n <;> rfl

theorem readsAs_noSlot : ReadsAs readValue (Value.toDocument ⟨[]⟩) ⟨[]⟩ :=
  .object trivial strict_readValue fun _ levels _ => (if_pos (Nat.zero_le levels)).symm

/-- One known slot is a record of that slot. -/
theorem record?_slot {name : String} (h : name ∈ valueSlots) (d : Document) :
    Document.record? valueSlots (.object [(name, d)]) = some ⟨true, [(name, d)]⟩ :=
  Document.record?_object (List.forall_mem_singleton.2 h) (List.nodup_singleton _)

/-- A slot that is null reads as no slot. -/
theorem readsAs_nullSlot {name : String} (h : name ∈ valueSlots) :
    ReadsAs readValue (.object [(name, .null)]) ⟨[]⟩ := by
  refine .object ⟨trivial, trivial⟩ strict_readValue fun n levels _ => ?_
  simp only [Document.asReadFields, Document.asRead, Document.cutFields, Document.cut,
    readValue_succ, record?_slot h, readSlots_null, Option.bind_eq_bind, Option.bind_some]
  exact (if_pos (Nat.zero_le levels)).symm

/-- A value with one payload is read for what the payload is read for. -/
theorem readsAs_slot {p q : Payload} (hq : p.revise present = some q)
    (h : ReadsAs (fun n d => p.reader (readPipeline n) d) p.toDocument q) :
    ReadsAs readValue (Value.toDocument ⟨[p]⟩) ⟨[q]⟩ := by
  refine .object ⟨h.legible, trivial⟩ strict_readValue fun n levels hn => ?_
  have hslots := readSlots_one (readPipeline n) p
    (cut_asRead_ne_null (Payload.toDocument_ne_null hq) levels)
  simp only [Value.slotFields, Document.asReadFields, Document.cutFields, readValue_succ,
    record?_slot p.slot_mem_valueSlots, hslots, h.read hn, Option.bind_eq_bind, Option.bind_some,
    Document.depthFields, Nat.max_zero]
  split <;> rfl

theorem readsAs_pipeline {parts back : Pipeline}
    (h : ItemsReadAs readPart (Pipeline.partDocuments parts) back) :
    ReadsAs readPipeline (Pipeline.toDocument parts) back where
  legible := ⟨h.legible, trivial⟩
  read {n levels} hn := by
    cases n with
    | zero =>
      obtain rfl := Nat.le_zero.1 hn
      rfl
    | succ n =>
      rw [readPipeline_succ]
      exact h.read_list "parts" (Nat.le_succ_of_le hn)

/-- The reader of the slot that holds the shape. -/
def Shape.reader (n : Nat) (d : Document) : Shape → Option Shape
  | .operation _ => (readOperation n d).map .operation
  | .parallel _ => (readOneList "pipelineParts" (readPart n) d).map .parallel
  | .fetch _ _ => readFetch d
  | .fetchAfter _ _ _ => readFetchAfter (readOperation n) d

/-- The one slot of a part is read, and the other slots are unset. -/
theorem readPart_one (n : Nat) (s : Shape) {d : Document} (hd : d ≠ .null) :
    readPart (n + 1) (.object [(s.slot, d)]) = (s.reader n d).map fun t => ⟨[t]⟩ := by
  have hrecord : Document.record? partSlots (.object [(s.slot, d)]) = some ⟨true, [(s.slot, d)]⟩ :=
    Document.record?_object (by cases s <;> simp [partSlots, Shape.slot]) (List.nodup_singleton _)
  have hone : ∀ (o : Option Shape) (f : Option Shape → Part), (∀ t, f (some t) = ⟨[t]⟩) →
      ((o.map some).bind fun q => some (f q)) = o.map fun t => ⟨[t]⟩ := fun o f hf => by
    cases o with
    | none => rfl
    | some t => exact congrArg some (hf t)
  cases s <;>
  · simp only [Shape.slot] at hrecord
    simp only [readPart_succ, Shape.slot, hrecord, Option.bind_eq_bind, Option.bind_some,
      Record.slot_cons_self hd, Record.slot_cons_of_ne, Record.slot_nil, Shape.reader, ne_eq,
      String.reduceEq, not_false_eq_true]
    refine hone _ _ fun t => ?_
    rfl

/-- A part without a shape is an empty object. -/
theorem readsAs_noShape : ReadsAs readPart (Part.toDocument ⟨[]⟩) ⟨[]⟩ :=
  .object trivial strict_readPart fun _ levels _ => (if_pos (Nat.zero_le levels)).symm

/-- Shapes are objects, so they are never taken for absent. -/
theorem Shape.toDocument_ne_null (s : Shape) : s.toDocument ≠ .null := by
  cases s with
  | operation op =>
    obtain ⟨name, config⟩ := op
    simp [Shape.toDocument, Operation.toDocument]
  | _ => simp [Shape.toDocument]

/-- A part with one shape is read for what the shape is read for. -/
theorem readsAs_shape {s t : Shape} (h : ReadsAs (fun n d => s.reader n d) s.toDocument t) :
    ReadsAs readPart (Part.toDocument ⟨[s]⟩) ⟨[t]⟩ := by
  refine .object ⟨h.legible, trivial⟩ strict_readPart fun n levels hn => ?_
  have hnull := cut_asRead_ne_null s.toDocument_ne_null levels
  simp only [Part.shapeFields, Document.asReadFields, Document.cutFields, readPart_one n s hnull,
    h.read hn, Document.depthFields, Nat.max_zero]
  split <;> rfl

theorem legible_tagField (tag : Option Tag) : Document.LegibleFields (tagField tag) := by
  cases tag with
  | none => trivial
  | some tag => exact ⟨⟨trivial, trivial⟩, trivial⟩

/-- The tag behind the fields of other names is read. -/
theorem slot_tagField (tag : Option Tag) (levels : Nat) :
    Record.slot ⟨true, Document.cutFields (Document.asReadFields (tagField tag)) levels⟩
        "frontendPartUuid" readTag =
      if Document.depthFields (tagField tag) ≤ levels then some tag else none := by
  cases tag with
  | none => exact (if_pos (Nat.zero_le levels)).symm
  | some tag =>
    have hnull := cut_asRead_ne_null (oneField_ne_null "uuid" (.text tag)) levels
    rw [tagField, Document.asReadFields, Document.cutFields, Record.slot_cons_self hnull,
      (readsAs_tag tag).read (Nat.le_refl levels), Document.depthFields, Document.depthFields,
      Nat.max_zero]
    split <;> rfl

theorem readsAs_fetchShape (key : String) (tag : Option Tag) :
    ReadsAs (fun n d => (Shape.fetch key tag).reader n d) (Shape.fetch key tag).toDocument
      (.fetch key tag) := by
  refine .entered ⟨⟨trivial, trivial⟩, legible_tagField tag⟩ (fun _ => rfl) fun n levels _ => ?_
  have hkey := (readsAs_key key).read (Nat.le_refl levels)
  have htag := slot_tagField tag levels
  have hrecord : Document.record? ["key", "frontendPartUuid"] (.object
      (("key", (keyDocument key).asRead.cut levels) ::
        Document.cutFields (Document.asReadFields (tagField tag)) levels)) = some _ :=
    Document.record?_object (by cases tag <;> simp [tagField, Document.cutFields])
      (by cases tag <;> simp [tagField, Document.cutFields])
  simp only [Document.asReadFields, Document.cutFields, Document.depthFields, Shape.reader,
    readFetch, hrecord, Option.bind_eq_bind, Option.bind_some, Record.required, Record.find?_cons,
    if_true, hkey, Record.slot_cons_of_ne, htag, ne_eq, String.reduceEq, not_false_eq_true]
  by_cases hk : (keyDocument key).depth ≤ levels <;>
    by_cases ht : Document.depthFields (tagField tag) ≤ levels <;> simp [hk, ht]

/-- A fetch behind an operation is read with what the operation is read for. -/
theorem readsAs_fetchAfterShape (keys : List String) {before back : Operation} (tag : Option Tag)
    (h : ReadsAs readOperation before.toDocument back) :
    ReadsAs (fun n d => (Shape.fetchAfter keys before tag).reader n d)
      (Shape.fetchAfter keys before tag).toDocument (.fetchAfter keys back tag) := by
  have hkeys := ItemsReadAs.map readsAs_key keys
  refine .entered ⟨hkeys.legible, h.legible, legible_tagField tag⟩ (fun _ => rfl)
    fun n levels hn => ?_
  have hkeys := hkeys.read_array (Nat.le_succ levels)
  have hbefore := h.read (Nat.le_of_lt hn)
  have htag := slot_tagField tag levels
  have hrecord : Document.record? ["keys", "beforePipelinePart", "frontendPartUuid"] (.object
      (("keys", (Document.array (keys.map keyDocument)).asRead.cut levels) ::
        ("beforePipelinePart", before.toDocument.asRead.cut levels) ::
          Document.cutFields (Document.asReadFields (tagField tag)) levels)) = some _ :=
    Document.record?_object (by cases tag <;> simp [tagField, Document.cutFields])
      (by cases tag <;> simp [tagField, Document.cutFields])
  simp only [Document.asReadFields, Document.cutFields, Document.depthFields, Shape.reader,
    readFetchAfter, hrecord, Option.bind_eq_bind, Option.bind_some, Record.required,
    Record.find?_cons, if_true, if_false,
    hkeys, hbefore, Record.slot_cons_of_ne, htag, ne_eq, String.reduceEq, not_false_eq_true]
  by_cases hk : (Document.array (keys.map keyDocument)).depth ≤ levels <;>
    by_cases hb : before.toDocument.depth ≤ levels <;>
    by_cases ht : Document.depthFields (tagField tag) ≤ levels <;> simp [hk, hb, ht]

/-- An operation is read with what its entries are read for. -/
theorem readsAs_operation (name : String) {config back : Entries}
    (h : ItemsReadAs readEntry (Entries.entryDocuments config) back) :
    ReadsAs readOperation (Operation.toDocument ⟨name, config⟩) ⟨name, back⟩ := by
  have hconfig := ReadsAs.list h "configurationParameters"
  refine .object ⟨trivial, hconfig.legible, trivial⟩ strict_readOperation fun n levels hn => ?_
  have hread := hconfig.read hn
  rw [oneField] at hread
  simp only [Document.asReadFields, Document.cutFields, Document.depthFields, Nat.max_zero]
  generalize (Document.object [("configurationParameters",
    .array (Entries.entryDocuments config))]) = d at hread ⊢
  by_cases hd : d.depth ≤ levels <;>
    simp [readOperation_succ, Record.orElse, Record.required, Document.cut, Document.text?, hread,
      hd, Document.depth]

/-- An entry is read with what its value is read for. -/
theorem readsAs_entry (key : String) {v back : Value} (h : ReadsAs readValue v.toDocument back) :
    ReadsAs readEntry (.object [("key", keyDocument key), ("value", v.toDocument)])
      (key, back) := by
  refine .object ⟨⟨trivial, trivial⟩, h.legible, trivial⟩ strict_readEntry fun n levels hn => ?_
  have hkey := (readsAs_key key).read (Nat.le_refl levels)
  simp only [Document.asReadFields, Document.cutFields, Document.depthFields, Nat.max_zero]
  by_cases hk : (keyDocument key).depth ≤ levels <;> by_cases hv : v.toDocument.depth ≤ levels <;>
    simp [readEntry_succ, Record.required, hkey, h.read hn, hk, hv]

/-! ## Whole messages -/

mutual

/-- A value comes back from its text without the results that are null, if text carries its payload
and its pieces. -/
theorem Value.readsAs : ∀ {v : Value}, v.Carried → (∀ x ∈ v.pieces, x.Carried) →
    ReadsAs readValue v.toDocument (v.revise present)
  | ⟨[]⟩, _, _ => readsAs_noSlot
  | ⟨[p]⟩, ⟨_, hp⟩, h => by
    rw [Value.pieces, Value.piecesOf, Value.piecesOf, List.append_nil] at h
    cases hq : p.revise present with
    | none =>
      have hnone : Value.revise present ⟨[p]⟩ = ⟨[]⟩ := by
        rw [Value.revise, Value.reviseSlots, Value.reviseSlots, hq]
        rfl
      rw [hnone, Value.toDocument, Value.slotFields, Value.slotFields,
        Payload.toDocument_of_revise hq]
      exact readsAs_nullSlot p.slot_mem_valueSlots
    | some q =>
      rw [Value.revise_singleton hq]
      exact readsAs_slot hq (Payload.readsAs (hp p List.mem_cons_self) h hq)
  | ⟨_ :: _ :: _⟩, ⟨hlength, _⟩, _ => by simp at hlength

/-- A payload is read as its revision, if it has one. -/
theorem Payload.readsAs : ∀ {p q : Payload}, p.Carried → (∀ x ∈ p.pieces, x.Carried) →
    p.revise present = some q → ReadsAs (fun n d => p.reader (readPipeline n) d) p.toDocument q
  | .string s, _, _, _, rfl => (readsAs_text s).map Payload.string
  | .uint32 n, _, _, _, rfl => (readsAs_uint32 n).map Payload.uint32
  | .bool b, _, _, _, rfl => (readsAs_bool b).map Payload.bool
  | .float _, _, hx, _, rfl => (readsAs_single hx).map Payload.float
  | .enum enumType variant, _, _, _, rfl =>
    (readsAs_enum enumType variant).map fun e => Payload.enum e.1 e.2
  | .strings items, _, _, _, rfl => (readsAs_texts items "strings").map Payload.strings
  | .namesLog traces, _, _, _, rfl => (readsAs_namesLog traces).map Payload.namesLog
  | .hashesLog traces, _, _, _, rfl => (readsAs_hashesLog traces).map Payload.hashesLog
  | .pipeline _, _, _, h, rfl => (readsAs_pipeline (Pipeline.readsAs_parts h)).map Payload.pipeline
  | .artifact kind j, _, hj, _, hq => by
    obtain ⟨i, hi, rfl⟩ := Option.map_eq_some_iff.1 hq
    obtain rfl := eq_of_present hi
    exact (readsAs_json hj).map (Payload.artifact kind)

theorem Pipeline.readsAs_parts : ∀ {parts : List Part}, (∀ x ∈ Pipeline.pieces parts, x.Carried) →
    ItemsReadAs readPart (Pipeline.partDocuments parts) (Pipeline.revise present parts)
  | [], _ => .nil
  | p :: rest, h => by
    obtain ⟨hp, hrest⟩ := List.forall_mem_append.1 h
    exact .cons (Part.readsAs hp) (Pipeline.readsAs_parts hrest)

/-- A part is read back with the results in it revised. -/
theorem Part.readsAs : ∀ {p : Part}, (∀ x ∈ p.pieces, x.Carried) →
    ReadsAs readPart p.toDocument (p.revise present)
  | ⟨[]⟩, _ => readsAs_noShape
  | ⟨[s]⟩, h => by
    rw [Part.pieces, Part.piecesOf, Part.piecesOf, List.append_nil] at h
    exact readsAs_shape (Shape.readsAs (List.forall_mem_cons.1 h).2)
  | ⟨_ :: _ :: _⟩, h => by
    have hlength := h _ List.mem_cons_self
    simp [Piece.Carried] at hlength

theorem Shape.readsAs : ∀ {s : Shape}, (∀ x ∈ s.pieces, x.Carried) →
    ReadsAs (fun n d => s.reader n d) s.toDocument (s.revise present)
  | .operation _, h => (Operation.readsAs h).map Shape.operation
  | .parallel _, h => (ReadsAs.list (Pipeline.readsAs_parts h) "pipelineParts").map Shape.parallel
  | .fetch key tag, _ => readsAs_fetchShape key tag
  | .fetchAfter keys _ tag, h => readsAs_fetchAfterShape keys tag (Operation.readsAs h)

theorem Operation.readsAs : ∀ {op : Operation}, (∀ x ∈ op.pieces, x.Carried) →
    ReadsAs readOperation op.toDocument (op.revise present)
  | ⟨name, _⟩, h => readsAs_operation name (Entries.readsAs (List.forall_mem_cons.1 h).2)

/-- Entries are read back with the results in them revised. -/
theorem Entries.readsAs : ∀ {entries : List (String × Value)},
    (∀ x ∈ Entries.pieces entries, x.Carried) →
      ItemsReadAs readEntry (Entries.entryDocuments entries) (Entries.revise present entries)
  | [], _ => .nil
  | (k, _) :: _, h => by
    obtain ⟨hv, hpieces⟩ := List.forall_mem_cons.1 h
    obtain ⟨hin, hrest⟩ := List.forall_mem_append.1 hpieces
    exact .cons (readsAs_entry k (Value.readsAs hv hin)) (Entries.readsAs hrest)

end

/-- The pieces of a message, at any depth. -/
def Message.pieces (m : Message) : List Piece :=
  (m.partResult.map fun r => Entries.pieces r.values).getD []

/-- Final results are flat, so they are read at any depth. -/
theorem FinalResult.ofDocument?_asRead (r : FinalResult) :
    r.toDocument.Legible ∧ FinalResult.ofDocument? r.toDocument.asRead = some r := by
  obtain ⟨_ | success, _ | error⟩ := r
  · exact ⟨trivial, rfl⟩
  · exact ⟨⟨trivial, trivial⟩, rfl⟩
  · exact ⟨⟨⟨trivial, trivial⟩, trivial⟩, rfl⟩
  · exact ⟨⟨⟨trivial, trivial⟩, trivial, trivial⟩, rfl⟩

/-- A result is read back if its entries come back and nest no deeper than the reader goes. -/
theorem PartResult.ofDocument?_asRead {r : PartResult}
    (h : ∀ x ∈ Entries.pieces r.values, x.Writable) :
    r.toDocument.Legible ∧ (r.toDocument.depth ≤ readFuel →
      PartResult.ofDocument? r.toDocument.asRead = some r) := by
  obtain ⟨tag, values⟩ := r
  have hvalues : ItemsReadAs readEntry (Entries.entryDocuments values) values := by
    have hrevise := Entries.readsAs fun x hx => (h x hx).carried
    rwa [Entries.revise_present h] at hrevise
  constructor
  · cases tag with
    | none => exact ⟨hvalues.legible, trivial⟩
    | some tag => exact ⟨⟨trivial, trivial⟩, hvalues.legible, trivial⟩
  · intro hdepth
    have hread : (Document.asReadItems (Entries.entryDocuments values)).mapM
        (readEntry readFuel) = some values := by
      refine hvalues.read_of_depth_le ?_
      cases tag <;>
      · simp only [PartResult.toDocument, Entries.toDocument, tagField, List.nil_append,
          List.cons_append, Document.depth, Document.depthFields] at hdepth
        omega
    cases tag <;>
      simp [PartResult.toDocument, PartResult.ofDocument?, Entries.toDocument, tagField,
        readTag, Record.orElse, Document.list?, Document.text?, hread]

/-- A message comes back from its text. -/
theorem Message.ofDocument?_asRead {m : Message} (h : ∀ x ∈ m.pieces, x.Writable) :
    m.toDocument.Legible ∧ (m.toDocument.depth ≤ readFuel →
      Message.ofDocument? m.toDocument.asRead = some m) := by
  obtain ⟨finalResult, partResult, logMessage⟩ := m
  have hfinal : ∀ r : FinalResult, r.toDocument.Legible := fun r => r.ofDocument?_asRead.1
  have hresult : ∀ r, partResult = some r → r.toDocument.Legible ∧
      (r.toDocument.depth ≤ readFuel → PartResult.ofDocument? r.toDocument.asRead = some r) := by
    rintro r rfl
    exact PartResult.ofDocument?_asRead h
  have hlog : ∀ text : String, (oneField "message" (.text text)).Legible :=
    fun _ => ⟨trivial, trivial⟩
  constructor
  · cases finalResult <;> cases partResult <;> cases logMessage <;>
      simp [Message.toDocument, optionalField, Document.Legible, Document.LegibleFields, hfinal,
        hresult, hlog]
  · intro hdepth
    have hfinalRead : ∀ r : FinalResult,
        FinalResult.ofDocument? r.toDocument.asRead = some r := fun r => r.ofDocument?_asRead.2
    have hresultRead : ∀ r, partResult = some r →
        PartResult.ofDocument? r.toDocument.asRead = some r := by
      rintro r rfl
      refine (hresult r rfl).2 (Nat.le_trans ?_ hdepth)
      cases finalResult <;>
      · simp only [Message.toDocument, optionalField, List.nil_append, List.cons_append,
          Document.depth, Document.depthFields]
        omega
    have hfinalNull : ∀ r : FinalResult, r.toDocument.asRead ≠ .null :=
      fun _ => by simp [FinalResult.toDocument, Document.asRead]
    have hresultNull : ∀ r : PartResult, r.toDocument.asRead ≠ .null :=
      fun _ => by simp [PartResult.toDocument, Document.asRead]
    cases finalResult <;> cases partResult <;> cases logMessage <;>
      simp [Message.toDocument, Message.ofDocument?, optionalField, Document.text?,
        hfinalRead, hresultRead, hfinalNull, hresultNull]

end Wire

end MiningPipelines
