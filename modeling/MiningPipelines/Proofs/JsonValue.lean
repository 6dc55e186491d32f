import Mathlib.Data.String.Basic
import MiningPipelines.Proofs.JsonText

/-!
# JSON values and their documents

A value whose objects have their keys in order is the one that its document stands for, and the
document reads as it is written. A document of which something was cut off stands for no value
(`Document.toJson?_cut`). `Json.Writable` values come back from their text; they are made
of natural numbers, texts, arrays and `Json.ofFields`, which puts keys in order.
-/

namespace MiningPipelines

namespace Json

mutual

/-- The keys of each object are in order, each key once. -/
def Canonical : Json → Prop
  | .array items => CanonicalItems items
  | .object fields => CanonicalFields fields
  | _ => True

def CanonicalItems : List Json → Prop
  | [] => True
  | v :: rest => v.Canonical ∧ CanonicalItems rest

def CanonicalFields : List (String × Json) → Prop
  | [] => True
  | (k, v) :: rest => (∀ f ∈ rest, k < f.1) ∧ v.Canonical ∧ CanonicalFields rest

end

/-- The value comes back from its text. -/
structure Writable (v : Json) : Prop where
  canonical : v.Canonical
  legible : v.toDocument.Legible

/-! ## From the document to the value -/

/-- A field behind all others is put at the end. -/
theorem insertField_of_lt {key : String} {fields : List (String × Json)}
    (h : ∀ f ∈ fields, f.1 < key) (v : Json) :
    insertField key v fields = fields ++ [(key, v)] := by
  induction fields with
  | nil => rfl
  | cons f fields ih =>
    obtain ⟨hf, hfields⟩ := List.forall_mem_cons.1 h
    rw [insertField, if_neg hf.ne', if_neg hf.asymm, ih hfields, List.cons_append]

mutual

/-- The document of a value has no single-precision numbers, the only ones that reading changes. -/
theorem asRead_toDocument : ∀ v : Json, v.toDocument.asRead = v.toDocument
  | .null | .bool _ | .number _ | .text _ => rfl
  | .array items => by rw [toDocument, Document.asRead, asRead_itemsToDocument items]
  | .object fields => by rw [toDocument, Document.asRead, asRead_fieldsToDocument fields]

theorem asRead_itemsToDocument : ∀ items : List Json,
    Document.asReadItems (itemsToDocument items) = itemsToDocument items
  | [] => rfl
  | v :: rest => by
    rw [itemsToDocument, Document.asReadItems, asRead_toDocument v, asRead_itemsToDocument rest]

theorem asRead_fieldsToDocument : ∀ fields : List (String × Json),
    Document.asReadFields (fieldsToDocument fields) = fieldsToDocument fields
  | [] => rfl
  | (k, v) :: rest => by
    rw [fieldsToDocument, Document.asReadFields, asRead_toDocument v,
      asRead_fieldsToDocument rest]

end

mutual

/-- The document of a value stands for it. -/
theorem toJson?_toDocument : ∀ {v : Json}, v.Canonical → v.toDocument.toJson? = some v
  | .null, _ | .bool _, _ | .number _, _ | .text _, _ => rfl
  | .array items, h => by
    rw [toDocument, Document.toJson?, itemsToJson?_itemsToDocument h]
    rfl
  | .object fields, h => by
    rw [toDocument, Document.toJson?, fieldsToJson?_fieldsToDocument h (by simp)]
    rfl

/-- Items keep their order. -/
theorem itemsToJson?_itemsToDocument : ∀ {items : List Json}, CanonicalItems items →
    Document.itemsToJson? (itemsToDocument items) = some items
  | [], _ => rfl
  | v :: rest, ⟨hv, hrest⟩ => by
    rw [itemsToDocument, Document.itemsToJson?, toJson?_toDocument hv,
      itemsToJson?_itemsToDocument hrest]
    rfl

/-- Fields in order of their keys are each put behind those before them. -/
theorem fieldsToJson?_fieldsToDocument : ∀ {fields before : List (String × Json)},
    CanonicalFields fields → (∀ f ∈ before, ∀ g ∈ fields, f.1 < g.1) →
      Document.fieldsToJson? (fieldsToDocument fields) before = some (before ++ fields)
  | [], _, _, _ => by rw [fieldsToDocument, Document.fieldsToJson?, List.append_nil]
  | (k, v) :: rest, before, ⟨hk, hv, hrest⟩, hbefore => by
    have hinsert : insertField k v before = before ++ [(k, v)] :=
      insertField_of_lt (fun f hf => hbefore f hf _ List.mem_cons_self) v
    have hnext : ∀ f ∈ before ++ [(k, v)], ∀ g ∈ rest, f.1 < g.1 :=
      List.forall_mem_append.2 ⟨fun f hf g hg => hbefore f hf g (List.mem_cons_of_mem _ hg),
        List.forall_mem_singleton.2 hk⟩
    rw [fieldsToDocument, Document.fieldsToJson?, toJson?_toDocument hv]
    simp only [Option.bind_eq_bind, Option.bind_some, hinsert]
    rw [fieldsToJson?_fieldsToDocument hrest hnext, List.append_assoc, List.singleton_append]

end

end Json

namespace Document

mutual

/-- A document stands for a value only if nothing in it was cut off. -/
theorem toJson?_cut : ∀ (d : Document) {levels : Nat},
    (d.cut levels).toJson? = if d.depth ≤ levels then d.toJson? else none
  | .array items, 0 => rfl
  | .array items, levels + 1 => by
    rw [cut, if_neg (Nat.succ_ne_zero levels), Nat.add_sub_cancel, toJson?, toJson?,
      itemsToJson?_cut items, depth]
    simp only [Nat.add_le_add_iff_right]
    split <;> rfl
  | .object fields, 0 => rfl
  | .object fields, levels + 1 => by
    rw [cut, if_neg (Nat.succ_ne_zero levels), Nat.add_sub_cancel, toJson?, toJson?,
      fieldsToJson?_cut fields, depth]
    simp only [Nat.add_le_add_iff_right]
    split <;> rfl
  | .null, _ | .bool _, _ | .number _, _ | .single _, _ | .text _, _ | .unreadable, _ =>
    (if_pos (Nat.zero_le _)).symm

/-- One item that was cut leaves no array. -/
theorem itemsToJson?_cut : ∀ (items : List Document) {levels : Nat},
    itemsToJson? (cutItems items levels) =
      if depthItems items ≤ levels then itemsToJson? items else none
  | [], _ => (if_pos (Nat.zero_le _)).symm
  | d :: rest, levels => by
    rw [cutItems, itemsToJson?, toJson?_cut d, itemsToJson?_cut rest, depthItems, itemsToJson?]
    by_cases hd : d.depth ≤ levels <;> by_cases hrest : depthItems rest ≤ levels <;>
      simp [hd, hrest]

/-- One field that was cut leaves no object, whatever was read before it. -/
theorem fieldsToJson?_cut : ∀ (fields : List (String × Document)) {levels : Nat}
    {acc : List (String × Json)}, fieldsToJson? (cutFields fields levels) acc =
      if depthFields fields ≤ levels then fieldsToJson? fields acc else none
  | [], _, _ => (if_pos (Nat.zero_le _)).symm
  | (k, d) :: rest, levels, acc => by
    rw [cutFields, fieldsToJson?, toJson?_cut d, depthFields, fieldsToJson?]
    simp only [fieldsToJson?_cut rest]
    by_cases hd : d.depth ≤ levels <;> by_cases hrest : depthFields rest ≤ levels <;>
      simp [hd, hrest]

end

end Document

namespace Json

/-! ## Values that are written -/

/-- A field that is put in replaces one or is added; the others stay. -/
theorem mem_insertField {key : String} {v : Json} {f : String × Json}
    {fields : List (String × Json)} (h : f ∈ insertField key v fields) :
    f = (key, v) ∨ f ∈ fields := by
  induction fields with
  | nil => exact .inl (List.mem_singleton.1 h)
  | cons g fields ih =>
    rw [insertField] at h
    split at h
    · exact (List.mem_cons.1 h).imp_right (List.mem_cons_of_mem _)
    split at h
    · exact List.mem_cons.1 h
    · obtain rfl | h := List.mem_cons.1 h
      · exact .inr List.mem_cons_self
      · exact (ih h).imp_right (List.mem_cons_of_mem _)

/-- Putting a field in keeps the keys in order, each key once. -/
theorem CanonicalFields.insertField {key : String} {v : Json} (hv : v.Canonical) :
    ∀ {fields : List (String × Json)}, CanonicalFields fields →
      CanonicalFields (insertField key v fields)
  | [], _ => ⟨by simp, hv, trivial⟩
  | (k, w) :: rest, ⟨hk, hw, hrest⟩ => by
    rw [Json.insertField]
    split
    · next heq => exact ⟨heq ▸ hk, hv, hrest⟩
    split
    · next hlt =>
      exact ⟨List.forall_mem_cons.2 ⟨hlt, fun f hf => hlt.trans (hk f hf)⟩, hv, hk, hw, hrest⟩
    · next hne hle =>
      refine ⟨fun f hf => ?_, hw, hrest.insertField hv⟩
      obtain rfl | hf := mem_insertField hf
      · exact lt_of_le_of_ne (not_lt.1 hle) (Ne.symm hne)
      · exact hk f hf

theorem legibleFields_iff {fields : List (String × Json)} :
    Document.LegibleFields (fieldsToDocument fields) ↔ ∀ f ∈ fields, f.2.toDocument.Legible := by
  induction fields with
  | nil => simp [fieldsToDocument, Document.LegibleFields]
  | cons f fields ih => rw [fieldsToDocument, Document.LegibleFields, List.forall_mem_cons, ih]

namespace Writable

theorem null : Writable .null := ⟨trivial, trivial⟩

theorem text (s : String) : Writable (.text s) := ⟨trivial, trivial⟩

/-- A natural number is written in digits that stand for it. -/
theorem ofNat (n : Nat) : Writable (.ofNat n) := ⟨trivial, Document.numberOf?_natural _⟩

/-- An array comes back if its items do. -/
theorem array {items : List Json} (h : ∀ v ∈ items, v.Writable) : Writable (.array items) := by
  induction items with
  | nil => exact ⟨trivial, trivial⟩
  | cons v items ih =>
    obtain ⟨hv, hitems⟩ := List.forall_mem_cons.1 h
    exact ⟨⟨hv.canonical, (ih hitems).canonical⟩, hv.legible, (ih hitems).legible⟩

/-- An object comes back if its keys are in order and its values come back. -/
theorem object {fields : List (String × Json)} (h : CanonicalFields fields)
    (hlegible : ∀ f ∈ fields, f.2.toDocument.Legible) : Writable (.object fields) :=
  ⟨h, legibleFields_iff.2 hlegible⟩

theorem insertField {key : String} {v : Json} {fields : List (String × Json)} (hv : v.Writable)
    (h : Writable (.object fields)) : Writable (.object (insertField key v fields)) := by
  refine .object (CanonicalFields.insertField hv.canonical h.canonical) fun f hf => ?_
  obtain rfl | hf := mem_insertField hf
  · exact hv.legible
  · exact legibleFields_iff.1 h.legible f hf

/-- Fields that are put in one after another leave an object that comes back. -/
theorem foldl_insertField {fields : List (String × Json)} (h : ∀ f ∈ fields, f.2.Writable)
    {acc : List (String × Json)} (hacc : Writable (.object acc)) :
    Writable (.object (fields.foldl (fun acc f => Json.insertField f.1 f.2 acc) acc)) := by
  induction fields generalizing acc with
  | nil => exact hacc
  | cons f fields ih =>
    obtain ⟨hf, hfields⟩ := List.forall_mem_cons.1 h
    exact ih hfields (hf.insertField hacc)

/-- Objects that are made of fields have their keys in order, however the fields came. -/
theorem ofFields {fields : List (String × Json)} (h : ∀ f ∈ fields, f.2.Writable) :
    Writable (.ofFields fields) :=
  foldl_insertField h ⟨trivial, trivial⟩

/-- A record with one list. -/
theorem list {α : Type} {write : α → Json} (h : ∀ a, (write a).Writable) (name : String)
    (as : List α) : Writable (.ofFields [(name, .array (as.map write))]) :=
  .ofFields (List.forall_mem_singleton.2 (.array (List.forall_mem_map.2 fun a _ => h a)))

/-- A value, or null for a missing one. -/
theorem getD_null {α : Type} {write : α → Json} (h : ∀ a, (write a).Writable) (o : Option α) :
    Writable ((o.map write).getD .null) := by
  cases o with
  | none => exact null
  | some a => exact h a

end Writable

end Json

end MiningPipelines
