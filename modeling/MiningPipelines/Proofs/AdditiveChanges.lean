import Mathlib.Data.List.Nodup
import Mathlib.Logic.Relation
import MiningPipelines.Proofs.Layout
import MiningPipelines.Proofs.WireText
import MiningPipelines.Wire.Decode

/-!
# Documents that newer writers change

A writer may order the fields of a record as it likes, add fields that this reader does not know,
write a slot that is not set as null or leave it out, and leave out what has its default. These
changes (`Wire.Change`) follow the declared fields of the records (`Wire.Typed.fields`) to any
depth, and stop at scalars and at analysis results, which are not read by a schema.

No reader notices them (`Wire.Stable`). One change of a record is seen by its reader field by field
(`Wire.Alike`), and each way to read a field has one lemma, so that the proof for a reader repeats
the reader. The readers of values, pipelines, parts, operations and entries call each other and are
stable together (`Wire.stableAt`).
-/

namespace MiningPipelines

namespace Wire

/-! ## The declared fields -/

/-- The records of wire messages. -/
inductive Typed where
  | key
  | uuid
  | guid
  | enum
  | strings
  | namesTrace
  | namesLog
  | hashesTrace
  | hashesLog
  | value
  | entry
  | pipeline
  | configuration
  | operation
  | parallel
  | fetch
  | fetchAfter
  | part
  | request
  | logMessage
  | partResult
  | finalResult
  | message
deriving DecidableEq

/-- What a document is read as. -/
inductive Form where
  /-- A scalar, or an analysis result. -/
  | leaf
  | list (item : Form)
  | record (t : Typed)
deriving DecidableEq

/-- What an absent field means. -/
inductive Presence where
  | required
  | defaulted
  | slot
deriving DecidableEq

/-- A declared field. -/
structure Declared where
  name : String
  presence : Presence
  form : Form
deriving DecidableEq

namespace Typed

/-- The fields of a record, in declared order. -/
def fields : Typed → List Declared
  | key => [⟨"name", .required, .leaf⟩]
  | uuid => [⟨"uuid", .required, .leaf⟩]
  | guid => [⟨"guid", .required, .leaf⟩]
  | enum => [⟨"enumType", .required, .leaf⟩, ⟨"value", .required, .leaf⟩]
  | strings => [⟨"strings", .defaulted, .list .leaf⟩]
  | namesTrace => [⟨"events", .defaulted, .list .leaf⟩]
  | namesLog => [⟨"traces", .defaulted, .list (.record namesTrace)⟩]
  | hashesTrace => [⟨"events", .defaulted, .list .leaf⟩]
  | hashesLog => [⟨"traces", .defaulted, .list (.record hashesTrace)⟩]
  | value =>
    [⟨"string", .slot, .leaf⟩, ⟨"uint32", .slot, .leaf⟩, ⟨"bool", .slot, .leaf⟩,
      ⟨"float", .slot, .leaf⟩, ⟨"enum", .slot, .record enum⟩, ⟨"strings", .slot, .record strings⟩,
      ⟨"namesLog", .slot, .record namesLog⟩, ⟨"hashesLog", .slot, .record hashesLog⟩,
      ⟨"pipeline", .slot, .record pipeline⟩] ++
      ArtifactKind.all.map fun kind => ⟨kind.slot, .slot, .leaf⟩
  | entry => [⟨"key", .required, .record key⟩, ⟨"value", .required, .record value⟩]
  | pipeline => [⟨"parts", .defaulted, .list (.record part)⟩]
  | configuration => [⟨"configurationParameters", .defaulted, .list (.record entry)⟩]
  | operation =>
    [⟨"name", .required, .leaf⟩, ⟨"configuration", .defaulted, .record configuration⟩]
  | parallel => [⟨"pipelineParts", .defaulted, .list (.record part)⟩]
  | fetch => [⟨"key", .required, .record key⟩, ⟨"frontendPartUuid", .slot, .record uuid⟩]
  | fetchAfter =>
    [⟨"keys", .required, .list (.record key)⟩,
      ⟨"beforePipelinePart", .required, .record operation⟩,
      ⟨"frontendPartUuid", .slot, .record uuid⟩]
  | part =>
    [⟨"defaultPart", .slot, .record operation⟩, ⟨"parallelPart", .slot, .record parallel⟩,
      ⟨"simpleContextRequestPart", .slot, .record fetch⟩,
      ⟨"complexContextRequestPart", .slot, .record fetchAfter⟩]
  | request =>
    [⟨"pipeline", .required, .record pipeline⟩,
      ⟨"initialContext", .defaulted, .list (.record entry)⟩]
  | logMessage => [⟨"message", .required, .leaf⟩]
  | partResult =>
    [⟨"frontendPartUuid", .slot, .record uuid⟩,
      ⟨"contextValues", .defaulted, .list (.record entry)⟩]
  | finalResult => [⟨"success", .slot, .record guid⟩, ⟨"error", .slot, .leaf⟩]
  | message =>
    [⟨"finalResult", .slot, .record finalResult⟩,
      ⟨"pipelinePartResult", .slot, .record partResult⟩,
      ⟨"logMessage", .slot, .record logMessage⟩]

/-- The names of the fields. -/
def names (t : Typed) : List String := t.fields.map Declared.name

/-- No record declares a field twice. -/
theorem nodup_names (t : Typed) : t.names.Nodup := by
  cases t <;> decide +kernel

theorem name_mem_names {t : Typed} {f : Declared} (h : f ∈ t.fields) : f.name ∈ t.names :=
  List.mem_map_of_mem h

/-- A field is known by its name. -/
theorem eq_of_name {t : Typed} {f g : Declared} (hf : f ∈ t.fields) (hg : g ∈ t.fields)
    (h : f.name = g.name) : f = g :=
  List.inj_on_of_nodup_map t.nodup_names hf hg h

end Typed

/-- What the default of a field is written as : an empty list, or anything that is read as an empty
configuration. -/
def Form.IsDefault (d : Document) : Form → Prop
  | .list _ => d = .array []
  | .record .configuration => Entries.ofConfigDocument? d = some []
  | _ => False

/-! ## Changes -/

/-- One change that a reader is not to notice. Fields may be put in any order, so what is said of
the first field holds for each. -/
inductive Change : Form → Document → Document → Prop
  /-- The fields of an object in another order. -/
  | reorder {t : Typed} {fields fields' : List (String × Document)} : fields.Perm fields' →
      Change (.record t) (.object fields) (.object fields')
  /-- One more field, under a name that is not declared. -/
  | unknown {t : Typed} {fields : List (String × Document)} {name : String} (d : Document) :
      name ∉ t.names → Change (.record t) (.object fields) (.object ((name, d) :: fields))
  /-- A slot that is absent is written as null. -/
  | addNull {t : Typed} {fields : List (String × Document)} {f : Declared} : f ∈ t.fields →
      f.presence = .slot → f.name ∉ fields.map Prod.fst →
      Change (.record t) (.object fields) (.object ((f.name, .null) :: fields))
  /-- A slot that is null is left out. -/
  | dropNull {t : Typed} {fields : List (String × Document)} {f : Declared} : f ∈ t.fields →
      f.presence = .slot →
      Change (.record t) (.object ((f.name, .null) :: fields)) (.object fields)
  /-- A field that has its default is left out. -/
  | dropDefault {t : Typed} {fields : List (String × Document)} {f : Declared} {d : Document} :
      f ∈ t.fields → f.presence = .defaulted → f.form.IsDefault d →
      Change (.record t) (.object ((f.name, d) :: fields)) (.object fields)
  /-- A change inside a field. -/
  | field {t : Typed} {fields : List (String × Document)} {f : Declared} {d d' : Document} :
      f ∈ t.fields → Change f.form d d' →
      Change (.record t) (.object ((f.name, d) :: fields)) (.object ((f.name, d') :: fields))
  /-- A change inside a field of a record that is written as an array. -/
  | place {t : Typed} {before after : List Document} {f : Declared} {d d' : Document} :
      t.fields[before.length]? = some f → Change f.form d d' →
      Change (.record t) (.array (before ++ d :: after)) (.array (before ++ d' :: after))
  /-- A change inside an item of a list. -/
  | item {form : Form} {before after : List Document} {d d' : Document} : Change form d d' →
      Change (.list form) (.array (before ++ d :: after)) (.array (before ++ d' :: after))

/-- Any number of changes, at any depth. -/
def Changes (form : Form) : Document → Document → Prop := Relation.ReflTransGen (Change form)

/-- A record never changes to null, nor from null. -/
theorem Change.ne_null {form : Form} {d d' : Document} (h : Change form d d') :
    d ≠ .null ∧ d' ≠ .null := by
  cases h <;> exact ⟨nofun, nofun⟩

/-! ## What reads the same -/

section Refines

variable {α β : Type} {x y : Option α}

/-- What the first reading finds, the second one finds too. -/
def Refines (x y : Option α) : Prop := ∀ a, x = some a → y = some a

namespace Refines

theorem refl (x : Option α) : Refines x x := fun _ h => h

/-- What is made of a reading is refined with it. -/
theorem map (h : Refines x y) (f : α → β) : Refines (x.map f) (y.map f) := by
  intro b hb
  obtain ⟨a, ha, rfl⟩ := Option.map_eq_some_iff.1 hb
  rw [h a ha, Option.map_some]

/-- A reading and what goes on from it are refined together. -/
theorem bind {f g : α → Option β} (h : Refines x y) (hfg : ∀ a, Refines (f a) (g a)) :
    Refines (x >>= f) (y >>= g) := by
  intro b hb
  obtain ⟨a, ha, hb⟩ := Option.bind_eq_some_iff.1 hb
  exact Option.bind_eq_some_iff.2 ⟨a, h a ha, hfg a b hb⟩

/-- Items are refined one by one. -/
theorem mapM {f g : α → Option β} (h : ∀ a, Refines (f a) (g a)) (as : List α) :
    Refines (as.mapM f) (as.mapM g) := by
  induction as with
  | nil => exact refl _
  | cons a rest ih =>
    rw [List.mapM_cons, List.mapM_cons]
    exact (h a).bind fun _ => ih.bind fun _ => refl _

end Refines

end Refines

/-- A reader does not notice a change. -/
def Stable {α : Type} (form : Form) (read : Document → Option α) : Prop :=
  ∀ d d', Change form d d' → Refines (read d) (read d')

/-- What has become of one declared field. -/
inductive Kept (f : Declared) : Option Document → Option Document → Prop
  | same (o : Option Document) : Kept f o o
  | inside {d d' : Document} : Change f.form d d' → Kept f (some d) (some d')
  | addNull : f.presence = .slot → Kept f none (some .null)
  | dropNull : f.presence = .slot → Kept f (some .null) none
  | dropDefault {d : Document} : f.presence = .defaulted → f.form.IsDefault d → Kept f (some d) none

/-- Two records whose declared fields read the same. -/
def Alike (t : Typed) (r r' : Record) : Prop :=
  ∀ f ∈ t.fields, Kept f (r.find? f.name) (r'.find? f.name)

end Wire

/-! ## Records -/

namespace Record

variable {named : Bool} {xs ys before after : List (String × Document)} {name k : String}
  {d : Document}

/-- With distinct names a lookup finds what is there, in any order. -/
theorem find?_eq_some_iff (h : (xs.map Prod.fst).Nodup) :
    find? ⟨named, xs⟩ name = some d ↔ (name, d) ∈ xs := by
  rw [find?, Option.map_eq_some_iff]
  constructor
  · rintro ⟨⟨k, _⟩, hfind, rfl⟩
    have hname := List.find?_some hfind
    obtain rfl : k = name := eq_of_beq hname
    exact List.mem_of_find?_eq_some hfind
  · exact fun hmem => ⟨(name, d), find?_of_nodup h hmem, rfl⟩

theorem find?_eq_none (h : name ∉ xs.map Prod.fst) : find? ⟨named, xs⟩ name = none := by
  rw [find?, Option.map_eq_none_iff, List.find?_eq_none]
  exact fun e he hname => h (List.mem_map.2 ⟨e, he, eq_of_beq hname⟩)

/-- A field is found wherever it stands. -/
theorem find?_perm (hperm : xs.Perm ys) (h : (xs.map Prod.fst).Nodup) :
    find? ⟨named, xs⟩ name = find? ⟨named, ys⟩ name := by
  ext d
  rw [find?_eq_some_iff h, find?_eq_some_iff ((hperm.map Prod.fst).nodup_iff.1 h), hperm.mem_iff]

/-- With distinct names it does not matter where a field stands. -/
theorem find?_append_cons (h : k ∉ before.map Prod.fst) :
    find? ⟨named, before ++ (k, d) :: after⟩ name =
      if k = name then some d else find? ⟨named, before ++ after⟩ name := by
  induction before with
  | nil => exact find?_cons
  | cons e rest ih =>
    obtain ⟨hne, hrest⟩ := not_or.1 (mt List.mem_cons.2 h)
    rw [List.cons_append, find?_cons, ih hrest, List.cons_append, find?_cons]
    by_cases hk : k = name
    · rw [if_pos hk, if_pos hk, if_neg fun heq => hne (hk.trans heq.symm)]
    · rw [if_neg hk, if_neg hk]

/-- A slot with something other than null in it is read. -/
theorem slot_of_ne_null {α : Type} {r : Record} {read : Document → Option α}
    (h : r.find? name = some d) (hd : d ≠ .null) : r.slot name read = (read d).map some := by
  rw [slot, h]
  cases d <;> first | rfl | exact absurd rfl hd

end Record

namespace Wire

variable {t : Typed} {r r' : Record}

/-- Records that differ in one field only are alike if that field is kept. -/
theorem alike_of_one {f : Declared} (hf : f ∈ t.fields)
    (hkept : Kept f (r.find? f.name) (r'.find? f.name))
    (hother : ∀ name, f.name ≠ name → r.find? name = r'.find? name) : Alike t r r' := by
  intro g hg
  by_cases hname : f.name = g.name
  · exact Typed.eq_of_name hf hg hname ▸ hkept
  · exact hother g.name hname ▸ .same _

/-- A change inside one field. -/
theorem alike_of_inside {named : Bool} (first second : List (String × Document)) {f : Declared}
    {d d' : Document} (hf : f ∈ t.fields) (habsent : f.name ∉ first.map Prod.fst)
    (hchange : Change f.form d d') :
    Alike t ⟨named, first ++ (f.name, d) :: second⟩ ⟨named, first ++ (f.name, d') :: second⟩ := by
  refine alike_of_one hf ?_ fun name hname => ?_
  · rw [Record.find?_append_cons habsent, if_pos rfl, Record.find?_append_cons habsent, if_pos rfl]
    exact .inside hchange
  · rw [Record.find?_append_cons habsent, if_neg hname, Record.find?_append_cons habsent,
      if_neg hname]

/-- The declared fields among others. -/
def Typed.known (t : Typed) (fields : List (String × Document)) : List (String × Document) :=
  fields.filter fun e => t.names.contains e.1

/-- A declared field is known. -/
theorem Typed.known_cons {f : Declared} (hf : f ∈ t.fields) (d : Document)
    (fields : List (String × Document)) :
    t.known ((f.name, d) :: fields) = (f.name, d) :: t.known fields :=
  List.filter_cons_of_pos (List.contains_iff_mem.2 (name_mem_names hf))

/-- A field with another name is dropped before anything is read. -/
theorem Typed.known_cons_of_unknown {name : String} (h : name ∉ t.names) (d : Document)
    (fields : List (String × Document)) : t.known ((name, d) :: fields) = t.known fields :=
  List.filter_cons_of_neg (mt List.contains_iff_mem.1 h)

theorem Typed.mem_names_of_known {fields : List (String × Document)} {name : String}
    (h : name ∈ (t.known fields).map Prod.fst) : name ∈ fields.map Prod.fst := by
  obtain ⟨e, he, rfl⟩ := List.mem_map.1 h
  exact List.mem_map_of_mem (List.mem_of_mem_filter he)

/-- An object is a record if its known fields have distinct names, whatever else it holds. -/
theorem record?_object_iff {fields : List (String × Document)} :
    Document.record? t.names (.object fields) = some r ↔
      ((t.known fields).map Prod.fst).Nodup ∧ r = ⟨true, t.known fields⟩ := by
  refine Option.ite_none_right_eq_some.trans (and_congr_right fun _ => ?_)
  exact ⟨fun h => (Option.some.inj h).symm, fun h => congrArg some h.symm⟩

theorem record?_cons_iff {f : Declared} {d : Document} {fields : List (String × Document)}
    (hf : f ∈ t.fields) : Document.record? t.names (.object ((f.name, d) :: fields)) = some r ↔
      (f.name ∉ (t.known fields).map Prod.fst ∧ ((t.known fields).map Prod.fst).Nodup) ∧
        r = ⟨true, (f.name, d) :: t.known fields⟩ := by
  rw [record?_object_iff, Typed.known_cons hf, List.map_cons, List.nodup_cons]

/-- A field is left out that reads as if it were absent. -/
theorem exists_alike_of_drop {f : Declared} {d : Document} {fields : List (String × Document)}
    (hf : f ∈ t.fields) (hkept : Kept f (some d) none)
    (hr : Document.record? t.names (.object ((f.name, d) :: fields)) = some r) :
    ∃ r', Document.record? t.names (.object fields) = some r' ∧ Alike t r r' := by
  obtain ⟨⟨habsent, hnodup⟩, rfl⟩ := (record?_cons_iff hf).1 hr
  refine ⟨_, record?_object_iff.2 ⟨hnodup, rfl⟩, alike_of_one hf ?_ fun name hname => ?_⟩
  · rw [Record.find?_eq_none habsent, Record.find?_cons, if_pos rfl]
    exact hkept
  · rw [Record.find?_cons, if_neg hname]

/-- The places of an array are those of the declared fields. -/
theorem zip_names {f : Declared} {before : List Document} (after : List Document)
    (h : t.fields[before.length]? = some f) : f ∈ t.fields ∧
      ∃ first second, f.name ∉ first.map Prod.fst ∧
        ∀ d, t.names.zip (before ++ d :: after) = first ++ (f.name, d) :: second := by
  have hname : t.names[before.length]? = some f.name := by
    rw [Typed.names, List.getElem?_map, h, Option.map_some]
  obtain ⟨hlt, hget⟩ := List.getElem?_eq_some_iff.1 hname
  have hnames : t.names = t.names.take before.length ++
      f.name :: t.names.drop (before.length + 1) := by
    rw [← hget, ← List.drop_eq_getElem_cons, List.take_append_drop]
  have hnodup := hnames ▸ t.nodup_names
  refine ⟨List.mem_of_getElem? h, (t.names.take before.length).zip before,
    (t.names.drop (before.length + 1)).zip after, fun hmem => ?_, fun d => ?_⟩
  · obtain ⟨e, he, hfst⟩ := List.mem_map.1 hmem
    exact (List.nodup_append'.1 hnodup).2.2 (hfst ▸ (List.of_mem_zip he).1) List.mem_cons_self
  · have hlength : (t.names.take before.length).length = before.length :=
      List.length_take_of_le hlt.le
    conv_lhs => rw [hnames]
    rw [List.zip_append hlength, List.zip_cons_cons]

/-- A changed document is a record still, and its declared fields read the same. -/
theorem Change.exists_alike {d d' : Document} (h : Change (.record t) d d')
    (hr : d.record? t.names = some r) : ∃ r', d'.record? t.names = some r' ∧ Alike t r r' := by
  cases h with
  | reorder hperm =>
    obtain ⟨hnodup, rfl⟩ := record?_object_iff.1 hr
    have hknown := hperm.filter fun e => t.names.contains e.1
    refine ⟨_, record?_object_iff.2 ⟨(hknown.map Prod.fst).nodup_iff.1 hnodup, rfl⟩, ?_⟩
    exact fun f _ => Record.find?_perm hknown hnodup ▸ .same _
  | unknown _ hname =>
    obtain ⟨hnodup, rfl⟩ := record?_object_iff.1 hr
    refine ⟨_, record?_object_iff.2 ⟨?_, rfl⟩, fun f _ => ?_⟩
    · rwa [Typed.known_cons_of_unknown hname]
    · rw [Typed.known_cons_of_unknown hname]
      exact .same _
  | @addNull _ fields f hf hslot habsent =>
    obtain ⟨hnodup, rfl⟩ := record?_object_iff.1 hr
    have habsent : f.name ∉ (t.known fields).map Prod.fst := mt Typed.mem_names_of_known habsent
    refine ⟨_, (record?_cons_iff hf).2 ⟨⟨habsent, hnodup⟩, rfl⟩,
      alike_of_one hf ?_ fun name hname => ?_⟩
    · rw [Record.find?_eq_none habsent, Record.find?_cons, if_pos rfl]
      exact .addNull hslot
    · rw [Record.find?_cons, if_neg hname]
  | dropNull hf hslot => exact exists_alike_of_drop hf (.dropNull hslot) hr
  | dropDefault hf hdefaulted hdefault =>
    exact exists_alike_of_drop hf (.dropDefault hdefaulted hdefault) hr
  | field hf hchange =>
    obtain ⟨hnodup, rfl⟩ := (record?_cons_iff hf).1 hr
    exact ⟨_, (record?_cons_iff hf).2 ⟨hnodup, rfl⟩,
      alike_of_inside [] _ hf List.not_mem_nil hchange⟩
  | @place _ before after f d d' hf hchange =>
    -- The array has no names, but its record has : each element is found under that of its place.
    obtain ⟨hmem, first, second, habsent, hzip⟩ := zip_names after hf
    obtain ⟨hlength, rfl⟩ : (before ++ d :: after).length ≤ t.names.length ∧
        r = ⟨false, t.names.zip (before ++ d :: after)⟩ := by
      obtain ⟨hlength, h⟩ := Option.ite_none_right_eq_some.1 hr
      exact ⟨hlength, (Option.some.inj h).symm⟩
    have hlength' : (before ++ d' :: after).length ≤ t.names.length := by simpa using hlength
    refine ⟨_, if_pos hlength', ?_⟩
    rw [hzip, hzip]
    exact alike_of_inside first second hmem habsent hchange

/-! ## Ways to read a field -/

section Fields

variable {α β : Type} {form : Form} {name : String} {read : Document → Option α}

namespace Alike

variable (h : Alike t r r')

include h

/-- A required field is read from both records, or from neither. -/
theorem required (hf : ⟨name, .required, form⟩ ∈ t.fields) (hread : Stable form read) :
    Refines (r.required name read) (r'.required name read) := by
  have hkept := h _ hf
  rw [Record.required, Record.required]
  generalize r.find? name = o, r'.find? name = o' at hkept
  cases hkept with
  | same => exact .refl _
  | inside hchange => exact hread _ _ hchange
  | addNull hslot | dropNull hslot => cases hslot
  | dropDefault hdefaulted _ => cases hdefaulted

/-- A field with a default may be left out in one record and be written in the other. -/
theorem orElse {default : α} (hf : ⟨name, .defaulted, form⟩ ∈ t.fields) (hread : Stable form read)
    (hdefault : ∀ d, form.IsDefault d → read d = some default) :
    Refines (r.orElse name default read) (r'.orElse name default read) := by
  have hkept := h _ hf
  rw [Record.orElse, Record.orElse]
  generalize r.find? name = o, r'.find? name = o' at hkept
  cases hkept with
  | same => exact .refl _
  | inside hchange => exact hread _ _ hchange
  | addNull hslot | dropNull hslot => cases hslot
  -- What was read is the default, and so is what an absent field means.
  | dropDefault _ hd => exact (hdefault _ hd).symm ▸ .refl (some default)

/-- A slot may be null in one record and be absent in the other. -/
theorem slot (hf : ⟨name, .slot, form⟩ ∈ t.fields) (hread : Stable form read) :
    Refines (r.slot name read) (r'.slot name read) := by
  have hkept := h _ hf
  generalize ho : r.find? name = o, ho' : r'.find? name = o' at hkept
  cases hkept with
  | same =>
    rw [Record.slot, Record.slot, ho, ho']
    exact .refl _
  | inside hchange =>
    rw [Record.slot_of_ne_null ho hchange.ne_null.1, Record.slot_of_ne_null ho' hchange.ne_null.2]
    exact (hread _ _ hchange).map some
  | addNull _ | dropNull _ =>
    rw [Record.slot, Record.slot, ho, ho']
    exact .refl _
  | dropDefault hdefaulted _ => cases hdefaulted

end Alike

namespace Stable

/-- A leaf has no fields, so nothing in it changes. -/
theorem leaf (read : Document → Option α) : Stable .leaf read := fun _ _ hchange => nomatch hchange

/-- What is made of a reading changes no more than the reading. -/
theorem map (h : Stable form read) (f : α → β) : Stable form fun d => (read d).map f :=
  fun d d' hchange => (h d d' hchange).map f

/-- The items of a list change one by one. -/
theorem list (h : Stable form read) : Stable (.list form) (Document.list? read) := by
  intro d d' hchange
  cases hchange with
  | @item _ before after d d' hchange =>
    simp only [Document.list?, List.mapM_append, List.mapM_cons]
    exact (Refines.refl _).bind fun _ =>
      ((h d d' hchange).bind fun _ => .refl _).bind fun _ => .refl _

/-- A record is stable if alike records are read alike. -/
theorem record {names : List String} {read : Record → Option α} (hnames : t.names = names)
    (h : ∀ r r', Alike t r r' → Refines (read r) (read r')) :
    Stable (.record t) fun d => d.record? names >>= read := by
  subst hnames
  intro d d' hchange a ha
  obtain ⟨r, hr, ha⟩ := Option.bind_eq_some_iff.1 ha
  obtain ⟨r', hr', halike⟩ := hchange.exists_alike hr
  exact Option.bind_eq_some_iff.2 ⟨r', hr', h r r' halike a ha⟩

/-- The one field of a record is required. -/
theorem oneField (ht : t.fields = [⟨name, .required, form⟩]) (h : Stable form read) :
    Stable (.record t) (readOneField name read) :=
  record (congrArg (List.map Declared.name) ht) fun _ _ hr =>
    hr.required (ht ▸ List.mem_singleton_self _) h

theorem oneList (ht : t.fields = [⟨name, .defaulted, .list form⟩]) (h : Stable form read) :
    Stable (.record t) (readOneList name read) :=
  record (congrArg (List.map Declared.name) ht) fun _ _ hr =>
    hr.orElse (ht ▸ List.mem_singleton_self _) h.list fun _ hd => hd ▸ rfl

end Stable

end Fields

/-- Only the empty array is the empty list. -/
theorem list?_eq_nil_iff {α : Type} {read : Document → Option α} {d : Document} :
    Document.list? read d = some [] ↔ d = .array [] := by
  constructor
  · intro h
    cases d with
    | array items =>
      cases items with
      | nil => rfl
      | cons d rest =>
        obtain ⟨a, -, h⟩ := Option.bind_eq_some_iff.1 (List.mapM_cons.symm.trans h)
        obtain ⟨as, -, h⟩ := Option.bind_eq_some_iff.1 h
        cases h
    | _ => cases h
  · rintro rfl
    rfl

/-- An empty list is empty whatever its items would be read as. -/
theorem readOneList_eq_nil {α β : Type} {name : String} {read : Document → Option α}
    {read' : Document → Option β} {d : Document} (h : readOneList name read d = some []) :
    readOneList name read' d = some [] := by
  obtain ⟨r, hr, h⟩ := Option.bind_eq_some_iff.1 h
  refine Option.bind_eq_some_iff.2 ⟨r, hr, ?_⟩
  rw [Record.orElse] at h ⊢
  cases hfind : r.find? name with
  | none => rfl
  | some d =>
    rw [hfind] at h
    exact list?_eq_nil_iff.2 (list?_eq_nil_iff.1 h)

/-! ## The readers -/

theorem stable_readKey : Stable (.record .key) readKey := .oneField rfl (.leaf _)

theorem stable_readTag : Stable (.record .uuid) readTag := .oneField rfl (.leaf _)

theorem stable_readGuid : Stable (.record .guid) readGuid := .oneField rfl (.leaf _)

theorem stable_readEnum : Stable (.record .enum) readEnum :=
  .record rfl fun _ _ hr =>
    (hr.required (by simp [Typed.fields]) (.leaf _)).bind fun _ =>
    (hr.required (by simp [Typed.fields]) (.leaf _)).bind fun _ => .refl _

theorem stable_readStrings : Stable (.record .strings) fun d =>
    (readOneList "strings" Document.text? d).map Payload.strings :=
  .map (.oneList rfl (.leaf _)) Payload.strings

theorem stable_readNamesLog : Stable (.record .namesLog) readNamesLog :=
  .oneList rfl (.oneList (t := .namesTrace) rfl (.leaf _))

theorem stable_readHashesLog : Stable (.record .hashesLog) readHashesLog :=
  .oneList rfl (.oneList (t := .hashesTrace) rfl (.leaf _))

/-- The slots of a value are leaves or records, each of them stable. -/
theorem Refines.readSlots {readPipeline : Document → Option Pipeline} (hr : Alike .value r r')
    (h : Stable (.record .pipeline) readPipeline) :
    Refines (readSlots readPipeline r) (readSlots readPipeline r') := by
  have hartifact : ∀ kind : ArtifactKind,
      (⟨kind.slot, .slot, .leaf⟩ : Declared) ∈ Typed.value.fields := by
    intro kind
    cases kind <;> simp [Typed.fields, ArtifactKind.all]
  refine (hr.slot (by simp [Typed.fields]) (.leaf _)).bind fun string => ?_
  refine (hr.slot (by simp [Typed.fields]) (.leaf _)).bind fun uint32 => ?_
  refine (hr.slot (by simp [Typed.fields]) (.leaf _)).bind fun bool => ?_
  refine (hr.slot (by simp [Typed.fields]) (.leaf _)).bind fun float => ?_
  refine (hr.slot (by simp [Typed.fields]) (stable_readEnum.map _)).bind fun enum => ?_
  refine (hr.slot (by simp [Typed.fields]) stable_readStrings).bind fun strings => ?_
  refine (hr.slot (by simp [Typed.fields]) (stable_readNamesLog.map _)).bind fun namesLog => ?_
  refine (hr.slot (by simp [Typed.fields]) (stable_readHashesLog.map _)).bind fun hashesLog => ?_
  refine (hr.slot (by simp [Typed.fields]) (h.map _)).bind fun pipeline => ?_
  exact (Refines.mapM (fun kind => hr.slot (hartifact kind) (.leaf _)) _).bind fun _ => .refl _

/-- The readers that call each other, with the same fuel. -/
structure StableAt (n : Nat) : Prop where
  value : Stable (.record .value) (readValue n)
  pipeline : Stable (.record .pipeline) (readPipeline n)
  part : Stable (.record .part) (readPart n)
  operation : Stable (.record .operation) (readOperation n)
  entry : Stable (.record .entry) (readEntry n)

namespace StableAt

variable {n : Nat} (h : StableAt n)

include h

/-- Values are stable if pipelines one level further in are. -/
theorem value_succ : Stable (.record .value) (readValue (n + 1)) :=
  readValue_succ n ▸ .record rfl fun _ _ hr =>
    (Refines.readSlots hr h.pipeline).bind fun _ => .refl _

theorem entry_succ : Stable (.record .entry) (readEntry (n + 1)) :=
  readEntry_succ n ▸ .record rfl fun _ _ hr =>
    (hr.required (by simp [Typed.fields]) stable_readKey).bind fun _ =>
    (hr.required (by simp [Typed.fields]) h.value).bind fun _ => .refl _

theorem pipeline_succ : Stable (.record .pipeline) (readPipeline (n + 1)) :=
  readPipeline_succ n ▸ .oneList rfl h.part

/-- Operations are stable if entries one level further in are. -/
theorem operation_succ : Stable (.record .operation) (readOperation (n + 1)) :=
  readOperation_succ n ▸ .record rfl fun _ _ hr =>
    (hr.required (by simp [Typed.fields]) (.leaf _)).bind fun _ =>
    (hr.orElse (by simp [Typed.fields]) (Stable.oneList (t := .configuration) rfl h.entry)
      fun _ hd => readOneList_eq_nil hd).bind fun _ => .refl _

/-- Parts are stable if parts and operations one level further in are. -/
theorem part_succ : Stable (.record .part) (readPart (n + 1)) := by
  have hparallel := Stable.oneList (t := .parallel) rfl h.part
  have hfetch : Stable (.record .fetch) readFetch :=
    .record rfl fun _ _ hr =>
      (hr.required (by simp [Typed.fields]) stable_readKey).bind fun _ =>
      (hr.slot (by simp [Typed.fields]) stable_readTag).bind fun _ => .refl _
  have hfetchAfter : Stable (.record .fetchAfter) (readFetchAfter (readOperation n)) :=
    .record rfl fun _ _ hr =>
      (hr.required (by simp [Typed.fields]) (.list stable_readKey)).bind fun _ =>
      (hr.required (by simp [Typed.fields]) h.operation).bind fun _ =>
      (hr.slot (by simp [Typed.fields]) stable_readTag).bind fun _ => .refl _
  rw [readPart_succ]
  exact .record rfl fun _ _ hr =>
    (hr.slot (by simp [Typed.fields]) (h.operation.map _)).bind fun _ =>
    (hr.slot (by simp [Typed.fields]) (hparallel.map _)).bind fun _ =>
    (hr.slot (by simp [Typed.fields]) hfetch).bind fun _ =>
    (hr.slot (by simp [Typed.fields]) hfetchAfter).bind fun _ => .refl _

end StableAt

/-- Readers with the same fuel call each other with less of it, so the induction takes them
together. -/
theorem stableAt : ∀ n : Nat, StableAt n
  | 0 => ⟨fun _ _ _ => .refl _, fun _ _ _ => .refl _, fun _ _ _ => .refl _, fun _ _ _ => .refl _,
    fun _ _ _ => .refl _⟩
  | n + 1 =>
    have h := stableAt n
    ⟨h.value_succ, h.pipeline_succ, h.part_succ, h.operation_succ, h.entry_succ⟩

/-- A request may lack its context, and its pipeline is required. -/
theorem stable_request : Stable (.record .request) Request.ofDocument? :=
  .record rfl fun _ _ hr =>
    (hr.required (by simp [Typed.fields]) (stableAt readFuel).pipeline).bind fun _ =>
    (hr.orElse (by simp [Typed.fields]) (.list (stableAt readFuel).entry)
      fun _ hd => hd ▸ rfl).bind fun _ => .refl _

theorem stable_partResult : Stable (.record .partResult) PartResult.ofDocument? :=
  .record rfl fun _ _ hr =>
    (hr.slot (by simp [Typed.fields]) stable_readTag).bind fun _ =>
    (hr.orElse (by simp [Typed.fields]) (.list (stableAt readFuel).entry)
      fun _ hd => hd ▸ rfl).bind fun _ => .refl _

theorem stable_finalResult : Stable (.record .finalResult) FinalResult.ofDocument? :=
  .record rfl fun _ _ hr =>
    (hr.slot (by simp [Typed.fields]) stable_readGuid).bind fun _ =>
    (hr.slot (by simp [Typed.fields]) (.leaf _)).bind fun _ => .refl _

/-- All three fields of a message are slots. -/
theorem stable_message : Stable (.record .message) Message.ofDocument? :=
  .record rfl fun _ _ hr =>
    (hr.slot (by simp [Typed.fields]) stable_finalResult).bind fun _ =>
    (hr.slot (by simp [Typed.fields]) stable_partResult).bind fun _ =>
    (hr.slot (by simp [Typed.fields])
      (Stable.oneField (t := .logMessage) rfl (.leaf _))).bind fun _ => .refl _

/-- What is read is read after any number of changes. -/
theorem Stable.refines {α : Type} {form : Form} {read : Document → Option α} {d d' : Document}
    (h : Stable form read) (hchanges : Changes form d d') : Refines (read d) (read d') := by
  induction hchanges with
  | refl => exact .refl _
  | tail _ hchange ih => exact fun a ha => h _ _ hchange a (ih a ha)

/-! ## Values without a known slot -/

/-- Slots that are null are not populated. -/
theorem readSlots_eq_nil {readPipeline : Document → Option Pipeline}
    (h : ∀ name ∈ valueSlots, r.find? name = none ∨ r.find? name = some .null) :
    readSlots readPipeline r = some [] := by
  have hslot : ∀ name ∈ valueSlots, ∀ {α : Type} (read : Document → Option α),
      r.slot name read = some none := by
    intro name hname α read
    obtain hnone | hnull := h name hname
    · rw [Record.slot, hnone]
    · rw [Record.slot, hnull]
  have hartifact : ∀ kind : ArtifactKind, kind.slot ∈ valueSlots := fun kind =>
    Payload.slot_mem_valueSlots (.artifact kind .null)
  simp [readSlots, hslot _ (hartifact _), ArtifactKind.all, hslot "string" (by simp [valueSlots]),
    hslot "uint32" (by simp [valueSlots]), hslot "bool" (by simp [valueSlots]),
    hslot "float" (by simp [valueSlots]), hslot "enum" (by simp [valueSlots]),
    hslot "strings" (by simp [valueSlots]), hslot "namesLog" (by simp [valueSlots]),
    hslot "hashesLog" (by simp [valueSlots]), hslot "pipeline" (by simp [valueSlots])]

/-- An object with no slot but null ones has nothing to read, and no slot may stand in it twice. -/
theorem ofDocument?_nulls {fields : List (String × Document)}
    (h : ∀ e ∈ fields, e.1 ∈ valueSlots → e.2 = .null) : Value.ofDocument? (.object fields) =
      if ((fields.map Prod.fst).filter valueSlots.contains).Nodup then some ⟨[]⟩ else none := by
  have hread : ∀ d, Value.ofDocument? d = (d.record? Typed.value.names).bind fun r =>
      (readSlots (readPipeline Document.maxDepth) r).bind fun slots => some ⟨slots⟩ :=
    fun d => congrFun (readValue_succ Document.maxDepth) d
  have hnames : (fields.map Prod.fst).filter valueSlots.contains =
      (Typed.value.known fields).map Prod.fst := List.filter_map
  rw [hread, hnames]
  split
  · next hnodup =>
    have hslots : ∀ name ∈ valueSlots,
        Record.find? ⟨true, Typed.value.known fields⟩ name = none ∨
          Record.find? ⟨true, Typed.value.known fields⟩ name = some .null := by
      intro name hname
      cases hfind : Record.find? ⟨true, Typed.value.known fields⟩ name with
      | none => exact .inl rfl
      | some d =>
        have hmem := List.mem_of_mem_filter ((Record.find?_eq_some_iff hnodup).1 hfind)
        exact .inr (congrArg some (h _ hmem hname))
    rw [record?_object_iff.2 ⟨hnodup, rfl⟩, Option.bind_some, readSlots_eq_nil hslots,
      Option.bind_some]
  · next hnodup =>
    cases hr : Document.record? Typed.value.names (.object fields) with
    | none => rfl
    | some r => exact absurd (record?_object_iff.1 hr).1 hnodup

/-- What is read from a document is read after any number of additive changes at any depth. A value
object in which at most unknown fields are not null has no slot to decode ; if it says twice that a
slot is null, it is not even read. -/
theorem additive_changes_unnoticed :
    (∀ d d', Changes (.record .value) d d' → ∀ v, Value.ofDocument? d = some v →
      Value.ofDocument? d' = some v) ∧
    (∀ d d', Changes (.record .part) d d' → ∀ p, Part.ofDocument? d = some p →
      Part.ofDocument? d' = some p) ∧
    (∀ d d', Changes (.record .pipeline) d d' → ∀ parts, Pipeline.ofDocument? d = some parts →
      Pipeline.ofDocument? d' = some parts) ∧
    (∀ d d', Changes (.record .request) d d' → ∀ r, Request.ofDocument? d = some r →
      Request.ofDocument? d' = some r) ∧
    (∀ d d', Changes (.record .message) d d' → ∀ m, Message.ofDocument? d = some m →
      Message.ofDocument? d' = some m) ∧
    ∀ fields : List (String × Document), (∀ e ∈ fields, e.1 ∈ valueSlots → e.2 = .null) →
      if ((fields.map Prod.fst).filter valueSlots.contains).Nodup then
        ∃ v, Value.ofDocument? (.object fields) = some v ∧ v.slots = [] ∧
          v.decode = .error (.malformed .noPayload)
      else Value.ofDocument? (.object fields) = none := by
  have h := stableAt readFuel
  refine ⟨fun _ _ => h.value.refines, fun _ _ => h.part.refines, fun _ _ => h.pipeline.refines,
    fun _ _ => stable_request.refines, fun _ _ => stable_message.refines, fun fields hnull => ?_⟩
  rw [ofDocument?_nulls hnull]
  split
  · exact ⟨_, rfl, rfl, rfl⟩
  · rfl

/-- A newer writer adds a slot and a null, and leaves out an empty configuration. -/
theorem additive_changes_unnoticed_nested :
    let entry (operation : List (String × Document)) (more : List (String × Document)) :=
      Document.object (more ++ [("pipeline",
        .object [("parts", .array [.object [("defaultPart", .object operation)]])])])
    Value.ofDocument? (entry [("name", .text "o")]
      [("newerSlot", .bool true), ("string", .null)]) =
        some ⟨[.pipeline [⟨[.operation ⟨"o", []⟩]⟩]]⟩ := by
  intro entry
  have hdrop : Change (.record .value)
      (entry [("configuration", .object []), ("name", .text "o")] [])
      (entry [("name", .text "o")] []) :=
    .field (f := ⟨"pipeline", .slot, .record .pipeline⟩) (by simp [Typed.fields]) <|
    .field (f := ⟨"parts", .defaulted, .list (.record .part)⟩) (by simp [Typed.fields]) <|
    @Change.item _ [] [] _ _ <|
    .field (f := ⟨"defaultPart", .slot, .record .operation⟩) (by simp [Typed.fields]) <|
    .dropDefault (f := ⟨"configuration", .defaulted, .record .configuration⟩)
      (by simp [Typed.fields]) rfl rfl
  have hnull : Change (.record .value) (entry [("name", .text "o")] [])
      (entry [("name", .text "o")] [("string", .null)]) :=
    .addNull (f := ⟨"string", .slot, .leaf⟩) (by simp [Typed.fields]) rfl (by simp)
  have hunknown : Change (.record .value) (entry [("name", .text "o")] [("string", .null)])
      (entry [("name", .text "o")] [("newerSlot", .bool true), ("string", .null)]) :=
    .unknown (.bool true) (by decide +kernel)
  have hchanges := ((Relation.ReflTransGen.single hdrop).tail hnull).tail hunknown
  exact additive_changes_unnoticed.1 _ _ hchanges _ rfl

end Wire
end MiningPipelines
