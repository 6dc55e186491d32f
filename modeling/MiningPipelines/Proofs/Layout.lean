import MiningPipelines.Proofs.JsonValue
import MiningPipelines.Proto.Artifact

/-!
# The layouts of analysis results

A `Layout` says which fields an analysis result has. `Layout.normal?` gives the normal form of a
document under it : fields that the layout does not have are dropped, absent ones get their
defaults, and the others are kept. What can be found in the document by way of the layout
(`Layout.look`) is found in the normal form as well (`Layout.look_normal`).

Each message of an analysis result has a layout, and reading a document into the message and
writing it again gives the normal form (`Proto.Artifact.describes`). What was written is read back
(`Proto.Artifact.ofDocument?_toJson`), so a normal form is its own normal form.
-/

namespace MiningPipelines

/-- Where no two elements have one name, each is found under its name. -/
theorem find?_of_nodup {α : Type} {f : α → String} {x : α} : ∀ {xs : List α}, (xs.map f).Nodup →
    x ∈ xs → xs.find? (fun y => f y == f x) = some x
  | y :: xs, hnodup, h => by
    obtain ⟨hy, hxs⟩ := List.nodup_cons.1 hnodup
    obtain rfl | h := List.mem_cons.1 h
    · simp
    · have hother : f y ≠ f x := fun hname => hy (hname ▸ List.mem_map_of_mem h)
      rw [List.find?_cons_of_neg (by simpa using hother), find?_of_nodup hxs h]

/-! ## The fields of a written object -/

namespace Json

theorem itemsToDocument_eq_map (items : List Json) :
    itemsToDocument items = items.map toDocument := by
  induction items with
  | nil => rfl
  | cons v rest ih => rw [itemsToDocument, ih, List.map_cons]

theorem fieldsToDocument_eq_map (fields : List (String × Json)) :
    fieldsToDocument fields = fields.map fun f => (f.1, f.2.toDocument) := by
  induction fields with
  | nil => rfl
  | cons f rest ih => rw [fieldsToDocument, ih, List.map_cons]

/-- A field that is put in is found under its name, and the others as before. -/
theorem find?_insertField (name key : String) (v : Json) (fields : List (String × Json)) :
    (insertField key v fields).find? (fun f => f.1 == name) =
      if key = name then some (key, v) else fields.find? (fun f => f.1 == name) := by
  induction fields with
  | nil => by_cases hname : key = name <;> simp [insertField, hname]
  | cons f fields ih =>
    obtain ⟨k, w⟩ := f
    rw [insertField]
    split
    · next hk =>
      subst hk
      by_cases hname : key = name <;> simp [hname]
    · next hk =>
      split
      · by_cases hname : key = name <;> simp [hname]
      · by_cases hname : key = name
        · have hother : k ≠ name := fun hother => hk (hname.trans hother.symm)
          rw [List.find?_cons_of_neg (by simpa using hother), ih, if_pos hname, if_pos hname]
        · rw [List.find?_cons, ih, if_neg hname, if_neg hname, List.find?_cons]

/-- Putting a field in keeps the keys in order. -/
theorem pairwise_insertField {key : String} {v : Json} {fields : List (String × Json)}
    (h : fields.Pairwise fun f g => f.1 < g.1) :
    (insertField key v fields).Pairwise fun f g => f.1 < g.1 := by
  induction fields with
  | nil => exact List.pairwise_singleton _ _
  | cons f fields ih =>
    obtain ⟨hf, hfields⟩ := List.pairwise_cons.1 h
    rw [insertField]
    split
    · next heq => exact List.pairwise_cons.2 ⟨heq ▸ hf, hfields⟩
    split
    · next hlt =>
      refine List.pairwise_cons.2 ⟨List.forall_mem_cons.2 ⟨hlt, fun g hg => ?_⟩, h⟩
      exact hlt.trans (hf g hg)
    · next hne hle =>
      refine List.pairwise_cons.2 ⟨fun g hg => ?_, ih hfields⟩
      obtain rfl | hg := mem_insertField hg
      · exact lt_of_le_of_ne (not_lt.1 hle) (Ne.symm hne)
      · exact hf g hg

/-- The fields of `Json.ofFields` are in key order, and of two with one key the later counts. -/
theorem exists_ofFields (fields : List (String × Json)) :
    ∃ sorted, ofFields fields = .object sorted ∧ sorted.Pairwise (fun f g => f.1 < g.1) ∧
      ∀ name, sorted.find? (fun f => f.1 == name) =
        fields.reverse.find? (fun f => f.1 == name) := by
  suffices h : ∀ (fields acc : List (String × Json)), acc.Pairwise (fun f g => f.1 < g.1) →
      (fields.foldl (fun acc f => insertField f.1 f.2 acc) acc).Pairwise (fun f g => f.1 < g.1) ∧
      ∀ name, (fields.foldl (fun acc f => insertField f.1 f.2 acc) acc).find?
          (fun f => f.1 == name) =
        (fields.reverse.find? (fun f => f.1 == name)).or (acc.find? fun f => f.1 == name) by
    obtain ⟨hsorted, hfind⟩ := h fields [] .nil
    exact ⟨_, rfl, hsorted, fun name => by rw [hfind, List.find?_nil, Option.or_none]⟩
  intro fields
  induction fields with
  | nil => exact fun acc hacc => ⟨hacc, fun name => rfl⟩
  | cons f fields ih =>
    intro acc hacc
    obtain ⟨key, v⟩ := f
    have hinsert : (insertField key v acc).Pairwise fun f g => f.1 < g.1 :=
      pairwise_insertField hacc
    obtain ⟨hsorted, hfind⟩ := ih _ hinsert
    refine ⟨hsorted, fun name => ?_⟩
    rw [List.foldl_cons, hfind, find?_insertField, List.reverse_cons, List.find?_append,
      Option.or_assoc]
    by_cases hname : key = name <;> simp [hname]

/-- A written object is a record of the fields that it was written with. -/
theorem exists_record?_ofFields (names : List String) (fields : List (String × Json)) :
    ∃ r, (ofFields fields).toDocument.record? names = some r ∧ ∀ name ∈ names,
      r.find? name = (fields.reverse.find? fun f => f.1 == name).map fun f => f.2.toDocument := by
  obtain ⟨sorted, hobject, hsorted, hfind⟩ := exists_ofFields fields
  have hnodup : ((sorted.map fun f => (f.1, f.2.toDocument)).map Prod.fst).Nodup := by
    rw [List.map_map]
    exact List.pairwise_map.2 (hsorted.imp fun h => h.ne)
  have hrecord : (ofFields fields).toDocument.record? names = some ⟨true,
      (sorted.map fun f => (f.1, f.2.toDocument)).filter fun f => names.contains f.1⟩ := by
    rw [hobject, toDocument, fieldsToDocument_eq_map]
    exact if_pos (hnodup.sublist (List.filter_sublist.map _))
  refine ⟨_, hrecord, fun name hname => ?_⟩
  have hpred : (fun f : String × Json => decide (names.contains f.1 ∧ f.1 == name)) =
      fun f => f.1 == name := by
    funext f
    by_cases hf : f.1 = name <;> simp [hf, hname]
  simp only [Record.find?, List.find?_filter, List.find?_map, Option.map_map, Function.comp_def,
    hpred, hfind]

end Json

/-! ## Layouts -/

/-- The fields that a document is looked through for. -/
inductive Layout where
  /-- A natural number below the bound. -/
  | natural (bound : Nat)
  | text
  | list (item : Layout)
  /-- Null stands for no content. -/
  | optional (content : Layout)
  | record (fields : List (String × Layout))

namespace Layout

mutual

/-- What stands for an absent field. -/
def default : Layout → Json
  | .natural _ => .ofNat 0
  | .text => .text ""
  | .list _ => .array []
  | .optional _ => .null
  | .record fields => .ofFields (defaults fields)

def defaults : List (String × Layout) → List (String × Json)
  | [] => []
  | (name, l) :: rest => (name, l.default) :: defaults rest

end

mutual

/-- The normal form of a document, if the document has the layout. -/
def normal? : Layout → Document → Option Json
  | .natural bound, d =>
    d.uint64?.bind fun n => if n.toNat < bound then some (.ofNat n.toNat) else none
  | .text, d => d.text?.map .text
  | .list item, d => (Document.list? (fun d => item.normal? d) d).map .array
  | .optional content, d => match d with
    | .null => some .null
    | d => content.normal? d
  | .record fields, d => do
    let r ← d.record? (fields.map Prod.fst)
    (normalFields? fields r).map .ofFields

/-- The fields of the layout, with what the record gives for them. -/
def normalFields? : List (String × Layout) → Record → Option (List (String × Json))
  | [], _ => some []
  | (name, l) :: rest, r => do
    let v ← (r.find? name).elim (some l.default) fun d => l.normal? d
    let vs ← normalFields? rest r
    some ((name, v) :: vs)

end

/-- Reading a document and writing what was read gives the normal form of the document. -/
def Describes {α : Type} (l : Layout) (read : Document → Option α) (write : α → Json) : Prop :=
  ∀ d, (read d).map write = l.normal? d

namespace Describes

variable {α : Type} {l : Layout} {read : Document → Option α} {write : α → Json}

/-- Natural numbers below the size of the type are read, and no others. -/
theorem uint64 : Describes (.natural UInt64.size) Document.uint64? fun n => .ofNat n.toNat := by
  intro d
  rw [normal?]
  cases d.uint64? with
  | none => rfl
  | some n => simp [n.toNat_lt_size]

theorem uint32 : Describes (.natural UInt32.size) Document.uint32? fun n => .ofNat n.toNat := by
  intro d
  rw [normal?, Document.uint32?]
  cases d.uint64? with
  | none => rfl
  | some n =>
    by_cases hn : n.toNat < UInt32.size
    · have hmod : n.toNat % UInt32.size = n.toNat := Nat.mod_eq_of_lt hn
      simp [hn, hmod]
    · simp [hn]

theorem texts : Describes .text Document.text? .text := fun _ => rfl

/-- Items are read and normalised one by one. -/
theorem mapM (h : Describes l read write) (ds : List Document) :
    (ds.mapM read).map (List.map write) = ds.mapM fun d => l.normal? d := by
  induction ds with
  | nil => rfl
  | cons d ds ih =>
    rw [List.mapM_cons, List.mapM_cons, ← ih, ← h d]
    cases read d <;> cases ds.mapM read <;> rfl

/-- A list is normal if its items are. -/
theorem list (h : Describes l read write) :
    Describes (.list l) (Document.list? read) fun as => .array (as.map write) := by
  intro d
  rw [normal?]
  cases d with
  | array ds =>
    rw [Document.list?, Document.list?, ← h.mapM, Option.map_map]
    rfl
  | _ => rfl

/-- A field with a default. -/
theorem orElse (h : Describes l read write) {a : α} (ha : write a = l.default) (r : Record)
    (name : String) : (r.orElse name a read).map write =
      (r.find? name).elim (some l.default) fun d => l.normal? d := by
  rw [Record.orElse]
  cases r.find? name with
  | none => exact congrArg some ha
  | some d => exact h d

/-- A field with a message of its own, which may be missing. -/
theorem slot (h : Describes l read write) (r : Record) (name : String) :
    (r.slot name read).map (fun o => (o.map write).getD .null) =
      (r.find? name).elim (some (optional l).default) fun d => (optional l).normal? d := by
  rw [Record.slot]
  cases r.find? name with
  | none => rfl
  | some d =>
    cases d with
    | null => rfl
    | _ =>
      rw [Option.elim_some, normal?, ← h, Option.map_map]
      · rfl
      · exact fun hd => by cases hd

/-- A record is described field by field. -/
theorem record {fields : List (String × Layout)} {read : Record → Option α}
    (h : ∀ r, (read r).map write = (normalFields? fields r).map .ofFields) :
    Describes (.record fields) (fun d => (d.record? (fields.map Prod.fst)).bind read) write := by
  intro d
  rw [normal?]
  change ((d.record? (fields.map Prod.fst)).bind read).map write = _
  cases d.record? (fields.map Prod.fst) with
  | none => rfl
  | some r => exact h r

end Describes

/-! ## What a normal form keeps -/

/-- A step into a document. -/
inductive Step where
  | field (name : String)
  | item (index : Nat)

mutual

/-- The number or text in a document at the end of a path through the layout. -/
def look : Layout → List Step → Document → Option Document
  | .natural _, [], d => some d
  | .text, [], d => some d
  | .list item, .item i :: path, .array ds => ds[i]?.bind fun d => item.look path d
  | .optional content, path, d => content.look path d
  | .record fields, .field name :: path, d =>
    (d.record? (fields.map Prod.fst)).bind fun r => lookField fields name path r
  | _, _, _ => none

def lookField : List (String × Layout) → String → List Step → Record → Option Document
  | [], _, _, _ => none
  | (k, l) :: rest, name, path, r =>
    if k = name then (r.find? name).bind fun d => l.look path d else lookField rest name path r

end

mutual

/-- No record of the layout has two fields of one name. -/
def Distinct : Layout → Prop
  | .list item => item.Distinct
  | .optional content => content.Distinct
  | .record fields => (fields.map Prod.fst).Nodup ∧ DistinctFields fields
  | _ => True

def DistinctFields : List (String × Layout) → Prop
  | [] => True
  | (_, l) :: rest => l.Distinct ∧ DistinctFields rest

end

/-- A normal record has all declared fields, in declared order. -/
theorem names_of_normalFields? {r : Record} : ∀ {fields : List (String × Layout)}
    {vs : List (String × Json)}, normalFields? fields r = some vs →
      vs.map Prod.fst = fields.map Prod.fst
  | [], _, h => by
    obtain rfl := Option.some.inj h
    rfl
  | (name, l) :: rest, _, h => by
    obtain ⟨v, -, h⟩ := Option.bind_eq_some_iff.1 h
    obtain ⟨vs, hvs, h⟩ := Option.bind_eq_some_iff.1 h
    obtain rfl := Option.some.inj h
    rw [List.map_cons, names_of_normalFields? hvs, List.map_cons]

/-- Items keep their places. -/
theorem exists_getElem?_of_mapM {f : Document → Option Json} {d : Document} :
    ∀ {ds : List Document} {js : List Json} {i : Nat}, ds.mapM f = some js → ds[i]? = some d →
      ∃ j, js[i]? = some j ∧ f d = some j
  | [], _, _, _, hd => by simp at hd
  | e :: ds, _, i, h, hd => by
    rw [List.mapM_cons] at h
    obtain ⟨j, hj, h⟩ := Option.bind_eq_some_iff.1 h
    obtain ⟨js, hjs, h⟩ := Option.bind_eq_some_iff.1 h
    obtain rfl := Option.some.inj h
    cases i with
    | zero =>
      obtain rfl := Option.some.inj hd
      exact ⟨j, rfl, hj⟩
    | succ i =>
      have hrest : ds[i]? = some d := hd
      obtain ⟨w, hw, hf⟩ := exists_getElem?_of_mapM hjs hrest
      exact ⟨w, hw, hf⟩

mutual

/-- A number or text that the layout leads to stands in the normal form where it was. -/
theorem look_normal : ∀ {l : Layout}, l.Distinct → ∀ {path : List Step} {d x : Document} {j : Json},
    l.normal? d = some j → l.look path d = some x → l.look path j.toDocument = some x
  | .natural bound, _, [], d, x, j, hj, hx => by
    obtain rfl := Option.some.inj hx
    obtain ⟨n, hn, hj⟩ := Option.bind_eq_some_iff.1 hj
    obtain ⟨-, hj⟩ := Option.ite_none_right_eq_some.1 hj
    obtain rfl := Option.some.inj hj
    cases d with
    | number m =>
      cases m with
      | natural m =>
        obtain rfl := Option.some.inj hn
        rw [Json.ofNat, UInt64.ofNat_toNat]
        rfl
      | _ => cases hn
    | _ => cases hn
  | .text, _, [], d, x, j, hj, hx => by
    obtain rfl := Option.some.inj hx
    cases d with
    | text s =>
      obtain rfl := Option.some.inj hj
      rfl
    | _ => cases hj
  | .list item, h, .item i :: path, d, x, j, hj, hx => by
    cases d with
    | array ds =>
      obtain ⟨e, he, hx⟩ := Option.bind_eq_some_iff.1 hx
      obtain ⟨js, hjs, rfl⟩ := Option.map_eq_some_iff.1 hj
      obtain ⟨v, hv, hnormal⟩ := exists_getElem?_of_mapM hjs he
      have hitem : item.Distinct := h
      rw [Json.toDocument, Json.itemsToDocument_eq_map, look, List.getElem?_map, hv]
      exact look_normal hitem hnormal hx
    | _ => cases hx
  | .optional content, h, path, d, x, j, hj, hx => by
    have hcontent : content.Distinct := h
    rw [look] at hx ⊢
    by_cases hd : d = .null
    · subst hd
      obtain rfl := Option.some.inj hj
      exact hx
    · rw [normal?] at hj
      · exact look_normal hcontent hj hx
      · exact hd
  | .record fields, ⟨hnodup, h⟩, .field name :: path, d, x, j, hj, hx => by
    obtain ⟨r, hr, hx⟩ := Option.bind_eq_some_iff.1 hx
    rw [normal?, hr] at hj
    obtain ⟨vs, hvs, rfl⟩ := Option.map_eq_some_iff.1 hj
    obtain ⟨v, hv, hlook⟩ := lookField_normal h hvs hx
    have hnames := names_of_normalFields? hvs
    have hname : name ∈ fields.map Prod.fst := hnames ▸ List.mem_map_of_mem hv
    -- The object of the normal form has its fields in another order. As no name comes twice, each
    -- is found as it was.
    obtain ⟨s, hs, hfind⟩ := Json.exists_record?_ofFields (fields.map Prod.fst) vs
    have hreverse : (vs.reverse.map Prod.fst).Nodup := by
      rw [List.map_reverse, hnames]
      exact List.pairwise_reverse.2 (hnodup.imp Ne.symm)
    have hsfind : s.find? name = some v.toDocument := by
      rw [hfind name hname, find?_of_nodup (x := (name, v)) hreverse (List.mem_reverse.2 hv)]
      rfl
    rw [look, hs, Option.bind_some]
    exact hlook hsfind
  | .natural _, _, _ :: _, _, _, _, _, hx | .text, _, _ :: _, _, _, _, _, hx
  | .list _, _, [], _, _, _, _, hx | .list _, _, .field _ :: _, _, _, _, _, hx
  | .record _, _, [], _, _, _, _, hx | .record _, _, .item _ :: _, _, _, _, _, hx => by
    simp [look] at hx

/-- What is found under a path is found there in the normal form too. -/
theorem lookField_normal {r : Record} {name : String} : ∀ {fields : List (String × Layout)},
    DistinctFields fields → ∀ {path : List Step} {x : Document} {vs : List (String × Json)},
      normalFields? fields r = some vs → lookField fields name path r = some x →
        ∃ v, (name, v) ∈ vs ∧ ∀ {s : Record}, s.find? name = some v.toDocument →
          lookField fields name path s = some x
  | [], _, _, _, _, _, hx => by cases hx
  | (k, l) :: rest, ⟨hl, hrest⟩, path, x, _, hall, hx => by
    obtain ⟨v, hv, h⟩ := Option.bind_eq_some_iff.1 hall
    obtain ⟨vs, hvs, h⟩ := Option.bind_eq_some_iff.1 h
    obtain rfl := Option.some.inj h
    rw [lookField] at hx
    split at hx
    · next hk =>
      subst hk
      obtain ⟨d, hd, hx⟩ := Option.bind_eq_some_iff.1 hx
      rw [hd] at hv
      refine ⟨v, List.mem_cons_self, fun hs => ?_⟩
      rw [lookField, if_pos rfl, hs]
      exact look_normal hl hv hx
    · next hk =>
      obtain ⟨w, hw, hlook⟩ := lookField_normal hrest hvs hx
      refine ⟨w, List.mem_cons_of_mem _ hw, fun hs => ?_⟩
      rw [lookField, if_neg hk]
      exact hlook hs

end

end Layout

namespace Proto

open Layout

/-! ## The layouts of the messages -/

def SubArray.layout : Layout :=
  .record [("start", .natural UInt32.size), ("end", .natural UInt32.size)]

/-- A number that is left out is zero. -/
theorem SubArray.describes : Describes layout SubArray.ofDocument? SubArray.toJson := by
  refine .record fun r => ?_
  simp only [normalFields?, ← Describes.uint32.orElse (a := 0) rfl]
  cases r.orElse "start" 0 Document.uint32? <;> cases r.orElse "end" 0 Document.uint32? <;> rfl

def IndexedSubArray.layout : Layout :=
  .record [("subArray", .optional SubArray.layout), ("traceIndex", .natural UInt32.size)]

theorem IndexedSubArray.describes :
    Describes layout IndexedSubArray.ofDocument? IndexedSubArray.toJson := by
  refine .record fun r => ?_
  simp only [normalFields?, ← Describes.uint32.orElse (a := 0) rfl, ← SubArray.describes.slot]
  cases r.slot "subArray" SubArray.ofDocument? <;>
    cases r.orElse "traceIndex" 0 Document.uint32? <;> rfl

def Color.layout : Layout :=
  .record [("red", .natural UInt32.size), ("green", .natural UInt32.size),
    ("blue", .natural UInt32.size)]

theorem Color.describes : Describes layout Color.ofDocument? Color.toJson := by
  refine .record fun r => ?_
  simp only [normalFields?, ← Describes.uint32.orElse (a := 0) rfl]
  cases r.orElse "red" 0 Document.uint32? <;> cases r.orElse "green" 0 Document.uint32? <;>
    cases r.orElse "blue" 0 Document.uint32? <;> rfl

def Rectangle.layout : Layout :=
  .record [("color", .optional Color.layout), ("startIndex", .natural UInt32.size),
    ("length", .natural UInt32.size), ("name", .text)]

/-- Of a rectangle the color alone may be null; whatever else is left out has its default. -/
theorem Rectangle.describes : Describes layout Rectangle.ofDocument? Rectangle.toJson := by
  refine .record fun r => ?_
  simp only [normalFields?, ← Describes.uint32.orElse (a := 0) rfl, ← Color.describes.slot,
    ← Describes.texts.orElse (a := "") rfl]
  cases r.slot "color" Color.ofDocument? <;> cases r.orElse "startIndex" 0 Document.uint32? <;>
    cases r.orElse "length" 0 Document.uint32? <;> cases r.orElse "name" "" Document.text? <;> rfl

def EventLogInfo.layout : Layout :=
  .record [("eventsCount", .natural UInt32.size), ("tracesCount", .natural UInt32.size),
    ("eventClassesCount", .natural UInt32.size)]

theorem EventLogInfo.describes :
    Describes layout EventLogInfo.ofDocument? EventLogInfo.toJson := by
  refine .record fun r => ?_
  simp only [normalFields?, ← Describes.uint32.orElse (a := 0) rfl]
  cases r.orElse "eventsCount" 0 Document.uint32? <;>
    cases r.orElse "tracesCount" 0 Document.uint32? <;>
    cases r.orElse "eventClassesCount" 0 Document.uint32? <;> rfl

def GraphNode.layout : Layout := .record [("id", .natural UInt64.size), ("data", .text)]

theorem GraphNode.describes : Describes layout GraphNode.ofDocument? GraphNode.toJson := by
  refine .record fun r => ?_
  simp only [normalFields?, ← Describes.uint64.orElse (a := 0) rfl,
    ← Describes.texts.orElse (a := "") rfl]
  cases r.orElse "id" 0 Document.uint64? <;> cases r.orElse "data" "" Document.text? <;> rfl

def GraphEdge.layout : Layout :=
  .record [("fromNode", .natural UInt64.size), ("toNode", .natural UInt64.size), ("data", .text)]

theorem GraphEdge.describes : Describes layout GraphEdge.ofDocument? GraphEdge.toJson := by
  refine .record fun r => ?_
  simp only [normalFields?, ← Describes.uint64.orElse (a := 0) rfl,
    ← Describes.texts.orElse (a := "") rfl]
  cases r.orElse "fromNode" 0 Document.uint64? <;> cases r.orElse "toNode" 0 Document.uint64? <;>
    cases r.orElse "data" "" Document.text? <;> rfl

def Graph.layout : Layout :=
  .record [("nodes", .list GraphNode.layout), ("edges", .list GraphEdge.layout)]

/-- A list that is left out is empty. -/
theorem Graph.describes : Describes layout Graph.ofDocument? Graph.toJson := by
  refine .record fun r => ?_
  simp only [normalFields?, ← GraphNode.describes.list.orElse (a := []) rfl,
    ← GraphEdge.describes.list.orElse (a := []) rfl]
  cases r.orElse "nodes" [] (Document.list? GraphNode.ofDocument?) <;>
    cases r.orElse "edges" [] (Document.list? GraphEdge.ofDocument?) <;> rfl

/-- The layout of a record with one list. -/
def listLayout (name : String) (item : Layout) : Layout := .record [(name, .list item)]

/-- A record of one list is described by the items. -/
theorem describes_list {α : Type} {l : Layout} {read : Document → Option α} {write : α → Json}
    (h : Describes l read write) (name : String) :
    Describes (listLayout name l)
      (fun d => (d.record? [name]).bind fun r => r.orElse name [] (Document.list? read))
      (fun as => .ofFields [(name, .array (as.map write))]) := by
  refine .record fun r => ?_
  simp only [normalFields?, ← h.list.orElse (a := []) rfl]
  cases r.orElse name [] (Document.list? read) <;> rfl

namespace Artifact

/-- The layout of the results of a kind that has a message. -/
def layout? : ArtifactKind → Option Layout
  | .colorsLog => some (listLayout "traces" (listLayout "eventColors" Rectangle.layout))
  | .eventLogInfo => some EventLogInfo.layout
  | .graph => some Graph.layout
  | .tracesSubArrays => some (listLayout "tracesSubArrays" (listLayout "subArrays" SubArray.layout))
  | .traceIndexSubArrays => some (listLayout "subArrays" IndexedSubArray.layout)
  | _ => none

/-- Reading a result into its message and writing it again gives its normal form. -/
theorem describes (d : Document) (kind : ArtifactKind) :
    (ofDocument? d kind).map toJson = (layout? kind).bind fun l => l.normal? d := by
  have hmap : ∀ {α : Type} {l : Layout} {read : Document → Option α} {write : α → Json}
      (make : α → Artifact), Describes l read write → (∀ a, (make a).toJson = write a) →
        ((read d).map make).map toJson = l.normal? d := by
    intro α l read write make h hmake
    rw [Option.map_map, ← h d]
    exact congrArg (Option.map · (read d)) (funext hmake)
  cases kind with
  | colorsLog =>
    exact hmap colorsLog
      (describes_list (describes_list Rectangle.describes "eventColors") "traces") fun _ => rfl
  | eventLogInfo => exact hmap eventLogInfo EventLogInfo.describes fun _ => rfl
  | graph => exact hmap graph Graph.describes fun _ => rfl
  | tracesSubArrays =>
    exact hmap tracesSubArrays
      (describes_list (describes_list SubArray.describes "subArrays") "tracesSubArrays")
      fun _ => rfl
  | traceIndexSubArrays =>
    exact hmap traceIndexSubArrays (describes_list IndexedSubArray.describes "subArrays")
      fun _ => rfl
  | _ => rfl

end Artifact

/-! ## What was written is read back -/

section

variable {α β : Type} {read : Document → Option α} {write : α → Json}

@[simp]
theorem uint64?_ofNat (n : UInt64) : (Json.ofNat n.toNat).toDocument.uint64? = some n :=
  congrArg some UInt64.ofNat_toNat

@[simp]
theorem uint32?_ofNat (n : UInt32) : (Json.ofNat n.toNat).toDocument.uint32? = some n := by
  simp [Json.ofNat, Json.toDocument, Document.uint32?, Document.uint64?, n.toNat_lt_size]

@[simp]
theorem text?_text (s : String) : (Json.text s).toDocument.text? = some s := rfl

/-- A written list is read item by item. -/
theorem list?_map (read : Document → Option β) (as : List α) :
    Document.list? read (Json.array (as.map write)).toDocument =
      as.mapM fun a => read (write a).toDocument := by
  rw [Json.toDocument, Json.itemsToDocument_eq_map, Document.list?, List.map_map]
  induction as with
  | nil => rfl
  | cons a as ih =>
    rw [List.map_cons, List.mapM_cons, List.mapM_cons, ih]
    rfl

/-- A list is read back if each of its items is. -/
theorem list?_array (h : ∀ a, read (write a).toDocument = some a) (as : List α) :
    Document.list? read (Json.array (as.map write)).toDocument = some as := by
  rw [list?_map, funext h]
  simpa using List.mapM_pure (m := Option) (f := id) (l := as)

/-- A record with one list is read item by item. -/
theorem readList_map (read : Document → Option β) (name : String) (as : List α) :
    ((Json.ofFields [(name, .array (as.map write))]).toDocument.record? [name]).bind
      (fun r => r.orElse name [] (Document.list? read)) =
        as.mapM fun a => read (write a).toDocument := by
  obtain ⟨r, hr, hfind⟩ := Json.exists_record?_ofFields [name] [(name, .array (as.map write))]
  rw [hr, ← list?_map]
  simp [Record.orElse, hfind]

/-- A record with one list is read with its items. -/
theorem readList_ofFields (h : ∀ a, read (write a).toDocument = some a) (name : String)
    (as : List α) :
    ((Json.ofFields [(name, .array (as.map write))]).toDocument.record? [name]).bind
      (fun r => r.orElse name [] (Document.list? read)) = some as := by
  rw [readList_map, ← list?_map, list?_array h]

/-- A field with a message of its own, which may be missing. -/
theorem slot_getD_null (h : ∀ a, read (write a).toDocument = some a)
    (hnull : ∀ a, (write a).toDocument ≠ .null) {r : Record} {name : String} {o : Option α}
    (hr : r.find? name = some ((o.map write).getD .null).toDocument) :
    r.slot name read = some o := by
  rw [Record.slot, hr]
  cases o with
  | none => rfl
  | some a =>
    rw [Option.map_some, Option.getD_some]
    split
    · contradiction
    · next hd => exact absurd (Option.some.inj hd) (hnull a)
    · next hd => rw [← Option.some.inj hd, h a, Option.map_some]

end

/-- The fields are found whatever order the keys are put in. -/
theorem SubArray.ofDocument?_toJson (a : SubArray) :
    SubArray.ofDocument? a.toJson.toDocument = some a := by
  obtain ⟨r, hr, hfind⟩ := Json.exists_record?_ofFields ["start", "end"]
    [("start", .ofNat a.start.toNat), ("end", .ofNat a.stop.toNat)]
  rw [SubArray.ofDocument?, SubArray.toJson, hr]
  simp [Record.orElse, hfind]

theorem SubArray.listOfDocument?_listToJson (arrays : List SubArray) :
    SubArray.listOfDocument? (SubArray.listToJson arrays).toDocument = some arrays :=
  readList_ofFields SubArray.ofDocument?_toJson "subArrays" arrays

/-- A record of records of sub-arrays. -/
theorem SubArray.listsOfDocument?_listsToJson (traces : List (List SubArray)) :
    SubArray.listsOfDocument? (SubArray.listsToJson traces).toDocument = some traces :=
  readList_ofFields SubArray.listOfDocument?_listToJson "tracesSubArrays" traces

/-- A sub-array that is missing is written as null and read as missing. -/
theorem IndexedSubArray.ofDocument?_toJson (a : IndexedSubArray) :
    IndexedSubArray.ofDocument? a.toJson.toDocument = some a := by
  obtain ⟨r, hr, hfind⟩ := Json.exists_record?_ofFields ["subArray", "traceIndex"]
    [("subArray", (a.subArray.map SubArray.toJson).getD .null),
      ("traceIndex", .ofNat a.traceIndex.toNat)]
  have hslot : r.slot "subArray" SubArray.ofDocument? = some a.subArray := by
    refine slot_getD_null SubArray.ofDocument?_toJson ?_ (by simp [hfind])
    simp [SubArray.toJson, Json.ofFields, Json.toDocument]
  rw [IndexedSubArray.ofDocument?, IndexedSubArray.toJson, hr]
  simp [Record.orElse, hfind, hslot]

theorem IndexedSubArray.listOfDocument?_listToJson (arrays : List IndexedSubArray) :
    IndexedSubArray.listOfDocument? (IndexedSubArray.listToJson arrays).toDocument = some arrays :=
  readList_ofFields IndexedSubArray.ofDocument?_toJson "subArrays" arrays

theorem Color.ofDocument?_toJson (c : Color) :
    Color.ofDocument? c.toJson.toDocument = some c := by
  obtain ⟨r, hr, hfind⟩ := Json.exists_record?_ofFields ["red", "green", "blue"]
    [("red", .ofNat c.red.toNat), ("green", .ofNat c.green.toNat), ("blue", .ofNat c.blue.toNat)]
  rw [Color.ofDocument?, Color.toJson, hr]
  simp [Record.orElse, hfind]

/-- A color that is missing is written as null and read as missing. -/
theorem Rectangle.ofDocument?_toJson (a : Rectangle) :
    Rectangle.ofDocument? a.toJson.toDocument = some a := by
  obtain ⟨r, hr, hfind⟩ := Json.exists_record?_ofFields ["color", "startIndex", "length", "name"]
    [("color", (a.color.map Color.toJson).getD .null), ("startIndex", .ofNat a.startIndex.toNat),
      ("length", .ofNat a.length.toNat), ("name", .text a.name)]
  have hslot : r.slot "color" Color.ofDocument? = some a.color := by
    refine slot_getD_null Color.ofDocument?_toJson ?_ (by simp [hfind])
    simp [Color.toJson, Json.ofFields, Json.toDocument]
  rw [Rectangle.ofDocument?, Rectangle.toJson, hr]
  simp [Record.orElse, hfind, hslot]

theorem Rectangle.listOfDocument?_listToJson (rectangles : List Rectangle) :
    Rectangle.listOfDocument? (Rectangle.listToJson rectangles).toDocument = some rectangles :=
  readList_ofFields Rectangle.ofDocument?_toJson "eventColors" rectangles

theorem Rectangle.listsOfDocument?_listsToJson (traces : List (List Rectangle)) :
    Rectangle.listsOfDocument? (Rectangle.listsToJson traces).toDocument = some traces :=
  readList_ofFields Rectangle.listOfDocument?_listToJson "traces" traces

theorem EventLogInfo.ofDocument?_toJson (info : EventLogInfo) :
    EventLogInfo.ofDocument? info.toJson.toDocument = some info := by
  obtain ⟨r, hr, hfind⟩ := Json.exists_record?_ofFields
    ["eventsCount", "tracesCount", "eventClassesCount"]
    [("eventsCount", .ofNat info.events.toNat), ("tracesCount", .ofNat info.traces.toNat),
      ("eventClassesCount", .ofNat info.eventClasses.toNat)]
  rw [EventLogInfo.ofDocument?, EventLogInfo.toJson, hr]
  simp [Record.orElse, hfind]

theorem GraphNode.ofDocument?_toJson (v : GraphNode) :
    GraphNode.ofDocument? v.toJson.toDocument = some v := by
  obtain ⟨r, hr, hfind⟩ := Json.exists_record?_ofFields ["id", "data"]
    [("id", .ofNat v.id.toNat), ("data", .text v.data)]
  rw [GraphNode.ofDocument?, GraphNode.toJson, hr]
  simp [Record.orElse, hfind]

theorem GraphEdge.ofDocument?_toJson (e : GraphEdge) :
    GraphEdge.ofDocument? e.toJson.toDocument = some e := by
  obtain ⟨r, hr, hfind⟩ := Json.exists_record?_ofFields ["fromNode", "toNode", "data"]
    [("fromNode", .ofNat e.source.toNat), ("toNode", .ofNat e.target.toNat),
      ("data", .text e.data)]
  rw [GraphEdge.ofDocument?, GraphEdge.toJson, hr]
  simp [Record.orElse, hfind]

/-- Nodes and edges come back in their order. -/
theorem Graph.ofDocument?_toJson (g : Graph) :
    Graph.ofDocument? g.toJson.toDocument = some g := by
  obtain ⟨r, hr, hfind⟩ := Json.exists_record?_ofFields ["nodes", "edges"]
    [("nodes", .array (g.nodes.map GraphNode.toJson)),
      ("edges", .array (g.edges.map GraphEdge.toJson))]
  rw [Graph.ofDocument?, Graph.toJson, hr]
  simp [Record.orElse, hfind, list?_array GraphNode.ofDocument?_toJson,
    list?_array GraphEdge.ofDocument?_toJson]

/-- A message that was written is read back. -/
theorem Artifact.ofDocument?_toJson : ∀ a : Artifact,
    Artifact.ofDocument? a.toJson.toDocument a.kind = some a
  | colorsLog traces =>
    congrArg (Option.map colorsLog) (Rectangle.listsOfDocument?_listsToJson traces)
  | eventLogInfo info => congrArg (Option.map eventLogInfo) info.ofDocument?_toJson
  | graph g => congrArg (Option.map graph) g.ofDocument?_toJson
  | tracesSubArrays traces =>
    congrArg (Option.map tracesSubArrays) (SubArray.listsOfDocument?_listsToJson traces)
  | traceIndexSubArrays arrays =>
    congrArg (Option.map traceIndexSubArrays) (IndexedSubArray.listOfDocument?_listToJson arrays)

namespace Artifact

/-- No layout names a field twice. -/
theorem distinct_layout {kind : ArtifactKind} {l : Layout} (h : layout? kind = some l) :
    l.Distinct := by
  cases kind with
  | petriNet | labeledDataset | tracesActivities => cases h
  | _ =>
    obtain rfl := Option.some.inj h
    simp [EventLogInfo.layout, Graph.layout, GraphNode.layout, GraphEdge.layout, Rectangle.layout,
      Color.layout, SubArray.layout, IndexedSubArray.layout, listLayout, Distinct, DistinctFields]

/-- A document is read for the kind that is asked for. -/
theorem kind_of_ofDocument? {d : Document} {kind : ArtifactKind} {a : Artifact}
    (h : ofDocument? d kind = some a) : a.kind = kind := by
  cases kind with
  | petriNet | labeledDataset | tracesActivities => cases h
  | _ =>
    obtain ⟨_, -, rfl⟩ := Option.map_eq_some_iff.1 h
    rfl

/-- A result after a trip through its message; one that does not fit a message stays. -/
def settle (kind : ArtifactKind) (j : Json) : Json :=
  ((ofDocument? j.toDocument kind).map toJson).getD j

/-- What a trip through a message makes of a result : it fills in what the layout has, and a
second trip changes nothing. -/
structure Settled (kind : ArtifactKind) (j i : Json) (l : Layout) : Prop where
  layout : layout? kind = some l
  normal : l.normal? j.toDocument = some i
  stable : l.normal? i.toDocument = some i
  /-- Numbers and texts that the layout leads to stay. -/
  kept : ∀ path x, l.look path j.toDocument = some x → l.look path i.toDocument = some x

/-- A result that fits its kind is settled along the layout of the kind. -/
theorem settled {kind : ArtifactKind} {j : Json}
    (h : (ofDocument? j.toDocument kind).isSome) : ∃ l, Settled kind j (settle kind j) l := by
  obtain ⟨a, ha⟩ := Option.isSome_iff_exists.1 h
  have hsettle : settle kind j = a.toJson := by rw [settle, ha]; rfl
  obtain ⟨l, hl, hnormal⟩ : ∃ l, layout? kind = some l ∧
      l.normal? j.toDocument = some a.toJson := by
    have hmap : (ofDocument? j.toDocument kind).map toJson = some a.toJson := by rw [ha]; rfl
    rw [describes] at hmap
    exact Option.bind_eq_some_iff.1 hmap
  have hagain := describes a.toJson.toDocument kind
  rw [← kind_of_ofDocument? ha, a.ofDocument?_toJson, kind_of_ofDocument? ha, hl] at hagain
  rw [hsettle]
  exact ⟨l, hl, hnormal, hagain.symm, fun _ _ => look_normal (distinct_layout hl) hnormal⟩

/-- A result that came from its message goes into it as it is. -/
theorem ofDocument?_settle (kind : ArtifactKind) (j : Json) :
    ofDocument? (settle kind j).toDocument kind = ofDocument? j.toDocument kind := by
  cases ha : ofDocument? j.toDocument kind with
  | none => rw [settle, ha, Option.map_none, Option.getD_none, ha]
  | some a =>
    rw [settle, ha, Option.map_some, Option.getD_some, ← kind_of_ofDocument? ha]
    exact a.ofDocument?_toJson

end Artifact

end Proto

end MiningPipelines
