import Mathlib.Data.List.Lex
import MiningPipelines.Proofs.Everywhere
import MiningPipelines.Proofs.Layout
import MiningPipelines.Schema

/-!
# The first fault of a pipeline

Positions are compared as words in a dictionary. That is depth first : an operation comes
before everything inside it, and that before its later siblings. `Pipeline.operationAt?`
looks up the operation at a position.

An operation conforms to a table (`Operation.Conforms`) if it has a schema that admits its
entries, and if it does not, its first fault has a cause (`Operation.Violates`). Validation
reports the cause at the first position whose operation does not conform, and this is what
it passes on at each part (`Search`) : one lemma for the check of a part itself, one for
branches that are walked one after the other.

`Pipeline.validate_firstFault` says so of a whole pipeline. Where the schemas list no key
twice, as in the builtin table, an entry is admitted exactly if its schema lists a key of
its name and kind (`Pipeline.validate_eq_ok_iff_of_nodup`).
-/

namespace MiningPipelines

/-! ## Checks in a row -/

section Row

variable {β ε : Type} {f : β → Except ε Unit}

theorem forM_cons_eq (x : β) (rest : List β) :
    (x :: rest).forM f = f x >>= fun _ => rest.forM f :=
  rfl

/-- A row of checks passes if each of them does. -/
theorem forM_eq_ok_iff {xs : List β} : xs.forM f = .ok () ↔ ∀ x ∈ xs, f x = .ok () := by
  induction xs with
  | nil => exact ⟨fun _ => List.forall_mem_nil _, fun _ => rfl⟩
  | cons x rest ih => rw [forM_cons_eq, check_bind_eq_ok_iff, ih, List.forall_mem_cons]

/-- A row of checks fails as the first of them that fails. -/
theorem forM_eq_error_iff {cause : ε} {xs : List β} : xs.forM f = .error cause ↔
    ∃ i x, xs[i]? = some x ∧ f x = .error cause ∧ ∀ y ∈ xs.take i, f y = .ok () := by
  induction xs with
  | nil => exact ⟨fun h => (nomatch h), fun ⟨_, _, hx, _⟩ => (nomatch hx)⟩
  | cons x rest ih =>
    rw [forM_cons_eq]
    constructor
    · intro h
      cases hx : f x with
      | error cause' =>
        rw [hx] at h
        exact ⟨0, x, rfl, hx.trans h, List.forall_mem_nil _⟩
      | ok u =>
        rw [hx, ok_bind, ih] at h
        obtain ⟨i, y, hy, hcause, hbefore⟩ := h
        exact ⟨i + 1, y, hy, hcause, List.forall_mem_cons.2 ⟨hx, hbefore⟩⟩
    · rintro ⟨i, y, hy, hcause, hbefore⟩
      cases i with
      | zero =>
        obtain rfl := Option.some.inj hy
        rw [hcause]
        rfl
      | succ i =>
        obtain ⟨hx, hbefore⟩ := List.forall_mem_cons.1 hbefore
        rw [hx, ok_bind]
        exact ih.2 ⟨i, y, hy, hcause, hbefore⟩

end Row

/-! ## Searching a tree -/

section Search

variable {α β ε : Type} {check : α → Except ε Unit}

/-- The outcome of checking what a tree has at its positions : either everything passes, or
the check fails at a position and everything before it passes. -/
inductive Search (check : α → Except ε Unit) (look : List Nat → Option α) :
    Except ε Unit → Prop
  | clear : (∀ pos a, look pos = some a → check a = .ok ()) → Search check look (.ok ())
  | fault {pos : List Nat} {a : α} {cause : ε} : look pos = some a → check a = .error cause →
      (∀ pos' < pos, ∀ b, look pos' = some b → check b = .ok ()) →
      Search check look (.error cause)

namespace Search

variable {look : List Nat → Option α} {x y : Except ε Unit}

/-- A search has one outcome. -/
theorem unique (hx : Search check look x) (hy : Search check look y) : x = y := by
  cases hx with
  | clear hall =>
    cases hy with
    | clear _ => rfl
    | fault ha hcause _ => cases (hall _ _ ha).symm.trans hcause
  | @fault pos a cause ha hcause hbefore =>
    cases hy with
    | clear hall => cases (hall _ _ ha).symm.trans hcause
    | @fault pos' a' cause' ha' hcause' hbefore' =>
      rcases lt_trichotomy pos pos' with hlt | rfl | hlt
      · cases (hbefore' _ hlt _ ha).symm.trans hcause
      · obtain rfl := Option.some.inj (ha.symm.trans ha')
        exact hcause.symm.trans hcause'
      · cases (hbefore _ hlt _ ha').symm.trans hcause'

/-- A search that finds nothing has looked everywhere. -/
theorem eq_ok_iff (hx : Search check look x) :
    x = .ok () ↔ ∀ pos a, look pos = some a → check a = .ok () := by
  constructor
  · rintro rfl
    cases hx with
    | clear hall => exact hall
  · intro hall
    exact hx.unique (.clear hall)

/-- A search finds the first fault, by position. -/
theorem eq_error_iff (hx : Search check look x) {cause : ε} :
    x = .error cause ↔ ∃ pos a, look pos = some a ∧ check a = .error cause ∧
      ∀ pos' < pos, ∀ b, look pos' = some b → check b = .ok () := by
  constructor
  · rintro rfl
    cases hx with
    | fault ha hcause hbefore => exact ⟨_, _, ha, hcause, hbefore⟩
  · rintro ⟨pos, a, ha, hcause, hbefore⟩
    exact hx.unique (.fault ha hcause hbefore)

section Node

variable {f : β → Except ε Unit} {inner : β → List Nat → Option α} {xs : List β}
  (h : ∀ x ∈ xs, Search check (inner x) (f x))
  (hcons : ∀ i rest, look (i :: rest) = xs[i]?.bind fun x => inner x rest)

include h hcons

/-- Under a root that passes, one branch is searched after the other. -/
theorem under (hroot : ∀ a, look [] = some a → check a = .ok ()) :
    Search check look (xs.forM f) := by
  have hinside : ∀ {i rest a}, look (i :: rest) = some a →
      ∃ x, xs[i]? = some x ∧ inner x rest = some a :=
    fun ha => Option.bind_eq_some_iff.1 (hcons _ _ ▸ ha)
  cases hrow : xs.forM f with
  | ok u =>
    refine .clear fun pos a ha => ?_
    cases pos with
    | nil => exact hroot a ha
    | cons i rest =>
      obtain ⟨x, hx, ha⟩ := hinside ha
      have hmem := List.mem_of_getElem? hx
      exact (h x hmem).eq_ok_iff.1 (forM_eq_ok_iff.1 hrow x hmem) rest a ha
  | error cause =>
    obtain ⟨i, x, hx, hcause, hearlier⟩ := forM_eq_error_iff.1 hrow
    obtain ⟨rest, a, ha, hfault, hbefore⟩ :=
      (h x (List.mem_of_getElem? hx)).eq_error_iff.1 hcause
    have hlook : look (i :: rest) = some a := by rw [hcons, hx, Option.bind_some, ha]
    refine .fault hlook hfault fun pos' hlt b hb => ?_
    cases pos' with
    | nil => exact hroot b hb
    | cons j rest' =>
      obtain ⟨y, hy, hb⟩ := hinside hb
      rcases List.cons_lt_cons_iff.1 hlt with hj | ⟨rfl, hrest⟩
      · -- an earlier branch, which passed as a whole
        have hmem : y ∈ xs.take i := List.mem_of_getElem? (by rwa [List.getElem?_take, if_pos hj])
        exact (h y (List.mem_of_getElem? hy)).eq_ok_iff.1 (hearlier y hmem) rest' b hb
      · obtain rfl := Option.some.inj (hx.symm.trans hy)
        exact hbefore rest' hrest b hb

/-- The root is checked, if there is one, before the branches are searched. -/
theorem node : Search check look ((look []).elim (.ok ()) check >>= fun _ => xs.forM f) := by
  cases hroot : look [] with
  | none => exact under h hcons fun a ha => nomatch hroot.symm.trans ha
  | some a =>
    rw [Option.elim_some]
    cases hcheck : check a with
    | error cause => exact .fault hroot hcheck fun pos' hlt => absurd hlt (List.not_lt_nil pos')
    | ok u =>
      refine under h hcons fun b hb => ?_
      obtain rfl := Option.some.inj (hroot.symm.trans hb)
      exact hcheck

end Node

end Search

end Search

/-! ## Conforming to a table -/

/-- The schema admits the entry : the first key it lists under the name has the kind of the
value. -/
def Schema.Admits (s : Schema) (e : String × Value) : Prop :=
  ∃ key, s.key? e.1 = some key ∧ key.kind = e.2.kind

/-- The schema lists a key of the name and the kind of the entry. -/
def Schema.Lists (s : Schema) (e : String × Value) : Prop :=
  ∃ key ∈ s.keys, key.name = e.1 ∧ key.kind = e.2.kind

/-- Why the schema of an operation does not admit an entry. -/
inductive Schema.Violates (s : Schema) (operation : String) (e : String × Value) : Refusal → Prop
  | unlisted : s.key? e.1 = none → s.Violates operation e (.keyNotAccepted operation e.1)
  | mismatched {key : Key} : s.key? e.1 = some key → key.kind ≠ e.2.kind →
      s.Violates operation e (.wrongKind e.1 key.kind e.2.kind)

/-- The operation has a schema, which admits its entries. -/
def Operation.Conforms (t : SchemaTable) (op : Operation) : Prop :=
  ∃ s, t.find? op.name = some s ∧ ∀ e ∈ op.config, s.Admits e

/-- The first fault of an operation : it has no schema, or its schema admits the entries
before one but not that one. -/
inductive Operation.Violates (t : SchemaTable) (op : Operation) : Refusal → Prop
  | unknown : t.find? op.name = none → op.Violates t (.unknownOperation op.name)
  | entry {s : Schema} {i : Nat} {e : String × Value} {cause : Refusal} :
      t.find? op.name = some s → op.config[i]? = some e → (∀ d ∈ op.config.take i, s.Admits d) →
      s.Violates op.name e cause → op.Violates t cause

theorem Key.check_eq_ok_iff {key : Key} {v : Value} :
    key.check v = .ok () ↔ v.kind = key.kind := by
  simp [Key.check]

/-- Checks one entry of an operation. -/
def Schema.checkEntry (s : Schema) (operation : String) (e : String × Value) :
    Except Refusal Unit :=
  match s.key? e.1 with
  | none => .error (.keyNotAccepted operation e.1)
  | some key => key.check e.2

namespace Schema

variable (s : Schema) (operation : String)

/-- The entries of an operation are checked one after the other. -/
theorem checkEntries_eq : ∀ config : Config,
    s.checkEntries operation config = config.forM (s.checkEntry operation)
  | [] => rfl
  | (k, v) :: rest => by
    rw [forM_cons_eq, ← checkEntries_eq rest, checkEntries, checkEntry]
    cases s.key? k <;> rfl

variable {s operation}

theorem key?_name {k : String} {key : Key} (h : s.key? k = some key) : key.name = k := by
  have h : s.keys.find? (fun key => key.name == k) = some key := h
  simpa using List.find?_some h

variable {e : String × Value} {cause : Refusal}

theorem checkEntry_of_key? {key : Key} (h : s.key? e.1 = some key) : s.checkEntry operation e =
    if e.2.kind = key.kind then .ok () else .error (.wrongKind e.1 key.kind e.2.kind) := by
  simp only [checkEntry, h, Key.check, key?_name h]

theorem checkEntry_eq_ok_iff : s.checkEntry operation e = .ok () ↔ s.Admits e := by
  cases hkey : s.key? e.1 with
  | none => simp [checkEntry, Admits, hkey]
  | some key =>
    rw [checkEntry_of_key? hkey]
    simp [Admits, hkey, eq_comm]

/-- The cause says whether the name or the kind is at fault. -/
theorem checkEntry_eq_error_iff :
    s.checkEntry operation e = .error cause ↔ s.Violates operation e cause := by
  constructor
  · intro h
    cases hkey : s.key? e.1 with
    | none =>
      simp only [checkEntry, hkey, Except.error.injEq] at h
      exact h ▸ .unlisted hkey
    | some key =>
      rw [checkEntry_of_key? hkey] at h
      split at h
      · cases h
      · next hkind => exact Except.error.inj h ▸ .mismatched hkey (Ne.symm hkind)
  · intro h
    cases h with
    | unlisted hkey => simp only [checkEntry, hkey]
    | mismatched hkey hkind => rw [checkEntry_of_key? hkey, if_neg (Ne.symm hkind)]

/-- Where no two keys have one name, an entry is admitted by any key of its name and kind. -/
theorem admits_iff_of_nodup (h : (s.keys.map Key.name).Nodup) :
    s.Admits e ↔ s.Lists e := by
  constructor
  · rintro ⟨key, hkey, hkind⟩
    exact ⟨key, List.mem_of_find?_eq_some hkey, key?_name hkey, hkind⟩
  · rintro ⟨key, hkey, hname, hkind⟩
    exact ⟨key, hname ▸ find?_of_nodup h hkey, hkind⟩

end Schema

namespace Operation

variable {t : SchemaTable} {op : Operation} {cause : Refusal}

theorem checkOwn_of_find? {s : Schema} (h : t.find? op.name = some s) :
    op.checkOwn t = op.config.forM (s.checkEntry op.name) := by
  rw [← s.checkEntries_eq, checkOwn, h]

/-- An operation passes its own check if it conforms. -/
theorem checkOwn_eq_ok_iff : op.checkOwn t = .ok () ↔ op.Conforms t := by
  cases hfind : t.find? op.name with
  | none => simp [checkOwn, Conforms, hfind]
  | some s =>
    rw [checkOwn_of_find? hfind, forM_eq_ok_iff]
    simp only [Conforms, hfind, Option.some.injEq, exists_eq_left']
    exact forall₂_congr fun e _ => Schema.checkEntry_eq_ok_iff

/-- An operation that does not conform is refused for its first fault. -/
theorem checkOwn_eq_error_iff : op.checkOwn t = .error cause ↔ op.Violates t cause := by
  constructor
  · intro h
    cases hfind : t.find? op.name with
    | none =>
      simp only [checkOwn, hfind, Except.error.injEq] at h
      exact h ▸ .unknown hfind
    | some s =>
      rw [checkOwn_of_find? hfind, forM_eq_error_iff] at h
      obtain ⟨i, e, he, hcause, hbefore⟩ := h
      exact .entry hfind he (fun d hd => Schema.checkEntry_eq_ok_iff.1 (hbefore d hd))
        (Schema.checkEntry_eq_error_iff.1 hcause)
  · intro h
    cases h with
    | unknown hfind => simp only [checkOwn, hfind]
    | @entry s i e _ hfind he hbefore hcause =>
      rw [checkOwn_of_find? hfind, forM_eq_error_iff]
      exact ⟨i, e, he, Schema.checkEntry_eq_error_iff.2 hcause,
        fun d hd => Schema.checkEntry_eq_ok_iff.2 (hbefore d hd)⟩

end Operation

/-! ## The walk -/

/-- The operation of the part at a position. -/
def Pipeline.operationAt? (pos : List Nat) (parts : Pipeline) : Option Operation :=
  (Pipeline.at? pos parts).bind Part.operation?

def Part.operationAt? (pos : List Nat) (p : Part) : Option Operation :=
  (Part.at? pos p).bind Part.operation?

section Walk

variable (t : SchemaTable)

/-- The parts of a pipeline are validated one after the other. -/
theorem Pipeline.validate_eq (parts : Pipeline) :
    Pipeline.validate t parts = parts.forM (Part.validate t) := by
  induction parts with
  | nil => rfl
  | cons p rest ih => rw [forM_cons_eq, ← ih, validate]

theorem Value.validateNested_eq (v : Value) :
    v.validateNested t = Pipeline.validate t v.parts := by
  cases v <;> simp [validateNested, parts, Pipeline.validate]

theorem Config.validateNested_eq (config : List (String × Value)) :
    Config.validateNested t config =
      (config.map fun e => e.2.parts).forM (Pipeline.validate t) := by
  induction config with
  | nil => rfl
  | cons e rest ih =>
    rw [List.map_cons, forM_cons_eq, ← ih, validateNested, Value.validateNested_eq]

/-- A part is checked by itself and then branch by branch. -/
theorem Part.validate_eq (p : Part) : p.validate t =
    p.operation?.elim (.ok ()) (Operation.checkOwn t) >>= fun _ =>
      p.branches.forM (Pipeline.validate t) := by
  have hoperation : ∀ op : Operation, op.validate t =
      op.checkOwn t >>= fun _ => (op.config.map fun e => e.2.parts).forM (Pipeline.validate t) := by
    rintro ⟨name, config⟩
    rw [Operation.validate, Config.validateNested_eq]
  cases p with
  | operation op => rw [validate, hoperation]; rfl
  | parallel parts => rw [validate, branches, forM_cons_eq]; cases Pipeline.validate t parts <;> rfl
  | fetch key tag handler => rfl
  | fetchAfter keys before tag handler => rw [validate, hoperation]; rfl

/-- Validating parts one after the other goes by the first number of the position. -/
theorem Pipeline.search_of_forall {parts : Pipeline}
    (h : ∀ p ∈ parts, Search (Operation.checkOwn t) (Part.operationAt? · p) (p.validate t)) :
    Search (Operation.checkOwn t) (operationAt? · parts) (validate t parts) := by
  rw [validate_eq]
  exact .under h (fun _ _ => Option.bind_assoc ..) fun _ hroot => nomatch hroot

/-- The check of a part itself comes before its branches, as the empty position does. -/
theorem Part.search (p : Part) :
    Search (Operation.checkOwn t) (Part.operationAt? · p) (p.validate t) := by
  have hinherits : Part.Inherits fun p =>
      Search (Operation.checkOwn t) (Part.operationAt? · p) (p.validate t) := by
    intro p ih
    have hbranches : ∀ parts ∈ p.branches, Search (Operation.checkOwn t)
        (Pipeline.operationAt? · parts) (Pipeline.validate t parts) :=
      fun parts hparts => Pipeline.search_of_forall t (ih parts hparts)
    rw [p.validate_eq]
    exact .node hbranches fun _ _ => Option.bind_assoc ..
  exact hinherits.part p

/-- Validation searches a pipeline for an operation that fails its own check. -/
theorem Pipeline.search (parts : Pipeline) :
    Search (Operation.checkOwn t) (operationAt? · parts) (validate t parts) :=
  search_of_forall t fun p _ => p.search t

/-- The operation of the part, if it has one, passes its own check. -/
def Part.ChecksOwn (p : Part) : Prop := ∀ op, p.operation? = some op → op.checkOwn t = .ok ()

/-- A pipeline is valid exactly if every operation in it, at any depth, passes its own check. -/
theorem Pipeline.validate_eq_ok_iff (parts : Pipeline) :
    Pipeline.validate t parts = .ok () ↔ Pipeline.Everywhere (Part.ChecksOwn t) parts := by
  rw [(search t parts).eq_ok_iff]
  constructor
  · intro h pos p hp op hop
    exact h pos op (Option.bind_eq_some_iff.2 ⟨p, hp, hop⟩)
  · intro h pos op hop
    obtain ⟨p, hp, hop⟩ := Option.bind_eq_some_iff.1 hop
    exact h pos p hp op hop

/-- A pipeline is valid exactly if every operation in it conforms to the table. What is
reported otherwise is the first fault of the first operation, depth first, that does not. -/
theorem Pipeline.validate_firstFault (parts : Pipeline) :
    (validate t parts = .ok () ↔
      ∀ pos op, operationAt? pos parts = some op → op.Conforms t) ∧
    ∀ cause, validate t parts = .error cause ↔
      ∃ pos op, operationAt? pos parts = some op ∧ op.Violates t cause ∧
        ∀ pos' < pos, ∀ op', operationAt? pos' parts = some op' → op'.Conforms t := by
  simp only [← Operation.checkOwn_eq_ok_iff, ← Operation.checkOwn_eq_error_iff]
  exact ⟨(search t parts).eq_ok_iff, fun _ => (search t parts).eq_error_iff⟩

/-- A later key of the same name does not count, whatever its kind. -/
theorem Pipeline.validate_shadowed_key :
    let t : SchemaTable := ⟨[⟨"o", [⟨"k", .string⟩, ⟨"k", .uint32⟩]⟩]⟩
    let parts : Pipeline := [.operation ⟨"o", [("k", .uint32 1)]⟩]
    validate t parts = .error (.wrongKind "k" .string .uint32) ∧
      ∀ pos op, operationAt? pos parts = some op →
        ∃ s, t.find? op.name = some s ∧ ∀ e ∈ op.config, s.Lists e := by
  refine ⟨rfl, ?_⟩
  rintro (_ | ⟨_ | i, _ | ⟨_ | b, _ | ⟨j, rest⟩⟩⟩) op hop
  all_goals try cases hop
  exact ⟨_, rfl, List.forall_mem_singleton.2 ⟨⟨"k", .uint32⟩, by simp, rfl, rfl⟩⟩

end Walk

/-- For schemas that list no key twice, the order of the keys does not matter. -/
theorem Pipeline.validate_eq_ok_iff_of_nodup {t : SchemaTable}
    (h : ∀ s ∈ t.schemas, (s.keys.map Key.name).Nodup) (parts : Pipeline) :
    validate t parts = .ok () ↔ ∀ pos op, operationAt? pos parts = some op →
      ∃ s, t.find? op.name = some s ∧ ∀ e ∈ op.config, s.Lists e := by
  rw [(search t parts).eq_ok_iff]
  refine forall₃_congr fun pos op hop => ?_
  rw [Operation.checkOwn_eq_ok_iff]
  refine exists_congr fun s => and_congr_right fun hs => forall₂_congr fun e he => ?_
  exact Schema.admits_iff_of_nodup (h s (List.mem_of_find?_eq_some hs))

end MiningPipelines
