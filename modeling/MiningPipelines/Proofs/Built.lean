import MiningPipelines.Proofs.Fetches

/-!
# Pipelines made by the constructors

A part is built (`Part.Built`) if the checking constructors made it and every part inside
it : operations from entries appended one by one, parallel parts from built parts, and
fetches with a tag and a handler. Decoding a wire pipeline is no construction, and a
decoded fetch has no handler.

What stands at any position of a built pipeline is built (`Pipeline.Built.at?`), so all
its fetches have tags and handlers (`Pipeline.Built.handled`). An operation is built
exactly if it has a name and its configuration admits its entries (`Operation.built_iff`).
-/

namespace MiningPipelines

mutual

/-- A part made by the constructors. -/
inductive Part.Built : Part → Prop
  | operation {op : Operation} : op.Built → (Part.operation op).Built
  | parallel {parts : Pipeline} : (∀ p ∈ parts, p.Built) → (Part.parallel parts).Built
  | fetch (key : Key) (tag : Tag) (handler : Handler) : (Part.ofFetch key tag handler).Built
  | fetchAfter {keys : List Key} {before : Operation} {tag : Tag} {handler : Handler}
      {p : Part} : before.Built → Part.ofFetchAfter keys before tag handler = .ok p → p.Built

/-- An operation made from entries whose pipelines are built. -/
inductive Operation.Built : Operation → Prop
  | make {entries : List (String × Value)} {config : Config} {name : String} {op : Operation} :
      (∀ e ∈ entries, ∀ p ∈ e.2.parts, Part.Built p) → Config.ofEntries entries = .ok config →
      Operation.make name config = .ok op → op.Built

end

/-- A pipeline of parts made by the constructors. -/
def Pipeline.Built (parts : Pipeline) : Prop := ∀ p ∈ parts, p.Built

/-! ## What the constructors accept -/

section Bind

variable {ε α β : Type} {x : Except ε α} {f : α → Except ε β} {b : β}

/-- A computation succeeds exactly if its steps do. -/
theorem bind_eq_ok_iff : (x >>= f) = .ok b ↔ ∃ a, x = .ok a ∧ f a = .ok b := by
  constructor
  · intro h
    cases x with
    | error cause => cases h
    | ok a => exact ⟨a, rfl, h⟩
  · rintro ⟨_, rfl, hf⟩
    exact hf

theorem ok_bind (a : α) (f : α → Except ε β) : (Except.ok a >>= f) = f a :=
  rfl

/-- A check and then a computation. -/
theorem check_bind_eq_ok_iff {x : Except ε Unit} {f : Unit → Except ε β} :
    (x >>= f) = .ok b ↔ x = .ok () ∧ f () = .ok b := by
  rw [bind_eq_ok_iff]
  exact ⟨fun ⟨_, hx, hf⟩ => ⟨hx, hf⟩, fun ⟨hx, hf⟩ => ⟨(), hx, hf⟩⟩

theorem check_bind_eq_error_iff {x : Except ε Unit} {f : Unit → Except ε β} {e : ε} :
    (x >>= f) = .error e ↔ x = .error e ∨ x = .ok () ∧ f () = .error e := by
  cases x with
  | error cause => simp [bind, Except.bind]
  | ok u => simp [ok_bind]

end Bind

/-- A configuration admits the entry : it has a key, and text can carry its value. -/
def Config.Admits (e : String × Value) : Prop := e.1 ≠ "" ∧ e.2.transportable = .ok ()

/-- An admitted float is finite. -/
theorem Config.Admits.isFinite {key : String} {v : Value} (h : Config.Admits (key, v)) :
    ∀ x, v = .float x → x.isFinite := by
  rintro x rfl
  by_contra hx
  have hfloat := h.2
  rw [Value.transportable, if_neg hx] at hfloat
  cases hfloat

theorem Config.append_eq_ok_iff {config next : Config} {key : String} {v : Value} :
    Config.append config key v = .ok next ↔
      Config.Admits (key, v) ∧ next = List.append config [(key, v)] := by
  unfold Config.append
  split
  · next hkey => simp [Config.Admits, hkey]
  · next hkey =>
    rw [bind_eq_ok_iff]
    constructor
    · rintro ⟨_, hv, h⟩
      exact ⟨⟨hkey, hv⟩, (Except.ok.inj h).symm⟩
    · rintro ⟨⟨-, hv⟩, rfl⟩
      exact ⟨_, hv, rfl⟩

theorem Config.foldlM_append_eq_ok_iff : ∀ {entries : List (String × Value)}
    {start config : Config},
    entries.foldlM (fun config e => Config.append config e.1 e.2) start = .ok config ↔
      (∀ e ∈ entries, Config.Admits e) ∧ config = start ++ entries
  | [], start, config => by
    rw [List.foldlM_nil, List.append_nil, eq_comm (a := config)]
    exact ⟨fun h => ⟨List.forall_mem_nil _, Except.ok.inj h⟩, fun h => congrArg Except.ok h.2⟩
  | e :: rest, start, config => by
    rw [List.foldlM_cons, bind_eq_ok_iff, List.forall_mem_cons]
    simp only [Config.append_eq_ok_iff, Config.foldlM_append_eq_ok_iff]
    constructor
    · rintro ⟨_, ⟨he, rfl⟩, hrest, rfl⟩
      exact ⟨⟨he, hrest⟩, by simp⟩
    · rintro ⟨⟨he, hrest⟩, rfl⟩
      exact ⟨_, ⟨he, rfl⟩, hrest, by simp⟩

/-- A configuration holds the entries it was made from, and admits each. -/
theorem Config.ofEntries_eq_ok_iff {entries config : List (String × Value)} :
    Config.ofEntries entries = .ok config ↔
      (∀ e ∈ entries, Config.Admits e) ∧ config = entries :=
  Config.foldlM_append_eq_ok_iff

/-- Under a key is the value of the first entry that has it. -/
theorem Config.get?_eq_some_iff {config : Config} {key : String} {v : Value} :
    config.get? key = some v ↔
      ∃ before rest, config = before ++ (key, v) :: rest ∧ ∀ e ∈ before, e.1 ≠ key := by
  rw [get?, Option.map_eq_some_iff]
  constructor
  · rintro ⟨⟨k, w⟩, hfind, rfl⟩
    obtain ⟨hk, before, rest, hsplit, hbefore⟩ := List.find?_eq_some_iff_append.1 hfind
    obtain rfl : k = key := eq_of_beq hk
    exact ⟨before, rest, hsplit, fun e he => by simpa using hbefore e he⟩
  · rintro ⟨before, rest, rfl, hbefore⟩
    refine ⟨(key, v), List.find?_eq_some_iff_append.2 ⟨beq_self_eq_true key, before, rest, rfl,
      fun e he => ?_⟩, rfl⟩
    simpa using hbefore e he

theorem Operation.make_eq_ok_iff {name : String} {config : Config} {op : Operation} :
    Operation.make name config = .ok op ↔ name ≠ "" ∧ op = ⟨name, config⟩ := by
  unfold Operation.make
  split <;> simp_all [eq_comm]

theorem Part.eq_of_ofFetchAfter {keys : List Key} {before : Operation} {tag : Tag}
    {handler : Handler} {p : Part} (h : Part.ofFetchAfter keys before tag handler = .ok p) :
    p = .fetchAfter (keys.map Key.name) before (some tag) (some handler) := by
  unfold Part.ofFetchAfter at h
  split at h
  · cases h
  · exact (Except.ok.inj h).symm

/-- An operation is built if it has a name, and its configuration admits its entries, whose
pipelines are built. -/
theorem Operation.built_iff {op : Operation} : op.Built ↔
    op.name ≠ "" ∧ ∀ e ∈ op.config, Config.Admits e ∧ Pipeline.Built e.2.parts := by
  constructor
  · rintro ⟨hparts, hconfig, hop⟩
    obtain ⟨hname, rfl⟩ := Operation.make_eq_ok_iff.1 hop
    obtain ⟨hadmits, rfl⟩ := Config.ofEntries_eq_ok_iff.1 hconfig
    exact ⟨hname, fun e he => ⟨hadmits e he, hparts e he⟩⟩
  · obtain ⟨name, config⟩ := op
    rintro ⟨hname, hentries⟩
    have hconfig : Config.ofEntries config = .ok config :=
      Config.ofEntries_eq_ok_iff.2 ⟨fun e he => (hentries e he).1, rfl⟩
    exact .make (fun e he => (hentries e he).2) hconfig (Operation.make_eq_ok_iff.2 ⟨hname, rfl⟩)

/-- The pipelines in the configuration of a built operation are built. -/
theorem Operation.Built.config {op : Operation} (h : op.Built) :
    ∀ e ∈ op.config, Pipeline.Built e.2.parts :=
  fun e he => ((Operation.built_iff.1 h).2 e he).2

namespace Part.Built

variable {p : Part}

theorem of_operation {op : Operation} (h : (Part.operation op).Built) : op.Built := by
  cases h with
  | operation hop => exact hop
  | fetchAfter hbefore hp => cases Part.eq_of_ofFetchAfter hp

theorem of_parallel {parts : Pipeline} (h : (Part.parallel parts).Built) :
    Pipeline.Built parts := by
  cases h with
  | parallel hparts => exact hparts
  | fetchAfter hbefore hp => cases Part.eq_of_ofFetchAfter hp

theorem of_fetchAfter {keys : List String} {before : Operation} {tag : Option Tag}
    {handler : Option Handler} (h : (Part.fetchAfter keys before tag handler).Built) :
    before.Built := by
  cases h with
  | fetchAfter hbefore hp =>
    obtain ⟨-, rfl, -, -⟩ := Part.fetchAfter.inj (Part.eq_of_ofFetchAfter hp)
    exact hbefore

theorem branches (h : p.Built) : ∀ parts ∈ p.branches, Pipeline.Built parts := by
  cases h with
  | operation hop => exact List.forall_mem_map.2 hop.config
  | parallel hparts => exact List.forall_mem_singleton.2 hparts
  | fetch key tag handler => simp [Part.branches, Part.ofFetch]
  | fetchAfter hbefore hp =>
    rw [Part.eq_of_ofFetchAfter hp]
    exact List.forall_mem_map.2 hbefore.config

/-- A built fetch has a tag and a handler. -/
theorem fetch_complete (h : p.Built) (hp : p.isFetch) : p.tag?.isSome ∧ p.handler?.isSome := by
  cases h with
  | operation hop => simp [Part.isFetch] at hp
  | parallel hparts => simp [Part.isFetch] at hp
  | fetch key tag handler => exact ⟨rfl, rfl⟩
  | fetchAfter hbefore hp =>
    rw [Part.eq_of_ofFetchAfter hp]
    exact ⟨rfl, rfl⟩

end Part.Built

mutual

/-- What stands at a position of a built pipeline is built. -/
theorem Pipeline.Built.at? {q : Part} : ∀ (pos : List Nat) {parts : Pipeline},
    Pipeline.Built parts → Pipeline.at? pos parts = some q → q.Built
  | [], _, _, hq => by cases hq
  | i :: rest, parts, h, hq => by
    obtain ⟨p, hp, hq⟩ := Option.bind_eq_some_iff.1 hq
    exact Part.Built.at? rest (h p (List.mem_of_getElem? hp)) hq

theorem Part.Built.at? {q : Part} : ∀ (pos : List Nat) {p : Part},
    p.Built → Part.at? pos p = some q → q.Built
  | [], _, h, hq => Option.some.inj hq ▸ h
  | b :: rest, p, h, hq => by
    obtain ⟨parts, hparts, hq⟩ := Option.bind_eq_some_iff.1 hq
    exact Pipeline.Built.at? rest (h.branches parts (List.mem_of_getElem? hparts)) hq

end

namespace Pipeline.Built

variable {parts : Pipeline}

/-- Every fetch of a built pipeline has a handler. -/
theorem handled (h : Pipeline.Built parts) : Pipeline.Handled parts :=
  fun pos _ hat hp => ((h.at? pos hat).fetch_complete hp).2

/-- Every fetch of a built pipeline has a tag. -/
theorem tag_isSome (h : Pipeline.Built parts) {f : Placed Wire.Fetch}
    (hf : f ∈ Wire.Pipeline.fetches (Pipeline.toWire parts)) : f.node.tag.isSome := by
  obtain ⟨p, hat, hp, hpf⟩ := Pipeline.mem_fetches.1 hf
  rw [← hpf]
  exact ((h.at? f.position hat).fetch_complete hp).1

end Pipeline.Built

end MiningPipelines
