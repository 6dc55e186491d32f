import Mathlib.Data.List.Nodup
import MiningPipelines.Part

/-!
# Positions in a pipeline

Pipelines nest : the children of a parallel part and the pipelines among the values of a
configuration are pipelines inside a part (`Part.branches`). A position is the number of
a part, followed for each step inward by the number of a branch and the number of a part
in it. `Pipeline.at?` looks a position up.

`Pipeline.nodes` lists the fetches of a pipeline with their positions, those inside a
part before the part itself. It lists every fetch (`Pipeline.mem_nodes`) and none twice
(`Pipeline.nodup_positions`).
-/

namespace MiningPipelines

/-- Something at a position. -/
structure Placed (α : Type) where
  position : List Nat
  node : α

namespace Placed

variable {α β : Type}

/-- Something else at the same position. -/
def map (f : α → β) (n : Placed α) : Placed β := ⟨n.position, f n.node⟩

/-- The position seen from one level further out, where this tree has number `i`. -/
def inside (i : Nat) (n : Placed α) : Placed α := ⟨i :: n.position, n.node⟩

/-- The nodes of several trees in order, each under the number of its tree, from `i` on. -/
def numbered (i : Nat) : List (List (Placed α)) → List (Placed α)
  | [] => []
  | l :: ls => l.map (.inside i) ++ numbered (i + 1) ls

/-- Seen from outside, a position starts with the number of the tree. -/
theorem mem_map_inside {l : List (Placed α)} {i : Nat} {pos : List Nat} {a : α} :
    ⟨pos, a⟩ ∈ List.map (inside i) l ↔ ∃ rest, pos = i :: rest ∧ ⟨rest, a⟩ ∈ l := by
  constructor
  · intro h
    obtain ⟨n, hn, he⟩ := List.mem_map.1 h
    obtain ⟨rfl, rfl⟩ := Placed.mk.inj he
    exact ⟨n.position, rfl, hn⟩
  · rintro ⟨rest, rfl, h⟩
    exact List.mem_map.2 ⟨_, h, rfl⟩

/-- A numbered node stands in the tree with its number. -/
theorem mem_numbered {pos : List Nat} {a : α} : ∀ {i : Nat} {ls : List (List (Placed α))},
    ⟨pos, a⟩ ∈ numbered i ls ↔
      ∃ k rest l, pos = (i + k) :: rest ∧ ls[k]? = some l ∧ ⟨rest, a⟩ ∈ l
  | i, [] => by simp [numbered]
  | i, l :: ls => by
    rw [numbered, List.mem_append, mem_map_inside, mem_numbered]
    constructor
    · rintro (⟨rest, rfl, h⟩ | ⟨k, rest, m, rfl, hm, h⟩)
      · exact ⟨0, rest, l, rfl, rfl, h⟩
      · exact ⟨k + 1, rest, m, by rw [Nat.add_right_comm, Nat.add_assoc], hm, h⟩
    · rintro ⟨_ | k, rest, m, rfl, hm, h⟩
      · obtain rfl := Option.some.inj hm
        exact Or.inl ⟨rest, rfl, h⟩
      · exact Or.inr ⟨k, rest, m, by rw [Nat.add_right_comm, Nat.add_assoc], hm, h⟩

theorem inside_injective (i : Nat) : Function.Injective (inside i : Placed α → Placed α) := by
  rintro ⟨p, a⟩ ⟨q, c⟩ h
  obtain ⟨h, rfl⟩ := Placed.mk.inj h
  obtain ⟨-, rfl⟩ := List.cons.inj h
  rfl

/-- Trees with different numbers share no position, so it is enough that none has a node twice. -/
theorem nodup_numbered : ∀ {i : Nat} {ls : List (List (Placed α))}, (∀ l ∈ ls, l.Nodup) →
    (numbered i ls).Nodup
  | _, [], _ => List.nodup_nil
  | i, l :: ls, h => by
    refine List.nodup_append'.2 ⟨(h l (by simp)).map (inside_injective i),
      nodup_numbered fun l hl => h l (by simp [hl]), ?_⟩
    rintro ⟨pos, a⟩ hn hm
    obtain ⟨_, rfl, -⟩ := mem_map_inside.1 hn
    obtain ⟨k, _, _, hk, -⟩ := mem_numbered.1 hm
    have := (List.cons.inj hk).1
    omega

end Placed

/-! ## Looking a position up -/

/-- The parts of a value; only a pipeline has any. -/
def Value.parts : Value → Pipeline
  | .pipeline parts => parts
  | _ => []

namespace Part

/-- The pipelines inside a part : the children of a parallel part, and the parts of each
entry of a configuration. -/
def branches : Part → List Pipeline
  | .operation op => op.config.map fun e => e.2.parts
  | .parallel parts => [parts]
  | .fetch _ _ _ => []
  | .fetchAfter _ before _ _ => before.config.map fun e => e.2.parts

/-- The part asks for values. -/
def isFetch : Part → Bool
  | .fetch _ _ _ | .fetchAfter _ _ _ _ => true
  | _ => false

end Part

mutual

/-- The part of a pipeline at a position. -/
def Pipeline.at? : List Nat → Pipeline → Option Part
  | [], _ => none
  | i :: rest, parts => parts[i]?.bind (Part.at? rest)

/-- The part at a position that starts with a branch of `p`; `p` itself at the empty one. -/
def Part.at? : List Nat → Part → Option Part
  | [], p => some p
  | b :: rest, p => p.branches[b]?.bind (Pipeline.at? rest)

end

/-! ## The fetches of a pipeline -/

mutual

/-- The fetches of parts that have the numbers from `i` on. -/
def Pipeline.nodesFrom (i : Nat) : List Part → List (Placed Part)
  | [] => []
  | p :: rest => p.nodes.map (.inside i) ++ Pipeline.nodesFrom (i + 1) rest

/-- The fetches inside a part, and then the part if it is one. -/
def Part.nodes : Part → List (Placed Part)
  | .operation op => op.nodes
  | .parallel parts => (Pipeline.nodesFrom 0 parts).map (.inside 0)
  | .fetch key tag handler => [⟨[], .fetch key tag handler⟩]
  | .fetchAfter keys before tag handler =>
    before.nodes ++ [⟨[], .fetchAfter keys before tag handler⟩]

def Operation.nodes : Operation → List (Placed Part)
  | ⟨_, config⟩ => Config.nodesFrom 0 config

/-- The fetches of entries that have the numbers from `i` on. -/
def Config.nodesFrom (i : Nat) : List (String × Value) → List (Placed Part)
  | [] => []
  | (_, v) :: rest => v.nodes.map (.inside i) ++ Config.nodesFrom (i + 1) rest

def Value.nodes : Value → List (Placed Part)
  | .pipeline parts => Pipeline.nodesFrom 0 parts
  | _ => []

end

/-- The fetches of a pipeline with their positions. -/
def Pipeline.nodes (parts : Pipeline) : List (Placed Part) := Pipeline.nodesFrom 0 parts

theorem Value.nodes_eq (v : Value) : v.nodes = Pipeline.nodes v.parts := by
  cases v <;> rfl

/-- The parts of a pipeline are numbered in order. -/
theorem Pipeline.nodesFrom_eq : ∀ (i : Nat) (parts : Pipeline),
    Pipeline.nodesFrom i parts = Placed.numbered i (parts.map Part.nodes)
  | _, [] => rfl
  | i, p :: rest => by
    rw [Pipeline.nodesFrom, Pipeline.nodesFrom_eq (i + 1) rest]
    rfl

/-- The entries of a configuration are numbered in order, each with the fetches of its pipeline. -/
theorem Config.nodesFrom_eq : ∀ (i : Nat) (config : Config),
    Config.nodesFrom i config = Placed.numbered i (config.map fun e => Pipeline.nodes e.2.parts)
  | _, [] => rfl
  | i, (k, v) :: rest => by
    rw [Config.nodesFrom, Config.nodesFrom_eq (i + 1) rest, v.nodes_eq]
    rfl

theorem Operation.nodes_eq (op : Operation) :
    op.nodes = Placed.numbered 0 (op.config.map fun e => Pipeline.nodes e.2.parts) := by
  cases op
  rw [Operation.nodes, Config.nodesFrom_eq]

/-- The fetches inside a part are those of its branches, and the part comes last. -/
theorem Part.nodes_eq (p : Part) : p.nodes =
    Placed.numbered 0 (p.branches.map Pipeline.nodes) ++ if p.isFetch then [⟨[], p⟩] else [] := by
  cases p with
  | operation op => simp [Part.nodes, op.nodes_eq, branches, isFetch, Function.comp_def]
  | parallel parts => simp [Part.nodes, branches, isFetch, Placed.numbered, Pipeline.nodes]
  | fetch key tag handler => simp [Part.nodes, branches, isFetch, Placed.numbered]
  | fetchAfter keys before tag handler =>
    simp [Part.nodes, before.nodes_eq, branches, isFetch, Function.comp_def]

mutual

/-- The nodes of a pipeline are the fetches that stand at some position. -/
theorem Pipeline.mem_nodes (q : Part) : ∀ (pos : List Nat) (parts : Pipeline),
    ⟨pos, q⟩ ∈ Pipeline.nodes parts ↔ Pipeline.at? pos parts = some q ∧ q.isFetch
  | [], parts => by
    rw [Pipeline.nodes, Pipeline.nodesFrom_eq, Placed.mem_numbered]
    simp [Pipeline.at?]
  | i :: rest, parts => by
    rw [Pipeline.nodes, Pipeline.nodesFrom_eq, Placed.mem_numbered]
    simp only [Nat.zero_add, List.cons.injEq, List.getElem?_map, Option.map_eq_some_iff,
      Pipeline.at?, Option.bind_eq_some_iff]
    constructor
    · rintro ⟨k, _, _, ⟨rfl, rfl⟩, ⟨p, hp, rfl⟩, h⟩
      obtain ⟨hq, hf⟩ := (Part.mem_nodes q rest p).1 h
      exact ⟨⟨p, hp, hq⟩, hf⟩
    · rintro ⟨⟨p, hp, hq⟩, hf⟩
      exact ⟨i, rest, _, ⟨rfl, rfl⟩, ⟨p, hp, rfl⟩, (Part.mem_nodes q rest p).2 ⟨hq, hf⟩⟩

/-- The fetches of a part are the fetches at some position in it, its own at the empty one. -/
theorem Part.mem_nodes (q : Part) : ∀ (pos : List Nat) (p : Part),
    ⟨pos, q⟩ ∈ p.nodes ↔ Part.at? pos p = some q ∧ q.isFetch
  | [], p => by
    rw [Part.nodes_eq, List.mem_append, Placed.mem_numbered]
    by_cases hp : p.isFetch <;> simp only [hp, Part.at?, Option.some.injEq]
    · constructor
      · rintro (⟨_, _, _, h, -⟩ | h)
        · cases h
        · obtain rfl := (Placed.mk.inj (List.mem_singleton.1 h)).2
          exact ⟨rfl, hp⟩
      · rintro ⟨rfl, -⟩
        exact Or.inr (by simp)
    · constructor
      · rintro (⟨_, _, _, h, -⟩ | h)
        · cases h
        · simp at h
      · rintro ⟨rfl, hf⟩
        exact absurd hf hp
  | b :: rest, p => by
    -- This position is inside a branch, so the fetch that `p` may be itself is out of the question.
    have hself : (⟨b :: rest, q⟩ : Placed Part) ∉ if p.isFetch then [⟨[], p⟩] else [] := by
      split <;> simp
    rw [Part.nodes_eq, List.mem_append, Placed.mem_numbered, or_iff_left hself]
    simp only [Nat.zero_add, List.cons.injEq, List.getElem?_map, Option.map_eq_some_iff,
      Part.at?, Option.bind_eq_some_iff]
    constructor
    · rintro ⟨k, _, _, ⟨rfl, rfl⟩, ⟨parts, hp, rfl⟩, h⟩
      obtain ⟨hq, hf⟩ := (Pipeline.mem_nodes q rest parts).1 h
      exact ⟨⟨parts, hp, hq⟩, hf⟩
    · rintro ⟨⟨parts, hp, hq⟩, hf⟩
      exact ⟨b, rest, _, ⟨rfl, rfl⟩, ⟨parts, hp, rfl⟩,
        (Pipeline.mem_nodes q rest parts).2 ⟨hq, hf⟩⟩

end

mutual

theorem Pipeline.nodup_nodes_of_mem : ∀ parts : List Part, ∀ p ∈ parts, p.nodes.Nodup
  | [] => List.forall_mem_nil _
  | p :: rest => List.forall_mem_cons.2 ⟨p.nodup_nodes, Pipeline.nodup_nodes_of_mem rest⟩

/-- The branches of a part have different numbers, and its own position is inside none. -/
theorem Part.nodup_nodes : ∀ p : Part, p.nodes.Nodup
  | .operation op => by
    rw [Part.nodes]
    exact op.nodup_nodes
  | .parallel parts => by
    rw [Part.nodes, Pipeline.nodesFrom_eq]
    have h := List.forall_mem_map.2 (Pipeline.nodup_nodes_of_mem parts)
    exact (Placed.nodup_numbered h).map (Placed.inside_injective 0)
  | .fetch _ _ _ => List.nodup_singleton _
  | .fetchAfter _ before _ _ => by
    rw [Part.nodes]
    refine List.nodup_append'.2 ⟨before.nodup_nodes, List.nodup_singleton _, ?_⟩
    rintro n hn hm
    obtain rfl := List.mem_singleton.1 hm
    rw [before.nodes_eq, Placed.mem_numbered] at hn
    obtain ⟨_, _, _, h, -⟩ := hn
    cases h

theorem Operation.nodup_nodes : ∀ op : Operation, op.nodes.Nodup
  | ⟨_, config⟩ => by
    rw [Operation.nodes, Config.nodesFrom_eq]
    exact Placed.nodup_numbered (List.forall_mem_map.2 (Config.nodup_nodes_of_mem config))

theorem Config.nodup_nodes_of_mem : ∀ config : List (String × Value),
    ∀ e ∈ config, (Pipeline.nodes e.2.parts).Nodup
  | [] => List.forall_mem_nil _
  | (_, v) :: rest => List.forall_mem_cons.2
      ⟨v.nodes_eq ▸ v.nodup_nodes, Config.nodup_nodes_of_mem rest⟩

theorem Value.nodup_nodes : ∀ v : Value, v.nodes.Nodup
  | .pipeline parts => by
    rw [Value.nodes, Pipeline.nodesFrom_eq]
    exact Placed.nodup_numbered (List.forall_mem_map.2 (Pipeline.nodup_nodes_of_mem parts))
  | .string _ | .uint32 _ | .bool _ | .float _ | .enum _ _ | .strings _ | .namesLog _
  | .hashesLog _ | .artifact _ _ => List.nodup_nil

end

/-- No two fetches stand at one position. -/
theorem Pipeline.nodup_positions (parts : Pipeline) :
    ((Pipeline.nodes parts).map Placed.position).Nodup := by
  refine List.Nodup.map_on ?_ (Value.nodup_nodes (.pipeline parts))
  rintro ⟨pos, p⟩ hp ⟨pos', q⟩ hq (rfl : pos = pos')
  have hp := ((Pipeline.mem_nodes p pos parts).1 hp).1
  have hq := ((Pipeline.mem_nodes q pos parts).1 hq).1
  rw [Option.some.inj (hp.symm.trans hq)]

end MiningPipelines
