import MiningPipelines.Proofs.Decoding

/-!
# Parts at any depth

A property of parts holds everywhere in a pipeline (`Pipeline.Everywhere`) if it holds of
the part at each position, inside whatever else. That is a matter of one level at a time :
of a part, and of the parts in its branches (`Part.everywhere_iff`). So a property that
passes from the branches of a part to the part is one that holds everywhere
(`Part.iff_everywhere`).

What is sent comes down to this : its pieces are those of each part by itself
(`Pipeline.forall_pieces_iff`).
-/

namespace MiningPipelines

namespace Part

/-- The operation of a part, as a step of its own or before a fetch. -/
def operation? : Part → Option Operation
  | .operation op => some op
  | .fetchAfter _ before _ _ => some before
  | _ => none

/-- The property holds of the part and of every part inside it. -/
def Everywhere (P : Part → Prop) (p : Part) : Prop := ∀ pos q, Part.at? pos p = some q → P q

end Part

/-- The property holds of every part of the pipeline, at any depth. -/
def Pipeline.Everywhere (P : Part → Prop) (parts : Pipeline) : Prop :=
  ∀ pos p, Pipeline.at? pos parts = some p → P p

variable {P Q : Part → Prop}

/-- The first number of a position picks a part. -/
theorem Pipeline.everywhere_iff {parts : Pipeline} :
    Pipeline.Everywhere P parts ↔ ∀ p ∈ parts, p.Everywhere P := by
  constructor
  · intro h p hp pos q hq
    obtain ⟨i, hi⟩ := List.mem_iff_getElem?.1 hp
    exact h (i :: pos) q (Option.bind_eq_some_iff.2 ⟨p, hi, hq⟩)
  · intro h pos q hq
    cases pos with
    | nil => cases hq
    | cons i pos =>
      obtain ⟨p, hp, hq⟩ := Option.bind_eq_some_iff.1 hq
      exact h p (List.mem_of_getElem? hp) pos q hq

/-- One level at a time: the part itself, and its branches. -/
theorem Part.everywhere_iff {p : Part} :
    p.Everywhere P ↔ P p ∧ ∀ parts ∈ p.branches, Pipeline.Everywhere P parts := by
  constructor
  · intro h
    refine ⟨h [] p rfl, fun parts hparts pos q hq => ?_⟩
    obtain ⟨b, hb⟩ := List.mem_iff_getElem?.1 hparts
    exact h (b :: pos) q (Option.bind_eq_some_iff.2 ⟨parts, hb, hq⟩)
  · rintro ⟨hp, hbranches⟩ pos q hq
    cases pos with
    | nil => exact Option.some.inj hq ▸ hp
    | cons b pos =>
      obtain ⟨parts, hparts, hq⟩ := Option.bind_eq_some_iff.1 hq
      exact hbranches parts (List.mem_of_getElem? hparts) pos q hq

theorem Pipeline.Everywhere.imp {parts : Pipeline} (h : Pipeline.Everywhere P parts)
    (hPQ : ∀ p, P p → Q p) : Pipeline.Everywhere Q parts :=
  fun pos p hp => hPQ p (h pos p hp)

/-- The property holds of a part once it holds of the parts in its branches. -/
def Part.Inherits (Q : Part → Prop) : Prop :=
  ∀ p : Part, (∀ parts ∈ p.branches, ∀ q ∈ parts, Q q) → Q p

mutual

/-- Induction over parts. -/
theorem Part.Inherits.part (h : Part.Inherits Q) : ∀ p : Part, Q p
  | .operation op => h _ (List.forall_mem_map.2 (h.operation op))
  | .parallel parts => h _ (List.forall_mem_singleton.2 (h.pipeline parts))
  | .fetch _ _ _ => h _ (List.forall_mem_nil _)
  | .fetchAfter _ before _ _ => h _ (List.forall_mem_map.2 (h.operation before))

/-- The pipelines of an operation are those in its entries. -/
theorem Part.Inherits.operation (h : Part.Inherits Q) :
    ∀ op : Operation, ∀ e ∈ op.config, ∀ q ∈ e.2.parts, Q q
  | ⟨_, config⟩ => h.config config

theorem Part.Inherits.config (h : Part.Inherits Q) :
    ∀ config : List (String × Value), ∀ e ∈ config, ∀ q ∈ e.2.parts, Q q
  | [] => List.forall_mem_nil _
  | (_, v) :: rest => List.forall_mem_cons.2 ⟨h.value v, h.config rest⟩

theorem Part.Inherits.value (h : Part.Inherits Q) : ∀ v : Value, ∀ q ∈ v.parts, Q q
  | .pipeline parts => h.pipeline parts
  | .string _ | .uint32 _ | .bool _ | .float _ | .enum _ _ | .strings _ | .namesLog _
  | .hashesLog _ | .artifact _ _ => List.forall_mem_nil _

/-- Induction along the types: an inherited property holds of every part. -/
theorem Part.Inherits.pipeline (h : Part.Inherits Q) : ∀ parts : List Part, ∀ q ∈ parts, Q q
  | [] => List.forall_mem_nil _
  | p :: rest => List.forall_mem_cons.2 ⟨h.part p, h.pipeline rest⟩

end

/-- A property of one level and of the parts in the branches is one that holds everywhere. -/
theorem Part.iff_everywhere
    (h : ∀ p : Part, Q p ↔ P p ∧ ∀ parts ∈ p.branches, ∀ q ∈ parts, Q q) (p : Part) :
    Q p ↔ p.Everywhere P := by
  have hinherits : Part.Inherits fun p => (Q p ↔ p.Everywhere P) := by
    intro p ih
    rw [h, Part.everywhere_iff]
    refine and_congr_right fun _ => forall₂_congr fun parts hparts => ?_
    rw [Pipeline.everywhere_iff]
    exact forall₂_congr (ih parts hparts)
  exact hinherits.part p

/-- A property that a part passes on to its branches holds everywhere in a pipeline if it holds of
each part of it. -/
theorem Pipeline.everywhere_of_branches
    (h : ∀ p : Part, P p → ∀ parts ∈ p.branches, ∀ q ∈ parts, P q) {parts : Pipeline}
    (hparts : ∀ p ∈ parts, P p) : Pipeline.Everywhere P parts := by
  have hinherits : Part.Inherits fun p => P p → p.Everywhere P := by
    intro p ih hp
    refine Part.everywhere_iff.2 ⟨hp, fun parts hparts => Pipeline.everywhere_iff.2 fun q hq => ?_⟩
    exact ih parts hparts q hq (h p hp parts hparts q hq)
  exact Pipeline.everywhere_iff.2 fun p hp => hinherits.part p (hparts p hp)

/-! ## Pieces -/

/-- The pieces of an operation when it is sent that are in none of its pipelines. -/
def Operation.ownPieces (op : Operation) : List Wire.Piece :=
  .operation op.toWire :: op.config.map fun e => .entry e.1 e.2.toWire

/-- The pieces of a part when it is sent that are in none of its branches. -/
def Part.ownPieces (p : Part) : List Wire.Piece :=
  .part p.toWire :: match p.operation? with
    | none => []
    | some op => op.ownPieces

section Pieces

variable {R : Wire.Piece → Prop}

/-- What an operation sends is its own pieces and those of the pipelines in its entries. -/
theorem Operation.forall_pieces_iff (op : Operation) : (∀ x ∈ op.toWire.pieces, R x) ↔
    (∀ x ∈ op.ownPieces, R x) ∧ ∀ e ∈ op.config, ∀ q ∈ e.2.parts, ∀ x ∈ q.toWire.pieces, R x := by
  obtain ⟨name, config⟩ := op
  have hpieces : (Operation.mk name config).toWire.pieces =
      .operation (Operation.mk name config).toWire :: Wire.Entries.pieces (Config.toWire config) :=
    rfl
  rw [hpieces, ownPieces, List.forall_mem_cons, List.forall_mem_cons, List.forall_mem_map,
    Config.forall_pieces_toWire, and_assoc, ← forall₂_and]
  simp only [Value.pieces_toWire, Pipeline.forall_pieces_toWire]

/-- What a part sends is its own pieces and those of the parts in its branches. -/
theorem Part.forall_pieces_iff_level (p : Part) : (∀ x ∈ p.toWire.pieces, R x) ↔
    (∀ x ∈ p.ownPieces, R x) ∧
      ∀ parts ∈ p.branches, ∀ q ∈ parts, ∀ x ∈ q.toWire.pieces, R x := by
  rw [ownPieces, List.forall_mem_cons, and_assoc]
  cases p with
  | operation op =>
    rw [Part.pieces_operation, List.forall_mem_cons, op.forall_pieces_iff, branches,
      List.forall_mem_map]
    rfl
  | parallel parts =>
    rw [Part.pieces_parallel, List.forall_mem_cons, Pipeline.forall_pieces_toWire, branches,
      List.forall_mem_singleton]
    exact and_congr_right fun _ => (and_iff_right (List.forall_mem_nil _)).symm
  | fetch key tag handler =>
    have hpieces : (Part.fetch key tag handler).toWire.pieces =
        [.part (Part.fetch key tag handler).toWire] := rfl
    rw [hpieces, List.forall_mem_singleton]
    exact (and_iff_left ⟨List.forall_mem_nil _, List.forall_mem_nil _⟩).symm
  | fetchAfter keys before tag handler =>
    rw [Part.pieces_fetchAfter, List.forall_mem_cons, before.forall_pieces_iff, branches,
      List.forall_mem_map]
    rfl

/-- What a pipeline is made of when it is sent are the own pieces of its parts, at any depth. -/
theorem Pipeline.forall_pieces_iff (parts : Pipeline) :
    (∀ x ∈ Wire.Pipeline.pieces (Pipeline.toWire parts), R x) ↔
      Pipeline.Everywhere (fun p => ∀ x ∈ p.ownPieces, R x) parts := by
  rw [Pipeline.forall_pieces_toWire, Pipeline.everywhere_iff]
  exact forall₂_congr fun p _ => Part.iff_everywhere Part.forall_pieces_iff_level p

end Pieces

end MiningPipelines
