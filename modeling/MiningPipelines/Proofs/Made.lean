import MiningPipelines.Proofs.Decoding

/-!
# Pipelines that a caller can have

A caller comes by a pipeline in two ways : from the constructors, or by decoding a wire pipeline. A
part is made (`Part.Made`) if it came to be so, and the parts inside it did, in any mixture.
Decoding repeats the checks of the constructors, so what is made can be decoded again once it is
sent (`Pipeline.Made.sound`).
-/

namespace MiningPipelines

mutual

/-- A part that the constructors made or that was decoded, and so with all parts inside it. -/
inductive Part.Made : Part → Prop
  | operation {op : Operation} : op.Made → (Part.operation op).Made
  | parallel {parts : Pipeline} : (∀ p ∈ parts, p.Made) → (Part.parallel parts).Made
  | fetch (key : Key) (tag : Tag) (handler : Handler) : (Part.ofFetch key tag handler).Made
  | fetchAfter {keys : List Key} {before : Operation} {tag : Tag} {handler : Handler}
      {p : Part} : before.Made → Part.ofFetchAfter keys before tag handler = .ok p → p.Made
  | decoded {w : Wire.Part} {p : Part} : w.decode = .ok p → p.Made

/-- An operation that was decoded or made from entries. -/
inductive Operation.Made : Operation → Prop
  | make {entries : List (String × Value)} {config : Config} {name : String} {op : Operation} :
      (∀ e ∈ entries, ∀ p ∈ e.2.parts, Part.Made p) → Config.ofEntries entries = .ok config →
      Operation.make name config = .ok op → op.Made
  | decoded {w : Wire.Operation} {op : Operation} : w.decode = .ok op → op.Made

end

/-- A pipeline of parts that the constructors made or that were decoded. -/
def Pipeline.Made (parts : Pipeline) : Prop := ∀ p ∈ parts, p.Made

mutual

theorem Part.Built.made : ∀ {p : Part}, p.Built → p.Made
  | _, .operation h => .operation h.made
  | _, .parallel h => .parallel fun p hp => (h p hp).made
  | _, .fetch key tag handler => .fetch key tag handler
  | _, .fetchAfter h hp => .fetchAfter h.made hp

theorem Operation.Built.made : ∀ {op : Operation}, op.Built → op.Made
  | _, .make h hconfig hop => .make (fun e he p hp => (h e he p hp).made) hconfig hop

end

theorem Pipeline.Built.made {parts : Pipeline} (h : Pipeline.Built parts) : Pipeline.Made parts :=
  fun p hp => (h p hp).made

/-! ## What is made can be decoded -/

theorem Config.Admits.sound {key : String} {v : Value} (h : Config.Admits (key, v)) :
    (Wire.Piece.entry key v.toWire).Sound := by
  refine ⟨h.1, by cases v <;> rfl, fun x hx => h.isFinite x ?_⟩
  cases v with
  | float y =>
    obtain rfl := Wire.Payload.float.inj (List.mem_singleton.1 hx)
    rfl
  | _ => cases List.mem_singleton.1 hx

mutual

/-- The wire form of a made part can be decoded. -/
theorem Part.Made.sound : ∀ {p : Part}, p.Made → ∀ x ∈ p.toWire.pieces, x.Sound
  | _, .operation h => by
    rw [Part.pieces_operation]
    exact List.forall_mem_cons.2 ⟨rfl, h.sound⟩
  | _, .parallel h => by
    have hparts := Pipeline.forall_pieces_toWire.2 fun p hp => (h p hp).sound
    rw [Part.pieces_parallel]
    exact List.forall_mem_cons.2 ⟨rfl, hparts⟩
  | _, .fetch _ _ _ => List.forall_mem_singleton.2 rfl
  | _, .fetchAfter h hp => by
    rw [Part.eq_of_ofFetchAfter hp, Part.pieces_fetchAfter]
    exact List.forall_mem_cons.2 ⟨rfl, h.sound⟩
  | _, .decoded h => by
    rw [Wire.Part.toWire_of_decode _ h]
    exact (Wire.Part.decodes_iff _).1 ⟨_, h⟩

theorem Operation.Made.sound : ∀ {op : Operation}, op.Made → ∀ x ∈ op.toWire.pieces, x.Sound
  | _, .make h hconfig hop => by
    have hparts := fun e he => Pipeline.forall_pieces_toWire.2 fun p hp => (h e he p hp).sound
    obtain ⟨hname, rfl⟩ := Operation.make_eq_ok_iff.1 hop
    obtain ⟨hadmits, rfl⟩ := Config.ofEntries_eq_ok_iff.1 hconfig
    refine List.forall_mem_cons.2 ⟨hname, Config.forall_pieces_toWire.2 fun e he => ?_⟩
    rw [Value.pieces_toWire]
    exact ⟨(hadmits e he).sound, hparts e he⟩
  | _, .decoded h => by
    rw [Wire.Operation.toWire_of_decode _ h]
    exact (Wire.Operation.decodes_iff _).1 ⟨_, h⟩

end

theorem Pipeline.Made.sound {parts : Pipeline} (h : Pipeline.Made parts) :
    ∀ x ∈ Wire.Pipeline.pieces (Pipeline.toWire parts), x.Sound :=
  Pipeline.forall_pieces_toWire.2 fun p hp => (h p hp).sound

end MiningPipelines
