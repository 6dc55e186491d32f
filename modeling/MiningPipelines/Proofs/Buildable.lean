import MiningPipelines.Proofs.Everywhere

/-!
# Decoded parts that the constructors would refuse

The constructors ask for a name of each operation (`Operation.make`), for a key and a value that
text can carry of each entry (`Config.append`), and for at least one key of each fetch behind an
operation (`Part.ofFetchAfter`). A part is buildable (`Part.Buildable`) if it is as they ask, apart
from the parts inside it, and every part of a built pipeline is (`Pipeline.Built.buildable`).

Decoding repeats the first two checks at any depth and leaves out the third. So a decoded
pipeline is buildable throughout exactly if no fetch on the wire comes without a key
(`Wire.Pipeline.buildable_of_decode`), and `Wire.Pipeline.not_buildable_keyless` decodes one
that does.
-/

namespace MiningPipelines

/-- The operation has a name, and its entries have keys and no float that is not finite. -/
structure Operation.Configured (op : Operation) : Prop where
  name : op.name ≠ ""
  entries : ∀ e ∈ op.config, e.1 ≠ "" ∧ ∀ x, e.2 = .float x → x.isFinite

/-- A fetch behind an operation asks for some key. -/
def Part.Requests : Part → Prop
  | .fetchAfter keys _ _ _ => keys ≠ []
  | _ => True

/-- The part is as the constructors ask, whatever is inside it. -/
structure Part.Buildable (p : Part) : Prop where
  operation : ∀ op, p.operation? = some op → op.Configured
  keys : p.Requests

def Wire.Shape.Requests : Wire.Shape → Prop
  | .fetchAfter keys _ _ => keys ≠ []
  | _ => True

/-- A fetch behind an operation asks for some key on the wire. -/
def Wire.Piece.Requests : Wire.Piece → Prop
  | .part p => ∀ s ∈ p.shapes, s.Requests
  | _ => True

/-! ## What the constructors ask -/

theorem Config.admits_iff {e : String × Value} :
    Config.Admits e ↔ e.1 ≠ "" ∧ ∀ x, e.2 = .float x → x.isFinite := by
  obtain ⟨key, v⟩ := e
  refine ⟨fun h => ⟨h.1, h.isFinite⟩, fun ⟨hkey, hfinite⟩ => ⟨hkey, ?_⟩⟩
  cases v with
  | float x => exact if_pos (hfinite x rfl)
  | _ => rfl

/-- An operation is configured exactly if the constructors make it from its name and entries. -/
theorem Operation.configured_iff {op : Operation} : op.Configured ↔
    Config.ofEntries op.config = .ok op.config ∧ Operation.make op.name op.config = .ok op := by
  obtain ⟨name, config⟩ := op
  rw [Config.ofEntries_eq_ok_iff, Operation.make_eq_ok_iff]
  have hadmits : (∀ e ∈ config, Config.Admits e) ↔
      ∀ e ∈ config, e.1 ≠ "" ∧ ∀ x, e.2 = .float x → x.isFinite :=
    forall₂_congr fun _ _ => Config.admits_iff
  constructor
  · intro h
    exact ⟨⟨hadmits.2 h.entries, rfl⟩, h.name, rfl⟩
  · rintro ⟨⟨hentries, -⟩, hname, -⟩
    exact ⟨hname, hadmits.1 hentries⟩

theorem Part.Built.buildable {p : Part} (h : p.Built) : p.Buildable := by
  have hconfigured : ∀ {op : Operation}, op.Built → op.Configured := by
    intro op hop
    obtain ⟨hname, hentries⟩ := Operation.built_iff.1 hop
    exact ⟨hname, fun e he => Config.admits_iff.1 (hentries e he).1⟩
  cases h with
  | operation hop =>
    refine ⟨fun op hp => ?_, trivial⟩
    obtain rfl := Option.some.inj hp
    exact hconfigured hop
  | parallel _ | fetch _ _ _ => exact ⟨(fun _ hp => nomatch hp), trivial⟩
  | @fetchAfter keys _ _ _ _ hbefore hp =>
    have hkeys : keys ≠ [] := by
      rintro rfl
      cases hp
    obtain rfl := Part.eq_of_ofFetchAfter hp
    refine ⟨fun op hop => ?_, fun hnone => hkeys (List.map_eq_nil_iff.1 hnone)⟩
    obtain rfl := Option.some.inj hop
    exact hconfigured hbefore

/-- The constructors make nothing else. -/
theorem Pipeline.Built.buildable {parts : Pipeline} (h : Pipeline.Built parts) :
    Pipeline.Everywhere Part.Buildable parts :=
  fun pos _ hp => (h.at? pos hp).buildable

/-! ## What decoding asks -/

/-- An operation whose pieces can be decoded is configured. -/
theorem Operation.configured_of_sound {op : Operation} (h : ∀ x ∈ op.ownPieces, x.Sound) :
    op.Configured := by
  obtain ⟨hname, hentries⟩ := List.forall_mem_cons.1 h
  refine ⟨?_, fun e he => ?_⟩
  · cases op
    exact hname
  · obtain ⟨hkey, -, hfinite⟩ := List.forall_mem_map.1 hentries e he
    refine ⟨hkey, fun x hx => hfinite x ?_⟩
    rw [hx]
    exact List.mem_singleton_self _

theorem Part.ownPieces_eq {p : Part} {op : Operation} (h : p.operation? = some op) :
    p.ownPieces = .part p.toWire :: op.ownPieces := by
  rw [ownPieces, h]

/-- A fetch asks for a key exactly if it does on the wire. -/
theorem Part.requests_iff (p : Part) : (∀ x ∈ p.ownPieces, x.Requests) ↔ p.Requests := by
  have hown : ∀ op : Operation, ∀ x ∈ op.ownPieces, x.Requests := fun op =>
    List.forall_mem_cons.2 ⟨trivial, List.forall_mem_map.2 fun _ _ => trivial⟩
  have hshape : (Wire.Piece.part p.toWire).Requests ↔ p.Requests := by
    cases p <;> exact List.forall_mem_singleton
  rw [ownPieces, List.forall_mem_cons, hshape]
  refine and_iff_left ?_
  split
  · exact List.forall_mem_nil _
  · exact hown _

namespace Wire.Pipeline

/-- Every operation of a decoded pipeline has a name, and every entry a key and no float that is
not finite, at any depth. The pipeline is buildable throughout exactly if every fetch behind an
operation on the wire asks for some key. -/
theorem buildable_of_decode {w : Pipeline} {parts : MiningPipelines.Pipeline}
    (h : decode w = .ok parts) :
    Pipeline.Everywhere (fun p => ∀ op, p.operation? = some op → op.Configured) parts ∧
    (Pipeline.Everywhere Part.Buildable parts ↔ ∀ x ∈ pieces w, x.Requests) := by
  have hsound : ∀ x ∈ pieces w, x.Sound := (decodes_iff w).1 ⟨parts, h⟩
  rw [← toWire_of_decode w h] at hsound ⊢
  rw [Pipeline.forall_pieces_iff] at hsound ⊢
  have hconfigured : Pipeline.Everywhere
      (fun p => ∀ op, p.operation? = some op → op.Configured) parts := by
    refine hsound.imp fun p hp op hop => Operation.configured_of_sound ?_
    rw [Part.ownPieces_eq hop] at hp
    exact (List.forall_mem_cons.1 hp).2
  refine ⟨hconfigured, fun hbuildable => ?_, fun hrequests pos p hp => ?_⟩
  · exact hbuildable.imp fun p hp => p.requests_iff.2 hp.keys
  · exact ⟨hconfigured pos p hp, p.requests_iff.1 (hrequests pos p hp)⟩

/-- A fetch inside the operation before another fetch, each with a key. -/
theorem buildable_of_decode_nested :
    let inner : Pipeline := [⟨[.fetchAfter ["k"] ⟨"o", [("x", ⟨[.float ⟨0⟩]⟩)]⟩ none]⟩]
    let w : Pipeline := [⟨[.fetchAfter ["l"] ⟨"p", [("q", ⟨[.pipeline inner]⟩)]⟩ none]⟩]
    ∃ parts, decode w = .ok parts ∧ Pipeline.Everywhere Part.Buildable parts := by
  intro inner w
  have hrequests : ∀ x ∈ pieces w, x.Requests := by
    simp [w, inner, pieces, Part.pieces, Part.piecesOf, Shape.pieces, Operation.pieces,
      Entries.pieces, Value.pieces, Value.piecesOf, Payload.pieces, Piece.Requests, Shape.Requests]
  obtain ⟨parts, hparts⟩ : ∃ parts, decode w = .ok parts := ⟨_, rfl⟩
  exact ⟨parts, hparts, (buildable_of_decode hparts).2.2 hrequests⟩

/-- A fetch without keys is decoded. The constructor of fetches refuses it. -/
theorem not_buildable_keyless :
    let w : Pipeline := [⟨[.fetchAfter [] ⟨"o", []⟩ none]⟩]
    (∃ parts, decode w = .ok parts ∧ ¬Pipeline.Everywhere Part.Buildable parts) ∧
    ∀ tag handler, MiningPipelines.Part.ofFetchAfter [] ⟨"o", []⟩ tag handler =
      .error (.noKeys "o") := by
  refine ⟨⟨[.fetchAfter [] ⟨"o", []⟩ none none], rfl, fun h => ?_⟩, fun tag handler => rfl⟩
  exact (h [0] _ rfl).keys rfl

end Wire.Pipeline

end MiningPipelines
