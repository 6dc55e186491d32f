import Mathlib.Data.List.Induction
import MiningPipelines.Proofs.Decoding
import MiningPipelines.Proofs.Step

/-!
# Delivery is all or nothing

A handler is called with the values of all the entries of a result or not at all. If every entry
can be decoded, the handler of the position that is selected gets each key once, with the value of
the last entry that has it (`Values.Hold`). If some entry cannot, whatever the later ones are and
however deep inside it the fault lies, the run ends where it stood
(`Run.drain_of_firstFault`), and reports the first such entry.

`Run.deliver_all_or_nothing` puts the two together for a run in any state.
-/

namespace MiningPipelines

/-! ## Values by key -/

section PutEntry

variable (key : String) (v : Value) (entries : List (String × Value))

/-- A new key is put behind the others, and a known one keeps its place. -/
theorem keys_putEntry : (putEntry key v entries).map Prod.fst =
    if key ∈ entries.map Prod.fst then entries.map Prod.fst else entries.map Prod.fst ++ [key] := by
  induction entries with
  | nil => simp [putEntry]
  | cons e rest ih =>
    obtain ⟨k, w⟩ := e
    by_cases hk : k = key
    · simp [putEntry, hk]
    · simp only [putEntry, if_neg hk, List.map_cons, ih, List.mem_cons, Ne.symm hk, false_or]
      split <;> rfl

theorem mem_keys_putEntry {k : String} :
    k ∈ (putEntry key v entries).map Prod.fst ↔ k ∈ entries.map Prod.fst ∨ k = key := by
  rw [keys_putEntry]
  split
  · next hkey =>
    constructor
    · exact Or.inl
    · rintro (hk | rfl)
      · exact hk
      · exact hkey
  · simp

theorem nodup_keys_putEntry (h : (entries.map Prod.fst).Nodup) :
    ((putEntry key v entries).map Prod.fst).Nodup := by
  rw [keys_putEntry]
  split
  · exact h
  · next hkey =>
    refine List.nodup_append.2 ⟨h, List.nodup_singleton key, fun k hk l hl => ?_⟩
    obtain rfl := List.mem_singleton.1 hl
    exact ne_of_mem_of_not_mem hk hkey

theorem get?_putEntry (k : String) : Values.get? (putEntry key v entries) k =
    if k = key then some v else Values.get? entries k := by
  unfold Values.get?
  induction entries with
  | nil =>
    by_cases hk : k = key
    · simp [putEntry, hk]
    · simp [putEntry, hk, Ne.symm hk]
  | cons e rest ih =>
    obtain ⟨l, w⟩ := e
    by_cases hl : l = key
    · by_cases hk : k = key
      · simp [putEntry, hl, hk]
      · simp [putEntry, hl, hk, Ne.symm hk]
    · by_cases hlk : l = k
      · obtain rfl := hlk
        simp [putEntry, hl]
      · simp [putEntry, hl, hlk, ih]

end PutEntry

/-- The values are those of the entries : each key once, with the value of its last entry. -/
structure Values.Hold (values : Values) (entries : Wire.Entries) : Prop where
  distinct : (values.map Prod.fst).Nodup
  keys : ∀ key, key ∈ values.map Prod.fst ↔ key ∈ entries.map Prod.fst
  last : ∀ before key w rest, entries = before ++ (key, w) :: rest → (∀ e ∈ rest, e.1 ≠ key) →
    ∃ v, w.decode = .ok v ∧ Values.get? values key = some v

namespace Values.Hold

theorem nil : Values.Hold [] [] :=
  ⟨List.nodup_nil, fun _ => Iff.rfl, fun _ _ _ _ h => absurd h (by simp)⟩

/-- One more entry takes the place of the earlier ones with its key. -/
theorem put {values : Values} {entries : Wire.Entries} (h : values.Hold entries)
    {key : String} {w : Wire.Value} {v : Value} (hw : w.decode = .ok v) :
    Values.Hold (putEntry key v values) (entries ++ [(key, w)]) := by
  refine ⟨nodup_keys_putEntry _ _ _ h.distinct, fun k => ?_, ?_⟩
  · rw [mem_keys_putEntry, h.keys]
    simp
  · intro before k u rest hsplit hrest
    rw [get?_putEntry]
    rcases List.eq_nil_or_concat rest with rfl | ⟨rest, e, rfl⟩
    · obtain ⟨-, hlast⟩ := List.append_inj' hsplit rfl
      obtain ⟨rfl, rfl⟩ := Prod.mk.inj (List.singleton_inj.1 hlast)
      exact ⟨v, hw, if_pos rfl⟩
    · rw [List.concat_eq_append, ← List.cons_append, ← List.append_assoc] at hsplit
      obtain ⟨hfront, hlast⟩ := List.append_inj' hsplit rfl
      obtain rfl : (key, w) = e := List.singleton_inj.1 hlast
      rw [List.concat_eq_append, List.forall_mem_append, List.forall_mem_singleton] at hrest
      rw [if_neg (Ne.symm hrest.2)]
      exact h.last before k u rest hfront hrest.1

theorem of_decodable {entries : Wire.Entries} (h : Wire.Entries.Decodable entries) :
    (Values.ofEntries (Wire.Entries.decoded entries)).Hold entries := by
  induction entries using List.reverseRecOn with
  | nil => exact nil
  | append_singleton entries e ih =>
    obtain ⟨key, w⟩ := e
    obtain ⟨hentries, he⟩ := List.forall_mem_append.1 h
    obtain ⟨v, hv⟩ := List.forall_mem_singleton.1 he
    have hdecoded : Wire.Entries.decoded (entries ++ [(key, w)]) =
        Wire.Entries.decoded entries ++ [(key, v)] := by
      simp [Wire.Entries.decoded, hv, Except.toOption]
    rw [hdecoded, Values.ofEntries, List.foldl_append]
    exact (ih hentries).put hv

end Values.Hold

/-- The entries of a result can be decoded exactly if each has one payload, and every piece inside
it, at any depth, is sound. -/
theorem Wire.Entries.decodable_iff (entries : Wire.Entries) : Wire.Entries.Decodable entries ↔
    ∀ e ∈ entries, e.2.slots.length = 1 ∧ ∀ x ∈ e.2.pieces, x.Sound :=
  forall₂_congr fun e _ => e.2.decodes_iff

/-! ## Runs -/

namespace Run

variable {σ : Type} (handlers : Behaviour) (sink : Sink σ) (r : Run σ) (index : Nat)
  {result : Wire.PartResult}

/-- A run ends at a result with an entry that cannot be decoded, and has done nothing with it. -/
theorem drain_of_firstFault {key : String} {cause : DecodeFault}
    (h : Wire.Entries.FirstFault result.values key cause) {asking : Bool}
    (hlooks : asking = true ∨ r.signal.fired = false) (rest : List Arrival) :
    r.drain handlers sink asking index (.item (.ok (.result result)) :: rest) =
      (r.take (.item (.ok (.result result)))).conclude sink
        (.error (.protocol index (.undecodableValue key cause))) := by
  have hlook : ¬(!asking && r.signal.fired) = true := by
    obtain rfl | hfired := hlooks <;> simp [*]
  rw [drain, if_neg hlook, handleItem, handle_result, deliver_of_firstFault _ _ _ _ h]
  rfl

/-- Whether or not it accepts them, the handler of a position that is selected gets the values of
the result. -/
theorem calls_of_selected (hd : Wire.Entries.Decodable result.values) {i : Nat} {next : Registry}
    (hselect : r.registry.select result.tag = .ok (i, next)) :
    ∃ c, r.registry.callbacks[i]? = some c ∧
      (r.handleItem handlers sink index (.ok (.result result))).1.calls =
        r.calls ++ [⟨i, c.handler, result.contents⟩] := by
  obtain ⟨c, hc, hroute⟩ :=
    Registry.exists_route_of_position (Registry.position_of_select hselect).1
  obtain ⟨logs, haccepted, hrefused⟩ :=
    (r.take (.item (.ok (.result result)))).deliver_of_route handlers sink index hd hroute
  refine ⟨c, hc, ?_⟩
  rw [handleItem, handle_result]
  cases hreply : ((r.take (.item (.ok (.result result)))).reply handlers c result).result with
  | ok _ =>
    rw [haccepted hreply]
    rfl
  | error reason =>
    rw [hrefused reason hreply]
    rfl

/-- A result is delivered as a whole or not at all, whatever state the run is in. If all entries
can be decoded, the handler of the position that is selected is called once, with each key and the
value of its last entry. If some entry cannot, for the number of its payloads or for a piece at any
depth that is not sound, no handler is called, the registry and the count of deliveries stay as they
are, and the run fails with the key of the first such entry and the number of the message. -/
theorem deliver_all_or_nothing (result : Wire.PartResult) (asking : Bool)
    (hlooks : asking = true ∨ r.signal.fired = false) (rest : List Arrival) :
    let item : Item := .ok (.result result)
    let handled := (r.handleItem handlers sink index item).1
    let ended := r.drain handlers sink asking index (.item item :: rest)
    (Wire.Entries.Decodable result.values ↔
      ∀ e ∈ result.values, e.2.slots.length = 1 ∧ ∀ x ∈ e.2.pieces, x.Sound) ∧
    (Wire.Entries.Decodable result.values →
      (∀ i next, r.registry.select result.tag = .ok (i, next) →
        ∃ c values, r.registry.callbacks[i]? = some c ∧ Values.Hold values result.values ∧
          handled.calls = r.calls ++ [⟨i, c.handler, values⟩]) ∧
      ∀ cause, r.registry.select result.tag = .error cause → handled.calls = r.calls) ∧
    (¬Wire.Entries.Decodable result.values →
      ∃ key cause, Wire.Entries.FirstFault result.values key cause ∧
        ended.2 = .failed (.protocol index (.undecodableValue key cause)) r.delivered ∧
        ended.1.calls = r.calls ∧ ended.1.registry = r.registry ∧
        ended.1.delivered = r.delivered ∧
        ended.1.events = r.events ++
          [.failed r.id (Failure.protocol index (.undecodableValue key cause)).message]) := by
  intro item handled ended
  refine ⟨Wire.Entries.decodable_iff _, fun hd => ⟨fun i next hselect => ?_,
    fun cause hselect => ?_⟩, fun hfault => ?_⟩
  · obtain ⟨c, hc, hcalls⟩ := r.calls_of_selected handlers sink index hd hselect
    exact ⟨c, result.contents, hc, .of_decodable hd, hcalls⟩
  · obtain ⟨logs, hdeliver⟩ := (r.take (.item item)).deliver_of_no_route handlers sink index hd
      (Registry.route_of_select_error hselect)
    have hhandled : handled = _ := congrArg Prod.fst (handle_result handlers sink _ index)
    rw [hhandled, hdeliver]
    rfl
  · obtain ⟨key, cause, hfirst⟩ :=
      (Wire.Entries.decodable_or_firstFault result.values).resolve_left hfault
    refine ⟨key, cause, hfirst, ?_⟩
    rw [show ended = _ from r.drain_of_firstFault handlers sink index hfirst hlooks rest]
    exact ⟨rfl, rfl, rfl, rfl, rfl⟩

/-- The later entry of a key counts, but does not make up for an operation without a name that is
nested in the earlier one. -/
theorem deliver_all_or_nothing_repeated :
    let handlers : Behaviour := ⟨fun _ _ _ => .ok⟩
    let r : Run Unit := ⟨"r", .streaming, 0, .ofCallbacks [⟨none, "F", .named "f"⟩] .positional,
      .never, (), [], [], [], []⟩
    let good : Wire.PartResult :=
      ⟨none, [("k", ⟨[.string "u"]⟩), ("l", ⟨[.bool true]⟩), ("k", ⟨[.string "v"]⟩)]⟩
    let bad : Wire.PartResult :=
      ⟨none, [("l", ⟨[.bool true]⟩), ("k", ⟨[.pipeline [⟨[.operation ⟨"", []⟩]⟩]]⟩),
        ("k", ⟨[.string "v"]⟩)]⟩
    let handled := (r.handleItem handlers .discarding 7 (.ok (.result good))).1
    let ended := r.drain handlers .discarding false 7 [.item (.ok (.result bad))]
    (∃ values, Values.Hold values good.values ∧ handled.calls = [⟨0, .named "f", values⟩]) ∧
      ended.1.calls = [] ∧ ∃ key cause, Wire.Entries.FirstFault bad.values key cause ∧
        ended.2 = .failed (.protocol 7 (.undecodableValue key cause)) 0 := by
  intro handlers r good bad handled ended
  obtain ⟨hgood, hdelivers, -⟩ :=
    deliver_all_or_nothing handlers .discarding r 7 good false (.inr rfl) []
  obtain ⟨hbad, -, hfails⟩ :=
    deliver_all_or_nothing handlers .discarding r 7 bad false (.inr rfl) []
  constructor
  · have hd : Wire.Entries.Decodable good.values := hgood.2 (by simp [good, Wire.Value.pieces,
      Wire.Value.piecesOf, Wire.Payload.pieces])
    obtain ⟨c, values, hc, hhold, hcalls⟩ := (hdelivers hd).1 0 _ rfl
    obtain rfl := Option.some.inj hc
    exact ⟨values, hhold, hcalls⟩
  · have hnot : ¬Wire.Entries.Decodable bad.values := by
      rw [hbad]
      simp [bad, Wire.Value.pieces, Wire.Value.piecesOf, Wire.Payload.pieces,
        Wire.Pipeline.pieces, Wire.Part.pieces, Wire.Part.piecesOf, Wire.Shape.pieces,
        Wire.Operation.pieces, Wire.Entries.pieces, Wire.Piece.Sound]
    obtain ⟨key, cause, hfirst, houtcome, hcalls, -⟩ := hfails hnot
    exact ⟨hcalls, key, cause, hfirst, houtcome⟩

end Run

end MiningPipelines
