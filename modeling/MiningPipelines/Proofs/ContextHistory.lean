import MiningPipelines.Proofs.AllOrNothing
import MiningPipelines.Proofs.InPlace
import MiningPipelines.Proofs.TextRoundTrip
import MiningPipelines.Proofs.Validation

/-!
# What a context remembers

A caller fills a context by insertions that change it in place (`Context.Insertion.perform`). The
checks come before the write, so an insertion that is refused has written nothing
(`Context.Insertion.apply_eq_error_iff`).

What a context is in the end depends only on the insertions that succeeded, as `Context.Records`
says : its keys are theirs, in the order in which they first came, and what it holds under a key
came last of all. One insertion keeps this (`Context.Records.put`), and so do all of them in turn
(`Context.records_play`). `Context.insertions_recorded` reads off it what holds of a context however
it was filled.
-/

namespace MiningPipelines

namespace Context

open InPlace (apply settle play)

/-! ## Insertions that change a context in place -/

/-- An insertion that a caller asks for. -/
inductive Insertion where
  | plain (key : String) (v : Value)
  | checked (table : KeyTable) (key : String) (v : Value)

namespace Insertion

/-- What is to be inserted. -/
def entry : Insertion → String × Value
  | plain key v | checked _ key v => (key, v)

/-- The context that the insertion makes of another. -/
def into (c : Context) : Insertion → Except Refusal Context
  | plain key v => c.insert key v
  | checked table key v => c.insertChecked table key v

/-- The insertion on a context that it changes in place. -/
def perform : Insertion → InPlace Refusal Context Unit
  | plain key v => insertInPlace key v
  | checked table key v => insertCheckedInPlace table key v

/-- Why an insertion is refused. -/
inductive Refused : Insertion → Refusal → Prop
  | emptyKey (v : Value) : Refused (plain "" v) .emptyContextKey
  | notFinite {key : String} {x : Single} : key ≠ "" → ¬x.isFinite →
      Refused (plain key (.float x)) (.notFinite x)
  | unknownKey {table : KeyTable} {key : String} (v : Value) : table.find? key = none →
      Refused (checked table key v) (.unknownKey key)
  | wrongKind {table : KeyTable} {key : String} {v : Value} {known : Key} :
      table.find? key = some known → v.kind ≠ known.kind →
      Refused (checked table key v) (.wrongKind known.name known.kind v.kind)
  | admitted {table : KeyTable} {key : String} {v : Value} {known : Key} {e : Refusal} :
      table.find? key = some known → v.kind = known.kind → Refused (plain key v) e →
      Refused (checked table key v) e

variable {i : Insertion} {c d : Context} {e : Refusal}

theorem apply_insertInPlace (key : String) (v : Value) (c : Context) :
    apply (insertInPlace key v) c = settle (c.insert key v) c := by
  by_cases hkey : key = ""
  · simp only [insertInPlace, insert, if_pos hkey]
    rfl
  · simp only [insertInPlace, insert, if_neg hkey]
    exact InPlace.apply_check _ (InPlace.apply_modify _ c)

/-- A change in place is the one that is described by the context it makes. -/
theorem apply_perform (i : Insertion) (c : Context) :
    apply i.perform c = settle (i.into c) c := by
  cases i with
  | plain key v => exact apply_insertInPlace key v c
  | checked table key v => exact InPlace.apply_check _ (apply_insertInPlace key v c)

/-- An insertion that nothing speaks against. -/
def Admitted (i : Insertion) : Prop :=
  Config.Admits i.entry ∧ ∀ table key v, i = checked table key v → table.check key v = .ok ()

theorem plain_admitted_or_refused (key : String) (v : Value) :
    Config.Admits (key, v) ∨ ∃ e, Refused (plain key v) e := by
  by_cases hkey : key = ""
  · subst hkey
    exact .inr ⟨_, .emptyKey v⟩
  · cases v with
    | float x =>
      by_cases hx : x.isFinite
      · exact .inl ⟨hkey, if_pos hx⟩
      · exact .inr ⟨_, .notFinite hkey hx⟩
    | _ => exact .inl ⟨hkey, rfl⟩

theorem admitted_or_refused (i : Insertion) : i.Admitted ∨ ∃ e, i.Refused e := by
  cases i with
  | plain key v =>
    obtain hadmits | hrefused := plain_admitted_or_refused key v
    · exact .inl ⟨hadmits, nofun⟩
    · exact .inr hrefused
  | checked table key v =>
    cases hknown : table.find? key with
    | none => exact .inr ⟨_, .unknownKey v hknown⟩
    | some known =>
      by_cases hkind : v.kind = known.kind
      · obtain hadmits | ⟨e, he⟩ := plain_admitted_or_refused key v
        · refine .inl ⟨hadmits, ?_⟩
          rintro _ _ _ ⟨⟩
          rw [KeyTable.check, hknown]
          exact Key.check_eq_ok_iff.2 hkind
        · exact .inr ⟨e, .admitted hknown hkind he⟩
      · exact .inr ⟨_, .wrongKind hknown hkind⟩

theorem into_eq_ok (h : i.Admitted) (c : Context) :
    i.into c = .ok ⟨putEntry i.entry.1 i.entry.2 c.entries⟩ := by
  have hinsert : c.insert i.entry.1 i.entry.2 =
      .ok ⟨putEntry i.entry.1 i.entry.2 c.entries⟩ := by
    rw [insert, if_neg h.1.1, h.1.2, ok_bind]
  cases i with
  | plain key v => exact hinsert
  | checked table key v => exact check_bind_eq_ok_iff.2 ⟨h.2 table key v rfl, hinsert⟩

theorem into_eq_error (h : i.Refused e) (c : Context) : i.into c = .error e := by
  induction h with
  | emptyKey v => rfl
  | notFinite hkey hx =>
    rw [into, insert, if_neg hkey, Value.transportable, if_neg hx]
    rfl
  | unknownKey v hknown =>
    rw [into, insertChecked, KeyTable.check, hknown]
    rfl
  | wrongKind hknown hkind =>
    rw [into, insertChecked, KeyTable.check, hknown]
    simp only [Key.check, if_neg hkind]
    rfl
  | admitted hknown hkind _ ih =>
    rw [into, insertChecked, KeyTable.check, hknown]
    simp only [Key.check, if_pos hkind, ok_bind]
    exact ih

/-- An insertion that succeeds is admitted, and has put its value under its key. -/
theorem apply_eq_ok_iff : apply i.perform c = (.ok (), d) ↔
    i.Admitted ∧ d = ⟨putEntry i.entry.1 i.entry.2 c.entries⟩ := by
  rw [apply_perform, InPlace.settle_eq_ok_iff]
  obtain hadmitted | ⟨e, he⟩ := i.admitted_or_refused
  · simp [into_eq_ok hadmitted, hadmitted, eq_comm]
  · have hnot : ¬i.Admitted := fun h => by cases (into_eq_ok h c).symm.trans (into_eq_error he c)
    simp [into_eq_error he, hnot]

/-- An insertion that fails is refused, and has left the context as it was. -/
theorem apply_eq_error_iff : apply i.perform c = (.error e, d) ↔ i.Refused e ∧ d = c := by
  rw [apply_perform, InPlace.settle_eq_error_iff]
  obtain hadmitted | ⟨e', he⟩ := i.admitted_or_refused
  · have hnot : ¬i.Refused e := fun h => by
      cases (into_eq_ok hadmitted c).symm.trans (into_eq_error h c)
    simp [into_eq_ok hadmitted, hnot]
  · have hsame : i.Refused e ↔ e = e' := by
      refine ⟨fun h => ?_, fun h => h ▸ he⟩
      exact Except.error.inj ((into_eq_error h c).symm.trans (into_eq_error he c))
    simp [into_eq_error he, hsame, eq_comm]

end Insertion

/-! ## Insertions one after another -/

/-- The contexts that a caller can start from. -/
inductive Start : Context → Prop
  | empty : Start empty
  | ofPath (path : String) : Start (ofPath path)
  | ofNamesLog (traces : NamesLog) : Start (ofNamesLog traces)

/-- The context is what has become of what was inserted. -/
structure Records (c : Context) (inserted : List (String × Value)) : Prop where
  distinct : (c.entries.map Prod.fst).Nodup
  /-- The keys stand in the order in which they first came. -/
  keys : c.entries.map Prod.fst = (inserted.map Prod.fst).eraseDups
  /-- Under each key is what came last. -/
  last : ∀ key, c.get? key = (inserted.reverse.find? fun e => e.1 == key).map Prod.snd

variable {c : Context} {inserted : List (String × Value)}

theorem Start.records (h : c.Start) : c.Records c.entries := by
  cases h with
  | empty => exact ⟨List.nodup_nil, rfl, fun _ => rfl⟩
  | ofPath _ | ofNamesLog _ => exact ⟨List.nodup_singleton _, rfl, fun _ => rfl⟩

theorem eraseDups_concat (keys : List String) (key : String) : (keys ++ [key]).eraseDups =
    if key ∈ keys then keys.eraseDups else keys.eraseDups ++ [key] := by
  rw [List.eraseDups_append, List.removeAll, List.filter_singleton, List.elem_eq_mem]
  by_cases hkey : key ∈ keys
  · simp [hkey]
  · simp [hkey, List.eraseDups_cons]

/-- One more insertion. -/
theorem Records.put (h : c.Records inserted) (key : String) (v : Value) :
    Records ⟨putEntry key v c.entries⟩ (inserted ++ [(key, v)]) where
  distinct := nodup_keys_putEntry key v c.entries h.distinct
  keys := by
    have hmem : key ∈ c.entries.map Prod.fst ↔ key ∈ inserted.map Prod.fst := by
      rw [h.keys, List.mem_eraseDups]
    rw [keys_putEntry, List.map_append, List.map_cons, List.map_nil, eraseDups_concat, ← h.keys]
    exact if_congr hmem rfl rfl
  last k := by
    have hput : get? ⟨putEntry key v c.entries⟩ k = if k = key then some v else c.get? k :=
      get?_putEntry key v c.entries k
    rw [hput, List.reverse_append, List.reverse_singleton, List.singleton_append, List.find?_cons]
    by_cases hk : k = key
    · simp [hk]
    · rw [if_neg hk, h.last, beq_eq_false_iff_ne.2 (Ne.symm hk)]

/-- The context is what has become of its first entries and of the insertions that succeeded. -/
theorem records_play (h : c.Records inserted) (insertions : List Insertion) :
    (play Insertion.perform c insertions).1.Records
      (inserted ++ (play Insertion.perform c insertions).2.map Insertion.entry) := by
  refine InPlace.play_induction
    (P := fun _ d done => Records d (inserted ++ done.map Insertion.entry))
    (by rwa [List.map_nil, List.append_nil]) (fun {_ d done i _} ih hnext => ?_)
    (fun ih hnext => ?_) insertions
  · obtain ⟨-, rfl⟩ := Insertion.apply_eq_ok_iff.1 hnext
    have hassoc : inserted ++ (done ++ [i]).map Insertion.entry =
        inserted ++ done.map Insertion.entry ++ [i.entry] := by
      rw [List.map_append, List.map_singleton, List.append_assoc]
    rw [hassoc]
    exact ih.put i.entry.1 i.entry.2
  · obtain ⟨-, rfl⟩ := Insertion.apply_eq_error_iff.1 hnext
    exact ih

/-- The insertions that succeeded were asked for, and are admitted. -/
theorem admitted_of_mem_play (c : Context) (insertions : List Insertion) :
    ∀ i ∈ (play Insertion.perform c insertions).2, i ∈ insertions ∧ i.Admitted :=
  InPlace.mem_of_mem_play (fun hnext => (Insertion.apply_eq_ok_iff.1 hnext).1) c insertions

/-- What is under a key is what was inserted under it last. -/
theorem Records.get?_eq_some_iff (h : c.Records inserted) {key : String} {v : Value} :
    c.get? key = some v ↔
      ∃ before rest, inserted = before ++ (key, v) :: rest ∧ ∀ e ∈ rest, e.1 ≠ key := by
  rw [h.last]
  refine Config.get?_eq_some_iff.trans ⟨?_, ?_⟩
  · rintro ⟨after, before, hsplit, hafter⟩
    refine ⟨before.reverse, after.reverse, ?_, fun e he => hafter e (List.mem_reverse.1 he)⟩
    rw [← List.reverse_reverse inserted, hsplit]
    simp
  · rintro ⟨before, rest, rfl, hrest⟩
    exact ⟨rest.reverse, before.reverse, by simp, fun e he => hrest e (List.mem_reverse.1 he)⟩

theorem Records.mem (h : c.Records inserted) {e : String × Value} (he : e ∈ c.entries) :
    e ∈ inserted := by
  have hget : c.get? e.1 = some e.2 := by
    rw [get?, find?_of_nodup h.distinct he]
    rfl
  obtain ⟨before, rest, rfl, -⟩ := h.get?_eq_some_iff.1 hget
  exact List.mem_append_right before List.mem_cons_self

theorem Start.admits (h : c.Start) : ∀ e ∈ c.entries, Config.Admits e ∧ e.2.parts = [] := by
  have hpath : Key.path.name ≠ "" := by decide
  have hlog : Key.namesEventLog.name ≠ "" := by decide
  cases h with
  | empty => exact List.forall_mem_nil _
  | ofPath _ => exact List.forall_mem_singleton.2 ⟨⟨hpath, rfl⟩, rfl⟩
  | ofNamesLog _ => exact List.forall_mem_singleton.2 ⟨⟨hlog, rfl⟩, rfl⟩

/-- Every entry is admitted, and its pipeline is one that was there or was asked to be inserted. -/
theorem Start.admits_play (h : c.Start) {insertions : List Insertion} :
    ∀ e ∈ (play Insertion.perform c insertions).1.entries, Config.Admits e ∧
      (e.2.parts = [] ∨ ∃ i ∈ insertions, i.entry = e) := by
  intro e he
  obtain he | he := List.mem_append.1 ((records_play h.records insertions).mem he)
  · exact ⟨(h.admits e he).1, .inl (h.admits e he).2⟩
  · obtain ⟨i, hi, rfl⟩ := List.mem_map.1 he
    obtain ⟨hasked, hadmitted⟩ := admitted_of_mem_play c insertions i hi
    exact ⟨hadmitted.1, .inr ⟨i, hasked, rfl⟩⟩

/-- However a context was filled : its keys are distinct and not empty, and no float in it is not
finite, at any depth if the pipelines inserted were made. Under a key is the value that was last
inserted with success. The keys, also on the wire, stand in the order of the first insertions that
succeeded. An insertion that is refused leaves the context as it was. -/
theorem insertions_recorded (h : c.Start) (insertions : List Insertion) :
    let last := (play Insertion.perform c insertions).1
    let inserted := c.entries ++ (play Insertion.perform c insertions).2.map Insertion.entry
    (last.entries.map Prod.fst).Nodup ∧
    (∀ e ∈ last.entries, e.1 ≠ "" ∧ ∀ x, e.2 = .float x → x.isFinite) ∧
    ((∀ i ∈ insertions, Pipeline.Made i.entry.2.parts) →
      ∀ e ∈ last.entries, ∀ x ∈ e.2.floats, x.isFinite) ∧
    (∀ key v, last.get? key = some v ↔
      ∃ before rest, inserted = before ++ (key, v) :: rest ∧ ∀ e ∈ rest, e.1 ≠ key) ∧
    last.entries.map Prod.fst = (inserted.map Prod.fst).eraseDups ∧
    last.toWire = last.entries.map (fun e => (e.1, e.2.toWire)) ∧
    ∀ (i : Insertion) e next,
      apply i.perform last = (.error e, next) ↔ i.Refused e ∧ next = last := by
  intro last inserted
  have hrecords : last.Records inserted := records_play h.records insertions
  refine ⟨hrecords.distinct, fun e he => ?_, fun hmade e he => ?_,
    fun key v => hrecords.get?_eq_some_iff, hrecords.keys,
    Config.toWire_eq_map last.entries, fun i e next => Insertion.apply_eq_error_iff⟩
  · exact ⟨(h.admits_play e he).1.1, (h.admits_play e he).1.isFinite⟩
  · obtain ⟨hadmits, hparts⟩ := h.admits_play e he
    have hpipeline : Pipeline.Made e.2.parts := by
      obtain hnil | ⟨i, hi, rfl⟩ := hparts
      · exact hnil ▸ List.forall_mem_nil _
      · exact hmade i hi
    exact Value.isFinite_of_sound (Value.pieces_toWire e.2 ▸ hpipeline.sound) hadmits.isFinite

/-- A path is replaced in its place, a new key goes behind it, and what is refused goes nowhere. -/
theorem insertions_recorded_replaced :
    let insertions : List Insertion := [.plain "activity_level" (.uint32 1),
      .plain "" (.bool true), .checked .builtin "path" (.string "b.xes"),
      .checked .builtin "path" (.bool true), .plain "tolerance" (.float .infinity)]
    let last := (play Insertion.perform (ofPath "a.xes") insertions).1
    last.get? "path" = some (.string "b.xes") ∧
    last.entries.map Prod.fst = ["path", "activity_level"] ∧
    ∀ next, apply (Insertion.plain "" (.bool true)).perform last =
      (.error .emptyContextKey, next) → next = last := by
  intro insertions last
  obtain ⟨-, -, -, hlast, hkeys, -, hrefused⟩ := insertions_recorded (.ofPath "a.xes") insertions
  refine ⟨(hlast "path" _).2 ⟨[_, _], [], rfl, List.forall_mem_nil _⟩, hkeys.trans (by rfl),
    fun next hnext => ((hrefused _ _ next).1 hnext).2⟩

end Context
end MiningPipelines
