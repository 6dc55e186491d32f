import MiningPipelines.Proofs.InPlace
import MiningPipelines.Proofs.Listed

/-!
# What a table of keys remembers

A caller adds keys to a table by registrations that change it in place
(`KeyTable.registerInPlace`). A key of a name that is there with the same kind is written over what
is there, and that is the key itself, so nothing changes (`KeyTable.putKey_of_find?_eq_some`). A key
of another kind is refused, and only such a key is (`KeyTable.register_eq_error_iff`).

So a name has the key that came first under it (`KeyTable.Recalls`). A registration keeps this,
whether it succeeds or not (`KeyTable.Recalls.register`), and so do any number of them
(`KeyTable.recalls_play`). Then no answer of a table to a check changes any more, but for the names
it does not know yet. `KeyTable.registrations_recalled` says so of the tables a caller can have.
-/

namespace MiningPipelines

/-! ## What a check answers -/

theorem Key.check_eq_error_iff {key : Key} {v : Value} {e : Refusal} :
    key.check v = .error e ↔ v.kind ≠ key.kind ∧ e = .wrongKind key.name key.kind v.kind := by
  by_cases hkind : v.kind = key.kind <;> simp [Key.check, hkind, eq_comm]

namespace KeyTable

open InPlace (apply settle play)

variable {t next : KeyTable} {key known : Key} {name : String} {v : Value} {e : Refusal}

theorem name_of_find? (h : t.find? name = some key) : key.name = name := by
  have h : t.keys.find? (fun key => key.name == name) = some key := h
  simpa using List.find?_some h

/-- A value under a known name is checked by the key of that name. -/
theorem check_of_find? (h : t.find? name = some known) : t.check name v = known.check v := by
  rw [check, h]

/-- A check passes if the name is known and the kind is that of its key. -/
theorem check_eq_ok_iff :
    t.check name v = .ok () ↔ ∃ known, t.find? name = some known ∧ v.kind = known.kind := by
  cases hknown : t.find? name with
  | none => simp [check, hknown]
  | some known => simp [check_of_find? hknown, Key.check_eq_ok_iff]

/-- A check fails at the name or at the kind, and says at which. -/
theorem check_eq_error_iff : t.check name v = .error e ↔
    t.find? name = none ∧ e = .unknownKey name ∨
    ∃ known, t.find? name = some known ∧ v.kind ≠ known.kind ∧
      e = .wrongKind known.name known.kind v.kind := by
  cases hknown : t.find? name with
  | none => simp [check, hknown, eq_comm]
  | some known => simp [check_of_find? hknown, Key.check_eq_error_iff]

/-! ## Registrations that change a table in place -/

/-- A key of a new name goes behind all others. -/
theorem putKey_of_find?_eq_none : ∀ {keys : List Key},
    keys.find? (fun k => k.name == key.name) = none → putKey key keys = keys ++ [key]
  | [], _ => rfl
  | k :: rest, h => by
    obtain ⟨hk, hrest⟩ := List.forall_mem_cons.1 (List.find?_eq_none.1 h)
    rw [putKey, if_neg (mt beq_iff_eq.2 hk), putKey_of_find?_eq_none (List.find?_eq_none.2 hrest)]
    rfl

/-- A key that is there already is written over itself. -/
theorem putKey_of_find?_eq_some : ∀ {keys : List Key},
    keys.find? (fun k => k.name == key.name) = some key → putKey key keys = keys
  | k :: rest, h => by
    rw [List.find?_cons] at h
    by_cases hk : k.name = key.name
    · rw [beq_iff_eq.2 hk] at h
      rw [putKey, if_pos hk, Option.some.inj h]
    · rw [beq_eq_false_iff_ne.2 hk] at h
      rw [putKey, if_neg hk, putKey_of_find?_eq_some h]

theorem eq_of_find? (h : t.find? key.name = some known) (hkind : known.kind = key.kind) :
    known = key := by
  have hname := name_of_find? h
  cases known
  cases key
  exact (Key.mk.injEq ..).mpr ⟨hname, hkind⟩

/-- A registration in place is the one that is described by the table it makes. -/
theorem apply_registerInPlace (key : Key) (t : KeyTable) :
    apply (registerInPlace key) t = settle (t.register key) t := by
  rw [registerInPlace, InPlace.apply_get, register]
  cases hknown : t.find? key.name with
  | none =>
    have hput : putKey key t.keys = t.keys ++ [key] := putKey_of_find?_eq_none hknown
    simp only [InPlace.apply_modify, settle, hput]
  | some known =>
    by_cases hkind : known.kind = key.kind
    · have hput : putKey key t.keys = t.keys :=
        putKey_of_find?_eq_some (eq_of_find? hknown hkind ▸ hknown)
      simp only [if_pos hkind, InPlace.apply_modify, settle, hput]
    · simp only [if_neg hkind, InPlace.apply_throw, settle]

/-- A registration that succeeds adds a new name, or the table has that key already. -/
theorem register_eq_ok_iff : t.register key = .ok next ↔
    t.find? key.name = none ∧ next = ⟨t.keys ++ [key]⟩ ∨
    t.find? key.name = some key ∧ next = t := by
  cases hknown : t.find? key.name with
  | none => simp [register, hknown, eq_comm]
  | some known =>
    by_cases hkind : known.kind = key.kind
    · simp [register, hknown, eq_of_find? hknown hkind, eq_comm]
    · have hne : known ≠ key := fun h => hkind (congrArg Key.kind h)
      simp [register, hknown, hkind, hne]

/-- A registration fails exactly if its name is there with another kind. -/
theorem register_eq_error_iff : t.register key = .error e ↔
    ∃ known, t.find? key.name = some known ∧ known.kind ≠ key.kind ∧
      e = .keyConflict key.name known.kind := by
  cases hknown : t.find? key.name with
  | none => simp [register, hknown]
  | some known =>
    by_cases hkind : known.kind = key.kind
    · simp [register, hknown, hkind]
    · simpa [register, hknown, hkind] using eq_comm

/-! ## Registrations one after the other -/

/-- The tables that a caller can start from. -/
inductive Start : KeyTable → Prop
  | empty : Start empty
  | builtin : Start builtin

/-- In the table a name has the key that came first under it. -/
structure Recalls (start : KeyTable) (asked : List Key) (t : KeyTable) : Prop where
  distinct : (t.keys.map Key.name).Nodup
  first : ∀ name, t.find? name = (start.keys ++ asked).find? fun key => key.name == name

variable {start : KeyTable} {asked : List Key}

theorem recalls_start (h : (start.keys.map Key.name).Nodup) : Recalls start [] start :=
  ⟨h, fun name => by rw [List.append_nil, find?]⟩

theorem Start.distinct (h : start.Start) : (start.keys.map Key.name).Nodup := by
  cases h with
  | empty => exact List.nodup_nil
  | builtin => exact nodup_builtin

namespace Recalls

/-- One more key counts only if its name is new. -/
theorem first_concat (h : Recalls start asked t) (key : Key) (name : String) :
    (start.keys ++ (asked ++ [key])).find? (fun key => key.name == name) =
      (t.find? name).or (if key.name = name then some key else none) := by
  rw [← List.append_assoc, List.find?_append, ← h.first, List.find?_singleton]
  simp only [beq_iff_eq]

/-- A key whose name is known adds nothing. -/
theorem concat_of_find? (h : Recalls start asked t) (hknown : t.find? key.name = some known) :
    Recalls start (asked ++ [key]) t := by
  refine ⟨h.distinct, fun name => ?_⟩
  rw [h.first_concat]
  split
  · next hname => rw [← hname, hknown, Option.some_or]
  · rw [Option.or_none]

/-- A key whose name is new goes behind the others. -/
theorem concat_of_new (h : Recalls start asked t) (hnew : t.find? key.name = none) :
    Recalls start (asked ++ [key]) ⟨t.keys ++ [key]⟩ := by
  have hfresh : key.name ∉ t.keys.map Key.name := by
    intro hmem
    obtain ⟨k, hk, hname⟩ := List.mem_map.1 hmem
    exact List.find?_eq_none.1 hnew k hk (beq_iff_eq.2 hname)
  refine ⟨?_, fun name => ?_⟩
  · rw [List.map_append, List.map_singleton, ← List.concat_eq_append]
    exact h.distinct.concat hfresh
  · rw [h.first_concat, find?, find?, List.find?_append, List.find?_singleton]
    simp only [beq_iff_eq]

/-- One more registration, whatever its answer. -/
theorem register (h : Recalls start asked t) {answer : Except Refusal Unit}
    (hnext : apply (registerInPlace key) t = (answer, next)) :
    Recalls start (asked ++ [key]) next := by
  rw [apply_registerInPlace] at hnext
  cases answer with
  | ok u =>
    obtain ⟨hnew, rfl⟩ | ⟨hknown, rfl⟩ := register_eq_ok_iff.1 (InPlace.settle_eq_ok_iff.1 hnext)
    · exact h.concat_of_new hnew
    · exact h.concat_of_find? hknown
  | error e =>
    obtain ⟨herror, rfl⟩ := InPlace.settle_eq_error_iff.1 hnext
    obtain ⟨known, hknown, -⟩ := register_eq_error_iff.1 herror
    exact h.concat_of_find? hknown

/-- What a table has found it finds after any more registrations. -/
theorem find?_eq_some {more : List Key} {later : KeyTable} (h : Recalls t more later)
    (hknown : t.find? name = some known) : later.find? name = some known := by
  have hkeys : t.keys.find? (fun key => key.name == name) = some known := hknown
  rw [h.first, List.find?_append, hkeys, Option.some_or]

/-- Keys that are known are checked later as they are now. -/
theorem check_eq {more : List Key} {later : KeyTable} (h : Recalls t more later)
    (hknown : t.find? name = some known) (v : Value) : later.check name v = t.check name v := by
  rw [check_of_find? hknown, check_of_find? (h.find?_eq_some hknown)]

end Recalls

/-- Any number of registrations are remembered. -/
theorem recalls_play (h : (start.keys.map Key.name).Nodup) (calls : List Key) :
    Recalls start calls (play registerInPlace start calls).1 :=
  InPlace.play_induction (P := fun asked t _ => Recalls start asked t) (recalls_start h)
    (fun h hnext => h.register hnext) (fun h hnext => h.register hnext) calls

/-- However keys were registered in a table : each name is there once, under it is the key that came
first, and there it stays. A registration fails exactly if its name is there with another kind, and
then the table is as it was. A value that passes a check passes it after any more registrations, and
one that fails under a known name fails as it did. -/
theorem registrations_recalled (h : start.Start) (calls more : List Key) :
    let t := (play registerInPlace start calls).1
    let later := (play registerInPlace t more).1
    (t.keys.map Key.name).Nodup ∧
    (∀ name, t.find? name = (start.keys ++ calls).find? fun key => key.name == name) ∧
    (∀ name key, t.find? name = some key → later.find? name = some key) ∧
    (∀ key e next, apply (registerInPlace key) t = (.error e, next) ↔
      (∃ known, t.find? key.name = some known ∧ known.kind ≠ key.kind ∧
        e = .keyConflict key.name known.kind) ∧ next = t) ∧
    (∀ name v, t.check name v = .ok () → later.check name v = .ok ()) ∧
    ∀ name v e, t.contains name → t.check name v = .error e → later.check name v = .error e := by
  intro t later
  have hrecalls : Recalls start calls t := recalls_play h.distinct calls
  have hlater : Recalls t more later := recalls_play hrecalls.distinct more
  refine ⟨hrecalls.distinct, hrecalls.first, fun name key => hlater.find?_eq_some,
    fun key e next => ?_, fun name v hcheck => ?_, fun name v e hknown hcheck => ?_⟩
  · rw [apply_registerInPlace, InPlace.settle_eq_error_iff, register_eq_error_iff]
  · obtain ⟨known, hknown, -⟩ := check_eq_ok_iff.1 hcheck
    rw [hlater.check_eq hknown, hcheck]
  · obtain ⟨known, hknown⟩ := Option.isSome_iff_exists.1 hknown
    rw [hlater.check_eq hknown, hcheck]

/-- A key that comes twice is one key, and neither it nor a builtin one takes another kind. -/
theorem registrations_recalled_conflicts :
    let calls : List Key := [⟨"gain", .float⟩, ⟨"path", .uint32⟩, ⟨"gain", .float⟩, ⟨"gain", .bool⟩]
    let t := (play registerInPlace builtin calls).1
    let later := (play registerInPlace t [⟨"gain", .string⟩, ⟨"loss", .float⟩]).1
    t.find? "gain" = some ⟨"gain", .float⟩ ∧ later.find? "gain" = some ⟨"gain", .float⟩ ∧
    later.check "path" (.string "a.xes") = .ok () ∧
    later.check "path" (.uint32 1) = .error (.wrongKind "path" .string .uint32) := by
  intro calls t later
  obtain ⟨-, hfirst, hstays, -, hpasses, hfails⟩ := registrations_recalled .builtin calls
    [⟨"gain", .string⟩, ⟨"loss", .float⟩]
  have hgain : t.find? "gain" = some ⟨"gain", .float⟩ := (hfirst "gain").trans (by decide +kernel)
  have hpath : t.find? "path" = some .path := (hfirst "path").trans (by decide +kernel)
  have hknown : t.contains "path" := by rw [contains, hpath, Option.isSome_some]
  refine ⟨hgain, hstays _ _ hgain, hpasses _ _ ?_, hfails _ _ _ hknown ?_⟩
  · rw [check_of_find? hpath]
    rfl
  · rw [check_of_find? hpath]
    rfl

end KeyTable
end MiningPipelines
