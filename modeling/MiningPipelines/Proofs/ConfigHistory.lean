import MiningPipelines.Proofs.KeyHistory
import MiningPipelines.Proofs.TextRoundTrip

/-!
# What a configuration remembers

A caller fills a configuration by calls that append to it in place (`Config.Addition.perform`).
Some check the value first against a known key (`Config.Addition.gate`), the typed ones among them,
and all refuse an empty key and a float that is not finite. So a call is refused for one of four
reasons (`Config.Addition.Refused`) and otherwise appends its entry behind the others, which are as
they were (`Config.Addition.onto_eq_ok_iff`, `Config.Addition.onto_eq_error_iff`).

A configuration is therefore the entries of the calls that succeeded, in their order
(`Config.play_eq`). `Config.additions_kept` reads off it what holds of a configuration however it
was filled.
-/

namespace MiningPipelines

theorem Value.transportable_eq_error_iff {v : Value} {e : Refusal} :
    v.transportable = .error e ↔ ∃ x, v = .float x ∧ ¬x.isFinite ∧ e = .notFinite x := by
  cases v with
  | float x =>
    by_cases hx : x.isFinite
    · simp [transportable, hx]
    · simpa [transportable, hx] using eq_comm
  | _ => simp [transportable]

namespace Config

open InPlace (apply settle play)

/-! ## Calls that change a configuration in place -/

/-- What a typed call appends. -/
inductive Content where
  | string (s : String)
  | uint32 (n : UInt32)
  | bool (b : Bool)
  | float (x : Single)
  | enum (enumType variant : String)
  | strings (items : List String)
  | namesLog (traces : NamesLog)
  | pipeline (parts : Pipeline)

def Content.value : Content → Value
  | string s => .string s
  | uint32 n => .uint32 n
  | bool b => .bool b
  | float x => .float x
  | enum enumType variant => .enum enumType variant
  | strings items => .strings items
  | namesLog traces => .namesLog traces
  | pipeline parts => .pipeline parts

/-- A call that a caller makes. -/
inductive Addition where
  | plain (key : String) (v : Value)
  | checked (table : KeyTable) (key : String) (v : Value)
  | known (key : Key) (v : Value)
  | typed (key : Key) (content : Content)

namespace Addition

/-- What is to be appended. -/
def entry : Addition → String × Value
  | plain key v | checked _ key v => (key, v)
  | known key v => (key.name, v)
  | typed key content => (key.name, content.value)

/-- The configuration that the call makes of another. -/
def onto (config : Config) : Addition → Except Refusal Config
  | plain key v => append config key v
  | checked table key v => appendChecked config table key v
  | known key v => appendKey config key v
  | typed key content => appendKey config key content.value

/-- The call on a configuration that it changes in place. -/
def perform : Addition → InPlace Refusal Config Unit
  | plain key v => appendInPlace key v
  | checked table key v => appendCheckedInPlace table key v
  | known key v => appendKeyInPlace key v
  | typed key content => appendKeyInPlace key content.value

/-- The key that the value has to fit, if the call has one that is known. -/
def key? : Addition → Option Key
  | plain _ _ => none
  | checked table key _ => table.find? key
  | known key _ | typed key _ => some key

/-- The value has the kind that the call asks for. -/
def Fits : Addition → Prop
  | plain _ _ => True
  | checked table key v => ∃ known, table.find? key = some known ∧ v.kind = known.kind
  | known key v => v.kind = key.kind
  | typed key content => content.value.kind = key.kind

/-- A call that nothing speaks against. -/
def Admitted (a : Addition) : Prop := a.Fits ∧ Admits a.entry

/-- Why a call is refused. -/
inductive Refused : Addition → Refusal → Prop
  | unknownKey {table : KeyTable} {key : String} (v : Value) : table.find? key = none →
      Refused (checked table key v) (.unknownKey key)
  | wrongKind {a : Addition} {key : Key} : a.key? = some key → a.entry.2.kind ≠ key.kind →
      Refused a (.wrongKind key.name key.kind a.entry.2.kind)
  | emptyKey {a : Addition} : a.Fits → a.entry.1 = "" → Refused a .emptyConfigurationKey
  | notFinite {a : Addition} {x : Single} : a.Fits → a.entry.1 ≠ "" → a.entry.2 = .float x →
      ¬x.isFinite → Refused a (.notFinite x)

variable {a : Addition} {config next : Config} {e : Refusal}

/-! ## What a call answers -/

/-- What a call checks first. -/
def gate : Addition → Except Refusal Unit
  | plain _ _ => .ok ()
  | checked table key v => table.check key v
  | known key v => key.check v
  | typed key content => key.check content.value

theorem onto_eq (a : Addition) (config : Config) :
    a.onto config = a.gate >>= fun _ => append config a.entry.1 a.entry.2 := by
  cases a <;> rfl

theorem gate_eq_ok_iff : a.gate = .ok () ↔ a.Fits := by
  cases a with
  | plain key v => exact iff_of_true rfl trivial
  | checked table key v => exact KeyTable.check_eq_ok_iff
  | known key v | typed key content => exact Key.check_eq_ok_iff

theorem gate_eq_error_iff : a.gate = .error e ↔
    (∃ table key v, a = checked table key v ∧ table.find? key = none ∧ e = .unknownKey key) ∨
    ∃ key, a.key? = some key ∧ a.entry.2.kind ≠ key.kind ∧
      e = .wrongKind key.name key.kind a.entry.2.kind := by
  cases a with
  | plain key v => simp [gate, key?]
  | checked table key v =>
    rw [gate, KeyTable.check_eq_error_iff]
    simp [key?, entry]
  | known key v | typed key content =>
    rw [gate, Key.check_eq_error_iff]
    simp [key?, entry]

theorem append_eq_error_iff {key : String} {v : Value} : append config key v = .error e ↔
    key = "" ∧ e = .emptyConfigurationKey ∨
    key ≠ "" ∧ ∃ x, v = .float x ∧ ¬x.isFinite ∧ e = .notFinite x := by
  by_cases hkey : key = ""
  · simpa [append, hkey] using eq_comm
  · rw [append, if_neg hkey, check_bind_eq_error_iff, Value.transportable_eq_error_iff]
    simp [hkey]

/-- A call that succeeds is admitted, and has put its entry behind the others. -/
theorem onto_eq_ok_iff : a.onto config = .ok next ↔ a.Admitted ∧ next = config ++ [a.entry] := by
  rw [onto_eq, check_bind_eq_ok_iff, gate_eq_ok_iff, append_eq_ok_iff, ← and_assoc]
  rfl

/-- A call that fails is refused. -/
theorem onto_eq_error_iff : a.onto config = .error e ↔ a.Refused e := by
  rw [onto_eq, check_bind_eq_error_iff, gate_eq_error_iff, gate_eq_ok_iff, append_eq_error_iff]
  constructor
  · rintro ((⟨table, key, v, rfl, hnone, rfl⟩ | ⟨key, hkey, hkind, rfl⟩) |
      ⟨hfits, ⟨hempty, rfl⟩ | ⟨hkey, x, hx, hfinite, rfl⟩⟩)
    · exact .unknownKey v hnone
    · exact .wrongKind hkey hkind
    · exact .emptyKey hfits hempty
    · exact .notFinite hfits hkey hx hfinite
  · rintro (⟨v, hnone⟩ | ⟨hkey, hkind⟩ | ⟨hfits, hempty⟩ | ⟨hfits, hkey, hx, hfinite⟩)
    · exact .inl (.inl ⟨_, _, v, rfl, hnone, rfl⟩)
    · exact .inl (.inr ⟨_, hkey, hkind, rfl⟩)
    · exact .inr ⟨hfits, .inl ⟨hempty, rfl⟩⟩
    · exact .inr ⟨hfits, .inr ⟨hkey, _, hx, hfinite, rfl⟩⟩

theorem apply_appendInPlace (key : String) (v : Value) (config : Config) :
    apply (appendInPlace key v) config = settle (append config key v) config := by
  by_cases hkey : key = ""
  · simp only [appendInPlace, append, if_pos hkey]
    rfl
  · simp only [appendInPlace, append, if_neg hkey]
    exact InPlace.apply_check _ (InPlace.apply_modify _ config)

/-- A call in place is the one that is described by the configuration it makes. -/
theorem apply_perform (a : Addition) (config : Config) :
    apply a.perform config = settle (a.onto config) config := by
  cases a with
  | plain key v => exact apply_appendInPlace key v config
  | checked table key v => exact InPlace.apply_check _ (apply_appendInPlace key v config)
  | known key v => exact InPlace.apply_check _ (apply_appendInPlace key.name v config)
  | typed key content =>
    exact InPlace.apply_check _ (apply_appendInPlace key.name content.value config)

end Addition

/-! ## Calls one after the other -/

/-- The configuration is the one it started from, and behind it the entries of the calls that
succeeded. -/
theorem play_eq (start : Config) (calls : List Addition) :
    (play Addition.perform start calls).1 =
      start ++ (play Addition.perform start calls).2.map Addition.entry := by
  refine InPlace.play_induction
    (P := fun _ config done => config = start ++ done.map Addition.entry)
    (List.append_nil start).symm (fun ih hnext => ?_) (fun ih hnext => ?_) calls
  · rw [Addition.apply_perform, InPlace.settle_eq_ok_iff, Addition.onto_eq_ok_iff] at hnext
    rw [hnext.2, ih, List.map_append, List.map_singleton, List.append_assoc]
  · rw [Addition.apply_perform, InPlace.settle_eq_error_iff] at hnext
    exact hnext.2.trans ih

/-- The calls that succeeded are calls that nothing speaks against. -/
theorem admitted_of_mem_play (start : Config) (calls : List Addition) :
    ∀ a ∈ (play Addition.perform start calls).2, a ∈ calls ∧ a.Admitted := by
  refine InPlace.mem_of_mem_play (fun hnext => ?_) start calls
  rw [Addition.apply_perform, InPlace.settle_eq_ok_iff, Addition.onto_eq_ok_iff] at hnext
  exact hnext.1

/-! ## What is found in a configuration -/

/-- The pipelines in a configuration are its values that can be read as pipelines. -/
theorem nested_eq_filterMap : ∀ config : Config,
    nested config = config.filterMap fun e => e.2.asPipeline.toOption
  | [] => rfl
  | (k, v) :: rest => by
    cases v <;> simp [nested, Value.asPipeline, Value.unexpected, Except.toOption,
      nested_eq_filterMap rest]

theorem get?_append_of_eq_some {config : Config} {key : String} {v : Value}
    (h : config.get? key = some v) (rest : Config) : get? (config ++ rest) key = some v := by
  obtain ⟨before, behind, rfl, hbefore⟩ := get?_eq_some_iff.1 h
  exact get?_eq_some_iff.2 ⟨before, behind ++ rest, by simp, hbefore⟩

/-- However a configuration was filled : it is the entries of the calls that succeeded, in their
order, and so are its wire form and the pipelines in it. No key is empty, and no float in it is not
finite, at any depth if the pipelines appended were made. Under a key is the value that was first
appended under it with success, and there it stays. A call that is refused leaves the configuration
as it was, and any other puts its entry behind the others. -/
theorem additions_kept (calls more : List Addition) :
    let last := (play Addition.perform ([] : Config) calls).1
    let kept := (play Addition.perform ([] : Config) calls).2.map Addition.entry
    let later := (play Addition.perform last more).1
    last = kept ∧
    toWire last = kept.map (fun e => (e.1, e.2.toWire)) ∧
    (∀ e ∈ last, e.1 ≠ "" ∧ ∀ x, e.2 = .float x → x.isFinite) ∧
    ((∀ a ∈ calls, Pipeline.Made a.entry.2.parts) →
      ∀ e ∈ last, ∀ x ∈ e.2.floats, x.isFinite) ∧
    nested last = kept.filterMap (fun e => e.2.asPipeline.toOption) ∧
    (∀ key v, get? last key = some v ↔
      ∃ before rest, kept = before ++ (key, v) :: rest ∧ ∀ e ∈ before, e.1 ≠ key) ∧
    (∀ key v, get? last key = some v → get? later key = some v) ∧
    ∀ a : Addition, (∀ e next, apply a.perform last = (.error e, next) ↔
        a.Refused e ∧ next = last) ∧
      ∀ next, apply a.perform last = (.ok (), next) ↔
        a.Admitted ∧ next = last ++ [a.entry] := by
  intro last kept later
  have hlast : last = kept := play_eq [] calls
  have hentries : ∀ e ∈ last, ∃ a ∈ calls, a.entry = e ∧ Admits e := by
    rw [hlast]
    refine List.forall_mem_map.2 fun a ha => ?_
    obtain ⟨hasked, -, hadmits⟩ := admitted_of_mem_play [] calls a ha
    exact ⟨a, hasked, rfl, hadmits⟩
  refine ⟨hlast, ?_, fun e he => ?_, fun hmade e he => ?_, ?_, fun key v => ?_,
    fun key v hget => ?_, fun a => ⟨fun e next => ?_, fun next => ?_⟩⟩
  · rw [← hlast]
    exact toWire_eq_map last
  · obtain ⟨-, -, -, hadmits⟩ := hentries e he
    exact ⟨hadmits.1, hadmits.isFinite⟩
  · obtain ⟨a, ha, rfl, hadmits⟩ := hentries e he
    exact hadmits.isFinite_floats (hmade a ha)
  · rw [← hlast]
    exact nested_eq_filterMap last
  · rw [← hlast]
    exact get?_eq_some_iff
  · have hlater : later = last ++ _ := play_eq last more
    rw [hlater]
    exact get?_append_of_eq_some hget _
  · rw [Addition.apply_perform, InPlace.settle_eq_error_iff, Addition.onto_eq_error_iff]
  · rw [Addition.apply_perform, InPlace.settle_eq_ok_iff, Addition.onto_eq_ok_iff]

/-- Of two values under one key both are kept and the first is found, a pipeline among the entries
is one of the configuration, and what is refused goes nowhere. -/
theorem additions_kept_repeated :
    let parts : Pipeline := [Part.ofFetch .graph "t" (.named "h")]
    let calls : List Addition := [.typed .activityLevel (.uint32 2), .plain "" (.bool true),
      .typed .activityLevel (.bool true), .known .pipeline (.pipeline parts),
      .checked .builtin "regexp" (.string ".*"), .typed .tolerance (.float .infinity),
      .typed .activityLevel (.uint32 5)]
    let last := (play Addition.perform ([] : Config) calls).1
    last = [("activity_level", .uint32 2), ("pipeline", .pipeline parts),
      ("activity_level", .uint32 5)] ∧
    (∀ e ∈ last, ∀ x ∈ e.2.floats, x.isFinite) ∧ nested last = [parts] ∧
    get? last "activity_level" = some (.uint32 2) ∧
    ∀ next, apply (Addition.typed .activityLevel (.bool true)).perform last =
      (.error (.wrongKind "activity_level" .uint32 .bool), next) → next = last := by
  intro parts calls last
  obtain ⟨hkept, -, -, hfinite, hnested, hget, -, hanswers⟩ := additions_kept calls []
  have hmade : Pipeline.Made parts := List.forall_mem_singleton.2 (.fetch .graph "t" (.named "h"))
  refine ⟨hkept.trans (by rfl), hfinite fun a ha => ?_, hnested.trans (by rfl),
    (hget "activity_level" _).2 ⟨[], _, rfl, List.forall_mem_nil _⟩, fun next hnext => ?_⟩
  · simp only [calls, List.mem_cons, List.not_mem_nil, or_false] at ha
    obtain rfl | rfl | rfl | rfl | rfl | rfl | rfl := ha
    case inr.inr.inr.inl => exact hmade
    all_goals exact List.forall_mem_nil _
  · exact ((hanswers _).1 _ next |>.1 hnext).2

end Config
end MiningPipelines
