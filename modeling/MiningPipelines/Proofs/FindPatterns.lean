import MiningPipelines.Proofs.DiscoveryKnobs

/-!
# Which options find which patterns

`Patterns.find` takes one record of options for all kinds of patterns. Options fit a kind
(`Patterns.Fits`) if they hold what the kind needs and nothing that it does not take. Any others are
refused for one of six reasons (`Patterns.Refused`), and nothing is both (`Patterns.find_eq_ok`,
`Patterns.find_eq_error`). So a combination of kind and options never goes to the builder of another
kind : what is found is the operation of the kind with an entry for each option that is there
(`Patterns.finder`), which tells both the kind and the options.
-/

namespace MiningPipelines

/-! ## Equality without floats -/

/-- The value holds no float, no part and no payload, which equality treats in their own way. -/
def Value.Exact : Value → Prop
  | .float _ | .pipeline _ | .artifact _ _ => False
  | _ => True

/-- Equality tells such values apart as they are. -/
theorem Value.Exact.same_iff {v w : Value} (h : v.Exact) : v.same w ↔ v = w := by
  cases v with
  | float _ | pipeline _ | artifact _ _ => exact h.elim
  | _ => cases w <;> simp [Value.same]

theorem Config.same_iff_of_exact : ∀ {c d : Config}, (∀ e ∈ c, e.2.Exact) →
    (Config.same c d ↔ c = d)
  | [], [], _ => by simp [Config.same]
  | [], _ :: _, _ | _ :: _, [], _ => by simp [Config.same]
  | (k, v) :: c, (l, w) :: d, h => by
    obtain ⟨hv, hc⟩ := List.forall_mem_cons.1 h
    simp [Config.same, hv.same_iff, same_iff_of_exact hc]

namespace Assembly

variable {s : Schema} {entries : List (Key × Value)}

/-- Entries that fit their keys are assembled. -/
theorem plain_eq_ok (hname : s.name ≠ "")
    (h : ∀ e ∈ entries, e.2.kind = e.1.kind ∧ e.1.name ≠ "" ∧ e.2.transportable = .ok ()) :
    plain s entries = .ok (.operation ⟨s.name, told entries⟩) := by
  have hop : operation s entries = .ok ⟨s.name, told entries⟩ :=
    operation_eq_ok_iff.2
      ⟨fun e he => ⟨Key.check_eq_ok_iff.2 (h e he).1, (h e he).2⟩, hname, rfl⟩
  exact bind_eq_ok_iff.2 ⟨_, hop, rfl⟩

end Assembly

/-! ## Options and entries -/

/-- An entry for each option that is there. -/
def PatternsOptions.entries (o : PatternsOptions) : List (Key × Value) :=
  (o.maxArrayLength.toList.map fun n => (.tandemArrayLength, .uint32 n)) ++
    (o.strategy.toList.map fun s => (.patternsDiscoveryStrategy, .ofEnumeration s)) ++
    o.eventClassRegex.toList.map fun r => (.eventClassRegex, .string r)

namespace Patterns

open Assembly PatternsOptions

variable {kind kind' : PatternsKind} {o o' : PatternsOptions} {p p' : Part} {e : Refusal}

/-- Each option is read back from the entry of its key. -/
theorem get?_told_entries (o : PatternsOptions) :
    Config.get? (told o.entries) Key.tandemArrayLength.name =
      o.maxArrayLength.map Value.uint32 ∧
    Config.get? (told o.entries) Key.patternsDiscoveryStrategy.name =
      o.strategy.map Value.ofEnumeration ∧
    Config.get? (told o.entries) Key.eventClassRegex.name =
      o.eventClassRegex.map Value.string := by
  obtain ⟨_ | _, _ | _, _ | _⟩ := o <;> exact ⟨rfl, rfl, rfl⟩

/-- The entries say which options are there, and what they are. -/
theorem told_entries_inj : told o.entries = told o'.entries ↔ o = o' := by
  refine ⟨fun h => ?_, fun h => h ▸ rfl⟩
  obtain ⟨hlength, hstrategy, hregex⟩ := get?_told_entries o
  obtain ⟨hlength', hstrategy', hregex'⟩ := get?_told_entries o'
  rw [h] at hlength hstrategy hregex
  obtain ⟨length, strategy, regex⟩ := o
  obtain ⟨length', strategy', regex'⟩ := o'
  obtain rfl : length = length' :=
    Option.map_injective (fun _ _ => Value.uint32.inj) (hlength.symm.trans hlength')
  obtain rfl : strategy = strategy' :=
    Option.map_injective (fun _ _ => Value.ofEnumeration_inj.1) (hstrategy.symm.trans hstrategy')
  obtain rfl : regex = regex' :=
    Option.map_injective (fun _ _ => Value.string.inj) (hregex.symm.trans hregex')
  rfl

/-- No entry is refused by its key or by the configuration. -/
theorem entries_fit (o : PatternsOptions) :
    ∀ e ∈ o.entries, e.2.kind = e.1.kind ∧ e.1.name ≠ "" ∧ e.2.transportable = .ok () := by
  have hlength : Key.tandemArrayLength.name ≠ "" := by decide
  have hstrategy : Key.patternsDiscoveryStrategy.name ≠ "" := by decide
  have hregex : Key.eventClassRegex.name ≠ "" := by decide
  simp only [entries, List.forall_mem_append, List.forall_mem_map]
  exact ⟨⟨fun _ _ => ⟨rfl, hlength, rfl⟩, fun _ _ => ⟨rfl, hstrategy, rfl⟩⟩,
    fun _ _ => ⟨rfl, hregex, rfl⟩⟩

theorem exact_told_entries (o : PatternsOptions) : ∀ e ∈ told o.entries, e.2.Exact := by
  simp only [told, entries, List.forall_mem_map, List.forall_mem_append]
  exact ⟨⟨fun _ _ => trivial, fun _ _ => trivial⟩, fun _ _ => trivial⟩

theorem schema_name_ne_empty (kind : PatternsKind) : kind.schema.name ≠ "" := by
  cases kind <;> decide

/-- Each kind has an operation of its own. -/
theorem schema_name_inj (h : kind.schema.name = kind'.schema.name) : kind = kind' := by
  cases kind <;> cases kind' <;> first | rfl | exact absurd h (by decide)

/-- The operation that finds patterns of a kind, told the options. -/
def finder (kind : PatternsKind) (o : PatternsOptions) : Part :=
  .operation ⟨kind.schema.name, told o.entries⟩

theorem plain_entries (kind : PatternsKind) (o : PatternsOptions) :
    plain kind.schema o.entries = .ok (finder kind o) :=
  plain_eq_ok (schema_name_ne_empty kind) (entries_fit o)

/-- A finder tells its kind and its options. -/
theorem finder_same_iff : (finder kind o).same (finder kind' o') ↔ kind = kind' ∧ o = o' := by
  simp only [finder, Part.same, Operation.same, Bool.and_eq_true, beq_iff_eq,
    Config.same_iff_of_exact (exact_told_entries o), told_entries_inj]
  refine and_congr_left fun _ => ⟨schema_name_inj, ?_⟩
  rintro rfl
  rfl

/-! ## What is found and what is refused -/

/-- Options that the kind can be searched with. -/
def Fits (kind : PatternsKind) (o : PatternsOptions) : Prop :=
  (kind.isTandem ∧ (∃ n, o.maxArrayLength = some n ∧ 0 < n) ∧ o.strategy = none ∧
      o.eventClassRegex = none) ∨
    (¬kind.isTandem ∧ o.maxArrayLength = none ∧ o.strategy.isSome ∧
      ∀ r, o.eventClassRegex = some r → ∃ c ∈ r.toList, ¬isBlank c)

/-- Why options do not fit a kind. -/
inductive Refused (kind : PatternsKind) (o : PatternsOptions) : Refusal → Prop
  | onlyArrayLength : kind.isTandem → o.strategy.isSome ∨ o.eventClassRegex.isSome →
      Refused kind o (.onlyArrayLength (Enumeration.name kind))
  | noArrayLength : kind.isTandem → o = ⟨none, none, none⟩ →
      Refused kind o (.noArrayLength (Enumeration.name kind))
  | zeroArrayLength : kind.isTandem → o = .ofLength 0 → Refused kind o .zeroArrayLength
  | unwantedArrayLength : ¬kind.isTandem → o.maxArrayLength.isSome →
      Refused kind o (.unwantedArrayLength (Enumeration.name kind))
  | noStrategy : ¬kind.isTandem → o.maxArrayLength = none → o.strategy = none →
      Refused kind o (.noStrategy (Enumeration.name kind))
  | blank {strategy : PatternsDiscoveryStrategy} {r : String} : ¬kind.isTandem →
      o = ⟨none, some strategy, some r⟩ → (∀ c ∈ r.toList, isBlank c) →
      Refused kind o (.blank "event class regex")

/-- Every combination of options is sorted one way or the other. -/
theorem fits_or_refused (kind : PatternsKind) (o : PatternsOptions) :
    Fits kind o ∨ ∃ e, Refused kind o e := by
  obtain ⟨length, strategy, regex⟩ := o
  by_cases hkind : kind.isTandem
  · match strategy, regex, length with
    | some _, _, _ => exact .inr ⟨_, .onlyArrayLength hkind (.inl rfl)⟩
    | none, some _, _ => exact .inr ⟨_, .onlyArrayLength hkind (.inr rfl)⟩
    | none, none, none => exact .inr ⟨_, .noArrayLength hkind rfl⟩
    | none, none, some n =>
      by_cases hn : n = 0
      · exact .inr ⟨_, .zeroArrayLength hkind (hn ▸ rfl)⟩
      · exact .inl (.inl ⟨hkind, ⟨n, rfl, UInt32.pos_iff_ne_zero.2 hn⟩, rfl, rfl⟩)
  · match length, strategy, regex with
    | some _, _, _ => exact .inr ⟨_, .unwantedArrayLength hkind rfl⟩
    | none, none, _ => exact .inr ⟨_, .noStrategy hkind rfl rfl⟩
    | none, some _, none => exact .inl (.inr ⟨hkind, rfl, rfl, nofun⟩)
    | none, some _, some r =>
      by_cases hr : ∀ c ∈ r.toList, isBlank c
      · exact .inr ⟨_, .blank hkind rfl hr⟩
      · refine .inl (.inr ⟨hkind, rfl, rfl, ?_⟩)
        intro _ hr'
        obtain rfl := Option.some.inj hr'
        simpa using hr

/-- Options that fit are told to the operation of the kind. -/
theorem find_eq_ok (h : Fits kind o) : find kind o = .ok (finder kind o) := by
  obtain ⟨length, strategy, regex⟩ := o
  obtain ⟨hkind, ⟨n, rfl, hn⟩, rfl, rfl⟩ | ⟨hkind, rfl, hstrategy, hregex⟩ := h
  · have hn : n ≠ 0 := UInt32.pos_iff_ne_zero.1 hn
    rw [← plain_entries]
    simp [find, hkind, tandemArrays, hn, entries]
  · obtain ⟨strategy, rfl⟩ := Option.isSome_iff_exists.1 hstrategy
    have htext : optionalText "event class regex" .eventClassRegex regex =
        .ok (regex.toList.map fun r => (.eventClassRegex, .string r)) := by
      cases regex with
      | none => rfl
      | some r =>
        have hr : isBlankText r = false := List.all_eq_false.2 (hregex r rfl)
        simp [optionalText, requireText, hr, ok_bind]
    rw [← plain_entries]
    simp [find, hkind, repeats, htext, ok_bind, entries]

/-- Options that do not fit are refused for the reason they do not. -/
theorem find_eq_error (h : Refused kind o e) : find kind o = .error e := by
  cases h with
  | onlyArrayLength hkind hextra => simp [find, hkind, hextra]
  | noArrayLength hkind ho | zeroArrayLength hkind ho =>
    simp [ho, find, hkind, ofLength, tandemArrays]
  | unwantedArrayLength hkind hlength => simp [find, hkind, hlength]
  | noStrategy hkind hlength hstrategy => simp [find, hkind, hlength, hstrategy]
  | blank hkind ho hr =>
    have hr := List.all_eq_true.2 hr
    simp [ho, find, hkind, repeats, optionalText, requireText, isBlankText, hr]
    rfl

/-- Success means that the options fit, and says what is found. -/
theorem find_eq_ok_iff : find kind o = .ok p ↔ Fits kind o ∧ p = finder kind o := by
  constructor
  · intro h
    obtain hfits | ⟨e, he⟩ := fits_or_refused kind o
    · rw [find_eq_ok hfits] at h
      exact ⟨hfits, (Except.ok.inj h).symm⟩
    · rw [find_eq_error he] at h
      cases h
  · rintro ⟨h, rfl⟩
    exact find_eq_ok h

/-- There is one reason for each refusal. -/
theorem find_eq_error_iff : find kind o = .error e ↔ Refused kind o e := by
  refine ⟨fun h => ?_, find_eq_error⟩
  obtain hfits | ⟨e', he⟩ := fits_or_refused kind o
  · rw [find_eq_ok hfits] at h
    cases h
  · rw [find_eq_error he] at h
    exact Except.error.inj h ▸ he

/-! ## The builder of a kind -/

/-- What the builder of a kind returns for options that hold its arguments. -/
inductive Dedicated : PatternsKind → PatternsOptions → Except Refusal Part → Prop
  | primitiveTandemArrays (n : UInt32) :
      Dedicated .primitiveTandemArrays ⟨some n, none, none⟩ (primitiveTandemArrays n)
  | maximalTandemArrays (n : UInt32) :
      Dedicated .maximalTandemArrays ⟨some n, none, none⟩ (maximalTandemArrays n)
  | maximalRepeats (s : PatternsDiscoveryStrategy) (r : Option String) :
      Dedicated .maximalRepeats ⟨none, some s, r⟩ (maximalRepeats s r)
  | superMaximalRepeats (s : PatternsDiscoveryStrategy) (r : Option String) :
      Dedicated .superMaximalRepeats ⟨none, some s, r⟩ (superMaximalRepeats s r)
  | nearSuperMaximalRepeats (s : PatternsDiscoveryStrategy) (r : Option String) :
      Dedicated .nearSuperMaximalRepeats ⟨none, some s, r⟩ (nearSuperMaximalRepeats s r)

/-- What is found for options that fit is what the builder of the kind returns. -/
theorem Fits.dedicated (h : Fits kind o) : Dedicated kind o (find kind o) := by
  obtain ⟨length, strategy, regex⟩ := o
  obtain ⟨hkind, ⟨n, rfl, -⟩, rfl, rfl⟩ | ⟨hkind, rfl, hstrategy, -⟩ := h
  · cases kind with
    | primitiveTandemArrays => exact .primitiveTandemArrays n
    | maximalTandemArrays => exact .maximalTandemArrays n
    | maximalRepeats | superMaximalRepeats | nearSuperMaximalRepeats => cases hkind
  · obtain ⟨strategy, rfl⟩ := Option.isSome_iff_exists.1 hstrategy
    cases kind with
    | primitiveTandemArrays | maximalTandemArrays => exact absurd rfl hkind
    | maximalRepeats => exact .maximalRepeats strategy regex
    | superMaximalRepeats => exact .superMaximalRepeats strategy regex
    | nearSuperMaximalRepeats => exact .nearSuperMaximalRepeats strategy regex

end Patterns

/-! ## Activities from patterns -/

namespace Activities

open Assembly Patterns

/-- The options of the search inside the discovery from patterns. -/
def searchOptions (kind : PatternsKind) (strategy : PatternsDiscoveryStrategy)
    (maxArrayLength : UInt32) : PatternsOptions :=
  if kind.isTandem then .ofLength maxArrayLength else .ofStrategy strategy

variable {kind : PatternsKind} {strategy : PatternsDiscoveryStrategy}
  {maxArrayLength activityLevel : UInt32} {p : Part}

/-- Only tandem arrays of length zero cannot be searched for in a discovery. -/
theorem fits_searchOptions_iff : Fits kind (searchOptions kind strategy maxArrayLength) ↔
    ¬(kind.isTandem ∧ maxArrayLength = 0) := by
  by_cases hkind : kind.isTandem <;>
    simp [Fits, searchOptions, hkind, PatternsOptions.ofLength, PatternsOptions.ofStrategy,
      UInt32.pos_iff_ne_zero]

theorem discover_eq_ok (activityLevel : UInt32) : discover activityLevel = .ok (.operation
    ⟨Schema.discoverActivities.name, told [(.activityLevel, .uint32 activityLevel)]⟩) :=
  have hname : Key.activityLevel.name ≠ "" := by decide
  plain_eq_ok (by decide) (List.forall_mem_singleton.2 ⟨rfl, hname, rfl⟩)

/-- The pipeline inside is what is found for the search and then the discovery. -/
theorem discoverFromPatterns_eq_ok_iff :
    discoverFromPatterns kind strategy maxArrayLength activityLevel = .ok p ↔
      ∃ finder discoverer,
        find kind (searchOptions kind strategy maxArrayLength) = .ok finder ∧
        discover activityLevel = .ok discoverer ∧
        p = .operation ⟨Schema.discoverActivitiesFromPatterns.name,
          [(Key.pipeline.name, .pipeline [finder, discoverer])]⟩ := by
  have hname : Key.pipeline.name ≠ "" := by decide
  have hplain : ∀ parts, plain .discoverActivitiesFromPatterns [(.pipeline, .pipeline parts)] =
      .ok (.operation ⟨Schema.discoverActivitiesFromPatterns.name,
        [(Key.pipeline.name, .pipeline parts)]⟩) := fun parts =>
    plain_eq_ok (by decide) (List.forall_mem_singleton.2 ⟨rfl, hname, rfl⟩)
  simp only [discoverFromPatterns, bind_eq_ok_iff, hplain, Except.ok.injEq, eq_comm (a := p)]
  constructor
  · rintro ⟨finder, hfind, discoverer, hdiscover, rfl⟩
    exact ⟨finder, discoverer, hfind, hdiscover, rfl⟩
  · rintro ⟨finder, discoverer, hfind, hdiscover, rfl⟩
    exact ⟨finder, hfind, discoverer, hdiscover, rfl⟩

theorem discoverFromPatterns_eq_ok (h : ¬(kind.isTandem ∧ maxArrayLength = 0)) :
    ∃ p, discoverFromPatterns kind strategy maxArrayLength activityLevel = .ok p :=
  ⟨_, discoverFromPatterns_eq_ok_iff.2
    ⟨_, _, find_eq_ok (fits_searchOptions_iff.2 h), discover_eq_ok _, rfl⟩⟩

end Activities

/-- Options find patterns exactly if they fit the kind, and then what the builder of the kind
returns, which is another part for each kind and options. All else is refused as a construction, for
the reason that `Refused` gives. So the discovery from patterns fails for arrays of length zero and
nothing else. -/
theorem Patterns.find_fits_dedicated :
    (∀ kind o, (∃ p, find kind o = .ok p) ↔ Fits kind o) ∧
    (∀ kind o p, find kind o = .ok p → Dedicated kind o (.ok p)) ∧
    (∀ kind kind' o o' p p', find kind o = .ok p → find kind' o' = .ok p' →
      (p.same p' ↔ kind = kind' ∧ o = o')) ∧
    (∀ kind o e, find kind o = .error e → Refused kind o e) ∧
    ∀ kind strategy length level,
      ((∃ e, Activities.discoverFromPatterns kind strategy length level = .error e) ↔
        kind.isTandem ∧ length = 0) ∧
      ∀ p, Activities.discoverFromPatterns kind strategy length level = .ok p →
        ∃ finder discoverer,
          find kind (Activities.searchOptions kind strategy length) = .ok finder ∧
          Activities.discover level = .ok discoverer ∧
          p = .operation ⟨Schema.discoverActivitiesFromPatterns.name,
            [(Key.pipeline.name, .pipeline [finder, discoverer])]⟩ := by
  refine ⟨fun kind o => ?_, fun kind o p h => ?_, fun kind kind' o o' p p' h h' => ?_,
    fun kind o e h => find_eq_error_iff.1 h,
    fun kind strategy length level => ⟨?_, fun p h => ?_⟩⟩
  · exact ⟨fun ⟨p, hp⟩ => (find_eq_ok_iff.1 hp).1, fun h => ⟨_, find_eq_ok h⟩⟩
  · exact h ▸ (find_eq_ok_iff.1 h).1.dedicated
  · rw [(find_eq_ok_iff.1 h).2, (find_eq_ok_iff.1 h').2, finder_same_iff]
  · refine ⟨fun ⟨e, he⟩ => ?_, fun hzero => ?_⟩
    · by_contra hfits
      obtain ⟨p, hp⟩ := Activities.discoverFromPatterns_eq_ok hfits
      cases he.symm.trans hp
    · cases h : Activities.discoverFromPatterns kind strategy length level with
      | error e => exact ⟨e, rfl⟩
      | ok p =>
        obtain ⟨finder, -, hfind, -⟩ := Activities.discoverFromPatterns_eq_ok_iff.1 h
        exact absurd hzero (Activities.fits_searchOptions_iff.1 (find_eq_ok_iff.1 hfind).1)
  · exact Activities.discoverFromPatterns_eq_ok_iff.1 h

/-- Repeats are found by a regex, other ones by each kind. Arrays are not, nor are arrays of length
zero discovered from. -/
theorem Patterns.find_fits_dedicated_regex :
    let o : PatternsOptions := ⟨none, some .fromAllTraces, some "a"⟩
    (∃ p p', find .maximalRepeats o = .ok p ∧ find .superMaximalRepeats o = .ok p' ∧
      Dedicated .maximalRepeats o (.ok p) ∧ ¬p.same p') ∧
    Refused .maximalTandemArrays o (.onlyArrayLength "MaximalTandemArrays") ∧
    ∃ e, Activities.discoverFromPatterns .maximalTandemArrays .fromAllTraces 0 1 = .error e := by
  intro o
  obtain ⟨-, hdedicated, hsame, hrefused, hdiscover⟩ := find_fits_dedicated
  refine ⟨⟨_, _, rfl, rfl, hdedicated .maximalRepeats o _ rfl, fun h => ?_⟩,
    hrefused .maximalTandemArrays o _ rfl, ?_⟩
  · cases ((hsame .maximalRepeats .superMaximalRepeats o o _ _ rfl rfl).1 h).1
  · exact (hdiscover .maximalTandemArrays .fromAllTraces 0 1).1.2 ⟨rfl, rfl⟩

end MiningPipelines
