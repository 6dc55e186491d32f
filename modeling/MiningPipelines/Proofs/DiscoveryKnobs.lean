import MiningPipelines.Catalogue.Activities
import MiningPipelines.Proofs.Listed
import MiningPipelines.Proofs.RoundTrip

/-!
# What the discovery of activities is told

An assembled operation tells the engine its entries and nothing else : where no pipeline is
among them, two operations of one schema have the same wire form exactly if they have the same
entries (`Assembly.toWire_plain_inj`). A choice is told by its name, and reading the name gives
the choice back (`Value.asEnumeration_ofEnumeration`).

The two operations that discover activities step by step get their options from one record.
`Activities.toWire_discover_iff` says which arguments make a difference : all but the maximal
length of arrays, which no entry has.
-/

namespace MiningPipelines

/-! ## Choices -/

/-- The table of choices is complete, and no two of them have one name. -/
class Enumeration.Lawful (α : Type) [Enumeration α] : Prop where
  mem_all : ∀ a : α, a ∈ (Enumeration.all : List α)
  nodup_names : ((Enumeration.all : List α).map Enumeration.name).Nodup

instance : Enumeration.Lawful PatternsDiscoveryStrategy where
  mem_all a := by cases a <;> decide
  nodup_names := by decide

instance : Enumeration.Lawful PatternsKind where
  mem_all a := by cases a <;> decide
  nodup_names := by decide

instance : Enumeration.Lawful AdjustingMode where
  mem_all a := by cases a <;> decide
  nodup_names := by decide

instance : Enumeration.Lawful NarrowActivityKind where
  mem_all a := by cases a <;> decide
  nodup_names := by decide

instance : Enumeration.Lawful UndefActivityHandlingStrategy where
  mem_all a := by cases a <;> decide
  nodup_names := by decide

namespace Value

variable {α : Type} [Enumeration α] [Enumeration.Lawful α] {a b : α}

/-- A choice is read back from its value. -/
theorem asEnumeration_ofEnumeration : (ofEnumeration a).asEnumeration α = .ok a := by
  have hname : Enumeration.ofName? (Enumeration.name a) = some a :=
    find?_of_nodup Enumeration.Lawful.nodup_names (Enumeration.Lawful.mem_all a)
  simp [asEnumeration, ofEnumeration, asEnum, ok_bind, hname]

/-- Two choices are told alike only if they are the same. -/
theorem ofEnumeration_inj : ofEnumeration a = ofEnumeration b ↔ a = b := by
  constructor
  · intro h
    have hread := congrArg (asEnumeration α) h
    rw [asEnumeration_ofEnumeration, asEnumeration_ofEnumeration] at hread
    exact Except.ok.inj hread
  · exact congrArg ofEnumeration

end Value

/-! ## Wire forms of assembled operations -/

theorem Value.bare_eq_self {v : Value} (h : v.parts = []) : v.bare = v := by
  cases v with
  | pipeline parts =>
    obtain rfl : parts = [] := h
    rfl
  | _ => rfl

/-- Values without parts are told apart on the wire. -/
theorem Value.toWire_inj {v w : Value} (hv : v.parts = []) (hw : w.parts = []) :
    v.toWire = w.toWire ↔ v = w := by
  constructor
  · intro h
    have hdecode : ∀ u : Value, u.parts = [] → u.toWire.decode = .ok u := by
      intro u hu
      rw [decode_toWire (hu ▸ List.forall_mem_nil _), bare_eq_self hu]
    rw [← Except.ok.injEq (ε := DecodeFault), ← hdecode v hv, ← hdecode w hw, h]
  · exact congrArg toWire

/-- Entries without pipelines are sent alike only if they are the same, in the same order. -/
theorem Config.toWire_inj : ∀ {c d : Config}, (∀ e ∈ c, e.2.parts = []) →
    (∀ e ∈ d, e.2.parts = []) → (toWire c = toWire d ↔ c = d)
  | [], [], _, _ => iff_of_true rfl rfl
  | [], _ :: _, _, _ => by simp [toWire]
  | _ :: _, [], _, _ => by simp [toWire]
  | (k, v) :: c, (l, w) :: d, hc, hd => by
    obtain ⟨hv, hc⟩ := List.forall_mem_cons.1 hc
    obtain ⟨hw, hd⟩ := List.forall_mem_cons.1 hd
    rw [toWire, toWire, List.cons.injEq, List.cons.injEq, Prod.mk.injEq, Prod.mk.injEq,
      Value.toWire_inj hv hw, toWire_inj hc hd]

namespace Assembly

/-- The configuration with the given entries. -/
def told (entries : List (Key × Value)) : Config := entries.map fun e => (e.1.name, e.2)

variable {s : Schema} {entries entries' : List (Key × Value)} {p p' : Part}

/-- What was assembled is the operation of the schema, told its entries. -/
theorem eq_of_plain (h : plain s entries = .ok p) : p = .operation ⟨s.name, told entries⟩ := by
  obtain ⟨op, hop, h⟩ := bind_eq_ok_iff.1 h
  obtain ⟨-, -, rfl⟩ := operation_eq_ok_iff.1 hop
  exact (Except.ok.inj h).symm

/-- Operations of one schema are told apart by their entries. -/
theorem toWire_plain_inj (h : plain s entries = .ok p) (h' : plain s entries' = .ok p')
    (hparts : ∀ e ∈ entries, e.2.parts = []) (hparts' : ∀ e ∈ entries', e.2.parts = []) :
    p.toWire = p'.toWire ↔ told entries = told entries' := by
  rw [eq_of_plain h, eq_of_plain h']
  simp only [Part.toWire, Operation.toWire, Wire.Part.mk.injEq, List.cons.injEq, and_true,
    Wire.Shape.operation.injEq, Wire.Operation.mk.injEq, true_and]
  exact Config.toWire_inj (List.forall_mem_map.2 hparts) (List.forall_mem_map.2 hparts')

/-- A text that is not given leaves no entry. -/
theorem eq_of_optionalText {what : String} {key : Key} {text : Option String}
    (h : optionalText what key text = .ok entries) :
    entries = text.toList.map fun s => (key, .string s) := by
  cases text with
  | none => exact (Except.ok.inj h).symm
  | some s =>
    obtain ⟨_, -, h⟩ := bind_eq_ok_iff.1 h
    exact (Except.ok.inj h).symm

end Assembly

/-! ## The discovery in steps -/

namespace Activities

open Assembly

/-- What the discovery for several levels is told. -/
def severalLevelsEntries (classes : List String) (o : DiscoveryOptions) : List (Key × Value) :=
  [(.narrowActivities, .ofEnumeration o.narrowActivities),
    (.eventClassesRegexes, .strings classes)] ++ stepEntries o

/-- What the discovery until nothing is new is told. -/
def untilNoMoreEntries (eventClass : Option String) (undef : UndefActivityHandlingStrategy)
    (o : DiscoveryOptions) : List (Key × Value) :=
  [(.narrowActivities, .ofEnumeration o.narrowActivities)] ++ stepEntries o ++
    [(.undefActivityHandlingStrategy, .ofEnumeration undef)] ++
    eventClass.toList.map fun s => (.eventClassRegex, .string s)

section

variable {classes classes' : List String} {eventClass eventClass' : Option String}
  {undef undef' : UndefActivityHandlingStrategy} {o o' : DiscoveryOptions} {p : Part}

theorem plain_of_discoverForSeveralLevels (h : discoverForSeveralLevels classes o = .ok p) :
    plain .discoverActivitiesForSeveralLevels (severalLevelsEntries classes o) = .ok p := by
  unfold discoverForSeveralLevels at h
  split at h
  · cases h
  · obtain ⟨_, -, h⟩ := bind_eq_ok_iff.1 h
    exact h

theorem plain_of_discoverUntilNoMore (h : discoverUntilNoMore eventClass undef o = .ok p) :
    plain .discoverActivitiesUntilNoMore (untilNoMoreEntries eventClass undef o) = .ok p := by
  obtain ⟨regex, hregex, h⟩ := bind_eq_ok_iff.1 h
  rw [untilNoMoreEntries, ← eq_of_optionalText hregex]
  exact h

theorem parts_severalLevelsEntries : ∀ e ∈ severalLevelsEntries classes o, e.2.parts = [] := by
  simp [severalLevelsEntries, stepEntries, Value.parts, Value.ofEnumeration]

theorem parts_untilNoMoreEntries :
    ∀ e ∈ untilNoMoreEntries eventClass undef o, e.2.parts = [] := by
  cases eventClass <;> simp [untilNoMoreEntries, stepEntries, Value.parts, Value.ofEnumeration]

/-- Options are told the same way exactly if they differ in no more than the maximal length of
arrays. -/
theorem told_options_iff : o.narrowActivities = o'.narrowActivities ∧
    told (stepEntries o) = told (stepEntries o') ↔
      o' = { o with maxArrayLength := o'.maxArrayLength } := by
  obtain ⟨narrow, level, strategy, length, mode, unattached, events, kind⟩ := o
  obtain ⟨narrow', level', strategy', length', mode', unattached', events', kind'⟩ := o'
  simp only [stepEntries, told, List.map_cons, List.map_nil, List.cons.injEq, Prod.mk.injEq,
    true_and, and_true, Value.ofEnumeration_inj, Value.uint32.injEq, DiscoveryOptions.mk.injEq]
  constructor
  · rintro ⟨rfl, rfl, rfl, rfl, rfl, rfl, rfl⟩
    exact ⟨rfl, rfl, rfl, rfl, rfl, rfl, rfl⟩
  · rintro ⟨rfl, rfl, rfl, rfl, rfl, rfl, rfl⟩
    exact ⟨rfl, rfl, rfl, rfl, rfl, rfl, rfl⟩

/-- All arguments are told but the maximal length of arrays. -/
theorem told_severalLevelsEntries_iff :
    told (severalLevelsEntries classes o) = told (severalLevelsEntries classes' o') ↔
      classes = classes' ∧ o' = { o with maxArrayLength := o'.maxArrayLength } := by
  rw [← told_options_iff]
  simp only [severalLevelsEntries, told, List.map_cons, List.cons_append, List.nil_append,
    List.cons.injEq, Prod.mk.injEq, true_and, Value.ofEnumeration_inj, Value.strings.injEq]
  exact and_left_comm

/-- The event class counts too, whether it is given or not. -/
theorem told_untilNoMoreEntries_iff :
    told (untilNoMoreEntries eventClass undef o) =
        told (untilNoMoreEntries eventClass' undef' o') ↔
      eventClass = eventClass' ∧ undef = undef' ∧
        o' = { o with maxArrayLength := o'.maxArrayLength } := by
  have hregex : told (eventClass.toList.map fun s => (Key.eventClassRegex, Value.string s)) =
      told (eventClass'.toList.map fun s => (Key.eventClassRegex, Value.string s)) ↔
        eventClass = eventClass' := by
    cases eventClass <;> cases eventClass' <;> simp [told]
  have hlength : (told (stepEntries o)).length = (told (stepEntries o')).length := rfl
  have hsplit : ∀ (eventClass : Option String) (undef : UndefActivityHandlingStrategy)
      (o : DiscoveryOptions), told (untilNoMoreEntries eventClass undef o) =
        ("narrow_activities", .ofEnumeration o.narrowActivities) :: (told (stepEntries o) ++
          ("undef_activity_handling_strategy", .ofEnumeration undef) ::
            told (eventClass.toList.map fun s => (Key.eventClassRegex, Value.string s))) := by
    intro eventClass undef o
    simp [untilNoMoreEntries, told, Key.narrowActivities, Key.undefActivityHandlingStrategy]
  rw [hsplit, hsplit, ← told_options_iff]
  constructor
  · intro h
    obtain ⟨hnarrow, hrest⟩ := List.cons.inj h
    obtain ⟨hsteps, hrest⟩ := List.append_inj hrest hlength
    obtain ⟨hundef, hregexes⟩ := List.cons.inj hrest
    exact ⟨hregex.1 hregexes, Value.ofEnumeration_inj.1 (Prod.mk.inj hundef).2,
      Value.ofEnumeration_inj.1 (Prod.mk.inj hnarrow).2, hsteps⟩
  · rintro ⟨rfl, rfl, hnarrow, hsteps⟩
    rw [hnarrow, hsteps]

end

/-- The two operations that discover activities step by step are told everything but the maximal
length of arrays. -/
theorem toWire_discover_iff (o o' : DiscoveryOptions) :
    (∀ classes classes' p p', discoverForSeveralLevels classes o = .ok p →
      discoverForSeveralLevels classes' o' = .ok p' →
      (p.toWire = p'.toWire ↔
        classes = classes' ∧ o' = { o with maxArrayLength := o'.maxArrayLength })) ∧
    ∀ eventClass eventClass' undef undef' p p',
      discoverUntilNoMore eventClass undef o = .ok p →
      discoverUntilNoMore eventClass' undef' o' = .ok p' →
      (p.toWire = p'.toWire ↔ eventClass = eventClass' ∧ undef = undef' ∧
        o' = { o with maxArrayLength := o'.maxArrayLength }) := by
  refine ⟨fun classes classes' p p' h h' => ?_,
    fun eventClass eventClass' undef undef' p p' h h' => ?_⟩
  · rw [toWire_plain_inj (plain_of_discoverForSeveralLevels h)
      (plain_of_discoverForSeveralLevels h') parts_severalLevelsEntries parts_severalLevelsEntries,
      told_severalLevelsEntries_iff]
  · rw [toWire_plain_inj (plain_of_discoverUntilNoMore h) (plain_of_discoverUntilNoMore h')
      parts_untilNoMoreEntries parts_untilNoMoreEntries, told_untilNoMoreEntries_iff]

/-- A level makes a difference, and so does a regex. -/
theorem toWire_discover_deeper :
    let o := DiscoveryOptions.default
    let deeper := { o with activityLevel := 1 }
    (∃ p p', discoverForSeveralLevels ["a"] o = .ok p ∧
      discoverForSeveralLevels ["a"] deeper = .ok p' ∧ p.toWire ≠ p'.toWire) ∧
    ∃ p p', discoverUntilNoMore none .dontInsert o = .ok p ∧
      discoverUntilNoMore (some "a") .dontInsert o = .ok p' ∧ p.toWire ≠ p'.toWire := by
  intro o deeper
  refine ⟨⟨_, _, rfl, rfl, fun h => ?_⟩, ⟨_, _, rfl, rfl, fun h => ?_⟩⟩
  · obtain ⟨-, hoptions⟩ := ((toWire_discover_iff o deeper).1 ["a"] ["a"] _ _ rfl rfl).1 h
    cases congrArg DiscoveryOptions.activityLevel hoptions
  · obtain ⟨hclass, -⟩ :=
      ((toWire_discover_iff o o).2 none (some "a") .dontInsert .dontInsert _ _ rfl rfl).1 h
    cases hclass

/-- The maximal length of arrays makes none, even where arrays are searched for. -/
theorem toWire_discover_lengths :
    let o := { DiscoveryOptions.default with patternsKind := .maximalTandemArrays }
    let shorter := { o with maxArrayLength := 1 }
    o ≠ shorter ∧
    (∃ p p', discoverForSeveralLevels ["a"] o = .ok p ∧
      discoverForSeveralLevels ["a"] shorter = .ok p' ∧ p.toWire = p'.toWire) ∧
    ∃ p p', discoverUntilNoMore none .dontInsert o = .ok p ∧
      discoverUntilNoMore none .dontInsert shorter = .ok p' ∧ p.toWire = p'.toWire := by
  exact ⟨by decide, ⟨_, _, rfl, rfl, rfl⟩, _, _, rfl, rfl, rfl⟩

end Activities

end MiningPipelines
