import MiningPipelines.Catalogue.Activities
import MiningPipelines.Catalogue.Clustering
import MiningPipelines.Catalogue.Diagrams
import MiningPipelines.Catalogue.EventLog
import MiningPipelines.Catalogue.Models
import MiningPipelines.Proofs.Listed

/-!
# What the catalogue builds

The builders of the catalogue come in seven families, and each has its inductive predicate with one
constructor for each builder (`EventLog.Builds` .. `Diagram.Builds`). Three builders take pipelines.
A part is catalogued (`Part.Catalogued`) if a builder returned it, with catalogued parts in its
pipelines, or if it holds catalogued parts side by side.

Every builder stays under the keys of its schema (`Schema.Covers`), whatever its arguments are, so
catalogued parts are listed (`Part.Catalogued.listed`). What listed parts are good for is said once
for all of them in `Proofs/Listed`, and `Pipeline.catalogued_valid` puts it together.
-/

namespace MiningPipelines

/-! ## Entries under the keys of a schema -/

/-- The schema is one of the engine, and lists the keys of the entries. -/
structure Schema.Covers (s : Schema) (entries : List (Key × Value)) : Prop where
  listed : s ∈ SchemaTable.builtin.schemas
  keys : ∀ e ∈ entries, e.1 ∈ s.keys
  parts : ∀ e ∈ entries, ∀ p ∈ e.2.parts, p.Listed

/-- The built-in schemas come from six lists. -/
@[simp] theorem SchemaTable.mem_builtin {s : Schema} : s ∈ builtin.schemas ↔
    ((((s ∈ Schema.eventLogs ∨ s ∈ Schema.patterns) ∨ s ∈ Schema.activities) ∨
      s ∈ Schema.clustering) ∨ s ∈ Schema.models) ∨ s ∈ Schema.diagrams := by
  simp only [builtin_schemas, List.mem_append]

namespace Schema.Covers

variable {s : Schema} {entries rest : List (Key × Value)}

theorem nil (h : s ∈ SchemaTable.builtin.schemas) : s.Covers [] :=
  ⟨h, List.forall_mem_nil _, List.forall_mem_nil _⟩

/-- An entry is covered if the schema lists its key and no pipeline is in its value. -/
theorem single (h : s ∈ SchemaTable.builtin.schemas) {key : Key} (hkey : key ∈ s.keys) {v : Value}
    (hv : v.parts = []) : s.Covers [(key, v)] :=
  ⟨h, List.forall_mem_singleton.2 hkey, by simp [hv]⟩

/-- Entries are covered one by one. -/
theorem append (h : s.Covers entries) (hrest : s.Covers rest) : s.Covers (entries ++ rest) :=
  ⟨h.listed, List.forall_mem_append.2 ⟨h.keys, hrest.keys⟩,
    List.forall_mem_append.2 ⟨h.parts, hrest.parts⟩⟩

/-- An operation is listed if its schema covers its entries. -/
theorem plain (h : s.Covers entries) {p : Part} (hp : Assembly.plain s entries = .ok p) :
    p.Listed := by
  obtain ⟨op, hop, hp⟩ := bind_eq_ok_iff.1 hp
  obtain rfl := Except.ok.inj hp
  exact .operation (.make h.listed h.keys h.parts hop)

/-- An operation with a fetch behind it is listed if its schema covers its entries. -/
theorem fetchAfter (h : s.Covers entries) {key : Key} {tag : Tag} {handler : Handler} {p : Part}
    (hp : Assembly.fetchAfter key s entries tag handler = .ok p) : p.Listed := by
  obtain ⟨op, hop, hp⟩ := bind_eq_ok_iff.1 hp
  exact .fetchAfter (.make h.listed h.keys h.parts hop) hp

/-- A text that may be missing makes no entry but one under its key. -/
theorem optionalText (h : s ∈ SchemaTable.builtin.schemas) {what : String} {key : Key}
    (hkey : key ∈ s.keys) {text : Option String}
    (hentries : Assembly.optionalText what key text = .ok entries) : s.Covers entries := by
  cases text with
  | none =>
    obtain rfl := Except.ok.inj hentries
    exact .nil h
  | some text =>
    obtain ⟨_, -, hentries⟩ := bind_eq_ok_iff.1 hentries
    obtain rfl := Except.ok.inj hentries
    exact .single h hkey rfl

end Schema.Covers

/-! ## Event logs -/

/-- What the builders for event logs return. -/
inductive EventLog.Builds : Except Refusal Part → Prop
  | readXes : Builds readXes
  | writeXes (path : String) : Builds (writeXes path)
  | useNames : Builds useNames
  | fetchNames (tag : Tag) (handler : Handler) : Builds (fetchNames tag handler)
  | fetchHashes (tag : Tag) (handler : Handler) : Builds (fetchHashes tag handler)
  | fetchInfo (tag : Tag) (handler : Handler) : Builds (fetchInfo tag handler)
  | printTraces (tag : Tag) : Builds (printTraces tag)
  | printCounts (tag : Tag) : Builds (printCounts tag)
  | filterTracesByEventsCount (minEvents : UInt32) : Builds (filterTracesByEventsCount minEvents)
  | filterEventsByName (name : String) : Builds (filterEventsByName name)
  | filterEventsByRegex (regex : String) : Builds (filterEventsByRegex regex)
  | filterByVariants : Builds filterByVariants
  | addStartEndEvents : Builds addStartEndEvents
  | addStartEvents : Builds addStartEvents
  | addEndEvents : Builds addEndEvents

/-- Most of these operations have no entries, the others texts and numbers. -/
theorem EventLog.Builds.listed {r : Except Refusal Part} (h : EventLog.Builds r) {p : Part}
    (hp : r = .ok p) : p.Listed := by
  cases h with
  | readXes | useNames | filterByVariants | addStartEndEvents | addStartEvents | addEndEvents =>
    exact (Schema.Covers.nil (by simp [Schema.eventLogs])).plain hp
  | fetchNames tag handler | fetchHashes tag handler | fetchInfo tag handler | printTraces tag
  | printCounts tag =>
    exact (Schema.Covers.nil (by simp [Schema.eventLogs])).fetchAfter hp
  | filterTracesByEventsCount minEvents =>
    exact (Schema.Covers.single (by simp [Schema.eventLogs]) (List.mem_singleton_self _)
      rfl).plain hp
  | writeXes text | filterEventsByName text | filterEventsByRegex text =>
    obtain ⟨_, -, hp⟩ := bind_eq_ok_iff.1 hp
    exact (Schema.Covers.single (by simp [Schema.eventLogs]) (List.mem_singleton_self _)
      rfl).plain hp

/-! ## Patterns -/

/-- What the builders for patterns return. -/
inductive Patterns.Builds : Except Refusal Part → Prop
  | primitiveTandemArrays (maxArrayLength : UInt32) : Builds (primitiveTandemArrays maxArrayLength)
  | maximalTandemArrays (maxArrayLength : UInt32) : Builds (maximalTandemArrays maxArrayLength)
  | maximalRepeats (strategy : PatternsDiscoveryStrategy) (eventClassRegex : Option String) :
      Builds (maximalRepeats strategy eventClassRegex)
  | superMaximalRepeats (strategy : PatternsDiscoveryStrategy) (eventClassRegex : Option String) :
      Builds (superMaximalRepeats strategy eventClassRegex)
  | nearSuperMaximalRepeats (strategy : PatternsDiscoveryStrategy)
      (eventClassRegex : Option String) : Builds (nearSuperMaximalRepeats strategy eventClassRegex)
  | find (kind : PatternsKind) (options : PatternsOptions) : Builds (find kind options)

/-- Both searches for tandem arrays have the same entry. -/
theorem Patterns.listed_of_tandemArrays {s : Schema} (hs : s ∈ SchemaTable.builtin.schemas)
    (hkeys : s.keys = [.tandemArrayLength]) {maxArrayLength : UInt32} {p : Part}
    (hp : tandemArrays s maxArrayLength = .ok p) : p.Listed := by
  unfold tandemArrays at hp
  split at hp
  · cases hp
  · exact (Schema.Covers.single hs (by simp [hkeys]) rfl).plain hp

/-- All searches for repeats have the same entries, the last of which may be left out. -/
theorem Patterns.listed_of_repeats {s : Schema} (hs : s ∈ SchemaTable.builtin.schemas)
    (hkeys : s.keys = Schema.repeatKeys) {strategy : PatternsDiscoveryStrategy}
    {eventClassRegex : Option String} {p : Part}
    (hp : repeats s strategy eventClassRegex = .ok p) : p.Listed := by
  obtain ⟨regex, hregex, hp⟩ := bind_eq_ok_iff.1 hp
  have hstrategy : s.Covers [(.patternsDiscoveryStrategy, .ofEnumeration strategy)] :=
    .single hs (by simp [hkeys, Schema.repeatKeys]) rfl
  have hregex : s.Covers regex := .optionalText hs (by simp [hkeys, Schema.repeatKeys]) hregex
  exact (hstrategy.append hregex).plain hp

theorem Patterns.Builds.listed {r : Except Refusal Part} (h : Patterns.Builds r) {p : Part}
    (hp : r = .ok p) : p.Listed := by
  cases h with
  | primitiveTandemArrays _ | maximalTandemArrays _ =>
    exact listed_of_tandemArrays (by simp [Schema.patterns]) rfl hp
  | maximalRepeats _ _ | superMaximalRepeats _ _ | nearSuperMaximalRepeats _ _ =>
    exact listed_of_repeats (by simp [Schema.patterns]) rfl hp
  | find kind options =>
    have hschema : kind.schema ∈ SchemaTable.builtin.schemas := by
      cases kind <;> simp [PatternsKind.schema, Schema.patterns]
    unfold Patterns.find at hp
    dsimp only at hp
    split at hp
    case isTrue hkind =>
      have hkeys : kind.schema.keys = [.tandemArrayLength] := by
        cases kind <;> first | rfl | cases hkind
      split at hp
      · cases hp
      split at hp
      · cases hp
      · exact listed_of_tandemArrays hschema hkeys hp
    case isFalse hkind =>
      have hkeys : kind.schema.keys = Schema.repeatKeys := by
        cases kind <;> first | rfl | exact absurd rfl hkind
      split at hp
      · cases hp
      split at hp
      · cases hp
      · exact listed_of_repeats hschema hkeys hp

/-! ## Activities -/

/-- What the builders for activities return, but for the one that takes a pipeline. -/
inductive Activities.Builds : Except Refusal Part → Prop
  | discover (activityLevel : UInt32) : Builds (discover activityLevel)
  | discoverInstances (narrow : NarrowActivityKind) (minEvents : UInt32) :
      Builds (discoverInstances narrow minEvents)
  | createLog (strategy : UndefActivityHandlingStrategy) : Builds (createLog strategy)
  | discoverForSeveralLevels (eventClasses : List String) (options : DiscoveryOptions) :
      Builds (discoverForSeveralLevels eventClasses options)
  | discoverFromPatterns (kind : PatternsKind) (strategy : PatternsDiscoveryStrategy)
      (maxArrayLength activityLevel : UInt32) :
      Builds (discoverFromPatterns kind strategy maxArrayLength activityLevel)
  | discoverUntilNoMore (eventClass : Option String)
      (undefStrategy : UndefActivityHandlingStrategy) (options : DiscoveryOptions) :
      Builds (discoverUntilNoMore eventClass undefStrategy options)
  | substituteUnderlyingEvents : Builds substituteUnderlyingEvents
  | clear : Builds clear
  | fetchUnderlyingEventsCount (tag : Tag) (handler : Handler) :
      Builds (fetchUnderlyingEventsCount tag handler)
  | fetchInstances (narrow : NarrowActivityKind) (minEvents : UInt32) (tag : Tag)
      (handler : Handler) : Builds (fetchInstances narrow minEvents tag handler)

namespace Activities

theorem covers_instanceEntries (narrow : NarrowActivityKind) (minEvents : UInt32) :
    Schema.discoverActivitiesInstances.Covers (instanceEntries narrow minEvents) where
  listed := by simp [Schema.activities]
  keys := by simp [instanceEntries, Schema.discoverActivitiesInstances]
  parts := by simp [instanceEntries, Value.parts, Value.ofEnumeration]

/-- Both schemas of the discovery in steps cover what both are told. -/
theorem covers_stepEntries {s : Schema} (hs : s ∈ SchemaTable.builtin.schemas)
    (hkeys : s.keys = Schema.iterativeKeys) (options : DiscoveryOptions) :
    s.Covers (stepEntries options) where
  listed := hs
  keys := by simp [stepEntries, hkeys, Schema.iterativeKeys]
  parts := by simp [stepEntries, Value.parts, Value.ofEnumeration]

theorem listed_of_discover {activityLevel : UInt32} {p : Part}
    (hp : discover activityLevel = .ok p) : p.Listed :=
  (Schema.Covers.single (by simp [Schema.activities]) (List.mem_singleton_self _) rfl).plain hp

theorem Builds.listed {r : Except Refusal Part} (h : Builds r) {p : Part} (hp : r = .ok p) :
    p.Listed := by
  cases h with
  | discover _ => exact listed_of_discover hp
  | discoverInstances narrow minEvents => exact (covers_instanceEntries narrow minEvents).plain hp
  | createLog _ =>
    exact (Schema.Covers.single (by simp [Schema.activities]) (List.mem_singleton_self _)
      rfl).plain hp
  | discoverForSeveralLevels eventClasses options =>
    have hs : Schema.discoverActivitiesForSeveralLevels ∈ SchemaTable.builtin.schemas := by
      simp [Schema.activities]
    have hnarrow : Schema.discoverActivitiesForSeveralLevels.Covers
        [(.narrowActivities, .ofEnumeration options.narrowActivities),
          (.eventClassesRegexes, .strings eventClasses)] :=
      ⟨hs, by simp [Schema.discoverActivitiesForSeveralLevels, Schema.iterativeKeys],
        by simp [Value.parts, Value.ofEnumeration]⟩
    unfold Activities.discoverForSeveralLevels at hp
    split at hp
    · cases hp
    obtain ⟨_, -, hp⟩ := bind_eq_ok_iff.1 hp
    exact (hnarrow.append (covers_stepEntries hs rfl options)).plain hp
  | discoverFromPatterns kind strategy maxArrayLength activityLevel =>
    obtain ⟨find, hfind, hp⟩ := bind_eq_ok_iff.1 hp
    obtain ⟨discover, hdiscover, hp⟩ := bind_eq_ok_iff.1 hp
    have hpipeline : ∀ q ∈ [find, discover], q.Listed := by
      refine List.forall_mem_cons.2 ⟨(Patterns.Builds.find _ _).listed hfind, ?_⟩
      exact List.forall_mem_singleton.2 (listed_of_discover hdiscover)
    have hcovers : Schema.discoverActivitiesFromPatterns.Covers
        [(.pipeline, .pipeline [find, discover])] :=
      ⟨by simp [Schema.activities], List.forall_mem_singleton.2 (List.mem_singleton_self _),
        List.forall_mem_singleton.2 hpipeline⟩
    exact hcovers.plain hp
  | discoverUntilNoMore eventClass undefStrategy options =>
    have hs : Schema.discoverActivitiesUntilNoMore ∈ SchemaTable.builtin.schemas := by
      simp [Schema.activities]
    have hkeys : ∀ key ∈ [Key.narrowActivities, .undefActivityHandlingStrategy, .eventClassRegex],
        key ∈ Schema.discoverActivitiesUntilNoMore.keys := by
      simp [Schema.discoverActivitiesUntilNoMore, Schema.iterativeKeys]
    obtain ⟨regex, hregex, hp⟩ := bind_eq_ok_iff.1 hp
    have hnarrow : Schema.discoverActivitiesUntilNoMore.Covers
        [(.narrowActivities, .ofEnumeration options.narrowActivities)] :=
      .single hs (hkeys _ (by simp)) rfl
    have hundef : Schema.discoverActivitiesUntilNoMore.Covers
        [(.undefActivityHandlingStrategy, .ofEnumeration undefStrategy)] :=
      .single hs (hkeys _ (by simp)) rfl
    have hregex : Schema.discoverActivitiesUntilNoMore.Covers regex :=
      .optionalText hs (hkeys _ (by simp)) hregex
    exact (((hnarrow.append (covers_stepEntries hs rfl options)).append hundef).append hregex).plain
      hp
  | substituteUnderlyingEvents | clear =>
    exact (Schema.Covers.nil (by simp [Schema.activities])).plain hp
  | fetchUnderlyingEventsCount _ _ =>
    exact (Schema.Covers.nil (by simp [Schema.activities])).fetchAfter hp
  | fetchInstances narrow minEvents _ _ =>
    exact (covers_instanceEntries narrow minEvents).fetchAfter hp

/-- The operation that runs a pipeline on each log is listed if the pipeline is. -/
theorem listed_of_executeWithEach {activityLevel : UInt32} {pipeline : Pipeline} {p : Part}
    (hpipeline : ∀ q ∈ pipeline, q.Listed) (hp : executeWithEach activityLevel pipeline = .ok p) :
    p.Listed := by
  have hcovers : Schema.executeWithEachActivityLog.Covers
      [(.pipeline, .pipeline pipeline), (.activityLevel, .uint32 activityLevel)] :=
    ⟨by simp [Schema.activities], by simp [Schema.executeWithEachActivityLog],
      List.forall_mem_cons.2 ⟨hpipeline, List.forall_mem_singleton.2 (List.forall_mem_nil _)⟩⟩
  exact hcovers.plain hp

end Activities

/-! ## Clustering -/

/-- What the builders for clusters of activities return. -/
inductive Clustering.Builds : Except Refusal Part → Prop
  | activities (options : ClusteringOptions) : Builds (activities options)
  | fetchActivities (options : ClusteringOptions) (tag : Tag) (handler : Handler) :
      Builds (fetchActivities options tag handler)

namespace Clustering

/-- All clusterings share their first entries. -/
theorem covers_entries {s : Schema} (hs : s ∈ SchemaTable.builtin.schemas)
    (hkeys : ∀ key ∈ Schema.clusteringKeys, key ∈ s.keys) {options : ClusteringOptions}
    {es : List (Key × Value)} (hes : entries options = .ok es) : s.Covers es := by
  obtain ⟨_, -, hes⟩ := bind_eq_ok_iff.1 hes
  obtain ⟨regex, hregex, hes⟩ := bind_eq_ok_iff.1 hes
  obtain rfl := Except.ok.inj hes
  have hregex : s.Covers regex :=
    .optionalText hs (hkeys _ (by simp [Schema.clusteringKeys])) hregex
  refine Schema.Covers.append ⟨hs, fun e he => hkeys _ ?_, ?_⟩ hregex
  · have hfirst := List.mem_map_of_mem (f := Prod.fst) he
    simp only [List.map_cons, List.map_nil] at hfirst
    exact List.mem_append_left [Key.eventClassRegex] hfirst
  · simp [Value.parts, Value.ofEnumeration]

/-- Clustering traces takes a pipeline, which has to be listed itself. -/
theorem covers_tracesEntries {options : ClusteringOptions} {after : Pipeline}
    (hafter : ∀ q ∈ after, q.Listed) {es : List (Key × Value)}
    (hes : tracesEntries options after = .ok es) : Schema.clusterizeLogTraces.Covers es := by
  have hs : Schema.clusterizeLogTraces ∈ SchemaTable.builtin.schemas := by simp [Schema.clustering]
  obtain ⟨own, hown, hes⟩ := bind_eq_ok_iff.1 hes
  obtain rfl := Except.ok.inj hes
  refine (covers_entries hs (fun key => List.mem_append_left _) hown).append ?_
  refine ⟨hs, List.forall_mem_singleton.2 ?_, List.forall_mem_singleton.2 hafter⟩
  exact List.mem_append_right _ (List.mem_singleton_self _)

theorem Builds.listed {r : Except Refusal Part} (h : Builds r) {p : Part} (hp : r = .ok p) :
    p.Listed := by
  have hs : Schema.clusterizeActivitiesFromTraces ∈ SchemaTable.builtin.schemas := by
    simp [Schema.clustering]
  cases h with
  | activities _ =>
    obtain ⟨_, hes, hp⟩ := bind_eq_ok_iff.1 hp
    exact (covers_entries hs (fun _ => id) hes).plain hp
  | fetchActivities _ _ _ =>
    obtain ⟨_, hes, hp⟩ := bind_eq_ok_iff.1 hp
    exact (covers_entries hs (fun _ => id) hes).fetchAfter hp

theorem listed_of_traces {options : ClusteringOptions} {after : Pipeline} {p : Part}
    (hafter : ∀ q ∈ after, q.Listed) (hp : traces options after = .ok p) : p.Listed := by
  obtain ⟨_, hes, hp⟩ := bind_eq_ok_iff.1 hp
  exact (covers_tracesEntries hafter hes).plain hp

theorem listed_of_fetchTraces {options : ClusteringOptions} {after : Pipeline} {tag : Tag}
    {handler : Handler} {p : Part} (hafter : ∀ q ∈ after, q.Listed)
    (hp : fetchTraces options after tag handler = .ok p) : p.Listed := by
  obtain ⟨_, hes, hp⟩ := bind_eq_ok_iff.1 hp
  exact (covers_tracesEntries hafter hes).fetchAfter hp

end Clustering

/-! ## Models -/

/-- What the builders for Petri nets return, but for the fetch of a net. -/
inductive PetriNet.Builds : Except Refusal Part → Prop
  | discoverAlpha : Builds discoverAlpha
  | discoverAlphaPlus : Builds discoverAlphaPlus
  | discoverAlphaPlusPlus : Builds discoverAlphaPlusPlus
  | discoverAlphaPlusPlusNfc : Builds discoverAlphaPlusPlusNfc
  | discoverHeuristic (t : HeuristicThresholds) : Builds (discoverHeuristic t)
  | writePnml (path : String) (useNamesAsIds : Bool) : Builds (writePnml path useNamesAsIds)

/-- Of the searches for a Petri net only the heuristic one has entries, its thresholds. -/
theorem PetriNet.Builds.listed {r : Except Refusal Part} (h : PetriNet.Builds r) {p : Part}
    (hp : r = .ok p) : p.Listed := by
  cases h with
  | discoverAlpha | discoverAlphaPlus | discoverAlphaPlusPlus | discoverAlphaPlusPlusNfc =>
    exact (Schema.Covers.nil (by simp [Schema.models])).plain hp
  | discoverHeuristic t =>
    obtain ⟨_, -, hp⟩ := bind_eq_ok_iff.1 hp
    obtain ⟨_, -, hp⟩ := bind_eq_ok_iff.1 hp
    obtain ⟨_, -, hp⟩ := bind_eq_ok_iff.1 hp
    obtain ⟨_, -, hp⟩ := bind_eq_ok_iff.1 hp
    refine Schema.Covers.plain ⟨by simp [Schema.models], ?_, ?_⟩ hp
    · simp [Schema.discoverPetriNetHeuristic]
    · simp [Value.parts]
  | writePnml path useNamesAsIds =>
    obtain ⟨_, -, hp⟩ := bind_eq_ok_iff.1 hp
    refine Schema.Covers.plain ⟨by simp [Schema.models], ?_, ?_⟩ hp
    · simp [Schema.serializePetriNetToPnml]
    · simp [Value.parts]

/-- What the builders for graphs return, but for the fetch of a graph. -/
inductive GraphMining.Builds : Except Refusal Part → Prop
  | discoverFuzzy (t : FuzzyThresholds) : Builds (discoverFuzzy t)
  | discoverDirectlyFollows : Builds discoverDirectlyFollows
  | viewDirectlyFollows (tag : Tag) (handler : Handler) : Builds (viewDirectlyFollows tag handler)

theorem GraphMining.Builds.listed {r : Except Refusal Part} (h : GraphMining.Builds r) {p : Part}
    (hp : r = .ok p) : p.Listed := by
  cases h with
  | discoverFuzzy t =>
    obtain ⟨_, -, hp⟩ := bind_eq_ok_iff.1 hp
    refine Schema.Covers.plain ⟨by simp [Schema.models], ?_, ?_⟩ hp
    · simp [Schema.discoverFuzzyGraph]
    · simp [Value.parts]
  | discoverDirectlyFollows => exact (Schema.Covers.nil (by simp [Schema.models])).plain hp
  | viewDirectlyFollows _ _ => exact (Schema.Covers.nil (by simp [Schema.models])).fetchAfter hp

/-! ## Diagrams -/

/-- What the builders for diagrams return. -/
inductive Diagram.Builds : Except Refusal Part → Prop
  | tracesDiversity (tag : Tag) (handler : Handler) : Builds (tracesDiversity tag handler)
  | placementByName (name : String) (tag : Tag) (handler : Handler) :
      Builds (placementByName name tag handler)
  | placementByRegex (regex : String) (tag : Tag) (handler : Handler) :
      Builds (placementByRegex regex tag handler)
  | fullActivities (tag : Tag) (handler : Handler) : Builds (fullActivities tag handler)
  | shortActivities (tag : Tag) (handler : Handler) : Builds (shortActivities tag handler)

/-- A diagram has at most one entry, a text. -/
theorem Diagram.Builds.listed {r : Except Refusal Part} (h : Diagram.Builds r) {p : Part}
    (hp : r = .ok p) : p.Listed := by
  cases h with
  | tracesDiversity _ _ | fullActivities _ _ | shortActivities _ _ =>
    exact (Schema.Covers.nil (by simp [Schema.diagrams])).fetchAfter hp
  | placementByName text _ _ | placementByRegex text _ _ =>
    obtain ⟨_, -, hp⟩ := bind_eq_ok_iff.1 hp
    exact (Schema.Covers.single (by simp [Schema.diagrams]) (List.mem_singleton_self _)
      rfl).fetchAfter hp

/-! ## Catalogued pipelines -/

/-- A part that a builder returned, with catalogued parts in its pipelines, or catalogued parts side
by side. -/
inductive Part.Catalogued : Part → Prop
  | eventLog {r : Except Refusal Part} {p : Part} : EventLog.Builds r → r = .ok p → p.Catalogued
  | patterns {r : Except Refusal Part} {p : Part} : Patterns.Builds r → r = .ok p → p.Catalogued
  | activities {r : Except Refusal Part} {p : Part} : Activities.Builds r → r = .ok p →
      p.Catalogued
  | executeWithEach {activityLevel : UInt32} {pipeline : Pipeline} {p : Part} :
      (∀ q ∈ pipeline, q.Catalogued) →
      Activities.executeWithEach activityLevel pipeline = .ok p → p.Catalogued
  | clustering {r : Except Refusal Part} {p : Part} : Clustering.Builds r → r = .ok p →
      p.Catalogued
  | traces {options : ClusteringOptions} {after : Pipeline} {p : Part} :
      (∀ q ∈ after, q.Catalogued) → Clustering.traces options after = .ok p → p.Catalogued
  | fetchTraces {options : ClusteringOptions} {after : Pipeline} {tag : Tag} {handler : Handler}
      {p : Part} : (∀ q ∈ after, q.Catalogued) →
      Clustering.fetchTraces options after tag handler = .ok p → p.Catalogued
  | petriNet {r : Except Refusal Part} {p : Part} : PetriNet.Builds r → r = .ok p → p.Catalogued
  | viewPetriNet (tag : Tag) (handler : Handler) : (PetriNet.view tag handler).Catalogued
  | graphMining {r : Except Refusal Part} {p : Part} : GraphMining.Builds r → r = .ok p →
      p.Catalogued
  | viewGraph (tag : Tag) (handler : Handler) : (GraphMining.view tag handler).Catalogued
  | diagram {r : Except Refusal Part} {p : Part} : Diagram.Builds r → r = .ok p → p.Catalogued
  | parallel {parts : Pipeline} : (∀ q ∈ parts, q.Catalogued) → (Part.parallel parts).Catalogued

/-- What the catalogue builds stays under the keys of the schemas, at any depth. -/
theorem Part.Catalogued.listed {p : Part} (h : p.Catalogued) : p.Listed := by
  induction h with
  | eventLog h hp => exact h.listed hp
  | patterns h hp => exact h.listed hp
  | activities h hp => exact h.listed hp
  | executeWithEach _ hp ih => exact Activities.listed_of_executeWithEach ih hp
  | clustering h hp => exact h.listed hp
  | traces _ hp ih => exact Clustering.listed_of_traces ih hp
  | fetchTraces _ hp ih => exact Clustering.listed_of_fetchTraces ih hp
  | petriNet h hp => exact h.listed hp
  | viewPetriNet tag handler => exact .fetch _ tag handler
  | graphMining h hp => exact h.listed hp
  | viewGraph tag handler => exact .fetch _ tag handler
  | diagram h hp => exact h.listed hp
  | parallel _ ih => exact .parallel ih

/-- A pipeline of catalogued parts is valid for the 43 operations of the engine, every entry in it
passes the check of known keys at any depth, and with the path of a log or a log of event names
to start from it can be sent in binary. -/
theorem Pipeline.catalogued_valid {parts : Pipeline} (h : ∀ p ∈ parts, p.Catalogued) :
    SchemaTable.builtin.size = 43 ∧ Pipeline.validate .builtin parts = .ok () ∧
    Pipeline.Everywhere (fun p => ∀ op, p.operation? = some op →
      ∀ e ∈ op.config, KeyTable.builtin.check e.1 e.2 = .ok ()) parts ∧
    ∀ context : Context, ((∃ path, context = .ofPath path) ∨ ∃ log, context = .ofNamesLog log) →
      ∃ m, (Executor.request parts context).toProto = .ok m := by
  have hlisted : ∀ p ∈ parts, p.Listed := fun p hp => (h p hp).listed
  have hsize : SchemaTable.builtin.size = 43 := by
    rw [SchemaTable.size, SchemaTable.builtin_schemas]
    rfl
  refine ⟨hsize, Pipeline.listed_valid hlisted, Pipeline.listed_known hlisted, fun context hc => ?_⟩
  have hcontext : ∀ x ∈ Wire.Entries.pieces context.toWire, x.Encodable := by
    rcases hc with ⟨_, rfl⟩ | ⟨_, rfl⟩ <;>
      exact List.forall_mem_singleton.2
        (Wire.Piece.encodable_entry.2 ⟨rfl, List.forall_mem_singleton.2 trivial⟩)
  rw [Wire.Request.encodes_iff]
  exact List.forall_mem_append.2 ⟨Pipeline.listed_encodable hlisted, hcontext⟩

/-- Clusters of traces with a pipeline that runs another on the log of each activity, beside a fetch
of a net. -/
theorem Pipeline.catalogued_valid_nested :
    let options : ClusteringOptions := ⟨0, .subTraces, .cosine, ⟨0⟩, 1, some "A.*"⟩
    ∃ repeats each clusters,
      Patterns.find .maximalRepeats (.ofStrategy .fromAllTraces) = .ok repeats ∧
      Activities.executeWithEach 2 [repeats] = .ok each ∧
      Clustering.fetchTraces options [each] "t" (.named "f") = .ok clusters ∧
      let parts : Pipeline := [.parallel [clusters, PetriNet.view "u" (.named "g")]]
      Pipeline.validate .builtin parts = .ok () ∧
        ∃ m, (Executor.request parts (.ofPath "log.xes")).toProto = .ok m := by
  intro options
  obtain ⟨repeats, hrepeats⟩ :
      ∃ p, Patterns.find .maximalRepeats (.ofStrategy .fromAllTraces) = .ok p := ⟨_, rfl⟩
  obtain ⟨each, heach⟩ : ∃ p, Activities.executeWithEach 2 [repeats] = .ok p := ⟨_, rfl⟩
  obtain ⟨clusters, hclusters⟩ :
      ∃ p, Clustering.fetchTraces options [each] "t" (.named "f") = .ok p := ⟨_, rfl⟩
  refine ⟨repeats, each, clusters, hrepeats, heach, hclusters, ?_⟩
  have hrepeats : repeats.Catalogued := .patterns (.find _ _) hrepeats
  have heach : each.Catalogued :=
    .executeWithEach (List.forall_mem_singleton.2 hrepeats) heach
  have hclusters : clusters.Catalogued :=
    .fetchTraces (List.forall_mem_singleton.2 heach) hclusters
  have hparts : (Part.parallel [clusters, PetriNet.view "u" (.named "g")]).Catalogued :=
    .parallel (List.forall_mem_cons.2 ⟨hclusters, List.forall_mem_singleton.2 (.viewPetriNet _ _)⟩)
  obtain ⟨-, hvalid, -, hencodes⟩ :=
    Pipeline.catalogued_valid (List.forall_mem_singleton.2 hparts)
  exact ⟨hvalid, hencodes (.ofPath "log.xes") (Or.inl ⟨"log.xes", rfl⟩)⟩

end MiningPipelines
