import MiningPipelines.Value.Access

/-!
# Enumerations of the engine

The engine knows some choices by name. On the way to it a choice is a pair of names, of
the enumeration and of the variant. `Value.ofEnumeration` makes such a value and
`Value.asEnumeration` reads one back.
-/

namespace MiningPipelines

/-- A type of choices that the engine knows by name. -/
class Enumeration (α : Type) where
  /-- The name of the enumeration, as the engine spells it. -/
  typeName : String
  /-- The choices in declared order. -/
  all : List α
  /-- The name of a choice. -/
  name : α → String

namespace Enumeration

variable {α : Type} [Enumeration α]

/-- The choice with a name. -/
def ofName? (s : String) : Option α := all.find? fun a => name a == s

end Enumeration

namespace Value

variable {α : Type} [Enumeration α]

/-- The value of a choice. -/
def ofEnumeration (a : α) : Value := .enum (Enumeration.typeName α) (Enumeration.name a)

/-- Reads the choice of a value. -/
def asEnumeration (α : Type) [Enumeration α] (v : Value) : Except Failure α := do
  let (enumType, variant) ← v.asEnum
  if enumType ≠ Enumeration.typeName α then
    throw (.enumTypeMismatch (Enumeration.typeName α) enumType)
  match Enumeration.ofName? variant with
  | some a => .ok a
  | none => throw (.unknownVariant enumType variant)

end Value

/-- An enumeration as a table of names, for callers that pick one when they run. -/
structure Choices where
  typeName : String
  names : List String
  /-- The value of the choice with a name. -/
  ofName? : String → Option Value
  /-- The name of the choice that a value holds. -/
  nameIn : Value → Except Failure String

/-- The table of an enumeration. -/
def Choices.of (α : Type) [Enumeration α] : Choices where
  typeName := Enumeration.typeName α
  names := (Enumeration.all : List α).map Enumeration.name
  ofName? s := (Enumeration.ofName? s : Option α).map Value.ofEnumeration
  nameIn v := (v.asEnumeration α).map Enumeration.name

/-- Where repeats are searched for. -/
inductive PatternsDiscoveryStrategy where
  | fromAllTraces
  | fromSingleMergedTrace
deriving DecidableEq

instance : Enumeration PatternsDiscoveryStrategy where
  typeName := "PatternsDiscoveryStrategy"
  all := [.fromAllTraces, .fromSingleMergedTrace]
  name
    | .fromAllTraces => "FromAllTraces"
    | .fromSingleMergedTrace => "FromSingleMergedTrace"

/-- Families of patterns. -/
inductive PatternsKind where
  | primitiveTandemArrays
  | maximalTandemArrays
  | maximalRepeats
  | superMaximalRepeats
  | nearSuperMaximalRepeats
deriving DecidableEq

instance : Enumeration PatternsKind where
  typeName := "PatternsKindDto"
  all :=
    [.primitiveTandemArrays, .maximalTandemArrays, .maximalRepeats, .superMaximalRepeats,
      .nearSuperMaximalRepeats]
  name
    | .primitiveTandemArrays => "PrimitiveTandemArrays"
    | .maximalTandemArrays => "MaximalTandemArrays"
    | .maximalRepeats => "MaximalRepeats"
    | .superMaximalRepeats => "SuperMaximalRepeats"
    | .nearSuperMaximalRepeats => "NearSuperMaximalRepeats"

/-- Which part of a log the discovery of activities adjusts. -/
inductive AdjustingMode where
  | fromAllLog
  | fromUnattachedSubTraces
deriving DecidableEq

instance : Enumeration AdjustingMode where
  typeName := "AdjustingMode"
  all := [.fromAllLog, .fromUnattachedSubTraces]
  name
    | .fromAllLog => "FromAllLog"
    | .fromUnattachedSubTraces => "FromUnattachedSubTraces"

/-- How overlapping instances of activities are narrowed. -/
inductive NarrowActivityKind where
  | dontNarrow
  | narrowUp
  | narrowDown
deriving DecidableEq

instance : Enumeration NarrowActivityKind where
  typeName := "NarrowActivityKind"
  all := [.dontNarrow, .narrowUp, .narrowDown]
  name
    | .dontNarrow => "DontNarrow"
    | .narrowUp => "NarrowUp"
    | .narrowDown => "NarrowDown"

/-- What stands for events that belong to no activity. -/
inductive UndefActivityHandlingStrategy where
  | dontInsert
  | insertAsSingleEvent
  | insertAllEvents
deriving DecidableEq

instance : Enumeration UndefActivityHandlingStrategy where
  typeName := "UndefActivityHandlingStrategyDto"
  all := [.dontInsert, .insertAsSingleEvent, .insertAllEvents]
  name
    | .dontInsert => "DontInsert"
    | .insertAsSingleEvent => "InsertAsSingleEvent"
    | .insertAllEvents => "InsertAllEvents"

/-- What activities are represented by when they are clustered. -/
inductive ActivitiesRepresentationSource where
  | eventClasses
  | subTraces
  | subTracesUnderlyingEvents
deriving DecidableEq

instance : Enumeration ActivitiesRepresentationSource where
  typeName := "ActivitiesRepresentationSource"
  all := [.eventClasses, .subTraces, .subTracesUnderlyingEvents]
  name
    | .eventClasses => "EventClasses"
    | .subTraces => "SubTraces"
    | .subTracesUnderlyingEvents => "SubTracesUnderlyingEvents"

/-- Distances of clustering. -/
inductive Distance where
  | cosine
  | levenshtein
deriving DecidableEq

instance : Enumeration Distance where
  typeName := "Distance"
  all := [.cosine, .levenshtein]
  name
    | .cosine => "Cosine"
    | .levenshtein => "Levenshtein"

end MiningPipelines
