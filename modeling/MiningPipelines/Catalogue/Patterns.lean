import MiningPipelines.Catalogue.Assembly
import MiningPipelines.Catalogue.Schemas

/-!
# Finding patterns

Tandem arrays are bounded by a length. Repeats are searched with a strategy and perhaps a
regex of event classes. `Patterns.find` chooses by the kind of patterns and refuses
options that the kind does not take.
-/

namespace MiningPipelines

/-- The options of all kinds of patterns. -/
structure PatternsOptions where
  maxArrayLength : Option UInt32
  strategy : Option PatternsDiscoveryStrategy
  eventClassRegex : Option String
deriving DecidableEq

namespace PatternsOptions

def ofLength (maxArrayLength : UInt32) : PatternsOptions := ⟨some maxArrayLength, none, none⟩

def ofStrategy (strategy : PatternsDiscoveryStrategy) : PatternsOptions :=
  ⟨none, some strategy, none⟩

end PatternsOptions

/-- The patterns of the kind are arrays, not repeats. -/
def PatternsKind.isTandem : PatternsKind → Bool
  | primitiveTandemArrays | maximalTandemArrays => true
  | _ => false

/-- The operation that finds patterns of the kind. -/
def PatternsKind.schema : PatternsKind → Schema
  | primitiveTandemArrays => .findPrimitiveTandemArrays
  | maximalTandemArrays => .findMaximalTandemArrays
  | maximalRepeats => .findMaximalRepeats
  | superMaximalRepeats => .findSuperMaximalRepeats
  | nearSuperMaximalRepeats => .findNearSuperMaximalRepeats

namespace Patterns

open Assembly

/-- Finds arrays up to a positive length. -/
def tandemArrays (s : Schema) (maxArrayLength : UInt32) : Except Refusal Part :=
  if maxArrayLength = 0 then .error .zeroArrayLength
  else plain s [(.tandemArrayLength, .uint32 maxArrayLength)]

/-- Finds repeats. -/
def repeats (s : Schema) (strategy : PatternsDiscoveryStrategy)
    (eventClassRegex : Option String) : Except Refusal Part := do
  let regex ← optionalText "event class regex" .eventClassRegex eventClassRegex
  plain s ((.patternsDiscoveryStrategy, .ofEnumeration strategy) :: regex)

def primitiveTandemArrays : UInt32 → Except Refusal Part :=
  tandemArrays .findPrimitiveTandemArrays

def maximalTandemArrays : UInt32 → Except Refusal Part :=
  tandemArrays .findMaximalTandemArrays

def maximalRepeats : PatternsDiscoveryStrategy → Option String → Except Refusal Part :=
  repeats .findMaximalRepeats

def superMaximalRepeats : PatternsDiscoveryStrategy → Option String → Except Refusal Part :=
  repeats .findSuperMaximalRepeats

def nearSuperMaximalRepeats :
    PatternsDiscoveryStrategy → Option String → Except Refusal Part :=
  repeats .findNearSuperMaximalRepeats

/-- Finds patterns of a kind. An option that the kind needs has to be there, and one that
it does not take must not. -/
def find (kind : PatternsKind) (options : PatternsOptions) : Except Refusal Part :=
  let name := Enumeration.name kind
  if kind.isTandem then
    if options.strategy.isSome || options.eventClassRegex.isSome then
      .error (.onlyArrayLength name)
    else
      match options.maxArrayLength with
      | none => .error (.noArrayLength name)
      | some length => tandemArrays kind.schema length
  else if options.maxArrayLength.isSome then .error (.unwantedArrayLength name)
  else
    match options.strategy with
    | none => .error (.noStrategy name)
    | some strategy => repeats kind.schema strategy options.eventClassRegex

end Patterns

end MiningPipelines
