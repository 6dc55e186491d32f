import MiningPipelines.Catalogue.Assembly
import MiningPipelines.Catalogue.Schemas

/-!
# Discovering models

Petri nets by several miners, fuzzy graphs and graphs of direct succession.
-/

namespace MiningPipelines

/-- The thresholds of the heuristic miner. -/
structure HeuristicThresholds where
  dependency : Single
  positiveObservations : UInt32
  relativeToBest : Single
  parallelism : Single
  loopLengthTwo : Single
deriving DecidableEq

def HeuristicThresholds.default : HeuristicThresholds where
  dependency := .ofMagnitude false (BinaryFormat.single.round 1 2)
  positiveObservations := 1
  relativeToBest := .ofNat 1
  parallelism := .ofMagnitude false (BinaryFormat.single.round 1 10)
  loopLengthTwo := .ofMagnitude false (BinaryFormat.single.round 1 2)

/-- The thresholds of the fuzzy miner. -/
structure FuzzyThresholds where
  unaryFrequency : Single
  binarySignificance : Single
  preserve : Single
  ratio : Single
  utilityRate : Single
  edgeCutoff : Single
deriving DecidableEq

def FuzzyThresholds.default : FuzzyThresholds :=
  ⟨.ofNat 0, .ofNat 0, .ofNat 0, .ofNat 0, .ofNat 0, .ofNat 0⟩

namespace PetriNet

open Assembly

def discoverAlpha : Except Refusal Part := plain .discoverPetriNetAlpha []

def discoverAlphaPlus : Except Refusal Part := plain .discoverPetriNetAlphaPlus []

def discoverAlphaPlusPlus : Except Refusal Part := plain .discoverPetriNetAlphaPlusPlus []

def discoverAlphaPlusPlusNfc : Except Refusal Part :=
  plain .discoverPetriNetAlphaPlusPlusNfc []

/-- Runs the heuristic miner. -/
def discoverHeuristic (t : HeuristicThresholds) : Except Refusal Part := do
  requireThreshold "dependency threshold" t.dependency
  requireThreshold "relative to best threshold" t.relativeToBest
  requireThreshold "and threshold" t.parallelism
  requireThreshold "loop length two threshold" t.loopLengthTwo
  plain .discoverPetriNetHeuristic
    [(.dependencyThreshold, .float t.dependency),
      (.positiveObservationsThreshold, .uint32 t.positiveObservations),
      (.relativeToBestThreshold, .float t.relativeToBest),
      (.andThreshold, .float t.parallelism),
      (.loopLengthTwoThreshold, .float t.loopLengthTwo)]

/-- Writes the net to a file of the engine. -/
def writePnml (path : String) (useNamesAsIds : Bool) : Except Refusal Part := do
  requireText "PNML path" path
  plain .serializePetriNetToPnml
    [(.path, .string path), (.pnmlUseNamesAsIds, .bool useNamesAsIds)]

/-- Fetches the net that the engine holds. -/
def view (tag : Tag) (handler : Handler) : Part := .ofFetch .petriNet tag handler

end PetriNet

namespace GraphMining

open Assembly

/-- Refuses the first entry that is no threshold, by the name of its key. -/
def requireThresholds : List (Key × Single) → Except Refusal Unit
  | [] => .ok ()
  | (key, x) :: rest => do
    requireThreshold key.name x
    requireThresholds rest

/-- Runs the fuzzy miner. -/
def discoverFuzzy (t : FuzzyThresholds) : Except Refusal Part := do
  let thresholds : List (Key × Single) :=
    [(.unaryFrequencyThreshold, t.unaryFrequency),
      (.binarySignificanceThreshold, t.binarySignificance),
      (.preserveThreshold, t.preserve), (.ratioThreshold, t.ratio),
      (.utilityRate, t.utilityRate), (.edgeCutoffThreshold, t.edgeCutoff)]
  requireThresholds thresholds
  plain .discoverFuzzyGraph (thresholds.map fun (key, x) => (key, .float x))

/-- Finds which events follow each other directly. -/
def discoverDirectlyFollows : Except Refusal Part := plain .discoverDirectlyFollowsGraph []

/-- Finds which events follow each other directly and fetches the graph. -/
def viewDirectlyFollows (tag : Tag) (handler : Handler) : Except Refusal Part :=
  fetchAfter .graph .discoverDirectlyFollowsGraph [] tag handler

/-- Fetches the graph that the engine holds. -/
def view (tag : Tag) (handler : Handler) : Part := .ofFetch .graph tag handler

end GraphMining

end MiningPipelines
