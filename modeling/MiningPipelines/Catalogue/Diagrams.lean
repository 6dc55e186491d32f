import MiningPipelines.Catalogue.Assembly
import MiningPipelines.Catalogue.Schemas

/-!
# Diagrams

Each diagram is computed as a colored log, which is then fetched.
-/

namespace MiningPipelines

namespace Diagram

open Assembly

/-- Computes a diagram and fetches it. -/
def draw (s : Schema) (entries : List (Key × Value)) (tag : Tag) (handler : Handler) :
    Except Refusal Part :=
  fetchAfter .colorsEventLog s entries tag handler

/-- One row for each trace, one color for each class of events. -/
def tracesDiversity (tag : Tag) (handler : Handler) : Except Refusal Part :=
  draw .tracesDiversityDiagram [] tag handler

/-- Where the events with a name stand in each trace. -/
def placementByName (name : String) (tag : Tag) (handler : Handler) : Except Refusal Part := do
  requireText "event name" name
  draw .drawPlacementOfEventByName [(.eventName, .string name)] tag handler

/-- Where the events whose names match stand in each trace. -/
def placementByRegex (regex : String) (tag : Tag) (handler : Handler) :
    Except Refusal Part := do
  requireText "event regex" regex
  draw .drawPlacementOfEventsByRegex [(.regex, .string regex)] tag handler

def fullActivities (tag : Tag) (handler : Handler) : Except Refusal Part :=
  draw .drawFullActivitiesDiagram [] tag handler

def shortActivities (tag : Tag) (handler : Handler) : Except Refusal Part :=
  draw .drawShortActivitiesDiagram [] tag handler

end Diagram

end MiningPipelines
