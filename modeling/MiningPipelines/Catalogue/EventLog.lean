import MiningPipelines.Catalogue.Assembly
import MiningPipelines.Catalogue.Schemas

/-!
# Operations on event logs

Reading, writing, filtering and fetching the log that the engine holds.
-/

namespace MiningPipelines

namespace EventLog

open Assembly

/-- Reads the log at the path in the context. -/
def readXes : Except Refusal Part := plain .readLogFromXes []

/-- Writes the log to a file of the engine. -/
def writeXes (path : String) : Except Refusal Part := do
  requireText "XES output path" path
  plain .writeLogToXes [(.path, .string path)]

/-- Takes the log of event names in the context. -/
def useNames : Except Refusal Part := plain .useNamesEventLog []

/-- Fetches the log as event names. -/
def fetchNames (tag : Tag) (handler : Handler) : Except Refusal Part :=
  fetchAfter .namesEventLog .getNamesEventLog [] tag handler

/-- Fetches the log as event hashes. -/
def fetchHashes (tag : Tag) (handler : Handler) : Except Refusal Part :=
  fetchAfter .hashesEventLog .getHashesEventLog [] tag handler

/-- Fetches the counts of the log. -/
def fetchInfo (tag : Tag) (handler : Handler) : Except Refusal Part :=
  fetchAfter .eventLogInfo .getEventLogInfo [] tag handler

/-- Fetches the log and prints each trace. -/
def printTraces (tag : Tag) : Except Refusal Part := fetchNames tag .printTraces

/-- Fetches the counts of the log and prints them. -/
def printCounts (tag : Tag) : Except Refusal Part := fetchInfo tag .printCounts

/-- Drops traces with fewer events. -/
def filterTracesByEventsCount (minEvents : UInt32) : Except Refusal Part :=
  plain .filterTracesByEventsCount [(.eventsCount, .uint32 minEvents)]

/-- Drops the events with a name. -/
def filterEventsByName (name : String) : Except Refusal Part := do
  requireText "event name" name
  plain .filterEventsByName [(.eventName, .string name)]

/-- Drops the events whose names match. -/
def filterEventsByRegex (regex : String) : Except Refusal Part := do
  requireText "event filter regex" regex
  plain .filterEventsByRegex [(.regex, .string regex)]

/-- Keeps one trace of each variant. -/
def filterByVariants : Except Refusal Part := plain .filterLogByVariants []

/-- Puts an event before and one after each trace. -/
def addStartEndEvents : Except Refusal Part := plain .addStartEndArtificialEvents []

/-- Puts an event before each trace. -/
def addStartEvents : Except Refusal Part := plain .addStartArtificialEvents []

/-- Puts an event after each trace. -/
def addEndEvents : Except Refusal Part := plain .addEndArtificialEvents []

end EventLog

end MiningPipelines
