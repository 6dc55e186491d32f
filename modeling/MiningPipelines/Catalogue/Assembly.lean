import MiningPipelines.Catalogue.Enumeration
import MiningPipelines.Schema
import MiningPipelines.Text.Blank

/-!
# Assembling parts

What the builders of the catalogue share: checks of arguments, configurations with values
under known keys, and the three forms of parts that builders return.
-/

namespace MiningPipelines

namespace Assembly

/-- Refuses a text of blanks. -/
def requireText (what text : String) : Except Refusal Unit :=
  if isBlankText text then .error (.blank what) else .ok ()

/-- Refuses a number that is not finite or below zero. -/
def requireThreshold (what : String) (x : Single) : Except Refusal Unit :=
  if !x.isFinite || (x.negative && x.magnitude != 0) then .error (.notThreshold what x)
  else .ok ()

/-- Appends values under known keys. -/
def configureOnto (config : Config) : List (Key × Value) → Except Refusal Config
  | [] => .ok config
  | (key, v) :: rest => do
    let config ← config.appendKey key v
    configureOnto config rest

/-- The configuration with the given values. -/
def configure (entries : List (Key × Value)) : Except Refusal Config := configureOnto [] entries

/-- The operation of a schema with the given values. -/
def operation (s : Schema) (entries : List (Key × Value)) : Except Refusal Operation := do
  let config ← configure entries
  Operation.make s.name config

/-- An operation as a part. -/
def plain (s : Schema) (entries : List (Key × Value)) : Except Refusal Part := do
  .ok (.operation (← operation s entries))

/-- An operation and then a fetch of what it left under a key. -/
def fetchAfter (key : Key) (s : Schema) (entries : List (Key × Value)) (tag : Tag)
    (handler : Handler) : Except Refusal Part := do
  Part.ofFetchAfter [key] (← operation s entries) tag handler

/-- The entry of a text that may be missing; one of blanks is refused. -/
def optionalText (what : String) (key : Key) :
    Option String → Except Refusal (List (Key × Value))
  | none => .ok []
  | some text => do
    requireText what text
    .ok [(key, .string text)]

end Assembly

end MiningPipelines
