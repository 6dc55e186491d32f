import MiningPipelines.Failure
import MiningPipelines.Value.Basic

/-!
# Reading a value as a kind

Each accessor answers the content of a value of its kind and names both kinds otherwise.
`Value.transportable` refuses what JSON cannot carry.
-/

namespace MiningPipelines

namespace Value

/-- The failure of reading a value as `expected`. -/
def unexpected {α : Type} (v : Value) (expected : ValueKind) : Except Failure α :=
  .error (.unexpectedKind expected v.kind)

def asString : Value → Except Failure String
  | string s => .ok s
  | v => v.unexpected .string

def asUInt32 : Value → Except Failure UInt32
  | uint32 n => .ok n
  | v => v.unexpected .uint32

def asBool : Value → Except Failure Bool
  | bool b => .ok b
  | v => v.unexpected .bool

def asFloat : Value → Except Failure Single
  | float x => .ok x
  | v => v.unexpected .float

def asStrings : Value → Except Failure (List String)
  | strings items => .ok items
  | v => v.unexpected .strings

def asNamesLog : Value → Except Failure NamesLog
  | namesLog traces => .ok traces
  | v => v.unexpected .namesLog

def asHashesLog : Value → Except Failure HashesLog
  | hashesLog traces => .ok traces
  | v => v.unexpected .hashesLog

def asPipeline : Value → Except Failure Pipeline
  | pipeline parts => .ok parts
  | v => v.unexpected .pipeline

/-- The names of the enumeration and of the variant. -/
def asEnum : Value → Except Failure (String × String)
  | enum enumType variant => .ok (enumType, variant)
  | v => v.unexpected .enum

/-- The payload of a result of the given kind. -/
def asArtifact (kind : ArtifactKind) : Value → Except Failure Json
  | artifact k payload =>
    if k = kind then .ok payload
    else (artifact k payload).unexpected (.artifact kind)
  | v => v.unexpected (.artifact kind)

/-- Refuses a float that JSON text cannot hold. -/
def transportable : Value → Except Refusal Unit
  | float x => if x.isFinite then .ok () else .error (.notFinite x)
  | _ => .ok ()

end Value

end MiningPipelines
