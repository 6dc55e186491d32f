import MiningPipelines.Config
import MiningPipelines.Text.Hex

/-!
# Parts of a pipeline

The constructors that check their arguments, the views of a part that texts and answers
show, and the tags that correlate a fetch with its results.
-/

namespace MiningPipelines

namespace Tag

/-- The tag made of 128 random bits: a version-four UUID, which keeps 122 of them. -/
def ofRandom (high low : UInt64) : Tag :=
  let high := high.toNat / 0x10000 * 0x10000 + 0x4000 + high.toNat % 0x1000
  let low := 0x8000000000000000 + low.toNat % 0x4000000000000000
  String.ofList <| Hex.digits (high >>> 32) 8 ++ ['-'] ++ Hex.digits (high >>> 16) 4 ++
    ['-'] ++ Hex.digits high 4 ++ ['-'] ++ Hex.digits (low >>> 48) 4 ++ ['-'] ++
    Hex.digits low 12

/-- A lower-case hexadecimal digit. -/
def isHexDigit (c : Char) : Bool := c.isDigit || ('a' ≤ c && c ≤ 'f')

/-- The text has the form of a tag made of random bits. -/
def isRandom (tag : Tag) : Bool :=
  let cs := tag.toList
  cs.length == 36 && (cs.zipIdx.all fun (c, i) =>
    if i = 8 ∨ i = 13 ∨ i = 18 ∨ i = 23 then c == '-'
    else if i = 14 then c == '4'
    else if i = 19 then ['8', '9', 'a', 'b'].contains c
    else isHexDigit c)

end Tag

namespace Operation

/-- An operation with a name that is not empty. -/
def make (name : String) (config : Config) : Except Refusal Operation :=
  if name = "" then .error .emptyOperationName else .ok ⟨name, config⟩

end Operation

namespace Part

/-- Fetches the value under a key. -/
def ofFetch (key : Key) (tag : Tag) (handler : Handler) : Part :=
  .fetch key.name (some tag) (some handler)

/-- Runs an operation and fetches what it left under the keys, at least one. -/
def ofFetchAfter (keys : List Key) (before : Operation) (tag : Tag) (handler : Handler) :
    Except Refusal Part :=
  if keys.isEmpty then .error (.noKeys before.name)
  else .ok (.fetchAfter (keys.map Key.name) before (some tag) (some handler))

/-- A short description for logs and errors. -/
def describe : Part → String
  | operation op => op.name
  | parallel parts => "Parallel(" ++ toString parts.length ++ " parts)"
  | fetch key _ _ => "Fetch(" ++ key ++ ")"
  | fetchAfter keys before _ _ =>
    before.name ++ " -> Fetch(" ++ ", ".intercalate keys ++ ")"

def tag? : Part → Option Tag
  | fetch _ tag _ => tag
  | fetchAfter _ _ tag _ => tag
  | _ => none

def handler? : Part → Option Handler
  | fetch _ _ handler => handler
  | fetchAfter _ _ _ handler => handler
  | _ => none

/-- The part under another tag, if it has one. -/
def withTag (tag : Tag) : Part → Part
  | fetch key _ handler => .fetch key (some tag) handler
  | fetchAfter keys before _ handler => .fetchAfter keys before (some tag) handler
  | part => part

/-- The pipelines in the configuration of the part. -/
def nested : Part → List Pipeline
  | operation op => Config.nested op.config
  | fetchAfter _ before _ _ => Config.nested before.config
  | _ => []

end Part

end MiningPipelines
