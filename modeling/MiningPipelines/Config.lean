import MiningPipelines.Key

/-!
# Configurations and contexts

A configuration is a list that only grows: entries stay in the order they were appended
and a key may repeat. A context is what a run starts from: a key is in it once, and a
later value under it takes the place of the earlier one.

Both refuse an empty key and a float that is not finite. A refused call leaves the list
as it was, since nothing is returned in its place. Callers who hold a configuration or a
context change it in place (`Config.appendInPlace`, `Context.insertInPlace`); there a refused
call leaves it as it was because all checks come before the write.
-/

namespace MiningPipelines

namespace Config

/-- Appends an entry. -/
def append (config : Config) (key : String) (v : Value) : Except Refusal Config :=
  if key = "" then .error .emptyConfigurationKey
  else do
    v.transportable
    .ok (List.append config [(key, v)])

/-- The configuration of the entries, appended one by one. -/
def ofEntries (entries : List (String × Value)) : Except Refusal Config :=
  entries.foldlM (fun config (key, v) => append config key v) []

/-- Appends an entry that a table of keys admits. -/
def appendChecked (config : Config) (table : KeyTable) (key : String) (v : Value) :
    Except Refusal Config := do
  table.check key v
  append config key v

/-- Appends an entry under a known key. -/
def appendKey (config : Config) (key : Key) (v : Value) : Except Refusal Config := do
  key.check v
  append config key.name v

/-- Appends an entry in place. -/
def appendInPlace (key : String) (v : Value) : InPlace Refusal Config Unit := do
  if key = "" then throw .emptyConfigurationKey
  liftExcept v.transportable
  modify fun config => config ++ [(key, v)]

/-- Appends an entry in place if a table of keys admits it. -/
def appendCheckedInPlace (table : KeyTable) (key : String) (v : Value) :
    InPlace Refusal Config Unit := do
  liftExcept (table.check key v)
  appendInPlace key v

/-- Appends an entry under a known key in place. -/
def appendKeyInPlace (key : Key) (v : Value) : InPlace Refusal Config Unit := do
  liftExcept (key.check v)
  appendInPlace key.name v

/-- The first value under a key. -/
def get? (config : Config) (key : String) : Option Value :=
  (config.find? fun (k, _) => k == key).map Prod.snd

/-- The pipelines among the values, in order. -/
def nested : Config → List Pipeline
  | [] => []
  | (_, .pipeline parts) :: rest => parts :: nested rest
  | _ :: rest => nested rest

end Config

/-- Puts a value under a key, in the place of an earlier one or else at the end. -/
def putEntry (key : String) (v : Value) : List (String × Value) → List (String × Value)
  | [] => [(key, v)]
  | (k, w) :: rest => if k = key then (k, v) :: rest else (k, w) :: putEntry key v rest

/-- What a run starts from: entries with distinct keys. -/
structure Context where
  entries : List (String × Value)

namespace Context

def empty : Context := ⟨[]⟩

def size (c : Context) : Nat := c.entries.length

/-- Inserts a value. -/
def insert (c : Context) (key : String) (v : Value) : Except Refusal Context :=
  if key = "" then .error .emptyContextKey
  else do
    v.transportable
    .ok ⟨putEntry key v c.entries⟩

/-- The context of the entries, inserted one by one. -/
def ofEntries (entries : List (String × Value)) : Except Refusal Context :=
  entries.foldlM (fun c (key, v) => c.insert key v) empty

/-- Inserts a value that a table of keys admits. -/
def insertChecked (c : Context) (table : KeyTable) (key : String) (v : Value) :
    Except Refusal Context := do
  table.check key v
  c.insert key v

/-- Inserts a value in place. -/
def insertInPlace (key : String) (v : Value) : InPlace Refusal Context Unit := do
  if key = "" then throw .emptyContextKey
  liftExcept v.transportable
  modify fun c => ⟨putEntry key v c.entries⟩

/-- Inserts a value in place if a table of keys admits it. -/
def insertCheckedInPlace (table : KeyTable) (key : String) (v : Value) :
    InPlace Refusal Context Unit := do
  liftExcept (table.check key v)
  insertInPlace key v

/-- The context with the path of a log for the engine to read. -/
def ofPath (path : String) : Context := ⟨[(Key.path.name, .string path)]⟩

/-- The context with a log of event names. -/
def ofNamesLog (traces : NamesLog) : Context :=
  ⟨[(Key.namesEventLog.name, .namesLog traces)]⟩

def get? (c : Context) (key : String) : Option Value :=
  (c.entries.find? fun (k, _) => k == key).map Prod.snd

end Context

end MiningPipelines
