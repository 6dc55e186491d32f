import MiningPipelines.Wire.Basic

/-!
# Decoding wire messages

A wire value with exactly one slot is a value, and a wire part with exactly one shape is
a part. Operations and entries pass the same checks as in construction. Decoded fetches
keep their tags and have no handlers.
-/

namespace MiningPipelines

/-- A refused construction as a decoding fault. -/
def DecodeFault.ofRefusal {α : Type} : Except Refusal α → Except DecodeFault α
  | .ok a => .ok a
  | .error cause => .error (.refused cause)

namespace Wire

mutual

/-- The value in the one slot. -/
def Value.decode : Value → Except DecodeFault MiningPipelines.Value
  | ⟨[]⟩ => .error (.malformed .noPayload)
  | ⟨[p]⟩ => p.decode
  | ⟨p :: q :: ps⟩ =>
    .error (.malformed (.severalPayloads ((p :: q :: ps).map Payload.slot)))

def Payload.decode : Payload → Except DecodeFault MiningPipelines.Value
  | .string s => .ok (.string s)
  | .uint32 n => .ok (.uint32 n)
  | .bool b => .ok (.bool b)
  | .float x => .ok (.float x)
  | .enum enumType variant => .ok (.enum enumType variant)
  | .strings items => .ok (.strings items)
  | .namesLog traces => .ok (.namesLog traces)
  | .hashesLog traces => .ok (.hashesLog traces)
  | .pipeline parts => do .ok (.pipeline (← Pipeline.decode parts))
  | .artifact kind payload => .ok (.artifact kind payload)

/-- The part in the one shape. -/
def Part.decode : Part → Except DecodeFault MiningPipelines.Part
  | ⟨[]⟩ => .error (.malformed (.notOneShape []))
  | ⟨[s]⟩ => s.decode
  | ⟨s :: t :: ss⟩ => .error (.malformed (.notOneShape ((s :: t :: ss).map Shape.slot)))

def Shape.decode : Shape → Except DecodeFault MiningPipelines.Part
  | .operation op => do .ok (.operation (← op.decode))
  | .parallel parts => do .ok (.parallel (← Pipeline.decode parts))
  | .fetch key tag => .ok (.fetch key tag none)
  | .fetchAfter keys before tag => do .ok (.fetchAfter keys (← before.decode) tag none)

/-- The operation; its entries are checked before its name. -/
def Operation.decode : Operation → Except DecodeFault MiningPipelines.Operation
  | ⟨name, config⟩ => do
    let config ← Entries.decodeOnto [] config
    DecodeFault.ofRefusal (MiningPipelines.Operation.make name config)

/-- Decodes entries one by one and appends them to a configuration. -/
def Entries.decodeOnto (config : Config) :
    List (String × Value) → Except DecodeFault Config
  | [] => .ok config
  | (k, v) :: rest => do
    let v ← v.decode
    let config ← DecodeFault.ofRefusal (config.append k v)
    Entries.decodeOnto config rest

/-- The pipeline of the parts. -/
def Pipeline.decode : List Part → Except DecodeFault (List MiningPipelines.Part)
  | [] => .ok []
  | p :: rest => do
    let p ← p.decode
    let rest ← Pipeline.decode rest
    .ok (p :: rest)

end

/-- The configuration of the entries. -/
def Entries.decode (entries : Entries) : Except DecodeFault Config :=
  Entries.decodeOnto [] entries

end Wire

end MiningPipelines
