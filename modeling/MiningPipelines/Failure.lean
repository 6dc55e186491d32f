import MiningPipelines.Kind
import MiningPipelines.Number.Decimal
import MiningPipelines.Text.Quoted

/-!
# Failures

What can go wrong while a pipeline is built, sent or run, by cause. `Failure.message`
gives the text that a user sees; the causes under it say only what is particular to
them. Where a text would end in the words of a foreign decoder or of the network, it
ends in `Failure.unspecified`.
-/

namespace MiningPipelines

namespace Failure

/-- Stands for words that are not ours. -/
def unspecified : String := "<detail>"

end Failure

/-- Why a part, a configuration or a context cannot be built. -/
inductive Refusal where
  | emptyConfigurationKey
  | emptyContextKey
  | notFinite (x : Single)
  | emptyOperationName
  | noKeys (operation : String)
  | keyConflict (key : String) (registered : ValueKind)
  | unknownKey (key : String)
  | wrongKind (key : String) (expected actual : ValueKind)
  | unknownOperation (operation : String)
  | keyNotAccepted (operation key : String)
  | blank (what : String)
  | notThreshold (what : String) (x : Single)
  | zeroArrayLength
  | onlyArrayLength (patterns : String)
  | noArrayLength (patterns : String)
  | unwantedArrayLength (patterns : String)
  | noStrategy (patterns : String)
  | noEventClasses
deriving DecidableEq

namespace Refusal

def message : Refusal → String
  | emptyConfigurationKey => "configuration key must not be empty"
  | emptyContextKey => "context key must not be empty"
  | notFinite x => "float value " ++ x.display ++ " cannot be sent to the engine"
  | emptyOperationName => "operation name must not be empty"
  | noKeys operation => "fetch after '" ++ operation ++ "' must request at least one key"
  | keyConflict key registered =>
    "key '" ++ key ++ "' is already registered as " ++ registered.name
  | unknownKey key => "unknown context key '" ++ key ++ "'"
  | wrongKind key expected actual =>
    "key '" ++ key ++ "' expects a " ++ expected.name ++ " value, got " ++ actual.name
  | unknownOperation operation => "unknown operation '" ++ operation ++ "'"
  | keyNotAccepted operation key =>
    "operation '" ++ operation ++ "' does not accept key '" ++ key ++ "'"
  | blank what => what ++ " must not be empty"
  | notThreshold what x =>
    what ++ " must be a finite non-negative number, got " ++ x.display
  | zeroArrayLength => "tandem array length must be greater than zero"
  | onlyArrayLength patterns => patterns ++ " takes only a maximal array length"
  | noArrayLength patterns => patterns ++ " needs a maximal array length"
  | unwantedArrayLength patterns => patterns ++ " does not take a maximal array length"
  | noStrategy patterns => patterns ++ " needs a discovery strategy"
  | noEventClasses => "at least one event class regex is required"

end Refusal

/-- Why a message cannot be read or has no other form. -/
inductive Malformation where
  | noPayload
  | severalPayloads (slots : List String)
  | notOneShape (shapes : List String)
  | noShape
  | notOneSlot (slots : List String)
  | notOnePartSlot (slots : List String)
  | severalKeys (operation : String) (count : Nat)
  | noEncoding (slot : String)
  | misfit (slot : String)
  | undecodableFrame
  | undecodableReply
  | emptyReply (key : String)
  | missingValue (key : String)
deriving DecidableEq

namespace Malformation

def message : Malformation → String
  | noPayload => "context value has no recognised payload"
  | severalPayloads slots =>
    "context value has several payloads: " ++ ", ".intercalate slots
  | notOneShape shapes =>
    "pipeline part must have exactly one shape, found [" ++ ", ".intercalate shapes ++ "]"
  | noShape => "pipeline part has no recognised shape"
  | notOneSlot slots =>
    "context value must set exactly one slot, got " ++ quotedTexts slots
  | notOnePartSlot slots =>
    "pipeline part must set exactly one slot, got " ++ quotedTexts slots
  | severalKeys operation count =>
    "gRPC fetch after " ++ operation ++ " carries exactly one key, got " ++ toString count
  | noEncoding slot => slot ++ " values have no gRPC encoding"
  | misfit slot => slot ++ " payload does not fit its message: " ++ Failure.unspecified
  | undecodableFrame => "undecodable stream frame: " ++ Failure.unspecified
  | undecodableReply => "undecodable context value reply: " ++ Failure.unspecified
  | emptyReply key =>
    "context value response for '" ++ key ++ "' carries neither value nor error"
  | missingValue key => "result carries no value for '" ++ key ++ "'"

end Malformation

/-- Why a response stream cannot be opened or read. -/
inductive TransportFault where
  /-- A fault that the stream itself reports. -/
  | reported (text : String)
  | unreachable (url reason : String)
  | answered (url status : String)
  | readFailed
  | replyReadFailed (url : String)
  | status (code text : String)
  | noContextValues
deriving DecidableEq

namespace TransportFault

def message : TransportFault → String
  | reported text => text
  | unreachable url reason => "failed to reach " ++ url ++ ": " ++ reason
  | answered url line => url ++ " answered " ++ line
  | readFailed => "stream read failed: " ++ Failure.unspecified
  | replyReadFailed url => "reading " ++ url ++ " failed: " ++ Failure.unspecified
  | status code text => "engine returned " ++ code ++ ": " ++ text
  | noContextValues => "context values are not available from this engine"

end TransportFault

/-- Why client settings cannot be used. -/
inductive SettingsFault where
  | emptyUrl
  | zeroCapacity
  | notMilliseconds (name value : String)
  | unknownMode (text : String)
  | invalidUrl (url : String)
deriving DecidableEq

namespace SettingsFault

def message : SettingsFault → String
  | emptyUrl => "backend URL must not be empty"
  | zeroCapacity => "channel capacity must be positive"
  | notMilliseconds name value => name ++ " must be milliseconds, got '" ++ value ++ "'"
  | unknownMode text => "unknown correlation mode '" ++ text ++ "'"
  | invalidUrl url => "invalid engine URL '" ++ url ++ "': " ++ Failure.unspecified

end SettingsFault

/-- Why a wire value is no value: it is malformed, or holds what cannot be built. -/
inductive DecodeFault where
  | malformed (cause : Malformation)
  | refused (cause : Refusal)
deriving DecidableEq

/-- Why a message of the stream does not fit the run. -/
inductive ProtocolFault where
  | undecodableValue (key : String) (cause : DecodeFault)
  | unknownTag (tag : String)
  | tooManyResults (expected : Nat)
  | notOneMessage
  | notOneOutcome
  | noFinalResult
deriving DecidableEq

/-- What can go wrong. -/
inductive Failure where
  | construction (cause : Refusal)
  | unexpectedKind (expected actual : ValueKind)
  | enumTypeMismatch (expected actual : String)
  | unknownVariant (enumType variant : String)
  | protocol (messageIndex : Nat) (cause : ProtocolFault)
  | malformed (cause : Malformation)
  | remote (text : String)
  | transport (cause : TransportFault)
  | handler (part reason : String)
  | cancelled
  | settings (cause : SettingsFault)
  | serialization
deriving DecidableEq

/-- A decoding fault as a failure of its own. -/
def DecodeFault.toFailure : DecodeFault → Failure
  | .malformed cause => .malformed cause
  | .refused cause => .construction cause

def DecodeFault.message : DecodeFault → String
  | .malformed cause => "Malformed wire value: " ++ cause.message
  | .refused cause => "Construction error: " ++ cause.message

def ProtocolFault.message : ProtocolFault → String
  | undecodableValue key cause => "value for key '" ++ key ++ "': " ++ cause.message
  | unknownTag tag => "result for unknown part tag '" ++ tag ++ "'"
  | tooManyResults expected =>
    "expected at most " ++ toString expected ++ " part results, got another one"
  | notOneMessage =>
    "expected exactly one of logMessage, pipelinePartResult, finalResult"
  | notOneOutcome => "final result must carry exactly one of success or error"
  | noFinalResult => "stream ended without a final result"

/-- The name of the kind of failure. -/
def Failure.kind : Failure → String
  | construction _ => "Construction"
  | unexpectedKind _ _ => "UnexpectedValueKind"
  | enumTypeMismatch _ _ => "EnumTypeMismatch"
  | unknownVariant _ _ => "UnknownEnumVariant"
  | protocol _ _ => "Protocol"
  | malformed _ => "MalformedWire"
  | remote _ => "Remote"
  | transport _ => "Transport"
  | handler _ _ => "Handler"
  | cancelled => "Cancelled"
  | settings _ => "Config"
  | serialization => "Serialization"

/-- The text that a user sees. -/
def Failure.message : Failure → String
  | construction cause => "Construction error: " ++ cause.message
  | unexpectedKind expected actual =>
    "Unexpected value kind: expected " ++ expected.name ++ ", got " ++ actual.name
  | enumTypeMismatch expected actual =>
    "Enum type mismatch: expected " ++ expected ++ ", got " ++ actual
  | unknownVariant enumType variant =>
    "Unknown variant '" ++ variant ++ "' for enum " ++ enumType
  | protocol index cause =>
    "Protocol error at message " ++ toString index ++ ": " ++ cause.message
  | malformed cause => "Malformed wire value: " ++ cause.message
  | remote text => text
  | transport cause => "Transport error: " ++ cause.message
  | handler part reason => "Handler for part " ++ part ++ " failed: " ++ reason
  | cancelled => "Execution cancelled"
  | settings cause => "Configuration error: " ++ cause.message
  | serialization => "Serialization error: " ++ Failure.unspecified

end MiningPipelines
