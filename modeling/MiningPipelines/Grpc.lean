import MiningPipelines.Grpc.Target
import MiningPipelines.Proto.Message.Parser
import MiningPipelines.Proto.Message.Printer
import MiningPipelines.Proto.Wire
import MiningPipelines.Run
import MiningPipelines.Settings

/-!
# Runs over gRPC

A call sends one binary message and is answered by frames, each a binary message, and a
status. A request without a binary form is refused before anything is sent. A frame that
is no message ends the stream, and so does a status other than success.
-/

namespace MiningPipelines

namespace Grpc

/-- The names of the status codes from 1 on. -/
def codeNames : List String :=
  ["Cancelled", "Unknown", "InvalidArgument", "DeadlineExceeded", "NotFound",
    "AlreadyExists", "PermissionDenied", "ResourceExhausted", "FailedPrecondition",
    "Aborted", "OutOfRange", "Unimplemented", "Internal", "Unavailable", "DataLoss",
    "Unauthenticated"]

/-- The name of a status code other than success. -/
def codeName (code : Nat) : String := codeNames.getD (code - 1) "Unknown"

/-- How a call ended. Zero is success. -/
structure Status where
  code : Nat
  text : String
deriving DecidableEq

namespace Status

def ok : Status := ⟨0, ""⟩

def isOk (s : Status) : Bool := s.code == 0

def fault (s : Status) : Failure := .transport (.status (codeName s.code) s.text)

/-- The fault of a frame that is no message. -/
def undecodable : Failure :=
  .transport (.status "Internal" ("failed to decode Protobuf message: " ++ Failure.unspecified))

/-- The fault of an answer without the message that was asked for. -/
def missingMessage : Failure := .transport (.status "Internal" "Missing response message.")

end Status

/-- The frames of an answer and the status behind them. -/
structure Answer where
  frames : List Bytes
  status : Status
deriving DecidableEq

/-- A binary message sent to a method. -/
structure Call where
  path : String
  bytes : Bytes
deriving DecidableEq

/-- What comes of a call. -/
inductive Connection where
  | refused (reason : String)
  | answered (answer : Answer)
deriving DecidableEq

abbrev Network := Call → Connection

/-- The method that runs pipelines. -/
def executePath : String := "/ficus.GrpcBackendService/ExecutePipeline"

/-- The method that looks up values of finished executions. -/
def contextPath : String := "/ficus.GrpcBackendService/GetContextValue"

/-- Refuses invalid settings, and a URL that a call cannot go to. -/
def checkUrl (s : Settings) : Except SettingsFault Unit := do
  s.validate
  if !isTarget s.backendUrl then throw (.invalidUrl s.backendUrl)

/-- Calls a method. -/
def call (s : Settings) (network : Network) (c : Call) : Except Failure Answer :=
  match network c with
  | .refused reason => .error (.transport (.unreachable s.backendUrl reason))
  | .answered answer => .ok answer

/-- The message in a frame. -/
def decode (frame : Bytes) : Item :=
  match Proto.Message.parse frame with
  | some m => m.receive
  | none => .error Status.undecodable

/-- The items of an answer: one for each frame, and one for a status that is no
success. -/
def items (answer : Answer) : List Item :=
  answer.frames.map decode ++
    if answer.status.isOk then [] else [.error answer.status.fault]

/-- Opens the stream of an answer. Without frames the status alone decides. -/
def opening (answer : Answer) : Opening :=
  if answer.frames.isEmpty && !answer.status.isOk then .refused answer.status.fault
  else .opened ((items answer).map .item)

/-- Submits a request and opens the stream of its messages. -/
def submit (s : Settings) (network : Network) (r : Wire.Request) : Exchange :=
  match r.toProto with
  | .error cause => ⟨[], .refused (.malformed cause)⟩
  | .ok message =>
    { logs := [.ofGrpc ("Opening gRPC pipeline stream at " ++ s.backendUrl)]
      opening :=
        match call s network ⟨executePath, message.print⟩ with
        | .error cause => .refused cause
        | .ok answer => Grpc.opening answer }

/-- Looks up a value of a finished execution. -/
def lookup (s : Settings) (network : Network) (r : Wire.ContextRequest) :
    Except Failure Wire.ContextReply := do
  let answer ← call s network ⟨contextPath, r.toProto.print⟩
  match answer.frames with
  | [] => throw (if answer.status.isOk then Status.missingMessage else answer.status.fault)
  | frame :: _ =>
    match Proto.ContextReply.parse frame with
    | none => throw Status.undecodable
    | some reply =>
      if answer.status.isOk then reply.receive else throw answer.status.fault

/-- A client for valid settings. -/
def client (s : Settings) (network : Network) : Except SettingsFault Client := do
  checkUrl s
  .ok ⟨submit s network, lookup s network⟩

end Grpc

end MiningPipelines
