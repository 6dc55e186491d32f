import MiningPipelines.Frame
import MiningPipelines.Json.Printer
import MiningPipelines.Settings
import MiningPipelines.Url

/-!
# Runs over HTTP

A request is posted as JSON to a route of the engine, which answers a run with messages on
lines. The network is a function from a post to what comes of it, so a whole exchange is
computed from the settings and that function.
-/

namespace MiningPipelines

namespace Http

/-- A JSON text posted to a URL. -/
structure Post where
  url : String
  body : String
deriving DecidableEq

/-- An answer: its status and the chunks of its body, which may break off. -/
structure Answer where
  status : Nat
  chunks : List Bytes
  broken : Bool
deriving DecidableEq

/-- What comes of a post. -/
inductive Connection where
  | refused (reason : String)
  | answered (answer : Answer)
deriving DecidableEq

abbrev Network := Post → Connection

/-! ## Status codes -/

/-- The standard phrases of status codes. -/
def reasons : List (Nat × String) :=
  [(100, "Continue"), (101, "Switching Protocols"), (102, "Processing"),
    (103, "Early Hints"), (200, "OK"), (201, "Created"), (202, "Accepted"),
    (203, "Non Authoritative Information"), (204, "No Content"), (205, "Reset Content"),
    (206, "Partial Content"), (207, "Multi-Status"), (208, "Already Reported"),
    (226, "IM Used"), (300, "Multiple Choices"), (301, "Moved Permanently"),
    (302, "Found"), (303, "See Other"), (304, "Not Modified"), (305, "Use Proxy"),
    (307, "Temporary Redirect"), (308, "Permanent Redirect"), (400, "Bad Request"),
    (401, "Unauthorized"), (402, "Payment Required"), (403, "Forbidden"),
    (404, "Not Found"), (405, "Method Not Allowed"), (406, "Not Acceptable"),
    (407, "Proxy Authentication Required"), (408, "Request Timeout"), (409, "Conflict"),
    (410, "Gone"), (411, "Length Required"), (412, "Precondition Failed"),
    (413, "Payload Too Large"), (414, "URI Too Long"), (415, "Unsupported Media Type"),
    (416, "Range Not Satisfiable"), (417, "Expectation Failed"), (418, "I'm a teapot"),
    (421, "Misdirected Request"), (422, "Unprocessable Entity"), (423, "Locked"),
    (424, "Failed Dependency"), (425, "Too Early"), (426, "Upgrade Required"),
    (428, "Precondition Required"), (429, "Too Many Requests"),
    (431, "Request Header Fields Too Large"), (451, "Unavailable For Legal Reasons"),
    (500, "Internal Server Error"), (501, "Not Implemented"), (502, "Bad Gateway"),
    (503, "Service Unavailable"), (504, "Gateway Timeout"),
    (505, "HTTP Version Not Supported"), (506, "Variant Also Negotiates"),
    (507, "Insufficient Storage"), (508, "Loop Detected"), (510, "Not Extended"),
    (511, "Network Authentication Required")]

/-- A status code with its phrase. -/
def statusLine (status : Nat) : String :=
  toString status ++ " " ++ (reasons.lookup status).getD "<unknown status code>"

def isSuccess (status : Nat) : Bool := 200 ≤ status && status < 300

/-! ## Posts that were not sent -/

/-- What a client reports about a post that was not sent. A post without an address that
can be read is not even built. -/
def unsent (p : Post) : String :=
  match Url.parse? p.url with
  | some url => "error sending request for url (" ++ url.text ++ ")"
  | none => "builder error"

/-! ## Exchanges -/

/-- Posts a document to a route; the answer counts if its status says success. -/
def post (s : Settings) (network : Network) (route : String) (body : Document) :
    Except Failure Answer :=
  let url := s.endpoint route
  match network ⟨url, body.print⟩ with
  | .refused reason => .error (.transport (.unreachable url reason))
  | .answered answer =>
    if isSuccess answer.status then .ok answer
    else .error (.transport (.answered url (statusLine answer.status)))

/-- Submits a request and opens the stream of its messages. -/
def submit (s : Settings) (network : Network) (r : Wire.Request) : Exchange where
  logs := [.ofHttp ("Opening pipeline stream at " ++ s.endpoint Settings.executeRoute)]
  opening :=
    match post s network Settings.executeRoute r.toDocument with
    | .error cause => .refused cause
    | .ok answer => .opened ((Frame.items answer.chunks answer.broken).map .item)

/-- Looks up a value of a finished execution. -/
def lookup (s : Settings) (network : Network) (r : Wire.ContextRequest) :
    Except Failure Wire.ContextReply := do
  let answer ← post s network Settings.contextRoute r.toDocument
  if answer.broken then
    throw (.transport (.replyReadFailed (s.endpoint Settings.contextRoute)))
  match (Document.parse answer.chunks.flatten).bind Wire.ContextReply.ofDocument? with
  | some reply => .ok reply
  | none => throw (.malformed .undecodableReply)

/-- A client for valid settings. -/
def client (s : Settings) (network : Network) : Except SettingsFault Client := do
  s.validate
  .ok ⟨submit s network, lookup s network⟩

end Http

end MiningPipelines
