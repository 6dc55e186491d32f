import MiningPipelines.Text.Blank
import MiningPipelines.Text.Digits
import MiningPipelines.Text.Percent

/-!
# Addresses on the web

A URL that a post can go to, in its parts. `Url.parse?` reads what people write: it looks
past line breaks, takes either slash, resolves the dots of a path, and drops credentials
and the number of a service that goes without saying. `Url.text` writes the one form in
which a client names the address.
-/

namespace MiningPipelines

namespace Url

/-- How to speak to a host. -/
inductive Scheme where
  | http
  | https
deriving DecidableEq

namespace Scheme

def name : Scheme → String
  | http => "http"
  | https => "https"

/-- The number of the service that goes without saying. -/
def service : Scheme → Nat
  | http => 80
  | https => 443

/-- The scheme with a name, in any case. -/
def ofName? (cs : List Char) : Option Scheme :=
  [http, https].find? fun s => s.name.toList == lowerAscii cs

end Scheme

end Url

/-- An address: a host, segments of a path, and what may follow them. The texts are
percent-encoded. -/
structure Url where
  scheme : Url.Scheme
  host : String
  /-- The number of a service at the host other than that of the scheme. -/
  service : Option Nat
  path : List String
  query : Option String
  fragment : Option String
deriving DecidableEq

namespace Url

/-! ## Writing -/

/-- The part of an address after a mark, if it is there. -/
def marked (mark : String) : Option String → String
  | some text => mark ++ text
  | none => ""

/-- The text of an address. -/
def text (u : Url) : String :=
  u.scheme.name ++ "://" ++ u.host ++ marked ":" (u.service.map toString) ++
    String.join (u.path.map ("/" ++ ·)) ++ marked "?" u.query ++ marked "#" u.fragment

/-! ## Parts of a text -/

def isSlash (c : Char) : Bool := c == '/' || c == '\\'

/-- A control character, or a space. -/
def isControl (c : Char) : Bool := c.toNat ≤ 0x20

/-- A character that may stand anywhere without a meaning. -/
def isBreak (c : Char) : Bool := c == '\t' || c == '\n' || c == '\r'

/-- What is left of a text without controls at its ends and breaks inside it. -/
def clean (cs : List Char) : List Char :=
  (trimBy isControl cs).filter (!isBreak ·)

/-- The segments between slashes. -/
def segments : List Char → List (List Char)
  | [] => [[]]
  | c :: cs =>
    if isSlash c then [] :: segments cs
    else
      match segments cs with
      | [] => [[c]]
      | first :: rest => (c :: first) :: rest

/-! ## Hosts and services -/

/-- A character that the name of a host cannot have. -/
def isForbidden (c : Char) : Bool := !isVisible c || "#%/:<>?@[\\]^|".toList.contains c

/-- The host with a name, which is in ASCII. -/
def host? (cs : List Char) : Option String :=
  if cs.isEmpty || cs.any isForbidden then none else some (String.ofList (lowerAscii cs))

/-- Reads the number of a service, of 16 bits. An empty one is that of the scheme. -/
def service? (scheme : Scheme) (cs : List Char) : Option (Option Nat) :=
  if cs.isEmpty then some none
  else do
    let n ← decimal? cs
    if n < UInt16.size then some (if n = scheme.service then none else some n) else none

/-- Without the credentials, which end at the last at sign. -/
def dropCredentials (cs : List Char) : List Char :=
  (cs.reverse.takeWhile (· != '@')).reverse

/-- Reads a host and perhaps the number of a service. -/
def authority? (scheme : Scheme) (cs : List Char) : Option (String × Option Nat) := do
  let (name, digits) := cutAt ':' (dropCredentials cs)
  some (← host? name, ← service? scheme (digits.getD []))

/-! ## Paths -/

/-- The segment stands for the place where it is. -/
def isHere (segment : List Char) : Bool :=
  [".", "%2e"].contains (String.ofList (lowerAscii segment))

/-- The segment stands for the place above. -/
def isAbove (segment : List Char) : Bool :=
  ["..", ".%2e", "%2e.", "%2e%2e"].contains (String.ofList (lowerAscii segment))

/-- The segment names a drive: a letter and a colon or a bar. -/
def isDrive : List Char → Bool
  | [letter, mark] => letter.isAlpha && (mark == ':' || mark == '|')
  | _ => false

/-- The place above that of some segments, the last one first. Nothing is above the top or
above a drive. -/
def above : List (List Char) → List (List Char)
  | [] => []
  | last :: rest => if isDrive last then last :: rest else rest

/-- The place that a segment leads to, both with the last one first. -/
def step (place : List (List Char)) (segment : List Char) : List (List Char) :=
  if isAbove segment then above place
  else if isHere segment then place
  else segment :: place

/-- Resolves the segments that are dots. One at the end leaves an empty segment. -/
def resolve (path : List (List Char)) : List (List Char) :=
  let ends := path.getLast?.any fun last => isHere last || isAbove last
  ((path ++ if ends then [[]] else []).foldl step []).reverse

/-! ## Reading -/

def pathEscapes : List Char := "\"#<>?`\x7b\x7d".toList

def queryEscapes : List Char := "\"#'<>".toList

def fragmentEscapes : List Char := "\"<>`".toList

def encode (escapes cs : List Char) : String := String.ofList (Percent.encode escapes cs)

/-- Reads an address. -/
def parse? (s : String) : Option Url := do
  let (name, rest) := cutAt ':' (clean s.toList)
  let scheme ← Scheme.ofName? name
  let (rest, fragment) := cutAt '#' ((← rest).dropWhile isSlash)
  let (rest, query) := cutAt '?' rest
  let (authority, path) := rest.span (!isSlash ·)
  let (host, service) ← authority? scheme authority
  some {
    scheme, host, service
    path := (resolve (segments path.tail)).map (encode pathEscapes)
    query := query.map (encode queryEscapes)
    fragment := fragment.map (encode fragmentEscapes) }

end Url

end MiningPipelines
