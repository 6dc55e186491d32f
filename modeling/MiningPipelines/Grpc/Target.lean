import MiningPipelines.Text.Cut

/-!
# Targets of calls

The texts that say where calls go: a URL with a scheme and an authority, an authority
alone, or a path alone. `isTarget` takes a text as it is. Nothing is encoded or resolved,
and what a part cannot hold makes the whole text no target.
-/

namespace MiningPipelines

namespace Grpc

namespace Target

/-! ## Authorities -/

/-- A character of a host, of credentials, or of what else may stand beside a host. -/
def isAuthorityChar (c : Char) : Bool :=
  c.isAlphanum || "!$&'()*+,-.:;=@[]_~%".toList.contains c

/-- What counts in a part of an authority read so far. Credentials, which end with an at
sign, and an address in brackets may hold colons and percent signs. -/
structure Reading where
  colons : Nat
  percent : Bool
  opened : Bool
  closed : Bool
  atSign : Bool
deriving DecidableEq

namespace Reading

def start : Reading := ⟨0, false, false, false, false⟩

/-- The most colons without a bracket or an at sign behind them. -/
def maxColons : Nat := 8

/-- Reads one character. -/
def next (r : Reading) (c : Char) : Option Reading :=
  if !isAuthorityChar c then none
  else if c = ':' then
    if r.colons < maxColons then some { r with colons := r.colons + 1, atSign := false }
    else none
  else if c = '[' then
    if r.percent || r.opened then none else some { r with opened := true, atSign := false }
  else if c = ']' then
    if r.opened && !r.closed then some ⟨0, false, true, true, false⟩ else none
  else if c = '@' then some { r with colons := 0, percent := false, atSign := true }
  else some { r with percent := r.percent || c == '%', atSign := false }

/-- The authority may end here: a host, and at most one colon behind it. -/
def isComplete (r : Reading) : Bool :=
  r.opened == r.closed && r.colons ≤ 1 && !r.percent && !r.atSign

end Reading

def isAuthority (cs : List Char) : Bool :=
  (cs.foldlM Reading.next Reading.start).any Reading.isComplete

/-! ## Paths -/

def isPathChar (c : Char) : Bool := 0x20 < c.toNat && !"<>`".toList.contains c

def isQueryChar (c : Char) : Bool := 0x20 < c.toNat && !"\"<>".toList.contains c

/-- A path and perhaps a query. What stands behind a number sign does not matter. -/
def isPath (cs : List Char) : Bool :=
  let (path, query) := cutAt '?' (cutAt '#' cs).1
  path.all isPathChar && (query.getD []).all isQueryChar

/-! ## Schemes -/

def isSchemeChar (c : Char) : Bool := c.isAlphanum || "+-.~".toList.contains c

/-- The most characters of a scheme. -/
def maxScheme : Nat := 64

/-- The scheme of a text and what stands behind its two slashes. -/
def scheme? (cs : List Char) : Option (List Char × List Char) :=
  match cs.span isSchemeChar with
  | (scheme, ':' :: '/' :: '/' :: rest) => some (scheme, rest)
  | _ => none

/-- The character ends an authority. -/
def isEnd (c : Char) : Bool := c == '/' || c == '?' || c == '#'

/-- An authority and the path behind it. -/
def isLocation (cs : List Char) : Bool :=
  let (authority, path) := cs.span (!isEnd ·)
  !authority.isEmpty && isAuthority authority && isPath path

/-- The most bytes of a target. -/
def maxBytes : Nat := 65534

end Target

open Target in
/-- The text says where a call can go. -/
def isTarget (s : String) : Bool :=
  s != "" && s.utf8ByteSize ≤ maxBytes &&
    match scheme? s.toList, s.toList with
    | some (scheme, rest), _ => scheme.length ≤ maxScheme && isLocation rest
    | none, '/' :: path => isPath path
    | none, cs => isAuthority cs

end Grpc

end MiningPipelines
