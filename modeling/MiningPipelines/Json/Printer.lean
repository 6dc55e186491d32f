import MiningPipelines.Json.Basic
import MiningPipelines.Text.Hex

/-!
# Writing JSON text

`Document.print` writes a document without blanks, fields in their order. In a string,
quotes, backslashes and control characters are escaped and everything else stands as it
is.
-/

namespace MiningPipelines

namespace Document

/-- The written form of one character of a string. -/
def escapeChar (c : Char) : List Char :=
  if c = '"' then ['\\', '"']
  else if c = '\\' then ['\\', '\\']
  else if c = '\x08' then ['\\', 'b']
  else if c = '\x0c' then ['\\', 'f']
  else if c = '\n' then ['\\', 'n']
  else if c = '\r' then ['\\', 'r']
  else if c = '\t' then ['\\', 't']
  else if c.toNat < 0x20 then ['\\', 'u'] ++ Hex.digits c.toNat 4
  else [c]

/-- A string in quotes. -/
def quote (s : String) : String :=
  "\"" ++ String.ofList (s.toList.flatMap escapeChar) ++ "\""

end Document

/-- The JSON text of a number. -/
def Json.Number.print : Json.Number → String
  | .natural n => toString n.toNat
  | .negative n => "-" ++ toString n.toInt.natAbs
  | .real x => x.json

namespace Document

mutual

/-- The JSON text of a document. -/
def print : Document → String
  | .null => "null"
  | .bool b => if b then "true" else "false"
  | .number n => n.print
  | .single x => x.json
  | .text s => quote s
  | .array items => "[" ++ printItems items ++ "]"
  | .object fields => "\x7b" ++ printFields fields ++ "\x7d"
  | .unreadable => "null"

/-- The texts of the items with commas between them. -/
def printItems : List Document → String
  | [] => ""
  | [d] => d.print
  | d :: e :: rest => d.print ++ "," ++ printItems (e :: rest)

/-- The texts of the fields with commas between them. -/
def printFields : List (String × Document) → String
  | [] => ""
  | [(k, d)] => quote k ++ ":" ++ d.print
  | (k, d) :: e :: rest => quote k ++ ":" ++ d.print ++ "," ++ printFields (e :: rest)

end

end Document

namespace Document

/-- The escape of a code unit. -/
def escapeUnit (u : Nat) : List Char := '\\' :: 'u' :: Hex.digits u 4

/-- A character in ASCII; others are written by one code unit or by a surrogate pair. -/
def asciiChar (c : Char) : List Char :=
  let n := c.toNat
  if n < 0x80 then [c]
  else if n < 0x10000 then escapeUnit n
  else escapeUnit (0xd800 + (n - 0x10000) / 0x400) ++ escapeUnit (0xdc00 + (n - 0x10000) % 0x400)

/-- The JSON text of a document in ASCII; other characters stand in strings only. -/
def printAscii (d : Document) : String := String.ofList (d.print.toList.flatMap asciiChar)

end Document

/-- The JSON text of a value. -/
def Json.print (v : Json) : String := v.toDocument.print

end MiningPipelines
