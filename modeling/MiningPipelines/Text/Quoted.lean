import MiningPipelines.Text.Unprintable

/-!
# Quoted text for logs

A text between quotes, on one line and readable: quotes and backslashes are escaped, the
usual controls have letters, and other characters without a glyph are written by their
code point.
-/

namespace MiningPipelines

namespace Quoted

/-- The code point in hexadecimal, lower case, without leading zeros. -/
def codePoint (n : Nat) : List Char := Nat.toDigits 16 n

/-- One character of a quoted text. -/
def char (c : Char) : List Char :=
  if c = '\x00' then ['\\', '0']
  else if c = '\t' then ['\\', 't']
  else if c = '\r' then ['\\', 'r']
  else if c = '\n' then ['\\', 'n']
  else if c = '"' then ['\\', '"']
  else if c = '\\' then ['\\', '\\']
  else if isUnprintable c then
    ['\\', 'u', '\x7b'] ++ codePoint c.toNat ++ ['\x7d']
  else [c]

end Quoted

/-- A text in quotes. -/
def quoted (s : String) : String :=
  "\"" ++ String.ofList (s.toList.flatMap Quoted.char) ++ "\""

/-- Texts in quotes between brackets. -/
def quotedTexts (items : List String) : String :=
  "[" ++ ", ".intercalate (items.map quoted) ++ "]"

end MiningPipelines
