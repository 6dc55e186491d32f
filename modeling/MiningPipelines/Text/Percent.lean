import MiningPipelines.Text.Bytes

/-!
# Percent-encoded text

Text in visible ASCII characters. Whatever is not one of them, and the characters that the
place of the text needs for itself, are written by their UTF-8 bytes, each as a percent
sign and two digits. A percent sign stays as it is, so that encoded text can pass.
-/

namespace MiningPipelines

/-- A character of ASCII with a glyph of its own; the space is none. -/
def isVisible (c : Char) : Bool := 0x20 < c.toNat && c.toNat < 0x7f

namespace Percent

/-- A byte as a percent sign and two hexadecimal digits, capitals. -/
def ofByte (b : UInt8) : List Char :=
  ['%', (Nat.digitChar (b.toNat / 16)).toUpper, (Nat.digitChar (b.toNat % 16)).toUpper]

/-- One character of an encoded text. -/
def ofChar (escapes : List Char) (c : Char) : List Char :=
  if isVisible c && !escapes.contains c then [c]
  else (String.utf8EncodeChar c).flatMap ofByte

/-- A text as it is written where `escapes` have a meaning of their own. -/
def encode (escapes cs : List Char) : List Char := cs.flatMap (ofChar escapes)

end Percent

end MiningPipelines
