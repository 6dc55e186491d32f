import MiningPipelines.Json.Numeral
import MiningPipelines.Text.Hex

/-!
# Reading JSON text

`Document.parse` reads one JSON text from bytes. It checks the form of the whole text and
builds a `Document`, in which parts that have a form but no value are `unreadable`.

A step returns what it read and the bytes that follow. The fuel of the three mutual
functions counts calls. Two calls read at least one byte, so twice the length is enough.
-/

namespace MiningPipelines

namespace Document

/-- The byte of an ASCII character. -/
def byte (c : Char) : UInt8 := c.toUInt8

/-- Space, tab, line feed and carriage return. -/
def isBlank (b : UInt8) : Bool := b == 0x20 || b == 0x09 || b == 0x0a || b == 0x0d

def skipBlank (bs : Bytes) : Bytes := bs.dropWhile isBlank

/-- Drops the bytes of `word` from the front. -/
def dropWord : Bytes → Bytes → Option Bytes
  | [], bs => some bs
  | _ :: _, [] => none
  | w :: ws, b :: bs => if w = b then dropWord ws bs else none

/-! ## Strings -/

/-- What a string is written with: a byte as it is, or a code unit escaped. -/
inductive Piece where
  | raw (b : UInt8)
  | unit (u : Nat)

def hexDigit? (b : UInt8) : Option Nat := Hex.digit? (Char.ofNat b.toNat)

def hexUnit? (a b c d : UInt8) : Option Nat := do
  let a ← hexDigit? a
  let b ← hexDigit? b
  let c ← hexDigit? c
  let d ← hexDigit? d
  some (((a * 16 + b) * 16 + c) * 16 + d)

/-- The byte that a one-letter escape stands for. -/
def escaped? (b : UInt8) : Option UInt8 :=
  if b = byte '"' ∨ b = byte '\\' ∨ b = byte '/' then some b
  else if b = byte 'b' then some 0x08
  else if b = byte 'f' then some 0x0c
  else if b = byte 'n' then some 0x0a
  else if b = byte 'r' then some 0x0d
  else if b = byte 't' then some 0x09
  else none

/-- The pieces of a string whose opening quote has been read. -/
def pieces : Bytes → Option (List Piece × Bytes)
  | [] => none
  | [b] => if b = byte '"' then some ([], []) else none
  | b :: c :: rest =>
    if b = byte '"' then some ([], c :: rest)
    else if b < 0x20 then none
    else if b ≠ byte '\\' then
      (pieces (c :: rest)).map fun (ps, after) => (.raw b :: ps, after)
    else if c = byte 'u' then
      match rest with
      | h :: i :: j :: k :: rest => do
        let u ← hexUnit? h i j k
        let (ps, after) ← pieces rest
        some (.unit u :: ps, after)
      | _ => none
    else do
      let e ← escaped? c
      let (ps, after) ← pieces rest
      some (.raw e :: ps, after)

def isHighSurrogate (u : Nat) : Bool := 0xd800 ≤ u && u < 0xdc00

def isLowSurrogate (u : Nat) : Bool := 0xdc00 ≤ u && u < 0xe000

/-- The bytes that pieces stand for. A surrogate stands in a pair only. -/
def spell : List Piece → Option Bytes
  | [] => some []
  | .raw b :: ps => (spell ps).map (b :: ·)
  | [.unit u] =>
    if isHighSurrogate u || isLowSurrogate u then none
    else some (String.utf8EncodeChar (Char.ofNat u))
  | .unit u :: p :: ps =>
    if isLowSurrogate u then none
    else if isHighSurrogate u then
      match p with
      | .unit v =>
        if isLowSurrogate v then
          (spell ps).map fun bs =>
            String.utf8EncodeChar
              (Char.ofNat (0x10000 + (u - 0xd800) * 0x400 + (v - 0xdc00))) ++ bs
        else none
      | .raw _ => none
    else (spell (p :: ps)).map fun bs => String.utf8EncodeChar (Char.ofNat u) ++ bs

/-- The text that pieces stand for. -/
def textOfPieces? (ps : List Piece) : Option String := (spell ps).bind textOfBytes?

/-! ## Numerals -/

def isDigit (b : UInt8) : Bool := byte '0' ≤ b && b ≤ byte '9'

def digitsOf (bs : Bytes) : List Nat := bs.map fun b => (b - byte '0').toNat

/-- The digits at the front, at least one, and the rest. -/
def digits? (bs : Bytes) : Option (List Nat × Bytes) :=
  let ds := bs.takeWhile isDigit
  if ds.isEmpty then none else some (digitsOf ds, bs.dropWhile isDigit)

/-- The whole part: one zero, or digits that start with another. -/
def wholeDigits? (bs : Bytes) : Option (List Nat × Bytes) :=
  match digits? bs with
  | some (0 :: _ :: _, _) => none
  | result => result

/-- The fraction, if a point follows. -/
def fraction? : Bytes → Option (Option (List Nat) × Bytes)
  | [] => some (none, [])
  | b :: rest =>
    if b = byte '.' then (digits? rest).map fun (ds, after) => (some ds, after)
    else some (none, b :: rest)

/-- The exponent, if the letter for it follows. -/
def exponent? : Bytes → Option (Option (Bool × List Nat) × Bytes)
  | [] => some (none, [])
  | b :: rest =>
    if b = byte 'e' ∨ b = byte 'E' then
      let (below, rest) := match rest with
        | c :: after =>
          if c = byte '-' then (true, after)
          else if c = byte '+' then (false, after)
          else (false, rest)
        | [] => (false, [])
      (digits? rest).map fun (ds, after) => (some (below, ds), after)
    else some (none, b :: rest)

/-- A numeral at the front. -/
def numeral? (bs : Bytes) : Option (Numeral × Bytes) := do
  let (negative, bs) := match bs with
    | b :: rest => if b = byte '-' then (true, rest) else (false, bs)
    | [] => (false, [])
  let (whole, bs) ← wholeDigits? bs
  let (fraction, bs) ← fraction? bs
  let (exponent, bs) ← exponent? bs
  some (⟨negative, whole, fraction.getD [], exponent,
    fraction.isNone && exponent.isNone⟩, bs)

/-! ## Values -/

/-- The object with the given fields, if all their keys are texts. -/
def ofFields (fields : List (Option String × Document)) : Document :=
  match fields.mapM fun (k, d) => k.map (·, d) with
  | some fields => .object fields
  | none => .unreadable

mutual

/-- A value at the front. In it, `levels` more arrays or objects may nest. -/
def value : Nat → Nat → Bytes → Option (Document × Bytes)
  | 0, _, _ => none
  | fuel + 1, levels, bs =>
    match skipBlank bs with
    | [] => none
    | b :: rest =>
      if b = byte '"' then do
        let (ps, rest) ← pieces rest
        some (((textOfPieces? ps).map .text).getD .unreadable, rest)
      else if b = byte '[' then do
        let (items, rest) ← (match skipBlank rest with
          | [] => none
          | c :: after =>
            if c = byte ']' then some ([], after)
            else items fuel (levels - 1) (c :: after))
        some (if levels = 0 then .unreadable else .array items, rest)
      else if b = byte '\x7b' then do
        let (fields, rest) ← (match skipBlank rest with
          | [] => none
          | c :: after =>
            if c = byte '\x7d' then some ([], after)
            else fields fuel (levels - 1) (c :: after))
        some (if levels = 0 then .unreadable else .ofFields fields, rest)
      else if b = byte 't' then
        (dropWord (bytesOfText "rue") rest).map (.bool true, ·)
      else if b = byte 'f' then
        (dropWord (bytesOfText "alse") rest).map (.bool false, ·)
      else if b = byte 'n' then
        (dropWord (bytesOfText "ull") rest).map (.null, ·)
      else do
        let (n, rest) ← numeral? (b :: rest)
        some ((n.number?.map .number).getD .unreadable, rest)

/-- Items up to the closing bracket, at least one. -/
def items : Nat → Nat → Bytes → Option (List Document × Bytes)
  | 0, _, _ => none
  | fuel + 1, levels, bs => do
    let (d, bs) ← value fuel levels bs
    match skipBlank bs with
    | [] => none
    | b :: rest =>
      if b = byte ']' then some ([d], rest)
      else if b = byte ',' then do
        let (ds, rest) ← items fuel levels rest
        some (d :: ds, rest)
      else none

/-- Fields up to the closing brace, at least one. -/
def fields : Nat → Nat → Bytes → Option (List (Option String × Document) × Bytes)
  | 0, _, _ => none
  | fuel + 1, levels, bs =>
    match skipBlank bs with
    | [] => none
    | b :: rest =>
      if b ≠ byte '"' then none
      else do
        let (ps, bs) ← pieces rest
        match skipBlank bs with
        | [] => none
        | c :: rest =>
          if c ≠ byte ':' then none
          else do
            let (d, bs) ← value fuel levels rest
            let entry := (textOfPieces? ps, d)
            match skipBlank bs with
            | [] => none
            | b :: rest =>
              if b = byte '\x7d' then some ([entry], rest)
              else if b = byte ',' then do
                let (more, rest) ← fields fuel levels rest
                some (entry :: more, rest)
              else none

end

/-- The document of a JSON text, with blanks around it and nothing else. -/
def parse (bs : Bytes) : Option Document :=
  match value (2 * bs.length + 2) maxDepth bs with
  | some (d, rest) => if (skipBlank rest).isEmpty then some d else none
  | none => none

/-- The document of a JSON text. -/
def ofText (s : String) : Option Document := parse (bytesOfText s)

end Document

end MiningPipelines
