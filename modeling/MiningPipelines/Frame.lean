import MiningPipelines.Json.Parser
import MiningPipelines.Run
import MiningPipelines.Wire.Document

/-!
# Messages on lines

A response body is a JSON message on each line. It arrives in chunks that may end
anywhere, so a decoder takes off the lines that are complete and keeps the bytes behind the
last line feed until more bytes or the end of the body arrive. Blank lines are skipped, and
the last line needs no line feed.

A `FrameStream` gives the items one by one and reads a chunk only when none is ready.
`Frame.items` are those of a whole body. A body that breaks off yields the messages of its
complete lines and then a fault; what follows the last line feed is dropped, and nothing
behind the fault is read.
-/

namespace MiningPipelines

namespace Frame

def lineFeed : UInt8 := 0x0a

/-- A byte of white space: tab, line feed, form feed, carriage return or space. -/
def isBlankByte (b : UInt8) : Bool :=
  b == 0x09 || b == 0x0a || b == 0x0c || b == 0x0d || b == 0x20

/-- The message on a line. -/
def decode (line : Bytes) : Item :=
  match (Document.parse line).bind Wire.Message.ofDocument? with
  | some m => .ok m
  | none => .error (.malformed .undecodableFrame)

/-- What a line adds to the stream: nothing if it is blank. -/
def ofLine (line : Bytes) : Option Item :=
  if line.all isBlankByte then none else some (decode line)

end Frame

/-- A decoder of lines that arrive in chunks. -/
structure FrameDecoder where
  /-- The bytes behind the last line feed. -/
  buffer : Bytes
deriving DecidableEq

namespace FrameDecoder

def empty : FrameDecoder := ⟨[]⟩

/-- Takes lines off the front of a buffer, each with its line feed, as long as there is one.
Returns their items and what remains. -/
def drain (buffer : Bytes) : List Item × Bytes :=
  match _h : buffer.findIdx? (· == Frame.lineFeed) with
  | none => ([], buffer)
  | some position =>
    match drain (buffer.drop (position + 1)) with
    | (items, rest) => ((Frame.ofLine (buffer.take (position + 1))).toList ++ items, rest)
termination_by buffer.length
decreasing_by
  obtain ⟨hlt, -⟩ := List.findIdx?_eq_some_iff_getElem.1 _h
  rw [List.length_drop]
  omega

/-- Takes a chunk; returns the items of the lines that it completes. -/
def push (d : FrameDecoder) (chunk : Bytes) : List Item × FrameDecoder :=
  match drain (d.buffer ++ chunk) with
  | (items, rest) => (items, ⟨rest⟩)

/-- Ends the body; returns the item of the last line, if it is not blank. -/
def finish (d : FrameDecoder) : Option Item × FrameDecoder := (Frame.ofLine d.buffer, empty)

end FrameDecoder

/-- What reading a body gives, one after the other : a chunk, or none where reading fails. -/
abbrev Body := List (Option Bytes)

/-- A stream of the messages in a body. -/
structure FrameStream where
  /-- What has not been read. -/
  body : Body
  decoder : FrameDecoder
  /-- Items of lines that have been read. -/
  ready : List Item
  /-- The end has been read, or reading has failed. -/
  done : Bool

namespace FrameStream

/-- Before anything is read. -/
def start (body : Body) : FrameStream := ⟨body, .empty, [], false⟩

/-- Reads once: a chunk, a failure or the end of the body. -/
def read (s : FrameStream) : FrameStream :=
  match s.body with
  | [] =>
    match s.decoder.finish with
    | (item, decoder) => { s with decoder, ready := s.ready ++ item.toList, done := true }
  | none :: body =>
    { s with body, ready := s.ready ++ [.error (.transport .readFailed)], done := true }
  | some chunk :: body =>
    match s.decoder.push chunk with
    | (items, decoder) => { s with body, decoder, ready := s.ready ++ items }

/-- How often the body can still be read. -/
def pending (s : FrameStream) : Nat := if s.done then 0 else s.body.length + 1

theorem pending_read_lt {s : FrameStream} (h : s.done = false) : s.read.pending < s.pending := by
  unfold read
  split <;> simp [pending, *]

/-- The next item and the stream behind it. The body is read until an item is ready. -/
def next (s : FrameStream) : Option (Item × FrameStream) :=
  match s.ready with
  | x :: ready => some (x, { s with ready })
  | [] => if s.done then none else s.read.next
termination_by s.pending
decreasing_by exact pending_read_lt (by simpa using ‹¬s.done = true›)

/-- An item is taken from those that are ready, or the body is read. -/
theorem next_lt {s s' : FrameStream} {x : Item} (h : s.next = some (x, s')) :
    Prod.Lex (· < ·) (· < ·) (s'.pending, s'.ready.length) (s.pending, s.ready.length) := by
  fun_induction next s with
  | case1 s y ready hready =>
    obtain ⟨rfl, rfl⟩ := Prod.mk.inj (Option.some.inj h)
    rw [hready]
    exact Prod.Lex.right _ (Nat.lt_succ_self _)
  | case2 s hready hdone => cases h
  | case3 s hready hdone ih =>
    have hread : s.read.pending < s.pending := pending_read_lt (by simpa using hdone)
    have hle : s'.pending ≤ s.read.pending := by
      obtain hlt | ⟨heq, -⟩ := Prod.lex_def.1 (ih h)
      · exact Nat.le_of_lt hlt
      · exact Nat.le_of_eq heq
    exact Prod.Lex.left _ _ (Nat.lt_of_le_of_lt hle hread)

/-- All items, from the next one on. -/
def items (s : FrameStream) : List Item :=
  match _h : s.next with
  | none => []
  | some (x, s') => x :: s'.items
termination_by (s.pending, s.ready.length)
decreasing_by exact next_lt _h

end FrameStream

namespace Frame

/-- The body that arrives in chunks and may break off behind them. -/
def body (chunks : List Bytes) (broken : Bool) : Body :=
  chunks.map some ++ if broken then [none] else []

/-- The items of a body that arrives in chunks. -/
def items (chunks : List Bytes) (broken : Bool) : List Item :=
  (FrameStream.start (body chunks broken)).items

end Frame

end MiningPipelines
