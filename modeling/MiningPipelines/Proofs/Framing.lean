import Mathlib.Data.List.Basic
import MiningPipelines.Frame

/-!
# Lines and chunks

The bytes of a body determine its lines and the tail behind the last line feed, and the lines
determine the messages. `FrameDecoder.drain` takes off exactly the lines
(`FrameDecoder.drain_of_split`), and `FrameDecoder.push` keeps the tail of all the bytes so far.
So it does not matter where the chunks end : what a chunk adds to a tail are the lines that it
adds to all the bytes before it. `FrameStream.Yields` follows a stream from one state to another,
one read or one item after the other.
-/

namespace MiningPipelines

namespace Frame

/-! ## Lines -/

/-- The bytes end in a line feed and hold no other. -/
def IsLine (line : Bytes) : Prop := ∃ front, line = front ++ [lineFeed] ∧ lineFeed ∉ front

/-- The bytes are the lines one after the other, and then the tail. -/
structure Split (bytes : Bytes) (lines : List Bytes) (tail : Bytes) : Prop where
  bytes : bytes = lines.flatten ++ tail
  lines : ∀ line ∈ lines, IsLine line
  tail : lineFeed ∉ tail

/-- The lines that end in a line feed, and the bytes behind the last one. -/
def splitLines : Bytes → List Bytes × Bytes
  | [] => ([], [])
  | b :: rest =>
    match splitLines rest with
    | (lines, tail) =>
      if b = lineFeed then ([lineFeed] :: lines, tail)
      else match lines with
        | [] => ([], b :: tail)
        | line :: lines => ((b :: line) :: lines, tail)

theorem IsLine.cons {b : UInt8} {line : Bytes} (hb : b ≠ lineFeed) (h : IsLine line) :
    IsLine (b :: line) := by
  obtain ⟨front, rfl, hfront⟩ := h
  exact ⟨b :: front, rfl, List.not_mem_cons_of_ne_of_not_mem (Ne.symm hb) hfront⟩

theorem split_splitLines (bytes : Bytes) :
    Split bytes (splitLines bytes).1 (splitLines bytes).2 := by
  fun_induction splitLines bytes with
  | case1 => exact ⟨rfl, List.forall_mem_nil _, List.not_mem_nil⟩
  | case2 rest lines tail hrest ih =>
    rw [hrest] at ih
    have hline : IsLine [lineFeed] := ⟨[], rfl, List.not_mem_nil⟩
    exact ⟨by rw [ih.bytes]; rfl, List.forall_mem_cons.2 ⟨hline, ih.lines⟩, ih.tail⟩
  | case3 b rest tail hb hrest ih =>
    rw [hrest] at ih
    exact ⟨by rw [ih.bytes]; rfl, ih.lines, List.not_mem_cons_of_ne_of_not_mem (Ne.symm hb) ih.tail⟩
  | case4 b rest tail hb line lines hrest ih =>
    rw [hrest] at ih
    obtain ⟨hline, hlines⟩ := List.forall_mem_cons.1 ih.lines
    exact ⟨by rw [ih.bytes]; rfl, List.forall_mem_cons.2 ⟨hline.cons hb, hlines⟩, ih.tail⟩

theorem splitLines_of_not_mem {tail : Bytes} (h : lineFeed ∉ tail) :
    splitLines tail = ([], tail) := by
  induction tail with
  | nil => rfl
  | cons b tail ih =>
    have hb : b ≠ lineFeed := (List.ne_of_not_mem_cons h).symm
    simp [splitLines, ih (List.not_mem_of_not_mem_cons h), hb]

theorem splitLines_line {line : Bytes} (h : IsLine line) (rest : Bytes) :
    splitLines (line ++ rest) = (line :: (splitLines rest).1, (splitLines rest).2) := by
  obtain ⟨front, rfl, hfront⟩ := h
  induction front with
  | nil => rfl
  | cons b front ih =>
    have hb : b ≠ lineFeed := (List.ne_of_not_mem_cons hfront).symm
    rw [List.cons_append, List.cons_append, splitLines, ih (List.not_mem_of_not_mem_cons hfront)]
    exact if_neg hb

/-- Bytes can be split into lines and a tail in one way only. -/
theorem Split.splitLines_eq {bytes tail : Bytes} {lines : List Bytes}
    (h : Split bytes lines tail) : splitLines bytes = (lines, tail) := by
  obtain ⟨rfl, hlines, htail⟩ := h
  induction lines with
  | nil => exact splitLines_of_not_mem htail
  | cons line lines ih =>
    obtain ⟨hline, hrest⟩ := List.forall_mem_cons.1 hlines
    rw [List.flatten_cons, List.append_assoc, splitLines_line hline, ih hrest]

/-- Bytes that follow others add lines to the tail that the others leave. -/
theorem splitLines_append (bytes more : Bytes) :
    splitLines (bytes ++ more) =
      ((splitLines bytes).1 ++ (splitLines ((splitLines bytes).2 ++ more)).1,
        (splitLines ((splitLines bytes).2 ++ more)).2) := by
  have hbytes := split_splitLines bytes
  have hmore := split_splitLines ((splitLines bytes).2 ++ more)
  refine Split.splitLines_eq ⟨?_, ?_, hmore.tail⟩
  · calc bytes ++ more
        = (splitLines bytes).1.flatten ++ ((splitLines bytes).2 ++ more) := by
          rw [← List.append_assoc, ← hbytes.bytes]
      _ = _ := by rw [List.flatten_append, List.append_assoc, ← hmore.bytes]
  · exact List.forall_mem_append.2 ⟨hbytes.lines, hmore.lines⟩

/-! ## Items of lines -/

/-- The items of lines : one for each that is not blank. -/
def itemsOf (lines : List Bytes) : List Item :=
  (lines.filter fun line => !line.all isBlankByte).map decode

theorem itemsOf_append (lines more : List Bytes) :
    itemsOf (lines ++ more) = itemsOf lines ++ itemsOf more := by
  rw [itemsOf, List.filter_append, List.map_append, itemsOf, itemsOf]

theorem toList_ofLine (line : Bytes) : (ofLine line).toList = itemsOf [line] := by
  rw [itemsOf, ofLine, List.filter_cons]
  cases line.all isBlankByte <;> rfl

/-- A line is a message, or it is reported that it is none. -/
theorem decode_eq_ok_or_malformed (line : Bytes) :
    (∃ m, decode line = .ok m) ∨ decode line = .error (.malformed .undecodableFrame) := by
  rw [decode]
  cases (Document.parse line).bind Wire.Message.ofDocument? with
  | none => exact .inr rfl
  | some m => exact .inl ⟨m, rfl⟩

end Frame

/-! ## Decoders -/

namespace FrameDecoder

theorem drain_of_not_mem {tail : Bytes} (h : Frame.lineFeed ∉ tail) : drain tail = ([], tail) := by
  have hnone : tail.findIdx? (· == Frame.lineFeed) = none :=
    List.findIdx?_eq_none_iff.2 fun b hb => beq_false_of_ne (ne_of_mem_of_not_mem hb h)
  unfold drain
  split
  · rfl
  · next hsome => rw [hnone] at hsome; cases hsome

/-- The first line is taken off, and draining goes on behind it. -/
theorem drain_line {line : Bytes} (h : Frame.IsLine line) (rest : Bytes) :
    drain (line ++ rest) = (Frame.itemsOf [line] ++ (drain rest).1, (drain rest).2) := by
  obtain ⟨front, rfl, hfront⟩ := h
  have hposition : (front ++ [Frame.lineFeed] ++ rest).findIdx? (· == Frame.lineFeed) =
      some front.length := by
    have hnone : front.findIdx? (· == Frame.lineFeed) = none :=
      List.findIdx?_eq_none_iff.2 fun b hb => beq_false_of_ne (ne_of_mem_of_not_mem hb hfront)
    rw [List.append_assoc, List.findIdx?_append, hnone, List.singleton_append, List.findIdx?_cons]
    simp
  rw [← Frame.toList_ofLine, drain]
  split
  · next hnone => rw [hposition] at hnone; cases hnone
  · next position hsome =>
    obtain rfl := Option.some.inj (hposition.symm.trans hsome)
    have hlength : front.length + 1 = (front ++ [Frame.lineFeed]).length := by simp
    rw [hlength, List.take_left, List.drop_left]

/-- Draining takes all complete lines off, each by itself. -/
theorem drain_of_split {bytes tail : Bytes} {lines : List Bytes}
    (h : Frame.Split bytes lines tail) : drain bytes = (Frame.itemsOf lines, tail) := by
  obtain ⟨rfl, hlines, htail⟩ := h
  induction lines with
  | nil => exact drain_of_not_mem htail
  | cons line lines ih =>
    obtain ⟨hline, hrest⟩ := List.forall_mem_cons.1 hlines
    have hitems : Frame.itemsOf (line :: lines) = Frame.itemsOf [line] ++ Frame.itemsOf lines :=
      Frame.itemsOf_append [line] lines
    rw [List.flatten_cons, List.append_assoc, drain_line hline, ih hrest, hitems]

/-- A chunk completes the lines in the bytes behind the last line feed and its own. -/
theorem push_eq (d : FrameDecoder) (chunk : Bytes) :
    d.push chunk = (Frame.itemsOf (Frame.splitLines (d.buffer ++ chunk)).1,
      ⟨(Frame.splitLines (d.buffer ++ chunk)).2⟩) := by
  rw [push, drain_of_split (Frame.split_splitLines _)]

/-- A decoder that was given chunks. -/
def after (chunks : List Bytes) : FrameDecoder :=
  chunks.foldl (fun d chunk => (d.push chunk).2) .empty

theorem buffer_foldl_push {d : FrameDecoder} (h : Frame.lineFeed ∉ d.buffer)
    (chunks : List Bytes) :
    (chunks.foldl (fun d chunk => (d.push chunk).2) d).buffer =
      (Frame.splitLines (d.buffer ++ chunks.flatten)).2 := by
  induction chunks generalizing d with
  | nil => rw [List.flatten_nil, List.append_nil, Frame.splitLines_of_not_mem h, List.foldl_nil]
  | cons chunk chunks ih =>
    have htail := (Frame.split_splitLines (d.buffer ++ chunk)).tail
    rw [List.foldl_cons, push_eq, ih htail, List.flatten_cons, ← List.append_assoc,
      Frame.splitLines_append (d.buffer ++ chunk)]

end FrameDecoder

/-! ## Streams -/

namespace FrameStream

/-- From one state the stream gives items and gets to another. -/
inductive Yields : FrameStream → List Item → FrameStream → Prop
  | refl (s : FrameStream) : Yields s [] s
  | read {s t : FrameStream} {xs : List Item} :
    s.ready = [] → s.done = false → Yields s.read xs t → Yields s xs t
  | take {s t : FrameStream} {x : Item} {ready xs : List Item} :
    s.ready = x :: ready → Yields { s with ready } xs t → Yields s (x :: xs) t

theorem items_of_ready {s : FrameStream} {x : Item} {ready : List Item}
    (h : s.ready = x :: ready) : s.items = x :: { s with ready }.items := by
  rw [items]
  split
  · next hnext => simp [next, h] at hnext
  · next y s' hnext =>
    obtain ⟨rfl, rfl⟩ : x = y ∧ { s with ready } = s' := by simpa [next, h] using hnext
    rfl

theorem items_read {s : FrameStream} (hready : s.ready = []) (hdone : s.done = false) :
    s.items = s.read.items := by
  have hnext : s.next = s.read.next := by rw [next, hready]; simp [hdone]
  rw [items, items, hnext]

theorem next_eq_none {s : FrameStream} (hready : s.ready = []) (hdone : s.done = true) :
    s.next = none := by
  rw [next, hready, hdone]; rfl

theorem items_of_next_eq_none {s : FrameStream} (h : s.next = none) : s.items = [] := by
  rw [items]
  split
  · rfl
  · next hnext => rw [h] at hnext; cases hnext

namespace Yields

variable {s t u : FrameStream} {xs ys : List Item}

/-- The items of a stream are those up to a later state and those of that state. -/
theorem items_eq (h : Yields s xs t) : s.items = xs ++ t.items := by
  induction h with
  | refl s => rfl
  | read hready hdone _ ih => rw [items_read hready hdone, ih]
  | take hready _ ih => rw [items_of_ready hready, ih, List.cons_append]

theorem append (h : Yields s xs t) (h' : Yields t ys u) : Yields s (xs ++ ys) u := by
  induction h with
  | refl s => exact h'
  | read hready hdone _ ih => exact .read hready hdone (ih h')
  | take hready _ ih => exact .take hready (ih h')

theorem ready (body : Body) (d : FrameDecoder) (xs : List Item) (done : Bool) :
    Yields ⟨body, d, xs, done⟩ xs ⟨body, d, [], done⟩ := by
  induction xs with
  | nil => exact .refl _
  | cons x xs ih => exact .take rfl ih

/-- A chunk that is read adds the items of the lines that it completes. -/
theorem chunk (d : FrameDecoder) (c : Bytes) (body : Body) :
    Yields ⟨some c :: body, d, [], false⟩ (d.push c).1 ⟨body, (d.push c).2, [], false⟩ :=
  .read rfl rfl (ready body (d.push c).2 (d.push c).1 false)

/-- Chunks that are read add the items of the lines in all their bytes. -/
theorem chunks (chunks : List Bytes) (body : Body) {tail : Bytes} (h : Frame.lineFeed ∉ tail) :
    Yields ⟨chunks.map some ++ body, ⟨tail⟩, [], false⟩
      (Frame.itemsOf (Frame.splitLines (tail ++ chunks.flatten)).1)
      ⟨body, ⟨(Frame.splitLines (tail ++ chunks.flatten)).2⟩, [], false⟩ := by
  induction chunks generalizing tail with
  | nil =>
    rw [List.flatten_nil, List.append_nil, Frame.splitLines_of_not_mem h]
    exact .refl _
  | cons c chunks ih =>
    have hchunk := chunk ⟨tail⟩ c (chunks.map some ++ body)
    have hrest := ih (Frame.split_splitLines (tail ++ c)).tail
    rw [FrameDecoder.push_eq] at hchunk
    rw [List.flatten_cons, ← List.append_assoc, Frame.splitLines_append (tail ++ c),
      Frame.itemsOf_append]
    exact hchunk.append hrest

/-- At the end of the body the tail is a line. -/
theorem ended (tail : Bytes) :
    Yields ⟨[], ⟨tail⟩, [], false⟩ (Frame.itemsOf [tail]) ⟨[], .empty, [], true⟩ := by
  rw [← Frame.toList_ofLine]
  exact .read rfl rfl (ready [] .empty _ true)

/-- A failure is the last item. The tail is not looked at, and the rest is not read. -/
theorem failed (tail : Bytes) (rest : Body) :
    Yields ⟨none :: rest, ⟨tail⟩, [], false⟩ [.error (.transport .readFailed)]
      ⟨rest, ⟨tail⟩, [], true⟩ :=
  .read rfl rfl (ready rest ⟨tail⟩ _ true)

end Yields

/-- The items from here to the end of the stream, which stops in a given state. -/
def Runs (s : FrameStream) (xs : List Item) (last : FrameStream) : Prop :=
  s.Yields xs last ∧ last.next = none

theorem Runs.items_eq {s last : FrameStream} {xs : List Item} (h : s.Runs xs last) :
    s.items = xs := by
  rw [h.1.items_eq, items_of_next_eq_none h.2, List.append_nil]

end FrameStream

/-! ## Bodies -/

namespace Frame

/-- A body that ends gives the items of its lines and that of its tail. -/
theorem runs_of_ended {chunks : List Bytes} {lines : List Bytes} {tail : Bytes}
    (h : Split chunks.flatten lines tail) :
    (FrameStream.start (chunks.map some)).Runs (itemsOf lines ++ itemsOf [tail])
      ⟨[], .empty, [], true⟩ := by
  have hchunks := FrameStream.Yields.chunks chunks [] List.not_mem_nil
  rw [List.nil_append, h.splitLines_eq, List.append_nil] at hchunks
  exact ⟨hchunks.append (.ended tail), FrameStream.next_eq_none rfl rfl⟩

/-- A body that breaks off gives the items of its lines and the failure, and the rest of it is
not read. -/
theorem runs_of_failed {chunks : List Bytes} {lines : List Bytes} {tail : Bytes}
    (h : Split chunks.flatten lines tail) (rest : Body) :
    (FrameStream.start (chunks.map some ++ none :: rest)).Runs
      (itemsOf lines ++ [.error (.transport .readFailed)]) ⟨rest, ⟨tail⟩, [], true⟩ := by
  have hchunks := FrameStream.Yields.chunks chunks (none :: rest) List.not_mem_nil
  rw [List.nil_append, h.splitLines_eq] at hchunks
  exact ⟨hchunks.append (.failed tail rest), FrameStream.next_eq_none rfl rfl⟩

/-- How a decoder and a stream treat chunks whose bytes are lines and a tail. -/
structure Framed (chunks lines : List Bytes) (tail : Bytes) : Prop where
  split : Split chunks.flatten lines tail
  buffer : (FrameDecoder.after chunks).buffer = tail
  ended : (FrameStream.start (chunks.map some)).items = itemsOf lines ++ itemsOf [tail]
  failed : ∀ rest, (FrameStream.start (chunks.map some ++ none :: rest)).items =
    itemsOf lines ++ [.error (.transport .readFailed)]
  /-- Nothing behind a failure is read. -/
  unread : ∀ rest, (FrameStream.start (chunks.map some ++ none :: rest)).Runs
    (itemsOf lines ++ [.error (.transport .readFailed)]) ⟨rest, ⟨tail⟩, [], true⟩
  decoded : ∀ line ∈ lines ++ [tail],
    (∃ m, decode line = .ok m) ∨ decode line = .error (.malformed .undecodableFrame)

theorem Split.framed {chunks lines : List Bytes} {tail : Bytes}
    (h : Split chunks.flatten lines tail) : Framed chunks lines tail where
  split := h
  buffer := by
    have hbuffer := FrameDecoder.buffer_foldl_push (d := .empty) List.not_mem_nil chunks
    exact hbuffer.trans (congrArg Prod.snd h.splitLines_eq)
  ended := (runs_of_ended h).items_eq
  failed rest := (runs_of_failed h rest).items_eq
  unread := runs_of_failed h
  decoded line _ := decode_eq_ok_or_malformed line

/-- The items of a body depend on its bytes only and not on where its chunks end : each line that
is not blank is decoded by itself, then comes the tail or else the failure. -/
theorem framed_of_chunks (chunks : List Bytes) :
    ∃ lines tail, Framed chunks lines tail ∧
      ∀ more : List Bytes, more.flatten = chunks.flatten → Framed more lines tail := by
  have hsplit := split_splitLines chunks.flatten
  exact ⟨_, _, hsplit.framed, fun more hmore => Split.framed (hmore ▸ hsplit)⟩

/-- Chunks that end within a line break and within a letter. -/
theorem framed_of_chunks_cut :
    let whole : List Bytes := [[0x7b, 0x7d, 0x0d, 0x0a, 0xc3, 0xa9]]
    let cut : List Bytes := [[0x7b, 0x7d, 0x0d], [0x0a, 0xc3], [], [0xa9]]
    (FrameStream.start (cut.map some)).items = (FrameStream.start (whole.map some)).items ∧
      (FrameStream.start (cut.map some)).items =
        [.ok .empty, .error (.malformed .undecodableFrame)] ∧
      (FrameStream.start (cut.map some ++ [none, some [0x0a]])).items =
        [.ok .empty, .error (.transport .readFailed)] ∧
      (FrameDecoder.after cut).buffer = [0xc3, 0xa9] := by
  intro whole cut
  obtain ⟨lines, tail, hwhole, hmore⟩ := framed_of_chunks whole
  have hcut : Framed cut lines tail := hmore cut (by decide)
  have hsplit : splitLines cut.flatten = ([[0x7b, 0x7d, 0x0d, 0x0a]], [0xc3, 0xa9]) := by decide
  obtain ⟨rfl, rfl⟩ := Prod.mk.inj (hsplit.symm.trans hcut.split.splitLines_eq)
  exact ⟨hcut.ended.trans hwhole.ended.symm, hcut.ended.trans rfl,
    (hcut.failed [some [0x0a]]).trans rfl, hcut.buffer⟩

end Frame

end MiningPipelines
