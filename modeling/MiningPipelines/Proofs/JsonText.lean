import Mathlib.Data.List.TakeWhile
import MiningPipelines.Proofs.JsonScalars

/-!
# Documents in JSON text

A document that was written is read back, up to its single-precision numbers : their text stands
for a number that need not be of single precision (`Document.asRead`). The numbers have to be
`Document.Legible`. Arrays and objects that nest deeper than the reader goes come back unreadable
(`Document.cut`). Each of the three readers is followed by its own text, with any bytes behind it
that cannot continue a numeral.
-/

namespace MiningPipelines

namespace Document

mutual

/-- How deep arrays and objects nest. -/
def depth : Document → Nat
  | .array items => depthItems items + 1
  | .object fields => depthFields fields + 1
  | _ => 0

def depthItems : List Document → Nat
  | [] => 0
  | d :: rest => max d.depth (depthItems rest)

def depthFields : List (String × Document) → Nat
  | [] => 0
  | (_, d) :: rest => max d.depth (depthFields rest)

end

mutual

/-- What the text of a document says. -/
@[simp]
def asRead : Document → Document
  | .single x => ((numberOf? x.json).map .number).getD .unreadable
  | .array items => .array (asReadItems items)
  | .object fields => .object (asReadFields fields)
  | d => d

@[simp]
def asReadItems : List Document → List Document
  | [] => []
  | d :: rest => d.asRead :: asReadItems rest

@[simp]
def asReadFields : List (String × Document) → List (String × Document)
  | [] => []
  | (k, d) :: rest => (k, d.asRead) :: asReadFields rest

end

mutual

/-- The document with what nests deeper than `levels` unreadable. -/
def cut : Document → Nat → Document
  | .array items, levels => if levels = 0 then .unreadable else .array (cutItems items (levels - 1))
  | .object fields, levels =>
    if levels = 0 then .unreadable else .object (cutFields fields (levels - 1))
  | d, _ => d

def cutItems : List Document → Nat → List Document
  | [], _ => []
  | d :: rest, levels => d.cut levels :: cutItems rest levels

def cutFields : List (String × Document) → Nat → List (String × Document)
  | [], _ => []
  | (k, d) :: rest, levels => (k, d.cut levels) :: cutFields rest levels

end

mutual

/-- Nothing is cut off if nothing nests too deep. -/
theorem cut_of_depth_le : ∀ {d : Document} {levels : Nat}, d.depth ≤ levels → d.cut levels = d
  | .array items, levels + 1, h => by
    rw [cut, if_neg (Nat.succ_ne_zero levels), Nat.add_sub_cancel,
      cutItems_of_depth_le (Nat.le_of_succ_le_succ h)]
  | .object fields, levels + 1, h => by
    rw [cut, if_neg (Nat.succ_ne_zero levels), Nat.add_sub_cancel,
      cutFields_of_depth_le (Nat.le_of_succ_le_succ h)]
  | .null, _, _ | .bool _, _, _ | .number _, _, _ | .single _, _, _ | .text _, _, _
  | .unreadable, _, _ => rfl

theorem cutItems_of_depth_le : ∀ {items : List Document} {levels : Nat},
    depthItems items ≤ levels → cutItems items levels = items
  | [], _, _ => rfl
  | d :: rest, _, h => by
    obtain ⟨hd, hrest⟩ := Nat.max_le.1 h
    rw [cutItems, cut_of_depth_le hd, cutItems_of_depth_le hrest]

theorem cutFields_of_depth_le : ∀ {fields : List (String × Document)} {levels : Nat},
    depthFields fields ≤ levels → cutFields fields levels = fields
  | [], _, _ => rfl
  | (_, d) :: rest, _, h => by
    obtain ⟨hd, hrest⟩ := Nat.max_le.1 h
    rw [cutFields, cut_of_depth_le hd, cutFields_of_depth_le hrest]

end

mutual

/-- Reading changes numbers only, and these have no depth. -/
theorem depth_asRead : ∀ d : Document, d.asRead.depth = d.depth
  | .single x => by
    rw [asRead]
    cases numberOf? x.json <;> rfl
  | .array items => by rw [asRead, depth, depth_asReadItems items, depth]
  | .object fields => by rw [asRead, depth, depth_asReadFields fields, depth]
  | .null | .bool _ | .number _ | .text _ | .unreadable => rfl

theorem depth_asReadItems : ∀ items : List Document,
    depthItems (asReadItems items) = depthItems items
  | [] => rfl
  | d :: rest => by
    rw [asReadItems, depthItems, depth_asRead d, depth_asReadItems rest, depthItems]

theorem depth_asReadFields : ∀ fields : List (String × Document),
    depthFields (asReadFields fields) = depthFields fields
  | [] => rfl
  | (_, d) :: rest => by
    rw [asReadFields, depthFields, depth_asRead d, depth_asReadFields rest, depthFields]

end

mutual

/-- The texts of all numbers stand for numbers, and those of classified ones for themselves. -/
def Legible : Document → Prop
  | .number n => numberOf? n.print = some n
  | .single x => (numberOf? x.json).isSome
  | .array items => LegibleItems items
  | .object fields => LegibleFields fields
  | .unreadable => False
  | _ => True

def LegibleItems : List Document → Prop
  | [] => True
  | d :: rest => d.Legible ∧ LegibleItems rest

def LegibleFields : List (String × Document) → Prop
  | [] => True
  | (_, d) :: rest => d.Legible ∧ LegibleFields rest

end

/-! ## Bytes of documents -/

/-- An array is its items between brackets. -/
theorem bytesOfText_print_array (items : List Document) :
    bytesOfText (print (.array items)) =
      byte '[' :: (bytesOfText (printItems items) ++ [byte ']']) := by
  rw [print, bytesOfText_append, bytesOfText_append]
  rfl

/-- An object is its fields between braces. -/
theorem bytesOfText_print_object (fields : List (String × Document)) :
    bytesOfText (print (.object fields)) =
      byte '\x7b' :: (bytesOfText (printFields fields) ++ [byte '\x7d']) := by
  rw [print, bytesOfText_append, bytesOfText_append]
  rfl

theorem bytesOfText_printItems (d e : Document) (rest : List Document) :
    bytesOfText (printItems (d :: e :: rest)) =
      bytesOfText d.print ++ byte ',' :: bytesOfText (printItems (e :: rest)) := by
  rw [printItems, bytesOfText_append, bytesOfText_append, List.append_assoc]
  rfl

/-- A field is its quoted key, a colon and its document. -/
theorem bytesOfText_printField (k : String) (d : Document) :
    bytesOfText (printFields [(k, d)]) =
      byte '"' :: (quoteTail k ++ byte ':' :: bytesOfText d.print) := by
  rw [printFields, bytesOfText_append, bytesOfText_append, bytesOfText_quote, List.append_assoc]
  rfl

theorem bytesOfText_printFields (k : String) (d : Document) (e : String × Document)
    (rest : List (String × Document)) :
    bytesOfText (printFields ((k, d) :: e :: rest)) =
      bytesOfText (printFields [(k, d)]) ++ byte ',' :: bytesOfText (printFields (e :: rest)) := by
  have hprint : printFields ((k, d) :: e :: rest) =
      printFields [(k, d)] ++ "," ++ printFields (e :: rest) := by simp only [printFields]
  rw [hprint, bytesOfText_append, bytesOfText_append, List.append_assoc]
  rfl

/-! ## The front of a text -/

/-- There is nothing to skip where no blank stands. -/
theorem skipBlank_cons {b : UInt8} (h : isBlank b = false) (bs : Bytes) :
    skipBlank (b :: bs) = b :: bs := by
  rw [skipBlank, List.dropWhile_cons_of_neg (by simp [h])]

/-- A numeral contains no byte that is none of numerals. -/
theorem ne_of_isNumeralByte {b c : UInt8} (hb : isNumeralByte b = true)
    (hc : isNumeralByte c = false) : b ≠ c := by
  rintro rfl
  rw [hb] at hc
  cases hc

theorem isBlank_of_isNumeralByte {b : UInt8} (h : isNumeralByte b = true) : isBlank b = false := by
  by_contra hblank
  simp only [isBlank, Bool.not_eq_false, Bool.or_eq_true, beq_iff_eq] at hblank
  obtain ((rfl | rfl) | rfl) | rfl := hblank <;> cases h

/-- The text of a number is not empty and starts like a numeral. -/
theorem exists_head_of_numberOf? {text : String} {n : Json.Number} (h : numberOf? text = some n) :
    ∃ b bs, bytesOfText text = b :: bs ∧ isNumeralByte b := by
  have hnumeral := isNumeralByte_of_numberOf? h
  cases hbytes : bytesOfText text with
  | nil => simp [numberOf?, hbytes, numeral?, wholeDigits?, digits?] at h
  | cons b bs => exact ⟨b, bs, rfl, hnumeral b (hbytes ▸ List.mem_cons_self)⟩

/-- A written document starts with no blank and with no bracket that closes. -/
theorem exists_head_print {d : Document} (h : d.Legible) :
    ∃ b bs, bytesOfText d.print = b :: bs ∧ isBlank b = false ∧ b ≠ byte ']' := by
  have hnumber : ∀ {text n}, numberOf? text = some n →
      ∃ b bs, bytesOfText text = b :: bs ∧ isBlank b = false ∧ b ≠ byte ']' := by
    intro text n hn
    obtain ⟨b, bs, hbytes, hb⟩ := exists_head_of_numberOf? hn
    exact ⟨b, bs, hbytes, isBlank_of_isNumeralByte hb, ne_of_isNumeralByte hb (by decide)⟩
  cases d with
  | null => exact ⟨_, _, rfl, by decide, by decide⟩
  | bool b => cases b <;> exact ⟨_, _, rfl, by decide, by decide⟩
  | number n => exact hnumber h
  | single x =>
    obtain ⟨n, hn⟩ := Option.isSome_iff_exists.1 h
    exact hnumber hn
  | text s => exact ⟨_, _, bytesOfText_quote s, by decide, by decide⟩
  | array items => exact ⟨_, _, bytesOfText_print_array items, by decide, by decide⟩
  | object fields => exact ⟨_, _, bytesOfText_print_object fields, by decide, by decide⟩
  | unreadable => exact h.elim

/-! ## Reading -/

/-- The text of a number is read as the number, up to the first byte that cannot continue it. -/
theorem value_of_numberOf? {text : String} {n : Json.Number} (h : numberOf? text = some n)
    (fuel levels : Nat) {rest : Bytes} (hrest : Stops rest) :
    value (fuel + 1) levels (bytesOfText text ++ rest) = some (.number n, rest) := by
  obtain ⟨m, hm, hn⟩ := numeral?_of_numberOf? h hrest
  obtain ⟨b, bs, hbytes, hb⟩ := exists_head_of_numberOf? h
  rw [hbytes, List.cons_append] at hm ⊢
  have hother : ∀ c, isNumeralByte c = false → b ≠ c := fun c hc => ne_of_isNumeralByte hb hc
  rw [value, skipBlank_cons (isBlank_of_isNumeralByte hb)]
  simp only [hother (byte '"') (by decide), hother (byte '[') (by decide),
    hother (byte '\x7b') (by decide), hother (byte 't') (by decide),
    hother (byte 'f') (by decide), hother (byte 'n') (by decide), if_false, hm]
  simp [hn]

/-- A quoted string is read as the string, whatever follows it. -/
theorem value_quote (s : String) (fuel levels : Nat) (rest : Bytes) :
    value (fuel + 1) levels (bytesOfText (quote s) ++ rest) = some (.text s, rest) := by
  obtain ⟨ps, hps, htext⟩ := pieces_quoteTail s rest
  rw [bytesOfText_quote, List.cons_append, value, skipBlank_cons (by decide)]
  simp [hps, htext]

/-- The fields as they are read, each under a key that could be read. -/
def keyed (fields : List (String × Document)) : List (Option String × Document) :=
  fields.map fun f => (some f.1, f.2)

/-- Fields whose keys could all be read make an object. -/
theorem ofFields_keyed (fields : List (String × Document)) :
    ofFields (keyed fields) = .object fields := by
  have hkeys : (keyed fields).mapM (fun f => f.1.map (·, f.2)) = some fields := by
    induction fields with
    | nil => rfl
    | cons f fields ih =>
      rw [keyed, List.map_cons, List.mapM_cons, ← keyed, ih]
      rfl
  unfold ofFields
  split
  · next read hread => exact congrArg object (Option.some.inj (hread.symm.trans hkeys))
  · next hread => cases hread.symm.trans hkeys

/-- Behind the bracket stands an item. -/
theorem value_array {bs after : Bytes} {c : UInt8} {ds : List Document} {rest : Bytes}
    {fuel levels : Nat} (hbs : skipBlank bs = c :: after) (hc : c ≠ byte ']')
    (hitems : items fuel (levels - 1) (c :: after) = some (ds, rest)) :
    value (fuel + 1) levels (byte '[' :: bs) =
      some (if levels = 0 then .unreadable else .array ds, rest) := by
  rw [value, skipBlank_cons (by decide)]
  simp only [show byte '[' ≠ byte '"' by decide, if_true, if_false, hbs, hc, hitems]
  rfl

/-- Behind the brace stands a field. -/
theorem value_object {bs after : Bytes} {c : UInt8} {fs : List (String × Document)} {rest : Bytes}
    {fuel levels : Nat} (hbs : skipBlank bs = c :: after) (hc : c ≠ byte '\x7d')
    (hfields : fields fuel (levels - 1) (c :: after) = some (keyed fs, rest)) :
    value (fuel + 1) levels (byte '\x7b' :: bs) =
      some (if levels = 0 then .unreadable else .object fs, rest) := by
  rw [value, skipBlank_cons (by decide)]
  simp only [show byte '\x7b' ≠ byte '"' by decide, show byte '\x7b' ≠ byte '[' by decide, if_true,
    if_false, hbs, hc, hfields]
  simp [ofFields_keyed]

/-- The last item is the one before the closing bracket. -/
theorem items_last {bs : Bytes} {d : Document} {rest : Bytes} {fuel levels : Nat}
    (hvalue : value fuel levels bs = some (d, byte ']' :: rest)) :
    items (fuel + 1) levels bs = some ([d], rest) := by
  rw [items, hvalue]
  simp [skipBlank_cons (show isBlank (byte ']') = false by decide)]

/-- An item before a comma has others behind it. -/
theorem items_cons {bs more : Bytes} {d : Document} {ds : List Document} {rest : Bytes}
    {fuel levels : Nat} (hvalue : value fuel levels bs = some (d, byte ',' :: more))
    (hmore : items fuel levels more = some (ds, rest)) :
    items (fuel + 1) levels bs = some (d :: ds, rest) := by
  rw [items, hvalue]
  simp [skipBlank_cons (show isBlank (byte ',') = false by decide), hmore,
    show byte ',' ≠ byte ']' by decide]

/-- The last field is the one before the closing brace. -/
theorem fields_last {k : String} {bs : Bytes} {d : Document} {rest : Bytes} {fuel levels : Nat}
    (hvalue : value fuel levels bs = some (d, byte '\x7d' :: rest)) :
    fields (fuel + 1) levels (byte '"' :: (quoteTail k ++ byte ':' :: bs)) =
      some ([(some k, d)], rest) := by
  obtain ⟨ps, hps, hk⟩ := pieces_quoteTail k (byte ':' :: bs)
  rw [fields, skipBlank_cons (by decide)]
  simp [hps, hk, hvalue, skipBlank_cons (show isBlank (byte ':') = false by decide),
    skipBlank_cons (show isBlank (byte '\x7d') = false by decide)]

/-- A field before a comma has others behind it. -/
theorem fields_cons {k : String} {bs more : Bytes} {d : Document}
    {es : List (Option String × Document)} {rest : Bytes} {fuel levels : Nat}
    (hvalue : value fuel levels bs = some (d, byte ',' :: more))
    (hmore : fields fuel levels more = some (es, rest)) :
    fields (fuel + 1) levels (byte '"' :: (quoteTail k ++ byte ':' :: bs)) =
      some ((some k, d) :: es, rest) := by
  obtain ⟨ps, hps, hk⟩ := pieces_quoteTail k (byte ':' :: bs)
  rw [fields, skipBlank_cons (by decide)]
  simp [hps, hk, hvalue, hmore, skipBlank_cons (show isBlank (byte ':') = false by decide),
    skipBlank_cons (show isBlank (byte ',') = false by decide),
    show byte ',' ≠ byte '\x7d' by decide]

/-- One byte is enough to end a numeral. -/
theorem stops_cons {b : UInt8} (h : isNumeralByte b = false) (rest : Bytes) :
    Stops (b :: rest) := by
  intro c hc
  obtain rfl : b = c := Option.mem_some_iff.1 hc
  exact h

/-- Items do not start with a blank, and not like the end of an array. -/
theorem exists_head_printItems : ∀ {ds : List Document}, ds ≠ [] → LegibleItems ds →
    ∃ b bs, bytesOfText (printItems ds) = b :: bs ∧ isBlank b = false ∧ b ≠ byte ']'
  | [], hne, _ => absurd rfl hne
  | [d], _, ⟨h, _⟩ => by
    rw [printItems]
    exact exists_head_print h
  | d :: e :: ds, _, ⟨h, _⟩ => by
    obtain ⟨b, bs, hbytes, hblank, hclose⟩ := exists_head_print h
    exact ⟨b, _, by rw [bytesOfText_printItems, hbytes]; rfl, hblank, hclose⟩

/-- Fields start with the quote of a key. -/
theorem exists_head_printFields : ∀ {fs : List (String × Document)}, fs ≠ [] →
    ∃ bs, bytesOfText (printFields fs) = byte '"' :: bs
  | [], hne => absurd rfl hne
  | [(k, d)], _ => ⟨_, bytesOfText_printField k d⟩
  | (k, d) :: e :: fs, _ =>
    ⟨_, by rw [bytesOfText_printFields, bytesOfText_printField, List.cons_append]⟩

/-- No document is written as nothing, so each level of nesting has a byte for its fuel. -/
theorem length_print_pos {d : Document} (h : d.Legible) : 0 < (bytesOfText d.print).length := by
  obtain ⟨b, bs, hbytes, -⟩ := exists_head_print h
  rw [hbytes]
  exact Nat.succ_pos _

mutual

/-- A document is read back from the front of its text, as deep as the reader goes. Two calls read
at least one byte. -/
theorem value_print_cut : ∀ {d : Document}, d.Legible → ∀ {fuel levels : Nat} {rest : Bytes},
    2 * (bytesOfText d.print).length ≤ fuel + 1 → Stops rest →
      value (fuel + 1) levels (bytesOfText d.print ++ rest) = some (d.asRead.cut levels, rest)
  | .null, _, _, _, _, _, _ => rfl
  | .bool true, _, _, _, _, _, _ => rfl
  | .bool false, _, _, _, _, _, _ => rfl
  | .number n, h, fuel, levels, rest, _, hrest => value_of_numberOf? h fuel levels hrest
  | .single x, h, fuel, levels, rest, _, hrest => by
    obtain ⟨n, hn⟩ := Option.isSome_iff_exists.1 h
    have hread : asRead (.single x) = .number n := by rw [asRead, hn]; rfl
    rw [hread]
    exact value_of_numberOf? hn fuel levels hrest
  | .text s, _, fuel, levels, rest, _, _ => value_quote s fuel levels rest
  | .array [], _, _, _, _, _, _ => rfl
  | .array (d :: ds), h, fuel, levels, rest, hfuel, _ => by
    -- The two brackets pay for the call of the reader of items.
    rw [bytesOfText_print_array, List.length_cons, List.length_append,
      List.length_singleton] at hfuel
    obtain ⟨fuel, rfl⟩ : ∃ f, fuel = f + 1 := ⟨fuel - 1, by omega⟩
    have hitems : items (fuel + 1) (levels - 1)
        (bytesOfText (printItems (d :: ds)) ++ byte ']' :: rest) =
          some (cutItems (asReadItems (d :: ds)) (levels - 1), rest) :=
      items_print_cut (List.cons_ne_nil d ds) h (by omega)
    obtain ⟨b, bs, hbytes, hblank, hclose⟩ := exists_head_printItems (List.cons_ne_nil d ds) h
    rw [bytesOfText_print_array, List.cons_append, List.append_assoc, List.singleton_append, asRead,
      cut]
    rw [hbytes, List.cons_append] at hitems ⊢
    exact value_array (skipBlank_cons hblank _) hclose hitems
  | .object [], _, _, _, _, _, _ => rfl
  | .object (f :: fs), h, fuel, levels, rest, hfuel, _ => by
    rw [bytesOfText_print_object, List.length_cons, List.length_append,
      List.length_singleton] at hfuel
    obtain ⟨fuel, rfl⟩ : ∃ f, fuel = f + 1 := ⟨fuel - 1, by omega⟩
    have hfields : fields (fuel + 1) (levels - 1)
        (bytesOfText (printFields (f :: fs)) ++ byte '\x7d' :: rest) =
          some (keyed (cutFields (asReadFields (f :: fs)) (levels - 1)), rest) :=
      fields_print_cut (List.cons_ne_nil f fs) h (by omega)
    obtain ⟨bs, hbytes⟩ := exists_head_printFields (List.cons_ne_nil f fs)
    rw [bytesOfText_print_object, List.cons_append, List.append_assoc, List.singleton_append,
      asRead, cut]
    rw [hbytes, List.cons_append] at hfields ⊢
    exact value_object (skipBlank_cons (by decide) _) (by decide) hfields
  | .unreadable, h, _, _, _, _, _ => h.elim

/-- Items are read up to the bracket behind them, each cut at the levels that are left. -/
theorem items_print_cut : ∀ {ds : List Document}, ds ≠ [] → LegibleItems ds →
    ∀ {fuel levels : Nat} {rest : Bytes}, 2 * (bytesOfText (printItems ds)).length ≤ fuel →
      items (fuel + 1) levels (bytesOfText (printItems ds) ++ byte ']' :: rest) =
        some (cutItems (asReadItems ds) levels, rest)
  | [], hne, _, _, _, _, _ => absurd rfl hne
  | [d], _, ⟨h, _⟩, fuel, levels, rest, hfuel => by
    have hpos := length_print_pos h
    rw [printItems] at hfuel ⊢
    obtain ⟨fuel, rfl⟩ : ∃ f, fuel = f + 1 := ⟨fuel - 1, by omega⟩
    exact items_last (value_print_cut h hfuel (stops_cons (by decide) rest))
  | d :: e :: ds, _, ⟨h, hrest⟩, fuel, levels, rest, hfuel => by
    have hpos := length_print_pos h
    rw [bytesOfText_printItems, List.length_append, List.length_cons] at hfuel
    obtain ⟨fuel, rfl⟩ : ∃ f, fuel = f + 1 := ⟨fuel - 1, by omega⟩
    rw [bytesOfText_printItems, List.append_assoc, List.cons_append]
    exact items_cons (value_print_cut h (by omega) (stops_cons (by decide) _))
      (items_print_cut (List.cons_ne_nil e ds) hrest (by omega))

/-- Fields are read up to the brace behind them, each cut at the levels that are left. -/
theorem fields_print_cut : ∀ {fs : List (String × Document)}, fs ≠ [] → LegibleFields fs →
    ∀ {fuel levels : Nat} {rest : Bytes}, 2 * (bytesOfText (printFields fs)).length ≤ fuel →
      fields (fuel + 1) levels (bytesOfText (printFields fs) ++ byte '\x7d' :: rest) =
        some (keyed (cutFields (asReadFields fs) levels), rest)
  | [], hne, _, _, _, _, _ => absurd rfl hne
  | [(k, d)], _, ⟨h, _⟩, fuel, levels, rest, hfuel => by
    rw [bytesOfText_printField, List.length_cons, List.length_append, List.length_cons] at hfuel
    obtain ⟨fuel, rfl⟩ : ∃ f, fuel = f + 1 := ⟨fuel - 1, by omega⟩
    rw [bytesOfText_printField, List.cons_append, List.append_assoc, List.cons_append]
    exact fields_last (value_print_cut h (by omega) (stops_cons (by decide) rest))
  | (k, d) :: e :: fs, _, ⟨h, hrest⟩, fuel, levels, rest, hfuel => by
    rw [bytesOfText_printFields, bytesOfText_printField, List.length_append, List.length_cons,
      List.length_append, List.length_cons, List.length_cons] at hfuel
    obtain ⟨fuel, rfl⟩ : ∃ f, fuel = f + 1 := ⟨fuel - 1, by omega⟩
    rw [bytesOfText_printFields, bytesOfText_printField, List.append_assoc, List.cons_append,
      List.cons_append, List.append_assoc, List.cons_append]
    exact fields_cons (value_print_cut h (by omega) (stops_cons (by decide) _))
      (fields_print_cut (List.cons_ne_nil e fs) hrest (by omega))

end

theorem stops_of_blank {blanks : Bytes} (h : blanks.all isBlank) : Stops blanks := by
  intro b hb
  by_contra hnumeral
  have hblank := List.all_eq_true.1 h b (List.mem_of_mem_head? hb)
  rw [isBlank_of_isNumeralByte (Bool.of_not_eq_false hnumeral)] at hblank
  cases hblank

/-- A document is read back from its text with blanks behind it, as deep as the reader goes. -/
theorem parse_print_cut {d : Document} (h : d.Legible) {blanks : Bytes}
    (hblanks : blanks.all isBlank) :
    parse (bytesOfText d.print ++ blanks) = some (d.asRead.cut maxDepth) := by
  have hvalue : value (2 * (bytesOfText d.print ++ blanks).length + 2) maxDepth
      (bytesOfText d.print ++ blanks) = some (d.asRead.cut maxDepth, blanks) := by
    refine value_print_cut h ?_ (stops_of_blank hblanks)
    rw [List.length_append]
    omega
  have hrest : skipBlank blanks = [] := List.dropWhile_eq_nil_iff.2 (List.all_eq_true.1 hblanks)
  rw [parse, hvalue]
  simp [hrest]

/-- A document is read back from its text with blanks behind it. -/
theorem parse_print {d : Document} (h : d.Legible) (hdepth : d.depth ≤ maxDepth) {blanks : Bytes}
    (hblanks : blanks.all isBlank) : parse (bytesOfText d.print ++ blanks) = some d.asRead := by
  rw [parse_print_cut h hblanks, cut_of_depth_le (d.depth_asRead.trans_le hdepth)]

/-! ## One line -/

/-- None of the bytes is a control character. -/
def NoControl (bs : Bytes) : Prop := ∀ b ∈ bs, 0x20 ≤ b

-- Along the list : an instance that is searched for may go through all bytes there are.
instance (bs : Bytes) : Decidable (NoControl bs) := List.decidableBAll _ bs

namespace NoControl

variable {b : UInt8} {bs cs : Bytes}

theorem cons (hb : 0x20 ≤ b) (h : NoControl bs) : NoControl (b :: bs) :=
  List.forall_mem_cons.2 ⟨hb, h⟩

theorem append (h : NoControl bs) (h' : NoControl cs) : NoControl (bs ++ cs) :=
  List.forall_mem_append.2 ⟨h, h'⟩

end NoControl

/-- A character that is escaped is written in others that are no control characters. -/
theorem all_escapeChar (c : Char) : (escapeChar c).all fun e => 0x20 ≤ e.toNat := by
  have hunit : ∀ u < 0x20, (['\\', 'u'] ++ Hex.digits u 4).all fun e => 0x20 ≤ e.toNat := by
    decide
  rw [escapeChar]
  -- the escapes of one letter
  iterate 7
    split
    · rfl
  split
  · next hlow => exact hunit _ hlow
  · next hlow => simpa using hlow

/-- Strings are escaped, so no control character stands in their text. -/
theorem noControl_quoteTail (s : String) : NoControl (quoteTail s) := by
  refine NoControl.append (fun b hb => ?_) (by decide)
  obtain ⟨e, he, hb⟩ := List.mem_flatMap.1 hb
  obtain ⟨c, -, he⟩ := List.mem_flatMap.1 he
  have hlow : 0x20 ≤ e.toNat := of_decide_eq_true (List.all_eq_true.1 (all_escapeChar c) e he)
  exact le_of_mem_utf8EncodeChar_of_le hlow hb

/-- Numerals have no control characters. -/
theorem noControl_of_numberOf? {text : String} {n : Json.Number} (h : numberOf? text = some n) :
    NoControl (bytesOfText text) := by
  intro b hb
  have hnumeral := isNumeralByte_of_numberOf? h b hb
  simp only [isNumeralByte, isDigit, Bool.or_eq_true, Bool.and_eq_true, decide_eq_true_eq,
    beq_iff_eq] at hnumeral
  obtain ((((⟨hzero, -⟩ | rfl) | rfl) | rfl) | rfl) | rfl := hnumeral
  · exact UInt8.le_trans (by decide) hzero
  all_goals decide

theorem noControl_field (k : String) {bs : Bytes} (h : NoControl bs) :
    NoControl (byte '"' :: (quoteTail k ++ byte ':' :: bs)) :=
  .cons (by decide) (.append (noControl_quoteTail k) (.cons (by decide) h))

mutual

/-- No control character stands in the text of a document; a line feed would be one. -/
theorem noControl_print : ∀ {d : Document}, d.Legible → NoControl (bytesOfText d.print)
  | .null, _ => by decide
  | .bool true, _ => by decide
  | .bool false, _ => by decide
  | .number n, h => noControl_of_numberOf? h
  | .single x, h => by
    obtain ⟨n, hn⟩ := Option.isSome_iff_exists.1 h
    exact noControl_of_numberOf? hn
  | .text s, _ => by
    rw [print, bytesOfText_quote]
    exact .cons (by decide) (noControl_quoteTail s)
  | .array ds, h => by
    rw [bytesOfText_print_array]
    exact .cons (by decide) (.append (noControl_printItems h) (by decide))
  | .object fs, h => by
    rw [bytesOfText_print_object]
    exact .cons (by decide) (.append (noControl_printFields h) (by decide))
  | .unreadable, h => h.elim

theorem noControl_printItems : ∀ {ds : List Document}, LegibleItems ds →
    NoControl (bytesOfText (printItems ds))
  | [], _ => by decide
  | [d], ⟨h, _⟩ => by
    rw [printItems]
    exact noControl_print h
  | d :: e :: ds, ⟨h, hrest⟩ => by
    rw [bytesOfText_printItems]
    exact .append (noControl_print h) (.cons (by decide) (noControl_printItems hrest))

theorem noControl_printFields : ∀ {fs : List (String × Document)}, LegibleFields fs →
    NoControl (bytesOfText (printFields fs))
  | [], _ => by decide
  | [(k, d)], ⟨h, _⟩ => by
    rw [bytesOfText_printField]
    exact noControl_field k (noControl_print h)
  | (k, d) :: e :: fs, ⟨h, hrest⟩ => by
    rw [bytesOfText_printFields, bytesOfText_printField]
    exact .append (noControl_field k (noControl_print h))
      (.cons (by decide) (noControl_printFields hrest))

end

end Document

end MiningPipelines
