import Mathlib.Data.List.Basic
import Mathlib.Data.Nat.Digits.Defs
import MiningPipelines.Json.Parser
import MiningPipelines.Json.Printer

/-!
# Strings and numbers in JSON text

A string that was written is read back, whatever its characters. A numeral is read up to a byte
that cannot continue it (`Document.Stops`), so what it stands for does not depend on what follows.
`Document.numberOf?` is the number that a text stands for when all of it is one numeral; the text
of a natural number stands for that number.
-/

namespace MiningPipelines

/-! ## Bytes of characters -/

/-- Text is the bytes of its characters. -/
theorem bytesOfText_ofList (cs : List Char) :
    bytesOfText (String.ofList cs) = cs.flatMap String.utf8EncodeChar := by
  rw [bytesOfText, String.toByteArray_ofList, List.utf8Encode, List.data_toByteArray]

theorem bytesOfText_append (s t : String) :
    bytesOfText (s ++ t) = bytesOfText s ++ bytesOfText t := by
  rw [bytesOfText, String.toByteArray_append, ByteArray.data_append, Array.toList_append]
  rfl

theorem flatMap_utf8EncodeChar (s : String) :
    s.toList.flatMap String.utf8EncodeChar = bytesOfText s := by
  rw [← bytesOfText_ofList, String.ofList_toList]

/-- A character in ASCII is one byte. -/
theorem utf8EncodeChar_of_lt {c : Char} (h : c.toNat < 0x80) :
    String.utf8EncodeChar c = [Document.byte c] := by
  have hle : c.val.toNat ≤ 127 := Nat.le_of_lt_succ h
  simp only [String.utf8EncodeChar, hle, if_true]
  rfl

/-- The bytes of any other character are beyond ASCII. -/
theorem le_of_mem_utf8EncodeChar {c : Char} (h : 0x80 ≤ c.toNat) {b : UInt8}
    (hb : b ∈ String.utf8EncodeChar c) : 0x80 ≤ b := by
  have hlt : ¬c.val.toNat ≤ 127 := Nat.not_le_of_lt h
  have hofNat : ∀ n, 0x80 ≤ n → n < 0x100 → 0x80 ≤ UInt8.ofNat n := fun n hle hn => by
    rw [UInt8.le_iff_toNat_le, UInt8.toNat_ofNat_of_lt' hn]
    exact hle
  simp only [String.utf8EncodeChar, hlt, if_false] at hb
  split at hb
  · simp only [List.mem_cons, List.not_mem_nil, or_false] at hb
    obtain rfl | rfl := hb <;> exact hofNat _ (by omega) (by omega)
  split at hb
  · simp only [List.mem_cons, List.not_mem_nil, or_false] at hb
    obtain rfl | rfl | rfl := hb <;> exact hofNat _ (by omega) (by omega)
  · simp only [List.mem_cons, List.not_mem_nil, or_false] at hb
    obtain rfl | rfl | rfl | rfl := hb <;> exact hofNat _ (by omega) (by omega)

namespace Document

/-! ## Strings -/

/-- A byte that stands in a string as it is. -/
def IsPlain (b : UInt8) : Prop := 0x20 ≤ b ∧ b ≠ byte '"' ∧ b ≠ byte '\\'

/-- A plain byte is a piece by itself. -/
theorem pieces_plain {b : UInt8} (h : IsPlain b) {tail : Bytes} (htail : tail ≠ []) :
    pieces (b :: tail) = (pieces tail).map fun (ps, after) => (.raw b :: ps, after) := by
  obtain ⟨hlow, hquote, hslash⟩ := h
  obtain ⟨c, rest, rfl⟩ := List.exists_cons_of_ne_nil htail
  rw [pieces.eq_def]
  simp only [hquote, UInt8.not_lt.2 hlow, hslash, ne_eq, not_false_eq_true, if_true, if_false]

/-- Plain bytes are pieces one by one, up to what follows them. -/
theorem pieces_plains {bs : Bytes} (h : ∀ b ∈ bs, IsPlain b) {tail : Bytes} (htail : tail ≠ []) :
    pieces (bs ++ tail) = (pieces tail).map fun (ps, after) => (bs.map .raw ++ ps, after) := by
  induction bs with
  | nil => cases h : pieces tail <;> simp [h]
  | cons b bs ih =>
    obtain ⟨hb, hbs⟩ := List.forall_mem_cons.1 h
    rw [List.cons_append, pieces_plain hb (List.append_ne_nil_of_right_ne_nil bs htail), ih hbs,
      Option.map_map]
    rfl

theorem spell_raws (bs : Bytes) (ps : List Piece) :
    spell (bs.map .raw ++ ps) = (spell ps).map (bs ++ ·) := by
  induction bs with
  | nil => cases h : spell ps <;> simp [h]
  | cons b bs ih =>
    rw [List.map_cons, List.cons_append, spell, ih, Option.map_map]
    rfl

/-- A unit below the surrogates spells the character with its number. -/
theorem spell_unit {u : Nat} (h : u < 0x80) (ps : List Piece) :
    spell (.unit u :: ps) = (spell ps).map (String.utf8EncodeChar (Char.ofNat u) ++ ·) := by
  have hhigh : isHighSurrogate u = false := by simp [isHighSurrogate]; omega
  have hlow : isLowSurrogate u = false := by simp [isLowSurrogate]; omega
  cases ps with
  | nil => simp [spell, hhigh, hlow]
  | cons p ps => rw [spell.eq_def]; simp [hhigh, hlow]

theorem toNat_byte {c : Char} (h : c.toNat < 0x100) : (byte c).toNat = c.toNat := by
  rw [byte, Char.toUInt8, UInt32.toNat_toUInt8]
  exact Nat.mod_eq_of_lt h

/-- Characters of one byte are told apart by their bytes. -/
theorem byte_ne_byte {c d : Char} (hc : c.toNat < 0x100) (hd : d.toNat < 0x100) (h : c ≠ d) :
    byte c ≠ byte d := by
  rwa [ne_eq, ← UInt8.toNat_inj, toNat_byte hc, toNat_byte hd, Char.toNat_inj]

/-- The bytes of a character that is no control character are none either. -/
theorem le_of_mem_utf8EncodeChar_of_le {c : Char} (h : 0x20 ≤ c.toNat) {b : UInt8}
    (hb : b ∈ String.utf8EncodeChar c) : 0x20 ≤ b := by
  by_cases hc : c.toNat < 0x80
  · rw [utf8EncodeChar_of_lt hc, List.mem_singleton] at hb
    rwa [hb, UInt8.le_iff_toNat_le, toNat_byte (Nat.lt_trans hc (by decide))]
  · exact UInt8.le_trans (by decide) (le_of_mem_utf8EncodeChar (Nat.le_of_not_lt hc) hb)

/-- A byte in ASCII belongs to the character that it stands for only. -/
theorem ne_of_mem_utf8EncodeChar {c d : Char} (hd : d.toNat < 0x80) (h : c ≠ d) {b : UInt8}
    (hb : b ∈ String.utf8EncodeChar c) : b ≠ byte d := by
  by_cases hc : c.toNat < 0x80
  · rw [utf8EncodeChar_of_lt hc, List.mem_singleton] at hb
    rw [hb]
    exact byte_ne_byte (Nat.lt_trans hc (by decide)) (Nat.lt_trans hd (by decide)) h
  · rintro rfl
    have hle := UInt8.le_iff_toNat_le.1 (le_of_mem_utf8EncodeChar (Nat.le_of_not_lt hc) hb)
    rw [toNat_byte (Nat.lt_trans hd (by decide))] at hle
    exact absurd hd (Nat.not_lt_of_le hle)

/-- The bytes of a character that needs no escape are plain. -/
theorem isPlain_of_mem {c : Char} (hlow : 0x20 ≤ c.toNat) (hquote : c ≠ '"') (hslash : c ≠ '\\')
    {b : UInt8} (hb : b ∈ String.utf8EncodeChar c) : IsPlain b :=
  ⟨le_of_mem_utf8EncodeChar_of_le hlow hb, ne_of_mem_utf8EncodeChar (by decide) hquote hb,
    ne_of_mem_utf8EncodeChar (by decide) hslash hb⟩

/-- Control characters are written in four hexadecimal digits, the first two of them zero. -/
theorem digits_of_control : ∀ u < 0x20, (Hex.digits u 4).flatMap String.utf8EncodeChar =
    [byte '0', byte '0', byte (Nat.digitChar (u / 16)), byte (Nat.digitChar (u % 16))] := by
  decide

/-- These digits are read as the number of the character. -/
theorem hexUnit?_of_control : ∀ u < 0x20,
    hexUnit? (byte '0') (byte '0') (byte (Nat.digitChar (u / 16)))
      (byte (Nat.digitChar (u % 16))) = some u := by
  decide

/-- Read in front of other bytes, what is written is pieces that spell the character. -/
def Spells (written : List Char) (c : Char) : Prop :=
  ∃ ps, (∀ tail ≠ [], pieces (written.flatMap String.utf8EncodeChar ++ tail) =
      (pieces tail).map fun (qs, after) => (ps ++ qs, after)) ∧
    ∀ qs, spell (ps ++ qs) = (spell qs).map (String.utf8EncodeChar c ++ ·)

/-- A character that needs no escape spells itself. -/
theorem spells_self {c : Char} (hlow : 0x20 ≤ c.toNat) (hquote : c ≠ '"') (hslash : c ≠ '\\') :
    Spells [c] c := by
  refine ⟨(String.utf8EncodeChar c).map .raw, fun tail htail => ?_, spell_raws _⟩
  rw [List.flatMap_singleton]
  exact pieces_plains (fun b hb => isPlain_of_mem hlow hquote hslash hb) htail

/-- A character with a letter of its own is spelled by a backslash and the letter. -/
theorem spells_letter {c e : Char} (hc : c.toNat < 0x80) (he : e.toNat < 0x80)
    (hu : byte e ≠ byte 'u') (h : escaped? (byte e) = some (byte c)) : Spells ['\\', e] c := by
  refine ⟨[.raw (byte c)], fun tail _ => ?_, fun qs => ?_⟩
  · have hbytes : ['\\', e].flatMap String.utf8EncodeChar ++ tail =
        byte '\\' :: byte e :: tail := by
      rw [List.flatMap_cons, List.flatMap_singleton, utf8EncodeChar_of_lt he]
      rfl
    rw [hbytes, pieces.eq_def]
    simp only [hu, h, show byte '\\' ≠ byte '"' by decide, show ¬byte '\\' < 0x20 by decide,
      ne_eq, not_true_eq_false, if_false]
    cases pieces tail <;> rfl
  · rw [utf8EncodeChar_of_lt hc]
    exact spell_raws [byte c] qs

/-- Other control characters are spelled by their number. -/
theorem spells_unit {c : Char} (h : c.toNat < 0x20) :
    Spells (['\\', 'u'] ++ Hex.digits c.toNat 4) c := by
  refine ⟨[.unit c.toNat], fun tail _ => ?_, fun qs => ?_⟩
  · rw [List.flatMap_append, digits_of_control _ h]
    have hunit := hexUnit?_of_control _ h
    generalize byte (Nat.digitChar (c.toNat / 16)) = j at hunit ⊢
    generalize byte (Nat.digitChar (c.toNat % 16)) = k at hunit ⊢
    have hbytes : ['\\', 'u'].flatMap String.utf8EncodeChar ++ [byte '0', byte '0', j, k] ++ tail =
        byte '\\' :: byte 'u' :: byte '0' :: byte '0' :: j :: k :: tail := rfl
    rw [hbytes, pieces.eq_def]
    simp only [hunit, show byte '\\' ≠ byte '"' by decide, show ¬byte '\\' < 0x20 by decide,
      ne_eq, not_true_eq_false, if_true, if_false]
    cases pieces tail <;> rfl
  · have hspell := spell_unit (Nat.lt_trans h (by decide)) qs
    rwa [Char.ofNat_toNat] at hspell

/-- Each character is written in a form that spells it. -/
theorem spells_escapeChar (c : Char) : Spells (escapeChar c) c := by
  rw [escapeChar]
  iterate 7
    split
    · subst_vars
      exact spells_letter (by decide) (by decide) (by decide) rfl
  split
  · next hlow => exact spells_unit hlow
  · next hquote hslash _ _ _ _ _ hlow => exact spells_self (Nat.le_of_not_lt hlow) hquote hslash

/-- The bytes of a string behind the opening quote. -/
def quoteTail (s : String) : Bytes :=
  (s.toList.flatMap escapeChar).flatMap String.utf8EncodeChar ++ [byte '"']

theorem bytesOfText_quote (s : String) : bytesOfText (quote s) = byte '"' :: quoteTail s := by
  rw [quote, bytesOfText_append, bytesOfText_append,
    bytesOfText_ofList (s.toList.flatMap escapeChar)]
  rfl

/-- The closing quote ends the pieces. -/
theorem pieces_quote (rest : Bytes) : pieces (byte '"' :: rest) = some ([], rest) := by
  rw [pieces.eq_def]
  cases rest <;> simp

/-- Characters that were written are pieces that spell them, up to the closing quote. -/
theorem pieces_escaped (cs : List Char) (rest : Bytes) : ∃ ps,
    pieces ((cs.flatMap escapeChar).flatMap String.utf8EncodeChar ++ byte '"' :: rest) =
      some (ps, rest) ∧ spell ps = some (cs.flatMap String.utf8EncodeChar) := by
  induction cs with
  | nil => exact ⟨[], pieces_quote rest, rfl⟩
  | cons c cs ih =>
    obtain ⟨qs, hqs, hspell⟩ := ih
    obtain ⟨ps, hps, hspells⟩ := spells_escapeChar c
    refine ⟨ps ++ qs, ?_, ?_⟩
    · rw [List.flatMap_cons, List.flatMap_append, List.append_assoc,
        hps _ (List.append_ne_nil_of_right_ne_nil _ (List.cons_ne_nil _ _)), hqs]
      rfl
    · rw [hspells, hspell]
      rfl

/-- A string that was written is read back. -/
theorem pieces_quoteTail (s : String) (rest : Bytes) :
    ∃ ps, pieces (quoteTail s ++ rest) = some (ps, rest) ∧ textOfPieces? ps = some s := by
  obtain ⟨ps, hps, hspell⟩ := pieces_escaped s.toList rest
  refine ⟨ps, by rwa [quoteTail, List.append_assoc], ?_⟩
  rw [textOfPieces?, hspell, flatMap_utf8EncodeChar]
  exact textOfBytes?_bytesOfText s

/-! ## Numerals -/

/-- A byte that can stand in a numeral. -/
def isNumeralByte (b : UInt8) : Bool :=
  isDigit b || b == byte '-' || b == byte '+' || b == byte '.' || b == byte 'e' || b == byte 'E'

/-- What follows does not continue a numeral. -/
def Stops (rest : Bytes) : Prop := ∀ b ∈ rest.head?, isNumeralByte b = false

/-- What stops a numeral starts with no byte of one. -/
theorem Stops.head_ne {b c : UInt8} {rest : Bytes} (h : Stops (b :: rest))
    (hc : isNumeralByte c = true) : b ≠ c := by
  rintro rfl
  exact absurd hc (by simp [h b rfl])

theorem isNumeralByte_of_isDigit {b : UInt8} (h : isDigit b = true) : isNumeralByte b = true := by
  simp [isNumeralByte, h]

/-- What stops a numeral starts with no digit. -/
theorem isDigit_of_stops {rest : Bytes} (h : Stops rest) :
    ∀ b ∈ rest.head?, isDigit b = false := by
  intro b hb
  by_contra hdigit
  have hnumeral := isNumeralByte_of_isDigit (Bool.of_not_eq_false hdigit)
  rw [h b hb] at hnumeral
  cases hnumeral

/-- The digits at the front, and behind them what starts with no digit. -/
theorem digits?_eq_some_iff {bs after : Bytes} {ds : List Nat} :
    digits? bs = some (ds, after) ↔ ∃ front, bs = front ++ after ∧ front ≠ [] ∧
      (∀ b ∈ front, isDigit b = true) ∧ (∀ b ∈ after.head?, isDigit b = false) ∧
      ds = digitsOf front := by
  constructor
  · intro h
    have hall : ∀ b ∈ bs.takeWhile isDigit, isDigit b = true := fun b hb =>
      List.all_eq_true.1 (List.all_takeWhile (p := isDigit)) b hb
    simp only [digits?, List.isEmpty_iff] at h
    split at h
    · cases h
    · next hne =>
      obtain ⟨rfl, rfl⟩ := Prod.mk.inj (Option.some.inj h)
      refine ⟨_, List.takeWhile_append_dropWhile.symm, hne, hall, fun b hb => ?_, rfl⟩
      have hhead := List.head?_dropWhile_not isDigit bs
      rw [Option.mem_def.1 hb] at hhead
      simpa using hhead
  · rintro ⟨front, rfl, hne, hall, hafter, rfl⟩
    have htake : after.takeWhile isDigit = [] := by
      cases after with
      | nil => rfl
      | cons b after => simp [hafter b rfl]
    have hdrop : after.dropWhile isDigit = after := by
      cases after with
      | nil => rfl
      | cons b after => simp [hafter b rfl]
    rw [digits?, List.takeWhile_append_of_pos hall, List.dropWhile_append_of_pos hall, htake, hdrop,
      List.append_nil]
    simp [hne]

/-- The reader takes bytes of numerals from the front, and what cannot continue a numeral makes
no difference to it. -/
structure Local {α : Type} (read : Bytes → Option (α × Bytes)) : Prop where
  append : ∀ {bs after : Bytes} {a : α} {rest : Bytes}, read bs = some (a, after) → Stops rest →
    read (bs ++ rest) = some (a, after ++ rest)
  used : ∀ {bs after : Bytes} {a : α}, read bs = some (a, after) →
    ∃ front, bs = front ++ after ∧ ∀ b ∈ front, isNumeralByte b

namespace Local

variable {α β : Type}

theorem pure (a : α) : Local fun bs => some (a, bs) where
  append h _ := by
    obtain ⟨rfl, rfl⟩ := Prod.mk.inj (Option.some.inj h)
    rfl
  used h := by
    obtain ⟨rfl, rfl⟩ := Prod.mk.inj (Option.some.inj h)
    exact ⟨[], rfl, List.forall_mem_nil _⟩

theorem fail : Local fun _ => (none : Option (α × Bytes)) where
  append h _ := by cases h
  used h := by cases h

/-- One reader behind another. -/
theorem bind {read : Bytes → Option (α × Bytes)} {next : α → Bytes → Option (β × Bytes)}
    (hread : Local read) (hnext : ∀ a, Local (next a)) :
    Local fun bs => (read bs).bind fun p => next p.1 p.2 where
  append h hrest := by
    obtain ⟨⟨a, mid⟩, hmid, hafter⟩ := Option.bind_eq_some_iff.1 h
    exact Option.bind_eq_some_iff.2
      ⟨_, hread.append hmid hrest, (hnext a).append hafter hrest⟩
  used h := by
    obtain ⟨⟨a, mid⟩, hmid, hafter⟩ := Option.bind_eq_some_iff.1 h
    obtain ⟨front, rfl, hfront⟩ := hread.used hmid
    obtain ⟨more, hmore, hmoreFront⟩ := (hnext a).used hafter
    exact ⟨front ++ more, by rw [List.append_assoc, ← hmore],
      List.forall_mem_append.2 ⟨hfront, hmoreFront⟩⟩

/-- What is made of the value read makes no difference to the bytes that are read. -/
theorem map {read : Bytes → Option (α × Bytes)} (hread : Local read) (f : α → β) :
    Local fun bs => (read bs).map fun p => (f p.1, p.2) := by
  have h := hread.bind fun a => pure (f a)
  simpa [Option.map_eq_bind, Function.comp_def] using h

/-- Digits are read up to the first byte that is none. -/
theorem digits : Local digits? where
  append {bs after ds rest} h hrest := by
    obtain ⟨front, rfl, hne, hall, hafter, rfl⟩ := digits?_eq_some_iff.1 h
    refine digits?_eq_some_iff.2 ⟨front, List.append_assoc _ _ _, hne, hall, fun b hb => ?_, rfl⟩
    cases after with
    | nil => exact isDigit_of_stops hrest b hb
    | cons c after => exact hafter b hb
  used h := by
    obtain ⟨front, rfl, -, hall, -, -⟩ := digits?_eq_some_iff.1 h
    exact ⟨front, rfl, fun b hb => isNumeralByte_of_isDigit (hall b hb)⟩

/-- Refuses digits that start with a zero, unless it stands alone. -/
def unpadded : List Nat → Bytes → Option (List Nat × Bytes)
  | 0 :: _ :: _ => fun _ => none
  | ds => fun after => some (ds, after)

theorem local_unpadded (ds : List Nat) : Local (unpadded ds) := by
  obtain _ | ⟨_ | d, _ | ⟨e, ds⟩⟩ := ds
  case cons.zero.cons => exact fail
  all_goals exact pure _

/-- Digits are read first and then looked at for a zero in front. -/
theorem wholeDigits?_eq :
    wholeDigits? = fun bs => (digits? bs).bind fun p => unpadded p.1 p.2 := by
  funext bs
  rw [wholeDigits?]
  cases digits? bs with
  | none => rfl
  | some p =>
    obtain ⟨ds, after⟩ := p
    obtain _ | ⟨_ | d, _ | ⟨e, ds⟩⟩ := ds <;> rfl

theorem wholeDigits : Local wholeDigits? := by
  rw [wholeDigits?_eq]
  exact digits.bind local_unpadded

/-- Reads on behind one of some bytes, if there is one at the front. -/
def behind (marks : Bytes) (default : α) (read : UInt8 → Bytes → Option (α × Bytes)) :
    Bytes → Option (α × Bytes)
  | [] => some (default, [])
  | b :: rest => if b ∈ marks then read b rest else some (default, b :: rest)

/-- A part that may be missing is read, or left out, by the first byte alone. -/
theorem optional {marks : Bytes} (hmarks : marks.all isNumeralByte) (default : α)
    {read : UInt8 → Bytes → Option (α × Bytes)} (hread : ∀ b, Local (read b)) :
    Local (behind marks default read) where
  append {bs after a rest} h hrest := by
    cases bs with
    | nil =>
      obtain ⟨rfl, rfl⟩ := Prod.mk.inj (Option.some.inj h)
      cases rest with
      | nil => rfl
      | cons b rest =>
        have hb : b ∉ marks := fun hb => hrest.head_ne (List.all_eq_true.1 hmarks b hb) rfl
        exact if_neg hb
    | cons b bs =>
      rw [List.cons_append, behind]
      rw [behind] at h
      split at h
      · next hb => rw [if_pos hb, (hread b).append h hrest]
      · next hb =>
        obtain ⟨rfl, rfl⟩ := Prod.mk.inj (Option.some.inj h)
        rw [if_neg hb, List.cons_append]
  used {bs after a} h := by
    cases bs with
    | nil => exact (pure default).used h
    | cons b bs =>
      rw [behind] at h
      split at h
      · next hb =>
        obtain ⟨front, rfl, hfront⟩ := (hread b).used h
        exact ⟨b :: front, rfl, List.forall_mem_cons.2 ⟨List.all_eq_true.1 hmarks b hb, hfront⟩⟩
      · exact (pure default).used h

theorem fraction : Local fraction? := by
  have hfraction : fraction? = behind [byte '.'] none fun _ bs =>
      (digits? bs).map fun p => (some p.1, p.2) := by
    funext bs
    cases bs <;> simp [fraction?, behind]
  rw [hfraction]
  exact optional (by decide) none fun _ => digits.map some

/-- Whether a minus sign stands at the front of an exponent. -/
def exponentSign : Bytes → Option (Bool × Bytes) :=
  behind [byte '-', byte '+'] false fun b bs => some (b == byte '-', bs)

/-- The digits of an exponent with its sign. -/
def signedDigits? (bs : Bytes) : Option (Option (Bool × List Nat) × Bytes) :=
  (exponentSign bs).bind fun p => (digits? p.2).map fun q => (some (p.1, q.1), q.2)

theorem signedDigits : Local signedDigits? := by
  have hsign : Local exponentSign := optional (by decide) false fun b => pure (b == byte '-')
  exact hsign.bind fun below => digits.map fun ds => some (below, ds)

theorem exponent?_eq :
    exponent? = behind [byte 'e', byte 'E'] none fun _ => signedDigits? := by
  funext bs
  cases bs with
  | nil => rfl
  | cons b bs =>
    cases bs with
    | nil => simp [exponent?, behind, signedDigits?, exponentSign]
    | cons c bs =>
      by_cases hminus : c = byte '-'
      · simp [exponent?, behind, signedDigits?, exponentSign, hminus]
      · have hminus' : (c == byte '-') = false := beq_false_of_ne hminus
        by_cases hplus : c = byte '+'
        · subst hplus
          simp only [exponent?, behind, signedDigits?, exponentSign, hminus, hminus',
            List.mem_cons, List.not_mem_nil, or_false, or_true, if_true, if_false,
            Option.bind_some]
        · simp [exponent?, behind, signedDigits?, exponentSign, hminus, hplus]

theorem exponent : Local exponent? := by
  rw [exponent?_eq]
  exact optional (by decide) none fun _ => signedDigits

/-- A numeral is read part by part, each of which is local. -/
theorem numeral : Local numeral? := by
  have hnumeral : numeral? = fun bs =>
      (behind [byte '-'] false (fun _ bs => some (true, bs)) bs).bind fun p =>
        (wholeDigits? p.2).bind fun q => (fraction? q.2).bind fun r =>
          (exponent? r.2).map fun t =>
            ((⟨p.1, q.1, r.1.getD [], t.1, r.1.isNone && t.1.isNone⟩ : Numeral), t.2) := by
    funext bs
    cases bs with
    | nil => rfl
    | cons b bs =>
      by_cases hb : b = byte '-' <;>
        simp [numeral?, behind, hb, Option.map_eq_bind]
  rw [hnumeral]
  have hsign : Local (behind [byte '-'] false fun _ bs => some (true, bs)) :=
    optional (by decide) false fun _ => pure true
  exact hsign.bind fun below => wholeDigits.bind fun whole =>
    fraction.bind fun fraction => exponent.map fun exponent =>
      (⟨below, whole, fraction.getD [], exponent, fraction.isNone && exponent.isNone⟩ : Numeral)

end Local

/-- The number that a text stands for, if all of it is one numeral. -/
def numberOf? (text : String) : Option Json.Number :=
  match numeral? (bytesOfText text) with
  | some (n, []) => n.number?
  | _ => none

/-- A text stands for a number if a numeral takes all of it. -/
theorem numberOf?_eq_some_iff {text : String} {n : Json.Number} :
    numberOf? text = some n ↔
      ∃ m, numeral? (bytesOfText text) = some (m, []) ∧ m.number? = some n := by
  rw [numberOf?]
  constructor
  · intro h
    split at h
    · next m hm => exact ⟨m, hm, h⟩
    · cases h
  · rintro ⟨m, hm, hn⟩
    simp only [hm, hn]

/-- The text of a number is read from the front of what does not continue it. -/
theorem numeral?_of_numberOf? {text : String} {n : Json.Number} (h : numberOf? text = some n)
    {rest : Bytes} (hrest : Stops rest) :
    ∃ m, numeral? (bytesOfText text ++ rest) = some (m, rest) ∧ m.number? = some n := by
  obtain ⟨m, hm, hn⟩ := numberOf?_eq_some_iff.1 h
  exact ⟨m, Local.numeral.append hm hrest, hn⟩

/-- All its bytes are those of numerals. -/
theorem isNumeralByte_of_numberOf? {text : String} {n : Json.Number}
    (h : numberOf? text = some n) : ∀ b ∈ bytesOfText text, isNumeralByte b := by
  obtain ⟨m, hm, -⟩ := numberOf?_eq_some_iff.1 h
  obtain ⟨front, hfront, hnumeral⟩ := Local.numeral.used hm
  rw [List.append_nil] at hfront
  rwa [hfront]

/-! ## Natural numbers -/

/-- The number that a digit writes. -/
def digitValue (c : Char) : Nat := c.toNat - '0'.toNat

theorem flatMap_utf8EncodeChar_of_lt {cs : List Char} (h : ∀ c ∈ cs, c.toNat < 0x80) :
    cs.flatMap String.utf8EncodeChar = cs.map byte := by
  induction cs with
  | nil => rfl
  | cons c cs ih =>
    obtain ⟨hc, hcs⟩ := List.forall_mem_cons.1 h
    rw [List.flatMap_cons, utf8EncodeChar_of_lt hc, ih hcs]
    rfl

/-- The digits are ten characters in a row. -/
theorem toNat_of_isDigit {c : Char} (h : c.isDigit) : 48 ≤ c.toNat ∧ c.toNat ≤ 57 := by
  simpa [Char.isDigit, UInt32.le_iff_toNat_le] using h

/-- A digit is one in bytes, and of the same value. -/
theorem isDigit_byte {c : Char} (h : c.isDigit) :
    isDigit (byte c) = true ∧ (byte c - byte '0').toNat = digitValue c := by
  obtain ⟨hle, hge⟩ := toNat_of_isDigit h
  have hbyte : (byte c).toNat = c.toNat := toNat_byte (by omega)
  have hzero : byte '0' ≤ byte c := by
    rw [UInt8.le_iff_toNat_le, hbyte]
    exact hle
  refine ⟨?_, by rw [UInt8.toNat_sub_of_le _ _ hzero, hbyte]; rfl⟩
  have hnine : byte c ≤ byte '9' := by
    rw [UInt8.le_iff_toNat_le, hbyte]
    exact hge
  simp [isDigit, hzero, hnine]

/-- Numbers grow with their digits. -/
theorem le_foldl_digits (s : Nat) (ds : List Nat) :
    s ≤ ds.foldl (fun n d => n * 10 + d) s := by
  induction ds generalizing s with
  | nil => exact Nat.le_refl s
  | cons d ds ih => exact Nat.le_trans (by omega) (ih (s * 10 + d))

/-- Digits of a number of 64 bits are all taken, since no number on the way is larger. -/
theorem accumulate_of_lt {s : Nat} {ds : List Nat}
    (h : ds.foldl (fun n d => n * 10 + d) s < UInt64.size) :
    Numeral.accumulate s ds = (ds.foldl (fun n d => n * 10 + d) s, []) := by
  induction ds generalizing s with
  | nil => rfl
  | cons d ds ih =>
    have hd : s * 10 + d < UInt64.size := Nat.lt_of_le_of_lt (le_foldl_digits _ ds) h
    rw [Numeral.accumulate, if_pos hd, ih h, List.foldl_cons]

/-- The digits of a positive number start with another digit than zero. -/
theorem head_toDigits_ne {n : Nat} (h : 0 < n) : ∀ c ∈ (Nat.toDigits 10 n).head?, c ≠ '0' := by
  induction n using Nat.strongRecOn with
  | ind n ih =>
    rw [Nat.toDigits_eq_if (by decide)]
    split
    · next hn =>
      have hdigit : ∀ n < 10, 0 < n → Nat.digitChar n ≠ '0' := by decide
      rintro c hc rfl
      exact hdigit n hn h (Option.mem_some_iff.1 hc)
    · next hn =>
      have hdigits : Nat.toDigits 10 (n / 10) ≠ [] := Nat.toDigits_ne_nil
      rw [List.head?_append_of_ne_nil _ hdigits]
      exact ih (n / 10) (by omega) (by omega)

section Digits

variable {cs : List Char}

/-- Digits that are written are read as their values. -/
theorem digits?_map_byte (hne : cs ≠ []) (hdigit : ∀ c ∈ cs, c.isDigit) :
    digits? (cs.map byte) = some (cs.map digitValue, []) := by
  have hvalues : digitsOf (cs.map byte) = cs.map digitValue := by
    rw [digitsOf, List.map_map]
    exact List.map_congr_left fun c hc => (isDigit_byte (hdigit c hc)).2
  refine digits?_eq_some_iff.2 ⟨_, (List.append_nil _).symm, ?_, ?_, by simp, hvalues.symm⟩
  · exact mt List.map_eq_nil_iff.1 hne
  · exact List.forall_mem_map.2 fun c hc => (isDigit_byte (hdigit c hc)).1

/-- A whole number is read from its digits unless it is padded. -/
theorem wholeDigits?_map_byte (hne : cs ≠ []) (hdigit : ∀ c ∈ cs, c.isDigit)
    (hzero : '0' ∈ cs.head? → cs = ['0']) :
    wholeDigits? (cs.map byte) = some (cs.map digitValue, []) := by
  rw [wholeDigits?, digits?_map_byte hne hdigit]
  split
  · next d ds after heq =>
    have hds := (Prod.mk.inj (Option.some.inj heq)).1
    obtain ⟨c, _, rfl, hc, hrest⟩ := List.map_eq_cons_iff.1 hds
    obtain ⟨e, _, rfl, -, -⟩ := List.map_eq_cons_iff.1 hrest
    have hle := (toNat_of_isDigit (hdigit c List.mem_cons_self)).1
    obtain rfl : c = '0' := Char.toNat_inj.1 (Nat.le_antisymm (Nat.sub_eq_zero_iff_le.1 hc) hle)
    cases hzero rfl
  · rfl

/-- A row of digits is a numeral, if none or only one is a zero in front. -/
theorem numeral?_map_byte (hne : cs ≠ []) (hdigit : ∀ c ∈ cs, c.isDigit)
    (hzero : '0' ∈ cs.head? → cs = ['0']) :
    numeral? (cs.map byte) = some (⟨false, cs.map digitValue, [], none, true⟩, []) := by
  have hwhole := wholeDigits?_map_byte hne hdigit hzero
  obtain ⟨c, cs, rfl⟩ := List.exists_cons_of_ne_nil hne
  have hsign : byte c ≠ byte '-' := by
    intro h
    have hc := (isDigit_byte (hdigit c List.mem_cons_self)).1
    rw [h] at hc
    cases hc
  rw [List.map_cons] at hwhole ⊢
  simp [numeral?, hsign, hwhole, fraction?, exponent?]

end Digits

/-- The text of a natural number stands for it. -/
theorem numberOf?_natural (n : UInt64) :
    numberOf? (Json.Number.natural n).print = some (.natural n) := by
  have hdigit : ∀ c ∈ Nat.toDigits 10 n.toNat, c.isDigit := fun c hc =>
    Nat.isDigit_of_mem_toDigits (by decide) (by decide) hc
  have hbytes : bytesOfText (Json.Number.natural n).print =
      (Nat.toDigits 10 n.toNat).map byte := by
    rw [Json.Number.print, Nat.toString_eq_ofList_toDigits, bytesOfText_ofList]
    refine flatMap_utf8EncodeChar_of_lt fun c hc => ?_
    exact Nat.lt_of_le_of_lt (toNat_of_isDigit (hdigit c hc)).2 (by decide)
  have hzero : '0' ∈ (Nat.toDigits 10 n.toNat).head? → Nat.toDigits 10 n.toNat = ['0'] := by
    intro hhead
    obtain hn | hn := Nat.eq_zero_or_pos n.toNat
    · rw [hn]; rfl
    · exact absurd rfl (head_toDigits_ne hn '0' hhead)
  have hfold : ((Nat.toDigits 10 n.toNat).map digitValue).foldl
      (fun n d => n * 10 + d) 0 = n.toNat := by
    rw [List.foldl_map]
    simp only [digitValue, Nat.mul_comm _ 10]
    exact Nat.ofDigitChars_ten_toDigits
  have haccumulate := accumulate_of_lt (hfold.symm ▸ n.toNat_lt_size)
  rw [hfold] at haccumulate
  refine numberOf?_eq_some_iff.2
    ⟨_, by rw [hbytes, numeral?_map_byte Nat.toDigits_ne_nil hdigit hzero], ?_⟩
  simp [Numeral.number?, haccumulate, Numeral.integer]

end Document

end MiningPipelines
