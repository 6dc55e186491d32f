import MiningPipelines.Proto.Reader

/-!
# Fields that were written

A natural of 64 bits is read back from its bytes, whatever follows them, and so is a field under a
proper tag. Reading a message folds its fields one after another, so a sequence of fields can be
followed from the front : `Field.Sets` says what the first fields make of the message that was there
before them, and how many levels of nesting they need. Where there are fewer levels the message is
not read at all.

Each writer of fields (`Field.text`, `Field.natural`, `Field.optional` and the others) has one lemma
on what it sets. From these `Restores.of_sets` makes the statement about a whole message : its bytes
are read as the message if it nests no deeper than the reader goes, and not at all otherwise.

Lengths are written in 64 bits, so bytes have to be fewer than that.
-/

namespace MiningPipelines

namespace Varint

/-- Each place but the first takes seven bits more. -/
theorem readPlaces_print : ∀ {places n : Nat} (rest : Bytes), n < 128 * Nat.pow 128 places →
    readPlaces (places + 1) (print n ++ rest) = some (n, rest)
  | places, n, rest, h => by
    rw [print]
    split
    · next hn =>
      have hbyte : (UInt8.ofNat n).toNat = n :=
        UInt8.toNat_ofNat_of_lt' (by simp only [UInt8.size]; omega)
      simp only [List.cons_append, List.nil_append, readPlaces, hbyte, if_pos hn]
    · next hn =>
      have hbyte : (UInt8.ofNat (n % 128 + 128)).toNat = n % 128 + 128 :=
        UInt8.toNat_ofNat_of_lt' (by simp only [UInt8.size]; omega)
      cases places with
      | zero => exact absurd h (by simp only [Nat.pow_eq, Nat.pow_zero]; omega)
      | succ places =>
        have hhigh : n / 128 < 128 * Nat.pow 128 places := by
          have hpow : Nat.pow 128 (places + 1) = Nat.pow 128 places * 128 := rfl
          omega
        rw [List.cons_append, readPlaces, hbyte, if_neg (by omega), readPlaces_print rest hhigh]
        simp only [Option.bind_eq_bind, Option.bind_some, Option.some.injEq, Prod.mk.injEq,
          and_true]
        omega

/-- A natural of 64 bits is read back. -/
theorem read_print {n : Nat} (h : n < UInt64.size) (rest : Bytes) :
    read (print n ++ rest) = some (n, rest) := by
  have hplaces : UInt64.size ≤ 128 * Nat.pow 128 9 := by decide
  simp only [read, readPlaces_print rest (Nat.lt_of_lt_of_le h hplaces), Option.bind_eq_bind,
    Option.bind_some, if_pos h]

theorem print_ne_nil (n : Nat) : print n ≠ [] := by
  rw [print]
  split <;> simp

/-- Naturals that follow each other are read up to the end. -/
theorem readAll_flatMap : ∀ ns : List UInt64,
    readAll (ns.flatMap fun n => print n.toNat) = some (ns.map UInt64.toNat)
  | [] => by rw [List.flatMap_nil, readAll]; rfl
  | n :: ns => by
    have hread := read_print n.toNat_lt_size (ns.flatMap fun n => print n.toNat)
    rw [List.flatMap_cons]
    cases hbs : print n.toNat ++ ns.flatMap fun n => print n.toNat with
    | nil => exact absurd (List.append_eq_nil_iff.1 hbs).1 (print_ne_nil _)
    | cons b bs =>
      rw [hbs] at hread
      rw [readAll]
      split
      · next hnone => rw [hnone] at hread; cases hread
      · next m rest hsome =>
        rw [hsome] at hread
        obtain ⟨rfl, rfl⟩ := Prod.mk.inj (Option.some.inj hread)
        rw [readAll_flatMap ns]
        rfl

end Varint

namespace Proto

namespace Field

/-! ## One field -/

/-- The tags that a field may have. -/
def IsTag (tag : Nat) : Prop := 0 < tag ∧ 8 * tag + 7 < UInt32.size

instance (tag : Nat) : Decidable (IsTag tag) := inferInstanceAs (Decidable (_ ∧ _))

/-- The low three bits of a key are the form, and the others the tag. -/
theorem readKey_printKey {tag form : Nat} (htag : IsTag tag) (hform : form < 8) (rest : Bytes) :
    readKey (printKey tag form ++ rest) = some (tag, form, rest) := by
  obtain ⟨hpos, hsize⟩ := htag
  have hkey : 8 * tag + form < UInt64.size := by
    have : UInt32.size ≤ UInt64.size := by decide
    omega
  have hdiv : (8 * tag + form) / 8 = tag := by omega
  have hmod : (8 * tag + form) % 8 = form := by omega
  have hfits : 8 * tag + form < UInt32.size ∧ 8 ≤ 8 * tag + form := by omega
  simp only [readKey, printKey, Varint.read_print hkey, Option.bind_eq_bind, Option.bind_some,
    if_pos hfits, hdiv, hmod]

/-- As many bytes are taken as were written. -/
theorem take_append (bs rest : Bytes) : take bs.length (bs ++ rest) = some (bs, rest) := by
  simp [take]

theorem length_lowBytes : ∀ count n : Nat, (lowBytes count n).length = count
  | 0, _ => rfl
  | count + 1, n => by rw [lowBytes, List.length_cons, length_lowBytes count]

/-- The bytes of a number of that many bytes are its digits, lowest first. -/
theorem littleEndian_lowBytes : ∀ {count n : Nat}, n < Nat.pow 256 count →
    littleEndian (lowBytes count n) = n
  | 0, n, h => (Nat.lt_one_iff.1 h).symm
  | count + 1, n, h => by
    have hbyte : (UInt8.ofNat (n % 256)).toNat = n % 256 :=
      UInt8.toNat_ofNat_of_lt' (by simp only [UInt8.size]; omega)
    have hhigh : n / 256 < Nat.pow 256 count := by
      have hpow : Nat.pow 256 (count + 1) = Nat.pow 256 count * 256 := rfl
      omega
    have hrest := littleEndian_lowBytes hhigh
    simp only [littleEndian] at hrest
    simp only [lowBytes, littleEndian, List.foldr_cons, hbyte, hrest]
    omega

/-- A varint under a tag is read back, whatever follows it. -/
theorem read_printVarint {tag n : Nat} (htag : IsTag tag) (hn : n < UInt64.size) (rest : Bytes) :
    read (printVarint tag n ++ rest) = some (⟨tag, .varint (.ofNat n)⟩, rest) := by
  rw [printVarint, List.append_assoc]
  simp [read, readKey_printKey htag (by decide : 0 < 8), readPayload, Varint.read_print hn]

/-- Bytes under a tag are read back by their length, whatever they contain. -/
theorem read_printBytes {tag : Nat} {bs : Bytes} (htag : IsTag tag) (hbs : bs.length < UInt64.size)
    (rest : Bytes) : read (printBytes tag bs ++ rest) = some (⟨tag, .bytes bs⟩, rest) := by
  rw [printBytes, List.append_assoc, List.append_assoc]
  simp [read, readKey_printKey htag (by decide : 2 < 8), readPayload, Varint.read_print hbs,
    take_append]

/-- Four bytes under a tag are read back bit for bit. -/
theorem read_printFixed32 {tag : Nat} (htag : IsTag tag) (w : UInt32) (rest : Bytes) :
    read (printFixed32 tag w ++ rest) = some (⟨tag, .fixed32 w⟩, rest) := by
  have htake := take_append (lowBytes 4 w.toNat) rest
  rw [length_lowBytes] at htake
  have hvalue := littleEndian_lowBytes (show w.toNat < Nat.pow 256 4 from w.toNat_lt_size)
  rw [printFixed32, List.append_assoc]
  simp [read, readKey_printKey htag (by decide : 5 < 8), readPayload, htake, hvalue]

/-- A field at the front is the first of the fields. -/
theorem parse_of_read {bs rest : Bytes} {f : Field} (h : read bs = some (f, rest)) :
    parse bs = (parse rest).map (f :: ·) := by
  cases bs with
  | nil => cases h
  | cons b bs =>
    rw [parse]
    split
    · next hnone => rw [hnone] at h; cases h
    · next g last hsome =>
      rw [hsome] at h
      obtain ⟨rfl, rfl⟩ := Prod.mk.inj (Option.some.inj h)
      rfl

end Field

/-! ## Fields in front of others -/

variable {α β : Type} {depth tag levels : Nat} {rules : Rules α} {bs : Bytes} {m m' : α}
  {rule : α → Payload → Option α}

theorem merge_nil : merge depth rules m [] = some m := by
  rw [merge, Field.parse]
  rfl

/-- The field in front is applied first, and the rest to what it leaves. -/
theorem merge_of_read {rest : Bytes} {f : Field} (h : Field.read bs = some (f, rest)) :
    merge depth rules m bs =
      (rules.apply depth m f).bind fun m' => merge depth rules m' rest := by
  rw [merge, Field.parse_of_read h]
  unfold merge
  cases Field.parse rest with
  | none => exact (Option.bind_fun_none _).symm
  | some fs => rfl

/-- In front of other fields, `bs` changes `m` to `m'` if there are enough levels below the message.
With fewer levels no message is read. -/
def Sets (depth : Nat) (rules : Rules α) (bs : Bytes) (levels : Nat) (m m' : α) : Prop :=
  bs.length < UInt64.size → ∀ rest, merge depth rules m (bs ++ rest) =
    if levels ≤ depth then merge depth rules m' rest else none

/-- The bytes are read as `m` if there are enough levels, and not at all otherwise. -/
def Restores (read : Nat → α → Bytes → Option α) (empty m : α) (bs : Bytes) (levels : Nat) : Prop :=
  bs.length < UInt64.size → ∀ n, read n empty bs = if levels ≤ n then some m else none

/-- The rule for fields under a tag. -/
def Rules.Has (rules : Rules α) (tag : Nat) (rule : α → Payload → Option α) : Prop :=
  Field.IsTag tag ∧ rules.lookup tag = some rule

/-- The levels of a nested message, if there is one. -/
def Field.optionalLevels (levels : α → Nat) : Option α → Nat
  | none => 0
  | some m => levels m

/-- The levels of the deepest message of a list. -/
def Field.messagesLevels (levels : α → Nat) : List α → Nat
  | [] => 0
  | m :: rest => max (levels m) (Field.messagesLevels levels rest)

namespace Sets

/-- No fields change nothing and need no levels. -/
theorem nil : Sets depth rules [] 0 m m := fun _ _ => (if_pos (Nat.zero_le depth)).symm

/-- Fields one after another need as many levels as the deepest of them. -/
theorem append {bs' : Bytes} {levels' : Nat} {m'' : α} (h : Sets depth rules bs levels m m')
    (h' : Sets depth rules bs' levels' m' m'') :
    Sets depth rules (bs ++ bs') (max levels levels') m m'' := by
  intro hlength rest
  rw [List.length_append] at hlength
  rw [List.append_assoc, h (by omega), h' (by omega)]
  by_cases hall : max levels levels' ≤ depth
  · obtain ⟨hfirst, hrest⟩ := Nat.max_le.1 hall
    rw [if_pos hfirst, if_pos hrest, if_pos hall]
  · rw [if_neg hall]
    split
    · next hfirst => exact if_neg fun hrest => hall (Nat.max_le.2 ⟨hfirst, hrest⟩)
    · rfl

/-- A single field is given to its rule. -/
theorem field {f : Field} (hrule : rules.Has f.tag rule)
    (hread : bs.length < UInt64.size → ∀ rest, Field.read (bs ++ rest) = some (f, rest))
    (hm : bs.length < UInt64.size →
      rule m f.payload = if levels ≤ depth then some m' else none) :
    Sets depth rules bs levels m m' := by
  intro hlength rest
  rw [merge_of_read (hread hlength rest), Rules.apply, hrule.2]
  simp only [hm hlength]
  split <;> rfl

/-- A varint is a field without levels. -/
theorem varint {n : Nat} (hrule : rules.Has tag rule) (hn : n < UInt64.size)
    (hm : rule m (.varint (.ofNat n)) = some m') :
    Sets depth rules (Field.printVarint tag n) 0 m m' :=
  field (f := ⟨tag, .varint (.ofNat n)⟩) hrule (fun _ => Field.read_printVarint hrule.1 hn)
    fun _ => hm.trans (if_pos (Nat.zero_le depth)).symm

theorem fixed32 {w : UInt32} (hrule : rules.Has tag rule) (hm : rule m (.fixed32 w) = some m') :
    Sets depth rules (Field.printFixed32 tag w) 0 m m' :=
  field (f := ⟨tag, .fixed32 w⟩) hrule (fun _ => Field.read_printFixed32 hrule.1 w)
    fun _ => hm.trans (if_pos (Nat.zero_le depth)).symm

/-- Bytes in a field are fewer than the bytes of the field. -/
theorem length_lt_of_printBytes (h : (Field.printBytes tag bs).length < UInt64.size) :
    bs.length < UInt64.size := by
  simp only [Field.printBytes, List.length_append] at h
  omega

/-- Bytes in a field may be a message, which is then what has levels. -/
theorem bytes (hrule : rules.Has tag rule) (hm : bs.length < UInt64.size →
      rule m (.bytes bs) = if levels ≤ depth then some m' else none) :
    Sets depth rules (Field.printBytes tag bs) levels m m' :=
  field (f := ⟨tag, .bytes bs⟩) hrule
    (fun hlength => Field.read_printBytes hrule.1 (length_lt_of_printBytes hlength))
    fun hlength => hm (length_lt_of_printBytes hlength)

/-! ### Scalars -/

/-- A text that is written also when it is empty. -/
theorem string (s : String) (f : String → α) (hrule : rules.Has tag rule)
    (hm : ∀ p, rule m p = p.text?.map f) :
    Sets depth rules (Field.printBytes tag (bytesOfText s)) 0 m (f s) :=
  bytes hrule fun _ => by rw [hm, Payload.text?, textOfBytes?_bytesOfText]; rfl

/-- An empty text is not written, and is what the message has there already. -/
theorem text (s : String) (f : String → α) (hrule : rules.Has tag rule)
    (hm : ∀ p, rule (f "") p = p.text?.map f) :
    Sets depth rules (Field.text tag s) 0 (f "") (f s) := by
  rw [Field.text]
  split
  · next hs => exact hs ▸ nil
  · exact string s f hrule hm

/-- Zero is not written, and is what the message has there already. -/
theorem natural {n : Nat} (hrule : rules.Has tag rule) (hn : n < UInt64.size)
    (hzero : n = 0 → m' = m) (hm : rule m (.varint (.ofNat n)) = some m') :
    Sets depth rules (Field.natural tag n) 0 m m' := by
  rw [Field.natural]
  split
  · next h => exact hzero h ▸ nil
  · exact varint hrule hn hm

theorem uint64 (n : UInt64) (f : UInt64 → α) (hrule : rules.Has tag rule)
    (hm : ∀ p, rule (f 0) p = p.uint64?.map f) :
    Sets depth rules (Field.natural tag n.toNat) 0 (f 0) (f n) := by
  refine natural hrule n.toNat_lt_size (fun h => ?_) ?_
  · rw [UInt64.toNat_inj.1 (h.trans UInt64.toNat_zero.symm)]
  · rw [hm, UInt64.ofNat_toNat]
    rfl

/-- The low half of a number that has no other is the number. -/
theorem uint32?_varint (n : UInt32) : Payload.uint32? (.varint (.ofNat n.toNat)) = some n := by
  have hhalf : (UInt64.ofNat n.toNat).toUInt32 = n := by
    apply UInt32.toNat_inj.1
    rw [UInt64.toNat_toUInt32, UInt64.toNat_ofNat_of_lt' (Nat.lt_trans n.toNat_lt_size (by decide))]
    exact Nat.mod_eq_of_lt n.toNat_lt_size
  rw [Payload.uint32?, hhalf]

theorem uint32 (n : UInt32) (f : UInt32 → α) (hrule : rules.Has tag rule)
    (hm : ∀ p, rule (f 0) p = p.uint32?.map f) :
    Sets depth rules (Field.natural tag n.toNat) 0 (f 0) (f n) := by
  refine natural hrule (Nat.lt_trans n.toNat_lt_size (by decide)) (fun h => ?_) ?_
  · rw [UInt32.toNat_inj.1 (h.trans UInt32.toNat_zero.symm)]
  · rw [hm, uint32?_varint]
    rfl

/-! ### Nested messages -/

section Nested

variable {read : Nat → β → Bytes → Option β} {empty : β}

/-- A nested message is read from its own bytes, one level further in. -/
theorem message {b : β} (f : β → α) (hrule : rules.Has tag rule)
    (hm : ∀ p, rule m p = (p.message? (read depth) empty).map f)
    (h : Restores read empty b bs levels) :
    Sets depth rules (Field.printBytes tag bs) levels m (f b) :=
  bytes hrule fun hlength => by
    rw [hm, Payload.message?, h hlength]
    split <;> rfl

/-- A missing message is not written, and one that is there is, even if it is empty. -/
theorem optional {print : β → Bytes} {size : β → Nat} (o : Option β) (f : Option β → α)
    (hrule : rules.Has tag rule)
    (hm : ∀ p, rule (f none) p = (p.message? (read depth) empty).map fun b => f (some b))
    (h : ∀ b ∈ o, Restores read empty b (print b) (size b)) :
    Sets depth rules (Field.optional tag print o) (Field.optionalLevels size o) (f none) (f o) := by
  cases o with
  | none => exact nil
  | some b => exact message (fun b => f (some b)) hrule hm (h b rfl)

/-- One more message for a list. -/
theorem item {b : β} (items : List β) (f : List β → α) (hrule : rules.Has tag rule)
    (hm : ∀ items p, rule (f items) p = (p.append? (read depth) empty items).map f)
    (h : Restores read empty b bs levels) :
    Sets depth rules (Field.printBytes tag bs) levels (f items) (f (items ++ [b])) :=
  message (fun b => f (items ++ [b])) hrule
    (fun p => by rw [hm, Payload.append?, Option.map_map]; rfl) h

/-- The items of a list are added one by one behind those that are there. -/
theorem messages {print : β → Bytes} {size : β → Nat} (f : List β → α)
    (hrule : rules.Has tag rule)
    (hm : ∀ items p, rule (f items) p = (p.append? (read depth) empty items).map f) :
    ∀ items before : List β, (∀ b ∈ items, Restores read empty b (print b) (size b)) →
      Sets depth rules (Field.messages tag print items) (Field.messagesLevels size items) (f before)
        (f (before ++ items))
  | [], before, _ => by
    rw [List.append_nil]
    exact nil
  | b :: items, before, h => by
    obtain ⟨hb, hitems⟩ := List.forall_mem_cons.1 h
    have hrest := messages f hrule hm items (before ++ [b]) hitems
    rw [List.append_assoc, List.singleton_append] at hrest
    exact (item before f hrule hm hb).append hrest

end Nested

/-! ### Lists of scalars -/

/-- The texts of a list are added one by one, the empty ones too. -/
theorem texts {rules : Rules (List String)} (hrule : rules.Has tag Payload.appendText?) :
    ∀ items before : List String,
      Sets depth rules (Field.texts tag items) 0 before (before ++ items)
  | [], before => by
    rw [List.append_nil]
    exact nil
  | s :: items, before => by
    have hfirst : Sets depth rules (Field.printBytes tag (bytesOfText s)) 0 before
        (before ++ [s]) := string s (fun s => before ++ [s]) hrule fun _ => rfl
    have hrest := texts hrule items (before ++ [s])
    rw [List.append_assoc, List.singleton_append] at hrest
    exact hfirst.append hrest

/-- The numbers of a list stand in the bytes of one field, and none in no field. -/
theorem packed {rules : Rules (List UInt64)} (hrule : rules.Has tag Payload.appendUInt64?)
    (items : List UInt64) : Sets depth rules (Field.packed tag items) 0 [] items := by
  cases items with
  | nil => exact nil
  | cons n items =>
    refine bytes hrule fun _ => ?_
    rw [Payload.appendUInt64?, Varint.readAll_flatMap, Option.map_some, List.map_map,
      if_pos (Nat.zero_le depth)]
    simp [Function.comp_def]

end Sets

namespace Restores

variable {read : Nat → α → Bytes → Option α} {rules : Nat → Rules α} {empty : α}

/-- A message is read by its rules, one level deeper than its fields. -/
theorem of_sets {total : Nat} (hzero : ∀ m bs, read 0 m bs = none)
    (hsucc : ∀ n m bs, read (n + 1) m bs = merge n (rules n) m bs)
    (h : ∀ n, Sets n (rules n) bs levels empty m) (htotal : total = levels + 1) :
    Restores read empty m bs total := by
  intro hlength n
  cases n with
  | zero => exact (hzero empty bs).trans (if_neg (by omega)).symm
  | succ n =>
    have hsets := h n hlength []
    rw [List.append_nil, merge_nil] at hsets
    rw [hsucc, hsets, htotal]
    simp only [Nat.add_le_add_iff_right]

/-- The levels of a message are one more than its fields need. -/
theorem readLevels {total : Nat} (h : ∀ n, Sets n (rules n) bs levels empty m)
    (htotal : total = levels + 1) : Restores (Proto.readLevels rules) empty m bs total :=
  of_sets (fun _ _ => rfl) (fun _ _ _ => rfl) h htotal

end Restores

end Proto

end MiningPipelines
