import MiningPipelines.Run

/-!
# Delivering a result

A result carries entries and a tag. Its values are those of the entries, the later of one
key counting (`Wire.PartResult.contents`), provided that every entry can be decoded; else
the first that cannot is reported (`Wire.Entries.FirstFault`).

The tag, or the order of results, says which callback the result goes to
(`Registry.route?`), and the cursor moves behind that one (`Registry.advance`). A tag is looked up
in a table that was built once from all callbacks (`TagTable.lookup_foldl`), and leads to the first
callback that has it (`Registry.indexOfTag?_eq`). A result that goes nowhere changes nothing
(`Registry.dispatch_of_no_route`).
-/

namespace MiningPipelines

/-! ## The values of a result -/

namespace Wire

/-- The entries that can be decoded. -/
def Entries.decoded (entries : Entries) : List (String × MiningPipelines.Value) :=
  entries.filterMap fun e => e.2.decode.toOption.map (e.1, ·)

/-- All entries can be decoded. -/
def Entries.Decodable (entries : Entries) : Prop := ∀ e ∈ entries, ∃ v, e.2.decode = .ok v

/-- The first entry that cannot be decoded has the key `key`, and `cause` is why. -/
def Entries.FirstFault (entries : Entries) (key : String) (cause : DecodeFault) : Prop :=
  ∃ pre v rest, entries = pre ++ (key, v) :: rest ∧ Entries.Decodable pre ∧
    v.decode = .error cause

/-- The values of a result, the later of one key counting. -/
def PartResult.contents (result : PartResult) : Values :=
  .ofEntries (Entries.decoded result.values)

/-- Entries are read up to the first that cannot be, if there is one. -/
theorem Entries.decodable_or_firstFault : ∀ entries : Entries,
    Entries.Decodable entries ∨ ∃ key cause, Entries.FirstFault entries key cause
  | [] => Or.inl (List.forall_mem_nil _)
  | (k, v) :: rest => by
    cases hv : v.decode with
    | error cause => exact Or.inr ⟨k, cause, [], v, rest, rfl, List.forall_mem_nil _, hv⟩
    | ok w =>
      rcases Entries.decodable_or_firstFault rest with h | ⟨key, cause, pre, u, post, rfl, hpre, hu⟩
      · exact Or.inl (List.forall_mem_cons.2 ⟨⟨w, hv⟩, h⟩)
      · exact Or.inr ⟨key, cause, (k, v) :: pre, u, post, rfl,
          List.forall_mem_cons.2 ⟨⟨w, hv⟩, hpre⟩, hu⟩

/-- Entries with a first fault cannot all be decoded. -/
theorem Entries.FirstFault.not_decodable {entries : Entries} {key : String} {cause : DecodeFault}
    (h : Entries.FirstFault entries key cause) : ¬Entries.Decodable entries := by
  obtain ⟨pre, v, rest, rfl, -, hv⟩ := h
  intro hd
  obtain ⟨w, hw⟩ := hd (key, v) (by simp)
  cases hv.symm.trans hw

end Wire

/-- Entries that can be decoded are added one by one, to any values that are there already. -/
theorem Run.decodeValues_of_decodable : ∀ {entries : Wire.Entries} (acc : Values),
    Wire.Entries.Decodable entries → Run.decodeValues acc entries =
      .ok ((Wire.Entries.decoded entries).foldl (fun values e => putEntry e.1 e.2 values) acc)
  | [], _, _ => rfl
  | (k, v) :: rest, acc, h => by
    obtain ⟨⟨w, hw⟩, hrest⟩ := List.forall_mem_cons.1 h
    have hdecoded : Wire.Entries.decoded ((k, v) :: rest) =
        (k, w) :: Wire.Entries.decoded rest := by
      simp [Wire.Entries.decoded, hw, Except.toOption]
    rw [Run.decodeValues, hw, hdecoded, List.foldl_cons]
    exact Run.decodeValues_of_decodable _ hrest

/-- The first entry that cannot be decoded is reported, whatever comes behind it. -/
theorem Run.decodeValues_of_firstFault {entries : Wire.Entries} {key : String}
    {cause : DecodeFault} (acc : Values) (h : Wire.Entries.FirstFault entries key cause) :
    Run.decodeValues acc entries = .error (.undecodableValue key cause) := by
  obtain ⟨pre, v, rest, rfl, hpre, hv⟩ := h
  induction pre generalizing acc with
  | nil => rw [List.nil_append, Run.decodeValues, hv]
  | cons e pre ih =>
    obtain ⟨⟨w, hw⟩, hpre⟩ := List.forall_mem_cons.1 hpre
    rw [List.cons_append, Run.decodeValues, hw]
    exact ih _ hpre

/-! ## Where a result goes -/

namespace TagTable

variable (table : TagTable) (tag : Tag)

/-- An entry at the end of a table is found only if none before it has the tag. -/
theorem lookup_concat (key : Tag) (index : Nat) : (table ++ [(key, index)]).lookup tag =
    (table.lookup tag).or (if tag = key then some index else none) := by
  induction table with
  | nil =>
    by_cases htag : tag = key
    · simp [htag]
    · simp [htag, List.lookup_cons, beq_eq_false_iff_ne.2 htag]
  | cons entry rest ih =>
    rw [List.cons_append, List.lookup_cons, List.lookup_cons, ih]
    split <;> rfl

/-- A tag that is in the table keeps its position. -/
theorem lookup_orInsert (key : Tag) (index : Nat) : (table.orInsert key index).lookup tag =
    (table.lookup tag).or (if tag = key then some index else none) := by
  rw [orInsert]
  split
  · next hkey =>
    by_cases htag : tag = key
    · subst htag
      rw [Option.or_of_isSome hkey]
    · rw [if_neg htag, Option.or_none]
  · exact lookup_concat table tag key index

/-- A callback without a tag enters nothing. -/
theorem lookup_enter (c : Callback) (index : Nat) : (table.enter (c, index)).lookup tag =
    (table.lookup tag).or (if c.tag = some tag then some index else none) := by
  cases hc : c.tag with
  | none => simp [enter, hc]
  | some key =>
    simp only [enter, hc, Option.some.injEq, eq_comm (a := key)]
    exact lookup_orInsert table tag key index

/-- Behind what a table has for a tag comes the first of the callbacks that has it. The induction is
on the callbacks, for any table and any position to count from. -/
theorem lookup_foldl : ∀ (callbacks : List Callback) (table : TagTable) (n : Nat),
    ((callbacks.zipIdx n).foldl enter table).lookup tag =
      (table.lookup tag).or ((callbacks.findIdx? fun c => c.tag == some tag).map (· + n))
  | [], table, n => by simp
  | c :: rest, table, n => by
    rw [List.zipIdx_cons, List.foldl_cons, lookup_foldl rest, lookup_enter, List.findIdx?_cons,
      Option.or_assoc]
    by_cases hc : c.tag = some tag
    · simp [hc]
    · simp [hc, Nat.add_assoc, Nat.add_comm 1 n, Function.comp_def]

end TagTable

namespace Registry

variable (r : Registry)

/-- The position that a result goes to : the first with its tag, or the cursor. -/
def position? (tag : Option Tag) : Option Nat :=
  match r.mode, tag with
  | .tagged, some tag => r.indexOfTag? tag
  | _, _ => if r.cursor < r.size then some r.cursor else none

/-- The callback that a result goes to, with its position. -/
def route? (tag : Option Tag) : Option (Nat × Callback) :=
  (r.position? tag).bind fun i => r.callbacks[i]?.map (Prod.mk i)

/-- What is wrong with a result that goes to no callback. -/
def misrouted (tag : Option Tag) : ProtocolFault :=
  match r.mode, tag with
  | .tagged, some tag => .unknownTag tag
  | _, _ => .tooManyResults r.size

/-- The registry after a result went to position `i`. -/
def advance (i : Nat) : Registry := { r with cursor := max r.cursor (i + 1) }

variable {r}

/-- Selecting a callback moves the cursor behind it, and never back. -/
theorem select_of_position {tag : Option Tag} {i : Nat} (h : r.position? tag = some i) :
    r.select tag = .ok (i, r.advance i) := by
  have hnext : (if r.cursor < r.size then some r.cursor else none) = some i →
      r.selectNext = .ok (i, r.advance i) := by
    intro h
    split at h
    · next hlt =>
      obtain rfl := Option.some.inj h
      have hmax : max r.cursor (r.cursor + 1) = r.cursor + 1 := Nat.max_eq_right (Nat.le_succ _)
      rw [selectNext, if_pos hlt, advance, hmax]
    · cases h
  unfold position? at h
  unfold select
  cases hmode : r.mode <;> cases tag <;> simp only [hmode] at h ⊢
  case tagged.some tag =>
    simp only [h]
    rw [advance, hmode]
  all_goals exact hnext h

/-- A result without a position is refused with what is wrong with it. -/
theorem select_of_no_position {tag : Option Tag} (h : r.position? tag = none) :
    r.select tag = .error (r.misrouted tag) := by
  have hnext : (if r.cursor < r.size then some r.cursor else none) = none →
      r.selectNext = .error (.tooManyResults r.size) := by
    intro h
    split at h
    · cases h
    · next hlt => rw [selectNext, if_neg hlt]
  unfold position? at h
  unfold select misrouted
  cases hmode : r.mode <;> cases tag <;> simp only [hmode] at h ⊢
  case tagged.some tag => simp only [h]
  all_goals exact hnext h

/-- The table has the position of the first callback with a tag. -/
theorem indexOfTag?_eq (tag : Tag) :
    r.indexOfTag? tag = r.callbacks.findIdx? fun c => c.tag == some tag := by
  rw [indexOfTag?, r.byTag_eq, TagTable.ofCallbacks, TagTable.lookup_foldl]
  simp

/-- A tag leads to a callback that has it, and that none with the same tag comes before. -/
theorem indexOfTag?_eq_some_iff {tag : Tag} {i : Nat} : r.indexOfTag? tag = some i ↔
    ∃ c, r.callbacks[i]? = some c ∧ c.tag = some tag ∧
      ∀ j d, j < i → r.callbacks[j]? = some d → d.tag ≠ some tag := by
  rw [indexOfTag?_eq, List.findIdx?_eq_some_iff_getElem]
  constructor
  · rintro ⟨hi, hc, hbefore⟩
    refine ⟨_, List.getElem?_eq_getElem hi, by simpa using hc, fun j d hj hd => ?_⟩
    obtain ⟨hjl, rfl⟩ := List.getElem?_eq_some_iff.1 hd
    simpa using hbefore j hj
  · rintro ⟨c, hc, htag, hbefore⟩
    obtain ⟨hi, rfl⟩ := List.getElem?_eq_some_iff.1 hc
    refine ⟨hi, by simpa using htag, fun j hj => ?_⟩
    simpa using hbefore j _ hj (List.getElem?_eq_getElem (Nat.lt_trans hj hi))

/-- A result goes to a position inside the list. -/
theorem exists_of_position {tag : Option Tag} {i : Nat} (h : r.position? tag = some i) :
    ∃ c, r.callbacks[i]? = some c := by
  unfold position? at h
  split at h
  · obtain ⟨c, hc, -⟩ := indexOfTag?_eq_some_iff.1 h
    exact ⟨c, hc⟩
  · split at h
    · next hlt =>
      obtain rfl := Option.some.inj h
      exact ⟨_, List.getElem?_eq_getElem hlt⟩
    · cases h

/-- A route is a position and the callback that stands there. -/
theorem route?_eq_some_iff {tag : Option Tag} {i : Nat} {c : Callback} :
    r.route? tag = some (i, c) ↔ r.position? tag = some i ∧ r.callbacks[i]? = some c := by
  simp only [route?, Option.bind_eq_some_iff, Option.map_eq_some_iff, Prod.mk.injEq]
  constructor
  · rintro ⟨j, hj, d, hd, rfl, rfl⟩
    exact ⟨hj, hd⟩
  · rintro ⟨hi, hc⟩
    exact ⟨i, hi, c, hc, rfl, rfl⟩

/-- Positions are inside the list, so a result has a route as soon as it has a position. -/
theorem route?_eq_none_iff {tag : Option Tag} : r.route? tag = none ↔ r.position? tag = none := by
  constructor
  · intro h
    rw [Option.eq_none_iff_forall_not_mem]
    intro i hi
    obtain ⟨c, hc⟩ := exists_of_position hi
    cases h.symm.trans (route?_eq_some_iff.2 ⟨hi, hc⟩)
  · intro h
    rw [route?, h, Option.bind_none]

theorem exists_route_of_position {tag : Option Tag} {i : Nat} (h : r.position? tag = some i) :
    ∃ c, r.callbacks[i]? = some c ∧ r.route? tag = some (i, c) := by
  obtain ⟨c, hc⟩ := exists_of_position h
  exact ⟨c, hc, route?_eq_some_iff.2 ⟨h, hc⟩⟩

/-- What was selected is the position of the result. -/
theorem position_of_select {tag : Option Tag} {i : Nat} {next : Registry}
    (h : r.select tag = .ok (i, next)) : r.position? tag = some i ∧ next = r.advance i := by
  cases hposition : r.position? tag with
  | none => cases h.symm.trans (select_of_no_position hposition)
  | some j =>
    obtain ⟨rfl, rfl⟩ := Prod.mk.inj (Except.ok.inj (h.symm.trans (select_of_position hposition)))
    exact ⟨rfl, rfl⟩

theorem route_of_select_error {tag : Option Tag} {cause : ProtocolFault}
    (h : r.select tag = .error cause) : r.route? tag = none := by
  rw [route?_eq_none_iff, Option.eq_none_iff_forall_ne_some]
  intro i hi
  cases h.symm.trans (select_of_position hi)

/-- What comes of calling the handler of a callback. -/
def answer (i : Nat) (c : Callback) (reply : Reply) : Except Failure (Nat × String) :=
  match reply.result with
  | .ok () => .ok (i, c.label)
  | .error reason => .error (.handler c.label reason)

/-- A result with a route moves the cursor and calls the handler at the end of the route, with its
values. -/
theorem dispatch_of_route (handlers : Handlers) (index : Nat) {tag : Option Tag}
    (values : Values) {i : Nat} {c : Callback} (h : r.route? tag = some (i, c)) :
    ∃ logs, r.dispatch handlers index tag values =
      ⟨r.advance i, answer i c (c.handler.call handlers values), [⟨i, c.handler, values⟩], logs,
        (c.handler.call handlers values).cancels⟩ := by
  obtain ⟨hi, hc⟩ := route?_eq_some_iff.1 h
  unfold dispatch
  rw [select_of_position hi]
  simp only [hc]
  exact ⟨_, rfl⟩

/-- A result that goes nowhere calls nothing and leaves the registry as it was. -/
theorem dispatch_of_no_route (handlers : Handlers) (index : Nat) {tag : Option Tag}
    (values : Values) (h : r.route? tag = none) : ∃ logs, r.dispatch handlers index tag values =
      ⟨r, .error (.protocol index (r.misrouted tag)), [], logs, false⟩ := by
  unfold dispatch
  rw [select_of_no_position (route?_eq_none_iff.1 h)]
  exact ⟨_, rfl⟩

end Registry

end MiningPipelines
