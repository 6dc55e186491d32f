import Mathlib.Data.List.Induction
import Mathlib.Order.Bounds.Basic
import MiningPipelines.Proofs.Stopping

/-!
# Sequences of dispatches

A registry is asked to dispatch results (`Parcel`) one behind the other, and goes on whatever
comes of them (`Standing.dispatchedAll`). By tag the positions are selected in any order and as
often as results name them, and all that the registry keeps of this is the cursor : it stands
behind the largest position selected so far (`Registry.Behind`). One dispatch keeps that
(`Registry.Behind.dispatch`), so it holds after any sequence of them, and a result without a tag
goes to a position that was never selected (`Standing.dispatch_behind`).

If each result has the tag of the callback in its place or none, both modes select by order
(`Registry.position?_of_own_tag`), so they dispatch alike (`Standing.dispatches_alike`).
-/

namespace MiningPipelines

/-- A result to be dispatched : its values, its tag, and the number of its message. -/
structure Parcel where
  index : Nat
  tag : Option Tag
  values : Values

namespace Registry

/-- The position that is selected for a result. -/
def selected? (r : Registry) (tag : Option Tag) : Option Nat :=
  (r.select tag).toOption.map Prod.fst

/-- The registry of the callbacks with the cursor at `n`. -/
def atCursor (callbacks : List Callback) (mode : CorrelationMode) (n : Nat) : Registry :=
  { ofCallbacks callbacks mode with cursor := n }

end Registry

namespace Standing

/-- Before the first dispatch. -/
def fresh (callbacks : List Callback) (mode : CorrelationMode) : Standing :=
  ⟨.ofCallbacks callbacks mode, []⟩

variable (handlers : Behaviour)

/-- What comes of dispatching a result to handlers that know the calls made before. -/
def dispatch (s : Standing) (x : Parcel) : Registry.Dispatch :=
  s.registry.dispatch (handlers.after s.calls) x.index x.tag x.values

/-- After a dispatch. -/
def dispatched (s : Standing) (x : Parcel) : Standing :=
  ⟨(s.dispatch handlers x).registry, s.calls ++ (s.dispatch handlers x).calls⟩

/-- After dispatches, whatever came of them. -/
def dispatchedAll (s : Standing) (xs : List Parcel) : Standing := xs.foldl (dispatched handlers) s

/-- What comes of each of the dispatches. -/
def dispatches (s : Standing) : List Parcel → List Registry.Dispatch
  | [] => []
  | x :: rest => s.dispatch handlers x :: dispatches (s.dispatched handlers x) rest

/-- The positions that the dispatches select, in order. -/
def selections (s : Standing) : List Parcel → List Nat
  | [] => []
  | x :: rest =>
    (s.registry.selected? x.tag).toList ++ selections (s.dispatched handlers x) rest

end Standing

/-! ## One dispatch -/

namespace Registry

variable {r : Registry} {tag : Option Tag}

theorem selected?_eq_position? (r : Registry) (tag : Option Tag) :
    r.selected? tag = r.position? tag := by
  unfold selected?
  cases h : r.position? tag with
  | none => rw [select_of_no_position h]; rfl
  | some i => rw [select_of_position h]; rfl

/-- By tag, a result goes to the first callback with its tag. -/
theorem position?_some_tag (hmode : r.mode = .tagged) {tag : Tag} {i : Nat} :
    r.position? (some tag) = some i ↔
      IsLeast {j | ∃ c, r.callbacks[j]? = some c ∧ c.tag = some tag} i := by
  simp only [position?, hmode]
  rw [indexOfTag?_eq_some_iff]
  constructor
  · rintro ⟨c, hc, htag, hbefore⟩
    refine ⟨⟨c, hc, htag⟩, ?_⟩
    rintro j ⟨d, hd, hdtag⟩
    exact Nat.le_of_not_lt fun hj => hbefore j d hj hd hdtag
  · rintro ⟨⟨c, hc, htag⟩, hleast⟩
    exact ⟨c, hc, htag, fun j d hj hd hdtag => absurd (hleast ⟨d, hd, hdtag⟩) (Nat.not_le_of_lt hj)⟩

/-- A result without a tag goes to the cursor. -/
theorem position?_none {i : Nat} :
    r.position? none = some i ↔ i = r.cursor ∧ r.cursor < r.size := by
  have hposition : r.position? none = if r.cursor < r.size then some r.cursor else none := by
    unfold position?
    cases r.mode <;> rfl
  rw [hposition]
  split <;> simp [*, eq_comm]

/-- A handler that fails is no fault of the engine. -/
theorem answer_ne_protocol (i : Nat) (c : Callback) (reply : Reply) (index : Nat)
    (cause : ProtocolFault) : answer i c reply ≠ .error (.protocol index cause) := by
  unfold answer
  split <;> simp

/-- The cursor stands behind the positions : it is one more than the largest of them, and
inside the list. -/
structure Behind (selected : List Nat) (r : Registry) : Prop where
  cursor : r.cursor = (selected.max?.map (· + 1)).getD 0
  inside : r.cursor ≤ r.size

end Registry

/-- One more than the largest of numbers. -/
theorem succ_max?_append_singleton (xs : List Nat) (i : Nat) :
    ((xs ++ [i]).max?.map (· + 1)).getD 0 = max ((xs.max?.map (· + 1)).getD 0) (i + 1) := by
  cases xs with
  | nil => simp
  | cons x xs =>
    simp only [List.cons_append, List.max?_cons', List.foldl_append, List.foldl_cons,
      List.foldl_nil, Option.map_some, Option.getD_some]
    omega

namespace Registry.Behind

variable {r : Registry} {selected : List Nat}

theorem lt_cursor (h : r.Behind selected) {i : Nat} (hi : i ∈ selected) : i < r.cursor := by
  obtain ⟨m, hm⟩ : ∃ m, selected.max? = some m :=
    Option.ne_none_iff_exists'.1 fun hnone => by simp_all
  rw [h.cursor, hm]
  exact Nat.lt_succ_of_le ((List.max?_eq_some_iff.1 hm).2 i hi)

/-- The cursor moves behind the position that is selected, and not at all if none is. -/
theorem dispatch (h : r.Behind selected) (handlers : Handlers) (index : Nat) (tag : Option Tag)
    (values : Values) :
    (r.dispatch handlers index tag values).registry.Behind
      (selected ++ (r.selected? tag).toList) := by
  rw [selected?_eq_position?]
  cases hposition : r.position? tag with
  | none =>
    obtain ⟨logs, hdispatch⟩ := dispatch_of_no_route handlers index values
      (route?_eq_none_iff.2 hposition)
    rw [hdispatch, Option.toList_none, List.append_nil]
    exact h
  | some i =>
    obtain ⟨c, hc, hroute⟩ := exists_route_of_position hposition
    obtain ⟨logs, hdispatch⟩ := dispatch_of_route handlers index values hroute
    rw [hdispatch, Option.toList_some]
    refine ⟨?_, Nat.max_le.2 ⟨h.inside, (List.getElem?_eq_some_iff.1 hc).1⟩⟩
    rw [succ_max?_append_singleton, ← h.cursor]
    rfl

end Registry.Behind

/-! ## Any number of dispatches -/

namespace Standing

variable (handlers : Behaviour) {s : Standing} {selected : List Nat}

theorem dispatchedAll_cons (s : Standing) (x : Parcel) (rest : List Parcel) :
    s.dispatchedAll handlers (x :: rest) = (s.dispatched handlers x).dispatchedAll handlers rest :=
  rfl

/-- A result that is selected for is handed to one handler, once, and the cursor moves behind
it even if that handler fails. -/
theorem dispatch_of_selected {x : Parcel} {i : Nat} (h : s.registry.selected? x.tag = some i) :
    ∃ c, s.registry.callbacks[i]? = some c ∧
      (s.dispatch handlers x).calls = [⟨i, c.handler, x.values⟩] ∧
      (s.dispatch handlers x).registry = s.registry.advance i ∧
      (s.dispatch handlers x).result =
        Registry.answer i c (c.handler.call (handlers.after s.calls) x.values) := by
  rw [Registry.selected?_eq_position?] at h
  obtain ⟨c, hc, hroute⟩ := Registry.exists_route_of_position h
  obtain ⟨logs, hdispatch⟩ :=
    Registry.dispatch_of_route (handlers.after s.calls) x.index x.values hroute
  refine ⟨c, hc, ?_⟩
  rw [dispatch, hdispatch]
  exact ⟨rfl, rfl, rfl⟩

/-- A result that nothing is selected for changes nothing. -/
theorem dispatch_of_not_selected {x : Parcel} (h : s.registry.selected? x.tag = none) :
    (s.dispatch handlers x).calls = [] ∧ (s.dispatch handlers x).registry = s.registry ∧
      ∃ cause, s.registry.Misroutes x.tag cause ∧
        (s.dispatch handlers x).result = .error (.protocol x.index cause) := by
  rw [Registry.selected?_eq_position?] at h
  have hroute := Registry.route?_eq_none_iff.2 h
  obtain ⟨logs, hdispatch⟩ :=
    Registry.dispatch_of_no_route (handlers.after s.calls) x.index x.values hroute
  rw [dispatch, hdispatch]
  exact ⟨rfl, rfl, _, Registry.misroutes_iff.2 ⟨hroute, rfl⟩, rfl⟩

variable {handlers} in
/-- Only a result that nothing is selected for is a fault of the engine : a handler that fails is
told apart from it. -/
theorem not_selected_of_protocol {x : Parcel} {index : Nat} {cause : ProtocolFault}
    (h : (s.dispatch handlers x).result = .error (.protocol index cause)) :
    s.registry.selected? x.tag = none := by
  rw [Option.eq_none_iff_forall_ne_some]
  intro i hi
  obtain ⟨c, -, -, -, hresult⟩ := dispatch_of_selected handlers hi
  exact Registry.answer_ne_protocol i c _ index cause (hresult.symm.trans h)

variable {handlers} in
theorem dispatch_of_protocol {x : Parcel} {index : Nat} {cause : ProtocolFault}
    (h : (s.dispatch handlers x).result = .error (.protocol index cause)) :
    (s.dispatch handlers x).calls = [] ∧ (s.dispatch handlers x).registry = s.registry ∧
      index = x.index ∧ s.registry.Misroutes x.tag cause := by
  obtain ⟨hcalls, hregistry, fault, hmis, hresult⟩ :=
    dispatch_of_not_selected handlers (not_selected_of_protocol h)
  obtain ⟨rfl, rfl⟩ := Failure.protocol.inj (Except.error.inj (hresult.symm.trans h))
  exact ⟨hcalls, hregistry, rfl, hmis⟩

/-- A dispatch moves the cursor forward, and does nothing else to the registry. -/
theorem registry_dispatch (s : Standing) (x : Parcel) : ∃ cursor,
    (s.dispatch handlers x).registry = { s.registry with cursor } ∧ s.registry.cursor ≤ cursor := by
  cases h : s.registry.selected? x.tag with
  | none => exact ⟨_, (dispatch_of_not_selected handlers h).2.1, Nat.le_refl _⟩
  | some i =>
    obtain ⟨c, -, -, hregistry, -⟩ := dispatch_of_selected handlers h
    exact ⟨_, hregistry, Nat.le_max_left _ _⟩

theorem registry_dispatchedAll (s : Standing) (xs : List Parcel) : ∃ cursor,
    (s.dispatchedAll handlers xs).registry = { s.registry with cursor } := by
  induction xs generalizing s with
  | nil => exact ⟨_, rfl⟩
  | cons x rest ih =>
    obtain ⟨cursor, hstep, -⟩ := s.registry_dispatch handlers x
    obtain ⟨last, hrest⟩ := ih (s.dispatched handlers x)
    refine ⟨last, ?_⟩
    rw [dispatchedAll_cons, hrest]
    simp only [dispatched, hstep]

/-- The cursor stands behind all that was selected, whatever the handlers did. -/
theorem behind_dispatchedAll (h : s.registry.Behind selected) (xs : List Parcel) :
    (s.dispatchedAll handlers xs).registry.Behind (selected ++ s.selections handlers xs) := by
  induction xs generalizing s selected with
  | nil => simpa [selections, dispatchedAll] using h
  | cons x rest ih =>
    have hnext : (s.dispatched handlers x).registry.Behind _ :=
      h.dispatch (handlers.after s.calls) x.index x.tag x.values
    rw [selections, ← List.append_assoc]
    exact ih hnext

/-- One call is made for each position that is selected. -/
theorem index_calls_dispatchedAll (s : Standing) (xs : List Parcel) :
    (s.dispatchedAll handlers xs).calls.map Call.index =
      s.calls.map Call.index ++ s.selections handlers xs := by
  induction xs generalizing s with
  | nil => simp [selections, dispatchedAll]
  | cons x rest ih =>
    have hcalls : (s.dispatch handlers x).calls.map Call.index =
        (s.registry.selected? x.tag).toList := by
      cases h : s.registry.selected? x.tag with
      | none =>
        rw [(dispatch_of_not_selected handlers h).1]
        rfl
      | some i =>
        obtain ⟨c, -, hcalls, -⟩ := dispatch_of_selected handlers h
        rw [hcalls]
        rfl
    rw [dispatchedAll_cons, ih, selections, dispatched, List.map_append, hcalls, List.append_assoc]

/-- Behind any dispatches by tag, the cursor is one more than the largest position that was
selected. A result with a tag goes to the first callback with that tag, and one without to the
cursor, which is behind every position that was selected. Its handler is called once and the
cursor moves behind it, whatever the handler does. A result that goes nowhere calls no handler and
changes nothing. -/
theorem dispatch_behind (callbacks : List Callback) (handlers : Behaviour) (before : List Parcel)
    (x : Parcel) :
    let start := fresh callbacks .tagged
    let s := start.dispatchedAll handlers before
    let selected := start.selections handlers before
    let d := s.dispatch handlers x
    s.registry = .atCursor callbacks .tagged ((selected.max?.map (· + 1)).getD 0) ∧
    s.registry.cursor ≤ d.registry.cursor ∧ d.registry.cursor ≤ callbacks.length ∧
    s.calls.map Call.index = selected ∧
    (∀ tag, x.tag = some tag → ∀ i, s.registry.selected? x.tag = some i ↔
      IsLeast {j | ∃ c, callbacks[j]? = some c ∧ c.tag = some tag} i) ∧
    (x.tag = none → ∀ i, (s.registry.selected? x.tag = some i ↔
        i = s.registry.cursor ∧ s.registry.cursor < callbacks.length) ∧
      (s.registry.selected? x.tag = some i → ∀ j ∈ selected, j < i)) ∧
    (∀ i, s.registry.selected? x.tag = some i → ∃ c, callbacks[i]? = some c ∧
      d.calls = [⟨i, c.handler, x.values⟩] ∧ d.registry = s.registry.advance i ∧
      d.result = Registry.answer i c (c.handler.call (handlers.after s.calls) x.values)) ∧
    (s.registry.selected? x.tag = none ↔ ∃ index cause, d.result = .error (.protocol index cause)) ∧
    ∀ index cause, d.result = .error (.protocol index cause) →
      d.calls = [] ∧ d.registry = s.registry ∧ index = x.index ∧
        s.registry.Misroutes x.tag cause := by
  intro start s selected d
  have hstart : start.registry.Behind [] := ⟨rfl, Nat.zero_le _⟩
  -- The cursor behind all that was selected is what the history leaves; the rest is one dispatch.
  have hbehind : s.registry.Behind selected := behind_dispatchedAll handlers hstart before
  obtain ⟨cursor, hregistry⟩ : ∃ cursor, s.registry = .atCursor callbacks .tagged cursor :=
    start.registry_dispatchedAll handlers before
  have hcallbacks : s.registry.callbacks = callbacks := congrArg Registry.callbacks hregistry
  have hmode : s.registry.mode = .tagged := congrArg Registry.mode hregistry
  have hsize : s.registry.size = callbacks.length := congrArg List.length hcallbacks
  obtain ⟨next, hnext, hle⟩ : ∃ next, d.registry = { s.registry with cursor := next } ∧ _ :=
    s.registry_dispatch handlers x
  have hinside : d.registry.cursor ≤ d.registry.size :=
    (hbehind.dispatch (handlers.after s.calls) x.index x.tag x.values).inside
  refine ⟨?_, hnext ▸ hle, ?_, start.index_calls_dispatchedAll handlers before, ?_, ?_, ?_, ?_,
    fun index cause => dispatch_of_protocol⟩
  · rw [← hbehind.cursor, hregistry]
    rfl
  · rw [hnext] at hinside ⊢
    exact hinside.trans_eq hsize
  · intro tag htag i
    rw [Registry.selected?_eq_position?, htag, Registry.position?_some_tag hmode, hcallbacks]
  · intro htag i
    rw [Registry.selected?_eq_position?, htag, Registry.position?_none, hsize]
    refine ⟨Iff.rfl, ?_⟩
    rintro ⟨rfl, -⟩ j hj
    exact hbehind.lt_cursor hj
  · intro i hi
    rw [← hcallbacks]
    exact dispatch_of_selected handlers hi
  · refine ⟨fun h => ?_, fun ⟨_, _, h⟩ => not_selected_of_protocol h⟩
    obtain ⟨-, -, cause, -, hresult⟩ := dispatch_of_not_selected handlers h
    exact ⟨x.index, cause, hresult⟩

/-- A repeated tag, an unknown one and handlers that fail : the result without a tag goes to the
last callback, which no other result was given. -/
theorem dispatch_behind_repeated :
    let callbacks : List Callback := [⟨some "a", "A", .named "f"⟩, ⟨some "b", "B", .named "f"⟩,
      ⟨some "a", "C", .named "f"⟩, ⟨none, "D", .named "f"⟩]
    let handlers : Behaviour := ⟨fun _ _ _ => ⟨.error "full", [], false⟩⟩
    let start := fresh callbacks .tagged
    let before : List Parcel :=
      [⟨0, some "b", []⟩, ⟨1, some "a", []⟩, ⟨2, some "z", []⟩, ⟨3, none, []⟩]
    start.selections handlers before = [1, 0, 2] ∧
      ∀ j ∈ start.selections handlers before, j < 3 := by
  intro callbacks handlers start before
  have hlast := (dispatch_behind callbacks handlers before ⟨4, none, []⟩).2.2.2.2.2.1 rfl 3
  exact ⟨by decide, hlast.2 (by decide)⟩

end Standing

/-! ## Both modes -/

/-- The dispatches select alike, call the same handlers with the same values, and end alike. -/
structure Registry.Dispatch.Alike (d e : Registry.Dispatch) : Prop where
  cursor : d.registry.cursor = e.registry.cursor
  result : d.result = e.result
  calls : d.calls = e.calls
  cancels : d.cancels = e.cancels

namespace Parcel

/-- The result without its tag. -/
def untagged (x : Parcel) : Parcel := { x with tag := none }

/-- Each result has the tag of the callback in its place, from position `n` on, or none. -/
def OwnTags (callbacks : List Callback) (n : Nat) (xs : List Parcel) : Prop :=
  ∀ i x, xs[i]? = some x → x.tag = none ∨ ∃ c, callbacks[n + i]? = some c ∧ x.tag = c.tag

variable {callbacks : List Callback} {n : Nat} {x : Parcel} {rest : List Parcel}

theorem OwnTags.head (h : OwnTags callbacks n (x :: rest)) :
    x.tag = none ∨ ∃ c, callbacks[n]? = some c ∧ x.tag = c.tag :=
  h 0 x rfl

theorem OwnTags.tail (h : OwnTags callbacks n (x :: rest)) : OwnTags callbacks (n + 1) rest := by
  intro i y hy
  rw [Nat.add_assoc, Nat.add_comm 1]
  exact h (i + 1) y hy

/-- Behind the last callback there are no tags. -/
theorem OwnTags.of_le (h : OwnTags callbacks (n + 1) rest) (hn : callbacks.length ≤ n) :
    OwnTags callbacks n rest := by
  intro i y hy
  refine Or.inl ((h i y hy).resolve_right ?_)
  rintro ⟨c, hc, -⟩
  have hi := (List.getElem?_eq_some_iff.1 hc).1
  omega

end Parcel

namespace Registry

variable {r : Registry} {tag : Option Tag}

/-- In either mode, a result with the tag of the callback at the cursor goes where one without
a tag would go, since no callback before has the same tag. -/
theorem position?_of_own_tag (hnodup : (r.callbacks.filterMap Callback.tag).Nodup)
    (h : tag = none ∨ ∃ c, r.callbacks[r.cursor]? = some c ∧ tag = c.tag) :
    r.position? tag = r.position? none := by
  rcases h with rfl | ⟨c, hc, rfl⟩
  · rfl
  cases hmode : r.mode with
  | positional => simp only [position?, hmode]
  | tagged =>
    cases htag : c.tag with
    | none => rfl
    | some tag =>
      rw [position?_none.2 ⟨rfl, (List.getElem?_eq_some_iff.1 hc).1⟩, position?_some_tag hmode]
      refine ⟨⟨c, hc, htag⟩, ?_⟩
      rintro j ⟨d, hd, hdtag⟩
      by_contra hlt
      have hdistinct := List.pairwise_iff_getElem.1 (List.pairwise_filterMap.1 hnodup) j r.cursor
        (List.getElem?_eq_some_iff.1 hd).1 (List.getElem?_eq_some_iff.1 hc).1
        (Nat.lt_of_not_le hlt)
      rw [(List.getElem?_eq_some_iff.1 hd).2, (List.getElem?_eq_some_iff.1 hc).2] at hdistinct
      exact hdistinct tag hdtag tag htag rfl

/-- By order, tags make no difference. -/
theorem dispatch_untagged (hmode : r.mode = .positional) (handlers : Handlers) (index : Nat)
    (tag : Option Tag) (values : Values) :
    r.dispatch handlers index tag values = r.dispatch handlers index none values := by
  unfold dispatch select untaggedRecords
  simp only [hmode]

section OwnTag

variable {callbacks : List Callback} {n : Nat} (hnodup : (callbacks.filterMap Callback.tag).Nodup)
  (h : tag = none ∨ ∃ c, callbacks[n]? = some c ∧ tag = c.tag)

include hnodup h

theorem selected?_of_own_tag :
    selected? (atCursor callbacks .tagged n) tag =
      selected? (atCursor callbacks .positional n) tag := by
  rw [selected?_eq_position?, selected?_eq_position?,
    position?_of_own_tag (r := (atCursor callbacks .tagged n)) hnodup h,
    position?_of_own_tag (r := (atCursor callbacks .positional n)) hnodup h]
  rfl

/-- A result with the tag of the callback at the cursor, or none, is dispatched alike in both
modes, and the cursor moves on by one unless it is behind the last callback. -/
theorem alike_of_own_tag (handlers : Handlers) (index : Nat) (values : Values) :
    let d := dispatch handlers (atCursor callbacks .tagged n) index tag values
    d.Alike (dispatch handlers (atCursor callbacks .positional n) index tag values) ∧
      (d.registry.cursor = n + 1 ∨ d.registry.cursor = n ∧ callbacks.length ≤ n) := by
  intro d
  rcases Nat.lt_or_ge n callbacks.length with hn | hn
  · have hroute : ∀ mode, route? (atCursor callbacks mode n) tag = some (n, callbacks[n]) := by
      intro mode
      have hposition := position?_of_own_tag (r := (atCursor callbacks mode n)) hnodup h
      exact route?_eq_some_iff.2 ⟨hposition.trans (position?_none.2 ⟨rfl, hn⟩),
        List.getElem?_eq_getElem hn⟩
    obtain ⟨logs, hd⟩ := dispatch_of_route handlers index values (hroute .tagged)
    obtain ⟨logs', he⟩ := dispatch_of_route handlers index values (hroute .positional)
    rw [show d = _ from hd, he]
    exact ⟨⟨rfl, rfl, rfl, rfl⟩, Or.inl (Nat.max_eq_right (Nat.le_succ n))⟩
  · obtain rfl : tag = none := by
      refine h.resolve_right ?_
      rintro ⟨c, hc, -⟩
      exact absurd (List.getElem?_eq_some_iff.1 hc).1 (Nat.not_lt_of_le hn)
    have hroute : ∀ mode, route? (atCursor callbacks mode n) none = none := fun mode =>
      route?_eq_none_iff.2 (Option.eq_none_iff_forall_ne_some.2 fun i hi =>
        absurd (position?_none.1 hi).2 (Nat.not_lt_of_le hn))
    obtain ⟨logs, hd⟩ := dispatch_of_no_route handlers index values (hroute .tagged)
    obtain ⟨logs', he⟩ := dispatch_of_no_route handlers index values (hroute .positional)
    rw [show d = _ from hd, he]
    exact ⟨⟨rfl, rfl, rfl, rfl⟩, Or.inr ⟨rfl, hn⟩⟩

end OwnTag

end Registry

namespace Standing

variable (handlers : Behaviour) {callbacks : List Callback}

/-- Results with the tags of the callbacks in their places are dispatched alike in both modes. -/
theorem alike_of_own_tags (hnodup : (callbacks.filterMap Callback.tag).Nodup) {n : Nat}
    {xs : List Parcel} (h : Parcel.OwnTags callbacks n xs) (calls : List Call) :
    List.Forall₂ Registry.Dispatch.Alike
      (dispatches handlers ⟨.atCursor callbacks .tagged n, calls⟩ xs)
      (dispatches handlers ⟨.atCursor callbacks .positional n, calls⟩ xs) ∧
    selections handlers ⟨.atCursor callbacks .tagged n, calls⟩ xs =
      selections handlers ⟨.atCursor callbacks .positional n, calls⟩ xs := by
  induction xs generalizing n calls with
  | nil => exact ⟨.nil, rfl⟩
  | cons x rest ih =>
    let s : Standing := ⟨.atCursor callbacks .tagged n, calls⟩
    let t : Standing := ⟨.atCursor callbacks .positional n, calls⟩
    obtain ⟨halike, hcursor⟩ : (s.dispatch handlers x).Alike (t.dispatch handlers x) ∧ _ :=
      Registry.alike_of_own_tag hnodup h.head (handlers.after calls) x.index x.values
    obtain ⟨m, hs, -⟩ := s.registry_dispatch handlers x
    obtain ⟨m', ht, -⟩ := t.registry_dispatch handlers x
    obtain rfl : m = m' := by simpa [hs, ht] using halike.cursor
    have hrest : Parcel.OwnTags callbacks m rest := by
      rcases hcursor with hm | ⟨hm, hn⟩
      · obtain rfl : m = n + 1 := (congrArg Registry.cursor hs).symm.trans hm
        exact h.tail
      · obtain rfl : m = n := (congrArg Registry.cursor hs).symm.trans hm
        exact h.tail.of_le hn
    have hnext : s.dispatched handlers x = ⟨.atCursor callbacks .tagged m, _⟩ :=
      congrArg (Standing.mk · _) hs
    have hnext' : t.dispatched handlers x = ⟨.atCursor callbacks .positional m, _⟩ :=
      congrArg (Standing.mk · _) ht
    obtain ⟨hdispatches, hselections⟩ := ih hrest (calls ++ (s.dispatch handlers x).calls)
    constructor
    · refine .cons halike ?_
      rw [hnext, hnext', ← halike.calls]
      exact hdispatches
    · rw [selections, selections, hnext, hnext', ← halike.calls,
        Registry.selected?_of_own_tag hnodup h.head]
      exact congrArg _ hselections

/-- By order, results are dispatched as if they had no tags. -/
theorem dispatches_untagged {s : Standing} (hmode : s.registry.mode = .positional)
    (xs : List Parcel) :
    s.dispatches handlers xs = s.dispatches handlers (xs.map Parcel.untagged) ∧
      s.selections handlers xs = s.selections handlers (xs.map Parcel.untagged) := by
  induction xs generalizing s with
  | nil => exact ⟨rfl, rfl⟩
  | cons x rest ih =>
    have hdispatch : s.dispatch handlers x = s.dispatch handlers x.untagged :=
      Registry.dispatch_untagged hmode _ _ _ _
    have hselected : s.registry.selected? x.tag = s.registry.selected? x.untagged.tag := by
      rw [Registry.selected?_eq_position?, Registry.selected?_eq_position?]
      simp only [Registry.position?, hmode]
    have hnext : s.dispatched handlers x = s.dispatched handlers x.untagged := by
      rw [dispatched, dispatched, hdispatch]
    have hmode' : (s.dispatched handlers x.untagged).registry.mode = .positional := by
      obtain ⟨cursor, h, -⟩ := s.registry_dispatch handlers x.untagged
      rw [show (s.dispatched handlers x.untagged).registry = _ from h]
      exact hmode
    obtain ⟨hdispatches, hselections⟩ := ih hmode'
    rw [List.map_cons, dispatches, dispatches, selections, selections, hdispatch, hnext, hselected,
      hdispatches, hselections]
    exact ⟨rfl, rfl⟩

/-- With distinct tags, results that carry the tag of the callback in their place or none are
dispatched alike in both modes, one by one. By order, tags make no difference whatever they are. -/
theorem dispatches_alike (callbacks : List Callback) (handlers : Behaviour) :
    let tagged := fresh callbacks .tagged
    let positional := fresh callbacks .positional
    ((callbacks.filterMap Callback.tag).Nodup → ∀ xs, Parcel.OwnTags callbacks 0 xs →
      List.Forall₂ Registry.Dispatch.Alike (tagged.dispatches handlers xs)
        (positional.dispatches handlers xs) ∧
      tagged.selections handlers xs = positional.selections handlers xs) ∧
    ∀ xs ys, xs.map Parcel.untagged = ys.map Parcel.untagged →
      positional.dispatches handlers xs = positional.dispatches handlers ys ∧
        positional.selections handlers xs = positional.selections handlers ys := by
  intro tagged positional
  refine ⟨fun hnodup xs h => alike_of_own_tags handlers hnodup h [], fun xs ys h => ?_⟩
  have hx := dispatches_untagged handlers (s := positional) rfl xs
  have hy := dispatches_untagged handlers (s := positional) rfl ys
  exact ⟨hx.1.trans (h ▸ hy.1.symm), hx.2.trans (h ▸ hy.2.symm)⟩

/-- The second callback has no tag, the second handler that is called fails, and the fourth result
finds no callback left. -/
theorem dispatches_alike_exhausted :
    let callbacks : List Callback :=
      [⟨some "a", "A", .named "f"⟩, ⟨none, "B", .named "f"⟩, ⟨some "c", "C", .named "f"⟩]
    let handlers : Behaviour :=
      ⟨fun calls _ _ => if calls.length = 1 then ⟨.error "full", [], false⟩ else .ok⟩
    let xs : List Parcel := [⟨0, some "a", []⟩, ⟨1, none, []⟩, ⟨2, some "c", []⟩, ⟨3, none, []⟩]
    let ys : List Parcel := [⟨0, none, []⟩, ⟨1, some "a", []⟩, ⟨2, some "z", []⟩, ⟨3, some "", []⟩]
    ((fresh callbacks .tagged).dispatches handlers xs).map Registry.Dispatch.result =
        [.ok (0, "A"), .error (.handler "B" "full"), .ok (2, "C"),
          .error (.protocol 3 (.tooManyResults 3))] ∧
      List.Forall₂ Registry.Dispatch.Alike ((fresh callbacks .tagged).dispatches handlers xs)
        ((fresh callbacks .positional).dispatches handlers ys) := by
  intro callbacks handlers xs ys
  have htags : Parcel.OwnTags callbacks 0 xs := by
    intro i x hx
    match i with
    | 0 => exact Or.inr ⟨_, rfl, by obtain rfl := Option.some.inj hx; rfl⟩
    | 1 => exact Or.inl (by obtain rfl := Option.some.inj hx; rfl)
    | 2 => exact Or.inr ⟨_, rfl, by obtain rfl := Option.some.inj hx; rfl⟩
    | 3 => exact Or.inl (by obtain rfl := Option.some.inj hx; rfl)
    | _ + 4 => cases hx
  obtain ⟨hmodes, htagless⟩ := dispatches_alike callbacks handlers
  refine ⟨by decide, ?_⟩
  rw [← (htagless xs ys rfl).1]
  exact (hmodes (by decide) xs htags).1

end Standing

end MiningPipelines
