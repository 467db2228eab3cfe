import Knirvbase.Map
import Mathlib.Data.List.Lattice

/-!
# Vector clocks

`VectorClock` (`clock.rs`) maps peer ids to `i64` counters, an absent peer reading as `0`
(`get`). `merge` is the loop of `VectorClock::merge` over the other clock's entries, and
`compare` the loop of `VectorClock::compare` raising two flags over the union of both key sets.

1. `get?_merge`: a peer of the other clock gets the larger of the two counters, any other peer
   keeps its entry; on clocks with non-negative counters `get_merge` is the pointwise maximum.
2. `has_greater_iff`, `has_less_iff`: the two flags of the loop are "some peer is ahead" and
   "some peer is behind"; `compare` is therefore the pointwise order (`happens_before_iff`).
3. `merge_join_laws`: on non-negative clocks `merge` is commutative, associative and idempotent
   as a map, and it is the least upper bound for `happens_before`.
4. `compare_is_pointwise_order`: the four results and their duality when the clocks are swapped;
   `increment_moves_forward`: below `i64::MAX` an increment moves a clock strictly forward, and at
   `i64::MAX` the counter wraps (`increment_wraps_at_max`).
-/

set_option autoImplicit false

namespace Knirvbase

/-- `VectorClock(HashMap<String, i64>)`, entries in peer-id order. -/
structure VectorClock where
  entries : List (String × Int)
  sorted : Smap.Sorted entries

/-- `ComparisonResult`. -/
inductive ComparisonResult
  | Equal
  | Before
  | After
  | Concurrent
  deriving DecidableEq, Repr

/-- The result of a comparison made the other way round. -/
def ComparisonResult.dual : ComparisonResult → ComparisonResult
  | .Before => .After
  | .After => .Before
  | r => r

namespace VectorClock

/-- `NewVectorClock`: the empty clock. -/
def new : VectorClock := ⟨[], List.Pairwise.nil⟩

/-- The counter of `peer`, `get(key).copied().unwrap_or(0)`. -/
def get (v : VectorClock) (peer : String) : Int := (Smap.get? v.entries peer).getD 0

/-- Peers whose counter is non-negative everywhere, as the data model requires. -/
def NonNeg (v : VectorClock) : Prop := ∀ k, 0 ≤ v.get k

/-- The pointwise order, reading absent peers as `0`. -/
instance : LE VectorClock := ⟨fun v w => ∀ k, v.get k ≤ w.get k⟩

theorem le_def {v w : VectorClock} : v ≤ w ↔ ∀ k, v.get k ≤ w.get k := Iff.rfl

theorem ext_get? {v w : VectorClock} (h : ∀ k, Smap.get? v.entries k = Smap.get? w.entries k) :
    v = w := by
  obtain ⟨ev, sv⟩ := v
  obtain ⟨ew, sw⟩ := w
  cases Smap.ext_get? sv sw h
  rfl

theorem get_eq {v : VectorClock} {k : String} {c : Int} (h : Smap.get? v.entries k = some c) :
    v.get k = c := by simp [get, h]

theorem get_eq_zero {v : VectorClock} {k : String} (h : Smap.get? v.entries k = none) :
    v.get k = 0 := by simp [get, h]

/-! ## Increment -/

/-- Largest `i64`. -/
def i64Max : Int := 9223372036854775807

/-- `*counter += 1` on an `i64`: wraps to `i64::MIN` at `i64::MAX`, as a release build does. -/
def incrementCounter (c : Int) : Int := if c = i64Max then -9223372036854775808 else c + 1

/-- `increment`: `entry(peer_id).or_insert(0)`, then `+= 1`. -/
def increment (v : VectorClock) (peer_id : String) : VectorClock :=
  ⟨Smap.insert peer_id (incrementCounter (v.get peer_id)) v.entries, v.sorted.insert _ _⟩

/-! ## Merge -/

/-- One turn of the loop of `merge`: `entry(k).or_insert(0)`, raised to `c` when `c` is larger. -/
def mergeEntry (merged : List (String × Int)) (kc : String × Int) : List (String × Int) :=
  let entry := (Smap.get? merged kc.1).getD 0
  Smap.insert kc.1 (if kc.2 > entry then kc.2 else entry) merged

theorem sorted_foldl_mergeEntry (l : List (String × Int)) :
    ∀ {acc}, Smap.Sorted acc → Smap.Sorted (l.foldl mergeEntry acc) := by
  induction l with
  | nil => exact id
  | cons kc l ih => exact fun h => ih (h.insert _ _)

/-- `merge`: `self`'s entries, then the loop over `other`'s. -/
def merge (self other : VectorClock) : VectorClock :=
  ⟨other.entries.foldl mergeEntry self.entries, sorted_foldl_mergeEntry _ self.sorted⟩

theorem get?_foldl_mergeEntry (k : String) :
    ∀ {l : List (String × Int)} (acc : List (String × Int)), Smap.Sorted l →
      Smap.get? (l.foldl mergeEntry acc) k =
        match Smap.get? l k with
        | some c => some (max ((Smap.get? acc k).getD 0) c)
        | none => Smap.get? acc k
  | [], _, _ => rfl
  | (k', c') :: l, acc, hl => by
    rw [List.foldl_cons, get?_foldl_mergeEntry k _ (Smap.Sorted.cons_iff.1 hl).2, Smap.get?_cons]
    by_cases h : k' = k
    · subst h
      simp only [hl.get?_tail, mergeEntry, Smap.get?_insert, if_true]
      congr 1; split_ifs <;> omega
    · simp [mergeEntry, h]

/-- A peer of `w` gets the larger counter, any other peer keeps `v`'s entry. -/
theorem get?_merge (v w : VectorClock) (k : String) :
    Smap.get? (merge v w).entries k =
      match Smap.get? w.entries k with
      | some c => some (max (v.get k) c)
      | none => Smap.get? v.entries k :=
  get?_foldl_mergeEntry k _ w.sorted

theorem get_merge {v : VectorClock} (hv : v.NonNeg) (w : VectorClock) (k : String) :
    (merge v w).get k = max (v.get k) (w.get k) := by
  unfold get
  rw [get?_merge]
  cases h : Smap.get? w.entries k <;> simp only [Option.getD_some, Option.getD_none]
  · have := hv k; unfold get at this; omega
  · rfl

theorem merge_nonneg {v : VectorClock} (hv : v.NonNeg) (w : VectorClock) : (merge v w).NonNeg :=
  fun k => (get_merge hv w k).symm ▸ Int.le_trans (hv k) (Int.le_max_left _ _)

/-! ## Compare -/

/-- One turn of the loop of `compare`: raise `has_greater` or `has_less` at `key`. -/
def compareStep (self other : VectorClock) (flags : Bool × Bool) (key : String) : Bool × Bool :=
  (flags.1 || decide (self.get key > other.get key),
    flags.2 || decide (self.get key < other.get key))

/-- `all_keys`: the `HashSet` of the keys of both clocks. -/
def allKeys (self other : VectorClock) : List String :=
  self.entries.map Prod.fst ∪ other.entries.map Prod.fst

/-- `(has_greater, has_less)` after the loop. -/
def flags (self other : VectorClock) : Bool × Bool :=
  (allKeys self other).foldl (compareStep self other) (false, false)

/-- The final `match` of `compare` on the two flags. -/
def ComparisonResult.ofFlags : Bool → Bool → ComparisonResult
  | false, false => .Equal
  | true, false => .After
  | false, true => .Before
  | true, true => .Concurrent

/-- `compare`. -/
def compare (self other : VectorClock) : ComparisonResult :=
  ComparisonResult.ofFlags (flags self other).1 (flags self other).2

/-- `happens_before`: `compare` is `Before` or `Equal`. -/
def happens_before (self other : VectorClock) : Bool :=
  match compare self other with
  | .Before | .Equal => true
  | _ => false

theorem foldl_compareStep (v w : VectorClock) (l : List String) (g s : Bool) :
    l.foldl (compareStep v w) (g, s) =
      (g || l.any fun k => decide (w.get k < v.get k),
        s || l.any fun k => decide (v.get k < w.get k)) := by
  induction l generalizing g s with
  | nil => simp
  | cons k l ih => simp [compareStep, ih, Bool.or_assoc]

theorem get_eq_zero_of_not_mem {v : VectorClock} {k : String} (h : k ∉ v.entries.map Prod.fst) :
    v.get k = 0 :=
  get_eq_zero (Smap.get?_eq_none_iff.2 h)

/-- A peer where the clocks differ is a key of one of them. -/
theorem mem_allKeys_of_ne {v w : VectorClock} {k : String} (h : v.get k ≠ w.get k) :
    k ∈ allKeys v w := by
  by_contra hk
  simp only [allKeys, List.mem_union_iff, not_or] at hk
  exact h (by rw [get_eq_zero_of_not_mem hk.1, get_eq_zero_of_not_mem hk.2])

theorem has_greater_iff (v w : VectorClock) : (flags v w).1 = true ↔ ∃ k, w.get k < v.get k := by
  simp only [flags, foldl_compareStep, Bool.false_or, List.any_eq_true, decide_eq_true_eq]
  exact ⟨fun ⟨k, _, hk⟩ => ⟨k, hk⟩, fun ⟨k, hk⟩ => ⟨k, mem_allKeys_of_ne (by omega), hk⟩⟩

theorem has_less_iff (v w : VectorClock) : (flags v w).2 = true ↔ ∃ k, v.get k < w.get k := by
  simp only [flags, foldl_compareStep, Bool.false_or, List.any_eq_true, decide_eq_true_eq]
  exact ⟨fun ⟨k, _, hk⟩ => ⟨k, hk⟩, fun ⟨k, hk⟩ => ⟨k, mem_allKeys_of_ne (by omega), hk⟩⟩

theorem not_has_greater_iff (v w : VectorClock) : (flags v w).1 = false ↔ v ≤ w := by
  rw [← Bool.not_eq_true, has_greater_iff, le_def]
  simp only [not_exists, Int.not_lt]

theorem not_has_less_iff (v w : VectorClock) : (flags v w).2 = false ↔ w ≤ v := by
  rw [← Bool.not_eq_true, has_less_iff, le_def]
  simp only [not_exists, Int.not_lt]

theorem ofFlags_eq_equal {g s : Bool} :
    ComparisonResult.ofFlags g s = .Equal ↔ g = false ∧ s = false := by
  cases g <;> cases s <;> simp [ComparisonResult.ofFlags]

theorem ofFlags_eq_before {g s : Bool} :
    ComparisonResult.ofFlags g s = .Before ↔ g = false ∧ s = true := by
  cases g <;> cases s <;> simp [ComparisonResult.ofFlags]

theorem ofFlags_eq_after {g s : Bool} :
    ComparisonResult.ofFlags g s = .After ↔ g = true ∧ s = false := by
  cases g <;> cases s <;> simp [ComparisonResult.ofFlags]

theorem ofFlags_eq_concurrent {g s : Bool} :
    ComparisonResult.ofFlags g s = .Concurrent ↔ g = true ∧ s = true := by
  cases g <;> cases s <;> simp [ComparisonResult.ofFlags]

theorem compare_eq_equal_iff {v w : VectorClock} :
    compare v w = .Equal ↔ ∀ k, v.get k = w.get k := by
  rw [compare, ofFlags_eq_equal, not_has_greater_iff, not_has_less_iff]
  exact ⟨fun ⟨h₁, h₂⟩ k => Int.le_antisymm (h₁ k) (h₂ k),
    fun h => ⟨fun k => by have := h k; omega, fun k => by have := h k; omega⟩⟩

theorem compare_eq_before_iff {v w : VectorClock} :
    compare v w = .Before ↔ v ≤ w ∧ ∃ k, v.get k < w.get k := by
  rw [compare, ofFlags_eq_before, not_has_greater_iff, has_less_iff]

theorem compare_eq_after_iff {v w : VectorClock} :
    compare v w = .After ↔ w ≤ v ∧ ∃ k, w.get k < v.get k := by
  rw [compare, ofFlags_eq_after, has_greater_iff, not_has_less_iff, and_comm]

theorem compare_eq_concurrent_iff {v w : VectorClock} :
    compare v w = .Concurrent ↔ (∃ k, w.get k < v.get k) ∧ ∃ k, v.get k < w.get k := by
  rw [compare, ofFlags_eq_concurrent, has_greater_iff, has_less_iff]

theorem compare_self (v : VectorClock) : compare v v = .Equal :=
  compare_eq_equal_iff.2 fun _ => rfl

/-- The flags of the comparison the other way round are swapped, so its result is the dual. -/
theorem compare_swap (v w : VectorClock) : compare w v = (compare v w).dual := by
  have h₁ : (flags w v).1 = (flags v w).2 :=
    Bool.eq_iff_iff.2 ((has_greater_iff w v).trans (has_less_iff v w).symm)
  have h₂ : (flags w v).2 = (flags v w).1 :=
    Bool.eq_iff_iff.2 ((has_less_iff w v).trans (has_greater_iff v w).symm)
  unfold compare
  rw [h₁, h₂]
  cases (flags v w).1 <;> cases (flags v w).2 <;> rfl

/-- `compare` is the pointwise order on counters, absent peers reading as `0`, whatever the key
sets of the two clocks (a peer stored with `0` counts as absent). -/
theorem compare_is_pointwise_order (v w : VectorClock) :
    (compare v w = .Equal ↔ ∀ k, v.get k = w.get k) ∧
      (compare v w = .Before ↔ (∀ k, v.get k ≤ w.get k) ∧ ∃ k, v.get k < w.get k) ∧
      (compare v w = .After ↔ (∀ k, w.get k ≤ v.get k) ∧ ∃ k, w.get k < v.get k) ∧
      (compare v w = .Concurrent ↔ (∃ k, w.get k < v.get k) ∧ ∃ k', v.get k' < w.get k') ∧
      compare v v = .Equal ∧ compare w v = (compare v w).dual :=
  ⟨compare_eq_equal_iff, compare_eq_before_iff, compare_eq_after_iff, compare_eq_concurrent_iff,
    compare_self v, compare_swap v w⟩

theorem happens_before_iff {v w : VectorClock} : happens_before v w = true ↔ v ≤ w := by
  rw [← not_has_greater_iff]
  unfold happens_before compare
  cases (flags v w).1 <;> cases (flags v w).2 <;> simp [ComparisonResult.ofFlags]

theorem compare_of_le {v w : VectorClock} (h : v ≤ w) :
    compare v w = .Equal ∨ compare v w = .Before := by
  unfold compare
  rw [(not_has_greater_iff v w).2 h]
  cases (flags v w).2 <;> simp [ComparisonResult.ofFlags]

theorem compare_of_ge {v w : VectorClock} (h : w ≤ v) :
    compare v w = .Equal ∨ compare v w = .After := by
  unfold compare
  rw [(not_has_less_iff v w).2 h]
  cases (flags v w).1 <;> simp [ComparisonResult.ofFlags]

/-- A clock is non-negative when each stored counter is. -/
theorem nonNeg_of_entries {v : VectorClock} (h : ∀ p ∈ v.entries, 0 ≤ p.2) : v.NonNeg := by
  intro k
  unfold get
  cases hk : Smap.get? v.entries k with
  | none => exact Int.le_refl 0
  | some c => exact h _ (Smap.mem_of_get? hk)

/-! ## Merge is a join -/

/-- On non-negative clocks a peer of either clock gets the larger counter. -/
theorem get?_merge_of_nonneg (v : VectorClock) {w : VectorClock} (hw : w.NonNeg) (k : String) :
    Smap.get? (merge v w).entries k =
      Option.merge max (Smap.get? v.entries k) (Smap.get? w.entries k) := by
  rw [get?_merge]
  cases hvk : Smap.get? v.entries k <;> cases hwk : Smap.get? w.entries k <;>
    simp only [Option.merge]
  · have := hw k
    rw [get_eq_zero hvk, Int.max_eq_right (get_eq hwk ▸ this)]
  · rw [get_eq hvk]

private theorem option_merge_max_comm (a b : Option Int) :
    Option.merge max a b = Option.merge max b a := by
  cases a <;> cases b <;> simp [Option.merge, Int.max_comm]

private theorem option_merge_max_assoc (a b c : Option Int) :
    Option.merge max (Option.merge max a b) c = Option.merge max a (Option.merge max b c) := by
  cases a <;> cases b <;> cases c <;> simp only [Option.merge, Option.some.injEq]
  omega

theorem merge_comm {v w : VectorClock} (hv : v.NonNeg) (hw : w.NonNeg) : merge v w = merge w v :=
  ext_get? fun k => by
    rw [get?_merge_of_nonneg v hw, get?_merge_of_nonneg w hv, option_merge_max_comm]

theorem merge_assoc (u : VectorClock) {v w : VectorClock} (hv : v.NonNeg) (hw : w.NonNeg) :
    merge (merge u v) w = merge u (merge v w) :=
  ext_get? fun k => by
    rw [get?_merge_of_nonneg _ hw, get?_merge_of_nonneg u hv,
      get?_merge_of_nonneg u (merge_nonneg hv w), get?_merge_of_nonneg v hw,
      option_merge_max_assoc]

theorem merge_idem (v : VectorClock) : merge v v = v :=
  ext_get? fun k => by
    rw [get?_merge]
    cases h : Smap.get? v.entries k
    · rfl
    · simp only [get_eq h, Option.some.injEq]; omega

/-- Merging the same clock a second time changes nothing, whatever the counters. -/
theorem merge_merge_self (v w : VectorClock) : merge (merge v w) w = merge v w :=
  ext_get? fun k => by
    rw [get?_merge, get?_merge]
    cases hk : Smap.get? w.entries k with
    | none => rfl
    | some c =>
      have : (merge v w).get k = max (v.get k) c := get_eq (by rw [get?_merge, hk])
      simp only [this, Option.some.injEq]; omega

theorem le_merge_left (v w : VectorClock) : v ≤ merge v w := fun k => by
  unfold get
  rw [get?_merge]
  cases Smap.get? w.entries k
  · exact Int.le_refl _
  · exact Int.le_max_left _ _

theorem le_merge_right {v : VectorClock} (hv : v.NonNeg) (w : VectorClock) : w ≤ merge v w :=
  fun k => get_merge hv w k ▸ Int.le_max_right _ _

theorem merge_le {v w x : VectorClock} (hv : v.NonNeg) (h₁ : v ≤ x) (h₂ : w ≤ x) :
    merge v w ≤ x :=
  fun k => get_merge hv w k ▸ Int.max_le.2 ⟨h₁ k, h₂ k⟩

/-- `merge` is a join: commutative, associative and idempotent as a map, above both arguments
and below every clock above both. Only the counters of `v` and `w` need be non-negative. -/
theorem merge_join_laws (u : VectorClock) {v w : VectorClock} (hv : v.NonNeg) (hw : w.NonNeg) :
    merge v w = merge w v ∧ merge (merge u v) w = merge u (merge v w) ∧ merge v v = v ∧
      happens_before v (merge v w) = true ∧ happens_before w (merge v w) = true ∧
      ∀ x, happens_before v x = true → happens_before w x = true →
        happens_before (merge v w) x = true := by
  simp only [happens_before_iff]
  exact ⟨merge_comm hv hw, merge_assoc u hv hw, merge_idem v, le_merge_left v w,
    le_merge_right hv w, fun _ => merge_le hv⟩

theorem merge_join_laws_two_peers :
    let v := new.increment "a"
    let w := (new.increment "b").increment "b"
    v.NonNeg ∧ w.NonNeg ∧
      (merge v w = merge w v ∧ merge (merge new v) w = merge new (merge v w) ∧ merge v v = v ∧
        happens_before v (merge v w) = true ∧ happens_before w (merge v w) = true ∧
        ∀ x, happens_before v x = true → happens_before w x = true →
          happens_before (merge v w) x = true) :=
  ⟨nonNeg_of_entries (by decide), nonNeg_of_entries (by decide),
    merge_join_laws new (nonNeg_of_entries (by decide)) (nonNeg_of_entries (by decide))⟩

/-! ## Increment moves a clock forward -/

theorem get_increment (v : VectorClock) (p k : String) :
    (v.increment p).get k = if p = k then incrementCounter (v.get p) else v.get k := by
  unfold get increment
  rw [Smap.get?_insert]
  split_ifs <;> rfl

theorem incrementCounter_of_ne {c : Int} (h : c ≠ i64Max) : incrementCounter c = c + 1 := if_neg h

theorem compare_increment {v : VectorClock} {p : String} (h : v.get p ≠ i64Max) :
    compare v (v.increment p) = .Before := by
  refine compare_eq_before_iff.2 ⟨fun k => ?_, p, ?_⟩ <;>
    simp only [get_increment, incrementCounter_of_ne h]
  · split_ifs with e
    · subst e; omega
    · exact Int.le_refl _
  · rw [if_pos trivial]; omega

theorem merge_increment {v : VectorClock} {p : String} (h : v.get p ≠ i64Max) :
    merge v (v.increment p) = v.increment p :=
  ext_get? fun k => by
    rw [get?_merge]
    simp only [increment, Smap.get?_insert, incrementCounter_of_ne h]
    by_cases e : p = k
    · subst e; simp only [if_true, Option.some.injEq]; omega
    · cases hk : Smap.get? v.entries k with
      | none => simp only [e, hk, if_false]
      | some c => simp only [e, hk, if_false, get_eq hk, Option.some.injEq]; omega

/-- Below `i64::MAX`, `increment` moves a clock strictly forward, and merging the clock with its
increment gives the increment. -/
theorem increment_moves_forward (v : VectorClock) (p : String) (h : v.get p ≠ i64Max) :
    compare v (v.increment p) = .Before ∧ happens_before v (v.increment p) = true ∧
      happens_before (v.increment p) v = false ∧ merge v (v.increment p) = v.increment p := by
  have hb := compare_increment h
  refine ⟨hb, ?_, ?_, merge_increment h⟩ <;>
    simp only [happens_before, hb, compare_swap v (v.increment p), ComparisonResult.dual]

theorem increment_moves_forward_new :
    new.get "a" ≠ i64Max ∧ (compare new (new.increment "a") = .Before ∧
      happens_before new (new.increment "a") = true ∧
      happens_before (new.increment "a") new = false ∧
      merge new (new.increment "a") = new.increment "a") :=
  ⟨by decide, increment_moves_forward new "a" (by decide)⟩

theorem incrementCounter_max : incrementCounter i64Max = -9223372036854775808 := if_pos rfl

theorem compare_increment_of_max {v : VectorClock} {p : String} (h : v.get p = i64Max) :
    compare v (v.increment p) = .After := by
  refine compare_eq_after_iff.2 ⟨fun k => ?_, p, ?_⟩ <;>
    simp only [get_increment, h, incrementCounter_max]
  · split_ifs with e
    · subst e; rw [h, i64Max]; omega
    · exact Int.le_refl _
  · rw [if_pos trivial, i64Max]; omega

/-- A counter at `i64::MAX` is stored, so the clock holds the entry. -/
theorem get?_of_get_max {v : VectorClock} {p : String} (h : v.get p = i64Max) :
    Smap.get? v.entries p = some i64Max := by
  cases hk : Smap.get? v.entries p with
  | none => exact absurd (get_eq_zero hk ▸ h) (by decide)
  | some c => rw [← get_eq hk, h]

theorem merge_increment_of_max {v : VectorClock} {p : String} (h : v.get p = i64Max) :
    merge v (v.increment p) = v :=
  ext_get? fun k => by
    rw [get?_merge]
    simp only [increment, Smap.get?_insert]
    by_cases e : p = k
    · subst e
      rw [if_pos rfl, get?_of_get_max h, h, incrementCounter_max, i64Max]
      rfl
    · cases hk : Smap.get? v.entries k with
      | none => simp only [e, hk, if_false]
      | some c => simp only [e, hk, if_false, get_eq hk, Option.some.injEq]; omega

/-- At `i64::MAX` the counter wraps to `i64::MIN`, as a release build does: the clock compares
`After` its increment, and merging the two gives back the clock, so the increment is lost. -/
theorem increment_wraps_at_max (v : VectorClock) (p : String) (h : v.get p = i64Max) :
    (v.increment p).get p = -9223372036854775808 ∧ compare v (v.increment p) = .After ∧
      happens_before v (v.increment p) = false ∧ happens_before (v.increment p) v = true ∧
      merge v (v.increment p) = v := by
  have ha := compare_increment_of_max h
  refine ⟨by rw [get_increment, if_pos rfl, h, incrementCounter_max], ha, ?_, ?_,
    merge_increment_of_max h⟩ <;>
    simp only [happens_before, ha, compare_swap v (v.increment p), ComparisonResult.dual]

/-- A clock whose counter for `a` is `i64::MAX`. -/
def maxedClock : VectorClock := ⟨[("a", i64Max)], List.pairwise_singleton _ _⟩

theorem increment_wraps_at_max_maxed :
    maxedClock.get "a" = i64Max ∧ ((maxedClock.increment "a").get "a" = -9223372036854775808 ∧
      compare maxedClock (maxedClock.increment "a") = .After ∧
      happens_before maxedClock (maxedClock.increment "a") = false ∧
      happens_before (maxedClock.increment "a") maxedClock = true ∧
      merge maxedClock (maxedClock.increment "a") = maxedClock) :=
  ⟨by decide, increment_wraps_at_max maxedClock "a" (by decide)⟩

end VectorClock

end Knirvbase
