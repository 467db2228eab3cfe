import Knirvbase.Resolver

/-!
# Batch resolution

`resolve_conflicts` (`resolver.rs`) sorts a batch of operations by descending timestamp with a
stable sort, then `Vec::dedup_by` drops each operation on the same document as the operation kept
just before it.

1. The result is a sub-multiset of the batch, sorted by descending timestamp
   (`resolve_conflicts_subperm`, `resolve_conflicts_sorted`).
2. The first operation on a document in the result is its first in the sorted batch
   (`find?_dedupBy`), so it has the largest timestamp on that document (`find?_resolve_conflicts`);
   when no two operations on a document share a timestamp, it is the same for every order of the
   batch (`resolve_conflicts_first_perm`).
3. `dedup_by` compares neighbours only: two operations on one document around an operation on
   another both survive (`resolve_conflicts_keeps_duplicates`). Among operations on a document at
   one timestamp the input order picks the first survivor, whatever their peers
   (`resolve_conflicts_order_dependent`).
-/

set_option autoImplicit false

namespace Knirvbase

namespace CRDTResolver

/-! ## Deduplication -/

section Dedup

variable {α : Type} (same : α → α → Bool)

theorem dedupBy_go_sublist : ∀ (prev : α) (l : List α), (dedupBy.go same prev l).Sublist l
  | _, [] => .slnil
  | prev, y :: ys => by
    unfold dedupBy.go
    split
    · exact (dedupBy_go_sublist prev ys).cons y
    · exact (dedupBy_go_sublist y ys).cons₂ y

theorem dedupBy_sublist : ∀ l : List α, (dedupBy same l).Sublist l
  | [] => .slnil
  | x :: xs => (dedupBy_go_sublist same x xs).cons₂ x

variable {same} {p : α → Bool} (hp : ∀ a b, same a b = true → p a = p b)
include hp

/-- Past an element `p` rejects, the deduplication keeps the first element `p` accepts. -/
theorem find?_dedupBy_go : ∀ (prev : α) (l : List α), p prev = false →
    (dedupBy.go same prev l).find? p = l.find? p
  | _, [], _ => rfl
  | prev, y :: ys, hprev => by
    unfold dedupBy.go
    by_cases hs : same y prev
    · have hy : ¬p y := by rw [hp _ _ hs, hprev]; decide
      rw [if_pos hs, List.find?_cons_of_neg _ hy, find?_dedupBy_go prev ys hprev]
    · rw [if_neg hs]
      by_cases hy : p y
      · rw [List.find?_cons_of_pos _ hy, List.find?_cons_of_pos _ hy]
      · rw [List.find?_cons_of_neg _ hy, List.find?_cons_of_neg _ hy,
          find?_dedupBy_go y ys (by simpa using hy)]

/-- When `same` elements agree on `p`, the deduplication keeps the first element `p` accepts. -/
theorem find?_dedupBy : ∀ l : List α, (dedupBy same l).find? p = l.find? p
  | [] => rfl
  | x :: xs => by
    by_cases hx : p x
    · rw [dedupBy, List.find?_cons_of_pos _ hx, List.find?_cons_of_pos _ hx]
    · rw [dedupBy, List.find?_cons_of_neg _ hx, List.find?_cons_of_neg _ hx,
        find?_dedupBy_go hp x xs (by simpa using hx)]

end Dedup

/-! ## What a resolved batch holds -/

section Resolve

/-- The order of the sort: `a` may stand before `b` when its timestamp is not smaller. -/
theorem newer_trans (a b c : CRDTOperation) (h₁ : decide (b.timestamp ≤ a.timestamp) = true)
    (h₂ : decide (c.timestamp ≤ b.timestamp) = true) : decide (c.timestamp ≤ a.timestamp) = true := by
  simp only [decide_eq_true_eq] at *; omega

theorem newer_total (a b : CRDTOperation) :
    (decide (b.timestamp ≤ a.timestamp) || decide (a.timestamp ≤ b.timestamp)) = true := by
  simp only [Bool.or_eq_true, decide_eq_true_eq]; omega

theorem resolve_conflicts_sublist (ops : List CRDTOperation) :
    (resolve_conflicts ops).Sublist (ops.mergeSort fun a b => decide (b.timestamp ≤ a.timestamp)) :=
  dedupBy_sublist _ _

theorem resolve_conflicts_subperm (ops : List CRDTOperation) : (resolve_conflicts ops).Subperm ops :=
  (List.mergeSort_perm ops _).subperm_left.1 (resolve_conflicts_sublist ops).subperm

theorem resolve_conflicts_sorted (ops : List CRDTOperation) :
    (resolve_conflicts ops).Pairwise fun a b => b.timestamp ≤ a.timestamp := by
  have h := (List.sorted_mergeSort newer_trans newer_total ops).sublist (resolve_conflicts_sublist ops)
  simpa only [decide_eq_true_eq] using h

/-- The first operation on a document in the result is the first in the sorted batch. -/
theorem find?_resolve_conflicts_eq (ops : List CRDTOperation) (d : String) :
    (resolve_conflicts ops).find? (fun o => o.document_id == d) =
      (ops.mergeSort fun a b => decide (b.timestamp ≤ a.timestamp)).find? (fun o => o.document_id == d) :=
  find?_dedupBy (fun a b h => by simp only [beq_iff_eq] at h; rw [h]) _

/-- The first operation on a document in the result is an operation of the batch on that
document with the largest timestamp. -/
theorem find?_resolve_conflicts {ops : List CRDTOperation} {d : String} {o : CRDTOperation}
    (h : (resolve_conflicts ops).find? (fun o => o.document_id == d) = some o) :
    o ∈ ops ∧ o.document_id = d ∧ ∀ o' ∈ ops, o'.document_id = d → o'.timestamp ≤ o.timestamp := by
  rw [find?_resolve_conflicts_eq] at h
  obtain ⟨hd, as, bs, hsplit, has⟩ := List.find?_eq_some.1 h
  have hsorted := List.sorted_mergeSort newer_trans newer_total ops
  rw [hsplit, List.pairwise_append, List.pairwise_cons] at hsorted
  have hmem : o ∈ ops.mergeSort fun a b => decide (b.timestamp ≤ a.timestamp) := by simp [hsplit]
  refine ⟨List.mem_mergeSort.1 hmem, by simpa using hd, fun o' ho' hd' => ?_⟩
  rw [← List.mem_mergeSort, hsplit, List.mem_append, List.mem_cons] at ho'
  rcases ho' with ho' | rfl | ho'
  · simpa [hd'] using has o' ho'
  · exact Int.le_refl _
  · simpa using hsorted.2.1.1 o' ho'

theorem find?_resolve_conflicts_eq_none {ops : List CRDTOperation} {d : String} :
    (resolve_conflicts ops).find? (fun o => o.document_id == d) = none ↔
      ∀ o ∈ ops, o.document_id ≠ d := by
  simp [find?_resolve_conflicts_eq]

end Resolve

/-! ## Order independence -/

/-- When no two operations on a document share a timestamp, every order of a batch gives the same
first operation on each document: the operation on it with the largest timestamp. -/
theorem resolve_conflicts_first_perm {ops ops2 : List CRDTOperation} (hp : ops.Perm ops2)
    (huniq : ∀ a ∈ ops, ∀ b ∈ ops, a.document_id = b.document_id → a.timestamp = b.timestamp → a = b)
    (d : String) :
    (resolve_conflicts ops).find? (fun o => o.document_id == d) =
        (resolve_conflicts ops2).find? (fun o => o.document_id == d) ∧
      ∀ o, (resolve_conflicts ops).find? (fun o => o.document_id == d) = some o →
        o ∈ ops ∧ o.document_id = d ∧ ∀ o' ∈ ops, o'.document_id = d → o'.timestamp ≤ o.timestamp := by
  refine ⟨?_, fun o h => find?_resolve_conflicts h⟩
  cases h₁ : (resolve_conflicts ops).find? (fun o => o.document_id == d) with
  | none =>
    rw [find?_resolve_conflicts_eq_none] at h₁
    exact (find?_resolve_conflicts_eq_none.2 fun o ho => h₁ o (hp.mem_iff.2 ho)).symm
  | some o =>
    obtain ⟨ho, hd, hmax⟩ := find?_resolve_conflicts h₁
    cases h₂ : (resolve_conflicts ops2).find? (fun o => o.document_id == d) with
    | none => exact absurd hd (find?_resolve_conflicts_eq_none.1 h₂ o (hp.mem_iff.1 ho))
    | some o₂ =>
      obtain ⟨ho₂, hd₂, hmax₂⟩ := find?_resolve_conflicts h₂
      have ho₂' := hp.mem_iff.2 ho₂
      have h₁ := hmax o₂ ho₂' hd₂
      have h₂ := hmax₂ o (hp.mem_iff.1 ho) hd
      rw [huniq o ho o₂ ho₂' (hd.trans hd₂.symm) (by omega)]

/-- An `Update` on `document_id` at `timestamp` from `peer_id`, carrying no data. -/
def updateOp (document_id : String) (timestamp : Int) (peer_id : String) : CRDTOperation :=
  ⟨document_id ++ "/" ++ peer_id, .Update, "notes", document_id, none, VectorClock.new, timestamp,
    peer_id⟩

theorem resolve_conflicts_first_perm_reversed :
    [updateOp "a" 1 "p", updateOp "b" 2 "p", updateOp "a" 3 "q"].Perm
        [updateOp "a" 3 "q", updateOp "b" 2 "p", updateOp "a" 1 "p"] ∧
      (∀ a ∈ [updateOp "a" 1 "p", updateOp "b" 2 "p", updateOp "a" 3 "q"],
        ∀ b ∈ [updateOp "a" 1 "p", updateOp "b" 2 "p", updateOp "a" 3 "q"],
          a.document_id = b.document_id → a.timestamp = b.timestamp → a = b) ∧
      ((resolve_conflicts [updateOp "a" 1 "p", updateOp "b" 2 "p", updateOp "a" 3 "q"]).find?
          (fun o => o.document_id == "a") =
        (resolve_conflicts [updateOp "a" 3 "q", updateOp "b" 2 "p", updateOp "a" 1 "p"]).find?
          (fun o => o.document_id == "a") ∧
        ∀ o, (resolve_conflicts [updateOp "a" 1 "p", updateOp "b" 2 "p", updateOp "a" 3 "q"]).find?
            (fun o => o.document_id == "a") = some o →
          o ∈ [updateOp "a" 1 "p", updateOp "b" 2 "p", updateOp "a" 3 "q"] ∧ o.document_id = "a" ∧
            ∀ o' ∈ [updateOp "a" 1 "p", updateOp "b" 2 "p", updateOp "a" 3 "q"],
              o'.document_id = "a" → o'.timestamp ≤ o.timestamp) := by
  have hp : [updateOp "a" 1 "p", updateOp "b" 2 "p", updateOp "a" 3 "q"].Perm
      [updateOp "a" 3 "q", updateOp "b" 2 "p", updateOp "a" 1 "p"] :=
    List.reverse_perm _ |>.symm
  have hu : ∀ a ∈ [updateOp "a" 1 "p", updateOp "b" 2 "p", updateOp "a" 3 "q"],
      ∀ b ∈ [updateOp "a" 1 "p", updateOp "b" 2 "p", updateOp "a" 3 "q"],
        a.document_id = b.document_id → a.timestamp = b.timestamp → a = b := by
    simp only [List.mem_cons, List.mem_singleton, List.not_mem_nil, or_false]
    rintro a (rfl | rfl | rfl) b (rfl | rfl | rfl) h₁ h₂ <;> first | rfl | exact absurd h₁ (by decide) |
      exact absurd h₂ (by decide)
  exact ⟨hp, hu, resolve_conflicts_first_perm hp hu "a"⟩

/-! ## Where the batch keeps or picks by order -/

/-- The batch `a@3, b@2, a@1` is already sorted; `dedup_by` compares neighbours only, so both
operations on `a` survive, the second not the newest. -/
theorem resolve_conflicts_keeps_duplicates :
    (resolve_conflicts [updateOp "a" 3 "p", updateOp "b" 2 "p", updateOp "a" 1 "p"]).map
      (fun o => (o.document_id, o.timestamp)) = [("a", 3), ("b", 2), ("a", 1)] := by
  rw [resolve_conflicts, List.mergeSort_of_sorted (by decide)]
  decide

/-- Two operations on one document at one timestamp from different peers: the stable sort keeps
the input order, so each order of the batch keeps its own first operation. -/
theorem resolve_conflicts_order_dependent :
    [updateOp "d" 1 "a", updateOp "d" 1 "b"].Perm [updateOp "d" 1 "b", updateOp "d" 1 "a"] ∧
      (updateOp "d" 1 "a").peer_id ≠ (updateOp "d" 1 "b").peer_id ∧
      (resolve_conflicts [updateOp "d" 1 "a", updateOp "d" 1 "b"]).map (·.peer_id) = ["a"] ∧
      (resolve_conflicts [updateOp "d" 1 "b", updateOp "d" 1 "a"]).map (·.peer_id) = ["b"] :=
  ⟨List.Perm.swap _ _ _, by decide,
    by rw [resolve_conflicts, List.mergeSort_of_sorted (by decide)]; decide,
    by rw [resolve_conflicts, List.mergeSort_of_sorted (by decide)]; decide⟩

end CRDTResolver

end Knirvbase
