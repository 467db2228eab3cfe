import Knirvbase.Types

/-!
# The CRDT resolver

`CRDTResolver` (`resolver.rs`): `merge_documents` classifies the two clocks and keeps the newer
version, or merges concurrent ones field by field with remote winning; `resolve_conflicts` sorts a
batch by descending timestamp and drops adjacent operations on the same document.

Replica convergence (`merge_documents_fold_converges`):
1. Whatever branch it takes, the merged clock is the pointwise maximum of the two clocks
   (`vector_get_merge_documents`), so folding over arriving versions ends with the pointwise
   maximum of all of them, in any order.
2. When one version is above all others, every arrival order ends with exactly that version
   (`foldl_merge_documents_eq_top`).
3. Concurrent versions are not merged symmetrically: remote's payload overwrites every field it
   has, so two orders can end with different payloads (`merge_documents_fold_diverges`).

One merge (`merged_vector_is_join`, `concurrent_merge_payload`, `merge_documents_redelivery`): the
merged clock is the join of the two; a concurrent merge keeps `local`'s tombstone flag, and its
payload unless both sides have one; merging the same remote version again changes nothing, on any
clocks, because a concurrent merge done twice is done once.
-/

set_option autoImplicit false

namespace Knirvbase

namespace CRDTResolver

/-- The `Concurrent` branch: `local` with each field of `remote`'s payload written over its own
when both have a payload, the merged clock and the later timestamp. -/
def mergeConcurrent (localDoc remote : DistributedDocument) : DistributedDocument :=
  { localDoc with
    payload :=
      match localDoc.payload, remote.payload with
      | some lp, some rp => some (rp.foldl (fun m kv => Smap.insert kv.1 kv.2 m) lp)
      | _, _ => localDoc.payload
    vector := localDoc.vector.merge remote.vector
    timestamp := max localDoc.timestamp remote.timestamp }

/-- `merge_documents`. -/
def merge_documents (localDoc remote : DistributedDocument) : DistributedDocument :=
  match localDoc.vector.compare remote.vector with
  | .Equal | .Before => remote
  | .After => localDoc
  | .Concurrent => mergeConcurrent localDoc remote

/-- `Vec::dedup_by`: drop each element the equivalence relates to the last one kept. -/
def dedupBy {α : Type} (same : α → α → Bool) : List α → List α
  | [] => []
  | x :: xs => x :: go x xs
where
  go (prev : α) : List α → List α
    | [] => []
    | y :: ys => if same y prev then go prev ys else y :: go y ys

/-- `resolve_conflicts`: a stable sort by descending timestamp, then `dedup_by` document id. -/
def resolve_conflicts (operations : List CRDTOperation) : List CRDTOperation :=
  dedupBy (fun a b => a.document_id == b.document_id)
    (operations.mergeSort fun a b => decide (b.timestamp ≤ a.timestamp))

/-! ## The merged clock -/

section Clocks

variable {l r : DistributedDocument}

theorem merge_documents_of_le (h : l.vector ≤ r.vector) : merge_documents l r = r := by
  unfold merge_documents
  rcases VectorClock.compare_of_le h with e | e <;> rw [e]

theorem merge_documents_of_after (h : l.vector.compare r.vector = .After) :
    merge_documents l r = l := by
  unfold merge_documents; rw [h]

theorem merge_documents_of_concurrent (h : l.vector.compare r.vector = .Concurrent) :
    merge_documents l r = mergeConcurrent l r := by
  unfold merge_documents; rw [h]

/-- Every branch leaves the pointwise maximum of the two clocks. -/
theorem vector_get_merge_documents (hl : l.vector.NonNeg) (r : DistributedDocument) (k : String) :
    (merge_documents l r).vector.get k = max (l.vector.get k) (r.vector.get k) := by
  rcases h : l.vector.compare r.vector
  · rw [merge_documents_of_le (VectorClock.le_def.2 fun k =>
      (VectorClock.compare_eq_equal_iff.1 h k) ▸ Int.le_refl _)]
    have := VectorClock.compare_eq_equal_iff.1 h k; omega
  · have hle := (VectorClock.compare_eq_before_iff.1 h).1
    rw [merge_documents_of_le hle]; have := hle k; omega
  · have hge := (VectorClock.compare_eq_after_iff.1 h).1
    rw [merge_documents_of_after h]; have := hge k; omega
  · rw [merge_documents_of_concurrent h]
    exact VectorClock.get_merge hl _ k

theorem merge_documents_nonneg (hl : l.vector.NonNeg) (r : DistributedDocument) :
    (merge_documents l r).vector.NonNeg := fun k => by
  rw [vector_get_merge_documents hl]; have := hl k; omega

end Clocks

/-! ## Folding over arriving versions -/

/-- The clock after a fold is the pointwise maximum of all clocks met. -/
theorem vector_get_foldl_merge_documents (k : String) :
    ∀ (rs : List DistributedDocument) (s : DistributedDocument), s.vector.NonNeg →
      (rs.foldl merge_documents s).vector.get k =
        (rs.map fun r => r.vector.get k).foldl max (s.vector.get k)
  | [], _, _ => rfl
  | r :: rs, s, hs => by
    rw [List.foldl_cons, vector_get_foldl_merge_documents k rs _ (merge_documents_nonneg hs r),
      vector_get_merge_documents hs]
    rfl

/-- With a version above all others, every arrival order ends with that version. -/
theorem foldl_merge_documents_eq_top {top : DistributedDocument} :
    ∀ (rs : List DistributedDocument) (acc : DistributedDocument), acc.vector.NonNeg →
      acc.vector ≤ top.vector → (∀ r ∈ rs, r.vector ≤ top.vector) →
      (∀ r ∈ rs, top.vector.compare r.vector = .Equal → r = top) → (acc = top ∨ top ∈ rs) →
      rs.foldl merge_documents acc = top
  | [], _, _, _, _, _, hin => hin.resolve_right (List.not_mem_nil _)
  | r :: rs, acc, hacc, hle, hrle, heq, hin => by
    have tail := fun r' (h : r' ∈ rs) => List.mem_cons_of_mem r h
    refine foldl_merge_documents_eq_top rs _ (merge_documents_nonneg hacc r) (fun k => ?_)
      (fun r' h => hrle r' (tail r' h)) (fun r' h => heq r' (tail r' h)) ?_
    · rw [vector_get_merge_documents hacc]
      have := hle k; have := hrle r (List.mem_cons_self _ _) k; omega
    by_cases hrt : r = top
    · subst hrt; exact .inl (merge_documents_of_le hle)
    rcases hin with rfl | hin
    · rcases VectorClock.compare_of_ge (hrle r (List.mem_cons_self _ _)) with e | e
      · exact absurd (heq r (List.mem_cons_self _ _) e) hrt
      · exact .inl (merge_documents_of_after e)
    · exact .inr ((List.mem_cons.1 hin).resolve_left (Ne.symm hrt))

/-- Scenario 3: the common version `{k1: 1, k2: 2}` at `{a-1: 1, b-1: 1}`. -/
def scenarioBase : DistributedDocument where
  id := "d"
  entry_type := .Memory
  payload := some [("k1", .number 1), ("k2", .number 2)]
  vector := (VectorClock.new.increment "a-1").increment "b-1"
  timestamp := 0
  peer_id := "a-1"
  stage := none
  deleted := false

/-- `A`'s write: `{k1: 1, k2: 99}` at `{a-1: 2, b-1: 1}`. -/
def scenarioA : DistributedDocument :=
  { scenarioBase with
    payload := some [("k1", .number 1), ("k2", .number 99)]
    vector := scenarioBase.vector.increment "a-1"
    timestamp := 1 }

/-- `B`'s concurrent write: `{k1: 42, k2: 2}` at `{a-1: 1, b-1: 2}`. -/
def scenarioB : DistributedDocument :=
  { scenarioBase with
    payload := some [("k1", .number 42), ("k2", .number 2)]
    vector := scenarioBase.vector.increment "b-1"
    timestamp := 1
    peer_id := "b-1" }

/-- Replicas that fold the same versions in any two orders end with clocks that compare `Equal`
(the pointwise maximum of all clocks); and when one version's clock is above all the others
(versions with `Equal` clocks being identical), both orders end with exactly that version. -/
theorem merge_documents_fold_converges (s : DistributedDocument) {rs rs' : List DistributedDocument}
    (hp : rs.Perm rs') (hs : s.vector.NonNeg) :
    (rs.foldl merge_documents s).vector.compare (rs'.foldl merge_documents s).vector = .Equal ∧
      ∀ top ∈ s :: rs, (∀ d ∈ s :: rs, d.vector ≤ top.vector) →
        (∀ d₁ ∈ s :: rs, ∀ d₂ ∈ s :: rs, d₁.vector.compare d₂.vector = .Equal → d₁ = d₂) →
        rs.foldl merge_documents s = top ∧ rs'.foldl merge_documents s = top := by
  refine ⟨VectorClock.compare_eq_equal_iff.2 fun k => ?_, fun top htop hle heq => ?_⟩
  · rw [vector_get_foldl_merge_documents k rs s hs, vector_get_foldl_merge_documents k rs' s hs]
    exact (hp.map _).foldl_eq' (fun _ _ _ _ _ => by omega) _
  · have hmem : ∀ d, d ∈ s :: rs' ↔ d ∈ s :: rs := fun d => (hp.cons s).mem_iff.symm
    have run : ∀ l : List DistributedDocument, (∀ d, d ∈ s :: l ↔ d ∈ s :: rs) →
        l.foldl merge_documents s = top := fun l hl =>
      foldl_merge_documents_eq_top l s hs (hle s (List.mem_cons_self _ _))
        (fun r h => hle r ((hl r).1 (List.mem_cons_of_mem _ h)))
        (fun r h e => (heq top htop r ((hl r).1 (List.mem_cons_of_mem _ h)) e).symm)
        (List.mem_cons.1 ((hl top).2 htop) |>.imp Eq.symm id)
    exact ⟨run rs fun _ => Iff.rfl, run rs' hmem⟩

/-- The two arrival orders of scenario 3 end with clocks that compare `Equal`. -/
theorem merge_documents_fold_converges_scenario :
    [scenarioA, scenarioB].Perm [scenarioB, scenarioA] ∧ scenarioBase.vector.NonNeg ∧
      ([scenarioA, scenarioB].foldl merge_documents scenarioBase).vector.compare
        ([scenarioB, scenarioA].foldl merge_documents scenarioBase).vector = .Equal :=
  have hp : [scenarioA, scenarioB].Perm [scenarioB, scenarioA] := List.Perm.swap _ _ _
  have hs : scenarioBase.vector.NonNeg := VectorClock.nonNeg_of_entries (by decide)
  ⟨hp, hs, (merge_documents_fold_converges scenarioBase hp hs).1⟩

/-- Scenario 3 meets the hypotheses of convergence (non-negative clocks, no two distinct
versions with `Equal` clocks), yet the two arrival orders end with different payloads:
`{k1: 42, k2: 2}` and `{k1: 1, k2: 99}`. -/
theorem merge_documents_fold_diverges :
    (∀ d ∈ [scenarioBase, scenarioA, scenarioB], d.vector.NonNeg) ∧
      (∀ d₁ ∈ [scenarioBase, scenarioA, scenarioB], ∀ d₂ ∈ [scenarioBase, scenarioA, scenarioB],
        d₁.vector.compare d₂.vector = .Equal → d₁ = d₂) ∧
      ([scenarioA, scenarioB].foldl merge_documents scenarioBase).payload ≠
        ([scenarioB, scenarioA].foldl merge_documents scenarioBase).payload := by
  simp only [List.mem_cons, List.mem_singleton, List.not_mem_nil, or_false]
  refine ⟨?_, ?_, fun h => ?_⟩
  · rintro d (rfl | rfl | rfl) <;> exact VectorClock.nonNeg_of_entries (by decide)
  · rintro d₁ (rfl | rfl | rfl) d₂ (rfl | rfl | rfl) e <;> first | rfl | exact absurd e (by decide)
  · have h' : (some [("k1", Value.number 42), ("k2", .number 2)] : Option _) =
        some [("k1", .number 1), ("k2", .number 99)] := h
    simp at h'

/-! ## Merging one version -/

/-- The merged version's clock is the join of the two clocks: it compares `Equal` to
`local.vector.merge(&remote.vector)` and happens after both clocks, in each of the four branches. -/
theorem merged_vector_is_join (l r : DistributedDocument) (hl : l.vector.NonNeg) :
    (merge_documents l r).vector.compare (l.vector.merge r.vector) = .Equal ∧
      l.vector.happens_before (merge_documents l r).vector = true ∧
      r.vector.happens_before (merge_documents l r).vector = true := by
  refine ⟨VectorClock.compare_eq_equal_iff.2 fun k => ?_, VectorClock.happens_before_iff.2 fun k => ?_,
    VectorClock.happens_before_iff.2 fun k => ?_⟩ <;> rw [vector_get_merge_documents hl]
  · rw [VectorClock.get_merge hl]
  · exact Int.le_max_left _ _
  · exact Int.le_max_right _ _

theorem merged_vector_is_join_scenario :
    scenarioA.vector.NonNeg ∧
      ((merge_documents scenarioA scenarioB).vector.compare
          (scenarioA.vector.merge scenarioB.vector) = .Equal ∧
        scenarioA.vector.happens_before (merge_documents scenarioA scenarioB).vector = true ∧
        scenarioB.vector.happens_before (merge_documents scenarioA scenarioB).vector = true) :=
  have hA : scenarioA.vector.NonNeg := VectorClock.nonNeg_of_entries (by decide)
  ⟨hA, merged_vector_is_join scenarioA scenarioB hA⟩

/-! ## The concurrent branch -/

/-- A concurrent merge done twice with the same remote version is done once. -/
theorem mergeConcurrent_mergeConcurrent (s r : DistributedDocument) :
    mergeConcurrent (mergeConcurrent s r) r = mergeConcurrent s r := by
  have ht : max (max s.timestamp r.timestamp) r.timestamp = max s.timestamp r.timestamp := by omega
  cases hs : s.payload <;> cases hr : r.payload <;>
    simp only [mergeConcurrent, hs, hr, VectorClock.merge_merge_self, ht]
  rename_i lp rp
  have hp := Smap.insertAll_insertAll_self lp rp
  simp only [Smap.insertAll] at hp
  rw [hp]

/-- For versions whose clocks compare `Concurrent`, the merged version keeps `local`'s tombstone
flag. When both have a payload, every field of either survives, with the last value `remote`
gives it where it has one (its only value, in a map); when either has none, the merged payload is
`local`'s. -/
theorem concurrent_merge_payload (l r : DistributedDocument)
    (h : l.vector.compare r.vector = .Concurrent) :
    (∀ lp rp, l.payload = some lp → r.payload = some rp →
      ∃ p, (merge_documents l r).payload = some p ∧
        ∀ k, Smap.get? p k = (Smap.get? rp.reverse k).or (Smap.get? lp k)) ∧
      (l.payload = none ∨ r.payload = none → (merge_documents l r).payload = l.payload) ∧
      (merge_documents l r).deleted = l.deleted := by
  rw [merge_documents_of_concurrent h]
  refine ⟨fun lp rp hl hr => ⟨_, by simp only [mergeConcurrent, hl, hr]; rfl,
    Smap.get?_insertAll lp rp⟩,
    fun hn => ?_, rfl⟩
  rcases hn with hn | hn
  · simp only [mergeConcurrent, hn]
  · cases hl : l.payload <;> simp only [mergeConcurrent, hn, hl]

theorem concurrent_merge_payload_scenario :
    scenarioA.vector.compare scenarioB.vector = .Concurrent ∧
      ((∀ lp rp, scenarioA.payload = some lp → scenarioB.payload = some rp →
        ∃ p, (merge_documents scenarioA scenarioB).payload = some p ∧
          ∀ k, Smap.get? p k = (Smap.get? rp.reverse k).or (Smap.get? lp k)) ∧
        (scenarioA.payload = none ∨ scenarioB.payload = none →
          (merge_documents scenarioA scenarioB).payload = scenarioA.payload) ∧
        (merge_documents scenarioA scenarioB).deleted = scenarioA.deleted) :=
  have h : scenarioA.vector.compare scenarioB.vector = .Concurrent := by decide
  ⟨h, concurrent_merge_payload scenarioA scenarioB h⟩

/-- `A`'s write without a payload. -/
def scenarioAEmpty : DistributedDocument := { scenarioA with payload := none }

/-- `B`'s write as a tombstone. -/
def scenarioBDeleted : DistributedDocument := { scenarioB with deleted := true }

/-- A concurrent merge drops `remote`'s payload when `local` has none, and drops `remote`'s
tombstone. -/
theorem concurrent_merge_drops_remote :
    scenarioAEmpty.vector.compare scenarioBDeleted.vector = .Concurrent ∧
      scenarioBDeleted.payload = some [("k1", .number 42), ("k2", .number 2)] ∧
      scenarioBDeleted.deleted = true ∧
      (merge_documents scenarioAEmpty scenarioBDeleted).payload = none ∧
      (merge_documents scenarioAEmpty scenarioBDeleted).deleted = false :=
  ⟨by decide, rfl, rfl, rfl, rfl⟩

/-- Delivering the same version twice changes nothing: after a concurrent merge the merged clock is
ahead of `remote` at a peer where `local` was, so the second merge keeps the merged version or
repeats the concurrent merge, which is idempotent. -/
theorem merge_documents_redelivery (s r : DistributedDocument) :
    merge_documents (merge_documents s r) r = merge_documents s r := by
  have hr : r.vector ≤ r.vector := fun _ => Int.le_refl _
  rcases h : s.vector.compare r.vector
  · have hle : s.vector ≤ r.vector := fun k => VectorClock.compare_eq_equal_iff.1 h k ▸ Int.le_refl _
    rw [merge_documents_of_le hle, merge_documents_of_le hr]
  · rw [merge_documents_of_le (VectorClock.compare_eq_before_iff.1 h).1, merge_documents_of_le hr]
  · rw [merge_documents_of_after h, merge_documents_of_after h]
  · rw [merge_documents_of_concurrent h]
    obtain ⟨k, hk⟩ := (VectorClock.compare_eq_concurrent_iff.1 h).1
    have hgt : r.vector.get k < (mergeConcurrent s r).vector.get k :=
      Int.lt_of_lt_of_le hk (VectorClock.le_merge_left _ _ k)
    rcases h' : (mergeConcurrent s r).vector.compare r.vector
    · exact absurd (VectorClock.compare_eq_equal_iff.1 h' k) (Int.ne_of_gt hgt)
    · exact absurd ((VectorClock.compare_eq_before_iff.1 h').1 k) (Int.not_le.2 hgt)
    · exact merge_documents_of_after h'
    · rw [merge_documents_of_concurrent h', mergeConcurrent_mergeConcurrent]

end CRDTResolver

end Knirvbase
