import Knirvbase.RoundTrip
import Mathlib.Data.Bool.Count

/-!
# Two updates of one document at once

`FileStorage::update` reads the document (`find`), writes the patch's fields over what it read,
and stores the result (`insert`); nothing orders two calls on the same document. Here a call of
`update` is its two atomic steps, `find` and `insert`, and a schedule of two calls says which call
takes each step, as a list of tags (`false` for the first call, `true` for the second).

1. Running one call's two steps back to back is `update` (`interleave_serial`).
2. Over the six schedules of two calls on a document that reads back what is stored, the
   document left is given by `updateOutcome`: both patches in the two serial orders, and in
   every other order only the patch of the call that inserts last, since both calls read the
   original (`concurrent_updates`).
-/

set_option autoImplicit false

namespace Knirvbase

namespace FileStorage

/-- Where a call of `update` is: before its `find`, between its `find` and its `insert` holding
the patched document, or returned. -/
inductive UpdateCall
  | start (patch : Doc)
  | found (patched : Doc)
  | returned (result : Except String Unit)

section Steps

variable (s : FileStorage) (P : Primitives) (now : Int) (draw : String → Draw)
  (collection id : String)

/-- One atomic step of a call of `update` on the document `id`. -/
def UpdateCall.step : UpdateCall → Disk → UpdateCall × Disk
  | .start patch, d =>
    match s.find P now collection id d with
    | .ok (some doc) => (.found (Smap.insertAll doc patch), d)
    | .ok none => (.returned (.error "document not found"), d)
    | .error e => (.returned (.error e), d)
  | .found patched, d =>
    match s.insert P now draw collection patched d with
    | .ok () d' => (.returned (.ok ()), d')
    | .error e d' => (.returned (.error e), d')
  | .returned r, d => (.returned r, d)

/-- Two calls and the disk after a schedule: `false` steps the first call, `true` the second. -/
def interleave : List Bool → UpdateCall → UpdateCall → Disk → UpdateCall × UpdateCall × Disk
  | [], c₁, c₂, d => (c₁, c₂, d)
  | false :: sched, c₁, c₂, d =>
    interleave sched (UpdateCall.step s P now draw collection id c₁ d).1 c₂
      (UpdateCall.step s P now draw collection id c₁ d).2
  | true :: sched, c₁, c₂, d =>
    interleave sched c₁ (UpdateCall.step s P now draw collection id c₂ d).1
      (UpdateCall.step s P now draw collection id c₂ d).2

theorem step_start {patch doc : Doc} {d : Disk}
    (h : s.find P now collection id d = .ok (some doc)) :
    UpdateCall.step s P now draw collection id (.start patch) d =
      (.found (Smap.insertAll doc patch), d) := by
  simp only [UpdateCall.step, h]

/-- One call's two steps back to back are `update`. -/
theorem interleave_serial (patch : Doc) (c₂ : UpdateCall) (d : Disk) :
    interleave s P now draw collection id [false, false] (.start patch) c₂ d =
      (.returned (outcome (s.update P now draw collection id patch d)), c₂,
        finalState (s.update P now draw collection id patch d)) := by
  rw [update_apply]
  cases hf : s.find P now collection id d with
  | error e => simp only [interleave, UpdateCall.step, hf]; rfl
  | ok doc? =>
    cases doc? with
    | none => simp only [interleave, UpdateCall.step, hf]; rfl
    | some doc =>
      simp only [interleave, step_start s P now draw collection id hf]
      simp only [UpdateCall.step]
      cases s.insert P now draw collection (Smap.insertAll doc patch) d <;> rfl

/-- `find` reads `doc` back from every disk a successful `insert` of `doc` leaves. -/
def ReadsBack (doc : Doc) : Prop :=
  ∀ d d', s.insert P now draw collection doc d = .ok () d' →
    s.find P now collection id d' = .ok (some doc)

variable {s P now draw collection id}

/-- In a collection that is not encrypted, a document with an id `id` without `/`, neither a
top-level `encrypted: true` nor a `blobRef` of its own, and floats that read back as written, reads
back. -/
theorem readsBack_of_plain (hc : is_encrypted_collection collection = false) {doc : Doc}
    (hid : Smap.get? doc "id" = some (.string id)) (hwf : WellFormed doc) (hb : NoBlobRef doc)
    (he : Smap.get? doc "encrypted" ≠ some (.bool true)) (hslash : '/' ∉ id.data)
    (hr : Value.rereadObject P.rereadF64 doc = doc) :
    ReadsBack s P now draw collection id doc := fun d _ hins => by
  have h : s.find P now collection id _ = _ :=
    find_insert_of_plain hc hins hid hwf hb he (blob_key_ne_doc_key s d hslash)
  rwa [hr] at h

/-- After an `insert` step that returned `Ok`, `find` reads the document the step stored. -/
theorem find_after_insert_step {doc : Doc} {d : Disk}
    (hrb : ReadsBack s P now draw collection id doc)
    (h : (UpdateCall.step s P now draw collection id (.found doc) d).1 = .returned (.ok ())) :
    s.find P now collection id (UpdateCall.step s P now draw collection id (.found doc) d).2 =
      .ok (some doc) := by
  cases hi : s.insert P now draw collection doc d with
  | ok u d' => simp only [UpdateCall.step, hi]; exact hrb _ _ hi
  | error e d' => simp only [UpdateCall.step, hi] at h; cases h

end Steps

/-! ## Six schedules -/

/-- A schedule of two calls of two steps each. -/
def Interleaving (sched : List Bool) : Prop := sched.count false = 2 ∧ sched.count true = 2

instance (sched : List Bool) : Decidable (Interleaving sched) := instDecidableAnd

theorem interleaving_cases {sched : List Bool} (h : Interleaving sched) :
    sched ∈ [[false, false, true, true], [false, true, false, true], [false, true, true, false],
      [true, false, false, true], [true, false, true, false], [true, true, false, false]] := by
  have hl : sched.length = 4 := by rw [← List.count_false_add_count_true, h.1, h.2]
  match sched, hl, h with
  | [a, b, c, e], _, h => revert h; cases a <;> cases b <;> cases c <;> cases e <;> decide

/-- The document two calls with patches `p₁` and `p₂` leave, by schedule: both patches in the
serial orders, and otherwise the patch of the call that inserts last over the original. -/
def updateOutcome (orig p₁ p₂ : Doc) : List Bool → Doc
  | [false, false, true, true] => Smap.insertAll (Smap.insertAll orig p₁) p₂
  | [true, true, false, false] => Smap.insertAll (Smap.insertAll orig p₂) p₁
  | sched => if sched.getLast? = some true then Smap.insertAll orig p₂ else Smap.insertAll orig p₁

/-- Two calls of `update` with patches `p₁` and `p₂`, on a document `orig` that reads back after
each of the writes they can make, leave the document `updateOutcome` gives for their schedule,
when both return `Ok`. -/
theorem concurrent_updates (s : FileStorage) (P : Primitives) (now : Int) (draw : String → Draw)
    (collection id : String) (orig p₁ p₂ : Doc) (d : Disk)
    (hd : s.find P now collection id d = .ok (some orig))
    (hrb : ∀ doc ∈ [Smap.insertAll orig p₁, Smap.insertAll orig p₂,
      Smap.insertAll (Smap.insertAll orig p₁) p₂, Smap.insertAll (Smap.insertAll orig p₂) p₁],
      ReadsBack s P now draw collection id doc)
    (sched : List Bool) (hs : Interleaving sched) (d' : Disk)
    (hok : interleave s P now draw collection id sched (.start p₁) (.start p₂) d =
      (.returned (.ok ()), .returned (.ok ()), d')) :
    s.find P now collection id d' = .ok (some (updateOutcome orig p₁ p₂ sched)) := by
  have hc := interleaving_cases hs
  simp only [List.mem_cons, List.mem_singleton, List.not_mem_nil, or_false] at hc
  rcases hc with rfl | rfl | rfl | rfl | rfl | rfl <;>
    simp only [interleave, step_start s P now draw collection id hd, Prod.mk.injEq] at hok <;>
    obtain ⟨h₁, h₂, rfl⟩ := hok
  · -- the first call runs, then the second reads what it stored
    have hf := find_after_insert_step (hrb _ (by simp)) h₁
    simp only [step_start s P now draw collection id hf] at h₂ ⊢
    exact find_after_insert_step (hrb _ (by simp)) h₂
  · exact find_after_insert_step (hrb _ (by simp)) h₂
  · exact find_after_insert_step (hrb _ (by simp)) h₁
  · exact find_after_insert_step (hrb _ (by simp)) h₂
  · exact find_after_insert_step (hrb _ (by simp)) h₁
  · -- the second call runs, then the first reads what it stored
    have hf := find_after_insert_step (hrb _ (by simp)) h₂
    simp only [step_start s P now draw collection id hf] at h₁ ⊢
    exact find_after_insert_step (hrb _ (by simp)) h₁

/-- The disk after `{id: "a"}` is inserted into `notes`. -/
def noteDisk : Disk :=
  finalState (plainStore.insert tokenPrimitives 0 (fun _ => zeroDraw) "notes" [("id", .string "a")]
    Disk.empty)

/-- Both calls read the document before either stores it: both return `Ok`, and the first
call's patch is lost. -/
theorem interleaved_updates_lose_patch :
    ∃ d' stored,
      plainStore.find tokenPrimitives 0 "notes" "a" noteDisk = .ok (some [("id", .string "a")]) ∧
      interleave plainStore tokenPrimitives 0 (fun _ => zeroDraw) "notes" "a"
        [false, true, false, true] (.start [("x", .number 1)]) (.start [("y", .number 2)]) noteDisk =
        (.returned (.ok ()), .returned (.ok ()), d') ∧
      plainStore.find tokenPrimitives 0 "notes" "a" d' = .ok (some stored) ∧
      (Value.object stored).index "x" = .null ∧
      (Value.object (Smap.insertAll (Smap.insertAll [("id", .string "a")] [("x", .number 1)])
        [("y", .number 2)])).index "x" = .number 1 ∧
      (Value.object (Smap.insertAll (Smap.insertAll [("id", .string "a")] [("y", .number 2)])
        [("x", .number 1)])).index "x" = .number 1 :=
  ⟨_, _, rfl, rfl, rfl, rfl, rfl, rfl⟩

theorem concurrent_updates_notes :
    ∃ d', interleave plainStore tokenPrimitives 0 (fun _ => zeroDraw) "notes" "a"
        [false, true, false, true] (.start [("x", .number 1)]) (.start [("y", .number 2)]) noteDisk =
        (.returned (.ok ()), .returned (.ok ()), d') ∧
      plainStore.find tokenPrimitives 0 "notes" "a" d' =
        .ok (some (Smap.insertAll [("id", .string "a")] [("y", .number 2)])) :=
  ⟨_, rfl, concurrent_updates plainStore tokenPrimitives 0 (fun _ => zeroDraw) "notes" "a"
    [("id", .string "a")] [("x", .number 1)] [("y", .number 2)] noteDisk rfl
    (by
      intro doc hdoc
      simp only [List.mem_cons, List.mem_singleton, List.not_mem_nil, or_false] at hdoc
      rcases hdoc with rfl | rfl | rfl | rfl <;>
        exact readsBack_of_plain (by decide) rfl ⟨by decide, fun _ h => by cases h⟩
          (fun _ h => by cases h) (fun h => by cases h) (by decide) rfl)
    [false, true, false, true] (by decide) _ rfl⟩

end FileStorage

end Knirvbase
