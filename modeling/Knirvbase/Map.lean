import Mathlib.Data.List.Pairwise
import Mathlib.Data.List.Forall2
import Knirvbase.Effect

/-!
# String-keyed maps

The source keeps three kinds of string-keyed maps: `serde_json::Map` (a `BTreeMap<String, Value>`,
entries in key order), documents (`HashMap<String, Value>`) and vector clocks
(`HashMap<String, i64>`). All three are association lists here, with keys strictly increasing in
the order of `String` (`Sorted`). A sorted map is determined by its lookups (`ext_get?`), so two
maps with the same entries are the same list, which is how `HashMap` and `BTreeMap` compare.
-/

set_option autoImplicit false

namespace Knirvbase

/-! ## Key order -/

/-- Lexicographic order by character code, the order of Rust's `String`. -/
def keyLt : List Char → List Char → Bool
  | [], [] => false
  | [], _ :: _ => true
  | _ :: _, [] => false
  | a :: as, b :: bs => if a = b then keyLt as bs else decide (a.toNat < b.toNat)

theorem char_eq_of_toNat_eq {a b : Char} (h : a.toNat = b.toNat) : a = b := by
  rw [← Char.ofNat_toNat a, h, Char.ofNat_toNat]

@[simp] theorem keyLt_irrefl (a : List Char) : keyLt a a = false := by
  induction a with
  | nil => rfl
  | cons c a ih => simp [keyLt, ih]

theorem keyLt_trans : ∀ {a b c : List Char}, keyLt a b → keyLt b c → keyLt a c
  | [], [], _, h, _ | _ :: _, [], _, h, _ => by simp [keyLt] at h
  | [], _ :: _, [], _, h | _ :: _, _ :: _, [], _, h => by simp [keyLt] at h
  | [], _ :: _, _ :: _, _, _ => rfl
  | x :: a, y :: b, z :: c, h₁, h₂ => by
    simp only [keyLt] at h₁ h₂ ⊢
    by_cases e₁ : x = y
    · subst e₁
      by_cases e₂ : x = z
      · subst e₂; simp only [if_true] at h₁ h₂ ⊢; exact keyLt_trans h₁ h₂
      · simp_all
    · by_cases e₂ : y = z
      · subst e₂; simp_all
      · simp only [e₁, e₂, if_false, decide_eq_true_eq] at h₁ h₂
        have e₃ : x ≠ z := by rintro rfl; omega
        simp only [e₃, if_false, decide_eq_true_eq]; omega

theorem keyLt_total : ∀ {a b : List Char}, a ≠ b → keyLt a b ∨ keyLt b a
  | [], [], h => absurd rfl h
  | [], _ :: _, _ | _ :: _, [], _ => by simp [keyLt]
  | x :: a, y :: b, h => by
    by_cases e : x = y
    · subst e
      have : a ≠ b := fun h' => h (h' ▸ rfl)
      simpa [keyLt] using keyLt_total this
    · have : x.toNat ≠ y.toNat := fun h' => e (char_eq_of_toNat_eq h')
      simp only [keyLt, e, Ne.symm e, if_false, decide_eq_true_eq]
      omega

theorem keyLt_asymm {a b : List Char} (h : keyLt a b) : keyLt b a = false := by
  cases h' : keyLt b a
  · rfl
  · simpa using keyLt_trans h h'

/-! ## Maps -/

namespace Smap

variable {α : Type}

/-- The keys are strictly increasing, as in a `BTreeMap`. -/
def Sorted (m : List (String × α)) : Prop :=
  m.Pairwise fun p q => keyLt p.1.data q.1.data

instance (m : List (String × α)) : Decidable (Sorted m) :=
  inferInstanceAs (Decidable (List.Pairwise _ m))

/-- `get`: the value stored under `k`. -/
def get? : List (String × α) → String → Option α
  | [], _ => none
  | (k', v) :: m, k => if k' = k then some v else get? m k

/-- `insert`: store `v` under `k`, in key order, replacing an old value. -/
def insert (k : String) (v : α) : List (String × α) → List (String × α)
  | [] => [(k, v)]
  | (k', v') :: m =>
    if keyLt k.data k'.data then (k, v) :: (k', v') :: m
    else if k = k' then (k, v) :: m
    else (k', v') :: insert k v m

/-- `remove`: drop the entry under `k`. -/
def remove (k : String) : List (String × α) → List (String × α)
  | [] => []
  | (k', v') :: m => if k' = k then m else (k', v') :: remove k m

/-- Insert when there is a value: a field `serde` skips when it is `None`. -/
def insertOpt (k : String) : Option α → List (String × α) → List (String × α)
  | some v, m => insert k v m
  | none, m => m

@[simp] theorem get?_nil (k : String) : get? ([] : List (String × α)) k = none := rfl

theorem get?_cons (k' k : String) (v : α) (m : List (String × α)) :
    get? ((k', v) :: m) k = if k' = k then some v else get? m k := rfl

theorem get?_cons_eq (p : String × α) (m : List (String × α)) (k : String) :
    get? (p :: m) k = if p.1 = k then some p.2 else get? m k := rfl

@[simp] theorem get?_insert (k k' : String) (v : α) (m : List (String × α)) :
    get? (insert k v m) k' = if k = k' then some v else get? m k' := by
  induction m with
  | nil => rfl
  | cons p m ih =>
    obtain ⟨k₀, v₀⟩ := p
    unfold insert
    by_cases h₁ : keyLt k.data k₀.data
    · rw [if_pos h₁]; rfl
    rw [if_neg h₁]
    by_cases h₂ : k = k₀
    · subst h₂
      rw [if_pos rfl, get?_cons, get?_cons]
      by_cases h : k = k' <;> simp [h]
    · rw [if_neg h₂, get?_cons, ih, get?_cons]
      by_cases h : k = k'
      · subst h; simp [Ne.symm h₂]
      · simp [h]

theorem get?_eq_none_iff {m : List (String × α)} {k : String} :
    get? m k = none ↔ k ∉ m.map Prod.fst := by
  induction m with
  | nil => simp
  | cons p m ih =>
    obtain ⟨k₀, v₀⟩ := p
    by_cases h : k₀ = k
    · simp [get?_cons, h]
    · simp [get?_cons, h, ih, Ne.symm h]

theorem isSome_get?_of_mem {m : List (String × α)} {p : String × α} (h : p ∈ m) :
    (get? m p.1).isSome := by
  rw [Option.isSome_iff_ne_none, Ne, get?_eq_none_iff, not_not]
  exact List.mem_map_of_mem Prod.fst h

theorem mem_of_get? {m : List (String × α)} {k : String} {v : α} (h : get? m k = some v) :
    (k, v) ∈ m := by
  induction m with
  | nil => cases h
  | cons p m ih =>
    obtain ⟨k₀, v₀⟩ := p
    rw [get?_cons] at h
    split_ifs at h with hk
    · cases h; subst hk; exact List.mem_cons_self _ _
    · exact List.mem_cons_of_mem _ (ih h)

theorem mem_insert {k : String} {v : α} {m : List (String × α)} {p : String × α}
    (h : p ∈ insert k v m) : p = (k, v) ∨ p ∈ m := by
  induction m with
  | nil => simpa [insert] using h
  | cons q m ih =>
    unfold insert at h
    split_ifs at h
    · exact List.mem_cons.1 h
    · exact (List.mem_cons.1 h).imp_right (.tail _)
    · rcases List.mem_cons.1 h with rfl | h
      · exact .inr (.head _)
      · exact (ih h).imp_right (.tail _)

/-- A new key makes the map one longer. -/
theorem length_insert_of_get?_none {k : String} {v : α} {m : List (String × α)}
    (h : get? m k = none) : (insert k v m).length = m.length + 1 := by
  induction m with
  | nil => rfl
  | cons q m ih =>
    obtain ⟨k₀, v₀⟩ := q
    rw [get?_cons] at h
    split_ifs at h with hk
    unfold insert
    split_ifs with h₁ h₂
    · rfl
    · exact absurd h₂.symm hk
    · simp only [List.length_cons, ih h]

theorem Sorted.cons_iff {k : String} {v : α} {m : List (String × α)} :
    Sorted ((k, v) :: m) ↔ (∀ p ∈ m, keyLt k.data p.1.data) ∧ Sorted m :=
  List.pairwise_cons

theorem Sorted.insert {m : List (String × α)} (hm : Sorted m) (k : String) (v : α) :
    Sorted (Smap.insert k v m) := by
  induction m with
  | nil => exact List.pairwise_singleton _ _
  | cons q m ih =>
    obtain ⟨k₀, v₀⟩ := q
    obtain ⟨hlt, hm'⟩ := Sorted.cons_iff.1 hm
    unfold Smap.insert
    split_ifs with h₁ h₂
    · exact Sorted.cons_iff.2 ⟨fun p hp => by
        rcases List.mem_cons.1 hp with rfl | hp
        · exact h₁
        · exact keyLt_trans h₁ (hlt p hp), hm⟩
    · subst h₂; exact Sorted.cons_iff.2 ⟨hlt, hm'⟩
    · refine Sorted.cons_iff.2 ⟨fun p hp => ?_, ih hm'⟩
      rcases mem_insert hp with rfl | hp
      · have hne : k₀.data ≠ k.data := fun h => h₂ (String.ext h).symm
        simpa [h₁] using keyLt_total hne
      · exact hlt p hp

/-- A key below every key of a sorted map is absent from it. -/
theorem get?_eq_none_of_lt {m : List (String × α)} {k : String}
    (h : ∀ p ∈ m, keyLt k.data p.1.data) : get? m k = none := by
  induction m with
  | nil => rfl
  | cons p m ih =>
    obtain ⟨k₀, v₀⟩ := p
    have hk : k₀ ≠ k := by
      rintro rfl; simpa using h _ (List.mem_cons_self _ _)
    rw [get?_cons, if_neg hk]
    exact ih fun q hq => h q (List.mem_cons_of_mem _ hq)

theorem Sorted.get?_tail {k : String} {v : α} {m : List (String × α)}
    (h : Sorted ((k, v) :: m)) : get? m k = none :=
  get?_eq_none_of_lt (Sorted.cons_iff.1 h).1

theorem remove_sublist (k : String) (m : List (String × α)) : (remove k m).Sublist m := by
  induction m with
  | nil => exact .slnil
  | cons p m ih =>
    unfold remove
    split_ifs
    · exact List.sublist_cons_self _ _
    · exact ih.cons₂ _

theorem Sorted.remove {m : List (String × α)} (hm : Sorted m) (k : String) :
    Sorted (Smap.remove k m) :=
  List.Pairwise.sublist (remove_sublist k m) hm

@[simp] theorem get?_remove {m : List (String × α)} (hm : Sorted m) (k k' : String) :
    get? (remove k m) k' = if k = k' then none else get? m k' := by
  induction m with
  | nil => simp [remove]
  | cons q m ih =>
    obtain ⟨k₀, v₀⟩ := q
    have ht := hm.get?_tail
    have ih := ih (Sorted.cons_iff.1 hm).2
    unfold remove
    by_cases h₀ : k₀ = k
    · subst h₀; by_cases h : k₀ = k' <;> simp_all [get?_cons]
    · simp only [h₀, if_false, get?_cons, ih]
      split_ifs <;> simp_all

/-- Sorted maps with the same lookups are equal. -/
theorem ext_get? : ∀ {m₁ m₂ : List (String × α)}, Sorted m₁ → Sorted m₂ →
    (∀ k, get? m₁ k = get? m₂ k) → m₁ = m₂
  | [], [], _, _, _ => rfl
  | [], (k, v) :: _, _, _, h => by simpa [get?_cons] using h k
  | (k, v) :: _, [], _, _, h => by simpa [get?_cons] using h k
  | (k₁, v₁) :: m₁, (k₂, v₂) :: m₂, h₁, h₂, h => by
    have hk : k₁ = k₂ := by
      by_contra hne
      have hne' : k₁.data ≠ k₂.data := fun e => hne (String.ext e)
      rcases keyLt_total hne' with hlt | hlt
      · have := h k₁
        rw [get?_cons, if_pos rfl, get?_cons, if_neg (Ne.symm hne),
          get?_eq_none_of_lt fun p hp => keyLt_trans hlt ((Sorted.cons_iff.1 h₂).1 p hp)] at this
        cases this
      · have := h k₂
        rw [get?_cons, if_neg hne, get?_cons, if_pos rfl,
          get?_eq_none_of_lt fun p hp => keyLt_trans hlt ((Sorted.cons_iff.1 h₁).1 p hp)] at this
        cases this
    subst hk
    have hv : v₁ = v₂ := by simpa [get?_cons] using h k₁
    subst hv
    congr 1
    refine ext_get? (Sorted.cons_iff.1 h₁).2 (Sorted.cons_iff.1 h₂).2 fun k => ?_
    by_cases hk : k₁ = k
    · subst hk; rw [h₁.get?_tail, h₂.get?_tail]
    · simpa [get?_cons, hk] using h k

/-! ## Loops that build maps -/

theorem get?_append (m₁ m₂ : List (String × α)) (k : String) :
    get? (m₁ ++ m₂) k = (get? m₁ k).or (get? m₂ k) := by
  induction m₁ with
  | nil => rfl
  | cons p m₁ ih => by_cases h : p.1 = k <;> simp [get?_cons_eq, h, ih]

/-- Storing the entries of a list in turn. -/
def insertAll (m : List (String × α)) (out : List (String × α)) : List (String × α) :=
  out.foldl (fun m kv => insert kv.1 kv.2 m) m

/-- The last entry stored under a key wins. -/
theorem get?_insertAll (m out : List (String × α)) (k : String) :
    get? (insertAll m out) k = (get? out.reverse k).or (get? m k) := by
  induction out generalizing m with
  | nil => rfl
  | cons p out ih =>
    rw [insertAll, List.foldl_cons, ← insertAll, ih, List.reverse_cons, get?_append, get?_insert,
      Option.or_assoc]
    by_cases h : p.1 = k <;> simp [get?_cons_eq, h]

theorem insertAll_append (m a b : List (String × α)) :
    insertAll m (a ++ b) = insertAll (insertAll m a) b := List.foldl_append _ _ _ _

theorem Sorted.insertAll {m : List (String × α)} (hm : Sorted m) (out : List (String × α)) :
    Sorted (Smap.insertAll m out) := by
  induction out generalizing m with
  | nil => exact hm
  | cons p out ih => exact ih (hm.insert _ _)

/-! ## Storing the same entries twice

`insert` walks to the first key not below `k` on any list, sorted or not: inserts under different
keys commute, a second insert under a key overwrites the first, and so storing the same entries
twice stores them once (`insertAll_insertAll_self`). -/

section Twice

variable {k k' e : String} {v v' w : α} {m : List (String × α)}

theorem insert_cons_of_lt (h : keyLt k.data e.data) :
    insert k v ((e, w) :: m) = (k, v) :: (e, w) :: m := if_pos h

theorem insert_cons_self : insert k v ((k, w) :: m) = (k, v) :: m := by simp [insert]

theorem insert_cons_of_gt (h₁ : ¬keyLt k.data e.data) (h₂ : k ≠ e) :
    insert k v ((e, w) :: m) = (e, w) :: insert k v m := by
  rw [insert, if_neg h₁, if_neg h₂]

theorem insert_insert_self (m : List (String × α)) : insert k v (insert k v' m) = insert k v m := by
  induction m with
  | nil => exact insert_cons_self
  | cons p m ih =>
    obtain ⟨e, w⟩ := p
    by_cases h₁ : keyLt k.data e.data
    · simp only [insert_cons_of_lt h₁, insert_cons_self]
    by_cases h₂ : k = e
    · subst h₂; simp only [insert_cons_self]
    · simp only [insert_cons_of_gt h₁ h₂, ih]

private theorem insert_comm_of_lt (hk : keyLt k.data k'.data) (m : List (String × α)) :
    insert k v (insert k' v' m) = insert k' v' (insert k v m) := by
  have hne : k' ≠ k := by rintro rfl; simp at hk
  have h' : ¬keyLt k'.data k.data := by simp [keyLt_asymm hk]
  induction m with
  | nil => simp [insert, hk, keyLt_asymm hk, hne]
  | cons p m ih =>
    obtain ⟨e, w⟩ := p
    by_cases h₁ : keyLt k'.data e.data
    · simp only [insert_cons_of_lt h₁, insert_cons_of_lt (keyLt_trans hk h₁), insert_cons_of_lt hk,
        insert_cons_of_gt h' hne]
    by_cases h₂ : k' = e
    · subst h₂; simp only [insert_cons_self, insert_cons_of_lt hk, insert_cons_of_gt h' hne]
    by_cases h₃ : keyLt k.data e.data
    · simp only [insert_cons_of_gt h₁ h₂, insert_cons_of_lt h₃, insert_cons_of_gt h' hne]
    by_cases h₄ : k = e
    · subst h₄; simp only [insert_cons_of_gt h₁ h₂, insert_cons_self, insert_cons_of_gt h' hne]
    · simp only [insert_cons_of_gt h₁ h₂, insert_cons_of_gt h₃ h₄, ih]

theorem insert_comm (h : k ≠ k') (m : List (String × α)) :
    insert k v (insert k' v' m) = insert k' v' (insert k v m) :=
  (keyLt_total fun e => h (String.ext e)).elim (fun hk => insert_comm_of_lt hk m)
    fun hk => (insert_comm_of_lt hk m).symm

/-- Storing an entry before a run of inserts that ends with the same entry changes nothing. -/
theorem insert_insertAll_insert (k : String) (v : α) :
    ∀ (l m : List (String × α)), insert k v (insertAll (insert k v m) l) = insert k v (insertAll m l)
  | [], m => insert_insert_self m
  | q :: l, m => by
    show insert k v (insertAll (insert q.1 q.2 (insert k v m)) l) =
      insert k v (insertAll (insert q.1 q.2 m) l)
    by_cases hq : q.1 = k
    · rw [hq, insert_insert_self]
    · rw [insert_comm hq, insert_insertAll_insert k v l]

theorem insertAll_insertAll_self (m out : List (String × α)) :
    insertAll (insertAll m out) out = insertAll m out := by
  induction out using List.reverseRecOn with
  | nil => rfl
  | append_singleton o p ih =>
    simp only [insertAll_append]
    show insert p.1 p.2 (insertAll (insert p.1 p.2 (insertAll m o)) o) = insert p.1 p.2 (insertAll m o)
    rw [insert_insertAll_insert, ih]

end Twice

/-- Without repeated keys the order of a list does not matter to lookups. -/
theorem get?_reverse {m : List (String × α)} (h : (m.map Prod.fst).Nodup) (k : String) :
    get? m.reverse k = get? m k := by
  induction m with
  | nil => rfl
  | cons p m ih =>
    obtain ⟨hp, hm⟩ := List.nodup_cons.1 h
    rw [List.reverse_cons, get?_append, ih hm, get?_cons_eq]
    by_cases hk : p.1 = k
    · subst hk
      have : get? m p.1 = none := get?_eq_none_iff.2 hp
      simp [this, get?_cons_eq]
    · simp [get?_cons_eq, hk]

theorem Sorted.nodup_keys {m : List (String × α)} (h : Sorted m) : (m.map Prod.fst).Nodup := by
  induction m with
  | nil => exact List.nodup_nil
  | cons p m ih =>
    obtain ⟨hlt, hm⟩ := Sorted.cons_iff.1 h
    refine List.nodup_cons.2 ⟨fun hp => ?_, ih hm⟩
    obtain ⟨q, hq, e⟩ := List.mem_map.1 hp
    simpa [e] using hlt q hq

theorem get?_of_mem {m : List (String × α)} (hnd : (m.map Prod.fst).Nodup) {k : String} {v : α}
    (h : (k, v) ∈ m) : get? m k = some v := by
  induction m with
  | nil => cases h
  | cons p m ih =>
    rw [List.map_cons, List.nodup_cons] at hnd
    rw [get?_cons_eq]
    rcases List.mem_cons.1 h with rfl | h
    · exact if_pos rfl
    · rw [if_neg fun (he : p.1 = k) => hnd.1 (he ▸ List.mem_map_of_mem Prod.fst h), ih hnd.2 h]

end Smap

section Loops

variable {ε α β : Type}

/-- A fallible loop whose steps each return entries to store: the results of all steps, stored
in turn. -/
theorem foldlM_insertAll (f : α → Except ε (List (String × β))) (l : List α)
    (m : List (String × β)) :
    l.foldlM (fun acc a => do let out ← f a; pure (Smap.insertAll acc out)) m =
      (l.mapM f).map fun outs => Smap.insertAll m outs.flatten := by
  induction l generalizing m with
  | nil => rfl
  | cons a l ih =>
    rw [List.foldlM_cons, List.mapM_cons]
    cases f a with
    | error e => rfl
    | ok out =>
      show List.foldlM _ (Smap.insertAll m out) l = _
      rw [ih]
      cases l.mapM f with
      | error e => rfl
      | ok outs =>
        simp only [Except.map, List.flatten_cons, Smap.insertAll_append, except_ok_bind,
          except_pure]

/-- A fallible loop whose steps each append entries to a list: the results of all steps,
appended in turn. -/
theorem foldlM_append (f : α → Except ε (List β)) (l : List α) (acc : List β) :
    l.foldlM (fun acc a => (f a).map (acc ++ ·)) acc =
      (l.mapM f).map fun outs => acc ++ outs.flatten := by
  induction l generalizing acc with
  | nil => exact congrArg Except.ok (List.append_nil acc).symm
  | cons a l ih =>
    rw [List.foldlM_cons, List.mapM_cons]
    cases f a with
    | error e => rfl
    | ok out =>
      show List.foldlM _ (acc ++ out) l = _
      rw [ih]
      cases l.mapM f <;> simp [Except.map, List.append_assoc]

theorem mapM_eq_ok_iff (f : α → Except ε β) (l : List α) (outs : List β) :
    l.mapM f = .ok outs ↔ List.Forall₂ (fun a b => f a = .ok b) l outs := by
  induction l generalizing outs with
  | nil => rw [List.mapM_nil, List.forall₂_nil_left_iff]; simp [eq_comm]
  | cons a l ih =>
    cases outs with
    | nil =>
      rw [List.mapM_cons, List.forall₂_nil_right_iff]
      cases f a <;> cases l.mapM f <;> simp
    | cons b bs =>
      rw [List.mapM_cons, List.forall₂_cons, ← ih]
      cases f a <;> cases l.mapM f <;> simp [and_comm]

theorem exists_mapM_eq_ok {f : α → Except ε β} {l : List α} (h : ∀ a ∈ l, ∃ b, f a = .ok b) :
    ∃ outs, l.mapM f = .ok outs := by
  induction l with
  | nil => exact ⟨[], rfl⟩
  | cons a l ih =>
    obtain ⟨b, hb⟩ := h a (.head _)
    obtain ⟨outs, hl⟩ := ih fun a' ha' => h a' (.tail _ ha')
    exact ⟨b :: outs, by rw [List.mapM_cons, hb, hl]; rfl⟩

theorem except_bind_eq_ok {x : Except ε α} {f : α → Except ε β} {b : β} :
    (x >>= f) = .ok b ↔ ∃ a, x = .ok a ∧ f a = .ok b := by
  cases x <;> simp

theorem except_map_eq_ok {f : α → β} {x : Except ε α} {b : β} (h : x.map f = .ok b) :
    ∃ a, x = .ok a ∧ f a = b := by
  cases x with
  | error e => cases h
  | ok a => exact ⟨a, rfl, Except.ok.inj h⟩

/-- A loop that failed failed at one of its steps, with that step's error. -/
theorem exists_of_mapM_eq_error {f : α → Except ε β} {l : List α} {e : ε}
    (h : l.mapM f = .error e) : ∃ a ∈ l, f a = .error e := by
  induction l with
  | nil => cases h
  | cons a l ih =>
    rw [List.mapM_cons] at h
    cases ha : f a with
    | error e' => rw [ha] at h; cases h; exact ⟨a, .head _, ha⟩
    | ok b =>
      rw [ha] at h
      cases hl : l.mapM f with
      | error e' =>
        rw [hl] at h
        cases h
        obtain ⟨a', ha', he⟩ := ih hl
        exact ⟨a', .tail _ ha', he⟩
      | ok bs => rw [hl] at h; cases h

theorem except_map_eq_error {f : α → β} {x : Except ε α} {e : ε} :
    x.map f = .error e ↔ x = .error e := by
  cases x <;> simp [Except.map]

/-- Each step of a loop that succeeded succeeded. -/
theorem exists_of_mapM_eq_ok {f : α → Except ε β} {l : List α} {outs : List β}
    (h : l.mapM f = .ok outs) {a : α} (ha : a ∈ l) : ∃ b, f a = .ok b := by
  induction (mapM_eq_ok_iff f l outs).1 h with
  | nil => cases ha
  | @cons a' b l outs hab _ ih =>
    rcases List.mem_cons.1 ha with rfl | ha
    · exact ⟨b, hab⟩
    · exact ih ((mapM_eq_ok_iff f l outs).2 ‹_›) ha

/-! A loop over a map whose step for an entry stores only keys that entry *owns*: every key of
the result holds what its owner's step stored. -/

section Owner

variable {γ : Type} {f : String × β → Except ε (List (String × γ))} {own : String → String}
  {l : List (String × β)} {outs : List (List (String × γ))}

/-- A key no step writes keeps its value. -/
theorem get?_insertAll_flatten_of_absent (h : List.Forall₂ (fun a o => f a = .ok o) l outs)
    (m : List (String × γ)) {x : String}
    (hx : ∀ a ∈ l, ∀ o, f a = .ok o → x ∉ o.map Prod.fst) :
    Smap.get? (Smap.insertAll m outs.flatten) x = Smap.get? m x := by
  induction h generalizing m with
  | nil => rfl
  | @cons a o l outs hao _ ih =>
    rw [List.flatten_cons, Smap.insertAll_append, ih _ fun a' ha' => hx a' (.tail _ ha'),
      Smap.get?_insertAll, Smap.get?_eq_none_iff.2, Option.none_or]
    simpa [List.map_reverse] using hx a (.head _) o hao

/-- A key that only the step of the entry `a` writes holds what that step wrote last. -/
theorem get?_insertAll_flatten_of_only (h : List.Forall₂ (fun a o => f a = .ok o) l outs)
    (hnd : (l.map Prod.fst).Nodup) (m : List (String × γ)) {a : String × β} (ha : a ∈ l) {o}
    (ho : f a = .ok o) {x : String}
    (hx : ∀ b ∈ l, b.1 ≠ a.1 → ∀ o', f b = .ok o' → x ∉ o'.map Prod.fst) :
    Smap.get? (Smap.insertAll m outs.flatten) x = (Smap.get? o.reverse x).or (Smap.get? m x) := by
  induction h generalizing m with
  | nil => cases ha
  | @cons a' o' l outs hao _ ih =>
    rw [List.map_cons, List.nodup_cons] at hnd
    rw [List.flatten_cons, Smap.insertAll_append]
    rcases List.mem_cons.1 ha with rfl | ha
    · cases ho.symm.trans hao
      rw [get?_insertAll_flatten_of_absent ‹_› _ fun b hb =>
        hx b (.tail _ hb) fun e => hnd.1 (e ▸ List.mem_map_of_mem _ hb), Smap.get?_insertAll]
    · have hne : a'.1 ≠ a.1 := fun e => hnd.1 (e ▸ List.mem_map_of_mem _ ha)
      have hx' : x ∉ o'.reverse.map Prod.fst := by
        simpa [List.map_reverse] using hx a' (.head _) hne o' hao
      rw [ih hnd.2 _ ha fun b hb => hx b (.tail _ hb), Smap.get?_insertAll m o',
        Smap.get?_eq_none_iff.2 hx', Option.none_or]

/-- Where each step writes only keys its entry owns, a key whose owner is not an entry keeps
its value. -/
theorem get?_insertAll_flatten_of_not_mem (h : List.Forall₂ (fun a o => f a = .ok o) l outs)
    (hown : ∀ a ∈ l, ∀ o, f a = .ok o → ∀ y ∈ o.map Prod.fst, own y = a.1)
    (m : List (String × γ)) {x : String} (hx : own x ∉ l.map Prod.fst) :
    Smap.get? (Smap.insertAll m outs.flatten) x = Smap.get? m x :=
  get?_insertAll_flatten_of_absent h m fun a ha o ho hmem =>
    hx (hown a ha o ho x hmem ▸ List.mem_map_of_mem _ ha)

/-- Where each step writes only keys its entry owns, a key holds what its owner's step wrote
last. -/
theorem get?_insertAll_flatten_of_mem (h : List.Forall₂ (fun a o => f a = .ok o) l outs)
    (hown : ∀ a ∈ l, ∀ o, f a = .ok o → ∀ y ∈ o.map Prod.fst, own y = a.1)
    (hnd : (l.map Prod.fst).Nodup) (m : List (String × γ)) {a : String × β} (ha : a ∈ l)
    {x : String} (hx : own x = a.1) {o} (ho : f a = .ok o) :
    Smap.get? (Smap.insertAll m outs.flatten) x = (Smap.get? o.reverse x).or (Smap.get? m x) :=
  get?_insertAll_flatten_of_only h hnd m ha ho fun b hb hne o' ho' hmem =>
    hne ((hown b hb o' ho' x hmem).symm.trans hx)

end Owner

end Loops

end Knirvbase
