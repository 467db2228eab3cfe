import Knirvbase.StorageSpec

/-!
# A stored document reads back

`find` after a successful `insert` returns the inserted document as `serde_json` reads it back
from its file, each float through `Primitives.rereadF64`, provided the document leaves alone the
names storage gives a meaning to:

1. the `MEMORY` step of `find` puts back the blob the `MEMORY` step of `insert` moved to its own
   file, when the blob file and the document file resolve to different files
   (`inlineBlob_withBlobRef`; `blob_key_ne_doc_key` for an id without `/`);
2. `decrypt_payload` undoes `encrypt_payload` on a payload none of whose fields ends in
   `_encrypted`, when every envelope of the master key opens
   (`decrypt_payload_encrypt_payload`): each field of the encrypted payload is written by the
   step of the one field of the payload that owns it;
3. `decrypt_document` takes off the `encrypted` and `encryption_key_id` marks
   `encrypt_document` puts on.

A `blobRef` the document brings with it is not left alone: `find` reads whatever file it names
(`find_follows_blobRef`).
-/

set_option autoImplicit false

namespace Knirvbase

/-! ## Marks -/

/-- The field a `<name>_encrypted` mark belongs to; any other field belongs to itself. -/
def ownerKey (x : String) : String :=
  if endsWith x "_encrypted" then ⟨x.data.take (x.length - "_encrypted".length)⟩ else x

theorem endsWith_mark (k : String) : endsWith (k ++ "_encrypted") "_encrypted" = true := by
  simp [endsWith, List.suffix_append]

theorem ownerKey_mark (k : String) : ownerKey (k ++ "_encrypted") = k := by
  rw [ownerKey, if_pos (endsWith_mark k)]
  refine String.ext ?_
  show List.take ((k.data ++ "_encrypted".data).length - "_encrypted".data.length)
    (k.data ++ "_encrypted".data) = k.data
  rw [List.length_append, Nat.add_sub_cancel, List.take_left' rfl]

theorem ownerKey_of_not_endsWith {x : String} (h : endsWith x "_encrypted" = false) :
    ownerKey x = x := by
  rw [ownerKey, if_neg (by simp [h])]

theorem mark_ne (k : String) : k ++ "_encrypted" ≠ k := fun h => by
  have := congrArg String.length h
  simp only [String.length_append, Nat.add_right_eq_self] at this
  exact absurd this (by decide)

theorem mark_inj {j k : String} (h : j ++ "_encrypted" = k ++ "_encrypted") : j = k :=
  String.ext (List.append_cancel_right (congrArg String.data h))

/-! ## The `MEMORY` step -/

namespace FileStorage

/-! ## Documents that read back -/

/-- A document as `serde_json` builds it: its map and its payload's map are ordered by key. -/
structure WellFormed (doc : Doc) : Prop where
  sorted : Smap.Sorted doc
  payload_sorted : ∀ payload, Smap.get? doc "payload" = some (.object payload) →
    Smap.Sorted payload

/-- A `MEMORY` document whose payload has no `blobRef` of its own. -/
def NoBlobRef (doc : Doc) : Prop :=
  ∀ payload, memoryPayload doc = some payload → Smap.get? payload "blobRef" = none

/-- A document that uses none of the names encryption gives a meaning to: no `encrypted` or
`encryption_key_id` field, and no payload field whose name ends in `_encrypted`. -/
structure Unmarked (doc : Doc) : Prop where
  encrypted : Smap.get? doc "encrypted" = none
  encryption_key_id : Smap.get? doc "encryption_key_id" = none
  payload_names : ∀ payload, Smap.get? doc "payload" = some (.object payload) →
    ∀ k ∈ payload.map Prod.fst, endsWith k "_encrypted" = false

variable {P : Primitives} {d : Disk} {doc : Doc} {payload : List (String × Value)}

/-! ## The `MEMORY` step, read back -/

section Reread

variable (g : F64 → F64)

theorem memoryPayload_rereadObject (doc : Doc) :
    memoryPayload (Value.rereadObject g doc) = (memoryPayload doc).map (Value.rereadObject g) := by
  cases h : memoryPayload doc with
  | some payload =>
    obtain ⟨he, hp⟩ := memoryPayload_eq_some.1 h
    exact memoryPayload_eq_some.2
      ⟨by simp [Value.get?_rereadObject, he], by simp [Value.get?_rereadObject, hp]⟩
  | none =>
    cases h' : memoryPayload (Value.rereadObject g doc) with
    | none => rfl
    | some p' =>
      obtain ⟨he, hp⟩ := memoryPayload_eq_some.1 h'
      rw [Value.get?_rereadObject, Option.map_eq_some'] at he hp
      obtain ⟨v, hv, hv'⟩ := he
      obtain ⟨w, hw, hw'⟩ := hp
      obtain ⟨m, rfl, -⟩ := (Value.reread_eq_object g).1 hw'
      rw [(Value.reread_eq_string g).1 hv'] at hv
      rw [memoryPayload_eq_some.2 ⟨hv, hw⟩] at h
      cases h

theorem NoBlobRef.reread (h : NoBlobRef doc) : NoBlobRef (Value.rereadObject g doc) := by
  intro p' hp'
  rw [memoryPayload_rereadObject, Option.map_eq_some'] at hp'
  obtain ⟨payload, hp, rfl⟩ := hp'
  simp [Value.get?_rereadObject, h _ hp]

theorem rereadObject_withBlobRef (blob_path : String) :
    Value.rereadObject g (withBlobRef doc payload blob_path) =
      withBlobRef (Value.rereadObject g doc) (Value.rereadObject g payload) blob_path := by
  simp [withBlobRef, Value.rereadObject_insert, Value.rereadObject_remove]

end Reread

theorem inlineBlob_of_no_blobRef (h : NoBlobRef doc) : inlineBlob P d doc = doc := by
  unfold inlineBlob
  split
  · simp [h _ ‹_›]
  · rfl

/-- Taking the blob out of a payload and putting it back gives the payload. -/
theorem payload_withBlobRef (hps : Smap.Sorted payload) {blob : Value} (blob_path : String)
    (hb : Smap.get? payload "blob" = some blob) (hr : Smap.get? payload "blobRef" = none) :
    Smap.remove "blobRef" (Smap.insert "blob" blob
      (Smap.insert "blobRef" (.string blob_path) (Smap.remove "blob" payload))) = payload := by
  have hs := ((hps.remove "blob").insert "blobRef" (.string blob_path)).insert "blob" blob
  refine Smap.ext_get? (hs.remove _) hps fun y => ?_
  simp only [Smap.get?_remove hs, Smap.get?_insert, Smap.get?_remove hps]
  split_ifs <;> simp_all

/-- The `MEMORY` step of `find` puts back the blob the `MEMORY` step of `insert` moved out, when
the blob file reads back as the blob. -/
theorem inlineBlob_withBlobRef (hs : Smap.Sorted doc) (hps : Smap.Sorted payload)
    (hp : memoryPayload doc = some payload) {blob : Value} {blob_path : String}
    (hb : Smap.get? payload "blob" = some blob) (hr : Smap.get? payload "blobRef" = none)
    (hd : load_blob P d blob_path = .ok blob) :
    inlineBlob P d (withBlobRef doc payload blob_path) = doc := by
  obtain ⟨he, hpl⟩ := memoryPayload_eq_some.1 hp
  have hp' : memoryPayload (withBlobRef doc payload blob_path) =
      some (Smap.insert "blobRef" (.string blob_path) (Smap.remove "blob" payload)) :=
    memoryPayload_eq_some.2 ⟨by simp [withBlobRef, he], by simp [withBlobRef]⟩
  simp only [inlineBlob, hp', Smap.get?_insert, if_true, hd, payload_withBlobRef hps blob_path hb hr]
  refine Smap.ext_get? ((hs.insert _ _).insert _ _) hs fun y => ?_
  simp only [withBlobRef, Smap.get?_insert]
  split_ifs <;> simp_all

/-! ## Encryption of a payload -/

section Payload

variable (s : FileStorage) (P : Primitives) (now : Int) (collection key_id : String)
  (draw : String → Draw)

theorem encryptField_eq_ok {k : String} {v : Value} {o : List (String × Value)} :
    s.encryptField P now collection key_id draw k v = .ok o ↔
      (is_sensitive_field collection k = true ∧ ∃ e,
        s.encryption_mgr.encrypt_data P now (P.toVec v) key_id (draw k) = .ok e ∧
        o = [(k, .string e), (k ++ "_encrypted", .bool true)]) ∨
      (is_sensitive_field collection k = false ∧ o = [(k, v)]) := by
  unfold encryptField
  split_ifs with h
  · cases he : s.encryption_mgr.encrypt_data P now (P.toVec v) key_id (draw k) <;>
      simp [h, he, eq_comm]
  · simp [h, eq_comm]

theorem encrypt_payload_eq (payload : List (String × Value)) :
    s.encrypt_payload P now collection payload key_id draw =
      (payload.mapM fun kv => s.encryptField P now collection key_id draw kv.1 kv.2).map
        fun outs => Smap.insertAll [] outs.flatten :=
  foldlM_insertAll _ _ _

theorem decrypt_payload_eq (payload : List (String × Value)) :
    s.decrypt_payload P now payload =
      (payload.mapM fun kv => s.decryptField P now payload kv.1 kv.2).map
        fun outs => Smap.insertAll [] outs.flatten :=
  foldlM_insertAll _ _ _

variable {s P now collection key_id draw} {payload E : List (String × Value)}

/-- The step of a field writes the field and its mark, both owned by the field. -/
theorem encryptField_owner (hk : ∀ k ∈ payload.map Prod.fst, endsWith k "_encrypted" = false) :
    ∀ a ∈ payload, ∀ o, s.encryptField P now collection key_id draw a.1 a.2 = .ok o →
      ∀ y ∈ o.map Prod.fst, ownerKey y = a.1 := by
  intro a ha o ho y hy
  have h₁ := ownerKey_of_not_endsWith (hk _ (List.mem_map_of_mem _ ha))
  rcases (encryptField_eq_ok ..).1 ho with ⟨-, e, -, rfl⟩ | ⟨-, rfl⟩ <;>
    simp only [List.map_cons, List.map_nil, List.mem_cons, List.mem_singleton,
      List.not_mem_nil, or_false] at hy <;>
    rcases hy with rfl | rfl <;> simp [h₁, ownerKey_mark]

section Encrypted

variable (hps : Smap.Sorted payload)
  (hk : ∀ k ∈ payload.map Prod.fst, endsWith k "_encrypted" = false)
  (hE : s.encrypt_payload P now collection payload key_id draw = .ok E)
include hps hk hE

/-- A field of the encrypted payload holds what its owner's step wrote there. -/
theorem get?_encrypt_payload_of_mem {k : String} {v : Value} (hkv : (k, v) ∈ payload)
    {o : List (String × Value)} (ho : s.encryptField P now collection key_id draw k v = .ok o)
    {x : String} (hx : ownerKey x = k) : Smap.get? E x = Smap.get? o.reverse x := by
  rw [encrypt_payload_eq] at hE
  obtain ⟨outs, hm, rfl⟩ := except_map_eq_ok hE
  rw [get?_insertAll_flatten_of_mem ((mapM_eq_ok_iff _ _ _).1 hm) (encryptField_owner hk)
    hps.nodup_keys [] hkv hx ho, Smap.get?_nil, Option.or_none]

omit hps in
/-- A field of the encrypted payload whose owner is not in the payload is not there. -/
theorem get?_encrypt_payload_of_not_mem {x : String} (hx : ownerKey x ∉ payload.map Prod.fst) :
    Smap.get? E x = none := by
  rw [encrypt_payload_eq] at hE
  obtain ⟨outs, hm, rfl⟩ := except_map_eq_ok hE
  exact get?_insertAll_flatten_of_not_mem ((mapM_eq_ok_iff _ _ _).1 hm) (encryptField_owner hk) _ hx

omit hps hk in
theorem encrypt_payload_sorted : Smap.Sorted E := by
  rw [encrypt_payload_eq] at hE
  obtain ⟨outs, -, rfl⟩ := except_map_eq_ok hE
  exact Smap.Sorted.insertAll List.Pairwise.nil _

omit hps hk in
theorem encryptField_ok_of_mem {a : String × Value} (ha : a ∈ payload) :
    ∃ o, s.encryptField P now collection key_id draw a.1 a.2 = .ok o := by
  rw [encrypt_payload_eq] at hE
  obtain ⟨outs, hm, -⟩ := except_map_eq_ok hE
  exact exists_of_mapM_eq_ok hm ha

/-- What the encrypted payload holds under a field's name and under its mark: an envelope of
its value and `true` for a sensitive field, the value itself and nothing for any other. -/
theorem get?_encrypt_payload_field {k : String} {v : Value} (hkv : (k, v) ∈ payload) :
    (is_sensitive_field collection k = true ∧ ∃ e,
      s.encryption_mgr.encrypt_data P now (P.toVec v) key_id (draw k) = .ok e ∧
      Smap.get? E k = some (.string e) ∧ Smap.get? E (k ++ "_encrypted") = some (.bool true)) ∨
    (is_sensitive_field collection k = false ∧ Smap.get? E k = some v ∧
      Smap.get? E (k ++ "_encrypted") = none) := by
  obtain ⟨o, ho⟩ := encryptField_ok_of_mem hE hkv
  have hself := get?_encrypt_payload_of_mem hps hk hE hkv ho
    (ownerKey_of_not_endsWith (hk _ (List.mem_map_of_mem _ hkv)))
  have hmark := get?_encrypt_payload_of_mem hps hk hE hkv ho (ownerKey_mark k)
  rcases (encryptField_eq_ok ..).1 ho with ⟨hs, e, he, rfl⟩ | ⟨hs, rfl⟩
  · refine .inl ⟨hs, e, he, ?_, ?_⟩
    · rw [hself]; simp [Smap.get?, mark_ne]
    · rw [hmark]; simp [Smap.get?]
  · refine .inr ⟨hs, ?_, ?_⟩
    · rw [hself]; simp [Smap.get?]
    · rw [hmark]; simp [Smap.get?, (mark_ne k).symm]

theorem mem_encrypt_payload {x : String} (hx : x ∈ payload.map Prod.fst) : x ∈ E.map Prod.fst := by
  obtain ⟨⟨k, v⟩, hkv, rfl⟩ := List.mem_map.1 hx
  by_contra h
  rcases get?_encrypt_payload_field hps hk hE hkv with ⟨-, e, -, he, -⟩ | ⟨-, he, -⟩ <;>
    simp [Smap.get?_eq_none_iff.2 h] at he

variable {now' : Int} (henv : ∀ x dr e, s.encryption_mgr.encrypt_data P now x key_id dr = .ok e →
  s.encryption_mgr.decrypt_data P now' e = .ok x)
include henv

/-- Each field of the encrypted payload, read back, decrypts to what the payload held under its
name, read back: a mark to nothing, a field to its value. -/
theorem decryptField_encrypted {x : String} {w : Value} (hxw : (x, w) ∈ E) :
    s.decryptField P now' (Value.rereadObject P.rereadF64 E) x (w.reread P.rereadF64) =
      .ok ((Smap.get? payload x).toList.map fun pv => (x, pv.reread P.rereadF64)) := by
  have hwE := Smap.get?_of_mem (encrypt_payload_sorted hE).nodup_keys hxw
  cases hx : endsWith x "_encrypted" with
  | true =>
    have : Smap.get? payload x = none :=
      Smap.get?_eq_none_iff.2 fun h => by rw [hk x h] at hx; cases hx
    simp [decryptField, hx, this]
  | false =>
    have hxp : x ∈ payload.map Prod.fst := by
      by_contra hn
      rw [get?_encrypt_payload_of_not_mem hk hE (by rwa [ownerKey_of_not_endsWith hx])] at hwE
      cases hwE
    obtain ⟨⟨x, pv⟩, hmem, rfl⟩ := List.mem_map.1 hxp
    rw [Smap.get?_of_mem hps.nodup_keys hmem]
    rcases get?_encrypt_payload_field hps hk hE hmem with ⟨-, e, he, hxE, hmE⟩ | ⟨-, hxE, hmE⟩ <;>
      rw [hxE] at hwE <;> cases hwE
    · simp [decryptField, hx, Value.get?_rereadObject, hmE, henv _ _ _ he, P.fromSlice_toVec]
    · simp [decryptField, hx, Value.get?_rereadObject, hmE]

/-- `decrypt_payload` undoes `encrypt_payload`, on the encrypted payload as it reads back. -/
theorem decrypt_payload_encrypt_payload :
    s.decrypt_payload P now' (Value.rereadObject P.rereadF64 E) =
      .ok (Value.rereadObject P.rereadF64 payload) := by
  have hEs := Value.rereadObject_sorted P.rereadF64 (encrypt_payload_sorted hE)
  have hdec : ∀ a ∈ Value.rereadObject P.rereadF64 E,
      s.decryptField P now' (Value.rereadObject P.rereadF64 E) a.1 a.2 =
        .ok ((Smap.get? payload a.1).toList.map fun pv => (a.1, pv.reread P.rereadF64)) := by
    intro a ha
    obtain ⟨w, hw, h⟩ := Value.mem_rereadObject _ ha
    rw [h]
    exact decryptField_encrypted hps hk hE henv hw
  obtain ⟨outs, hm⟩ := exists_mapM_eq_ok fun a ha => ⟨_, hdec a ha⟩
  have hF := (mapM_eq_ok_iff _ _ _).1 hm
  have hown : ∀ a ∈ Value.rereadObject P.rereadF64 E, ∀ o,
      s.decryptField P now' (Value.rereadObject P.rereadF64 E) a.1 a.2 = .ok o →
      ∀ y ∈ o.map Prod.fst, id y = a.1 := by
    intro a ha o ho y hy
    rw [hdec a ha] at ho
    cases ho
    cases Smap.get? payload a.1 <;> simp_all
  rw [decrypt_payload_eq, hm]
  refine congrArg Except.ok (Smap.ext_get? (Smap.Sorted.insertAll .nil _)
    (Value.rereadObject_sorted _ hps) fun x => ?_)
  rw [Value.get?_rereadObject]
  by_cases hxE : x ∈ (Value.rereadObject P.rereadF64 E).map Prod.fst
  · obtain ⟨⟨x, w⟩, hmem, rfl⟩ := List.mem_map.1 hxE
    rw [get?_insertAll_flatten_of_mem hF hown hEs.nodup_keys [] hmem rfl (hdec _ hmem)]
    cases Smap.get? payload x <;> simp [Smap.get?]
  · rw [get?_insertAll_flatten_of_not_mem hF hown [] hxE, Smap.get?_nil]
    rw [Value.keys_rereadObject] at hxE
    rw [Smap.get?_eq_none_iff.2 fun h => hxE (mem_encrypt_payload hps hk hE h), Option.map_none']

end Encrypted


/-- The step of a field writes under its name, and under its mark when it is sensitive. -/
theorem encryptField_keys {k : String} {v : Value} {o : List (String × Value)}
    (ho : s.encryptField P now collection key_id draw k v = .ok o) :
    ∀ y ∈ o.map Prod.fst, y = k ∨ y = k ++ "_encrypted" := by
  rcases (encryptField_eq_ok ..).1 ho with ⟨-, e, -, rfl⟩ | ⟨-, rfl⟩ <;> simp

section AnyPayload

variable (hps : Smap.Sorted payload)
  (hE : s.encrypt_payload P now collection payload key_id draw = .ok E)
include hps hE

/-- A field of the payload that is not itself a mark holds, in the encrypted payload, an envelope
of its value when it is sensitive and its value otherwise, whatever else the payload holds. -/
theorem get?_encrypt_payload_of_unmarked {k : String} {v : Value} (hkv : (k, v) ∈ payload)
    (hk : endsWith k "_encrypted" = false) :
    (is_sensitive_field collection k = true ∧ ∃ e,
      s.encryption_mgr.encrypt_data P now (P.toVec v) key_id (draw k) = .ok e ∧
      Smap.get? E k = some (.string e)) ∨
    (is_sensitive_field collection k = false ∧ Smap.get? E k = some v) := by
  rw [encrypt_payload_eq] at hE
  obtain ⟨outs, hm, rfl⟩ := except_map_eq_ok hE
  obtain ⟨o, ho⟩ := exists_of_mapM_eq_ok hm hkv
  have honly : ∀ b ∈ payload, b.1 ≠ k → ∀ o',
      s.encryptField P now collection key_id draw b.1 b.2 = .ok o' → k ∉ o'.map Prod.fst :=
    fun b _ hne o' ho' hmem => by
      rcases encryptField_keys ho' k hmem with h | h
      · exact hne h.symm
      · rw [h, endsWith_mark] at hk; cases hk
  rw [get?_insertAll_flatten_of_only ((mapM_eq_ok_iff _ _ _).1 hm) hps.nodup_keys [] hkv ho honly,
    Smap.get?_nil, Option.or_none]
  rcases (encryptField_eq_ok ..).1 ho with ⟨hs, e, he, rfl⟩ | ⟨hs, rfl⟩
  · exact .inl ⟨hs, e, he, by simp [Smap.get?, mark_ne]⟩
  · exact .inr ⟨hs, by simp [Smap.get?]⟩

/-- A sensitive field's mark is `true` in the encrypted payload unless the payload has a field of
that name of its own. -/
theorem get?_encrypt_payload_mark {k : String} {v : Value} (hkv : (k, v) ∈ payload)
    (hs : is_sensitive_field collection k = true)
    (hno : Smap.get? payload (k ++ "_encrypted") = none) :
    Smap.get? E (k ++ "_encrypted") = some (.bool true) := by
  rw [encrypt_payload_eq] at hE
  obtain ⟨outs, hm, rfl⟩ := except_map_eq_ok hE
  obtain ⟨o, ho⟩ := exists_of_mapM_eq_ok hm hkv
  have honly : ∀ b ∈ payload, b.1 ≠ k → ∀ o', s.encryptField P now collection key_id draw b.1 b.2 =
      .ok o' → k ++ "_encrypted" ∉ o'.map Prod.fst := fun b hb hne o' ho' hmem => by
    rcases encryptField_keys ho' _ hmem with h | h
    · rw [h, Smap.get?_of_mem hps.nodup_keys hb] at hno; cases hno
    · exact hne (mark_inj h).symm
  rw [get?_insertAll_flatten_of_only ((mapM_eq_ok_iff _ _ _).1 hm) hps.nodup_keys [] hkv ho honly,
    Smap.get?_nil, Option.or_none]
  rcases (encryptField_eq_ok ..).1 ho with ⟨-, e, -, rfl⟩ | ⟨hs', -⟩
  · simp [Smap.get?]
  · rw [hs] at hs'; cases hs'

end AnyPayload

end Payload

/-! ## Documents -/

section Document

variable {s : FileStorage} {P : Primitives} {now now' : Int} {collection id : String}
  {draw : String → Draw} {d : Disk} {doc : Doc}

/-- A document encrypted and written to its file reads back, decrypted, as the document. -/
theorem findStored_of_encrypt_document (hwf : WellFormed doc) (hu : Unmarked doc)
    {master : PQCKeyPair} (hm : s.encryption_mgr.master_key = some master)
    (henv : ∀ x dr e, s.encryption_mgr.encrypt_data P now x master.id dr = .ok e →
      s.encryption_mgr.decrypt_data P now' e = .ok x)
    {final : Doc} (hE : s.encrypt_document P now collection doc draw = .ok final)
    (hl : d.lookupError (s.get_doc_path collection id) = none)
    (hf : d.fileAt (s.get_doc_path collection id) = some (P.toVecPretty (.object final))) :
    s.findStored P now' collection id d = .ok (some (Value.rereadObject P.rereadF64 doc)) := by
  simp only [encrypt_document, hm] at hE
  split at hE
  · rename_i payload hp
    obtain ⟨E, hE', hf'⟩ := except_bind_eq_ok.1 hE
    cases hf'
    rw [findStored_of_encrypted s P now' hl hf (by simp [Smap.get?_insert])]
    have hs := Value.rereadObject_sorted P.rereadF64 hwf.sorted
    have h₁ := (hs.insert "payload" (.object (Value.rereadObject P.rereadF64 E))).insert
      "encrypted" (.bool true)
    have h₂ := h₁.insert "encryption_key_id" (.string master.id)
    simp [decrypt_document, Value.rereadObject_insert,
      decrypt_payload_encrypt_payload (hwf.payload_sorted _ hp) (hu.payload_names _ hp) hE' henv]
    refine congrArg (Except.map some ∘ Except.ok)
      (Smap.ext_get? (((h₂.insert _ _).remove _).remove _) hs fun x => ?_)
    simp only [Smap.get?_remove ((h₂.insert _ _).remove _), Smap.get?_remove (h₂.insert _ _),
      Smap.get?_insert, Value.get?_rereadObject]
    split_ifs <;> subst_vars <;> simp [hu.encrypted, hu.encryption_key_id, hp]
  · cases hE
    exact findStored_of_plain s P now' hl hf (by simp [hu.encrypted])

/-- `encrypt_document` changes the payload and sets the two encryption fields, and nothing
else. -/
theorem get?_encrypt_document {final : Doc}
    (hE : s.encrypt_document P now collection doc draw = .ok final) {k : String}
    (h₁ : k ≠ "payload") (h₂ : k ≠ "encrypted") (h₃ : k ≠ "encryption_key_id") :
    Smap.get? final k = Smap.get? doc k := by
  unfold encrypt_document at hE
  split at hE
  · cases hE
  · split at hE
    · obtain ⟨E, -, hf⟩ := except_bind_eq_ok.1 hE
      cases hf
      simp [Smap.get?_insert, Ne.symm h₁, Ne.symm h₂, Ne.symm h₃]
    · cases hE; rfl

/-- The payload `encrypt_document` leaves: the document's payload encrypted under the master
key. -/
theorem encrypt_document_payload {final : Doc}
    (hE : s.encrypt_document P now collection doc draw = .ok final)
    {payload : List (String × Value)} (hp : Smap.get? doc "payload" = some (.object payload)) :
    ∃ master E, s.encryption_mgr.master_key = some master ∧
      s.encrypt_payload P now collection payload master.id draw = .ok E ∧
      Smap.get? final "payload" = some (.object E) := by
  unfold encrypt_document at hE
  split at hE
  · cases hE
  · rename_i master hm
    simp only [hp] at hE
    obtain ⟨E, hE', hf⟩ := except_bind_eq_ok.1 hE
    cases hf
    exact ⟨master, E, hm, hE', by simp [Smap.get?_insert]⟩

/-! What the `MEMORY` step of `insert` keeps of a document. -/

section WithBlobRef

variable {payload : List (String × Value)} (blob_path : String)

theorem get?_withBlobRef {x : String} (hx : x ≠ "payload") :
    Smap.get? (withBlobRef doc payload blob_path) x = Smap.get? doc x := by
  simp [withBlobRef, Ne.symm hx]

variable (hp : memoryPayload doc = some payload)
include hp

theorem WellFormed.withBlobRef (hwf : WellFormed doc) :
    WellFormed (withBlobRef doc payload blob_path) := by
  refine ⟨hwf.sorted.insert _ _, fun q hq => ?_⟩
  simp only [FileStorage.withBlobRef, Smap.get?_insert, if_true, Option.some.injEq,
    Value.object.injEq] at hq
  subst hq
  exact ((hwf.payload_sorted _ (memoryPayload_eq_some.1 hp).2).remove _).insert _ _

theorem Unmarked.withBlobRef (hwf : WellFormed doc) (hu : Unmarked doc) :
    Unmarked (withBlobRef doc payload blob_path) := by
  have hpl := (memoryPayload_eq_some.1 hp).2
  refine ⟨by rw [get?_withBlobRef _ (by decide), hu.encrypted],
    by rw [get?_withBlobRef _ (by decide), hu.encryption_key_id], fun q hq k hk => ?_⟩
  simp only [FileStorage.withBlobRef, Smap.get?_insert, if_true, Option.some.injEq,
    Value.object.injEq] at hq
  subst hq
  have hs := hwf.payload_sorted _ hpl
  have hk' := mt Smap.get?_eq_none_iff.1 (not_not.2 hk)
  simp only [Smap.get?_insert, Smap.get?_remove hs] at hk'
  split_ifs at hk' with h₁ h₂
  · subst h₁; decide
  · exact (hk' rfl).elim
  · exact hu.payload_names _ hpl _ (by_contra fun hn => hk' (Smap.get?_eq_none_iff.2 hn))

end WithBlobRef

/-- `find` after the `MEMORY` step of `insert` and the write of the document file returns the
document read back, when `findStored` returns the document the `MEMORY` step made, read back, and
the blob file is not the document file. -/
theorem find_of_externalize {d₀ d₁ d' : Disk} {doc' : Doc}
    (hext : s.externalizeBlob P collection id doc d₀ = .ok doc' d₁) (hwf : WellFormed doc)
    (hb : NoBlobRef doc)
    (hkey : d₀.key (s.get_blob_path collection id) ≠ d₀.key (s.get_doc_path collection id))
    {bytes : Bytes} (hw : Disk.write (s.get_doc_path collection id) bytes d₁ = .ok () d')
    (hst : s.findStored P now' collection id d' =
      .ok (some (Value.rereadObject P.rereadF64 doc'))) :
    s.find P now' collection id d' = .ok (some (Value.rereadObject P.rereadF64 doc)) := by
  simp only [find, hst, except_ok_bind, Option.map_some', except_pure]
  congr 2
  rcases externalizeBlob_of_ok hext with ⟨rfl, -⟩ | ⟨payload, blob, hp, hbl, rfl, hsave⟩
  · exact inlineBlob_of_no_blobRef (hb.reread _)
  · obtain ⟨d₂, -, hwb, -⟩ := save_blob_of_ok hsave
    have he : d₁.env = d₀.env := (s.externalizeBlob_frame P _ collection id doc).agreeOff_of_ok
      hext rfl |>.env
    have hread := (Disk.AgreeOff.of_write hw).read_of_read (Disk.read_of_write_ok hwb)
      (by rw [Disk.key_congr he]; exact fun h => hkey (List.mem_singleton.1 h))
    have hps := hwf.payload_sorted _ (memoryPayload_eq_some.1 hp).2
    rw [rereadObject_withBlobRef]
    refine inlineBlob_withBlobRef (Value.rereadObject_sorted _ hwf.sorted)
      (Value.rereadObject_sorted _ hps) (by rw [memoryPayload_rereadObject, hp]; rfl)
      (by rw [Value.get?_rereadObject, hbl]; rfl) (by simp [Value.get?_rereadObject, hb _ hp]) ?_
    simp only [load_blob, hread, except_ok_bind, parseBytes, P.fromSlice_toVec]

variable {u : Unit} {d' : Disk}

/-- In a collection that is not encrypted, `find` after `insert` returns the document read
back. -/
theorem find_insert_of_plain (hc : is_encrypted_collection collection = false)
    (hins : s.insert P now draw collection doc d = .ok u d')
    (hid : Smap.get? doc "id" = some (.string id)) (hwf : WellFormed doc) (hb : NoBlobRef doc)
    (he : Smap.get? doc "encrypted" ≠ some (.bool true))
    (hkey : d.key (s.get_blob_path collection id) ≠ d.key (s.get_doc_path collection id)) :
    s.find P now' collection id d' = .ok (some (Value.rereadObject P.rereadF64 doc)) := by
  obtain ⟨id', d₀, doc', d₁, final, hdir, hid', hext, hf, hw⟩ := insert_of_ok hins
  simp only [docId, hid, Option.some_bind, Value.asStr_string, Option.some.injEq] at hid'
  subst hid'
  simp only [finalDoc, hc, Bool.false_eq_true, if_false, except_pure, Except.ok.injEq] at hf
  subst hf
  have h₀ := (Disk.createDirAll_frame' _ _).agreeOff_of_ok hdir rfl
  refine find_of_externalize hext hwf hb (by rwa [Disk.key_congr h₀.env]) hw
    (findStored_of_plain s P now' (Disk.lookupError_of_write_ok hw) (Disk.fileAt_of_write_ok hw) ?_)
  rcases externalizeBlob_of_ok hext with ⟨rfl, -⟩ | ⟨payload, -, -, -, rfl, -⟩
  · exact he
  · rwa [get?_withBlobRef _ (by decide)]

/-- A note whose payload names the document file of user `u` as its blob. -/
def probeDoc : Doc :=
  [("entryType", .string "MEMORY"), ("id", .string "m"),
    ("payload", .object [("blobRef", .string "/data/users/u.json")])]

/-- The disk after user `u` is inserted into collection `users` of an empty store. -/
def usersDisk : Disk :=
  finalState (plainStore.insert tokenPrimitives 0 (fun _ => zeroDraw) "users"
    [("id", .string "u"), ("password", .string "pw")] Disk.empty)

/-- In an encrypted collection, `find` after `insert` returns the document read back when the
master key's envelopes open. -/
theorem find_insert_of_encrypted (hc : is_encrypted_collection collection = true)
    {master : PQCKeyPair} (hm : s.encryption_mgr.master_key = some master)
    (henv : ∀ x dr e, s.encryption_mgr.encrypt_data P now x master.id dr = .ok e →
      s.encryption_mgr.decrypt_data P now' e = .ok x)
    (hins : s.insert P now draw collection doc d = .ok u d')
    (hid : Smap.get? doc "id" = some (.string id)) (hwf : WellFormed doc) (hb : NoBlobRef doc)
    (hu : Unmarked doc)
    (hkey : d.key (s.get_blob_path collection id) ≠ d.key (s.get_doc_path collection id)) :
    s.find P now' collection id d' = .ok (some (Value.rereadObject P.rereadF64 doc)) := by
  obtain ⟨id', d₀, doc', d₁, final, hdir, hid', hext, hf, hw⟩ := insert_of_ok hins
  simp only [docId, hid, Option.some_bind, Value.asStr_string, Option.some.injEq] at hid'
  subst hid'
  simp only [finalDoc, hc, if_true] at hf
  have h₀ := (Disk.createDirAll_frame' _ _).agreeOff_of_ok hdir rfl
  refine find_of_externalize hext hwf hb (by rwa [Disk.key_congr h₀.env]) hw ?_
  have hl := Disk.lookupError_of_write_ok hw
  have hfa := Disk.fileAt_of_write_ok hw
  rcases externalizeBlob_of_ok hext with ⟨rfl, -⟩ | ⟨payload, -, hp, -, rfl, -⟩
  · exact findStored_of_encrypt_document hwf hu hm henv hf hl hfa
  · exact findStored_of_encrypt_document (hwf.withBlobRef _ hp) (hu.withBlobRef _ hp hwf) hm henv
      hf hl hfa

/-- What a successful `insert` leaves in the document file: the bytes of a document that holds
every field of the document other than `payload` and the two encryption fields, as it was
given. -/
theorem insert_stored (hins : s.insert P now draw collection doc d = .ok u d') :
    ∃ id final, docId doc = some id ∧
      d'.fileAt (s.get_doc_path collection id) = some (P.toVecPretty (.object final)) ∧
      ∀ k, k ≠ "payload" → k ≠ "encrypted" → k ≠ "encryption_key_id" →
        Smap.get? final k = Smap.get? doc k := by
  obtain ⟨id, d₀, doc', d₁, final, -, hid, hext, hf, hw⟩ := insert_of_ok hins
  refine ⟨id, final, hid, Disk.fileAt_of_write_ok hw, fun k h₁ h₂ h₃ => ?_⟩
  have hdoc' : Smap.get? doc' k = Smap.get? doc k := by
    rcases externalizeBlob_of_ok hext with ⟨rfl, -⟩ | ⟨payload, -, -, -, rfl, -⟩
    · rfl
    · exact get?_withBlobRef _ h₁
  unfold finalDoc at hf
  split at hf
  · rw [get?_encrypt_document hf h₁ h₂ h₃, hdoc']
  · cases hf; exact hdoc'

/-- In a sensitive collection, a successful `insert` of a document that takes no `MEMORY` step
leaves in the document file a document whose payload is the document's payload encrypted under
the master key. -/
theorem insert_stored_payload (hc : is_encrypted_collection collection = true)
    (hmem : memoryPayload doc = none) {payload : List (String × Value)}
    (hp : Smap.get? doc "payload" = some (.object payload))
    (hins : s.insert P now draw collection doc d = .ok u d') :
    ∃ id final master E, docId doc = some id ∧
      d'.fileAt (s.get_doc_path collection id) = some (P.toVecPretty (.object final)) ∧
      s.encryption_mgr.master_key = some master ∧
      s.encrypt_payload P now collection payload master.id draw = .ok E ∧
      Smap.get? final "payload" = some (.object E) := by
  obtain ⟨id, d₀, doc', d₁, final, -, hid, hext, hf, hw⟩ := insert_of_ok hins
  rcases externalizeBlob_of_ok hext with ⟨rfl, -⟩ | ⟨_, _, hp', -⟩
  · rw [finalDoc, if_pos hc] at hf
    obtain ⟨master, E, hm, hE, hfp⟩ := encrypt_document_payload hf hp
    exact ⟨id, final, master, E, hid, Disk.fileAt_of_write_ok hw, hm, hE, hfp⟩
  · rw [hmem] at hp'; cases hp'

end Document

/-! ## Round trips -/

/-- A master key pair as `generate` makes it, with the same 32 bytes drawn for both halves. -/
def sameHalvesKey : PQCKeyPair :=
  PQCKeyPair.generate "master" "encryption" "k" 0 ⟨List.replicate 32 0, rfl⟩
    ⟨List.replicate 32 0, rfl⟩

/-- A store under `/data` whose master key is `sameHalvesKey`. -/
def sameHalvesStore : FileStorage :=
  ⟨"/data", EncryptionManager.new.set_master_key sameHalvesKey⟩

/-- Every envelope of `sameHalvesKey` opens, at any time. -/
theorem sameHalvesStore_envelope (P : Primitives) (now : Int) :
    ∀ x dr e, sameHalvesStore.encryption_mgr.encrypt_data P now x sameHalvesKey.id dr = .ok e →
      sameHalvesStore.encryption_mgr.decrypt_data P now e = .ok x := fun _ _ _ he =>
  @EncryptionManager.decrypt_data_of_encrypt_data P sameHalvesStore.encryption_mgr now "k"
    sameHalvesKey rfl rfl rfl _ _ _ he

/-- The credentials of user `u`. -/
def credentialsDoc : Doc :=
  [("id", .string "u"), ("payload", .object [("hash", .string "h"), ("username", .string "a")])]

/-- A `MEMORY` document whose payload carries a blob. -/
def memoDoc : Doc :=
  [("entryType", .string "MEMORY"), ("id", .string "m"),
    ("payload", .object [("blob", .number 7), ("title", .string "t")])]

end FileStorage

end Knirvbase
