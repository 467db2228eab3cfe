import Knirvbase.StorageSpec

/-!
# Which files a storage call touches

`insert`, `update` and `delete` on a document write or remove that document's file and its blob
file and no other, and `insert` and `update` add only the directories on the way to its blob
directory (`insert_frame`, `update_frame`, `delete_frame`). The paths are built by `Path::join`
alone, so names that hold a `/` send two documents to one file (`doc_path_collision`). With plain
names the files of every document resolve to keys of their own (`plain_files_disjoint`), and once
the base directory is there a call on one document leaves `find` on any other document as it was,
unless the lookup of that document's `blobRef` meets one of the call's files or new directories
(`writes_touch_own_files`).
-/

set_option autoImplicit false

namespace Knirvbase

namespace FileStorage

/-! ## Where plain names lead -/

section Plain

variable (s : FileStorage) (cwd : List (List Char)) {collection id : String}
  (hc : PlainName collection)
include hc

theorem walk_collection_dir :
    walk cwd (s.get_collection_dir collection) = collection.data :: walk cwd s.base_dir := by
  rw [get_collection_dir, walk_joinPath _ _ hc.no_slash, pushComponent_normal hc.normal]

theorem mem_chain_collection_dir {st : List (List Char)} :
    st ∈ chain cwd (s.get_collection_dir collection) ↔
      st ∈ chain cwd s.base_dir ∨ st = collection.data :: walk cwd s.base_dir := by
  rw [← walk_collection_dir s cwd hc]
  exact mem_chain_joinPath _ hc.no_slash

/-- The directories a call on a document of a plain collection may add: those on the way to the
base directory, the collection's directory and its blob directory. -/
theorem mem_dirKeys {k : String} :
    k ∈ s.dirKeys cwd collection ↔ (∃ st ∈ chain cwd s.base_dir, keyOf st = k) ∨
      k = keyOf (collection.data :: walk cwd s.base_dir) ∨
      k = keyOf ("blobs".data :: collection.data :: walk cwd s.base_dir) := by
  simp only [dirKeys, List.mem_map, mem_chain_joinPath _ blobs_normal.no_slash,
    mem_chain_collection_dir s cwd hc, walk_blob_dir, walk_collection_dir s cwd hc, or_and_right,
    exists_or, exists_eq_left, or_assoc, eq_comm (a := k)]

variable (hi : PlainName id)
include hi

theorem walk_doc_path_of_plain :
    walk cwd (s.get_doc_path collection id) =
      (id ++ ".json").data :: collection.data :: walk cwd s.base_dir := by
  rw [walk_doc_path s hi.no_slash, walk_collection_dir s cwd hc]

theorem walk_blob_path_of_plain :
    walk cwd (s.get_blob_path collection id) =
      id.data :: "blobs".data :: collection.data :: walk cwd s.base_dir := by
  rw [walk_blob_path s hi.no_slash, pushComponent_normal hi.normal, walk_collection_dir s cwd hc]

end Plain

section Stacks

variable {C X : String} {B : List (List Char)} (hC : PlainName C) (hB : ∀ c ∈ B, Normal c)
include hC hB

theorem normal_collection_stack : ∀ c ∈ C.data :: B, Normal c :=
  List.forall_mem_cons.2 ⟨hC.normal, hB⟩

variable (hX : PlainName X)
include hX

theorem normal_doc_stack : ∀ c ∈ (X ++ ".json").data :: C.data :: B, Normal c :=
  List.forall_mem_cons.2 ⟨json_name_normal hX.no_slash, normal_collection_stack hC hB⟩

theorem normal_blob_stack : ∀ c ∈ X.data :: "blobs".data :: C.data :: B, Normal c :=
  List.forall_mem_cons.2 ⟨hX.normal, List.forall_mem_cons.2 ⟨blobs_normal,
    normal_collection_stack hC hB⟩⟩

end Stacks

/-- A plain id with `.json` after it is never the name `blobs`. -/
theorem json_ne_blobs {i : String} (hi : PlainName i) : (i ++ ".json").data ≠ "blobs".data :=
  fun h => by
    have hl := congrArg List.length h
    have h5 : ".json".data.length = "blobs".data.length := rfl
    rw [String.data_append, List.length_append, h5] at hl
    exact hi.nonempty (List.length_eq_zero.1 (by omega))

/-- A key is the key of a stack of plain components only where the walk leads to that stack. -/
theorem walk_of_key_eq {d : Disk} {path : String} {st : List (List Char)}
    (hst : ∀ c ∈ st, Normal c) (h : d.key path = keyOf st) : walk d.env.cwd path = st :=
  keyOf_inj (fun x hx => (walk_normal d.env.cwd_normal path x hx).no_slash)
    (fun x hx => (hst x hx).no_slash) h

/-- Distinct documents with plain names have no file key in common. -/
theorem plain_files_disjoint (s : FileStorage) {cwd : List (List Char)}
    (hcwd : ∀ c ∈ cwd, Normal c) {C₁ i₁ C₂ i₂ : String} (hc₁ : PlainName C₁) (hi₁ : PlainName i₁)
    (hc₂ : PlainName C₂) (hi₂ : PlainName i₂) (hne : (C₁, i₁) ≠ (C₂, i₂)) :
    ∀ x ∈ s.docFiles cwd C₁ i₁, x ∉ s.docFiles cwd C₂ i₂ := by
  have inj : ∀ {p q : String}, keyOf (walk cwd p) = keyOf (walk cwd q) → walk cwd p = walk cwd q :=
    keyOf_inj (fun x hx => (walk_normal hcwd _ x hx).no_slash)
      (fun x hx => (walk_normal hcwd _ x hx).no_slash)
  have hid : C₁.data = C₂.data → i₁.data ≠ i₂.data := fun hC hi =>
    hne (by rw [String.ext hC, String.ext hi])
  simp only [docFiles, List.mem_cons, List.mem_singleton, List.not_mem_nil, or_false]
  rintro x (rfl | rfl) (h | h) <;> have h' := inj h
  · rw [walk_doc_path_of_plain s cwd hc₁ hi₁, walk_doc_path_of_plain s cwd hc₂ hi₂] at h'
    simp only [List.cons.injEq, String.data_append, List.append_cancel_right_eq, and_true] at h'
    exact hid h'.2 h'.1
  · rw [walk_doc_path_of_plain s cwd hc₁ hi₁, walk_blob_path_of_plain s cwd hc₂ hi₂] at h'
    simpa using congrArg List.length h'
  · rw [walk_blob_path_of_plain s cwd hc₁ hi₁, walk_doc_path_of_plain s cwd hc₂ hi₂] at h'
    simpa using congrArg List.length h'
  · rw [walk_blob_path_of_plain s cwd hc₁ hi₁, walk_blob_path_of_plain s cwd hc₂ hi₂] at h'
    simp only [List.cons.injEq, true_and, and_true] at h'
    exact hid h'.2 h'.1

/-! ## `find` on another document -/

section Find

variable (s : FileStorage) (P : Primitives) (now : Int) {C₁ i₁ C₂ i₂ : String}
  (hc₁ : PlainName C₁) (hi₁ : PlainName i₁) (hc₂ : PlainName C₂) (hi₂ : PlainName i₂)
  (hne : (C₁, i₁) ≠ (C₂, i₂)) {d d' : Disk}
  (hbase : ∀ st ∈ chain d.env.cwd s.base_dir, DirIn d.dirs (keyOf st))
include hc₁ hi₁ hc₂ hi₂ hne hbase

/-- Once the base directory is there, the document file of one plain document is a directory
already, or neither a file nor a new directory of a call on another. -/
theorem docKey_outside :
    DirIn d.dirs (d.key (s.get_doc_path C₂ i₂)) ∨
      d.key (s.get_doc_path C₂ i₂) ∉ s.docFiles d.env.cwd C₁ i₁ ∧
        d.key (s.get_doc_path C₂ i₂) ∉ s.dirKeys d.env.cwd C₁ := by
  by_cases hd : DirIn d.dirs (d.key (s.get_doc_path C₂ i₂))
  · exact .inl hd
  refine .inr ⟨plain_files_disjoint s d.env.cwd_normal hc₂ hi₂ hc₁ hi₁ (Ne.symm hne) _ (.head _),
    fun hk => ?_⟩
  have hw := walk_doc_path_of_plain s d.env.cwd hc₂ hi₂
  have hB := walk_normal d.env.cwd_normal s.base_dir
  rcases (mem_dirKeys s _ hc₁).1 hk with ⟨st, hst, he⟩ | he | he
  · exact hd (he ▸ hbase st hst)
  · have h' := walk_of_key_eq (normal_collection_stack hc₁ hB) he
    rw [hw] at h'
    simpa using congrArg List.length h'
  · have h' :=
      walk_of_key_eq (List.forall_mem_cons.2 ⟨blobs_normal, normal_collection_stack hc₁ hB⟩) he
    rw [hw] at h'
    exact json_ne_blobs hi₂ (List.cons.inj h').1

/-- `find` on a plain document is unchanged by a change that keeps to the files and the new
directories of a call on another plain document, once the base directory is there, unless the
lookup of its `blobRef` meets them. Where the collection's directory is missing, `find` returns
nothing on either disk. -/
theorem find_of_agreeOff
    (h : d.AgreeOff d' (s.docFiles d.env.cwd C₁ i₁) (s.dirKeys d.env.cwd C₁))
    (hblob : ∀ doc r, s.findStored P now C₂ i₂ d = .ok (some doc) → blobRefOf doc = some r →
      ∀ k ∈ d.looksAt r, DirIn d.dirs k ∨
        k ∉ s.docFiles d.env.cwd C₁ i₁ ∧ k ∉ s.dirKeys d.env.cwd C₁) :
    s.find P now C₂ i₂ d' = s.find P now C₂ i₂ d := by
  have hdoc := docKey_outside s hc₁ hi₁ hc₂ hi₂ hne hbase
  have hw := walk_doc_path_of_plain s d.env.cwd hc₂ hi₂
  have hpass : ∀ st ∈ passes d.env.cwd (s.get_doc_path C₂ i₂),
      st ∈ chain d.env.cwd s.base_dir ∨ st = C₂.data :: walk d.env.cwd s.base_dir :=
    fun st hst => (mem_chain_collection_dir s _ hc₂).1
      ((mem_passes_joinPath _ (json_name_normal hi₂.no_slash).no_slash).1 hst)
  by_cases hK : DirIn d.dirs (keyOf (C₂.data :: walk d.env.cwd s.base_dir))
  · refine s.find_congr P now (h.read_eq fun k hk => ?_) fun doc r hf hr =>
      (h.read_eq (hblob doc r hf hr)).1
    rcases List.mem_append.1 hk with hk | hk
    · obtain ⟨st, hst, rfl⟩ := List.mem_map.1 hk
      rcases hpass st hst with hst | rfl
      · exact .inl (hbase st hst)
      · exact .inl hK
    · rw [List.mem_singleton.1 hk]
      exact hdoc
  -- Without the collection's directory the lookup fails before it, and no file can lie in it.
  have hparent : parentKey (d.key (s.get_doc_path C₂ i₂)) =
      keyOf (C₂.data :: walk d.env.cwd s.base_dir) := by
    rw [Disk.key, hw, parentKey_keyOf_cons (json_name_normal hi₂.no_slash).no_slash]
  have hnd : ¬DirIn d.dirs (d.key (s.get_doc_path C₂ i₂)) := by
    rintro (he | hm)
    · rw [Disk.key, hw] at he
      exact keyOf_cons_ne_nil _ _ he
    · exact hK (hparent ▸ d.dir_parent _ hm)
  have hnf : d.fileAt (s.get_doc_path C₂ i₂) = none := Option.not_isSome_iff_eq_none.1 fun hs =>
    hK (hparent ▸ d.file_parent _ hs)
  obtain ⟨hkf, hkd⟩ := hdoc.resolve_left hnd
  have hl : d.lookupError (s.get_doc_path C₂ i₂) ≠ none := fun hl =>
    hK ((Disk.lookupError_eq_none.1 hl).2 _ ((mem_passes_joinPath _
      (json_name_normal hi₂.no_slash).no_slash).2 ((mem_chain_collection_dir s _ hc₂).2 (.inr rfl))))
  have hnf' : d'.fileAt (s.get_doc_path C₂ i₂) = none := by
    rw [Disk.fileAt, Disk.key_congr h.env, h.files_eq _ hkf]
    exact hnf
  have hnd' : ¬DirIn d'.dirs (d'.key (s.get_doc_path C₂ i₂)) := by
    rw [Disk.key_congr h.env]
    rintro (he | hm)
    · exact hnd (.inl he)
    · exact (h.dirs_new _ hm).elim (fun hm => hnd (.inr hm)) hkd
  rw [s.find_of_not_pathExists P now (by simp [Disk.pathExists, hnf', hnd']),
    s.find_of_not_pathExists P now (by simp [Disk.pathExists, hl])]

end Find

end FileStorage

/-! ## What a failed call leaves -/

namespace Disk

/-- What a call leaves behind: the environment as it was, the directories that were there and
perhaps more among `dirs`, and in each file it changed bytes that `ok` allows there. -/
structure Leaves (d d' : Disk) (dirs : List String) (ok : String → Bytes → Prop) : Prop where
  env : d'.env = d.env
  dirs_mono : ∀ k ∈ d.dirs, k ∈ d'.dirs
  dirs_new : ∀ k ∈ d'.dirs, k ∈ d.dirs ∨ k ∈ dirs
  files : ∀ k, Smap.get? d'.files k ≠ Smap.get? d.files k →
    ∃ b, Smap.get? d'.files k = some b ∧ ok k b

variable {d d₁ d₂ : Disk} {dirs : List String} {ok : String → Bytes → Prop} {path : String}
  {b : Bytes}

theorem Leaves.refl (d : Disk) (dirs : List String) (ok : String → Bytes → Prop) :
    d.Leaves d dirs ok :=
  ⟨rfl, fun _ h => h, fun _ h => .inl h, fun _ h => absurd rfl h⟩

theorem Leaves.trans (h₁ : d.Leaves d₁ dirs ok) (h₂ : d₁.Leaves d₂ dirs ok) : d.Leaves d₂ dirs ok :=
  ⟨h₂.env.trans h₁.env, fun k hk => h₂.dirs_mono k (h₁.dirs_mono k hk),
    fun k hk => (h₂.dirs_new k hk).elim (h₁.dirs_new k) .inr, fun k hk => by
      by_cases h : Smap.get? d₂.files k = Smap.get? d₁.files k
      · rw [h] at hk ⊢
        exact h₁.files k hk
      · exact h₂.files k h⟩

theorem AgreeOff.leaves (h : d.AgreeOff d₁ [] dirs) (ok : String → Bytes → Prop) :
    d.Leaves d₁ dirs ok :=
  ⟨h.env, h.dirs_mono, h.dirs_new, fun k hk => absurd (h.files_eq k (List.not_mem_nil _)) hk⟩

theorem Leaves.store {k : String} (hk : ok k b) : d.Leaves (d.store k b) dirs ok := by
  refine ⟨store_env, fun x hx => by rwa [store_dirs], fun x hx => .inl (by rwa [store_dirs] at hx),
    fun x hx => ?_⟩
  by_cases h : ¬DirIn d.dirs k ∧ DirIn d.dirs (parentKey k)
  · rw [get?_store h.1 h.2] at hx ⊢
    split_ifs at hx ⊢ with hkx
    · subst hkx
      exact ⟨b, rfl, hk⟩
    · exact absurd rfl hx
  · simp only [Disk.store, dif_neg h] at hx
    exact absurd rfl hx

theorem createDirAll_leaves (hp : ∀ k ∈ (chain d.env.cwd path).map keyOf, k ∈ dirs)
    (ok : String → Bytes → Prop) : d.Leaves (finalState (createDirAll path d)) dirs ok :=
  ((createDirAll_frame path d).mono (fun _ h => h) hp).leaves ok

/-- A failed `fs::write` leaves the file as it was or cut short. -/
theorem write_leaves_of_error {e : String} (h : write path b d = .error e d₁)
    (hok : ∀ n < b.length, ok (d.key path) (b.take n)) : d.Leaves d₁ dirs ok := by
  rcases write_of_error h with rfl | ⟨n, hn, -, -, rfl⟩
  · exact .refl _ _ _
  · exact .store (hok n hn)

theorem write_leaves_of_ok {u : Unit} (h : write path b d = .ok u d₁) (hok : ok (d.key path) b) :
    d.Leaves d₁ dirs ok := by
  obtain ⟨-, -, -, -, -, rfl⟩ := write_of_ok h
  exact .store hok

end Disk

namespace FileStorage

section Leftovers

variable (s : FileStorage) (P : Primitives) (now : Int) (draw : String → Draw)

/-- The bytes a failed `insert` of `doc` into `collection` may leave in the file with the key `k`:
a prefix of the bytes of the document's `MEMORY` blob in its blob file, or a strict prefix of the
bytes of the document as it was to be stored in its document file. -/
def InsertLeftover (collection : String) (doc : Doc) (cwd : List (List Char)) (k : String)
    (b : Bytes) : Prop :=
  ∃ id, docId doc = some id ∧
    ((k = keyOf (walk cwd (s.get_blob_path collection id)) ∧ ∃ payload blob n,
        memoryPayload doc = some payload ∧ Smap.get? payload "blob" = some blob ∧
        b = (P.toVec blob).take n) ∨
      (k = keyOf (walk cwd (s.get_doc_path collection id)) ∧ ∃ doc' final n,
        (doc' = doc ∨ ∃ payload, memoryPayload doc = some payload ∧
          doc' = withBlobRef doc payload (s.get_blob_path collection id)) ∧
        s.finalDoc P now draw collection doc' = .ok final ∧
        n < (P.toVecPretty (.object final)).length ∧ b = (P.toVecPretty (.object final)).take n))

variable {s P now draw} {collection id : String} {doc : Doc} {d d₀ d' : Disk}

/-- The `MEMORY` step of `insert`, successful or not, leaves the directories on the way to the
blob directory and the blob file holding a prefix of the blob's bytes. -/
theorem externalizeBlob_leaves (hid : docId doc = some id) {payload : List (String × Value)}
    {blob : Value} (hpl : memoryPayload doc = some payload) (hb : Smap.get? payload "blob" = some blob)
    (hs : s.save_blob P collection id blob d₀ = .ok (s.get_blob_path collection id) d' ∨
      ∃ e, s.save_blob P collection id blob d₀ = .error e d')
    (hd : d₀.env = d.env) :
    d₀.Leaves d' (s.dirKeys d.env.cwd collection)
      (s.InsertLeftover P now draw collection doc d.env.cwd) := by
  have hok : ∀ d₂ : Disk, d₂.env = d.env → ∀ n,
      s.InsertLeftover P now draw collection doc d.env.cwd (d₂.key (s.get_blob_path collection id))
        ((P.toVec blob).take n) := fun d₂ he n =>
    ⟨id, hid, .inl ⟨by rw [Disk.key, he], payload, blob, n, hpl, hb, rfl⟩⟩
  have hdir : ∀ r, Disk.createDirAll (joinPath (s.get_collection_dir collection) "blobs") d₀ = r →
      d₀.Leaves (finalState r) (s.dirKeys d.env.cwd collection)
        (s.InsertLeftover P now draw collection doc d.env.cwd) := fun r hr =>
    hr ▸ Disk.createDirAll_leaves (by rw [hd]; exact fun _ h => h) _
  rcases hs with hs | ⟨e, hs⟩
  · obtain ⟨d₂, h₂, hw, -⟩ := save_blob_of_ok hs
    have l₂ := hdir _ h₂
    exact l₂.trans (Disk.write_leaves_of_ok hw (by
      simpa only [List.take_length] using hok d₂ (l₂.env.trans hd) (P.toVec blob).length))
  · rcases save_blob_of_error hs with h₂ | ⟨d₂, h₂, hw⟩
    · exact hdir _ h₂
    · have l₂ := hdir _ h₂
      exact l₂.trans (Disk.write_leaves_of_error hw fun n _ => hok d₂ (l₂.env.trans hd) n)

/-- A failed `insert` leaves the directories on the way to the blob directory, the blob file of a
`MEMORY` blob holding a prefix of the blob's bytes, and the document file holding a strict prefix
of the document's bytes; no other file changes. -/
theorem insert_leaves_of_error {e : String}
    (h : s.insert P now draw collection doc d = .error e d') :
    d.Leaves d' (s.dirKeys d.env.cwd collection)
      (s.InsertLeftover P now draw collection doc d.env.cwd) := by
  have hdir : ∀ r, Disk.createDirAll (s.get_collection_dir collection) d = r →
      d.Leaves (finalState r) (s.dirKeys d.env.cwd collection)
        (s.InsertLeftover P now draw collection doc d.env.cwd) := fun r hr =>
    hr ▸ Disk.createDirAll_leaves (s.chain_collection_dir_sub _) _
  rcases insert_of_error h with h₀ | ⟨d₀, h₀, ⟨-, rfl⟩ | ⟨id, hid, h₁ | ⟨doc', d₁, h₁, h₂⟩⟩⟩
  · exact hdir _ h₀
  · exact hdir _ h₀
  · have l₀ := hdir _ h₀
    obtain ⟨payload, blob, hpl, hb, hs⟩ := externalizeBlob_of_error h₁
    exact l₀.trans (externalizeBlob_leaves hid hpl hb (.inr ⟨e, hs⟩) l₀.env)
  · have l₀ := hdir _ h₀
    rw [finalState_ok] at l₀
    have l₁ : d₀.Leaves d₁ (s.dirKeys d.env.cwd collection)
        (s.InsertLeftover P now draw collection doc d.env.cwd) := by
      rcases externalizeBlob_of_ok h₁ with ⟨-, rfl⟩ | ⟨payload, blob, hpl, hb, -, hs⟩
      · exact .refl _ _ _
      · exact externalizeBlob_leaves hid hpl hb (.inl hs) l₀.env
    have hdoc' : doc' = doc ∨ ∃ payload, memoryPayload doc = some payload ∧
        doc' = withBlobRef doc payload (s.get_blob_path collection id) := by
      rcases externalizeBlob_of_ok h₁ with ⟨rfl, -⟩ | ⟨payload, -, hpl, -, rfl, -⟩
      · exact .inl rfl
      · exact .inr ⟨payload, hpl, rfl⟩
    refine l₀.trans (l₁.trans ?_)
    rcases h₂ with ⟨-, rfl⟩ | ⟨final, hf, hw⟩
    · exact .refl _ _ _
    · exact Disk.write_leaves_of_error hw fun n hn => ⟨id, hid, .inr ⟨by
        rw [Disk.key, l₁.env, l₀.env], doc', final, n, hdoc', hf, hn, rfl⟩⟩

end Leftovers

/-- With names that hold a `/`, inserting the document `c` of collection `a/b` changes what
`find` returns for the document `b/c` of collection `a`: both live in `/data/a/b/c.json`. -/
theorem doc_path_collision :
    plainStore.find tokenPrimitives 0 "a" "b/c" Disk.empty =
        .ok none ∧
    ∃ d', plainStore.insert tokenPrimitives 0
        (fun _ => zeroDraw) "a/b" [("id", .string "c")] Disk.empty = .ok () d' ∧
      plainStore.find tokenPrimitives 0 "a" "b/c" d' =
        .ok (some [("id", .string "c")]) :=
  ⟨rfl, _, rfl, rfl⟩

/-- For plain names, `insert`, `update` (when the patched document keeps its id) and `delete` on
one document write only that document's two files, which no other document has, and add only
directories on the way to its blob directory, so that, once the base directory is there, `find`
on any other document is unchanged unless the lookup of its `blobRef` meets them. -/
theorem writes_touch_own_files (P : Primitives) (now : Int) (draw : String → Draw)
    (s : FileStorage) (C₁ i₁ C₂ i₂ : String) (hc₁ : PlainName C₁) (hi₁ : PlainName i₁)
    (hc₂ : PlainName C₂) (hi₂ : PlainName i₂) (hne : (C₁, i₁) ≠ (C₂, i₂)) :
    (∀ (doc : Doc) (d : Disk), docId doc = some i₁ →
      d.AgreeOff (finalState (s.insert P now draw C₁ doc d)) (s.docFiles d.env.cwd C₁ i₁)
        (s.dirKeys d.env.cwd C₁)) ∧
    (∀ (upd : Doc) (d : Disk), (∀ doc, s.find P now C₁ i₁ d = .ok (some doc) →
        docId (Smap.insertAll doc upd) = some i₁) →
      d.AgreeOff (finalState (s.update P now draw C₁ i₁ upd d)) (s.docFiles d.env.cwd C₁ i₁)
        (s.dirKeys d.env.cwd C₁)) ∧
    (∀ d : Disk, d.AgreeOff (finalState (s.delete C₁ i₁ d)) (s.docFiles d.env.cwd C₁ i₁) []) ∧
    (∀ d : Disk, ∀ x ∈ s.docFiles d.env.cwd C₁ i₁, x ∉ s.docFiles d.env.cwd C₂ i₂) ∧
    (∀ d d' : Disk, (∀ st ∈ chain d.env.cwd s.base_dir, DirIn d.dirs (keyOf st)) →
      d.AgreeOff d' (s.docFiles d.env.cwd C₁ i₁) (s.dirKeys d.env.cwd C₁) →
      (∀ doc r, s.findStored P now C₂ i₂ d = .ok (some doc) → blobRefOf doc = some r →
        ∀ k ∈ d.looksAt r, DirIn d.dirs k ∨
          k ∉ s.docFiles d.env.cwd C₁ i₁ ∧ k ∉ s.dirKeys d.env.cwd C₁) →
      s.find P now C₂ i₂ d' = s.find P now C₂ i₂ d) :=
  ⟨fun _ d h => s.insert_frame P now draw _ h d rfl,
    fun _ d h => s.update_frame P now draw _ d rfl h, fun d => s.delete_frame _ C₁ i₁ d rfl,
    fun d => plain_files_disjoint s d.env.cwd_normal hc₁ hi₁ hc₂ hi₂ hne,
    fun _ _ hb h hr => find_of_agreeOff s P now hc₁ hi₁ hc₂ hi₂ hne hb h hr⟩

theorem writes_touch_own_files_two_ids :
    PlainName "notes" ∧ PlainName "x" ∧ PlainName "y" ∧
      ∀ p ∈ plainStore.docFiles Disk.empty.env.cwd "notes" "x",
        p ∉ plainStore.docFiles Disk.empty.env.cwd "notes" "y" :=
  have h : PlainName "notes" ∧ PlainName "x" ∧ PlainName "y" :=
    ⟨⟨by decide, by decide, by decide, by decide⟩, ⟨by decide, by decide, by decide, by decide⟩,
      ⟨by decide, by decide, by decide, by decide⟩⟩
  ⟨h.1, h.2.1, h.2.2, (writes_touch_own_files tokenPrimitives 0 (fun _ => zeroDraw) plainStore
    "notes" "x" "notes" "y" h.1 h.2.1 h.1 h.2.2 (by decide)).2.2.2.1 Disk.empty⟩

end FileStorage

end Knirvbase
