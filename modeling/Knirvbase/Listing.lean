import Knirvbase.Paths

/-!
# Listing a collection

`find_all` (`storage.rs`) returns nothing for a collection whose directory does not exist, and
otherwise lists the directory and reads with `find` every entry whose name has the extension
`json`, under the name's stem; the `?` after `read_dir` and after `find` ends the loop at the
first error. The loop is `mapM` of what each entry contributes (`find_all_eq`), so it fails
exactly when the `find` of one of its entries fails.

A document lives in `<id>.json`, and `find_all` lists it only where the file name cuts back to the
id: `rsplit_file_at_dot` leaves `.json`, the file of the id `""`, without an extension. Over the
stores reached from an empty disk, or from the one `FileStorage::new` leaves on it, through
`insert`, `update` and `delete` that write plain names (`Reachable`), every file is a document file
or a blob file of plain names, and every directory lies on the way to the base directory or to the
blob directory of a plain collection (`Reachable.plainStore`). Under a base directory without a
`..` component the entries of a collection's directory are then its documents' files and
`blobs`, and `find_all` returns one document per stored id, or fails with the error of one of
them (`find_all_lists_stored`).
-/

set_option autoImplicit false

namespace Knirvbase

/-! ## File names -/

section FileNames

variable {X : String} (hX : X.data ≠ [])
include hX

theorem rsplit_file_at_dot_json : rsplit_file_at_dot (X ++ ".json") = (some X, some "json") := by
  have hdata : (X ++ ".json").data = X.data ++ ['.', 'j', 's', 'o', 'n'] := rfl
  have hne : X ++ ".json" ≠ ".." := fun h => by
    have := congrArg (fun s => s.data.length) h
    simp only [hdata, List.length_append] at this
    exact absurd this (by simp)
  rw [rsplit_file_at_dot, if_neg hne, hdata]
  simp [hX]

theorem extension_json : extension (X ++ ".json") = some "json" := by
  rw [extension, rsplit_file_at_dot_json hX]
  rfl

theorem file_stem_json : file_stem (X ++ ".json") = some X := by
  rw [file_stem, rsplit_file_at_dot_json hX]
  rfl

/-- The id `find_all` reads for an entry of a directory: the stem of a name with the extension
`json`. -/
def listedId (name : String) : Option String :=
  if extension name = some "json" then file_stem name else none

theorem listedId_json : listedId (X ++ ".json") = some X := by
  rw [listedId, if_pos (extension_json hX), file_stem_json hX]

end FileNames

theorem listedId_blobs : listedId "blobs" = none := rfl

/-! ## Walks without `..` -/

theorem foldl_pushComponent_of_no_dotdot :
    ∀ {cs : List (List Char)} (dir : List (List Char)), (∀ c ∈ cs, c ≠ ['.', '.']) →
      ∃ ext, cs.foldl pushComponent dir = ext ++ dir
  | [], _, _ => ⟨[], rfl⟩
  | c :: cs, dir, h => by
    obtain ⟨ext, he⟩ :=
      foldl_pushComponent_of_no_dotdot (pushComponent dir c) fun x hx => h x (.tail _ hx)
    rw [List.foldl_cons, he]
    unfold pushComponent
    split_ifs with h₁ h₂
    · exact ⟨ext, rfl⟩
    · exact absurd h₂ (h c (.head _))
    · exact ⟨ext ++ [c], by simp⟩

theorem mem_visited_of_no_dotdot :
    ∀ {cs : List (List Char)} {dir st : List (List Char)}, (∀ c ∈ cs, c ≠ ['.', '.']) →
      st ∈ visited dir cs → ∃ n, st = (cs.foldl pushComponent dir).drop n
  | [], _, _, _, hst => ⟨0, List.mem_singleton.1 hst⟩
  | c :: cs, dir, st, h, hst => by
    rcases List.mem_cons.1 hst with rfl | hst
    · obtain ⟨ext, he⟩ := foldl_pushComponent_of_no_dotdot st h
      exact ⟨ext.length, by rw [he, List.drop_left]⟩
    · have h' : ∀ x ∈ cs, x ≠ ['.', '.'] := fun x hx => h x (.tail _ hx)
      have := mem_visited_of_no_dotdot h' hst
      exact this

/-- Without `..`, every directory the walk along a path stands in lies on the way to where it
ends. -/
theorem mem_chain_of_no_dotdot {cwd st : List (List Char)} {path : String}
    (h : ∀ c ∈ splitSlash path.data, c ≠ ['.', '.']) (hst : st ∈ chain cwd path) :
    ∃ n, st = (walk cwd path).drop n :=
  mem_visited_of_no_dotdot h hst

theorem keyOf_inj_of_normal {a b : List (List Char)} (ha : ∀ x ∈ a, Normal x)
    (hb : ∀ x ∈ b, Normal x) (h : keyOf a = keyOf b) : a = b :=
  keyOf_inj (fun x hx => (ha x hx).no_slash) (fun x hx => (hb x hx).no_slash) h

theorem joinPath_data_ne_nil (base : String) {c : String} (hc : c.data ≠ []) :
    (joinPath base c).data ≠ [] := by
  unfold joinPath
  split
  · exact hc
  · simp [hc]

namespace Disk

variable {d d₁ d₂ d' : Disk} {path : String}

/-- Every directory that holds a directory is a directory. -/
theorem dirIn_drop : ∀ {st : List (List Char)}, (∀ c ∈ st, '/' ∉ c) →
    DirIn d.dirs (keyOf st) → ∀ n, DirIn d.dirs (keyOf (st.drop n))
  | [], _, _, n => by rw [List.drop_nil]; exact .inl rfl
  | _ :: _, _, h, 0 => h
  | c :: st, hs, h, n + 1 => by
    have hp : DirIn d.dirs (keyOf st) := by
      rcases h with h | h
      · exact absurd h (keyOf_cons_ne_nil c st)
      · have := d.dir_parent _ h
        rwa [parentKey_keyOf_cons (hs c (.head _))] at this
    exact dirIn_drop (fun x hx => hs x (.tail _ hx)) hp n

/-- `d'` has the directories and the environment of `d`, and no file that `d` lacks. -/
structure Shrinks (d d' : Disk) : Prop where
  env : d'.env = d.env
  dirs : d'.dirs = d.dirs
  files : ∀ k, (Smap.get? d'.files k).isSome → (Smap.get? d.files k).isSome

theorem Shrinks.refl (d : Disk) : d.Shrinks d := ⟨rfl, rfl, fun _ h => h⟩

theorem Shrinks.trans (h₁ : d.Shrinks d₁) (h₂ : d₁.Shrinks d₂) : d.Shrinks d₂ :=
  ⟨h₂.env.trans h₁.env, h₂.dirs.trans h₁.dirs, fun k hk => h₁.files k (h₂.files k hk)⟩

theorem Shrinks.erase (d : Disk) (k : String) : d.Shrinks (d.erase k) :=
  ⟨rfl, rfl, fun x hx => by
    rw [get?_erase] at hx
    split_ifs at hx
    · cases hx
    · exact hx⟩

theorem removeIfExists_shrinks (path : String) (d : Disk) :
    d.Shrinks (finalState (removeIfExists path d)) := by
  cases h : removeIfExists path d with
  | ok u d' =>
    rcases removeIfExists_of_ok h with rfl | ⟨-, -, rfl⟩
    · exact .refl _
    · exact .erase _ _
  | error e d' =>
    rw [removeIfExists_of_error h]
    exact .refl _

/-- Where nothing exists, nothing exists after a call that only removes files. -/
theorem Shrinks.pathExists_eq_false (h : d.Shrinks d') (hp : d.pathExists path = false) :
    d'.pathExists path = false := by
  have hl : d'.lookupError path = none ↔ d.lookupError path = none := by
    rw [lookupError_eq_none, lookupError_eq_none, h.env, h.dirs]
  have hf : (d'.fileAt path).isSome → (d.fileAt path).isSome := by
    rw [fileAt, fileAt, key_congr h.env]
    exact h.files _
  rw [pathExists] at hp
  rw [pathExists, key_congr h.env, h.dirs]
  simp only [Bool.and_eq_false_iff, decide_eq_false_iff_not, Bool.or_eq_false_iff] at hp ⊢
  exact hp.imp (mt hl.1) fun ⟨hf₀, hd⟩ =>
    ⟨Bool.eq_false_iff.2 fun h' => Bool.eq_false_iff.1 hf₀ (hf h'), hd⟩

/-- After `remove_if_exists`, nothing exists at a path the process may change that is no
directory. -/
theorem pathExists_removeIfExists (hw : d.key path ∉ d.env.readOnly)
    (hd : ¬DirIn d.dirs (d.key path)) :
    (finalState (removeIfExists path d)).pathExists path = false := by
  unfold removeIfExists
  cases hp : d.pathExists path
  · rw [if_neg (by simp)]
    exact hp
  · have ⟨hl, hf⟩ : d.lookupError path = none ∧ (d.fileAt path).isSome := by
      simpa [pathExists, hd] using hp
    have hr : removeFile path d = .ok () (d.erase (d.key path)) := by
      simp [removeFile, hl, hw, hd, Option.isNone_iff_eq_none, ← Option.isSome_iff_ne_none, hf]
    rw [if_pos rfl, hr]
    simp [pathExists, fileAt, key_congr erase_env, hd]

end Disk

namespace FileStorage

theorem delete_shrinks (s : FileStorage) (collection id : String) (d : Disk) :
    d.Shrinks (finalState (s.delete collection id d)) := by
  have h₁ := Disk.removeIfExists_shrinks (s.get_doc_path collection id) d
  unfold delete
  rw [finalState_bind]
  cases h : Disk.removeIfExists (s.get_doc_path collection id) d with
  | ok u d₁ =>
    rw [h] at h₁
    exact h₁.trans (Disk.removeIfExists_shrinks _ d₁)
  | error e d₁ => rwa [h] at h₁

/-- After `delete`, `find` finds nothing for the id, whether the blob file was removed or not, when
the document's file is one the process may change and no directory. -/
theorem find_delete (s : FileStorage) (P : Primitives) (now : Int) {collection id : String}
    {d : Disk} (hw : d.key (s.get_doc_path collection id) ∉ d.env.readOnly)
    (hd : ¬DirIn d.dirs (d.key (s.get_doc_path collection id))) :
    s.find P now collection id (finalState (s.delete collection id d)) = .ok none := by
  refine find_of_not_pathExists s P now ?_
  have h₁ := Disk.pathExists_removeIfExists hw hd
  unfold delete
  rw [finalState_bind]
  cases h : Disk.removeIfExists (s.get_doc_path collection id) d with
  | ok u d₁ =>
    rw [h] at h₁
    exact (Disk.removeIfExists_shrinks _ d₁).pathExists_eq_false h₁
  | error e d₁ => rwa [h] at h₁

/-! ## Stores whose files all have plain names -/

variable (s : FileStorage)

/-- Every file of the disk is the document file or the blob file of plain names, and every
directory lies on the way to the base directory or to the blob directory of a plain
collection. -/
structure PlainStore (d : Disk) : Prop where
  files : ∀ k, (Smap.get? d.files k).isSome →
    ∃ C X, PlainName C ∧ PlainName X ∧ k ∈ s.docFiles d.env.cwd C X
  dirs : ∀ k ∈ d.dirs, k ∈ (chain d.env.cwd s.base_dir).map keyOf ∨
    ∃ C, PlainName C ∧ k ∈ s.dirKeys d.env.cwd C

/-- The disk `FileStorage::new` leaves on an empty disk: the directories on the way to the base
directory. -/
def newDisk : Disk := finalState (Disk.createDirAll s.base_dir Disk.empty)

theorem plainStore_newDisk : s.PlainStore s.newDisk := by
  have h := Disk.createDirAll_frame s.base_dir Disk.empty
  refine ⟨fun k hk => ?_, fun k hk => ?_⟩
  · rw [newDisk, h.files_eq k (List.not_mem_nil _)] at hk
    cases hk
  · rw [newDisk, h.env]
    exact .inl ((h.dirs_new k hk).resolve_left (List.not_mem_nil _))

variable {s} {d d' : Disk}

theorem PlainStore.of_agreeOff (h : s.PlainStore d) {C : String} (hC : PlainName C)
    {files : List String} (hf : ∀ k ∈ files, ∃ X, PlainName X ∧ k ∈ s.docFiles d.env.cwd C X)
    (h' : d.AgreeOff d' files (s.dirKeys d.env.cwd C)) : s.PlainStore d' := by
  refine ⟨fun k hk => ?_, fun k hk => ?_⟩ <;> rw [h'.env]
  · by_cases hm : k ∈ files
    · obtain ⟨X, hX, hkX⟩ := hf k hm
      exact ⟨C, X, hC, hX, hkX⟩
    · rw [h'.files_eq k hm] at hk
      exact h.files k hk
  · exact (h'.dirs_new k hk).elim (h.dirs k) fun hk => .inr ⟨C, hC, hk⟩

theorem PlainStore.of_shrinks (h : s.PlainStore d) (h' : d.Shrinks d') : s.PlainStore d' :=
  ⟨fun k hk => by rw [h'.env]; exact h.files k (h'.files k hk),
    fun k hk => by rw [h'.env]; exact h.dirs k (h'.dirs ▸ hk)⟩

variable (P : Primitives) (now : Int) (draw : String → Draw)

theorem PlainStore.insert (h : s.PlainStore d) {C : String} {doc : Doc} (hC : PlainName C)
    (hid : ∀ X, docId doc = some X → PlainName X) :
    s.PlainStore (finalState (s.insert P now draw C doc d)) := by
  cases hX : docId doc with
  | none =>
    exact h.of_agreeOff hC (fun _ hk => absurd hk (List.not_mem_nil _))
      (s.insert_frame_of_docId_none P now draw _ hX d rfl)
  | some X =>
    exact h.of_agreeOff hC (fun k hk => ⟨X, hid X hX, hk⟩) (s.insert_frame P now draw _ hX d rfl)

variable (s)

/-- The stores reached from an empty disk, or from the disk `FileStorage::new` leaves on it,
through `insert` and `update` calls that write documents with plain collection names and ids, and
`delete` calls on any names; each call at its own time and with its own randomness. -/
inductive Reachable : Disk → Prop
  | empty : Reachable Disk.empty
  | new : Reachable s.newDisk
  | insert {d : Disk} (now : Int) (draw : String → Draw) (collection : String) (doc : Doc) :
      Reachable d → PlainName collection → (∀ id, docId doc = some id → PlainName id) →
      Reachable (finalState (s.insert P now draw collection doc d))
  | update {d : Disk} (now : Int) (draw : String → Draw) (collection id : String) (upd : Doc) :
      Reachable d → PlainName collection →
      (∀ doc id', s.find P now collection id d = .ok (some doc) →
        docId (Smap.insertAll doc upd) = some id' → PlainName id') →
      Reachable (finalState (s.update P now draw collection id upd d))
  | delete {d : Disk} (collection id : String) : Reachable d →
      Reachable (finalState (s.delete collection id d))

variable {s P}

/-- Every file of a reachable store is a document file or a blob file of plain names, and every
directory lies on the way to a blob directory of a plain collection. -/
theorem Reachable.plainStore (h : s.Reachable P d) : s.PlainStore d := by
  induction h with
  | empty => exact ⟨fun _ h => (by cases h), nofun⟩
  | new => exact plainStore_newDisk s
  | insert now draw _ _ _ hC hid ih => exact ih.insert P now draw hC hid
  | update now draw C X upd _ hC hid ih =>
    rw [update_apply]
    split
    · exact ih.insert P now draw hC (hid _ · ‹_›)
    all_goals exact ih
  | delete C X _ ih => exact ih.of_shrinks (s.delete_shrinks C X _)

/-! ## The entries of a collection's directory -/

section Entries

variable (hs : s.PlainStore d)
include hs

theorem PlainStore.file_cases {k : String} (hk : (Smap.get? d.files k).isSome) :
    ∃ C X, PlainName C ∧ PlainName X ∧
      (k = keyOf ((X ++ ".json").data :: C.data :: walk d.env.cwd s.base_dir) ∨
        k = keyOf (X.data :: "blobs".data :: C.data :: walk d.env.cwd s.base_dir)) := by
  obtain ⟨C, X, hC, hX, hm⟩ := hs.files k hk
  simp only [docFiles, List.mem_cons, List.mem_singleton, List.not_mem_nil, or_false,
    walk_doc_path_of_plain s _ hC hX, walk_blob_path_of_plain s _ hC hX] at hm
  exact ⟨C, X, hC, hX, hm⟩

variable (hbase : ∀ c ∈ splitSlash s.base_dir.data, c ≠ ['.', '.'])
include hbase

theorem PlainStore.dir_cases {k : String} (hk : k ∈ d.dirs) :
    (∃ n, k = keyOf ((walk d.env.cwd s.base_dir).drop n)) ∨
      ∃ C, PlainName C ∧ (k = keyOf (C.data :: walk d.env.cwd s.base_dir) ∨
        k = keyOf ("blobs".data :: C.data :: walk d.env.cwd s.base_dir)) := by
  rcases hs.dirs k hk with hm | ⟨C, hC, hm⟩
  · obtain ⟨st, hst, rfl⟩ := List.mem_map.1 hm
    obtain ⟨n, rfl⟩ := mem_chain_of_no_dotdot hbase hst
    exact .inl ⟨n, rfl⟩
  rcases (mem_dirKeys s _ hC).1 hm with ⟨st, hst, rfl⟩ | hm
  · obtain ⟨n, rfl⟩ := mem_chain_of_no_dotdot hbase hst
    exact .inl ⟨n, rfl⟩
  · exact .inr ⟨C, hC, hm⟩

variable {C : String} (hC : PlainName C)
include hC

/-- Under a base directory without `..`, an entry of a plain collection's directory is its blob
directory or the file `<id>.json` of a plain id. -/
theorem PlainStore.mem_entries {name : String}
    (hn : name ∈ (d.files.map Prod.fst ++ d.dirs).filterMap
      (Disk.entryName (keyOf (C.data :: walk d.env.cwd s.base_dir)))) :
    name = "blobs" ∨ ∃ X, PlainName X ∧
      (Smap.get? d.files (keyOf ((X ++ ".json").data :: C.data :: walk d.env.cwd s.base_dir))).isSome ∧
      name = X ++ ".json" := by
  have hB := walk_normal d.env.cwd_normal s.base_dir
  have hCB := normal_collection_stack hC hB
  obtain ⟨k, hk, he⟩ := List.mem_filterMap.1 hn
  unfold Disk.entryName at he
  split_ifs at he with hkp
  cases he
  obtain ⟨hk0, hpk⟩ := hkp
  rcases List.mem_append.1 hk with hk | hk
  · obtain ⟨⟨k, b⟩, hkb, rfl⟩ := List.mem_map.1 hk
    have hsome : (Smap.get? d.files k).isSome := by
      rw [Smap.get?_of_mem d.sorted.nodup_keys hkb]
      rfl
    obtain ⟨C', X, hC', hX, rfl | rfl⟩ := hs.file_cases hsome
    · rw [parentKey_keyOf_cons (json_name_normal hX.no_slash).no_slash] at hpk
      obtain rfl := String.ext (List.cons.inj
        (keyOf_inj_of_normal (normal_collection_stack hC' hB) hCB hpk)).1
      exact .inr ⟨X, hX, hsome, by rw [lastName_keyOf_cons (json_name_normal hX.no_slash).no_slash]⟩
    · rw [parentKey_keyOf_cons hX.no_slash] at hpk
      have := keyOf_inj_of_normal (List.forall_mem_cons.1 (normal_blob_stack hC' hB hX)).2 hCB hpk
      simpa using congrArg List.length this
  · rcases hs.dir_cases hbase hk with ⟨n, rfl⟩ | ⟨C', hC', rfl | rfl⟩
    · cases hst : (walk d.env.cwd s.base_dir).drop n with
      | nil => rw [hst] at hk0; exact absurd rfl hk0
      | cons c st =>
        have hcst : ∀ x ∈ c :: st, Normal x := fun x hx =>
          hB x (List.mem_of_mem_drop (hst ▸ hx))
        rw [hst, parentKey_keyOf_cons (hcst c (.head _)).no_slash] at hpk
        have hl := congrArg List.length hst
        rw [List.length_drop, List.length_cons,
          keyOf_inj_of_normal (fun x hx => hcst x (.tail _ hx)) hCB hpk] at hl
        simp at hl
        omega
    · rw [parentKey_keyOf_cons hC'.no_slash] at hpk
      simpa using congrArg List.length (keyOf_inj_of_normal hB hCB hpk)
    · exact .inl (by rw [lastName_keyOf_cons blobs_normal.no_slash])

omit hs hbase hC in
/-- The file of a stored document is an entry of its collection's directory. -/
theorem doc_mem_entries {X : String} (hX : PlainName X)
    (hf : (Smap.get? d.files (keyOf ((X ++ ".json").data :: C.data ::
      walk d.env.cwd s.base_dir))).isSome) :
    X ++ ".json" ∈ (d.files.map Prod.fst ++ d.dirs).filterMap
      (Disk.entryName (keyOf (C.data :: walk d.env.cwd s.base_dir))) := by
  obtain ⟨v, hv⟩ := Option.isSome_iff_exists.1 hf
  refine List.mem_filterMap.2 ⟨_, List.mem_append_left _ (List.mem_map_of_mem _
    (Smap.mem_of_get? hv)), ?_⟩
  rw [Disk.entryName, if_pos ⟨keyOf_cons_ne_nil _ _,
    parentKey_keyOf_cons (json_name_normal hX.no_slash).no_slash _⟩,
    lastName_keyOf_cons (json_name_normal hX.no_slash).no_slash]

omit hs in
/-- Where a plain collection's directory is there, so is every directory on the way to it. -/
theorem dirIn_of_mem_chain (hK : DirIn d.dirs (keyOf (C.data :: walk d.env.cwd s.base_dir)))
    {st : List (List Char)} (hst : st ∈ chain d.env.cwd (s.get_collection_dir C)) :
    DirIn d.dirs (keyOf st) := by
  have hdrop := Disk.dirIn_drop (fun x hx => (normal_collection_stack hC
    (walk_normal d.env.cwd_normal s.base_dir) x hx).no_slash) hK
  rcases (mem_chain_collection_dir s _ hC).1 hst with hst | rfl
  · obtain ⟨n, rfl⟩ := mem_chain_of_no_dotdot hbase hst
    exact hdrop (n + 1)
  · exact hK

omit hs in
theorem lookupError_collection_dir
    (hK : DirIn d.dirs (keyOf (C.data :: walk d.env.cwd s.base_dir))) :
    d.lookupError (s.get_collection_dir C) = none :=
  Disk.lookupError_eq_none.2 ⟨joinPath_data_ne_nil _ hC.nonempty, fun _ hst =>
    dirIn_of_mem_chain hbase hC hK ((chain_eq _ _).symm ▸ List.mem_append_left _ hst)⟩

theorem pathExists_collection_dir :
    d.pathExists (s.get_collection_dir C) =
      decide (DirIn d.dirs (keyOf (C.data :: walk d.env.cwd s.base_dir))) := by
  have hB := walk_normal d.env.cwd_normal s.base_dir
  have hkey : d.key (s.get_collection_dir C) = keyOf (C.data :: walk d.env.cwd s.base_dir) := by
    rw [Disk.key, walk_collection_dir s _ hC]
  have hnf : d.fileAt (s.get_collection_dir C) = none := by
    rw [Disk.fileAt, hkey]
    refine Option.not_isSome_iff_eq_none.1 fun hf => ?_
    obtain ⟨C', X, hC', hX, he | he⟩ := hs.file_cases hf
    · simpa using congrArg List.length
        (keyOf_inj_of_normal (normal_collection_stack hC hB) (normal_doc_stack hC' hB hX) he)
    · simpa using congrArg List.length
        (keyOf_inj_of_normal (normal_collection_stack hC hB) (normal_blob_stack hC' hB hX) he)
  by_cases hK : DirIn d.dirs (keyOf (C.data :: walk d.env.cwd s.base_dir))
  · simp [Disk.pathExists, lookupError_collection_dir hbase hC hK, hkey, hK]
  · simp [Disk.pathExists, hnf, hkey, hK]

omit hs in
theorem readDir_collection_dir (hK : DirIn d.dirs (keyOf (C.data :: walk d.env.cwd s.base_dir))) :
    d.readDir (s.get_collection_dir C) = .ok (((d.files.map Prod.fst ++ d.dirs).filterMap
      (Disk.entryName (keyOf (C.data :: walk d.env.cwd s.base_dir)))).dedup) := by
  simp only [Disk.readDir, lookupError_collection_dir hbase hC hK, Disk.key,
    walk_collection_dir s _ hC, if_pos hK]

/-- A plain document is stored exactly where its file is. -/
theorem pathExists_doc_path {X : String} (hX : PlainName X) :
    d.pathExists (s.get_doc_path C X) =
      (Smap.get? d.files (keyOf ((X ++ ".json").data :: C.data ::
        walk d.env.cwd s.base_dir))).isSome := by
  have hB := walk_normal d.env.cwd_normal s.base_dir
  have hXCB := normal_doc_stack hC hB hX
  have hkey : d.key (s.get_doc_path C X) =
      keyOf ((X ++ ".json").data :: C.data :: walk d.env.cwd s.base_dir) := by
    rw [Disk.key, walk_doc_path_of_plain s _ hC hX]
  have hnd : ¬DirIn d.dirs (keyOf ((X ++ ".json").data :: C.data ::
      walk d.env.cwd s.base_dir)) := by
    rintro (he | hm)
    · exact keyOf_cons_ne_nil _ _ he
    rcases hs.dir_cases hbase hm with ⟨n, he⟩ | ⟨C', hC', he | he⟩
    · have := congrArg List.length (keyOf_inj_of_normal hXCB (fun x hx => hB x
        (List.mem_of_mem_drop hx)) he)
      simp at this
      omega
    · simpa using congrArg List.length
        (keyOf_inj_of_normal hXCB (normal_collection_stack hC' hB) he)
    · exact json_ne_blobs hX (List.cons.inj (keyOf_inj_of_normal hXCB
        (List.forall_mem_cons.1 (normal_blob_stack hC' hB hX)).2 he)).1
  cases hf : (Smap.get? d.files
      (keyOf ((X ++ ".json").data :: C.data :: walk d.env.cwd s.base_dir))).isSome with
  | false =>
    simp only [Disk.pathExists, Disk.fileAt, hkey, hf, decide_eq_false hnd, Bool.or_false,
      Bool.and_false]
  | true =>
    have hK := d.file_parent _ hf
    rw [parentKey_keyOf_cons (json_name_normal hX.no_slash).no_slash] at hK
    have hl : d.lookupError (s.get_doc_path C X) = none :=
      Disk.lookupError_eq_none.2 ⟨joinPath_data_ne_nil _ (json_name_normal hX.no_slash).nonempty,
        fun st hst => dirIn_of_mem_chain hbase hC hK
          ((mem_passes_joinPath _ (json_name_normal hX.no_slash).no_slash).1 hst)⟩
    simp only [Disk.pathExists, Disk.fileAt, hkey, hf, hl, decide_True, Bool.true_or,
      Bool.and_self]

end Entries

variable (s P) (now : Int)

/-- What one entry of the directory adds to the result of `find_all`. -/
def entryDocs (collection : String) (d : Disk) (name : String) : Except String (List Doc) :=
  match listedId name with
  | some id => (s.find P now collection id d).map Option.toList
  | none => .ok []

/-- `find_all` is `mapM` of what each entry of the collection's directory adds. -/
theorem find_all_eq (order : List String → List String) (collection : String) (d : Disk) :
    s.find_all P now order collection d =
      if !d.pathExists (s.get_collection_dir collection) then .ok []
      else d.readDir (s.get_collection_dir collection) >>= fun names =>
        ((order names).mapM (s.entryDocs P now collection d)).map List.flatten := by
  rw [find_all]
  split_ifs
  · rfl
  congr 1
  funext names
  have h := foldlM_append (s.entryDocs P now collection d) (order names) []
  simp only [List.nil_append] at h
  rw [← h]
  congr 1
  funext docs name
  unfold entryDocs listedId
  split_ifs
  · cases file_stem name with
    | none => simp [Except.map]
    | some stem =>
      dsimp only
      cases s.find P now collection stem d with
      | error e => rfl
      | ok r => cases r <;> simp [Except.map]
  · simp [Except.map]

variable {s P now}

theorem entryDocs_json {collection : String} {d : Disk} {X : String} (hX : X.data ≠ []) :
    s.entryDocs P now collection d (X ++ ".json") =
      (s.find P now collection X d).map Option.toList := by
  rw [entryDocs, listedId_json hX]

section Loop

variable {C : String} {L : List String}

/-- A loop over the entry of a stored document whose `find` fails fails. -/
theorem mapM_entryDocs_error {X e : String} (hX : X.data ≠ []) (hmem : X ++ ".json" ∈ L)
    (he : s.find P now C X d = .error e) : ∃ e', L.mapM (s.entryDocs P now C d) = .error e' := by
  cases hm : L.mapM (s.entryDocs P now C d) with
  | ok outs =>
    obtain ⟨b, hb⟩ := exists_of_mapM_eq_ok hm hmem
    rw [entryDocs_json hX, he] at hb
    cases hb
  | error e' => exact ⟨e', rfl⟩

variable (hL : ∀ n ∈ L, n = "blobs" ∨
    ∃ X, PlainName X ∧ d.pathExists (s.get_doc_path C X) = true ∧ n = X ++ ".json")
include hL

/-- Over entries that are `blobs` or files of stored documents, a successful loop returns, in
order, the documents `find` returns for the entries' ids. -/
theorem forall₂_find_of_entries {outs : List (List Doc)}
    (h : List.Forall₂ (fun n o => s.entryDocs P now C d n = .ok o) L outs) :
    List.Forall₂ (fun X doc => s.find P now C X d = .ok (some doc)) (L.filterMap listedId)
      outs.flatten := by
  induction h with
  | nil => exact .nil
  | @cons n o L outs hno _ ih =>
    have ih := ih fun n' hn' => hL n' (.tail _ hn')
    rcases hL n (.head _) with rfl | ⟨X, hX, hp, rfl⟩
    · cases hno
      rwa [List.filterMap_cons_none listedId_blobs]
    · rw [entryDocs_json hX.nonempty] at hno
      obtain ⟨r, hr, rfl⟩ := except_map_eq_ok hno
      obtain ⟨doc, rfl⟩ := Option.isSome_iff_exists.1 (s.find_isSome P now hp hr)
      rw [List.filterMap_cons_some (listedId_json hX.nonempty)]
      exact .cons hr ih

/-- Over entries that are `blobs` or files of stored documents, a failed loop failed with the
error of `find` on a stored document. -/
theorem exists_find_error_of_entries {e : String}
    (h : L.mapM (s.entryDocs P now C d) = .error e) :
    ∃ X, PlainName X ∧ d.pathExists (s.get_doc_path C X) = true ∧
      s.find P now C X d = .error e := by
  obtain ⟨n, hn, hne⟩ := exists_of_mapM_eq_error h
  rcases hL n hn with rfl | ⟨X, hX, hp, rfl⟩
  · cases hne
  · rw [entryDocs_json hX.nonempty, except_map_eq_error] at hne
    exact ⟨X, hX, hp, hne⟩

/-- Distinct entries read distinct ids. -/
theorem nodup_filterMap_listedId (hnd : L.Nodup) : (L.filterMap listedId).Nodup := by
  induction L with
  | nil => exact .nil
  | cons n L ih =>
    rw [List.nodup_cons] at hnd
    have ih := ih (fun n' hn' => hL n' (.tail _ hn')) hnd.2
    rcases hL n (.head _) with rfl | ⟨X, hX, -, rfl⟩
    · rwa [List.filterMap_cons_none listedId_blobs]
    rw [List.filterMap_cons_some (listedId_json hX.nonempty), List.nodup_cons]
    refine ⟨fun hmem => hnd.1 ?_, ih⟩
    obtain ⟨n', hn', he⟩ := List.mem_filterMap.1 hmem
    rcases hL n' (.tail _ hn') with rfl | ⟨Y, hY, -, rfl⟩
    · cases he
    · rw [listedId_json hY.nonempty] at he
      cases he
      exact hn'

/-- The ids read are the stored plain ids, when every stored plain id has its entry. -/
theorem mem_filterMap_listedId
    (hin : ∀ X, PlainName X → d.pathExists (s.get_doc_path C X) = true → X ++ ".json" ∈ L)
    (X : String) :
    X ∈ L.filterMap listedId ↔ PlainName X ∧ d.pathExists (s.get_doc_path C X) = true := by
  refine ⟨fun hX => ?_, fun ⟨hX, hp⟩ => List.mem_filterMap.2 ⟨_, hin X hX hp, listedId_json hX.nonempty⟩⟩
  obtain ⟨n, hn, he⟩ := List.mem_filterMap.1 hX
  rcases hL n hn with rfl | ⟨Y, hY, hp, rfl⟩
  · cases he
  · rw [listedId_json hY.nonempty] at he
    cases he
    exact ⟨hY, hp⟩

end Loop

/-! ## `find_all` on a reachable store -/

/-- On a store reached through `insert`, `update` and `delete` with plain names under a base
directory without `..`, and in whatever order `read_dir` yields the entries, `find_all` on a plain
collection either returns exactly one document per stored plain id, the one `find` returns, or
fails with the error of `find` on one of them; and it fails when `find` fails on any of them. -/
theorem find_all_lists_stored (s : FileStorage) (P : Primitives) (now : Int)
    (order : List String → List String) (horder : ∀ l, (order l).Perm l) {d : Disk}
    (hd : s.Reachable P d) (hbase : ∀ c ∈ splitSlash s.base_dir.data, c ≠ ['.', '.'])
    {C : String} (hC : PlainName C) :
    (∀ docs, s.find_all P now order C d = .ok docs →
      ∃ ids : List String, ids.Nodup ∧
        (∀ X, X ∈ ids ↔ PlainName X ∧ d.pathExists (s.get_doc_path C X) = true) ∧
        List.Forall₂ (fun X doc => s.find P now C X d = .ok (some doc)) ids docs) ∧
    (∀ e, s.find_all P now order C d = .error e →
      ∃ X, PlainName X ∧ d.pathExists (s.get_doc_path C X) = true ∧
        s.find P now C X d = .error e) ∧
    (∀ X e, PlainName X → d.pathExists (s.get_doc_path C X) = true →
      s.find P now C X d = .error e → ∃ e', s.find_all P now order C d = .error e') := by
  have hs := hd.plainStore
  rw [find_all_eq, pathExists_collection_dir hs hbase hC]
  by_cases hK : DirIn d.dirs (keyOf (C.data :: walk d.env.cwd s.base_dir))
  · rw [decide_eq_true hK, readDir_collection_dir hbase hC hK]
    simp only [Bool.not_true, Bool.false_eq_true, if_false, except_ok_bind]
    have hperm := horder (((d.files.map Prod.fst ++ d.dirs).filterMap
      (Disk.entryName (keyOf (C.data :: walk d.env.cwd s.base_dir)))).dedup)
    generalize order _ = L at hperm ⊢
    have hL : ∀ n ∈ L, n = "blobs" ∨
        ∃ X, PlainName X ∧ d.pathExists (s.get_doc_path C X) = true ∧ n = X ++ ".json" :=
      fun n hn => (hs.mem_entries hbase hC (List.mem_dedup.1 (hperm.mem_iff.1 hn))).imp_right
        fun ⟨X, hX, hf, he⟩ => ⟨X, hX, by rw [pathExists_doc_path hs hbase hC hX]; exact hf, he⟩
    have hin : ∀ X, PlainName X → d.pathExists (s.get_doc_path C X) = true → X ++ ".json" ∈ L :=
      fun X hX hp => hperm.mem_iff.2 (List.mem_dedup.2 (doc_mem_entries hX
        (by rwa [pathExists_doc_path hs hbase hC hX] at hp)))
    refine ⟨fun docs h => ?_, fun e h => exists_find_error_of_entries hL (except_map_eq_error.1 h),
      fun X e hX hp he => (mapM_entryDocs_error hX.nonempty (hin X hX hp) he).imp
        fun _ hm => by rw [hm]; rfl⟩
    obtain ⟨outs, hm, rfl⟩ := except_map_eq_ok h
    exact ⟨_, nodup_filterMap_listedId hL (hperm.nodup_iff.2 (List.nodup_dedup _)),
      mem_filterMap_listedId hL hin, forall₂_find_of_entries hL ((mapM_eq_ok_iff _ _ _).1 hm)⟩
  · -- Without the collection's directory no document of it is stored.
    have hp : ∀ X, PlainName X → d.pathExists (s.get_doc_path C X) ≠ true := fun X hX hpX => by
      rw [pathExists_doc_path hs hbase hC hX] at hpX
      have hK' := d.file_parent _ hpX
      rw [parentKey_keyOf_cons (json_name_normal hX.no_slash).no_slash] at hK'
      exact hK hK'
    simp only [decide_eq_false hK, Bool.not_false, if_true]
    refine ⟨fun docs h => ?_, fun e h => (by cases h), fun X e hX hpX => absurd hpX (hp X hX)⟩
    cases h
    exact ⟨[], .nil, fun X => ⟨nofun, fun ⟨hX, hpX⟩ => (hp X hX hpX).elim⟩, .nil⟩

theorem find_all_lists_stored_note :
    (∀ l : List String, (id l).Perm l) ∧
    plainStore.Reachable tokenPrimitives (finalState (plainStore.insert tokenPrimitives 0
      (fun _ => zeroDraw) "notes" [("id", .string "x")] Disk.empty)) ∧
    (∀ c ∈ splitSlash plainStore.base_dir.data, c ≠ ['.', '.']) ∧ PlainName "notes" ∧
    let d := finalState (plainStore.insert tokenPrimitives 0 (fun _ => zeroDraw) "notes"
      [("id", .string "x")] Disk.empty)
    (∀ docs, plainStore.find_all tokenPrimitives 0 id "notes" d = .ok docs →
      ∃ ids : List String, ids.Nodup ∧
        (∀ X, X ∈ ids ↔ PlainName X ∧ d.pathExists (plainStore.get_doc_path "notes" X) = true) ∧
        List.Forall₂ (fun X doc => plainStore.find tokenPrimitives 0 "notes" X d = .ok (some doc))
          ids docs) ∧
    (∀ e, plainStore.find_all tokenPrimitives 0 id "notes" d = .error e →
      ∃ X, PlainName X ∧ d.pathExists (plainStore.get_doc_path "notes" X) = true ∧
        plainStore.find tokenPrimitives 0 "notes" X d = .error e) ∧
    (∀ X e, PlainName X → d.pathExists (plainStore.get_doc_path "notes" X) = true →
      plainStore.find tokenPrimitives 0 "notes" X d = .error e →
        ∃ e', plainStore.find_all tokenPrimitives 0 id "notes" d = .error e') :=
  have hN : PlainName "notes" := ⟨by decide, by decide, by decide, by decide⟩
  have hR : plainStore.Reachable tokenPrimitives (finalState (plainStore.insert tokenPrimitives 0
      (fun _ => zeroDraw) "notes" [("id", .string "x")] Disk.empty)) :=
    .insert 0 _ "notes" _ .empty hN fun X hX => by
      cases hX
      exact ⟨by decide, by decide, by decide, by decide⟩
  have hb : ∀ c ∈ splitSlash plainStore.base_dir.data, c ≠ ['.', '.'] := by decide
  ⟨fun l => .refl l, hR, hb, hN,
    find_all_lists_stored plainStore tokenPrimitives 0 id (fun l => .refl l) hR hb hN⟩

/-- A store whose base directory passes through `/data/notes/..json` and climbs back to `/data`. -/
def climbingStore : FileStorage := ⟨"/data/notes/..json/../..", EncryptionManager.new⟩

/-- `find_all` does not skip a document that fails to read: a top-level `encrypted: true` makes
`find` open the payload's envelopes, and `find_all` fails with the error of that `find`. Nor does
it list every stored document: the document with the id `""` lives in `.json`, which has no
extension, so `find` returns it and `find_all` does not. And under a base directory with `..`,
`create_dir_all` leaves the directory `..json` in a collection's directory, whose stem `.` is no
plain id: `find_all` fails with the error of `find` on it, while the one stored document reads. -/
theorem find_all_fails_and_misses :
    (∃ d e, plainStore.insert tokenPrimitives 0 (fun _ => zeroDraw) "notes"
        [("encrypted", .bool true), ("id", .string "x"),
          ("payload", .object [("k", .string "zzz"), ("k_encrypted", .bool true)])]
        Disk.empty = .ok () d ∧
      plainStore.find tokenPrimitives 0 "notes" "x" d = .error e ∧
      plainStore.find_all tokenPrimitives 0 id "notes" d = .error e) ∧
    (∃ d, plainStore.insert tokenPrimitives 0 (fun _ => zeroDraw) "notes" [("id", .string "")]
        Disk.empty = .ok () d ∧
      plainStore.find tokenPrimitives 0 "notes" "" d = .ok (some [("id", .string "")]) ∧
      plainStore.find_all tokenPrimitives 0 id "notes" d = .ok []) ∧
    (∃ d, climbingStore.insert tokenPrimitives 0 (fun _ => zeroDraw) "notes" [("id", .string "x")]
        Disk.empty = .ok () d ∧
      climbingStore.find tokenPrimitives 0 "notes" "x" d = .ok (some [("id", .string "x")]) ∧
      climbingStore.find tokenPrimitives 0 "notes" "." d = .error eisdir ∧
      climbingStore.find_all tokenPrimitives 0 id "notes" d = .error eisdir) :=
  ⟨⟨_, _, rfl, rfl, rfl⟩, ⟨_, rfl, rfl, rfl⟩, ⟨_, rfl, rfl, rfl, rfl⟩⟩

end FileStorage

end Knirvbase
