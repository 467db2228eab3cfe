import Knirvbase.Storage

/-!
# What each storage operation does to the disk

One lemma per call of `std::fs` says everything a run of it can do, and one lemma per storage
operation assembles them.

1. `fs::write` succeeds by storing the bytes, and fails having changed nothing or having left the
   bytes it wrote before the device was full (`write_of_ok`, `write_of_error`); `fs::create_dir_all`
   only adds directories, those the walk along its path stands in, and when it succeeds they are
   all there (`createDirAll_frame`, `createDirAll_of_ok`).
2. `insert` creates the directories down to its collection, and succeeds by writing the document
   file last, after at most the blob directory and the blob file of a `MEMORY` document
   (`insert_of_ok`); when it fails it may have created directories, written the blob file whole
   or in part, or left the document file truncated (`insert_of_error`).
3. Whatever the outcome, a call on a document changes only the document's two files and adds only
   directories on the way to its blob directory (`insert_frame`, `delete_frame`, `update_frame`).
4. `find` sees only what the lookups of the document file and of the file its document's
   `blobRef` names see (`find_congr`): a disk that agrees there gives the same answer.
-/

set_option autoImplicit false

namespace Knirvbase

/-! ## Running a computation on the disk -/

section Run

variable {α : Type} {d d' : Disk}

@[simp] theorem liftExcept_ok (a : α) (d : Disk) : Disk.liftExcept (.ok a) d = .ok a d := rfl

@[simp] theorem liftExcept_error (e : String) (d : Disk) :
    Disk.liftExcept (.error e : Except String α) d = .error e d := rfl

theorem liftExcept_eq_ok {x : Except String α} {a : α} :
    Disk.liftExcept x d = .ok a d' ↔ x = .ok a ∧ d' = d := by
  cases x <;> simp [Disk.liftExcept, eq_comm]

theorem liftExcept_eq_error {x : Except String α} {e : String} :
    Disk.liftExcept x d = .error e d' ↔ x = .error e ∧ d' = d := by
  cases x <;> simp [Disk.liftExcept, eq_comm]

end Run

namespace Disk

variable {d d' d₁ : Disk} {k path : String} {b : Bytes}

/-! ## Small steps -/

@[simp] theorem store_env : (d.store k b).env = d.env := by unfold store; split <;> rfl

@[simp] theorem store_dirs : (d.store k b).dirs = d.dirs := by unfold store; split <;> rfl

@[simp] theorem erase_env : (d.erase k).env = d.env := rfl

@[simp] theorem erase_dirs : (d.erase k).dirs = d.dirs := rfl

@[simp] theorem addDir_env : (d.addDir k).env = d.env := by unfold addDir; split <;> rfl

@[simp] theorem addDir_files : (d.addDir k).files = d.files := by unfold addDir; split <;> rfl

theorem get?_store (h : ¬DirIn d.dirs k) (hp : DirIn d.dirs (parentKey k)) (x : String) :
    Smap.get? (d.store k b).files x = if k = x then some b else Smap.get? d.files x := by
  rw [store, dif_pos ⟨h, hp⟩, Smap.get?_insert]

@[simp] theorem get?_erase (x : String) :
    Smap.get? (d.erase k).files x = if k = x then none else Smap.get? d.files x :=
  Smap.get?_remove d.sorted _ _

theorem addDir_dirs (h : (Smap.get? d.files k).isSome = false)
    (hp : DirIn d.dirs (parentKey k)) : (d.addDir k).dirs = k :: d.dirs := by
  rw [addDir, dif_pos ⟨h, hp⟩]

/-- Two disks are equal when they hold the same files and directories in the same environment. -/
theorem ext (hf : d.files = d'.files) (hd : d.dirs = d'.dirs) (he : d.env = d'.env) : d = d' := by
  obtain ⟨f, hs, ds, en, _, _, _, _⟩ := d
  obtain ⟨f', hs', ds', en', _, _, _, _⟩ := d'
  cases hf
  cases hd
  cases he
  rfl

/-- Keys are fixed by the environment. -/
theorem key_congr (h : d'.env = d.env) : d'.key = d.key := by
  funext path
  simp only [key, h]

/-- No file is a directory. -/
theorem get?_eq_none_of_dirIn (h : DirIn d.dirs k) : Smap.get? d.files k = none := by
  cases hk : Smap.get? d.files k with
  | none => rfl
  | some _ => exact absurd h (d.file_not_dir k (by rw [hk]; rfl))

/-- Where a lookup starts is a directory. -/
theorem start_dirIn (path : String) : DirIn d.dirs (keyOf (start d.env.cwd path)) := by
  unfold start
  split
  · exact .inl rfl
  · exact d.cwd_dir

/-! ## Lookups -/

theorem passError_eq_none :
    ∀ {pass : List (List (List Char))}, d.passError pass = none ↔ ∀ st ∈ pass, DirIn d.dirs (keyOf st)
  | [] => by simp [passError]
  | st :: pass => by
    unfold passError
    split_ifs with h
    · rw [passError_eq_none]
      exact ⟨fun h' x hx => (List.mem_cons.1 hx).elim (· ▸ h) (h' x), fun h' x hx => h' x (.tail _ hx)⟩
    · exact ⟨nofun, fun h' => absurd (h' st (.head _)) h⟩

theorem lookupError_eq_none :
    d.lookupError path = none ↔
      path.data ≠ [] ∧ ∀ st ∈ passes d.env.cwd path, DirIn d.dirs (keyOf st) := by
  unfold lookupError
  split_ifs with h <;> simp [h, passError_eq_none]

/-- A lookup through directories that each look the same on two disks stops the same way. -/
theorem passError_congr :
    ∀ {pass : List (List (List Char))}, (∀ st ∈ pass,
      (DirIn d'.dirs (keyOf st) ↔ DirIn d.dirs (keyOf st)) ∧
        Smap.get? d'.files (keyOf st) = Smap.get? d.files (keyOf st)) →
      d'.passError pass = d.passError pass
  | [], _ => rfl
  | st :: pass, h => by
    obtain ⟨hd, hf⟩ := h st (.head _)
    simp only [passError, hd, hf, passError_congr fun x hx => h x (.tail _ hx)]

/-- The keys a lookup of `path` looks at: those of the directories it passes, then its own. -/
def looksAt (d : Disk) (path : String) : List String :=
  (passes d.env.cwd path).map keyOf ++ [d.key path]

/-- `fs::read` and `Path::exists` see only the keys the lookup looks at. -/
theorem read_congr (he : d'.env = d.env) (h : ∀ k ∈ d.looksAt path,
    (DirIn d'.dirs k ↔ DirIn d.dirs k) ∧ Smap.get? d'.files k = Smap.get? d.files k) :
    d'.read path = d.read path ∧ d'.pathExists path = d.pathExists path := by
  have hl : d'.lookupError path = d.lookupError path := by
    simp only [lookupError, he]
    rw [passError_congr fun st hst => h _ (List.mem_append_left _ (List.mem_map_of_mem _ hst))]
  have hk := h (d.key path) (List.mem_append_right _ (.head _))
  simp [read, pathExists, fileAt, hl, key_congr he, hk.1, hk.2]

/-! ## `std::fs` -/

theorem shortWrite_lt {env : Env} {len n : Nat} (h : env.shortWrite k len = some n) : n < len := by
  unfold Env.shortWrite at h
  split at h
  · split_ifs at h with hn
    cases h
    exact hn
  · cases h

/-- What a successful `fs::write` did: the lookup went through, the file is no directory, lies in
one and may be changed, the write did not stop short, and the file holds the bytes. -/
theorem write_of_ok {u : Unit} (h : write path b d = .ok u d') :
    d.lookupError path = none ∧ ¬DirIn d.dirs (d.key path) ∧
      DirIn d.dirs (parentKey (d.key path)) ∧ d.key path ∉ d.env.readOnly ∧
      d.env.shortWrite (d.key path) b.length = none ∧ d' = d.store (d.key path) b := by
  unfold write at h
  split at h
  · cases h
  · rename_i hl
    split_ifs at h with h₁ h₂ h₃
    split at h
    · cases h
    · rename_i hs
      cases h
      exact ⟨hl, h₁, h₂, h₃, hs, rfl⟩

/-- A failed `fs::write` changed nothing, or left in the file the bytes it wrote before the device
was full. -/
theorem write_of_error {e : String} (h : write path b d = .error e d') :
    d' = d ∨ ∃ n, n < b.length ∧ ¬DirIn d.dirs (d.key path) ∧
      DirIn d.dirs (parentKey (d.key path)) ∧ d' = d.store (d.key path) (b.take n) := by
  unfold write at h
  split at h
  · cases h
    exact .inl rfl
  · split_ifs at h with h₁ h₂ h₃ <;> try (cases h; exact .inl rfl)
    split at h
    · rename_i n hs
      cases h
      exact .inr ⟨n, shortWrite_lt hs, h₁, h₂, rfl⟩
    · cases h

/-- A successful `fs::remove_file` removed a file the process may change. -/
theorem removeFile_of_ok {u : Unit} (h : removeFile path d = .ok u d') :
    (d.fileAt path).isSome ∧ d.key path ∉ d.env.readOnly ∧ d' = d.erase (d.key path) := by
  unfold removeFile at h
  split at h
  · cases h
  · split_ifs at h with h₁ h₂ h₃
    cases h
    refine ⟨?_, h₂, rfl⟩
    by_contra hn
    exact h₁ ⟨by simpa using hn, h₃⟩

theorem removeFile_of_error {e : String} (h : removeFile path d = .error e d') : d' = d := by
  unfold removeFile at h
  split at h
  · cases h; rfl
  · split_ifs at h <;> cases h <;> rfl

theorem removeIfExists_of_ok {u : Unit} (h : removeIfExists path d = .ok u d') :
    d' = d ∨ (d.fileAt path).isSome ∧ d.key path ∉ d.env.readOnly ∧ d' = d.erase (d.key path) := by
  unfold removeIfExists at h
  split_ifs at h
  · exact .inr (removeFile_of_ok h)
  · cases h; exact .inl rfl

theorem removeIfExists_of_error {e : String} (h : removeIfExists path d = .error e d') :
    d' = d := by
  unfold removeIfExists at h
  split_ifs at h
  exact removeFile_of_error h

/-- A successful `mkdir` passed through directories and added a directory where nothing was. -/
theorem mkdir_of_ok {pass : List (List (List Char))} {st : List (List Char)}
    (h : d.mkdir pass st = .ok d') :
    d.passError pass = none ∧ ¬DirIn d.dirs (keyOf st) ∧ d'.dirs = keyOf st :: d.dirs ∧
      d'.files = d.files ∧ d'.env = d.env := by
  unfold mkdir at h
  split at h
  · cases h
  · split_ifs at h with h₁ h₂
    cases h
    push_neg at h₁
    exact ⟨‹_›, h₁.2, addDir_dirs (by simpa using h₁.1) h₂, addDir_files, addDir_env⟩

theorem isDirAt_eq_true {pass : List (List (List Char))} {st : List (List Char)} :
    d.isDirAt pass st = true ↔ d.passError pass = none ∧ DirIn d.dirs (keyOf st) := by
  simp [isDirAt]

/-! ## Frames -/

/-- `d'` differs from `d` at most in the files with the keys `files`, and by new directories with
keys among `dirs`; the environment is the same. -/
structure AgreeOff (d d' : Disk) (files dirs : List String) : Prop where
  env : d'.env = d.env
  dirs_mono : ∀ k ∈ d.dirs, k ∈ d'.dirs
  dirs_new : ∀ k ∈ d'.dirs, k ∈ d.dirs ∨ k ∈ dirs
  files_eq : ∀ k ∉ files, Smap.get? d'.files k = Smap.get? d.files k

variable {files dirs : List String}

theorem AgreeOff.refl (d : Disk) (files dirs : List String) : d.AgreeOff d files dirs :=
  ⟨rfl, fun _ h => h, fun _ h => .inl h, fun _ _ => rfl⟩

theorem AgreeOff.trans {d₂ : Disk} (h₁ : d.AgreeOff d₁ files dirs)
    (h₂ : d₁.AgreeOff d₂ files dirs) : d.AgreeOff d₂ files dirs :=
  ⟨h₂.env.trans h₁.env, fun k hk => h₂.dirs_mono k (h₁.dirs_mono k hk),
    fun k hk => (h₂.dirs_new k hk).elim (h₁.dirs_new k) .inr,
    fun k hk => (h₂.files_eq k hk).trans (h₁.files_eq k hk)⟩

theorem AgreeOff.mono (h : d.AgreeOff d' files dirs) {files' dirs' : List String}
    (hf : ∀ k ∈ files, k ∈ files') (hd : ∀ k ∈ dirs, k ∈ dirs') : d.AgreeOff d' files' dirs' :=
  ⟨h.env, h.dirs_mono, fun k hk => (h.dirs_new k hk).imp id (hd k),
    fun k hk => h.files_eq k fun h' => hk (hf k h')⟩

theorem AgreeOff.store (h : d.AgreeOff d₁ files dirs) (hk : k ∈ files) (b : Bytes) :
    d.AgreeOff (d₁.store k b) files dirs := by
  refine ⟨by rw [store_env, h.env], by simpa using h.dirs_mono, by simpa using h.dirs_new,
    fun x hx => ?_⟩
  unfold Disk.store
  split
  · rw [Smap.get?_insert, if_neg (fun e : k = x => hx (e ▸ hk)), h.files_eq x hx]
  · exact h.files_eq x hx

theorem AgreeOff.erase (h : d.AgreeOff d₁ files dirs) (hk : k ∈ files) :
    d.AgreeOff (d₁.erase k) files dirs :=
  ⟨h.env, h.dirs_mono, h.dirs_new, fun x hx => by
    rw [get?_erase, if_neg (fun e : k = x => hx (e ▸ hk)), h.files_eq x hx]⟩

/-- A successful `mkdir` of a directory among `dirs` keeps to `dirs`. -/
theorem AgreeOff.of_mkdir {pass : List (List (List Char))} {st : List (List Char)}
    (h : d.mkdir pass st = .ok d') (hk : keyOf st ∈ dirs) : d.AgreeOff d' files dirs := by
  obtain ⟨-, -, hd, hf, he⟩ := mkdir_of_ok h
  refine ⟨he, fun x hx => by rw [hd]; exact .tail _ hx, fun x hx => ?_, fun x _ => by rw [hf]⟩
  rw [hd] at hx
  rcases List.mem_cons.1 hx with rfl | hx
  · exact .inr hk
  · exact .inl hx

theorem AgreeOff.dirIn (h : d.AgreeOff d' files dirs) (hk : DirIn d.dirs k) : DirIn d'.dirs k :=
  hk.imp id (h.dirs_mono k)

/-- A lookup of `path` sees the same after a change that leaves alone each key it looks at, or
where a directory stood already. -/
theorem AgreeOff.read_eq (h : d.AgreeOff d' files dirs)
    (hk : ∀ k ∈ d.looksAt path, DirIn d.dirs k ∨ k ∉ files ∧ k ∉ dirs) :
    d'.read path = d.read path ∧ d'.pathExists path = d.pathExists path := by
  refine read_congr h.env fun k hm => ?_
  rcases hk k hm with hd | ⟨hf, hn⟩
  · rw [get?_eq_none_of_dirIn hd, get?_eq_none_of_dirIn (h.dirIn hd)]
    exact ⟨iff_of_true (h.dirIn hd) hd, rfl⟩
  · refine ⟨⟨fun h' => ?_, h.dirIn⟩, h.files_eq k hf⟩
    rcases h' with h' | h'
    · exact .inl h'
    · exact .inr ((h.dirs_new k h').resolve_right hn)

/-- A lookup that went through still goes through once more directories are there. -/
theorem lookupError_eq_none_of_dirs (he : d'.env = d.env) (hd : ∀ k ∈ d.dirs, k ∈ d'.dirs)
    (h : d.lookupError path = none) : d'.lookupError path = none := by
  rw [lookupError_eq_none, he] at *
  exact ⟨h.1, fun st hst => (h.2 st hst).imp id (hd _)⟩

/-- A file read before a change that leaves its key alone reads the same after it. -/
theorem AgreeOff.read_of_read (h : d.AgreeOff d' files dirs) (hr : d.read path = .ok b)
    (hk : d.key path ∉ files) : d'.read path = .ok b := by
  unfold read at hr ⊢
  split at hr
  · cases hr
  rename_i hl
  have hf : d'.fileAt path = d.fileAt path := by
    rw [fileAt, fileAt, key_congr h.env, h.files_eq _ hk]
  rw [lookupError_eq_none_of_dirs h.env h.dirs_mono hl, hf]
  cases hfa : d.fileAt path with
  | none => simp only [hfa] at hr; cases hr
  | some b' => simpa only [hfa] using hr

/-- After a successful `fs::write`, the file holds the bytes. -/
theorem fileAt_of_write_ok {u : Unit} (h : write path b d = .ok u d') : d'.fileAt path = some b := by
  obtain ⟨-, hnd, hp, -, -, rfl⟩ := write_of_ok h
  rw [fileAt, key_congr store_env, get?_store hnd hp, if_pos rfl]

theorem lookupError_of_write_ok {u : Unit} (h : write path b d = .ok u d') :
    d'.lookupError path = none := by
  obtain ⟨hl, -, -, -, -, rfl⟩ := write_of_ok h
  exact lookupError_eq_none_of_dirs store_env (by simp) hl

/-- After a successful `fs::write`, reading the file gives the bytes. -/
theorem read_of_write_ok {u : Unit} (h : write path b d = .ok u d') : d'.read path = .ok b := by
  simp only [read, lookupError_of_write_ok h, fileAt_of_write_ok h]

/-! ## `fs::create_dir_all` -/

section CreateDirAll

variable (s0 : List (List Char))

theorem createDirAllRev_frame :
    ∀ (rcs : List (List Char)) (d : Disk),
      d.AgreeOff (finalState (createDirAllRev s0 rcs d)) [] ((visited s0 rcs.reverse).map keyOf)
  | [], d => .refl _ _ _
  | c :: rcs, d => by
    have hst : keyOf (pushComponent (rcs.reverse.foldl pushComponent s0) c) ∈
        (visited s0 (c :: rcs).reverse).map keyOf := by
      rw [List.reverse_cons, visited_append_singleton]
      exact List.mem_map_of_mem _ (List.mem_append_right _ (.head _))
    have hsub : ∀ k ∈ (visited s0 rcs.reverse).map keyOf, k ∈ (visited s0 (c :: rcs).reverse).map keyOf := by
      rw [List.reverse_cons, visited_append_singleton, List.map_append]
      exact fun k hk => List.mem_append_left _ hk
    have ih := fun d => (createDirAllRev_frame rcs d).mono (fun _ h => h) hsub
    simp only [createDirAllRev]
    cases h₁ : d.mkdir (visited s0 rcs.reverse) (pushComponent (rcs.reverse.foldl pushComponent s0) c) with
    | ok d' => exact AgreeOff.of_mkdir h₁ hst
    | error e =>
      dsimp only
      split_ifs
      · cases h₂ : createDirAllRev s0 rcs d with
        | ok u d₁ =>
          have h₁' := ih d
          rw [h₂, finalState_ok] at h₁'
          dsimp only
          cases h₃ : d₁.mkdir (visited s0 rcs.reverse) (pushComponent (rcs.reverse.foldl pushComponent s0) c) with
          | ok d₂ => exact h₁'.trans (AgreeOff.of_mkdir h₃ hst)
          | error e' => dsimp only; split_ifs <;> exact h₁'
        | error e₁ d₁ =>
          have h₁' := ih d
          rw [h₂] at h₁'
          exact h₁'
      all_goals exact .refl _ _ _

/-- After a successful `mkdir`, the directories it passed and the new one are directories. -/
theorem dirIn_of_mkdir {pass : List (List (List Char))} {st : List (List Char)}
    (h : d.mkdir pass st = .ok d') : ∀ x ∈ pass ++ [st], DirIn d'.dirs (keyOf x) := by
  obtain ⟨hp, -, hd, -, -⟩ := mkdir_of_ok h
  intro x hx
  rcases List.mem_append.1 hx with hx | hx
  · exact ((passError_eq_none.1 hp) x hx).imp id fun h' => by rw [hd]; exact .tail _ h'
  · rw [List.mem_singleton.1 hx, hd]
    exact .inr (.head _)

theorem dirIn_of_isDirAt {pass : List (List (List Char))} {st : List (List Char)}
    (h : d.isDirAt pass st = true) : ∀ x ∈ pass ++ [st], DirIn d.dirs (keyOf x) := by
  obtain ⟨hp, hst⟩ := isDirAt_eq_true.1 h
  intro x hx
  rcases List.mem_append.1 hx with hx | hx
  · exact passError_eq_none.1 hp x hx
  · rw [List.mem_singleton.1 hx]
    exact hst

/-- A successful `create_dir_all` leaves every directory down its path there: the last `mkdir` or
`is_dir` it ran saw them all. -/
theorem createDirAllRev_of_ok (hs0 : DirIn d.dirs (keyOf s0)) :
    ∀ {rcs : List (List Char)} {u : Unit}, createDirAllRev s0 rcs d = .ok u d' →
      ∀ st ∈ visited s0 rcs.reverse, DirIn d'.dirs (keyOf st)
  | [], _, h => by
    cases h
    intro st hst
    rw [List.mem_singleton.1 hst]
    exact hs0
  | c :: rcs, u, h => by
    rw [List.reverse_cons, visited_append_singleton]
    simp only [createDirAllRev] at h
    cases h₁ : d.mkdir (visited s0 rcs.reverse) (pushComponent (rcs.reverse.foldl pushComponent s0) c)
      with
    | ok d₁ => rw [h₁] at h; cases h; exact dirIn_of_mkdir h₁
    | error e =>
      rw [h₁] at h
      dsimp only at h
      split_ifs at h with he hd
      · cases h₂ : createDirAllRev s0 rcs d with
        | ok u₁ d₁ =>
          rw [h₂] at h
          dsimp only at h
          cases h₃ : d₁.mkdir (visited s0 rcs.reverse)
              (pushComponent (rcs.reverse.foldl pushComponent s0) c) with
          | ok d₂ => rw [h₃] at h; cases h; exact dirIn_of_mkdir h₃
          | error e' =>
            rw [h₃] at h
            dsimp only at h
            split_ifs at h with hd'
            cases h
            exact dirIn_of_isDirAt hd'
        | error e₁ d₁ => rw [h₂] at h; cases h
      · cases h
        exact dirIn_of_isDirAt hd

end CreateDirAll

/-- `create_dir_all` only adds directories, those the walk along its path stands in. -/
theorem createDirAll_frame (path : String) (d : Disk) :
    d.AgreeOff (finalState (createDirAll path d)) [] ((chain d.env.cwd path).map keyOf) :=
  (createDirAllRev_frame _ _ d).mono (fun _ h => h) fun k hk => by
    obtain ⟨st, hst, rfl⟩ := List.mem_map.1 hk
    rw [List.reverse_reverse, mem_visited_lexComponents] at hst
    exact List.mem_map_of_mem _ hst

/-- After a successful `create_dir_all`, every directory the walk along its path stands in is
there. -/
theorem createDirAll_of_ok {u : Unit} (h : createDirAll path d = .ok u d') :
    ∀ st ∈ chain d.env.cwd path, DirIn d'.dirs (keyOf st) := fun st hst =>
  createDirAllRev_of_ok _ (start_dirIn path) h st
    (by rw [List.reverse_reverse, mem_visited_lexComponents]; exact hst)

end Disk

/-! ## Frames of computations -/

/-- Every run of `x` on a disk with the working directory `cwd` changes at most the files with the
keys `files` and adds at most directories with keys among `dirs`, whether it succeeds or fails. -/
def Frame {α : Type} (cwd : List (List Char)) (files dirs : List String) (x : DiskM α) : Prop :=
  ∀ d : Disk, d.env.cwd = cwd → d.AgreeOff (finalState (x d)) files dirs

namespace Frame

variable {α β : Type} {cwd : List (List Char)} {files dirs : List String}

theorem bind {x : DiskM α} {f : α → DiskM β} (hx : Frame cwd files dirs x)
    (hf : ∀ a, Frame cwd files dirs (f a)) : Frame cwd files dirs (x >>= f) := fun d hd => by
  have h₁ := hx d hd
  rw [finalState_bind]
  cases h : x d with
  | ok a d₁ =>
    rw [h, finalState_ok] at h₁
    exact h₁.trans (hf a d₁ (by rw [h₁.env, hd]))
  | error e d₁ => rwa [h] at h₁

theorem pure (a : α) : Frame cwd files dirs (Pure.pure a : DiskM α) := fun d _ => .refl d _ _

theorem throw (e : String) : Frame cwd files dirs (MonadExcept.throw e : DiskM α) :=
  fun d _ => .refl d _ _

theorem get : Frame cwd files dirs (MonadState.get : DiskM Disk) := fun d _ => .refl d _ _

theorem liftExcept (x : Except String α) : Frame cwd files dirs (Disk.liftExcept x) := fun d _ => by
  cases x <;> exact .refl d _ _

theorem mono {x : DiskM α} (h : Frame cwd files dirs x) {files' dirs' : List String}
    (hf : ∀ k ∈ files, k ∈ files') (hd : ∀ k ∈ dirs, k ∈ dirs') : Frame cwd files' dirs' x :=
  fun d hd' => (h d hd').mono hf hd

theorem agreeOff_of_ok {x : DiskM α} (h : Frame cwd files dirs x) {d d' : Disk} {a : α}
    (hx : x d = .ok a d') (hd : d.env.cwd = cwd) : d.AgreeOff d' files dirs := by
  simpa only [hx, finalState_ok] using h d hd

end Frame

namespace Disk

variable (cwd : List (List Char)) (path : String)

theorem write_frame (b : Bytes) : Frame cwd [keyOf (walk cwd path)] [] (write path b) :=
  fun d hd => by
    have hk : d.key path ∈ [keyOf (walk cwd path)] := by rw [key, hd]; exact .head _
    cases h : write path b d with
    | ok u d' =>
      obtain ⟨-, -, -, -, -, rfl⟩ := write_of_ok h
      exact (AgreeOff.refl _ _ _).store hk _
    | error e d' =>
      rcases write_of_error h with rfl | ⟨n, -, -, -, rfl⟩
      · exact .refl _ _ _
      · exact (AgreeOff.refl _ _ _).store hk _

theorem removeIfExists_frame : Frame cwd [keyOf (walk cwd path)] [] (removeIfExists path) :=
  fun d hd => by
    have hk : d.key path ∈ [keyOf (walk cwd path)] := by rw [key, hd]; exact .head _
    cases h : removeIfExists path d with
    | ok u d' =>
      rcases removeIfExists_of_ok h with rfl | ⟨-, -, rfl⟩
      · exact .refl _ _ _
      · exact (AgreeOff.refl _ _ _).erase hk
    | error e d' =>
      rw [removeIfExists_of_error h]
      exact .refl _ _ _

theorem createDirAll_frame' : Frame cwd [] ((chain cwd path).map keyOf) (createDirAll path) :=
  fun d hd => by
    rw [← hd]
    exact createDirAll_frame path d

/-- A successful `fs::write` changes only the file it writes. -/
theorem AgreeOff.of_write {d d' : Disk} {p : String} {b : Bytes} {u : Unit}
    (h : write p b d = .ok u d') : d.AgreeOff d' [d.key p] [] :=
  (write_frame _ p b).agreeOff_of_ok h rfl

end Disk

/-! ## The storage's calls -/

namespace FileStorage

variable (s : FileStorage) (P : Primitives) (now : Int) (draw : String → Draw)
  (cwd : List (List Char)) {d d' d₁ : Disk}

/-- The keys of a document's two files. -/
def docFiles (collection id : String) : List String :=
  [keyOf (walk cwd (s.get_doc_path collection id)), keyOf (walk cwd (s.get_blob_path collection id))]

/-- The keys of the directories a call on a document of `collection` may create: those the walk to
its blob directory stands in. -/
def dirKeys (collection : String) : List String :=
  (chain cwd (joinPath (s.get_collection_dir collection) "blobs")).map keyOf

/-- What `insert` encrypts and writes: the document after its `MEMORY` step, encrypted in a
sensitive collection. -/
def finalDoc (collection : String) (doc_copy : Doc) : Except String Doc :=
  if is_encrypted_collection collection then s.encrypt_document P now collection doc_copy draw
  else pure doc_copy

theorem chain_collection_dir_sub {collection : String} :
    ∀ k ∈ (chain cwd (s.get_collection_dir collection)).map keyOf, k ∈ s.dirKeys cwd collection := by
  intro k hk
  obtain ⟨st, hst, rfl⟩ := List.mem_map.1 hk
  exact List.mem_map_of_mem _ ((mem_chain_joinPath _ (by decide)).2 (.inl hst))

theorem save_blob_frame (collection id : String) (blob : Value) :
    Frame cwd (s.docFiles cwd collection id) (s.dirKeys cwd collection)
      (s.save_blob P collection id blob) :=
  ((Disk.createDirAll_frame' cwd _).mono nofun fun _ h => h).bind fun _ =>
    ((Disk.write_frame cwd _ _).mono (by simp [docFiles]) nofun).bind fun _ => .pure _

theorem externalizeBlob_frame (collection id : String) (doc : Doc) :
    Frame cwd (s.docFiles cwd collection id) (s.dirKeys cwd collection)
      (s.externalizeBlob P collection id doc) := by
  unfold externalizeBlob
  split
  · split
    · exact (s.save_blob_frame P cwd collection id _).bind fun _ => .pure _
    · exact .pure _
  · exact .pure _

/-- `insert` changes only the two files of the document it files and adds only directories on the
way to its blob directory, whether it succeeds or fails. -/
theorem insert_frame {collection id : String} {doc : Doc} (hid : docId doc = some id) :
    Frame cwd (s.docFiles cwd collection id) (s.dirKeys cwd collection)
      (s.insert P now draw collection doc) := by
  unfold insert
  refine ((Disk.createDirAll_frame' cwd _).mono nofun (s.chain_collection_dir_sub cwd)).bind
    fun _ => ?_
  simp only [hid]
  exact (s.externalizeBlob_frame P cwd collection id doc).bind fun _ => (Frame.liftExcept _).bind
    fun _ => (Disk.write_frame cwd _ _).mono (by simp [docFiles]) nofun

/-- `insert` of a document without an id only creates the directories down to its collection. -/
theorem insert_frame_of_docId_none {collection : String} {doc : Doc} (hid : docId doc = none) :
    Frame cwd [] (s.dirKeys cwd collection) (s.insert P now draw collection doc) := by
  unfold insert
  refine ((Disk.createDirAll_frame' cwd _).mono nofun (s.chain_collection_dir_sub cwd)).bind
    fun _ => ?_
  simp only [hid]
  exact .throw _

/-- `delete` removes at most the two files of the document, whether it succeeds or fails. -/
theorem delete_frame (collection id : String) :
    Frame cwd (s.docFiles cwd collection id) [] (s.delete collection id) :=
  ((Disk.removeIfExists_frame cwd _).mono (by simp [docFiles]) nofun).bind fun _ =>
    (Disk.removeIfExists_frame cwd _).mono (by simp [docFiles]) nofun

theorem update_apply (collection id : String) (upd : Doc) (d : Disk) :
    s.update P now draw collection id upd d =
      match s.find P now collection id d with
      | .ok (some doc) => s.insert P now draw collection (Smap.insertAll doc upd) d
      | .ok none => .error "document not found" d
      | .error e => .error e d := by
  simp only [update, bind_apply, EStateM.bind, get_apply]
  cases s.find P now collection id d with
  | error e => rfl
  | ok doc? => cases doc? <;> rfl

/-- `update` changes only the two files of the document and adds only directories on the way to
its blob directory, when the patched document keeps its id. -/
theorem update_frame {collection id : String} {upd : Doc} (d : Disk) (hd : d.env.cwd = cwd)
    (hkeep : ∀ doc, s.find P now collection id d = .ok (some doc) →
      docId (Smap.insertAll doc upd) = some id) :
    d.AgreeOff (finalState (s.update P now draw collection id upd d)) (s.docFiles cwd collection id)
      (s.dirKeys cwd collection) := by
  rw [update_apply]
  split
  · exact s.insert_frame P now draw cwd (hkeep _ ‹_›) d hd
  all_goals exact .refl _ _ _

/-! ## What a call did -/

variable {s P now draw}

theorem save_blob_of_ok {collection id r : String} {blob : Value}
    (h : s.save_blob P collection id blob d = .ok r d') :
    ∃ d₀, Disk.createDirAll (joinPath (s.get_collection_dir collection) "blobs") d = .ok () d₀ ∧
      Disk.write (s.get_blob_path collection id) (P.toVec blob) d₀ = .ok () d' ∧
      r = s.get_blob_path collection id := by
  obtain ⟨_, d₀, h₀, h⟩ := bind_eq_ok.1 h
  obtain ⟨_, d₁, h₁, h⟩ := bind_eq_ok.1 h
  cases h
  exact ⟨d₀, h₀, h₁, rfl⟩

theorem save_blob_of_error {collection id e : String} {blob : Value}
    (h : s.save_blob P collection id blob d = .error e d') :
    Disk.createDirAll (joinPath (s.get_collection_dir collection) "blobs") d = .error e d' ∨
      ∃ d₀, Disk.createDirAll (joinPath (s.get_collection_dir collection) "blobs") d = .ok () d₀ ∧
        Disk.write (s.get_blob_path collection id) (P.toVec blob) d₀ = .error e d' := by
  rcases bind_eq_error.1 h with h₀ | ⟨_, d₀, h₀, h⟩
  · exact .inl h₀
  rcases bind_eq_error.1 h with h₁ | ⟨_, _, _, h⟩
  · exact .inr ⟨d₀, h₀, h₁⟩
  · cases h

/-- The document `insert` stores for a `MEMORY` payload whose blob went to `blob_path`. -/
def withBlobRef (doc : Doc) (payload : List (String × Value)) (blob_path : String) : Doc :=
  Smap.insert "payload"
    (.object (Smap.insert "blobRef" (.string blob_path) (Smap.remove "blob" payload))) doc

theorem externalizeBlob_of_ok {collection id : String} {doc doc' : Doc}
    (h : s.externalizeBlob P collection id doc d = .ok doc' d₁) :
    doc' = doc ∧ d₁ = d ∨
      ∃ payload blob, memoryPayload doc = some payload ∧ Smap.get? payload "blob" = some blob ∧
        doc' = withBlobRef doc payload (s.get_blob_path collection id) ∧
        s.save_blob P collection id blob d = .ok (s.get_blob_path collection id) d₁ := by
  unfold externalizeBlob at h
  cases hp : memoryPayload doc with
  | none => simp only [hp] at h; cases h; exact .inl ⟨rfl, rfl⟩
  | some payload =>
    cases hb : Smap.get? payload "blob" with
    | none => simp only [hp, hb] at h; cases h; exact .inl ⟨rfl, rfl⟩
    | some blob =>
      simp only [hp, hb] at h
      obtain ⟨r, d₀, h₀, h⟩ := bind_eq_ok.1 h
      cases h
      obtain ⟨-, -, -, rfl⟩ := save_blob_of_ok h₀
      exact .inr ⟨payload, blob, rfl, hb, rfl, h₀⟩

theorem externalizeBlob_of_error {collection id e : String} {doc : Doc}
    (h : s.externalizeBlob P collection id doc d = .error e d₁) :
    ∃ payload blob, memoryPayload doc = some payload ∧ Smap.get? payload "blob" = some blob ∧
      s.save_blob P collection id blob d = .error e d₁ := by
  unfold externalizeBlob at h
  cases hp : memoryPayload doc with
  | none => simp only [hp] at h; cases h
  | some payload =>
    cases hb : Smap.get? payload "blob" with
    | none => simp only [hp, hb] at h; cases h
    | some blob =>
      simp only [hp, hb] at h
      rcases bind_eq_error.1 h with h₀ | ⟨_, _, _, h⟩
      · exact ⟨payload, blob, rfl, hb, h₀⟩
      · cases h

/-- A successful `insert`: the directories down to the collection are there, the document has a
string id, the `MEMORY` step ran, the document is encrypted in a sensitive collection, and its
file is written last. -/
theorem insert_of_ok {collection : String} {doc : Doc} {u : Unit}
    (h : s.insert P now draw collection doc d = .ok u d') :
    ∃ id d₀ doc' d₁ final,
      Disk.createDirAll (s.get_collection_dir collection) d = .ok () d₀ ∧ docId doc = some id ∧
      s.externalizeBlob P collection id doc d₀ = .ok doc' d₁ ∧
      s.finalDoc P now draw collection doc' = .ok final ∧
      Disk.write (s.get_doc_path collection id) (P.toVecPretty (.object final)) d₁ = .ok () d' := by
  obtain ⟨_, d₀, h₀, h⟩ := bind_eq_ok.1 h
  cases hid : docId doc with
  | none => simp only [hid] at h; cases h
  | some id =>
    simp only [hid] at h
    obtain ⟨doc', d₁, h₁, h⟩ := bind_eq_ok.1 h
    obtain ⟨final, d₂, h₂, h₃⟩ := bind_eq_ok.1 h
    obtain ⟨hf, rfl⟩ := liftExcept_eq_ok.1 h₂
    exact ⟨id, d₀, doc', _, final, h₀, rfl, h₁, hf, h₃⟩

/-- A failed `insert` failed to create the directories down to the collection, found no id, failed
in its `MEMORY` step or in the encryption, or failed to write the document file. -/
theorem insert_of_error {collection e : String} {doc : Doc}
    (h : s.insert P now draw collection doc d = .error e d') :
    Disk.createDirAll (s.get_collection_dir collection) d = .error e d' ∨
      ∃ d₀, Disk.createDirAll (s.get_collection_dir collection) d = .ok () d₀ ∧
        (docId doc = none ∧ d' = d₀ ∨ ∃ id, docId doc = some id ∧
          (s.externalizeBlob P collection id doc d₀ = .error e d' ∨
            ∃ doc' d₁, s.externalizeBlob P collection id doc d₀ = .ok doc' d₁ ∧
              (s.finalDoc P now draw collection doc' = .error e ∧ d' = d₁ ∨
                ∃ final, s.finalDoc P now draw collection doc' = .ok final ∧
                  Disk.write (s.get_doc_path collection id) (P.toVecPretty (.object final)) d₁ =
                    .error e d'))) := by
  rcases bind_eq_error.1 h with h₀ | ⟨_, d₀, h₀, h⟩
  · exact .inl h₀
  refine .inr ⟨d₀, h₀, ?_⟩
  cases hid : docId doc with
  | none => simp only [hid] at h; cases h; exact .inl ⟨rfl, rfl⟩
  | some id =>
    simp only [hid] at h
    refine .inr ⟨id, rfl, ?_⟩
    rcases bind_eq_error.1 h with h₁ | ⟨doc', d₁, h₁, h₂⟩
    · exact .inl h₁
    refine .inr ⟨doc', d₁, h₁, ?_⟩
    rcases bind_eq_error.1 h₂ with h₂ | ⟨final, d₂, h₂, h₃⟩
    · exact .inl (liftExcept_eq_error.1 h₂)
    · obtain ⟨hf, rfl⟩ := liftExcept_eq_ok.1 h₂
      exact .inr ⟨final, hf, h₃⟩

/-- A failed `update` failed to find the document, or failed to insert it patched. -/
theorem update_of_error {collection id e : String} {upd : Doc}
    (h : s.update P now draw collection id upd d = .error e d') :
    d' = d ∨ ∃ doc, s.find P now collection id d = .ok (some doc) ∧
      s.insert P now draw collection (Smap.insertAll doc upd) d = .error e d' := by
  rw [update_apply] at h
  split at h
  · exact .inr ⟨_, ‹_›, h⟩
  all_goals cases h; exact .inl rfl

/-- A successful `update` found the document and inserted it with the patch written over it. -/
theorem update_of_ok {collection id : String} {upd : Doc} {u : Unit}
    (h : s.update P now draw collection id upd d = .ok u d') :
    ∃ doc, s.find P now collection id d = .ok (some doc) ∧
      s.insert P now draw collection (Smap.insertAll doc upd) d = .ok u d' := by
  rw [update_apply] at h
  split at h
  · exact ⟨_, ‹_›, h⟩
  all_goals cases h

/-- A failed `delete` has removed at most the document file. -/
theorem delete_of_error {collection id e : String} (h : s.delete collection id d = .error e d') :
    d' = d ∨ d' = d.erase (d.key (s.get_doc_path collection id)) := by
  rcases bind_eq_error.1 h with h₁ | ⟨_, d₁, h₁, h₂⟩
  · exact .inl (Disk.removeIfExists_of_error h₁)
  · rw [Disk.removeIfExists_of_error h₂]
    exact (Disk.removeIfExists_of_ok h₁).imp (fun h' => h') fun h' => h'.2.2

/-! ## `find` -/

/-- The file the `MEMORY` step of `find` reads for `doc`. -/
def blobRefOf (doc : Doc) : Option String :=
  match memoryPayload doc with
  | some payload =>
    match Smap.get? payload "blobRef" with
    | some (.string blob_ref) => some blob_ref
    | _ => none
  | none => none

theorem memoryPayload_eq_some {doc : Doc} {payload : List (String × Value)} :
    memoryPayload doc = some payload ↔
      Smap.get? doc "entryType" = some (.string "MEMORY") ∧
        Smap.get? doc "payload" = some (.object payload) := by
  unfold memoryPayload
  split <;> simp_all

variable (s P now) {collection id : String}

/-- `findStored` sees only what the lookup of the document file sees. -/
theorem findStored_congr
    (h : d'.read (s.get_doc_path collection id) = d.read (s.get_doc_path collection id) ∧
      d'.pathExists (s.get_doc_path collection id) = d.pathExists (s.get_doc_path collection id)) :
    s.findStored P now collection id d' = s.findStored P now collection id d := by
  simp only [findStored, h.1, h.2]

/-- The `MEMORY` step sees only what the lookup of the file `blobRef` names sees. -/
theorem inlineBlob_congr {doc : Doc} (h : ∀ r, blobRefOf doc = some r → d'.read r = d.read r) :
    inlineBlob P d' doc = inlineBlob P d doc := by
  unfold inlineBlob
  unfold blobRefOf at h
  split
  · split
    · simp_all [load_blob]
    · rfl
  · rfl

/-- `find` sees only what the lookups of the document file and of the file its stored document's
`blobRef` names see. -/
theorem find_congr
    (h : d'.read (s.get_doc_path collection id) = d.read (s.get_doc_path collection id) ∧
      d'.pathExists (s.get_doc_path collection id) = d.pathExists (s.get_doc_path collection id))
    (hb : ∀ doc r, s.findStored P now collection id d = .ok (some doc) → blobRefOf doc = some r →
      d'.read r = d.read r) :
    s.find P now collection id d' = s.find P now collection id d := by
  simp only [find, s.findStored_congr P now h]
  cases hf : s.findStored P now collection id d with
  | error e => rfl
  | ok doc? =>
    cases doc? with
    | none => rfl
    | some doc => simp only [except_ok_bind, Option.map_some', inlineBlob_congr P (hb doc · hf)]

/-- `find` returns nothing for an id whose document file does not exist. -/
theorem find_of_not_pathExists (hp : d.pathExists (s.get_doc_path collection id) = false) :
    s.find P now collection id d = .ok none := by
  simp [find, findStored, hp]

/-- `find` returns a document for an id whose document file exists, unless it fails. -/
theorem find_isSome {r : Option Doc} (hp : d.pathExists (s.get_doc_path collection id) = true)
    (h : s.find P now collection id d = .ok r) : r.isSome := by
  obtain ⟨r', h', hr⟩ := except_bind_eq_ok.1 h
  cases hr
  simp only [findStored, hp, Bool.not_true, Bool.false_eq_true, if_false] at h'
  obtain ⟨v, -, h'⟩ := except_bind_eq_ok.1 h'
  obtain ⟨w, -, h'⟩ := except_bind_eq_ok.1 h'
  split at h'
  · split at h' <;> obtain ⟨doc, -, h'⟩ := except_bind_eq_ok.1 h' <;> cases h' <;> rfl
  · cases h'

theorem reread_eq_bool {g : F64 → F64} {v : Value} {b : Bool} :
    v.reread g = .bool b ↔ v = .bool b := by
  cases v <;> simp

theorem get?_rereadObject_encrypted {g : F64 → F64} {doc : Doc} :
    Smap.get? (Value.rereadObject g doc) "encrypted" = some (.bool true) ↔
      Smap.get? doc "encrypted" = some (.bool true) := by
  rw [Value.get?_rereadObject]
  cases Smap.get? doc "encrypted" <;> simp [reread_eq_bool]

/-- `findStored` of a document file that holds an encrypted document: it decrypts the document it
reads back. -/
theorem findStored_of_encrypted {doc : Doc}
    (hl : d.lookupError (s.get_doc_path collection id) = none)
    (hf : d.fileAt (s.get_doc_path collection id) = some (P.toVecPretty (.object doc)))
    (h : Smap.get? doc "encrypted" = some (.bool true)) :
    s.findStored P now collection id d =
      (s.decrypt_document P now (Value.rereadObject P.rereadF64 doc)).map some := by
  have he : Smap.get? (Value.rereadObject P.rereadF64 doc) "encrypted" = some (.bool true) :=
    get?_rereadObject_encrypted.2 h
  have hp : d.pathExists (s.get_doc_path collection id) = true := by
    simp [Disk.pathExists, hl, hf]
  simp only [findStored, hp, Disk.read, hl, hf, Bool.not_true, Bool.false_eq_true, if_false,
    except_ok_bind, parseBytes, P.fromSlice_toVecPretty, Value.reread_object, he]
  cases s.decrypt_document P now (Value.rereadObject P.rereadF64 doc) <;> rfl

/-- `findStored` of a document file that holds a document not marked encrypted: it returns the
document it reads back. -/
theorem findStored_of_plain {doc : Doc}
    (hl : d.lookupError (s.get_doc_path collection id) = none)
    (hf : d.fileAt (s.get_doc_path collection id) = some (P.toVecPretty (.object doc)))
    (h : Smap.get? doc "encrypted" ≠ some (.bool true)) :
    s.findStored P now collection id d = .ok (some (Value.rereadObject P.rereadF64 doc)) := by
  have he : Smap.get? (Value.rereadObject P.rereadF64 doc) "encrypted" ≠ some (.bool true) :=
    mt get?_rereadObject_encrypted.1 h
  have hp : d.pathExists (s.get_doc_path collection id) = true := by
    simp [Disk.pathExists, hl, hf]
  simp only [findStored, hp, Disk.read, hl, hf, Bool.not_true, Bool.false_eq_true, if_false,
    except_ok_bind, parseBytes, P.fromSlice_toVecPretty, Value.reread_object]
  rfl

/-! ## Where the store's paths lead -/

section Paths

variable (s : FileStorage)

theorem json_name_normal {id : String} (hid : '/' ∉ id.data) : Normal (id ++ ".json").data := by
  have hl : (id ++ ".json").data.length = id.data.length + 5 := by simp
  refine ⟨fun h => by simp [h] at hl, by simpa using hid, fun h => ?_, fun h => ?_⟩ <;>
    rw [h] at hl <;> simp at hl

theorem blobs_normal : Normal "blobs".data := ⟨by decide, by decide, by decide, by decide⟩

variable {cwd} {collection id : String}

theorem walk_doc_path (hid : '/' ∉ id.data) :
    walk cwd (s.get_doc_path collection id) =
      (id ++ ".json").data :: walk cwd (s.get_collection_dir collection) := by
  rw [get_doc_path, walk_joinPath _ _ (json_name_normal hid).no_slash,
    pushComponent_normal (json_name_normal hid)]

theorem walk_blob_dir :
    walk cwd (joinPath (s.get_collection_dir collection) "blobs") =
      "blobs".data :: walk cwd (s.get_collection_dir collection) := by
  rw [walk_joinPath _ _ blobs_normal.no_slash, pushComponent_normal blobs_normal]

theorem walk_blob_path (hid : '/' ∉ id.data) :
    walk cwd (s.get_blob_path collection id) =
      pushComponent ("blobs".data :: walk cwd (s.get_collection_dir collection)) id.data := by
  rw [get_blob_path, walk_joinPath _ _ hid, walk_blob_dir]

/-- The blob file of a document whose id has no `/` is never its document file. -/
theorem blob_key_ne_doc_key (d : Disk) (hid : '/' ∉ id.data) :
    d.key (s.get_blob_path collection id) ≠ d.key (s.get_doc_path collection id) := by
  intro h
  have hn := walk_normal d.env.cwd_normal
  have hst := keyOf_inj (fun x hx => (hn _ x hx).no_slash) (fun x hx => (hn _ x hx).no_slash) h
  rw [walk_blob_path s hid, walk_doc_path s hid] at hst
  rcases pushComponent_cases ("blobs".data :: walk d.env.cwd (s.get_collection_dir collection)) hid
    with h' | h' | ⟨-, h'⟩ <;> rw [h'] at hst
  · have := congrArg List.getLast? (List.cons.inj hst).1
    simp at this
  · have := congrArg List.length hst
    simp at this
  · have := congrArg List.length hst
    simp at this

end Paths

/-- A store under `/data` without a master key. -/
def plainStore : FileStorage := ⟨"/data", EncryptionManager.new⟩

end FileStorage

end Knirvbase
