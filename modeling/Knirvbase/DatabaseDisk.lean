import Knirvbase.Database

/-!
# The disk under runs of the database

With ids without `/`, every file a collection writes or removes has a key under the key of its
own directory, whether the call succeeds or fails (`insert_withinDir`, `update_withinDir`,
`delete_withinDir`): `..` in an id climbs no higher than that directory. The directories of
distinct plain collections are disjoint (`inDir_unique`), so a run of the database whose writes
are on plain collections other than `B` leaves every file under the directory of `B` as it was
(`collections_isolated`).

Each step of the database changes the disk by one storage call on a registered collection's name,
or not at all, so a run from `DB::new` over an empty store, with plain names in its writes, leaves
a store that the storage's own calls reach (`new_run_reachable`): every result about such stores,
such as what `find_all` lists, holds of the database's disk.
-/

set_option autoImplicit false

namespace Knirvbase

namespace FileStorage

variable (s : FileStorage)

/-- The key `k` is that of the directory of the collection `A`, walked from `cwd`, or of an entry
below it. -/
def InDir (cwd : List (List Char)) (A k : String) : Prop :=
  ∃ st : List (List Char), (∀ c ∈ st, '/' ∉ c) ∧
    k = keyOf (st ++ walk cwd (s.get_collection_dir A))

/-- `d'` has the environment of `d` and differs from it at most in files of the directory of the
collection `A`. -/
def WithinDir (A : String) (d d' : Disk) : Prop :=
  d'.env = d.env ∧ ∀ k, ¬s.InDir d.env.cwd A k → Smap.get? d'.files k = Smap.get? d.files k

variable {s} {P : Primitives} {now : Int} {draw : String → Draw} {A : String} {d : Disk}

theorem WithinDir.refl (A : String) (d : Disk) : s.WithinDir A d d := ⟨rfl, fun _ _ => rfl⟩

/-- Distinct plain collections have disjoint directories, from a working directory of names. -/
theorem inDir_unique {cwd : List (List Char)} (hcwd : ∀ c ∈ cwd, Normal c) {B k : String}
    (hA : PlainName A) (hB : PlainName B) (ha : s.InDir cwd A k) (hb : s.InDir cwd B k) :
    A = B := by
  have hslash : ∀ {st : List (List Char)} {C : String}, (∀ c ∈ st, '/' ∉ c) → PlainName C →
      ∀ x ∈ st ++ C.data :: walk cwd s.base_dir, '/' ∉ x := fun hst hC x hx => by
    rcases List.mem_append.1 hx with hx | hx
    · exact hst x hx
    rcases List.mem_cons.1 hx with rfl | hx
    · exact hC.no_slash
    · exact (walk_normal hcwd _ x hx).no_slash
  obtain ⟨st, hst, rfl⟩ := ha
  obtain ⟨st', hst', h⟩ := hb
  rw [walk_collection_dir s cwd hA, walk_collection_dir s cwd hB] at h
  have h' := keyOf_inj (hslash hst hA) (hslash hst' hB) h
  have hl : st.length = st'.length := by simpa using congrArg List.length h'
  exact String.ext (List.cons.inj (List.append_inj h' hl).2).1

/-- The two files of a document whose id holds no `/` lie in the directory of its collection. -/
theorem docFiles_inDir (cwd : List (List Char)) {i : String} (hi : '/' ∉ i.data) :
    ∀ k ∈ s.docFiles cwd A i, s.InDir cwd A k := by
  simp only [docFiles, List.mem_cons, List.mem_singleton, List.not_mem_nil, or_false]
  rintro k (rfl | rfl)
  · exact ⟨[(i ++ ".json").data], by simpa using (json_name_normal hi).no_slash,
      by rw [walk_doc_path s hi]; rfl⟩
  · rw [walk_blob_path s hi]
    rcases pushComponent_cases ("blobs".data :: walk cwd (s.get_collection_dir A)) hi with
      h | h | ⟨hn, h⟩ <;> rw [h]
    · exact ⟨["blobs".data], by simp, rfl⟩
    · exact ⟨[], nofun, rfl⟩
    · exact ⟨[i.data, "blobs".data], by simp [hn.no_slash], rfl⟩

/-- A change to the files of a document whose id holds no `/` is a change in the directory of its
collection. -/
theorem withinDir_of_agreeOff {d' : Disk} {i : String} {dirs : List String}
    (h : d.AgreeOff d' (s.docFiles d.env.cwd A i) dirs) (hi : '/' ∉ i.data) :
    s.WithinDir A d d' :=
  ⟨h.env, fun k hk => h.files_eq k fun hm => hk (docFiles_inDir _ hi k hm)⟩

/-! ## The storage's writes -/

variable (P now draw)

/-- `insert` writes in the directory of its collection. -/
theorem insert_withinDir {doc : Doc} (hid : ∀ i, docId doc = some i → '/' ∉ i.data) (d : Disk) :
    s.WithinDir A d (finalState (s.insert P now draw A doc d)) := by
  cases h : docId doc with
  | none =>
    have hf : d.AgreeOff (finalState (s.insert P now draw A doc d)) [] (s.dirKeys d.env.cwd A) :=
      s.insert_frame_of_docId_none P now draw d.env.cwd h d rfl
    exact ⟨hf.env, fun k _ => hf.files_eq k (List.not_mem_nil _)⟩
  | some i => exact withinDir_of_agreeOff (s.insert_frame P now draw d.env.cwd h d rfl) (hid i h)

/-- `update` writes in the directory of its collection. -/
theorem update_withinDir {id : String} {upd : Doc}
    (hid : ∀ found i, s.find P now A id d = .ok (some found) →
      docId (Smap.insertAll found upd) = some i → '/' ∉ i.data) :
    s.WithinDir A d (finalState (s.update P now draw A id upd d)) := by
  rw [update_apply]
  split
  · exact insert_withinDir P now draw (hid _ · ‹_›) d
  all_goals exact .refl A d

/-- `delete` removes files of the directory of its collection. -/
theorem delete_withinDir {id : String} (hi : '/' ∉ id.data) (d : Disk) :
    s.WithinDir A d (finalState (s.delete A id d)) :=
  withinDir_of_agreeOff (s.delete_frame d.env.cwd A id d rfl) hi

end FileStorage

namespace DistributedCollection

variable {s : FileStorage} {P : Primitives} {now : Int} {draw : String → Draw} {w : World}

/-- A network call followed by a result leaves the disk alone. -/
theorem disk_onNet_then {α β : Type} (y : NetM β) (a : α) (w : World) :
    (finalState ((World.onNet y >>= fun _ => pure a) w)).disk = w.disk := by
  simp only [bind_apply, EStateM.bind, World.onNet]
  cases y w.net <;> rfl

/-- On the disk, the collection's `insert` is the storage's `insert` of the wrapped document. -/
theorem insert_disk (op_id : String) (doc : Doc) :
    (finalState (insert s P now draw op_id doc w)).disk =
      finalState (s.insert P now draw w.coll.name (wrap now w.net.get_peer_id doc).toJson w.disk) := by
  simp only [insert, bind_apply, EStateM.bind, get_apply, World.onDisk]
  cases s.insert P now draw w.coll.name (wrap now w.net.get_peer_id doc).toJson w.disk with
  | error e d => rfl
  | ok u d =>
    dsimp only
    cases w.coll.network_id with
    | none => rfl
    | some n => exact disk_onNet_then _ _ _

/-- On the disk, the collection's `delete` is the storage's `delete`. -/
theorem delete_disk (id : String) :
    (finalState (delete s id w)).disk = finalState (s.delete w.coll.name id w.disk) := by
  simp only [delete, bind_apply, EStateM.bind, get_apply, World.onDisk]
  cases s.delete w.coll.name id w.disk <;> rfl

theorem attach_disk (network_id : String) :
    (finalState (attach_to_network now network_id w)).disk = w.disk := by
  rw [attach_apply]
  cases NetworkManager.add_collection_to_network now network_id w.coll.name w.net <;> rfl

theorem detach_disk : (finalState (detach_from_network w)).disk = w.disk := by
  rw [detach_apply]
  rfl

end DistributedCollection

/-! ## Runs of the database -/

open FileStorage

/-- The collection whose directory a step may write in: that of a write through a handle. -/
def DbOp.target : DbOp → Option String
  | .insert name .. | .update name .. | .delete name _ => some name
  | _ => none

/-- A write through a handle is confined to its collection's directory: the name is plain and
the id it writes holds no `/`. For `update` that id is the one of the document it finds, patched. -/
def DbOp.Confined (s : FileStorage) (P : Primitives) (db : DistributedDatabase) : DbOp → Prop
  | .insert name _ _ _ doc => PlainName name ∧ ∀ i, docId doc = some i → '/' ∉ i.data
  | .update name now _ id upd => PlainName name ∧ ∀ found i,
    s.find P now name id db.disk = .ok (some found) →
      docId (Smap.insertAll found upd) = some i → '/' ∉ i.data
  | .delete name id => PlainName name ∧ '/' ∉ id.data
  | _ => True

/-- A step each of whose storage writes has a plain collection name and a plain id: the id of the
wrapped document `insert` writes, and for `update` the id of the document it finds, patched. -/
def DbOp.Plain (s : FileStorage) (P : Primitives) (db : DistributedDatabase) : DbOp → Prop
  | .insert name _ _ _ doc => PlainName name ∧ PlainName ((docId doc).getD "")
  | .update name now _ id upd => PlainName name ∧ ∀ found i,
    s.find P now name id db.disk = .ok (some found) →
      docId (Smap.insertAll found upd) = some i → PlainName i
  | _ => True

theorem DbOp.Confined.target_plain {s : FileStorage} {P : Primitives} {db : DistributedDatabase}
    {A : String} : ∀ {o : DbOp}, o.Confined s P db → o.target = some A → PlainName A
  | .insert .., ⟨hA, _⟩, rfl | .update .., ⟨hA, _⟩, rfl | .delete .., ⟨hA, _⟩, rfl => hA

namespace DistributedDatabase

variable {s : FileStorage} {P : Primitives} {db : DistributedDatabase}

/-- A step writes at most in the directory of its target, and nothing without one. -/
def StepWithin (s : FileStorage) (db db' : DistributedDatabase) : Option String → Prop
  | some A => s.WithinDir A db.disk db'.disk
  | none => db'.disk = db.disk

theorem StepWithin.env {db' : DistributedDatabase} {t : Option String}
    (hw : StepWithin s db db' t) : db'.disk.env = db.disk.env := by
  cases t with
  | none => rw [show db'.disk = db.disk from hw]
  | some A => exact hw.1

theorem StepWithin.get?_eq {db' : DistributedDatabase} {t : Option String} {x : String}
    (hw : StepWithin s db db' t) (ht : ∀ A, t = some A → ¬s.InDir db.disk.env.cwd A x) :
    Smap.get? db'.disk.files x = Smap.get? db.disk.files x := by
  cases t with
  | none => rw [show db'.disk = db.disk from hw]
  | some A => exact hw.2 x (ht A rfl)

/-- A property of disks that the call of every registered collection establishes from the
database's disk holds of the disk the call leaves. -/
theorem onCollection_disk_of {α : Type} {A : String} {x : CollM α} {Q : Disk → Prop}
    (hreg : RegistryConsistent db) (h₀ : Q db.disk)
    (hx : ∀ c, c.name = A → Q (finalState (x ⟨c, db.disk, db.net⟩)).disk) :
    Q (finalState (onCollection A x db)).disk := by
  rw [onCollection_final]
  split
  · exact hx _ (hreg _ _ ‹_›)
  · exact h₀

theorem onCollection_disk {α : Type} {A : String} {x : CollM α}
    (hx : ∀ w, (finalState (x w)).disk = w.disk) : (finalState (onCollection A x db)).disk = db.disk := by
  rw [onCollection_final]
  split
  · exact hx _
  · rfl

/-- Each confined step writes at most in the directory of its target. -/
theorem step_within (hreg : RegistryConsistent db) :
    ∀ o : DbOp, o.Confined s P db → StepWithin s db (step s P db o) o.target
  | .collection now name, _ => (collection_final_frame now name db).1
  | .insert A now draw op_id doc, ⟨_, hid⟩ =>
    onCollection_disk_of (Q := s.WithinDir A db.disk) hreg (.refl _ _) fun c hc => by
    rw [DistributedCollection.insert_disk]
    subst hc
    refine insert_withinDir P now draw (fun i hi => ?_) _
    rw [DistributedCollection.docId_toJson] at hi
    cases hi
    show '/' ∉ ((docId doc).getD "").data
    cases h : docId doc with
    | none => exact List.not_mem_nil _
    | some i => exact hid i h
  | .update A now draw id upd, ⟨_, hid⟩ =>
    onCollection_disk_of (Q := s.WithinDir A db.disk) hreg (.refl _ _) fun c hc => by
    rw [DistributedCollection.update_disk]
    subst hc
    exact update_withinDir P now draw hid
  | .delete A id, ⟨_, hi⟩ =>
    onCollection_disk_of (Q := s.WithinDir A db.disk) hreg (.refl _ _) fun c hc => by
    rw [DistributedCollection.delete_disk]
    subst hc
    exact delete_withinDir hi _
  | .attach_to_network _ now network_id, _ =>
    onCollection_disk fun _ => DistributedCollection.attach_disk network_id
  | .detach_from_network _, _ => onCollection_disk fun _ => DistributedCollection.detach_disk
  | .force_sync _ now, _ => onCollection_disk fun _ => rfl
  | .net _, _ => rfl

/-- A run of the database whose writes are confined and on collections other than the plain
collection `B` leaves every file in the directory of `B` as it was. -/
theorem collections_isolated {B : String} (hB : PlainName B) (hreg : RegistryConsistent db)
    {ops : List DbOp}
    (h : EachStep s P (fun db o => o.Confined s P db ∧ o.target ≠ some B) db ops) :
    ∀ x, s.InDir db.disk.env.cwd B x →
      Smap.get? (run s P db ops).disk.files x = Smap.get? db.disk.files x := by
  refine (EachStep.invariant (I := fun db' => RegistryConsistent db' ∧ db'.disk.env = db.disk.env ∧
    ∀ x, s.InDir db.disk.env.cwd B x → Smap.get? db'.disk.files x = Smap.get? db.disk.files x)
    (fun db' o ⟨hreg', henv, hkeep⟩ ⟨ho, hne⟩ => ⟨hreg'.step o, ?_, fun x hx => ?_⟩)
    ⟨hreg, rfl, fun _ _ => rfl⟩ h).2.2
  · exact ((step_within hreg' o ho).env).trans henv
  refine ((step_within hreg' o ho).get?_eq fun A hA hin => hne ?_).trans (hkeep x hx)
  rw [henv] at hin
  rw [hA, inDir_unique db.disk.env.cwd_normal (ho.target_plain hA) hB hin hx]

/-- A run that registers `notes`, inserts the document `x` and deletes it. -/
def notesRun : List DbOp :=
  [.collection 0 "notes", .insert "notes" 0 (fun _ => zeroDraw) "op" [("id", .string "x")],
    .delete "notes" "x"]

theorem collections_isolated_notes :
    PlainName "users" ∧ RegistryConsistent emptyDb ∧
      EachStep sameHalvesStore tokenPrimitives
        (fun db o => o.Confined sameHalvesStore tokenPrimitives db ∧ o.target ≠ some "users")
        emptyDb notesRun ∧
      ∀ x, sameHalvesStore.InDir emptyDb.disk.env.cwd "users" x →
        Smap.get? (run sameHalvesStore tokenPrimitives emptyDb notesRun).disk.files x =
          Smap.get? emptyDb.disk.files x := by
  have hU : PlainName "users" := ⟨by decide, by decide, by decide, by decide⟩
  have hN : PlainName "notes" := ⟨by decide, by decide, by decide, by decide⟩
  have hreg : RegistryConsistent emptyDb := fun _ _ h => nomatch h
  have hav : EachStep sameHalvesStore tokenPrimitives
      (fun db o => o.Confined sameHalvesStore tokenPrimitives db ∧ o.target ≠ some "users")
      emptyDb notesRun :=
    ⟨⟨trivial, nofun⟩, ⟨⟨hN, by rintro i ⟨⟩; decide⟩, by decide⟩, ⟨⟨hN, by decide⟩, by decide⟩,
      trivial⟩
  exact ⟨hU, hreg, hav, collections_isolated hU hreg hav⟩

/-- A step without a target leaves the disk as it was. -/
theorem step_disk_of_target (hreg : RegistryConsistent db) {o : DbOp} (ho : o.target = none) :
    (step s P db o).disk = db.disk := by
  have h := step_within (s := s) (P := P) hreg o
  rw [ho] at h
  exact h (by cases o <;> trivial)

/-! ## The disk of a run is a store the storage reaches -/

/-- Each step with plain writes takes a store the storage reaches to one: its disk is that of one
storage call on the registered collection's name. -/
theorem step_reachable (hreg : RegistryConsistent db) (hd : s.Reachable P db.disk) (o : DbOp)
    (ho : o.Plain s P db) : s.Reachable P (step s P db o).disk := by
  by_cases ht : o.target = none
  · rw [step_disk_of_target hreg ht]
    exact hd
  cases o with
  | insert A now draw op_id doc =>
    refine onCollection_disk_of (Q := s.Reachable P) hreg hd fun c hc => ?_
    rw [DistributedCollection.insert_disk]
    subst hc
    refine .insert now draw _ _ hd ho.1 fun i hi => ?_
    rw [DistributedCollection.docId_toJson] at hi
    cases hi
    exact ho.2
  | update A now draw id upd =>
    refine onCollection_disk_of (Q := s.Reachable P) hreg hd fun c hc => ?_
    rw [DistributedCollection.update_disk]
    subst hc
    exact .update now draw _ id upd hd ho.1 ho.2
  | delete A id =>
    refine onCollection_disk_of (Q := s.Reachable P) hreg hd fun c _ => ?_
    rw [DistributedCollection.delete_disk]
    exact .delete _ id hd
  | collection | attach_to_network | detach_from_network | force_sync | net => exact absurd rfl ht

/-- Every run of a database that `DB::new` made over an empty store, whose writes have plain
names, leaves a disk the storage reaches by its own calls; so every file on it is the document file
or the blob file of a plain collection name and a plain id. -/
theorem new_run_reachable {opts : Options} {peer_id : String} {bound : Except String Unit}
    {dbh : DB} (h : DB.new opts peer_id bound Disk.empty = .ok dbh) {ops : List DbOp}
    (hops : EachStep dbh.storage P (fun db o => o.Plain dbh.storage P db) dbh.db ops) :
    dbh.storage.Reachable P (run dbh.storage P dbh.db ops).disk ∧
      dbh.storage.PlainStore (run dbh.storage P dbh.db ops).disk := by
  obtain ⟨hcol, hdisk, hst, -⟩ := new_eq_ok h
  have hreg : RegistryConsistent dbh.db := fun k c hk => by rw [hcol] at hk; cases hk
  have hbase : dbh.storage.base_dir = opts.data_dir := by rw [hst]
  have h₀ : dbh.storage.Reachable P dbh.db.disk := by
    have hnew : dbh.storage.newDisk = dbh.db.disk := by rw [newDisk, hbase, hdisk, finalState_ok]
    exact hnew ▸ .new
  have hd : dbh.storage.Reachable P (run dbh.storage P dbh.db ops).disk :=
    (EachStep.invariant (I := fun db => RegistryConsistent db ∧ dbh.storage.Reachable P db.disk)
      (fun _ o ⟨hreg, hd⟩ ho => ⟨hreg.step o, step_reachable hreg hd o ho⟩)
      ⟨hreg, h₀⟩ hops).2
  exact ⟨hd, hd.plainStore⟩

theorem new_run_reachable_notes :
    ∃ dbh, DB.new ⟨"/data", true⟩ "p" (.ok ()) Disk.empty = .ok dbh ∧
      EachStep dbh.storage tokenPrimitives (fun db o => o.Plain dbh.storage tokenPrimitives db)
        dbh.db notesRun ∧
      dbh.storage.Reachable tokenPrimitives (run dbh.storage tokenPrimitives dbh.db notesRun).disk ∧
      dbh.storage.PlainStore (run dbh.storage tokenPrimitives dbh.db notesRun).disk := by
  have hN : PlainName "notes" := ⟨by decide, by decide, by decide, by decide⟩
  have hX : PlainName "x" := ⟨by decide, by decide, by decide, by decide⟩
  have h : DB.new ⟨"/data", true⟩ "p" (.ok ()) Disk.empty = .ok _ := rfl
  refine ⟨_, h, ?hops, new_run_reachable h ?hops⟩
  exact ⟨trivial, ⟨hN, hX⟩, trivial, trivial⟩

/-! ## Deleting through a handle -/

/-- After `delete` through the handle of a registered collection, `find` through the handle no
longer finds the document, whether the delete succeeded or failed on the blob file, when the
document's file was one the process may change and no directory. -/
theorem find_after_delete {a : CollectionAdapter} {now : Int} {id : String}
    (hreg : RegistryConsistent db) (hr : Registered db a.c)
    (hw : db.disk.key (s.get_doc_path a.c id) ∉ db.disk.env.readOnly)
    (hd : ¬DirIn db.disk.dirs (db.disk.key (s.get_doc_path a.c id))) :
    a.find s P now id (finalState (a.delete s id db)) = .ok none := by
  obtain ⟨c, hc⟩ := Option.isSome_iff_exists.1 hr
  have hname : c.name = a.c := hreg _ _ hc
  have hcoll := (DistributedCollection.delete_footprint (s := s) id).name ⟨c, db.disk, db.net⟩
  rw [CollectionAdapter.delete, onCollection_final, hc]
  simp only [CollectionAdapter.find, absorb, Smap.get?_insert, if_true, DistributedCollection.find]
  rw [DistributedCollection.delete_disk, hcoll]
  dsimp only
  rw [hname]
  exact find_delete s P now hw hd

/-- The database after registering `notes` and inserting the document `x`. -/
def notesDb : DistributedDatabase :=
  run sameHalvesStore tokenPrimitives emptyDb (notesRun.take 2)

theorem find_after_delete_notes :
    RegistryConsistent notesDb ∧ Registered notesDb "notes" ∧
      notesDb.disk.key (sameHalvesStore.get_doc_path "notes" "x") ∉ notesDb.disk.env.readOnly ∧
      ¬DirIn notesDb.disk.dirs (notesDb.disk.key (sameHalvesStore.get_doc_path "notes" "x")) ∧
      (⟨"notes"⟩ : CollectionAdapter).find sameHalvesStore tokenPrimitives 0 "x"
        (finalState ((⟨"notes"⟩ : CollectionAdapter).delete sameHalvesStore "x" notesDb)) =
          .ok none :=
  have hreg : RegistryConsistent notesDb := RegistryConsistent.run (fun _ _ h => by cases h) _
  have hr : Registered notesDb "notes" := rfl
  have hw : notesDb.disk.key (sameHalvesStore.get_doc_path "notes" "x") ∉
      notesDb.disk.env.readOnly := by decide
  have hd : ¬DirIn notesDb.disk.dirs (notesDb.disk.key (sameHalvesStore.get_doc_path "notes" "x")) :=
    by decide
  ⟨hreg, hr, hw, hd, find_after_delete hreg hr hw hd⟩

end DistributedDatabase

end Knirvbase
