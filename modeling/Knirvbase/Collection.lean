import Knirvbase.RoundTrip
import Knirvbase.Paths
import Knirvbase.Network

/-!
# Distributed collections

`DistributedCollection` (`collection.rs`) is a named collection over a `FileStorage` and a
`NetworkManager`. `insert` stores the caller's document as the payload of a `DistributedDocument`
whose vector is `{peer_id: 1}`, then, when the collection is attached to a network, broadcasts the
insert as an `Operation` message; `update` finds the stored document, writes the patch's fields
over it and inserts it back; `delete`, `find` and `find_all` go to the storage. A call runs on a
`World`: the collection's own fields, the disk of its storage and the state of its network
manager.

The results say what the calls leave on disk:

1. every successful write stores the vector `{peer_id: 1}` or, for `update`, the vector it read,
   so the collection's writes never advance the clock (`local_writes_store_vector`);
2. in a sensitive collection the envelope of a sensitive field is written for the top level of
   the inserted document only, while an update patch is written as given
   (`sensitive_fields_on_disk`);
3. what a failed write may leave behind, in the storage and in the collection
   (`failed_writes_change`).
-/

set_option autoImplicit false

namespace Knirvbase

/-- `DistributedCollection`: the fields its calls read or change; its storage and network are the
`World`'s. -/
structure DistributedCollection where
  name : String
  network_id : Option String
  sync_state : SyncState

/-- What a collection's calls read and change. -/
structure World where
  coll : DistributedCollection
  disk : Disk
  net : NetworkManager

/-- A call of a collection. -/
abbrev CollM := EStateM String World

namespace World

variable {α : Type}

/-- A storage call on the world's disk. -/
def onDisk (x : DiskM α) : CollM α := fun w =>
  match x w.disk with
  | .ok a d => .ok a { w with disk := d }
  | .error e d => .error e { w with disk := d }

/-- A network call on the world's network manager. -/
def onNet (x : NetM α) : CollM α := fun w =>
  match x w.net with
  | .ok a m => .ok a { w with net := m }
  | .error e m => .error e { w with net := m }

variable {x : DiskM α} {w w' : World} {a : α} {e : String}

theorem onDisk_eq_ok :
    onDisk x w = .ok a w' ↔ ∃ d, x w.disk = .ok a d ∧ w' = { w with disk := d } := by
  unfold onDisk
  cases x w.disk <;> simp [and_assoc, eq_comm (a := w')]

theorem onDisk_eq_error :
    onDisk x w = .error e w' ↔ ∃ d, x w.disk = .error e d ∧ w' = { w with disk := d } := by
  unfold onDisk
  cases x w.disk <;> simp [and_assoc, eq_comm (a := w')]

theorem onNet_eq_ok {y : NetM α} :
    onNet y w = .ok a w' ↔ ∃ m, y w.net = .ok a m ∧ w' = { w with net := m } := by
  unfold onNet
  cases y w.net <;> simp [and_assoc, eq_comm (a := w')]

theorem onNet_eq_error {y : NetM α} :
    onNet y w = .error e w' ↔ ∃ m, y w.net = .error e m ∧ w' = { w with net := m } := by
  unfold onNet
  cases y w.net <;> simp [and_assoc, eq_comm (a := w')]

end World

namespace DistributedCollection

/-- `NewDistributedCollection`, created at time `now`. -/
def new (name : String) (now : Int) : DistributedCollection :=
  ⟨name, none, ⟨name, "", VectorClock.new, now, [], [], false⟩⟩

/-- The `DistributedDocument` `insert` builds around the caller's document. -/
def wrap (now : Int) (peer_id : String) (doc : Doc) : DistributedDocument where
  id := ((Smap.get? doc "id").bind Value.asStr).getD ""
  entry_type := .Memory
  payload := some doc
  vector := VectorClock.new.increment peer_id
  timestamp := now
  peer_id := peer_id
  stage := none
  deleted := false

section Calls

variable (s : FileStorage) (P : Primitives) (now : Int) (draw : String → Draw)

/-- `insert`; `op_id` is the operation's drawn UUID. -/
def insert (op_id : String) (doc : Doc) : CollM Doc := do
  let w ← get
  let peer_id := w.net.get_peer_id
  let distributed_doc := wrap now peer_id doc
  World.onDisk (s.insert P now draw w.coll.name distributed_doc.toJson)
  match w.coll.network_id with
  | some network_id =>
    let operation : CRDTOperation := ⟨op_id, .Insert, w.coll.name, distributed_doc.id,
      some distributed_doc, VectorClock.new.increment peer_id, now, peer_id⟩
    World.onNet (NetworkManager.broadcast_message network_id
      ⟨.Operation, network_id, peer_id, now, operation.toJson⟩)
  | none => pure ()
  pure doc

/-- `update`: the number of documents it changed. -/
def update (id : String) (upd : Doc) : CollM Int := do
  let w ← get
  match s.find P now w.coll.name id w.disk with
  | .ok (some doc) => do
    World.onDisk (s.insert P now draw w.coll.name (Smap.insertAll doc upd))
    pure 1
  | .ok none => pure 0
  | .error e => throw e

/-- `delete`. -/
def delete (id : String) : CollM Int := do
  let w ← get
  World.onDisk (s.delete w.coll.name id)
  pure 1

/-- `find`. -/
def find (w : World) (id : String) : Except String (Option Doc) :=
  s.find P now w.coll.name id w.disk

/-- `find_all`; `order` is the order in which `read_dir` yields the entries. -/
def find_all (order : List String → List String) (w : World) : Except String (List Doc) :=
  s.find_all P now order w.coll.name w.disk

end Calls

/-- `attach_to_network`: the collection takes the network id before the network call, which may
fail. -/
def attach_to_network (now : Int) (network_id : String) : CollM Unit := do
  modify fun w => { w with coll := { w.coll with network_id := some network_id } }
  let w ← get
  World.onNet (NetworkManager.add_collection_to_network now network_id w.coll.name)
  modify fun w => { w with coll := { w.coll with
    sync_state := { w.coll.sync_state with network_id := network_id } } }

/-- `detach_from_network`. -/
def detach_from_network : CollM Unit := do
  let w ← get
  match w.coll.network_id with
  | some network_id =>
    World.onNet (NetworkManager.remove_collection_from_network network_id w.coll.name)
  | none => pure ()
  modify fun w => { w with coll := { w.coll with network_id := none } }

/-- `force_sync`, at time `now`. -/
def force_sync (now : Int) : CollM Unit :=
  modify fun w => { w with coll := { w.coll with
    sync_state := { w.coll.sync_state with last_sync := now, sync_in_progress := false } } }

/-! ## What each call does -/

section Spec

variable {s : FileStorage} {P : Primitives} {now : Int} {draw : String → Draw} {w w' : World}

theorem memoryPayload_toJson (dd : DistributedDocument) :
    FileStorage.memoryPayload dd.toJson = none := by
  rw [FileStorage.memoryPayload, DistributedDocument.get?_toJson_entryType]

theorem docId_toJson (dd : DistributedDocument) : FileStorage.docId dd.toJson = some dd.id := by
  rw [FileStorage.docId, DistributedDocument.get?_toJson_id]
  rfl

/-- A successful `insert` returned the caller's document after storing it wrapped; the
collection's fields are as they were. -/
theorem insert_of_ok {op_id : String} {doc r : Doc}
    (h : insert s P now draw op_id doc w = .ok r w') :
    r = doc ∧ w'.coll = w.coll ∧
      s.insert P now draw w.coll.name (wrap now w.net.peer_id doc).toJson w.disk =
        .ok () w'.disk := by
  obtain ⟨_, _, h₀, h⟩ := bind_eq_ok.1 h
  cases h₀
  obtain ⟨_, _, h₁, h⟩ := bind_eq_ok.1 h
  obtain ⟨d, hd, rfl⟩ := World.onDisk_eq_ok.1 h₁
  cases hn : w.coll.network_id with
  | none =>
    simp only [hn] at h
    cases h
    exact ⟨rfl, rfl, hd⟩
  | some network_id =>
    simp only [hn] at h
    obtain ⟨_, _, h₂, h⟩ := bind_eq_ok.1 h
    obtain ⟨m, -, rfl⟩ := World.onNet_eq_ok.1 h₂
    cases h
    exact ⟨rfl, rfl, hd⟩

/-- A failed `insert` failed in the storage, leaving what a failed storage `insert` leaves, or
stored the document and failed to broadcast it because the network manager was not
initialized. -/
theorem insert_of_error {op_id : String} {doc : Doc} {e : String}
    (h : insert s P now draw op_id doc w = .error e w') :
    w'.coll = w.coll ∧ (w.disk.Leaves w'.disk (s.dirKeys w.disk.env.cwd w.coll.name)
        (s.InsertLeftover P now draw w.coll.name (wrap now w.net.peer_id doc).toJson
          w.disk.env.cwd) ∨
      s.insert P now draw w.coll.name (wrap now w.net.peer_id doc).toJson w.disk = .ok () w'.disk ∧
        w.coll.network_id.isSome ∧ w.net.initialized = false ∧ e = "not initialized") := by
  rcases bind_eq_error.1 h with h₀ | ⟨_, _, h₀, h⟩
  · cases h₀
  cases h₀
  rcases bind_eq_error.1 h with h₁ | ⟨_, _, h₁, h⟩
  · obtain ⟨d, hd, rfl⟩ := World.onDisk_eq_error.1 h₁
    exact ⟨rfl, .inl (FileStorage.insert_leaves_of_error hd)⟩
  obtain ⟨d, hd, rfl⟩ := World.onDisk_eq_ok.1 h₁
  cases hn : w.coll.network_id with
  | none => simp only [hn] at h; cases h
  | some network_id =>
    simp only [hn] at h
    rcases bind_eq_error.1 h with h₂ | ⟨_, _, -, h⟩
    · obtain ⟨m, hm, rfl⟩ := World.onNet_eq_error.1 h₂
      obtain ⟨hi, rfl, rfl⟩ := NetworkManager.broadcast_message_eq_error.1 hm
      exact ⟨rfl, .inr ⟨hd, rfl, hi, rfl⟩⟩
    · cases h

theorem update_apply (id : String) (upd : Doc) (w : World) :
    update s P now draw id upd w =
      match s.find P now w.coll.name id w.disk with
      | .ok (some doc) =>
        (World.onDisk (s.insert P now draw w.coll.name (Smap.insertAll doc upd)) >>= fun _ =>
          pure 1) w
      | .ok none => .ok 0 w
      | .error e => .error e w := by
  simp only [update, bind_apply, EStateM.bind, get_apply]
  cases s.find P now w.coll.name id w.disk with
  | error e => rfl
  | ok doc? => cases doc? <;> rfl

/-- On the disk, the collection's `update` is the storage's `update`, whatever the outcome. -/
theorem update_disk (id : String) (upd : Doc) :
    (finalState (update s P now draw id upd w)).disk =
      finalState (s.update P now draw w.coll.name id upd w.disk) := by
  rw [update_apply, FileStorage.update_apply]
  cases s.find P now w.coll.name id w.disk with
  | error e => rfl
  | ok doc? =>
    cases doc? with
    | none => rfl
    | some doc =>
      simp only [bind_apply, EStateM.bind, World.onDisk]
      cases s.insert P now draw w.coll.name (Smap.insertAll doc upd) w.disk <;> rfl

/-- A successful `update` found the document and inserted it patched, or found nothing and
changed nothing. -/
theorem update_of_ok {id : String} {upd : Doc} {n : Int}
    (h : update s P now draw id upd w = .ok n w') :
    (n = 1 ∧ w'.coll = w.coll ∧ ∃ found, s.find P now w.coll.name id w.disk = .ok (some found) ∧
      s.insert P now draw w.coll.name (Smap.insertAll found upd) w.disk = .ok () w'.disk) ∨
    (n = 0 ∧ s.find P now w.coll.name id w.disk = .ok none ∧ w' = w) := by
  rw [update_apply] at h
  split at h
  · obtain ⟨_, _, h₁, h⟩ := bind_eq_ok.1 h
    obtain ⟨d, hd, rfl⟩ := World.onDisk_eq_ok.1 h₁
    cases h
    exact .inl ⟨rfl, rfl, _, ‹_›, hd⟩
  · cases h
    exact .inr ⟨rfl, ‹_›, rfl⟩
  · cases h

/-- A failed `update` failed to find the document and changed nothing, or failed to insert it
patched. -/
theorem update_of_error {id : String} {upd : Doc} {e : String}
    (h : update s P now draw id upd w = .error e w') :
    w'.coll = w.coll ∧ (w'.disk = w.disk ∨ ∃ found,
      s.find P now w.coll.name id w.disk = .ok (some found) ∧
      s.insert P now draw w.coll.name (Smap.insertAll found upd) w.disk = .error e w'.disk) := by
  rw [update_apply] at h
  split at h
  · rcases bind_eq_error.1 h with h₁ | ⟨_, _, -, h⟩
    · obtain ⟨d, hd, rfl⟩ := World.onDisk_eq_error.1 h₁
      exact ⟨rfl, .inr ⟨_, ‹_›, hd⟩⟩
    · cases h
  · cases h
  · cases h
    exact ⟨rfl, .inl rfl⟩

/-- A failed `delete` is a failed storage `delete`. -/
theorem delete_of_error {id e : String} (h : delete s id w = .error e w') :
    w'.coll = w.coll ∧ s.delete w.coll.name id w.disk = .error e w'.disk := by
  rcases bind_eq_error.1 h with h₀ | ⟨_, _, h₀, h⟩
  · cases h₀
  cases h₀
  rcases bind_eq_error.1 h with h₁ | ⟨_, _, -, h⟩
  · obtain ⟨d, hd, rfl⟩ := World.onDisk_eq_error.1 h₁
    exact ⟨rfl, hd⟩
  · cases h

end Spec

/-! ## The vector a write stores -/

/-- A collection created at time 0 on an empty disk, on a new network manager with peer id
`p`. -/
def freshWorld (name : String) : World := ⟨new name 0, Disk.empty, NetworkManager.new "p"⟩

/-- A second version of a document, inserted after the first, is stored with the same vector. -/
theorem reinsert_keeps_vector :
    ∃ w₁ w₂ f₁ f₂,
      insert FileStorage.sameHalvesStore tokenPrimitives 0 (fun _ => zeroDraw) "op1"
        [("id", .string "x"), ("n", .number 1)] (freshWorld "notes") =
        .ok [("id", .string "x"), ("n", .number 1)] w₁ ∧
      insert FileStorage.sameHalvesStore tokenPrimitives 0 (fun _ => zeroDraw) "op2"
        [("id", .string "x"), ("n", .number 2)] w₁ = .ok [("id", .string "x"), ("n", .number 2)] w₂ ∧
      w₁.disk.fileAt (FileStorage.sameHalvesStore.get_doc_path "notes" "x") =
        some (tokenPrimitives.toVecPretty (.object f₁)) ∧
      w₂.disk.fileAt (FileStorage.sameHalvesStore.get_doc_path "notes" "x") =
        some (tokenPrimitives.toVecPretty (.object f₂)) ∧
      Smap.get? f₁ "vector" = some (VectorClock.new.increment "p").toJson ∧
      Smap.get? f₂ "vector" = some (VectorClock.new.increment "p").toJson ∧
      (VectorClock.new.increment "p").compare (VectorClock.new.increment "p") = .Equal ∧
      ((Value.object f₁).index "payload").index "n" = .number 1 ∧
      ((Value.object f₂).index "payload").index "n" = .number 2 :=
  ⟨_, _, _, _, rfl, rfl, rfl, rfl, rfl, rfl, rfl, rfl, rfl⟩

/-- A successful `insert` stores the vector `{peer_id: 1}`, whatever was stored before; a
successful `update` stores the vector of the document it found, unless the patch sets one. -/
theorem local_writes_store_vector (s : FileStorage) (P : Primitives) (now : Int)
    (draw : String → Draw) (w w' : World) :
    (∀ op_id doc r, insert s P now draw op_id doc w = .ok r w' →
      ∃ final, w'.disk.fileAt (s.get_doc_path w.coll.name (wrap now w.net.peer_id doc).id) =
        some (P.toVecPretty (.object final)) ∧
        Smap.get? final "vector" = some (VectorClock.new.increment w.net.peer_id).toJson) ∧
    (∀ id upd, Smap.Sorted upd → update s P now draw id upd w = .ok 1 w' →
      ∃ found i final, s.find P now w.coll.name id w.disk = .ok (some found) ∧
        FileStorage.docId (Smap.insertAll found upd) = some i ∧
        w'.disk.fileAt (s.get_doc_path w.coll.name i) = some (P.toVecPretty (.object final)) ∧
        Smap.get? final "vector" = (Smap.get? upd "vector").or (Smap.get? found "vector")) := by
  refine ⟨fun op_id doc r h => ?_, fun id upd hs h => ?_⟩
  · obtain ⟨-, -, hins⟩ := insert_of_ok h
    obtain ⟨i, final, hi, hfile, hkeep⟩ := FileStorage.insert_stored hins
    rw [docId_toJson, Option.some.injEq] at hi
    subst hi
    refine ⟨final, hfile, ?_⟩
    rw [hkeep _ (by decide) (by decide) (by decide), DistributedDocument.get?_toJson_vector]
    rfl
  · rcases update_of_ok h with ⟨-, -, found, hf, hins⟩ | ⟨h0, -⟩
    · obtain ⟨i, final, hi, hfile, hkeep⟩ := FileStorage.insert_stored hins
      refine ⟨found, i, final, hf, hi, hfile, ?_⟩
      rw [hkeep _ (by decide) (by decide) (by decide), Smap.get?_insertAll,
        Smap.get?_reverse hs.nodup_keys]
    · cases h0

theorem local_writes_store_vector_notes :
    ∃ w₁, insert FileStorage.sameHalvesStore tokenPrimitives 0 (fun _ => zeroDraw) "op1"
        [("id", .string "x")] (freshWorld "notes") = .ok [("id", .string "x")] w₁ ∧
      ∃ final, w₁.disk.fileAt (FileStorage.sameHalvesStore.get_doc_path "notes" "x") =
        some (tokenPrimitives.toVecPretty (.object final)) ∧
        Smap.get? final "vector" = some (VectorClock.new.increment "p").toJson :=
  ⟨_, rfl, (local_writes_store_vector FileStorage.sameHalvesStore tokenPrimitives 0
    (fun _ => zeroDraw) (freshWorld "notes") _).1 "op1" [("id", .string "x")] _ rfl⟩

/-! ## Sensitive fields on disk -/

/-- A user document whose payload holds a password hash and salt. -/
def credentialDoc : Doc :=
  [("id", .string "u1"), ("payload", .object [("hash", .string "h"), ("salt", .string "s"),
    ("username", .string "alice")])]

/-- `insert` writes the caller's document under the stored document's payload, so the hash in
the caller's payload is written as given. -/
theorem nested_hash_stored_plain :
    ∃ w₁ final,
      insert FileStorage.sameHalvesStore tokenPrimitives 0 (fun _ => zeroDraw) "op" credentialDoc
        (freshWorld "credentials") = .ok credentialDoc w₁ ∧
      w₁.disk.fileAt (FileStorage.sameHalvesStore.get_doc_path "credentials" "u1") =
        some (tokenPrimitives.toVecPretty (.object final)) ∧
      (((Value.object final).index "payload").index "payload").index "hash" = .string "h" :=
  ⟨_, _, rfl, rfl, rfl⟩

/-- In a sensitive collection, `insert` writes each top-level field of the caller's document that
is not a mark under the stored payload: a sensitive one as an envelope under the master key, with
its mark unless the caller gave the mark a value, any other one as given. `update` writes each field
of the patch other than `payload` and the encryption fields at the top level, as given. -/
theorem sensitive_fields_on_disk (s : FileStorage) (P : Primitives) (now : Int)
    (draw : String → Draw) (w w' : World) (hc : FileStorage.is_encrypted_collection w.coll.name = true) :
    (∀ op_id doc r, Smap.Sorted doc → insert s P now draw op_id doc w = .ok r w' →
      ∃ final master E,
        w'.disk.fileAt (s.get_doc_path w.coll.name (wrap now w.net.peer_id doc).id) =
          some (P.toVecPretty (.object final)) ∧
        s.encryption_mgr.master_key = some master ∧ Smap.get? final "payload" = some (.object E) ∧
        ∀ k v, Smap.get? doc k = some v → endsWith k "_encrypted" = false →
          (FileStorage.is_sensitive_field w.coll.name k = true ∧
            (∃ e, s.encryption_mgr.encrypt_data P now (P.toVec v) master.id (draw k) = .ok e ∧
              Smap.get? E k = some (.string e)) ∧
            (Smap.get? doc (k ++ "_encrypted") = none →
              Smap.get? E (k ++ "_encrypted") = some (.bool true))) ∨
          (FileStorage.is_sensitive_field w.coll.name k = false ∧ Smap.get? E k = some v)) ∧
    (∀ id upd, Smap.Sorted upd → update s P now draw id upd w = .ok 1 w' →
      ∃ i final, w'.disk.fileAt (s.get_doc_path w.coll.name i) =
          some (P.toVecPretty (.object final)) ∧
        ∀ k v, Smap.get? upd k = some v → k ≠ "payload" → k ≠ "encrypted" →
          k ≠ "encryption_key_id" → Smap.get? final k = some v) := by
  refine ⟨fun op_id doc r hs h => ?_, fun id upd hs h => ?_⟩
  · obtain ⟨-, -, hins⟩ := insert_of_ok h
    have hp : Smap.get? (wrap now w.net.peer_id doc).toJson "payload" = some (.object doc) :=
      DistributedDocument.get?_toJson_payload _
    obtain ⟨i, final, master, E, hi, hfile, hm, hE, hfp⟩ :=
      FileStorage.insert_stored_payload hc (memoryPayload_toJson _) hp hins
    rw [docId_toJson, Option.some.injEq] at hi
    subst hi
    refine ⟨final, master, E, hfile, hm, hfp, fun k v hkv hk => ?_⟩
    have hmem := Smap.mem_of_get? hkv
    rcases FileStorage.get?_encrypt_payload_of_unmarked hs hE hmem hk with ⟨hsens, he⟩ | hplain
    · exact .inl ⟨hsens, he, FileStorage.get?_encrypt_payload_mark hs hE hmem hsens⟩
    · exact .inr hplain
  · rcases update_of_ok h with ⟨-, -, found, -, hins⟩ | ⟨h0, -⟩
    · obtain ⟨i, final, -, hfile, hkeep⟩ := FileStorage.insert_stored hins
      refine ⟨i, final, hfile, fun k v hkv h₁ h₂ h₃ => ?_⟩
      rw [hkeep k h₁ h₂ h₃, Smap.get?_insertAll, Smap.get?_reverse hs.nodup_keys, hkv]
      rfl
    · cases h0

/-- A user document with a password hash at its top level. -/
def hashDoc : Doc := [("hash", .string "h"), ("id", .string "u1")]

theorem sensitive_fields_on_disk_credentials :
    ∃ w₁, insert FileStorage.sameHalvesStore tokenPrimitives 0 (fun _ => zeroDraw) "op" hashDoc
        (freshWorld "credentials") = .ok hashDoc w₁ ∧
      ∃ final master E,
        w₁.disk.fileAt (FileStorage.sameHalvesStore.get_doc_path "credentials" "u1") =
          some (tokenPrimitives.toVecPretty (.object final)) ∧
        FileStorage.sameHalvesStore.encryption_mgr.master_key = some master ∧
        Smap.get? final "payload" = some (.object E) ∧
        ∀ k v, Smap.get? hashDoc k = some v → endsWith k "_encrypted" = false →
          (FileStorage.is_sensitive_field "credentials" k = true ∧
            (∃ e, FileStorage.sameHalvesStore.encryption_mgr.encrypt_data tokenPrimitives 0
              (tokenPrimitives.toVec v) master.id zeroDraw = .ok e ∧
              Smap.get? E k = some (.string e)) ∧
            (Smap.get? hashDoc (k ++ "_encrypted") = none →
              Smap.get? E (k ++ "_encrypted") = some (.bool true))) ∨
          (FileStorage.is_sensitive_field "credentials" k = false ∧ Smap.get? E k = some v) :=
  ⟨_, rfl, (sensitive_fields_on_disk FileStorage.sameHalvesStore tokenPrimitives 0
    (fun _ => zeroDraw) (freshWorld "credentials") _ (by decide)).1 "op" hashDoc _ (by decide) rfl⟩

/-! ## Failed writes -/

/-- The world after the network `n` is created, the collection `notes` attached to it, and the
network manager shut down. -/
def shutDownWorld : World :=
  finalState (World.onNet NetworkManager.shutdown
    (finalState (attach_to_network 0 "n"
      (finalState (World.onNet (NetworkManager.create_network (.ok ()) ⟨"n", "net", []⟩)
        (freshWorld "notes"))))))

/-- After `shutdown`, `insert` into an attached collection fails, and the document it reports
as not inserted is stored. -/
theorem failed_insert_keeps_document :
    ∃ w₁ w₂ w₃ w₄,
      World.onNet (NetworkManager.create_network (.ok ()) ⟨"n", "net", []⟩) (freshWorld "notes") =
        .ok "n" w₁ ∧
      attach_to_network 0 "n" w₁ = .ok () w₂ ∧
      World.onNet NetworkManager.shutdown w₂ = .ok () w₃ ∧
      insert FileStorage.sameHalvesStore tokenPrimitives 0 (fun _ => zeroDraw) "op"
        [("id", .string "x")] w₃ = .error "not initialized" w₄ ∧
      find FileStorage.sameHalvesStore tokenPrimitives 0 w₃ "x" = .ok none ∧
      ∃ stored, find FileStorage.sameHalvesStore tokenPrimitives 0 w₄ "x" = .ok (some stored) :=
  ⟨_, _, _, _, rfl, rfl, rfl, rfl, rfl, _, rfl⟩

/-- What a failed write may have changed. A storage `insert` may have added the directories on
the way to the blob directory, written the blob file of a `MEMORY` blob in full or in part, and
left the document file cut short; a storage `update` is a failed `insert` of the patched document
or changed nothing; a storage `delete` may have removed the document file. A collection `insert`
fails as the storage `insert` does, or after storing the whole document, when its broadcast fails
because the network manager is not initialized; no failed call changes the collection's fields. -/
theorem failed_writes_change (s : FileStorage) (P : Primitives) (now : Int) (draw : String → Draw) :
    (∀ collection doc d d' e, s.insert P now draw collection doc d = .error e d' →
      d.Leaves d' (s.dirKeys d.env.cwd collection)
        (s.InsertLeftover P now draw collection doc d.env.cwd)) ∧
    (∀ collection id upd d d' e, s.update P now draw collection id upd d = .error e d' →
      d' = d ∨ ∃ doc, s.find P now collection id d = .ok (some doc) ∧
        s.insert P now draw collection (Smap.insertAll doc upd) d = .error e d') ∧
    (∀ collection id d d' e, s.delete collection id d = .error e d' →
      d' = d ∨ d' = d.erase (d.key (s.get_doc_path collection id))) ∧
    (∀ op_id doc w w' e, insert s P now draw op_id doc w = .error e w' →
      w'.coll = w.coll ∧ (w.disk.Leaves w'.disk (s.dirKeys w.disk.env.cwd w.coll.name)
          (s.InsertLeftover P now draw w.coll.name (wrap now w.net.peer_id doc).toJson
            w.disk.env.cwd) ∨
        s.insert P now draw w.coll.name (wrap now w.net.peer_id doc).toJson w.disk = .ok () w'.disk ∧
          w.coll.network_id.isSome ∧ w.net.initialized = false ∧ e = "not initialized")) ∧
    (∀ id upd w w' e, update s P now draw id upd w = .error e w' →
      w'.coll = w.coll ∧ (w'.disk = w.disk ∨ ∃ found,
        s.find P now w.coll.name id w.disk = .ok (some found) ∧
        s.insert P now draw w.coll.name (Smap.insertAll found upd) w.disk = .error e w'.disk)) ∧
    (∀ id w w' e, delete s id w = .error e w' →
      w'.coll = w.coll ∧ (w'.disk = w.disk ∨
        w'.disk = w.disk.erase (w.disk.key (s.get_doc_path w.coll.name id)))) :=
  ⟨fun _ _ _ _ _ h => FileStorage.insert_leaves_of_error h,
    fun _ _ _ _ _ _ h => FileStorage.update_of_error h,
    fun _ _ _ _ _ h => FileStorage.delete_of_error h,
    fun _ _ _ _ _ h => insert_of_error h,
    fun _ _ _ _ _ h => update_of_error h,
    fun _ _ _ _ h => ⟨(delete_of_error h).1, FileStorage.delete_of_error (delete_of_error h).2⟩⟩

theorem failed_writes_change_after_shutdown :
    ∃ w', insert FileStorage.sameHalvesStore tokenPrimitives 0 (fun _ => zeroDraw) "op"
        [("id", .string "x")] shutDownWorld = .error "not initialized" w' ∧
      w'.coll = shutDownWorld.coll ∧ (shutDownWorld.disk.Leaves w'.disk
          (FileStorage.sameHalvesStore.dirKeys shutDownWorld.disk.env.cwd "notes")
          (FileStorage.sameHalvesStore.InsertLeftover tokenPrimitives 0 (fun _ => zeroDraw) "notes"
            (wrap 0 "p" [("id", .string "x")]).toJson shutDownWorld.disk.env.cwd) ∨
        FileStorage.sameHalvesStore.insert tokenPrimitives 0 (fun _ => zeroDraw) "notes"
          (wrap 0 "p" [("id", .string "x")]).toJson shutDownWorld.disk = .ok () w'.disk ∧
          shutDownWorld.coll.network_id.isSome ∧ shutDownWorld.net.initialized = false ∧
          "not initialized" = "not initialized") :=
  ⟨_, rfl, (failed_writes_change FileStorage.sameHalvesStore tokenPrimitives 0
    (fun _ => zeroDraw)).2.2.2.1
    "op" _ shutDownWorld _ _ rfl⟩

end DistributedCollection

end Knirvbase
