import Knirvbase.Replication
import Knirvbase.Listing

/-!
# The database

`DistributedDatabase` (`database.rs`) registers one `DistributedCollection` per name, all over one
storage and one network manager; `DB` (`lib.rs`) checks the names it is given and hands out a
`CollectionAdapter` per collection, whose calls run on the registered collection with the shared
disk and manager. `KNIRVQLParser::parse` and `Query::execute` (`query.rs`) answer a `GET` query
with the collection's `find_all`.

A run of the database interleaves registrations, the collections' calls through their adapters,
and calls of the shared manager through `raw_network` together with the handshakes of bootstrap
dials (`DbOp`, `run`).

1. The manager part of every run is a run of the manager (`net_run`), so everything that holds of
   every manager run holds of the database's manager (`new_run_consistent`).
2. The manager steps of a collection's call write only announcements and inserts
   (`Footprint`, `net_step_sends`), so a run without raw sends replicates nothing else
   (`only_inserts_replicated`).
3. Each collection is registered under its own name and stays registered (`RegistryConsistent`,
   `registered_run`): an adapter's collection is always there, with the network id of its last
   attach or detach (`entry_step`, `network_id_of_last_attach`).
-/

set_option autoImplicit false

namespace Knirvbase

/-- `DistributedDatabase`: the registered collections by name, the disk of the storage they share
and the network manager they share. -/
structure DistributedDatabase where
  collections : List (String × DistributedCollection)
  disk : Disk
  net : NetworkManager
  distributed : Bool

/-- A call of the database. -/
abbrev DbM := EStateM String DistributedDatabase

namespace DistributedDatabase

/-- `NewDistributedDatabase`: the network is initialized first; `bound` is the outcome of binding
its listener. -/
def new (enabled : Bool) (bound : Except String Unit) (disk : Disk) (network : NetworkManager) :
    Except String DistributedDatabase :=
  match NetworkManager.initialize_listener bound network with
  | .ok () m => .ok ⟨[], disk, m, enabled⟩
  | .error e _ => .error e

/-- The database with `c` registered under `name`. -/
def register (db : DistributedDatabase) (name : String) (c : DistributedCollection) :
    DistributedDatabase :=
  { db with collections := Smap.insert name c db.collections }

/-- `collection`: the collection registered under `name`, registered first, as created at `now`,
when there is none (`entry(..).or_insert_with`). -/
def collection (now : Int) (name : String) : DbM DistributedCollection := fun db =>
  match Smap.get? db.collections name with
  | some c => .ok c db
  | none =>
    let c := DistributedCollection.new name now
    .ok c (db.register name c)

/-- A call of the shared network manager. -/
def onNet {α : Type} (x : NetM α) : DbM α := fun db =>
  match x db.net with
  | .ok a m => .ok a { db with net := m }
  | .error e m => .error e { db with net := m }

/-- `CreateNetwork`. -/
def create_network (bound : Except String Unit) (cfg : NetworkConfig) : DbM String :=
  onNet (NetworkManager.create_network bound cfg)

/-- `JoinNetwork`. -/
def join_network (bound : Except String Unit) (network_id : String)
    (bootstrap_peers : List String) : DbM Unit :=
  onNet (NetworkManager.join_network bound network_id bootstrap_peers)

/-- `LeaveNetwork`. -/
def leave_network (network_id : String) : DbM Unit :=
  onNet (NetworkManager.leave_network network_id)

/-- `Shutdown`. -/
def shutdown : DbM Unit := onNet NetworkManager.shutdown

/-- The database after a call of the collection registered under `name` left the world `w`. -/
def absorb (db : DistributedDatabase) (name : String) (w : World) : DistributedDatabase :=
  { db with collections := Smap.insert name w.coll db.collections, disk := w.disk, net := w.net }

/-- A call of the collection registered under `name`: what the lock of its handle gives it, the
collection itself with the shared disk and manager. Nothing unregisters a collection
(`registered_run`), so a handle always finds its collection; without one, nothing runs. -/
def onCollection {α : Type} (name : String) (x : CollM α) : DbM α := fun db =>
  match Smap.get? db.collections name with
  | some c =>
    match x ⟨c, db.disk, db.net⟩ with
    | .ok a w => .ok a (db.absorb name w)
    | .error e w => .error e (db.absorb name w)
  | none => .error "collection not registered" db

end DistributedDatabase

/-! ## `lib.rs` -/

/-- `Options`: the fields `DB::new` reads. -/
structure Options where
  data_dir : String
  distributed_enabled : Bool

/-- `DB`: the database and the storage its collections share. -/
structure DB where
  db : DistributedDatabase
  storage : FileStorage

/-- `CollectionAdapter`: the handle of a registered collection, known by its name. -/
structure CollectionAdapter where
  c : String

namespace DB

/-- `DB::new`: the data directory must be named; `FileStorage::new` creates it, and the database
initializes a new network manager. `peer_id` is the manager's drawn UUID and `bound` the outcome of
binding its listener. -/
def new (opts : Options) (peer_id : String) (bound : Except String Unit) (disk : Disk) :
    Except String DB :=
  if opts.data_dir.isEmpty then .error "DataDir cannot be empty"
  else
    match Disk.createDirAll opts.data_dir disk with
    | .error e _ => .error e
    | .ok () disk => do
      let db ← DistributedDatabase.new opts.distributed_enabled bound disk
        (NetworkManager.new peer_id)
      pure ⟨db, ⟨opts.data_dir, EncryptionManager.new⟩⟩

/-- `Collection`: a handle on the collection registered under a non-empty `name`. -/
def collection (now : Int) (name : String) : DbM CollectionAdapter :=
  if name.isEmpty then throw "collection name cannot be empty"
  else do
    let _ ← DistributedDatabase.collection now name
    pure ⟨name⟩

end DB

namespace CollectionAdapter

variable (s : FileStorage) (P : Primitives) (a : CollectionAdapter)

/-- `insert`, with the empty context. -/
def insert (now : Int) (draw : String → Draw) (op_id : String) (doc : Doc) : DbM Doc :=
  DistributedDatabase.onCollection a.c (DistributedCollection.insert s P now draw op_id doc)

/-- `update`. -/
def update (now : Int) (draw : String → Draw) (id : String) (upd : Doc) : DbM Int :=
  DistributedDatabase.onCollection a.c (DistributedCollection.update s P now draw id upd)

/-- `delete`. -/
def delete (id : String) : DbM Int :=
  DistributedDatabase.onCollection a.c (DistributedCollection.delete s id)

/-- `attach_to_network`. -/
def attach_to_network (now : Int) (network_id : String) : DbM Unit :=
  DistributedDatabase.onCollection a.c (DistributedCollection.attach_to_network now network_id)

/-- `detach_from_network`. -/
def detach_from_network : DbM Unit :=
  DistributedDatabase.onCollection a.c DistributedCollection.detach_from_network

/-- `force_sync`. -/
def force_sync (now : Int) : DbM Unit :=
  DistributedDatabase.onCollection a.c (DistributedCollection.force_sync now)

/-- `find`, on the registered collection. -/
def find (now : Int) (id : String) (db : DistributedDatabase) : Except String (Option Doc) :=
  match Smap.get? db.collections a.c with
  | some c => DistributedCollection.find s P now ⟨c, db.disk, db.net⟩ id
  | none => .error "collection not registered"

/-- `find_all`, on the registered collection; `order` is the order in which `read_dir` yields the
entries. -/
def find_all (now : Int) (order : List String → List String) (db : DistributedDatabase) :
    Except String (List Doc) :=
  match Smap.get? db.collections a.c with
  | some c => DistributedCollection.find_all s P now order ⟨c, db.disk, db.net⟩
  | none => .error "collection not registered"

end CollectionAdapter

/-! ## `query.rs` -/

/-- `QueryType`. -/
inductive QueryType
  | Get
  | Set
  | Insert
  | Update
  | Delete
  deriving DecidableEq

/-- `Query`. -/
structure Query where
  query_type : QueryType
  collection : String
  conditions : List (String × Value)

/-- `KNIRVQLParser::parse`: a query starting with `GET ` is a `Get` of the collection `default`,
whatever follows. -/
def KNIRVQLParser.parse (query_str : String) : Except String Query :=
  if query_str.startsWith "GET " then .ok ⟨.Get, "default", []⟩
  else .error "unsupported query type"

/-- `Query::execute` on a collection: a `Get` returns its `find_all` as a JSON array; the query's
own collection and conditions are not read. -/
def Query.execute (q : Query) (s : FileStorage) (P : Primitives) (now : Int)
    (order : List String → List String) (collection : World) : Except String Value :=
  match q.query_type with
  | .Get => do
    let docs ← DistributedCollection.find_all s P now order collection
    pure (.array (docs.map .object))
  | _ => .error "query type not implemented"

/-! ## What a collection call can do outside the disk -/

/-- A message a collection writes for the peer `peer_id`: sent by `peer_id`, it announces a
collection, or carries the insert of a document by `peer_id`. -/
def ProtocolMessage.AnnounceOrInsert (peer_id : String) (msg : ProtocolMessage) : Prop :=
  msg.sender_id = peer_id ∧ (msg.msg_type = .CollectionAnnounce ∨ msg.msg_type = .Operation ∧
    ∃ op : CRDTOperation, op.op_type = .Insert ∧ op.peer_id = peer_id ∧ msg.payload = op.toJson)

namespace DistributedCollection

/-- What a call of a collection can do to its world outside the disk: the manager moves by a run
of manager steps that write only announcements and inserts, and the collection keeps its name,
and its network id unless the call sets it (`t = some n`, whatever the call returns). -/
structure Footprint {α : Type} (t : Option (Option String)) (x : CollM α) : Prop where
  net : ∀ w, ∃ nops, (∀ o ∈ nops, ∀ msg, o.Sends w.net.peer_id msg →
    msg.AnnounceOrInsert w.net.peer_id) ∧ (finalState (x w)).net = NetworkManager.run w.net nops
  name : ∀ w, (finalState (x w)).coll.name = w.coll.name
  network_id : ∀ w, (finalState (x w)).coll.network_id = t.getD w.coll.network_id

variable {s : FileStorage} {P : Primitives} {now : Int} {draw : String → Draw}

/-- A network call followed by a result moves the manager as the call does. -/
theorem net_onNet_then {α β : Type} (y : NetM β) (a : α) (w : World) :
    (finalState ((World.onNet y >>= fun _ => pure a) w)).net = finalState (y w.net) := by
  simp only [bind_apply, EStateM.bind, World.onNet]
  cases y w.net <;> rfl

/-- `insert` leaves the collection as it was, whatever it returns. -/
theorem insert_coll (op_id : String) (doc : Doc) (w : World) :
    (finalState (insert s P now draw op_id doc w)).coll = w.coll := by
  cases h : insert s P now draw op_id doc w with
  | ok r w' => exact (insert_of_ok h).2.1
  | error e w' => exact (insert_of_error h).1

/-- `update` leaves the collection as it was, whatever it returns. -/
theorem update_coll (id : String) (upd : Doc) (w : World) :
    (finalState (update s P now draw id upd w)).coll = w.coll := by
  cases h : update s P now draw id upd w with
  | ok n w' =>
    rcases update_of_ok h with ⟨-, hc, -⟩ | ⟨-, -, rfl⟩
    · exact hc
    · rfl
  | error e w' => exact (update_of_error h).1

/-- `delete` leaves the collection as it was, whatever it returns. -/
theorem delete_coll (id : String) (w : World) : (finalState (delete s id w)).coll = w.coll := by
  simp only [delete, bind_apply, EStateM.bind, get_apply, World.onDisk]
  cases s.delete w.coll.name id w.disk <;> rfl

theorem insert_footprint (op_id : String) (doc : Doc) :
    Footprint none (insert s P now draw op_id doc) where
  net w := by
    simp only [insert, bind_apply, EStateM.bind, get_apply, World.onDisk]
    cases s.insert P now draw w.coll.name (wrap now w.net.get_peer_id doc).toJson w.disk with
    | error e d => exact ⟨[], nofun, rfl⟩
    | ok u d =>
      dsimp only
      cases w.coll.network_id with
      | none => exact ⟨[], nofun, rfl⟩
      | some n =>
        refine ⟨[.broadcast_message n _], fun o ho msg hs => ?_, net_onNet_then _ _ _⟩
        rw [List.mem_singleton.1 ho] at hs
        exact hs ▸ ⟨rfl, .inr ⟨rfl, _, rfl, rfl, rfl⟩⟩
  name w := congrArg DistributedCollection.name (insert_coll op_id doc w)
  network_id w := congrArg DistributedCollection.network_id (insert_coll op_id doc w)

theorem update_footprint (id : String) (upd : Doc) :
    Footprint none (update s P now draw id upd) where
  net _ := ⟨[], nofun, update_net id upd⟩
  name w := congrArg DistributedCollection.name (update_coll id upd w)
  network_id w := congrArg DistributedCollection.network_id (update_coll id upd w)

theorem delete_footprint (id : String) : Footprint none (delete s id) where
  net _ := ⟨[], nofun, delete_net id⟩
  name w := congrArg DistributedCollection.name (delete_coll id w)
  network_id w := congrArg DistributedCollection.network_id (delete_coll id w)

/-- An attach sets the network id, also when the manager's call fails. -/
theorem attach_footprint (network_id : String) :
    Footprint (some (some network_id)) (attach_to_network now network_id) where
  net w := ⟨[.add_collection_to_network now network_id w.coll.name], fun o ho msg hs => by
    rw [List.mem_singleton.1 ho] at hs
    exact hs ▸ ⟨rfl, .inl rfl⟩, net_attach now network_id w⟩
  name w := name_step (w := w) (.attach_to_network now network_id)
  network_id w := by
    rw [attach_apply]
    cases NetworkManager.add_collection_to_network now network_id w.coll.name w.net <;> rfl

theorem detach_footprint : Footprint (some none) detach_from_network where
  net w := by
    simp only [detach_apply, finalState_ok]
    cases w.coll.network_id with
    | none => exact ⟨[], nofun, rfl⟩
    | some network_id =>
      refine ⟨[.remove_collection_from_network network_id w.coll.name], fun o ho msg hs => ?_, rfl⟩
      rw [List.mem_singleton.1 ho] at hs
      exact hs.elim
  name w := name_step (w := w) .detach_from_network
  network_id w := by rw [detach_apply]; rfl

theorem force_sync_footprint : Footprint none (force_sync now) where
  net _ := ⟨[], nofun, rfl⟩
  name _ := rfl
  network_id _ := rfl

end DistributedCollection

/-! ## Runs -/

/-- A step of the database: a registration through `DB::collection`, a call through the handle of
the collection registered under `name`, or a step of the shared manager (a call through
`raw_network`, or the handshake of a bootstrap dial). -/
inductive DbOp
  | collection (now : Int) (name : String)
  | insert (name : String) (now : Int) (draw : String → Draw) (op_id : String) (doc : Doc)
  | update (name : String) (now : Int) (draw : String → Draw) (id : String) (upd : Doc)
  | delete (name id : String)
  | attach_to_network (name : String) (now : Int) (network_id : String)
  | detach_from_network (name : String)
  | force_sync (name : String) (now : Int)
  | net (o : NetworkManager.NetOp)

/-- A raw broadcast or send through the shared manager: a step that writes a message of the
caller's choosing. -/
def DbOp.RawSend : DbOp → Prop
  | .net (.broadcast_message _ _) => True
  | .net (.send_to_peer _ _ _ _) => True
  | _ => False

/-- What a step sets the network id of the collection registered under `name` to: the network of
an attach, none for a detach, whatever the call returns. -/
def DbOp.attachment (name : String) : DbOp → Option (Option String)
  | .attach_to_network k _ network_id => if k = name then some (some network_id) else none
  | .detach_from_network k => if k = name then some none else none
  | _ => none

/-- Every other manager step writes only announcements of collections. -/
theorem DbOp.announceOrInsert_of_sends {no : NetworkManager.NetOp} (ho : ¬ (DbOp.net no).RawSend)
    {peer_id : String} {msg : ProtocolMessage} (h : no.Sends peer_id msg) :
    msg.AnnounceOrInsert peer_id := by
  cases no with
  | add_collection_to_network => exact h ▸ ⟨rfl, .inl rfl⟩
  | broadcast_message => exact (ho trivial).elim
  | send_to_peer => exact (ho trivial).elim
  | _ => exact h.elim

namespace DistributedDatabase

variable (s : FileStorage) (P : Primitives)

/-- One step. -/
def step (db : DistributedDatabase) : DbOp → DistributedDatabase
  | .collection now name => finalState (DB.collection now name db)
  | .insert name now draw op_id doc =>
    finalState ((⟨name⟩ : CollectionAdapter).insert s P now draw op_id doc db)
  | .update name now draw id upd =>
    finalState ((⟨name⟩ : CollectionAdapter).update s P now draw id upd db)
  | .delete name id => finalState ((⟨name⟩ : CollectionAdapter).delete s id db)
  | .attach_to_network name now network_id =>
    finalState ((⟨name⟩ : CollectionAdapter).attach_to_network now network_id db)
  | .detach_from_network name => finalState ((⟨name⟩ : CollectionAdapter).detach_from_network db)
  | .force_sync name now => finalState ((⟨name⟩ : CollectionAdapter).force_sync now db)
  | .net o => { db with net := db.net.step o }

/-- The database after a run of steps. -/
def run (db : DistributedDatabase) (ops : List DbOp) : DistributedDatabase :=
  ops.foldl (step s P) db

/-- Each step of the run satisfies `Q` at the state it starts from. -/
def EachStep (Q : DistributedDatabase → DbOp → Prop) : DistributedDatabase → List DbOp → Prop
  | _, [] => True
  | db, o :: ops => Q db o ∧ EachStep Q (step s P db o) ops

variable {s P}

/-- What every step keeps from a state where its condition holds, every run keeps. -/
theorem EachStep.invariant {I : DistributedDatabase → Prop} {Q : DistributedDatabase → DbOp → Prop}
    (hstep : ∀ db o, I db → Q db o → I (step s P db o)) {db : DistributedDatabase}
    {ops : List DbOp} (h : I db) (hops : EachStep s P Q db ops) : I (run s P db ops) := by
  induction ops generalizing db with
  | nil => exact h
  | cons o ops ih => exact ih (hstep db o h hops.1) hops.2

theorem EachStep.of_forall {R : DbOp → Prop} {ops : List DbOp} (h : ∀ o ∈ ops, R o)
    (db : DistributedDatabase) : EachStep s P (fun _ o => R o) db ops := by
  induction ops generalizing db with
  | nil => trivial
  | cons o ops ih => exact ⟨h o (.head _), ih (fun o' h' => h o' (.tail _ h')) _⟩

/-- What every step keeps, every run keeps. -/
theorem run_of_step {I : DistributedDatabase → Prop} (hstep : ∀ db o, I db → I (step s P db o))
    {db : DistributedDatabase} (h : I db) (ops : List DbOp) : I (run s P db ops) :=
  EachStep.invariant (Q := fun _ _ => True) (fun db o h _ => hstep db o h) h
    (EachStep.of_forall (fun _ _ => trivial) db)

/-! ## What a collection call can do to the database -/

variable {α : Type} {x : CollM α} {db : DistributedDatabase} {name : String}

theorem onCollection_final (name : String) (x : CollM α) (db : DistributedDatabase) :
    finalState (onCollection name x db) =
      match Smap.get? db.collections name with
      | some c => db.absorb name (finalState (x ⟨c, db.disk, db.net⟩))
      | none => db := by
  unfold onCollection
  cases Smap.get? db.collections name with
  | none => rfl
  | some c => dsimp only; cases x ⟨c, db.disk, db.net⟩ <;> rfl

theorem collection_final (now : Int) (name : String) (db : DistributedDatabase) :
    finalState (DB.collection now name db) =
      if name.isEmpty then db
      else match Smap.get? db.collections name with
        | some _ => db
        | none => db.register name (DistributedCollection.new name now) := by
  unfold DB.collection
  split_ifs
  · rfl
  · simp only [bind_apply, EStateM.bind, DistributedDatabase.collection]
    cases Smap.get? db.collections name <;> rfl

/-- The three kinds of step: a registration, a call of a registered collection, whose footprint is
known, and a step of the manager. -/
theorem step_cases (db : DistributedDatabase) : ∀ o : DbOp,
    (∃ now name, o = .collection now name ∧
      step s P db o = finalState (DB.collection now name db)) ∨
    (∃ (α : Type) (name : String) (x : CollM α) (t : Option (Option String)),
      DistributedCollection.Footprint t x ∧ (∀ k, o.attachment k = if name = k then t else none) ∧
      step s P db o = finalState (onCollection name x db)) ∨
    ∃ no, o = .net no ∧ step s P db o = { db with net := db.net.step no }
  | .collection now name => .inl ⟨now, name, rfl, rfl⟩
  | .insert name _ _ op_id doc => .inr (.inl ⟨_, name, _, _,
    DistributedCollection.insert_footprint op_id doc, fun _ => (ite_self _).symm, rfl⟩)
  | .update name _ _ id upd => .inr (.inl ⟨_, name, _, _,
    DistributedCollection.update_footprint id upd, fun _ => (ite_self _).symm, rfl⟩)
  | .delete name id => .inr (.inl ⟨_, name, _, _,
    DistributedCollection.delete_footprint id, fun _ => (ite_self _).symm, rfl⟩)
  | .attach_to_network name _ network_id => .inr (.inl ⟨_, name, _, _,
    DistributedCollection.attach_footprint network_id, fun _ => rfl, rfl⟩)
  | .detach_from_network name => .inr (.inl ⟨_, name, _, _,
    DistributedCollection.detach_footprint, fun _ => rfl, rfl⟩)
  | .force_sync name _ => .inr (.inl ⟨_, name, _, _,
    DistributedCollection.force_sync_footprint, fun _ => (ite_self _).symm, rfl⟩)
  | .net o => .inr (.inr ⟨o, rfl, rfl⟩)

/-! ## The manager under the database -/

/-- A registration changes neither the disk nor the manager. -/
theorem collection_final_frame (now : Int) (name : String) (db : DistributedDatabase) :
    (finalState (DB.collection now name db)).disk = db.disk ∧
      (finalState (DB.collection now name db)).net = db.net := by
  rw [collection_final]
  split_ifs
  · exact ⟨rfl, rfl⟩
  · split <;> exact ⟨rfl, rfl⟩

/-- What a step does to the manager: a run of manager steps, each of which writes only
announcements and inserts unless it is the step itself, a step of the manager. -/
theorem net_step_sends (db : DistributedDatabase) (o : DbOp) :
    ∃ nops, (∀ no ∈ nops, ∀ msg, no.Sends db.net.peer_id msg →
      msg.AnnounceOrInsert db.net.peer_id ∨ o = .net no) ∧
      (step s P db o).net = NetworkManager.run db.net nops := by
  rcases step_cases (s := s) (P := P) db o with ⟨now, name, -, h⟩ | ⟨α, name, x, t, hx, -, h⟩ |
    ⟨no, rfl, h⟩ <;> rw [h]
  · exact ⟨[], nofun, (collection_final_frame now name db).2⟩
  · rw [onCollection_final]
    split
    · exact (hx.net _).imp fun _ h => ⟨fun no hno msg hs => .inl (h.1 no hno msg hs), h.2⟩
    · exact ⟨[], nofun, rfl⟩
  · exact ⟨[no], fun _ hno _ _ => .inr (by rw [List.mem_singleton.1 hno]), rfl⟩

/-- Each step of the database is a run of the manager. -/
theorem net_step (db : DistributedDatabase) (o : DbOp) :
    ∃ nops, (step s P db o).net = NetworkManager.run db.net nops :=
  (net_step_sends db o).imp fun _ h => h.2

/-- The manager part of a run of the database is a run of the manager. -/
theorem net_run (ops : List DbOp) : ∃ nops, (run s P db ops).net = NetworkManager.run db.net nops := by
  induction ops generalizing db with
  | nil => exact ⟨[], rfl⟩
  | cons o ops ih =>
    obtain ⟨n₁, h₁⟩ := net_step (s := s) (P := P) db o
    obtain ⟨n₂, h₂⟩ := @ih (step s P db o)
    refine ⟨n₁ ++ n₂, ?_⟩
    rw [NetworkManager.run, List.foldl_append]
    show (run s P (step s P db o) ops).net = NetworkManager.run (NetworkManager.run db.net n₁) n₂
    rw [← h₁]
    exact h₂

/-! ## What the database sends -/

/-- A step other than a raw send keeps the peer id and appends to the log only announcements and
inserts of that peer. -/
theorem sent_step (db : DistributedDatabase) (o : DbOp) (ho : ¬ o.RawSend) :
    (step s P db o).net.peer_id = db.net.peer_id ∧ ∃ new, (step s P db o).net.sent =
      db.net.sent ++ new ∧ ∀ e ∈ new, e.2.AnnounceOrInsert db.net.peer_id := by
  obtain ⟨nops, hQ, hnet⟩ := net_step_sends (s := s) (P := P) db o
  rw [hnet]
  exact NetworkManager.run_sends nops fun no hno msg hs =>
    (hQ no hno msg hs).elim id fun e => DbOp.announceOrInsert_of_sends (e ▸ ho) hs

/-- Over every run without a raw broadcast or send, each message the database writes is sent under
its peer id and announces a collection or carries the insert of a document by that peer: an
update or a delete is never sent to another peer. -/
theorem only_inserts_replicated (db : DistributedDatabase) (ops : List DbOp)
    (hops : ∀ o ∈ ops, ¬ o.RawSend) :
    ∃ new, (run s P db ops).net.sent = db.net.sent ++ new ∧
      ∀ e ∈ new, e.2.AnnounceOrInsert db.net.peer_id := by
  refine (EachStep.invariant (I := fun db' => db'.net.peer_id = db.net.peer_id ∧ ∃ new,
    db'.net.sent = db.net.sent ++ new ∧ ∀ e ∈ new, e.2.AnnounceOrInsert db.net.peer_id) ?_
    ⟨rfl, [], (List.append_nil _).symm, nofun⟩ (EachStep.of_forall hops db)).2
  rintro db' o ⟨hpid, new, hs, hn⟩ ho
  obtain ⟨hpid', new', hs', hn'⟩ := sent_step (s := s) (P := P) db' o ho
  refine ⟨hpid'.trans hpid, new ++ new', by rw [hs', hs, List.append_assoc], fun e he => ?_⟩
  rcases List.mem_append.1 he with he | he
  · exact hn e he
  · exact hpid ▸ hn' e he

/-- The database `DistributedDatabase::new` starts from, over an empty disk. -/
def emptyDb : DistributedDatabase := ⟨[], Disk.empty, NetworkManager.new "p", false⟩

/-- `notes` attached to network `n` whose manager has completed a handshake with `q`, then an
insert, an update and a delete of `x`. -/
def replicaRun : List DbOp :=
  [.collection 0 "notes", .net (.create_network (.ok ()) ⟨"n", "net", []⟩),
    .attach_to_network "notes" 0 "n", .net (.join_network (.ok ()) "n" ["addr"]),
    .net (.handshake "addr" "q"), .insert "notes" 0 (fun _ => zeroDraw) "op1" [("id", .string "x")],
    .update "notes" 0 (fun _ => zeroDraw) "x" [("n", .number 2)], .delete "notes" "x"]

theorem only_inserts_replicated_replica :
    (∀ o ∈ replicaRun, ¬ o.RawSend) ∧
      ∃ new, (run FileStorage.sameHalvesStore tokenPrimitives emptyDb replicaRun).net.sent =
        emptyDb.net.sent ++ new ∧ ∀ e ∈ new, e.2.AnnounceOrInsert emptyDb.net.peer_id :=
  have h : ∀ o ∈ replicaRun, ¬ o.RawSend := by simp [replicaRun, DbOp.RawSend]
  ⟨h, only_inserts_replicated emptyDb replicaRun h⟩

/-! ## The registry -/

/-- Each registered collection is registered under its own name. -/
def RegistryConsistent (db : DistributedDatabase) : Prop :=
  ∀ k c, Smap.get? db.collections k = some c → c.name = k

/-- A collection is registered under `name`. -/
def Registered (db : DistributedDatabase) (name : String) : Prop :=
  (Smap.get? db.collections name).isSome

/-- Registering a collection under its own name keeps the registry consistent. -/
theorem RegistryConsistent.insert (h : RegistryConsistent db) {c : DistributedCollection}
    (hc : c.name = name) {db' : DistributedDatabase}
    (hcol : db'.collections = Smap.insert name c db.collections) : RegistryConsistent db' :=
  fun k c' hk => by
    rw [hcol, Smap.get?_insert] at hk
    split_ifs at hk with e
    · cases hk
      exact hc.trans e
    · exact h k c' hk

theorem Registered.insert {k : String} (h : Registered db k) {c : DistributedCollection}
    {db' : DistributedDatabase} (hcol : db'.collections = Smap.insert name c db.collections) :
    Registered db' k := by
  unfold Registered at h ⊢
  rw [hcol, Smap.get?_insert]
  split_ifs <;> simp [h]

theorem RegistryConsistent.step (h : RegistryConsistent db) (o : DbOp) :
    RegistryConsistent (step s P db o) := by
  rcases step_cases (s := s) (P := P) db o with ⟨now, name, -, e⟩ | ⟨α, name, x, t, hx, -, e⟩ |
    ⟨no, -, e⟩ <;> rw [e]
  · rw [collection_final]
    split_ifs
    · exact h
    · split
      · exact h
      · exact h.insert (c := DistributedCollection.new name now) rfl rfl
  · rw [onCollection_final]
    split
    · exact h.insert ((hx.name _).trans (h _ _ ‹_›)) rfl
    · exact h
  · exact h

theorem RegistryConsistent.run (h : RegistryConsistent db) (ops : List DbOp) :
    RegistryConsistent (run s P db ops) :=
  run_of_step (fun _ o h => h.step o) h ops

/-- A registration keeps every registered collection. -/
theorem get?_collection_final (now : Int) (name : String) {k : String} {c : DistributedCollection}
    (hc : Smap.get? db.collections k = some c) :
    Smap.get? (finalState (DB.collection now name db)).collections k = some c := by
  rw [collection_final]
  split_ifs
  · exact hc
  split
  · exact hc
  next hnone =>
  simp only [register, Smap.get?_insert]
  rw [if_neg (by rintro rfl; rw [hc] at hnone; cases hnone)]
  exact hc

/-- A call of the collection registered under `name` changes that entry only, to the collection
the call leaves. -/
theorem get?_onCollection_final (name : String) (x : CollM α) (db : DistributedDatabase)
    (k : String) :
    Smap.get? (finalState (onCollection name x db)).collections k =
      if name = k then (Smap.get? db.collections k).map fun c =>
        (finalState (x ⟨c, db.disk, db.net⟩)).coll
      else Smap.get? db.collections k := by
  rw [onCollection_final]
  cases h : Smap.get? db.collections name with
  | none =>
    split_ifs with e
    · rw [← e, h]
      rfl
    · rfl
  | some c =>
    simp only [absorb, Smap.get?_insert]
    split_ifs with e
    · rw [← e, h]
      rfl
    · rfl

/-- A step keeps every registered collection, with its name, and with its network id unless the
step is an attach or a detach of it. -/
theorem entry_step (o : DbOp) {k : String} {c : DistributedCollection}
    (hc : Smap.get? db.collections k = some c) :
    ∃ c', Smap.get? (step s P db o).collections k = some c' ∧ c'.name = c.name ∧
      c'.network_id = (o.attachment k).getD c.network_id := by
  rcases step_cases (s := s) (P := P) db o with ⟨now, name, rfl, e⟩ | ⟨α, name, x, t, hx, ht, e⟩ |
    ⟨no, rfl, e⟩ <;> rw [e]
  · exact ⟨c, get?_collection_final now name hc, rfl, rfl⟩
  · rw [get?_onCollection_final, ht]
    split_ifs
    · rw [hc]
      exact ⟨_, rfl, hx.name _, hx.network_id _⟩
    · exact ⟨c, hc, rfl, rfl⟩
  · exact ⟨c, hc, rfl, rfl⟩

theorem Registered.step {k : String} (h : Registered db k) (o : DbOp) :
    Registered (step s P db o) k := by
  obtain ⟨c, hc⟩ := Option.isSome_iff_exists.1 h
  obtain ⟨c', hc', -⟩ := entry_step (s := s) (P := P) o hc
  exact Option.isSome_iff_exists.2 ⟨c', hc'⟩

theorem Registered.run {k : String} (h : Registered db k) (ops : List DbOp) :
    Registered (run s P db ops) k :=
  run_of_step (I := (Registered · k)) (fun _ o h => h.step o) h ops

theorem registered_of_collection {now : Int} {c : DistributedCollection}
    {db' : DistributedDatabase} (h : DistributedDatabase.collection now name db = .ok c db') :
    Registered db' name := by
  unfold DistributedDatabase.collection at h
  unfold Registered
  split at h <;> cases h <;> simp_all [register]

/-- A handle that `DB::collection` hands out is for the name it was asked for, and finds its
collection in every later state of the database: nothing unregisters a collection. -/
theorem registered_run {now : Int} {a : CollectionAdapter} {db' : DistributedDatabase}
    (h : DB.collection now name db = .ok a db') :
    a.c = name ∧ ∀ ops, Registered (run s P db' ops) name := by
  unfold DB.collection at h
  split_ifs at h
  · cases h
  obtain ⟨c, d₁, h₁, h₂⟩ := bind_eq_ok.1 h
  cases h₂
  exact ⟨rfl, (registered_of_collection h₁).run⟩

theorem registered_run_users :
    ∃ db', DB.collection 0 "users" emptyDb = .ok ⟨"users"⟩ db' ∧
      (⟨"users"⟩ : CollectionAdapter).c = "users" ∧
      ∀ ops, Registered (run FileStorage.sameHalvesStore tokenPrimitives db' ops) "users" :=
  ⟨_, rfl, registered_run (show DB.collection 0 "users" emptyDb = _ from rfl)⟩

/-! ## Attachment

A collection takes the network of an attach before the manager is called, so it keeps it also when
the call fails; nothing but an attach or a detach of that collection changes it: not a write, a
registration, or a manager call such as `leave_network` or `shutdown`. -/

/-- The network id the last attach or detach of the collection `name` in a run set. -/
def lastAttachment (name : String) : List DbOp → Option (Option String)
  | [] => none
  | o :: ops => (lastAttachment name ops).or (o.attachment name)

/-- Over every run, a registered collection's network id is the one its last attach or detach set,
whether that call succeeded or failed, and the one it had when it made none. -/
theorem network_id_of_last_attach {c : DistributedCollection}
    (hc : Smap.get? db.collections name = some c) (ops : List DbOp) :
    ∃ c', Smap.get? (run s P db ops).collections name = some c' ∧
      c'.network_id = (lastAttachment name ops).getD c.network_id := by
  induction ops generalizing db c with
  | nil => exact ⟨c, hc, rfl⟩
  | cons o ops ih =>
    obtain ⟨c₁, h₁, -, e₁⟩ := entry_step (s := s) (P := P) o hc
    obtain ⟨c', h', e'⟩ := ih h₁
    refine ⟨c', h', ?_⟩
    rw [e', e₁, lastAttachment]
    cases lastAttachment name ops <;> rfl

theorem network_id_of_last_attach_replica :
    Smap.get? (run FileStorage.sameHalvesStore tokenPrimitives emptyDb
        [.collection 0 "notes"]).collections "notes" = some (DistributedCollection.new "notes" 0) ∧
      ∃ c', Smap.get? (run FileStorage.sameHalvesStore tokenPrimitives
          (run FileStorage.sameHalvesStore tokenPrimitives emptyDb [.collection 0 "notes"])
          replicaRun).collections "notes" = some c' ∧
        c'.network_id = (lastAttachment "notes" replicaRun).getD
          (DistributedCollection.new "notes" 0).network_id :=
  have hc : Smap.get? (run FileStorage.sameHalvesStore tokenPrimitives emptyDb
      [.collection 0 "notes"]).collections "notes" = some (DistributedCollection.new "notes" 0) :=
    rfl
  ⟨hc, network_id_of_last_attach hc replicaRun⟩

/-! ## From `DB::new` -/

/-- A database `DB::new` returns has no collection yet, the disk `create_dir_all` of the data
directory left, a storage under the data directory, and a manager that is a run of a new
manager. -/
theorem new_eq_ok {opts : Options} {peer_id : String} {bound : Except String Unit} {disk : Disk}
    {dbh : DB} (h : DB.new opts peer_id bound disk = .ok dbh) :
    dbh.db.collections = [] ∧ Disk.createDirAll opts.data_dir disk = .ok () dbh.db.disk ∧
      dbh.storage = ⟨opts.data_dir, EncryptionManager.new⟩ ∧
      ∃ nops, dbh.db.net = NetworkManager.run (NetworkManager.new peer_id) nops := by
  unfold DB.new at h
  split_ifs at h
  split at h
  · cases h
  next d hd =>
  unfold DistributedDatabase.new at h
  split at h
  next m hm =>
    cases h
    refine ⟨rfl, hd, rfl, [.initialize_listener bound], ?_⟩
    show m = finalState (NetworkManager.initialize_listener bound (NetworkManager.new peer_id))
    rw [hm]
    rfl
  · cases h

/-- Every state a run of the database reaches from `DB::new` keeps the manager's bookkeeping
(each network with its statistics record, the listener bound exactly when initialized), has every
connection and every message written to a recorded peer, and has each collection registered under
its own name. -/
theorem new_run_consistent {opts : Options} {peer_id : String} {bound : Except String Unit}
    {disk : Disk} {dbh : DB} (h : DB.new opts peer_id bound disk = .ok dbh) (ops : List DbOp) :
    let db := run s P dbh.db ops
    NetworkManager.Invariant db.net ∧ NetworkManager.ConnectionsKnown db.net ∧
      NetworkManager.SentKnown db.net ∧ RegistryConsistent db := by
  intro db
  obtain ⟨hcol, -, -, n₀, hnet⟩ := new_eq_ok h
  obtain ⟨n₁, hrun⟩ : ∃ nops, db.net = NetworkManager.run dbh.db.net nops := net_run ops
  have hm : db.net = NetworkManager.run (NetworkManager.new peer_id) (n₀ ++ n₁) := by
    rw [hrun, hnet, NetworkManager.run, NetworkManager.run, NetworkManager.run, List.foldl_append]
  have hreg : RegistryConsistent dbh.db := fun k c hk => by rw [hcol] at hk; cases hk
  rw [hm]
  exact ⟨NetworkManager.run_invariant (NetworkManager.new_invariant peer_id) _,
    NetworkManager.run_connectionsKnown (NetworkManager.new_connectionsKnown peer_id) _,
    NetworkManager.run_sentKnown (NetworkManager.new_connectionsKnown peer_id)
      (NetworkManager.new_sentKnown peer_id) _, hreg.run ops⟩

theorem new_run_consistent_data :
    ∃ dbh, DB.new ⟨"/data", true⟩ "p" (.ok ()) Disk.empty = .ok dbh ∧ ∀ ops,
      let db := run FileStorage.sameHalvesStore tokenPrimitives dbh.db ops
      NetworkManager.Invariant db.net ∧ NetworkManager.ConnectionsKnown db.net ∧
        NetworkManager.SentKnown db.net ∧ RegistryConsistent db :=
  ⟨_, rfl, new_run_consistent (show DB.new ⟨"/data", true⟩ "p" (.ok ()) Disk.empty = _ from rfl)⟩

end DistributedDatabase

end Knirvbase
