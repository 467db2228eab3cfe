import Knirvbase.Collection

/-!
# A collection on its network

`attach_to_network` records the network id in the collection, registers the collection with the
network manager, which announces it, and stamps the sync state; `detach_from_network` unregisters
the collection and clears the id. A run interleaves these two calls with any calls of the
manager (`run`); the manager part of every run is a run of the manager (`net_run`), so it keeps
the manager's invariant.

1. After an attach that returns `Ok`, the collection holds the network id, and the manager lists
   the collection when it knows the network; it records nothing for an unknown one. After a detach
   the collection holds no id and is no longer listed by the network it was attached to
   (`attachment_agrees`).
2. Only `insert` broadcasts: a successful insert of an attached collection writes one `Operation`
   message, carrying the inserted version, to every connection (`insert_broadcasts`), while
   `update` and `delete` never touch the manager (`update_net`, `delete_net`).
-/

set_option autoImplicit false

namespace Knirvbase

namespace DistributedCollection

/-! ## Attach and detach -/

theorem attach_apply (now : Int) (network_id : String) (w : World) :
    attach_to_network now network_id w =
      match NetworkManager.add_collection_to_network now network_id w.coll.name w.net with
      | .ok _ m => .ok () ⟨{ w.coll with
          network_id := some network_id
          sync_state := { w.coll.sync_state with network_id := network_id } }, w.disk, m⟩
      | .error e m => .error e ⟨{ w.coll with network_id := some network_id }, w.disk, m⟩ := by
  simp only [attach_to_network, bind_apply, EStateM.bind, get_apply, World.onNet, modify, modifyGet,
    MonadStateOf.modifyGet, EStateM.modifyGet]
  cases NetworkManager.add_collection_to_network now network_id w.coll.name w.net <;> rfl

/-- `detach_from_network` always succeeds. -/
theorem detach_apply (w : World) :
    detach_from_network w = .ok () ⟨{ w.coll with network_id := none }, w.disk,
      match w.coll.network_id with
      | some network_id =>
        finalState (NetworkManager.remove_collection_from_network network_id w.coll.name w.net)
      | none => w.net⟩ := by
  simp only [detach_from_network, bind_apply, EStateM.bind, get_apply]
  cases w.coll.network_id with
  | none => rfl
  | some network_id =>
    simp only [bind_apply, EStateM.bind, World.onNet,
      NetworkManager.remove_collection_from_network_apply]
    rfl

/-- A successful attach stamped the collection and registered it with the manager. -/
theorem attach_of_ok {now : Int} {network_id : String} {w w' : World}
    (h : attach_to_network now network_id w = .ok () w') :
    w'.coll = { w.coll with
        network_id := some network_id
        sync_state := { w.coll.sync_state with network_id := network_id } } ∧
      w'.net =
        finalState (NetworkManager.add_collection_to_network now network_id w.coll.name w.net) := by
  rw [attach_apply] at h
  cases hadd : NetworkManager.add_collection_to_network now network_id w.coll.name w.net with
  | error e m => simp only [hadd] at h; cases h
  | ok _ m =>
    simp only [hadd, EStateM.Result.ok.injEq] at h
    obtain ⟨-, rfl⟩ := h
    exact ⟨rfl, rfl⟩

theorem net_attach (now : Int) (network_id : String) (w : World) :
    (finalState (attach_to_network now network_id w)).net =
      finalState (NetworkManager.add_collection_to_network now network_id w.coll.name w.net) := by
  rw [attach_apply]
  cases NetworkManager.add_collection_to_network now network_id w.coll.name w.net <;> rfl

/-! ## Runs -/

/-- A call of a collection's attachment, or a step of its network manager. -/
inductive AttachOp
  | attach_to_network (now : Int) (network_id : String)
  | detach_from_network
  | net (o : NetworkManager.NetOp)

/-- One step of a run. -/
def step (w : World) : AttachOp → World
  | .attach_to_network now network_id => finalState (attach_to_network now network_id w)
  | .detach_from_network => finalState (detach_from_network w)
  | .net o => { w with net := w.net.step o }

/-- The world after a run of steps. -/
def run (w : World) (ops : List AttachOp) : World := ops.foldl step w

section Runs

variable {w : World}

/-- Each step is at most one step of the manager. -/
theorem net_step : ∀ o, ∃ nops, (step w o).net = NetworkManager.run w.net nops
  | .attach_to_network now network_id =>
    ⟨[.add_collection_to_network now network_id w.coll.name], net_attach now network_id w⟩
  | .detach_from_network => by
    simp only [step, detach_apply, finalState_ok]
    cases w.coll.network_id with
    | none => exact ⟨[], rfl⟩
    | some network_id => exact ⟨[.remove_collection_from_network network_id w.coll.name], rfl⟩
  | .net o => ⟨[o], rfl⟩

theorem name_step : ∀ o, (step w o).coll.name = w.coll.name
  | .attach_to_network now network_id => by
    simp only [step, attach_apply]
    cases NetworkManager.add_collection_to_network now network_id w.coll.name w.net <;> rfl
  | .detach_from_network => by simp only [step, detach_apply, finalState_ok]
  | .net _ => rfl

/-- The manager part of a run is a run of the manager. -/
theorem net_run (ops : List AttachOp) : ∃ nops, (run w ops).net = NetworkManager.run w.net nops := by
  induction ops generalizing w with
  | nil => exact ⟨[], rfl⟩
  | cons o ops ih =>
    obtain ⟨n₁, h₁⟩ := net_step (w := w) o
    obtain ⟨n₂, h₂⟩ := ih (w := step w o)
    refine ⟨n₁ ++ n₂, ?_⟩
    rw [NetworkManager.run, List.foldl_append]
    show (run (step w o) ops).net = NetworkManager.run (NetworkManager.run w.net n₁) n₂
    rw [← h₁]
    exact h₂

theorem name_run (ops : List AttachOp) : (run w ops).coll.name = w.coll.name := by
  induction ops generalizing w with
  | nil => rfl
  | cons o ops ih => exact (ih (w := step w o)).trans (name_step o)

end Runs

/-- Take a collection named `C` and a network manager created together, and any run of attaches,
detaches and manager calls. An attach that returns `Ok` leaves the collection with the network id,
in its sync state too; the manager then lists `C` among the network's collections when it knows
the network, and records nothing for an unknown one. A detach that returns `Ok` leaves the
collection with no network id, and `C` is no longer a collection of the network it was attached
to. -/
theorem attachment_agrees (C : String) (t : Int) (d : Disk) (p : String) (ops : List AttachOp) :
    let w := run ⟨new C t, d, NetworkManager.new p⟩ ops
    (∀ now n w', attach_to_network now n w = .ok () w' →
      w'.coll.network_id = some n ∧ w'.coll.sync_state.network_id = n ∧
        ((Smap.get? w.net.networks n).isSome → C ∈ w'.net.get_network_collections n) ∧
        (Smap.get? w.net.networks n = none → w'.net.networks = w.net.networks)) ∧
    (∀ w', detach_from_network w = .ok () w' →
      w'.coll.network_id = none ∧
        ∀ n, w.coll.network_id = some n → C ∉ w'.net.get_network_collections n) := by
  intro w
  have hinv : NetworkManager.Invariant w.net := by
    obtain ⟨nops, h⟩ := net_run (w := ⟨new C t, d, NetworkManager.new p⟩) ops
    rw [h]
    exact NetworkManager.run_invariant (NetworkManager.new_invariant p) nops
  have hname : w.coll.name = C := name_run ops
  refine ⟨fun now n w' h => ?_, fun w' h => ?_⟩
  · obtain ⟨hc, hnet⟩ := attach_of_ok h
    have hnets := NetworkManager.networks_add_collection_to_network now n w.coll.name w.net
    rw [← hnet] at hnets
    refine ⟨by rw [hc], by rw [hc], fun hn => ?_, fun hn => by simpa only [hn] using hnets⟩
    rw [hnet, ← hname]
    exact NetworkManager.mem_get_network_collections_add now _ hn
  · rw [detach_apply, EStateM.Result.ok.injEq] at h
    obtain ⟨-, rfl⟩ := h
    refine ⟨rfl, fun n hn => ?_⟩
    simp only [hn, ← hname]
    exact NetworkManager.not_mem_get_network_collections_remove hinv n _

/-- The collection `notes` after the network `n` was created. -/
def networkedWorld : World :=
  run (freshWorld "notes") [.net (.create_network (.ok ()) ⟨"n", "net", []⟩)]

theorem attachment_agrees_notes :
    ∃ w', attach_to_network 0 "n" networkedWorld = .ok () w' ∧
      (w'.coll.network_id = some "n" ∧ w'.coll.sync_state.network_id = "n" ∧
        ((Smap.get? networkedWorld.net.networks "n").isSome →
          "notes" ∈ w'.net.get_network_collections "n") ∧
        (Smap.get? networkedWorld.net.networks "n" = none →
          w'.net.networks = networkedWorld.net.networks)) :=
  ⟨_, rfl, (attachment_agrees "notes" 0 Disk.empty "p"
    [.net (.create_network (.ok ()) ⟨"n", "net", []⟩)]).1 0 "n" _ rfl⟩

/-- Attaching to an unknown network returns `Ok` with nothing recorded; a detach leaves the sync
state stamped; after `shutdown` an attach fails having recorded the network id and registered the
collection. -/
theorem attachment_disagrees :
    ∃ w₁ w₂ w₃ w₄ w₅,
      attach_to_network 0 "m" networkedWorld = .ok () w₁ ∧
        w₁.net.get_network_collections "m" = [] ∧
      attach_to_network 0 "n" networkedWorld = .ok () w₂ ∧ detach_from_network w₂ = .ok () w₃ ∧
        w₃.coll.sync_state.network_id = "n" ∧
      World.onNet NetworkManager.shutdown networkedWorld = .ok () w₄ ∧
        attach_to_network 0 "n" w₄ = .error "not initialized" w₅ ∧
        w₄.coll.network_id = none ∧ w₅.coll.network_id = some "n" ∧
        w₄.net.get_network_collections "n" = [] ∧ w₅.net.get_network_collections "n" = ["notes"] :=
  ⟨_, _, _, _, _, rfl, rfl, rfl, rfl, rfl, rfl, rfl, rfl, rfl, rfl, rfl⟩

/-! ## Writes and the network -/

section Writes

variable {s : FileStorage} {P : Primitives} {now : Int} {draw : String → Draw} {w w' : World}

/-- A successful `insert` into a collection attached to `n` found the manager initialized and wrote
one `Operation` message to every connection: the insert of the version it stored. -/
theorem insert_broadcasts {op_id n : String} {doc r : Doc}
    (h : insert s P now draw op_id doc w = .ok r w') (hn : w.coll.network_id = some n) :
    w.net.initialized = true ∧ w'.net = { w.net with
      sent := w.net.sent ++ w.net.connections.map fun c => (c.1, ⟨.Operation, n, w.net.peer_id, now,
        (CRDTOperation.mk op_id .Insert w.coll.name (wrap now w.net.peer_id doc).id
          (some (wrap now w.net.peer_id doc)) (VectorClock.new.increment w.net.peer_id) now
          w.net.peer_id).toJson⟩) } := by
  obtain ⟨_, _, h₀, h⟩ := bind_eq_ok.1 h
  cases h₀
  obtain ⟨_, _, h₁, h⟩ := bind_eq_ok.1 h
  obtain ⟨d, -, rfl⟩ := World.onDisk_eq_ok.1 h₁
  simp only [hn] at h
  obtain ⟨_, _, h₂, h⟩ := bind_eq_ok.1 h
  obtain ⟨m, hm, rfl⟩ := World.onNet_eq_ok.1 h₂
  cases h
  exact NetworkManager.broadcast_message_eq_ok.1 hm

/-- `update` never touches the network manager. -/
theorem update_net (id : String) (upd : Doc) :
    (finalState (update s P now draw id upd w)).net = w.net := by
  rw [update_apply]
  cases s.find P now w.coll.name id w.disk with
  | error e => rfl
  | ok doc? =>
    cases doc? with
    | none => rfl
    | some doc =>
      simp only [bind_apply, EStateM.bind, World.onDisk]
      cases s.insert P now draw w.coll.name (Smap.insertAll doc upd) w.disk <;> rfl

/-- `delete` never touches the network manager. -/
theorem delete_net (id : String) : (finalState (delete s id w)).net = w.net := by
  simp only [delete, bind_apply, EStateM.bind, get_apply, World.onDisk]
  cases s.delete w.coll.name id w.disk <;> rfl

end Writes

/-- `notes` attached to `n`, whose manager has since completed a handshake with peer `q`. -/
def replicaWorld : World :=
  run (freshWorld "notes") [.net (.create_network (.ok ()) ⟨"n", "net", []⟩),
    .attach_to_network 0 "n", .net (.join_network (.ok ()) "n" ["addr"]),
    .net (.handshake "addr" "q")]

/-- Inserting `x` sends `q` one `Operation` message; updating and deleting `x` then succeed and
send nothing. -/
theorem update_not_replicated :
    ∃ w₁ w₂ w₃,
      insert FileStorage.sameHalvesStore tokenPrimitives 0 (fun _ => zeroDraw) "op1"
        [("id", .string "x")] replicaWorld = .ok [("id", .string "x")] w₁ ∧
      w₁.net.sent.map (fun m => (m.1, m.2.msg_type)) = [("q", .Operation)] ∧
      update FileStorage.sameHalvesStore tokenPrimitives 0 (fun _ => zeroDraw) "x"
        [("n", .number 2)] w₁ = .ok 1 w₂ ∧ w₂.net = w₁.net ∧
      delete FileStorage.sameHalvesStore "x" w₂ = .ok 1 w₃ ∧ w₃.net = w₂.net :=
  ⟨_, _, _, rfl, rfl, rfl, rfl, rfl, rfl⟩

end DistributedCollection

end Knirvbase
