import Knirvbase.Types
import Knirvbase.Effect

/-!
# The network manager

`NetworkManager` (`network.rs`): the networks this peer belongs to with the collections it shares
in each, per-network statistics, the peers and connections bootstrap handshakes recorded, and
whether it is initialized (its listener bound). A call runs in `EStateM` on the manager; a
message written to a connection is recorded with the connection's peer id.

`step` runs one call or one handshake of a bootstrap dial. Every run keeps the `Invariant`
(`run_invariant`): the listener is bound exactly when the manager is initialized, and each network
has its statistics record, whose `collections_shared` is its number of shared collections cast to
`i32` (`get_network_stats_of_invariant`), as `len() as i32` does; past `i32::MAX` collections the
count wraps (`collections_shared_wraps`). Every connection is to a peer a handshake recorded
(`run_connectionsKnown`); `bookkeeping_consistent` gathers what holds of every manager reachable
from `new`. `broadcast_message` fails exactly when the manager is not initialized, as after
`shutdown` (`broadcast_message_eq_error`); `send_to_peer` also returns the error of a failed write.

The log of sent messages only grows, by messages to connections (`step_extends`); so every message
went to a peer a handshake recorded (`run_sentKnown`), after `shutdown` only to one a later
handshake recorded (`messages_after_shutdown`), and a handshake only completes for an address a
`join_network` was given to dial (`DialedFrom`, `sent_to_dialed_peers`).
-/

set_option autoImplicit false

namespace Knirvbase

/-- `NetworkManager`; a connection is known by its remote peer id. -/
structure NetworkManager where
  peer_id : String
  networks : List (String × NetworkConfig)
  networks_sorted : Smap.Sorted networks
  peers : List (String × PeerInfo)
  connections : List (String × Unit)
  stats : List (String × NetworkStats)
  stats_sorted : Smap.Sorted stats
  initialized : Bool
  listening : Bool
  dialing : List String
  sent : List (String × ProtocolMessage)

/-- A call on the network manager. -/
abbrev NetM := EStateM String NetworkManager

namespace NetworkManager

/-- `NewNetworkManager`; `peer_id` is the drawn UUID. -/
def new (peer_id : String) : NetworkManager :=
  ⟨peer_id, [], .nil, [], [], [], .nil, false, false, [], []⟩

/-- The statistics record of a new network. -/
def freshStats (network_id : String) : NetworkStats := ⟨network_id, 0⟩

/-- The manager with a network and its statistics added. -/
def addNetwork (m : NetworkManager) (cfg : NetworkConfig) : NetworkManager :=
  { m with
    networks := Smap.insert cfg.network_id cfg m.networks
    networks_sorted := m.networks_sorted.insert _ _
    stats := Smap.insert cfg.network_id (freshStats cfg.network_id) m.stats
    stats_sorted := m.stats_sorted.insert _ _ }

/-- `initialize`; `bound` is the outcome of binding the listener. -/
def initialize_listener (bound : Except String Unit) : NetM Unit := fun m =>
  if m.initialized then .ok () m
  else
    match bound with
    | .ok () => .ok () { m with listening := true, initialized := true }
    | .error e => .error e m

/-- `create_network`: an existing network is kept as it is. -/
def create_network (bound : Except String Unit) (cfg : NetworkConfig) : NetM String := do
  initialize_listener bound
  let m ← get
  if (Smap.get? m.networks cfg.network_id).isSome then return cfg.network_id
  set (m.addNetwork { cfg with collections := [] })
  return cfg.network_id

/-- `join_network`: the network is added unless known; each bootstrap address is dialed by a
task of its own (`handshake`). -/
def join_network (bound : Except String Unit) (network_id : String)
    (bootstrap_peers : List String) : NetM Unit := do
  initialize_listener bound
  let m ← get
  let m := if (Smap.get? m.networks network_id).isSome then m
    else m.addNetwork ⟨network_id, "Network " ++ network_id, []⟩
  set { m with dialing := m.dialing ++ bootstrap_peers }

/-- A dial task whose handshake with `peer_addr` answered `KNIRV:<remote_peer_id>`. -/
def handshake (peer_addr remote_peer_id : String) (m : NetworkManager) : NetworkManager :=
  { m with
    connections := Smap.insert remote_peer_id () m.connections
    peers := Smap.insert remote_peer_id ⟨remote_peer_id, [peer_addr]⟩ m.peers
    dialing := m.dialing.erase peer_addr }

/-- `leave_network`. -/
def leave_network (network_id : String) : NetM Unit := fun m =>
  .ok () { m with
    networks := Smap.remove network_id m.networks
    networks_sorted := m.networks_sorted.remove _
    stats := Smap.remove network_id m.stats
    stats_sorted := m.stats_sorted.remove _ }

/-- `collections_shared` of a network recounted after its collections changed. -/
def recount (m : NetworkManager) (network_id : String) (cfg : NetworkConfig) : NetworkManager :=
  { m with
    networks := Smap.insert network_id cfg m.networks
    networks_sorted := m.networks_sorted.insert _ _
    stats := match Smap.get? m.stats network_id with
      | some stat =>
        Smap.insert network_id { stat with collections_shared := asI32 cfg.collections.length }
          m.stats
      | none => m.stats
    stats_sorted := by split <;> first | exact m.stats_sorted.insert _ _ | exact m.stats_sorted }

/-- `broadcast_message`: the message goes to every connection; a failed write is ignored. -/
def broadcast_message (_network_id : String) (msg : ProtocolMessage) : NetM Unit := fun m =>
  if !m.initialized then .error "not initialized" m
  else .ok () { m with sent := m.sent ++ m.connections.map fun c => (c.1, msg) }

/-- The collections of a known network changed by `f`, and its statistics recounted; the
shared first part of `add_collection_to_network` and `remove_collection_from_network`. -/
def updateCollections (network_id : String) (f : List (String × Bool) → List (String × Bool)) :
    NetM Unit := do
  let m ← get
  match Smap.get? m.networks network_id with
  | some network => set (m.recount network_id { network with collections := f network.collections })
  | none => pure ()

/-- `add_collection_to_network`, then the announcement `CollectionAnnounce`, at time `now`. -/
def add_collection_to_network (now : Int) (network_id collection_name : String) : NetM Unit := do
  updateCollections network_id (Smap.insert collection_name true)
  let m ← get
  broadcast_message network_id ⟨.CollectionAnnounce, network_id, m.peer_id, now,
    .object [("collection", .string collection_name)]⟩

/-- `remove_collection_from_network`. -/
def remove_collection_from_network (network_id collection_name : String) : NetM Unit :=
  updateCollections network_id (Smap.remove collection_name)

/-- `get_network_collections`. -/
def get_network_collections (m : NetworkManager) (network_id : String) : List String :=
  match Smap.get? m.networks network_id with
  | some network => network.collections.map Prod.fst
  | none => []

/-- `send_to_peer`; `written` is the outcome of `write_all` on the peer's connection, whose error
the call returns. A failed write may have sent part of the message, so it is recorded either way. -/
def send_to_peer (written : Except String Unit) (peer_id _network_id : String)
    (msg : ProtocolMessage) : NetM Unit := fun m =>
  if !m.initialized then .error "not initialized" m
  else if (Smap.get? m.connections peer_id).isSome then
    match written with
    | .ok () => .ok () { m with sent := m.sent ++ [(peer_id, msg)] }
    | .error e => .error e { m with sent := m.sent ++ [(peer_id, msg)] }
  else .error "peer not connected" m

/-- A send records its message exactly when the manager is initialized and the peer connected,
whether the write completed or not. -/
theorem finalState_send_to_peer (written : Except String Unit) (peer_id network_id : String)
    (msg : ProtocolMessage) (m : NetworkManager) :
    finalState (send_to_peer written peer_id network_id msg m) =
      if m.initialized ∧ (Smap.get? m.connections peer_id).isSome then
        { m with sent := m.sent ++ [(peer_id, msg)] } else m := by
  unfold send_to_peer
  by_cases hi : m.initialized <;> by_cases hc : (Smap.get? m.connections peer_id).isSome <;>
    cases written <;> simp [hi, hc]

/-- `get_network_stats`. -/
def get_network_stats (m : NetworkManager) (network_id : String) : Option NetworkStats :=
  Smap.get? m.stats network_id

/-- `get_networks`. -/
def get_networks (m : NetworkManager) : List NetworkConfig := m.networks.map Prod.snd

/-- `get_peer_id`. -/
def get_peer_id (m : NetworkManager) : String := m.peer_id

/-- `shutdown`: the listener is dropped and every connection closed. -/
def shutdown : NetM Unit := fun m =>
  .ok () { m with initialized := false, listening := false, connections := [] }

/-! ## Runs -/

/-- A call of the network manager, or a bootstrap dial's handshake completing. -/
inductive NetOp
  | initialize_listener (bound : Except String Unit)
  | create_network (bound : Except String Unit) (cfg : NetworkConfig)
  | join_network (bound : Except String Unit) (network_id : String) (bootstrap_peers : List String)
  | handshake (peer_addr remote_peer_id : String)
  | leave_network (network_id : String)
  | add_collection_to_network (now : Int) (network_id collection_name : String)
  | remove_collection_from_network (network_id collection_name : String)
  | broadcast_message (network_id : String) (msg : ProtocolMessage)
  | send_to_peer (written : Except String Unit) (peer_id network_id : String)
    (msg : ProtocolMessage)
  | shutdown

/-- One step: a call, or the handshake of an address being dialed; other handshakes do not
happen. -/
def step (m : NetworkManager) : NetOp → NetworkManager
  | .initialize_listener b => finalState (initialize_listener b m)
  | .create_network b cfg => finalState (create_network b cfg m)
  | .join_network b network_id peers => finalState (join_network b network_id peers m)
  | .handshake peer_addr remote =>
    if peer_addr ∈ m.dialing then handshake peer_addr remote m else m
  | .leave_network network_id => finalState (leave_network network_id m)
  | .add_collection_to_network now network_id name =>
    finalState (add_collection_to_network now network_id name m)
  | .remove_collection_from_network network_id name =>
    finalState (remove_collection_from_network network_id name m)
  | .broadcast_message network_id msg => finalState (broadcast_message network_id msg m)
  | .send_to_peer written peer_id network_id msg =>
    finalState (send_to_peer written peer_id network_id msg m)
  | .shutdown => finalState (shutdown m)

/-- The state after a run of steps. -/
def run (m : NetworkManager) (ops : List NetOp) : NetworkManager := ops.foldl step m

/-! ## The statistics follow the networks -/

/-- Each network is stored under its own id with its collections as a map, and has a
statistics record under the same id that counts them; every statistics record belongs to a
network. -/
structure StatsConsistent (networks : List (String × NetworkConfig))
    (stats : List (String × NetworkStats)) : Prop where
  recorded : ∀ id cfg, Smap.get? networks id = some cfg →
    cfg.network_id = id ∧ Smap.Sorted cfg.collections ∧
      ∃ st, Smap.get? stats id = some st ∧ st.network_id = id ∧
        st.collections_shared = asI32 cfg.collections.length
  stats_known : ∀ id st, Smap.get? stats id = some st → (Smap.get? networks id).isSome

/-- The invariant of every reachable manager: the listener is bound exactly when it is
initialized, and the statistics follow the networks. -/
structure Invariant (m : NetworkManager) : Prop where
  listening : m.listening = m.initialized
  stats : StatsConsistent m.networks m.stats

section Consistent

variable {networks : List (String × NetworkConfig)} {stats : List (String × NetworkStats)}

/-- A network stored with a statistics record that counts its collections. -/
theorem StatsConsistent.insert (h : StatsConsistent networks stats) {id : String}
    {cfg : NetworkConfig} {st : NetworkStats} (hcid : cfg.network_id = id)
    (hsorted : Smap.Sorted cfg.collections) (hstid : st.network_id = id)
    (hcount : st.collections_shared = asI32 cfg.collections.length) :
    StatsConsistent (Smap.insert id cfg networks) (Smap.insert id st stats) where
  recorded id' c hget := by
    rw [Smap.get?_insert] at hget
    by_cases e : id = id'
    · rw [if_pos e] at hget
      cases hget
      subst e
      exact ⟨hcid, hsorted, st, by rw [Smap.get?_insert, if_pos rfl], hstid, hcount⟩
    · rw [if_neg e] at hget
      simpa only [Smap.get?_insert, if_neg e] using h.recorded id' c hget
  stats_known id' st' hget := by
    rw [Smap.get?_insert] at hget ⊢
    split_ifs at hget ⊢
    · rfl
    · exact h.stats_known id' st' hget

theorem StatsConsistent.remove (h : StatsConsistent networks stats) (hn : Smap.Sorted networks)
    (hs : Smap.Sorted stats) (network_id : String) :
    StatsConsistent (Smap.remove network_id networks) (Smap.remove network_id stats) where
  recorded id c hget := by
    rw [Smap.get?_remove hn] at hget
    split_ifs at hget with e
    simpa only [Smap.get?_remove hs, if_neg e] using h.recorded id c hget
  stats_known id st hget := by
    rw [Smap.get?_remove hs] at hget
    rw [Smap.get?_remove hn]
    split_ifs at hget ⊢ with e
    exact h.stats_known id st hget

/-- A network's collections changed, and its statistics record recounted. -/
theorem StatsConsistent.recount (h : StatsConsistent networks stats) {network_id : String}
    {network cfg : NetworkConfig} (hnet : Smap.get? networks network_id = some network)
    (hid : cfg.network_id = network.network_id) (hsorted : Smap.Sorted cfg.collections) :
    StatsConsistent (Smap.insert network_id cfg networks)
      (match Smap.get? stats network_id with
        | some stat => Smap.insert network_id
            { stat with collections_shared := asI32 cfg.collections.length } stats
        | none => stats) := by
  obtain ⟨hnid, -, st, hst, hstid, -⟩ := h.recorded _ _ hnet
  rw [hst]
  exact h.insert (hid.trans hnid) hsorted hstid rfl

end Consistent

section Steps

variable {m : NetworkManager}

theorem new_invariant (peer_id : String) : Invariant (new peer_id) :=
  ⟨rfl, ⟨fun _ _ h => (by cases h), fun _ _ h => (by cases h)⟩⟩

theorem Invariant.addNetwork (h : Invariant m) (cfg : NetworkConfig) (hc : cfg.collections = []) :
    Invariant (m.addNetwork cfg) :=
  ⟨h.listening, h.stats.insert rfl (hc ▸ .nil) rfl (by rw [hc]; rfl)⟩

theorem initialize_listener_preserves (b : Except String Unit) :
    Preserves Invariant (initialize_listener b) := fun m h => by
  unfold initialize_listener
  split
  · exact h
  · cases b with
    | ok => exact ⟨rfl, h.stats⟩
    | error => exact h

theorem create_network_preserves (b : Except String Unit) (cfg : NetworkConfig) :
    Preserves Invariant (create_network b cfg) :=
  (initialize_listener_preserves b).bind fun _ => .get_bind fun m h =>
    Preserves.ite (.pure _) ((Preserves.pure _).bind fun _ =>
      (Preserves.set (h.addNetwork _ rfl)).bind fun _ => .pure _) m h

theorem join_network_preserves (b : Except String Unit) (network_id : String)
    (peers : List String) : Preserves Invariant (join_network b network_id peers) :=
  (initialize_listener_preserves b).bind fun _ => .get_bind fun m h => by
    have h' : Invariant (if (Smap.get? m.networks network_id).isSome then m
        else m.addNetwork ⟨network_id, "Network " ++ network_id, []⟩) := by
      split
      · exact h
      · exact h.addNetwork _ rfl
    exact Preserves.set ⟨h'.listening, h'.stats⟩ m h

theorem broadcast_message_preserves (network_id : String) (msg : ProtocolMessage) :
    Preserves Invariant (broadcast_message network_id msg) := fun m h => by
  unfold broadcast_message
  split
  · exact h
  · exact ⟨h.listening, h.stats⟩

/-- Recounting a network after changing its collections by a map operation `f`. -/
theorem updateCollections_preserves (network_id : String)
    {f : List (String × Bool) → List (String × Bool)}
    (hf : ∀ c, Smap.Sorted c → Smap.Sorted (f c)) :
    Preserves Invariant (updateCollections network_id f) :=
  .get_bind fun m h => by
    cases hnet : Smap.get? m.networks network_id with
    | none => simp only [hnet]; exact h
    | some network =>
      simp only [hnet]
      exact ⟨h.listening, h.stats.recount hnet rfl (hf _ (h.stats.recorded _ _ hnet).2.1)⟩

theorem step_invariant (h : Invariant m) : ∀ o, Invariant (step m o)
  | .initialize_listener b => initialize_listener_preserves b m h
  | .create_network b cfg => create_network_preserves b cfg m h
  | .join_network b network_id peers => join_network_preserves b network_id peers m h
  | .handshake peer_addr remote => by
    show Invariant (if peer_addr ∈ m.dialing then handshake peer_addr remote m else m)
    split
    · exact ⟨h.listening, h.stats⟩
    · exact h
  | .leave_network network_id =>
    ⟨h.listening, h.stats.remove m.networks_sorted m.stats_sorted network_id⟩
  | .add_collection_to_network _ network_id name =>
    ((updateCollections_preserves network_id fun _ hc => hc.insert name true).bind fun _ =>
      .get_bind fun _ h' => broadcast_message_preserves _ _ _ h') m h
  | .remove_collection_from_network network_id name =>
    updateCollections_preserves network_id (fun _ hc => hc.remove name) m h
  | .broadcast_message network_id msg => broadcast_message_preserves network_id msg m h
  | .send_to_peer written peer_id network_id msg => by
    show Invariant (finalState _)
    rw [finalState_send_to_peer]
    split
    · exact ⟨h.listening, h.stats⟩
    · exact h
  | .shutdown => ⟨rfl, h.stats⟩

/-- Every run keeps the invariant. -/
theorem run_invariant (h : Invariant m) (ops : List NetOp) : Invariant (run m ops) := by
  induction ops generalizing m with
  | nil => exact h
  | cons o ops ih => exact ih (step_invariant h o)

/-- On every reachable manager, the statistics of a network count the collections
`get_network_collections` lists, as an `i32`. -/
theorem get_network_stats_of_invariant (h : Invariant m) {network_id : String}
    (hnet : (Smap.get? m.networks network_id).isSome) :
    ∃ st, m.get_network_stats network_id = some st ∧ st.network_id = network_id ∧
      st.collections_shared = asI32 (m.get_network_collections network_id).length := by
  obtain ⟨cfg, hcfg⟩ := Option.isSome_iff_exists.1 hnet
  obtain ⟨-, -, st, hst, hid, hn⟩ := h.stats.recorded _ _ hcfg
  exact ⟨st, hst, hid, by rw [hn, get_network_collections, hcfg, List.length_map]⟩

/-- A broadcast succeeds exactly when the manager is initialized, and then writes the message to
every connection. -/
theorem broadcast_message_eq_ok {network_id : String} {msg : ProtocolMessage} {m' : NetworkManager} :
    broadcast_message network_id msg m = .ok () m' ↔
      m.initialized = true ∧ m' = { m with sent := m.sent ++ m.connections.map fun c => (c.1, msg) } := by
  unfold broadcast_message
  cases m.initialized <;> simp [eq_comm]

/-- A broadcast fails exactly when the manager is not initialized, and then changes nothing. -/
theorem broadcast_message_eq_error {network_id : String} {msg : ProtocolMessage} {e : String}
    {m' : NetworkManager} :
    broadcast_message network_id msg m = .error e m' ↔
      m.initialized = false ∧ e = "not initialized" ∧ m' = m := by
  unfold broadcast_message
  cases m.initialized <;> simp [eq_comm]

end Steps

/-! ## The collections of a network

`add_collection_to_network` and `remove_collection_from_network` change the collections of a known
network and leave an unknown one unknown; the announcement that follows an addition may fail, but
not the change. -/

section Collections

theorem updateCollections_apply (network_id : String)
    (f : List (String × Bool) → List (String × Bool)) (m : NetworkManager) :
    updateCollections network_id f m = .ok () (match Smap.get? m.networks network_id with
      | some network => m.recount network_id { network with collections := f network.collections }
      | none => m) := by
  simp only [updateCollections, bind_apply, EStateM.bind, get_apply]
  cases Smap.get? m.networks network_id <;> rfl

theorem remove_collection_from_network_apply (network_id name : String) (m : NetworkManager) :
    remove_collection_from_network network_id name m = .ok () (match Smap.get? m.networks network_id with
      | some network =>
        m.recount network_id { network with collections := Smap.remove name network.collections }
      | none => m) :=
  updateCollections_apply network_id _ m

theorem networks_broadcast_message (network_id : String) (msg : ProtocolMessage)
    (m : NetworkManager) : (finalState (broadcast_message network_id msg m)).networks = m.networks := by
  unfold broadcast_message
  split <;> rfl

/-- The networks after `add_collection_to_network`, whether the announcement went out or not. -/
theorem networks_add_collection_to_network (now : Int) (network_id name : String)
    (m : NetworkManager) :
    (finalState (add_collection_to_network now network_id name m)).networks =
      match Smap.get? m.networks network_id with
      | some network => Smap.insert network_id
          { network with collections := Smap.insert name true network.collections } m.networks
      | none => m.networks := by
  rw [add_collection_to_network, finalState_bind, updateCollections_apply]
  simp only [bind_apply, EStateM.bind, get_apply, networks_broadcast_message]
  cases Smap.get? m.networks network_id <;> rfl

theorem get_network_collections_of_get? {m : NetworkManager} {network_id : String}
    {cfg : NetworkConfig} (h : Smap.get? m.networks network_id = some cfg) :
    m.get_network_collections network_id = cfg.collections.map Prod.fst := by
  simp only [get_network_collections, h]

theorem get_network_collections_of_none {m : NetworkManager} {network_id : String}
    (h : Smap.get? m.networks network_id = none) : m.get_network_collections network_id = [] := by
  simp only [get_network_collections, h]

/-- After `add_collection_to_network`, a known network lists the collection, whether the
announcement went out or not. -/
theorem mem_get_network_collections_add (now : Int) {network_id : String} (name : String)
    {m : NetworkManager} (hn : (Smap.get? m.networks network_id).isSome) :
    name ∈ (finalState (add_collection_to_network now network_id name m)).get_network_collections
      network_id := by
  obtain ⟨network, hnet⟩ := Option.isSome_iff_exists.1 hn
  have h := networks_add_collection_to_network now network_id name m
  rw [hnet] at h
  rw [get_network_collections_of_get? (by rw [h, Smap.get?_insert, if_pos rfl])]
  exact List.mem_map_of_mem Prod.fst
    (Smap.mem_of_get? (v := true) (by rw [Smap.get?_insert, if_pos rfl]))

/-- On a reachable manager, after `remove_collection_from_network` the network no longer lists the
collection: its collections are a map, so the collection was there at most once. -/
theorem not_mem_get_network_collections_remove {m : NetworkManager} (h : Invariant m)
    (network_id name : String) :
    name ∉ (finalState (remove_collection_from_network network_id name m)).get_network_collections
      network_id := by
  rw [remove_collection_from_network_apply, finalState_ok]
  cases hnet : Smap.get? m.networks network_id with
  | none => simp only [get_network_collections, hnet]; exact List.not_mem_nil _
  | some network =>
    rw [get_network_collections_of_get? (by simp only [recount, Smap.get?_insert, if_true]; rfl)]
    exact Smap.get?_eq_none_iff.1 (by
      rw [Smap.get?_remove (h.stats.recorded _ _ hnet).2.1, if_pos rfl])

end Collections

/-! ## The peer book

Only a completed handshake records a connection, and it records the peer with it; `shutdown`
closes every connection. -/

/-- Every connection is to a peer the manager has recorded. -/
def ConnectionsKnown (m : NetworkManager) : Prop :=
  ∀ p, (Smap.get? m.connections p).isSome → (Smap.get? m.peers p).isSome

section PeerBook

variable {m : NetworkManager}

theorem ConnectionsKnown.addNetwork (h : ConnectionsKnown m) (cfg : NetworkConfig) :
    ConnectionsKnown (m.addNetwork cfg) := h

theorem initialize_listener_connectionsKnown (b : Except String Unit) :
    Preserves ConnectionsKnown (initialize_listener b) := fun m h => by
  unfold initialize_listener
  split
  · exact h
  · cases b <;> exact h

theorem broadcast_message_connectionsKnown (network_id : String) (msg : ProtocolMessage) :
    Preserves ConnectionsKnown (broadcast_message network_id msg) := fun m h => by
  unfold broadcast_message
  split <;> exact h

theorem updateCollections_connectionsKnown (network_id : String)
    (f : List (String × Bool) → List (String × Bool)) :
    Preserves ConnectionsKnown (updateCollections network_id f) :=
  .get_bind fun m h => by
    cases hnet : Smap.get? m.networks network_id <;> simp only [hnet]
    · exact h
    · exact Preserves.set h m h

theorem handshake_connectionsKnown (h : ConnectionsKnown m) (peer_addr remote : String) :
    ConnectionsKnown (handshake peer_addr remote m) := fun p hp => by
  simp only [handshake, Smap.get?_insert] at hp ⊢
  split_ifs at hp ⊢
  · rfl
  · exact h p hp

theorem step_connectionsKnown (h : ConnectionsKnown m) : ∀ o, ConnectionsKnown (step m o)
  | .initialize_listener b => initialize_listener_connectionsKnown b m h
  | .create_network b cfg =>
    ((initialize_listener_connectionsKnown b).bind fun _ => .get_bind fun m' h' =>
      Preserves.ite (.pure _) ((Preserves.pure _).bind fun _ =>
        (Preserves.set (h'.addNetwork _)).bind fun _ => .pure _) m' h') m h
  | .join_network b network_id peers =>
    ((initialize_listener_connectionsKnown b).bind fun _ => .get_bind fun m' h' => by
      refine Preserves.set ?_ m' h'
      split <;> exact h') m h
  | .handshake peer_addr remote => by
    show ConnectionsKnown (if peer_addr ∈ m.dialing then handshake peer_addr remote m else m)
    split
    · exact handshake_connectionsKnown h peer_addr remote
    · exact h
  | .leave_network _ => h
  | .add_collection_to_network _ network_id name =>
    ((updateCollections_connectionsKnown network_id _).bind fun _ =>
      .get_bind fun _ h' => broadcast_message_connectionsKnown _ _ _ h') m h
  | .remove_collection_from_network network_id _ =>
    updateCollections_connectionsKnown network_id _ m h
  | .broadcast_message network_id msg => broadcast_message_connectionsKnown network_id msg m h
  | .send_to_peer written peer_id network_id msg => by
    show ConnectionsKnown (finalState _)
    rw [finalState_send_to_peer]
    split <;> exact h
  | .shutdown => fun _ hp => by cases hp

theorem run_connectionsKnown (h : ConnectionsKnown m) (ops : List NetOp) :
    ConnectionsKnown (run m ops) := by
  induction ops generalizing m with
  | nil => exact h
  | cons o ops ih => exact ih (step_connectionsKnown h o)

end PeerBook

/-! ## The log of sent messages

A call appends to the log only messages to its connections, and changes neither the peers nor the
connections; a handshake records a peer with its connection, and `shutdown` closes every
connection. So the log only grows, and every message in it went to a recorded peer. Which messages
a call writes is `NetOp.Sends`. -/

/-- Every message written went to a peer the manager has recorded. -/
def SentKnown (m : NetworkManager) : Prop := ∀ e ∈ m.sent, (Smap.get? m.peers e.1).isSome

/-- The messages a call may write, for a manager with peer id `peer_id`: a broadcast or a send
writes its message, and `add_collection_to_network` the announcement of the collection. -/
def NetOp.Sends (peer_id : String) : NetOp → ProtocolMessage → Prop
  | .broadcast_message _ msg, msg' => msg' = msg
  | .send_to_peer _ _ _ msg, msg' => msg' = msg
  | .add_collection_to_network now network_id name, msg' =>
    msg' = ⟨.CollectionAnnounce, network_id, peer_id, now, .object [("collection", .string name)]⟩
  | _, _ => False

/-- The addresses a call gives the manager to dial: the bootstrap peers of `join_network`. -/
def NetOp.Dials : NetOp → String → Prop
  | .join_network _ _ bootstrap_peers, addr => addr ∈ bootstrap_peers
  | _, _ => False

/-- `m'` is `m` with messages satisfying `Q` appended to the log, each to a connection of `m`,
and addresses satisfying `D` appended to those being dialed; the peer id, the peers and the
connections are those of `m`. -/
def Extends (Q : ProtocolMessage → Prop) (D : String → Prop) (m m' : NetworkManager) : Prop :=
  m'.peer_id = m.peer_id ∧ m'.peers = m.peers ∧ m'.connections = m.connections ∧
    (∃ new, m'.sent = m.sent ++ new ∧ ∀ e ∈ new, (Smap.get? m.connections e.1).isSome ∧ Q e.2) ∧
    ∃ addrs, m'.dialing = m.dialing ++ addrs ∧ ∀ a ∈ addrs, D a

/-- What a step does to the log and the peer book: it appends messages to connections of the
manager it starts from, and forgets no peer. -/
def LogStep (m m' : NetworkManager) : Prop :=
  (∃ new, m'.sent = m.sent ++ new ∧ ∀ e ∈ new, (Smap.get? m.connections e.1).isSome) ∧
    ∀ p, (Smap.get? m.peers p).isSome → (Smap.get? m'.peers p).isSome

section Log

variable {Q : ProtocolMessage → Prop} {D : String → Prop} {m₀ m : NetworkManager}

theorem Extends.refl (Q : ProtocolMessage → Prop) (D : String → Prop) (m : NetworkManager) :
    Extends Q D m m :=
  ⟨rfl, rfl, rfl, ⟨[], (List.append_nil _).symm, nofun⟩, [], (List.append_nil _).symm, nofun⟩

theorem Extends.addNetwork (h : Extends Q D m₀ m) (cfg : NetworkConfig) :
    Extends Q D m₀ (m.addNetwork cfg) :=
  h

theorem Extends.logStep {m' : NetworkManager} (h : Extends Q D m m') : LogStep m m' :=
  ⟨h.2.2.2.1.imp fun _ ⟨hs, hn⟩ => ⟨hs, fun e he => (hn e he).1⟩, fun _ hp => h.2.1 ▸ hp⟩

/-- Appending to the log messages to connections keeps the manager an extension. -/
theorem Extends.append (h : Extends Q D m₀ m) {l : List (String × ProtocolMessage)}
    (hl : ∀ e ∈ l, (Smap.get? m.connections e.1).isSome ∧ Q e.2) :
    Extends Q D m₀ { m with sent := m.sent ++ l } := by
  obtain ⟨hpid, hpeers, hconn, ⟨new, hs, hn⟩, hd⟩ := h
  refine ⟨hpid, hpeers, hconn, ⟨new ++ l, by simp [hs], fun e he => ?_⟩, hd⟩
  rcases List.mem_append.1 he with he | he
  · exact hn e he
  · exact hconn ▸ hl e he

/-- Appending addresses satisfying `D` to those being dialed keeps the manager an extension. -/
theorem Extends.dial (h : Extends Q D m₀ m) {addrs : List String} (ha : ∀ a ∈ addrs, D a) :
    Extends Q D m₀ { m with dialing := m.dialing ++ addrs } := by
  obtain ⟨hpid, hpeers, hconn, hs, addrs₀, hd, hd₀⟩ := h
  refine ⟨hpid, hpeers, hconn, hs, addrs₀ ++ addrs, by simp [hd], fun a ha' => ?_⟩
  rcases List.mem_append.1 ha' with ha' | ha'
  · exact hd₀ a ha'
  · exact ha a ha'

theorem initialize_listener_extends (b : Except String Unit) :
    Preserves (Extends Q D m₀) (initialize_listener b) := fun m h => by
  unfold initialize_listener
  split
  · exact h
  · cases b <;> exact h

theorem broadcast_message_extends {network_id : String} {msg : ProtocolMessage} (hQ : Q msg) :
    Preserves (Extends Q D m₀) (broadcast_message network_id msg) := fun m h => by
  unfold broadcast_message
  split
  · exact h
  · refine h.append fun e he => ?_
    obtain ⟨c, hcm, rfl⟩ := List.mem_map.1 he
    exact ⟨Smap.isSome_get?_of_mem hcm, hQ⟩

theorem updateCollections_extends (network_id : String)
    (f : List (String × Bool) → List (String × Bool)) :
    Preserves (Extends Q D m₀) (updateCollections network_id f) :=
  .get_bind fun m h => by
    cases hnet : Smap.get? m.networks network_id <;> simp only [hnet]
    · exact h
    · exact Preserves.set h m h

theorem send_to_peer_extends {written : Except String Unit} {peer_id network_id : String}
    {msg : ProtocolMessage} (hQ : Q msg) :
    Preserves (Extends Q D m₀) (send_to_peer written peer_id network_id msg) := fun m h => by
  rw [finalState_send_to_peer]
  split
  · rename_i hc
    exact h.append fun e he => by
      rw [List.mem_singleton.1 he]
      exact ⟨hc.2, hQ⟩
  · exact h

theorem handshake_logStep (peer_addr remote : String) : LogStep m (handshake peer_addr remote m) :=
  ⟨⟨[], (List.append_nil _).symm, fun _ h => nomatch h⟩, fun _ hp => by
    simp only [handshake, Smap.get?_insert]
    split_ifs
    · rfl
    · exact hp⟩

/-- Every call other than a handshake and `shutdown` extends the manager by messages it sends and
addresses it dials. -/
theorem step_extends :
    ∀ o, (∀ a r, o ≠ .handshake a r) → o ≠ .shutdown →
      Extends (o.Sends m.peer_id) o.Dials m (step m o)
  | .initialize_listener b, _, _ => initialize_listener_extends b m (.refl _ _ m)
  | .create_network b cfg, _, _ =>
    ((initialize_listener_extends b).bind fun _ => .get_bind fun m' h' =>
      Preserves.ite (.pure _) ((Preserves.pure _).bind fun _ =>
        (Preserves.set (h'.addNetwork _)).bind fun _ => .pure _) m' h') m (.refl _ _ m)
  | .join_network b network_id peers, _, _ =>
    ((initialize_listener_extends b).bind fun _ => .get_bind fun m' h' => by
      refine Preserves.set ?_ m' h'
      split
      · exact h'.dial fun _ ha => ha
      · exact (h'.addNetwork _).dial fun _ ha => ha) m (.refl _ _ m)
  | .handshake a r, h, _ => absurd rfl (h a r)
  | .leave_network _, _, _ => .refl _ _ m
  | .add_collection_to_network _ network_id name, _, _ =>
    ((updateCollections_extends network_id _).bind fun _ =>
      .get_bind fun m' h' => broadcast_message_extends (by rw [h'.1]; rfl) m' h') m
      (.refl _ _ m)
  | .remove_collection_from_network network_id _, _, _ =>
    updateCollections_extends network_id _ m (.refl _ _ m)
  | .broadcast_message network_id msg, _, _ =>
    broadcast_message_extends (Q := NetOp.Sends _ (.broadcast_message network_id msg)) rfl m
      (.refl _ _ m)
  | .send_to_peer written peer_id network_id msg, _, _ =>
    send_to_peer_extends (Q := NetOp.Sends _ (.send_to_peer written peer_id network_id msg)) rfl m
      (.refl _ _ m)
  | .shutdown, _, h => absurd rfl h

theorem step_logStep (o : NetOp) : LogStep m (step m o) := by
  cases o with
  | handshake peer_addr remote =>
    show LogStep m (if peer_addr ∈ m.dialing then handshake peer_addr remote m else m)
    split
    · exact handshake_logStep peer_addr remote
    · exact (Extends.refl (fun _ => True) (fun _ => True) m).logStep
  | shutdown => exact ⟨⟨[], (List.append_nil _).symm, fun _ h => nomatch h⟩, fun _ hp => hp⟩
  | _ => refine (step_extends _ ?_ ?_).logStep <;> exact nofun

/-- Each step appends to the log only messages it sends, and keeps the peer id. -/
theorem step_sends (o : NetOp) :
    (step m o).peer_id = m.peer_id ∧
      ∃ new, (step m o).sent = m.sent ++ new ∧ ∀ e ∈ new, o.Sends m.peer_id e.2 := by
  cases o with
  | handshake peer_addr remote =>
    have h : (step m (.handshake peer_addr remote)).peer_id = m.peer_id ∧
        (step m (.handshake peer_addr remote)).sent = m.sent := by
      show (if peer_addr ∈ m.dialing then handshake peer_addr remote m else m).peer_id = _ ∧
        (if peer_addr ∈ m.dialing then handshake peer_addr remote m else m).sent = _
      split <;> exact ⟨rfl, rfl⟩
    exact ⟨h.1, [], by rw [h.2, List.append_nil], fun _ h => nomatch h⟩
  | shutdown => exact ⟨rfl, [], (List.append_nil _).symm, fun _ h => nomatch h⟩
  | _ =>
    refine (fun h => ⟨h.1, h.2.2.2.1.imp fun _ ⟨hs, hn⟩ => ⟨hs, fun e he => (hn e he).2⟩⟩)
      (step_extends _ ?_ ?_) <;> exact nofun

/-- A run whose every step sends only messages satisfying `Q` keeps the peer id and appends only
such messages. -/
theorem run_sends (ops : List NetOp) (hQ : ∀ o ∈ ops, ∀ msg, o.Sends m.peer_id msg → Q msg) :
    (run m ops).peer_id = m.peer_id ∧
      ∃ new, (run m ops).sent = m.sent ++ new ∧ ∀ e ∈ new, Q e.2 := by
  induction ops generalizing m with
  | nil => exact ⟨rfl, [], (List.append_nil _).symm, fun _ h => nomatch h⟩
  | cons o ops ih =>
    obtain ⟨hpid, new₁, h₁, hn₁⟩ := step_sends (m := m) o
    obtain ⟨hpid₂, new₂, h₂, hn₂⟩ :=
      ih (m := step m o) fun o' ho' msg hs => hQ o' (.tail _ ho') msg (hpid ▸ hs)
    refine ⟨hpid₂.trans hpid, new₁ ++ new₂,
      by rw [run, List.foldl_cons, ← run, h₂, h₁, List.append_assoc], ?_⟩
    intro e he
    rcases List.mem_append.1 he with he | he
    · exact hQ o (.head _) _ (hn₁ e he)
    · exact hn₂ e he

theorem LogStep.sentKnown {m' : NetworkManager} (h : LogStep m m') (hc : ConnectionsKnown m)
    (hs : SentKnown m) : SentKnown m' := fun e he => by
  obtain ⟨⟨new, hsent, hnew⟩, hpeers⟩ := h
  rw [hsent] at he
  rcases List.mem_append.1 he with he | he
  · exact hpeers _ (hs e he)
  · exact hpeers _ (hc _ (hnew e he))

/-- Over every run from a manager whose connections and messages are to recorded peers, every
message in the log went to a recorded peer. -/
theorem run_sentKnown (hc : ConnectionsKnown m) (hs : SentKnown m) (ops : List NetOp) :
    SentKnown (run m ops) := by
  induction ops generalizing m with
  | nil => exact hs
  | cons o ops ih => exact ih (step_connectionsKnown hc o) ((step_logStep o).sentKnown hc hs)

/-- A connection after a step was there before, or the step is the handshake that opened it. -/
theorem step_connections (o : NetOp) (p : String)
    (hp : (Smap.get? (step m o).connections p).isSome) :
    (Smap.get? m.connections p).isSome ∨ ∃ addr, o = .handshake addr p := by
  cases o with
  | handshake peer_addr remote =>
    simp only [step] at hp
    split_ifs at hp
    · simp only [handshake, Smap.get?_insert] at hp
      split_ifs at hp with e
      · exact .inr ⟨peer_addr, e ▸ rfl⟩
      · exact .inl hp
    · exact .inl hp
  | shutdown => cases hp
  | _ => refine .inl ((step_extends _ ?_ ?_).2.2.1 ▸ hp) <;> exact nofun

/-- Every message a run appends goes to a peer connected when the run started, or to one whose
handshake is a step of the run. -/
theorem run_sent_to (ops : List NetOp) :
    ∃ new, (run m ops).sent = m.sent ++ new ∧ ∀ e ∈ new,
      (Smap.get? m.connections e.1).isSome ∨ ∃ addr, NetOp.handshake addr e.1 ∈ ops := by
  induction ops generalizing m with
  | nil => exact ⟨[], (List.append_nil _).symm, fun _ h => nomatch h⟩
  | cons o ops ih =>
    obtain ⟨⟨new₁, h₁, hn₁⟩, -⟩ := step_logStep (m := m) o
    obtain ⟨new₂, h₂, hn₂⟩ := ih (m := step m o)
    refine ⟨new₁ ++ new₂, by rw [run, List.foldl_cons, ← run, h₂, h₁, List.append_assoc], ?_⟩
    intro e he
    rcases List.mem_append.1 he with he | he
    · exact .inl (hn₁ e he)
    rcases hn₂ e he with hc | ⟨addr, ha⟩
    · rcases step_connections o e.1 hc with hc | ⟨addr, rfl⟩
      · exact .inl hc
      · exact .inr ⟨addr, .head _⟩
    · exact .inr ⟨addr, .tail _ ha⟩

/-- After `shutdown`, the manager writes to no peer it was connected to before unless a new
handshake with it completes: every message a later run appends goes to a peer whose handshake is
a step of that run. -/
theorem messages_after_shutdown (m : NetworkManager) (ops : List NetOp) :
    ∃ new, (run (m.step .shutdown) ops).sent = m.sent ++ new ∧
      ∀ e ∈ new, ∃ addr, NetOp.handshake addr e.1 ∈ ops := by
  obtain ⟨new, h, hn⟩ := run_sent_to (m := m.step .shutdown) ops
  exact ⟨new, h, fun e he => (hn e he).resolve_left nofun⟩

theorem new_connectionsKnown (peer_id : String) : ConnectionsKnown (new peer_id) :=
  fun _ hp => by cases hp

theorem new_sentKnown (peer_id : String) : SentKnown (new peer_id) := fun _ he => by cases he

/-! ### Where the peers come from

Only a handshake records a peer, and only for an address being dialed; only `join_network` adds
addresses to dial, its bootstrap peers. -/

/-- Every address being dialed, and the address of every recorded peer, was given to
`join_network` by a step of `ops`; each peer's entry names that peer. -/
def DialedFrom (ops : List NetOp) (m : NetworkManager) : Prop :=
  (∀ a ∈ m.dialing, ∃ o ∈ ops, o.Dials a) ∧
    ∀ p info, Smap.get? m.peers p = some info →
      info.peer_id = p ∧ ∃ a, info.addrs = [a] ∧ ∃ o ∈ ops, o.Dials a

theorem handshake_dialedFrom {ops : List NetOp} (h : DialedFrom ops m) {a : String}
    (ha : a ∈ m.dialing) (r : String) : DialedFrom ops (handshake a r m) := by
  refine ⟨fun x hx => h.1 x (List.mem_of_mem_erase hx), fun p info hp => ?_⟩
  simp only [handshake, Smap.get?_insert] at hp
  split_ifs at hp with e
  · cases hp
    exact ⟨e, a, rfl, h.1 a ha⟩
  · exact h.2 p info hp

theorem step_dialedFrom {ops : List NetOp} (h : DialedFrom ops m) {o : NetOp} (ho : o ∈ ops) :
    DialedFrom ops (step m o) := by
  by_cases hh : ∃ a r, o = .handshake a r
  · obtain ⟨a, r, rfl⟩ := hh
    show DialedFrom ops (if a ∈ m.dialing then handshake a r m else m)
    split
    · exact handshake_dialedFrom h ‹_› r
    · exact h
  by_cases hs : o = .shutdown
  · subst hs
    exact h
  obtain ⟨-, hpeers, -, -, addrs, hd, ha⟩ := step_extends (m := m) o (fun a r e => hh ⟨a, r, e⟩) hs
  refine ⟨fun x hx => ?_, fun p info hp => h.2 p info (hpeers ▸ hp)⟩
  rw [hd] at hx
  rcases List.mem_append.1 hx with hx | hx
  · exact h.1 x hx
  · exact ⟨o, ho, ha x hx⟩

theorem run_dialedFrom {ops : List NetOp} (h : DialedFrom ops m) {ops' : List NetOp}
    (hsub : ∀ o ∈ ops', o ∈ ops) : DialedFrom ops (run m ops') := by
  induction ops' generalizing m with
  | nil => exact h
  | cons o ops' ih =>
    exact ih (step_dialedFrom h (hsub o (.head _))) fun o' h' => hsub o' (.tail _ h')

/-- On every manager reachable from `new`, every message written went to a peer the manager
dialed: the peer's entry names it and the one address it was reached at, an address that a
`join_network` of the run was given to dial. The manager writes to no peer it did not dial. -/
theorem sent_to_dialed_peers (peer_id : String) (ops : List NetOp) :
    let m := run (new peer_id) ops
    ∀ e ∈ m.sent, ∃ info, Smap.get? m.peers e.1 = some info ∧ info.peer_id = e.1 ∧
      ∃ addr, info.addrs = [addr] ∧ ∃ b network_id bootstrap_peers,
        NetOp.join_network b network_id bootstrap_peers ∈ ops ∧ addr ∈ bootstrap_peers := by
  intro m e he
  obtain ⟨info, hinfo⟩ := Option.isSome_iff_exists.1
    (run_sentKnown (new_connectionsKnown _) (new_sentKnown _) ops e he)
  obtain ⟨hid, addr, haddr, o, ho, hd⟩ :=
    (run_dialedFrom (m := new peer_id) ⟨nofun, nofun⟩ fun _ h => h).2 e.1 info hinfo
  refine ⟨info, hinfo, hid, addr, haddr, ?_⟩
  cases o with
  | join_network b network_id bootstrap_peers => exact ⟨b, network_id, bootstrap_peers, ho, hd⟩
  | _ => cases hd

end Log


/-- The bookkeeping of every manager reachable from `new`: networks and statistics have the same
ids, each network and its record carry their id, the record counts the network's collections (a
map, each collection once) as an `i32`, which is their number while there are fewer than `2^31`,
every connection is to a recorded peer, and the manager is initialized exactly when it holds a
listener. -/
theorem bookkeeping_consistent (peer_id : String) (ops : List NetOp) :
    let m := run (new peer_id) ops
    (∀ n, (Smap.get? m.networks n).isSome ↔ (Smap.get? m.stats n).isSome) ∧
      (∀ n cfg, Smap.get? m.networks n = some cfg → cfg.network_id = n ∧
        ∃ st, Smap.get? m.stats n = some st ∧ st.network_id = n ∧
          Smap.Sorted cfg.collections ∧ st.collections_shared = asI32 cfg.collections.length ∧
          (cfg.collections.length < 2147483648 →
            st.collections_shared = cfg.collections.length)) ∧
      (∀ p, (Smap.get? m.connections p).isSome → (Smap.get? m.peers p).isSome) ∧
      (m.initialized = true ↔ m.listening = true) := by
  intro m
  have hi : Invariant m := run_invariant (new_invariant peer_id) ops
  refine ⟨fun n => ⟨fun hn => ?_, fun hs => ?_⟩, fun n cfg hn => ?_,
    run_connectionsKnown (fun _ hp => by cases hp) ops, by rw [hi.listening]⟩
  · obtain ⟨cfg, hcfg⟩ := Option.isSome_iff_exists.1 hn
    obtain ⟨-, -, st, hst, -⟩ := hi.stats.recorded n cfg hcfg
    rw [hst]; rfl
  · obtain ⟨st, hst⟩ := Option.isSome_iff_exists.1 hs
    exact hi.stats.stats_known n st hst
  · obtain ⟨hid, hsorted, st, hst, hstid, hcount⟩ := hi.stats.recorded n cfg hn
    exact ⟨hid, st, hst, hstid, hsorted, hcount, fun hl => hcount.trans (asI32_of_lt hl)⟩

/-! ## Counting past `i32::MAX`

`collections_shared` is `len() as i32`: a network sharing `2^31` collections counts `i32::MIN`. -/

/-- The name of the `i`-th collection `shareMany` adds: `i` letters `c`. -/
def manyName (i : Nat) : String := ⟨List.replicate i 'c'⟩

/-- `create_network` of `network_id`, then `add_collection_to_network` of `k` collections with
distinct names. -/
def shareMany (network_id : String) (k : Nat) : List NetOp :=
  .create_network (.ok ()) ⟨network_id, network_id, []⟩ ::
    (List.range k).map fun i => .add_collection_to_network 0 network_id (manyName i)

theorem run_shareMany_succ (m : NetworkManager) (network_id : String) (k : Nat) :
    run m (shareMany network_id (k + 1)) =
      (run m (shareMany network_id k)).step (.add_collection_to_network 0 network_id (manyName k)) := by
  simp only [shareMany, List.range_succ, List.map_append, ← List.cons_append, run,
    List.foldl_append, List.map_cons, List.map_nil, List.foldl_cons, List.foldl_nil]

/-- After `shareMany network_id k` the network lists `k` collections, each name shorter than `k`. -/
theorem shareMany_collections (peer_id network_id : String) (k : Nat) :
    ∃ cfg, Smap.get? (run (new peer_id) (shareMany network_id k)).networks network_id = some cfg ∧
      cfg.collections.length = k ∧ ∀ e ∈ cfg.collections, e.1.length < k := by
  induction k with
  | zero =>
    refine ⟨⟨network_id, network_id, []⟩, ?_, rfl, nofun⟩
    simp [shareMany, run, step, create_network, initialize_listener, new, addNetwork, bind_apply,
      get_apply, set_apply, pure_apply, map_apply, EStateM.bind, EStateM.map]
  | succ k ih =>
    obtain ⟨cfg, hcfg, hlen, hkeys⟩ := ih
    have hnew : Smap.get? cfg.collections (manyName k) = none :=
      Smap.get?_eq_none_iff.2 fun hm => by
        obtain ⟨e, he, heq⟩ := List.mem_map.1 hm
        have := hkeys e he
        rw [heq] at this
        simp [manyName, String.length] at this
    have hnet := networks_add_collection_to_network 0 network_id (manyName k)
      (run (new peer_id) (shareMany network_id k))
    rw [hcfg] at hnet
    refine ⟨{ cfg with collections := Smap.insert (manyName k) true cfg.collections }, ?_,
      by rw [Smap.length_insert_of_get?_none hnew, hlen], fun e he => ?_⟩
    · rw [run_shareMany_succ]
      exact (congrArg (Smap.get? · network_id) hnet).trans (by simp)
    · rcases Smap.mem_insert he with rfl | he
      · simp [manyName]
      · exact Nat.lt_succ_of_lt (hkeys e he)

/-- Sharing `2^31` collections in one network wraps its count: `collections_shared` is
`i32::MIN`, not the number of collections. -/
theorem collections_shared_wraps :
    ∃ cfg st, Smap.get? (run (new "p") (shareMany "n" 2147483648)).networks "n" = some cfg ∧
      Smap.get? (run (new "p") (shareMany "n" 2147483648)).stats "n" = some st ∧
      cfg.collections.length = 2147483648 ∧ st.collections_shared = -2147483648 := by
  obtain ⟨cfg, hcfg, hlen, -⟩ := shareMany_collections "p" "n" 2147483648
  obtain ⟨-, -, st, hst, -, hcount⟩ :=
    (run_invariant (new_invariant "p") _).stats.recorded _ _ hcfg
  have hw : asI32 2147483648 = -2147483648 := by decide
  exact ⟨cfg, st, hcfg, hst, hlen, by rw [hcount, hlen, hw]⟩

end NetworkManager

end Knirvbase
