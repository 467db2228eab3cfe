import Knirvbase.Clock
import Knirvbase.Json

/-!
# Shared types

`types.rs`: documents with their CRDT metadata, operations, protocol messages and the network
bookkeeping records, with the JSON forms `serde` derives for the ones the source serializes (field
names as declared, unit variants by name, a `None` payload or stage and a `false` tombstone
skipped).
-/

set_option autoImplicit false

namespace Knirvbase

/-- `EntryType`. -/
inductive EntryType
  | Memory
  | Auth
  deriving DecidableEq, Repr

/-- The derived `Serialize`: the variant name. -/
def EntryType.toJson : EntryType → Value
  | .Memory => .string "Memory"
  | .Auth => .string "Auth"

/-- `VectorClock` serializes as its map. -/
def VectorClock.toJson (v : VectorClock) : Value :=
  .object (v.entries.map fun kc => (kc.1, .number kc.2))

/-- `DistributedDocument`. -/
structure DistributedDocument where
  id : String
  entry_type : EntryType
  payload : Option (List (String × Value))
  vector : VectorClock
  timestamp : Int
  peer_id : String
  stage : Option String
  deleted : Bool

/-- `serde_json::to_value(&doc)` read back as a `HashMap<String, Value>`. -/
def DistributedDocument.toJson (d : DistributedDocument) : List (String × Value) :=
  [] |> Smap.insert "id" (.string d.id)
    |> Smap.insert "entry_type" d.entry_type.toJson
    |> Smap.insertOpt "payload" (d.payload.map .object)
    |> Smap.insert "vector" d.vector.toJson
    |> Smap.insert "timestamp" (.number d.timestamp)
    |> Smap.insert "peer_id" (.string d.peer_id)
    |> Smap.insertOpt "stage" (d.stage.map .string)
    |> Smap.insertOpt "deleted" (if d.deleted then some (.bool true) else none)

section ToJson

variable (d : DistributedDocument)

theorem DistributedDocument.get?_toJson_id : Smap.get? d.toJson "id" = some (.string d.id) := by
  unfold toJson
  cases d.stage <;> cases d.deleted <;> cases d.payload <;> simp [Smap.insertOpt, Smap.get?_insert]

theorem DistributedDocument.get?_toJson_vector :
    Smap.get? d.toJson "vector" = some d.vector.toJson := by
  unfold toJson
  cases d.stage <;> cases d.deleted <;> cases d.payload <;> simp [Smap.insertOpt, Smap.get?_insert]

theorem DistributedDocument.get?_toJson_payload :
    Smap.get? d.toJson "payload" = d.payload.map .object := by
  unfold toJson
  cases d.stage <;> cases d.deleted <;> cases d.payload <;> simp [Smap.insertOpt, Smap.get?_insert]

/-- The JSON form has no `entryType` field, so storage never takes its `MEMORY` step. -/
theorem DistributedDocument.get?_toJson_entryType : Smap.get? d.toJson "entryType" = none := by
  unfold toJson
  cases d.stage <;> cases d.deleted <;> cases d.payload <;> simp [Smap.insertOpt, Smap.get?_insert]

end ToJson

/-- `OperationType`. -/
inductive OperationType
  | Insert
  | Update
  | Delete
  deriving DecidableEq, Repr

/-- The derived `Serialize`: the variant name. -/
def OperationType.toJson : OperationType → Value
  | .Insert => .string "Insert"
  | .Update => .string "Update"
  | .Delete => .string "Delete"

/-- `CRDTOperation`. -/
structure CRDTOperation where
  id : String
  op_type : OperationType
  collection : String
  document_id : String
  data : Option DistributedDocument
  vector : VectorClock
  timestamp : Int
  peer_id : String

/-- `serde_json::to_value(&operation)`. -/
def CRDTOperation.toJson (op : CRDTOperation) : Value :=
  .object <| [] |> Smap.insert "id" (.string op.id)
    |> Smap.insert "op_type" op.op_type.toJson
    |> Smap.insert "collection" (.string op.collection)
    |> Smap.insert "document_id" (.string op.document_id)
    |> Smap.insertOpt "data" (op.data.map fun d => .object d.toJson)
    |> Smap.insert "vector" op.vector.toJson
    |> Smap.insert "timestamp" (.number op.timestamp)
    |> Smap.insert "peer_id" (.string op.peer_id)

/-- `MessageType`. -/
inductive MessageType
  | SyncRequest
  | SyncResponse
  | Operation
  | Heartbeat
  | CollectionAnnounce
  | CollectionRequest
  deriving DecidableEq, Repr

/-- `ProtocolMessage`, the envelope written as one frame. -/
structure ProtocolMessage where
  msg_type : MessageType
  network_id : String
  sender_id : String
  timestamp : Int
  payload : Value

/-- `NetworkConfig`: the fields the network manager reads or writes. -/
structure NetworkConfig where
  network_id : String
  name : String
  collections : List (String × Bool)

/-- `PeerInfo`: the fields a handshake records. -/
structure PeerInfo where
  peer_id : String
  addrs : List String

/-- `NetworkStats`: the fields the network manager writes other than zero. -/
structure NetworkStats where
  network_id : String
  collections_shared : Int

/-- `len() as i32`: the low 32 bits of a length, read in two's complement. -/
def asI32 (n : Nat) : Int := (((n + 2147483648) % 4294967296 : Nat) : Int) - 2147483648

/-- A length below `2^31` is kept by the cast. -/
theorem asI32_of_lt {n : Nat} (h : n < 2147483648) : asI32 n = n := by
  rw [asI32, Nat.mod_eq_of_lt (by omega)]
  omega

/-- `SyncState`. -/
structure SyncState where
  collection : String
  network_id : String
  local_vector : VectorClock
  last_sync : Int
  pending_operations : List CRDTOperation
  staged_entries : List String
  sync_in_progress : Bool

end Knirvbase
