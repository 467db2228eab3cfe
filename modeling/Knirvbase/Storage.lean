import Mathlib.Data.List.Dedup
import Knirvbase.Crypto
import Knirvbase.PathResolution

/-!
# File storage

`FileStorage` (`storage.rs`) keeps each document of a collection in `<base>/<collection>/<id>.json`
and the blob of a `MEMORY` document in `<base>/<collection>/blobs/<id>`; in the six sensitive
collections the sensitive fields of a document's payload are stored as `encrypt_data` envelopes
beside `<field>_encrypted: true`.

The disk holds files of bytes and directories, each under the key its path resolves to
(`PathResolution`), in an environment the process does not change: its working directory, the
entries it may not create, change or remove, and the files whose writes stop short for lack of
space. Every file and directory lies in a directory, and no file is a directory; the disk's fields
say so. The calls of `std::fs` the store makes check what the system checks and fail with its
messages: a lookup stops at a directory on the way that is missing or is a file (`lookupError`);
`fs::write` truncates the file before writing, so a write that runs out of space leaves the bytes
written so far; `fs::create_dir_all` is the recursion of `std`, creating each missing directory
down the path. A storage call runs in `EStateM`: when it fails, what it did before failing stays
done. A directory is listed by the names of the files and directories in it (`Disk.readDir`), in
an order the platform chooses, which `find_all` takes as an argument.
-/

set_option autoImplicit false

namespace Knirvbase

/-- A document, `HashMap<String, Value>`. -/
abbrev Doc := List (String × Value)

/-! ## The disk -/

/-- `io::Error` of `ENOENT`, as it displays. -/
def enoent : String := "No such file or directory (os error 2)"

/-- `io::Error` of `ENOTDIR`. -/
def enotdir : String := "Not a directory (os error 20)"

/-- `io::Error` of `EISDIR`. -/
def eisdir : String := "Is a directory (os error 21)"

/-- `io::Error` of `EACCES`. -/
def eacces : String := "Permission denied (os error 13)"

/-- `io::Error` of `EEXIST`. -/
def eexist : String := "File exists (os error 17)"

/-- `io::Error` of `ENOSPC`. -/
def enospc : String := "No space left on device (os error 28)"

/-- What the process runs in and does not change: its working directory, the entries it may not
create, change or remove, and the files a write to which stops after the given number of bytes
because the device is full. -/
structure Env where
  cwd : List (List Char)
  cwd_normal : ∀ c ∈ cwd, Normal c
  readOnly : List String
  shortWrites : List (String × Nat)

/-- The number of bytes a write of `len` bytes to the file `k` gets down before the device is
full, when it stops short. -/
def Env.shortWrite (env : Env) (k : String) (len : Nat) : Option Nat :=
  match env.shortWrites.lookup k with
  | some n => if n < len then some n else none
  | none => none

/-- The key `k` is the root's or one of `dirs`. -/
def DirIn (dirs : List String) (k : String) : Prop := k = "" ∨ k ∈ dirs

instance (dirs : List String) (k : String) : Decidable (DirIn dirs k) := instDecidableOr

theorem DirIn.cons {dirs : List String} {k : String} (h : DirIn dirs k) (x : String) :
    DirIn (x :: dirs) k :=
  h.imp id (.tail _)

/-- The files by key with their bytes, and the keys of the directories other than the root, in an
environment. Every file and directory lies in a directory, no file is a directory, and the
working directory is a directory. -/
structure Disk where
  files : List (String × Bytes)
  sorted : Smap.Sorted files
  dirs : List String
  env : Env
  file_not_dir : ∀ k, (Smap.get? files k).isSome → ¬DirIn dirs k
  file_parent : ∀ k, (Smap.get? files k).isSome → DirIn dirs (parentKey k)
  dir_parent : ∀ k ∈ dirs, DirIn dirs (parentKey k)
  cwd_dir : DirIn dirs (keyOf env.cwd)

/-- A computation on the disk; a failure keeps what was done before it. -/
abbrev DiskM := EStateM String Disk

namespace Disk

/-- The key of the file or directory `path` names. -/
def key (d : Disk) (path : String) : String := keyOf (walk d.env.cwd path)

/-- The bytes of the file `path` names. -/
def fileAt (d : Disk) (path : String) : Option Bytes := Smap.get? d.files (d.key path)

/-- Where a lookup through the directories `pass` stops: at the first that is not a directory,
with `ENOTDIR` when a file stands there and `ENOENT` otherwise. -/
def passError (d : Disk) : List (List (List Char)) → Option String
  | [] => none
  | st :: pass =>
    if DirIn d.dirs (keyOf st) then d.passError pass
    else some (if (Smap.get? d.files (keyOf st)).isSome then enotdir else enoent)

/-- Where the lookup of `path` stops before its last component; the empty path names nothing. -/
def lookupError (d : Disk) (path : String) : Option String :=
  if path.data = [] then some enoent else d.passError (passes d.env.cwd path)

/-- `Path::exists`: the lookup reaches a file or a directory. -/
def pathExists (d : Disk) (path : String) : Bool :=
  d.lookupError path = none && ((d.fileAt path).isSome || decide (DirIn d.dirs (d.key path)))

/-- `fs::read`. -/
def read (d : Disk) (path : String) : Except String Bytes :=
  match d.lookupError path with
  | some e => .error e
  | none =>
    match d.fileAt path with
    | some b => .ok b
    | none => .error (if DirIn d.dirs (d.key path) then eisdir else enoent)

theorem isSome_of_get?_remove {m : List (String × Bytes)} (hm : Smap.Sorted m) {k x : String}
    (h : (Smap.get? (Smap.remove k m) x).isSome) : (Smap.get? m x).isSome := by
  rw [Smap.get?_remove hm] at h
  split_ifs at h
  · cases h
  · exact h

/-- The disk with the bytes `b` in the file `k`, which is no directory and lies in one. -/
def store (d : Disk) (k : String) (b : Bytes) : Disk :=
  if h : ¬DirIn d.dirs k ∧ DirIn d.dirs (parentKey k) then
    { d with
      files := Smap.insert k b d.files
      sorted := d.sorted.insert k b
      file_not_dir := fun x hx => by
        rw [Smap.get?_insert] at hx
        split_ifs at hx with hkx
        · exact hkx ▸ h.1
        · exact d.file_not_dir x hx
      file_parent := fun x hx => by
        rw [Smap.get?_insert] at hx
        split_ifs at hx with hkx
        · exact hkx ▸ h.2
        · exact d.file_parent x hx }
  else d

/-- The disk without the file `k`. -/
def erase (d : Disk) (k : String) : Disk :=
  { d with
    files := Smap.remove k d.files
    sorted := d.sorted.remove k
    file_not_dir := fun x hx => d.file_not_dir x (isSome_of_get?_remove d.sorted hx)
    file_parent := fun x hx => d.file_parent x (isSome_of_get?_remove d.sorted hx) }

/-- The disk with the directory `k`, where no file is and that lies in a directory. -/
def addDir (d : Disk) (k : String) : Disk :=
  if h : (Smap.get? d.files k).isSome = false ∧ DirIn d.dirs (parentKey k) then
    { d with
      dirs := k :: d.dirs
      file_not_dir := fun x hx => by
        rintro (hx' | hx')
        · exact d.file_not_dir x hx (.inl hx')
        · rcases List.mem_cons.1 hx' with rfl | hx'
          · rw [h.1] at hx; cases hx
          · exact d.file_not_dir x hx (.inr hx')
      file_parent := fun x hx => (d.file_parent x hx).cons k
      dir_parent := fun x hx => by
        rcases List.mem_cons.1 hx with rfl | hx
        · exact h.2.cons _
        · exact (d.dir_parent x hx).cons k
      cwd_dir := d.cwd_dir.cons k }
  else d

/-- A fresh disk: no file, no directory but the root, which is the working directory; every entry
may be changed and every write completes. -/
def empty : Disk where
  files := []
  sorted := List.Pairwise.nil
  dirs := []
  env := ⟨[], nofun, [], []⟩
  file_not_dir := fun _ h => by cases h
  file_parent := fun _ h => by cases h
  dir_parent := nofun
  cwd_dir := .inl rfl

/-- `fs::write`: the file is created or truncated, then the bytes are written; a write that runs
out of space leaves the bytes written so far. -/
def write (path : String) (b : Bytes) : DiskM Unit := fun d =>
  match d.lookupError path with
  | some e => .error e d
  | none =>
    if DirIn d.dirs (d.key path) then .error eisdir d
    else if ¬DirIn d.dirs (parentKey (d.key path)) then .error enoent d
    else if d.key path ∈ d.env.readOnly then .error eacces d
    else
      match d.env.shortWrite (d.key path) b.length with
      | some n => .error enospc (d.store (d.key path) (b.take n))
      | none => .ok () (d.store (d.key path) b)

/-- `fs::remove_file`. -/
def removeFile (path : String) : DiskM Unit := fun d =>
  match d.lookupError path with
  | some e => .error e d
  | none =>
    if (d.fileAt path).isNone ∧ ¬DirIn d.dirs (d.key path) then .error enoent d
    else if d.key path ∈ d.env.readOnly then .error eacces d
    else if DirIn d.dirs (d.key path) then .error eisdir d
    else .ok () (d.erase (d.key path))

/-- `if path.exists() { fs::remove_file(path)? }`. -/
def removeIfExists (path : String) : DiskM Unit := fun d =>
  if d.pathExists path then removeFile path d else .ok () d

/-- `mkdir` of the directory `st` after a lookup through `pass`: it fails when the lookup stops,
when something is there already, or where the process may not create it. -/
def mkdir (d : Disk) (pass : List (List (List Char))) (st : List (List Char)) :
    Except String Disk :=
  match d.passError pass with
  | some e => .error e
  | none =>
    if (Smap.get? d.files (keyOf st)).isSome ∨ DirIn d.dirs (keyOf st) then .error eexist
    else if ¬DirIn d.dirs (parentKey (keyOf st)) then .error enoent
    else if keyOf st ∈ d.env.readOnly then .error eacces
    else .ok (d.addDir (keyOf st))

/-- `Path::is_dir` of the directory `st` after a lookup through `pass`. -/
def isDirAt (d : Disk) (pass : List (List (List Char))) (st : List (List Char)) : Bool :=
  d.passError pass = none && decide (DirIn d.dirs (keyOf st))

/-- `create_dir_all` of the path whose components after the start `s0` are, from the last, `rcs`:
`mkdir`; when a directory on the way is missing, the same for the parent path, then `mkdir` again;
an error is none when the directory is there. -/
def createDirAllRev (s0 : List (List Char)) : List (List Char) → DiskM Unit
  | [] => pure ()
  | c :: rcs => fun d =>
    match d.mkdir (visited s0 rcs.reverse) (pushComponent (rcs.reverse.foldl pushComponent s0) c) with
    | .ok d' => .ok () d'
    | .error e =>
      if e = enoent then
        match createDirAllRev s0 rcs d with
        | .ok () d₁ =>
          match d₁.mkdir (visited s0 rcs.reverse) (pushComponent (rcs.reverse.foldl pushComponent s0) c) with
          | .ok d₂ => .ok () d₂
          | .error e' =>
            if d₁.isDirAt (visited s0 rcs.reverse) (pushComponent (rcs.reverse.foldl pushComponent s0) c)
            then .ok () d₁ else .error e' d₁
        | .error e₁ d₁ => .error e₁ d₁
      else if d.isDirAt (visited s0 rcs.reverse) (pushComponent (rcs.reverse.foldl pushComponent s0) c)
      then .ok () d else .error e d

/-- `fs::create_dir_all`. -/
def createDirAll (path : String) : DiskM Unit := fun d =>
  createDirAllRev (start d.env.cwd path) (lexComponents path).reverse d

/-- The entry of the directory with the key `dir` that the file or directory `k` is. -/
def entryName (dir k : String) : Option String :=
  if k ≠ "" ∧ parentKey k = dir then some (lastName k) else none

/-- `fs::read_dir`: the names of the files and directories in the directory `path`, each once;
the order in which the platform yields them is left to the caller. -/
def readDir (d : Disk) (path : String) : Except String (List String) :=
  match d.lookupError path with
  | some e => .error e
  | none =>
    if DirIn d.dirs (d.key path) then
      .ok ((d.files.map Prod.fst ++ d.dirs).filterMap (entryName (d.key path))).dedup
    else .error (if (d.fileAt path).isSome then enotdir else enoent)

/-- A pure result or error, on an unchanged disk. -/
def liftExcept {α : Type} (x : Except String α) : DiskM α := fun d =>
  match x with
  | .ok a => .ok a d
  | .error e => .error e d

end Disk

/-! ## The store -/

/-- `FileStorage`. -/
structure FileStorage where
  base_dir : String
  encryption_mgr : EncryptionManager

/-- `sensitive_fields` of `is_sensitive_field`. -/
def sensitiveFields : List (String × List String) :=
  [("access_control", ["permissions"]), ("audit_log", ["details"]),
    ("credentials", ["hash", "salt"]),
    ("pqc_keys", ["kyber_private_key", "dilithium_private_key"]),
    ("sessions", ["token_hash"]), ("threat_events", ["indicators"])]

namespace FileStorage

variable (s : FileStorage)

/-- The id `insert` files a document under: `doc.get("id").and_then(|v| v.as_str())`. -/
def docId (doc : Doc) : Option String := (Smap.get? doc "id").bind Value.asStr

/-- `get_collection_dir`. -/
def get_collection_dir (collection : String) : String := joinPath s.base_dir collection

/-- `get_doc_path`. -/
def get_doc_path (collection id : String) : String :=
  joinPath (s.get_collection_dir collection) (id ++ ".json")

/-- The blob path of `save_blob` and `delete`. -/
def get_blob_path (collection id : String) : String :=
  joinPath (joinPath (s.get_collection_dir collection) "blobs") id

/-- The blob directory ends in `s`, so `Path::join` puts a `/` after it. -/
theorem separator_blob_dir (collection : String) :
    separator (joinPath (s.get_collection_dir collection) "blobs") = "/" := by
  refine separator_of_getLast (c := 's') ?_ (by decide)
  rw [joinPath_of_relative (by decide)]
  simp [List.getLast?_append]

/-- `SetMasterKey`. -/
def set_master_key (key_pair : PQCKeyPair) : FileStorage :=
  { s with encryption_mgr := s.encryption_mgr.set_master_key key_pair }

/-- `IsEncryptedCollection`. -/
def is_encrypted_collection (collection : String) : Bool :=
  collection ∈ ["credentials", "pqc_keys", "sessions", "audit_log", "threat_events",
    "access_control"]

/-- `is_sensitive_field`. -/
def is_sensitive_field (collection field_name : String) : Bool :=
  match Smap.get? sensitiveFields collection with
  | some fields => field_name ∈ fields
  | none => false

/-- `serde_json::from_slice` of the bytes of a file. -/
def parseBytes (P : Primitives) (b : Bytes) : Except String Value :=
  match P.fromSlice b with
  | some v => .ok v
  | none => .error "JSON parse error"

/-- `save_blob`: writes `blobs/<id>` and returns its path. -/
def save_blob (P : Primitives) (collection id : String) (blob : Value) : DiskM String := do
  Disk.createDirAll (joinPath (s.get_collection_dir collection) "blobs")
  Disk.write (s.get_blob_path collection id) (P.toVec blob)
  pure (s.get_blob_path collection id)

/-- `load_blob`. -/
def load_blob (P : Primitives) (d : Disk) (blob_ref : String) : Except String Value := do
  let data ← d.read blob_ref
  parseBytes P data

/-- The payload of a `MEMORY` document: `entryType` is the string `MEMORY` and `payload` an
object. -/
def memoryPayload (doc : Doc) : Option (List (String × Value)) :=
  match Smap.get? doc "entryType", Smap.get? doc "payload" with
  | some (.string entry_type), some (.object payload) =>
    if entry_type = "MEMORY" then some payload else none
  | _, _ => none

/-- The `MEMORY` step of `insert`: a payload's `blob` goes to its own file, `blobRef` names it. -/
def externalizeBlob (P : Primitives) (collection id : String) (doc : Doc) : DiskM Doc :=
  match memoryPayload doc with
  | some payload =>
    match Smap.get? payload "blob" with
    | some blob => do
      let blob_path ← s.save_blob P collection id blob
      pure (Smap.insert "payload"
        (.object (Smap.insert "blobRef" (.string blob_path) (Smap.remove "blob" payload))) doc)
    | none => pure doc
  | none => pure doc

/-- The `MEMORY` step of `find`: a readable `blobRef` is read back into `blob`. -/
def inlineBlob (P : Primitives) (d : Disk) (doc : Doc) : Doc :=
  match memoryPayload doc with
  | some payload =>
    match Smap.get? payload "blobRef" with
    | some (.string blob_ref) =>
      match load_blob P d blob_ref with
      | .ok blob =>
        Smap.insert "payload"
          (.object (Smap.remove "blobRef" (Smap.insert "blob" blob payload))) doc
      | .error _ => doc
    | _ => doc
  | none => doc

/-! ## Encryption of sensitive fields -/

section Encryption

variable (P : Primitives) (now : Int)

/-- What the loop of `encrypt_payload` writes for one field. -/
def encryptField (collection key_id : String) (draw : String → Draw) (key : String)
    (value : Value) : Except String (List (String × Value)) :=
  if is_sensitive_field collection key then do
    let value_bytes := P.toVec value
    let encrypted_value ← s.encryption_mgr.encrypt_data P now value_bytes key_id (draw key)
    pure [(key, .string encrypted_value), (key ++ "_encrypted", .bool true)]
  else pure [(key, value)]

/-- `encrypt_payload`; `draw key` is the randomness of the field `key`'s envelope. -/
def encrypt_payload (collection : String) (payload : List (String × Value)) (key_id : String)
    (draw : String → Draw) : Except String (List (String × Value)) :=
  payload.foldlM (fun encrypted kv => do
    let out ← s.encryptField P now collection key_id draw kv.1 kv.2
    pure (Smap.insertAll encrypted out)) []

/-- `encrypt_document`. -/
def encrypt_document (collection : String) (doc : Doc) (draw : String → Draw) :
    Except String Doc :=
  match s.encryption_mgr.master_key with
  | none => .error "no master key set for encryption"
  | some master =>
    match Smap.get? doc "payload" with
    | some (.object payload) => do
      let encrypted_payload ← s.encrypt_payload P now collection payload master.id draw
      pure (Smap.insert "encryption_key_id" (.string master.id)
        (Smap.insert "encrypted" (.bool true)
          (Smap.insert "payload" (.object encrypted_payload) doc)))
    | _ => pure doc

/-- What the loop of `decrypt_payload` keeps of one field. -/
def decryptField (payload : List (String × Value)) (key : String) (value : Value) :
    Except String (List (String × Value)) :=
  if endsWith key "_encrypted" then pure []
  else
    match Smap.get? payload (key ++ "_encrypted") with
    | some (.bool true) =>
      match value with
      | .string encrypted_value => do
        let decrypted_bytes ← s.encryption_mgr.decrypt_data P now encrypted_value
        match P.fromSlice decrypted_bytes with
        | some decrypted_value => pure [(key, decrypted_value)]
        | none => throw "JSON parse error"
      | _ => pure []
    | _ => pure [(key, value)]

/-- `decrypt_payload`. -/
def decrypt_payload (payload : List (String × Value)) : Except String (List (String × Value)) :=
  payload.foldlM (fun decrypted kv => do
    let out ← s.decryptField P now payload kv.1 kv.2
    pure (Smap.insertAll decrypted out)) []

/-- `decrypt_document`. -/
def decrypt_document (doc : Doc) : Except String Doc := do
  let doc ← match Smap.get? doc "payload" with
    | some (.object payload) => do
      let decrypted_payload ← s.decrypt_payload P now payload
      pure (Smap.insert "payload" (.object decrypted_payload) doc)
    | _ => pure doc
  pure (Smap.remove "encryption_key_id" (Smap.remove "encrypted" doc))

end Encryption

/-! ## The `Storage` operations -/

section Operations

variable (P : Primitives) (now : Int)

/-- `insert`; `draw` is the randomness of the sensitive fields' envelopes. -/
def insert (draw : String → Draw) (collection : String) (doc : Doc) : DiskM Unit := do
  Disk.createDirAll (s.get_collection_dir collection)
  let some id := docId doc
    | throw "document must have an 'id' field"
  let path := s.get_doc_path collection id
  let doc_copy ← s.externalizeBlob P collection id doc
  let final_doc ← Disk.liftExcept (if is_encrypted_collection collection then
      s.encrypt_document P now collection doc_copy draw else pure doc_copy)
  Disk.write path (P.toVecPretty (.object final_doc))

/-- The part of `find` before its `MEMORY` step: the stored document, decrypted. -/
def findStored (collection id : String) (d : Disk) : Except String (Option Doc) :=
  let path := s.get_doc_path collection id
  if !d.pathExists path then .ok none
  else do
    let data ← d.read path
    let .object doc ← parseBytes P data | throw "invalid type: expected a map"
    let doc ← match Smap.get? doc "encrypted" with
      | some (.bool true) => s.decrypt_document P now doc
      | _ => pure doc
    pure (some doc)

/-- `find`: reads the disk and changes nothing. -/
def find (collection id : String) (d : Disk) : Except String (Option Doc) := do
  let doc ← s.findStored P now collection id d
  pure (doc.map (inlineBlob P d))

/-- `update`: `find`, the patch's fields written over the document, `insert`. -/
def update (draw : String → Draw) (collection id : String) (upd : Doc) : DiskM Unit := do
  match s.find P now collection id (← get) with
  | .ok (some doc) => s.insert P now draw collection (Smap.insertAll doc upd)
  | .ok none => throw "document not found"
  | .error e => throw e

/-- `delete`: the document file, then the blob file, each removed when it exists. -/
def delete (collection id : String) : DiskM Unit := do
  Disk.removeIfExists (s.get_doc_path collection id)
  Disk.removeIfExists (s.get_blob_path collection id)

/-- `find_all`: a missing directory lists nothing; otherwise every entry of the collection's
directory whose name has the extension `json` is read with `find` under its stem, and an error of
`read_dir` or of `find` ends the loop (`?`). `order` is the order in which the platform's
`read_dir` yields the entries. -/
def find_all (order : List String → List String) (collection : String) (d : Disk) :
    Except String (List Doc) :=
  if !d.pathExists (s.get_collection_dir collection) then .ok []
  else do
    let names ← d.readDir (s.get_collection_dir collection)
    (order names).foldlM (fun docs name =>
      if extension name = some "json" then
        match file_stem name with
        | some stem => do
          match ← s.find P now collection stem d with
          | some doc => pure (docs ++ [doc])
          | none => pure docs
        | none => pure docs
      else pure docs) []

end Operations

end FileStorage

end Knirvbase
