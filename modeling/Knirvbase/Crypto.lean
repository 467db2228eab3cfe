import Knirvbase.Primitives

/-!
# The encryption manager

`crypto/pqc.rs`. `encrypt_data` resolves the key id (cache first, then the master key), seals the
plaintext with AES-256-GCM under the key pair's `public_key` and wraps the ciphertext in a signed,
base64-encoded JSON envelope; `decrypt_data` unwraps the envelope, resolves the key id it carries
and opens the ciphertext under the key pair's `private_key`.

`decrypt_data_encrypt_data`: an envelope decrypts to its plaintext exactly when the two halves of
the key pair derive the same AES key. `PQCKeyPair::generate` draws the halves independently, so a
generated pair with different halves cannot decrypt its own envelopes
(`generate_envelope_not_decryptable`).
-/

set_option autoImplicit false

namespace Knirvbase

/-- The random bytes one `encrypt_data` call draws: the AES-GCM nonce and the placeholder
signature. -/
structure Draw where
  nonce : Bytes
  nonce_length : nonce.length = 12
  signature : Bytes
  signature_length : signature.length = 64

/-- The draw of all-zero bytes. -/
def zeroDraw : Draw := ⟨List.replicate 12 0, rfl, List.replicate 64 0, rfl⟩

/-- 32 random bytes, as `generate` draws each half of a key pair. -/
def Key32 := { b : Bytes // b.length = 32 }

/-- `PQCKeyPair`; times are seconds. -/
structure PQCKeyPair where
  id : String
  name : String
  purpose : String
  algorithm : String
  created_at : Int
  expires_at : Option Int
  status : String
  public_key : Bytes
  private_key : Bytes

section Aes

variable (P : Primitives)

/-- The AES key: the key material itself when it has 32 bytes, its SHA-256 digest otherwise. -/
def deriveKey (key : Bytes) : Bytes := if key.length = 32 then key else P.sha256 key

/-- `aes_encrypt`: the nonce, then the sealed plaintext. -/
def aes_encrypt (key plaintext nonce : Bytes) : Bytes :=
  nonce ++ P.aesGcmEncrypt (deriveKey P key) nonce plaintext

/-- `aes_decrypt`. -/
def aes_decrypt (key ciphertext : Bytes) : Except String Bytes :=
  if ciphertext.length < 12 then .error "ciphertext too short"
  else
    match P.aesGcmDecrypt (deriveKey P key) (ciphertext.take 12) (ciphertext.drop 12) with
    | some p => .ok p
    | none => .error "decryption failed"

theorem aes_decrypt_encrypt (k k' p : Bytes) (d : Draw) :
    aes_decrypt P k' (aes_encrypt P k p d.nonce) =
      if deriveKey P k = deriveKey P k' then .ok p else .error "decryption failed" := by
  have hn := d.nonce_length
  have h12 : ¬(d.nonce ++ P.aesGcmEncrypt (deriveKey P k) d.nonce p).length < 12 := by
    simp [hn]
  simp only [aes_decrypt, aes_encrypt, h12, if_false, List.take_left' hn, List.drop_left' hn]
  split_ifs with h
  · rw [h, P.aesGcmDecrypt_encrypt]
  · rw [P.aesGcmDecrypt_encrypt_of_ne _ _ _ _ h]

end Aes

namespace PQCKeyPair

/-- `GeneratePQCKeyPair`: a fresh id and two independently drawn 32-byte halves. -/
def generate (name purpose id : String) (now : Int) (public_key private_key : Key32) :
    PQCKeyPair where
  id := id
  name := name
  purpose := purpose
  algorithm := "Mock-PQC"
  created_at := now
  expires_at := none
  status := "active"
  public_key := public_key.1
  private_key := private_key.1

/-- `is_expired` at time `now`. -/
def is_expired (kp : PQCKeyPair) (now : Int) : Bool :=
  match kp.expires_at with
  | some expires_at => decide (now > expires_at)
  | none => false

/-- `is_active` at time `now`. -/
def is_active (kp : PQCKeyPair) (now : Int) : Bool := kp.status == "active" && !kp.is_expired now

/-- `encrypt`: AES under `public_key`. -/
def encrypt (P : Primitives) (kp : PQCKeyPair) (plaintext nonce : Bytes) : Bytes :=
  aes_encrypt P kp.public_key plaintext nonce

/-- `decrypt`: AES under `private_key`. -/
def decrypt (P : Primitives) (kp : PQCKeyPair) (ciphertext : Bytes) : Except String Bytes :=
  aes_decrypt P kp.private_key ciphertext

/-- `sign`: 64 random bytes. -/
def sign (_kp : PQCKeyPair) (d : Draw) : Bytes := d.signature

/-- `verify`: accepts every signature. -/
def verify (_kp : PQCKeyPair) (_message _signature : Bytes) : Bool := true

end PQCKeyPair

/-- `EncryptionManager`. -/
structure EncryptionManager where
  master_key : Option PQCKeyPair
  key_cache : List (String × PQCKeyPair)

namespace EncryptionManager

/-- `NewEncryptionManager`. -/
def new : EncryptionManager := ⟨none, []⟩

/-- `SetMasterKey`. -/
def set_master_key (m : EncryptionManager) (key_pair : PQCKeyPair) : EncryptionManager :=
  { m with master_key := some key_pair }

/-- `CacheKey`. -/
def cache_key (m : EncryptionManager) (key_id : String) (key_pair : PQCKeyPair) :
    EncryptionManager :=
  { m with key_cache := Smap.insert key_id key_pair m.key_cache }

/-- `RemoveKey`. -/
def remove_key (m : EncryptionManager) (key_id : String) : EncryptionManager :=
  { m with key_cache := Smap.remove key_id m.key_cache }

/-- `GenerateDataEncryptionKey`: a fresh `encryption` key pair, cached under its id. -/
def generate_data_encryption_key (m : EncryptionManager) (name id : String) (now : Int)
    (public_key private_key : Key32) : PQCKeyPair × EncryptionManager :=
  let key_pair := PQCKeyPair.generate name "encryption" id now public_key private_key
  (key_pair, m.cache_key key_pair.id key_pair)

/-- The key lookup shared by `encrypt_data` and `decrypt_data`: the cache, then the master key. -/
def lookupKey (m : EncryptionManager) (key_id : String) : Except String PQCKeyPair :=
  match Smap.get? m.key_cache key_id with
  | some kp => .ok kp
  | none =>
    match m.master_key with
    | some master =>
      if master.id = key_id then .ok master else .error ("key " ++ key_id ++ " not found in cache")
    | none => .error ("key " ++ key_id ++ " not found in cache")

/-- The envelope's inner `payload` object (`json!` builds a map, so its keys are in order). -/
def envelopePayload (key_id ciphertext : String) : Value :=
  .object [("algorithm", .string "AES-256-GCM"), ("ciphertext", .string ciphertext),
    ("key_id", .string key_id)]

/-- `EncryptData`. -/
def encrypt_data (P : Primitives) (m : EncryptionManager) (now : Int) (plaintext : Bytes)
    (key_id : String) (d : Draw) : Except String String := do
  let key_pair ← m.lookupKey key_id
  if !key_pair.is_active now then throw ("key " ++ key_id ++ " is not active")
  let ciphertext := key_pair.encrypt P plaintext d.nonce
  let payload := envelopePayload key_id (P.encode ciphertext)
  let signature := key_pair.sign d
  let encrypted := Value.object [("payload", payload), ("signature", .string (P.encode signature))]
  pure (P.encode (P.toVec encrypted))

/-- `DecryptData`. The texts of the `base64` and `serde_json` errors are the libraries'. -/
def decrypt_data (P : Primitives) (m : EncryptionManager) (now : Int) (encrypted_data : String) :
    Except String Bytes := do
  let some encrypted_bytes := P.decode encrypted_data | throw "base64 decode error"
  let some encrypted := P.fromSlice encrypted_bytes | throw "JSON parse error"
  let payload := encrypted.index "payload"
  let some signature_b64 := (encrypted.index "signature").asStr
    | throw "missing signature in encrypted data"
  let some signature := P.decode signature_b64 | throw "base64 decode error"
  let payload_bytes := P.toVec payload
  let some payload_map := P.fromSlice payload_bytes | throw "JSON parse error"
  let some key_id := (payload_map.index "key_id").asStr | throw "missing key_id in payload"
  let some ciphertext_b64 := (payload_map.index "ciphertext").asStr
    | throw "missing ciphertext in payload"
  let some ciphertext := P.decode ciphertext_b64 | throw "base64 decode error"
  let key_pair ← m.lookupKey key_id
  if !key_pair.is_active now then throw ("key " ++ key_id ++ " is not active")
  if !key_pair.verify payload_bytes signature then throw "signature verification failed"
  key_pair.decrypt P ciphertext

/-! ## Round trip of an envelope -/

section Envelope

variable (P : Primitives) {m : EncryptionManager} {now : Int} {key_id : String} {kp : PQCKeyPair}

/-- The envelope `encrypt_data` returns under an active key. -/
theorem encrypt_data_eq (hk : m.lookupKey key_id = .ok kp) (ha : kp.is_active now = true)
    (p : Bytes) (d : Draw) :
    m.encrypt_data P now p key_id d =
      .ok (P.encode (P.toVec (.object [("payload",
        envelopePayload key_id (P.encode (kp.encrypt P p d.nonce))),
        ("signature", .string (P.encode (kp.sign d)))]))) := by
  simp [encrypt_data, hk, ha]

/-- `decrypt_data` reads back the key id and the ciphertext of such an envelope, resolves the key
id and opens the ciphertext with that key pair. -/
theorem decrypt_data_envelope (hk : m.lookupKey key_id = .ok kp) (ha : kp.is_active now = true)
    (ciphertext signature : Bytes) :
    m.decrypt_data P now (P.encode (P.toVec (.object [("payload",
        envelopePayload key_id (P.encode ciphertext)),
        ("signature", .string (P.encode signature))]))) = kp.decrypt P ciphertext := by
  simp [decrypt_data, P.decode_encode, P.fromSlice_toVec, envelopePayload, Smap.get?, hk, ha,
    PQCKeyPair.verify]

/-- An envelope decrypts to its plaintext exactly when `public_key` and `private_key` derive the
same AES key; otherwise decryption fails. -/
theorem decrypt_data_encrypt_data (hk : m.lookupKey key_id = .ok kp)
    (ha : kp.is_active now = true) (p : Bytes) (d : Draw) :
    (m.encrypt_data P now p key_id d >>= m.decrypt_data P now) =
      if deriveKey P kp.public_key = deriveKey P kp.private_key then .ok p
      else .error "decryption failed" := by
  rw [encrypt_data_eq P hk ha]
  exact (decrypt_data_envelope P hk ha _ _).trans (aes_decrypt_encrypt P _ _ _ d)

/-- A key pair whose two halves are the same opens every envelope it seals. -/
theorem decrypt_data_of_encrypt_data (hk : m.lookupKey key_id = .ok kp)
    (ha : kp.is_active now = true) (heq : kp.public_key = kp.private_key) {p : Bytes} {d : Draw}
    {e : String} (he : m.encrypt_data P now p key_id d = .ok e) :
    m.decrypt_data P now e = .ok p := by
  have h := decrypt_data_encrypt_data P hk ha p d
  rwa [he, heq, if_pos rfl] at h

end Envelope

/-! ## Envelopes across key managers

`decrypt_data` resolves the envelope's key id on the manager it runs on, when it runs, so an
envelope sealed on one manager opens on another exactly when the key pair the id resolves to there
is active and its `private_key` derives the AES key the sealing pair's `public_key` derived. -/

section Across

variable (P : Primitives) {m m₀ : EncryptionManager} {t : Int} {key_id : String} {p : Bytes}
  {d : Draw} {e : String}

/-- `decrypt_data` on the envelope of a key id and a ciphertext resolves the key id, checks that
the key pair is active and opens the ciphertext with it. -/
theorem decrypt_data_envelope_eq (m : EncryptionManager) (now : Int) (key_id : String)
    (ciphertext signature : Bytes) :
    m.decrypt_data P now (P.encode (P.toVec (.object [("payload",
        envelopePayload key_id (P.encode ciphertext)),
        ("signature", .string (P.encode signature))]))) =
      (do
        let kp ← m.lookupKey key_id
        if !kp.is_active now then throw ("key " ++ key_id ++ " is not active")
        kp.decrypt P ciphertext) := by
  simp [decrypt_data, P.decode_encode, P.fromSlice_toVec, envelopePayload, Smap.get?,
    PQCKeyPair.verify]

/-- An envelope `encrypt_data` returned was sealed by the active key pair its key id resolved to. -/
theorem encrypt_data_eq_ok (he : m.encrypt_data P t p key_id d = .ok e) :
    ∃ kp, m.lookupKey key_id = .ok kp ∧ kp.is_active t = true ∧
      e = P.encode (P.toVec (.object [("payload",
        envelopePayload key_id (P.encode (kp.encrypt P p d.nonce))),
        ("signature", .string (P.encode (kp.sign d)))])) := by
  cases hk : m.lookupKey key_id with
  | error err => simp [encrypt_data, hk] at he
  | ok kp =>
    cases ha : kp.is_active t
    · simp [encrypt_data, hk, ha] at he
    · rw [encrypt_data_eq P hk ha] at he
      exact ⟨kp, rfl, ha, (Except.ok.inj he).symm⟩

/-- An envelope sealed on any manager under `key_id` opens on any manager as the key pair
`key_id` resolves to there, at the time of opening, decides: the lookup's error, the key's
inactivity, or the plaintext exactly when that pair's `private_key` derives the AES key of the
sealing pair's `public_key`. -/
theorem envelope_opens_with_current_key (he : m₀.encrypt_data P t p key_id d = .ok e)
    (now : Int) :
    ∃ sealer, m₀.lookupKey key_id = .ok sealer ∧
      m.decrypt_data P now e =
        (do
          let kp ← m.lookupKey key_id
          if !kp.is_active now then throw ("key " ++ key_id ++ " is not active")
          if deriveKey P sealer.public_key = deriveKey P kp.private_key then pure p
          else throw "decryption failed") := by
  obtain ⟨sealer, hk, -, rfl⟩ := encrypt_data_eq_ok P he
  refine ⟨sealer, hk, ?_⟩
  rw [decrypt_data_envelope_eq]
  cases m.lookupKey key_id with
  | error err => rfl
  | ok kp =>
    cases kp.is_active now <;>
      simp [PQCKeyPair.decrypt, PQCKeyPair.encrypt, aes_decrypt_encrypt]

/-- A data key `k` as `generate` makes it, with both halves drawn as zero bytes. -/
def zeroKey (id : String) : PQCKeyPair :=
  PQCKeyPair.generate "data" "encryption" id 0 ⟨List.replicate 32 0, rfl⟩
    ⟨List.replicate 32 0, rfl⟩

theorem envelope_opens_with_current_key_rotated :
    ∃ e, (new.cache_key "k" (zeroKey "k")).encrypt_data tokenPrimitives 0 [1] "k" zeroDraw = .ok e ∧
      ∃ sealer, (new.cache_key "k" (zeroKey "k")).lookupKey "k" = .ok sealer ∧
        (new.cache_key "k" (zeroKey "other")).decrypt_data tokenPrimitives 0 e =
          (do
            let kp ← (new.cache_key "k" (zeroKey "other")).lookupKey "k"
            if !kp.is_active 0 then throw ("key " ++ "k" ++ " is not active")
            if deriveKey tokenPrimitives sealer.public_key = deriveKey tokenPrimitives kp.private_key
            then pure [1] else throw "decryption failed") :=
  ⟨_, rfl, envelope_opens_with_current_key tokenPrimitives
    (show (new.cache_key "k" (zeroKey "k")).encrypt_data tokenPrimitives 0 [1] "k" zeroDraw = _
      from rfl) 0⟩

end Across

/-! ## Runs of the key manager -/

/-- A call of the key manager; `generate_data_encryption_key` with its drawn id and halves. -/
inductive KeyOp
  | set_master_key (key_pair : PQCKeyPair)
  | cache_key (key_id : String) (key_pair : PQCKeyPair)
  | remove_key (key_id : String)
  | generate_data_encryption_key (name id : String) (now : Int) (public_key private_key : Key32)

/-- One call. -/
def step (m : EncryptionManager) : KeyOp → EncryptionManager
  | .set_master_key key_pair => m.set_master_key key_pair
  | .cache_key key_id key_pair => m.cache_key key_id key_pair
  | .remove_key key_id => m.remove_key key_id
  | .generate_data_encryption_key name id now public_key private_key =>
    (m.generate_data_encryption_key name id now public_key private_key).2

/-- The manager after a run of calls. -/
def run (m : EncryptionManager) (ops : List KeyOp) : EncryptionManager := ops.foldl step m

/-- The key cache is a map: sorted, each key id once. -/
theorem step_sorted {m : EncryptionManager} (h : Smap.Sorted m.key_cache) :
    ∀ o, Smap.Sorted (step m o).key_cache
  | .set_master_key _ => h
  | .cache_key key_id key_pair => h.insert key_id key_pair
  | .remove_key key_id => h.remove key_id
  | .generate_data_encryption_key .. => h.insert _ _

theorem run_sorted {m : EncryptionManager} (h : Smap.Sorted m.key_cache) (ops : List KeyOp) :
    Smap.Sorted (run m ops).key_cache := by
  induction ops generalizing m with
  | nil => exact h
  | cons o ops ih => exact ih (step_sorted h o)

/-- On a manager whose cache is a map, `remove_key` revokes a key id that is not the master key's:
the id no longer resolves. -/
theorem lookupKey_remove_key {m : EncryptionManager} (h : Smap.Sorted m.key_cache) {key_id : String}
    (hmaster : ∀ kp, m.master_key = some kp → kp.id ≠ key_id) :
    (m.remove_key key_id).lookupKey key_id = .error ("key " ++ key_id ++ " not found in cache") := by
  simp only [lookupKey, remove_key, Smap.get?_remove h, if_true]
  cases hm : m.master_key with
  | none => rfl
  | some kp => simp only [if_neg (hmaster kp hm)]

/-- On every manager reached from `new`, removing a key id that is not the master key's revokes
it: every envelope sealed under that id, on any manager, then fails to decrypt with the id not
found. -/
theorem remove_key_revokes (P : Primitives) (ops : List KeyOp) {key_id : String}
    (hmaster : ∀ kp, (run new ops).master_key = some kp → kp.id ≠ key_id) {m₀ : EncryptionManager}
    {t now : Int} {p : Bytes} {d : Draw} {e : String}
    (he : m₀.encrypt_data P t p key_id d = .ok e) :
    ((run new ops).remove_key key_id).decrypt_data P now e =
      .error ("key " ++ key_id ++ " not found in cache") := by
  obtain ⟨_, -, h⟩ :=
    envelope_opens_with_current_key P (m := (run new ops).remove_key key_id) he now
  rw [h, lookupKey_remove_key (run_sorted (m := new) .nil ops) hmaster]
  rfl

/-- A master key `m`, then a data key `k` generated and cached. -/
def dataKeyOps : List KeyOp :=
  [.set_master_key (zeroKey "m"),
    .generate_data_encryption_key "data" "k" 0 ⟨List.replicate 32 0, rfl⟩ ⟨List.replicate 32 0, rfl⟩]

theorem remove_key_revokes_data :
    (∀ kp, (run new dataKeyOps).master_key = some kp → kp.id ≠ "k") ∧
      ∃ e, (run new dataKeyOps).encrypt_data tokenPrimitives 0 [1] "k" zeroDraw = .ok e ∧
        ((run new dataKeyOps).remove_key "k").decrypt_data tokenPrimitives 0 e =
          .error ("key " ++ "k" ++ " not found in cache") :=
  have hmaster : ∀ kp, (run new dataKeyOps).master_key = some kp → kp.id ≠ "k" :=
    fun _ h => by cases h; decide
  ⟨hmaster, _, rfl, remove_key_revokes tokenPrimitives dataKeyOps hmaster
    (show (run new dataKeyOps).encrypt_data tokenPrimitives 0 [1] "k" zeroDraw = _ from rfl)⟩

/-- A master key pair as `generate` makes it, with halves drawn as all-zero and all-one bytes:
the envelopes it seals do not decrypt. -/
theorem generate_envelope_not_decryptable (P : Primitives) (p : Bytes) (d : Draw) :
    let kp := PQCKeyPair.generate "master" "encryption" "k" 0 ⟨List.replicate 32 0, rfl⟩
      ⟨List.replicate 32 1, rfl⟩
    let m := EncryptionManager.new.set_master_key kp
    (m.encrypt_data P 0 p "k" d >>= m.decrypt_data P 0) = .error "decryption failed" := by
  intro kp m
  rw [@decrypt_data_encrypt_data P m 0 "k" kp rfl rfl, if_neg]
  simp only [deriveKey, kp, PQCKeyPair.generate, List.length_replicate, if_true]
  decide

end EncryptionManager

end Knirvbase
