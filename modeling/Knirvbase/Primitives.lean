import Knirvbase.Json

/-!
# Library primitives

The code calls four libraries: `serde_json` (a JSON value's bytes, compact or pretty, and back),
`base64` (the `STANDARD` engine), `sha2` and `aes-gcm`. `Primitives` holds each as a function with
the law the code relies on: the text `to_vec` or `to_vec_pretty` wrote parses back as the same
value, except that each float is read back by `serde_json`'s float parser (`rereadF64`, exact only
with the `float_roundtrip` feature); base64 decodes what it encoded; and AES-256-GCM is an authenticated cipher (opening
under the sealing key returns the plaintext, under any other key fails).

`tokenPrimitives` meets the laws with a self-delimiting byte form of JSON values, so that the
model runs on fixed inputs.
-/

set_option autoImplicit false

namespace Knirvbase

/-- `Vec<u8>`. -/
abbrev Bytes := List UInt8

/-- The library functions the code calls, with their laws. -/
structure Primitives where
  /-- `serde_json::to_vec`. -/
  toVec : Value → Bytes
  /-- The value the text of `serde_json::from_slice`'s input spells, `none` on malformed
  input. -/
  parse : Bytes → Option Value
  parse_toVec : ∀ v, parse (toVec v) = some v
  /-- `serde_json::to_vec_pretty`. -/
  toVecPretty : Value → Bytes
  parse_toVecPretty : ∀ v, parse (toVecPretty v) = some v
  /-- The float `serde_json`'s parser reads back from the shortest decimal form of a float. -/
  rereadF64 : F64 → F64
  /-- `general_purpose::STANDARD.encode`. -/
  encode : Bytes → String
  /-- `general_purpose::STANDARD.decode`, `none` on malformed input. -/
  decode : String → Option Bytes
  decode_encode : ∀ b, decode (encode b) = some b
  /-- `Sha256::digest`. -/
  sha256 : Bytes → Bytes
  /-- `Aes256Gcm::encrypt` under a key and a nonce. -/
  aesGcmEncrypt : Bytes → Bytes → Bytes → Bytes
  /-- `Aes256Gcm::decrypt`, `none` when the tag does not check. -/
  aesGcmDecrypt : Bytes → Bytes → Bytes → Option Bytes
  aesGcmDecrypt_encrypt : ∀ k n p, aesGcmDecrypt k n (aesGcmEncrypt k n p) = some p
  aesGcmDecrypt_encrypt_of_ne : ∀ k k' n p, k ≠ k' → aesGcmDecrypt k' n (aesGcmEncrypt k n p) = none

namespace Primitives

variable (P : Primitives)

/-- `serde_json::from_slice`: the value parsed, each float as the float parser reads it. -/
def fromSlice (b : Bytes) : Option Value := (P.parse b).map (Value.reread P.rereadF64)

@[simp] theorem fromSlice_toVec (v : Value) : P.fromSlice (P.toVec v) = some (v.reread P.rereadF64) := by
  simp [fromSlice, P.parse_toVec]

@[simp] theorem fromSlice_toVecPretty (v : Value) :
    P.fromSlice (P.toVecPretty v) = some (v.reread P.rereadF64) := by
  simp [fromSlice, P.parse_toVecPretty]

/-- The same libraries with a float parser that reads every float back exactly. -/
def exact : Primitives := { P with rereadF64 := id }

@[simp] theorem exact_rereadF64 : P.exact.rereadF64 = id := rfl

@[simp] theorem exact_toVec : P.exact.toVec = P.toVec := rfl

theorem fromSlice_eq_exact (b : Bytes) :
    P.fromSlice b = (P.exact.fromSlice b).map (Value.reread P.rereadF64) := by
  simp only [fromSlice, exact_rereadF64, Option.map_map]
  congr 1
  funext v
  simp [Value.reread_id]

end Primitives

/-! ## A token form of JSON values -/

namespace Token

mutual
/-- A value as a list of numbers: a tag, then the tag's fields in prefix order. -/
def ofValue : Value → List Nat
  | .null => [0]
  | .bool b => [1, if b then 1 else 0]
  | .number n => [2, n.toNat, (-n).toNat]
  | .float f => [6, f.bits.toNat]
  | .string s => 3 :: s.length :: s.data.map Char.toNat
  | .array l => 4 :: l.length :: ofList l
  | .object m => 5 :: m.length :: ofObject m
/-- The elements of an array, one after the other. -/
def ofList : List Value → List Nat
  | [] => []
  | v :: l => ofValue v ++ ofList l
/-- The entries of an object: each key's length and characters, then its value. -/
def ofObject : List (String × Value) → List Nat
  | [] => []
  | (k, v) :: m => k.length :: k.data.map Char.toNat ++ ofValue v ++ ofObject m
end

/-- Read `n` items with `p`. -/
def readMany {α : Type} (p : List Nat → Option (α × List Nat)) :
    Nat → List Nat → Option (List α × List Nat)
  | 0, r => some ([], r)
  | n + 1, r =>
    match p r with
    | some (a, r) => (readMany p n r).map fun (l, r) => (a :: l, r)
    | none => none

/-- Read `n` characters. -/
def readChars : Nat → List Nat → Option (List Char × List Nat)
  | 0, r => some ([], r)
  | n + 1, c :: r => (readChars n r).map fun (cs, r) => (Char.ofNat c :: cs, r)
  | _ + 1, [] => none

/-- Read an object entry, its value with `p`. -/
def readEntry (p : List Nat → Option (Value × List Nat)) :
    List Nat → Option ((String × Value) × List Nat)
  | n :: r => (readChars n r).bind fun (cs, r) => (p r).map fun (v, r) => ((⟨cs⟩, v), r)
  | [] => none

theorem readEntry_cons (p : List Nat → Option (Value × List Nat)) (n : Nat) (r : List Nat) :
    readEntry p (n :: r) =
      (readChars n r).bind fun (cs, r) => (p r).map fun (v, r) => ((⟨cs⟩, v), r) := rfl

/-- Read a value, nesting at most `fuel` deep. -/
def readValue : Nat → List Nat → Option (Value × List Nat)
  | 0, _ => none
  | _ + 1, 0 :: r => some (.null, r)
  | _ + 1, 1 :: b :: r => some (.bool (b == 1), r)
  | _ + 1, 2 :: a :: b :: r => some (.number ((a : Int) - b), r)
  | _ + 1, 6 :: b :: r => (F64.ofBits? b.toUInt64).map fun f => (.float f, r)
  | _ + 1, 3 :: n :: r => (readChars n r).map fun (cs, r) => (.string ⟨cs⟩, r)
  | f + 1, 4 :: n :: r => (readMany (readValue f) n r).map fun (l, r) => (.array l, r)
  | f + 1, 5 :: n :: r => (readMany (readEntry (readValue f)) n r).map fun (m, r) => (.object m, r)
  | _ + 1, _ => none

theorem readValue_float (f b : Nat) (r : List Nat) :
    readValue (f + 1) (6 :: b :: r) = (F64.ofBits? b.toUInt64).map fun x => (.float x, r) := rfl

theorem toUInt64_toNat (x : UInt64) : x.toNat.toUInt64 = x := by
  obtain ⟨v⟩ := x
  show (⟨BitVec.ofNat 64 v.toNat⟩ : UInt64) = ⟨v⟩
  simp

theorem readValue_string (f n : Nat) (r : List Nat) :
    readValue (f + 1) (3 :: n :: r) = (readChars n r).map fun (cs, r) => (.string ⟨cs⟩, r) := rfl

theorem readValue_array (f n : Nat) (r : List Nat) :
    readValue (f + 1) (4 :: n :: r) =
      (readMany (readValue f) n r).map fun (l, r) => (.array l, r) := rfl

theorem readValue_object (f n : Nat) (r : List Nat) :
    readValue (f + 1) (5 :: n :: r) =
      (readMany (readEntry (readValue f)) n r).map fun (m, r) => (.object m, r) := rfl

theorem readChars_map (cs : List Char) (r : List Nat) :
    readChars cs.length (cs.map Char.toNat ++ r) = some (cs, r) := by
  induction cs with
  | nil => rfl
  | cons c cs ih => simp [readChars, ih]

/-- Reading back what `ofValue` wrote, with fuel at least its length. -/
theorem readValue_ofValue (v : Value) :
    ∀ f r, (ofValue v).length ≤ f → readValue f (ofValue v ++ r) = some (v, r) :=
  @Value.rec
    (fun v => ∀ f r, (ofValue v).length ≤ f → readValue f (ofValue v ++ r) = some (v, r))
    (fun l => ∀ f r, (ofList l).length ≤ f →
      readMany (readValue f) l.length (ofList l ++ r) = some (l, r))
    (fun m => ∀ f r, (ofObject m).length ≤ f →
      readMany (readEntry (readValue f)) m.length (ofObject m ++ r) = some (m, r))
    (fun p => ∀ f r, (ofValue p.2).length ≤ f →
      readEntry (readValue f) (p.1.length :: p.1.data.map Char.toNat ++ ofValue p.2 ++ r) =
        some (p, r))
    (fun f r h => by
      cases f
      · exact absurd h (by simp [ofValue])
      · rfl)
    (fun b f r h => by
      cases f
      · exact absurd h (by simp [ofValue])
      · cases b <;> rfl)
    (fun n f r h => by
      cases f
      · simp [ofValue] at h
      · show some (Value.number ((n.toNat : Int) - (-n).toNat), r) = _
        rw [Int.toNat_sub_toNat_neg])
    (fun x f r h => by
      cases f
      · simp [ofValue] at h
      · simp only [ofValue, List.cons_append, readValue_float, toUInt64_toNat, F64.ofBits?_bits,
          Option.map_some', List.nil_append])
    (fun s f r h => by
      cases f
      · simp [ofValue] at h
      · simp only [ofValue, List.cons_append, readValue_string, String.length, List.append_eq,
          readChars_map, Option.map_some'])
    (fun l ih f r h => by
      cases f with
      | zero => simp [ofValue] at h
      | succ f =>
        simp only [ofValue] at h ⊢
        simp [readValue_array, ih f r (by simp at h; omega)])
    (fun m ih f r h => by
      cases f with
      | zero => simp [ofValue] at h
      | succ f =>
        simp only [ofValue] at h ⊢
        simp [readValue_object, ih f r (by simp at h; omega)])
    (fun f r _ => rfl)
    (fun v l ihv ihl f r h => by
      simp only [ofList, List.length_append] at h
      simp only [ofList, List.length_cons, readMany, List.append_assoc,
        ihv f _ (by omega), ihl f r (by omega), Option.map_some'])
    (fun f r _ => rfl)
    (fun p m ihp ihm f r h => by
      obtain ⟨k, w⟩ := p
      simp only [ofObject, List.length_append, List.length_cons, List.length_map] at h
      have e := ihp f (ofObject m ++ r) (by dsimp only; omega)
      simp only [List.cons_append, List.append_assoc] at e
      simp only [ofObject, List.length_cons, readMany, List.cons_append, List.append_assoc, e,
        ihm f r (by omega), Option.map_some'])
    (fun k w ihw f r h => by
      simp only [List.cons_append, readEntry_cons, List.append_assoc, String.length,
        readChars_map, Option.some_bind, ihw f r h, Option.map_some'])
    v

end Token

/-! ## Bytes -/

namespace Token

/-- A number as bytes: a `255` for each whole `255` in it, then the rest. -/
def digits (n : Nat) : Bytes := List.replicate (n / 255) 255 ++ [(n % 255).toUInt8]

/-- The numbers `digits` wrote one after the other; `acc` is what the `255`s read so far add up
to. -/
def readDigits : Nat → Bytes → List Nat
  | _, [] => []
  | acc, b :: bs => if b = 255 then readDigits (acc + 255) bs else (acc + b.toNat) :: readDigits 0 bs

theorem readDigits_replicate (q acc : Nat) (r : Bytes) :
    readDigits acc (List.replicate q 255 ++ r) = readDigits (acc + 255 * q) r := by
  induction q generalizing acc with
  | zero => rfl
  | succ q ih =>
    rw [List.replicate_succ, List.cons_append, readDigits, if_pos rfl, ih]
    congr 1; omega

theorem readDigits_flatMap_digits (ns : List Nat) : readDigits 0 (ns.flatMap digits) = ns := by
  induction ns with
  | nil => rfl
  | cons n ns ih =>
    have hb : (n % 255).toUInt8.toNat = n % 255 :=
      UInt8.toNat_ofNat_of_lt (show n % 255 < 256 by have := Nat.mod_lt n (show 255 > 0 by decide); omega)
    have hne : (n % 255).toUInt8 ≠ 255 := fun h => by
      have h255 : (255 : UInt8).toNat = 255 := rfl
      rw [h, h255] at hb
      have := Nat.mod_lt n (show 255 > 0 by decide)
      omega
    rw [List.flatMap_cons, digits, List.append_assoc, readDigits_replicate, List.singleton_append,
      readDigits, if_neg hne, hb, ih, Nat.zero_add]
    congr 1
    exact Nat.div_add_mod n 255

/-- Key bytes, each behind a `1`, then a `0`; `splitKey` reads them back. -/
def splitKey : Bytes → Option (Bytes × Bytes)
  | [] => none
  | b :: bs =>
    if b = 0 then some ([], bs)
    else match bs with
      | x :: bs => (splitKey bs).map fun (k, r) => (x :: k, r)
      | [] => none

theorem splitKey_flatMap (k p : Bytes) :
    splitKey (k.flatMap (fun x => [1, x]) ++ 0 :: p) = some (k, p) := by
  induction k with
  | nil => rw [List.flatMap_nil, List.nil_append]; unfold splitKey; rw [if_pos rfl]
  | cons x k ih =>
    rw [List.flatMap_cons, List.cons_append, List.singleton_append, List.cons_append]
    unfold splitKey
    rw [if_neg (by decide), List.cons_append]
    show Option.map _ (splitKey _) = _
    rw [ih]
    rfl

theorem char_ofNat_toNat_byte (x : UInt8) : (Char.ofNat x.toNat).toNat = x.toNat := by
  have hv : x.toNat.isValidChar :=
    Or.inl (show x.toBitVec.toNat < 0xd800 by have := x.toBitVec.isLt; omega)
  simp only [Char.ofNat, hv, dite_true, Char.ofNatAux, Char.toNat]
  simp [UInt32.toNat]

theorem toUInt8_toNat (x : UInt8) : x.toNat.toUInt8 = x := by
  obtain ⟨v⟩ := x
  show (⟨BitVec.ofNat 8 v.toNat⟩ : UInt8) = ⟨v⟩
  simp

end Token

/-- Primitives that meet the laws: values as `Token.ofValue` in `digits` bytes, read back with every
float exact, base64 as one character per byte, and a cipher that writes its key before the
plaintext. The digest is a stand-in; no law is asked of it. -/
def tokenPrimitives : Primitives where
  toVec v := (Token.ofValue v).flatMap Token.digits
  parse b :=
    let ts := Token.readDigits 0 b
    match Token.readValue ts.length ts with
    | some (v, []) => some v
    | _ => none
  parse_toVec v := by
    simp only [Token.readDigits_flatMap_digits]
    rw [← List.append_nil (Token.ofValue v), Token.readValue_ofValue v _ [] (by simp)]
  toVecPretty v := (Token.ofValue v).flatMap Token.digits
  parse_toVecPretty v := by
    simp only [Token.readDigits_flatMap_digits]
    rw [← List.append_nil (Token.ofValue v), Token.readValue_ofValue v _ [] (by simp)]
  rereadF64 := id
  encode b := ⟨b.map fun x => Char.ofNat x.toNat⟩
  decode s := some (s.data.map fun c => c.toNat.toUInt8)
  decode_encode b := by
    simp only [List.map_map, Function.comp_def, Token.char_ofNat_toNat_byte, Token.toUInt8_toNat,
      List.map_id']
  sha256 b := b
  aesGcmEncrypt k _ p := k.flatMap (fun x => [1, x]) ++ 0 :: p
  aesGcmDecrypt k _ c :=
    match Token.splitKey c with
    | some (k', p) => if k' = k then some p else none
    | none => none
  aesGcmDecrypt_encrypt k _ p := by simp [Token.splitKey_flatMap]
  aesGcmDecrypt_encrypt_of_ne k k' _ p h := by simp [Token.splitKey_flatMap, h]

end Knirvbase
