import Knirvbase.Map

/-!
# JSON values

`serde_json::Value`. An object is a `serde_json::Map`, entries in key order (`Smap`). A number is
an integer (`i64` or `u64`) or an `f64`; `serde_json` holds no infinite or NaN float
(`Number::from_f64`), so an `F64` is a 64-bit word whose exponent field is not all ones.

`serde_json::from_slice` reads a float back from its shortest decimal form with its own
algorithm, which without the `float_roundtrip` feature can land one unit in the last place away
from the float that was written. `Value.reread g` is a value with each float `f` replaced by
`g f`, the float the parser reads back (`Primitives.rereadF64`).
-/

set_option autoImplicit false

namespace Knirvbase

/-- An `f64` a `serde_json::Number` can hold: its IEEE 754 word, the exponent field (bits 52 to
62) not all ones. -/
structure F64 where
  bits : UInt64
  finite : bits.toNat / 4503599627370496 % 2048 ≠ 2047
  deriving DecidableEq

/-- The float of a word, when the word is a finite float. -/
def F64.ofBits? (w : UInt64) : Option F64 :=
  if h : w.toNat / 4503599627370496 % 2048 ≠ 2047 then some ⟨w, h⟩ else none

theorem F64.ofBits?_bits (f : F64) : F64.ofBits? f.bits = some f := by
  simp [F64.ofBits?, f.finite]

/-- `serde_json::Value`. -/
inductive Value where
  | null
  | bool (b : Bool)
  | number (n : Int)
  | float (f : F64)
  | string (s : String)
  | array (l : List Value)
  | object (m : List (String × Value))
  deriving Inhabited

/-- `str::ends_with`. -/
def endsWith (s suffix : String) : Bool := suffix.data.isSuffixOf s.data

namespace Value

/-- `as_str`. -/
def asStr : Value → Option String
  | string s => some s
  | _ => none

/-- `value[key]`: the field of an object, `Null` when absent or when `value` is no object. -/
def index (v : Value) (key : String) : Value :=
  match v with
  | object m => (Smap.get? m key).getD null
  | _ => null

@[simp] theorem asStr_string (s : String) : (string s).asStr = some s := rfl

@[simp] theorem index_object (m : List (String × Value)) (key : String) :
    (object m).index key = (Smap.get? m key).getD null := rfl

/-! ## Floats read back -/

mutual
/-- The value with each float `f` replaced by `g f`. -/
def reread (g : F64 → F64) : Value → Value
  | null => null
  | bool b => bool b
  | number n => number n
  | float f => float (g f)
  | string s => string s
  | array l => array (rereadList g l)
  | object m => object (rereadObject g m)
/-- `reread` on each element of an array. -/
def rereadList (g : F64 → F64) : List Value → List Value
  | [] => []
  | v :: l => reread g v :: rereadList g l
/-- `reread` on each value of an object. -/
def rereadObject (g : F64 → F64) : List (String × Value) → List (String × Value)
  | [] => []
  | (k, v) :: m => (k, reread g v) :: rereadObject g m
end

variable (g : F64 → F64)

@[simp] theorem reread_null : reread g null = null := by simp [reread]
@[simp] theorem reread_bool (b : Bool) : reread g (bool b) = bool b := by simp [reread]
@[simp] theorem reread_number (n : Int) : reread g (number n) = number n := by simp [reread]
@[simp] theorem reread_float (f : F64) : reread g (float f) = float (g f) := by simp [reread]
@[simp] theorem reread_string (s : String) : reread g (string s) = string s := by simp [reread]
@[simp] theorem reread_array (l : List Value) : reread g (array l) = array (rereadList g l) := by
  simp [reread]
@[simp] theorem reread_object (m : List (String × Value)) :
    reread g (object m) = object (rereadObject g m) := by simp [reread]

@[simp] theorem rereadObject_nil : rereadObject g [] = [] := by simp [rereadObject]
@[simp] theorem rereadObject_cons (k : String) (v : Value) (m : List (String × Value)) :
    rereadObject g ((k, v) :: m) = (k, reread g v) :: rereadObject g m := by simp [rereadObject]

theorem rereadObject_eq_map (m : List (String × Value)) :
    rereadObject g m = m.map fun p => (p.1, reread g p.2) := by
  induction m with
  | nil => rfl
  | cons p m ih => obtain ⟨k, v⟩ := p; simp [ih]

/-- Reading back with the identity rounding changes nothing. -/
theorem reread_id (v : Value) : reread id v = v :=
  @Value.rec (fun v => reread id v = v) (fun l => rereadList id l = l)
    (fun m => rereadObject id m = m) (fun p => reread id p.2 = p.2)
    (by simp) (fun _ => by simp) (fun _ => by simp) (fun _ => by simp) (fun _ => by simp)
    (fun _ ih => by simp [ih]) (fun _ ih => by simp [ih]) (by simp [rereadList])
    (fun v l ihv ihl => by simp [rereadList, ihv, ihl]) (by simp)
    (fun p m ihp ihm => by obtain ⟨k, v⟩ := p; simp only [rereadObject_cons, ihm]; rw [ihp])
    (fun _ _ ih => ih) v

theorem get?_rereadObject (m : List (String × Value)) (k : String) :
    Smap.get? (rereadObject g m) k = (Smap.get? m k).map (reread g) := by
  induction m with
  | nil => rfl
  | cons p m ih =>
    obtain ⟨k', v⟩ := p
    simp only [rereadObject_cons, Smap.get?_cons, ih]
    split_ifs <;> rfl

theorem keys_rereadObject (m : List (String × Value)) :
    (rereadObject g m).map Prod.fst = m.map Prod.fst := by
  simp [rereadObject_eq_map, Function.comp_def]

theorem rereadObject_sorted {m : List (String × Value)} (h : Smap.Sorted m) :
    Smap.Sorted (rereadObject g m) := by
  rw [rereadObject_eq_map]
  exact List.Pairwise.map _ (fun _ _ h => h) h

theorem rereadObject_insert (k : String) (v : Value) (m : List (String × Value)) :
    rereadObject g (Smap.insert k v m) = Smap.insert k (reread g v) (rereadObject g m) := by
  induction m with
  | nil => rfl
  | cons p m ih =>
    obtain ⟨k', v'⟩ := p
    simp only [Smap.insert, rereadObject_cons]
    split_ifs <;> simp [ih]

theorem rereadObject_remove (k : String) (m : List (String × Value)) :
    rereadObject g (Smap.remove k m) = Smap.remove k (rereadObject g m) := by
  induction m with
  | nil => rfl
  | cons p m ih =>
    obtain ⟨k', v'⟩ := p
    simp only [Smap.remove, rereadObject_cons]
    split_ifs <;> simp [ih]

theorem mem_rereadObject {m : List (String × Value)} {a : String × Value}
    (h : a ∈ rereadObject g m) : ∃ w, (a.1, w) ∈ m ∧ a.2 = reread g w := by
  rw [rereadObject_eq_map, List.mem_map] at h
  obtain ⟨⟨x, w⟩, hw, rfl⟩ := h
  exact ⟨w, hw, rfl⟩

theorem reread_eq_string {v : Value} {t : String} : reread g v = string t ↔ v = string t := by
  cases v <;> simp

theorem reread_eq_object {v : Value} {m : List (String × Value)} :
    reread g v = object m ↔ ∃ m', v = object m' ∧ m = rereadObject g m' := by
  cases v <;> simp [eq_comm]

theorem rereadObject_insertAll (m out : List (String × Value)) :
    rereadObject g (Smap.insertAll m out) = Smap.insertAll (rereadObject g m) (rereadObject g out) := by
  induction out generalizing m with
  | nil => rfl
  | cons p out ih =>
    obtain ⟨k, v⟩ := p
    simp only [Smap.insertAll, List.foldl_cons, rereadObject_cons] at ih ⊢
    rw [ih, rereadObject_insert]

end Value

end Knirvbase
