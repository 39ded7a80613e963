import ArbitrageEngine.Base.Bytes
import Mathlib.Algebra.Group.Int.Defs
import Mathlib.Algebra.Group.Nat.Defs

/-!
# JSON values and checked access

`third_party/nlohmann/json.hpp`: the value type, its `type_name` and the throwing
accessors. Objects are `std::map` from byte strings, kept sorted by key, so a
repeated key overwrites. Floating-point numbers keep the token they were read
from; no modelled function looks at their value.
-/

namespace Json

open Base

/-- `nlohmann::json`, one constructor for each `value_t` a parsed text can have. -/
inductive Value
  | null
  | boolean (value : Bool)
  | numberInteger (value : Int)
  | numberUnsigned (value : Nat)
  | numberFloat (token : Bytes)
  | string (value : Bytes)
  | array (items : List Value)
  | object (fields : List (Bytes × Value))
  deriving Repr, Inhabited

/-- `object[key] = value` on the sorted fields of an object. -/
def insertField (key : Bytes) (value : Value) : List (Bytes × Value) → List (Bytes × Value)
  | [] => [(key, value)]
  | (k, v) :: rest =>
    if key = k then (key, value) :: rest
    else if key < k then (key, value) :: (k, v) :: rest
    else (k, v) :: insertField key value rest

/-- The fields of an object after assignments to the given keys, in this order. -/
def insertFields (fields done : List (Bytes × Value)) : List (Bytes × Value) :=
  fields.foldl (fun done field ↦ insertField field.1 field.2 done) done

/-- An object that is built by assignments to its keys, in this order. -/
def objectOf (fields : List (Bytes × Value)) : Value := .object (insertFields fields [])

/-- `json::exception` of the given class name and id. -/
def jsonFailure (name : String) (id : Nat) (text : Bytes) : Failure :=
  ⟨.jsonException, ascii "[json.exception." ++ ascii name ++ ascii "." ++ decimal id ++
    ascii "] " ++ text⟩

namespace Value

/-- `type_name()`. -/
def typeName : Value → Bytes
  | null => ascii "null"
  | object _ => ascii "object"
  | array _ => ascii "array"
  | string _ => ascii "string"
  | boolean _ => ascii "boolean"
  | numberInteger _ | numberUnsigned _ | numberFloat _ => ascii "number"

/-- `is_object()`. -/
def isObject : Value → Bool
  | object _ => true
  | _ => false

/-- `is_number_unsigned()`. -/
def isNumberUnsigned : Value → Bool
  | numberUnsigned _ => true
  | _ => false

/-- `is_number_integer()`: unsigned numbers are integers. -/
def isNumberInteger : Value → Bool
  | numberInteger _ | numberUnsigned _ => true
  | _ => false

/-- `is_string()`. -/
def isString : Value → Bool
  | string _ => true
  | _ => false

/-- `get<std::uint64_t>()` of an integer. -/
def getUint64 : Value → Nat
  | numberUnsigned value => value
  | numberInteger value => (value % 2 ^ 64).toNat
  | _ => 0

/-- `get<std::int64_t>()` of an integer. -/
def getInt64 : Value → Int
  | numberUnsigned value => if value < 2 ^ 63 then value else (value : Int) - 2 ^ 64
  | numberInteger value => value
  | _ => 0

/-- `find(key)` on an object; every other value has no fields. -/
def find? : Value → Bytes → Option Value
  | object fields, key => (fields.find? (fun field ↦ field.1 = key)).map Prod.snd
  | _, _ => none

/-- `contains(key)`. -/
def contains (value : Value) (key : Bytes) : Bool := (value.find? key).isSome

/-- `operator[](key)`, which reads a missing key as null. -/
def index (value : Value) (key : Bytes) : Value := (value.find? key).getD null

/-- `at(key)`: only objects, and only present keys. -/
def atKey (value : Value) (key : Bytes) : Except Failure Value :=
  if value.isObject then
    match value.find? key with
    | some field => .ok field
    | none => .error (jsonFailure "out_of_range" 403 (ascii "key '" ++ key ++ ascii "' not found"))
  else .error (jsonFailure "type_error" 304 (ascii "cannot use at() with " ++ value.typeName))

/-- `get_ref<const std::string&>()`. -/
def getRefString : Value → Except Failure Bytes
  | string text => .ok text
  | value => .error (jsonFailure "type_error" 303
      (ascii "incompatible ReferenceType for get_ref, actual type is " ++ value.typeName))

/-- `get_ref<const json::array_t&>()`. -/
def getRefArray : Value → Except Failure (List Value)
  | array items => .ok items
  | value => .error (jsonFailure "type_error" 303
      (ascii "incompatible ReferenceType for get_ref, actual type is " ++ value.typeName))

/-- `get<std::string>()`. -/
def getString : Value → Except Failure Bytes
  | string text => .ok text
  | value => .error (jsonFailure "type_error" 302
      (ascii "type must be string, but is " ++ value.typeName))

/-- `get<bool>()`. -/
def getBool : Value → Except Failure Bool
  | boolean flag => .ok flag
  | value => .error (jsonFailure "type_error" 302
      (ascii "type must be boolean, but is " ++ value.typeName))

/-- `value(key, default)` at type `std::string`. -/
def valueString (value : Value) (key fallback : Bytes) : Except Failure Bytes :=
  if value.isObject then
    match value.find? key with
    | some field => field.getString
    | none => .ok fallback
  else .error (jsonFailure "type_error" 306 (ascii "cannot use value() with " ++ value.typeName))

/-- `value == text` for a string literal. -/
def equalsText : Value → Bytes → Bool
  | string text, other => text = other
  | _, _ => false

/-- A small unsigned number is the same as a signed one. -/
theorem getInt64_numberUnsigned {value : Nat} (h : value < 2 ^ 63) :
    (numberUnsigned value).getInt64 = value :=
  if_pos h

end Value

/-! ### Sorted fields -/

/-- A field with a greater key comes last. -/
theorem insertField_last {key : Bytes} {value : Value} {done : List (Bytes × Value)}
    (h : ∀ field ∈ done, field.1 < key) : insertField key value done = done ++ [(key, value)] := by
  induction done with
  | nil => rfl
  | cons field done ih =>
    have hlt := h field List.mem_cons_self
    have hne : key ≠ field.1 := by
      intro he
      rw [he] at hlt
      exact List.lt_irrefl _ hlt
    have hnot : ¬key < field.1 := List.lt_asymm hlt
    rw [insertField, if_neg hne, if_neg hnot, ih fun other ho ↦ h other (List.mem_cons_of_mem _ ho)]
    rfl

/-- Fields in the order of their keys are the fields of the object. -/
theorem insertFields_sorted {fields done : List (Bytes × Value)}
    (h : (done ++ fields).Pairwise fun a b ↦ a.1 < b.1) :
    insertFields fields done = done ++ fields := by
  induction fields generalizing done with
  | nil => simp [insertFields]
  | cons field fields ih =>
    have hlast : insertField field.1 field.2 done = done ++ [field] :=
      insertField_last fun other ho ↦ (List.pairwise_append.mp h).2.2 other ho field
        List.mem_cons_self
    rw [List.append_cons] at h
    show insertFields fields (insertField field.1 field.2 done) = _
    rw [hlast, ih h, List.append_assoc]
    rfl

/-- The members of an object of which one was set. -/
theorem mem_insertField {key : Bytes} {value : Value} {fields : List (Bytes × Value)}
    {field : Bytes × Value} (h : field ∈ insertField key value fields) :
    field = (key, value) ∨ field ∈ fields := by
  induction fields with
  | nil => exact .inl (List.mem_singleton.mp h)
  | cons other fields ih =>
    rw [insertField] at h
    split at h
    · rcases List.mem_cons.mp h with h | h
      · exact .inl h
      · exact .inr (List.mem_cons_of_mem _ h)
    · split at h
      · exact List.mem_cons.mp h
      · rcases List.mem_cons.mp h with h | h
        · exact .inr (h ▸ List.mem_cons_self)
        · rcases ih h with h | h
          · exact .inl h
          · exact .inr (List.mem_cons_of_mem _ h)

/-- An assignment keeps the fields sorted. -/
theorem insertField_sorted {key : Bytes} {value : Value} {fields : List (Bytes × Value)}
    (h : fields.Pairwise fun a b ↦ a.1 < b.1) :
    (insertField key value fields).Pairwise fun a b ↦ a.1 < b.1 := by
  induction fields with
  | nil => exact List.pairwise_singleton _ _
  | cons other fields ih =>
    obtain ⟨hfirst, hrest⟩ := List.pairwise_cons.mp h
    rw [insertField]
    split
    · next he => exact List.pairwise_cons.mpr ⟨fun field hf ↦ he ▸ hfirst field hf, hrest⟩
    · next hne =>
      split
      · next hlt =>
        refine List.pairwise_cons.mpr ⟨fun field hf ↦ ?_, h⟩
        rcases List.mem_cons.mp hf with rfl | hf
        · exact hlt
        · exact List.lt_trans hlt (hfirst field hf)
      · next hge =>
        have hlt : other.1 < key :=
          Std.lt_of_le_of_ne (List.not_lt.mp hge) fun he ↦ hne he.symm
        refine List.pairwise_cons.mpr ⟨fun field hf ↦ ?_, ih hrest⟩
        rcases mem_insertField hf with rfl | hf
        · exact hlt
        · exact hfirst field hf

/-- The members of an object of which several were set. -/
theorem mem_insertFields {fields done : List (Bytes × Value)} {field : Bytes × Value}
    (h : field ∈ insertFields fields done) : field ∈ fields ∨ field ∈ done := by
  induction fields generalizing done with
  | nil => exact .inr h
  | cons other fields ih =>
    rcases ih h with h | h
    · exact .inl (List.mem_cons_of_mem _ h)
    · rcases mem_insertField h with h | h
      · exact .inl (h ▸ List.mem_cons_self)
      · exact .inr h

/-- Setting members keeps the order of the keys. -/
theorem insertFields_pairwise {fields done : List (Bytes × Value)}
    (h : done.Pairwise fun a b ↦ a.1 < b.1) :
    (insertFields fields done).Pairwise fun a b ↦ a.1 < b.1 := by
  induction fields generalizing done with
  | nil => exact h
  | cons other fields ih => exact ih (insertField_sorted h)

/-! ### What the accessors throw -/

/-- The text of a failure is not empty. -/
theorem jsonFailure_what_ne_nil (name : String) (id : Nat) (text : Bytes) :
    (jsonFailure name id text).what ≠ [] := by
  simp only [jsonFailure, ne_eq, List.append_eq_nil_iff, not_and]
  intro h
  exact absurd h.1.1.1.1 (by decide)

private theorem plain_jsonFailure {name : String} {id : Nat} {text : Bytes}
    (hn : isAscii (jsonFailure name id []).what = true) (ht : isAscii text = true) :
    (jsonFailure name id text).Plain := by
  refine ⟨⟨nofun, jsonFailure_what_ne_nil name id text⟩, ?_⟩
  simp only [isAscii, jsonFailure, List.all_append, Bool.and_eq_true] at hn ht ⊢
  exact ⟨hn.1, ht⟩

namespace Value

private theorem ascii_typeName (value : Value) (text : String) (h : isAscii (ascii text) = true) :
    isAscii (ascii text ++ value.typeName) = true := by
  rw [isAscii, List.all_append, Bool.and_eq_true]
  refine ⟨h, ?_⟩
  cases value <;> rfl

/-- The text for a missing key is plain if the key is ASCII. -/
theorem raises_atKey (value : Value) {key : Bytes} (hk : isAscii key = true) :
    Raises Failure.Plain (value.atKey key) := by
  unfold atKey
  refine raises_ite ?_ (raises_error (plain_jsonFailure (by decide) ?_))
  · split
    · exact raises_ok _
    · refine raises_error (plain_jsonFailure (by decide) ?_)
      simp only [isAscii, List.all_append, Bool.and_eq_true]
      exact ⟨⟨by decide, hk⟩, by decide⟩
  · exact ascii_typeName value _ (by decide)

/-- The text of the failure of `get_ref` of a string is plain. -/
theorem raises_getRefString (value : Value) : Raises Failure.Plain value.getRefString := by
  unfold getRefString
  split
  · exact raises_ok _
  · exact raises_error (plain_jsonFailure (by decide) (ascii_typeName _ _ (by decide)))

/-- The text of the failure of `get_ref` of an array is plain. -/
theorem raises_getRefArray (value : Value) : Raises Failure.Plain value.getRefArray := by
  unfold getRefArray
  split
  · exact raises_ok _
  · exact raises_error (plain_jsonFailure (by decide) (ascii_typeName _ _ (by decide)))

/-- The text of the failure of `get` of a string is plain. -/
theorem raises_getString (value : Value) : Raises Failure.Plain value.getString := by
  unfold getString
  split
  · exact raises_ok _
  · exact raises_error (plain_jsonFailure (by decide) (ascii_typeName _ _ (by decide)))

/-- The text of the failure of `get` of a Boolean is plain. -/
theorem raises_getBool (value : Value) : Raises Failure.Plain value.getBool := by
  unfold getBool
  split
  · exact raises_ok _
  · exact raises_error (plain_jsonFailure (by decide) (ascii_typeName _ _ (by decide)))

/-- The text of the failure of `value` is plain. -/
theorem raises_valueString (value : Value) (key fallback : Bytes) :
    Raises Failure.Plain (value.valueString key fallback) := by
  unfold valueString
  refine raises_ite ?_ (raises_error (plain_jsonFailure (by decide) ?_))
  · split
    · exact raises_getString _
    · exact raises_ok _
  · exact ascii_typeName value _ (by decide)

end Value

end Json
