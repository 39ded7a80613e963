import ArbitrageEngine.Json.RoundTrip

/-!
# Comparing and changing JSON values

`third_party/nlohmann/json.hpp`: `operator==`, `size()`, iteration and the conversions to an
unsigned number. What was written and read back has the same fields, compares equal and is
written in the same way again.
-/

namespace Json

open Base

namespace Value

/-! ### Access -/

/-- `size()`. -/
def size : Value → Nat
  | null => 0
  | array items => items.length
  | object fields => fields.length
  | _ => 1

/-- `at(0)`. -/
def atFirst : Value → Except Failure Value
  | array (item :: _) => .ok item
  | array [] => .error (jsonFailure "out_of_range" 401 (ascii "array index 0 is out of range"))
  | value => .error (jsonFailure "type_error" 304 (ascii "cannot use at() with " ++ value.typeName))

/-- `operator[]` with a number on a constant value, which only arrays have. -/
def numbered : Value → Except Failure (List Value)
  | array items => .ok items
  | value => .error (jsonFailure "type_error" 305
      (ascii "cannot use operator[] with a numeric argument with " ++ value.typeName))

/-- What a range-based `for` goes through. -/
def elements : Value → List Value
  | null => []
  | array items => items
  | object fields => fields.map Prod.snd
  | value => [value]

/-- `get<std::size_t>()`; `truncated` is the cast of a floating-point number. -/
def getSize (truncated : Bytes → Nat) : Value → Except Failure Nat
  | numberUnsigned value => .ok value
  | numberInteger value => .ok (value % 2 ^ 64).toNat
  | numberFloat token => .ok (truncated token)
  | value => .error (jsonFailure "type_error" 302
      (ascii "type must be number, but is " ++ value.typeName))

/-- `is_number()`. -/
def isNumber : Value → Bool
  | numberInteger _ | numberUnsigned _ | numberFloat _ => true
  | _ => false

/-! ### Comparison -/

mutual

/-- `operator==`. An unsigned number is cast when it is compared with a signed one; `floats`
compares two numbers one of which is a floating-point number. -/
def equals (floats : Value → Value → Bool) : Value → Value → Bool
  | null, null => true
  | boolean a, boolean b => a = b
  | numberInteger a, numberInteger b => a = b
  | numberUnsigned a, numberUnsigned b => a = b
  | numberInteger a, numberUnsigned b => a = (numberUnsigned b).getInt64
  | numberUnsigned a, numberInteger b => (numberUnsigned a).getInt64 = b
  | string a, string b => a = b
  | array a, array b => equalsItems floats a b
  | object a, object b => equalsFields floats a b
  | numberFloat a, b => b.isNumber && floats (numberFloat a) b
  | a, numberFloat b => a.isNumber && floats a (numberFloat b)
  | _, _ => false

/-- The items of two arrays, one by one. -/
def equalsItems (floats : Value → Value → Bool) : List Value → List Value → Bool
  | [], [] => true
  | a :: as, b :: bs => equals floats a b && equalsItems floats as bs
  | _, _ => false

/-- The fields of two objects, one by one. -/
def equalsFields (floats : Value → Value → Bool) :
    List (Bytes × Value) → List (Bytes × Value) → Bool
  | [], [] => true
  | (k, a) :: as, (l, b) :: bs => k = l && equals floats a b && equalsFields floats as bs
  | _, _ => false

end

variable {floats : Value → Value → Bool}

private theorem equalsItems_map {f : Value → Value} {items : List Value}
    (h : ∀ item ∈ items, equals floats (f item) item = true) :
    equalsItems floats (items.map f) items = true := by
  induction items with
  | nil => rfl
  | cons item items ih =>
    rw [List.forall_mem_cons] at h
    rw [List.map_cons, equalsItems, h.1, ih h.2]
    rfl

private theorem equalsFields_map {f : Value → Value} {fields : List (Bytes × Value)}
    (h : ∀ field ∈ fields, equals floats (f field.2) field.2 = true) :
    equalsFields floats (fields.map fun field ↦ (field.1, f field.2)) fields = true := by
  induction fields with
  | nil => rfl
  | cons field fields ih =>
    rw [List.forall_mem_cons] at h
    rw [List.map_cons, equalsFields, h.1, ih h.2]
    simp

/-- A value that was read back equals the one that was written. -/
theorem equals_reread {value : Value} (h : value.Plain) :
    equals floats value.reread value = true := by
  induction h with
  | null => rfl
  | boolean flag => simp [reread, equals]
  | @numberInteger n low high =>
    simp only [reread]
    split
    · simp [equals]
    · have hnat : n.toNat < 2 ^ 63 := by omega
      have hcast : ((n.toNat : Nat) : Int) = n := by omega
      simp only [equals, getInt64_numberUnsigned hnat, hcast, decide_true]
  | numberUnsigned high => simp [reread, equals]
  | string text => simp [reread, equals]
  | array each ih =>
    rw [reread, rereadItems_eq, equals]
    exact equalsItems_map ih
  | object sorted each ih =>
    rw [reread, rereadFields_eq, equals]
    exact equalsFields_map ih

/-- A value of this kind equals itself. -/
theorem equals_self {value : Value} (h : value.Plain) : equals floats value value = true := by
  induction h with
  | null => rfl
  | boolean flag => simp [equals]
  | numberInteger low high => simp [equals]
  | numberUnsigned high => simp [equals]
  | string text => simp [equals]
  | array each ih =>
    have hitems := equalsItems_map (f := id) ih
    rwa [List.map_id] at hitems
  | @object fields sorted each ih =>
    have hfields : equalsFields floats (fields.map id) fields = true :=
      equalsFields_map (f := id) ih
    rwa [List.map_id] at hfields

/-! ### What was read back -/

/-- Reading back keeps a value readable. -/
theorem Plain.reread {value : Value} (h : value.Plain) : value.reread.Plain := by
  induction h with
  | null => exact .null
  | boolean flag => exact .boolean flag
  | numberInteger low high =>
    simp only [Value.reread]
    split
    · exact .numberInteger low high
    · exact .numberUnsigned (by omega)
  | numberUnsigned high => exact .numberUnsigned high
  | string text => exact .string text
  | array each ih =>
    rw [Value.reread, rereadItems_eq]
    refine .array fun item hitem ↦ ?_
    obtain ⟨other, hother, rfl⟩ := List.mem_map.mp hitem
    exact ih other hother
  | object sorted each ih =>
    rw [Value.reread, rereadFields_eq]
    refine .object (List.Pairwise.map _ (fun _ _ hlt ↦ hlt) sorted) fun field hfield ↦ ?_
    obtain ⟨other, hother, rfl⟩ := List.mem_map.mp hfield
    exact ih other hother

/-- What was read back is written in the same way. -/
theorem dumpValue_reread {value : Value} (h : value.Plain) (indent : Option Nat) (level : Nat) :
    dumpValue indent level value.reread = dumpValue indent level value := by
  induction h generalizing level with
  | null => rfl
  | boolean flag => rfl
  | @numberInteger n low high =>
    simp only [Value.reread]
    split
    · rfl
    · next hn =>
      have habs : n.natAbs = n.toNat := by omega
      rw [dumpValue, dumpValue, dumpInteger, if_neg hn, habs]
  | numberUnsigned high => rfl
  | string text => rfl
  | @array items each ih =>
    rw [Value.reread, dumpValue, dumpValue]
    have hitems : dumpItems indent (newIndent indent level) (rereadItems items) =
        dumpItems indent (newIndent indent level) items := by
      clear each
      induction items with
      | nil => rfl
      | cons item items ihItems =>
        rw [rereadItems, dumpItems, dumpItems, ih item List.mem_cons_self,
          ihItems fun other ho ↦ ih other (List.mem_cons_of_mem _ ho)]
    rw [hitems]
  | @object fields sorted each ih =>
    rw [Value.reread, dumpValue, dumpValue]
    have hfields : dumpFields indent (newIndent indent level) (rereadFields fields) =
        dumpFields indent (newIndent indent level) fields := by
      clear sorted each
      induction fields with
      | nil => rfl
      | cons field fields ihFields =>
        obtain ⟨key, item⟩ := field
        rw [rereadFields, dumpFields, dumpFields, ih (key, item) List.mem_cons_self,
          ihFields fun other ho ↦ ih other (List.mem_cons_of_mem _ ho)]
    rw [hfields]

/-- The fields of what was read back. -/
theorem find?_reread (value : Value) (key : Bytes) :
    value.reread.find? key = (value.find? key).map reread := by
  cases value with
  | object fields =>
    rw [reread, rereadFields_eq, find?, find?, List.find?_map, Option.map_map, Option.map_map]
    rfl
  | numberInteger n =>
    rw [reread]
    split <;> rfl
  | null | boolean | numberUnsigned | numberFloat | string | array => rfl

private theorem isObject_reread (value : Value) : value.reread.isObject = value.isObject := by
  cases value with
  | numberInteger n =>
    rw [reread]
    split <;> rfl
  | null | boolean | numberUnsigned | numberFloat | string | array | object => rfl

/-- A field of what was read back. -/
theorem atKey_reread {value item : Value} {key : Bytes} (ho : value.isObject = true)
    (h : value.find? key = some item) : value.reread.atKey key = .ok item.reread := by
  rw [atKey, isObject_reread, ho, find?_reread, h]
  rfl

end Value

/-! ### Fields after an assignment -/

/-- The value of a field. -/
def lookup (key : Bytes) (fields : List (Bytes × Value)) : Option Value :=
  (Value.object fields).find? key

private theorem lookup_cons (key : Bytes) (field : Bytes × Value) (fields : List (Bytes × Value)) :
    lookup key (field :: fields) = if field.1 = key then some field.2 else lookup key fields := by
  rw [lookup, lookup, Value.find?, Value.find?, List.find?_cons]
  by_cases h : field.1 = key
  · simp [h]
  · simp [h]

/-- An assigned field has the value that was assigned, the others keep theirs. -/
theorem lookup_insertField (key other : Bytes) (item : Value) (fields : List (Bytes × Value)) :
    lookup other (insertField key item fields) =
      if key = other then some item else lookup other fields := by
  induction fields with
  | nil => exact lookup_cons other (key, item) []
  | cons field fields ih =>
    obtain ⟨k, v⟩ := field
    rw [insertField]
    split
    · next hk =>
      subst hk
      rw [lookup_cons, lookup_cons]
      split <;> rfl
    · next hk =>
      split
      · exact lookup_cons other (key, item) _
      · rw [lookup_cons, lookup_cons, ih]
        by_cases hko : k = other
        · subst hko
          rw [if_pos rfl, if_neg hk, if_pos rfl]
        · rw [if_neg hko, if_neg hko]

/-- What is found under a key is a member of the object. -/
theorem lookup_eq_some {key : Bytes} {item : Value} {fields : List (Bytes × Value)}
    (h : lookup key fields = some item) : (key, item) ∈ fields := by
  induction fields with
  | nil => cases h
  | cons field fields ih =>
    rw [lookup_cons] at h
    split at h
    · next hk =>
      obtain ⟨k, v⟩ := field
      cases h
      cases hk
      exact List.mem_cons_self
    · exact List.mem_cons_of_mem _ (ih h)

/-- `at` returns the member that is found. -/
theorem atKey_of_lookup {key : Bytes} {item : Value} {fields : List (Bytes × Value)}
    (h : lookup key fields = some item) : (Value.object fields).atKey key = .ok item := by
  rw [lookup] at h
  simp only [Value.atKey, Value.isObject, h]
  rfl

/-- Assigning a value that is written in the same way leaves the text as it is. -/
theorem dumpFields_insertField {key : Bytes} {old new : Value} {fields : List (Bytes × Value)}
    (hs : fields.Pairwise fun a b ↦ a.1 < b.1) (h : lookup key fields = some old)
    {indent : Option Nat} {level : Nat}
    (hd : dumpValue indent level new = dumpValue indent level old) :
    dumpFields indent level (insertField key new fields) = dumpFields indent level fields := by
  induction fields with
  | nil => cases h
  | cons field fields ih =>
    obtain ⟨k, v⟩ := field
    obtain ⟨hfirst, hrest⟩ := List.pairwise_cons.mp hs
    rw [lookup_cons] at h
    rw [insertField]
    split at h
    · next hk =>
      cases hk
      cases h
      rw [if_pos rfl, dumpFields, dumpFields, hd]
    · next hk =>
      have hlt : k < key := hfirst _ (lookup_eq_some h)
      rw [if_neg (Ne.symm hk), if_neg (List.lt_asymm hlt), dumpFields, dumpFields, ih hrest h]

/-- The last assignment to a key counts. -/
theorem lookup_insertFields (key : Bytes) (fields done : List (Bytes × Value)) :
    lookup key (insertFields fields done) =
      (lookup key fields.reverse).or (lookup key done) := by
  induction fields generalizing done with
  | nil => rfl
  | cons field fields ih =>
    have hlast : ∀ rest : List (Bytes × Value), lookup key (rest ++ [field]) =
        (lookup key rest).or (if field.1 = key then some field.2 else none) := by
      intro rest
      induction rest with
      | nil => exact lookup_cons key field []
      | cons first rest ihRest =>
        rw [List.cons_append, lookup_cons, lookup_cons, ihRest]
        split <;> rfl
    rw [insertFields, List.foldl_cons]
    change lookup key (insertFields fields (insertField field.1 field.2 done)) = _
    rw [ih, lookup_insertField, List.reverse_cons, hlast, Option.or_assoc]
    congr 1
    split <;> rfl

/-- Among different keys every field is found. -/
theorem lookup_of_mem {key : Bytes} {item : Value} {fields : List (Bytes × Value)}
    (hn : (fields.map Prod.fst).Nodup) (hm : (key, item) ∈ fields) :
    lookup key fields = some item := by
  induction fields with
  | nil => cases hm
  | cons field fields ih =>
    rw [List.map_cons, List.nodup_cons] at hn
    rw [lookup_cons]
    rcases List.mem_cons.mp hm with rfl | hm
    · exact if_pos rfl
    · have hne : field.1 ≠ key := by
        rintro rfl
        exact hn.1 (List.mem_map.mpr ⟨_, hm, rfl⟩)
      rw [if_neg hne]
      exact ih hn.2 hm

/-- An object that is built from different keys has the field under each. -/
theorem find?_objectOf {key : Bytes} {item : Value} {fields : List (Bytes × Value)}
    (hn : (fields.map Prod.fst).Nodup) (hm : (key, item) ∈ fields) :
    (objectOf fields).find? key = some item := by
  have hreverse : (fields.reverse.map Prod.fst).Nodup := by
    rw [List.map_reverse]
    exact (List.reverse_perm _).symm.nodup hn
  change lookup key (insertFields fields []) = some item
  rw [lookup_insertFields, lookup_of_mem hreverse (List.mem_reverse.mpr hm)]
  rfl

end Json
