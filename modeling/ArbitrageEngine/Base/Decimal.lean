import ArbitrageEngine.Base.Bytes
import Mathlib.Algebra.Order.Field.Rat
import Mathlib.Data.List.Induction
import Mathlib.Tactic.Ring
import Mathlib.Tactic.FieldSimp

/-!
# What a decimal text denotes

A decimal text is `digits`, an optional `.digits` and an optional exponent. `parts` takes
such a text apart and `value` is the rational number it stands for.
-/

namespace Base.Decimal

open Base

/-! ### Digit strings -/

/-- The digits of a number behind other ones. -/
theorem foldl_digits (digits : Bytes) (n : Nat) :
    digits.foldl (fun value c ↦ value * 10 + digit c) n =
      n * 10 ^ digits.length + digitsValue digits := by
  induction digits generalizing n with
  | nil => simp [digitsValue]
  | cons c rest ih =>
    have hv : digitsValue (c :: rest) = digit c * 10 ^ rest.length + digitsValue rest := by
      rw [digitsValue, List.foldl_cons, ih]
      simp
    rw [List.foldl_cons, ih, hv, List.length_cons, pow_succ]
    ring

/-- Digits stand for a number below the power of ten of their count. -/
theorem digitsValue_lt {digits : Bytes} (hd : digits.all isDigit = true) :
    digitsValue digits < 10 ^ digits.length := by
  induction digits with
  | nil => decide
  | cons c rest ih =>
    rw [List.all_cons, Bool.and_eq_true] at hd
    have hc := toNat_of_isDigit hd.1
    have hv : digitsValue (c :: rest) = digit c * 10 ^ rest.length + digitsValue rest :=
      (foldl_digits rest (0 * 10 + digit c)).trans (by rw [Nat.zero_mul, Nat.zero_add])
    have hdigit : digit c ≤ 9 := by
      rw [digit]
      omega
    have hmul := Nat.mul_le_mul_right (10 ^ rest.length) hdigit
    have hrest := ih hd.2
    rw [hv, List.length_cons, pow_succ]
    omega

/-- The number of two runs of digits. -/
theorem digitsValue_append (a b : Bytes) :
    digitsValue (a ++ b) = digitsValue a * 10 ^ b.length + digitsValue b := by
  rw [digitsValue, List.foldl_append, foldl_digits b]
  rfl

/-- Zeros stand for zero. -/
theorem digitsValue_replicate_zero (n : Nat) : digitsValue (List.replicate n 0x30) = 0 := by
  induction n with
  | zero => rfl
  | succ n ih =>
    rw [List.replicate_succ', digitsValue_append, ih]
    rfl

/-! ### Printing a number -/

private theorem decimal_flatMap (n : Nat) :
    decimal n = (Nat.toDigits 10 n).flatMap String.utf8EncodeChar := by
  show (List.flatMap String.utf8EncodeChar (Nat.toDigits 10 n)).toByteArray.data.toList = _
  rw [List.data_toByteArray]

private theorem encode_digitChar {n : Nat} (h : n < 10) :
    String.utf8EncodeChar n.digitChar = [UInt8.ofNat (0x30 + n)] := by
  revert h n
  decide

private theorem decimal_of_lt {n : Nat} (h : n < 10) : decimal n = [UInt8.ofNat (0x30 + n)] := by
  rw [decimal_flatMap, Nat.toDigits_of_lt_base h, List.flatMap_singleton, encode_digitChar h]

private theorem decimal_of_ge {n : Nat} (h : 10 ≤ n) :
    decimal n = decimal (n / 10) ++ [UInt8.ofNat (0x30 + n % 10)] := by
  rw [decimal_flatMap, Nat.toDigits_of_base_le (by omega) h, List.flatMap_append,
    ← decimal_flatMap, List.flatMap_singleton, encode_digitChar (by omega)]

private theorem isDigit_ofNat {n : Nat} (h : n < 10) : isDigit (UInt8.ofNat (0x30 + n)) = true := by
  revert h n
  decide

private theorem digit_ofNat {n : Nat} (h : n < 10) : digit (UInt8.ofNat (0x30 + n)) = n := by
  revert h n
  decide

/-- A number is printed in digits. -/
theorem all_decimal (n : Nat) : (decimal n).all isDigit = true := by
  induction n using Nat.strong_induction_on with
  | h n ih =>
    by_cases h : n < 10
    · rw [decimal_of_lt h, List.all_cons, isDigit_ofNat h]
      rfl
    · rw [decimal_of_ge (by omega), List.all_append, ih (n / 10) (by omega), List.all_cons,
        isDigit_ofNat (by omega)]
      rfl

/-- The printed digits denote the number. -/
theorem digitsValue_decimal (n : Nat) : digitsValue (decimal n) = n := by
  induction n using Nat.strong_induction_on with
  | h n ih =>
    by_cases h : n < 10
    · rw [decimal_of_lt h]
      show 0 * 10 + digit _ = n
      rw [digit_ofNat h]
      omega
    · rw [decimal_of_ge (by omega), digitsValue_append, ih (n / 10) (by omega)]
      show n / 10 * 10 ^ 1 + (0 * 10 + digit _) = n
      rw [digit_ofNat (by omega)]
      omega

/-- Only zero is printed with a leading zero. -/
theorem decimal_cons (n : Nat) :
    ∃ c rest, decimal n = c :: rest ∧ isDigit c = true ∧ (c = 0x30 → rest = []) := by
  induction n using Nat.strong_induction_on with
  | h n ih =>
    by_cases h : n < 10
    · exact ⟨_, [], decimal_of_lt h, isDigit_ofNat h, fun _ ↦ rfl⟩
    · obtain ⟨c, rest, hd, hc, hz⟩ := ih (n / 10) (by omega)
      refine ⟨c, rest ++ [UInt8.ofNat (0x30 + n % 10)], ?_, hc, ?_⟩
      · rw [decimal_of_ge (by omega), hd, List.cons_append]
      · intro hc0
        have hv := digitsValue_decimal (n / 10)
        rw [hd, hz hc0, hc0] at hv
        have : digitsValue [0x30] = 0 := rfl
        omega

/-- A digit string without a leading zero is the printed form of its value. -/
theorem decimal_digitsValue {digits : Bytes} (hd : digits.all isDigit = true) (hn : digits ≠ [])
    (hz : digits.head? ≠ some 0x30) : decimal (digitsValue digits) = digits := by
  induction digits using List.reverseRecOn with
  | nil => exact absurd rfl hn
  | append_singleton front c ih =>
    rw [List.all_append, Bool.and_eq_true, List.all_cons, Bool.and_eq_true] at hd
    obtain ⟨hfront, hc, -⟩ := hd
    have hrange := toNat_of_isDigit hc
    have hv : digitsValue (front ++ [c]) = digitsValue front * 10 + digit c := by
      rw [digitsValue_append]
      show digitsValue front * 10 ^ 1 + (0 * 10 + digit c) = _
      omega
    have hdigit : digit c < 10 := by
      rw [digit]
      omega
    have hbyte : UInt8.ofNat (0x30 + digit c) = c := by
      rw [digit, Nat.add_sub_cancel' hrange.1]
      exact UInt8.ofNat_toNat
    cases front with
    | nil =>
      rw [hv, decimal_of_lt (by show 0 * 10 + digit c < 10; omega)]
      show [UInt8.ofNat (0x30 + (0 * 10 + digit c))] = [c]
      rw [Nat.zero_mul, Nat.zero_add, hbyte]
    | cons first rest =>
      have hprint := ih hfront (List.cons_ne_nil first rest) hz
      have hpos : digitsValue (first :: rest) ≠ 0 := by
        intro h0
        rw [h0] at hprint
        exact hz (congrArg List.head? hprint).symm
      rw [hv, decimal_of_ge (by omega), Nat.mul_add_mod_self_right, Nat.mod_eq_of_lt hdigit, hbyte,
        Nat.mul_comm, Nat.mul_add_div (by omega), Nat.div_eq_of_lt hdigit, Nat.add_zero, hprint]

/-- Without its leading zeros a digit string is the printed form of its value, or empty. -/
theorem dropWhile_zeros {digits : Bytes} (hd : digits.all isDigit = true) :
    digits.dropWhile (· = 0x30) =
      if digitsValue digits = 0 then [] else decimal (digitsValue digits) := by
  induction digits with
  | nil => rfl
  | cons c rest ih =>
    rw [List.all_cons, Bool.and_eq_true] at hd
    by_cases hc : c = 0x30
    · have hv : digitsValue (c :: rest) = digitsValue rest := by
        rw [hc]
        rfl
      rw [List.dropWhile_cons_of_pos (by simp [hc]), hv, ih hd.2]
    · have hprint : decimal (digitsValue (c :: rest)) = c :: rest := by
        apply decimal_digitsValue
        · rw [List.all_cons, hd.1, hd.2]
          rfl
        · exact List.cons_ne_nil c rest
        · simpa using hc
      have hpos : digitsValue (c :: rest) ≠ 0 := by
        intro h0
        rw [h0] at hprint
        exact hc (List.head_eq_of_cons_eq hprint).symm
      rw [List.dropWhile_cons_of_neg (by simp [hc]), if_neg hpos, hprint]

/-! ### The parts of a decimal text -/

/-- The digits before and after the point, and the exponent. -/
structure Parts where
  whole : Bytes
  fraction : Bytes
  exponent : Int
  deriving DecidableEq, Repr

/-- The number that the parts stand for. -/
def Parts.value (parts : Parts) : ℚ :=
  digitsValue (parts.whole ++ parts.fraction) * 10 ^ (parts.exponent - parts.fraction.length)

/-- The value of a nonempty digit string. -/
def unsigned (text : Bytes) : Option Nat :=
  if text ≠ [] ∧ text.all isDigit then some (digitsValue text) else none

/-- The value of a nonempty digit string after an optional sign. -/
def signed : Bytes → Option Int
  | 0x2b :: text => (unsigned text).map Int.ofNat
  | 0x2d :: text => (unsigned text).map fun n ↦ -Int.ofNat n
  | text => (unsigned text).map Int.ofNat

/-- `e` or `E`. -/
def isExponentMark (c : UInt8) : Bool := c = 0x65 || c = 0x45

/-- The exponent that ends a decimal text, zero when there is none. -/
def exponent : Bytes → Option Int
  | [] => some 0
  | c :: text => if isExponentMark c then signed text else none

/-- Takes a decimal text apart. -/
def parts (text : Bytes) : Option Parts :=
  let whole := text.takeWhile isDigit
  if whole = [] then none
  else
    match text.dropWhile isDigit with
    | 0x2e :: rest =>
      let fraction := rest.takeWhile isDigit
      if fraction = [] then none
      else (exponent (rest.dropWhile isDigit)).map fun e ↦ ⟨whole, fraction, e⟩
    | rest => (exponent rest).map fun e ↦ ⟨whole, [], e⟩

/-- The number that a decimal text denotes. -/
def value (text : Bytes) : Option ℚ := (parts text).map Parts.value

/-! ### Writing the parts down again -/

/-- The point and the digits after it; nothing when there are no digits. -/
def point (fraction : Bytes) : Bytes := if fraction = [] then [] else 0x2e :: fraction

/-- A run of digits ends where the next byte is none. -/
theorem takeWhile_digits {digits rest : Bytes} (hd : digits.all isDigit = true)
    (hr : ∀ c ∈ rest.head?, isDigit c = false) :
    (digits ++ rest).takeWhile isDigit = digits ∧ (digits ++ rest).dropWhile isDigit = rest := by
  have hd' : ∀ c ∈ digits, isDigit c = true := List.all_eq_true.mp hd
  have ht : rest.takeWhile isDigit = [] ∧ rest.dropWhile isDigit = rest := by
    cases rest with
    | nil => simp
    | cons c tail => simp [hr c rfl]
  rw [List.takeWhile_append_of_pos hd', List.dropWhile_append_of_pos hd', ht.1, ht.2]
  simp

/-- A text that is written from parts and an exponent has these parts. -/
theorem parts_append {whole fraction rest : Bytes} (hn : whole ≠ [])
    (hw : whole.all isDigit = true) (hf : fraction.all isDigit = true)
    (hr : ∀ c ∈ rest.head?, isDigit c = false ∧ c ≠ 0x2e) :
    parts (whole ++ point fraction ++ rest) =
      (exponent rest).map fun e ↦ ⟨whole, fraction, e⟩ := by
  unfold parts point
  by_cases h : fraction = []
  · subst h
    obtain ⟨ht, hd⟩ := takeWhile_digits hw (fun c hc ↦ (hr c hc).1)
    simp only [↓reduceIte, List.append_nil, ht, hd, hn]
    split
    · next tail => exact absurd rfl (hr 0x2e rfl).2
    · rfl
  · have hp : ∀ c ∈ (0x2e :: (fraction ++ rest)).head?, isDigit c = false := by
      intro c hc
      cases hc
      rfl
    obtain ⟨ht, hd⟩ := takeWhile_digits hw hp
    obtain ⟨hft, hfd⟩ := takeWhile_digits hf (fun c hc ↦ (hr c hc).1)
    simp only [h, ↓reduceIte, List.append_assoc, List.cons_append, ht, hd, hn, hft, hfd]

/-- Every decimal text is written from its parts, up to how the exponent is spelled. -/
theorem eq_of_parts {text : Bytes} {p : Parts} (h : parts text = some p) :
    p.whole ≠ [] ∧ p.whole.all isDigit = true ∧ p.fraction.all isDigit = true ∧
      ∃ rest, text = p.whole ++ point p.fraction ++ rest ∧ exponent rest = some p.exponent := by
  have hall (l : Bytes) : (l.takeWhile isDigit).all isDigit = true := by simp
  have htd (l : Bytes) : l = l.takeWhile isDigit ++ l.dropWhile isDigit :=
    (List.takeWhile_append_dropWhile).symm
  unfold parts at h
  simp only at h
  split at h
  · cases h
  · next hn =>
    split at h
    · next tail hd =>
      split at h
      · cases h
      · next hf =>
        obtain ⟨e, he, hp⟩ := Option.map_eq_some_iff.mp h
        subst hp
        refine ⟨hn, hall text, hall tail, tail.dropWhile isDigit, ?_, he⟩
        simp only [point, hf, ↓reduceIte, List.append_assoc, List.cons_append]
        rw [← htd tail, ← hd, ← htd text]
    · next hd =>
      obtain ⟨e, he, hp⟩ := Option.map_eq_some_iff.mp h
      subst hp
      refine ⟨hn, hall text, rfl, text.dropWhile isDigit, ?_, he⟩
      simp only [point, ↓reduceIte, List.append_nil]
      exact htd text

/-- The value of a text without an exponent. -/
theorem value_point {whole fraction : Bytes} (hn : whole ≠ []) (hw : whole.all isDigit = true)
    (hf : fraction.all isDigit = true) :
    value (whole ++ point fraction) =
      some ((digitsValue (whole ++ fraction) : ℚ) / 10 ^ fraction.length) := by
  have h : parts (whole ++ point fraction ++ []) = _ := parts_append hn hw hf (by simp)
  rw [List.append_nil] at h
  rw [value, h]
  simp [exponent, Parts.value, zpow_neg, div_eq_mul_inv]

end Base.Decimal
