import ArbitrageEngine.Base.Decimal

/-!
# Fixed-point values

`src/core/fixed_point.cpp`, `include/core/fixed_point.hpp`: nonnegative 64-bit values,
one type for each tag, and the exact decimal reader that produces them.
-/

namespace ArbitrageEngine.Core

open Base

/-- `std::numeric_limits<std::int64_t>::max()`. -/
def int64Max : Nat := 9223372036854775807

/-- The tag types of `FixedPoint` (`include/core/fixed_point.hpp:27–28`). -/
inductive FixedPointTag
  | price
  | quantity
  deriving DecidableEq, Repr

/-- `core::FixedPoint`: its constructor rejects negative values, its type bounds them
(`include/core/fixed_point.hpp:11–25`). -/
@[ext]
structure FixedPoint (tag : FixedPointTag) where
  raw : Nat
  raw_le : raw ≤ int64Max
  deriving DecidableEq, Repr

/-- `core::PriceTicks` (`include/core/fixed_point.hpp:27`). -/
abbrev PriceTicks := FixedPoint .price

/-- `core::QuantityAtoms` (`include/core/fixed_point.hpp:28`). -/
abbrev QuantityAtoms := FixedPoint .quantity

/-- `operator<=>` compares the raw values. -/
instance (tag : FixedPointTag) : Ord (FixedPoint tag) := ⟨fun a b ↦ compare a.raw b.raw⟩

instance (tag : FixedPointTag) : Std.TransOrd (FixedPoint tag) where
  eq_swap := Std.OrientedOrd.eq_swap (α := Nat)
  isLE_trans := Std.TransOrd.isLE_trans (α := Nat)

instance (tag : FixedPointTag) : Std.LawfulEqOrd (FixedPoint tag) where
  eq_of_compare h := FixedPoint.ext (Std.LawfulEqOrd.eq_of_compare (α := Nat) h)

/-! ### Reading decimals -/

/-- The validation loop of `parse_decimal`; counts the digits after the point
(`src/core/fixed_point.cpp:18–32`). -/
def validateDecimal (pointSeen : Bool) (fractionalDigits : Nat) (first : Bool) :
    Bytes → Except Failure Nat
  | [] => .ok fractionalDigits
  | ch :: rest =>
    if ch = 0x2e then
      if pointSeen || first || rest.isEmpty then invalidArgument "invalid decimal point"
      else validateDecimal true fractionalDigits false rest
    else if !isDigit ch then invalidArgument "decimal contains an invalid character"
    else validateDecimal pointSeen (if pointSeen then fractionalDigits + 1 else fractionalDigits)
      false rest

/-- The `append` lambda of `parse_decimal`, on `ch - '0'` (`src/core/fixed_point.cpp:38–44`). -/
def appendDigit {tag : FixedPointTag} (value : FixedPoint tag) (digit : UInt8) :
    Except Failure (FixedPoint tag) :=
  if h : (int64Max - digit.toNat) / 10 < value.raw then
    .error ⟨.overflowError, ascii "decimal exceeds INT64_MAX"⟩
  else
    .ok ⟨value.raw * 10 + digit.toNat, by
      have hd := digit.toNat_lt
      unfold int64Max at h ⊢
      omega⟩

/-- `parse_decimal`, with the `FixedPoint` constructor its callers apply
(`src/core/fixed_point.cpp:8–54`). -/
def parseDecimal {tag : FixedPointTag} (decimal : Bytes) (scale : Int) :
    Except Failure (FixedPoint tag) := do
  if scale < 0 || 18 < scale then
    throw ⟨.outOfRange, ascii "scale must be between 0 and 18"⟩
  if decimal.isEmpty then invalidArgument "decimal must not be empty"
  let fractionalDigits ← validateDecimal false 0 true decimal
  if scale.toNat < fractionalDigits then invalidArgument "decimal exceeds requested precision"
  let raw ← (decimal.filter (· ≠ 0x2e)).foldlM (fun raw ch ↦ appendDigit raw (ch - 0x30))
    ⟨0, Nat.zero_le _⟩
  (List.replicate (scale.toNat - fractionalDigits) 0).foldlM appendDigit raw

private theorem raises_validateDecimal (decimal : Bytes) (seen : Bool) (digits : Nat)
    (first : Bool) :
    Raises Failure.Plain (validateDecimal seen digits first decimal) := by
  induction decimal generalizing seen digits first with
  | nil => exact raises_ok _
  | cons ch rest ih =>
    rw [validateDecimal]
    refine raises_ite (raises_ite ?_ (ih _ _ _)) (raises_ite ?_ (ih _ _ _))
    · exact raises_invalidArgument (by decide)
    · exact raises_invalidArgument (by decide)

private theorem raises_appendDigit {tag : FixedPointTag} (value : FixedPoint tag) (digit : UInt8) :
    Raises Failure.Plain (appendDigit value digit) := by
  unfold appendDigit
  split
  · exact raises_error (by decide)
  · exact raises_ok _

/-- The texts of `parse_decimal` are plain. -/
theorem raises_parseDecimal {tag : FixedPointTag} (decimal : Bytes) (scale : Int) :
    Raises Failure.Plain (parseDecimal decimal scale : Except Failure (FixedPoint tag)) := by
  unfold parseDecimal
  refine raises_ite (raises_error (by decide)) ?_
  refine raises_ite (raises_invalidArgument (by decide)) ?_
  refine raises_bind (raises_validateDecimal _ _ _ _) fun digits ↦ ?_
  refine raises_ite (raises_invalidArgument (by decide)) ?_
  exact raises_bind (raises_foldlM (fun _ _ ↦ raises_appendDigit _ _) _ _)
    fun raw ↦ raises_foldlM raises_appendDigit _ _

/-! ### What the reader computes -/

private theorem validateDecimal_fraction {text : Bytes} {n k : Nat} {first : Bool}
    (h : validateDecimal true n first text = .ok k) :
    text.all isDigit = true ∧ k = n + text.length := by
  induction text generalizing n first with
  | nil =>
    cases h
    exact ⟨rfl, rfl⟩
  | cons ch rest ih =>
    rw [validateDecimal] at h
    simp only [Bool.true_or, ↓reduceIte] at h
    split at h
    · cases h
    · split at h
      · cases h
      · next hd =>
        obtain ⟨hr, hk⟩ := ih h
        simp only [Bool.not_eq_true, Bool.not_eq_false'] at hd
        refine ⟨by simp [hd, hr], ?_⟩
        rw [hk, List.length_cons]
        omega

/-- A text that passes the validation is digits with at most one point between them. -/
private theorem validateDecimal_parts {text : Bytes} {k : Nat} {first : Bool}
    (h : validateDecimal false 0 first text = .ok k) :
    ∃ whole fraction, text = whole ++ Decimal.point fraction ∧ whole.all isDigit = true ∧
      fraction.all isDigit = true ∧ k = fraction.length ∧
        (first = true → text ≠ [] → whole ≠ []) := by
  induction text generalizing first with
  | nil =>
    cases h
    exact ⟨[], [], rfl, rfl, rfl, rfl, fun _ hn ↦ hn⟩
  | cons ch rest ih =>
    rw [validateDecimal] at h
    split at h
    · next hc =>
      split at h
      · cases h
      · next hp =>
        obtain ⟨hr, hk⟩ := validateDecimal_fraction h
        simp only [Bool.false_or, Bool.or_eq_true, not_or, Bool.not_eq_true,
          List.isEmpty_eq_false_iff] at hp
        refine ⟨[], rest, ?_, rfl, hr, by omega, fun hf ↦ ?_⟩
        · simp [Decimal.point, hp.2, hc]
        · rw [hp.1] at hf
          cases hf
    · split at h
      · cases h
      · next hd =>
        obtain ⟨whole, fraction, ht, hw, hf, hk, _⟩ := ih h
        simp only [Bool.not_eq_true, Bool.not_eq_false'] at hd
        refine ⟨ch :: whole, fraction, by rw [ht, List.cons_append], ?_, hf, hk, by simp⟩
        simp [hd, hw]

/-- A numeral without its point is the run of its digits. -/
theorem filter_point {whole fraction : Bytes} (hw : whole.all isDigit = true)
    (hf : fraction.all isDigit = true) :
    (whole ++ Decimal.point fraction).filter (· ≠ 0x2e) = whole ++ fraction := by
  have hkeep {digits : Bytes} (h : digits.all isDigit = true) :
      digits.filter (· ≠ 0x2e) = digits := by
    apply List.filter_eq_self.mpr
    intro c hc
    have hd := List.all_eq_true.mp h c hc
    apply decide_eq_true
    intro he
    rw [he] at hd
    cases hd
  rw [List.filter_append, hkeep hw, Decimal.point]
  split
  · next hn => rw [hn, List.filter_nil]
  · rw [List.filter_cons_of_neg (by decide), hkeep hf]

/-- The integer that digits stand for after `n`. -/
def extended (n : Nat) (digits : List UInt8) : Nat :=
  digits.foldl (fun n digit ↦ n * 10 + digit.toNat) n

private theorem le_extended (n : Nat) (digits : List UInt8) : n ≤ extended n digits := by
  induction digits generalizing n with
  | nil => exact Nat.le_refl n
  | cons digit rest ih =>
    have h := ih (n * 10 + digit.toNat)
    rw [extended, List.foldl_cons]
    rw [extended] at h
    omega

/-- The overflow test of one digit is exact. -/
theorem appendDigit_eq {tag : FixedPointTag} (value : FixedPoint tag) (digit : UInt8) :
    appendDigit value digit =
      if h : value.raw * 10 + digit.toNat ≤ int64Max then .ok ⟨value.raw * 10 + digit.toNat, h⟩
      else .error ⟨.overflowError, ascii "decimal exceeds INT64_MAX"⟩ := by
  have hd := digit.toNat_lt
  unfold appendDigit
  split
  · next h =>
    rw [dif_neg]
    unfold int64Max at h ⊢
    omega
  · next h =>
    rw [dif_pos]

/-- The test on every partial value fires exactly when the final value is too large. -/
theorem foldlM_appendDigit {tag : FixedPointTag} (digits : List UInt8) (value : FixedPoint tag) :
    digits.foldlM appendDigit value =
      if h : extended value.raw digits ≤ int64Max then .ok ⟨extended value.raw digits, h⟩
      else .error ⟨.overflowError, ascii "decimal exceeds INT64_MAX"⟩ := by
  induction digits generalizing value with
  | nil =>
    have h : extended value.raw [] ≤ int64Max := value.raw_le
    rw [dif_pos h]
    rfl
  | cons digit rest ih =>
    have hle := le_extended (value.raw * 10 + digit.toNat) rest
    rw [List.foldlM_cons, appendDigit_eq]
    by_cases h : value.raw * 10 + digit.toNat ≤ int64Max
    · rw [dif_pos h]
      exact ih _
    · have hover : ¬extended value.raw (digit :: rest) ≤ int64Max := by
        intro hx
        exact h (Nat.le_trans hle hx)
      rw [dif_neg h, dif_neg hover]
      rfl

private theorem extended_digits {digits : Bytes} (hd : digits.all isDigit = true) (n : Nat) :
    extended n (digits.map (· - 0x30)) = n * 10 ^ digits.length + digitsValue digits := by
  have hfold (l : Bytes) (hl : l.all isDigit = true) (n : Nat) :
      extended n (l.map (· - 0x30)) = l.foldl (fun value c ↦ value * 10 + digit c) n := by
    induction l generalizing n with
    | nil => rfl
    | cons c rest ih =>
      rw [List.all_cons, Bool.and_eq_true] at hl
      have hc : 0x30 ≤ c := by
        have := hl.1
        simp only [isDigit, Bool.and_eq_true, decide_eq_true_eq] at this
        exact this.1
      have hv : (c - 0x30).toNat = digit c := UInt8.toNat_sub_of_le _ _ hc
      rw [List.map_cons, extended, List.foldl_cons, List.foldl_cons, hv]
      exact ih hl.2 _
  rw [hfold digits hd, Decimal.foldl_digits]

private theorem extended_zeros (n k : Nat) : extended n (List.replicate k 0) = n * 10 ^ k := by
  induction k generalizing n with
  | zero => simp [extended]
  | succ k ih =>
    rw [List.replicate_succ, extended, List.foldl_cons]
    have h := ih (n * 10 + (0 : UInt8).toNat)
    rw [extended] at h
    rw [h, pow_succ]
    simp only [UInt8.toNat_zero, Nat.add_zero]
    ring

/-- `[0-9]+(\.[0-9]+)?`, taken apart; there is no fraction when there is no point. -/
structure Numeral (decimal whole fraction : Bytes) : Prop where
  text : decimal = whole ++ Decimal.point fraction
  nonempty : whole ≠ []
  whole : whole.all isDigit = true
  fraction : fraction.all isDigit = true

/-- The rational that a numeral stands for. -/
theorem Numeral.value_eq {decimal whole fraction : Bytes} (h : Numeral decimal whole fraction) :
    Decimal.value decimal = some ((digitsValue (whole ++ fraction) : ℚ) /
      10 ^ fraction.length) := by
  rw [h.text, Decimal.value_point h.nonempty h.whole h.fraction]

private theorem validateDecimal_digits {digits : Bytes} (hd : digits.all isDigit = true)
    (n : Nat) (first : Bool) : validateDecimal true n first digits = .ok (n + digits.length) := by
  induction digits generalizing n first with
  | nil => rfl
  | cons c rest ih =>
    rw [List.all_cons, Bool.and_eq_true] at hd
    have hpoint : c ≠ 0x2e := by
      rintro rfl
      exact absurd hd.1 (by decide)
    rw [validateDecimal, if_neg hpoint, hd.1]
    simp only [Bool.not_true, Bool.false_eq_true, ↓reduceIte]
    rw [ih hd.2, List.length_cons]
    congr 1
    omega

/-- A numeral is valid, and the digits behind its point are counted. -/
theorem validateDecimal_numeral {whole fraction : Bytes} (hw : whole.all isDigit = true)
    (hf : fraction.all isDigit = true) (first : Bool) (hn : first = true → whole ≠ []) :
    validateDecimal false 0 first (whole ++ Decimal.point fraction) = .ok fraction.length := by
  induction whole generalizing first with
  | nil =>
    have hfirst : first = false := by
      cases first with
      | false => rfl
      | true => exact absurd rfl (hn rfl)
    rw [List.nil_append, Decimal.point]
    split
    · next h =>
      rw [h]
      rfl
    · next h =>
      rw [validateDecimal, if_pos rfl, hfirst]
      simp only [Bool.or_self, Bool.false_or, List.isEmpty_iff, h, ↓reduceIte]
      rw [validateDecimal_digits hf, Nat.zero_add]
  | cons c rest ih =>
    rw [List.all_cons, Bool.and_eq_true] at hw
    have hpoint : c ≠ 0x2e := by
      rintro rfl
      exact absurd hw.1 (by decide)
    rw [List.cons_append, validateDecimal, if_neg hpoint, hw.1]
    simp only [Bool.not_true, Bool.false_eq_true, ↓reduceIte]
    exact ih hw.2 false fun h ↦ absurd h Bool.false_ne_true

/-- What a numeral of fitting precision is read as. -/
theorem parseDecimal_numeral (tag : FixedPointTag) {decimal whole fraction : Bytes} {scale : Int}
    (h : Numeral decimal whole fraction) (h0 : 0 ≤ scale) (h18 : scale ≤ 18)
    (hs : fraction.length ≤ scale.toNat) :
    (parseDecimal decimal scale : Except Failure (FixedPoint tag)) =
      if hv : digitsValue (whole ++ fraction) * 10 ^ (scale.toNat - fraction.length) ≤ int64Max then
        .ok ⟨digitsValue (whole ++ fraction) * 10 ^ (scale.toNat - fraction.length), hv⟩
      else .error ⟨.overflowError, ascii "decimal exceeds INT64_MAX"⟩ := by
  have hscale : (decide (scale < 0) || decide (18 < scale)) = false := by
    simp only [Bool.or_eq_false_iff, decide_eq_false_iff_not]
    omega
  have hempty : decimal.isEmpty = false := by
    rw [List.isEmpty_eq_false_iff, h.text]
    simp [h.nonempty]
  have hvalid : validateDecimal false 0 true decimal = .ok fraction.length := by
    rw [h.text]
    exact validateDecimal_numeral h.whole h.fraction true fun _ ↦ h.nonempty
  have hfilter : decimal.filter (· ≠ 0x2e) = whole ++ fraction := by
    rw [h.text]
    exact filter_point h.whole h.fraction
  have hall : (whole ++ fraction).all isDigit = true := by
    rw [List.all_append, h.whole, h.fraction]
    rfl
  have htotal : extended 0 ((whole ++ fraction).map (· - 0x30) ++
      List.replicate (scale.toNat - fraction.length) 0) =
      digitsValue (whole ++ fraction) * 10 ^ (scale.toNat - fraction.length) := by
    have hsplit : extended 0 ((whole ++ fraction).map (· - 0x30) ++
        List.replicate (scale.toNat - fraction.length) 0) =
        extended (extended 0 ((whole ++ fraction).map (· - 0x30)))
          (List.replicate (scale.toNat - fraction.length) 0) := List.foldl_append
    rw [hsplit, extended_zeros, extended_digits hall, Nat.zero_mul, Nat.zero_add]
  -- the two loops are one loop over the digits and the padding
  have hloops : (parseDecimal decimal scale : Except Failure (FixedPoint tag)) =
      ((whole ++ fraction).map (· - 0x30) ++
        List.replicate (scale.toNat - fraction.length) 0).foldlM appendDigit
          ⟨0, Nat.zero_le _⟩ := by
    rw [List.foldlM_append, List.foldlM_map, ← hfilter]
    unfold parseDecimal
    simp only [hscale, hempty, hvalid, Bool.false_eq_true, ↓reduceIte]
    exact if_neg (Nat.not_lt.mpr hs)
  rw [hloops, foldlM_appendDigit]
  simp only [htotal]

/-- A text that passes the validation is a numeral. -/
theorem numeral_of_validateDecimal {decimal : Bytes} {k : Nat} (hne : decimal ≠ [])
    (h : validateDecimal false 0 true decimal = .ok k) :
    ∃ whole fraction, Numeral decimal whole fraction ∧ k = fraction.length := by
  obtain ⟨whole, fraction, ht, hw, hf, hk, hn⟩ := validateDecimal_parts h
  exact ⟨whole, fraction, ⟨ht, hn rfl hne, hw, hf⟩, hk⟩

/-- The pattern `[0-9]+(\.[0-9]+)?` with at most `scale` digits after the point. -/
def FitsScale (decimal : Bytes) (scale : Int) : Prop :=
  ∃ whole fraction, Numeral decimal whole fraction ∧ (fraction.length : Int) ≤ scale

private theorem parseDecimal_of_scale (tag : FixedPointTag) (decimal : Bytes) {scale : Int}
    (h : ¬(0 ≤ scale ∧ scale ≤ 18)) :
    (parseDecimal decimal scale : Except Failure (FixedPoint tag)) =
      .error ⟨.outOfRange, ascii "scale must be between 0 and 18"⟩ := by
  have hscale : (decide (scale < 0) || decide (18 < scale)) = true := by
    simp only [Bool.or_eq_true, decide_eq_true_eq]
    omega
  unfold parseDecimal
  simp only [hscale, ↓reduceIte]
  rfl

private theorem validateDecimal_error {text : Bytes} {seen first : Bool} {n : Nat} {e : Failure}
    (h : validateDecimal seen n first text = .error e) : e.kind = .invalidArgument := by
  induction text generalizing seen n first with
  | nil => cases h
  | cons ch rest ih =>
    rw [validateDecimal] at h
    split at h
    · split at h
      · cases h
        rfl
      · exact ih h
    · split at h
      · cases h
        rfl
      · exact ih h

private theorem parseDecimal_of_form (tag : FixedPointTag) {decimal : Bytes} {scale : Int}
    (h0 : 0 ≤ scale) (h18 : scale ≤ 18) (hform : ¬FitsScale decimal scale) :
    ∃ e, (parseDecimal decimal scale : Except Failure (FixedPoint tag)) = .error e ∧
      e.kind = .invalidArgument := by
  have hscale : (decide (scale < 0) || decide (18 < scale)) = false := by
    simp only [Bool.or_eq_false_iff, decide_eq_false_iff_not]
    omega
  unfold parseDecimal
  simp only [hscale, Bool.false_eq_true, ↓reduceIte]
  by_cases hempty : decimal.isEmpty
  · exact ⟨_, if_pos hempty, rfl⟩
  · simp only [hempty, Bool.false_eq_true, ↓reduceIte]
    cases hv : validateDecimal false 0 true decimal with
    | error e => exact ⟨e, rfl, validateDecimal_error hv⟩
    | ok k =>
      rw [List.isEmpty_iff] at hempty
      obtain ⟨whole, fraction, hn, hk⟩ := numeral_of_validateDecimal hempty hv
      have hlong : scale.toNat < k := by
        by_contra hle
        exact hform ⟨whole, fraction, hn, by omega⟩
      exact ⟨_, if_pos hlong, rfl⟩

/-- The scaled value of a numeral is the integer its digits and the padding spell. -/
private theorem Numeral.scaled {decimal whole fraction : Bytes} (h : Numeral decimal whole fraction)
    {scale : Nat} (hs : fraction.length ≤ scale) {q : ℚ} (hq : Decimal.value decimal = some q) :
    q * 10 ^ scale =
      ((digitsValue (whole ++ fraction) * 10 ^ (scale - fraction.length) : Nat) : ℚ) := by
  rw [h.value_eq, Option.some_inj] at hq
  have hten : (10 : ℚ) ^ fraction.length ≠ 0 := pow_ne_zero _ (by norm_num)
  have hsplit : (10 : ℚ) ^ scale = 10 ^ fraction.length * 10 ^ (scale - fraction.length) := by
    rw [← pow_add, Nat.add_sub_cancel' hs]
  rw [← hq, hsplit, ← mul_assoc, div_mul_cancel₀ _ hten]
  push_cast
  rfl

/-- An accepted text denotes its fixed-point value. -/
theorem value_of_parseDecimal {tag : FixedPointTag} {decimal : Bytes} {scale : Nat}
    {result : FixedPoint tag} (h : parseDecimal decimal scale = .ok result) :
    Decimal.value decimal = some ((result.raw : ℚ) / 10 ^ scale) := by
  have hscale : 0 ≤ (scale : Int) ∧ (scale : Int) ≤ 18 := by
    by_contra hbad
    rw [parseDecimal_of_scale tag decimal hbad] at h
    cases h
  have hform : FitsScale decimal scale := by
    by_contra hbad
    obtain ⟨e, he, -⟩ := parseDecimal_of_form tag hscale.1 hscale.2 hbad
    rw [he] at h
    cases h
  obtain ⟨whole, fraction, hn, hlen⟩ := hform
  have hlen' : fraction.length ≤ scale := by omega
  rw [parseDecimal_numeral tag hn hscale.1 hscale.2 hlen', Int.toNat_natCast] at h
  split at h
  · cases h
    rw [← hn.scaled hlen' hn.value_eq, mul_div_cancel_right₀ _ (pow_ne_zero _ (by norm_num))]
    exact hn.value_eq
  · cases h

/-- The `std::int64_t` values that one call of `append` computes, in the source's order. -/
def appendSteps {tag : FixedPointTag} (value : FixedPoint tag) (digit : UInt8) : List Int :=
  match appendDigit value digit with
  | .ok _ => [int64Max - digit.toNat, (int64Max - digit.toNat) / 10,
      value.raw * 10, value.raw * 10 + digit.toNat]
  | .error _ => [int64Max - digit.toNat, (int64Max - digit.toNat) / 10]

private theorem appendSteps_range {tag : FixedPointTag} (value : FixedPoint tag) (digit : UInt8) :
    ∀ step ∈ appendSteps value digit, 0 ≤ step ∧ step ≤ int64Max := by
  have hd := digit.toNat_lt
  intro step hstep
  rw [appendSteps, appendDigit_eq] at hstep
  split at hstep
  · next heq =>
    split at heq
    · next hle =>
      simp only [List.mem_cons, List.not_mem_nil, or_false] at hstep
      unfold int64Max at hstep hle ⊢
      omega
    · cases heq
  · simp only [List.mem_cons, List.not_mem_nil, or_false] at hstep
    unfold int64Max at hstep ⊢
    omega

/-- `parse_decimal` accepts exactly the numerals that fit, and returns the scaled value. The scale
is checked first, then the form of the whole text, then the size; no `append` on any accumulator
leaves the 64-bit range. -/
theorem parseDecimal_exact {tag : FixedPointTag} (decimal : Bytes) (scale : Int) :
    (∀ result : FixedPoint tag, parseDecimal decimal scale = .ok result ↔
      0 ≤ scale ∧ scale ≤ 18 ∧ FitsScale decimal scale ∧
        ∃ q, Decimal.value decimal = some q ∧ q * 10 ^ scale ≤ 2 ^ 63 - 1 ∧
          (result.raw : ℚ) = q * 10 ^ scale) ∧
    (∀ e : Failure, (parseDecimal decimal scale : Except Failure (FixedPoint tag)) = .error e →
      (¬(0 ≤ scale ∧ scale ≤ 18) ∧ e.kind = .outOfRange) ∨
      (0 ≤ scale ∧ scale ≤ 18 ∧ ¬FitsScale decimal scale ∧ e.kind = .invalidArgument) ∨
      (0 ≤ scale ∧ scale ≤ 18 ∧ FitsScale decimal scale ∧ e.kind = .overflowError)) ∧
    ∀ (value : FixedPoint tag) (digit : UInt8), ∀ step ∈ appendSteps value digit,
      -2 ^ 63 ≤ step ∧ step ≤ 2 ^ 63 - 1 := by
  have hsteps (value : FixedPoint tag) (digit : UInt8) : ∀ step ∈ appendSteps value digit,
      -2 ^ 63 ≤ step ∧ step ≤ 2 ^ 63 - 1 := by
    intro step hstep
    have h := appendSteps_range value digit step hstep
    unfold int64Max at h
    omega
  -- the cases follow the order of the checks: the scale, the form, the range
  by_cases hscale : 0 ≤ scale ∧ scale ≤ 18
  · by_cases hform : FitsScale decimal scale
    · obtain ⟨whole, fraction, hn, hlen⟩ := id hform
      have hlen' : fraction.length ≤ scale.toNat := by omega
      have hpow : (10 : ℚ) ^ scale = 10 ^ scale.toNat := by
        rw [← zpow_natCast, Int.toNat_of_nonneg hscale.1]
      have hmax : (2 ^ 63 - 1 : ℚ) = int64Max := by
        norm_num [int64Max]
      have hread := parseDecimal_numeral tag hn hscale.1 hscale.2 hlen'
      have hscaled := hn.scaled hlen' hn.value_eq
      refine ⟨fun result ↦ ?_, fun e he ↦ ?_, hsteps⟩
      · rw [hread]
        constructor
        · intro hok
          split at hok
          · next hle =>
            cases hok
            refine ⟨hscale.1, hscale.2, hform, _, hn.value_eq, ?_, ?_⟩
            · rw [hpow, hscaled, hmax]
              exact_mod_cast hle
            · rw [hpow, hscaled]
          · cases hok
        · rintro ⟨-, -, -, q, hq, hle, hv⟩
          have hval := hn.scaled hlen' hq
          rw [hpow, hval] at hle hv
          have hle' : digitsValue (whole ++ fraction) * 10 ^ (scale.toNat - fraction.length) ≤
              int64Max := by
            rw [hmax] at hle
            exact_mod_cast hle
          rw [dif_pos hle']
          congr 1
          apply FixedPoint.ext
          exact_mod_cast hv.symm
      · rw [hread] at he
        split at he
        · cases he
        · cases he
          exact .inr (.inr ⟨hscale.1, hscale.2, hform, rfl⟩)
    · obtain ⟨e, he, hkind⟩ := parseDecimal_of_form tag hscale.1 hscale.2 hform
      refine ⟨fun result ↦ ⟨fun h ↦ ?_, fun h ↦ absurd h.2.2.1 hform⟩, fun e' he' ↦ ?_, hsteps⟩
      · rw [he] at h
        cases h
      · rw [he] at he'
        cases he'
        exact .inr (.inl ⟨hscale.1, hscale.2, hform, hkind⟩)
  · have he := parseDecimal_of_scale tag decimal hscale
    refine ⟨fun result ↦ ⟨fun h ↦ ?_, fun h ↦ absurd ⟨h.1, h.2.1⟩ hscale⟩, fun e' he' ↦ ?_, hsteps⟩
    · rw [he] at h
      cases h
    · rw [he] at he'
      cases he'
      exact .inl ⟨hscale, rfl⟩

/-- `parse_price` (`src/core/fixed_point.cpp:58–60`). -/
def parsePrice (decimal : Bytes) (scale : Int) : Except Failure PriceTicks :=
  parseDecimal decimal scale

/-- `parse_quantity` (`src/core/fixed_point.cpp:62–64`). -/
def parseQuantity (decimal : Bytes) (scale : Int) : Except Failure QuantityAtoms :=
  parseDecimal decimal scale

end ArbitrageEngine.Core
