import ArbitrageEngine.Kraken.ChecksumBook

/-!
# What a decimal token becomes

`decimal_token` of `src/adapters/kraken/kraken_l2_parser.cpp` moves the point of a token by
its exponent, and `checksum_digits` of `src/adapters/kraken/kraken_checksum.cpp` keeps the
digits of the result. Both are compared with the number that the token denotes.
-/

namespace ArbitrageEngine.Kraken

open Base ArbitrageEngine.Core

/-- `([eE][+-]?[0-9]+)?` with the number it stands for, zero when there is no exponent. -/
inductive ExponentText : Bytes → Int → Prop
  | absent : ExponentText [] 0
  | bare {mark : UInt8} {digits : Bytes} : mark = 0x65 ∨ mark = 0x45 → digits ≠ [] →
      digits.all isDigit = true → ExponentText (mark :: digits) (digitsValue digits)
  | plus {mark : UInt8} {digits : Bytes} : mark = 0x65 ∨ mark = 0x45 → digits ≠ [] →
      digits.all isDigit = true → ExponentText (mark :: 0x2b :: digits) (digitsValue digits)
  | minus {mark : UInt8} {digits : Bytes} : mark = 0x65 ∨ mark = 0x45 → digits ≠ [] →
      digits.all isDigit = true → ExponentText (mark :: 0x2d :: digits) (-digitsValue digits)

/-- `(0|[1-9][0-9]*)(\.[0-9]+)?([eE][+-]?[0-9]+)?`, taken apart. -/
structure Lexeme (token whole fraction : Bytes) (exponent : Int) : Prop where
  text : ∃ tail, token = whole ++ Decimal.point fraction ++ tail ∧ ExponentText tail exponent
  nonempty : whole ≠ []
  leading : whole = [0x30] ∨ whole.head? ≠ some 0x30
  whole : whole.all isDigit = true
  fraction : fraction.all isDigit = true

/-- The number that a taken apart token denotes. -/
def lexemeValue (whole fraction : Bytes) (exponent : Int) : ℚ :=
  digitsValue (whole ++ fraction) * 10 ^ (exponent - fraction.length)

/-! ### The pattern and the parser -/

private theorem isExponentMark_iff {mark : UInt8} :
    Decimal.isExponentMark mark = true ↔ mark = 0x65 ∨ mark = 0x45 := by
  simp [Decimal.isExponentMark]

private theorem unsigned_eq_some {text : Bytes} {n : Nat} :
    Decimal.unsigned text = some n ↔
      text ≠ [] ∧ text.all isDigit = true ∧ digitsValue text = n := by
  simp only [Decimal.unsigned, Option.ite_none_right_eq_some, Option.some_inj, and_assoc]

private theorem signed_of_digits {digits : Bytes} (hn : digits ≠ [])
    (hd : digits.all isDigit = true) :
    Decimal.signed digits = some (digitsValue digits : Int) := by
  unfold Decimal.signed
  split
  · cases hd
  · cases hd
  · rw [unsigned_eq_some.mpr ⟨hn, hd, rfl⟩]
    rfl

private theorem exponentText_iff {tail : Bytes} {exponent : Int} :
    ExponentText tail exponent ↔ Decimal.exponent tail = some exponent := by
  constructor
  · intro h
    cases h with
    | absent => rfl
    | bare hm hn hd =>
      rw [Decimal.exponent, if_pos (isExponentMark_iff.mpr hm), signed_of_digits hn hd]
    | plus hm hn hd =>
      rw [Decimal.exponent, if_pos (isExponentMark_iff.mpr hm), Decimal.signed,
        unsigned_eq_some.mpr ⟨hn, hd, rfl⟩]
      rfl
    | minus hm hn hd =>
      rw [Decimal.exponent, if_pos (isExponentMark_iff.mpr hm), Decimal.signed,
        unsigned_eq_some.mpr ⟨hn, hd, rfl⟩]
      rfl
  · intro h
    cases tail with
    | nil =>
      cases h
      exact .absent
    | cons mark text =>
      rw [Decimal.exponent] at h
      split at h
      · next hm =>
        rw [isExponentMark_iff] at hm
        unfold Decimal.signed at h
        split at h <;> obtain ⟨n, hu, rfl⟩ := Option.map_eq_some_iff.mp h <;>
          obtain ⟨hn, hd, rfl⟩ := unsigned_eq_some.mp hu
        · exact .plus hm hn hd
        · exact .minus hm hn hd
        · exact .bare hm hn hd
      · cases h

/-- The pattern admits what the parser takes apart, in the same parts. -/
theorem lexeme_iff {token whole fraction : Bytes} {exponent : Int} :
    Lexeme token whole fraction exponent ↔
      matchesDecimal token = true ∧ Decimal.parts token = some ⟨whole, fraction, exponent⟩ := by
  constructor
  · intro h
    obtain ⟨tail, rfl, ht⟩ := h.text
    have htail : ∀ c ∈ tail.head?, isDigit c = false ∧ c ≠ 0x2e := by
      intro c hc
      cases ht with
      | absent => cases hc
      | bare hm | plus hm | minus hm =>
        cases hc
        obtain rfl | rfl := hm <;> decide
    have hp := Decimal.parts_append h.nonempty h.whole h.fraction htail
    rw [exponentText_iff.mp ht] at hp
    exact ⟨matchesDecimal_iff.mpr ⟨_, hp, h.leading⟩, hp⟩
  · rintro ⟨hm, hp⟩
    obtain ⟨p, hp', hl⟩ := matchesDecimal_iff.mp hm
    cases hp.symm.trans hp'
    obtain ⟨hn, hw, hf, tail, ht, he⟩ := Decimal.eq_of_parts hp
    exact ⟨⟨tail, ht, exponentText_iff.mpr he⟩, hn, hl, hw, hf⟩

private theorem Lexeme.value_eq {token whole fraction : Bytes} {exponent : Int}
    (h : Lexeme token whole fraction exponent) :
    Decimal.value token = some (lexemeValue whole fraction exponent) := by
  rw [Decimal.value, (lexeme_iff.mp h).2]
  rfl

/-! ### The expanded token -/

/-- Wherever the point is put, the digits before it and the digits after it make a numeral. -/
theorem numeral_placePoint {digits : Bytes} (hn : digits ≠ []) (hd : digits.all isDigit = true)
    (position : Int) : ∃ whole fraction, Numeral (placePoint digits position) whole fraction := by
  unfold placePoint
  split
  · -- the point stands before the digits
    refine ⟨[0x30], List.replicate (-position).toNat 0x30 ++ digits, ?_, by simp, rfl, ?_⟩
    · rw [Decimal.point, if_neg (by simp [hn])]
      rfl
    · rw [List.all_append, all_zeros, hd]
      rfl
  · next hp =>
    split
    · -- there is no point to write
      refine ⟨digits ++ List.replicate (position.toNat - digits.length) 0x30, [], ?_,
        by simp [hn], ?_, rfl⟩
      · rw [Decimal.point, if_pos rfl, List.append_nil]
      · rw [List.all_append, all_zeros, hd]
        rfl
    · next hl =>
      have hdrop : digits.drop position.toNat ≠ [] := by
        rw [ne_eq, List.drop_eq_nil_iff]
        omega
      have htake : digits.take position.toNat ≠ [] := by
        rw [ne_eq, List.take_eq_nil_iff]
        rintro (h0 | h0)
        · omega
        · exact hn h0
      rw [← List.take_append_drop position.toNat digits, List.all_append, Bool.and_eq_true] at hd
      refine ⟨digits.take position.toNat, digits.drop position.toNat, ?_, htake, hd.1, hd.2⟩
      rw [Decimal.point, if_neg hdrop]

private theorem stoi_of_signed {text : Bytes} {n : Int} (h : Decimal.signed text = some n) :
    stoi text = if n < -2147483648 || 2147483647 < n then
      .error ⟨.outOfRange, ascii "stoi"⟩ else .ok n := by
  rw [stoi, h]

/-- A token of the pattern is refused only for its exponent, and becomes a numeral. -/
theorem Lexeme.decimalToken {token whole fraction : Bytes} {exponent : Int}
    (h : Lexeme token whole fraction exponent) :
    if -100 ≤ exponent ∧ exponent ≤ 100 then
      ∃ expanded whole' fraction', decimalToken token = .ok expanded ∧
        Numeral expanded whole' fraction'
    else (decimalToken token).isOk = false := by
  have hm := (lexeme_iff.mp h).1
  obtain ⟨tail, rfl, ht⟩ := h.text
  rw [exponentText_iff] at ht
  have hall : (whole ++ fraction).all isDigit = true := by
    rw [List.all_append, h.whole, h.fraction]
    rfl
  cases tail with
  | nil =>
    cases ht
    rw [List.append_nil] at hm ⊢
    rw [if_pos (by decide), decimalToken_plain h.whole h.fraction hm]
    exact ⟨_, whole, fraction, rfl, rfl, h.nonempty, h.whole, h.fraction⟩
  | cons mark text =>
    rw [Decimal.exponent] at ht
    split at ht
    · next hc =>
      rw [decimalToken_exponent h.whole h.fraction hc hm, stoi_of_signed ht]
      split
      · next hr =>
        have hsmall : (decide (exponent < -2147483648) || decide (2147483647 < exponent)) =
            false := by
          simp only [Bool.or_eq_false_iff, decide_eq_false_iff_not]
          omega
        have hrange : (decide (exponent < -100) || decide (100 < exponent)) = false := by
          simp only [Bool.or_eq_false_iff, decide_eq_false_iff_not]
          omega
        obtain ⟨whole', fraction', hnum⟩ := numeral_placePoint (by simp [h.nonempty]) hall
          (whole.length + exponent)
        refine ⟨_, whole', fraction', ?_, hnum⟩
        rw [hsmall]
        show (if _ then _ else _) = _
        rw [hrange]
        rfl
      · next hr =>
        have hrange : (decide (exponent < -100) || decide (100 < exponent)) = true := by
          simp only [Bool.or_eq_true, decide_eq_true_eq]
          omega
        -- out of the range of `int`, or only out of the range that is allowed
        split
        · rfl
        · show Except.isOk (if _ then _ else _) = false
          rw [hrange]
          rfl
    · cases ht

/-- The digits of a numeral without the point and the leading zeros. -/
theorem Numeral.digits {decimal whole fraction : Bytes} (h : Numeral decimal whole fraction) :
    (decimal.filter (· ≠ 0x2e)).dropWhile (· = 0x30) =
      if digitsValue (whole ++ fraction) = 0 then []
      else Base.decimal (digitsValue (whole ++ fraction)) := by
  rw [h.text, filter_point h.whole h.fraction, Decimal.dropWhile_zeros]
  rw [List.all_append, h.whole, h.fraction]
  rfl

/-- `decimal_token` returns exactly on the pattern with an exponent in range. Its result is a
numeral of the same number, and `checksum_digits` prints that number scaled to an integer. -/
theorem decimalToken_exact (token : Bytes) :
    ((decimalToken token).isOk = true ↔ ∃ whole fraction exponent,
      Lexeme token whole fraction exponent ∧ -100 ≤ exponent ∧ exponent ≤ 100) ∧
    ∀ expanded, decimalToken token = .ok expanded →
      ∃ whole fraction exponent whole' fraction' n,
        Lexeme token whole fraction exponent ∧ Numeral expanded whole' fraction' ∧
        validateDecimal false 0 true expanded = .ok fraction'.length ∧
        Decimal.value expanded = some (lexemeValue whole fraction exponent) ∧
        ((n : Nat) : ℚ) = lexemeValue whole fraction exponent * 10 ^ fraction'.length ∧
        checksumDigits token = .ok (if n = 0 then [] else Base.decimal n) := by
  have hlexeme {expanded : Bytes} (h : decimalToken token = .ok expanded) :
      ∃ whole fraction exponent, Lexeme token whole fraction exponent := by
    have hm : matchesDecimal token = true := by
      unfold Kraken.decimalToken at h
      simpa using (check_ok h).1
    obtain ⟨⟨whole, fraction, exponent⟩, hp, -⟩ := matchesDecimal_iff.mp hm
    exact ⟨whole, fraction, exponent, lexeme_iff.mpr ⟨hm, hp⟩⟩
  constructor
  · constructor
    · intro hok
      obtain ⟨expanded, h⟩ := exists_ok_of_isOk hok
      obtain ⟨whole, fraction, exponent, hl⟩ := hlexeme h
      refine ⟨whole, fraction, exponent, hl, ?_⟩
      by_contra hr
      have hno := hl.decimalToken
      rw [if_neg hr, hok] at hno
      cases hno
    · rintro ⟨whole, fraction, exponent, hl, hr⟩
      have hyes := hl.decimalToken
      rw [if_pos hr] at hyes
      obtain ⟨expanded, _, _, h, -⟩ := hyes
      rw [h]
      rfl
  · intro expanded h
    obtain ⟨whole, fraction, exponent, hl⟩ := hlexeme h
    have hyes := hl.decimalToken
    split at hyes
    · obtain ⟨expanded', whole', fraction', h', hnum⟩ := hyes
      cases h.symm.trans h'
      have hvalue : Decimal.value expanded = some (lexemeValue whole fraction exponent) := by
        rw [value_decimalToken h, hl.value_eq]
      refine ⟨whole, fraction, exponent, whole', fraction', digitsValue (whole' ++ fraction'), hl,
        hnum, ?_, hvalue, ?_, ?_⟩
      · rw [hnum.text]
        exact validateDecimal_numeral hnum.whole hnum.fraction true fun _ ↦ hnum.nonempty
      · rw [hnum.value_eq, Option.some_inj] at hvalue
        rw [← hvalue, div_mul_cancel₀ _ (pow_ne_zero _ (by norm_num))]
      · rw [checksumDigits, h, ← Numeral.digits hnum]
        rfl
    · rw [h] at hyes
      cases hyes

/-- `0.05e1` becomes `00.5`, which the checksum counts as `5`. -/
theorem decimalToken_exact_small :
    decimalToken (ascii "0.05e1") = .ok (ascii "00.5") ∧
      ∃ whole fraction exponent whole' fraction' n,
        Lexeme (ascii "0.05e1") whole fraction exponent ∧
        Numeral (ascii "00.5") whole' fraction' ∧
        validateDecimal false 0 true (ascii "00.5") = .ok fraction'.length ∧
        Decimal.value (ascii "00.5") = some (lexemeValue whole fraction exponent) ∧
        ((n : Nat) : ℚ) = lexemeValue whole fraction exponent * 10 ^ fraction'.length ∧
        checksumDigits (ascii "0.05e1") = .ok (if n = 0 then [] else Base.decimal n) :=
  have h : decimalToken (ascii "0.05e1") = .ok (ascii "00.5") := by decide +kernel
  ⟨h, (decimalToken_exact (ascii "0.05e1")).2 _ h⟩

end ArbitrageEngine.Kraken
