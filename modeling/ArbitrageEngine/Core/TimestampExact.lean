import ArbitrageEngine.Base.Checked
import ArbitrageEngine.Base.Decimal
import ArbitrageEngine.Core.Timestamp
import Mathlib.Algebra.Order.BigOperators.Group.List
import Mathlib.Tactic.IntervalCases

/-!
# What the timestamp reader computes

The texts that `parse_timestamp` accepts, the instant each denotes, and the arithmetic of the
source step by step: every index it reads and every `int` and `std::int64_t` it computes.
-/

namespace ArbitrageEngine.Core

open Base Checked

/-! ### The texts and their instants -/

/-- The digit groups of `YYYY-MM-DDTHH:MM:SS.fractionZ`; no point without a fraction. -/
structure TimestampText where
  year : Bytes
  month : Bytes
  day : Bytes
  hour : Bytes
  minute : Bytes
  second : Bytes
  fraction : Bytes

namespace TimestampText

variable (t : TimestampText)

def text : Bytes :=
  t.year ++ 0x2d :: t.month ++ 0x2d :: t.day ++ 0x54 :: t.hour ++ 0x3a :: t.minute ++
    0x3a :: t.second ++ Decimal.point t.fraction ++ [0x5a]

/-- A text in the format, whatever its numbers are. -/
structure Spells (value : Bytes) : Prop where
  text_eq : value = t.text
  year_length : t.year.length = 4
  month_length : t.month.length = 2
  day_length : t.day.length = 2
  hour_length : t.hour.length = 2
  minute_length : t.minute.length = 2
  second_length : t.second.length = 2
  fraction_length : t.fraction.length ≤ 9
  digits :
    (t.year ++ t.month ++ t.day ++ t.hour ++ t.minute ++ t.second ++ t.fraction).all isDigit =
    true

/-- A date of the proleptic Gregorian calendar from year one on, and a time of day. -/
structure Valid : Prop where
  year : 1 ≤ digitsValue t.year
  month : 1 ≤ digitsValue t.month ∧ digitsValue t.month ≤ 12
  day : 1 ≤ digitsValue t.day ∧
    digitsValue t.day ≤ daysInMonth (digitsValue t.year) (digitsValue t.month)
  hour : digitsValue t.hour ≤ 23
  minute : digitsValue t.minute ≤ 59
  second : digitsValue t.second ≤ 59

/-- Whole seconds since 1970-01-01T00:00:00Z. -/
def seconds : Int :=
  sysDays (digitsValue t.year) (digitsValue t.month) (digitsValue t.day) * 86400 +
    (digitsValue t.hour * 3600 + digitsValue t.minute * 60 + digitsValue t.second : Nat)

/-- Nanoseconds since 1970-01-01T00:00:00Z. -/
def instant : ℚ :=
  ((t.seconds : ℚ) + (digitsValue t.fraction : ℚ) / 10 ^ t.fraction.length) * 10 ^ 9

/-- The fraction in nanoseconds. -/
def nanos : Nat := digitsValue t.fraction * 10 ^ (9 - t.fraction.length)

end TimestampText

/-! ### The calendar -/

private theorem daysInMonth_pos (year : Nat) {month : Nat} (h1 : 1 ≤ month) (h12 : month ≤ 12) :
    1 ≤ daysInMonth year month := by
  interval_cases month <;> simp only [daysInMonth, Nat.one_le_ofNat]
  split <;> omega

/-- The days of the first eleven months. -/
private theorem sum_daysInMonth (year : Nat) :
    ((List.range 11).map fun m ↦ daysInMonth year (m + 1)).sum =
      if isLeap year then 335 else 334 := by
  have hlist : ((List.range 11).map fun m ↦ daysInMonth year (m + 1)) =
      [31, if isLeap year then 29 else 28, 31, 30, 31, 30, 31, 31, 30, 31, 30] := rfl
  rw [hlist]
  split <;> rfl

/-- The day counts of the calendar follow each other, and 1970-01-01 is day zero. -/
theorem sysDays_calendar :
    sysDays 1970 1 1 = 0 ∧
    (∀ year month day, 1 ≤ day → sysDays year month (day + 1) = sysDays year month day + 1) ∧
    (∀ year month, 1 ≤ month → month ≤ 11 →
      sysDays year (month + 1) 1 = sysDays year month (daysInMonth year month) + 1) ∧
    ∀ year, 1 ≤ year → sysDays (year + 1) 1 1 = sysDays year 12 31 + 1 := by
  refine ⟨by decide, fun year month day hday ↦ ?_, fun year month h1 h11 ↦ ?_, fun year h1 ↦ ?_⟩
  · unfold sysDays
    dsimp only
    omega
  · have hdays := daysInMonth_pos year h1 (by omega)
    have hsum : ((List.range (month + 1 - 1)).map fun m ↦ daysInMonth year (m + 1)).sum =
        ((List.range (month - 1)).map fun m ↦ daysInMonth year (m + 1)).sum +
          daysInMonth year month := by
      obtain ⟨month, rfl⟩ : ∃ k, month = k + 1 := ⟨month - 1, by omega⟩
      rw [Nat.add_sub_cancel, Nat.add_sub_cancel, List.range_succ, List.map_append, List.sum_append]
      rfl
    unfold sysDays
    dsimp only
    rw [hsum]
    omega
  · obtain ⟨k, rfl⟩ : ∃ k, year = k + 1 := ⟨year - 1, by omega⟩
    have hnone : ((List.range (1 - 1)).map fun m ↦ daysInMonth (k + 1 + 1) (m + 1)).sum = 0 := rfl
    have hsmall : k / 100 ≤ k / 4 := Nat.div_le_div_left (by decide) (by decide)
    have hleap : (isLeap (k + 1) = true) ↔ 4 ∣ k + 1 ∧ (¬100 ∣ k + 1 ∨ 400 ∣ k + 1) := by
      simp [isLeap, Nat.dvd_iff_mod_eq_zero]
    have h4 (h : 100 ∣ k + 1) : 4 ∣ k + 1 := Nat.dvd_trans (by decide) h
    have h100 (h : 400 ∣ k + 1) : 100 ∣ k + 1 := Nat.dvd_trans (by decide) h
    unfold sysDays
    dsimp only
    rw [hnone, sum_daysInMonth, Nat.add_sub_cancel, Nat.add_sub_cancel]
    simp only [Nat.succ_div, hleap]
    generalize k / 4 = a at *
    generalize k / 100 = b at *
    generalize k / 400 = c
    by_cases p : 4 ∣ k + 1 <;> by_cases q : 100 ∣ k + 1 <;> by_cases r : 400 ∣ k + 1 <;>
      simp only [p, q, r, not_true_eq_false, not_false_eq_true, true_and, false_and, or_true,
        or_false, or_self, if_true, if_false] at h4 h100 ⊢ <;> omega

/-! ### Reading a text in the format -/

private theorem dateOk_iff (year month day : Nat) :
    dateOk year month day = true ↔
      (1 ≤ month ∧ month ≤ 12) ∧ 1 ≤ day ∧ day ≤ daysInMonth year month := by
  have hmonth (h : 1 ≤ daysInMonth year month) : 1 ≤ month ∧ month ≤ 12 := by
    unfold daysInMonth at h
    split at h <;> omega
  simp only [dateOk, Bool.and_eq_true, decide_eq_true_eq]
  constructor
  · rintro ⟨h1, hd⟩
    exact ⟨hmonth (Nat.le_trans h1 hd), h1, hd⟩
  · exact fun h ↦ h.2

private theorem ok_bind {α β : Type} (a : α) (f : α → Except Failure β) :
    (Except.ok a >>= f) = f a := rfl

private theorem exists_four {α : Type} {l : List α} (h : l.length = 4) :
    ∃ a b c d, l = [a, b, c, d] := by
  match l, h with
  | [a, b, c, d], _ => exact ⟨a, b, c, d, rfl⟩

private theorem timestampNumber_digits (text : String) {value : Bytes} {offset : Nat}
    (digits rest : Bytes) (hdrop : value.drop offset = digits ++ rest)
    (hd : digits.all isDigit = true) :
    timestampNumber text value offset digits.length = .ok (digitsValue digits) := by
  rw [timestampNumber, hdrop, List.take_left, if_pos hd]

namespace TimestampText

variable {t : TimestampText} {value : Bytes}

private theorem Spells.length (h : t.Spells value) :
    value.length = 20 + (Decimal.point t.fraction).length := by
  rw [h.text_eq, TimestampText.text]
  simp only [List.length_append, List.length_cons, List.length_nil, h.year_length, h.month_length,
    h.day_length, h.hour_length, h.minute_length, h.second_length]
  omega

/-- What the reader finds in a text, group by group. -/
structure ReadFrom (t : TimestampText) (text : String) (value : Bytes) : Prop where
  shape : ¬(value.length < 20 ∨ value[4]? ≠ some 0x2d ∨ value[7]? ≠ some 0x2d ∨
    value[10]? ≠ some 0x54 ∨ value[13]? ≠ some 0x3a ∨ value[16]? ≠ some 0x3a ∨
    value.getLast? ≠ some 0x5a)
  year : timestampNumber text value 0 4 = .ok (digitsValue t.year)
  month : timestampNumber text value 5 2 = .ok (digitsValue t.month)
  day : timestampNumber text value 8 2 = .ok (digitsValue t.day)
  hour : timestampNumber text value 11 2 = .ok (digitsValue t.hour)
  minute : timestampNumber text value 14 2 = .ok (digitsValue t.minute)
  second : timestampNumber text value 17 2 = .ok (digitsValue t.second)
  point : t.fraction ≠ [] → value[19]? = some 0x2e
  fraction : t.fraction ≠ [] →
    timestampNumber text value 20 t.fraction.length = .ok (digitsValue t.fraction)

private theorem Spells.readFrom (h : t.Spells value) (text : String) : t.ReadFrom text value := by
  obtain ⟨year, month, day, hour, minute, second, fraction⟩ := t
  obtain ⟨rfl, hy, hmo, hd, hh, hmi, hs, hf, hdig⟩ := h
  dsimp only at hy hmo hd hh hmi hs hf hdig
  obtain ⟨y0, y1, y2, y3, rfl⟩ := exists_four hy
  obtain ⟨m0, m1, rfl⟩ := List.length_eq_two.mp hmo
  obtain ⟨d0, d1, rfl⟩ := List.length_eq_two.mp hd
  obtain ⟨h0, h1, rfl⟩ := List.length_eq_two.mp hh
  obtain ⟨n0, n1, rfl⟩ := List.length_eq_two.mp hmi
  obtain ⟨s0, s1, rfl⟩ := List.length_eq_two.mp hs
  simp only [List.all_append, Bool.and_eq_true] at hdig
  obtain ⟨⟨⟨⟨⟨⟨hyd, hmod⟩, hdd⟩, hhd⟩, hmid⟩, hsd⟩, hfd⟩ := hdig
  refine ⟨?_, timestampNumber_digits text [y0, y1, y2, y3] _ rfl hyd,
    timestampNumber_digits text [m0, m1] _ rfl hmod,
    timestampNumber_digits text [d0, d1] _ rfl hdd,
    timestampNumber_digits text [h0, h1] _ rfl hhd,
    timestampNumber_digits text [n0, n1] _ rfl hmid,
    timestampNumber_digits text [s0, s1] _ rfl hsd, fun hne ↦ ?_, fun hne ↦ ?_⟩
  · have hlast : (TimestampText.text ⟨[y0, y1, y2, y3], [m0, m1], [d0, d1], [h0, h1], [n0, n1],
        [s0, s1], fraction⟩).getLast? = some 0x5a := List.getLast?_concat
    rw [hlast]
    simp [TimestampText.text]
  · simp_all [TimestampText.text, Decimal.point]
  · apply timestampNumber_digits text fraction [0x5a] _ hfd
    simp_all [TimestampText.text, Decimal.point]

private theorem valid_iff (t : TimestampText) :
    t.Valid ↔ 1 ≤ digitsValue t.year ∧
      ((1 ≤ digitsValue t.month ∧ digitsValue t.month ≤ 12) ∧ 1 ≤ digitsValue t.day ∧
        digitsValue t.day ≤ daysInMonth (digitsValue t.year) (digitsValue t.month)) ∧
      digitsValue t.hour ≤ 23 ∧ digitsValue t.minute ≤ 59 ∧ digitsValue t.second ≤ 59 :=
  ⟨fun h ↦ ⟨h.year, ⟨h.month, h.day⟩, h.hour, h.minute, h.second⟩,
    fun h ↦ ⟨h.1, h.2.1.1, h.2.1.2, h.2.2.1, h.2.2.2.1, h.2.2.2.2⟩⟩

/-- The reader on a text in the format. -/
theorem Spells.parseTimestamp (h : t.Spells value) (text : String) :
    (t.Valid → parseTimestamp text value = composeInstant text t.seconds t.nanos) ∧
    (¬t.Valid → parseTimestamp text value = invalidArgument text) := by
  have r := h.readFrom text
  have hlen := h.length
  have hcheck : (digitsValue t.year = 0 ∨
      (!dateOk (digitsValue t.year) (digitsValue t.month) (digitsValue t.day)) = true ∨
      23 < digitsValue t.hour ∨ 59 < digitsValue t.minute ∨ 59 < digitsValue t.second) ↔
      ¬t.Valid := by
    rw [valid_iff, Bool.not_eq_true', ← Bool.not_eq_true, dateOk_iff]
    omega
  unfold Core.parseTimestamp
  simp only [r.shape, if_false, r.year, r.month, r.day, r.hour, r.minute, r.second, ok_bind]
  constructor
  · intro hv
    rw [if_neg (fun hc ↦ hcheck.mp hc hv)]
    by_cases hfr : t.fraction = []
    · have hnanos : t.nanos = 0 := by
        rw [nanos, hfr]
        exact Nat.zero_mul _
      have hlen' : value.length = 20 := by
        rw [hlen, hfr]
        rfl
      rw [if_pos hlen', hnanos, pure_bind, seconds]
    · have hlen' : value.length = 21 + t.fraction.length := by
        rw [hlen, Decimal.point, if_neg hfr, List.length_cons]
        omega
      have hpos := List.length_pos_iff.mpr hfr
      have hlong := h.fraction_length
      have hfits : ¬(value[19]? ≠ some 0x2e ∨ value.length < 22 ∨ 30 < value.length) := by
        simp only [r.point hfr, ne_eq, not_true_eq_false, false_or]
        omega
      rw [if_neg (by omega), if_neg hfits]
      simp only [hlen', Nat.add_sub_cancel_left, r.fraction hfr, ok_bind, pure_bind]
      rw [seconds, nanos]
  · intro hv
    rw [if_pos (hcheck.mpr hv)]
    rfl

private theorem timestampNumber_ok {text : String} {value : Bytes} {offset length n : Nat}
    (h : timestampNumber text value offset length = .ok n) :
    ((value.drop offset).take length).all isDigit = true := by
  unfold timestampNumber at h
  dsimp only at h
  split at h
  · next hd => exact hd
  · cases h

private theorem drop_of_getElem? {value : Bytes} {i : Nat} {c : UInt8} (h : value[i]? = some c) :
    value.drop i = c :: value.drop (i + 1) := by
  obtain ⟨hi, rfl⟩ := List.getElem?_eq_some_iff.mp h
  exact List.drop_eq_getElem_cons hi

/-- The end of an accepted text: an optional fraction and the zone. -/
theorem exists_fraction (hlast : value.getLast? = some 0x5a)
    (h : value.length = 20 ∨ (value[19]? = some 0x2e ∧ 22 ≤ value.length ∧ value.length ≤ 30 ∧
      ((value.drop 20).take (value.length - 21)).all isDigit = true)) :
    ∃ fraction : Bytes, fraction.length ≤ 9 ∧ fraction.all isDigit = true ∧
      value.drop 19 = Decimal.point fraction ++ [0x5a] := by
  rw [List.getLast?_eq_getElem?] at hlast
  have hend : value.drop (value.length - 1) = [0x5a] := by
    rw [drop_of_getElem? hlast, List.drop_eq_nil_of_le (by omega)]
  rcases h with hlen | ⟨hpoint, h22, h30, hd⟩
  · rw [hlen] at hend
    exact ⟨[], Nat.zero_le _, rfl, hend⟩
  · have hsplit : value.drop 20 = (value.drop 20).take (value.length - 21) ++ [0x5a] := by
      have hrest : (value.drop 20).drop (value.length - 21) = [0x5a] := by
        rw [List.drop_drop, ← hend]
        congr 1
        omega
      rw [← hrest, List.take_append_drop]
    have hlong : ((value.drop 20).take (value.length - 21)).length = value.length - 21 := by
      rw [List.length_take, List.length_drop]
      omega
    have hne : (value.drop 20).take (value.length - 21) ≠ [] := by
      rw [← List.length_pos_iff, hlong]
      omega
    refine ⟨(value.drop 20).take (value.length - 21), by omega, hd, ?_⟩
    rw [drop_of_getElem? hpoint, Decimal.point, if_neg hne, List.cons_append, ← hsplit]

/-- Only texts in the format are accepted. -/
theorem exists_spells {text : String} {result : ExchangeTimestamp}
    (h : Core.parseTimestamp text value = .ok result) : ∃ t : TimestampText, t.Spells value := by
  unfold Core.parseTimestamp at h
  obtain ⟨hshape, h⟩ := check_ok h
  simp only [not_or, not_lt, ne_eq, not_not] at hshape
  obtain ⟨hlen, h4, h7, h10, h13, h16, hlast⟩ := hshape
  obtain ⟨_, hyear, h⟩ := bind_ok h
  obtain ⟨_, hmonth, h⟩ := bind_ok h
  obtain ⟨_, hday, h⟩ := bind_ok h
  obtain ⟨_, hhour, h⟩ := bind_ok h
  obtain ⟨_, hminute, h⟩ := bind_ok h
  obtain ⟨_, hsecond, h⟩ := bind_ok h
  obtain ⟨-, h⟩ := check_ok h
  have htail : value.length = 20 ∨ (value[19]? = some 0x2e ∧ 22 ≤ value.length ∧
      value.length ≤ 30 ∧ ((value.drop 20).take (value.length - 21)).all isDigit = true) := by
    split at h
    · next hl => exact .inl hl
    · split at h
      · cases h
      · next hform =>
        simp only [not_or, not_lt, ne_eq, not_not] at hform
        obtain ⟨_, hnumber, -⟩ := bind_ok h
        exact .inr ⟨hform.1, hform.2.1, hform.2.2, timestampNumber_ok hnumber⟩
  obtain ⟨fraction, hle, hfd, hend⟩ := exists_fraction hlast htail
  replace hyear := timestampNumber_ok hyear
  replace hmonth := timestampNumber_ok hmonth
  replace hday := timestampNumber_ok hday
  replace hhour := timestampNumber_ok hhour
  replace hminute := timestampNumber_ok hminute
  replace hsecond := timestampNumber_ok hsecond
  clear h htail hlast
  -- the fixed part of the text, byte by byte
  match value, hlen with
  | y0 :: y1 :: y2 :: y3 :: c4 :: m0 :: m1 :: c7 :: d0 :: d1 :: c10 :: h0 :: h1 :: c13 :: n0 ::
      n1 :: c16 :: s0 :: s1 :: last :: rest, _ =>
    simp only [List.getElem?_cons_succ, List.getElem?_cons_zero,
      Option.some_inj] at h4 h7 h10 h13 h16
    subst h4 h7 h10 h13 h16
    have hzone : last :: rest = Decimal.point fraction ++ [0x5a] := hend
    refine ⟨⟨[y0, y1, y2, y3], [m0, m1], [d0, d1], [h0, h1], [n0, n1], [s0, s1], fraction⟩, ?_,
      rfl, rfl, rfl, rfl, rfl, rfl, hle, ?_⟩
    · rw [hzone]
      rfl
    · simp only [List.all_append, Bool.and_eq_true]
      exact ⟨⟨⟨⟨⟨⟨hyear, hmonth⟩, hday⟩, hhour⟩, hminute⟩, hsecond⟩, hfd⟩

end TimestampText

/-- The two branches of the final range check are exact. -/
theorem composeInstant_eq (text : String) {seconds fraction : Int} (h0 : 0 ≤ fraction)
    (h9 : fraction < 1000000000) :
    composeInstant text seconds fraction =
      if Representable 64 (seconds * 1000000000 + fraction) then
        .ok ⟨seconds * 1000000000 + fraction⟩
      else invalidArgument text := by
  have hmin : (-9223372036854775808 : Int).tdiv 1000000000 = -9223372036 := by decide
  have hmod : (-9223372036854775808 : Int).tmod 1000000000 = -854775808 := by decide
  have hmax : (9223372036854775807 - fraction).tdiv 1000000000 =
      (9223372036854775807 - fraction) / 1000000000 :=
    Int.tdiv_eq_ediv_of_nonneg (by omega)
  unfold composeInstant
  simp only [hmin, hmod, hmax, representable_64]
  split
  · split
    · rw [if_neg (by omega)]
    · rw [if_pos (by omega)]
  · split
    · rw [if_neg (by omega)]
    · rw [if_pos (by omega)]
      congr 2
      omega

/-! ### The steps of the source -/

/-- The `number` lambda, byte by byte in `int`
(`src/adapters/coinbase/coinbase_l2_parser.cpp:25–34`). -/
def checkedNumber (text : String) (value : Bytes) : Nat → Nat → Nat → Checked Nat
  | _, 0, result => pure result
  | offset, length + 1, result => do
    let ch ← read value offset
    if !isDigit ch then throw ⟨.invalidArgument, ascii text⟩
    computes 32 (result * 10)
    computes 32 (result * 10 + ch.toNat)
    computes 32 (result * 10 + ch.toNat - 0x30)
    checkedNumber text value (offset + 1) length (result * 10 + digit ch)

/-- The loop that scales the fraction, in `std::int64_t`
(`src/adapters/coinbase/coinbase_l2_parser.cpp:50–52`). -/
def checkedScale : Nat → Nat → Checked Nat
  | 0, fraction => pure fraction
  | n + 1, fraction => do
    computes 64 (fraction * 10)
    checkedScale n (fraction * 10)

/-- The comparisons of single bytes, left to right
(`src/adapters/coinbase/coinbase_l2_parser.cpp:21–22`). -/
def checkedMarks (value : Bytes) : List (Nat × UInt8) → Checked Bool
  | [] => pure true
  | (i, mark) :: rest => do
    let ch ← read value i
    if ch ≠ mark then pure false else checkedMarks value rest

/-- `composeInstant` in `std::int64_t` (`src/adapters/coinbase/coinbase_l2_parser.cpp:57–71`). -/
def checkedInstant (text : String) (seconds fraction : Int) : Checked ExchangeTimestamp := do
  let billion : Int := 1000000000
  let maximum : Int := 9223372036854775807
  let minimum : Int := -9223372036854775808
  if 0 ≤ seconds then
    computes 64 (maximum - fraction)
    if (maximum - fraction).tdiv billion < seconds then throw ⟨.invalidArgument, ascii text⟩
    else
      computes 64 (seconds * billion)
      computes 64 (seconds * billion + fraction)
      pure ⟨seconds * billion + fraction⟩
  else
    computes 64 (minimum.tdiv billion - 1)
    computes 64 (billion + minimum.tmod billion)
    if seconds < minimum.tdiv billion - 1 ∨
        (seconds = minimum.tdiv billion - 1 ∧ fraction < billion + minimum.tmod billion) then
      throw ⟨.invalidArgument, ascii text⟩
    else
      computes 64 (seconds + 1)
      computes 64 ((seconds + 1) * billion)
      computes 64 (fraction - billion)
      computes 64 ((seconds + 1) * billion + (fraction - billion))
      pure ⟨(seconds + 1) * billion + (fraction - billion)⟩

/-- The seconds since the epoch, term by term, and the instant
(`src/adapters/coinbase/coinbase_l2_parser.cpp:54–71`). -/
def checkedEpoch (text : String) (year month day hour minute second fraction : Nat) :
    Checked ExchangeTimestamp := do
  let days := sysDays year month day
  computes 64 days
  computes 64 (days * 86400)
  computes 32 (hour * 3600)
  computes 64 (days * 86400 + hour * 3600)
  computes 32 (minute * 60)
  computes 64 (days * 86400 + hour * 3600 + minute * 60)
  computes 64 (days * 86400 + hour * 3600 + minute * 60 + second)
  checkedInstant text (days * 86400 + hour * 3600 + minute * 60 + second) fraction

/-- `parse_timestamp` with every read and every signed result
(`src/adapters/coinbase/coinbase_l2_parser.cpp:19–72`). -/
def checkedTimestamp (text : String) (value : Bytes) : Checked ExchangeTimestamp := do
  let invalid : Failure := ⟨.invalidArgument, ascii text⟩
  if value.length < 20 then throw invalid
  let shaped ← checkedMarks value
    [(4, 0x2d), (7, 0x2d), (10, 0x54), (13, 0x3a), (16, 0x3a), (value.length - 1, 0x5a)]
  if !shaped then throw invalid
  let year ← checkedNumber text value 0 4 0
  let month ← checkedNumber text value 5 2 0
  let day ← checkedNumber text value 8 2 0
  let hour ← checkedNumber text value 11 2 0
  let minute ← checkedNumber text value 14 2 0
  let second ← checkedNumber text value 17 2 0
  if year = 0 ∨ !dateOk year month day ∨ 23 < hour ∨ 59 < minute ∨ 59 < second then throw invalid
  let fraction ←
    if value.length = 20 then pure 0
    else do
      let point ← read value 19
      if point ≠ 0x2e ∨ value.length < 22 ∨ 30 < value.length then throw invalid
      else do
        let leading ← checkedNumber text value 20 (value.length - 21) 0
        checkedScale (9 - (value.length - 21)) leading
  checkedEpoch text year month day hour minute second fraction

private theorem defined_checkedScale (n fraction : Nat) (h : fraction * 10 ^ n < 1000000000) :
    Defined (checkedScale n fraction) (.ok (fraction * 10 ^ n)) := by
  induction n generalizing fraction with
  | zero =>
    rw [Nat.pow_zero, Nat.mul_one]
    exact defined_pure _
  | succ n ih =>
    have hstep : fraction * 10 ^ (n + 1) = fraction * 10 * 10 ^ n := by ring
    rw [hstep] at h ⊢
    refine Defined.computes_bind ?_ (ih _ h)
    have hle : fraction * 10 ≤ fraction * 10 * 10 ^ n :=
      Nat.le_mul_of_pos_right _ (Nat.pow_pos (by decide))
    rw [representable_64]
    omega

private theorem defined_checkedMarks {value : Bytes} {marks : List (Nat × UInt8)}
    (h : ∀ mark ∈ marks, mark.1 < value.length) :
    Defined (checkedMarks value marks)
      (.ok (marks.all fun mark ↦ value[mark.1]? = some mark.2)) := by
  induction marks with
  | nil => exact defined_pure _
  | cons mark rest ih =>
    obtain ⟨ch, hi⟩ : ∃ ch, value[mark.1]? = some ch :=
      ⟨_, List.getElem?_eq_getElem (h mark List.mem_cons_self)⟩
    refine Defined.read_bind hi ?_
    rw [List.all_cons, hi]
    split
    · next hne =>
      simp only [Option.some_inj, hne, decide_false, Bool.false_and]
      exact defined_pure _
    · next heq =>
      simp only [ne_eq, not_not] at heq
      simp only [heq, decide_true, Bool.true_and]
      exact ih fun mark hm ↦ h mark (List.mem_cons_of_mem _ hm)

/-- The accumulator stays below `10 ^ 9`, so `int` holds it and its next digit. -/
private theorem defined_checkedNumber (text : String) {value : Bytes}
    (length offset result used : Nat) (hend : offset + length ≤ value.length)
    (hresult : result < 10 ^ used) (hused : used + length ≤ 9) :
    Defined (checkedNumber text value offset length result)
      (if ((value.drop offset).take length).all isDigit then
        .ok (((value.drop offset).take length).foldl (fun value c ↦ value * 10 + digit c) result)
      else invalidArgument text) := by
  induction length generalizing offset result used with
  | zero => exact defined_pure _
  | succ length ih =>
    have hi : offset < value.length := by omega
    have hdrop : (value.drop offset).take (length + 1) =
        value[offset] :: (value.drop (offset + 1)).take length := by
      rw [List.drop_eq_getElem_cons hi, List.take_succ_cons]
    refine Defined.read_bind (List.getElem?_eq_getElem hi) ?_
    rw [hdrop, List.all_cons, List.foldl_cons]
    cases hd : isDigit value[offset] with
    | false => exact defined_throw _
    | true =>
      have hbyte := toNat_of_isDigit hd
      have hten : 10 ^ (used + 1) ≤ 10 ^ 9 := Nat.pow_le_pow_right (by decide) (by omega)
      have hnext : result * 10 + digit value[offset] < 10 ^ (used + 1) := by
        rw [Nat.pow_succ, digit]
        omega
      have hdigit : digit value[offset] = value[offset].toNat - 0x30 := rfl
      refine Defined.computes_bind ?_ (Defined.computes_bind ?_ (Defined.computes_bind ?_ ?_))
      · rw [representable_32]
        omega
      · rw [representable_32]
        omega
      · rw [representable_32]
        omega
      · exact ih (offset + 1) _ (used + 1) (by omega) hnext (by omega)

private theorem defined_number (text : String) {value : Bytes} {offset length : Nat}
    (hend : offset + length ≤ value.length) (hlength : length ≤ 9) :
    Defined (checkedNumber text value offset length 0) (timestampNumber text value offset length) :=
  defined_checkedNumber text length offset 0 0 hend (by decide) (by omega)

private theorem defined_checkedInstant (text : String) {seconds fraction : Int} (h0 : 0 ≤ fraction)
    (h9 : fraction < 1000000000) (hs : seconds < 9223372036854775807) :
    Defined (checkedInstant text seconds fraction) (composeInstant text seconds fraction) := by
  have hmin : (-9223372036854775808 : Int).tdiv 1000000000 = -9223372036 := by decide
  have hmod : (-9223372036854775808 : Int).tmod 1000000000 = -854775808 := by decide
  have hmax : (9223372036854775807 - fraction).tdiv 1000000000 =
      (9223372036854775807 - fraction) / 1000000000 :=
    Int.tdiv_eq_ediv_of_nonneg (by omega)
  unfold checkedInstant composeInstant
  simp only [hmin, hmod, hmax]
  refine Defined.ite Iff.rfl (fun hpos ↦ ?_) (fun hneg ↦ ?_)
  · refine Defined.computes_bind (by rw [representable_64]; omega) ?_
    refine Defined.ite Iff.rfl (fun _ ↦ defined_throw _) (fun hle ↦ ?_)
    refine Defined.computes_bind (by rw [representable_64]; omega) ?_
    exact Defined.computes_bind (by rw [representable_64]; omega) (defined_pure _)
  · refine Defined.computes_bind (by rw [representable_64]; omega) ?_
    refine Defined.computes_bind (by rw [representable_64]; omega) ?_
    refine Defined.ite Iff.rfl (fun _ ↦ defined_throw _) (fun hle ↦ ?_)
    refine Defined.computes_bind (by rw [representable_64]; omega) ?_
    refine Defined.computes_bind (by rw [representable_64]; omega) ?_
    refine Defined.computes_bind (by rw [representable_64]; omega) ?_
    exact Defined.computes_bind (by rw [representable_64]; omega) (defined_pure _)

private theorem timestampNumber_lt {text : String} {value : Bytes} {offset length n : Nat}
    (h : timestampNumber text value offset length = .ok n) : n < 10 ^ length := by
  unfold timestampNumber at h
  dsimp only at h
  split at h
  · next hd =>
    cases h
    exact Nat.lt_of_lt_of_le (Decimal.digitsValue_lt hd)
      (Nat.pow_le_pow_right (by decide) (List.length_take_le _ _))
  · cases h

private theorem daysInMonth_le (year month : Nat) : daysInMonth year month ≤ 31 := by
  unfold daysInMonth
  split <;> first | omega | (split <;> omega)

private theorem sysDays_bounds {year month day : Nat} (hy : year < 10000) (hm : month < 100)
    (hd : day < 100) : -1000000 ≤ sysDays year month day ∧ sysDays year month day ≤ 4000000 := by
  have hsum : ((List.range (month - 1)).map fun m ↦ daysInMonth year (m + 1)).sum ≤
      (month - 1) * 31 := by
    have h := List.sum_le_card_nsmul ((List.range (month - 1)).map fun m ↦ daysInMonth year (m + 1))
      31 (by simp [daysInMonth_le])
    simpa using h
  unfold sysDays
  dsimp only
  omega

private theorem defined_checkedEpoch (text : String)
    {year month day hour minute second fraction : Nat} (hyear : year < 10 ^ 4)
    (hmonth : month < 10 ^ 2) (hday : day < 10 ^ 2) (hhour : hour < 10 ^ 2)
    (hminute : minute < 10 ^ 2) (hsecond : second < 10 ^ 2) (hfraction : fraction < 10 ^ 9) :
    Defined (checkedEpoch text year month day hour minute second fraction)
      (composeInstant text (sysDays year month day * 86400 +
        (hour * 3600 + minute * 60 + second : Nat)) fraction) := by
  obtain ⟨hlow, hhigh⟩ := sysDays_bounds hyear hmonth hday
  have hseconds : sysDays year month day * 86400 + (hour * 3600 + minute * 60 + second : Nat) =
      sysDays year month day * 86400 + hour * 3600 + minute * 60 + second := by
    push_cast
    ring
  rw [hseconds]
  unfold checkedEpoch
  refine Defined.computes_bind (by rw [representable_64]; omega) ?_
  refine Defined.computes_bind (by rw [representable_64]; omega) ?_
  refine Defined.computes_bind (by rw [representable_32]; omega) ?_
  refine Defined.computes_bind (by rw [representable_64]; omega) ?_
  refine Defined.computes_bind (by rw [representable_32]; omega) ?_
  refine Defined.computes_bind (by rw [representable_64]; omega) ?_
  refine Defined.computes_bind (by rw [representable_64]; omega) ?_
  exact defined_checkedInstant text (by omega) (by omega) (by omega)

/-- No read passes the end and no signed result leaves its type. -/
theorem defined_checkedTimestamp (text : String) (value : Bytes) :
    Defined (checkedTimestamp text value) (parseTimestamp text value) := by
  unfold checkedTimestamp parseTimestamp
  by_cases hlen : value.length < 20
  · rw [if_pos hlen, if_pos (.inl hlen)]
    exact defined_throw _
  · rw [if_neg hlen]
    refine Defined.bind_ok (defined_checkedMarks (by simp; omega)) ?_
    refine Defined.ite ?_ (fun _ ↦ defined_throw _) (fun _ ↦ ?_)
    · simp only [hlen, List.getLast?_eq_getElem?]
      simp
    refine Defined.bind (defined_number text (by omega) (by decide)) fun year hyear ↦ ?_
    refine Defined.bind (defined_number text (by omega) (by decide)) fun month hmonth ↦ ?_
    refine Defined.bind (defined_number text (by omega) (by decide)) fun day hday ↦ ?_
    refine Defined.bind (defined_number text (by omega) (by decide)) fun hour hhour ↦ ?_
    refine Defined.bind (defined_number text (by omega) (by decide)) fun minute hminute ↦ ?_
    refine Defined.bind (defined_number text (by omega) (by decide)) fun second hsecond ↦ ?_
    refine Defined.ite Iff.rfl (fun _ ↦ defined_throw _) (fun hvalid ↦ ?_)
    have hepoch (fraction : Nat) (hfraction : fraction < 10 ^ 9) :
        Defined (checkedEpoch text year month day hour minute second fraction) _ :=
      defined_checkedEpoch text (timestampNumber_lt hyear) (timestampNumber_lt hmonth)
        (timestampNumber_lt hday) (timestampNumber_lt hhour) (timestampNumber_lt hminute)
        (timestampNumber_lt hsecond) hfraction
    refine Defined.ite Iff.rfl (fun _ ↦ hepoch 0 (by decide)) (fun hlong ↦ ?_)
    have hread : value[19]? = some value[19] := List.getElem?_eq_getElem (by omega)
    refine Defined.read_bind hread ?_
    rw [hread]
    refine Defined.ite (by simp) (fun _ ↦ defined_throw _) (fun hform ↦ ?_)
    simp only [not_or, not_lt] at hform
    refine Defined.bind (defined_number text (by omega) (by omega)) fun leading hleading ↦ ?_
    have hscaled : leading * 10 ^ (9 - (value.length - 21)) < 10 ^ 9 := by
      have hlt := Nat.mul_lt_mul_of_pos_right (timestampNumber_lt hleading)
        (Nat.pow_pos (n := 9 - (value.length - 21)) (show 0 < 10 by decide))
      rw [← Nat.pow_add, Nat.add_sub_cancel' (by omega)] at hlt
      exact hlt
    exact Defined.bind_ok (defined_checkedScale _ _ hscaled) (hepoch _ hscaled)

/-! ### The reader as a whole -/

private theorem TimestampText.Spells.instant_eq {t : TimestampText} {value : Bytes}
    (h : t.Spells value) : t.instant = ((t.seconds * 1000000000 + t.nanos : Int) : ℚ) := by
  have hten : (10 : ℚ) ^ t.fraction.length ≠ 0 := pow_ne_zero _ (by norm_num)
  have hsplit : (10 : ℚ) ^ 9 = 10 ^ t.fraction.length * 10 ^ (9 - t.fraction.length) := by
    rw [← pow_add, Nat.add_sub_cancel' h.fraction_length]
  rw [instant, add_mul]
  nth_rewrite 2 [hsplit]
  rw [← mul_assoc, div_mul_cancel₀ _ hten, nanos]
  push_cast
  norm_num

private theorem TimestampText.Spells.nanos_lt {t : TimestampText} {value : Bytes}
    (h : t.Spells value) : t.nanos < 1000000000 := by
  have hd : t.fraction.all isDigit = true := by
    have := h.digits
    simp only [List.all_append, Bool.and_eq_true] at this
    exact this.2
  have hlt := Nat.mul_lt_mul_of_pos_right (Decimal.digitsValue_lt hd)
    (Nat.pow_pos (n := 9 - t.fraction.length) (show 0 < 10 by decide))
  rw [← Nat.pow_add, Nat.add_sub_cancel' h.fraction_length] at hlt
  exact hlt

/-- `parse_timestamp` accepts exactly the texts in the format with a valid date and time whose
instant is a 64-bit count of nanoseconds, and returns that count; every other text has the one
error. No read passes the end of the text and no signed result leaves its type. -/
theorem parseTimestamp_exact (text : String) (value : Bytes) :
    (∀ result : ExchangeTimestamp, parseTimestamp text value = .ok result ↔
      ∃ t : TimestampText, t.Spells value ∧ t.Valid ∧
        -2 ^ 63 ≤ t.instant ∧ t.instant ≤ 2 ^ 63 - 1 ∧ (result.nanoseconds : ℚ) = t.instant) ∧
    (∀ e : Failure, parseTimestamp text value = .error e → e = ⟨.invalidArgument, ascii text⟩) ∧
    Defined (checkedTimestamp text value) (parseTimestamp text value) := by
  have hread {t : TimestampText} (h : t.Spells value) (hv : t.Valid) :
      parseTimestamp text value =
        if Representable 64 (t.seconds * 1000000000 + t.nanos) then
          .ok ⟨t.seconds * 1000000000 + t.nanos⟩
        else invalidArgument text := by
    have hlt := h.nanos_lt
    rw [(h.parseTimestamp text).1 hv, composeInstant_eq text (by omega) (by omega)]
  have hrange {t : TimestampText} (h : t.Spells value) :
      Representable 64 (t.seconds * 1000000000 + t.nanos) ↔
        -2 ^ 63 ≤ t.instant ∧ t.instant ≤ 2 ^ 63 - 1 := by
    rw [h.instant_eq, representable_64]
    norm_num
    exact_mod_cast Iff.rfl
  refine ⟨fun result ↦ ⟨fun hok ↦ ?_, ?_⟩, fun e he ↦ ?_, defined_checkedTimestamp text value⟩
  · obtain ⟨t, h⟩ := TimestampText.exists_spells hok
    by_cases hv : t.Valid
    · rw [hread h hv] at hok
      split at hok
      · next hr =>
        cases hok
        obtain ⟨hlow, hhigh⟩ := (hrange h).mp hr
        exact ⟨t, h, hv, hlow, hhigh, h.instant_eq.symm⟩
      · cases hok
    · rw [(h.parseTimestamp text).2 hv] at hok
      cases hok
  · rintro ⟨t, h, hv, hlow, hhigh, heq⟩
    rw [hread h hv, if_pos ((hrange h).mpr ⟨hlow, hhigh⟩)]
    rw [h.instant_eq, Int.cast_inj] at heq
    rw [← heq]
  · exact raises_parseTimestamp (P := (· = ⟨.invalidArgument, ascii text⟩)) rfl value e he

end ArbitrageEngine.Core
