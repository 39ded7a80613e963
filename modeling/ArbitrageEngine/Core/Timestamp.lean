import ArbitrageEngine.Core.MarketEvent

/-!
# UTC timestamps

`parse_timestamp` of `src/adapters/coinbase/coinbase_l2_parser.cpp` and
`src/adapters/kraken/kraken_l2_parser.cpp`: the two copies differ in their error text.
`std::chrono`'s calendar is the proleptic Gregorian one.
-/

namespace ArbitrageEngine.Core

open Base

/-- `std::chrono::year::is_leap`. -/
def isLeap (year : Nat) : Bool := year % 4 = 0 && (year % 100 ≠ 0 || year % 400 = 0)

/-- The days of a month, zero for no month. -/
def daysInMonth (year month : Nat) : Nat :=
  match month with
  | 1 | 3 | 5 | 7 | 8 | 10 | 12 => 31
  | 4 | 6 | 9 | 11 => 30
  | 2 => if isLeap year then 29 else 28
  | _ => 0

/-- `std::chrono::year_month_day::ok` for a four-digit year. -/
def dateOk (year month day : Nat) : Bool := 1 ≤ day && day ≤ daysInMonth year month

/-- `std::chrono::sys_days{date}`: days since 1970-01-01. -/
def sysDays (year month day : Nat) : Int :=
  let before := year - 1
  let months := ((List.range (month - 1)).map fun m ↦ daysInMonth year (m + 1)).sum
  (365 * before + before / 4 - before / 100 + before / 400 + months + (day - 1) : Nat) - 719162

/-- The `number` lambda of `parse_timestamp`
(`src/adapters/coinbase/coinbase_l2_parser.cpp:25–34`). -/
def timestampNumber (text : String) (value : Bytes) (offset length : Nat) : Except Failure Nat :=
  let digits := (value.drop offset).take length
  if digits.all isDigit then .ok (digitsValue digits) else invalidArgument text

/-- The instant of a second and its fraction, unless it is not an `int64` of nanoseconds
(`src/adapters/coinbase/coinbase_l2_parser.cpp:57–71`). -/
def composeInstant (text : String) (seconds fraction : Int) : Except Failure ExchangeTimestamp :=
  let billion : Int := 1000000000
  let maximum : Int := 9223372036854775807
  let minimum : Int := -9223372036854775808
  if 0 ≤ seconds then
    if (maximum - fraction).tdiv billion < seconds then invalidArgument text
    else .ok ⟨seconds * billion + fraction⟩
  else if seconds < minimum.tdiv billion - 1 ∨
      (seconds = minimum.tdiv billion - 1 ∧ fraction < billion + minimum.tmod billion) then
    invalidArgument text
  else .ok ⟨(seconds + 1) * billion + (fraction - billion)⟩

/-- `parse_timestamp`, with the text of its only error
(`src/adapters/coinbase/coinbase_l2_parser.cpp:19–72`). -/
def parseTimestamp (text : String) (value : Bytes) : Except Failure ExchangeTimestamp := do
  if value.length < 20 ∨ value[4]? ≠ some 0x2d ∨ value[7]? ≠ some 0x2d ∨ value[10]? ≠ some 0x54 ∨
      value[13]? ≠ some 0x3a ∨ value[16]? ≠ some 0x3a ∨ value.getLast? ≠ some 0x5a then
    invalidArgument text
  let number := timestampNumber text value
  let year ← number 0 4
  let month ← number 5 2
  let day ← number 8 2
  let hour ← number 11 2
  let minute ← number 14 2
  let second ← number 17 2
  if year = 0 ∨ !dateOk year month day ∨ 23 < hour ∨ 59 < minute ∨ 59 < second then
    invalidArgument text
  let fraction ←
    if value.length = 20 then pure 0
    else if value[19]? ≠ some 0x2e ∨ value.length < 22 ∨ 30 < value.length then invalidArgument text
    else do
      let digits := value.length - 21
      let leading ← number 20 digits
      pure (leading * 10 ^ (9 - digits))
  let seconds := sysDays year month day * 86400 + (hour * 3600 + minute * 60 + second : Nat)
  composeInstant text seconds fraction

section Raises

variable {P : Failure → Prop} {text : String} (hP : P ⟨.invalidArgument, ascii text⟩)

include hP

private theorem raises_timestampNumber (value : Bytes) (offset length : Nat) :
    Raises P (timestampNumber text value offset length) :=
  raises_ite (raises_ok _) (raises_invalidArgument hP)

private theorem raises_composeInstant (seconds fraction : Int) :
    Raises P (composeInstant text seconds fraction) := by
  unfold composeInstant
  refine raises_ite (raises_ite ?_ (raises_ok _)) (raises_ite ?_ (raises_ok _))
  · exact raises_invalidArgument hP
  · exact raises_invalidArgument hP

/-- The given text is the only error of the timestamp reader. -/
theorem raises_parseTimestamp (value : Bytes) : Raises P (parseTimestamp text value) := by
  have hn := raises_timestampNumber hP value
  unfold parseTimestamp
  refine raises_ite (raises_invalidArgument hP) ?_
  refine raises_bind (hn _ _) fun year ↦ raises_bind (hn _ _) fun month ↦ ?_
  refine raises_bind (hn _ _) fun day ↦ raises_bind (hn _ _) fun hour ↦ ?_
  refine raises_bind (hn _ _) fun minute ↦ raises_bind (hn _ _) fun second ↦ ?_
  refine raises_ite (raises_invalidArgument hP) ?_
  refine raises_ite (raises_composeInstant hP _ _) ?_
  refine raises_ite (raises_invalidArgument hP) ?_
  exact raises_bind (hn _ _) fun leading ↦ raises_composeInstant hP _ _

end Raises

end ArbitrageEngine.Core
