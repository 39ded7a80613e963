import ArbitrageEngine.Core.Timestamp
import ArbitrageEngine.Json.Parser

/-!
# Kraken book messages

`src/adapters/kraken/{kraken_l2_parser,kraken_symbol_mapper}.cpp` and
`include/adapters/kraken/{kraken_book_message,kraken_l2_parser}.hpp`. Number tokens are
protected before the text is decoded, so that a level keeps the lexemes it was sent with.
-/

namespace ArbitrageEngine.Kraken

open Base Json ArbitrageEngine.Core

/-- `KrakenLevelChange` (`include/adapters/kraken/kraken_book_message.hpp:5–10`). -/
structure KrakenLevelChange where
  side : Side
  price : PriceTicks
  quantity : QuantityAtoms
  priceLexeme : Bytes
  quantityLexeme : Bytes
  deriving DecidableEq, Repr

/-- `KrakenBookMessageType` (`include/adapters/kraken/kraken_book_message.hpp:11`). -/
inductive KrakenBookMessageType
  | snapshot
  | update
  deriving DecidableEq, Repr

/-- `KrakenBookMessage` (`include/adapters/kraken/kraken_book_message.hpp:12–20`). -/
structure KrakenBookMessage where
  type : KrakenBookMessageType
  instrument : Instrument
  changes : List KrakenLevelChange
  checksum : UInt32
  exchangeTime : ExchangeTimestamp
  receiveWallTime : ReceiveWallTimestamp
  receiveMonotonicTime : ReceiveMonotonicTimestamp
  deriving DecidableEq, Repr

/-- `ParseResult`: each `ParseKind` with the fields that it fills
(`include/adapters/kraken/kraken_l2_parser.hpp:5–10`). -/
inductive ParseResult
  | book (message : KrakenBookMessage)
  | heartbeat
  | subscriptionSuccess
  | subscriptionFailure (error : Bytes)
  | ignored
  | error (error : Bytes)
  deriving DecidableEq, Repr

/-! ### Decimal tokens -/

/-- `(0|[1-9][0-9]*)(\.[0-9]+)?([eE][+-]?[0-9]+)?`
(`src/adapters/kraken/kraken_l2_parser.cpp:116`). -/
def matchesDecimal (token : Bytes) : Bool :=
  match Decimal.parts token with
  | some parts => parts.whole = [0x30] || parts.whole.head? ≠ some 0x30
  | none => false

/-- `-?(0|[1-9][0-9]*)(\.[0-9]+)?([eE][+-]?[0-9]+)?`
(`src/adapters/kraken/kraken_l2_parser.cpp:98`). -/
def matchesNumber : Bytes → Bool
  | 0x2d :: token => matchesDecimal token
  | token => matchesDecimal token

/-- `std::stoi` of an optional sign and digits (`src/adapters/kraken/kraken_l2_parser.cpp:123`). -/
def stoi (text : Bytes) : Except Failure Int :=
  match Decimal.signed text with
  | none => .error ⟨.invalidArgument, ascii "stoi"⟩
  | some n =>
    if n < -2147483648 || 2147483647 < n then .error ⟨.outOfRange, ascii "stoi"⟩ else .ok n

/-- `std::stoull` of digits (`src/adapters/kraken/kraken_l2_parser.cpp:168`). -/
def stoull (text : Bytes) : Except Failure Nat :=
  match Decimal.unsigned text with
  | none => .error ⟨.invalidArgument, ascii "stoull"⟩
  | some n => if 2 ^ 64 ≤ n then .error ⟨.outOfRange, ascii "stoull"⟩ else .ok n

/-- The digits of an expanded token, with the point before the one at `position`
(`src/adapters/kraken/kraken_l2_parser.cpp:131–136`). -/
def placePoint (digits : Bytes) (position : Int) : Bytes :=
  if position ≤ 0 then ascii "0." ++ List.replicate (-position).toNat 0x30 ++ digits
  else if (digits.length : Int) ≤ position then
    digits ++ List.replicate (position.toNat - digits.length) 0x30
  else digits.take position.toNat ++ 0x2e :: digits.drop position.toNat

/-- The mantissa of a token, its point moved by the exponent
(`src/adapters/kraken/kraken_l2_parser.cpp:126–136`). -/
def movePoint (s : Bytes) (exponent : Int) : Bytes :=
  match s.findIdx? (· = 0x2e) with
  | none => placePoint s (s.length + exponent)
  | some dot => placePoint (s.take dot ++ s.drop (dot + 1)) (dot + exponent)

/-- `decimal_token` (`src/adapters/kraken/kraken_l2_parser.cpp:115–137`). -/
def decimalToken (token : Bytes) : Except Failure Bytes := do
  if !matchesDecimal token then invalidArgument "invalid nonnegative decimal"
  match token.findIdx? Decimal.isExponentMark with
  | none => return token
  | some e =>
    let exponent ← stoi (token.drop (e + 1))
    if exponent < -100 || 100 < exponent then invalidArgument "decimal exponent out of range"
    return movePoint (token.take e) exponent

private theorem not_mark_of_isDigit {c : UInt8} (h : isDigit c = true) :
    Decimal.isExponentMark c = false := by
  rw [Bool.eq_false_iff]
  intro hm
  simp only [Decimal.isExponentMark, Bool.or_eq_true, decide_eq_true_eq] at hm
  obtain rfl | rfl := hm <;> cases h

private theorem ne_point_of_isDigit {c : UInt8} (h : isDigit c = true) : c ≠ 0x2e := by
  rintro rfl
  cases h

private theorem findIdx?_mark {whole fraction : Bytes} (hw : whole.all isDigit = true)
    (hf : fraction.all isDigit = true) :
    (whole ++ Decimal.point fraction).findIdx? Decimal.isExponentMark = none := by
  rw [List.all_eq_true] at hw hf
  rw [List.findIdx?_eq_none_iff]
  intro c hc
  rw [List.mem_append, Decimal.point] at hc
  obtain hc | hc := hc
  · exact not_mark_of_isDigit (hw c hc)
  · split at hc
    · cases hc
    · obtain rfl | hc := List.mem_cons.mp hc
      · rfl
      · exact not_mark_of_isDigit (hf c hc)

private theorem findIdx?_point {whole fraction : Bytes} (hw : whole.all isDigit = true) :
    (whole ++ Decimal.point fraction).findIdx? (· = 0x2e) =
      if fraction = [] then none else some whole.length := by
  have hn : whole.findIdx? (· = 0x2e) = none := by
    rw [List.findIdx?_eq_none_iff]
    intro c hc
    exact decide_eq_false (ne_point_of_isDigit (List.all_eq_true.mp hw c hc))
  rw [List.findIdx?_append, hn, Decimal.point]
  split
  · rfl
  · simp [List.findIdx?_cons]

/-- Zeros are digits. -/
theorem all_zeros (n : Nat) : (List.replicate n (0x30 : UInt8)).all isDigit = true := by
  rw [List.all_eq_true]
  intro c hc
  rw [List.eq_of_mem_replicate hc]
  rfl

/-- Where the point is put says how many powers of ten the digits count. -/
private theorem value_placePoint {digits : Bytes} (hn : digits ≠ [])
    (hd : digits.all isDigit = true) (position : Int) :
    Decimal.value (placePoint digits position) =
      some ((digitsValue digits : ℚ) * 10 ^ (position - digits.length)) := by
  unfold placePoint
  split
  · next hp =>
    -- the point stands before all digits
    have hs : ascii "0." ++ List.replicate (-position).toNat 0x30 ++ digits =
        [0x30] ++ Decimal.point (List.replicate (-position).toNat 0x30 ++ digits) := by
      rw [Decimal.point, if_neg (by simp [hn])]
      rfl
    have he : position - digits.length =
        -((List.replicate (-position).toNat (0x30 : UInt8) ++ digits).length : Int) := by
      rw [List.length_append, List.length_replicate]
      omega
    rw [hs, Decimal.value_point (by simp) rfl (by rw [List.all_append, all_zeros, hd]; rfl),
      he, zpow_neg, zpow_natCast, div_eq_mul_inv, ← List.append_assoc,
      Decimal.digitsValue_append, List.singleton_append, ← List.replicate_succ,
      Decimal.digitsValue_replicate_zero]
    simp
  · next hp =>
    split
    · next hl =>
      -- the point would stand behind all digits, so there is none
      have hs : digits ++ List.replicate (position.toNat - digits.length) 0x30 =
          (digits ++ List.replicate (position.toNat - digits.length) 0x30) ++
            Decimal.point [] := by
        simp [Decimal.point]
      have he : position - digits.length = ((position.toNat - digits.length : Nat) : Int) := by
        omega
      rw [hs, Decimal.value_point (by simp [hn]) (by rw [List.all_append, all_zeros, hd]; rfl) rfl,
        he, zpow_natCast, List.append_nil, Decimal.digitsValue_append,
        Decimal.digitsValue_replicate_zero]
      simp
    · next hl =>
      have hdrop : digits.drop position.toNat ≠ [] := by
        rw [ne_eq, List.drop_eq_nil_iff]
        omega
      have htake : digits.take position.toNat ≠ [] := by
        rw [ne_eq, List.take_eq_nil_iff]
        rintro (h0 | h0)
        · omega
        · exact hn h0
      have hs : digits.take position.toNat ++ 0x2e :: digits.drop position.toNat =
          digits.take position.toNat ++ Decimal.point (digits.drop position.toNat) := by
        rw [Decimal.point, if_neg hdrop]
      have he : position - digits.length = -((digits.drop position.toNat).length : Int) := by
        rw [List.length_drop]
        omega
      have hall := hd
      rw [← List.take_append_drop position.toNat digits, List.all_append, Bool.and_eq_true] at hall
      rw [hs, Decimal.value_point htake hall.1 hall.2, List.take_append_drop, he, zpow_neg,
        zpow_natCast, div_eq_mul_inv]

private theorem movePoint_eq {whole fraction : Bytes} (hw : whole.all isDigit = true)
    (exponent : Int) : movePoint (whole ++ Decimal.point fraction) exponent =
      placePoint (whole ++ fraction) (whole.length + exponent) := by
  rw [movePoint, findIdx?_point hw]
  by_cases h : fraction = []
  · simp [h, Decimal.point]
  · simp [h, Decimal.point]

/-- The pattern of decimals: parts without a leading zero. -/
theorem matchesDecimal_iff {token : Bytes} : matchesDecimal token = true ↔
    ∃ p, Decimal.parts token = some p ∧ (p.whole = [0x30] ∨ p.whole.head? ≠ some 0x30) := by
  unfold matchesDecimal
  cases Decimal.parts token with
  | none => simp
  | some p => simp

/-- A token without an exponent is returned as it is. -/
theorem decimalToken_plain {whole fraction : Bytes} (hw : whole.all isDigit = true)
    (hf : fraction.all isDigit = true)
    (hm : matchesDecimal (whole ++ Decimal.point fraction) = true) :
    decimalToken (whole ++ Decimal.point fraction) = .ok (whole ++ Decimal.point fraction) := by
  unfold decimalToken
  rw [hm, findIdx?_mark hw hf]
  rfl

/-- A token with an exponent is returned with its point moved. -/
theorem decimalToken_exponent {whole fraction text : Bytes} {mark : UInt8}
    (hw : whole.all isDigit = true) (hf : fraction.all isDigit = true)
    (hc : Decimal.isExponentMark mark = true)
    (hm : matchesDecimal (whole ++ Decimal.point fraction ++ mark :: text) = true) :
    decimalToken (whole ++ Decimal.point fraction ++ mark :: text) =
      (stoi text >>= fun exponent ↦
        if exponent < -100 || 100 < exponent then invalidArgument "decimal exponent out of range"
        else .ok (placePoint (whole ++ fraction) (whole.length + exponent))) := by
  have hfind : (whole ++ Decimal.point fraction ++ mark :: text).findIdx?
      Decimal.isExponentMark = some (whole ++ Decimal.point fraction).length := by
    rw [List.findIdx?_append, findIdx?_mark hw hf, List.findIdx?_cons, hc]
    simp
  have htake : (whole ++ Decimal.point fraction ++ mark :: text).take
      (whole ++ Decimal.point fraction).length = whole ++ Decimal.point fraction :=
    List.take_left
  have hdrop : (whole ++ Decimal.point fraction ++ mark :: text).drop
      ((whole ++ Decimal.point fraction).length + 1) = text := by
    rw [← List.drop_drop, List.drop_left]
    rfl
  unfold decimalToken
  rw [hm, hfind]
  simp only [Bool.not_true, Bool.false_eq_true, ↓reduceIte, htake, hdrop, movePoint_eq hw]
  cases stoi text with
  | error e => rfl
  | ok exponent =>
    show (if _ then _ else _) = (if _ then _ else _)
    split <;> rfl

private theorem stoi_ok {text : Bytes} {n : Int} (h : stoi text = .ok n) :
    Decimal.signed text = some n := by
  unfold stoi at h
  split at h
  · cases h
  · next m hs =>
    split at h
    · cases h
    · cases h
      exact hs

/-- Expanding the exponent keeps the number that the token denotes. -/
theorem value_decimalToken {token expanded : Bytes} (h : decimalToken token = .ok expanded) :
    Decimal.value expanded = Decimal.value token := by
  have hm : matchesDecimal token = true := by
    unfold decimalToken at h
    simpa using (check_ok h).1
  obtain ⟨p, hp, -⟩ := matchesDecimal_iff.mp hm
  obtain ⟨hn, hw, hf, rest, ht, he⟩ := Decimal.eq_of_parts hp
  cases rest with
  | nil =>
    rw [List.append_nil] at ht
    rw [ht] at hm h
    rw [decimalToken_plain hw hf hm] at h
    cases h
    rw [ht]
  | cons mark text =>
    rw [Decimal.exponent] at he
    split at he
    · next hc =>
      rw [ht] at hm h
      rw [decimalToken_exponent hw hf hc hm] at h
      obtain ⟨exponent, hexp, h⟩ := bind_ok h
      have hexponent : exponent = p.exponent := Option.some_inj.mp ((stoi_ok hexp).symm.trans he)
      split at h
      · cases h
      · cases h
        have hall : (p.whole ++ p.fraction).all isDigit = true := by
          rw [List.all_append, hw, hf]
          rfl
        have hlen : (p.whole.length : Int) + p.exponent - (p.whole ++ p.fraction).length =
            p.exponent - p.fraction.length := by
          rw [List.length_append]
          omega
        rw [hexponent, value_placePoint (by simp [hn]) hall, hlen, Decimal.value, hp]
        rfl
    · cases he

/-! ### Protecting number tokens -/

/-- The rest of a string token after its opening quote, closing quote included
(`src/adapters/kraken/kraken_l2_parser.cpp:72–87`). -/
def stringTail : Bool → Bytes → Option (Bytes × Bytes)
  | _, [] => none
  | true, v :: rest => (stringTail false rest).map fun (tail, rest) ↦ (v :: tail, rest)
  | false, v :: rest =>
    if v = 0x22 then some ([v], rest)
    else (stringTail (v = 0x5c) rest).map fun (tail, rest) ↦ (v :: tail, rest)

/-- The bytes that `exact_json` takes into a number token
(`src/adapters/kraken/kraken_l2_parser.cpp:93–95`). -/
def isNumberByte (c : UInt8) : Bool :=
  isDigit c || c = 0x2e || c = 0x65 || c = 0x45 || c = 0x2b || c = 0x2d

/-- `json::array({"#number", token}).dump()` (`src/adapters/kraken/kraken_l2_parser.cpp:101`). -/
def taggedNumber (token : Bytes) : Bytes :=
  ascii "[\"#number\",\"" ++ token ++ ascii "\"]"

/-- The loop of `exact_json`; every round takes at least one byte
(`src/adapters/kraken/kraken_l2_parser.cpp:68–106`). -/
def protectNumbers : Nat → Bytes → Except Failure Bytes
  | 0, _ => .ok []
  | _ + 1, [] => .ok []
  | fuel + 1, c :: rest =>
    if c = 0x22 then
      match stringTail false rest with
      | none => invalidArgument "unterminated JSON string"
      | some (tail, rest) => do
        if (← Json.parse (c :: tail)).equalsText (ascii "#number") then
          invalidArgument "reserved numeric tag"
        return c :: tail ++ (← protectNumbers fuel rest)
    else if c = 0x2d || isDigit c then do
      let token := c :: rest.takeWhile isNumberByte
      if !matchesNumber token then invalidArgument "invalid JSON number"
      return taggedNumber token ++ (← protectNumbers fuel (rest.dropWhile isNumberByte))
    else return c :: (← protectNumbers fuel rest)

/-- `exact_json` (`src/adapters/kraken/kraken_l2_parser.cpp:67–108`). -/
def exactJson (raw : Bytes) : Except Failure Value := do
  Json.parse (← protectNumbers raw.length raw)

/-- `number` (`src/adapters/kraken/kraken_l2_parser.cpp:109–113`). -/
def number : Value → Except Failure Bytes
  | .array [tag, .string token] =>
    if tag.equalsText (ascii "#number") then .ok token
    else invalidArgument "expected numeric token"
  | _ => invalidArgument "expected numeric token"

/-! ### Messages -/

/-- `map_symbol` (`src/adapters/kraken/kraken_symbol_mapper.cpp:4–8`). -/
def mapSymbol (symbol : Bytes) : Except Failure Instrument :=
  if symbol ≠ ascii "BTC/USD" then invalidArgument "unsupported Kraken symbol" else .ok .btcUsd

/-- `parse` on a reply to a subscription (`src/adapters/kraken/kraken_l2_parser.cpp:144–152`). -/
def parseSubscription (j : Value) : Except Failure ParseResult := do
  if ← (← j.atKey (ascii "success")).getBool then
    if !(← (← j.atKey (ascii "result")).atKey (ascii "channel")).equalsText (ascii "book") then
      invalidArgument "unexpected subscription acknowledgement"
    if !(← (← j.atKey (ascii "result")).atKey (ascii "symbol")).equalsText (ascii "BTC/USD") then
      invalidArgument "unexpected subscription acknowledgement"
    return .subscriptionSuccess
  else return .subscriptionFailure (← j.valueString (ascii "error") (ascii "subscription rejected"))

/-- `parse` on the checksum of a book (`src/adapters/kraken/kraken_l2_parser.cpp:165–170`). -/
def parseChecksum (value : Value) : Except Failure UInt32 := do
  let checksum ← number value
  if !checksum.all isDigit then invalidArgument "invalid checksum"
  let crc ← stoull checksum
  if 2 ^ 32 - 1 < crc then invalidArgument "checksum overflow"
  return UInt32.ofNat crc

/-- `parse` on one level of a side (`src/adapters/kraken/kraken_l2_parser.cpp:184–189`). -/
def parseLevel (type : KrakenBookMessageType) (side : Side) (l : Value) :
    Except Failure KrakenLevelChange := do
  let p ← number (← l.atKey (ascii "price"))
  let q ← number (← l.atKey (ascii "qty"))
  let price ← parsePrice (← decimalToken p) 2
  let qty ← parseQuantity (← decimalToken q) 8
  if price.raw = 0 || (type = .snapshot && qty.raw = 0) then
    invalidArgument "zero snapshot level or price"
  return ⟨side, price, qty, p, q⟩

/-- `parse` on one side of a book; an update may leave it out
(`src/adapters/kraken/kraken_l2_parser.cpp:179–191`). -/
def parseSide (type : KrakenBookMessageType) (b : Value) (side : Side) (key : Bytes) :
    Except Failure (List KrakenLevelChange) := do
  if !b.contains key && type = .update then return []
  (← (← b.atKey key).getRefArray).mapM (parseLevel type side)

/-- `parse` on a message of the book channel
(`src/adapters/kraken/kraken_l2_parser.cpp:158–192`). -/
def parseBook (j : Value) (wall : ReceiveWallTimestamp) (mono : ReceiveMonotonicTimestamp) :
    Except Failure ParseResult := do
  let text ← (← j.atKey (ascii "type")).getString
  if text ≠ ascii "snapshot" && text ≠ ascii "update" then invalidArgument "unknown book type"
  let type := if text = ascii "snapshot" then .snapshot else .update
  match ← j.atKey (ascii "data") with
  | .array [b] =>
    let crc ← parseChecksum (← b.atKey (ascii "checksum"))
    let instrument ← mapSymbol (← (← b.atKey (ascii "symbol")).getString)
    let exchangeTime ← parseTimestamp "invalid Kraken UTC timestamp"
      (← (← b.atKey (ascii "timestamp")).getString)
    let bids ← parseSide type b .bid (ascii "bids")
    let asks ← parseSide type b .ask (ascii "asks")
    return .book ⟨type, instrument, bids ++ asks, crc, exchangeTime, wall, mono⟩
  | _ => invalidArgument "expected one book"

/-- The `try` block of `parse` (`src/adapters/kraken/kraken_l2_parser.cpp:141–192`). -/
def parseMessage (raw : Bytes) (wall : ReceiveWallTimestamp) (mono : ReceiveMonotonicTimestamp) :
    Except Failure ParseResult := do
  let j ← exactJson raw
  if !j.isObject then invalidArgument "expected object"
  if (← j.valueString (ascii "method") []) = ascii "subscribe" then parseSubscription j
  else
    let channel ← (← j.atKey (ascii "channel")).getString
    if channel = ascii "heartbeat" then return .heartbeat
    if channel ≠ ascii "book" then return .ignored
    parseBook j wall mono

/-- `KrakenL2Parser::parse`: its own exceptions become an error result
(`src/adapters/kraken/kraken_l2_parser.cpp:138–196`). -/
def parse (raw : Bytes) (wall : ReceiveWallTimestamp) (mono : ReceiveMonotonicTimestamp) :
    ParseResult :=
  match parseMessage raw wall mono with
  | .ok result => result
  | .error failure => .error failure.what

end ArbitrageEngine.Kraken
