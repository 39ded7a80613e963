import ArbitrageEngine.Json.Encoding
import ArbitrageEngine.Kraken.BookProcessor

/-!
# The texts of Kraken errors

`src/adapters/kraken/{kraken_l2_parser,kraken_checksum,kraken_book_processor}.cpp`: what a
message leaves as the text of its error. Every text is fixed, names a key, is a string of the
message or comes from `exact_json`, and only the parser that `exact_json` calls quotes a part
of the message.
-/

namespace ArbitrageEngine.Kraken

open Base Json Std ArbitrageEngine.Core

/-! ### The parser behind `exact_json` -/

private theorem raises_number (value : Value) : Raises Failure.Plain (number value) := by
  unfold number
  split
  · exact raises_ite (raises_ok _) (raises_invalidArgument (by decide))
  · exact raises_invalidArgument (by decide)

private theorem raises_decimalToken (token : Bytes) :
    Raises Failure.Plain (decimalToken token) := by
  have hstoi (text : Bytes) : Raises Failure.Plain (stoi text) := by
    unfold stoi
    split
    · exact raises_error (by decide)
    · exact raises_ite (raises_error (by decide)) (raises_ok _)
  unfold decimalToken
  refine raises_ite (raises_invalidArgument (by decide)) ?_
  split
  · exact raises_ok _
  · refine raises_bind (hstoi _) fun exponent ↦ ?_
    exact raises_ite (raises_invalidArgument (by decide)) (raises_ok _)

private theorem raises_parseSubscription (j : Value) :
    Raises Failure.Plain (parseSubscription j) := by
  unfold parseSubscription
  refine raises_bind (j.raises_atKey (by decide)) fun success ↦ ?_
  refine raises_bind success.raises_getBool fun accepted ↦ ?_
  refine raises_ite ?_ (raises_bind (j.raises_valueString _ _) fun error ↦ raises_ok _)
  refine raises_bind (j.raises_atKey (by decide)) fun result ↦ ?_
  refine raises_bind (result.raises_atKey (by decide)) fun channel ↦ ?_
  refine raises_ite (raises_invalidArgument (by decide)) ?_
  refine raises_bind (j.raises_atKey (by decide)) fun result ↦ ?_
  refine raises_bind (result.raises_atKey (by decide)) fun symbol ↦ ?_
  exact raises_ite (raises_invalidArgument (by decide)) (raises_ok _)

private theorem raises_parseChecksum (value : Value) :
    Raises Failure.Plain (parseChecksum value) := by
  have hstoull (text : Bytes) : Raises Failure.Plain (stoull text) := by
    unfold stoull
    split
    · exact raises_error (by decide)
    · exact raises_ite (raises_error (by decide)) (raises_ok _)
  unfold parseChecksum
  refine raises_bind (raises_number value) fun checksum ↦ ?_
  refine raises_ite (raises_invalidArgument (by decide)) ?_
  refine raises_bind (hstoull checksum) fun crc ↦ ?_
  exact raises_ite (raises_invalidArgument (by decide)) (raises_ok _)

private theorem raises_parseLevel (type : KrakenBookMessageType) (side : Side) (l : Value) :
    Raises Failure.Plain (parseLevel type side l) := by
  unfold parseLevel
  refine raises_bind (l.raises_atKey (by decide)) fun price ↦ ?_
  refine raises_bind (raises_number price) fun p ↦ ?_
  refine raises_bind (l.raises_atKey (by decide)) fun quantity ↦ ?_
  refine raises_bind (raises_number quantity) fun q ↦ ?_
  refine raises_bind (raises_decimalToken p) fun priceText ↦ ?_
  refine raises_bind (raises_parseDecimal priceText _) fun _ ↦ ?_
  refine raises_bind (raises_decimalToken q) fun quantityText ↦ ?_
  refine raises_bind (raises_parseDecimal quantityText _) fun _ ↦ ?_
  exact raises_ite (raises_invalidArgument (by decide)) (raises_ok _)

private theorem raises_parseSide (type : KrakenBookMessageType) (b : Value) (side : Side)
    {key : Bytes} (hk : isAscii key = true) : Raises Failure.Plain (parseSide type b side key) := by
  unfold parseSide
  refine raises_ite (raises_ok _) ?_
  refine raises_bind (b.raises_atKey hk) fun levels ↦ ?_
  refine raises_bind levels.raises_getRefArray fun items ↦ ?_
  exact raises_mapM (raises_parseLevel type side) items

private theorem raises_parseBook (j : Value) (wall : ReceiveWallTimestamp)
    (mono : ReceiveMonotonicTimestamp) : Raises Failure.Plain (parseBook j wall mono) := by
  unfold parseBook
  refine raises_bind (j.raises_atKey (by decide)) fun type ↦ ?_
  refine raises_bind type.raises_getString fun text ↦ ?_
  refine raises_ite (raises_invalidArgument (by decide)) ?_
  refine raises_bind (j.raises_atKey (by decide)) fun data ↦ ?_
  split
  · next b =>
    refine raises_bind (b.raises_atKey (by decide)) fun checksum ↦ ?_
    refine raises_bind (raises_parseChecksum checksum) fun crc ↦ ?_
    refine raises_bind (b.raises_atKey (by decide)) fun symbol ↦ ?_
    refine raises_bind symbol.raises_getString fun name ↦ ?_
    refine raises_bind (raises_ite (raises_invalidArgument (by decide)) (raises_ok _))
      fun instrument ↦ ?_
    refine raises_bind (b.raises_atKey (by decide)) fun timestamp ↦ ?_
    refine raises_bind timestamp.raises_getString fun time ↦ ?_
    refine raises_bind (raises_parseTimestamp (by decide) time) fun exchangeTime ↦ ?_
    refine raises_bind (raises_parseSide _ b .bid (by decide)) fun bids ↦ ?_
    refine raises_bind (raises_parseSide _ b .ask (by decide)) fun asks ↦ ?_
    exact raises_ok _
  · exact raises_invalidArgument (by decide)

/-- Apart from the texts of `exact_json`, those of the parser are plain. -/
theorem raises_parseMessage {raw : Bytes} (h : Raises Legible (exactJson raw))
    (wall : ReceiveWallTimestamp) (mono : ReceiveMonotonicTimestamp) :
    Raises Legible (parseMessage raw wall mono) := by
  unfold parseMessage
  refine raises_bind h fun j ↦ Raises.mono ?_ legible_of_plain
  refine raises_ite (raises_invalidArgument (by decide)) ?_
  refine raises_bind (j.raises_valueString _ _) fun method ↦ ?_
  refine raises_ite (raises_parseSubscription j) ?_
  refine raises_bind (j.raises_atKey (by decide)) fun field ↦ ?_
  refine raises_bind field.raises_getString fun channel ↦ ?_
  exact raises_ite (raises_ok _) (raises_ite (raises_ok _) (raises_parseBook j wall mono))

/-! ### Refused subscriptions -/

/-- A text that the result carries is UTF-8. -/
def ParseResult.Utf8 : ParseResult → Prop
  | subscriptionFailure text => IsUtf8 text
  | error text => IsUtf8 text
  | _ => True

private theorem utf8_parseSubscription {j : Value} (hj : j.Utf8) {result : ParseResult}
    (h : parseSubscription j = .ok result) : result.Utf8 := by
  unfold parseSubscription at h
  obtain ⟨success, -, h⟩ := bind_ok h
  obtain ⟨accepted, -, h⟩ := bind_ok h
  split at h
  · obtain ⟨outer, -, h⟩ := bind_ok h
    obtain ⟨channel, -, h⟩ := bind_ok h
    obtain ⟨-, h⟩ := check_ok h
    obtain ⟨outer', -, h⟩ := bind_ok h
    obtain ⟨symbol, -, h⟩ := bind_ok h
    obtain ⟨-, h⟩ := check_ok h
    cases h
    trivial
  · obtain ⟨error, herror, h⟩ := bind_ok h
    cases h
    exact hj.valueString (by decide +kernel) herror

private theorem utf8_parseBook {j : Value} {wall : ReceiveWallTimestamp}
    {mono : ReceiveMonotonicTimestamp} {result : ParseResult}
    (h : parseBook j wall mono = .ok result) : result.Utf8 := by
  unfold parseBook at h
  obtain ⟨type, -, h⟩ := bind_ok h
  obtain ⟨text, -, h⟩ := bind_ok h
  obtain ⟨-, h⟩ := check_ok h
  obtain ⟨data, -, h⟩ := bind_ok h
  split at h
  · obtain ⟨checksum, -, h⟩ := bind_ok h
    obtain ⟨crc, -, h⟩ := bind_ok h
    obtain ⟨symbol, -, h⟩ := bind_ok h
    obtain ⟨name, -, h⟩ := bind_ok h
    obtain ⟨instrument, -, h⟩ := bind_ok h
    obtain ⟨timestamp, -, h⟩ := bind_ok h
    obtain ⟨time, -, h⟩ := bind_ok h
    obtain ⟨exchangeTime, -, h⟩ := bind_ok h
    obtain ⟨bids, -, h⟩ := bind_ok h
    obtain ⟨asks, -, h⟩ := bind_ok h
    cases h
    trivial
  · cases h

/-- A string of a parsed message is UTF-8, so the text of a refused subscription is, too. -/
theorem utf8_parseMessage {raw : Bytes} {wall : ReceiveWallTimestamp}
    {mono : ReceiveMonotonicTimestamp} {result : ParseResult}
    (h : parseMessage raw wall mono = .ok result) : result.Utf8 := by
  unfold parseMessage at h
  obtain ⟨j, hj, h⟩ := bind_ok h
  obtain ⟨text, -, hparse⟩ := bind_ok hj
  obtain ⟨-, h⟩ := check_ok h
  obtain ⟨method, -, h⟩ := bind_ok h
  split at h
  · exact utf8_parseSubscription (parse_utf8 hparse) h
  · obtain ⟨field, -, h⟩ := bind_ok h
    obtain ⟨channel, -, h⟩ := bind_ok h
    split at h
    · cases h
      trivial
    · split at h
      · cases h
        trivial
      · exact utf8_parseBook h

/-- If `exact_json` throws no other text, the text of the result is UTF-8. -/
theorem utf8_parse {raw : Bytes} (h : Raises Legible (exactJson raw)) (wall : ReceiveWallTimestamp)
    (mono : ReceiveMonotonicTimestamp) : (parse raw wall mono).Utf8 := by
  unfold parse
  split
  · next result hresult => exact utf8_parseMessage hresult
  · next failure hfailure => exact raises_parseMessage h wall mono failure hfailure

/-- An exception of `exact_json` is the error of the message. -/
theorem parse_throws {raw : Bytes} {failure : Failure} (h : exactJson raw = .error failure)
    (wall : ReceiveWallTimestamp) (mono : ReceiveMonotonicTimestamp) :
    parse raw wall mono = .error failure.what := by
  have hmessage : parseMessage raw wall mono = .error failure := by
    unfold parseMessage
    rw [h]
    rfl
  unfold parse
  rw [hmessage]

/-! ### The checksum book -/

private theorem raises_check (c : KrakenLevelChange) : Raises Failure.Plain c.check := by
  unfold KrakenLevelChange.check
  refine raises_ite (raises_invalidArgument (by decide)) ?_
  refine raises_bind (raises_decimalToken _) fun priceText ↦ ?_
  refine raises_bind (raises_parseDecimal priceText _) fun price ↦ ?_
  refine raises_ite (raises_invalidArgument (by decide)) ?_
  refine raises_bind (raises_decimalToken _) fun quantityText ↦ ?_
  refine raises_bind (raises_parseDecimal quantityText _) fun quantity ↦ ?_
  exact raises_ite (raises_invalidArgument (by decide)) (raises_ok _)

private theorem raises_applyChange (book : KrakenChecksumBook) (c : KrakenLevelChange) :
    Raises Failure.Plain (book.apply c) :=
  raises_bind (raises_check c) fun _ ↦ raises_ok _

private theorem raises_snapshotLoop (changes : List KrakenLevelChange)
    (seen : List (Side × PriceTicks)) (next : KrakenChecksumBook) :
    Raises Failure.Plain (KrakenChecksumBook.snapshotLoop changes seen next) := by
  induction changes generalizing seen next with
  | nil => exact raises_ok _
  | cons c rest ih =>
    rw [KrakenChecksumBook.snapshotLoop]
    refine raises_ite (raises_invalidArgument (by decide)) ?_
    exact raises_bind (raises_applyChange next c) fun book ↦ ih _ book

private theorem raises_checksum (crc : Bytes → UInt32) (book : KrakenChecksumBook) :
    Raises Failure.Plain (book.checksum crc) := by
  have hdigits (token : Bytes) : Raises Failure.Plain (checksumDigits token) :=
    raises_bind (raises_decimalToken token) fun _ ↦ raises_ok _
  have htext (c : KrakenLevelChange) : Raises Failure.Plain c.checksumText :=
    raises_bind (hdigits _) fun _ ↦ raises_bind (hdigits _) fun _ ↦ raises_ok _
  have hten {cmp : PriceTicks → PriceTicks → Ordering} [TransCmp cmp] (levels : KrakenLevels cmp) :
      Raises Failure.Plain (topTen levels) := by
    refine raises_bind (raises_mapM (fun level ↦ ?_) _) fun _ ↦ raises_ok _
    exact htext level.2
  exact raises_bind (hten book.asks) fun _ ↦ raises_bind (hten book.bids) fun _ ↦ raises_ok _

/-! ### The processor -/

namespace KrakenBookProcessor

private theorem raises_stage (p : KrakenBookProcessor) (m : KrakenBookMessage) :
    Raises Failure.Plain (p.stage m) := by
  unfold stage
  refine raises_ite (raises_invalidArgument (by decide)) ?_
  split
  · exact raises_bind (raises_snapshotLoop m.changes [] .empty) fun _ ↦ raises_ok _
  · exact raises_bind (raises_foldlM raises_applyChange _ _) fun _ ↦ raises_ok _

private theorem raises_candidate (next : KrakenChecksumBook) (m : KrakenBookMessage) :
    Raises Failure.Plain (candidate next m) := by
  unfold candidate
  refine raises_ite (raises_invalidArgument (by decide)) ?_
  exact raises_ite (raises_invalidArgument (by decide)) (raises_ok _)

private theorem isUtf8_verify (p : KrakenBookProcessor) (m : KrakenBookMessage)
    (next : KrakenChecksumBook) (crc : UInt32) (hp : IsUtf8 p.error) :
    IsUtf8 (p.verify m next crc).1.error := by
  unfold verify
  dsimp only
  split
  · show IsUtf8 (ascii "Kraken checksum mismatch")
    decide +kernel
  · split
    · next failure hfailure =>
      exact legible_of_plain failure (raises_candidate next m failure hfailure)
    · exact hp

private theorem isUtf8_apply (crc : Bytes → UInt32) (p : KrakenBookProcessor)
    (m : KrakenBookMessage) (hp : IsUtf8 p.error) : IsUtf8 (p.apply crc m).1.error := by
  have hcount : IsUtf8 (p.countBook m.type).error := by
    cases m.type <;> exact hp
  unfold apply
  dsimp only
  split
  · exact hcount
  · split
    · next failure hfailure =>
      exact legible_of_plain failure (raises_stage _ m failure hfailure)
    · next next _ =>
      split
      · next failure hfailure =>
        exact legible_of_plain failure (raises_checksum crc next failure hfailure)
      · exact isUtf8_verify _ m next _ hcount

/-- The error that a message leaves is UTF-8 exactly if `exact_json` throws no other text. -/
theorem isUtf8_process_iff (crc : Bytes → UInt32) (p : KrakenBookProcessor) (raw : Bytes)
    (wall : ReceiveWallTimestamp) (mono : ReceiveMonotonicTimestamp) :
    IsUtf8 (p.process crc raw wall mono).1.error ↔ Raises Legible (exactJson raw) := by
  constructor
  · intro herror failure hfailure
    unfold process at herror
    rw [parse_throws hfailure] at herror
    exact herror
  · intro h
    have hresult := utf8_parse h wall mono
    unfold process
    generalize parse raw wall mono = result at hresult
    cases result with
    | book m => exact isUtf8_apply crc _ m isUtf8_nil
    | heartbeat | subscriptionSuccess | ignored => exact isUtf8_nil
    | subscriptionFailure error => exact hresult
    | error error => exact hresult

/-- A message that is processed well has made `exact_json` throw nothing. -/
theorem raises_of_process {crc : Bytes → UInt32} {p : KrakenBookProcessor} {raw : Bytes}
    {wall : ReceiveWallTimestamp} {mono : ReceiveMonotonicTimestamp}
    (h : (p.process crc raw wall mono).2 = true) (P : Failure → Prop) :
    Raises P (exactJson raw) := by
  intro failure hfailure
  unfold process at h
  rw [parse_throws hfailure] at h
  cases h

end KrakenBookProcessor

end ArbitrageEngine.Kraken
