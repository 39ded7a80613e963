import ArbitrageEngine.Coinbase.MessageHandler
import ArbitrageEngine.Json.Encoding

/-!
# The texts of Coinbase errors

`src/adapters/coinbase/{coinbase_l2_parser,coinbase_message_handler}.cpp`: what a message leaves
as the text of its error. Every text is fixed, names a key, quotes the whole message or comes
from the JSON parser, and only the parser quotes a part of the message.
-/

namespace ArbitrageEngine.Coinbase

open Base ArbitrageEngine.Core Json Recording

/-- An exception of the JSON parser is the error of the message. -/
theorem parse_throws (symbols : CoinbaseSymbolMapper) {raw : Bytes} {failure : Failure}
    (h : Json.parse raw = .error failure) (wall : ReceiveWallTimestamp)
    (mono : ReceiveMonotonicTimestamp) :
    parse symbols raw wall mono = ⟨.error, [], failure.what, none, false⟩ := by
  have hheader : messageHeader raw = .error failure := by
    unfold messageHeader
    rw [h]
    rfl
  unfold parse
  rw [hheader]

/-- If the JSON parser throws no other text, the error of a UTF-8 message is UTF-8. -/
theorem isUtf8_parse_error (symbols : CoinbaseSymbolMapper) {raw : Bytes} (hraw : IsUtf8 raw)
    (hp : Raises Legible (Json.parse raw)) (wall : ReceiveWallTimestamp)
    (mono : ReceiveMonotonicTimestamp) : IsUtf8 (parse symbols raw wall mono).error := by
  have hquoted : Legible ⟨.invalidArgument, ascii "explicit Coinbase error: " ++ raw⟩ :=
    IsUtf8.append (by decide +kernel) hraw
  unfold parse
  cases hheader : messageHeader raw with
  | error failure => exact raises_messageHeader legible_of_plain hp hquoted failure hheader
  | ok header =>
    obtain ⟨message, channel⟩ := header
    dsimp only
    cases hsequence : sequenceField message (decide (channel = ascii "l2_data")) with
    | error failure =>
      exact legible_of_plain failure (raises_sequenceField message _ failure hsequence)
    | ok sequence =>
      dsimp only
      split
      · exact isUtf8_nil
      · cases hevents : parseEvents symbols wall mono sequence message with
        | error failure =>
          exact legible_of_plain failure
            (raises_parseEvents symbols wall mono sequence message failure hevents)
        | ok events => exact isUtf8_nil

namespace Feed

/-- The error text that `process` leaves, returned or thrown. -/
def errorText : Except Failure ProcessResult → Bytes
  | .ok result => result.error
  | .error failure => failure.what

private theorem isUtf8_fail (feed : Feed) (result : ProcessResult) (outcome : MessageOutcome)
    {error : Bytes} (h : isAscii error = true) :
    IsUtf8 (errorText (feed.fail result outcome error).2) :=
  isUtf8_of_isAscii h

private theorem isUtf8_applyL2 (feed : Feed) (parsed : CoinbaseParseResult) {result : ProcessResult}
    (hr : result.error = []) (envelope : RawMessage) (now : ReceiveMonotonicTimestamp) :
    IsUtf8 (errorText (feed.applyL2 parsed result envelope now).2) := by
  have hresult : IsUtf8 result.error := hr ▸ isUtf8_nil
  unfold applyL2
  dsimp only
  split
  · exact isUtf8_fail _ _ _ (by decide)
  · split
    · exact hresult
    · split
      · exact isUtf8_fail _ _ _ (by decide)
      · exact hresult

private theorem isUtf8_dispatch (feed : Feed) (parsed : CoinbaseParseResult)
    {result : ProcessResult} (hr : result.error = []) (envelope : RawMessage)
    (now : ReceiveMonotonicTimestamp) (hp : Raises Legible (Json.parse envelope.payload)) :
    IsUtf8 (errorText (feed.dispatch parsed result envelope now).2) := by
  have hresult : IsUtf8 result.error := hr ▸ isUtf8_nil
  unfold dispatch
  split
  · split
    · next failure hfailure =>
      exact raises_parseHeartbeat legible_of_plain hp _ _ failure hfailure
    · exact hresult
    · exact hresult
  · split
    · exact hresult
    · exact feed.isUtf8_applyL2 parsed hr envelope now

/-- The error text of a UTF-8 message is UTF-8 exactly if the JSON parser throws no other. -/
theorem isUtf8_process_iff (symbols : CoinbaseSymbolMapper) (feed : Feed) (envelope : RawMessage)
    (now : ReceiveMonotonicTimestamp) (hraw : IsUtf8 envelope.payload) :
    IsUtf8 (errorText (feed.process symbols envelope now).2) ↔
      Raises Legible (Json.parse envelope.payload) := by
  constructor
  · intro htext failure hfailure
    have hparsed := parse_throws symbols hfailure envelope.receiveWallTime
      envelope.receiveMonotonicTime
    unfold process parseEnvelope at htext
    rw [hparsed] at htext
    exact htext
  · intro hp
    have hnil (events : List MarketEvent) : (describe events).error = [] := rfl
    unfold process
    dsimp only
    split
    · exact isUtf8_parse_error symbols hraw hp _ _
    · split
      · exact isUtf8_dispatch _ _ (hnil _) envelope now hp
      · split
        · exact isUtf8_nil
        · exact isUtf8_nil
        · exact isUtf8_fail _ _ _ (by decide)
        · exact isUtf8_dispatch _ _ (hnil _) envelope now hp
        · exact isUtf8_dispatch _ _ (hnil _) envelope now hp

end Feed

end ArbitrageEngine.Coinbase
