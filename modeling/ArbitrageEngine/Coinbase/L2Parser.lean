import ArbitrageEngine.Core.Timestamp
import ArbitrageEngine.Json.Parser

/-!
# Coinbase message parsers

`src/adapters/coinbase/{coinbase_symbol_mapper,coinbase_l2_parser,coinbase_heartbeat_parser}.cpp`.
The parser converts its own exceptions into an error result; `parse_heartbeat` lets
them out.
-/

namespace ArbitrageEngine.Coinbase

open Base ArbitrageEngine.Core Json

/-! ### Products -/

/-- `CoinbaseProductConfig` (`include/adapters/coinbase/coinbase_symbol_mapper.hpp:13–17`). -/
structure CoinbaseProductConfig where
  instrument : Instrument
  priceScale : UInt8
  quantityScale : UInt8
  deriving DecidableEq, Repr

/-- `CoinbaseSymbolMapper`: its products by symbol
(`include/adapters/coinbase/coinbase_symbol_mapper.hpp:19–29`). -/
structure CoinbaseSymbolMapper where
  products : List (Bytes × CoinbaseProductConfig)
  deriving DecidableEq, Repr

namespace CoinbaseSymbolMapper

/-- The default constructor (`src/adapters/coinbase/coinbase_symbol_mapper.cpp:8–9`). -/
def default : CoinbaseSymbolMapper := ⟨[(ascii "BTC-USD", ⟨.btcUsd, 2, 8⟩)]⟩

/-- `lookup` (`src/adapters/coinbase/coinbase_symbol_mapper.cpp:19–25`). -/
def lookup (symbols : CoinbaseSymbolMapper) (product : Bytes) : Option CoinbaseProductConfig :=
  (symbols.products.find? fun entry ↦ entry.1 = product).map Prod.snd

end CoinbaseSymbolMapper

/-! ### Level-two messages -/

/-- `ParseStatus` (`include/adapters/coinbase/coinbase_l2_parser.hpp:13`). -/
inductive ParseStatus
  | parsed
  | ignored
  | error
  deriving DecidableEq, Repr

/-- `CoinbaseParseResult` (`include/adapters/coinbase/coinbase_l2_parser.hpp:15–24`). -/
structure CoinbaseParseResult where
  status : ParseStatus
  events : List MarketEvent
  error : Bytes
  sequence : Option Nat
  heartbeatChannel : Bool
  deriving DecidableEq, Repr

/-- `string_field` (`src/adapters/coinbase/coinbase_l2_parser.cpp:15–17`). -/
def stringField (object : Value) (key : String) : Except Failure Bytes := do
  (← object.atKey (ascii key)).getRefString

/-- The optional string field of a message, empty when it is absent
(`src/adapters/coinbase/coinbase_l2_parser.cpp:99–104`). -/
def optionalField (message : Value) (key : String) : Except Failure Bytes :=
  if message.contains (ascii key) then stringField message key else .ok []

/-- The start of `parse`: the decoded message and its channel
(`src/adapters/coinbase/coinbase_l2_parser.cpp:92–108`). -/
def messageHeader (raw : Bytes) : Except Failure (Value × Bytes) := do
  let message ← Json.parse raw
  if !message.isObject then invalidArgument "expected message object"
  if !message.contains (ascii "channel") && !message.contains (ascii "type") then
    invalidArgument "message requires channel or type"
  let channel ← optionalField message "channel"
  let type ← optionalField message "type"
  if type = ascii "error" || channel = ascii "error" then
    throw ⟨.invalidArgument, ascii "explicit Coinbase error: " ++ raw⟩
  return (message, channel)

/-- The envelope sequence: required for level-two messages, optional otherwise
(`src/adapters/coinbase/coinbase_l2_parser.cpp:109–115`). -/
def sequenceField (message : Value) (l2 : Bool) : Except Failure (Option Nat) :=
  if l2 || message.contains (ascii "sequence_num") then do
    match ← message.atKey (ascii "sequence_num") with
    | .numberUnsigned value => .ok (some value)
    | .numberInteger value =>
      if 0 ≤ value then .ok (some value.toNat)
      else invalidArgument "sequence_num must be a nonnegative uint64 integer"
    | _ => invalidArgument "sequence_num must be a nonnegative uint64 integer"
  else .ok none

/-- One entry of `updates` (`src/adapters/coinbase/coinbase_l2_parser.cpp:139–152`). -/
def parseLevel (config : CoinbaseProductConfig) (update : Value) : Except Failure BookLevel := do
  let side ← stringField update "side"
  if side ≠ ascii "bid" ∧ side ≠ ascii "offer" then invalidArgument "unknown Coinbase L2 side"
  let _ ← parseTimestamp "invalid Coinbase UTC timestamp" (← stringField update "event_time")
  let price ← parsePrice (← stringField update "price_level") config.priceScale.toNat
  let quantity ← parseQuantity (← stringField update "new_quantity") config.quantityScale.toNat
  return ⟨if side = ascii "bid" then .bid else .ask, price, quantity⟩

/-- One entry of `events` (`src/adapters/coinbase/coinbase_l2_parser.cpp:127–163`). -/
def parseEvent (symbols : CoinbaseSymbolMapper) (exchangeTime : ExchangeTimestamp)
    (receiveWallTime : ReceiveWallTimestamp) (receiveMonotonicTime : ReceiveMonotonicTimestamp)
    (sequence : Option Nat) (event : Value) : Except Failure MarketEvent := do
  let type ← stringField event "type"
  if type ≠ ascii "snapshot" ∧ type ≠ ascii "update" then
    invalidArgument "unknown Coinbase L2 event type"
  match symbols.lookup (← stringField event "product_id") with
  | none => invalidArgument "unsupported Coinbase product"
  | some config =>
    let updates ← (← event.atKey (ascii "updates")).getRefArray
    let levels ← updates.mapM (parseLevel config)
    if type = ascii "snapshot" then
      return .snapshot ⟨.coinbase, config.instrument, levels, exchangeTime, receiveWallTime,
        receiveMonotonicTime, sequence⟩
    else
      return .update ⟨.coinbase, config.instrument, levels, exchangeTime, receiveWallTime,
        receiveMonotonicTime, sequence⟩

/-- The level-two part of `parse` (`src/adapters/coinbase/coinbase_l2_parser.cpp:121–164`). -/
def parseEvents (symbols : CoinbaseSymbolMapper) (receiveWallTime : ReceiveWallTimestamp)
    (receiveMonotonicTime : ReceiveMonotonicTimestamp) (sequence : Option Nat) (message : Value) :
    Except Failure (List MarketEvent) := do
  let exchangeTime ←
    parseTimestamp "invalid Coinbase UTC timestamp" (← stringField message "timestamp")
  let events ← (← message.atKey (ascii "events")).getRefArray
  events.mapM (parseEvent symbols exchangeTime receiveWallTime receiveMonotonicTime sequence)

/-- `CoinbaseL2Parser::parse`. Its three `catch` clauses turn an exception into the error of what
was assigned so far; every class thrown in the block has its clause, see `specific_messageHeader`,
`raises_sequenceField` and `raises_parseEvents`
(`src/adapters/coinbase/coinbase_l2_parser.cpp:78–179`). -/
def parse (symbols : CoinbaseSymbolMapper) (rawMessage : Bytes)
    (receiveWallTime : ReceiveWallTimestamp) (receiveMonotonicTime : ReceiveMonotonicTimestamp) :
    CoinbaseParseResult :=
  let result : CoinbaseParseResult := ⟨.error, [], [], none, false⟩
  match messageHeader rawMessage with
  | .error failure => { result with error := failure.what }
  | .ok (message, channel) =>
    let l2 : Bool := channel = ascii "l2_data"
    let result := { result with heartbeatChannel := channel = ascii "heartbeats" }
    match sequenceField message l2 with
    | .error failure => { result with error := failure.what }
    | .ok sequence =>
      let result := { result with sequence }
      if !l2 then { result with status := .ignored }
      else
        match parseEvents symbols receiveWallTime receiveMonotonicTime sequence message with
        | .error failure => { result with error := failure.what }
        | .ok events => { result with events, status := .parsed }

/-! ### Heartbeats -/

/-- `core::Heartbeat` (`include/adapters/coinbase/coinbase_heartbeat_parser.hpp:8–13`). -/
structure Heartbeat where
  venue : Venue
  receiveWallTime : ReceiveWallTimestamp
  receiveMonotonicTime : ReceiveMonotonicTimestamp
  heartbeatCounter : Option Nat
  deriving DecidableEq, Repr

/-- `std::from_chars` of the whole text as `std::uint64_t`
(`src/adapters/coinbase/coinbase_heartbeat_parser.cpp:25–30`). -/
def fromChars (text : Bytes) : Option Nat :=
  if text ≠ [] ∧ text.all isDigit ∧ digitsValue text < 2 ^ 64 then some (digitsValue text) else none

/-- One turn of the loop over the heartbeat events
(`src/adapters/coinbase/coinbase_heartbeat_parser.cpp:16–33`). -/
def heartbeatEvent (counter : Option Nat) (event : Value) : Except Failure (Option Nat) :=
  if !event.isObject then invalidArgument "invalid heartbeat event"
  else
    match event.find? (ascii "heartbeat_counter") with
    | none => .ok counter
    | some (.numberUnsigned value) => .ok (some value)
    | some (.string text) =>
      match fromChars text with
      | some value => .ok (some value)
      | none => invalidArgument "invalid heartbeat counter"
    | some _ => invalidArgument "invalid heartbeat counter"

/-- `parse_heartbeat` (`src/adapters/coinbase/coinbase_heartbeat_parser.cpp:6–35`). -/
def parseHeartbeat (raw : Bytes) (wall : ReceiveWallTimestamp) (mono : ReceiveMonotonicTimestamp) :
    Except Failure (Option Heartbeat) := do
  let j ← Json.parse raw
  if (← j.valueString (ascii "channel") []) ≠ ascii "heartbeats" then return none
  match ← j.atKey (ascii "events") with
  | .array (first :: rest) =>
    let counter ← (first :: rest).foldlM heartbeatEvent none
    return some ⟨.coinbase, wall, mono, counter⟩
  | _ => invalidArgument "invalid heartbeat events"

/-! ### What the parsers throw -/

private theorem raises_stringField (object : Value) {key : String}
    (hk : isAscii (ascii key) = true) : Raises Failure.Plain (stringField object key) :=
  raises_bind (object.raises_atKey hk) Value.raises_getRefString

private theorem raises_timestamp (value : Bytes) :
    Raises Failure.Plain (parseTimestamp "invalid Coinbase UTC timestamp" value) :=
  raises_parseTimestamp (by decide) value

/-- The text for a bad sequence number is plain. -/
theorem raises_sequenceField (message : Value) (l2 : Bool) :
    Raises Failure.Plain (sequenceField message l2) := by
  unfold sequenceField
  refine raises_ite (raises_bind (message.raises_atKey (by decide)) fun field ↦ ?_) (raises_ok _)
  split
  · exact raises_ok _
  · exact raises_ite (raises_ok _) (raises_invalidArgument (by decide))
  · exact raises_invalidArgument (by decide)

private theorem raises_parseLevel (config : CoinbaseProductConfig) (update : Value) :
    Raises Failure.Plain (parseLevel config update) := by
  unfold parseLevel
  refine raises_bind (raises_stringField update (by decide)) fun side ↦ ?_
  refine raises_ite (raises_invalidArgument (by decide)) ?_
  refine raises_bind (raises_stringField update (by decide)) fun time ↦ ?_
  refine raises_bind (raises_timestamp time) fun _ ↦ ?_
  refine raises_bind (raises_stringField update (by decide)) fun price ↦ ?_
  refine raises_bind (raises_parseDecimal price _) fun _ ↦ ?_
  refine raises_bind (raises_stringField update (by decide)) fun quantity ↦ ?_
  exact raises_bind (raises_parseDecimal quantity _) fun _ ↦ raises_ok _

private theorem raises_parseEvent (symbols : CoinbaseSymbolMapper) (time : ExchangeTimestamp)
    (wall : ReceiveWallTimestamp) (mono : ReceiveMonotonicTimestamp) (sequence : Option Nat)
    (event : Value) :
    Raises Failure.Plain (parseEvent symbols time wall mono sequence event) := by
  unfold parseEvent
  refine raises_bind (raises_stringField event (by decide)) fun type ↦ ?_
  refine raises_ite (raises_invalidArgument (by decide)) ?_
  refine raises_bind (raises_stringField event (by decide)) fun product ↦ ?_
  split
  · exact raises_invalidArgument (by decide)
  · refine raises_bind (event.raises_atKey (by decide)) fun field ↦ ?_
    refine raises_bind field.raises_getRefArray fun updates ↦ ?_
    refine raises_bind (raises_mapM (raises_parseLevel _) updates) fun levels ↦ ?_
    exact raises_ite (raises_ok _) (raises_ok _)

/-- The texts for bad events are plain. -/
theorem raises_parseEvents (symbols : CoinbaseSymbolMapper) (wall : ReceiveWallTimestamp)
    (mono : ReceiveMonotonicTimestamp) (sequence : Option Nat) (message : Value) :
    Raises Failure.Plain (parseEvents symbols wall mono sequence message) := by
  unfold parseEvents
  refine raises_bind (raises_stringField message (by decide)) fun time ↦ ?_
  refine raises_bind (raises_timestamp time) fun exchangeTime ↦ ?_
  refine raises_bind (message.raises_atKey (by decide)) fun field ↦ ?_
  refine raises_bind field.raises_getRefArray fun events ↦ ?_
  exact raises_mapM (raises_parseEvent symbols _ _ _ _) events

private theorem raises_heartbeatEvent (counter : Option Nat) (event : Value) :
    Raises Failure.Plain (heartbeatEvent counter event) := by
  unfold heartbeatEvent
  refine raises_ite (raises_invalidArgument (by decide)) ?_
  split
  · exact raises_ok _
  · exact raises_ok _
  · split
    · exact raises_ok _
    · exact raises_invalidArgument (by decide)
  · exact raises_invalidArgument (by decide)

section Raises

variable {P : Failure → Prop} (hP : ∀ failure : Failure, failure.Plain → P failure)

include hP

/-- Apart from the text of the parser and the one that quotes the message, the texts are plain. -/
theorem raises_messageHeader {raw : Bytes} (hp : Raises P (Json.parse raw))
    (hr : P ⟨.invalidArgument, ascii "explicit Coinbase error: " ++ raw⟩) :
    Raises P (messageHeader raw) := by
  have hfield (message : Value) {key : String} (hk : isAscii (ascii key) = true) :
      Raises P (optionalField message key) :=
    raises_ite ((raises_stringField message hk).mono hP) (raises_ok _)
  unfold messageHeader
  refine raises_bind hp fun message ↦ ?_
  refine raises_ite (raises_invalidArgument (hP _ (by decide))) ?_
  refine raises_ite (raises_invalidArgument (hP _ (by decide))) ?_
  refine raises_bind (hfield message (by decide)) fun channel ↦ ?_
  refine raises_bind (hfield message (by decide)) fun type ↦ ?_
  exact raises_ite (raises_error hr) (raises_ok _)

/-- Apart from the text of the parser, the texts are plain. -/
theorem raises_parseHeartbeat {raw : Bytes} (hp : Raises P (Json.parse raw))
    (wall : ReceiveWallTimestamp) (mono : ReceiveMonotonicTimestamp) :
    Raises P (parseHeartbeat raw wall mono) := by
  unfold parseHeartbeat
  refine raises_bind hp fun j ↦ Raises.mono ?_ hP
  refine raises_bind (j.raises_valueString _ _) fun channel ↦ raises_ite (raises_ok _) ?_
  refine raises_bind (j.raises_atKey (by decide)) fun events ↦ ?_
  split
  · exact raises_bind (raises_foldlM raises_heartbeatEvent _ _) fun counter ↦ raises_ok _
  · exact raises_invalidArgument (by decide)

end Raises

private theorem specific_parse (raw : Bytes) : Raises Failure.Specific (Json.parse raw) :=
  raises_parse (fun name id text ↦ ⟨nofun, jsonFailure_what_ne_nil name id text⟩) raw

private theorem specific_messageHeader (raw : Bytes) :
    Raises Failure.Specific (messageHeader raw) := by
  refine raises_messageHeader (fun _ h ↦ h.1) (specific_parse raw) ⟨nofun, ?_⟩
  exact List.append_ne_nil_of_left_ne_nil (by decide) raw

/-- Every failure of `parse_heartbeat` has a text. -/
theorem specific_parseHeartbeat (raw : Bytes) (wall : ReceiveWallTimestamp)
    (mono : ReceiveMonotonicTimestamp) : Raises Failure.Specific (parseHeartbeat raw wall mono) :=
  raises_parseHeartbeat (fun _ h ↦ h.1) (specific_parse raw) wall mono

/-! ### What a parse result can be -/

private theorem sequenceField_l2 {message : Value} {sequence : Option Nat}
    (h : sequenceField message true = .ok sequence) : sequence.isSome = true := by
  unfold sequenceField at h
  rw [Bool.true_or, if_pos rfl] at h
  obtain ⟨field, -, hf⟩ := bind_ok h
  cases field with
  | numberUnsigned value =>
    cases hf
    rfl
  | numberInteger value =>
    dsimp only at hf
    split at hf
    · cases hf
      rfl
    · cases hf
  | null | boolean _ | numberFloat _ | string _ | array _ | object _ => cases hf

/-- The possible results of `parse`: an error always has a text, and only level-two messages,
which always carry a sequence number, have events. -/
theorem parse_cases (symbols : CoinbaseSymbolMapper) (raw : Bytes) (wall : ReceiveWallTimestamp)
    (mono : ReceiveMonotonicTimestamp) :
    ((parse symbols raw wall mono).status = .error ∧ (parse symbols raw wall mono).error ≠ [] ∧
        (parse symbols raw wall mono).events = []) ∨
      ((parse symbols raw wall mono).status = .ignored ∧
        (parse symbols raw wall mono).events = []) ∨
      ((parse symbols raw wall mono).status = .parsed ∧
        (parse symbols raw wall mono).heartbeatChannel = false ∧
        (parse symbols raw wall mono).sequence.isSome = true) := by
  unfold parse
  cases hh : messageHeader raw with
  | error failure => exact Or.inl ⟨rfl, (specific_messageHeader raw failure hh).2, rfl⟩
  | ok header =>
    obtain ⟨message, channel⟩ := header
    dsimp only
    cases hs : sequenceField message (decide (channel = ascii "l2_data")) with
    | error failure => exact Or.inl ⟨rfl, (raises_sequenceField _ _ failure hs).1.2, rfl⟩
    | ok sequence =>
      dsimp only
      by_cases hl : channel = ascii "l2_data"
      · subst hl
        simp only [decide_true, Bool.not_true, Bool.false_eq_true, ↓reduceIte]
        cases he : parseEvents symbols wall mono sequence message with
        | error failure => exact Or.inl ⟨rfl, (raises_parseEvents _ _ _ _ _ failure he).1.2, rfl⟩
        | ok events =>
          have hc : decide (ascii "l2_data" = ascii "heartbeats") = false := by decide
          exact Or.inr (Or.inr ⟨rfl, hc, sequenceField_l2 hs⟩)
      · simp [hl]

end ArbitrageEngine.Coinbase
