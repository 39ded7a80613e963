import ArbitrageEngine.Coinbase.MessagePipeline
import ArbitrageEngine.Session.CoinbaseReplay
import ArbitrageEngine.Session.KrakenReplay
import ArbitrageEngine.Session.Validation

/-!
# Replays from end to end

`src/session/session.cpp`: `sessions::replay` as a whole, from the manifest to the published
result. `src/main.cpp`: `--replay FILE`, which runs the legacy pipeline over a bare recording.
Files do not change while they are read: the second read of a raw file gives what the first one
gave, and the checksums are compared once.
-/

namespace ArbitrageEngine.Sessions

open Base ArbitrageEngine.Core Coinbase Json Kraken Pipeline Recording

/-- The records of a raw file (`src/session/session.cpp:381–382,503–504`). -/
def rawRecords (file : Bytes) : List RawMessage :=
  ((RawEventReader.create (some file)).readAll (file.length + 1)).1

/-! ### Sessions -/

/-- A session that has passed the validation. -/
structure OpenSession where
  /-- The bytes of the manifest. -/
  text : Bytes
  manifest : Value
  validated : Validated
  status : SessionStatus
  /-- The bytes of the raw file. -/
  file : Bytes

/-- The `status` of a manifest. -/
def sessionStatus (manifest : Value) : Except Failure SessionStatus := do
  let status ← (← manifest.atKey (ascii "status")).getString
  match statuses.find? (statusName · = status) with
  | some status => return status
  | none => runtimeError "unknown session status"

/-- `replay` up to its record loops, with what they read (`src/session/session.cpp:246–352`). -/
def openSession (env : Surroundings) (allowIncomplete : Bool) (final inProgress : Option Bytes) :
    Except Failure OpenSession := do
  let text ← openManifest allowIncomplete final inProgress
  let manifest ← Json.parse text
  let validated ← validateManifest env allowIncomplete manifest
  let status ← sessionStatus manifest
  let (_, file) ← checkRawFile env manifest validated.venue
  return ⟨text, manifest, validated, status, file⟩

/-- The symbols with the recorded precision (`src/session/session.cpp:453–457`). -/
def recordedSymbols (manifest : Value) : Except Failure CoinbaseSymbolMapper := do
  let products ← manifest.atKey (ascii "product_metadata")
  let precision ← products.atKey (ascii "coinbase:BTC-USD")
  let price ← precision.atKey (ascii "price_scale")
  let quantity ← precision.atKey (ascii "quantity_scale")
  return ⟨[(ascii "BTC-USD",
    ⟨.btcUsd, UInt8.ofNat price.getUint64, UInt8.ofNat quantity.getUint64⟩)]⟩

/-- `lifecycle` (`src/session/session.cpp:358,474`). -/
def lifecycleEvents (manifest : Value) : Value :=
  (manifest.find? (ascii "lifecycle_events")).getD (.array [])

/-- `lifecycle[lifecycle_index]` where `apply_lifecycle` comes to the first event. The validation
has gone through the values of an object as well, which have no numbers
(`src/session/session.cpp:368–369,481–482`). -/
def indexLifecycle (manifest : Value) : Except Failure Unit := do
  if (lifecycleEvents manifest).size ≠ 0 then
    let _ ← (lifecycleEvents manifest).numbered

/-- What the branch of a venue has come to. -/
inductive Branch
  | coinbase (replay : CoinbaseReplay)
  | kraken (replay : KrakenReplay)

namespace OpenSession

/-- The records that the loops read. -/
def records (session : OpenSession) : List RawMessage := rawRecords session.file

/-- The record loop of the session's venue, with its end. Both loops begin with `apply_lifecycle`;
the depth of the processor has passed `kraken_configuration`
(`src/session/session.cpp:353–405,449–549`). -/
def branch (crc : Bytes → UInt32) (session : OpenSession) : Except Failure Branch :=
  match session.validated.venue with
  | .kraken => do
    indexLifecycle session.manifest
    let replay ← replayKraken crc session.validated.depth session.status session.records
      session.validated.lifecycle
    return .kraken replay
  | .coinbase => do
    let symbols ← recordedSymbols session.manifest
    indexLifecycle session.manifest
    let replay ← replayCoinbase symbols session.status session.records session.validated.lifecycle
    return .coinbase replay

end OpenSession

/-! ### Results -/

/-- `contents` of the Coinbase branch (`src/session/session.cpp:550–557`). -/
def coinbaseContents (book : OrderBook) : BookContents :=
  ⟨rawLevels book.bids, rawLevels book.asks, bookName book.state, book.lastSequence⟩

/-- The levels of one side (`src/session/session.cpp:411–414,554–557`). -/
def levelsValue (levels : List (Nat × Nat)) : Value :=
  .array (levels.map fun (price, quantity) ↦
    .array [.numberInteger price, .numberInteger quantity])

/-- The object of the hashed book (`src/session/session.cpp:407–410,550–553`). -/
def contentsValue (contents : BookContents) : Value :=
  objectOf
    [(ascii "bids", levelsValue contents.bids),
      (ascii "asks", levelsValue contents.asks),
      (ascii "state", .string contents.state),
      (ascii "book_sequence", optionalIndex contents.bookSequence)]

/-- The object of a state change (`src/session/session.cpp:362–365,469–472`). -/
def transitionValue (transition : StateTransition) : Value :=
  objectOf
    [(ascii "record_index", uint64 transition.recordIndex),
      (ascii "from", .string (bookName transition.old)),
      (ascii "to", .string (bookName transition.new)),
      (ascii "reason", .string transition.reason)]

/-- The price of a best level (`src/session/session.cpp:430–433,558`). -/
def bestValue (level : Option BookLevel) : Value :=
  (level.map fun level ↦ .numberInteger level.price.raw).getD .null

/-- `outcome_name` (`src/adapters/coinbase/coinbase_message_handler.cpp:4–24`). -/
def outcomeName : MessageOutcome → Bytes
  | .bookUpdated => ascii "BookUpdated"
  | .ignored => ascii "Ignored"
  | .duplicate => ascii "Duplicate"
  | .outOfOrder => ascii "OutOfOrder"
  | .sequenceGap => ascii "SequenceGap"
  | .parseError => ascii "ParseError"
  | .recordingRejected => ascii "RecordingRejected"
  | .applyError => ascii "ApplyError"

/-- The values of `MessageOutcome`
(`include/adapters/coinbase/coinbase_message_handler.hpp:12–21`). -/
def messageOutcomes : List MessageOutcome :=
  [.bookUpdated, .ignored, .duplicate, .outOfOrder, .sequenceGap, .parseError, .recordingRejected,
    .applyError]

/-- The fields that only a Coinbase result has (`src/session/session.cpp:567–574`). -/
def coinbaseFields (replay : CoinbaseReplay) : List (Bytes × Value) :=
  let count := fun outcome ↦ uint64 (replay.outcomes outcome)
  [(ascii "outcomes", objectOf (messageOutcomes.map fun outcome ↦
    (outcomeName outcome, count outcome))),
    (ascii "book_messages", count .bookUpdated),
    (ascii "ignored_messages", count .ignored),
    (ascii "snapshots", uint64 replay.snapshots),
    (ascii "updates", uint64 replay.updates),
    (ascii "sequence_gaps", count .sequenceGap),
    (ascii "connection_boundaries", uint64 replay.boundaries),
    (ascii "final_sequence", optionalIndex replay.feed.sequence.last)]

/-- The fields that only a Kraken result has (`src/session/session.cpp:423–427`). -/
def krakenResultFields (replay : KrakenReplay) : List (Bytes × Value) :=
  let texts := replay.outcomes.map fun outcome ↦ (outcome.map ProcessOutcome.text).getD []
  [(ascii "outcomes", objectOf (texts.map fun text ↦ (text, uint64 (texts.count text)))),
    (ascii "metrics", metricsValue replay.processor.metrics),
    (ascii "checksum", uint64 replay.processor.checksum.toNat),
    (ascii "final_sequence", .null)]

namespace Branch

/-- The final book. -/
def book : Branch → OrderBook
  | coinbase replay => replay.feed.book
  | kraken replay => replay.processor.book

/-- `contents`. -/
def contents : Branch → BookContents
  | coinbase replay => coinbaseContents replay.feed.book
  | kraken replay => krakenContents replay.processor.book

/-- `count`. -/
def count : Branch → Nat
  | coinbase replay => replay.count
  | kraken replay => replay.count

/-- `transitions`. -/
def transitions : Branch → Value
  | coinbase replay => .array (replay.transitions.map transitionValue)
  | kraken replay => .array (replay.transitions.map transitionValue)

/-- The fields of the venue. -/
def fields : Branch → List (Bytes × Value)
  | coinbase replay => coinbaseFields replay
  | kraken replay => krakenResultFields replay

end Branch

/-- `result` without its own hash, given the texts that are hashed
(`src/session/session.cpp:415–436,559–582`). -/
def resultFields (env : Surroundings) (session : OpenSession) (branch : Branch)
    (sessionId configHash : Value) (bookText transitionText : Bytes) : List (Bytes × Value) :=
  [(ascii "format_version", .numberInteger 1),
    (ascii "source_session_id", sessionId),
    (ascii "source_manifest_sha256", .string (env.sha256 session.text)),
    (ascii "source_raw_sha256", .string (env.sha256 session.file)),
    (ascii "configuration_hash", configHash),
    (ascii "complete_source", .boolean session.validated.complete),
    (ascii "research_valid", .boolean session.validated.complete),
    (ascii "messages_read", uint64 branch.count),
    (ascii "final_book_state", .string (bookName branch.book.state)),
    (ascii "final_bid_levels", uint64 branch.book.bids.size),
    (ascii "final_ask_levels", uint64 branch.book.asks.size),
    (ascii "final_best_bid", bestValue branch.book.bestBid),
    (ascii "final_best_ask", bestValue branch.book.bestAsk),
    (ascii "final_book_hash", .string (env.sha256 bookText)),
    (ascii "state_transitions", branch.transitions),
    (ascii "state_transition_hash", .string (env.sha256 transitionText))] ++ branch.fields

/-- The end of `replay`: the result, which can be published
(`src/session/session.cpp:437–446,583–592`). -/
def replayResult (env : Surroundings) (includeFinalBook : Bool) (session : OpenSession)
    (branch : Branch) : Except Failure Value := do
  let sessionId ← session.manifest.atKey (ascii "session_id")
  let configHash ← session.manifest.atKey (ascii "configuration_hash")
  let contents := contentsValue branch.contents
  let bookText ← dump none contents
  let transitionText ← dump none branch.transitions
  let fields := resultFields env session branch sessionId configHash bookText transitionText
  let canonical ← dump none (objectOf (fields.filter (fun field ↦
    field.1 ∉ [ascii "source_session_id", ascii "source_manifest_sha256"]) ++
      [(ascii "final_book", contents)]))
  let result := objectOf (fields ++
    [(ascii "deterministic_result_hash", .string (env.sha256 canonical))] ++
    if includeFinalBook then [(ascii "final_book", contents)] else [])
  let _ ← publish result
  return result

/-- `sessions::replay`: the result that is published (`src/session/session.cpp:246–594`). -/
def replay (env : Surroundings) (crc : Bytes → UInt32) (allowIncomplete includeFinalBook : Bool)
    (final inProgress : Option Bytes) : Except Failure Value := do
  let session ← openSession env allowIncomplete final inProgress
  let branch ← session.branch crc
  replayResult env includeFinalBook session branch

section Success

variable {env : Surroundings} {crc : Bytes → UInt32} {allowIncomplete includeFinalBook : Bool}
variable {final inProgress : Option Bytes} {session : OpenSession} {branch : Branch}
  {result : Value}

/-- A replay runs the branch of its session. -/
theorem replay_ok (hopen : openSession env allowIncomplete final inProgress = .ok session)
    (h : replay env crc allowIncomplete includeFinalBook final inProgress = .ok result) :
    ∃ branch, session.branch crc = .ok branch ∧
      replayResult env includeFinalBook session branch = .ok result := by
  unfold replay at h
  obtain ⟨opened, hopened, h⟩ := bind_ok h
  obtain rfl : opened = session := Except.ok.inj (hopened.symm.trans hopen)
  exact bind_ok h

/-- The branch of a Coinbase session. -/
theorem branch_coinbase (hvenue : session.validated.venue = .coinbase)
    (h : session.branch crc = .ok branch) :
    ∃ symbols replay, recordedSymbols session.manifest = .ok symbols ∧
      branch = .coinbase replay ∧
      replayCoinbase symbols session.status session.records session.validated.lifecycle =
        .ok replay := by
  unfold OpenSession.branch at h
  rw [hvenue] at h
  obtain ⟨symbols, hsymbols, h⟩ := bind_ok h
  obtain ⟨-, -, h⟩ := bind_ok h
  obtain ⟨replay, hreplay, h⟩ := bind_ok h
  cases h
  exact ⟨symbols, replay, hsymbols, rfl, hreplay⟩

/-- The branch of a Kraken session. -/
theorem branch_kraken (hvenue : session.validated.venue = .kraken)
    (h : session.branch crc = .ok branch) :
    indexLifecycle session.manifest = .ok () ∧ ∃ replay, branch = .kraken replay ∧
      replayKraken crc session.validated.depth session.status session.records
        session.validated.lifecycle = .ok replay := by
  unfold OpenSession.branch at h
  rw [hvenue] at h
  obtain ⟨⟨⟩, hindex, h⟩ := bind_ok h
  obtain ⟨replay, hreplay, h⟩ := bind_ok h
  cases h
  exact ⟨hindex, replay, rfl, hreplay⟩

end Success

/-- The mark of a result (`src/session/session.cpp:421,565`). -/
def researchValid (result : Value) : Bool :=
  match result.find? (ascii "research_valid") with
  | some (.boolean valid) => valid
  | _ => false

/-! ### Bare recordings -/

/-- The variables of `--replay FILE` (`src/main.cpp:166–168`). -/
structure LegacyReplay where
  pipeline : CoinbaseMessagePipeline
  connectionId : Nat

namespace LegacyReplay

/-- The variables at their declaration (`src/main.cpp:166–168`). -/
def initial : LegacyReplay := ⟨.create, 0⟩

/-- The loop's body for a record of Coinbase that is in order (`src/main.cpp:175–180`). -/
def replayRecord (replay : LegacyReplay) (record : RawMessage) : LegacyReplay :=
  let pipeline :=
    if record.connectionId ≠ replay.connectionId then replay.pipeline.resetConnection
    else replay.pipeline
  ⟨(pipeline.process true record.payload record.receiveWallTime record.receiveMonotonicTime).1,
    record.connectionId⟩

/-- The loop, and whether it has come to the end of the records (`src/main.cpp:169–181`). -/
def loop (replay : LegacyReplay) : List RawMessage → CoinbaseMessagePipeline × Bool
  | [] => (replay.pipeline, true)
  | record :: records =>
    if record.venue ≠ .coinbase ∨ record.connectionId < replay.connectionId then
      replay.pipeline.fail (ascii "expected ordered Coinbase connection IDs")
    else (replay.replayRecord record).loop records

end LegacyReplay

/-- The pipeline behind the loop; `readError` is the reader's error once it has read everything, and
empty if there is none. A loop that was left has not come to it (`src/main.cpp:165–183`). -/
def legacyReplay (records : List RawMessage) (readError : Bytes) : CoinbaseMessagePipeline :=
  match LegacyReplay.initial.loop records with
  | (pipeline, true) => if readError ≠ [] then (pipeline.fail readError).1 else pipeline
  | (pipeline, false) => pipeline

end ArbitrageEngine.Sessions
