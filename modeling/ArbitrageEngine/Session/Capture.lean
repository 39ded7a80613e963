import ArbitrageEngine.Json.Access
import ArbitrageEngine.Kraken.BookProcessor
import ArbitrageEngine.Pipeline.RuntimeStatus
import ArbitrageEngine.Recording.RawEventReader
import ArbitrageEngine.Session.Manifest

/-!
# The manifest of a capture

`src/session/session.cpp`: `Capture`, with the texts that it publishes. The texts that come from
the build and the clock are parameters, and so is SHA-256. Writing a file succeeds here or the
call does not return.
-/

namespace ArbitrageEngine.Sessions

open Base ArbitrageEngine.Core Coinbase Json Kraken Pipeline Recording

/-! ### Parts of a manifest -/

/-- The switch of `Capture::finalize`: `status` and `final_runtime_state`
(`src/session/session.cpp:182–205`). -/
def outcomeOf : RuntimeState → Except Failure (SessionStatus × Bytes)
  | .starting | .running | .stopping => runtimeError "cannot finalize running recorder"
  | .stopped => .ok (.complete, ascii "Stopped")
  | .stoppedRecordingError => .ok (.recordingFailure, ascii "StoppedRecordingError")
  | .stoppedQueueFull => .ok (.queueOverflow, ascii "StoppedQueueFull")
  | .stoppedProcessingError => .ok (.processingFailure, ascii "StoppedProcessingError")

/-- A runtime that is no longer active has an outcome. -/
theorem outcomeOf_isOk {state : RuntimeState} (h : state.isActive = false) :
    ∃ outcome, outcomeOf state = .ok outcome := by
  cases state with
  | starting | running | stopping => cases h
  | stopped => exact ⟨_, rfl⟩
  | stoppedRecordingError => exact ⟨_, rfl⟩
  | stoppedQueueFull => exact ⟨_, rfl⟩
  | stoppedProcessingError => exact ⟨_, rfl⟩

/-- The texts of `status` (`src/session/session.cpp:185–202`). -/
def statusName : SessionStatus → Bytes
  | .inProgress => ascii "in_progress"
  | .complete => ascii "complete"
  | .recordingFailure => ascii "recording_failure"
  | .queueOverflow => ascii "queue_overflow"
  | .processingFailure => ascii "processing_failure"
  | .interrupted => ascii "interrupted"

/-- A `std::uint64_t` in a manifest; the counters of the model do not wrap around. -/
def uint64 (n : Nat) : Value := .numberUnsigned (n % 2 ^ 64)

/-- `optional` (`src/session/session.cpp:86`). -/
def optionalIndex : Option Nat → Value
  | some index => uint64 index
  | none => .null

/-- The object of a lifecycle event (`src/session/session.cpp:208–210`). -/
def eventValue (event : LifecycleEvent) : Value :=
  objectOf
    [(ascii "before_record_index", uint64 event.beforeRecordIndex),
      (ascii "state", .string (bookName event.state)),
      (ascii "reason", .string event.reason)]

/-- `product_metadata`; both venues have the same precision (`src/session/session.cpp:143,152`). -/
def productMetadata (product : Bytes) : Value :=
  objectOf [(product,
    objectOf [(ascii "price_scale", .numberInteger 2), (ascii "quantity_scale", .numberInteger 8)])]

/-- `configuration`: its fields in the order of their assignments
(`src/session/session.cpp:139–145`). -/
def configuration : List (Bytes × Value) :=
  [(ascii "venues", .array [.string (ascii "coinbase")]),
    (ascii "instruments", .array [.string (ascii "BTC-USD")]),
    (ascii "product_metadata", productMetadata (ascii "coinbase:BTC-USD")),
    (ascii "processor_version", .numberInteger 1)]

/-- The fields of `kraken_configuration` (`src/session/session.cpp:148–153`). -/
def krakenFields (depth : Nat) : List (Bytes × Value) :=
  [(ascii "venues", .array [.string (ascii "kraken")]),
    (ascii "instruments", .array [.string (ascii "BTC_USD")]),
    (ascii "venue_symbols", objectOf [(ascii "kraken:BTC_USD", .string (ascii "BTC/USD"))]),
    (ascii "subscriptions",
      objectOf [(ascii "kraken:BTC_USD",
        objectOf [(ascii "channel", .string (ascii "book")), (ascii "depth", uint64 depth)])]),
    (ascii "product_metadata", productMetadata (ascii "kraken:BTC_USD")),
    (ascii "processor_version", .numberInteger 1)]

/-- `kraken_configuration` (`src/session/session.cpp:146–154`). -/
def krakenConfiguration (depth : Nat) : Except Failure (List (Bytes × Value)) :=
  if depth ∈ supportedDepths then .ok (krakenFields depth)
  else invalidArgument "unsupported Kraken depth"

/-- The configuration of a venue (`src/session/session.cpp:164,272`). -/
def configurationOf (depth : Nat) : KnownVenue → Except Failure (List (Bytes × Value))
  | .kraken => krakenConfiguration depth
  | .coinbase => .ok configuration

/-- `metrics()` of the Kraken processor (`src/adapters/kraken/kraken_book_processor.cpp:6–9`). -/
def metricsValue (metrics : KrakenMetrics) : Value :=
  objectOf
    [(ascii "kraken_messages", uint64 metrics.messages.toNat),
      (ascii "kraken_snapshots", uint64 metrics.snapshots.toNat),
      (ascii "kraken_updates", uint64 metrics.updates.toNat),
      (ascii "kraken_heartbeats", uint64 metrics.heartbeats.toNat),
      (ascii "kraken_subscription_errors", uint64 metrics.subscriptionErrors.toNat),
      (ascii "kraken_parse_errors", uint64 metrics.parseErrors.toNat),
      (ascii "kraken_checksum_validations", uint64 metrics.checksumValidations.toNat),
      (ascii "kraken_checksum_failures", uint64 metrics.checksumFailures.toNat),
      (ascii "kraken_reconnects", uint64 metrics.reconnects.toNat),
      (ascii "kraken_recovery_snapshots", uint64 metrics.recoverySnapshots.toNat),
      (ascii "kraken_valid_time", uint64 metrics.validTime.toNat),
      (ascii "kraken_invalid_time", uint64 metrics.invalidTime.toNat),
      (ascii "kraken_stale_time", uint64 metrics.staleTime.toNat)]

/-! ### Raw files -/

/-- `Scan` (`src/session/session.cpp:104–107`). -/
structure Scan where
  records : Nat
  connections : Nat
  deriving DecidableEq, Repr

/-- `scan`: the records of a file, all of one venue (`src/session/session.cpp:108–120`). -/
def scan (file : Bytes) (venue : KnownVenue) : Except Failure Scan :=
  let (messages, reader) := (RawEventReader.create (some file)).readAll (file.length + 1)
  if messages.any (·.venue ≠ venue) then runtimeError "unexpected venue"
  else if reader.hasError then .error ⟨.runtimeError, reader.lastError⟩
  else .ok ⟨messages.length % 2 ^ 64, (messages.map RawMessage.connectionId).dedup.length⟩

/-- `raw_files[0].path` (`src/session/session.cpp:174`). -/
def rawPath (venue : KnownVenue) : Bytes := ascii "raw/" ++ venueName venue ++ ascii ".jsonl"

/-! ### Captures -/

/-- The texts from the build, the clock and the file system. -/
structure Labels where
  sessionId : Bytes
  startedAt : Bytes
  gitCommit : Bytes
  buildType : Bytes
  os : Bytes
  architecture : Bytes
  deriving DecidableEq, Repr

/-- `Capture`: the fields of `manifest_`, with those of `raw_files[0]` apart
(`include/session/session.hpp:16–28`). -/
structure Capture where
  venue : KnownVenue
  fields : List (Bytes × Value)
  raw : List (Bytes × Value)

/-- `publish`: the text of the file (`src/session/session.cpp:60`). -/
def publish (value : Value) : Except Failure Bytes := do
  let text ← dump (some 2) value
  return text ++ [0x0A]

namespace Capture

/-- `manifest_` (`include/session/session.hpp:27`). -/
def manifest (capture : Capture) : Value :=
  .object (insertField (ascii "raw_files") (.array [.object capture.raw]) capture.fields)

/-- The fields that the constructor adds to the configuration
(`src/session/session.cpp:166–174`). -/
def startFields (labels : Labels) (configHash : Bytes) : List (Bytes × Value) :=
  [(ascii "format_version", .numberInteger 1),
    (ascii "session_id", .string labels.sessionId),
    (ascii "status", .string (statusName .inProgress)),
    (ascii "started_at_utc", .string labels.startedAt),
    (ascii "application",
      objectOf [(ascii "git_commit", .string labels.gitCommit),
        (ascii "build_type", .string labels.buildType)]),
    (ascii "platform",
      objectOf [(ascii "os", .string labels.os),
        (ascii "architecture", .string labels.architecture)]),
    (ascii "configuration_hash", .string configHash)]

/-- The constructor behind the check of the venue's name; `isNew` is `create_directory`
(`src/session/session.cpp:155–176`). -/
def create (sha256 : Bytes → Bytes) (venue : KnownVenue) (depth : Nat) (isNew : Bool)
    (labels : Labels) :
    Except Failure Capture := do
  if !isNew then runtimeError "session directory must be new"
  let config ← configurationOf depth venue
  let text ← dump none (objectOf config)
  let capture := {
    venue
    fields := insertFields (startFields labels (sha256 text)) (insertFields config [])
    raw := insertFields
      [(ascii "venue", .string (venueName venue)), (ascii "path", .string (rawPath venue))] [] }
  let _ ← publish capture.manifest
  return capture

/-- `set_metrics`, which only `run_kraken` calls: with an empty object if nothing was published
(`include/session/session.hpp:20`). -/
def setMetrics (capture : Capture) (metrics : Option KrakenMetrics) : Capture :=
  { capture with
    fields := insertField (ascii "metrics") ((metrics.map metricsValue).getD (.object []))
      capture.fields }

/-- `set_final_book_hash`, which is called with a text that is not empty
(`include/session/session.hpp:21`). -/
def setFinalBookHash (capture : Capture) : Option Bytes → Capture
  | some hash =>
    { capture with fields := insertField (ascii "final_book_hash") (.string hash) capture.fields }
  | none => capture

/-! ### The end of a capture -/

/-- The fields that `finalize` takes over from the status (`src/session/session.cpp:206–220`). -/
def statusFields (status : RuntimeStatus) (endedAt runtime : Bytes) : List (Bytes × Value) :=
  [(ascii "lifecycle_events", .array (status.lifecycleEvents.map eventValue)),
    (ascii "final_runtime_state", .string runtime),
    (ascii "ended_at_utc", .string endedAt),
    (ascii "stop_reason", .string (status.fatalError.getD (ascii "requested_shutdown"))),
    (ascii "last_received_index", optionalIndex status.progress.lastReceivedIndex),
    (ascii "last_enqueued_index", optionalIndex status.progress.lastEnqueuedIndex),
    (ascii "last_written_index", optionalIndex status.progress.lastWrittenIndex),
    (ascii "last_processed_index", optionalIndex status.progress.lastProcessedIndex),
    (ascii "unpersisted_records",
      uint64 (status.receivedMessages + (2 ^ 64 - status.writtenMessages % 2 ^ 64))),
    (ascii "unpersisted_processed_tail", .boolean (status.unpersistedProcessedRange ≠ []))]

/-- The metadata of a raw file that exists (`src/session/session.cpp:223–227`). -/
def rawFields (sha256 : Bytes → Bytes) (status : RuntimeStatus) (file : Bytes) :
    List (Bytes × Value) :=
  [(ascii "bytes", uint64 file.length),
    (ascii "sha256", .string (sha256 file)),
    (ascii "records", uint64 status.writtenMessages),
    (ascii "first_record_index",
      if status.writtenMessages % 2 ^ 64 ≠ 0 then .numberInteger 0 else .null),
    (ascii "last_record_index", optionalIndex status.progress.lastWrittenIndex)]

/-- `connections` and the status after the scan of the raw file. A scan that throws leaves
`connections` as it is (`src/session/session.cpp:228–239`). -/
def scanned (venue : KnownVenue) (status : RuntimeStatus) (outcome : SessionStatus) :
    Option Bytes → List (Bytes × Value) × SessionStatus
  | some file =>
    match scan file venue with
    | .ok result =>
      ([(ascii "connections", uint64 result.connections)],
        if result.records ≠ status.writtenMessages % 2 ^ 64 then .recordingFailure else outcome)
    | .error _ => ([], .recordingFailure)
  | none => ([(ascii "connections", .numberInteger 0)], outcome)

/-- The last check on the status (`src/session/session.cpp:240–242`). -/
def settledStatus (status : RuntimeStatus) (outcome : SessionStatus) : SessionStatus :=
  if outcome = .complete ∧ (status.fatalError ≠ none ∨
      status.receivedMessages % 2 ^ 64 ≠ status.writtenMessages % 2 ^ 64) then .recordingFailure
  else outcome

/-- The capture with the fields of `finalize`, given the raw file if there is one
(`src/session/session.cpp:206–242`). -/
def withStatus (sha256 : Bytes → Bytes) (capture : Capture) (endedAt : Bytes) (file : Option Bytes)
    (status : RuntimeStatus) (outcome : SessionStatus) (runtime : Bytes) : Capture :=
  let result := scanned capture.venue status outcome file
  { capture with
    fields := insertFields
      (statusFields status endedAt runtime ++ result.1 ++
        [(ascii "status", .string (statusName (settledStatus status result.2)))]) capture.fields
    raw := insertFields ((file.map (rawFields sha256 status)).getD []) capture.raw }

/-- `finalize` up to `publish` (`src/session/session.cpp:180–242`). -/
def finalized (sha256 : Bytes → Bytes) (capture : Capture) (endedAt : Bytes) (file : Option Bytes)
    (status : RuntimeStatus) : Except Failure Capture := do
  let (outcome, runtime) ← outcomeOf status.runtimeState
  return capture.withStatus sha256 endedAt file status outcome runtime

/-- `finalize`: the text of `manifest.json` (`src/session/session.cpp:180–243`). -/
def finalize (sha256 : Bytes → Bytes) (capture : Capture) (endedAt : Bytes) (file : Option Bytes)
    (status : RuntimeStatus) : Except Failure Bytes := do
  let final ← capture.finalized sha256 endedAt file status
  publish final.manifest

end Capture

end ArbitrageEngine.Sessions
