import ArbitrageEngine.Kraken.ChecksumBook

/-!
# The Kraken book processor

`src/adapters/kraken/{kraken_book_processor,kraken_subscription}.cpp`. Every book message
is staged on a copy of the checksum book; both books are installed together, or neither.
-/

namespace ArbitrageEngine.Kraken

open Base Base.TreeMap Std ArbitrageEngine.Core

/-- The depths that `validate_depth` lets pass (`src/adapters/kraken/kraken_subscription.cpp:5`). -/
def supportedDepths : List Nat := [10, 25, 100, 500, 1000]

/-- `metrics_`, without the common `kraken_` of its keys; its counters are `std::uint64_t`
(`src/adapters/kraken/kraken_book_processor.cpp:6–9`). -/
structure KrakenMetrics where
  messages : UInt64
  snapshots : UInt64
  updates : UInt64
  heartbeats : UInt64
  subscriptionErrors : UInt64
  parseErrors : UInt64
  checksumValidations : UInt64
  checksumFailures : UInt64
  reconnects : UInt64
  recoverySnapshots : UInt64
  validTime : UInt64
  invalidTime : UInt64
  staleTime : UInt64
  deriving DecidableEq, Repr

/-- The texts of `outcome` (`src/adapters/kraken/kraken_book_processor.cpp:42–112`). -/
inductive ProcessOutcome
  | heartbeat
  | subscriptionSuccess
  | ignored
  | subscriptionFailure
  | parseError
  | awaitingSnapshot
  | checksumMismatch
  | snapshot
  | update
  | applyError
  deriving DecidableEq, Repr

/-- The text of an outcome (`src/adapters/kraken/kraken_book_processor.cpp:42–112`). -/
def ProcessOutcome.text : ProcessOutcome → Bytes
  | heartbeat => ascii "Heartbeat"
  | subscriptionSuccess => ascii "SubscriptionSuccess"
  | ignored => ascii "Ignored"
  | subscriptionFailure => ascii "SubscriptionFailure"
  | parseError => ascii "ParseError"
  | awaitingSnapshot => ascii "AwaitingSnapshot"
  | checksumMismatch => ascii "ChecksumMismatch"
  | snapshot => ascii "Snapshot"
  | update => ascii "Update"
  | applyError => ascii "ApplyError"

/-- `KrakenBookProcessor`; its constructor has validated the depth
(`include/adapters/kraken/kraken_book_processor.hpp:7–33`). -/
@[ext]
structure KrakenBookProcessor where
  depth : Nat
  supported : depth ∈ supportedDepths
  checksumBook : KrakenChecksumBook
  book : OrderBook
  metrics : KrakenMetrics
  checksum : UInt32
  hadSnapshot : Bool
  previousTime : Option ReceiveMonotonicTimestamp
  /-- Empty until the first message. -/
  outcome : Option ProcessOutcome
  error : Bytes
  lastMessage : Option ReceiveMonotonicTimestamp
  lastHeartbeat : Option ReceiveMonotonicTimestamp

namespace KrakenBookProcessor

/-- The constructor (`src/adapters/kraken/kraken_book_processor.cpp:4–10`). -/
def create (depth : Nat) : Except Failure KrakenBookProcessor :=
  if h : depth ∈ supportedDepths then
    .ok ⟨depth, h, .empty, OrderBook.create .kraken .btcUsd,
      ⟨0, 0, 0, 0, 0, 0, 0, 0, 0, 0, 0, 0, 0⟩,
      0, false, none, none, [], none, none⟩
  else invalidArgument "unsupported Kraken depth"

/-- `outcome` as a string (`include/adapters/kraken/kraken_book_processor.hpp:21`). -/
def outcomeText (p : KrakenBookProcessor) : Bytes :=
  match p.outcome with
  | some outcome => outcome.text
  | none => []

/-- A call that only sets the book's state
(`include/adapters/kraken/kraken_book_processor.hpp:14–16`). -/
def mark (p : KrakenBookProcessor) (state : BookState) : KrakenBookProcessor :=
  { p with book := p.book.mark state }

/-- `stale` (`src/adapters/kraken/kraken_book_processor.cpp:27`). -/
def stale (p : KrakenBookProcessor) : KrakenBookProcessor := p.mark .stale

/-- `invalidate` (`include/adapters/kraken/kraken_book_processor.hpp:15`). -/
def invalidate (p : KrakenBookProcessor) : KrakenBookProcessor := p.mark .invalid

/-- `disconnect` (`include/adapters/kraken/kraken_book_processor.hpp:16`). -/
def disconnect (p : KrakenBookProcessor) : KrakenBookProcessor := p.mark .disconnected

/-- `reset_connection` (`src/adapters/kraken/kraken_book_processor.cpp:21–26`). -/
def resetConnection (p : KrakenBookProcessor) : KrakenBookProcessor :=
  { p.mark .initializing with
    metrics := { p.metrics with reconnects := p.metrics.reconnects + 1 }
    lastMessage := none
    lastHeartbeat := none }

/-- The difference of two readings, a `std::int64_t` that is added to a `std::uint64_t`
(`src/adapters/kraken/kraken_book_processor.cpp:16–17`). -/
def elapsed (previous now : ReceiveMonotonicTimestamp) : UInt64 :=
  (Int64.ofInt now.nanoseconds - Int64.ofInt previous.nanoseconds).toUInt64

/-- The time since the previous message goes to the counter of the book's state
(`src/adapters/kraken/kraken_book_processor.cpp:12–18`). -/
def elapse (metrics : KrakenMetrics) (state : BookState) (elapsed : UInt64) : KrakenMetrics :=
  match state with
  | .valid => { metrics with validTime := metrics.validTime + elapsed }
  | .stale => { metrics with staleTime := metrics.staleTime + elapsed }
  | _ => { metrics with invalidTime := metrics.invalidTime + elapsed }

/-- `advance` (`src/adapters/kraken/kraken_book_processor.cpp:11–20`). -/
def advance (p : KrakenBookProcessor) (now : ReceiveMonotonicTimestamp) : KrakenBookProcessor :=
  let metrics :=
    match p.previousTime with
    | some previous =>
      if previous.nanoseconds ≤ now.nanoseconds then
        elapse p.metrics p.book.state (elapsed previous now)
      else p.metrics
    | none => p.metrics
  { p with metrics, previousTime := some now }

/-! ### Book messages -/

/-- The copy of the checksum book that `apply` stages, before it checks anything
(`src/adapters/kraken/kraken_book_processor.cpp:78–84`). -/
def stage (p : KrakenBookProcessor) (m : KrakenBookMessage) :
    Except Failure KrakenChecksumBook := do
  if m.instrument ≠ .btcUsd then invalidArgument "wrong instrument"
  let next ←
    match m.type with
    | .snapshot => KrakenChecksumBook.replaceSnapshot m.changes
    | .update => m.changes.foldlM KrakenChecksumBook.apply p.checksumBook
  return next.truncate p.depth

/-- The snapshot that `apply` builds from a staged book
(`src/adapters/kraken/kraken_book_processor.cpp:95–101`). -/
def canonicalSnapshot (next : KrakenChecksumBook) (m : KrakenBookMessage) : BookSnapshot :=
  ⟨.kraken, m.instrument, next.levels, m.exchangeTime, m.receiveWallTime, m.receiveMonotonicTime,
    none⟩

/-- `candidate.best_bid()->price >= candidate.best_ask()->price`
(`src/adapters/kraken/kraken_book_processor.cpp:103–104`). -/
def bestCrossed (book : OrderBook) : Bool :=
  match book.bestBid, book.bestAsk with
  | some bid, some ask => ask.price.raw ≤ bid.price.raw
  | _, _ => false

/-- The canonical book of a staged one (`src/adapters/kraken/kraken_book_processor.cpp:94–105`). -/
def candidate (next : KrakenChecksumBook) (m : KrakenBookMessage) : Except Failure OrderBook := do
  let (candidate, applied) :=
    (OrderBook.create .kraken m.instrument).applySnapshot (canonicalSnapshot next m)
  if !applied then invalidArgument "invalid canonical snapshot"
  if candidate.hasTwoSidedMarket && bestCrossed candidate then
    invalidArgument "crossed Kraken book"
  return candidate

/-- The count at the start of `apply` (`src/adapters/kraken/kraken_book_processor.cpp:70`). -/
def countBook (p : KrakenBookProcessor) : KrakenBookMessageType → KrakenBookProcessor
  | .snapshot => { p with metrics := { p.metrics with snapshots := p.metrics.snapshots + 1 } }
  | .update => { p with metrics := { p.metrics with updates := p.metrics.updates + 1 } }

/-- The handler of `apply` (`src/adapters/kraken/kraken_book_processor.cpp:114–119`). -/
def applyError (p : KrakenBookProcessor) (failure : Failure) : KrakenBookProcessor :=
  { p.invalidate with error := failure.what, outcome := some .applyError }

/-- `apply` on a checksum that does not match
(`src/adapters/kraken/kraken_book_processor.cpp:88–92`). -/
def checksumMismatch (p : KrakenBookProcessor) : KrakenBookProcessor :=
  { p.invalidate with
    metrics := { p.metrics with checksumFailures := p.metrics.checksumFailures + 1 }
    outcome := some .checksumMismatch
    error := ascii "Kraken checksum mismatch" }

/-- `apply` once nothing can fail any more
(`src/adapters/kraken/kraken_book_processor.cpp:106–113`). -/
def install (p : KrakenBookProcessor) (m : KrakenBookMessage) (next : KrakenChecksumBook)
    (book : OrderBook) (crc : UInt32) : KrakenBookProcessor :=
  { p with
    metrics := { p.metrics with
      recoverySnapshots := p.metrics.recoverySnapshots +
        if m.type = .snapshot && p.hadSnapshot then 1 else 0 }
    hadSnapshot := true
    book
    checksumBook := next
    checksum := crc
    outcome := some (match m.type with | .snapshot => .snapshot | .update => .update) }

/-- `apply` from the comparison of the checksums on
(`src/adapters/kraken/kraken_book_processor.cpp:85–113`). -/
def verify (p : KrakenBookProcessor) (m : KrakenBookMessage) (next : KrakenChecksumBook)
    (crc : UInt32) : KrakenBookProcessor × Bool :=
  let p := { p with
    metrics := { p.metrics with checksumValidations := p.metrics.checksumValidations + 1 } }
  if crc ≠ m.checksum then (p.checksumMismatch, false)
  else
    match candidate next m with
    | .error failure => (p.applyError failure, false)
    | .ok book => (p.install m next book crc, true)

/-- `apply` (`src/adapters/kraken/kraken_book_processor.cpp:65–120`). -/
def apply (crc : Bytes → UInt32) (p : KrakenBookProcessor) (m : KrakenBookMessage) :
    KrakenBookProcessor × Bool :=
  let p := p.countBook m.type
  if m.type = .update && p.book.state ≠ .valid then
    ({ p with outcome := some .awaitingSnapshot }, false)
  else
    match p.stage m with
    | .error failure => (p.applyError failure, false)
    | .ok next =>
      match next.checksum crc with
      | .error failure => (p.applyError failure, false)
      | .ok sum => p.verify m next sum

/-! ### Messages -/

/-- `process` before it parses (`src/adapters/kraken/kraken_book_processor.cpp:30–36`). -/
def receive (p : KrakenBookProcessor) (mono : ReceiveMonotonicTimestamp) : KrakenBookProcessor :=
  let p := p.advance mono
  { p with
    lastMessage := some mono
    metrics := { p.metrics with messages := p.metrics.messages + 1 }
    error := [] }

/-- `process` on the parser's result (`src/adapters/kraken/kraken_book_processor.cpp:38–63`). -/
def dispatch (crc : Bytes → UInt32) (p : KrakenBookProcessor) (mono : ReceiveMonotonicTimestamp) :
    ParseResult → KrakenBookProcessor × Bool
  | .heartbeat =>
    ({ p with
      metrics := { p.metrics with heartbeats := p.metrics.heartbeats + 1 }
      lastHeartbeat := some mono
      outcome := some .heartbeat }, true)
  | .subscriptionSuccess => ({ p with outcome := some .subscriptionSuccess }, true)
  | .ignored => ({ p with outcome := some .ignored }, true)
  | .subscriptionFailure error =>
    ({ p.invalidate with
      metrics := { p.metrics with subscriptionErrors := p.metrics.subscriptionErrors + 1 }
      outcome := some .subscriptionFailure
      error }, false)
  | .error error =>
    ({ p.invalidate with
      metrics := { p.metrics with parseErrors := p.metrics.parseErrors + 1 }
      outcome := some .parseError
      error }, false)
  | .book m => p.apply crc m

/-- `process` (`src/adapters/kraken/kraken_book_processor.cpp:28–64`). -/
def process (crc : Bytes → UInt32) (p : KrakenBookProcessor) (raw : Bytes)
    (wall : ReceiveWallTimestamp) (mono : ReceiveMonotonicTimestamp) : KrakenBookProcessor × Bool :=
  (p.receive mono).dispatch crc mono (parse raw wall mono)

end KrakenBookProcessor

end ArbitrageEngine.Kraken
