import ArbitrageEngine.Coinbase.L2Parser
import ArbitrageEngine.Core.OrderBookReference
import ArbitrageEngine.Core.SequenceTracker
import ArbitrageEngine.Recording.RawRecordingQueue

/-!
# Coinbase message processing

`src/adapters/coinbase/{coinbase_feed_health,coinbase_message_handler}.cpp`. The processor
works on the book, the sequence tracker and the feed health of its owner; an exception
leaves whatever it had changed before. Stage timings are not part of the model.
-/

namespace ArbitrageEngine.Coinbase

open Base ArbitrageEngine.Core Recording

/-! ### Feed health -/

/-- `FeedHealthConfig`, in milliseconds, with its defaults
(`include/adapters/coinbase/coinbase_feed_health.hpp:7–12`). -/
structure FeedHealthConfig where
  checkInterval : Int := 1000
  maxAnyMessageAge : Int := 5000
  maxHeartbeatAge : Int := 5000
  maxInstrumentMessageAge : Option Int := none
  deriving DecidableEq, Repr

/-- `FeedHealth` (`include/adapters/coinbase/coinbase_feed_health.hpp:13–23`). -/
structure FeedHealth where
  lastAnyMessage : Option ReceiveMonotonicTimestamp
  lastHeartbeat : Option ReceiveMonotonicTimestamp
  lastL2Message : Option ReceiveMonotonicTimestamp
  heartbeatCount : Nat
  heartbeatTimeouts : Nat
  sequenceGaps : Nat
  duplicateSequences : Nat
  outOfOrderSequences : Nat
  connectedAt : ReceiveMonotonicTimestamp
  deriving DecidableEq, Repr

namespace FeedHealth

/-- A new `FeedHealth`. -/
def initial : FeedHealth := ⟨none, none, none, 0, 0, 0, 0, 0, ⟨0⟩⟩

/-- `reset`: the counters stay (`src/adapters/coinbase/coinbase_feed_health.cpp:3–8`). -/
def reset (health : FeedHealth) (now : ReceiveMonotonicTimestamp) : FeedHealth :=
  { health with
    connectedAt := now
    lastAnyMessage := none
    lastHeartbeat := none
    lastL2Message := none }

/-- The `expired` lambda of `failure`; the limit is in milliseconds
(`src/adapters/coinbase/coinbase_feed_health.cpp:11–14`). -/
def expired (health : FeedHealth) (now : ReceiveMonotonicTimestamp)
    (last : Option ReceiveMonotonicTimestamp) (limit : Int) : Bool :=
  limit * 1000000 < now.nanoseconds - (last.getD health.connectedAt).nanoseconds

/-- `failure`: the reason why the feed is unusable, empty for none
(`src/adapters/coinbase/coinbase_feed_health.cpp:9–22`). -/
def failure (health : FeedHealth) (now : ReceiveMonotonicTimestamp) (config : FeedHealthConfig) :
    Bytes :=
  if health.expired now health.lastAnyMessage config.maxAnyMessageAge then
    ascii "No Coinbase messages"
  else if health.expired now health.lastHeartbeat config.maxHeartbeatAge then
    ascii "Coinbase heartbeat timeout"
  else
    match config.maxInstrumentMessageAge with
    | some limit =>
      if health.expired now health.lastL2Message limit then ascii "Coinbase instrument timeout"
      else []
    | none => []

end FeedHealth

/-! ### Results -/

/-- `MessageOutcome` (`include/adapters/coinbase/coinbase_message_handler.hpp:12–21`). -/
inductive MessageOutcome
  | bookUpdated
  | ignored
  | duplicate
  | outOfOrder
  | sequenceGap
  | parseError
  | recordingRejected
  | applyError
  deriving DecidableEq, Repr

/-- `ProcessResult` with its defaults; the latency is in nanoseconds
(`include/adapters/coinbase/coinbase_message_handler.hpp:23–32`). -/
structure ProcessResult where
  outcome : MessageOutcome := .ignored
  canonicalEventCount : Nat := 0
  numberOfChanges : Nat := 0
  containsSnapshot : Bool := false
  latency : Option Int := none
  snapshots : Nat := 0
  updates : Nat := 0
  error : Bytes := []
  deriving DecidableEq, Repr

/-- `RuntimeProgress` (`include/adapters/coinbase/coinbase_message_handler.hpp:33–36`). -/
structure RuntimeProgress where
  lastReceivedIndex : Option Nat := none
  lastEnqueuedIndex : Option Nat := none
  lastWrittenIndex : Option Nat := none
  lastProcessedIndex : Option Nat := none
  deriving DecidableEq, Repr

/-! ### The processor -/

/-- The parser call of `process` (`src/adapters/coinbase/coinbase_message_handler.cpp:74–76`). -/
def parseEnvelope (symbols : CoinbaseSymbolMapper) (envelope : RawMessage) : CoinbaseParseResult :=
  parse symbols envelope.payload envelope.receiveWallTime envelope.receiveMonotonicTime

/-- What `parse_envelope` returns: an error with its text, an ignored message, or a message of the
level-two channel with its events. -/
theorem parseEnvelope_cases (symbols : CoinbaseSymbolMapper) (envelope : RawMessage) :
    ((parseEnvelope symbols envelope).status = .error ∧
        (parseEnvelope symbols envelope).error ≠ [] ∧
        (parseEnvelope symbols envelope).events = []) ∨
      ((parseEnvelope symbols envelope).status = .ignored ∧
        (parseEnvelope symbols envelope).events = []) ∨
      ((parseEnvelope symbols envelope).status = .parsed ∧
        (parseEnvelope symbols envelope).heartbeatChannel = false ∧
        (parseEnvelope symbols envelope).sequence.isSome = true) :=
  parse_cases symbols _ _ _

/-- What a `CoinbaseMessageProcessor` refers to
(`include/adapters/coinbase/coinbase_message_handler.hpp:38–54`). -/
structure Feed where
  book : OrderBook
  sequence : SequenceTracker
  health : FeedHealth

namespace Feed

/-- The `fail` lambda of `process` (`src/adapters/coinbase/coinbase_message_handler.cpp:67–72`). -/
def fail (feed : Feed) (result : ProcessResult) (outcome : MessageOutcome) (error : Bytes) :
    Feed × Except Failure ProcessResult :=
  ({ feed with book := feed.book.mark .invalid }, .ok { result with outcome, error })

/-- The number of levels of an event. -/
def changesOf : MarketEvent → Nat
  | .snapshot event => event.levels.length
  | .update event => event.changes.length

/-- The part of the result that describes the parsed events
(`src/adapters/coinbase/coinbase_message_handler.cpp:79–87`). -/
def describe (events : List MarketEvent) : ProcessResult :=
  { canonicalEventCount := events.length
    numberOfChanges := (events.map changesOf).sum
    containsSnapshot := events.any MarketEvent.isSnapshot }

/-- The end of `process`, for a level-two message whose sequence number was accepted
(`src/adapters/coinbase/coinbase_message_handler.cpp:124–147`). -/
def applyL2 (feed : Feed) (parsed : CoinbaseParseResult) (result : ProcessResult)
    (envelope : RawMessage) (now : ReceiveMonotonicTimestamp) :
    Feed × Except Failure ProcessResult :=
  let feed := { feed with
    health := { feed.health with lastL2Message := some envelope.receiveMonotonicTime } }
  if feed.book.state ≠ .valid ∧ (parsed.events.head?.map MarketEvent.isSnapshot ≠ some true) then
    feed.fail result .applyError (ascii "L2 update before snapshot")
  else if parsed.events.isEmpty then (feed, .ok result)
  else
    match feed.book.applyEvents parsed.events with
    | (_, false) => feed.fail result .applyError (ascii "book rejected event")
    | (book, true) =>
      ({ feed with book }, .ok { result with
        snapshots := (parsed.events.filter MarketEvent.isSnapshot).length
        updates := (parsed.events.filter (!MarketEvent.isSnapshot ·)).length
        latency := some (now.nanoseconds - envelope.receiveMonotonicTime.nanoseconds)
        outcome := .bookUpdated })

/-- `process` after the sequence check
(`src/adapters/coinbase/coinbase_message_handler.cpp:111–147`). -/
def dispatch (feed : Feed) (parsed : CoinbaseParseResult) (result : ProcessResult)
    (envelope : RawMessage) (now : ReceiveMonotonicTimestamp) :
    Feed × Except Failure ProcessResult :=
  if parsed.heartbeatChannel then
    match parseHeartbeat envelope.payload envelope.receiveWallTime
      envelope.receiveMonotonicTime with
    | .error failure => (feed, .error failure)
    | .ok (some heartbeat) =>
      ({ feed with health := { feed.health with
          lastHeartbeat := some heartbeat.receiveMonotonicTime
          heartbeatCount := feed.health.heartbeatCount + 1 } }, .ok result)
    | .ok none => (feed, .ok result)
  else if parsed.status = .ignored then (feed, .ok result)
  else feed.applyL2 parsed result envelope now

/-- `CoinbaseMessageProcessor::process`; `now` is what its clock reads after an application
(`src/adapters/coinbase/coinbase_message_handler.cpp:65–148`). -/
def process (symbols : CoinbaseSymbolMapper) (feed : Feed) (envelope : RawMessage)
    (now : ReceiveMonotonicTimestamp) : Feed × Except Failure ProcessResult :=
  let feed := { feed with
    health := { feed.health with lastAnyMessage := some envelope.receiveMonotonicTime } }
  let parsed := parseEnvelope symbols envelope
  if parsed.status = .error then feed.fail {} .parseError parsed.error
  else
    let result := describe parsed.events
    match parsed.sequence with
    | none => feed.dispatch parsed result envelope now
    | some sequence =>
      let observed := feed.sequence.observe sequence
      let feed := { feed with sequence := observed.1 }
      match observed.2 with
      | .duplicate =>
        ({ feed with health := { feed.health with
            duplicateSequences := feed.health.duplicateSequences + 1 } },
          .ok { result with outcome := .duplicate })
      | .outOfOrder =>
        ({ feed with health := { feed.health with
            outOfOrderSequences := feed.health.outOfOrderSequences + 1 } },
          .ok { result with outcome := .outOfOrder })
      | .gap =>
        fail { feed with health := { feed.health with
            sequenceGaps := feed.health.sequenceGaps + 1 } }
          result .sequenceGap (ascii "Coinbase envelope sequence gap")
      | .first | .expected => feed.dispatch parsed result envelope now

/-! ### What processing can do -/

/-- The sequence check lets a message through and leaves this tracker. -/
inductive Accepts (tracker : SequenceTracker) : Option Nat → SequenceTracker → Prop
  | unsequenced : Accepts tracker none tracker
  | first (sequence : Nat) (h : tracker.last = none) :
      Accepts tracker (some sequence) ⟨some sequence⟩
  | next (sequence : Nat) (h : tracker.last = some sequence) :
      Accepts tracker (some (sequence + 1)) ⟨some (sequence + 1)⟩

/-- Every exit of `process`, with the feed and the result it leaves. -/
inductive Processed (symbols : CoinbaseSymbolMapper) (feed : Feed) (envelope : RawMessage) :
    Feed → Except Failure ProcessResult → Prop
  | failed (sequence : SequenceTracker) (health : FeedHealth) (result : ProcessResult)
      (outcome : result.outcome = .parseError ∨ result.outcome = .sequenceGap ∨
        result.outcome = .applyError)
      (error : result.error ≠ []) :
      Processed symbols feed envelope ⟨feed.book.mark .invalid, sequence, health⟩ (.ok result)
  | thrown (sequence : SequenceTracker) (health : FeedHealth) (failure : Failure)
      (status : (parseEnvelope symbols envelope).status ≠ .error)
      (accepts : Accepts feed.sequence (parseEnvelope symbols envelope).sequence sequence)
      (channel : (parseEnvelope symbols envelope).heartbeatChannel = true)
      (throws : parseHeartbeat envelope.payload envelope.receiveWallTime
        envelope.receiveMonotonicTime = .error failure) :
      Processed symbols feed envelope ⟨feed.book, sequence, health⟩ (.error failure)
  | skipped (health : FeedHealth) (result : ProcessResult)
      (outcome : result.outcome = .duplicate ∨ result.outcome = .outOfOrder)
      (error : result.error = []) :
      Processed symbols feed envelope ⟨feed.book, feed.sequence, health⟩ (.ok result)
  | quiet (sequence : SequenceTracker) (health : FeedHealth) (result : ProcessResult)
      (accepts : Accepts feed.sequence (parseEnvelope symbols envelope).sequence sequence)
      (events : (parseEnvelope symbols envelope).events = [])
      (outcome : result.outcome = .ignored) (error : result.error = []) :
      Processed symbols feed envelope ⟨feed.book, sequence, health⟩ (.ok result)
  | updated (book : OrderBook) (sequence : SequenceTracker) (health : FeedHealth)
      (result : ProcessResult)
      (accepts : Accepts feed.sequence (parseEnvelope symbols envelope).sequence sequence)
      (sequenced : (parseEnvelope symbols envelope).sequence.isSome = true)
      (anchored : feed.book.state = .valid ∨
        (parseEnvelope symbols envelope).events.head?.map MarketEvent.isSnapshot = some true)
      (events : (parseEnvelope symbols envelope).events ≠ [])
      (applied : feed.book.applyEvents (parseEnvelope symbols envelope).events = (book, true))
      (outcome : result.outcome = .bookUpdated) (error : result.error = []) :
      Processed symbols feed envelope ⟨book, sequence, health⟩ (.ok result)

private theorem applyL2_processed (symbols : CoinbaseSymbolMapper) (feed : Feed)
    (envelope : RawMessage) (now : ReceiveMonotonicTimestamp) (sequence : SequenceTracker)
    (health : FeedHealth) (result : ProcessResult)
    (hr : result.outcome = .ignored ∧ result.error = [])
    (ha : Accepts feed.sequence (parseEnvelope symbols envelope).sequence sequence)
    (hs : (parseEnvelope symbols envelope).sequence.isSome = true) :
    Processed symbols feed envelope
      (applyL2 ⟨feed.book, sequence, health⟩ (parseEnvelope symbols envelope) result envelope now).1
      (applyL2 ⟨feed.book, sequence, health⟩ (parseEnvelope symbols envelope) result
        envelope now).2 := by
  unfold applyL2
  dsimp only
  by_cases hb : feed.book.state ≠ .valid ∧
      (parseEnvelope symbols envelope).events.head?.map MarketEvent.isSnapshot ≠ some true
  · have ht : ascii "L2 update before snapshot" ≠ [] := by decide
    rw [if_pos hb]
    exact .failed _ _ _ (Or.inr (Or.inr rfl)) ht
  rw [if_neg hb]
  by_cases he : (parseEnvelope symbols envelope).events = []
  · rw [if_pos (by rw [he]; rfl)]
    exact .quiet _ _ _ ha he hr.1 hr.2
  rw [if_neg (by simpa using he)]
  have hanchor : feed.book.state = .valid ∨
      (parseEnvelope symbols envelope).events.head?.map MarketEvent.isSnapshot = some true := by
    by_contra hn
    exact hb (not_or.mp hn)
  cases happ : feed.book.applyEvents (parseEnvelope symbols envelope).events with
  | mk book accepted =>
    cases accepted with
    | false =>
      have ht : ascii "book rejected event" ≠ [] := by decide
      exact .failed _ _ _ (Or.inr (Or.inr rfl)) ht
    | true => exact .updated _ _ _ _ ha hs hanchor he happ rfl hr.2

private theorem dispatch_processed (symbols : CoinbaseSymbolMapper) (feed : Feed)
    (envelope : RawMessage) (now : ReceiveMonotonicTimestamp) (sequence : SequenceTracker)
    (health : FeedHealth) (result : ProcessResult)
    (hr : result.outcome = .ignored ∧ result.error = [])
    (he : (parseEnvelope symbols envelope).status ≠ .error)
    (ha : Accepts feed.sequence (parseEnvelope symbols envelope).sequence sequence) :
    Processed symbols feed envelope
      (dispatch ⟨feed.book, sequence, health⟩ (parseEnvelope symbols envelope) result
        envelope now).1
      (dispatch ⟨feed.book, sequence, health⟩ (parseEnvelope symbols envelope) result
        envelope now).2 := by
  rcases parseEnvelope_cases symbols envelope with h | ⟨hi, hev⟩ | ⟨hp, hc, hs⟩
  · exact absurd h.1 he
  · unfold dispatch
    split
    · next hc =>
      split
      · next failure hf => exact .thrown _ _ _ he ha hc hf
      · exact .quiet _ _ _ ha hev hr.1 hr.2
      · exact .quiet _ _ _ ha hev hr.1 hr.2
    · exact .quiet _ _ _ ha hev hr.1 hr.2
  · unfold dispatch
    rw [if_neg (by simp [hc]), if_neg (by simp [hp])]
    exact applyL2_processed symbols feed envelope now sequence health result hr ha hs

/-- `process` ends in one of the listed exits. -/
theorem process_processed (symbols : CoinbaseSymbolMapper) (feed : Feed) (envelope : RawMessage)
    (now : ReceiveMonotonicTimestamp) :
    Processed symbols feed envelope (feed.process symbols envelope now).1
      (feed.process symbols envelope now).2 := by
  unfold process
  dsimp only
  by_cases he : (parseEnvelope symbols envelope).status = .error
  · rw [if_pos he]
    refine .failed _ _ _ (Or.inl rfl) ?_
    rcases parseEnvelope_cases symbols envelope with h | h | h
    · exact h.2.1
    · exact absurd (h.1.symm.trans he) (by decide)
    · exact absurd (h.1.symm.trans he) (by decide)
  · rw [if_neg he]
    have hr (events : List MarketEvent) :
        (describe events).outcome = .ignored ∧ (describe events).error = [] := ⟨rfl, rfl⟩
    cases hs : (parseEnvelope symbols envelope).sequence with
    | none =>
      refine dispatch_processed symbols feed envelope now _ _ _ (hr _) he ?_
      rw [hs]
      exact .unsequenced
    | some sequence =>
      dsimp only
      generalize ho : feed.sequence.observe sequence = observed
      have hobs := feed.sequence.observe_observed sequence
      rw [ho] at hobs
      cases hobs with
      | first h =>
        refine dispatch_processed symbols feed envelope now _ _ _ (hr _) he ?_
        rw [hs]
        exact .first sequence h
      | expected last h hn =>
        refine dispatch_processed symbols feed envelope now _ _ _ (hr _) he ?_
        rw [hs, hn]
        exact .next last h
      | duplicate h => exact .skipped _ _ (Or.inl rfl) rfl
      | outOfOrder last h hn => exact .skipped _ _ (Or.inr rfl) rfl
      | gap last h hn =>
        have ht : ascii "Coinbase envelope sequence gap" ≠ [] := by decide
        exact .failed _ _ _ (Or.inr (Or.inl rfl)) ht

/-- What `process` does to the feed, whatever it returns. -/
theorem processed_of_process {symbols : CoinbaseSymbolMapper} {feed after : Feed}
    {envelope : RawMessage} {now : ReceiveMonotonicTimestamp}
    {outcome : Except Failure ProcessResult}
    (h : feed.process symbols envelope now = (after, outcome)) :
    Processed symbols feed envelope after outcome := by
  have hp := process_processed symbols feed envelope now
  rwa [h] at hp

/-- Processing never reports a rejected recording. -/
theorem Processed.outcome_ne_rejected {symbols : CoinbaseSymbolMapper} {feed after : Feed}
    {envelope : RawMessage} {result : ProcessResult}
    (h : Processed symbols feed envelope after (.ok result)) :
    result.outcome ≠ .recordingRejected := by
  cases h with
  | failed _ _ _ outcome _ => rcases outcome with h | h | h <;> simp [h]
  | skipped _ _ outcome _ => rcases outcome with h | h <;> simp [h]
  | quiet _ _ _ _ _ outcome _ => simp [outcome]
  | updated _ _ _ _ _ _ _ _ _ outcome _ => simp [outcome]

/-- An exception that leaves `process` has a text. -/
theorem Processed.what_ne_nil {symbols : CoinbaseSymbolMapper} {feed after : Feed}
    {envelope : RawMessage} {failure : Failure}
    (h : Processed symbols feed envelope after (.error failure)) : failure.what ≠ [] := by
  cases h with
  | thrown _ _ _ _ _ _ throws => exact (specific_parseHeartbeat _ _ _ failure throws).2

/-- The message is on the heartbeats channel, passes the parser and the sequence check, and
`parse_heartbeat` throws on it. -/
def HeartbeatThrows (symbols : CoinbaseSymbolMapper) (tracker : SequenceTracker)
    (envelope : RawMessage) : Prop :=
  (parseEnvelope symbols envelope).status ≠ .error ∧
    (∃ sequence, Accepts tracker (parseEnvelope symbols envelope).sequence sequence) ∧
    (parseEnvelope symbols envelope).heartbeatChannel = true ∧
    ∃ failure, parseHeartbeat envelope.payload envelope.receiveWallTime
      envelope.receiveMonotonicTime = .error failure

private theorem observe_of_accepts {tracker after : SequenceTracker} {sequence : Nat}
    (h : Accepts tracker (some sequence) after) :
    (tracker.observe sequence).2 = .first ∨ (tracker.observe sequence).2 = .expected := by
  unfold SequenceTracker.observe
  cases h with
  | first sequence h => simp [h]
  | next last h => simp [h]

/-- The only exceptions that leave `process` are those of `parse_heartbeat`. -/
theorem process_throws_iff (symbols : CoinbaseSymbolMapper) (feed : Feed) (envelope : RawMessage)
    (now : ReceiveMonotonicTimestamp) :
    (∃ failure, (feed.process symbols envelope now).2 = .error failure) ↔
      HeartbeatThrows symbols feed.sequence envelope := by
  constructor
  · rintro ⟨failure, hf⟩
    have hp := process_processed symbols feed envelope now
    rw [hf] at hp
    generalize (feed.process symbols envelope now).1 = after at hp
    cases hp with
    | thrown sequence health _ status accepts channel throws =>
      exact ⟨status, ⟨sequence, accepts⟩, channel, failure, throws⟩
  · rintro ⟨status, ⟨after, accepts⟩, channel, failure, throws⟩
    refine ⟨failure, ?_⟩
    unfold process
    dsimp only
    rw [if_neg status]
    cases hs : (parseEnvelope symbols envelope).sequence with
    | none => simp only [dispatch, channel, ↓reduceIte, throws]
    | some sequence =>
      rw [hs] at accepts
      rcases observe_of_accepts accepts with ho | ho
      · simp only [ho, dispatch, channel, ↓reduceIte, throws]
      · simp only [ho, dispatch, channel, ↓reduceIte, throws]

/-! ### What processing depends on -/

/-- A result without the latency that it measured. -/
def untimed (result : ProcessResult) : ProcessResult := { result with latency := none }

/-- Both calls leave the same book and tracker and give the same result up to the latency. -/
def SameStep (a b : Feed × Except Failure ProcessResult) : Prop :=
  a.1.book = b.1.book ∧ a.1.sequence = b.1.sequence ∧ a.2.map untimed = b.2.map untimed

section Congruence

variable (book : OrderBook) (sequence : SequenceTracker) (health health' : FeedHealth)
  (envelope : RawMessage) (now now' : ReceiveMonotonicTimestamp)

private theorem applyL2_congr (parsed : CoinbaseParseResult) (result : ProcessResult) :
    SameStep (applyL2 ⟨book, sequence, health⟩ parsed result envelope now)
      (applyL2 ⟨book, sequence, health'⟩ parsed result envelope now') := by
  unfold applyL2
  dsimp only
  split
  · exact ⟨rfl, rfl, rfl⟩
  · split
    · exact ⟨rfl, rfl, rfl⟩
    · split <;> exact ⟨rfl, rfl, rfl⟩

private theorem dispatch_congr (parsed : CoinbaseParseResult) (result : ProcessResult) :
    SameStep (dispatch ⟨book, sequence, health⟩ parsed result envelope now)
      (dispatch ⟨book, sequence, health'⟩ parsed result envelope now') := by
  unfold dispatch
  split
  · split <;> exact ⟨rfl, rfl, rfl⟩
  · split
    · exact ⟨rfl, rfl, rfl⟩
    · exact applyL2_congr book sequence health health' envelope now now' parsed result

/-- Health and clock have no influence on the book, the tracker and the result. -/
theorem process_congr (symbols : CoinbaseSymbolMapper) :
    SameStep (process symbols ⟨book, sequence, health⟩ envelope now)
      (process symbols ⟨book, sequence, health'⟩ envelope now') := by
  unfold process
  dsimp only
  split
  · exact ⟨rfl, rfl, rfl⟩
  · split
    · exact dispatch_congr book sequence _ _ envelope now now' _ _
    · split
      · exact ⟨rfl, rfl, rfl⟩
      · exact ⟨rfl, rfl, rfl⟩
      · exact ⟨rfl, rfl, rfl⟩
      · exact dispatch_congr book _ _ _ envelope now now' _ _
      · exact dispatch_congr book _ _ _ envelope now now' _ _

end Congruence

end Feed

/-! ### The handler -/

/-- What the recording sink answers: a push result, or an exception with its `what()`. -/
inductive SinkResponse
  | returned (result : PushResult)
  | thrown (what : Bytes)
  deriving DecidableEq, Repr

/-- `CoinbaseMessageHandler`, beside the feed that it shares with its owner. Only an index that was
handed out can have been enqueued
(`include/adapters/coinbase/coinbase_message_handler.hpp:56–77`). -/
structure CoinbaseMessageHandler where
  nextIndex : Nat
  connectionId : Nat
  progress : RuntimeProgress
  enqueued_lt : ∀ index, progress.lastEnqueuedIndex = some index → index < nextIndex
  deriving DecidableEq, Repr

namespace CoinbaseMessageHandler

/-- A new handler. -/
def initial : CoinbaseMessageHandler := ⟨0, 0, {}, by intro index h; cases h⟩

/-- The envelope that `handle` gives to the sink
(`src/adapters/coinbase/coinbase_message_handler.cpp:31–32`). -/
def envelope (handler : CoinbaseMessageHandler) (payload : Bytes) (wall : ReceiveWallTimestamp)
    (mono : ReceiveMonotonicTimestamp) : RawMessage :=
  ⟨handler.nextIndex, .coinbase, handler.connectionId, wall, mono, payload⟩

/-- The progress once the envelope has its index
(`src/adapters/coinbase/coinbase_message_handler.cpp:27–28`). -/
def received (handler : CoinbaseMessageHandler) : CoinbaseMessageHandler where
  nextIndex := handler.nextIndex + 1
  connectionId := handler.connectionId
  progress := { handler.progress with lastReceivedIndex := some handler.nextIndex }
  enqueued_lt := fun index h ↦ Nat.lt_succ_of_lt (handler.enqueued_lt index h)

/-- The progress after the sink accepted the envelope and it was processed
(`src/adapters/coinbase/coinbase_message_handler.cpp:44–47`). -/
def completed (handler : CoinbaseMessageHandler) : CoinbaseMessageHandler where
  nextIndex := handler.nextIndex + 1
  connectionId := handler.connectionId
  progress := { handler.progress with
    lastReceivedIndex := some handler.nextIndex
    lastEnqueuedIndex := some handler.nextIndex
    lastProcessedIndex := some handler.nextIndex }
  enqueued_lt := by
    intro index h
    cases h
    exact Nat.lt_succ_self handler.nextIndex

/-- `CoinbaseMessageHandler::handle`, up to its `publish_` call: the handler, the feed and the
result to publish (`src/adapters/coinbase/coinbase_message_handler.cpp:25–64`). -/
def handle (symbols : CoinbaseSymbolMapper) (handler : CoinbaseMessageHandler) (feed : Feed)
    (payload : Bytes) (wall : ReceiveWallTimestamp) (mono : ReceiveMonotonicTimestamp)
    (response : SinkResponse) (now : ReceiveMonotonicTimestamp) :
    CoinbaseMessageHandler × Feed × ProcessResult :=
  let invalidated (feed : Feed) : Feed := { feed with book := feed.book.mark .invalid }
  match response with
  | .returned .accepted =>
    match feed.process symbols (handler.envelope payload wall mono) now with
    | (feed, .ok result) => (handler.completed, feed, result)
    | (feed, .error failure) =>
      (handler.completed, invalidated feed, { outcome := .applyError, error := failure.what })
  | .returned .full =>
    (handler.received, invalidated feed,
      { outcome := .recordingRejected, error := ascii "RAW_RECORDING_QUEUE_FULL" })
  | .returned .closed =>
    (handler.received, invalidated feed,
      { outcome := .recordingRejected, error := ascii "RAW_RECORDING_QUEUE_CLOSED" })
  | .thrown what =>
    -- The sink threw, so the index was not enqueued by this call.
    if handler.progress.lastEnqueuedIndex = some handler.nextIndex then
      ({ handler.received with progress := { handler.received.progress with
          lastProcessedIndex := some handler.nextIndex } }, invalidated feed,
        { outcome := .applyError, error := what })
    else
      (handler.received, invalidated feed, { outcome := .recordingRejected, error := what })

/-- A response other than `Accepted` rejects the message, whatever the sink threw. -/
theorem handle_rejected (symbols : CoinbaseSymbolMapper) (handler : CoinbaseMessageHandler)
    (feed : Feed) (payload : Bytes) (wall : ReceiveWallTimestamp) (mono : ReceiveMonotonicTimestamp)
    (response : SinkResponse) (now : ReceiveMonotonicTimestamp)
    (hr : response ≠ .returned .accepted) :
    ∃ error, handler.handle symbols feed payload wall mono response now =
      (handler.received, { feed with book := feed.book.mark .invalid },
        { outcome := .recordingRejected, error }) := by
  cases response with
  | returned result =>
    cases result with
    | accepted => exact absurd rfl hr
    | full => exact ⟨_, rfl⟩
    | closed => exact ⟨_, rfl⟩
  | thrown what =>
    have hn : ¬handler.progress.lastEnqueuedIndex = some handler.nextIndex := by
      intro h
      exact absurd (handler.enqueued_lt _ h) (Nat.lt_irrefl _)
    exact ⟨what, by simp only [handle, hn, ↓reduceIte]⟩

end CoinbaseMessageHandler

end ArbitrageEngine.Coinbase
