import ArbitrageEngine.Coinbase.MessageHandler

/-!
# The legacy message pipeline

`include/adapters/coinbase/coinbase_message_pipeline.hpp`, which `--replay FILE` runs, next to
`CoinbaseMessageHandler`, which runs live: two copies of parsing, sequence check, snapshot gate
and application, compared message by message until one of them fails.
-/

namespace ArbitrageEngine.Coinbase

open Base ArbitrageEngine.Core Recording

/-- `CoinbaseMessagePipeline`, without its sink and its default parser
(`include/adapters/coinbase/coinbase_message_pipeline.hpp:9–63`). -/
structure CoinbaseMessagePipeline where
  book : OrderBook
  rawMessages : Nat
  parseErrors : Nat
  error : Bytes
  sequence : SequenceTracker
  stopped : Bool

namespace CoinbaseMessagePipeline

/-- A new pipeline (`include/adapters/coinbase/coinbase_message_pipeline.hpp:54–62`). -/
def create : CoinbaseMessagePipeline :=
  ⟨.create .coinbase .btcUsd, 0, 0, [], .empty, false⟩

/-- `reset_connection` (`include/adapters/coinbase/coinbase_message_pipeline.hpp:14–19`). -/
def resetConnection (pipeline : CoinbaseMessagePipeline) : CoinbaseMessagePipeline :=
  { pipeline with
    stopped := false
    error := []
    sequence := .empty
    book := pipeline.book.mark .initializing }

/-- `fail` (`include/adapters/coinbase/coinbase_message_pipeline.hpp:48–53`). -/
def fail (pipeline : CoinbaseMessagePipeline) (reason : Bytes) : CoinbaseMessagePipeline × Bool :=
  ({ pipeline with book := pipeline.book.mark .invalid, stopped := true, error := reason }, false)

/-- The end of `process`: the snapshot gate and the application
(`include/adapters/coinbase/coinbase_message_pipeline.hpp:40–46`). -/
def apply (pipeline : CoinbaseMessagePipeline) (result : CoinbaseParseResult) :
    CoinbaseMessagePipeline × Bool :=
  if result.status = .parsed ∧ pipeline.book.state ≠ .valid ∧
      (result.events.head?.map MarketEvent.isSnapshot ≠ some true) then
    pipeline.fail (ascii "L2 update before snapshot")
  else
    match pipeline.book.applyEvents result.events with
    | (book, false) => { pipeline with book }.fail (ascii "book rejected event")
    | (book, true) => ({ pipeline with book }, true)

/-- `process`; `recorded` is what its sink answers
(`include/adapters/coinbase/coinbase_message_pipeline.hpp:20–47`). -/
def process (pipeline : CoinbaseMessagePipeline) (recorded : Bool) (raw : Bytes)
    (wall : ReceiveWallTimestamp) (monotonic : ReceiveMonotonicTimestamp) :
    CoinbaseMessagePipeline × Bool :=
  if pipeline.stopped then (pipeline, false)
  else if !recorded then pipeline.fail (ascii "recording failed")
  else
    let pipeline := { pipeline with rawMessages := pipeline.rawMessages + 1 }
    let result := parse .default raw wall monotonic
    if result.status = .error then
      { pipeline with parseErrors := pipeline.parseErrors + 1 }.fail result.error
    else
      match result.sequence with
      | none => pipeline.apply result
      | some sequence =>
        let observed := pipeline.sequence.observe sequence
        let pipeline := { pipeline with sequence := observed.1 }
        match observed.2 with
        | .duplicate | .outOfOrder => (pipeline, true)
        | .gap => pipeline.fail (ascii "Coinbase envelope sequence gap")
        | .first | .expected => pipeline.apply result

/-! ### One message on both sides -/

/-- What the two sides give for one message: the pipeline goes on exactly when the processor
reports no error, the books are equal, and if the pipeline goes on so are the trackers. -/
structure SameOutcome (left : CoinbaseMessagePipeline × Bool) (feed : Feed)
    (result : ProcessResult) : Prop where
  success : left.2 = true ↔ result.error = []
  book : left.1.book = feed.book
  continues : left.2 = true → left.1.stopped = false ∧ left.1.sequence = feed.sequence

/-- The processor throws and the pipeline goes on. -/
def Differs (left : CoinbaseMessagePipeline × Bool) (outcome : Except Failure ProcessResult) :
    Prop :=
  (∃ failure, outcome = .error failure) ∧ left.2 = true

/-- Either the same outcome, or an exception that the pipeline does not have. -/
def Compared (left : CoinbaseMessagePipeline × Bool)
    (right : Feed × Except Failure ProcessResult) : Prop :=
  (∃ result, right.2 = .ok result ∧ SameOutcome left right.1 result) ∨ Differs left right.2

private theorem compared_fail {pipeline : CoinbaseMessagePipeline} {feed : Feed}
    {result : ProcessResult} {outcome : MessageOutcome} {error reason : Bytes} (he : error ≠ [])
    (hbook : pipeline.book = feed.book) :
    Compared (pipeline.fail reason) (feed.fail result outcome error) := by
  refine .inl ⟨_, rfl, ⟨fun h ↦ absurd h Bool.false_ne_true, fun h ↦ absurd h he⟩, ?_,
    fun h ↦ absurd h Bool.false_ne_true⟩
  rw [fail, hbook]
  rfl

private theorem compared_go {pipeline : CoinbaseMessagePipeline} {feed : Feed}
    {result : ProcessResult} (hrun : pipeline.stopped = false) (hbook : pipeline.book = feed.book)
    (hsequence : pipeline.sequence = feed.sequence) (he : result.error = []) :
    Compared (pipeline, true) (feed, .ok result) :=
  .inl ⟨_, rfl, ⟨fun _ ↦ he, fun _ ↦ rfl⟩, hbook, fun _ ↦ ⟨hrun, hsequence⟩⟩

private theorem applyEvents_nil (book : OrderBook) : book.applyEvents [] = (book, true) := rfl

private theorem applyEvents_false {book after : OrderBook} {events : List MarketEvent}
    (h : book.applyEvents events = (after, false)) : after = book := by
  unfold OrderBook.applyEvents at h
  split at h
  · cases h
  · split at h
    · split at h <;> cases h
      rfl
    · split at h
      · cases h
        rfl
      · split at h <;> cases h
        rfl

section Step

variable {pipeline : CoinbaseMessagePipeline} {feed : Feed}

/-- The ends of the two copies, after a sequence number was accepted on both sides. -/
theorem compared_apply (hrun : pipeline.stopped = false) (hbook : pipeline.book = feed.book)
    (hsequence : pipeline.sequence = feed.sequence) {result : ProcessResult}
    (hr : result.error = []) (envelope : RawMessage) (now : ReceiveMonotonicTimestamp)
    (hs : (parseEnvelope .default envelope).status ≠ .error) :
    Compared (pipeline.apply (parseEnvelope .default envelope))
      (feed.dispatch (parseEnvelope .default envelope) result envelope now) := by
  rcases parseEnvelope_cases .default envelope with h | ⟨hi, hev⟩ | ⟨hp, hc, -⟩
  · exact absurd h.1 hs
  · -- an ignored channel: the pipeline applies an empty list of events
    have hleft : pipeline.apply (parseEnvelope .default envelope) = (pipeline, true) := by
      rw [apply, if_neg (by simp [hi]), hev, applyEvents_nil]
    rw [hleft, Feed.dispatch]
    split
    · split
      · exact .inr ⟨⟨_, rfl⟩, rfl⟩
      · exact compared_go hrun hbook hsequence hr
      · exact compared_go hrun hbook hsequence hr
    · exact compared_go hrun hbook hsequence hr
  · have hright : feed.dispatch (parseEnvelope .default envelope) result envelope now =
        feed.applyL2 (parseEnvelope .default envelope) result envelope now := by
      simp only [Feed.dispatch, hc, hp, Bool.false_eq_true, reduceCtorEq, if_false]
    have hgate : ascii "L2 update before snapshot" ≠ [] := by decide
    have hreject : ascii "book rejected event" ≠ [] := by decide
    rw [hright, apply, Feed.applyL2]
    simp only [hp, true_and, hbook]
    split
    · apply compared_fail hgate
      exact hbook
    · cases hev : (parseEnvelope .default envelope).events with
      | nil => exact compared_go hrun rfl hsequence hr
      | cons event rest =>
        rw [if_neg (by simp)]
        cases happ : feed.book.applyEvents (event :: rest) with
        | mk book accepted =>
          cases accepted with
          | false =>
            rw [applyEvents_false happ]
            apply compared_fail hreject
            rfl
          | true => exact compared_go hrun rfl hsequence hr

/-- One message given to both sides in the same state. -/
theorem compared_process (hrun : pipeline.stopped = false) (hbook : pipeline.book = feed.book)
    (hsequence : pipeline.sequence = feed.sequence) (envelope : RawMessage)
    (now : ReceiveMonotonicTimestamp) :
    Compared (pipeline.process true envelope.payload envelope.receiveWallTime
      envelope.receiveMonotonicTime) (feed.process .default envelope now) := by
  have hparse : parse .default envelope.payload envelope.receiveWallTime
      envelope.receiveMonotonicTime = parseEnvelope .default envelope := rfl
  have hgap : ascii "Coinbase envelope sequence gap" ≠ [] := by decide
  rw [process, hrun, if_neg Bool.false_ne_true, Bool.not_true, if_neg Bool.false_ne_true, hparse,
    Feed.process]
  by_cases hs : (parseEnvelope .default envelope).status = .error
  · rw [if_pos hs, if_pos hs]
    rcases parseEnvelope_cases .default envelope with h | h | h
    · apply compared_fail h.2.1
      exact hbook
    · rw [h.1] at hs
      cases hs
    · rw [h.1] at hs
      cases hs
  · rw [if_neg hs, if_neg hs]
    dsimp only
    cases hq : (parseEnvelope .default envelope).sequence with
    | none =>
      apply compared_apply rfl _ _ _ envelope now hs
      · exact hbook
      · exact hsequence
      · rfl
    | some sequence =>
      dsimp only
      rw [hsequence]
      cases ho : (feed.sequence.observe sequence).2 with
      | duplicate => exact compared_go rfl hbook rfl rfl
      | outOfOrder => exact compared_go rfl hbook rfl rfl
      | gap =>
        apply compared_fail hgap
        exact hbook
      | first =>
        apply compared_apply rfl _ rfl _ envelope now hs
        · exact hbook
        · rfl
      | expected =>
        apply compared_apply rfl _ rfl _ envelope now hs
        · exact hbook
        · rfl

end Step

/-! ### A connection's messages on both sides -/

/-- A message, and what the processor's clock reads after applying it. -/
structure Message where
  payload : Bytes
  wall : ReceiveWallTimestamp
  monotonic : ReceiveMonotonicTimestamp
  now : ReceiveMonotonicTimestamp

/-- The live call for a message, with a sink that accepts. -/
def live (handler : CoinbaseMessageHandler) (feed : Feed) (message : Message) :
    CoinbaseMessageHandler × Feed × ProcessResult :=
  handler.handle .default feed message.payload message.wall message.monotonic
    (.returned .accepted) message.now

/-- The legacy call for a message, with a sink that accepts. -/
def legacy (pipeline : CoinbaseMessagePipeline) (message : Message) :
    CoinbaseMessagePipeline × Bool :=
  pipeline.process true message.payload message.wall message.monotonic

/-- The parts of a book that are compared. -/
structure SameBook (a b : OrderBook) : Prop where
  bids : a.bids = b.bids
  asks : a.asks = b.asks
  state : a.state = b.state
  lastSequence : a.lastSequence = b.lastSequence

/-- Both sides succeed on the same messages and have the same book after each, up to and
including the first message that either of them fails. -/
def Agrees (pipeline : CoinbaseMessagePipeline) (handler : CoinbaseMessageHandler) (feed : Feed) :
    List Message → Prop
  | [] => True
  | message :: rest =>
    ((pipeline.legacy message).2 = true ↔ (live handler feed message).2.2.error = []) ∧
    SameBook (pipeline.legacy message).1.book (live handler feed message).2.1.book ∧
    ((pipeline.legacy message).2 = true → (live handler feed message).2.2.error = [] →
      Agrees (pipeline.legacy message).1 (live handler feed message).1
        (live handler feed message).2.1 rest)

/-- No message is a heartbeat on which `parse_heartbeat` throws, up to and including the first
message that fails live. -/
def HeartbeatsReadable (handler : CoinbaseMessageHandler) (feed : Feed) : List Message → Prop
  | [] => True
  | message :: rest =>
    ¬Feed.HeartbeatThrows .default feed.sequence
      (handler.envelope message.payload message.wall message.monotonic) ∧
    ((live handler feed message).2.2.error = [] →
      HeartbeatsReadable (live handler feed message).1 (live handler feed message).2.1 rest)

private theorem live_of_ok {handler : CoinbaseMessageHandler} {feed after : Feed}
    {message : Message} {result : ProcessResult} (h : feed.process .default
      (handler.envelope message.payload message.wall message.monotonic) message.now =
        (after, .ok result)) : live handler feed message = (handler.completed, after, result) := by
  unfold live CoinbaseMessageHandler.handle
  simp only [h]

/-- An exception is reported with its text. -/
theorem live_of_error {handler : CoinbaseMessageHandler} {feed after : Feed} {message : Message}
    {failure : Failure} (h : feed.process .default
      (handler.envelope message.payload message.wall message.monotonic) message.now =
        (after, .error failure)) : (live handler feed message).2.2.error ≠ [] := by
  have htext := (Feed.processed_of_process h).what_ne_nil
  unfold live CoinbaseMessageHandler.handle
  simp only [h]
  exact htext

private theorem agrees_iff {pipeline : CoinbaseMessagePipeline} {handler : CoinbaseMessageHandler}
    {feed : Feed} (messages : List Message) (hrun : pipeline.stopped = false)
    (hbook : pipeline.book = feed.book) (hsequence : pipeline.sequence = feed.sequence) :
    Agrees pipeline handler feed messages ↔ HeartbeatsReadable handler feed messages := by
  induction messages generalizing pipeline handler feed with
  | nil => exact Iff.rfl
  | cons message rest ih =>
    have hthrows := Feed.process_throws_iff .default feed
      (handler.envelope message.payload message.wall message.monotonic) message.now
    have hcompared := compared_process hrun hbook hsequence
      (handler.envelope message.payload message.wall message.monotonic) message.now
    cases hp : feed.process .default
        (handler.envelope message.payload message.wall message.monotonic) message.now with
    | mk after outcome =>
      rw [hp] at hthrows hcompared
      unfold Agrees HeartbeatsReadable
      rcases hcompared with ⟨result, hok, hsame⟩ | ⟨⟨failure, hf⟩, hgoes⟩
      · obtain rfl : outcome = .ok result := hok
        have hnot : ¬Feed.HeartbeatThrows .default feed.sequence
            (handler.envelope message.payload message.wall message.monotonic) := by
          rw [← hthrows]
          rintro ⟨failure, hf⟩
          cases hf
        rw [live_of_ok hp]
        constructor
        · rintro ⟨-, -, hrest⟩
          refine ⟨hnot, fun he ↦ ?_⟩
          have hgo := hsame.success.mpr he
          obtain ⟨hrun', hsequence'⟩ := hsame.continues hgo
          exact (ih hrun' hsame.book hsequence').mp (hrest hgo he)
        · rintro ⟨-, hrest⟩
          refine ⟨hsame.success, ?_, fun hgo he ↦ ?_⟩
          · have hbook' : (pipeline.legacy message).1.book = after.book := hsame.book
            rw [hbook']
            exact ⟨rfl, rfl, rfl, rfl⟩
          · obtain ⟨hrun', hsequence'⟩ := hsame.continues hgo
            exact (ih hrun' hsame.book hsequence').mpr (hrest he)
      · obtain rfl : outcome = .error failure := hf
        constructor
        · rintro ⟨hsuccess, -⟩
          exact absurd (hsuccess.mp hgoes) (live_of_error hp)
        · rintro ⟨hnot, -⟩
          exact absurd (hthrows.mp ⟨failure, rfl⟩) hnot

/-- The live feed at the start of a connection, with the book of a pipeline that was reset. -/
def freshFeed (pipeline : CoinbaseMessagePipeline) (health : FeedHealth) : Feed :=
  ⟨pipeline.resetConnection.book, .empty, health⟩

/-- From a new connection on, the two implementations agree exactly when no heartbeat is
unreadable: the legacy pipeline does not read heartbeats. -/
theorem agrees_iff_heartbeatsReadable (pipeline : CoinbaseMessagePipeline)
    (handler : CoinbaseMessageHandler) (health : FeedHealth) (messages : List Message) :
    Agrees pipeline.resetConnection handler (pipeline.freshFeed health) messages ↔
      HeartbeatsReadable handler (pipeline.freshFeed health) messages :=
  agrees_iff messages rfl rfl rfl

/-- A snapshot without levels. -/
def emptySnapshot : Message where
  payload := ascii ("\x7b\"channel\":\"l2_data\",\"sequence_num\":0," ++
    "\"timestamp\":\"2026-01-01T00:00:00Z\",\"events\":[\x7b\"type\":\"snapshot\"," ++
    "\"product_id\":\"BTC-USD\",\"updates\":[]\x7d]\x7d")
  wall := ⟨0⟩
  monotonic := ⟨0⟩
  now := ⟨0⟩

/-- Both sides make the book valid. -/
theorem agrees_iff_heartbeatsReadable_snapshot :
    Agrees create.resetConnection .initial (create.freshFeed .initial) [emptySnapshot] ∧
      (live .initial (create.freshFeed .initial) emptySnapshot).2.1.book.state = .valid := by
  have hchannel : (parseEnvelope .default (CoinbaseMessageHandler.initial.envelope
      emptySnapshot.payload emptySnapshot.wall emptySnapshot.monotonic)).heartbeatChannel =
        false := by
    decide +kernel
  refine ⟨(agrees_iff_heartbeatsReadable create .initial .initial [emptySnapshot]).mpr
    ⟨fun h ↦ ?_, fun _ ↦ trivial⟩, by decide +kernel⟩
  exact absurd (hchannel.symm.trans h.2.2.1) Bool.false_ne_true

/-- The repository's own test message: a heartbeats message without events. -/
def bareHeartbeatMessage : Message :=
  ⟨ascii "\x7b\"channel\":\"heartbeats\"\x7d", ⟨0⟩, ⟨0⟩, ⟨0⟩⟩

/-- The legacy pipeline goes on after a heartbeats message without events; live it is a failed
application and the book is invalid. -/
theorem legacy_passes_bare_heartbeat :
    ¬Agrees create.resetConnection .initial (create.freshFeed .initial) [bareHeartbeatMessage] ∧
      (create.resetConnection.legacy bareHeartbeatMessage).2 = true ∧
      (live .initial (create.freshFeed .initial) bareHeartbeatMessage).2.2.outcome = .applyError ∧
      (create.resetConnection.legacy bareHeartbeatMessage).1.book.state = .initializing ∧
      (live .initial (create.freshFeed .initial) bareHeartbeatMessage).2.1.book.state =
        .invalid := by
  have hlive : (live .initial (create.freshFeed .initial) bareHeartbeatMessage).2.2.error ≠ [] := by
    decide +kernel
  have hlegacy : (create.resetConnection.legacy bareHeartbeatMessage).2 = true := by
    decide +kernel
  exact ⟨fun h ↦ hlive (h.1.mp hlegacy), hlegacy, by decide +kernel, by decide +kernel,
    by decide +kernel⟩

end CoinbaseMessagePipeline

end ArbitrageEngine.Coinbase
