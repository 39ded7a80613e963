import ArbitrageEngine.Session.CoinbaseScript
import ArbitrageEngine.Session.KrakenScript
import ArbitrageEngine.Session.Results

/-!
# What a result says of the records

`src/session/session.cpp:246–595`: the counters, the outcomes, the metrics and the state transitions
in the result of a replay are those of the deeds that the session asks for, each record processed
once and in order.
-/

namespace ArbitrageEngine.Sessions

open Base ArbitrageEngine.Core Coinbase Json Kraken Pipeline Recording

/-! ### Accounts -/

namespace OpenSession

/-- What a Coinbase session asks for. -/
def coinbaseScript (session : OpenSession) : List CoinbaseReplay.Deed :=
  CoinbaseReplay.script session.status session.records session.validated.lifecycle

/-- The feed of a Coinbase session before its first deed. -/
def coinbaseStage (session : OpenSession) : CoinbaseReplay.Stage :=
  (CoinbaseReplay.start session.validated.lifecycle).stage

/-- What a Kraken session asks for. -/
def krakenScript (session : OpenSession) : List KrakenReplay.Deed :=
  KrakenReplay.script session.records session.validated.lifecycle

/-- The calls that a Kraken session asks for. -/
def krakenCalls (session : OpenSession) : List Call :=
  KrakenReplay.calls session.records session.validated.lifecycle

/-- The session was finalized as one that has failed. -/
def failed (session : OpenSession) : Prop :=
  session.status ≠ .complete ∧ session.status ≠ .inProgress

instance (session : OpenSession) : Decidable session.failed := inferInstanceAs (Decidable (_ ∧ _))

end OpenSession

/-- What the result of a Coinbase session says is what its deeds have made of the feed: the records
are processed once and in order, the results of processing them are counted, and the changes of
state lead from the first state to the last. -/
structure CoinbaseAccount (symbols : CoinbaseSymbolMapper) (session : OpenSession)
    (result : Value) : Prop where
  processed : session.coinbaseScript.filterMap CoinbaseReplay.Deed.record = session.records
  messages : result.find? (ascii "messages_read") = some (uint64 session.records.length)
  outcomes : ∃ results : List ProcessResult,
    ((CoinbaseReplay.watched symbols).run session.coinbaseStage session.coinbaseScript).results =
      results.map .ok ∧
    results.length = session.records.length ∧ (∀ result ∈ results, Tallied result) ∧
    result.find? (ascii "outcomes") = some (objectOf (messageOutcomes.map fun outcome ↦
      (outcomeName outcome, uint64 ((results.map (·.outcome)).count outcome)))) ∧
    result.find? (ascii "snapshots") = some (uint64 (results.map (·.snapshots)).sum) ∧
    result.find? (ascii "updates") = some (uint64 (results.map (·.updates)).sum)
  boundaries : result.find? (ascii "connection_boundaries") =
    some (uint64 (turns (session.records.map (·.connectionId))))
  transitions : result.find? (ascii "state_transitions") = some (.array
    (((CoinbaseReplay.watched symbols).changes session.coinbaseStage session.coinbaseScript).map
      transitionValue))
  trail : Trail session.coinbaseStage.feed.book.state session.records.length
    ((CoinbaseReplay.watched symbols).changes session.coinbaseStage session.coinbaseScript)
    ((CoinbaseReplay.watched symbols).run session.coinbaseStage
      session.coinbaseScript).feed.book.state
  final : result.find? (ascii "final_book_state") = some (.string (bookName
    ((CoinbaseReplay.watched symbols).run session.coinbaseStage
      session.coinbaseScript).feed.book.state))

/-- What the result of a Kraken session says is what its calls have made of the processor: the
records are processed once and in order, their outcomes are counted, the metrics are those of the
processor, and the changes of state lead from the first state to the last. The book of a session
that has failed is invalidated afterwards, without a note. -/
structure KrakenAccount (crc : Bytes → UInt32) (processor : KrakenBookProcessor)
    (session : OpenSession) (result : Value) : Prop where
  processed : session.krakenCalls.filterMap KrakenReplay.message =
    session.records.map fun e ↦ (e.payload, e.receiveWallTime, e.receiveMonotonicTime)
  messages : result.find? (ascii "messages_read") = some (uint64 session.records.length)
  outcomes : (processor.outcomes crc session.krakenCalls).length = session.records.length ∧
    result.find? (ascii "outcomes") = some (objectOf
      ((processor.outcomes crc session.krakenCalls).map fun outcome ↦
        (outcome.text, uint64 ((processor.outcomes crc session.krakenCalls).count outcome))))
  metrics : result.find? (ascii "metrics") =
    some (metricsValue (processor.run crc session.krakenCalls).metrics)
  tallies : (processor.run crc session.krakenCalls).Tallies
    (processor.outcomes crc session.krakenCalls)
  received : (processor.run crc session.krakenCalls).metrics.messages =
    UInt64.ofNat session.records.length
  reconnects : (processor.run crc session.krakenCalls).metrics.reconnects =
    UInt64.ofNat (turns (session.records.map (·.connectionId)))
  time : (processor.run crc session.krakenCalls).clock.time =
    UInt64.ofNat (KrakenBookProcessor.forward (session.records.map (·.receiveMonotonicTime)))
  transitions : result.find? (ascii "state_transitions") = some (.array
    (((KrakenReplay.watched crc).changes processor session.krakenScript).map transitionValue))
  trail : Trail .initializing session.records.length
    ((KrakenReplay.watched crc).changes processor session.krakenScript)
    (processor.run crc session.krakenCalls).book.state
  final : result.find? (ascii "final_book_state") = some (.string (bookName
    (if session.failed then .invalid else (processor.run crc session.krakenCalls).book.state)))

section Results

variable {env : Surroundings} {crc : Bytes → UInt32} {allowIncomplete includeFinalBook : Bool}
variable {final inProgress : Option Bytes} {session : OpenSession} {result : Value}

private theorem branch_count (hsize : session.file.length < 2 ^ 64) {branch : Branch}
    (h : session.branch crc = .ok branch) : branch.count = session.records.length := by
  cases hvenue : session.validated.venue with
  | coinbase =>
    obtain ⟨symbols, replay, -, rfl, hreplay⟩ := branch_coinbase hvenue h
    have contiguous : Contiguous session.records := contiguous_rawRecords hsize
    exact (replayCoinbase_performs contiguous hreplay).2.count
  | kraken =>
    obtain ⟨-, replay, rfl, hreplay⟩ := branch_kraken hvenue h
    obtain ⟨processor, before, -, rfl, hcount, -⟩ := replayKraken_performs hreplay
    exact (KrakenReplay.closed_same session.status before).1.trans hcount

/-- Every record that a session has is read. -/
theorem find?_messages (hopen : openSession env allowIncomplete final inProgress = .ok session)
    (hsize : session.file.length < 2 ^ 64)
    (h : replay env crc allowIncomplete includeFinalBook final inProgress = .ok result) :
    result.find? (ascii "messages_read") = some (uint64 session.records.length) := by
  obtain ⟨branch, hbranch, hresult⟩ := replay_ok hopen h
  obtain ⟨parts, rfl, -⟩ := replayResult_ok hresult
  rw [← branch_count hsize hbranch]
  exact parts.find?_fields 7 rfl

/-- Every record of a Coinbase session is accounted for in the result of its replay. -/
theorem replay_coinbase_account
    (hopen : openSession env allowIncomplete final inProgress = .ok session)
    (hvenue : session.validated.venue = .coinbase) (hsize : session.file.length < 2 ^ 64)
    (h : replay env crc allowIncomplete includeFinalBook final inProgress = .ok result) :
    ∃ symbols, recordedSymbols session.manifest = .ok symbols ∧
      CoinbaseAccount symbols session result := by
  obtain ⟨branch, hbranch, hresult⟩ := replay_ok hopen h
  obtain ⟨symbols, replay, hsymbols, rfl, hreplay⟩ := branch_coinbase hvenue hbranch
  obtain ⟨parts, rfl, -⟩ := replayResult_ok hresult
  have contiguous : Contiguous session.records := contiguous_rawRecords hsize
  obtain ⟨performs, accounted⟩ := replayCoinbase_performs contiguous hreplay
  have hstage : replay.stage = (CoinbaseReplay.watched symbols).run session.coinbaseStage
      session.coinbaseScript := performs.stage
  have htransitions : replay.transitions = (CoinbaseReplay.watched symbols).changes
      session.coinbaseStage session.coinbaseScript := by
    rw [performs.transitions, CoinbaseReplay.start_transitions]
    rfl
  refine ⟨symbols, hsymbols, ?_⟩
  refine ⟨CoinbaseReplay.record_script _ _ _, find?_messages hopen hsize h,
    ⟨replay.results, ?_, accounted.results, accounted.tallied, parts.find?_fields 16 rfl, ?_, ?_⟩,
    ?_, ?_, ?_, ?_⟩
  · rw [← hstage]
    rfl
  · rw [← accounted.sums]
    exact parts.find?_fields 19 rfl
  · rw [← accounted.updates]
    exact parts.find?_fields 20 rfl
  · rw [← accounted.boundaries]
    exact parts.find?_fields 22 rfl
  · rw [← htransitions]
    exact parts.find?_fields 14 rfl
  · exact (CoinbaseReplay.watched symbols).trail_changes session.coinbaseStage
      (CoinbaseReplay.inOrder_script session.status contiguous session.validated.lifecycle)
  · rw [← hstage]
    exact parts.find?_fields 8 rfl

/-- Different outcomes have different texts. -/
private theorem text_injective : Function.Injective ProcessOutcome.text := by
  intro a b h
  cases a <;> cases b <;> first | rfl | cases h

/-- The `outcomes` of a Kraken result, given that every record has one. -/
private theorem outcomes_value {replay : KrakenReplay} {log : List ProcessOutcome}
    (h : replay.outcomes = log.map some) :
    (krakenResultFields replay)[0]? = some (ascii "outcomes",
      objectOf (log.map fun outcome ↦ (outcome.text, uint64 (log.count outcome)))) := by
  have texts : (replay.outcomes.map fun outcome ↦ (outcome.map ProcessOutcome.text).getD []) =
      log.map ProcessOutcome.text := by
    rw [h, List.map_map]
    rfl
  have counts : (log.map ProcessOutcome.text).map (fun text ↦
      (text, uint64 ((log.map ProcessOutcome.text).count text))) =
      log.map fun outcome ↦ (outcome.text, uint64 (log.count outcome)) := by
    rw [List.map_map]
    apply List.map_congr_left
    intro outcome _
    rw [Function.comp_apply, List.count_map_of_injective _ _ text_injective]
  unfold krakenResultFields
  dsimp only
  rw [texts, counts]
  rfl

/-- Every record of a Kraken session is accounted for in the result of its replay. -/
theorem replay_kraken_account
    (hopen : openSession env allowIncomplete final inProgress = .ok session)
    (hvenue : session.validated.venue = .kraken) (hsize : session.file.length < 2 ^ 64)
    (h : replay env crc allowIncomplete includeFinalBook final inProgress = .ok result) :
    ∃ processor, KrakenBookProcessor.create session.validated.depth = .ok processor ∧
      KrakenAccount crc processor session result := by
  obtain ⟨branch, hbranch, hresult⟩ := replay_ok hopen h
  obtain ⟨-, replay, rfl, hreplay⟩ := branch_kraken hvenue hbranch
  obtain ⟨parts, rfl, -⟩ := replayResult_ok hresult
  obtain ⟨processor, before, hprocessor, rfl, -, performs⟩ := replayKraken_performs hreplay
  obtain ⟨-, houtcomes, htransitions, hmetrics, hstate⟩ :=
    KrakenReplay.closed_same session.status before
  have hrun : before.processor = processor.run crc session.krakenCalls :=
    performs.processor.trans (KrakenReplay.run_watched crc processor session.krakenScript)
  have hclock := KrakenBookProcessor.run_clock crc (KrakenBookProcessor.clock_create hprocessor)
    session.krakenCalls
  have htime := hclock.time
  have hmessages := hclock.messages
  have hreconnects := hclock.reconnects
  rw [OpenSession.krakenCalls, KrakenReplay.time_calls] at htime
  rw [OpenSession.krakenCalls, KrakenReplay.countP_isProcess_calls] at hmessages
  rw [OpenSession.krakenCalls, KrakenReplay.count_calls] at hreconnects
  refine ⟨processor, hprocessor, ?_⟩
  refine ⟨KrakenReplay.message_calls _ _, find?_messages hopen hsize h,
    ⟨KrakenReplay.length_outcomes_calls .., ?_⟩, ?_,
    KrakenBookProcessor.run_tallies crc (KrakenBookProcessor.tallies_create hprocessor) _,
    hmessages, hreconnects, htime, ?_, ?_, ?_⟩
  · exact parts.find?_fields 16 (outcomes_value (houtcomes.trans performs.outcomes))
  · rw [← hrun, ← hmetrics]
    exact parts.find?_fields 17 rfl
  · have hchanges : before.transitions =
        (KrakenReplay.watched crc).changes processor session.krakenScript := performs.transitions
    rw [← hchanges, ← htransitions]
    exact parts.find?_fields 14 rfl
  · have trail := (KrakenReplay.watched crc).trail_changes processor
      (KrakenReplay.inOrder_script session.records session.validated.lifecycle)
    rw [KrakenReplay.run_watched] at trail
    have hfirst : processor.book.state = .initializing :=
      (KrakenBookProcessor.create_ok hprocessor).2.2
    rw [← hfirst]
    exact trail
  · rw [← hrun]
    refine Eq.trans ?_ (congrArg (fun state ↦ some (Value.string (bookName state))) hstate)
    exact parts.find?_fields 8 rfl

end Results

/-! ### A session with two connections -/

/-- A session directory with the recording of two messages. -/
def twoDirectory (venue : KnownVenue) : Surroundings := directoryWith (some (twoConnections venue))

/-- A manifest for the recording, with the loss of the first connection, the session and its
replay. -/
def twoReplay (venue : KnownVenue) : Except Failure (Bytes × OpenSession × Value) := do
  let env := twoDirectory venue
  let capture ← Capture.create env.sha256 venue 10 true ⟨[], [], [], [], [], []⟩
  let manifest ← capture.finalize env.sha256 [] (some (twoConnections venue))
    { runtimeState := .stopped
      receivedMessages := 2
      enqueuedMessages := 2
      writtenMessages := 2
      processedMessages := 2
      progress := ⟨some 1, some 1, some 1, some 1⟩
      lifecycleEvents := [⟨1, .disconnected, ascii "connection_lost"⟩] }
  let session ← openSession env false (some manifest) none
  let result ← replay env Crc.crc32 false false (some manifest) none
  return (manifest, session, result)

/-- The session opens and is replayed. -/
theorem twoReplay_ok (venue : KnownVenue) :
    ∃ manifest session result,
      openSession (twoDirectory venue) false (some manifest) none = .ok session ∧
      replay (twoDirectory venue) Crc.crc32 false false (some manifest) none = .ok result ∧
      session.validated.venue = venue ∧ session.file.length < 2 ^ 64 := by
  have hchecked : ((twoReplay venue).toOption.any fun (_, session, _) ↦
      decide (session.validated.venue = venue ∧ session.file.length < 2 ^ 64)) = true := by
    cases venue <;> decide +kernel
  cases hreplay : twoReplay venue with
  | error failure =>
    rw [hreplay] at hchecked
    cases hchecked
  | ok replayed =>
    obtain ⟨manifest, session, result⟩ := replayed
    rw [hreplay] at hchecked
    obtain ⟨capture, -, hreplay⟩ := bind_ok hreplay
    obtain ⟨written, -, hreplay⟩ := bind_ok hreplay
    obtain ⟨opened, hopened, hreplay⟩ := bind_ok hreplay
    obtain ⟨published, hpublished, hreplay⟩ := bind_ok hreplay
    cases hreplay
    exact ⟨manifest, session, result, hopened, hpublished, of_decide_eq_true hchecked⟩

/-- The Coinbase session of two connections. -/
theorem replay_coinbase_account_two :
    ∃ manifest session result symbols,
      openSession (twoDirectory .coinbase) false (some manifest) none = .ok session ∧
      replay (twoDirectory .coinbase) Crc.crc32 false false (some manifest) none = .ok result ∧
      CoinbaseAccount symbols session result := by
  obtain ⟨manifest, session, result, hopen, hreplay, hvenue, hsize⟩ := twoReplay_ok .coinbase
  obtain ⟨symbols, -, account⟩ := replay_coinbase_account hopen hvenue hsize hreplay
  exact ⟨manifest, session, result, symbols, hopen, hreplay, account⟩

/-- The Kraken session of two connections. -/
theorem replay_kraken_account_two :
    ∃ manifest session result processor,
      openSession (twoDirectory .kraken) false (some manifest) none = .ok session ∧
      replay (twoDirectory .kraken) Crc.crc32 false false (some manifest) none = .ok result ∧
      KrakenAccount Crc.crc32 processor session result := by
  obtain ⟨manifest, session, result, hopen, hreplay, hvenue, hsize⟩ := twoReplay_ok .kraken
  obtain ⟨processor, -, account⟩ := replay_kraken_account hopen hvenue hsize hreplay
  exact ⟨manifest, session, result, processor, hopen, hreplay, account⟩

end ArbitrageEngine.Sessions
