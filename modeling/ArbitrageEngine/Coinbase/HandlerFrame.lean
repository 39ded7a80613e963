import ArbitrageEngine.Coinbase.Coherence

/-!
# What a handled message leaves alone

`CoinbaseMessageHandler::handle` and `CoinbaseMessageProcessor::process` of
`src/adapters/coinbase/coinbase_message_handler.cpp` have a dozen exits, two of them by
exception. Each leaves its own part of the book, the sequence tracker and the feed health as
it was.
-/

namespace ArbitrageEngine.Coinbase

open Base ArbitrageEngine.Core Recording

/-- The outcomes that report a failure. -/
def MessageOutcome.isFailure : MessageOutcome → Bool
  | sequenceGap | parseError | recordingRejected | applyError => true
  | bookUpdated | ignored | duplicate | outOfOrder => false

namespace Feed

/-! ### The health of the feed -/

/-- A level-two message changes one time of the health. -/
theorem applyL2_health (feed : Feed) (parsed : CoinbaseParseResult) (result : ProcessResult)
    (envelope : RawMessage) (now : ReceiveMonotonicTimestamp) :
    (feed.applyL2 parsed result envelope now).1.health =
      { feed.health with lastL2Message := some envelope.receiveMonotonicTime } := by
  unfold applyL2
  dsimp only
  split
  · rfl
  · split
    · rfl
    · split <;> rfl

private theorem applyL2_outcome {feed : Feed} {parsed : CoinbaseParseResult}
    {result after : ProcessResult} {envelope : RawMessage} {now : ReceiveMonotonicTimestamp}
    (hr : result.outcome = .ignored) (h : (feed.applyL2 parsed result envelope now).2 = .ok after) :
    after.outcome ≠ .duplicate ∧ after.outcome ≠ .outOfOrder := by
  unfold applyL2 at h
  dsimp only at h
  split at h
  · cases h
    simp
  · split at h
    · cases h
      simp [hr]
    · split at h <;> cases h <;> simp

private theorem dispatch_outcome {feed : Feed} {parsed : CoinbaseParseResult}
    {result after : ProcessResult} {envelope : RawMessage} {now : ReceiveMonotonicTimestamp}
    (hr : result.outcome = .ignored)
    (h : (feed.dispatch parsed result envelope now).2 = .ok after) :
    after.outcome ≠ .duplicate ∧ after.outcome ≠ .outOfOrder := by
  unfold dispatch at h
  split at h
  · split at h <;> cases h <;> simp [hr]
  · split at h
    · cases h
      simp [hr]
    · exact applyL2_outcome hr h

/-- After the sequence check only the heartbeats channel changes the time of the heartbeat. -/
theorem dispatch_lastHeartbeat {feed : Feed} {parsed : CoinbaseParseResult}
    {result : ProcessResult} {envelope : RawMessage} {now : ReceiveMonotonicTimestamp}
    (h : parsed.heartbeatChannel = false) :
    (feed.dispatch parsed result envelope now).1.health.lastHeartbeat =
      feed.health.lastHeartbeat := by
  unfold dispatch
  rw [if_neg (by simp [h])]
  split
  · rfl
  · rw [applyL2_health]

/-- The sequence number is missing, the first, or the expected one. -/
def InSequence (tracker : SequenceTracker) (sequence : Option Nat) : Prop :=
  ∀ n, sequence = some n → (tracker.observe n).2 = .first ∨ (tracker.observe n).2 = .expected

/-- Only an accepted message of the heartbeats channel changes the time of the heartbeat. -/
theorem process_lastHeartbeat (symbols : CoinbaseSymbolMapper) (feed : Feed)
    (envelope : RawMessage) (now : ReceiveMonotonicTimestamp)
    (h : (feed.process symbols envelope now).1.health.lastHeartbeat ≠ feed.health.lastHeartbeat) :
    (parseEnvelope symbols envelope).heartbeatChannel = true ∧
      InSequence feed.sequence (parseEnvelope symbols envelope).sequence := by
  unfold process at h
  dsimp only at h
  split at h
  · exact absurd rfl h
  · -- what remains goes through `dispatch`, or returns before it
    have hchannel {feed' : Feed} (hf : feed'.health.lastHeartbeat = feed.health.lastHeartbeat)
        (hd : (feed'.dispatch (parseEnvelope symbols envelope)
          (describe (parseEnvelope symbols envelope).events) envelope now).1.health.lastHeartbeat ≠
            feed.health.lastHeartbeat) :
        (parseEnvelope symbols envelope).heartbeatChannel = true := by
      by_contra hc
      rw [Bool.not_eq_true] at hc
      rw [dispatch_lastHeartbeat hc, hf] at hd
      exact hd rfl
    split at h
    · next hs =>
      refine ⟨hchannel (by rfl) h, ?_⟩
      rw [hs]
      exact fun n hn ↦ absurd hn (by simp)
    · next sequence hs =>
      have hin (ho : (feed.sequence.observe sequence).2 = .first ∨
          (feed.sequence.observe sequence).2 = .expected) :
          InSequence feed.sequence (parseEnvelope symbols envelope).sequence := by
        intro n hn
        rw [hs] at hn
        cases hn
        exact ho
      split at h
      · exact absurd rfl h
      · exact absurd rfl h
      · exact absurd rfl h
      · next ho => exact ⟨hchannel (by rfl) h, hin (.inl ho)⟩
      · next ho => exact ⟨hchannel (by rfl) h, hin (.inr ho)⟩

/-- A skipped message changes neither the time of the heartbeat nor that of the book. -/
theorem process_skipped {symbols : CoinbaseSymbolMapper} {feed : Feed} {envelope : RawMessage}
    {now : ReceiveMonotonicTimestamp} {result : ProcessResult}
    (h : (feed.process symbols envelope now).2 = .ok result)
    (ho : result.outcome = .duplicate ∨ result.outcome = .outOfOrder) :
    (feed.process symbols envelope now).1.health.lastHeartbeat = feed.health.lastHeartbeat ∧
      (feed.process symbols envelope now).1.health.lastL2Message = feed.health.lastL2Message := by
  have hdispatch {feed' : Feed} (hd : (feed'.dispatch (parseEnvelope symbols envelope)
      (describe (parseEnvelope symbols envelope).events) envelope now).2 = .ok result) : False := by
    have hne := dispatch_outcome rfl hd
    obtain ho | ho := ho
    · exact hne.1 ho
    · exact hne.2 ho
  unfold process at h ⊢
  dsimp only at h ⊢
  split at h
  · cases h
    simp at ho
  · next he =>
    rw [if_neg he]
    cases hs : (parseEnvelope symbols envelope).sequence with
    | none =>
      rw [hs] at h
      exact (hdispatch h).elim
    | some sequence =>
      rw [hs] at h
      dsimp only at h ⊢
      cases hobs : (feed.sequence.observe sequence).2 with
      | duplicate => exact ⟨rfl, rfl⟩
      | outOfOrder => exact ⟨rfl, rfl⟩
      | gap =>
        rw [hobs] at h
        cases h
        simp at ho
      | first =>
        rw [hobs] at h
        exact (hdispatch h).elim
      | expected =>
        rw [hobs] at h
        exact (hdispatch h).elim

end Feed

/-! ### The book and the tracker -/

/-- The frame conditions of one handled message, from a feed to the feed after it. -/
structure HandlerFrame (symbols : CoinbaseSymbolMapper) (envelope : RawMessage) (feed after : Feed)
    (result : ProcessResult) : Prop where
  failure_iff : result.outcome.isFailure = true ↔ result.error ≠ []
  failure_book : result.error ≠ [] → after.book.state = .invalid
  levels : result.outcome ≠ .bookUpdated → after.book.bids = feed.book.bids ∧
    after.book.asks = feed.book.asks ∧ after.book.lastSequence = feed.book.lastSequence
  state : result.error = [] → after.book.state =
    if result.outcome = .bookUpdated ∧
        (parseEnvelope symbols envelope).events.any MarketEvent.isSnapshot then .valid
    else feed.book.state
  skipped : result.outcome = .duplicate ∨ result.outcome = .outOfOrder →
    after.book = feed.book ∧ after.sequence = feed.sequence ∧
      after.health.lastHeartbeat = feed.health.lastHeartbeat ∧
      after.health.lastL2Message = feed.health.lastL2Message
  rejected : result.outcome = .recordingRejected →
    after.sequence = feed.sequence ∧ after.health = feed.health
  heartbeat : after.health.lastHeartbeat ≠ feed.health.lastHeartbeat →
    (parseEnvelope symbols envelope).heartbeatChannel = true ∧
      Feed.InSequence feed.sequence (parseEnvelope symbols envelope).sequence

/-- A failure keeps the levels and makes the book invalid. -/
private theorem frame_of_failure {symbols : CoinbaseSymbolMapper} {envelope : RawMessage}
    {feed : Feed} {sequence : SequenceTracker} {health : FeedHealth} {result : ProcessResult}
    (hf : result.outcome.isFailure = true) (he : result.error ≠ [])
    (hr : result.outcome = .recordingRejected → sequence = feed.sequence ∧ health = feed.health)
    (hh : health.lastHeartbeat ≠ feed.health.lastHeartbeat →
      (parseEnvelope symbols envelope).heartbeatChannel = true ∧
        Feed.InSequence feed.sequence (parseEnvelope symbols envelope).sequence) :
    HandlerFrame symbols envelope feed ⟨feed.book.mark .invalid, sequence, health⟩ result where
  failure_iff := iff_of_true hf he
  failure_book := fun _ ↦ rfl
  levels := fun _ ↦ ⟨rfl, rfl, rfl⟩
  state := fun h ↦ absurd h he
  skipped := by
    rintro (h | h)
    · rw [h] at hf
      cases hf
    · rw [h] at hf
      cases hf
  rejected := hr
  heartbeat := hh

private theorem frame_of_processed {symbols : CoinbaseSymbolMapper} {envelope : RawMessage}
    {feed after : Feed} {result : ProcessResult}
    (h : Feed.Processed symbols feed envelope after (.ok result))
    (hs : result.outcome = .duplicate ∨ result.outcome = .outOfOrder →
      after.health.lastHeartbeat = feed.health.lastHeartbeat ∧
        after.health.lastL2Message = feed.health.lastL2Message)
    (hh : after.health.lastHeartbeat ≠ feed.health.lastHeartbeat →
      (parseEnvelope symbols envelope).heartbeatChannel = true ∧
        Feed.InSequence feed.sequence (parseEnvelope symbols envelope).sequence) :
    HandlerFrame symbols envelope feed after result := by
  cases h with
  | failed sequence health _ outcome error =>
    refine frame_of_failure ?_ error ?_ hh
    · obtain h | h | h := outcome <;> rw [h] <;> rfl
    · intro hr
      obtain h | h | h := outcome <;> rw [h] at hr <;> cases hr
  | skipped health _ outcome error =>
    exact {
      failure_iff := by
        refine iff_of_false ?_ (fun h ↦ h error)
        obtain h | h := outcome <;> rw [h] <;> decide
      failure_book := fun h ↦ absurd error h
      levels := fun _ ↦ ⟨rfl, rfl, rfl⟩
      state := by
        intro _
        rw [if_neg]
        rintro ⟨hu, -⟩
        obtain h | h := outcome <;> rw [h] at hu <;> cases hu
      skipped := fun h ↦ ⟨rfl, rfl, hs h⟩
      rejected := by
        intro hr
        obtain h | h := outcome <;> rw [h] at hr <;> cases hr
      heartbeat := hh }
  | quiet sequence health _ accepts events outcome error =>
    exact {
      failure_iff := iff_of_false (by rw [outcome]; decide) (fun h ↦ h error)
      failure_book := fun h ↦ absurd error h
      levels := fun _ ↦ ⟨rfl, rfl, rfl⟩
      state := fun _ ↦ by simp [outcome]
      skipped := by simp [outcome]
      rejected := by simp [outcome]
      heartbeat := hh }
  | updated book sequence health _ accepts sequenced anchored events applied outcome error =>
    have hvalid : book.state = .valid := OrderBook.applyEvents_state applied events
    exact {
      failure_iff := iff_of_false (by rw [outcome]; decide) (fun h ↦ h error)
      failure_book := fun h ↦ absurd error h
      levels := fun h ↦ absurd outcome h
      state := by
        intro _
        show book.state = _
        rw [hvalid]
        split
        · rfl
        · next hn =>
          -- without a snapshot the book was anchored before
          obtain hv | hsnap := anchored
          · exact hv.symm
          · refine absurd ⟨outcome, ?_⟩ hn
            obtain ⟨event, hhead, hevent⟩ := Option.map_eq_some_iff.mp hsnap
            exact List.any_eq_true.mpr ⟨event, List.mem_of_mem_head? hhead, hevent⟩
      skipped := by simp [outcome]
      rejected := by simp [outcome]
      heartbeat := hh }

/-- Every exit of `handle` keeps to the frame; an exception of the sink is assumed to have a
text. -/
theorem handle_frame (symbols : CoinbaseSymbolMapper) (handler : CoinbaseMessageHandler)
    (feed : Feed) (payload : Bytes) (wall : ReceiveWallTimestamp)
    (mono : ReceiveMonotonicTimestamp) (response : SinkResponse) (now : ReceiveMonotonicTimestamp)
    (hwhat : ∀ what, response = .thrown what → what ≠ []) :
    HandlerFrame symbols (handler.envelope payload wall mono) feed
      (handler.handle symbols feed payload wall mono response now).2.1
      (handler.handle symbols feed payload wall mono response now).2.2 := by
  by_cases hr : response = .returned .accepted
  · subst hr
    have hskip (result : ProcessResult) :=
      @Feed.process_skipped symbols feed (handler.envelope payload wall mono) now result
    have hheart := Feed.process_lastHeartbeat symbols feed (handler.envelope payload wall mono) now
    unfold CoinbaseMessageHandler.handle
    dsimp only
    cases hp : feed.process symbols (handler.envelope payload wall mono) now with
    | mk after outcome =>
      rw [hp] at hskip hheart
      have hprocessed := Feed.processed_of_process hp
      cases outcome with
      | ok result => exact frame_of_processed hprocessed (hskip result rfl) hheart
      | error failure =>
        have htext := hprocessed.what_ne_nil
        cases hprocessed with
        | thrown sequence health _ status accepts channel throws =>
          exact frame_of_failure rfl htext nofun hheart
  · obtain ⟨error, he⟩ := handler.handle_rejected symbols feed payload wall mono response now hr
    have hne : error ≠ [] := by
      cases response with
      | returned result =>
        cases result with
        | accepted => exact absurd rfl hr
        | full =>
          cases he
          decide
        | closed =>
          cases he
          decide
      | thrown what =>
        have hthrown :
            (handler.handle symbols feed payload wall mono (.thrown what) now).2.2.error =
            what := by
          unfold CoinbaseMessageHandler.handle
          dsimp only
          split <;> rfl
        rw [he] at hthrown
        have herror : error = what := hthrown
        rw [herror]
        exact hwhat what rfl
    rw [he]
    exact frame_of_failure rfl hne (fun _ ↦ ⟨rfl, rfl⟩) (fun h ↦ absurd rfl h)

/-- A sink that throws: the message is rejected, the book is invalid, nothing else changes. -/
theorem handle_frame_thrown :
    let feed : Feed := ⟨.create .coinbase .btcUsd, .empty, .initial⟩
    let after := CoinbaseMessageHandler.initial.handle .default feed [] ⟨0⟩ ⟨0⟩
      (.thrown (ascii "disk full")) ⟨0⟩
    after.2.2.outcome = .recordingRejected ∧ after.2.1.book.state = .invalid ∧
      after.2.1.sequence = feed.sequence ∧ after.2.1.health = feed.health := by
  intro feed after
  have hframe := handle_frame .default .initial feed [] ⟨0⟩ ⟨0⟩ (.thrown (ascii "disk full")) ⟨0⟩
    (by
      intro what h
      cases h
      decide)
  have houtcome : after.2.2.outcome = .recordingRejected := by decide +kernel
  exact ⟨houtcome, hframe.failure_book (by decide +kernel), hframe.rejected houtcome⟩

end ArbitrageEngine.Coinbase
