import ArbitrageEngine.Coinbase.HandlerFrame

/-!
# Reconnect delays

`ReconnectPolicy` of `src/adapters/coinbase/reconnect_policy.cpp` is reset in
`handle_message` of `coinbase_connection_manager.cpp`, under a condition on the remembered
state, the outcome and the snapshots of a message. It holds exactly when the book becomes
valid, so that the delay counts the recoveries since then.
-/

namespace ArbitrageEngine.Coinbase

open Base ArbitrageEngine.Core Recording

/-- What a trace says about the delays: the recoveries scheduled since the book last became
valid, and the state of the book. -/
structure Pace where
  recoveries : Nat
  state : BookState
  deriving DecidableEq, Repr

/-- The pace after an effect. -/
def Pace.next (pace : Pace) : Effect → Pace
  | .book state =>
    ⟨if pace.state ≠ .valid ∧ state = .valid then 0 else pace.recoveries, state⟩
  | .schedule _ _ => ⟨pace.recoveries + 1, pace.state⟩
  | .lifecycle _ | .connect _ | .close | .pushed _ _ _ | .parsed _ | .published _ _ _ => pace

/-- The pace after a trace of a new manager. -/
def paceOf (trace : List Effect) : Pace := trace.foldl Pace.next ⟨0, .initializing⟩

/-- The delay after a number of recoveries, in milliseconds. -/
def backoffDelay (recoveries : Nat) : Nat := min (250 * 2 ^ recoveries) 10000

/-- Every recovery of a trace is scheduled with the delay of its pace. -/
def Paced (trace : List Effect) : Prop :=
  ∀ front rest delay generation, trace = front ++ .schedule delay generation :: rest →
    delay = backoffDelay (paceOf front).recoveries

private theorem backoffDelay_succ (recoveries : Nat) :
    backoffDelay (recoveries + 1) = min (backoffDelay recoveries * 2) 10000 := by
  unfold backoffDelay
  rw [Nat.pow_succ]
  omega

private theorem paceOf_concat (trace : List Effect) (effect : Effect) :
    paceOf (trace ++ [effect]) = (paceOf trace).next effect := by
  rw [paceOf, List.foldl_append]
  rfl

private theorem Paced.concat {trace : List Effect} (h : Paced trace) {effect : Effect}
    (he : ∀ delay generation, effect = .schedule delay generation →
      delay = backoffDelay (paceOf trace).recoveries) : Paced (trace ++ [effect]) := by
  intro front rest delay generation heq
  cases rest using List.reverseRecOn with
  | nil =>
    obtain ⟨rfl, hlast⟩ := List.append_inj' heq rfl
    exact he delay generation (List.head_eq_of_cons_eq hlast)
  | append_singleton rest last =>
    rw [← List.cons_append, ← List.append_assoc] at heq
    exact h front rest delay generation (List.append_inj' heq rfl).1

/-! ### What the handler tells the manager -/

namespace Feed

private theorem applyL2_snapshots {feed : Feed} {parsed : CoinbaseParseResult}
    {result after : ProcessResult} {envelope : RawMessage} {now : ReceiveMonotonicTimestamp}
    (hr : result.outcome = .ignored)
    (h : (feed.applyL2 parsed result envelope now).2 = .ok after)
    (ho : after.outcome = .bookUpdated) :
    after.snapshots = (parsed.events.filter MarketEvent.isSnapshot).length := by
  unfold applyL2 at h
  dsimp only at h
  split at h
  · cases h
    cases ho
  · split at h
    · cases h
      rw [hr] at ho
      cases ho
    · split at h
      · cases h
        cases ho
      · cases h
        rfl

private theorem dispatch_snapshots {feed : Feed} {parsed : CoinbaseParseResult}
    {result after : ProcessResult} {envelope : RawMessage} {now : ReceiveMonotonicTimestamp}
    (hr : result.outcome = .ignored)
    (h : (feed.dispatch parsed result envelope now).2 = .ok after)
    (ho : after.outcome = .bookUpdated) :
    after.snapshots = (parsed.events.filter MarketEvent.isSnapshot).length := by
  unfold dispatch at h
  split at h
  · split at h <;> cases h <;> rw [hr] at ho <;> cases ho
  · split at h
    · cases h
      rw [hr] at ho
      cases ho
    · exact applyL2_snapshots hr h ho

/-- An applied envelope reports the number of its snapshots. -/
theorem process_snapshots {symbols : CoinbaseSymbolMapper} {feed : Feed} {envelope : RawMessage}
    {now : ReceiveMonotonicTimestamp} {result : ProcessResult}
    (h : (feed.process symbols envelope now).2 = .ok result)
    (ho : result.outcome = .bookUpdated) :
    result.snapshots =
      ((parseEnvelope symbols envelope).events.filter MarketEvent.isSnapshot).length := by
  unfold process at h
  dsimp only at h
  split at h
  · cases h
    cases ho
  · split at h
    · exact dispatch_snapshots rfl h ho
    · split at h
      · cases h
        cases ho
      · cases h
        cases ho
      · cases h
        cases ho
      · exact dispatch_snapshots rfl h ho
      · exact dispatch_snapshots rfl h ho

/-- The condition for the reset of the delays: the book becomes valid. -/
theorem Processed.becomes_valid_iff {symbols : CoinbaseSymbolMapper} {feed after : Feed}
    {envelope : RawMessage} {result : ProcessResult}
    (h : Processed symbols feed envelope after (.ok result))
    (hs : result.outcome = .bookUpdated → result.snapshots =
      ((parseEnvelope symbols envelope).events.filter MarketEvent.isSnapshot).length)
    (he : result.error = []) (hv : feed.book.state ≠ .valid) :
    after.book.state = .valid ↔ result.outcome = .bookUpdated ∧ result.snapshots ≠ 0 := by
  cases h with
  | failed _ _ _ _ error => exact absurd he error
  | skipped health _ outcome _ =>
    refine iff_of_false hv ?_
    rintro ⟨ho, -⟩
    obtain h | h := outcome <;> rw [h] at ho <;> cases ho
  | quiet _ _ _ _ _ outcome _ =>
    refine iff_of_false hv ?_
    rintro ⟨ho, -⟩
    rw [outcome] at ho
    cases ho
  | updated book _ _ _ _ _ anchored events applied outcome _ =>
    refine iff_of_true (OrderBook.applyEvents_state applied events) ⟨outcome, ?_⟩
    -- a book that was not valid is anchored by the snapshot at the front
    obtain hvalid | hsnap := anchored
    · exact absurd hvalid hv
    · obtain ⟨event, hhead, hevent⟩ := Option.map_eq_some_iff.mp hsnap
      rw [hs outcome]
      intro h0
      have hmem : event ∈ (parseEnvelope symbols envelope).events.filter MarketEvent.isSnapshot :=
        List.mem_filter.mpr ⟨List.mem_of_mem_head? hhead, hevent⟩
      rw [List.length_eq_zero_iff.mp h0] at hmem
      cases hmem

end Feed

/-- What a handled message does to the state of the book, as its owner sees it. -/
theorem handle_state (handler : CoinbaseMessageHandler) (feed : Feed) (raw : Bytes)
    (wall : ReceiveWallTimestamp) (mono : ReceiveMonotonicTimestamp) (response : SinkResponse)
    (now : ReceiveMonotonicTimestamp) :
    let after := handler.handle .default feed raw wall mono response now
    (after.2.2.outcome = .recordingRejected ∨ after.2.2.error ≠ [] →
      after.2.1.book.state = .invalid) ∧
    (after.2.2.outcome ≠ .recordingRejected → after.2.2.error = [] → feed.book.state ≠ .valid →
      (after.2.1.book.state = .valid ↔
        after.2.2.outcome = .bookUpdated ∧ after.2.2.snapshots ≠ 0)) := by
  intro after
  by_cases hr : response = .returned .accepted
  · have hafter : after = handler.handle .default feed raw wall mono response now := rfl
    subst hr
    unfold CoinbaseMessageHandler.handle at hafter
    dsimp only at hafter
    cases hp : feed.process .default (handler.envelope raw wall mono) now with
    | mk feed' outcome =>
      have hprocessed := Feed.processed_of_process hp
      rw [hp] at hafter
      cases outcome with
      | ok result =>
        rw [hafter]
        refine ⟨?_, ?_⟩
        · intro hbad
          cases hprocessed with
          | failed => rfl
          | skipped _ _ outcome error =>
            obtain h | h := hbad
            · obtain ho | ho := outcome <;> exact absurd (ho.symm.trans h) (by decide)
            · exact absurd error h
          | quiet _ _ _ _ _ outcome error =>
            obtain h | h := hbad
            · exact absurd (outcome.symm.trans h) (by decide)
            · exact absurd error h
          | updated _ _ _ _ _ _ _ _ _ outcome error =>
            obtain h | h := hbad
            · exact absurd (outcome.symm.trans h) (by decide)
            · exact absurd error h
        · intro _ he hv
          have hsnapshots (ho : result.outcome = .bookUpdated) :=
            Feed.process_snapshots (congrArg Prod.snd hp) ho
          exact hprocessed.becomes_valid_iff hsnapshots he hv
      | error failure =>
        rw [hafter]
        exact ⟨fun _ ↦ rfl, fun _ he ↦ absurd he hprocessed.what_ne_nil⟩
  · obtain ⟨error, he⟩ := handler.handle_rejected .default feed raw wall mono response now hr
    have hafter : after = _ := he
    rw [hafter]
    exact ⟨fun _ ↦ rfl, fun h ↦ absurd rfl h⟩

/-! ### The member functions -/

namespace CoinbaseConnectionManager

/-- The delays of the trace are right, and so is the next one. -/
structure KeepsPace (m : CoinbaseConnectionManager) : Prop where
  paced : Paced m.trace
  state : (paceOf m.trace).state = m.book.state
  delay : m.backoff.delay = backoffDelay (paceOf m.trace).recoveries

variable (clock : Nat → ReceiveMonotonicTimestamp) {m m' : CoinbaseConnectionManager}

/-- An update of other fields. -/
theorem KeepsPace.of_same (h : m.KeepsPace) (ht : m'.trace = m.trace)
    (hb : m'.book.state = m.book.state) (hd : m'.backoff = m.backoff) : m'.KeepsPace := by
  obtain ⟨hpaced, hstate, hdelay⟩ := h
  exact ⟨ht ▸ hpaced, by rw [ht, hb, hstate], by rw [ht, hd, hdelay]⟩

/-- An effect that neither assigns a state nor schedules a recovery. -/
theorem KeepsPace.emit (h : m.KeepsPace) (effect : Effect)
    (hs : ∀ delay generation, effect ≠ .schedule delay generation)
    (hn : ∀ pace : Pace, pace.next effect = pace) : (m.emit effect).KeepsPace := by
  obtain ⟨hpaced, hstate, hdelay⟩ := h
  have hpace : paceOf (m.emit effect).trace = paceOf m.trace := by
    rw [CoinbaseConnectionManager.emit, paceOf_concat, hn]
  refine ⟨hpaced.concat fun delay generation he ↦ absurd he (hs delay generation), ?_, ?_⟩
  · rw [hpace]
    exact hstate
  · rw [hpace]
    exact hdelay

/-- The book is given a state other than valid. -/
theorem KeepsPace.marked (h : m.KeepsPace) {state : BookState} (hs : state ≠ .valid) :
    KeepsPace { m with book := m.book.mark state, trace := m.trace ++ [Effect.book state] } := by
  obtain ⟨hpaced, hstate, hdelay⟩ := h
  have hpace : paceOf (m.trace ++ [Effect.book state]) =
      ⟨(paceOf m.trace).recoveries, state⟩ := by
    rw [paceOf_concat, Pace.next, if_neg fun hv ↦ hs hv.2]
  refine ⟨hpaced.concat nofun, ?_, ?_⟩
  · rw [hpace]
    rfl
  · rw [hpace]
    exact hdelay

private theorem KeepsPace.transition (h : m.KeepsPace) (state : BookState) (reason : Bytes) :
    (m.transition clock state reason).KeepsPace := by
  have haccount {m : CoinbaseConnectionManager} (h : m.KeepsPace) :
      (m.accountTime clock m.book.state).KeepsPace :=
    h.of_same rfl rfl rfl
  unfold CoinbaseConnectionManager.transition
  have hemit : (if reason = [] then m
      else m.emit (.lifecycle ⟨nextRecordIndex m.handler.progress, state, reason⟩)).KeepsPace := by
    split
    · exact h
    · exact h.emit _ nofun fun _ ↦ rfl
  generalize (if reason = [] then m
    else m.emit (.lifecycle ⟨nextRecordIndex m.handler.progress, state, reason⟩)) = announced
    at hemit ⊢
  cases state with
  | valid => exact haccount hemit
  | initializing | stale | resyncing | disconnected | invalid => exact (haccount hemit).marked nofun

private theorem KeepsPace.beginConnection (h : m.KeepsPace) :
    (m.beginConnection clock).KeepsPace := by
  unfold CoinbaseConnectionManager.beginConnection
  split
  · exact h
  · have hidle : KeepsPace { m with recoveryPending := false, connected := false } :=
      h.of_same rfl rfl rfl
    refine KeepsPace.emit ?_ _ nofun fun _ ↦ rfl
    exact (hidle.transition clock .resyncing (ascii "resynchronization")).of_same rfl rfl rfl

private theorem KeepsPace.start (h : m.KeepsPace) : (m.start clock).KeepsPace := by
  unfold CoinbaseConnectionManager.start
  split
  · exact h
  · have hrunning : KeepsPace { m with stopping := false } := h.of_same rfl rfl rfl
    exact hrunning.beginConnection clock

private theorem KeepsPace.stop (h : m.KeepsPace) : (m.stop clock).KeepsPace := by
  unfold CoinbaseConnectionManager.stop
  split
  · exact h
  · have hstopping : KeepsPace { m with
        stopping := true
        generation := m.generation + 1
        recoveryPending := false } := h.of_same rfl rfl rfl
    have hclosed := hstopping.emit .close nofun fun _ ↦ rfl
    apply KeepsPace.transition
    exact hclosed.of_same rfl rfl rfl

private theorem KeepsPace.handleConnected (h : m.KeepsPace) :
    (m.handleConnected clock).KeepsPace := by
  unfold CoinbaseConnectionManager.handleConnected
  split
  · exact h
  · apply KeepsPace.transition
    exact h.of_same rfl rfl rfl

/-- A recovery is scheduled with the current delay, and the next one is doubled. -/
theorem KeepsPace.schedule (h : m.KeepsPace) (metrics : RecoveryMetrics) :
    ({ m with metrics, backoff := m.backoff.nextDelay.1 }.emit
      (.schedule m.backoff.nextDelay.2 m.generation)).KeepsPace := by
  obtain ⟨hpaced, hstate, hdelay⟩ := h
  have hpace : paceOf (m.trace ++ [Effect.schedule m.backoff.delay m.generation]) =
      ⟨(paceOf m.trace).recoveries + 1, (paceOf m.trace).state⟩ := by
    rw [paceOf_concat]
    rfl
  refine ⟨hpaced.concat ?_, ?_, ?_⟩
  · intro delay generation he
    cases he
    exact hdelay
  · show (paceOf (m.trace ++ [Effect.schedule m.backoff.delay m.generation])).state = m.book.state
    rw [hpace]
    exact hstate
  · show min (m.backoff.delay * 2) 10000 =
      backoffDelay (paceOf (m.trace ++ [Effect.schedule m.backoff.delay m.generation])).recoveries
    rw [hpace, backoffDelay_succ, hdelay]

private theorem KeepsPace.recover (h : m.KeepsPace) (reason : Bytes) (state : BookState) :
    (m.recover clock reason state).KeepsPace := by
  unfold CoinbaseConnectionManager.recover
  split
  · exact h
  · have hpending : KeepsPace { m with recoveryPending := true, generation := m.generation + 1 } :=
      h.of_same rfl rfl rfl
    have hmoved := hpending.transition clock state reason
    dsimp only
    split
    · apply KeepsPace.schedule
      refine KeepsPace.emit ?_ _ nofun fun _ ↦ rfl
      exact hmoved.of_same rfl rfl rfl
    · apply KeepsPace.schedule
      refine KeepsPace.emit ?_ _ nofun fun _ ↦ rfl
      exact hmoved.of_same rfl rfl rfl

private theorem KeepsPace.terminalRecordingFailure (h : m.KeepsPace) (error : Bytes) :
    (m.terminalRecordingFailure clock error).KeepsPace := by
  unfold CoinbaseConnectionManager.terminalRecordingFailure
  have hterminal : KeepsPace { m with terminal := true } := h.of_same rfl rfl rfl
  apply KeepsPace.transition
  exact (hterminal.stop clock).of_same rfl rfl rfl

/-- The trace of a handled message. -/
private theorem paced_handled {trace : List Effect} (h : Paced trace) {generation : Nat}
    {envelope : RawMessage} {response : SinkResponse} {processing : List Effect}
    (hp : processing = [] ∨ processing = [.parsed envelope]) {state : BookState}
    {result : ProcessResult} {progress : RuntimeProgress} :
    Paced (trace ++ [Effect.pushed generation envelope response] ++ processing ++
        [Effect.book state, Effect.published envelope result progress]) ∧
      paceOf (trace ++ [Effect.pushed generation envelope response] ++ processing ++
        [Effect.book state, Effect.published envelope result progress]) =
          (paceOf trace).next (.book state) := by
  have hquiet {trace : List Effect} (effect : Effect) (ht : Paced trace)
      (hs : ∀ delay generation, effect ≠ .schedule delay generation)
      (hn : ∀ pace : Pace, pace.next effect = pace) :
      Paced (trace ++ [effect]) ∧ paceOf (trace ++ [effect]) = paceOf trace :=
    ⟨ht.concat fun delay generation he ↦ absurd he (hs delay generation),
      by rw [paceOf_concat, hn]⟩
  obtain ⟨hpushed, hpace⟩ := hquiet (.pushed generation envelope response) h nofun fun _ ↦ rfl
  have hprocessing : Paced (trace ++ [Effect.pushed generation envelope response] ++ processing) ∧
      paceOf (trace ++ [Effect.pushed generation envelope response] ++ processing) =
        paceOf trace := by
    obtain rfl | rfl := hp
    · rw [List.append_nil]
      exact ⟨hpushed, hpace⟩
    · obtain ⟨hparsed, hsame⟩ := hquiet (.parsed envelope) hpushed nofun fun _ ↦ rfl
      exact ⟨hparsed, hsame.trans hpace⟩
  have hbook : Paced (trace ++ [Effect.pushed generation envelope response] ++ processing ++
      [Effect.book state]) := hprocessing.1.concat nofun
  rw [List.append_cons]
  obtain ⟨hpublished, hsame⟩ := hquiet (.published envelope result progress) hbook nofun
    fun _ ↦ rfl
  refine ⟨hpublished, ?_⟩
  rw [hsame, paceOf_concat, hprocessing.2]

private theorem noteSuccess_fields (m : CoinbaseConnectionManager) (wasValid : Bool)
    (result : ProcessResult) :
    (m.noteSuccess clock wasValid result).trace = m.trace ∧
      (m.noteSuccess clock wasValid result).book = m.book ∧
      (m.noteSuccess clock wasValid result).backoff =
        if !wasValid && result.outcome = .bookUpdated && result.snapshots ≠ 0 then .reset
        else m.backoff := by
  unfold noteSuccess
  dsimp only
  split
  · split <;> exact ⟨rfl, rfl, rfl⟩
  · exact ⟨rfl, rfl, rfl⟩

/-- The end of `handle_message`, for a book that was in the state `previous`. -/
theorem keepsPace_finishMessage {previous : BookState} {result : ProcessResult} {recoveries : Nat}
    (hpaced : Paced m.trace)
    (hpace : paceOf m.trace =
      ⟨if previous ≠ .valid ∧ m.book.state = .valid then 0 else recoveries, m.book.state⟩)
    (hdelay : m.backoff.delay = backoffDelay recoveries)
    (hfailed : result.outcome = .recordingRejected ∨ result.error ≠ [] → m.book.state = .invalid)
    (hclean : result.outcome ≠ .recordingRejected → result.error = [] → previous ≠ .valid →
      (m.book.state = .valid ↔ result.outcome = .bookUpdated ∧ result.snapshots ≠ 0)) :
    (m.finishMessage clock previous result).1.KeepsPace := by
  have hkeeps (hn : ¬(previous ≠ .valid ∧ m.book.state = .valid)) : m.KeepsPace := by
    rw [if_neg hn] at hpace
    exact ⟨hpaced, by rw [hpace], by rw [hpace, hdelay]⟩
  -- a failed message leaves the book invalid, so the count goes on
  have hinvalid (hi : m.book.state = .invalid) : m.KeepsPace := by
    refine hkeeps ?_
    rintro ⟨-, hv⟩
    rw [hi] at hv
    cases hv
  unfold finishMessage
  dsimp only
  generalize htimed : (if m.book.state ≠ previous then m.accountTime clock previous else m) = timed
  have hsame : timed.trace = m.trace ∧ timed.book = m.book ∧ timed.backoff = m.backoff := by
    rw [← htimed]
    split <;> exact ⟨rfl, rfl, rfl⟩
  have htimed (hk : m.KeepsPace) : timed.KeepsPace :=
    hk.of_same hsame.1 (by rw [hsame.2.1]) hsame.2.2
  split
  · next ho => exact (htimed (hinvalid (hfailed (.inl ho)))).terminalRecordingFailure clock _
  · next ho =>
    split
    · next he =>
      have hk := htimed (hinvalid (hfailed (.inr he)))
      apply KeepsPace.recover
      split
      · exact hk.of_same rfl rfl rfl
      · exact hk
    · next he =>
      rw [ne_eq, not_not] at he
      obtain ⟨hntrace, hnbook, hnbackoff⟩ :=
        noteSuccess_fields clock timed (decide (previous = .valid)) result
      by_cases hv : previous ≠ .valid ∧ m.book.state = .valid
      · -- the book becomes valid, and the delays start again
        have hreset := (hclean ho he hv.1).mp hv.2
        rw [if_pos (by simp [hv.1, hreset])] at hnbackoff
        rw [if_pos hv] at hpace
        refine ⟨?_, ?_, ?_⟩
        · rw [hntrace, hsame.1]
          exact hpaced
        · rw [hntrace, hsame.1, hpace, hnbook, hsame.2.1]
        · rw [hntrace, hsame.1, hpace, hnbackoff]
          rfl
      · have hcondition : ¬(!decide (previous = .valid) && decide (result.outcome = .bookUpdated) &&
            decide (result.snapshots ≠ 0)) = true := by
          simp only [Bool.and_eq_true, Bool.not_eq_true', decide_eq_false_iff_not,
            decide_eq_true_eq, and_assoc]
          rintro ⟨hne, hreset⟩
          exact hv ⟨hne, (hclean ho he hne).mpr hreset⟩
        rw [if_neg hcondition] at hnbackoff
        apply (hkeeps hv).of_same
        · rw [hntrace, hsame.1]
        · rw [hnbook, hsame.2.1]
        · rw [hnbackoff, hsame.2.2]

private theorem KeepsPace.handleMessage (h : m.KeepsPace) (raw : Bytes)
    (wall : ReceiveWallTimestamp) (mono : ReceiveMonotonicTimestamp) (response : SinkResponse)
    (now : ReceiveMonotonicTimestamp) :
    (m.handleMessage clock raw wall mono response now).1.KeepsPace := by
  by_cases hc : m.connected = true
  · rw [handleMessage_eq clock m raw wall mono response now hc]
    dsimp only
    have htrace : Paced ({ m with handler := m.toSession.current }.handle raw wall mono response
          now).1.trace ∧
        paceOf ({ m with handler := m.toSession.current }.handle raw wall mono response
          now).1.trace = (paceOf m.trace).next (.book ({ m with
            handler := m.toSession.current }.handle raw wall mono response now).1.book.state) := by
      apply paced_handled h.paced
      split
      · exact .inr rfl
      · exact .inl rfl
    have hstate := handle_state m.toSession.current ⟨m.book, m.sequence, m.health⟩ raw wall mono
      response now
    rw [Pace.next, h.state] at htrace
    exact keepsPace_finishMessage clock htrace.1 htrace.2 h.delay hstate.1 hstate.2
  · unfold CoinbaseConnectionManager.handleMessage
    rw [if_pos (by simpa using hc)]
    exact h

private theorem KeepsPace.checkHealth (h : m.KeepsPace) : (m.checkHealth clock).KeepsPace := by
  have hticks : KeepsPace { m with ticks := m.ticks + 1 } := h.of_same rfl rfl rfl
  unfold CoinbaseConnectionManager.checkHealth
  split
  · exact h
  · split
    · split
      · exact h
      · dsimp only
        split
        · exact hticks.recover clock _ _
        · exact hticks
    · dsimp only
      split
      · exact hticks.transition clock _ _
      · apply KeepsPace.recover
        split
        · exact h.of_same rfl rfl rfl
        · exact hticks

/-- Every action keeps the pace. -/
theorem KeepsPace.step (h : m.KeepsPace) (action : Action) : (m.step clock action).KeepsPace := by
  cases action with
  | start => exact h.start clock
  | stop => exact h.stop clock
  | checkHealth => exact h.checkHealth clock
  | forceDisconnect => exact h.recover clock _ _
  | terminalRecordingFailure error => exact h.terminalRecordingFailure clock error
  | message generation raw wall mono response now =>
    simp only [CoinbaseConnectionManager.step, onMessage]
    split
    · split
      · exact h.handleMessage clock raw wall mono response now
      · exact h
    · exact h
  | error generation reason =>
    simp only [CoinbaseConnectionManager.step, onError]
    split
    · split
      · exact h.recover clock _ _
      · exact h
    · exact h
  | connected generation =>
    simp only [CoinbaseConnectionManager.step, onConnected]
    split
    · split
      · exact h.handleConnected clock
      · exact h
    · exact h
  | resume generation =>
    simp only [CoinbaseConnectionManager.step, onResume]
    split
    · split
      · exact h.beginConnection clock
      · exact h
    · exact h

private theorem KeepsPace.run (h : m.KeepsPace) (actions : List Action) :
    (m.run clock actions).KeepsPace := by
  induction actions generalizing m with
  | nil => exact h
  | cons action rest ih => exact ih (h.step clock action)

/-- In every run, a recovery is scheduled with a delay that doubles with each recovery since the
book last became valid, from a quarter of a second up to ten seconds. -/
theorem run_backoff {clock : Nat → ReceiveMonotonicTimestamp} {config : FeedHealthConfig}
    {initial : CoinbaseConnectionManager} (h : create clock config = .ok initial)
    (actions : List Action) (front rest : List Effect) (delay generation : Nat)
    (ht : (initial.run clock actions).trace = front ++ .schedule delay generation :: rest) :
    delay = min (250 * 2 ^ (paceOf front).recoveries) 10000 := by
  have hinitial : initial.KeepsPace := by
    unfold create at h
    split at h
    · cases h
    · cases h
      refine ⟨?_, rfl, rfl⟩
      have hempty : Paced [] := by
        intro front rest delay generation he
        simp at he
      exact hempty.concat nofun
  exact (hinitial.run clock actions).paced front rest delay generation ht

/-- Two connection attempts that are refused. -/
def twiceRefused : List Action :=
  [.start, .error 1 (ascii "refused"), .resume 2, .error 3 (ascii "refused")]

/-- The second recovery waits twice as long. -/
theorem run_backoff_twice :
    ∃ initial, create (fun _ ↦ ⟨0⟩) {} = .ok initial ∧
      let trace := (initial.run (fun _ ↦ ⟨0⟩) twiceRefused).trace
      trace = trace.dropLast ++ [.schedule 500 4] ∧
        500 = min (250 * 2 ^ (paceOf trace.dropLast).recoveries) 10000 := by
  have h : create (fun _ ↦ ⟨0⟩) {} = .ok _ := rfl
  exact ⟨_, h, by decide +kernel, run_backoff h twiceRefused _ [] 500 4 (by decide +kernel)⟩

end CoinbaseConnectionManager

end ArbitrageEngine.Coinbase
