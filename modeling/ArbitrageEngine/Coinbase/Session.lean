import ArbitrageEngine.Coinbase.ConnectionManager

/-!
# The session state machine

The connection manager without its clock, metrics, health and backoff: every action is one
`Step` of the session. Invariants are proved for `Step` and hold in every state of a run.
-/

namespace ArbitrageEngine.Coinbase

open Base ArbitrageEngine.Core Recording

namespace Session

/-! ### Transitions -/

/-- The lifecycle event of a transition, which an empty reason suppresses. -/
def observed (s : Session) (state : BookState) (reason : Bytes) : List Effect :=
  if reason = [] then []
  else [.lifecycle ⟨CoinbaseConnectionManager.nextRecordIndex s.handler.progress, state, reason⟩]

/-- A connection attempt starts. -/
def begun (s : Session) : Session :=
  { s with
    recoveryPending := false
    connected := false
    generation := s.generation + 1
    book := s.book.mark .resyncing
    sequence := .empty
    trace := s.trace ++ s.observed .resyncing (ascii "resynchronization") ++
      [.book .resyncing, .connect (s.generation + 1)] }

/-- The connection is established. -/
def established (s : Session) : Session :=
  { s with
    connected := true
    connectionId := s.connectionId + 1
    book := s.book.mark .initializing
    sequence := .empty
    trace := s.trace ++ s.observed .initializing (ascii "new_connection") ++
      [.book .initializing] }

/-- The session is given up and a resume is scheduled. -/
def recovering (s : Session) (reason : Bytes) (state : BookState) (delay : Nat) : Session :=
  { s with
    recoveryPending := true
    connected := false
    generation := s.generation + 1
    book := s.book.mark state
    sequence := .empty
    trace := s.trace ++ s.observed state reason ++
      [.book state, .close, .schedule delay (s.generation + 1)] }

/-- The session is stopped on request. -/
def stopped (s : Session) : Session :=
  { s with
    stopping := true
    recoveryPending := false
    connected := false
    generation := s.generation + 1
    book := s.book.mark .disconnected
    sequence := .empty
    trace := s.trace ++ [.close] ++ s.observed .disconnected (ascii "requested_shutdown") ++
      [.book .disconnected] }

/-- The last transition of a terminal failure, on a stopped session. -/
def invalidated (s : Session) : Session :=
  { s with
    terminal := true
    book := s.book.mark .invalid
    trace := s.trace ++ s.observed .invalid (ascii "terminal_failure") ++ [.book .invalid] }

/-- The session ends for good. -/
def terminated (s : Session) : Session :=
  if s.stopping then s.invalidated else s.stopped.invalidated

/-- The envelope of a message on the current connection. -/
def envelope (s : Session) (raw : Bytes) (wall : ReceiveWallTimestamp)
    (mono : ReceiveMonotonicTimestamp) : RawMessage :=
  ⟨s.handler.nextIndex, .coinbase, s.connectionId, wall, mono, raw⟩

/-- The handler that a message on the current connection goes to. -/
def current (s : Session) : CoinbaseMessageHandler :=
  { s.handler with connectionId := s.connectionId }

/-- A message was accepted by the sink and processed. -/
def accepted (s : Session) (envelope : RawMessage) (book : OrderBook) (sequence : SequenceTracker)
    (result : ProcessResult) : Session :=
  { s with
    handler := s.current.completed
    book
    sequence
    trace := s.trace ++ [.pushed s.generation envelope (.returned .accepted), .parsed envelope,
      .book book.state, .published envelope result s.current.completed.progress] }

/-- A message was rejected by the sink. -/
def rejected (s : Session) (envelope : RawMessage) (response : SinkResponse)
    (result : ProcessResult) : Session :=
  { s with
    handler := s.current.received
    book := s.book.mark .invalid
    trace := s.trace ++ [.pushed s.generation envelope response, .book .invalid,
      .published envelope result s.current.received.progress] }

/-- A health check assigns the state that the book has. -/
def refreshed (s : Session) : Session := { s with trace := s.trace ++ [.book s.book.state] }

/-- Everything an action can do to the session, with the envelope that it hands to the sink, when
the recoveries that no message causes are given one of the `reasons`. -/
inductive Step (reasons : Bytes → Prop) : Session → Option RawMessage → Session → Prop
  | idle (s : Session) : Step reasons s none s
  | refreshed (s : Session) : Step reasons s none s.refreshed
  | start (s : Session) (stopping : s.stopping = true) (alive : s.terminal = false) :
      Step reasons s none { s with stopping := false }.begun
  | resume (s : Session) (delay : Nat) (running : s.stopping = false)
      (token : .schedule delay s.generation ∈ s.trace) : Step reasons s none s.begun
  | connected (s : Session) (running : s.stopping = false) (fresh : s.connected = false)
      (token : .connect s.generation ∈ s.trace) : Step reasons s none s.established
  | recover (s : Session) (reason : Bytes) (state : BookState) (delay : Nat)
      (running : s.stopping = false) (idle : s.recoveryPending = false)
      (state_eq : state = .disconnected ∨ state = .stale) (given : reasons reason) :
      Step reasons s none (s.recovering reason state delay)
  | stop (s : Session) (running : s.stopping = false) : Step reasons s none s.stopped
  | terminate (s : Session) : Step reasons s none s.terminated
  | delivered (s : Session) (raw : Bytes) (wall : ReceiveWallTimestamp)
      (mono : ReceiveMonotonicTimestamp) (health : FeedHealth) (now : ReceiveMonotonicTimestamp)
      (feed : Feed) (result : ProcessResult)
      (running : s.stopping = false) (connected : s.connected = true)
      (token : .connect s.generation ∈ s.trace)
      (processed : Feed.process .default ⟨s.book, s.sequence, health⟩
        (s.envelope raw wall mono) now =
        (feed, .ok result))
      (clean : result.error = []) :
      Step reasons s (some (s.envelope raw wall mono))
        (s.accepted (s.envelope raw wall mono) feed.book feed.sequence result)
  | failed (s : Session) (raw : Bytes) (wall : ReceiveWallTimestamp)
      (mono : ReceiveMonotonicTimestamp) (health : FeedHealth) (now : ReceiveMonotonicTimestamp)
      (feed : Feed) (result : ProcessResult)
      (delay : Nat) (running : s.stopping = false) (connected : s.connected = true)
      (token : .connect s.generation ∈ s.trace)
      (processed : Feed.process .default ⟨s.book, s.sequence, health⟩
        (s.envelope raw wall mono) now =
        (feed, .ok result))
      (error : result.error ≠ []) (idle : s.recoveryPending = false) :
      Step reasons s (some (s.envelope raw wall mono))
        ((s.accepted (s.envelope raw wall mono) feed.book feed.sequence result).recovering
        result.error .invalid delay)
  | thrown (s : Session) (raw : Bytes) (wall : ReceiveWallTimestamp)
      (mono : ReceiveMonotonicTimestamp) (health : FeedHealth) (now : ReceiveMonotonicTimestamp)
      (feed : Feed) (failure : Failure)
      (delay : Nat) (running : s.stopping = false) (connected : s.connected = true)
      (token : .connect s.generation ∈ s.trace)
      (processed : Feed.process .default ⟨s.book, s.sequence, health⟩
        (s.envelope raw wall mono) now =
        (feed, .error failure))
      (idle : s.recoveryPending = false) :
      Step reasons s (some (s.envelope raw wall mono))
        ((s.accepted (s.envelope raw wall mono) (feed.book.mark .invalid) feed.sequence
        { outcome := .applyError, error := failure.what }).recovering failure.what .invalid delay)
  | rejected (s : Session) (raw : Bytes) (wall : ReceiveWallTimestamp)
      (mono : ReceiveMonotonicTimestamp) (response : SinkResponse) (error : Bytes)
      (running : s.stopping = false) (connected : s.connected = true)
      (token : .connect s.generation ∈ s.trace)
      (refused : response ≠ .returned .accepted) :
      Step reasons s (some (s.envelope raw wall mono))
        (s.rejected (s.envelope raw wall mono) response
        { outcome := .recordingRejected, error }).terminated

end Session

/-! ### The manager is a session -/

namespace CoinbaseConnectionManager

variable (clock : Nat → ReceiveMonotonicTimestamp) {reasons : Bytes → Prop}

/-- `transition` marks the book; an observer sees it if there is a reason. -/
theorem transition_toSession (m : CoinbaseConnectionManager) (state : BookState) (reason : Bytes)
    (hs : state ≠ .valid) :
    (m.transition clock state reason).toSession =
      { m.toSession with
        book := m.book.mark state
        trace := m.trace ++ m.toSession.observed state reason ++ [.book state] } := by
  unfold transition Session.observed
  by_cases hr : reason = []
  · cases state <;> first | exact absurd rfl hs | simp [hr, accountTime]
  · cases state <;> first | exact absurd rfl hs | simp [hr, accountTime, emit]

@[simp]
private theorem transition_backoff (m : CoinbaseConnectionManager) (state : BookState)
    (reason : Bytes) :
    (m.transition clock state reason).backoff = m.backoff := by
  unfold transition
  by_cases hr : reason = [] <;> cases state <;> simp [hr, accountTime, emit]

/-- `begin_connection` of a manager that runs. -/
theorem beginConnection_toSession (m : CoinbaseConnectionManager) (hr : m.stopping = false) :
    (m.beginConnection clock).toSession = m.toSession.begun := by
  unfold beginConnection
  rw [if_neg (by simp [hr])]
  simp [emit, transition_toSession, Session.begun, Session.observed]

/-- `handle_connected` of a manager that is not connected. -/
theorem handleConnected_toSession (m : CoinbaseConnectionManager) (hc : m.connected = false) :
    (m.handleConnected clock).toSession = m.toSession.established := by
  unfold handleConnected
  rw [if_neg (by simp [hc])]
  simp [transition_toSession, Session.established, Session.observed]

/-- `stop` of a manager that runs. -/
theorem stop_toSession (m : CoinbaseConnectionManager) (hr : m.stopping = false) :
    (m.stop clock).toSession = m.toSession.stopped := by
  unfold stop
  rw [if_neg (by simp [hr])]
  simp [emit, transition_toSession, Session.stopped, Session.observed]

/-- `recover` of a manager that runs and does not recover yet. -/
theorem recover_toSession (m : CoinbaseConnectionManager) (reason : Bytes) (state : BookState)
    (hr : m.stopping = false) (hi : m.recoveryPending = false) (hs : state ≠ .valid) :
    (m.recover clock reason state).toSession =
      m.toSession.recovering reason state (m.backoff.nextDelay.2) := by
  unfold recover
  rw [if_neg (by simp [hr, hi])]
  dsimp only
  split
  · simp [emit, transition_toSession, Session.recovering, Session.observed, hs]
  · simp [emit, transition_toSession, Session.recovering, Session.observed, hs]

/-- `recover` does nothing when the manager is stopped or recovers already. -/
theorem recover_of_pending (m : CoinbaseConnectionManager) (reason : Bytes) (state : BookState)
    (h : m.stopping = true ∨ m.recoveryPending = true) : m.recover clock reason state = m := by
  unfold recover
  rw [if_pos (by simpa using h)]

/-- `terminal_recording_failure` at any time. -/
theorem terminalRecordingFailure_toSession (m : CoinbaseConnectionManager) (error : Bytes) :
    (m.terminalRecordingFailure clock error).toSession = m.toSession.terminated := by
  have hstop : (stop clock { m with terminal := true }).toSession =
      if m.stopping then { m.toSession with terminal := true }
      else { m.toSession with terminal := true }.stopped := by
    by_cases hs : m.stopping = true
    · rw [if_pos hs, stop, if_pos hs]
    · rw [if_neg hs, stop_toSession clock _ (by simpa using hs)]
  unfold terminalRecordingFailure Session.terminated
  rw [transition_toSession clock _ _ _ (by decide)]
  dsimp only
  rw [hstop]
  split <;> rfl

@[simp]
private theorem noteSuccess_toSession (m : CoinbaseConnectionManager) (wasValid : Bool)
    (result : ProcessResult) : (m.noteSuccess clock wasValid result).toSession = m.toSession := by
  unfold noteSuccess
  dsimp only
  split
  · split <;> rfl
  · rfl

/-- A generation was attempted if the trace has its `connect`. -/
theorem attempted_iff (m : CoinbaseConnectionManager) (generation : Nat) :
    m.attempted generation = true ↔ .connect generation ∈ m.trace := by
  unfold attempted
  rw [List.any_eq_true]
  constructor
  · rintro ⟨effect, hm, he⟩
    cases effect <;> simp at he
    subst he
    exact hm
  · intro hm
    exact ⟨_, hm, by simp⟩

/-- A resume was scheduled if the trace has it. -/
theorem scheduled_iff (m : CoinbaseConnectionManager) (generation : Nat) :
    m.scheduled generation = true ↔ ∃ delay, .schedule delay generation ∈ m.trace := by
  unfold scheduled
  rw [List.any_eq_true]
  constructor
  · rintro ⟨effect, hm, he⟩
    cases effect <;> simp at he
    subst he
    exact ⟨_, hm⟩
  · rintro ⟨delay, hm⟩
    exact ⟨_, hm, by simp⟩

/-- A callback acts while the manager runs and the generation is its own. -/
theorem live_iff (m : CoinbaseConnectionManager) (generation : Nat) :
    m.live generation = true ↔ m.stopping = false ∧ generation = m.generation := by
  simp [live]

/-- The recovery of a manager is a recovery of its session, or nothing. -/
theorem recover_step (m : CoinbaseConnectionManager) (reason : Bytes) (state : BookState)
    (hs : state = .disconnected ∨ state = .stale)
    (hg : m.stopping = false → m.recoveryPending = false → reasons reason) :
    Session.Step reasons m.toSession none (m.recover clock reason state).toSession := by
  by_cases hp : m.stopping = true ∨ m.recoveryPending = true
  · rw [recover_of_pending clock m reason state hp]
    exact .idle _
  · simp only [not_or, Bool.not_eq_true] at hp
    have hv : state ≠ .valid := by
      rcases hs with h | h <;> simp [h]
    rw [recover_toSession clock m reason state hp.1 hp.2 hv]
    exact .recover _ _ _ _ hp.1 hp.2 hs (hg hp.1 hp.2)

/-- The reasons of the recoveries that the manager decides on. -/
def ownReasons : List Bytes :=
  [ascii "Coinbase connection timeout", ascii "No Coinbase messages",
    ascii "Coinbase heartbeat timeout", ascii "Coinbase instrument timeout",
    ascii "forced local disconnect"]

private theorem failure_mem (health : FeedHealth) (now : ReceiveMonotonicTimestamp)
    (config : FeedHealthConfig) (h : health.failure now config ≠ []) :
    health.failure now config ∈ ownReasons := by
  unfold FeedHealth.failure at h ⊢
  split
  · decide
  · next hany =>
    rw [if_neg hany] at h
    split
    · decide
    · next hheartbeat =>
      rw [if_neg hheartbeat] at h
      split
      · next limit hlimit =>
        rw [hlimit] at h
        dsimp only at h ⊢
        split
        · decide
        · next hfresh => exact absurd (if_neg hfresh) h
      · next hlimit =>
        rw [hlimit] at h
        exact absurd rfl h

private theorem checkHealth_step (m : CoinbaseConnectionManager)
    (hn : ∀ reason ∈ ownReasons, reasons reason) :
    Session.Step reasons m.toSession none (m.checkHealth clock).toSession := by
  unfold checkHealth
  split
  · exact .idle _
  split
  · split
    · exact .idle _
    · dsimp only
      split
      · exact recover_step clock { m with ticks := m.ticks + 1 } _ _ (Or.inl rfl)
          fun _ _ ↦ hn _ (by decide)
      · exact .idle _
  · dsimp only
    split
    · by_cases hv : m.book.state = .valid
      · have ht : ({ m with ticks := m.ticks + 1 }.transition clock m.book.state []).toSession =
            m.toSession := by
          simp only [transition, hv, ↓reduceIte]
          rfl
        rw [ht]
        exact .idle _
      · rw [transition_toSession clock _ _ _ hv]
        have hr : Session.Step reasons m.toSession none m.toSession.refreshed := .refreshed _
        simpa [Session.refreshed, Session.observed, OrderBook.mark] using hr
    · next hne =>
      have hown := hn _ (failure_mem _ _ _ hne)
      split
      · exact recover_step clock { m with
          ticks := m.ticks + 1
          health := { m.health with heartbeatTimeouts := m.health.heartbeatTimeouts + 1 } } _ _
          (Or.inr rfl) fun _ _ ↦ hown
      · exact recover_step clock { m with ticks := m.ticks + 1 } _ _ (Or.inr rfl)
          fun _ _ ↦ hown

/-- `handle_message` of a manager that is connected. -/
theorem handleMessage_eq (m : CoinbaseConnectionManager) (raw : Bytes)
    (wall : ReceiveWallTimestamp) (mono : ReceiveMonotonicTimestamp) (response : SinkResponse)
    (now : ReceiveMonotonicTimestamp) (hc : m.connected = true) :
    m.handleMessage clock raw wall mono response now =
      let h := { m with handler := m.toSession.current }.handle raw wall mono response now
      h.1.finishMessage clock m.book.state h.2 := by
  unfold handleMessage
  rw [if_neg (by simp [hc])]
  rfl

/-- An envelope that the sink did not take ends the session for good. -/
theorem finishMessage_rejected (m : CoinbaseConnectionManager) (previousState : BookState)
    (result : ProcessResult) (ho : result.outcome = .recordingRejected) :
    (m.finishMessage clock previousState result).1.toSession = m.toSession.terminated := by
  unfold finishMessage
  dsimp only
  rw [if_pos ho, terminalRecordingFailure_toSession]
  split <;> rfl

/-- A message with an error starts a recovery. -/
theorem finishMessage_failed (m : CoinbaseConnectionManager) (previousState : BookState)
    (result : ProcessResult) (ho : result.outcome ≠ .recordingRejected) (he : result.error ≠ [])
    (hr : m.stopping = false) (hi : m.recoveryPending = false) :
    ∃ delay, (m.finishMessage clock previousState result).1.toSession =
      m.toSession.recovering result.error .invalid delay := by
  unfold finishMessage
  dsimp only
  rw [if_neg ho, if_pos he]
  by_cases hb : m.book.state ≠ previousState
  · by_cases ht : result.error = ascii "L2 update before snapshot"
    · rw [if_pos hb, if_pos ht]
      exact ⟨_, recover_toSession clock _ _ _ hr hi (by decide)⟩
    · rw [if_pos hb, if_neg ht]
      exact ⟨_, recover_toSession clock _ _ _ hr hi (by decide)⟩
  · by_cases ht : result.error = ascii "L2 update before snapshot"
    · rw [if_neg hb, if_pos ht]
      exact ⟨_, recover_toSession clock _ _ _ hr hi (by decide)⟩
    · rw [if_neg hb, if_neg ht]
      exact ⟨_, recover_toSession clock _ _ _ hr hi (by decide)⟩

/-- A message without an error changes the metrics only. -/
theorem finishMessage_clean (m : CoinbaseConnectionManager) (previousState : BookState)
    (result : ProcessResult) (ho : result.outcome ≠ .recordingRejected) (he : result.error = []) :
    (m.finishMessage clock previousState result).1.toSession = m.toSession := by
  unfold finishMessage
  dsimp only
  rw [if_neg ho, if_neg (by simpa using he), noteSuccess_toSession]
  split <;> rfl

/-- `handle` of an envelope that is recorded and processed. -/
theorem handle_accepted (m : CoinbaseConnectionManager) (raw : Bytes)
    (wall : ReceiveWallTimestamp) (mono : ReceiveMonotonicTimestamp)
    (now : ReceiveMonotonicTimestamp) (feed : Feed) (result : ProcessResult)
    (hp : Feed.process .default ⟨m.book, m.sequence, m.health⟩ (m.toSession.envelope raw wall mono)
      now = (feed, .ok result)) :
    ({ m with handler := m.toSession.current }.handle raw wall mono (.returned .accepted) now).2 =
        result ∧
      ({ m with handler := m.toSession.current }.handle raw wall mono
        (.returned .accepted) now).1.toSession =
        m.toSession.accepted (m.toSession.envelope raw wall mono) feed.book
          feed.sequence result := by
  have he : m.toSession.current.envelope raw wall mono = m.toSession.envelope raw wall mono := rfl
  simp [handle, CoinbaseMessageHandler.handle, he, hp, Session.accepted]

/-- `handle` of an envelope that is recorded and whose processing throws. -/
theorem handle_thrown (m : CoinbaseConnectionManager) (raw : Bytes)
    (wall : ReceiveWallTimestamp) (mono : ReceiveMonotonicTimestamp)
    (now : ReceiveMonotonicTimestamp) (feed : Feed) (failure : Failure)
    (hp : Feed.process .default ⟨m.book, m.sequence, m.health⟩ (m.toSession.envelope raw wall mono)
      now = (feed, .error failure)) :
    ({ m with handler := m.toSession.current }.handle raw wall mono (.returned .accepted) now).2 =
        { outcome := .applyError, error := failure.what } ∧
      ({ m with handler := m.toSession.current }.handle raw wall mono
        (.returned .accepted) now).1.toSession =
        m.toSession.accepted (m.toSession.envelope raw wall mono) (feed.book.mark .invalid)
          feed.sequence { outcome := .applyError, error := failure.what } := by
  have he : m.toSession.current.envelope raw wall mono = m.toSession.envelope raw wall mono := rfl
  simp [handle, CoinbaseMessageHandler.handle, he, hp, Session.accepted]

/-- `handle` of an envelope that the sink does not accept. -/
theorem handle_refused (m : CoinbaseConnectionManager) (raw : Bytes)
    (wall : ReceiveWallTimestamp) (mono : ReceiveMonotonicTimestamp) (response : SinkResponse)
    (now : ReceiveMonotonicTimestamp) (hr : response ≠ .returned .accepted) :
    ∃ error,
      ({ m with handler := m.toSession.current }.handle raw wall mono response now).2 =
        { outcome := .recordingRejected, error } ∧
      ({ m with handler := m.toSession.current }.handle raw wall mono response now).1.toSession =
        m.toSession.rejected (m.toSession.envelope raw wall mono) response
          { outcome := .recordingRejected, error } := by
  have he : m.toSession.current.envelope raw wall mono = m.toSession.envelope raw wall mono := rfl
  obtain ⟨error, hh⟩ := CoinbaseMessageHandler.handle_rejected .default m.toSession.current
    ⟨m.book, m.sequence, m.health⟩ raw wall mono response now hr
  refine ⟨error, ?_⟩
  simp [handle, hh, he, hr, Session.rejected, OrderBook.mark]

/-- A message with a live token is a step of the session. -/
theorem handleMessage_step (m : CoinbaseConnectionManager) (raw : Bytes)
    (wall : ReceiveWallTimestamp) (mono : ReceiveMonotonicTimestamp) (response : SinkResponse)
    (now : ReceiveMonotonicTimestamp) (hr : m.stopping = false)
    (hi : m.connected = true → m.recoveryPending = false)
    (token : .connect m.generation ∈ m.trace) :
    Session.Step reasons m.toSession
      (if m.connected then some (m.toSession.envelope raw wall mono) else none)
      (m.handleMessage clock raw wall mono response now).1.toSession := by
  by_cases hc : m.connected = true
  · rw [handleMessage_eq clock m raw wall mono response now hc, if_pos hc]
    dsimp only
    by_cases hresp : response = .returned .accepted
    · subst hresp
      cases hp : Feed.process .default ⟨m.book, m.sequence, m.health⟩
          (m.toSession.envelope raw wall mono) now with
      | mk feed outcome =>
        have processed := Feed.processed_of_process hp
        cases outcome with
        | ok result =>
          obtain ⟨h2, h1⟩ := handle_accepted m raw wall mono now feed result hp
          have ho : result.outcome ≠ .recordingRejected := processed.outcome_ne_rejected
          rw [h2]
          by_cases he : result.error = []
          · rw [finishMessage_clean clock _ _ _ ho he, h1]
            exact .delivered _ raw wall mono m.health now feed result hr hc token hp he
          · obtain ⟨delay, hd⟩ := finishMessage_failed clock _ m.book.state result ho he
              (by rw [h1]; exact hr) (by rw [h1]; exact hi hc)
            rw [hd, h1]
            exact .failed _ raw wall mono m.health now feed result delay hr hc token hp he (hi hc)
        | error failure =>
          obtain ⟨h2, h1⟩ := handle_thrown m raw wall mono now feed failure hp
          have he : failure.what ≠ [] := processed.what_ne_nil
          rw [h2]
          obtain ⟨delay, hd⟩ := finishMessage_failed clock _ m.book.state
            { outcome := .applyError, error := failure.what } (by simp) he
            (by rw [h1]; exact hr) (by rw [h1]; exact hi hc)
          rw [hd, h1]
          exact .thrown _ raw wall mono m.health now feed failure delay hr hc token hp (hi hc)
    · obtain ⟨error, h2, h1⟩ := handle_refused m raw wall mono response now hresp
      rw [h2, finishMessage_rejected clock _ _ _ rfl, h1]
      exact .rejected _ raw wall mono response error hr hc token hresp
  · have hoff : (!m.connected) = true := by simpa using hc
    unfold handleMessage
    rw [if_neg hc, if_pos hoff]
    exact .idle _

/-- The envelope that an action hands to the sink. -/
def handed (m : CoinbaseConnectionManager) : Action → Option RawMessage
  | .message generation raw wall mono _ _ =>
    if m.attempted generation = true then
      if m.live generation = true then
        if m.connected then some (m.toSession.envelope raw wall mono) else none
      else none
    else none
  | _ => none

/-- Every action of the manager is a step of its session. -/
theorem step_session (m : CoinbaseConnectionManager) (action : Action)
    (hi : m.connected = true → m.recoveryPending = false)
    (hn : ∀ reason ∈ ownReasons, reasons reason)
    (he : ∀ generation reason, action = .error generation reason →
      m.step clock action = m ∨ reasons reason) :
    Session.Step reasons m.toSession (m.handed action) (m.step clock action).toSession := by
  cases action with
  | start =>
    simp only [step, start]
    split
    · exact .idle _
    · next h =>
      simp only [Bool.or_eq_true, Bool.not_eq_true', not_or, Bool.not_eq_true,
        Bool.not_eq_false] at h
      rw [beginConnection_toSession clock _ rfl]
      exact .start _ h.1 h.2
  | stop =>
    by_cases hs : m.stopping = true
    · simp only [step, stop, hs, ↓reduceIte]
      exact .idle _
    · simp only [step]
      rw [stop_toSession clock m (by simpa using hs)]
      exact .stop _ (by simpa using hs)
  | checkHealth => exact checkHealth_step clock m hn
  | forceDisconnect =>
    exact recover_step clock m _ _ (Or.inl rfl) fun _ _ ↦ hn _ (by decide)
  | terminalRecordingFailure error =>
    simp only [step]
    rw [terminalRecordingFailure_toSession]
    exact .terminate _
  | message generation raw wall mono response now =>
    by_cases ha : m.attempted generation = true
    · by_cases hl : m.live generation = true
      -- a live token is the current generation, so its connection was begun
      · have ht : .connect m.generation ∈ m.trace := by
          rw [← ((live_iff m generation).mp hl).2]
          exact (attempted_iff m generation).mp ha
        simp only [step, onMessage, handed, ha, hl, ↓reduceIte]
        exact handleMessage_step clock m raw wall mono response now
          ((live_iff m generation).mp hl).1
          hi ht
      · simp only [step, onMessage, handed, ha, hl, ↓reduceIte]
        exact .idle _
    · simp only [step, handed, ha]
      exact .idle _
  | error generation reason =>
    -- the reasons of the venue are not ours, and an error that does nothing needs none
    rcases he generation reason rfl with hidle | hg
    · rw [hidle]
      exact .idle _
    simp only [step, onError]
    split
    · split
      · exact recover_step clock m _ _ (Or.inl rfl) fun _ _ ↦ hg
      · exact .idle _
    · exact .idle _
  | connected generation =>
    simp only [step, onConnected]
    split
    · next ha =>
      split
      · next hl =>
        obtain ⟨hr, rfl⟩ := (live_iff m generation).mp hl
        by_cases hc : m.connected = true
        · simp only [handleConnected, hc, ↓reduceIte]
          exact .idle _
        · rw [handleConnected_toSession clock m (by simpa using hc)]
          exact .connected _ hr (by simpa using hc) ((attempted_iff m _).mp ha)
      · exact .idle _
    · exact .idle _
  | resume generation =>
    simp only [step, onResume]
    split
    · next ha =>
      split
      · next hl =>
        obtain ⟨hr, rfl⟩ := (live_iff m generation).mp hl
        obtain ⟨delay, hd⟩ := (scheduled_iff m _).mp ha
        rw [beginConnection_toSession clock m hr]
        exact .resume _ delay hr hd
      · exact .idle _
    · exact .idle _

/-- Every action is a step of the session, whatever its reason. -/
theorem step_session_any (m : CoinbaseConnectionManager) (action : Action)
    (hi : m.connected = true → m.recoveryPending = false) :
    Session.Step (fun _ ↦ True) m.toSession (m.handed action) (m.step clock action).toSession :=
  step_session clock m action hi (fun _ _ ↦ trivial) fun _ _ _ ↦ Or.inr trivial

end CoinbaseConnectionManager

end ArbitrageEngine.Coinbase
