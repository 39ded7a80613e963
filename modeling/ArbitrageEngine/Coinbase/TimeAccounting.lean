import ArbitrageEngine.Coinbase.ConnectionManager
import ArbitrageEngine.Coinbase.MessagePipeline

/-!
# The time that a book spends in a state

`account_time` of `src/adapters/coinbase/coinbase_connection_manager.cpp` is called before a
transition, after a message that changed the book, and by every health check. However it is
called, what the metrics report at an instant is not changed by an action at that instant, and
so it is the time that the book has spent in the state.
-/

namespace ArbitrageEngine.Coinbase

open Base ArbitrageEngine.Core Recording

/-- The states whose time is measured. -/
def measuredStates : List BookState := [.valid, .stale, .invalid]

/-- The metric of a state: `valid_time`, `stale_time` or `invalid_time`. -/
def RecoveryMetrics.timeIn (metrics : RecoveryMetrics) : BookState → Int
  | .valid => metrics.validTime
  | .stale => metrics.staleTime
  | .invalid => metrics.invalidTime
  | .initializing | .resyncing | .disconnected => 0

namespace CoinbaseConnectionManager

/-- The metric of a state and, while the book is in it, the time since `state_since_`. -/
def reported (m : CoinbaseConnectionManager) (state : BookState)
    (now : ReceiveMonotonicTimestamp) : Int :=
  m.metrics.timeIn state +
    if m.book.state = state then now.nanoseconds - m.stateSince.nanoseconds else 0

/-- Nothing changes in what is reported at an instant. -/
def Settles (now : ReceiveMonotonicTimestamp) (m m' : CoinbaseConnectionManager) : Prop :=
  ∀ state ∈ measuredStates, m'.reported state now = m.reported state now

variable {now : ReceiveMonotonicTimestamp}

private theorem Settles.refl (m : CoinbaseConnectionManager) : Settles now m m := fun _ _ ↦ rfl

private theorem Settles.trans {m m' m'' : CoinbaseConnectionManager} (h : Settles now m m')
    (h' : Settles now m' m'') : Settles now m m'' :=
  fun state hs ↦ (h' state hs).trans (h state hs)

/-- An update of other fields. -/
theorem settles_of_same {m m' : CoinbaseConnectionManager}
    (ht : ∀ state, m'.metrics.timeIn state = m.metrics.timeIn state)
    (hb : m'.book.state = m.book.state) (hs : m'.stateSince = m.stateSince) :
    Settles now m m' := by
  intro state _
  rw [reported, reported, ht, hb, hs]

/-! ### The member functions -/

/-- After `account_time` the metrics hold all of the time of the state it is called with. -/
theorem reported_accountTime (m : CoinbaseConnectionManager) (previous : BookState)
    {state : BookState} (hs : state ∈ measuredStates) :
    (m.accountTime (fun _ ↦ now) previous).reported state now = m.metrics.timeIn state +
      if previous = state then now.nanoseconds - m.stateSince.nanoseconds else 0 := by
  have hsince : now.nanoseconds -
      (m.accountTime (fun _ ↦ now) previous).stateSince.nanoseconds = 0 := Int.sub_self _
  rw [reported, hsince, ite_self, Int.add_zero]
  simp only [measuredStates, List.mem_cons, List.not_mem_nil, or_false] at hs
  obtain rfl | rfl | rfl := hs <;> rfl

private theorem settles_transition (m : CoinbaseConnectionManager) (state : BookState)
    (reason : Bytes) :
    Settles now m (m.transition (fun _ ↦ now) state reason) := by
  intro measured hs
  have hemit (m' : CoinbaseConnectionManager) (hm : m'.metrics = m.metrics)
      (hb : m'.book = m.book) (ht : m'.stateSince = m.stateSince) (book : OrderBook)
      (trace : List Effect) :
      reported { m'.accountTime (fun _ ↦ now) m'.book.state with book, trace } measured now =
        m.reported measured now := by
    -- the time up to now is in the metrics, so the state that follows does not matter
    have hbook : reported { m'.accountTime (fun _ ↦ now) m'.book.state with book, trace }
        measured now = (m'.accountTime (fun _ ↦ now) m'.book.state).reported measured now := by
      simp only [reported, accountTime, Int.sub_self, ite_self]
    rw [hbook, reported_accountTime m' m'.book.state hs, hm, hb, ht]
    rfl
  unfold transition
  by_cases hr : reason = []
  · simp only [hr, ↓reduceIte]
    cases state with
    | valid => exact hemit m rfl rfl rfl _ _
    | initializing | stale | resyncing | disconnected | invalid => exact hemit m rfl rfl rfl _ _
  · simp only [hr, ↓reduceIte]
    cases state with
    | valid => exact hemit (m.emit _) rfl rfl rfl _ _
    | initializing | stale | resyncing | disconnected | invalid =>
      exact hemit (m.emit _) rfl rfl rfl _ _

private theorem settles_beginConnection (m : CoinbaseConnectionManager) :
    Settles now m (m.beginConnection fun _ ↦ now) := by
  unfold beginConnection
  split
  · exact .refl m
  · refine Settles.trans ?_ (settles_of_same (fun state ↦ by cases state <;> rfl) rfl rfl)
    exact settles_transition { m with recoveryPending := false, connected := false } _ _

private theorem settles_start (m : CoinbaseConnectionManager) :
    Settles now m (m.start fun _ ↦ now) := by
  unfold start
  split
  · exact .refl m
  · exact settles_beginConnection { m with stopping := false }

private theorem settles_stop (m : CoinbaseConnectionManager) :
    Settles now m (m.stop fun _ ↦ now) := by
  unfold stop
  split
  · exact .refl m
  · refine Settles.trans ?_ (settles_transition _ _ _)
    exact settles_of_same (fun _ ↦ rfl) rfl rfl

private theorem settles_handleConnected (m : CoinbaseConnectionManager) :
    Settles now m (m.handleConnected fun _ ↦ now) := by
  unfold handleConnected
  split
  · exact .refl m
  · refine Settles.trans ?_ (settles_transition _ _ _)
    exact settles_of_same (fun state ↦ by cases state <;> rfl) rfl rfl

private theorem settles_recover (m : CoinbaseConnectionManager) (reason : Bytes)
    (state : BookState) :
    Settles now m (m.recover (fun _ ↦ now) reason state) := by
  unfold recover
  split
  · exact .refl m
  · refine Settles.trans (settles_transition
      { m with recoveryPending := true, generation := m.generation + 1 } state reason) ?_
    dsimp only
    split
    · exact settles_of_same (fun state ↦ by cases state <;> rfl) rfl rfl
    · exact settles_of_same (fun state ↦ by cases state <;> rfl) rfl rfl

private theorem settles_terminalRecordingFailure (m : CoinbaseConnectionManager) (error : Bytes) :
    Settles now m (m.terminalRecordingFailure (fun _ ↦ now) error) := by
  unfold terminalRecordingFailure
  refine Settles.trans (settles_stop { m with terminal := true })
    (Settles.trans ?_ (settles_transition _ _ _))
  exact settles_of_same (fun state ↦ by cases state <;> rfl) rfl rfl

private theorem settles_noteSuccess (m : CoinbaseConnectionManager) (wasValid : Bool)
    (result : ProcessResult) : Settles now m (m.noteSuccess (fun _ ↦ now) wasValid result) := by
  unfold noteSuccess
  dsimp only
  split
  · split
    · exact settles_of_same (fun state ↦ by cases state <;> rfl) rfl rfl
    · exact settles_of_same (fun state ↦ by cases state <;> rfl) rfl rfl
  · exact settles_of_same (fun state ↦ by cases state <;> rfl) rfl rfl

/-- A message: the handler has changed the book, and the time goes to the state before. -/
theorem settles_handleMessage (m : CoinbaseConnectionManager) (raw : Bytes)
    (wall : ReceiveWallTimestamp) (mono : ReceiveMonotonicTimestamp) (response : SinkResponse)
    (read : ReceiveMonotonicTimestamp) :
    Settles now m (m.handleMessage (fun _ ↦ now) raw wall mono response read).1 := by
  unfold handleMessage
  split
  · exact .refl m
  · dsimp only
    generalize hh : handle { m with handler := { m.handler with connectionId := m.connectionId } }
      raw wall mono response read = handled
    obtain ⟨after, result⟩ := handled
    have hmetrics : after.metrics = m.metrics ∧ after.stateSince = m.stateSince := by
      unfold handle at hh
      cases hh
      exact ⟨rfl, rfl⟩
    have haccount : Settles now m (if after.book.state ≠ m.book.state then
        after.accountTime (fun _ ↦ now) m.book.state else after) := by
      intro state hs
      split
      · rw [reported_accountTime _ _ hs, hmetrics.1, hmetrics.2]
        rfl
      · next hsame =>
        rw [ne_eq, not_not] at hsame
        rw [reported, reported, hmetrics.1, hmetrics.2, hsame]
    unfold finishMessage
    dsimp only
    generalize (if after.book.state ≠ m.book.state then
      after.accountTime (fun _ ↦ now) m.book.state else after) = accounted at haccount ⊢
    split
    · exact haccount.trans (settles_terminalRecordingFailure _ _)
    · split
      · refine haccount.trans (Settles.trans ?_ (settles_recover _ _ _))
        split
        · exact settles_of_same (fun state ↦ by cases state <;> rfl) rfl rfl
        · exact .refl _
      · exact haccount.trans (settles_noteSuccess _ _ _)

private theorem settles_checkHealth (m : CoinbaseConnectionManager) :
    Settles now m (m.checkHealth fun _ ↦ now) := by
  have hticks (m : CoinbaseConnectionManager) :
      Settles now m { m with ticks := m.ticks + 1 } :=
    settles_of_same (fun _ ↦ rfl) rfl rfl
  unfold checkHealth
  split
  · exact .refl m
  · split
    · split
      · exact .refl m
      · dsimp only
        split
        · exact (hticks m).trans (settles_recover _ _ _)
        · exact hticks m
    · dsimp only
      split
      · exact (hticks m).trans (settles_transition _ _ _)
      · refine (hticks m).trans (Settles.trans ?_ (settles_recover _ _ _))
        split
        · exact settles_of_same (fun _ ↦ rfl) rfl rfl
        · exact .refl _

/-- An action at an instant does not change what is reported at that instant. -/
theorem settles_step (m : CoinbaseConnectionManager) (action : Action) :
    Settles now m (m.step (fun _ ↦ now) action) := by
  cases action with
  | start => exact settles_start m
  | stop => exact settles_stop m
  | checkHealth => exact settles_checkHealth m
  | forceDisconnect => exact settles_recover m _ _
  | terminalRecordingFailure error => exact settles_terminalRecordingFailure m error
  | message generation raw wall mono response read =>
    simp only [step, onMessage]
    split
    · split
      · exact settles_handleMessage m raw wall mono response read
      · exact .refl m
    · exact .refl m
  | error generation reason =>
    simp only [step, onError]
    split
    · split
      · exact settles_recover m _ _
      · exact .refl m
    · exact .refl m
  | connected generation =>
    simp only [step, onConnected]
    split
    · split
      · exact settles_handleConnected m
      · exact .refl m
    · exact .refl m
  | resume generation =>
    simp only [step, onResume]
    split
    · split
      · exact settles_beginConnection m
      · exact .refl m
    · exact .refl m

/-! ### Timed runs -/

/-- An action together with the instant at which it happens. -/
abbrev TimedAction := ReceiveMonotonicTimestamp × Action

/-- A run in which the clock stands still during every action. -/
def timedRun (m : CoinbaseConnectionManager) (actions : List TimedAction) :
    CoinbaseConnectionManager :=
  actions.foldl (fun m (instant, action) ↦ m.step (fun _ ↦ instant) action) m

/-- The time that the book is in a state: from an instant `since` over the instants of the
actions, each of which may change the state, up to `now`. -/
def timeSpent (state : BookState) (m : CoinbaseConnectionManager)
    (since : ReceiveMonotonicTimestamp) :
    List TimedAction → ReceiveMonotonicTimestamp → Int
  | [], now => if m.book.state = state then now.nanoseconds - since.nanoseconds else 0
  | (instant, action) :: rest, now =>
    (if m.book.state = state then instant.nanoseconds - since.nanoseconds else 0) +
      timeSpent state (m.step (fun _ ↦ instant) action) instant rest now

private theorem reported_later (m : CoinbaseConnectionManager) (state : BookState)
    (since now : ReceiveMonotonicTimestamp) :
    m.reported state now = m.reported state since +
      if m.book.state = state then now.nanoseconds - since.nanoseconds else 0 := by
  unfold reported
  split <;> omega

/-- Between two instants the report grows by the time that the book spends in the state. -/
theorem reported_timedRun {state : BookState} (hs : state ∈ measuredStates)
    (m : CoinbaseConnectionManager) (since now : ReceiveMonotonicTimestamp)
    (actions : List TimedAction) :
    (m.timedRun actions).reported state now =
      m.reported state since + timeSpent state m since actions now := by
  induction actions generalizing m since with
  | nil => exact reported_later m state since now
  | cons entry rest ih =>
    obtain ⟨instant, action⟩ := entry
    have hstep : Settles instant m (m.step (fun _ ↦ instant) action) := settles_step m action
    have hwait := reported_later m state since instant
    have hrest := ih (m.step (fun _ ↦ instant) action) instant
    rw [hstep state hs, hwait] at hrest
    rw [timeSpent, ← Int.add_assoc, ← hrest]
    rfl

/-- At every instant after a run of a new manager, each of the three metrics together with the
time since `state_since_`, if the book is in that state, is the time that the book has spent
in the state since the construction. -/
theorem run_time_accounted {config : FeedHealthConfig} {created : ReceiveMonotonicTimestamp}
    {initial : CoinbaseConnectionManager} (h : create (fun _ ↦ created) config = .ok initial)
    (actions : List TimedAction) (now : ReceiveMonotonicTimestamp) :
    let m := initial.timedRun actions
    let since (state : BookState) : Int :=
      if m.book.state = state then now.nanoseconds - m.stateSince.nanoseconds else 0
    m.metrics.validTime + since .valid = timeSpent .valid initial created actions now ∧
      m.metrics.staleTime + since .stale = timeSpent .stale initial created actions now ∧
      m.metrics.invalidTime + since .invalid = timeSpent .invalid initial created actions now := by
  have hstart (state : BookState) (hs : state ∈ measuredStates) :
      initial.reported state created = 0 := by
    unfold create at h
    split at h
    · cases h
    · cases h
      simp only [measuredStates, List.mem_cons, List.not_mem_nil, or_false] at hs
      obtain rfl | rfl | rfl := hs <;> rfl
  have hrun (state : BookState) (hs : state ∈ measuredStates) :
      (initial.timedRun actions).reported state now =
        timeSpent state initial created actions now := by
    rw [reported_timedRun hs initial created, hstart state hs, Int.zero_add]
  exact ⟨hrun .valid (by decide), hrun .stale (by decide), hrun .invalid (by decide)⟩

/-- A book that is valid from 10 on until a health check finds no message for too long, stale until
the connection is resumed, and invalid behind a message that is no JSON. -/
def threeStates : List TimedAction :=
  [(⟨5⟩, .start), (⟨7⟩, .connected 1),
    (⟨10⟩, .message 1 CoinbaseMessagePipeline.emptySnapshot.payload ⟨10⟩ ⟨10⟩
      (.returned .accepted) ⟨10⟩),
    (⟨50000000000⟩, .checkHealth), (⟨50000000030⟩, .resume 2), (⟨50000000040⟩, .connected 3),
    (⟨50000000050⟩, .message 3 [] ⟨50000000050⟩ ⟨50000000050⟩ (.returned .accepted) ⟨50000000050⟩)]

/-- At 50000000057 it has been in each of the three states, and still is in the last. -/
theorem run_time_accounted_three :
    ∃ initial, create (fun _ ↦ ⟨0⟩) {} = .ok initial ∧
      let m := initial.timedRun threeStates
      let spent := (timeSpent · initial ⟨0⟩ threeStates ⟨50000000057⟩)
      m.book.state = .invalid ∧ m.metrics.validTime = spent .valid ∧
        m.metrics.staleTime = spent .stale ∧
        m.metrics.invalidTime + (50000000057 - m.stateSince.nanoseconds) = spent .invalid ∧
        spent .valid = 49999999990 ∧ spent .stale = 30 ∧ spent .invalid = 7 := by
  have h : create (fun _ ↦ ⟨0⟩) {} = .ok _ := rfl
  obtain ⟨hvalid, hstale, hinvalid⟩ := run_time_accounted h threeStates ⟨50000000057⟩
  refine ⟨_, h, ?_⟩
  generalize hm : timedRun _ threeStates = m at hvalid hstale hinvalid ⊢
  have hstate : m.book.state = .invalid := by
    rw [← hm]
    decide +kernel
  rw [hstate] at hvalid hstale hinvalid
  exact ⟨hstate, (Int.add_zero _).symm.trans hvalid, (Int.add_zero _).symm.trans hstale, hinvalid,
    by decide +kernel, by decide +kernel, by decide +kernel⟩

end CoinbaseConnectionManager

end ArbitrageEngine.Coinbase
