import ArbitrageEngine.Session.Manifest

/-!
# Session replay, Coinbase branch

`src/session/session.cpp`: the Coinbase branch of `sessions::replay`. A session is its
records, its lifecycle events and its status; what depends on files only (paths, checksums,
the second read of the raw file) is not part of the model. Beside the source's variables a
replay keeps the result of every record and every state that its book was given.
-/

namespace ArbitrageEngine.Sessions

open Base ArbitrageEngine.Core Coinbase Recording

/-! ### The state of a replay -/

/-- The variables of the Coinbase branch (`src/session/session.cpp:449–476`). -/
structure CoinbaseReplay where
  feed : Feed
  connection : Option Nat
  boundaries : Nat
  snapshots : Nat
  updates : Nat
  count : Nat
  transitions : List StateTransition
  lifecycleConnected : Bool
  results : List ProcessResult
  states : List BookState

namespace CoinbaseReplay

/-- The variables at their declaration (`src/session/session.cpp:449–476`). -/
def initial : CoinbaseReplay where
  feed := ⟨.create .coinbase .btcUsd, .empty, .initial⟩
  connection := none
  boundaries := 0
  snapshots := 0
  updates := 0
  count := 0
  transitions := []
  lifecycleConnected := false
  results := []
  states := [.initializing]

/-- The number of records with an outcome, an entry of `outcomes`
(`src/session/session.cpp:534–535`). -/
def outcomes (replay : CoinbaseReplay) (outcome : MessageOutcome) : Nat :=
  (replay.results.map (·.outcome)).count outcome

/-- The `transition` lambda; the new state is that of the book
(`src/session/session.cpp:466–473`). -/
def transition (replay : CoinbaseReplay) (index : Nat) (previous : BookState) (reason : Bytes) :
    CoinbaseReplay :=
  if previous = replay.feed.book.state then replay
  else { replay with
    transitions := replay.transitions ++ [⟨index, previous, replay.feed.book.state, reason⟩] }

/-- One of the book's `mark_*` functions or `invalidate` (`src/session/session.cpp:487–496`). -/
def mark (replay : CoinbaseReplay) (state : BookState) : CoinbaseReplay :=
  { replay with
    feed := { replay.feed with book := replay.feed.book.mark state }
    states := replay.states ++ [state] }

/-- `mark` with the `transition` call after it. -/
def assign (replay : CoinbaseReplay) (index : Nat) (state : BookState) (reason : Bytes) :
    CoinbaseReplay :=
  (replay.mark state).transition index replay.feed.book.state reason

/-- `sequence.reset()` (`src/session/session.cpp:499`). -/
def resetSequence (replay : CoinbaseReplay) : CoinbaseReplay :=
  { replay with feed := { replay.feed with sequence := .empty } }

/-! ### Lifecycle events -/

/-- The state that a name in a lifecycle event stands for (`src/session/session.cpp:486–498`). -/
def stateNamed (name : Bytes) : Option BookState :=
  if name = ascii "DISCONNECTED" then some .disconnected
  else if name = ascii "RESYNCING" then some .resyncing
  else if name = ascii "INITIALIZING" then some .initializing
  else if name = ascii "STALE" then some .stale
  else if name = ascii "INVALID" then some .invalid
  else none

/-- The body of the loop in `apply_lifecycle` (`src/session/session.cpp:483–500`). -/
def applyLifecycle (replay : CoinbaseReplay) (event : LifecycleEntry) :
    Except Failure CoinbaseReplay :=
  match stateNamed event.state with
  | none => runtimeError "invalid lifecycle state"
  | some state =>
    let replay := replay.assign event.beforeRecordIndex state event.reason
    .ok { replay.resetSequence with
      lifecycleConnected := replay.lifecycleConnected || state = .initializing }

/-! ### Records -/

/-- What happens before a record of another connection (`src/session/session.cpp:507–526`). -/
def reconnect (replay : CoinbaseReplay) (e : RawMessage) : CoinbaseReplay :=
  if replay.connection = some e.connectionId then replay
  else
    let replay :=
      if replay.connection.isSome then { replay with boundaries := replay.boundaries + 1 }
      else replay
    let replay :=
      if replay.connection.isSome ∧ replay.lifecycleConnected = false then
        replay.assign e.recordIndex .disconnected (ascii "connection_id_changed")
      else replay
    let replay :=
      if replay.lifecycleConnected = false then
        (replay.assign e.recordIndex .resyncing (ascii "resynchronization")).assign e.recordIndex
          .initializing (ascii "new_connection")
      else replay
    { replay.resetSequence with
      feed.health := replay.feed.health.reset e.receiveMonotonicTime
      connection := some e.connectionId }

/-- Before a record the connection is the one that the record came over. -/
theorem reconnect_connection (replay : CoinbaseReplay) (e : RawMessage) :
    (replay.reconnect e).connection = some e.connectionId := by
  unfold reconnect
  split
  · next h => exact h
  · rfl

/-- The reason of a state change by a record (`src/session/session.cpp:530–532`). -/
def recordReason (replay : CoinbaseReplay) (result : ProcessResult) : Bytes :=
  if result.error = [] then
    if replay.snapshots ≠ 0 then ascii "fresh_recovery_snapshot" else ascii "initial_snapshot"
  else result.error

/-- The end of the record loop's body, after `process` (`src/session/session.cpp:529–537`). -/
def recorded (replay : CoinbaseReplay) (e : RawMessage) (feed : Feed) (result : ProcessResult) :
    CoinbaseReplay :=
  let previous := replay.feed.book.state
  let replay := { replay with feed, states := replay.states ++ [feed.book.state] }
  let replay := replay.transition e.recordIndex previous (replay.recordReason result)
  { replay with
    count := replay.count + 1
    results := replay.results ++ [result]
    snapshots := replay.snapshots + result.snapshots
    updates := replay.updates + result.updates }

/-- The body of the record loop after `apply_lifecycle`. The clock stands at the record
(`src/session/session.cpp:506–537`). -/
def replayRecord (symbols : CoinbaseSymbolMapper) (replay : CoinbaseReplay) (e : RawMessage) :
    Except Failure CoinbaseReplay :=
  let replay := replay.reconnect e
  match replay.feed.process symbols e e.receiveMonotonicTime with
  | (_, .error failure) => .error failure
  | (feed, .ok result) => .ok (replay.recorded e feed result)

/-- The record loop with `apply_lifecycle`, which starts by clearing `lifecycle_connected`
(`src/session/session.cpp:479–538`). -/
def loop (symbols : CoinbaseSymbolMapper) :
    Weave.Loop CoinbaseReplay LifecycleEntry RawMessage Failure where
  opening replay := { replay with lifecycleConnected := false }
  position := LifecycleEntry.beforeRecordIndex
  index _ e := e.recordIndex
  event := applyLifecycle
  record := replayRecord symbols

/-- The replay before its first record (`src/session/session.cpp:477–478`). -/
def start (lifecycle : List LifecycleEntry) : CoinbaseReplay :=
  if lifecycle = [] then initial else initial.mark .disconnected

/-- The end of the branch, with the lifecycle events that were not taken in
(`src/session/session.cpp:539–547`). -/
def finish (status : SessionStatus) (replay : CoinbaseReplay) (remaining : List LifecycleEntry) :
    Except Failure CoinbaseReplay :=
  if status = .complete ∧ remaining ≠ [] then runtimeError "invalid lifecycle ordering"
  else if status ≠ .complete ∧ status ≠ .inProgress then
    .ok (replay.assign replay.count .invalid (ascii "terminal_failure")).resetSequence
  else .ok replay

/-- Noting a transition leaves the feed alone. -/
@[simp]
theorem transition_feed (replay : CoinbaseReplay) (index : Nat) (previous : BookState)
    (reason : Bytes) : (replay.transition index previous reason).feed = replay.feed := by
  unfold transition
  split <;> rfl

/-- Noting a transition leaves the connection alone. -/
@[simp]
theorem transition_connection (replay : CoinbaseReplay) (index : Nat) (previous : BookState)
    (reason : Bytes) :
    (replay.transition index previous reason).connection = replay.connection := by
  unfold transition
  split <;> rfl

/-- Noting a transition leaves the flag of the lifecycle alone. -/
@[simp]
theorem transition_lifecycleConnected (replay : CoinbaseReplay) (index : Nat)
    (previous : BookState) (reason : Bytes) :
    (replay.transition index previous reason).lifecycleConnected = replay.lifecycleConnected := by
  unfold transition
  split <;> rfl

/-- Noting a transition leaves the results alone. -/
@[simp]
theorem transition_results (replay : CoinbaseReplay) (index : Nat) (previous : BookState)
    (reason : Bytes) : (replay.transition index previous reason).results = replay.results := by
  unfold transition
  split <;> rfl

/-- Noting a transition leaves the states alone. -/
@[simp]
theorem transition_states (replay : CoinbaseReplay) (index : Nat) (previous : BookState)
    (reason : Bytes) : (replay.transition index previous reason).states = replay.states := by
  unfold transition
  split <;> rfl

end CoinbaseReplay

/-- `sessions::replay` of a Coinbase session, from the validation of the lifecycle events on
(`src/session/session.cpp:340–352,449–547`). -/
def replayCoinbase (symbols : CoinbaseSymbolMapper) (status : SessionStatus)
    (records : List RawMessage) (lifecycle : List LifecycleEntry) :
    Except Failure CoinbaseReplay := do
  validateLifecycle (status = .complete) records.length 0 lifecycle
  let (replay, remaining) ← (CoinbaseReplay.loop symbols).run 0 (.start lifecycle) records lifecycle
  CoinbaseReplay.finish status replay remaining

end ArbitrageEngine.Sessions
