import ArbitrageEngine.Coinbase.MessageHandler

/-!
# The Coinbase connection manager

`src/adapters/coinbase/{reconnect_policy,coinbase_connection_manager}.cpp`. All entry points
run on one thread. What the manager does to its surroundings is kept in `trace`, in order:
the callbacks it makes, the tokens it hands out and the book states it passes through.
A callback that `connect_` or `schedule_` makes before it returns is the next step here,
since both are called last.
-/

namespace ArbitrageEngine.Coinbase

open Base ArbitrageEngine.Core Recording

/-! ### Reconnect delays -/

/-- `ReconnectPolicy`: the next delay in milliseconds
(`include/adapters/coinbase/reconnect_policy.hpp:4–11`). -/
structure ReconnectPolicy where
  delay : Nat := 250
  deriving DecidableEq, Repr

namespace ReconnectPolicy

/-- `next_delay`: the current delay, which doubles up to ten seconds
(`src/adapters/coinbase/reconnect_policy.cpp:4–8`). -/
def nextDelay (policy : ReconnectPolicy) : ReconnectPolicy × Nat :=
  (⟨min (policy.delay * 2) 10000⟩, policy.delay)

/-- `reset` (`include/adapters/coinbase/reconnect_policy.hpp:7`). -/
def reset : ReconnectPolicy := {}

end ReconnectPolicy

/-! ### State -/

/-- `LifecycleEvent` (`include/adapters/coinbase/coinbase_connection_manager.hpp:12–16`). -/
structure LifecycleEvent where
  beforeRecordIndex : Nat
  state : BookState
  reason : Bytes
  deriving DecidableEq, Repr

/-- `RecoveryMetrics`; durations are in nanoseconds
(`include/adapters/coinbase/coinbase_connection_manager.hpp:17–24`). -/
structure RecoveryMetrics where
  connectionsStarted : Nat := 0
  connectionsSucceeded : Nat := 0
  disconnects : Nat := 0
  reconnectAttempts : Nat := 0
  recoverySuccesses : Nat := 0
  recoveryCount : Nat := 0
  snapshotsReceived : Nat := 0
  updatesReceived : Nat := 0
  updatesBeforeSnapshot : Nat := 0
  timeToFirstSnapshot : Int := 0
  recoveryDuration : Int := 0
  validTime : Int := 0
  staleTime : Int := 0
  invalidTime : Int := 0
  lastFailureReason : Bytes := []
  deriving DecidableEq, Repr

/-- What the manager does to its surroundings and to the state of the book. A token is named by
the generation that its callbacks compare with. -/
inductive Effect
  | lifecycle (event : LifecycleEvent)
  | book (state : BookState)
  | connect (generation : Nat)
  | close
  | schedule (delay generation : Nat)
  | pushed (generation : Nat) (envelope : RawMessage) (response : SinkResponse)
  | parsed (envelope : RawMessage)
  | published (envelope : RawMessage) (result : ProcessResult) (progress : RuntimeProgress)
  deriving DecidableEq, Repr

/-- The part of the manager that decides what happens: its flags, generations, book, tracker and
handler (`include/adapters/coinbase/coinbase_connection_manager.hpp:69–77`). -/
structure Session where
  terminal : Bool
  stopping : Bool
  recoveryPending : Bool
  connected : Bool
  generation : Nat
  connectionId : Nat
  book : OrderBook
  sequence : SequenceTracker
  handler : CoinbaseMessageHandler
  trace : List Effect

/-- `CoinbaseConnectionManager`; `ticks` counts the readings of its clock
(`include/adapters/coinbase/coinbase_connection_manager.hpp:26–81`). -/
structure CoinbaseConnectionManager extends Session where
  health : FeedHealth
  backoff : ReconnectPolicy
  metrics : RecoveryMetrics
  config : FeedHealthConfig
  stateSince : ReceiveMonotonicTimestamp
  connectedAt : ReceiveMonotonicTimestamp
  recoverySince : Option ReceiveMonotonicTimestamp
  ticks : Nat

namespace CoinbaseConnectionManager

variable (clock : Nat → ReceiveMonotonicTimestamp)

/-- The constructor: a stopped manager with a disconnected book
(`src/adapters/coinbase/coinbase_connection_manager.cpp:5–29`). -/
def create (config : FeedHealthConfig) : Except Failure CoinbaseConnectionManager :=
  if config.checkInterval ≤ 0 ∨ config.maxAnyMessageAge ≤ 0 ∨ config.maxHeartbeatAge ≤ 0 ∨
      (config.maxInstrumentMessageAge.any (· ≤ 0)) = true then
    invalidArgument "health intervals must be positive"
  else
    .ok {
      terminal := false
      stopping := true
      recoveryPending := false
      connected := false
      generation := 0
      connectionId := 0
      book := (OrderBook.create .coinbase .btcUsd).mark .disconnected
      sequence := .empty
      handler := .initial
      trace := [.book .disconnected]
      health := .initial
      backoff := {}
      metrics := {}
      config
      stateSince := clock 0
      connectedAt := ⟨0⟩
      recoverySince := none
      ticks := 1 }

/-! ### Member functions -/

/-- A call out of the manager. -/
def emit (m : CoinbaseConnectionManager) (effect : Effect) : CoinbaseConnectionManager :=
  { m with trace := m.trace ++ [effect] }

/-- `account_time` (`src/adapters/coinbase/coinbase_connection_manager.cpp:34–44`). -/
def accountTime (m : CoinbaseConnectionManager) (state : BookState) : CoinbaseConnectionManager :=
  let now := clock m.ticks
  let duration := now.nanoseconds - m.stateSince.nanoseconds
  { m with
    ticks := m.ticks + 1
    stateSince := now
    metrics := { m.metrics with
      validTime := m.metrics.validTime + if state = .valid then duration else 0
      staleTime := m.metrics.staleTime + if state = .stale then duration else 0
      invalidTime := m.metrics.invalidTime + if state = .invalid then duration else 0 } }

/-- The record index that a lifecycle event precedes
(`src/adapters/coinbase/coinbase_connection_manager.cpp:48`). -/
def nextRecordIndex (progress : RuntimeProgress) : Nat :=
  match progress.lastReceivedIndex with
  | some index => index + 1
  | none => 0

/-- `transition`; an empty reason is not observed, and `Valid` is not assigned here
(`src/adapters/coinbase/coinbase_connection_manager.cpp:45–70`). -/
def transition (m : CoinbaseConnectionManager) (state : BookState) (reason : Bytes) :
    CoinbaseConnectionManager :=
  let m := if reason = [] then m
    else m.emit (.lifecycle ⟨nextRecordIndex m.handler.progress, state, reason⟩)
  let m := m.accountTime clock m.book.state
  match state with
  | .valid => m
  | state => { m with book := m.book.mark state, trace := m.trace ++ [.book state] }

/-- `begin_connection` (`src/adapters/coinbase/coinbase_connection_manager.cpp:91–118`). -/
def beginConnection (m : CoinbaseConnectionManager) : CoinbaseConnectionManager :=
  if m.stopping then m
  else
    let m := { m with recoveryPending := false, connected := false }
    let m := m.transition clock .resyncing (ascii "resynchronization")
    let m := { m with
      sequence := .empty
      connectedAt := clock m.ticks
      ticks := m.ticks + 1
      metrics := { m.metrics with connectionsStarted := m.metrics.connectionsStarted + 1 }
      generation := m.generation + 1 }
    m.emit (.connect m.generation)

/-- `start`; its `tick` only arms the health timer
(`src/adapters/coinbase/coinbase_connection_manager.cpp:71–77`). -/
def start (m : CoinbaseConnectionManager) : CoinbaseConnectionManager :=
  if !m.stopping || m.terminal then m
  else beginConnection clock { m with stopping := false }

/-- `stop` (`src/adapters/coinbase/coinbase_connection_manager.cpp:78–90`). -/
def stop (m : CoinbaseConnectionManager) : CoinbaseConnectionManager :=
  if m.stopping then m
  else
    let m := { m with
      stopping := true
      generation := m.generation + 1
      recoveryPending := false }.emit .close
    let m := { m with connected := false, sequence := .empty }
    m.transition clock .disconnected (ascii "requested_shutdown")

/-- `handle_connected` (`src/adapters/coinbase/coinbase_connection_manager.cpp:119–129`). -/
def handleConnected (m : CoinbaseConnectionManager) : CoinbaseConnectionManager :=
  if m.connected then m
  else
    let now := clock m.ticks
    let m := { m with
      connected := true
      connectionId := m.connectionId + 1
      metrics := { m.metrics with connectionsSucceeded := m.metrics.connectionsSucceeded + 1 }
      connectedAt := now
      ticks := m.ticks + 1
      health := m.health.reset now
      sequence := .empty }
    m.transition clock .initializing (ascii "new_connection")

/-- `recover` (`src/adapters/coinbase/coinbase_connection_manager.cpp:130–163`). -/
def recover (m : CoinbaseConnectionManager) (reason : Bytes) (state : BookState) :
    CoinbaseConnectionManager :=
  if m.stopping || m.recoveryPending then m
  else
    let m := { m with recoveryPending := true, generation := m.generation + 1 }
    let m := m.transition clock state reason
    let m := { m with
      sequence := .empty
      connected := false
      metrics := { m.metrics with
        disconnects := m.metrics.disconnects + if m.connected then 1 else 0
        recoveryCount := m.metrics.recoveryCount + 1
        lastFailureReason := reason } }
    let m := match m.recoverySince with
      | some _ => m
      | none => { m with recoverySince := some (clock m.ticks), ticks := m.ticks + 1 }
    let m := m.emit .close
    let (backoff, delay) := m.backoff.nextDelay
    let m := { m with
      metrics := { m.metrics with reconnectAttempts := m.metrics.reconnectAttempts + 1 }
      backoff }
    m.emit (.schedule delay m.generation)

/-- `terminal_recording_failure`
(`src/adapters/coinbase/coinbase_connection_manager.cpp:164–169`). -/
def terminalRecordingFailure (m : CoinbaseConnectionManager) (error : Bytes) :
    CoinbaseConnectionManager :=
  let m := stop clock { m with terminal := true }
  let m := { m with metrics := { m.metrics with lastFailureReason := error } }
  m.transition clock .invalid (ascii "terminal_failure")

/-- The bookkeeping of `handle_message` after a message without error
(`src/adapters/coinbase/coinbase_connection_manager.cpp:190–203`). -/
def noteSuccess (m : CoinbaseConnectionManager) (wasValid : Bool) (result : ProcessResult) :
    CoinbaseConnectionManager :=
  let m := { m with metrics := { m.metrics with
    snapshotsReceived := m.metrics.snapshotsReceived + result.snapshots
    updatesReceived := m.metrics.updatesReceived + result.updates } }
  if !wasValid && result.outcome = .bookUpdated && result.snapshots ≠ 0 then
    let m := { m with
      backoff := .reset
      metrics := { m.metrics with
        timeToFirstSnapshot := (clock m.ticks).nanoseconds - m.connectedAt.nanoseconds }
      ticks := m.ticks + 1 }
    match m.recoverySince with
    | none => m
    | some since =>
      { m with
        metrics := { m.metrics with
          recoverySuccesses := m.metrics.recoverySuccesses + 1
          recoveryDuration := (clock m.ticks).nanoseconds - since.nanoseconds }
        ticks := m.ticks + 1
        recoverySince := none }
  else m

/-- The call of `handler_.handle`: the sink, the processor, `publish_`
(`src/adapters/coinbase/coinbase_connection_manager.cpp:177`). -/
def handle (m : CoinbaseConnectionManager) (raw : Bytes) (wall : ReceiveWallTimestamp)
    (mono : ReceiveMonotonicTimestamp) (response : SinkResponse) (now : ReceiveMonotonicTimestamp) :
    CoinbaseConnectionManager × ProcessResult :=
  let envelope := m.handler.envelope raw wall mono
  let (handler, feed, result) :=
    m.handler.handle .default ⟨m.book, m.sequence, m.health⟩ raw wall mono response now
  let processing := if response = .returned .accepted then [Effect.parsed envelope] else []
  ({ m with
      handler
      book := feed.book
      sequence := feed.sequence
      health := feed.health
      trace := m.trace ++ [.pushed m.generation envelope response] ++ processing ++
        [.book feed.book.state, .published envelope result handler.progress] }, result)

/-- The end of `handle_message`: what follows from the result of the handler
(`src/adapters/coinbase/coinbase_connection_manager.cpp:178–203`). -/
def finishMessage (m : CoinbaseConnectionManager) (previousState : BookState)
    (result : ProcessResult) : CoinbaseConnectionManager × Bool :=
  let wasValid : Bool := previousState = .valid
  let m := if m.book.state ≠ previousState then m.accountTime clock previousState else m
  if result.outcome = .recordingRejected then
    (m.terminalRecordingFailure clock result.error, false)
  else if result.error ≠ [] then
    let m := if result.error = ascii "L2 update before snapshot" then
        { m with metrics := { m.metrics with
            updatesBeforeSnapshot := m.metrics.updatesBeforeSnapshot + 1 } }
      else m
    (m.recover clock result.error .invalid, false)
  else (m.noteSuccess clock wasValid result, true)

/-- `handle_message` (`src/adapters/coinbase/coinbase_connection_manager.cpp:170–204`). -/
def handleMessage (m : CoinbaseConnectionManager) (raw : Bytes) (wall : ReceiveWallTimestamp)
    (mono : ReceiveMonotonicTimestamp) (response : SinkResponse) (now : ReceiveMonotonicTimestamp) :
    CoinbaseConnectionManager × Bool :=
  if !m.connected then (m, false)
  else
    let m := { m with handler := { m.handler with connectionId := m.connectionId } }
    let previousState := m.book.state
    let (m, result) := m.handle raw wall mono response now
    m.finishMessage clock previousState result

/-- `check_health` (`src/adapters/coinbase/coinbase_connection_manager.cpp:205–221`). -/
def checkHealth (m : CoinbaseConnectionManager) : CoinbaseConnectionManager :=
  if m.stopping then m
  else if !m.connected then
    if m.recoveryPending then m
    else
      let now := clock m.ticks
      let m := { m with ticks := m.ticks + 1 }
      if 30000000000 < now.nanoseconds - m.connectedAt.nanoseconds then
        m.recover clock (ascii "Coinbase connection timeout") .disconnected
      else m
  else
    let reason := m.health.failure (clock m.ticks) m.config
    let m := { m with ticks := m.ticks + 1 }
    if reason = [] then m.transition clock m.book.state []
    else
      let m := if reason = ascii "Coinbase heartbeat timeout" then
          { m with health := { m.health with heartbeatTimeouts := m.health.heartbeatTimeouts + 1 } }
        else m
      m.recover clock reason .stale

/-- `force_disconnect_for_test`
(`src/adapters/coinbase/coinbase_connection_manager.cpp:232–234`). -/
def forceDisconnect (m : CoinbaseConnectionManager) : CoinbaseConnectionManager :=
  m.recover clock (ascii "forced local disconnect") .disconnected

/-! ### Callbacks -/

/-- The test that every callback of generation `generation` starts with
(`src/adapters/coinbase/coinbase_connection_manager.cpp:104,109,114,150`). -/
def live (m : CoinbaseConnectionManager) (generation : Nat) : Bool :=
  !m.stopping && generation = m.generation

/-- The message callback passed to `connect_`
(`src/adapters/coinbase/coinbase_connection_manager.cpp:103–107`). -/
def onMessage (m : CoinbaseConnectionManager) (generation : Nat) (raw : Bytes)
    (wall : ReceiveWallTimestamp) (mono : ReceiveMonotonicTimestamp) (response : SinkResponse)
    (now : ReceiveMonotonicTimestamp) : CoinbaseConnectionManager × Bool :=
  if m.live generation then m.handleMessage clock raw wall mono response now else (m, false)

/-- The error callback passed to `connect_`
(`src/adapters/coinbase/coinbase_connection_manager.cpp:108–112`). -/
def onError (m : CoinbaseConnectionManager) (generation : Nat) (reason : Bytes) :
    CoinbaseConnectionManager :=
  if m.live generation then m.recover clock reason .disconnected else m

/-- The connected callback passed to `connect_`
(`src/adapters/coinbase/coinbase_connection_manager.cpp:113–117`). -/
def onConnected (m : CoinbaseConnectionManager) (generation : Nat) : CoinbaseConnectionManager :=
  if m.live generation then m.handleConnected clock else m

/-- The resume passed to `schedule_`
(`src/adapters/coinbase/coinbase_connection_manager.cpp:149–153`). -/
def onResume (m : CoinbaseConnectionManager) (generation : Nat) : CoinbaseConnectionManager :=
  if m.live generation then m.beginConnection clock else m

/-! ### Runs -/

/-- The token of this connection attempt was passed to `connect_`. -/
def attempted (m : CoinbaseConnectionManager) (generation : Nat) : Bool :=
  m.trace.any fun
    | .connect other => other = generation
    | _ => false

/-- The resume of this generation was passed to `schedule_`. -/
def scheduled (m : CoinbaseConnectionManager) (generation : Nat) : Bool :=
  m.trace.any fun
    | .schedule _ other => other = generation
    | _ => false

/-- An entry point or a callback, with what the surroundings supply. A message comes with the
answer of the sink and the clock reading of the processor. -/
inductive Action
  | start
  | stop
  | checkHealth
  | forceDisconnect
  | terminalRecordingFailure (error : Bytes)
  | message (generation : Nat) (raw : Bytes) (wall : ReceiveWallTimestamp)
      (mono : ReceiveMonotonicTimestamp) (response : SinkResponse) (now : ReceiveMonotonicTimestamp)
  | error (generation : Nat) (reason : Bytes)
  | connected (generation : Nat)
  | resume (generation : Nat)
  deriving DecidableEq, Repr

/-- One action; only callbacks that were handed out can be invoked. -/
def step (m : CoinbaseConnectionManager) : Action → CoinbaseConnectionManager
  | .start => m.start clock
  | .stop => m.stop clock
  | .checkHealth => m.checkHealth clock
  | .forceDisconnect => m.forceDisconnect clock
  | .terminalRecordingFailure error => m.terminalRecordingFailure clock error
  | .message generation raw wall mono response now =>
    if m.attempted generation then (m.onMessage clock generation raw wall mono response now).1
    else m
  | .error generation reason =>
    if m.attempted generation then m.onError clock generation reason else m
  | .connected generation => if m.attempted generation then m.onConnected clock generation else m
  | .resume generation => if m.scheduled generation then m.onResume clock generation else m

/-- A run: any list of actions, one after another. -/
def run (m : CoinbaseConnectionManager) (actions : List Action) : CoinbaseConnectionManager :=
  actions.foldl (step clock) m

end CoinbaseConnectionManager

end ArbitrageEngine.Coinbase
