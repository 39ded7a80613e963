import ArbitrageEngine.Coinbase.Session
import ArbitrageEngine.Pipeline.KrakenMarket
import ArbitrageEngine.Pipeline.Runtime

/-!
# The two market threads

`src/pipeline/live_runtime.cpp` and `src/pipeline/kraken_runtime.cpp`: what each market thread
puts into the common skeleton. The sections of an action are read off from what it appends to
the trace of the thread. `run_live` is given a `Capture` here, so lifecycle events are observed.
-/

namespace ArbitrageEngine.Pipeline

open Base ArbitrageEngine.Core Coinbase Kraken Recording

/-! ### `run_live` -/

/-- The sections that belong to an effect of the connection manager. -/
def effectOp : Effect → Option Op
  | .lifecycle event => some (.lifecycle event)
  | .published _ result progress => some (.published result progress)
  | _ => none

/-- The sections of the effects by which a trace has grown. -/
def sectionsSince (before after : List Effect) : List Op :=
  (after.drop before.length).filterMap effectOp

/-- The variables of the market thread of `run_live` (`src/pipeline/live_runtime.cpp:99,166`). -/
structure LiveMarket where
  manager : CoinbaseConnectionManager
  stopping : Bool

/-- What happens on the market thread: a call or callback of the manager, the `stop` lambda, a
tick. -/
inductive LiveAction
  | manager (action : CoinbaseConnectionManager.Action)
  | stop (error : Bytes)
  | tick (fatal : Option Bytes) (requested : Bool)
  deriving DecidableEq, Repr

namespace LiveMarket

variable (clock : Nat → ReceiveMonotonicTimestamp)

/-- The thread before its loop. -/
def initial (manager : CoinbaseConnectionManager) : LiveMarket := ⟨manager, false⟩

/-- The manager call of the `stop` lambda (`src/pipeline/live_runtime.cpp:169–172`). -/
def stopManager (m : LiveMarket) (error : Bytes) : CoinbaseConnectionManager :=
  if error ≠ [] then m.manager.terminalRecordingFailure clock error
  else if !m.stopping then m.manager.stop clock
  else m.manager

/-- The `stop` lambda (`src/pipeline/live_runtime.cpp:167–178`). -/
def stop (m : LiveMarket) (error : Bytes) : LiveMarket × List Op :=
  (⟨m.stopManager clock error, true⟩,
    sectionsSince m.manager.trace (m.stopManager clock error).trace ++
      if !m.stopping then [.closeQueue] else [])

/-- The `tick` lambda, up to its timer (`src/pipeline/live_runtime.cpp:217–229`). -/
def tick (m : LiveMarket) (fatal : Option Bytes) (requested : Bool) : LiveMarket × List Op :=
  let (m, ops) :=
    if requested || fatal.isSome || m.manager.terminal then m.stop clock (fatal.getD [])
    else (m, [])
  (m, ops ++ if m.stopping then [.settle] else [])

/-- The sections of `~CoinbaseConnectionManager`, which stops a manager that is running
(`src/adapters/coinbase/coinbase_connection_manager.cpp:30–33`). -/
def destroyed (m : LiveMarket) : List Op :=
  sectionsSince m.manager.trace (m.manager.stop clock).trace

/-- One action. -/
def step (m : LiveMarket) : LiveAction → LiveMarket × List Op
  | .manager action =>
    let manager := m.manager.step clock action
    ({ m with manager }, sectionsSince m.manager.trace manager.trace)
  | .stop error => m.stop clock error
  | .tick fatal requested => m.tick clock fatal requested

/-- The envelope that an action gives to the queue. -/
def handed (m : LiveMarket) : LiveAction → Option RawMessage
  | .manager action => m.manager.handed action
  | _ => none

end LiveMarket

namespace LiveAction

/-- The action with the answer of the queue. -/
def answered : LiveAction → PushResult → LiveAction
  | manager (.message generation raw wall mono _ now), result =>
    manager (.message generation raw wall mono (.returned result) now)
  | action, _ => action

/-- The manager's callbacks and timers. -/
def isCallback : LiveAction → Bool
  | manager (.message ..) | manager (.error ..) | manager (.connected _) | manager (.resume _)
  | manager .checkHealth | manager .forceDisconnect => true
  | _ => false

/-- The branches after the first look at the status (`src/pipeline/live_runtime.cpp:196–207`). -/
def refusal : Option Bytes → Bool → Option LiveAction
  | some error, _ => some (stop error)
  | none, true => some (stop [])
  | none, false => none

end LiveAction

/-- The market thread of `run_live`. An exception unwinds it before the handler is entered: posting
is cleared and the manager is destroyed (`src/pipeline/live_runtime.cpp:92–256`). -/
def liveProgram (clock : Nat → ReceiveMonotonicTimestamp) : Program LiveMarket LiveAction where
  step := LiveMarket.step clock
  handed := LiveMarket.handed
  answered := LiveAction.answered
  isCallback := LiveAction.isCallback
  refuses := LiveAction.refusal
  start := fun _ ↦ .manager .start
  failure := .stop
  tick := fun _ _ fatal requested ↦ .tick fatal requested
  rearms := fun _ ↦ true
  posts := true
  handler := fun m what ↦ .clearPost :: m.destroyed clock ++ [.closeQueue, .caught what]
  farewell := [.clearPost]
  refuses_fatal := nofun
  handler_fatal := fun m what ↦ by
    rw [List.any_append]
    exact Bool.or_eq_true_iff.mpr (.inr rfl)

/-! ### `run_kraken` -/

/-- The section that an effect of the Kraken loop is. -/
def krakenOp : KrakenEffect → Option Op
  | .received index result => some (.received index result)
  | .processed index => some (.processed index)
  | .lifecycle event => some (.lifecycle event)
  | .closeQueue => some .closeQueue
  | _ => none

/-- The sections of the effects by which a trace has grown. -/
def krakenSectionsSince (before after : List KrakenEffect) : List Op :=
  (after.drop before.length).filterMap krakenOp

namespace KrakenMarket

/-- The envelope that an action gives to the queue. -/
def handed (m : KrakenMarket) : Action → Option RawMessage
  | .message payload wall mono _ =>
    if m.stopping then none else some (envelope m.toKrakenSession payload wall mono)
  | _ => none

namespace Action

/-- The action with the answer of the queue. -/
def answered : Action → PushResult → Action
  | message payload wall mono _, result => message payload wall mono result
  | action, _ => action

/-- The callbacks of the client and the retry timer. -/
def isCallback : Action → Bool
  | message .. | error _ | connected _ | retry _ => true
  | _ => false

end Action

end KrakenMarket

/-- The market thread of `run_kraken`; nothing is posted to it
(`src/pipeline/kraken_runtime.cpp:33–236`). -/
def krakenProgram (crc : Bytes → UInt32) (limits : KrakenLimits) :
    Program KrakenMarket KrakenMarket.Action where
  step := fun m action ↦
    (m.step crc limits action, krakenSectionsSince m.trace (m.step crc limits action).trace)
  handed := KrakenMarket.handed
  answered := KrakenMarket.Action.answered
  isCallback := KrakenMarket.Action.isCallback
  refuses := fun fatal _ ↦ fatal.map fun _ ↦ .stop
  start := .connect
  failure := fun _ ↦ .stop
  tick := fun now first last requested ↦ .tick now first.isSome last.isSome requested
  rearms := fun m ↦ !m.stopping
  posts := false
  handler := fun _ what ↦ [.overruled what]
  farewell := []
  refuses_fatal := nofun
  handler_fatal := fun _ _ ↦ rfl

end ArbitrageEngine.Pipeline
