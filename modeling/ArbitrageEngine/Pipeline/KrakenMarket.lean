import ArbitrageEngine.Coinbase.ConnectionManager
import ArbitrageEngine.Kraken.ProcessorRuns
import Mathlib.Logic.Relation

/-!
# The market loop of `run_kraken`

`src/pipeline/kraken_runtime.cpp`: the lambdas of the market thread. They run on one thread,
each to its end; what they do to their surroundings is kept in `trace`, in order. A callback
that `client->connect()` makes before it returns is the next action here, since it is called
last. `publish` only writes what the display shows and is not part of the model.
-/

namespace ArbitrageEngine.Pipeline

open Base ArbitrageEngine.Core Coinbase Kraken Recording

/-! ### State -/

/-- What the market thread does to the queue, the shared status, its client and its timers. -/
inductive KrakenEffect
  | pushed (envelope : RawMessage) (result : PushResult)
  /-- The section under the mutex that follows `try_push`. -/
  | received (index : Nat) (result : PushResult)
  /-- The section under the mutex that follows `process`. -/
  | processed (index : Nat)
  | lifecycle (event : LifecycleEvent)
  | connect (connection : Nat)
  | abort
  | schedule (delay : Nat)
  | cancelRetry
  | closeQueue
  deriving DecidableEq, Repr

/-- The variables of the market thread that decide what is recorded
(`src/pipeline/kraken_runtime.cpp:39–46`). -/
structure KrakenSession where
  processor : KrakenBookProcessor
  index : Nat
  connection : Nat
  stopping : Bool
  firstRecord : Bool
  seenRecord : Bool
  trace : List KrakenEffect

/-- The variables of the market thread (`src/pipeline/kraken_runtime.cpp:39–46`). -/
structure KrakenMarket extends KrakenSession where
  recovering : Bool
  connected : Bool
  forced : Bool
  started : ReceiveMonotonicTimestamp
  connectedAt : ReceiveMonotonicTimestamp
  backoff : ReconnectPolicy

/-- The arguments of `run_kraken` that its ticks read, in seconds
(`src/pipeline/kraken_runtime.cpp:20–21`). -/
structure KrakenLimits where
  duration : Int := 0
  forceSeconds : Int := 0
  deriving DecidableEq, Repr

namespace KrakenMarket

/-- The variables at their declaration (`src/pipeline/kraken_runtime.cpp:39–46`). -/
def initial (processor : KrakenBookProcessor) (now : ReceiveMonotonicTimestamp) : KrakenMarket where
  processor
  index := 0
  connection := 0
  stopping := false
  firstRecord := true
  seenRecord := false
  trace := []
  recovering := false
  connected := false
  forced := false
  started := now
  connectedAt := now
  backoff := {}

/-! ### Lambdas -/

/-- The `stop` lambda; without a client there is nothing to abort
(`src/pipeline/kraken_runtime.cpp:60–67`). -/
def stop (m : KrakenMarket) : KrakenMarket :=
  { m with
    stopping := true
    connected := false
    trace := m.trace ++ [.abort, .cancelRetry, .closeQueue] }

/-- The `recover` lambda (`src/pipeline/kraken_runtime.cpp:69–92`). -/
def recover (m : KrakenMarket) (reason : Bytes) (stale : Bool) : KrakenMarket :=
  if m.stopping || m.recovering then m
  else
    let processor := if stale then m.processor.stale else m.processor.disconnect
    let (backoff, delay) := m.backoff.nextDelay
    { m with
      recovering := true
      connected := false
      processor
      backoff
      trace := m.trace ++
        [.lifecycle ⟨m.index, processor.book.state, reason⟩, .abort, .schedule delay] }

/-- The `connect` lambda (`src/pipeline/kraken_runtime.cpp:93–156`). -/
def connect (m : KrakenMarket) (now : ReceiveMonotonicTimestamp) : KrakenMarket :=
  { m with
    recovering := false
    firstRecord := true
    connection := m.connection + 1
    connectedAt := now
    trace := m.trace ++ [.connect (m.connection + 1)] }

/-- The handler of the retry timer, when it was not cancelled
(`src/pipeline/kraken_runtime.cpp:87–90`). -/
def onRetry (m : KrakenMarket) (now : ReceiveMonotonicTimestamp) : KrakenMarket :=
  if m.stopping then m else m.connect now

/-! ### Client callbacks -/

/-- The envelope of a message (`src/pipeline/kraken_runtime.cpp:103–105`). -/
def envelope (s : KrakenSession) (payload : Bytes) (wall : ReceiveWallTimestamp)
    (mono : ReceiveMonotonicTimestamp) : RawMessage :=
  ⟨s.index, .kraken, s.connection, wall, mono, payload⟩

/-- The call of `try_push` with the section after it (`src/pipeline/kraken_runtime.cpp:106–122`). -/
def pushed (s : KrakenSession) (envelope : RawMessage) (result : PushResult) : KrakenSession :=
  { s with trace := s.trace ++ [.pushed envelope result, .received s.index result] }

/-- The `first_record` block: the processor is reset at the first record of a later connection
(`src/pipeline/kraken_runtime.cpp:129–134`). -/
def opened (s : KrakenSession) : KrakenSession :=
  if s.firstRecord then
    { s with
      processor := if s.seenRecord then s.processor.resetConnection else s.processor
      firstRecord := false
      seenRecord := true }
  else s

/-- The call of `process` with the section after it (`src/pipeline/kraken_runtime.cpp:135–140`). -/
def processed (crc : Bytes → UInt32) (s : KrakenSession) (payload : Bytes)
    (wall : ReceiveWallTimestamp) (mono : ReceiveMonotonicTimestamp) : KrakenSession × Bool :=
  let (processor, ok) := s.processor.process crc payload wall mono
  ({ s with
    processor
    index := s.index + 1
    trace := s.trace ++ [.processed s.index] }, ok)

/-- The reason of the recovery after a message that was not processed well
(`src/pipeline/kraken_runtime.cpp:143–144`). -/
def failureReason (processor : KrakenBookProcessor) : Bytes :=
  if processor.error = [] then processor.outcomeText else processor.error

/-- The market thread with other variables of the session. -/
def withSession (m : KrakenMarket) (s : KrakenSession) : KrakenMarket :=
  { m with toKrakenSession := s }

/-- The end of the message callback, after `process` (`src/pipeline/kraken_runtime.cpp:141–147`). -/
def finishMessage (m : KrakenMarket) (ok : Bool) : KrakenMarket × Bool :=
  if !ok then (m.recover (failureReason m.processor) false, ok)
  else if m.processor.book.state = .valid then ({ m with backoff := .reset }, ok)
  else (m, ok)

/-- The message callback, with the answer of `try_push`
(`src/pipeline/kraken_runtime.cpp:100–148`). -/
def onMessage (crc : Bytes → UInt32) (m : KrakenMarket) (payload : Bytes)
    (wall : ReceiveWallTimestamp) (mono : ReceiveMonotonicTimestamp) (result : PushResult) :
    KrakenMarket × Bool :=
  if m.stopping then (m, false)
  else
    let e := envelope m.toKrakenSession payload wall mono
    let m := m.withSession (pushed m.toKrakenSession e result)
    if result ≠ .accepted then ({ m with processor := m.processor.invalidate }.stop, false)
    else
      let (session, ok) := processed crc (opened m.toKrakenSession) payload wall mono
      (m.withSession session).finishMessage ok

/-- The error callback (`src/pipeline/kraken_runtime.cpp:149`). -/
def onError (m : KrakenMarket) (error : Bytes) : KrakenMarket := m.recover error false

/-- The connected callback (`src/pipeline/kraken_runtime.cpp:150–153`). -/
def onConnected (m : KrakenMarket) (now : ReceiveMonotonicTimestamp) : KrakenMarket :=
  { m with connected := true, connectedAt := now }

/-! ### Ticks -/

/-- `seconds` have passed since the start; zero is no limit
(`src/pipeline/kraken_runtime.cpp:177–178,184–186`). -/
def elapsed (m : KrakenMarket) (now : ReceiveMonotonicTimestamp) (seconds : Int) : Bool :=
  seconds ≠ 0 && seconds * 1000000000 ≤ now.nanoseconds - m.started.nanoseconds

/-- The forced disconnect of a tick (`src/pipeline/kraken_runtime.cpp:184–189`). -/
def forceDisconnect (limits : KrakenLimits) (m : KrakenMarket) (now : ReceiveMonotonicTimestamp) :
    KrakenMarket :=
  if !m.recovering && !m.forced && m.elapsed now limits.forceSeconds then
    { m with forced := true }.recover (ascii "forced_disconnect") false
  else m

/-- The timeouts of a tick (`src/pipeline/kraken_runtime.cpp:190–200`). -/
def checkTimeouts (m : KrakenMarket) (now : ReceiveMonotonicTimestamp) : KrakenMarket :=
  if m.connected && !m.recovering then
    let last := if m.firstRecord then m.connectedAt else m.processor.lastMessage.getD m.connectedAt
    if 5000000000 < now.nanoseconds - last.nanoseconds then
      m.recover (ascii "message_timeout") true
    else if m.processor.book.state ≠ .valid ∧
        15000000000 < now.nanoseconds - m.connectedAt.nanoseconds then
      m.recover (ascii "snapshot_timeout") false
    else m
  else m

/-- The `tick` lambda. It reads the status twice for a fatal error; `requested` is the signal
(`src/pipeline/kraken_runtime.cpp:172–207`). -/
def tick (limits : KrakenLimits) (m : KrakenMarket) (now : ReceiveMonotonicTimestamp)
    (fatal fatalLater requested : Bool) : KrakenMarket :=
  let m := if fatal then { m with processor := m.processor.invalidate } else m
  let m := if requested || fatalLater || m.elapsed now limits.duration then m.stop else m
  if m.stopping then m else (m.forceDisconnect limits now).checkTimeouts now

/-! ### Runs -/

/-- Everything that can happen on the market thread, with what the surroundings supply. -/
inductive Action
  /-- `connect` or `stop` before the loop. -/
  | connect (now : ReceiveMonotonicTimestamp)
  | stop
  | message (payload : Bytes) (wall : ReceiveWallTimestamp) (mono : ReceiveMonotonicTimestamp)
      (result : PushResult)
  | error (reason : Bytes)
  | connected (now : ReceiveMonotonicTimestamp)
  | retry (now : ReceiveMonotonicTimestamp)
  | tick (now : ReceiveMonotonicTimestamp) (fatal fatalLater requested : Bool)
  deriving DecidableEq, Repr

/-- One action. -/
def step (crc : Bytes → UInt32) (limits : KrakenLimits) (m : KrakenMarket) : Action → KrakenMarket
  | .connect now => m.connect now
  | .stop => m.stop
  | .message payload wall mono result => (m.onMessage crc payload wall mono result).1
  | .error reason => m.onError reason
  | .connected now => m.onConnected now
  | .retry now => m.onRetry now
  | .tick now fatal fatalLater requested => m.tick limits now fatal fatalLater requested

/-- A run: any list of actions, one after another. -/
def run (crc : Bytes → UInt32) (limits : KrakenLimits) (m : KrakenMarket) (actions : List Action) :
    KrakenMarket :=
  actions.foldl (step crc limits) m

/-- The queue takes every message and no tick sees a fatal error. -/
def Action.clean : Action → Bool
  | message _ _ _ result => result = .accepted
  | tick _ fatal fatalLater _ => !fatal && !fatalLater
  | _ => true

end KrakenMarket

/-! ### What an action can do -/

namespace KrakenSession

/-- A new connection attempt. -/
def connecting (s : KrakenSession) : KrakenSession :=
  { s with
    firstRecord := true
    connection := s.connection + 1
    trace := s.trace ++ [.connect (s.connection + 1)] }

/-- The connection is given up. -/
def recovering (s : KrakenSession) (reason : Bytes) (state : BookState) (delay : Nat) :
    KrakenSession :=
  { s with
    processor := s.processor.mark state
    trace := s.trace ++ [.lifecycle ⟨s.index, state, reason⟩, .abort, .schedule delay] }

/-- The loop is told to end. -/
def stopped (s : KrakenSession) : KrakenSession :=
  { s with stopping := true, trace := s.trace ++ [.abort, .cancelRetry, .closeQueue] }

/-- The book is given up. -/
def invalidated (s : KrakenSession) : KrakenSession :=
  { s with processor := s.processor.invalidate }

/-- The parts of which actions consist. A session that is not `faulty` meets no fatal error and
no rejection. -/
inductive Step (crc : Bytes → UInt32) (faulty : Prop) (s : KrakenSession) : KrakenSession → Prop
  | connect : Step crc faulty s s.connecting
  | recover (reason : Bytes) (state : BookState) (delay : Nat) (running : s.stopping = false)
      (state_eq : state = .disconnected ∨ state = .stale) :
      Step crc faulty s (s.recovering reason state delay)
  | stop : Step crc faulty s s.stopped
  | invalidate (fault : faulty) : Step crc faulty s s.invalidated
  | accepted (payload : Bytes) (wall : ReceiveWallTimestamp) (mono : ReceiveMonotonicTimestamp)
      (running : s.stopping = false) :
      Step crc faulty s (KrakenMarket.processed crc (KrakenMarket.opened
        (KrakenMarket.pushed s (KrakenMarket.envelope s payload wall mono) .accepted))
        payload wall mono).1
  | refused (payload : Bytes) (wall : ReceiveWallTimestamp) (mono : ReceiveMonotonicTimestamp)
      (result : PushResult) (running : s.stopping = false) (refusal : result ≠ .accepted)
      (fault : faulty) :
      Step crc faulty s
        (KrakenMarket.pushed s (KrakenMarket.envelope s payload wall mono)
          result).invalidated.stopped

/-- Any number of steps. -/
def Steps (crc : Bytes → UInt32) (faulty : Prop) : KrakenSession → KrakenSession → Prop :=
  Relation.ReflTransGen (Step crc faulty)

end KrakenSession

namespace KrakenMarket

open KrakenSession

variable {crc : Bytes → UInt32} {faulty : Prop}

private theorem recover_steps (m : KrakenMarket) (reason : Bytes) (stale : Bool) :
    Steps crc faulty m.toKrakenSession (m.recover reason stale).toKrakenSession := by
  unfold recover
  split
  · exact .refl
  · next h =>
    simp only [Bool.or_eq_true, not_or, Bool.not_eq_true] at h
    cases stale with
    | true => exact .single (.recover reason .stale m.backoff.nextDelay.2 h.1 (.inr rfl))
    | false => exact .single (.recover reason .disconnected m.backoff.nextDelay.2 h.1 (.inl rfl))

private theorem finishMessage_steps (m : KrakenMarket) (ok : Bool) :
    Steps crc faulty m.toKrakenSession (m.finishMessage ok).1.toKrakenSession := by
  unfold finishMessage
  split
  · exact recover_steps m _ _
  · split <;> exact .refl

private theorem onMessage_steps (m : KrakenMarket) (payload : Bytes) (wall : ReceiveWallTimestamp)
    (mono : ReceiveMonotonicTimestamp) (result : PushResult) (hf : result ≠ .accepted → faulty) :
    Steps crc faulty m.toKrakenSession
      (m.onMessage crc payload wall mono result).1.toKrakenSession := by
  unfold onMessage
  split
  · exact .refl
  · next hs =>
    rw [Bool.not_eq_true] at hs
    dsimp only
    split
    · next hr => exact .single (.refused payload wall mono result hs hr (hf hr))
    · next hr =>
      rw [ne_eq, not_not] at hr
      subst hr
      have hstep : Steps crc faulty m.toKrakenSession _ :=
        .single (.accepted payload wall mono hs)
      exact hstep.trans (finishMessage_steps (withSession _ _) _)

private theorem forceDisconnect_steps (limits : KrakenLimits) (m : KrakenMarket)
    (now : ReceiveMonotonicTimestamp) :
    Steps crc faulty m.toKrakenSession (m.forceDisconnect limits now).toKrakenSession := by
  unfold forceDisconnect
  split
  · exact recover_steps { m with forced := true } _ _
  · exact .refl

private theorem checkTimeouts_steps (m : KrakenMarket) (now : ReceiveMonotonicTimestamp) :
    Steps crc faulty m.toKrakenSession (m.checkTimeouts now).toKrakenSession := by
  unfold checkTimeouts
  split
  · generalize (if m.firstRecord then m.connectedAt
      else m.processor.lastMessage.getD m.connectedAt) = last
    dsimp only
    split
    · exact recover_steps m _ _
    · split
      · exact recover_steps m _ _
      · exact .refl
  · exact .refl

private theorem tick_steps (limits : KrakenLimits) (m : KrakenMarket)
    (now : ReceiveMonotonicTimestamp) (fatal fatalLater requested : Bool)
    (hf : fatal = true → faulty) :
    Steps crc faulty m.toKrakenSession
      (m.tick limits now fatal fatalLater requested).toKrakenSession := by
  unfold tick
  dsimp only
  generalize hm₁ : (if fatal then { m with processor := m.processor.invalidate } else m) = m₁
  have h₁ : Steps crc faulty m.toKrakenSession m₁.toKrakenSession := by
    subst hm₁
    split
    · next h => exact .single (.invalidate (hf h))
    · exact .refl
  generalize hm₂ : (if requested || fatalLater || m₁.elapsed now limits.duration then m₁.stop
    else m₁) = m₂
  have h₂ : Steps crc faulty m₁.toKrakenSession m₂.toKrakenSession := by
    subst hm₂
    split
    · exact .single .stop
    · exact .refl
  split
  · exact h₁.trans h₂
  · exact (h₁.trans h₂).trans ((forceDisconnect_steps limits m₂ now).trans
      (checkTimeouts_steps _ now))

/-- Every action consists of steps. -/
theorem step_steps (limits : KrakenLimits) (m : KrakenMarket) (action : Action)
    (hf : action.clean = false → faulty) :
    Steps crc faulty m.toKrakenSession (m.step crc limits action).toKrakenSession := by
  cases action with
  | connect now => exact .single .connect
  | stop => exact .single .stop
  | message payload wall mono result =>
    refine onMessage_steps m payload wall mono result fun hr ↦ hf ?_
    simpa [Action.clean] using hr
  | error reason => exact recover_steps m reason false
  | connected now => exact .refl
  | retry now =>
    simp only [step, onRetry]
    split
    · exact .refl
    · exact .single .connect
  | tick now fatal fatalLater requested =>
    refine tick_steps limits m now fatal fatalLater requested fun h ↦ hf ?_
    simp [Action.clean, h]

/-- What steps preserve holds along runs. -/
theorem run_invariant {I : KrakenSession → Prop} {limits : KrakenLimits} {m : KrakenMarket}
    (hstep : ∀ s s', Step crc faulty s s' → I s → I s') (hm : I m.toKrakenSession)
    {actions : List Action} (hf : ∀ action ∈ actions, action.clean = false → faulty) :
    I (m.run crc limits actions).toKrakenSession := by
  induction actions generalizing m with
  | nil => exact hm
  | cons action rest ih =>
    have hsteps : Steps crc faulty _ _ := step_steps limits m action (hf action List.mem_cons_self)
    have hnext : I (m.step crc limits action).toKrakenSession := by
      generalize (m.step crc limits action).toKrakenSession = s at hsteps
      induction hsteps with
      | refl => exact hm
      | tail _ hs ih => exact hstep _ _ hs ih
    exact ih hnext fun other ho ↦ hf other (List.mem_cons_of_mem _ ho)

end KrakenMarket

end ArbitrageEngine.Pipeline
