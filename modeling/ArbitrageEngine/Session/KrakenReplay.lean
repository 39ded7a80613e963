import ArbitrageEngine.Kraken.ProcessorRuns
import ArbitrageEngine.Session.Manifest

/-!
# Session replay, Kraken branch

`src/session/session.cpp`: the Kraken branch of `sessions::replay`. A session is its records,
its lifecycle events and its status; what depends on files only is not part of the model.
-/

namespace ArbitrageEngine.Sessions

open Base ArbitrageEngine.Core Kraken Recording

/-! ### The hashed book -/

/-- The JSON object that `final_book_hash` is taken of (`src/session/session.cpp:407–410`). -/
structure BookContents where
  bids : List (Nat × Nat)
  asks : List (Nat × Nat)
  state : Bytes
  bookSequence : Option Nat
  deriving DecidableEq, Repr

/-- The levels of one side as raw numbers, best first (`src/session/session.cpp:411–414`). -/
def rawLevels {cmp : PriceTicks → PriceTicks → Ordering} [Std.TransCmp cmp] (levels : Levels cmp) :
    List (Nat × Nat) :=
  levels.toList.map fun (price, quantity) ↦ (price.raw, quantity.raw)

/-- `contents` of the Kraken branch (`src/session/session.cpp:406–414`). -/
def krakenContents (book : OrderBook) : BookContents :=
  ⟨rawLevels book.bids, rawLevels book.asks, bookName book.state, none⟩

/-! ### The state of a replay -/

/-- The variables of the Kraken branch; `outcomes` in the order of the records
(`src/session/session.cpp:354–359`). -/
structure KrakenReplay where
  processor : KrakenBookProcessor
  outcomes : List (Option ProcessOutcome)
  transitions : List StateTransition
  connection : Option Nat
  count : Nat

namespace KrakenReplay

/-- The variables at their declaration (`src/session/session.cpp:354–359`). -/
def initial (processor : KrakenBookProcessor) : KrakenReplay := ⟨processor, [], [], none, 0⟩

/-- The `transition` lambda; the new state is that of the book
(`src/session/session.cpp:360–366`). -/
def transition (replay : KrakenReplay) (before : BookState) (reason : Bytes) : KrakenReplay :=
  if before = replay.processor.book.state then replay
  else { replay with
    transitions := replay.transitions ++
      [⟨replay.count, before, replay.processor.book.state, reason⟩] }

/-- A change of the processor with the `transition` call after it. -/
def assign (replay : KrakenReplay) (processor : KrakenBookProcessor) (reason : Bytes) :
    KrakenReplay :=
  { replay with processor }.transition replay.processor.book.state reason

/-- What a lifecycle event does to the processor: any other name disconnects
(`src/session/session.cpp:372–377`). -/
def applyState (processor : KrakenBookProcessor) (state : Bytes) : KrakenBookProcessor :=
  if state = ascii "STALE" then processor.stale
  else if state = ascii "INVALID" then processor.invalidate
  else processor.disconnect

/-- The body of the loop in `apply_lifecycle` (`src/session/session.cpp:370–378`). -/
def applyLifecycle (replay : KrakenReplay) (event : LifecycleEntry) : Except Failure KrakenReplay :=
  .ok (replay.assign (applyState replay.processor event.state) event.reason)

/-- What happens before a record of another connection (`src/session/session.cpp:386–392`). -/
def reconnect (replay : KrakenReplay) (e : RawMessage) : KrakenReplay :=
  if replay.connection = some e.connectionId then replay
  else
    let processor :=
      if replay.connection.isSome then replay.processor.resetConnection else replay.processor
    { replay.assign processor (ascii "new_connection") with connection := some e.connectionId }

/-- The rest of the record loop's body: `process` and its counts
(`src/session/session.cpp:393–398`). -/
def recorded (crc : Bytes → UInt32) (replay : KrakenReplay) (e : RawMessage) : KrakenReplay :=
  let processor :=
    (replay.processor.process crc e.payload e.receiveWallTime e.receiveMonotonicTime).1
  let replay := replay.assign processor processor.outcomeText
  { replay with outcomes := replay.outcomes ++ [processor.outcome], count := replay.count + 1 }

/-- The body of the record loop after `apply_lifecycle` (`src/session/session.cpp:384–398`). -/
def replayRecord (crc : Bytes → UInt32) (replay : KrakenReplay) (e : RawMessage) :
    Except Failure KrakenReplay :=
  if replay.connection.any (e.connectionId < ·) then runtimeError "connection order regression"
  else .ok ((replay.reconnect e).recorded crc e)

/-- The record loop with `apply_lifecycle`, which compares with `count`
(`src/session/session.cpp:367–400`). -/
def loop (crc : Bytes → UInt32) : Weave.Loop KrakenReplay LifecycleEntry RawMessage Failure where
  opening := id
  position := LifecycleEntry.beforeRecordIndex
  index count _ := count
  event := applyLifecycle
  record := replayRecord crc

/-- The end of the branch, with the lifecycle events that were not taken in
(`src/session/session.cpp:400–405`). -/
def finish (status : SessionStatus) (replay : KrakenReplay) (remaining : List LifecycleEntry) :
    Except Failure KrakenReplay :=
  if status = .complete ∧ remaining ≠ [] then
    runtimeError "source changed or invalid lifecycle ordering"
  else if status ≠ .complete ∧ status ≠ .inProgress then
    .ok { replay with processor := replay.processor.invalidate }
  else .ok replay

@[simp]
private theorem transition_processor (replay : KrakenReplay) (before : BookState) (reason : Bytes) :
    (replay.transition before reason).processor = replay.processor := by
  unfold transition
  split <;> rfl

@[simp]
private theorem transition_connection (replay : KrakenReplay) (before : BookState)
    (reason : Bytes) :
    (replay.transition before reason).connection = replay.connection := by
  unfold transition
  split <;> rfl

/-- Noting a transition leaves the outcomes alone. -/
@[simp]
theorem transition_outcomes (replay : KrakenReplay) (before : BookState) (reason : Bytes) :
    (replay.transition before reason).outcomes = replay.outcomes := by
  unfold transition
  split <;> rfl

/-- The processor that is assigned. -/
@[simp]
theorem assign_processor (replay : KrakenReplay) (processor : KrakenBookProcessor)
    (reason : Bytes) : (replay.assign processor reason).processor = processor := by
  rw [assign, transition_processor]

/-- Assigning a processor leaves the connection alone. -/
@[simp]
theorem assign_connection (replay : KrakenReplay) (processor : KrakenBookProcessor)
    (reason : Bytes) : (replay.assign processor reason).connection = replay.connection := by
  rw [assign, transition_connection]

/-- A record is processed. -/
@[simp]
theorem recorded_processor (crc : Bytes → UInt32) (replay : KrakenReplay) (e : RawMessage) :
    (replay.recorded crc e).processor =
      (replay.processor.process crc e.payload e.receiveWallTime e.receiveMonotonicTime).1 := by
  simp [recorded]

/-- A record leaves the connection alone. -/
@[simp]
theorem recorded_connection (crc : Bytes → UInt32) (replay : KrakenReplay) (e : RawMessage) :
    (replay.recorded crc e).connection = replay.connection := by
  simp [recorded]

/-- A record adds the outcome of its message. -/
theorem recorded_outcomes (crc : Bytes → UInt32) (replay : KrakenReplay) (e : RawMessage) :
    (replay.recorded crc e).outcomes =
      replay.outcomes ++ [(replay.recorded crc e).processor.outcome] := by
  simp [recorded, assign]

/-- Before a record the connection is the one that the record came over. -/
theorem reconnect_connection (replay : KrakenReplay) (e : RawMessage) :
    (replay.reconnect e).connection = some e.connectionId := by
  unfold reconnect
  split
  · next h => exact h
  · rfl

/-- The processor is reset before a record of another connection, except for the first. -/
theorem reconnect_processor (replay : KrakenReplay) (e : RawMessage) :
    (replay.reconnect e).processor =
      if replay.connection = some e.connectionId ∨ replay.connection = none then replay.processor
      else replay.processor.resetConnection := by
  unfold reconnect
  split
  · next h => rw [if_pos (.inl h)]
  · next h =>
    cases hc : replay.connection with
    | none => simp
    | some other =>
      rw [hc] at h
      simp [h]

end KrakenReplay

/-- `sessions::replay` of a Kraken session, from the validation of the lifecycle events on
(`src/session/session.cpp:340–405`). -/
def replayKraken (crc : Bytes → UInt32) (depth : Nat) (status : SessionStatus)
    (records : List RawMessage) (lifecycle : List LifecycleEntry) :
    Except Failure KrakenReplay := do
  validateLifecycle (status = .complete) records.length 0 lifecycle
  let processor ← KrakenBookProcessor.create depth
  let (replay, remaining) ←
    (KrakenReplay.loop crc).run 0 (KrakenReplay.initial processor) records lifecycle
  KrakenReplay.finish status replay remaining

end ArbitrageEngine.Sessions
