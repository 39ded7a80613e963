import ArbitrageEngine.Coinbase.ConnectionManager

/-!
# The shared status

`include/pipeline/runtime_status.hpp` and `src/pipeline/runtime_status.cpp`: the status that the
threads of a capture share, and what a thread does to it in one section under the mutex. The
fields that are only displayed stand apart, in `Screen`; the queue sizes are left out.
-/

namespace ArbitrageEngine.Pipeline

open Base ArbitrageEngine.Core Coinbase Recording

/-! ### The status -/

/-- `RuntimeState` (`include/pipeline/runtime_status.hpp:12–20`). -/
inductive RuntimeState
  | starting
  | running
  | stopping
  | stopped
  | stoppedRecordingError
  | stoppedQueueFull
  | stoppedProcessingError
  deriving DecidableEq, Repr

/-- The states that go with a fatal error. -/
def RuntimeState.isFailure : RuntimeState → Bool
  | stoppedRecordingError | stoppedQueueFull | stoppedProcessingError => true
  | _ => false

/-- The states of a run that has not ended. -/
def RuntimeState.isActive : RuntimeState → Bool
  | starting | running | stopping => true
  | _ => false

/-- `RuntimeStatus` with its defaults (`include/pipeline/runtime_status.hpp:21–34`). -/
structure RuntimeStatus where
  lifecycleEvents : List LifecycleEvent := []
  runtimeState : RuntimeState := .starting
  receivedMessages : Nat := 0
  enqueuedMessages : Nat := 0
  writtenMessages : Nat := 0
  processedMessages : Nat := 0
  fatalError : Option Bytes := none
  progress : RuntimeProgress := {}
  deriving DecidableEq, Repr

namespace RuntimeStatus

/-- A fatal error with its state, unless there is one already. -/
def fail (status : RuntimeStatus) (error : Bytes) (state : RuntimeState) : RuntimeStatus :=
  if status.fatalError.isSome then status
  else { status with fatalError := some error, runtimeState := state }

/-- The section of the writer after an append (`src/pipeline/runtime_status.cpp:43–45`). -/
def written (status : RuntimeStatus) (index : Nat) : RuntimeStatus :=
  { status with
    writtenMessages := status.writtenMessages + 1
    progress := { status.progress with lastWrittenIndex := some index } }

/-- The records that were processed but not written, from the first to the last
(`src/pipeline/runtime_status.cpp:59–64`). -/
def unpersistedProcessed (status : RuntimeStatus) : Option (Nat × Nat) :=
  match status.progress.lastProcessedIndex with
  | none => none
  | some processed =>
    match status.progress.lastWrittenIndex with
    | none => some (0, processed)
    | some written => if processed ≤ written then none else some (written + 1, processed)

/-- `unpersisted_processed_range` (`src/pipeline/runtime_status.cpp:57–65`). -/
def unpersistedProcessedRange (status : RuntimeStatus) : Bytes :=
  match status.unpersistedProcessed with
  | none => []
  | some (first, last) =>
    ascii "unpersisted_processed_range=" ++ decimal first ++ ascii "-" ++ decimal last

end RuntimeStatus

/-! ### Sections of the market threads -/

/-- What a market thread does with the queue and the shared status: each is one section under a
mutex, in the order in which the thread reaches them. -/
inductive Op
  /-- `run_kraken`, after `try_push`. -/
  | received (index : Nat) (result : PushResult)
  /-- `run_kraken`, after `process`. -/
  | processed (index : Nat)
  /-- `run_live`, the publish callback of the handler. -/
  | published (result : ProcessResult) (progress : RuntimeProgress)
  | lifecycle (event : LifecycleEvent)
  | closeQueue
  /-- `run_live`, the section of a tick once it is stopping. -/
  | settle
  /-- `run_live`, the destructor of `ClearPost`. -/
  | clearPost
  /-- `run_live`, the section of the handler around the thread. -/
  | caught (what : Bytes)
  /-- `run_kraken`, the section of the handler around the thread. -/
  | overruled (what : Bytes)
  deriving DecidableEq, Repr

namespace Op

/-- The section after `try_push` (`src/pipeline/kraken_runtime.cpp:107–122`). -/
def applyReceived (status : RuntimeStatus) (index : Nat) (result : PushResult) : RuntimeStatus :=
  let status := { status with
    receivedMessages := status.receivedMessages + 1
    progress := { status.progress with lastReceivedIndex := some index } }
  if result ≠ .accepted then status.fail (ascii "RAW_RECORDING_QUEUE_FULL") .stoppedQueueFull
  else
    { status with
      enqueuedMessages := status.enqueuedMessages + 1
      progress := { status.progress with lastEnqueuedIndex := some index } }

/-- The publish callback; the index of the writer stays
(`src/pipeline/live_runtime.cpp:131–143`). -/
def applyPublished (status : RuntimeStatus) (result : ProcessResult) (progress : RuntimeProgress) :
    RuntimeStatus :=
  let status := { status with receivedMessages := status.receivedMessages + 1 }
  let status :=
    if result.outcome ≠ .recordingRejected then
      { status with
        enqueuedMessages := status.enqueuedMessages + 1
        processedMessages := status.processedMessages + 1 }
    else
      status.fail result.error
        (if result.error = ascii "RAW_RECORDING_QUEUE_FULL" then .stoppedQueueFull
          else .stoppedRecordingError)
  { status with
    progress := { progress with lastWrittenIndex := status.progress.lastWrittenIndex } }

/-- What a section does to the status. -/
def apply (status : RuntimeStatus) : Op → RuntimeStatus
  | received index result => applyReceived status index result
  | processed index =>
    { status with
      processedMessages := status.processedMessages + 1
      progress := { status.progress with lastProcessedIndex := some index } }
  | published result progress => applyPublished status result progress
  | lifecycle event => { status with lifecycleEvents := status.lifecycleEvents ++ [event] }
  | caught what => status.fail what .stoppedProcessingError
  | overruled what =>
    { status with fatalError := some what, runtimeState := .stoppedProcessingError }
  | closeQueue | settle | clearPost => status

/-- The section sets a fatal error if there is none. -/
def isFatal : Op → Bool
  | received _ result => result ≠ .accepted
  | published result _ => result.outcome = .recordingRejected
  | caught _ | overruled _ => true
  | _ => false

end Op

/-! ### Who writes what -/

/-- The fields that only the market thread writes. -/
structure Ledger where
  lifecycleEvents : List LifecycleEvent
  receivedMessages : Nat
  enqueuedMessages : Nat
  processedMessages : Nat
  lastReceivedIndex : Option Nat
  lastEnqueuedIndex : Option Nat
  lastProcessedIndex : Option Nat
  deriving DecidableEq, Repr

/-- The market thread's fields of a status. -/
def RuntimeStatus.ledger (status : RuntimeStatus) : Ledger :=
  ⟨status.lifecycleEvents, status.receivedMessages, status.enqueuedMessages,
    status.processedMessages, status.progress.lastReceivedIndex, status.progress.lastEnqueuedIndex,
    status.progress.lastProcessedIndex⟩

/-- What a section does to the market thread's fields. -/
def Op.enter (ledger : Ledger) : Op → Ledger
  | received index result =>
    let ledger := { ledger with
      receivedMessages := ledger.receivedMessages + 1
      lastReceivedIndex := some index }
    if result ≠ .accepted then ledger
    else
      { ledger with
        enqueuedMessages := ledger.enqueuedMessages + 1
        lastEnqueuedIndex := some index }
  | processed index =>
    { ledger with
      processedMessages := ledger.processedMessages + 1
      lastProcessedIndex := some index }
  | published result progress =>
    { ledger with
      receivedMessages := ledger.receivedMessages + 1
      enqueuedMessages :=
        ledger.enqueuedMessages + if result.outcome ≠ .recordingRejected then 1 else 0
      processedMessages :=
        ledger.processedMessages + if result.outcome ≠ .recordingRejected then 1 else 0
      lastReceivedIndex := progress.lastReceivedIndex
      lastEnqueuedIndex := progress.lastEnqueuedIndex
      lastProcessedIndex := progress.lastProcessedIndex }
  | lifecycle event => { ledger with lifecycleEvents := ledger.lifecycleEvents ++ [event] }
  | _ => ledger

/-- `fail` leaves the ledger of the market thread alone. -/
@[simp]
theorem ledger_fail (status : RuntimeStatus) (error : Bytes) (state : RuntimeState) :
    (status.fail error state).ledger = status.ledger := by
  unfold RuntimeStatus.fail
  split <;> rfl

/-- `fail` leaves the progress alone. -/
@[simp]
theorem progress_fail (status : RuntimeStatus) (error : Bytes) (state : RuntimeState) :
    (status.fail error state).progress = status.progress := by
  unfold RuntimeStatus.fail
  split <;> rfl

/-- `fail` leaves the count of the writer alone. -/
@[simp]
theorem writtenMessages_fail (status : RuntimeStatus) (error : Bytes) (state : RuntimeState) :
    (status.fail error state).writtenMessages = status.writtenMessages := by
  unfold RuntimeStatus.fail
  split <;> rfl

/-- A change of the status keeps the fatal error and the state, or sets both for a failure. -/
inductive Verdict (status status' : RuntimeStatus) : Prop
  | kept (error : status'.fatalError = status.fatalError)
      (state : status'.runtimeState = status.runtimeState)
  | failed (error : status'.fatalError ≠ none) (state : status'.runtimeState.isFailure = true)

/-- `fail` is a verdict, and afterwards there is a fatal error. -/
theorem verdict_fail (status : RuntimeStatus) (error : Bytes) {state : RuntimeState}
    (hs : state.isFailure = true) :
    Verdict status (status.fail error state) ∧ (status.fail error state).fatalError ≠ none := by
  unfold RuntimeStatus.fail
  split
  · next h =>
    refine ⟨.kept rfl rfl, ?_⟩
    intro hn
    rw [hn] at h
    cases h
  · exact ⟨.failed nofun hs, nofun⟩

namespace Op

/-- On the market thread's fields a section does what `enter` says. -/
theorem ledger_apply (status : RuntimeStatus) (op : Op) :
    (op.apply status).ledger = op.enter status.ledger := by
  cases op with
  | received index result =>
    simp only [apply, applyReceived, enter]
    split
    · rw [ledger_fail]
      rfl
    · rfl
  | published result progress =>
    simp only [apply, applyPublished, enter]
    by_cases hr : result.outcome = .recordingRejected
    · simp only [hr, ne_eq, not_true_eq_false, ↓reduceIte, Nat.add_zero]
      have hfail := ledger_fail
        { status with receivedMessages := status.receivedMessages + 1 } result.error
        (if result.error = ascii "RAW_RECORDING_QUEUE_FULL" then .stoppedQueueFull
          else .stoppedRecordingError)
      simp only [RuntimeStatus.ledger, Ledger.mk.injEq] at hfail ⊢
      simp [hfail]
    · simp only [hr, ne_eq, not_false_eq_true, ↓reduceIte]
      rfl
  | caught what => exact ledger_fail status what .stoppedProcessingError
  | processed | lifecycle | closeQueue | settle | clearPost | overruled => rfl

/-- The market thread leaves the writer's fields alone. -/
theorem written_apply (status : RuntimeStatus) (op : Op) :
    (op.apply status).writtenMessages = status.writtenMessages ∧
      (op.apply status).progress.lastWrittenIndex = status.progress.lastWrittenIndex := by
  cases op with
  | received index result =>
    simp only [apply, applyReceived]
    split
    · simp
    · exact ⟨rfl, rfl⟩
  | published result progress =>
    simp only [apply, applyPublished]
    split
    · exact ⟨rfl, rfl⟩
    · simp
  | caught what => simp [apply]
  | processed | lifecycle | closeQueue | settle | clearPost | overruled => exact ⟨rfl, rfl⟩

/-- A section keeps fatal error and state together, and a fatal one leaves an error. -/
theorem verdict_apply (status : RuntimeStatus) (op : Op) :
    Verdict status (op.apply status) ∧
      (op.isFatal = true → (op.apply status).fatalError ≠ none) := by
  cases op with
  | received index result =>
    simp only [apply, applyReceived, isFatal]
    split
    · obtain ⟨hv, hf⟩ := verdict_fail
        { status with
          receivedMessages := status.receivedMessages + 1
          progress := { status.progress with lastReceivedIndex := some index } }
        (ascii "RAW_RECORDING_QUEUE_FULL") (by rfl : RuntimeState.stoppedQueueFull.isFailure = true)
      refine ⟨?_, fun _ ↦ hf⟩
      cases hv with
      | kept error state => exact .kept error state
      | failed error state => exact .failed error state
    · next hr => exact ⟨.kept rfl rfl, fun h ↦ absurd (of_decide_eq_true h) hr⟩
  | published result progress =>
    simp only [apply, applyPublished, isFatal]
    split
    · next hr => exact ⟨.kept rfl rfl, fun h ↦ absurd (of_decide_eq_true h) hr⟩
    · have hstate : (if result.error = ascii "RAW_RECORDING_QUEUE_FULL" then
          RuntimeState.stoppedQueueFull else .stoppedRecordingError).isFailure = true := by
        split <;> rfl
      obtain ⟨hv, hf⟩ := verdict_fail
        { status with receivedMessages := status.receivedMessages + 1 } result.error hstate
      refine ⟨?_, fun _ ↦ hf⟩
      cases hv with
      | kept error state => exact .kept error state
      | failed error state => exact .failed error state
  | caught what =>
    obtain ⟨hv, hf⟩ := verdict_fail status what
      (by rfl : RuntimeState.stoppedProcessingError.isFailure = true)
    exact ⟨hv, fun _ ↦ hf⟩
  | overruled what => exact ⟨.failed nofun rfl, fun _ ↦ nofun⟩
  | processed | lifecycle | closeQueue | settle | clearPost => exact ⟨.kept rfl rfl, nofun⟩

end Op

/-! ### Fatal error and state -/

/-- There is a fatal error exactly if the state is that of a failure; otherwise the run goes on. -/
def RuntimeStatus.Consistent (status : RuntimeStatus) : Prop :=
  if status.fatalError = none then status.runtimeState.isActive = true
  else status.runtimeState.isFailure = true

/-- A verdict keeps the status consistent. -/
theorem Verdict.consistent {status status' : RuntimeStatus} (h : Verdict status status')
    (hc : status.Consistent) : status'.Consistent := by
  unfold RuntimeStatus.Consistent at hc ⊢
  cases h with
  | kept error state => rwa [error, state]
  | failed error state => rwa [if_neg error]

/-- A verdict never takes a fatal error back. -/
theorem Verdict.fatalError {status status' : RuntimeStatus} (h : Verdict status status')
    (hf : status.fatalError ≠ none) : status'.fatalError ≠ none := by
  cases h with
  | kept error state => rwa [error]
  | failed error state => exact error

/-! ### What the last indexes name -/

/-- The last of the first `count` indexes. -/
def lastOf (count : Nat) : Option Nat := if count = 0 then none else some (count - 1)

/-- The last index of a positive count. -/
theorem lastOf_succ (count : Nat) : lastOf (count + 1) = some count := rfl

/-- When the first `processed` records were processed and the first `written` ones written, the
range holds those that were processed but not written. -/
theorem unpersistedProcessed_eq {status : RuntimeStatus} {processed written : Nat}
    (hp : status.progress.lastProcessedIndex = lastOf processed)
    (hw : status.progress.lastWrittenIndex = lastOf written) :
    status.unpersistedProcessed =
      if processed ≤ written then none else some (written, processed - 1) := by
  unfold RuntimeStatus.unpersistedProcessed
  rw [hp, hw]
  cases processed with
  | zero => simp [lastOf]
  | succ p =>
    cases written with
    | zero => simp [lastOf]
    | succ w =>
      simp only [lastOf_succ, Nat.add_le_add_iff_right]
      split <;> simp

end ArbitrageEngine.Pipeline
