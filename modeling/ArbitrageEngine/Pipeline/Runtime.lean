import ArbitrageEngine.Pipeline.RawWriter

/-!
# A capture with its threads

`src/pipeline/{live_runtime,kraken_runtime}.cpp`: what `run_live` and `run_kraken` have in
common. An action of the market thread hands an envelope to the queue at its start, if at all;
the sections that follow are `pending` and are gone through one by one, with steps of the
writer thread between any two of them. The main thread waits for both and then writes the
final state.
-/

namespace ArbitrageEngine.Pipeline

open Base ArbitrageEngine.Core Coinbase Recording

/-! ### Programs -/

/-- What the market threads of the two runtimes do. -/
structure Program (σ ι : Type) where
  /-- An action: the thread's variables after it and the sections it goes through. -/
  step : σ → ι → σ × List Op
  /-- The envelope that an action gives to `try_push`. -/
  handed : σ → ι → Option RawMessage
  /-- The action with the answer of `try_push`. -/
  answered : ι → PushResult → ι
  /-- The action can come from the event loop. -/
  isCallback : ι → Bool
  /-- What is done instead of running, given the fatal error and the signal. -/
  refuses : Option Bytes → Bool → Option ι
  /-- What follows once the state is `Running`. -/
  start : ReceiveMonotonicTimestamp → ι
  /-- The handler that is posted when recording fails. -/
  failure : Bytes → ι
  /-- A tick, with the fatal error as it was read first and as it was read last. -/
  tick : ReceiveMonotonicTimestamp → Option Bytes → Option Bytes → Bool → ι
  /-- The tick sets its timer again. -/
  rearms : σ → Bool
  /-- `post_recording_failure` is set before the loop. -/
  posts : Bool
  /-- The destructors on the way to the handler around the thread, and the handler. -/
  handler : σ → Bytes → List Op
  /-- The destructors at the regular end. -/
  farewell : List Op
  refuses_fatal : ∀ error requested, refuses (some error) requested ≠ none
  handler_fatal : ∀ m what, (handler m what).any Op.isFatal = true

/-- Where the market thread is. -/
inductive MarketPhase
  /-- Before the wait for `writer_ready` or `writer_done` is over. -/
  | waiting
  /-- Before the first look at the status. -/
  | checking
  /-- Before the section that sets `Running`. -/
  | starting
  /-- In the event loop, its first tick included. -/
  | looping
  /-- In the destructors or the handler. -/
  | leaving
  /-- Before the section that sets `market_done`. -/
  | ending
  | done
  deriving DecidableEq, Repr

/-- The market thread has not reached its loop. -/
def MarketPhase.isEarly : MarketPhase → Bool
  | waiting | checking | starting => true
  | _ => false

/-- The handler around the thread catches an exception that is thrown here. -/
def MarketPhase.isGuarded : MarketPhase → Bool
  | waiting | checking | starting | looping => true
  | leaving | ending | done => false

/-- Both threads and what they share. -/
structure System (σ : Type) where
  backend : Backend
  market : σ
  phase : MarketPhase := .waiting
  /-- The sections that the current action has still to go through. -/
  pending : List Op := []
  /-- The fatal error as a tick has read it first. -/
  seen : Option (Option Bytes) := none
  /-- The timer of the ticks is set. -/
  armed : Bool := true
  /-- An exception has ended the loop. -/
  thrown : Bool := false

/-- The steps of the threads, with what the surroundings supply. -/
inductive Event (ι : Type)
  | writer (move : WriterMove)
  | ready
  | check (requested : Bool)
  | start (now : ReceiveMonotonicTimestamp)
  | proceed
  | callback (input : ι)
  | posted
  | look
  | tick (now : ReceiveMonotonicTimestamp) (requested : Bool)
  | exit
  | close
  | finish
  | throw (what : Bytes)
  deriving DecidableEq, Repr

namespace Backend

/-- `post_recording_failure` is set or cleared (`src/pipeline/live_runtime.cpp:183–195,242`). -/
def withPosting (b : Backend) (posting : Bool) : Backend :=
  { b with shared := { b.shared with posting } }

/-- The errors that are posted and not handled. -/
def withPosted (b : Backend) (posted : List Bytes) : Backend :=
  { b with shared := { b.shared with posted } }

/-- A section of the market thread. -/
def perform (b : Backend) : Op → Backend
  | .closeQueue => b.close
  | .settle =>
    if b.shared.writerDone then b
    else if b.shared.status.fatalError.isNone then
      b.withStatus { b.shared.status with runtimeState := .stopping }
    else b
  | .clearPost => b.withPosting false
  | op => b.withStatus (op.apply b.shared.status)

end Backend

namespace System

variable {σ ι : Type}

/-- The threads before their first step. -/
def create (config : RawQueueConfig) (market : σ) : System σ where
  backend := { queue := .create config }
  market

/-- The fatal error as it is read now. -/
def fatal (s : System σ) : Option Bytes := s.backend.shared.status.fatalError

/-- The event loop is between two actions. -/
def idle (s : System σ) : Bool := s.phase = .looping && s.pending.isEmpty && s.seen.isNone

/-- The local part of an action. -/
def advance (P : Program σ ι) (s : System σ) (input : ι) : System σ :=
  { s with
    market := (P.step s.market input).1
    pending := (P.step s.market input).2 }

/-- An action of the market thread, up to its first section. -/
def act (P : Program σ ι) (s : System σ) (input : ι) : System σ :=
  match P.handed s.market input with
  | none => s.advance P input
  | some envelope =>
    { s with backend := (s.backend.push envelope).1 }.advance P
      (P.answered input (s.backend.push envelope).2)

/-- The next pending section. At a tick that finds the writer done the timer is not set again. -/
def proceed (s : System σ) : System σ :=
  match s.pending with
  | [] => s
  | op :: rest =>
    { s with
      backend := s.backend.perform op
      pending := rest
      armed := s.armed && !(op = .settle && s.backend.shared.writerDone) }

/-- A tick after both looks at the fatal error. -/
def tick (P : Program σ ι) (s : System σ) (now : ReceiveMonotonicTimestamp)
    (first : Option Bytes) (requested : Bool) : System σ :=
  let s := { s with seen := none }.act P (P.tick now first s.fatal requested)
  { s with armed := P.rearms s.market }

/-- One step of a thread; one that is not due changes nothing. -/
def step (P : Program σ ι) (s : System σ) : Event ι → System σ
  | .writer move => { s with backend := s.backend.move move }
  | .ready =>
    if s.phase = .waiting ∧ (s.backend.shared.writerReady || s.backend.shared.writerDone) then
      { s with phase := .checking, backend := s.backend.withPosting P.posts }
    else s
  | .check requested =>
    if s.phase = .checking then
      match P.refuses s.fatal requested with
      | some input => { s with phase := .looping }.act P input
      | none => { s with phase := .starting }
    else s
  | .start now =>
    if s.phase = .starting then
      { s with
        phase := .looping
        backend := s.backend.withStatus
          { s.backend.shared.status with runtimeState := .running } }.act P (P.start now)
    else s
  | .proceed => s.proceed
  | .callback input => if s.idle && P.isCallback input then s.act P input else s
  | .posted =>
    match s.idle, s.backend.shared.posted with
    | true, error :: rest =>
      { s with backend := s.backend.withPosted rest }.act P (P.failure error)
    | _, _ => s
  | .look => if s.idle && s.armed then { s with seen := some s.fatal } else s
  | .tick now requested =>
    match s.phase, s.pending, s.seen with
    | .looping, [], some first => s.tick P now first requested
    | _, _, _ => s
  | .exit =>
    if s.idle && !s.armed && s.backend.shared.posted.isEmpty then
      { s with phase := .leaving, pending := P.farewell }
    else s
  | .close =>
    if s.phase = .leaving ∧ s.pending = [] then
      { s with phase := .ending, backend := s.backend.close }
    else s
  | .finish =>
    if s.phase = .ending then
      { s with
        phase := .done
        backend := { s.backend with shared := { s.backend.shared with marketDone := true } } }
    else s
  | .throw what =>
    if s.phase.isGuarded then
      { s with
        phase := .leaving, pending := P.handler s.market what, seen := none, thrown := true }
    else s

/-- A run: any order of steps. -/
def run (P : Program σ ι) (s : System σ) (events : List (Event ι)) : System σ :=
  events.foldl (step P) s

/-- Both threads have been joined. -/
def finished (s : System σ) : Bool := s.phase = .done && s.backend.writer = .done

/-- The status that the main thread gives to `finalize` (`src/pipeline/live_runtime.cpp:280–287`,
`src/pipeline/kraken_runtime.cpp:268–270`). -/
def final (s : System σ) : RuntimeStatus :=
  if s.fatal.isSome then s.backend.shared.status
  else { s.backend.shared.status with runtimeState := .stopped }

/-! ### What a step can do -/

/-- Everything a step of a thread can do. -/
inductive Stepped (P : Program σ ι) (s : System σ) : System σ → Prop
  | idle : Stepped P s s
  | writer (backend : Backend) (moved : s.backend.Moved backend) : Stepped P s { s with backend }
  | ready (phase : s.phase = .waiting)
      (due : s.backend.shared.writerReady = true ∨ s.backend.shared.writerDone = true) :
      Stepped P s { s with phase := .checking, backend := s.backend.withPosting P.posts }
  | refused (input : ι) (phase : s.phase = .checking) :
      Stepped P s ({ s with phase := .looping }.act P input)
  | cleared (phase : s.phase = .checking) (clean : s.fatal = none) :
      Stepped P s { s with phase := .starting }
  | started (now : ReceiveMonotonicTimestamp) (phase : s.phase = .starting) :
      Stepped P s ({ s with
        phase := .looping
        backend := s.backend.withStatus
          { s.backend.shared.status with runtimeState := .running } }.act P (P.start now))
  | proceeded (op : Op) (rest : List Op) (armed : Bool) (pending : s.pending = op :: rest) :
      Stepped P s { s with backend := s.backend.perform op, pending := rest, armed }
  | acted (input : ι) (posted : List Bytes) (seen : Option (Option Bytes)) (armed : Bool)
      (phase : s.phase = .looping) (pending : s.pending = []) :
      Stepped P s ({ s with backend := s.backend.withPosted posted, seen, armed }.act P input)
  | looked (phase : s.phase = .looping) (seen : Option (Option Bytes)) : Stepped P s { s with seen }
  | exited (phase : s.phase = .looping) (pending : s.pending = []) :
      Stepped P s { s with phase := .leaving, pending := P.farewell }
  | closed (phase : s.phase = .leaving) (pending : s.pending = []) :
      Stepped P s { s with phase := .ending, backend := s.backend.close }
  | finished (phase : s.phase = .ending) :
      Stepped P s { s with
        phase := .done
        backend := { s.backend with shared := { s.backend.shared with marketDone := true } } }
  | threw (what : Bytes) (phase : s.phase.isGuarded = true) :
      Stepped P s { s with
        phase := .leaving, pending := P.handler s.market what, seen := none, thrown := true }

/-- The market thread is idle in its loop, when it has nothing pending and is in no tick. -/
theorem idle_iff (s : System σ) :
    s.idle = true ↔ s.phase = .looping ∧ s.pending = [] ∧ s.seen = none := by
  simp [idle, and_assoc]

private theorem act_armed (P : Program σ ι) (s : System σ) (input : ι) (armed : Bool) :
    { s with armed }.act P input = { s.act P input with armed } := by
  unfold act
  dsimp only
  split <;> rfl

/-- A callback does not leave the phase. -/
@[simp]
theorem phase_act (P : Program σ ι) (s : System σ) (input : ι) :
    (s.act P input).phase = s.phase := by
  unfold act
  split <;> rfl

/-- A callback throws nothing. -/
@[simp]
theorem thrown_act (P : Program σ ι) (s : System σ) (input : ι) :
    (s.act P input).thrown = s.thrown := by
  unfold act
  split <;> rfl

/-- An action up to its first section leaves the shared status alone. -/
@[simp]
theorem shared_act (P : Program σ ι) (s : System σ) (input : ι) :
    (s.act P input).backend.shared = s.backend.shared := by
  unfold act
  split <;> rfl

/-- Every event is one of these steps. -/
theorem step_stepped (P : Program σ ι) (s : System σ) (event : Event ι) :
    Stepped P s (s.step P event) := by
  cases event with
  | writer move => exact .writer _ (s.backend.move_moved move)
  | ready =>
    simp only [step, Bool.or_eq_true]
    split
    · next h => exact .ready h.1 h.2
    · exact .idle
  | check requested =>
    simp only [step]
    split
    · next hphase =>
      split
      · exact .refused _ hphase
      · next hnone =>
        apply Stepped.cleared hphase
        -- a fatal error is refused whatever else was requested
        cases hf : s.fatal with
        | none => rfl
        | some error =>
          rw [hf] at hnone
          exact absurd hnone (P.refuses_fatal error requested)
    · exact .idle
  | start now =>
    simp only [step]
    split
    · next hphase => exact .started now hphase
    · exact .idle
  | proceed =>
    simp only [step, proceed]
    split
    · exact .idle
    · next op rest hpending => exact .proceeded op rest _ hpending
  | callback input =>
    simp only [step, Bool.and_eq_true, idle_iff]
    split
    · next h => exact .acted input s.backend.shared.posted s.seen s.armed h.1.1 h.1.2.1
    · exact .idle
  | posted =>
    simp only [step]
    split
    · next error rest hidle hposted =>
      rw [idle_iff] at hidle
      exact .acted _ rest s.seen s.armed hidle.1 hidle.2.1
    · exact .idle
  | look =>
    simp only [step, Bool.and_eq_true, idle_iff]
    split
    · next h => exact .looked h.1.1 _
    · exact .idle
  | tick now requested =>
    simp only [step]
    split
    · next first hphase hpending hseen =>
      rw [tick, ← act_armed]
      exact .acted _ s.backend.shared.posted none _ hphase hpending
    · exact .idle
  | exit =>
    simp only [step, Bool.and_eq_true, idle_iff]
    split
    · next h => exact .exited h.1.1.1 h.1.1.2.1
    · exact .idle
  | close =>
    simp only [step]
    split
    · next h => exact .closed h.1 h.2
    · exact .idle
  | finish =>
    simp only [step]
    split
    · next h => exact .finished h
    · exact .idle
  | throw what =>
    simp only [step]
    split
    · next h => exact .threw what h
    · exact .idle

/-- What the steps preserve holds along runs. -/
theorem run_invariant {P : Program σ ι} {I : System σ → Prop}
    (hstep : ∀ s s', Stepped P s s' → I s → I s') {s : System σ} (hs : I s)
    (events : List (Event ι)) : I (s.run P events) := by
  induction events generalizing s with
  | nil => exact hs
  | cons event rest ih => exact ih (hstep _ _ (s.step_stepped P event) hs)

end System

end ArbitrageEngine.Pipeline
