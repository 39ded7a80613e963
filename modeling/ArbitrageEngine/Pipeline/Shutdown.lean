import ArbitrageEngine.Pipeline.Programs
import ArbitrageEngine.Session.Capture

/-!
# Fatal errors and the final state

The state of a run is written by three threads, and once without a look at the fatal error:
when the market thread sets `Running`. At that point the queue is empty and open, so a writer
that was seen ready is still waiting for its first record and cannot have failed.
-/

namespace ArbitrageEngine.Pipeline

open Base ArbitrageEngine.Core Coinbase Kraken Recording Sessions

/-! ### Before the market thread runs -/

/-- The writer before the first envelope: it waits, or it has failed to prepare its file. -/
def Backend.Early (b : Backend) : Prop :=
  b.queue.messages = [] ∧
    match b.writer with
    | .preparing | .failing _ =>
      b.queue.closed = false ∧ b.shared.writerReady = false ∧ b.shared.writerDone = false
    | .waiting => b.queue.closed = false ∧ b.shared.writerDone = false
    | .releasing | .ending | .done => b.shared.status.fatalError ≠ none
    | .appending _ | .noting _ | .closing => False

private theorem Backend.Moved.early {b b' : Backend} (h : b.Moved b') (he : b.Early) :
    b'.Early := by
  unfold Backend.Early at he ⊢
  cases h with
  | idle => exact he
  | prepared phase =>
    rw [phase] at he
    exact ⟨he.1, he.2.1, he.2.2.2⟩
  | unprepared error left phase =>
    rw [phase] at he
    exact he
  | popped envelope rest bytes phase messages =>
    rw [he.1] at messages
    cases messages
  | drained phase messages closed =>
    rw [phase, closed] at he
    cases he.2.1
  | failed error phase => exact ⟨he.1, recordingFailed_failed b.shared error⟩
  | released phase =>
    rw [phase] at he
    exact he
  | finished phase =>
    rw [phase] at he
    exact he
  | appended _ _ _ phase | unwritten _ _ _ phase | noted _ phase | closed phase
  | unclosed _ phase =>
    rw [phase] at he
    exact he.2.elim

/-- A writer that was seen ready, with no fatal error, waits for its first record. -/
theorem Backend.Early.waiting {b : Backend} (h : b.Early)
    (hready : b.shared.writerReady = true ∨ b.shared.writerDone = true)
    (hclean : b.shared.status.fatalError = none) : b.writer = .waiting := by
  unfold Backend.Early at h
  cases hw : b.writer with
  | waiting => rfl
  | preparing | failing =>
    rw [hw] at h
    rcases hready with hr | hr
    · rw [h.2.2.1] at hr
      cases hr
    · rw [h.2.2.2] at hr
      cases hr
  | releasing | ending | done =>
    rw [hw] at h
    exact absurd hclean h.2
  | appending | noting | closing =>
    rw [hw] at h
    exact h.2.elim

/-! ### The invariant -/

namespace System

variable {σ ι : Type} {P : Program σ ι}

/-- Fatal error and state fit together, also where the next step sets `Running`. -/
structure Orderly (s : System σ) : Prop where
  consistent : s.backend.shared.status.Consistent
  early : s.phase.isEarly = true → s.backend.Early ∧ s.pending = []
  checking : s.phase = .checking →
    s.backend.shared.writerReady = true ∨ s.backend.shared.writerDone = true
  starting : s.phase = .starting → s.fatal = none ∧ s.backend.writer = .waiting

private theorem orderly_create (config : RawQueueConfig) (market : σ) :
    (create config market).Orderly where
  consistent := rfl
  early := fun _ ↦ ⟨⟨rfl, rfl, rfl, rfl⟩, rfl⟩
  checking := nofun
  starting := nofun

/-- Past the start only the status matters. -/
theorem Orderly.late {s : System σ} (hc : s.backend.shared.status.Consistent)
    (hp : s.phase.isEarly = false) : s.Orderly where
  consistent := hc
  early := by
    intro h
    rw [hp] at h
    cases h
  checking := by
    intro h
    rw [h] at hp
    cases hp
  starting := by
    intro h
    rw [h] at hp
    cases hp

private theorem Orderly.act {s : System σ} (input : ι) (hc : s.backend.shared.status.Consistent)
    (hp : s.phase = .looping) : (s.act P input).Orderly := by
  apply Orderly.late
  · rwa [shared_act]
  · rw [phase_act, hp]
    rfl

/-- A step of the writer keeps fatal error and state together. -/
theorem consistent_moved {b b' : Backend} (h : b.Moved b') (hc : b.shared.status.Consistent) :
    b'.shared.status.Consistent := by
  cases h with
  | noted envelope phase => exact hc
  | failed error phase =>
    exact (verdict_fail b.shared.status error (by rfl)).1.consistent hc
  | idle | prepared | unprepared | popped | drained | appended | unwritten | closed | unclosed
  | released | finished => exact hc

/-- So does a section of the market thread. -/
theorem consistent_perform {b : Backend} (op : Op) (hc : b.shared.status.Consistent) :
    (b.perform op).shared.status.Consistent := by
  cases op with
  | closeQueue | clearPost => exact hc
  | settle =>
    unfold Backend.perform
    dsimp only
    split
    · exact hc
    · split
      · next hnone =>
        rw [Option.isNone_iff_eq_none] at hnone
        show RuntimeStatus.Consistent _
        simp [Backend.withStatus, RuntimeStatus.Consistent, hnone, RuntimeState.isActive]
      · exact hc
  | received | processed | published | lifecycle | caught | overruled =>
    exact (Op.verdict_apply b.shared.status _).1.consistent hc

/-- One step keeps fatal error and state together. -/
theorem Stepped.orderly {s s' : System σ} (h : Stepped P s s') (hs : s.Orderly) : s'.Orderly := by
  cases h with
  | idle => exact hs
  | writer backend moved =>
    refine ⟨consistent_moved moved hs.consistent, ?_, ?_, ?_⟩
    · exact fun hp ↦ ⟨moved.early (hs.early hp).1, (hs.early hp).2⟩
    · intro hp
      have hready := hs.checking hp
      cases moved with
      | prepared => exact .inl rfl
      | finished => exact .inr rfl
      | idle | unprepared | popped | drained | appended | unwritten | noted | closed | unclosed
      | failed | released => exact hready
    · intro hp
      -- the queue is empty and open, so the waiting writer does not move
      have hwaiting := (hs.starting hp).2
      have hearly := (hs.early (by rw [hp]; rfl)).1
      unfold Backend.Early at hearly
      rw [hwaiting] at hearly
      cases moved with
      | idle => exact hs.starting hp
      | popped envelope rest bytes phase messages =>
        rw [hearly.1] at messages
        cases messages
      | drained phase messages closed =>
        rw [hearly.2.1] at closed
        cases closed
      | prepared phase | unprepared _ _ phase | appended _ _ _ phase | unwritten _ _ _ phase
      | noted _ phase | closed phase | unclosed _ phase | failed _ phase | released phase
      | finished phase =>
        rw [hwaiting] at phase
        cases phase
  | ready phase due =>
    exact ⟨hs.consistent, fun _ ↦ hs.early (by rw [phase]; rfl), fun _ ↦ due, nofun⟩
  | refused input phase => exact .act input hs.consistent rfl
  | cleared phase clean =>
    have hearly := hs.early (by rw [phase]; rfl)
    exact ⟨hs.consistent, fun _ ↦ hearly, nofun,
      fun _ ↦ ⟨clean, hearly.1.waiting (hs.checking phase) clean⟩⟩
  | started now phase =>
    apply Orderly.act _ _ rfl
    have hclean : s.backend.shared.status.fatalError = none := (hs.starting phase).1
    show RuntimeStatus.Consistent _
    simp [Backend.withStatus, RuntimeStatus.Consistent, hclean, RuntimeState.isActive]
  | proceeded op rest armed pending =>
    apply Orderly.late (consistent_perform op hs.consistent)
    cases hp : s.phase.isEarly with
    | false => rfl
    | true =>
      rw [(hs.early hp).2] at pending
      cases pending
  | acted input posted seen armed phase pending => exact .act input hs.consistent phase
  | looked phase seen => exact ⟨hs.consistent, hs.early, hs.checking, hs.starting⟩
  | exited phase pending => exact .late hs.consistent rfl
  | closed phase pending => exact .late hs.consistent rfl
  | finished phase => exact .late hs.consistent rfl
  | threw what phase => exact .late hs.consistent rfl

/-- In every state of a run fatal error and state fit together. -/
theorem run_orderly (config : RawQueueConfig) (market : σ) (events : List (Event ι)) :
    ((create config market).run P events).Orderly :=
  run_invariant (fun _ _ h hs ↦ h.orderly hs) (orderly_create config market) events

end System

/-! ### The final status -/

/-- The final status tells success and failure apart, and `finalize` takes it. -/
def RuntimeStatus.Settled (status : RuntimeStatus) : Prop :=
  (status.fatalError = none ↔ status.runtimeState = .stopped) ∧
    (status.fatalError ≠ none ↔
      status.runtimeState = .stoppedRecordingError ∨ status.runtimeState = .stoppedQueueFull ∨
        status.runtimeState = .stoppedProcessingError) ∧
    ∃ outcome, outcomeOf status.runtimeState = .ok outcome

private theorem RuntimeState.isFailure_iff (state : RuntimeState) :
    state.isFailure = true ↔ state = .stoppedRecordingError ∨ state = .stoppedQueueFull ∨
      state = .stoppedProcessingError := by
  cases state <;> simp [RuntimeState.isFailure]

/-- The final status of an orderly run is settled. -/
theorem System.Orderly.settled {σ : Type} {s : System σ} (h : s.Orderly) : s.final.Settled := by
  have hc := h.consistent
  unfold RuntimeStatus.Consistent at hc
  unfold System.final RuntimeStatus.Settled
  cases hf : s.fatal with
  | none =>
    have hnone : s.backend.shared.status.fatalError = none := hf
    refine ⟨?_, ?_, _, rfl⟩
    · simp [hnone]
    · simp [hnone]
  | some error =>
    have hsome : s.backend.shared.status.fatalError = some error := hf
    rw [if_neg (by simp [hsome])] at hc
    have hstates := (RuntimeState.isFailure_iff _).mp hc
    simp only [Option.isSome_some, ↓reduceIte, hsome]
    refine ⟨?_, ?_, ?_⟩
    · rcases hstates with hstate | hstate | hstate <;> simp [hstate]
    · simpa using hstates
    · apply outcomeOf_isOk
      rcases hstates with hstate | hstate | hstate <;> rw [hstate] <;> rfl

/-- Whatever the order in which the threads of a capture take their steps: once both workers
have been joined, there is no fatal error exactly if the state is `Stopped` and there is one
exactly if it is one of the three failures, so `finalize` does not take the run for a running
one. -/
theorem joined_status_settled (clock : Nat → ReceiveMonotonicTimestamp)
    (manager : CoinbaseConnectionManager) (crc : Bytes → UInt32) (limits : KrakenLimits)
    (processor : KrakenBookProcessor) (now : ReceiveMonotonicTimestamp) (config : RawQueueConfig) :
    (∀ events : List (Event LiveAction),
      let s := (System.create config (LiveMarket.initial manager)).run (liveProgram clock) events
      s.finished = true → s.final.Settled) ∧
    (∀ events : List (Event KrakenMarket.Action),
      let s := (System.create config (KrakenMarket.initial processor now)).run
        (krakenProgram crc limits) events
      s.finished = true → s.final.Settled) := by
  constructor
  · intro events s _
    exact (System.run_orderly config (LiveMarket.initial manager) events).settled
  · intro events s _
    exact (System.run_orderly config (KrakenMarket.initial processor now) events).settled

/-- A capture that is stopped by the signal, with one step of the writer at a time between those
of the market thread. -/
def requestedStop : List (Event LiveAction) :=
  [.writer .prepared, .ready, .check false, .start ⟨0⟩, .proceed, .look, .tick ⟨0⟩ true, .proceed,
    .proceed, .writer .pop, .writer (.closed true), .proceed, .writer .finish, .look,
    .tick ⟨0⟩ true,
    .proceed, .exit, .proceed, .close, .finish]

/-- A capture whose first record cannot be written. -/
def lostDisk : List (Event KrakenMarket.Action) :=
  [.writer .prepared, .ready, .check false, .start ⟨0⟩, .callback (.connected ⟨0⟩),
    .callback (.message [] ⟨1⟩ ⟨1⟩ .accepted), .writer .pop, .proceed,
    .writer (.append (.refused 5)),
    .proceed, .proceed, .writer .fail, .look, .writer .release, .tick ⟨2⟩ false, .proceed,
    .writer .finish, .exit, .close, .finish]

/-- The first of them ends as `Stopped`, the second one as a recording error. -/
theorem joined_status_settled_runs :
    ∃ manager processor, CoinbaseConnectionManager.create (fun _ ↦ ⟨0⟩) {} = .ok manager ∧
      KrakenBookProcessor.create 10 = .ok processor ∧
      let live := (System.create {} (LiveMarket.initial manager)).run (liveProgram fun _ ↦ ⟨0⟩)
        requestedStop
      let kraken := (System.create {} (KrakenMarket.initial processor ⟨0⟩)).run
        (krakenProgram Crc.crc32 {}) lostDisk
      live.finished = true ∧ live.final.runtimeState = .stopped ∧ live.final.Settled ∧
      kraken.finished = true ∧ kraken.final.runtimeState = .stoppedRecordingError ∧
      kraken.final.Settled := by
  have hsettled := fun manager processor ↦
    joined_status_settled (fun _ ↦ ⟨0⟩) manager Crc.crc32 {} processor ⟨0⟩ {}
  obtain ⟨manager, -⟩ : ∃ manager,
      CoinbaseConnectionManager.create (fun _ ↦ ⟨0⟩) {} = .ok manager := ⟨_, rfl⟩
  obtain ⟨processor, -⟩ : ∃ processor, KrakenBookProcessor.create 10 = .ok processor := ⟨_, rfl⟩
  refine ⟨_, _, rfl, rfl, by decide +kernel, by decide +kernel, ?_, by decide +kernel,
    by decide +kernel, ?_⟩
  · exact (hsettled _ processor).1 requestedStop (by decide +kernel)
  · exact (hsettled manager _).2 lostDisk (by decide +kernel)

end ArbitrageEngine.Pipeline
