import ArbitrageEngine.Pipeline.RuntimeStatus
import ArbitrageEngine.Recording.RawEventReader

/-!
# The writer thread

`src/pipeline/runtime_status.cpp`: `write_raw` and `recording_failed`, with the queue and the
shared status. A `Backend` is what the market thread and the writer thread have in common; a
step of the writer is what it does between two points where the other thread can be seen.
The file system decides how each access to the file ends.
-/

namespace ArbitrageEngine.Pipeline

open Base ArbitrageEngine.Core Coinbase Recording

/-! ### State -/

/-- `SharedRuntime`; `posted` are the errors that were posted to the market thread
(`include/pipeline/runtime_status.hpp:35–47`). -/
structure SharedRuntime where
  status : RuntimeStatus := {}
  writerReady : Bool := false
  writerDone : Bool := false
  marketDone : Bool := false
  /-- `post_recording_failure` is set. -/
  posting : Bool := false
  posted : List Bytes := []
  deriving DecidableEq, Repr

/-- `recording_failed` (`src/pipeline/runtime_status.cpp:4–13`). -/
def SharedRuntime.recordingFailed (shared : SharedRuntime) (error : Bytes) : SharedRuntime :=
  { shared with
    status := shared.status.fail error .stoppedRecordingError
    posted := if shared.posting then shared.posted ++ [error] else shared.posted }

/-- Where the writer thread is (`src/pipeline/runtime_status.cpp:14–56`). -/
inductive WriterPhase
  /-- Before the section that sets `writer_ready`. -/
  | preparing
  /-- In `wait_pop`. -/
  | waiting
  /-- With an envelope that is not written yet. -/
  | appending (envelope : RawMessage)
  /-- Before the section that counts a written record. -/
  | noting (envelope : RawMessage)
  /-- Before `recorder.close()`. -/
  | closing
  /-- In the handler, before `recording_failed`. -/
  | failing (error : Bytes)
  /-- In the handler, before `queue.close()`. -/
  | releasing
  /-- Before the section that sets `writer_done`. -/
  | ending
  | done
  deriving DecidableEq, Repr

/-- What the threads share, with the writer's recorder once there is one. Besides, it is known
which envelopes were written and which the queue accepted. -/
structure Backend where
  queue : RawRecordingQueue
  shared : SharedRuntime := {}
  writer : WriterPhase := .preparing
  recorder : Option RawEventRecorder := none
  written : List RawMessage := []
  accepted : List RawMessage := []
  deriving DecidableEq, Repr

/-! ### Steps -/

/-- How the stream takes an append: it takes the line, it fails behind the first `kept` bytes of
it, or something else throws. -/
inductive AppendOutcome
  | appended
  | refused (kept : Nat)
  | thrown (what : Bytes)
  deriving DecidableEq, Repr

/-- The steps of the writer thread, with what the file system supplies; a recorder that cannot be
used may have left a file (`src/pipeline/runtime_status.cpp:14–56`). -/
inductive WriterMove
  | prepared
  | unprepared (error : Bytes) (left : Option RawEventRecorder)
  | pop
  | append (outcome : AppendOutcome)
  | note
  | closed (ok : Bool)
  | fail
  | release
  | finish
  deriving DecidableEq, Repr

namespace Backend

/-- The exception after a failed append (`src/pipeline/runtime_status.cpp:41–42`). -/
def writeError (envelope : RawMessage) : Bytes :=
  ascii "raw recording write/flush failed at index " ++ decimal envelope.recordIndex

/-- The body of the loop in `write_raw`, up to its section
(`src/pipeline/runtime_status.cpp:38–42`), with the default `append` (`:32–37`). An envelope that
cannot be dumped throws before the stream is used. -/
def append (b : Backend) (recorder : RawEventRecorder) (envelope : RawMessage)
    (outcome : AppendOutcome) : Backend :=
  if envelope.recordIndex % 2 ^ 64 ≠ recorder.nextRecordIndex then
    { b with writer := .failing (writeError envelope) }
  else
    match recorder.appendEnvelope envelope with
    | (_, .error failure) => { b with writer := .failing failure.what }
    | (_, .ok false) => { b with writer := .failing (writeError envelope) }
    | (next, .ok true) =>
      match outcome with
      | .appended =>
        { b with
          writer := .noting envelope
          recorder := some next
          written := b.written ++ [envelope] }
      | .refused kept =>
        { b with
          writer := .failing (writeError envelope)
          recorder := some { recorder with
            output := next.output.take (recorder.output.length + kept) } }
      | .thrown what => { b with writer := .failing what }

/-- One step of the writer thread; one that is not due changes nothing
(`src/pipeline/runtime_status.cpp:14–56`). -/
def move (b : Backend) (move : WriterMove) : Backend :=
  match b.writer, move with
  | .preparing, .prepared =>
    { b with
      writer := .waiting
      recorder := some (.create false)
      shared := { b.shared with writerReady := true } }
  | .preparing, .unprepared error left => { b with writer := .failing error, recorder := left }
  | .waiting, .pop =>
    match b.queue.waitPop with
    | none => b
    | some (queue, some envelope) => { b with queue, writer := .appending envelope }
    | some (queue, none) => { b with queue, writer := .closing }
  | .appending envelope, .append outcome =>
    match b.recorder with
    | none => b
    | some recorder => b.append recorder envelope outcome
  | .noting envelope, .note =>
    { b with
      writer := .waiting
      shared := { b.shared with status := b.shared.status.written envelope.recordIndex } }
  | .closing, .closed ok =>
    if ok then { b with writer := .ending }
    else { b with writer := .failing (ascii "raw recording final flush/close failed") }
  | .failing error, .fail =>
    { b with writer := .releasing, shared := b.shared.recordingFailed error }
  | .releasing, .release => { b with writer := .ending, queue := b.queue.close }
  | .ending, .finish => { b with writer := .done, shared := { b.shared with writerDone := true } }
  | _, _ => b

/-- The raw file. -/
def file (b : Backend) : Option Bytes := b.recorder.map (·.output)

/-- `try_push` by the market thread. -/
def push (b : Backend) (envelope : RawMessage) : Backend × PushResult :=
  let (queue, result) := b.queue.tryPush envelope
  ({ b with
    queue
    accepted := if result = .accepted then b.accepted ++ [envelope] else b.accepted }, result)

/-- `close` by the market thread. -/
def close (b : Backend) : Backend := { b with queue := b.queue.close }

/-- A section of the market thread. -/
def withStatus (b : Backend) (status : RuntimeStatus) : Backend :=
  { b with shared := { b.shared with status } }

end Backend

/-! ### What a step can do -/

/-- The envelope that the writer has taken out of the queue and not written. -/
def WriterPhase.inHand : WriterPhase → List RawMessage
  | appending envelope => [envelope]
  | _ => []

/-- The records written and not counted yet. -/
def WriterPhase.unnoted : WriterPhase → Nat
  | noting _ => 1
  | _ => 0

/-- The writer has left its loop. -/
def WriterPhase.hasLeft : WriterPhase → Bool
  | closing | ending | done => true
  | _ => false

namespace Backend

/-- Everything a step of the writer thread can do. -/
inductive Moved (b : Backend) : Backend → Prop
  | idle : Moved b b
  | prepared (phase : b.writer = .preparing) :
      Moved b { b with
        writer := .waiting
        recorder := some (.create false)
        shared := { b.shared with writerReady := true } }
  | unprepared (error : Bytes) (left : Option RawEventRecorder) (phase : b.writer = .preparing) :
      Moved b { b with writer := .failing error, recorder := left }
  | popped (envelope : RawMessage) (rest : List RawMessage) (bytes : Nat)
      (phase : b.writer = .waiting) (messages : b.queue.messages = envelope :: rest) :
      Moved b { b with
        queue := { b.queue with messages := rest, bytes }
        writer := .appending envelope }
  | drained (phase : b.writer = .waiting) (messages : b.queue.messages = [])
      (closed : b.queue.closed = true) : Moved b { b with writer := .closing }
  | appended (envelope : RawMessage) (recorder next : RawEventRecorder)
      (phase : b.writer = .appending envelope) (used : b.recorder = some recorder)
      (index : envelope.recordIndex % 2 ^ 64 = recorder.nextRecordIndex)
      (result : recorder.appendEnvelope envelope = (next, .ok true)) :
      Moved b { b with
        writer := .noting envelope
        recorder := some next
        written := b.written ++ [envelope] }
  | unwritten (envelope : RawMessage) (error : Bytes) (left : Option RawEventRecorder)
      (phase : b.writer = .appending envelope) :
      Moved b { b with writer := .failing error, recorder := left }
  | noted (envelope : RawMessage) (phase : b.writer = .noting envelope) :
      Moved b { b with
        writer := .waiting
        shared := { b.shared with status := b.shared.status.written envelope.recordIndex } }
  | closed (phase : b.writer = .closing) : Moved b { b with writer := .ending }
  | unclosed (error : Bytes) (phase : b.writer = .closing) :
      Moved b { b with writer := .failing error }
  | failed (error : Bytes) (phase : b.writer = .failing error) :
      Moved b { b with writer := .releasing, shared := b.shared.recordingFailed error }
  | released (phase : b.writer = .releasing) :
      Moved b { b with writer := .ending, queue := b.queue.close }
  | finished (phase : b.writer = .ending) :
      Moved b { b with writer := .done, shared := { b.shared with writerDone := true } }

private theorem append_moved (b : Backend) {recorder : RawEventRecorder} {envelope : RawMessage}
    (outcome : AppendOutcome) (h : b.writer = .appending envelope)
    (hu : b.recorder = some recorder) : b.Moved (b.append recorder envelope outcome) := by
  have hfailing (error : Bytes) : b.Moved { b with writer := .failing error } :=
    .unwritten envelope error b.recorder h
  unfold append
  split
  · exact hfailing _
  · next hi =>
    split
    · exact hfailing _
    · exact hfailing _
    · next next hresult =>
      cases outcome with
      | appended => exact .appended envelope recorder next h hu (not_not.mp hi) hresult
      | refused kept => exact .unwritten envelope _ _ h
      | thrown what => exact hfailing what

private theorem pop_moved (b : Backend) (h : b.writer = .waiting) : b.Moved (b.move .pop) := by
  simp only [move, h, RawRecordingQueue.waitPop]
  cases hm : b.queue.messages with
  | nil =>
    by_cases hc : b.queue.closed = true
    · simp only [hc, ↓reduceIte]
      exact .drained h hm hc
    · simp only [hc, Bool.false_eq_true, ↓reduceIte]
      exact .idle
  | cons envelope rest => exact .popped envelope rest _ h hm

/-- Every move is one of these steps. -/
theorem move_moved (b : Backend) (step : WriterMove) : b.Moved (b.move step) := by
  cases step with
  | pop =>
    cases h : b.writer with
    | waiting => exact b.pop_moved h
    -- a move that is not due in this phase changes nothing
    | _ =>
      simp only [move, h]
      exact .idle
  | append outcome =>
    cases h : b.writer with
    | appending envelope =>
      cases hu : b.recorder with
      | none =>
        simp only [move, h, hu]
        exact .idle
      | some recorder =>
        simp only [move, h, hu]
        exact b.append_moved outcome h hu
    | _ =>
      simp only [move, h]
      exact .idle
  | closed ok =>
    cases h : b.writer with
    | closing =>
      simp only [move, h]
      split
      · exact .closed h
      · exact .unclosed _ h
    | _ =>
      simp only [move, h]
      exact .idle
  | prepared =>
    cases h : b.writer with
    | preparing =>
      simp only [move, h]
      exact .prepared h
    | _ =>
      simp only [move, h]
      exact .idle
  | unprepared error left =>
    cases h : b.writer with
    | preparing =>
      simp only [move, h]
      exact .unprepared error left h
    | _ =>
      simp only [move, h]
      exact .idle
  | note =>
    cases h : b.writer with
    | noting envelope =>
      simp only [move, h]
      exact .noted envelope h
    | _ =>
      simp only [move, h]
      exact .idle
  | fail =>
    cases h : b.writer with
    | failing error =>
      simp only [move, h]
      exact .failed error h
    | _ =>
      simp only [move, h]
      exact .idle
  | release =>
    cases h : b.writer with
    | releasing =>
      simp only [move, h]
      exact .released h
    | _ =>
      simp only [move, h]
      exact .idle
  | finish =>
    cases h : b.writer with
    | ending =>
      simp only [move, h]
      exact .finished h
    | _ =>
      simp only [move, h]
      exact .idle

/-- What `try_push` can do. -/
inductive Pushed (b : Backend) (envelope : RawMessage) : Prop
  | refused (result : (b.push envelope).2 ≠ .accepted) (state : (b.push envelope).1 = b)
  | accepted (bytes : Nat) (opened : b.queue.closed = false)
      (result : (b.push envelope).2 = .accepted)
      (state : (b.push envelope).1 = { b with
        queue := { b.queue with messages := b.queue.messages ++ [envelope], bytes }
        accepted := b.accepted ++ [envelope] })

private theorem push_pushed (b : Backend) (envelope : RawMessage) : b.Pushed envelope := by
  by_cases hc : b.queue.closed = true
  · have hp : b.queue.tryPush envelope = (b.queue, .closed) := if_pos hc
    exact .refused (by simp [push, hp]) (by simp [push, hp])
  · by_cases hfull : b.queue.config.maximumMessages ≤ b.queue.messages.length ∨
        b.queue.remainingBytes < envelope.payload.length
    · have hp : b.queue.tryPush envelope = (b.queue, .full) := by
        rw [RawRecordingQueue.tryPush, if_neg hc, if_pos hfull]
      exact .refused (by simp [push, hp]) (by simp [push, hp])
    · have hp : (b.queue.tryPush envelope).2 = .accepted := by
        rw [RawRecordingQueue.tryPush, if_neg hc, if_neg hfull]
      refine .accepted ((b.queue.bytes + envelope.payload.length) % 2 ^ 64)
        (Bool.not_eq_true _ ▸ hc) (by simp [push, hp]) ?_
      rw [push, RawRecordingQueue.tryPush, if_neg hc, if_neg hfull]
      rfl

/-- The writer is in its handler or past it, with the fatal error set once it has reported it. -/
def Failed (b : Backend) : Prop :=
  match b.writer with
  | .failing _ => True
  | .releasing | .ending | .done => b.shared.status.fatalError ≠ none
  | _ => False

/-- Once it is prepared, and unless the writer fails, the file is what its recorder makes of the
records written. -/
def Filed (b : Backend) : Prop :=
  b.Failed ∨ (b.writer = .preparing ∧ b.written = []) ∨
    b.writer ≠ .preparing ∧ ∃ recorder, b.recorder = some recorder ∧
      ((∀ e ∈ b.written, ∃ venue : KnownVenue, e.venue = venue) →
        recorder.Holds (b.written.map RawMessage.narrowed))

/-- No record is lost but the one that a failure was about, none comes twice or out of order, and
the writer's counters and its file say how many there are. -/
structure Recorded (b : Backend) : Prop where
  indexed : b.accepted.map RawMessage.recordIndex = List.range b.accepted.length
  kept : ∃ lost, b.accepted = b.written ++ (b.writer.inHand ++ (lost ++ b.queue.messages)) ∧
    (lost = [] ∨ b.Failed)
  count : b.shared.status.writtenMessages + b.writer.unnoted = b.written.length
  last : b.shared.status.progress.lastWrittenIndex = lastOf b.shared.status.writtenMessages
  noting : ∀ envelope, b.writer = .noting envelope → envelope.recordIndex + 1 = b.written.length
  left : b.writer.hasLeft = true → b.queue.closed = true ∧ (b.queue.messages = [] ∨ b.Failed)
  releasing : b.writer = .releasing → b.shared.status.fatalError ≠ none
  filed : b.Filed

variable {b : Backend}

private theorem index_of_split {accepted before rest : List RawMessage} {envelope : RawMessage}
    (hi : accepted.map RawMessage.recordIndex = List.range accepted.length)
    (hs : accepted = before ++ envelope :: rest) : envelope.recordIndex = before.length := by
  have hat := congrArg (fun indexes : List Nat ↦ indexes[before.length]?) hi
  have hlt : before.length < accepted.length := by
    rw [hs, List.length_append, List.length_cons]
    omega
  simp only [List.getElem?_range hlt] at hat
  rw [hs, List.map_append, List.map_cons] at hat
  rw [List.getElem?_append_right (by rw [List.length_map]), List.length_map, Nat.sub_self] at hat
  exact Option.some_inj.mp hat

/-- The records written are the first ones accepted. -/
theorem Recorded.written_eq (h : b.Recorded) : b.written = b.accepted.take b.written.length := by
  obtain ⟨lost, hs, -⟩ := h.kept
  rw [hs, List.take_left]

/-- They have the indexes from zero on. -/
theorem Recorded.written_indexes (h : b.Recorded) :
    b.written.map RawMessage.recordIndex = List.range b.written.length := by
  obtain ⟨lost, hs, -⟩ := h.kept
  have hle : b.written.length ≤ b.accepted.length := by
    rw [hs, List.length_append]
    omega
  have htake := congrArg (List.take b.written.length) h.indexed
  rw [← List.map_take, ← h.written_eq, List.take_range, Nat.min_eq_left hle] at htake
  exact htake

/-- The index check of the writer always holds. -/
theorem Recorded.appending_index (h : b.Recorded) {envelope : RawMessage}
    (hw : b.writer = .appending envelope) : envelope.recordIndex = b.written.length := by
  obtain ⟨lost, hs, -⟩ := h.kept
  rw [hw] at hs
  exact index_of_split h.indexed hs

/-- A new backend has recorded nothing. -/
theorem recorded_create (config : RawQueueConfig) :
    ({ queue := .create config } : Backend).Recorded :=
  ⟨rfl, ⟨[], rfl, .inl rfl⟩, rfl, rfl, nofun, nofun, nofun, .inr (.inl ⟨rfl, rfl⟩)⟩

/-- `recording_failed` sets the fatal error. -/
theorem recordingFailed_failed (shared : SharedRuntime) (error : Bytes) :
    (shared.recordingFailed error).status.fatalError ≠ none :=
  (verdict_fail shared.status error (by rfl)).2

/-- A step of a writer that has failed is one of its handler or behind it. -/
private theorem Moved.failed_of_failed {b' : Backend} (h : b.Moved b') (hf : b.Failed) :
    b'.Failed := by
  unfold Failed at hf ⊢
  cases h with
  | idle => exact hf
  | failed error phase => exact recordingFailed_failed b.shared error
  | unprepared | unwritten | unclosed => trivial
  | closed phase =>
    rw [phase] at hf
    exact hf.elim
  | prepared phase | popped _ _ _ phase | drained phase | appended _ _ _ phase | noted _ phase
  | released phase | finished phase =>
    rw [phase] at hf
    exact hf

private theorem holds_written {recorder next : RawEventRecorder} {written : List RawMessage}
    {envelope : RawMessage}
    (hholds : (∀ e ∈ written, ∃ venue : KnownVenue, e.venue = venue) →
      recorder.Holds (written.map RawMessage.narrowed))
    (hi : envelope.recordIndex % 2 ^ 64 = recorder.nextRecordIndex)
    (ha : recorder.appendEnvelope envelope = (next, .ok true))
    (hv : ∀ e ∈ written ++ [envelope], ∃ venue : KnownVenue, e.venue = venue) :
    next.Holds ((written ++ [envelope]).map RawMessage.narrowed) := by
  rw [List.forall_mem_append, List.forall_mem_singleton] at hv
  obtain ⟨hv, venue, hvenue⟩ := hv
  rw [List.map_append]
  exact (hholds hv).appendEnvelope hvenue hi ha

/-- A step of the writer thread keeps the file. -/
private theorem Moved.filed {b' : Backend} (h : b.Moved b') (hb : b.Filed) : b'.Filed := by
  obtain hf | ⟨hp, hw⟩ | ⟨hp, recorder, hr, hholds⟩ := hb
  · exact .inl (h.failed_of_failed hf)
  · cases h with
    | idle => exact .inr (.inl ⟨hp, hw⟩)
    | prepared phase =>
      refine .inr (.inr ⟨nofun, _, rfl, fun _ ↦ ?_⟩)
      rw [hw]
      exact RawEventRecorder.holds_create
    | unprepared | unwritten | unclosed => exact .inl trivial
    | popped _ _ _ phase | drained phase | appended _ _ _ phase | noted _ phase | closed phase
    | failed _ phase | released phase | finished phase =>
      rw [hp] at phase
      cases phase
  · cases h with
    | unprepared | unwritten | unclosed => exact .inl trivial
    | failed error phase => exact .inl (recordingFailed_failed b.shared error)
    | prepared phase => exact absurd phase hp
    | appended envelope used next phase hused index result =>
      cases hr.symm.trans hused
      exact .inr (.inr ⟨nofun, next, rfl, holds_written hholds index result⟩)
    | idle => exact .inr (.inr ⟨hp, recorder, hr, hholds⟩)
    | popped | drained | noted | closed | released | finished =>
      exact .inr (.inr ⟨nofun, recorder, hr, hholds⟩)

/-- A step of the writer thread loses nothing. -/
theorem Moved.recorded {b' : Backend} (h : b.Moved b') (hr : b.Recorded) : b'.Recorded := by
  have hfiled := h.filed hr.filed
  obtain ⟨hindexed, ⟨lost, hsplit, hlost⟩, hcount, hlast, hnoting, hleft, hreleasing, -⟩ := hr
  unfold Failed at hlost hleft
  cases h with
  | idle =>
    exact ⟨hindexed, ⟨lost, hsplit, hlost⟩, hcount, hlast, hnoting, hleft, hreleasing, hfiled⟩
  | prepared phase =>
    rw [phase] at hsplit hcount hlost
    exact ⟨hindexed, ⟨lost, hsplit, hlost⟩, hcount, hlast, nofun, nofun, nofun, hfiled⟩
  | unprepared error left phase =>
    rw [phase] at hsplit hcount
    exact ⟨hindexed, ⟨lost, hsplit, .inr trivial⟩, hcount, hlast, nofun, nofun, nofun, hfiled⟩
  | popped envelope rest bytes phase messages =>
    rw [phase] at hsplit hcount hlost
    -- the writer has not failed, so the message at the front is the next one accepted
    rw [hlost.resolve_right id, messages] at hsplit
    exact ⟨hindexed, ⟨[], hsplit, .inl rfl⟩, hcount, hlast, nofun, nofun, nofun, hfiled⟩
  | drained phase messages closed =>
    rw [phase] at hsplit hcount hlost
    exact ⟨hindexed, ⟨lost, hsplit, hlost⟩, hcount, hlast, nofun, fun _ ↦ ⟨closed, .inl messages⟩,
      nofun, hfiled⟩
  | appended envelope recorder next phase used index result =>
    rw [phase] at hsplit hcount hlost
    have hnext : envelope.recordIndex = b.written.length := index_of_split hindexed hsplit
    refine ⟨hindexed, ⟨lost, ?_, hlost⟩, ?_, hlast, ?_, nofun, nofun, hfiled⟩
    · simpa [WriterPhase.inHand] using hsplit
    · simpa [WriterPhase.unnoted] using hcount
    · rintro e ⟨⟩
      rw [hnext, List.length_append, List.length_singleton]
  | unwritten envelope error left phase =>
    -- the envelope in hand is lost; nothing behind it is written any more
    rw [phase] at hsplit hcount
    exact ⟨hindexed, ⟨envelope :: lost, hsplit, .inr trivial⟩, hcount, hlast, nofun,
      nofun, nofun, hfiled⟩
  | noted envelope phase =>
    have hnext := hnoting envelope phase
    rw [phase] at hsplit hcount hlost
    -- the count of the status lags behind the file by the envelope in hand
    have hlength : envelope.recordIndex = b.shared.status.writtenMessages := by
      simp only [WriterPhase.unnoted] at hcount
      omega
    refine ⟨hindexed, ⟨lost, hsplit, hlost⟩, hcount, ?_, nofun, nofun, nofun, hfiled⟩
    rw [hlength]
    rfl
  | closed phase =>
    have hl := hleft (by rw [phase]; rfl)
    rw [phase] at hsplit hcount hlost hl
    exact ⟨hindexed, ⟨lost, hsplit, .inl (hlost.resolve_right id)⟩, hcount, hlast, nofun,
      fun _ ↦ ⟨hl.1, .inl (hl.2.resolve_right id)⟩, nofun, hfiled⟩
  | unclosed error phase =>
    rw [phase] at hsplit hcount
    exact ⟨hindexed, ⟨lost, hsplit, .inr trivial⟩, hcount, hlast, nofun, nofun, nofun, hfiled⟩
  | failed error phase =>
    rw [phase] at hsplit hcount
    have hf := recordingFailed_failed b.shared error
    refine ⟨hindexed, ⟨lost, hsplit, .inr hf⟩, ?_, ?_, nofun, nofun, fun _ ↦ hf, hfiled⟩
    · simpa [SharedRuntime.recordingFailed, WriterPhase.unnoted] using hcount
    · simpa [SharedRuntime.recordingFailed] using hlast
  | released phase =>
    have hf := hreleasing phase
    rw [phase] at hsplit hcount
    exact ⟨hindexed, ⟨lost, hsplit, .inr hf⟩, hcount, hlast, nofun, fun _ ↦ ⟨rfl, .inr hf⟩, nofun,
      hfiled⟩
  | finished phase =>
    have hl := hleft (by rw [phase]; rfl)
    rw [phase] at hsplit hcount hlost hl
    exact ⟨hindexed, ⟨lost, hsplit, hlost⟩, hcount, hlast, nofun, fun _ ↦ hl, nofun, hfiled⟩

/-- `try_push` of the next envelope. -/
theorem Recorded.push (h : b.Recorded) {envelope : RawMessage}
    (hi : envelope.recordIndex = b.accepted.length) : (b.push envelope).1.Recorded := by
  cases b.push_pushed envelope with
  | refused result state =>
    rw [state]
    exact h
  | accepted bytes opened result state =>
    obtain ⟨hindexed, ⟨lost, hsplit, hlost⟩, hcount, hlast, hnoting, hleft, hreleasing, hfiled⟩ := h
    rw [state]
    refine ⟨?_, ⟨lost, ?_, hlost⟩, hcount, hlast, hnoting, ?_, hreleasing, hfiled⟩
    · simp [List.range_succ, hindexed, hi]
    · simp [hsplit]
    · intro hl
      rw [(hleft hl).1] at opened
      cases opened

/-- `close`. -/
theorem Recorded.close (h : b.Recorded) : b.close.Recorded := by
  obtain ⟨hindexed, hkept, hcount, hlast, hnoting, hleft, hreleasing, hfiled⟩ := h
  exact ⟨hindexed, hkept, hcount, hlast, hnoting, fun hl ↦ ⟨rfl, (hleft hl).2⟩, hreleasing, hfiled⟩

/-- A section of the market thread that leaves the writer's fields alone. -/
theorem Recorded.withStatus (h : b.Recorded) {status : RuntimeStatus}
    (hw : status.writtenMessages = b.shared.status.writtenMessages)
    (hp : status.progress.lastWrittenIndex = b.shared.status.progress.lastWrittenIndex)
    (hf : b.shared.status.fatalError ≠ none → status.fatalError ≠ none) :
    (b.withStatus status).Recorded := by
  obtain ⟨hindexed, ⟨lost, hsplit, hlost⟩, hcount, hlast, hnoting, hleft, hreleasing, hfiled⟩ := h
  have hfailed (h : b.Failed) : (b.withStatus status).Failed := by
    unfold Failed at h ⊢
    simp only [Backend.withStatus]
    split
    · trivial
    all_goals simp_all
  refine ⟨hindexed, ⟨lost, hsplit, hlost.imp_right hfailed⟩, ?_, ?_, hnoting, ?_, ?_,
    hfiled.imp_left hfailed⟩
  · rw [← hw] at hcount
    exact hcount
  · rw [← hp, ← hw] at hlast
    exact hlast
  · exact fun hl ↦ ⟨(hleft hl).1, (hleft hl).2.imp_right hfailed⟩
  · exact fun hl ↦ hf (hreleasing hl)

end Backend

end ArbitrageEngine.Pipeline
