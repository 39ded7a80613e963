import ArbitrageEngine.Kraken.BookAgreement
import ArbitrageEngine.Pipeline.KrakenMarket
import ArbitrageEngine.Session.KrakenReplay

/-!
# Replay of a Kraken session gives the live book

The live loop resets its processor at the first record of a connection, replay at a change of
`connection_id`; a connection that delivers nothing leaves no trace in either. By induction
over the steps of the market thread, folding replay over what has been recorded so far gives
the processor as it is.
-/

namespace ArbitrageEngine.Pipeline

open Base ArbitrageEngine.Core Coinbase Kraken Recording Sessions

/-! ### What a Kraken session records -/

/-- The part of an effect that a session records; the queue keeps what it accepts. -/
def KrakenEffect.recording : KrakenEffect → Option (LifecycleEntry ⊕ RawMessage)
  | lifecycle event => some (.inl (.ofEvent event))
  | pushed envelope .accepted => some (.inr envelope)
  | _ => none

namespace KrakenSession

/-- The recorded history of the session. -/
def history (s : KrakenSession) : List (LifecycleEntry ⊕ RawMessage) :=
  s.trace.filterMap KrakenEffect.recording

/-- The envelopes that the queue accepted. -/
def recordedEnvelopes (s : KrakenSession) : List RawMessage := Weave.records s.history

/-- The lifecycle events of the status, as the manifest has them. -/
def recordedLifecycle (s : KrakenSession) : List LifecycleEntry := Weave.events s.history

/-- The history grows with the trace. -/
theorem history_of_trace {s s' : KrakenSession} (effects : List KrakenEffect)
    (h : s'.trace = s.trace ++ effects) :
    s'.history = s.history ++ effects.filterMap KrakenEffect.recording := by
  rw [history, h, List.filterMap_append]
  rfl

private theorem history_connecting (s : KrakenSession) : s.connecting.history = s.history := by
  rw [history_of_trace [.connect (s.connection + 1)] rfl]
  exact List.append_nil _

private theorem history_stopped (s : KrakenSession) : s.stopped.history = s.history := by
  rw [history_of_trace [.abort, .cancelRetry, .closeQueue] rfl]
  exact List.append_nil _

private theorem history_recovering (s : KrakenSession) (reason : Bytes) (state : BookState)
    (delay : Nat) :
    (s.recovering reason state delay).history =
      s.history ++ [Sum.inl ⟨s.index, bookName state, reason⟩] :=
  history_of_trace [.lifecycle ⟨s.index, state, reason⟩, .abort, .schedule delay] rfl

/-- Opening a connection leaves the trace alone. -/
theorem opened_trace (s : KrakenSession) : (KrakenMarket.opened s).trace = s.trace := by
  unfold KrakenMarket.opened
  split <;> rfl

/-- Opening a connection leaves the index alone. -/
theorem opened_index (s : KrakenSession) : (KrakenMarket.opened s).index = s.index := by
  unfold KrakenMarket.opened
  split <;> rfl

/-- The session after a message that the queue accepted. -/
def delivered (crc : Bytes → UInt32) (s : KrakenSession) (e : RawMessage) : KrakenSession :=
  (KrakenMarket.processed crc (KrakenMarket.opened (KrakenMarket.pushed s e .accepted)) e.payload
    e.receiveWallTime e.receiveMonotonicTime).1

/-- A delivered envelope adds its record to the history. -/
theorem history_delivered (crc : Bytes → UInt32) (s : KrakenSession) (e : RawMessage) :
    (s.delivered crc e).history = s.history ++ [Sum.inr e] := by
  apply history_of_trace [.pushed e .accepted, .received s.index .accepted, .processed s.index]
  change (KrakenMarket.opened _).trace ++ [KrakenEffect.processed (KrakenMarket.opened _).index] = _
  rw [opened_trace, opened_index]
  simp [KrakenMarket.pushed]

/-! ### Following along -/

/-- The connection that replay has reached, next to that of the live loop. -/
structure Follows (connection : Option Nat) (s : KrakenSession) : Prop where
  seen : connection.isSome = s.seenRecord
  current : s.firstRecord = false → connection = some s.connection
  fresh : s.firstRecord = true → ∀ id, connection = some id → id < s.connection

private theorem Follows.le {connection : Option Nat} {s : KrakenSession} (h : Follows connection s)
    {id : Nat} (hid : connection = some id) : id ≤ s.connection := by
  cases hf : s.firstRecord with
  | true => exact Nat.le_of_lt (h.fresh hf id hid)
  | false =>
    rw [h.current hf] at hid
    exact Nat.le_of_eq (Option.some_inj.mp hid).symm

/-- The invariant: replay of the recorded history ends with the live processor. -/
structure Replays (crc : Bytes → UInt32) (p₀ : KrakenBookProcessor) (s : KrakenSession) : Prop where
  filed : (KrakenReplay.loop crc).Filed 0 s.history
  count : s.recordedEnvelopes.length = s.index
  named : ∀ event ∈ s.recordedLifecycle, event.state ∈ lifecycleStates
  agrees : s.processor.Agrees
  state : s.processor.book.state ≠ .resyncing
  replayed : ∃ replay, s.history.foldlM (KrakenReplay.loop crc).item (.initial p₀) = .ok replay ∧
    replay.processor = s.processor ∧ Follows replay.connection s

variable {crc : Bytes → UInt32} {p₀ : KrakenBookProcessor}

private theorem Replays.connecting {s : KrakenSession} (h : s.Replays crc p₀) :
    s.connecting.Replays crc p₀ := by
  obtain ⟨hfiled, hcount, hnamed, hagrees, hstate, replay, hfold, hprocessor, hfollows⟩ := h
  have hh := history_connecting s
  refine ⟨by rwa [hh], ?_, ?_, hagrees, hstate, replay, by rwa [hh], hprocessor, ?_⟩
  · rw [recordedEnvelopes, hh]
    exact hcount
  · rw [recordedLifecycle, hh]
    exact hnamed
  · refine ⟨hfollows.seen, nofun, fun _ id hid ↦ ?_⟩
    exact Nat.lt_succ_of_le (hfollows.le hid)

private theorem Replays.stopped {s : KrakenSession} (h : s.Replays crc p₀) :
    s.stopped.Replays crc p₀ := by
  obtain ⟨hfiled, hcount, hnamed, hagrees, hstate, replay, hfold, hprocessor, hfollows⟩ := h
  have hh := history_stopped s
  refine ⟨by rwa [hh], ?_, ?_, hagrees, hstate, replay, by rwa [hh], hprocessor, ?_⟩
  · rw [recordedEnvelopes, hh]
    exact hcount
  · rw [recordedLifecycle, hh]
    exact hnamed
  · exact ⟨hfollows.seen, hfollows.current, hfollows.fresh⟩

/-- The two states that a recovery leaves are read back as the calls that made them. -/
theorem applyState_bookName (processor : KrakenBookProcessor) {state : BookState}
    (h : state = .disconnected ∨ state = .stale) :
    KrakenReplay.applyState processor (bookName state) = processor.mark state := by
  rcases h with rfl | rfl
  · rfl
  · rfl

private theorem Replays.recovering {s : KrakenSession} (h : s.Replays crc p₀) (reason : Bytes)
    {state : BookState} (delay : Nat) (hs : state = .disconnected ∨ state = .stale) :
    (s.recovering reason state delay).Replays crc p₀ := by
  obtain ⟨hfiled, hcount, hnamed, hagrees, hstate, replay, hfold, hprocessor, hfollows⟩ := h
  have hh := history_recovering s reason state delay
  have hne : state ≠ .valid ∧ state ≠ .resyncing := by
    rcases hs with rfl | rfl <;> exact ⟨nofun, nofun⟩
  have hrecords : (s.recovering reason state delay).recordedEnvelopes = s.recordedEnvelopes := by
    rw [recordedEnvelopes, hh, Weave.records_append]
    exact List.append_nil _
  have hmark : (s.processor.mark state).Agrees :=
    KrakenBookProcessor.Frame.agrees (p := s.processor) ⟨rfl, rfl, rfl⟩ rfl hagrees
  refine ⟨?_, ?_, ?_, hmark, hne.2, ?_⟩
  · rw [hh, Weave.filed_append, Nat.zero_add]
    exact ⟨hfiled, hcount.symm, trivial⟩
  · rw [hrecords]
    exact hcount
  · intro event he
    rw [recordedLifecycle, hh, Weave.events_append, List.mem_append] at he
    rcases he with he | he
    · exact hnamed event he
    · rw [show event = _ from List.mem_singleton.mp he]
      exact bookName_mem hne.1
  · refine ⟨replay.assign (KrakenReplay.applyState replay.processor (bookName state)) reason, ?_,
      ?_, ?_⟩
    · rw [hh, List.foldlM_append, hfold]
      rfl
    · rw [KrakenReplay.assign_processor, hprocessor, applyState_bookName _ hs]
      rfl
    · rw [KrakenReplay.assign_connection]
      exact ⟨hfollows.seen, hfollows.current, hfollows.fresh⟩

/-- Both sides reset their processor at the same records. -/
theorem Follows.reconnect {replay : KrakenReplay} {s : KrakenSession}
    (h : Follows replay.connection s) (hp : replay.processor = s.processor) {e : RawMessage}
    (he : e.connectionId = s.connection) :
    (replay.reconnect e).processor =
      (KrakenMarket.opened (KrakenMarket.pushed s e .accepted)).processor := by
  rw [KrakenReplay.reconnect_processor, he, hp]
  unfold KrakenMarket.opened KrakenMarket.pushed
  cases hf : s.firstRecord with
  | false =>
    rw [if_pos (.inl (h.current hf))]
    simp
  | true =>
    have hother : replay.connection ≠ some s.connection := by
      intro hc
      exact absurd (h.fresh hf _ hc) (Nat.lt_irrefl _)
    cases hc : replay.connection with
    | none =>
      have hseen : s.seenRecord = false := by
        rw [← h.seen, hc]
        rfl
      simp [hseen]
    | some id =>
      have hseen : s.seenRecord = true := by
        rw [← h.seen, hc]
        rfl
      rw [hc] at hother
      simp [hseen, hother]

private theorem Follows.not_regressed {connection : Option Nat} {s : KrakenSession}
    (h : Follows connection s) : ¬connection.any (s.connection < ·) = true := by
  cases hc : connection with
  | none => nofun
  | some id =>
    have hle := h.le hc
    simpa using hle

private theorem agrees_opened {s : KrakenSession} (h : s.processor.Agrees) :
    (KrakenMarket.opened s).processor.Agrees := by
  unfold KrakenMarket.opened
  split
  · dsimp only
    split
    · exact KrakenBookProcessor.Frame.agrees (p := s.processor) ⟨rfl, rfl, rfl⟩ rfl h
    · exact h
  · exact h

/-- No call leaves the book resyncing. -/
theorem state_call {p : KrakenBookProcessor} (ha : p.Agrees) (hs : p.book.state ≠ .resyncing)
    (c : Call) : (p.call crc c).1.book.state ≠ .resyncing := by
  have hstep : p.Step crc (p.note crc c) (p.call crc c).1 := KrakenBookProcessor.call_step p c
  generalize p.note crc c = n at hstep
  cases hstep with
  | accepted hi =>
    have hsound := KrakenBookProcessor.sound_of_stage ha.sound hi.staged
    rw [(KrakenBookProcessor.candidate_ok hsound hi.book).1]
    nofun
  | unusable _ _ _ _ cause =>
    rcases cause with hsame | hmark
    · rwa [hsame]
    · intro h
      rw [h] at hmark
      exact absurd hmark (by decide)
  | neutral _ hb => rwa [hb]

private theorem state_opened {s : KrakenSession} (h : s.processor.book.state ≠ .resyncing) :
    (KrakenMarket.opened s).processor.book.state ≠ .resyncing := by
  unfold KrakenMarket.opened
  split
  · dsimp only
    split
    · nofun
    · exact h
  · exact h

private theorem opened_connection (s : KrakenSession) :
    (KrakenMarket.opened s).connection = s.connection ∧
      (KrakenMarket.opened s).firstRecord = false := by
  unfold KrakenMarket.opened
  split
  · exact ⟨rfl, rfl⟩
  · next h => exact ⟨rfl, by simpa using h⟩

/-- After its first record a connection has been seen. -/
theorem Follows.opened_seen {connection : Option Nat} {s : KrakenSession}
    (h : Follows connection s) : (KrakenMarket.opened s).seenRecord = true := by
  unfold KrakenMarket.opened
  split
  · rfl
  · next hf =>
    rw [Bool.not_eq_true] at hf
    rw [← h.seen, h.current hf]
    rfl

/-- A message goes through both sides in the same way. -/
theorem Replays.delivered {s : KrakenSession} (h : s.Replays crc p₀) {e : RawMessage}
    (hc : e.connectionId = s.connection) : (s.delivered crc e).Replays crc p₀ := by
  obtain ⟨hfiled, hcount, hnamed, hagrees, hstate, replay, hfold, hprocessor, hfollows⟩ := h
  have hh := history_delivered crc s e
  have hopened : (KrakenMarket.opened (KrakenMarket.pushed s e .accepted)).processor.Agrees :=
    agrees_opened (s := KrakenMarket.pushed s e .accepted) hagrees
  have hfollows' : Follows replay.connection (KrakenMarket.pushed s e .accepted) :=
    ⟨hfollows.seen, hfollows.current, hfollows.fresh⟩
  have hstep : KrakenBookProcessor.Step crc _ _ (s.delivered crc e).processor :=
    KrakenBookProcessor.call_step
      (KrakenMarket.opened (KrakenMarket.pushed s e .accepted)).processor
      (.process e.payload e.receiveWallTime e.receiveMonotonicTime)
  have hindex : (s.delivered crc e).index = s.index + 1 :=
    congrArg (· + 1) (opened_index (KrakenMarket.pushed s e .accepted))
  have hconnection := opened_connection (KrakenMarket.pushed s e .accepted)
  refine ⟨?_, ?_, ?_, hstep.agrees hopened, ?_, ?_⟩
  · rw [hh, Weave.filed_append]
    exact ⟨hfiled, rfl, trivial⟩
  · rw [recordedEnvelopes, hh, Weave.records_append, List.length_append, hindex, ← hcount]
    rfl
  · rw [recordedLifecycle, hh, Weave.events_append]
    exact (List.append_nil (Weave.events s.history)).symm ▸ hnamed
  · exact state_call hopened (state_opened (s := KrakenMarket.pushed s e .accepted) hstate)
      (.process e.payload e.receiveWallTime e.receiveMonotonicTime)
  · refine ⟨(replay.reconnect e).recorded crc e, ?_, ?_, ?_⟩
    · have hrecord : replay.replayRecord crc e = .ok ((replay.reconnect e).recorded crc e) := by
        have hregress := hfollows.not_regressed
        rw [← hc] at hregress
        rw [KrakenReplay.replayRecord, if_neg hregress]
      rw [hh, List.foldlM_append, hfold]
      simp only [bind, Except.bind, List.foldlM_cons, List.foldlM_nil, Weave.Loop.item]
      change (replay.replayRecord crc e >>= fun s ↦ pure s) >>= _ = _
      rw [hrecord]
      rfl
    · rw [KrakenReplay.recorded_processor, hfollows.reconnect hprocessor hc]
      rfl
    · rw [KrakenReplay.recorded_connection, KrakenReplay.reconnect_connection, hc]
      refine ⟨hfollows'.opened_seen.symm, fun _ ↦ ?_, fun hfirst ↦ ?_⟩
      · exact congrArg some hconnection.1.symm
      · rw [show (s.delivered crc e).firstRecord = false from hconnection.2] at hfirst
        cases hfirst

/-- One step of an undisturbed session keeps replay in agreement. -/
theorem Step.replays {s s' : KrakenSession} (h : Step crc False s s') (hr : s.Replays crc p₀) :
    s'.Replays crc p₀ := by
  cases h with
  | connect => exact hr.connecting
  | recover reason state delay running state_eq => exact hr.recovering reason delay state_eq
  | stop => exact hr.stopped
  | invalidate fault => exact fault.elim
  | accepted payload wall mono running =>
    exact hr.delivered (e := KrakenMarket.envelope s payload wall mono) rfl
  | refused payload wall mono result running refusal fault => exact fault.elim

/-- Replay agrees with a market that has done nothing. -/
theorem replays_initial {depth : Nat} (hc : KrakenBookProcessor.create depth = .ok p₀)
    (now : ReceiveMonotonicTimestamp) :
    (KrakenMarket.initial p₀ now).toKrakenSession.Replays crc p₀ := by
  obtain ⟨-, hagrees, hstate⟩ := KrakenBookProcessor.create_ok hc
  refine ⟨trivial, rfl, nofun, hagrees, ?_, .initial p₀, rfl, rfl, rfl, nofun, nofun⟩
  change p₀.book.state ≠ .resyncing
  rw [hstate]
  nofun

end KrakenSession

/-! ### The final book -/

/-- `state` of the contents that the market thread hashes at its end
(`src/pipeline/kraken_runtime.cpp:212–216`). -/
def liveStateName : BookState → Bytes
  | .valid => ascii "VALID"
  | .initializing => ascii "INITIALIZING"
  | .disconnected => ascii "DISCONNECTED"
  | .stale => ascii "STALE"
  | .resyncing | .invalid => ascii "INVALID"

/-- `contents` of the market thread (`src/pipeline/kraken_runtime.cpp:217–224`). -/
def liveContents (book : OrderBook) : BookContents :=
  ⟨rawLevels book.bids, rawLevels book.asks, liveStateName book.state, none⟩

/-- Unless the book resynchronizes, the program and replay hash the same text. -/
theorem liveContents_eq {book : OrderBook} (h : book.state ≠ .resyncing) :
    liveContents book = krakenContents book := by
  have hname : liveStateName book.state = bookName book.state := by
    cases hs : book.state with
    | resyncing => exact absurd hs h
    | initializing | valid | stale | disconnected | invalid => rfl
  rw [liveContents, krakenContents, hname]

/-- Replaying what an undisturbed run of the market thread has recorded, as a complete session,
ends with the processor of the market thread: the same levels, state, checksum and metrics, and
so the same contents of the final book. -/
theorem run_kraken_replay_agrees (crc : Bytes → UInt32) (limits : KrakenLimits) {depth : Nat}
    {p₀ : KrakenBookProcessor} (hc : KrakenBookProcessor.create depth = .ok p₀)
    (now : ReceiveMonotonicTimestamp) (actions : List KrakenMarket.Action)
    (ha : ∀ action ∈ actions, action.clean = true) :
    let m := (KrakenMarket.initial p₀ now).run crc limits actions
    ∃ replay, replayKraken crc depth .complete m.recordedEnvelopes m.recordedLifecycle =
        .ok replay ∧
      replay.processor = m.processor ∧
      krakenContents replay.processor.book = liveContents m.processor.book := by
  intro m
  have hfaultless : ∀ action ∈ actions, action.clean = false → False := by
    intro action hm hf
    rw [ha action hm] at hf
    cases hf
  have hinv : m.Replays crc p₀ :=
    KrakenMarket.run_invariant (I := fun s ↦ s.Replays crc p₀) (fun _ _ hs hi ↦ hs.replays hi)
      (KrakenSession.replays_initial hc now) hfaultless
  obtain ⟨replay, hfold, hprocessor, -⟩ := hinv.replayed
  refine ⟨replay, ?_, hprocessor, ?_⟩
  · have hvalid : validateLifecycle true m.recordedEnvelopes.length 0 m.recordedLifecycle =
        .ok () := validateLifecycle_of_filed rfl hinv.filed hinv.named
    have hrun : (KrakenReplay.loop crc).run 0 (.initial p₀) m.recordedEnvelopes
        m.recordedLifecycle = .ok (replay, []) := by
      rw [KrakenSession.recordedEnvelopes, KrakenSession.recordedLifecycle,
        Weave.run_eq_foldlM hinv.filed]
      change (m.history.foldlM (KrakenReplay.loop crc).item (.initial p₀)).map _ = _
      rw [hfold]
      rfl
    unfold replayKraken
    rw [show decide (SessionStatus.complete = .complete) = true from rfl, hvalid, hc]
    simp only [bind, Except.bind, hrun]
    rfl
  · rw [hprocessor, liveContents_eq hinv.state]

/-- A snapshot, a lost connection, an attempt that delivers nothing, and a snapshot on the third
connection, before the requested stop. -/
def lostAndFound : List KrakenMarket.Action :=
  [.connect ⟨0⟩, .connected ⟨0⟩, .message KrakenBookProcessor.oneLevelEach ⟨1⟩ ⟨1⟩ .accepted,
    .error (ascii "read: End of file"), .retry ⟨2⟩, .error (ascii "connect: Timed out"), .retry ⟨3⟩,
    .message KrakenBookProcessor.oneLevelEach ⟨4⟩ ⟨4⟩ .accepted, .tick ⟨5⟩ false false true]

/-- The records of such a run belong to the first and the third connection; replay resets its
processor once, as the live loop did. -/
theorem run_kraken_replay_agrees_reconnect :
    ∃ p₀, KrakenBookProcessor.create 10 = .ok p₀ ∧
      let m := (KrakenMarket.initial p₀ ⟨0⟩).run Crc.crc32 {} lostAndFound
      m.stopping = true ∧ m.recordedEnvelopes.map (·.connectionId) = [1, 3] ∧
      m.recordedLifecycle.map (·.beforeRecordIndex) = [1, 1] ∧
      m.processor.book.state = .valid ∧ m.processor.metrics.reconnects = 1 ∧
      ∃ replay, replayKraken Crc.crc32 10 .complete m.recordedEnvelopes m.recordedLifecycle =
        .ok replay ∧ replay.processor = m.processor := by
  refine ⟨_, rfl, by decide +kernel, by decide +kernel, by decide +kernel, by decide +kernel,
    by decide +kernel, ?_⟩
  obtain ⟨replay, hreplay, hprocessor, -⟩ := run_kraken_replay_agrees Crc.crc32 {}
    (by rfl : KrakenBookProcessor.create 10 = .ok _) ⟨0⟩ lostAndFound (by decide)
  exact ⟨replay, hreplay, hprocessor⟩

end ArbitrageEngine.Pipeline
