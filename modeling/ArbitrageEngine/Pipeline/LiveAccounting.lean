import ArbitrageEngine.Pipeline.Accounting
import ArbitrageEngine.Pipeline.Programs
import ArbitrageEngine.Session.CoinbaseHistory

/-!
# The books of `run_live`

What the connection manager has published, counted: every envelope that the queue accepted was
processed and published in the same action, and the first one that it rejects is the last one.
-/

namespace ArbitrageEngine.Coinbase

open Base ArbitrageEngine.Core Pipeline Recording Sessions

/-! ### Envelopes and sections of a session -/

namespace Effect

/-- The envelope that was processed. -/
def processing : Effect → Option RawMessage
  | parsed envelope => some envelope
  | _ => none

end Effect

namespace Session

/-- The envelopes that were processed. -/
def processedEnvelopes (s : Session) : List RawMessage := s.trace.filterMap Effect.processing

/-- The market thread's fields of the status after these effects. -/
def ledger (s : Session) : Ledger :=
  (s.trace.filterMap effectOp).foldl Op.enter ({} : RuntimeStatus).ledger

/-! ### What a step adds -/

/-- The session goes on without an envelope. -/
structure Continues (s s' : Session) : Prop where
  quiet : Quiet s s'
  handler : s'.handler = s.handler
  alive : s'.terminal = false → s.terminal = false

private theorem Continues.refl (s : Session) : Continues s s := ⟨⟨[], by simp, by simp⟩, rfl, id⟩

private theorem continues_recovering (s : Session) (reason : Bytes) (state : BookState)
    (delay : Nat) :
    Continues s (s.recovering reason state delay) :=
  ⟨quiet_recovering s reason state delay, rfl, id⟩

private theorem terminated_handler (s : Session) : s.terminated.handler = s.handler := by
  unfold terminated
  split <;> rfl

private theorem continues_terminated (s : Session) : Continues s s.terminated := by
  refine ⟨quiet_terminated s, terminated_handler s, ?_⟩
  rw [terminated_terminal]
  nofun

/-- What a step does with an envelope, up to quiet effects. -/
inductive Grows (s : Session) : Option RawMessage → Session → Prop
  | quiet {s' : Session} (rest : Continues s s') : Grows s none s'
  | accepted {s' : Session} (raw : Bytes) (wall : ReceiveWallTimestamp)
      (mono : ReceiveMonotonicTimestamp) (book : OrderBook) (sequence : SequenceTracker)
      (result : ProcessResult) (running : s.stopping = false)
      (outcome : result.outcome ≠ .recordingRejected)
      (rest : Continues (s.accepted (s.envelope raw wall mono) book sequence result) s') :
      Grows s (some (s.envelope raw wall mono)) s'
  | rejected {s' : Session} (raw : Bytes) (wall : ReceiveWallTimestamp)
      (mono : ReceiveMonotonicTimestamp) (response : SinkResponse) (error : Bytes)
      (running : s.stopping = false) (refused : response ≠ .returned .accepted)
      (rest : Continues (s.rejected (s.envelope raw wall mono) response
        { outcome := .recordingRejected, error }) s') (ended : s'.terminal = true) :
      Grows s (some (s.envelope raw wall mono)) s'

private theorem Step.grows {reasons : Bytes → Prop} {s s' : Session} {handed : Option RawMessage}
    (h : Step reasons s handed s') : Grows s handed s' := by
  cases h with
  | idle => exact .quiet (.refl s)
  | refreshed =>
    exact .quiet ⟨⟨[.book s.book.state], rfl, by simp [Effect.isProcessing]⟩, rfl, id⟩
  | start stopping alive =>
    exact .quiet ⟨quiet_begun { s with stopping := false }, rfl, id⟩
  | resume delay running token => exact .quiet ⟨quiet_begun s, rfl, id⟩
  | connected running fresh token => exact .quiet ⟨quiet_established s, rfl, id⟩
  | recover reason state delay running idle state_eq given =>
    exact .quiet (continues_recovering s reason state delay)
  | stop running => exact .quiet ⟨quiet_stopped s, rfl, id⟩
  | terminate => exact .quiet (continues_terminated s)
  | delivered raw wall mono health now feed result running connected token processed clean =>
    have hprocessed := Feed.processed_of_process processed
    exact .accepted raw wall mono _ _ _ running hprocessed.outcome_ne_rejected (.refl _)
  | failed raw wall mono health now feed result delay running connected token
      processed error idle =>
    have hprocessed := Feed.processed_of_process processed
    exact .accepted raw wall mono _ _ _ running hprocessed.outcome_ne_rejected
      (continues_recovering _ _ _ _)
  | thrown raw wall mono health now feed failure delay running connected token processed idle =>
    exact .accepted raw wall mono _ _ _ running (by simp) (continues_recovering _ _ _ _)
  | rejected raw wall mono response error running connected token refused =>
    exact .rejected raw wall mono response error running refused (continues_terminated _)
      (terminated_terminal _)

/-! ### What has been counted -/

private theorem processedEnvelopes_append {s s' : Session} {suffix : List Effect}
    (h : s'.trace = s.trace ++ suffix) :
    s'.processedEnvelopes = s.processedEnvelopes ++ suffix.filterMap Effect.processing := by
  rw [processedEnvelopes, h, List.filterMap_append]
  rfl

private theorem ledger_append {s s' : Session} {suffix : List Effect}
    (h : s'.trace = s.trace ++ suffix) :
    s'.ledger = (suffix.filterMap effectOp).foldl Op.enter s.ledger := by
  rw [ledger, h, List.filterMap_append, List.foldl_append]
  rfl

/-- Effects that process no message leave the counters alone. -/
theorem foldl_enter_quiet {suffix : List Effect} (hq : ∀ x ∈ suffix, x.isProcessing = false)
    (entries : Ledger) :
    ((suffix.filterMap effectOp).foldl Op.enter entries).counters = entries.counters := by
  induction suffix generalizing entries with
  | nil => rfl
  | cons effect rest ih =>
    have hrest := ih (fun x hx ↦ hq x (List.mem_cons_of_mem _ hx))
    have heffect := hq effect List.mem_cons_self
    cases effect with
    | lifecycle event => exact hrest (Op.enter entries (.lifecycle event))
    | parsed | published => cases heffect
    | book | connect | close | schedule | pushed => exact hrest entries

private theorem Continues.counted {s s' : Session} (h : Continues s s') :
    s'.ledger.counters = s.ledger.counters := by
  obtain ⟨rest, ht, hq⟩ := h.quiet
  rw [ledger_append ht]
  exact foldl_enter_quiet hq s.ledger

private theorem Continues.processed {s s' : Session} (h : Continues s s') :
    s'.processedEnvelopes = s.processedEnvelopes := by
  obtain ⟨rest, ht, hq⟩ := h.quiet
  have hnone : rest.filterMap Effect.processing = [] := by
    rw [List.filterMap_eq_nil_iff]
    intro x hx
    have hn := hq x hx
    cases x <;> first | rfl | cases hn
  rw [processedEnvelopes_append ht, hnone, List.append_nil]

/-- The counters of the session agree with its envelopes and its handler. -/
structure Tallied (s : Session) : Prop where
  tallies : s.ledger.Tallies s.handler.nextIndex s.processedEnvelopes.length
  progress : s.handler.progress.lastEnqueuedIndex = lastOf s.processedEnvelopes.length ∧
    s.handler.progress.lastProcessedIndex = lastOf s.processedEnvelopes.length
  alive : s.terminal = false → s.handler.nextIndex = s.processedEnvelopes.length
  venues : ∀ envelope ∈ s.processedEnvelopes, envelope.venue = .coinbase

private theorem Tallied.continues {s s' : Session} (h : s.Tallied) (hc : Continues s s') :
    s'.Tallied := by
  refine ⟨?_, ?_, ?_, ?_⟩
  · rw [hc.handler, hc.processed]
    exact h.tallies.of_counters hc.counted.symm
  · rw [hc.handler, hc.processed]
    exact h.progress
  · rw [hc.handler, hc.processed]
    exact h.alive ∘ hc.alive
  · rw [hc.processed]
    exact h.venues

/-- An accepted envelope is pushed, processed and published, in this order. -/
theorem accepted_trace (s : Session) (envelope : RawMessage) (book : OrderBook)
    (sequence : SequenceTracker) (result : ProcessResult) :
    (s.accepted envelope book sequence result).trace = s.trace ++
      [Effect.pushed s.generation envelope (.returned .accepted), Effect.parsed envelope,
        Effect.book book.state, Effect.published envelope result s.current.completed.progress] :=
  rfl

/-- A rejected envelope is pushed and published, and never processed. -/
theorem rejected_trace (s : Session) (envelope : RawMessage) (response : SinkResponse)
    (result : ProcessResult) :
    (s.rejected envelope response result).trace = s.trace ++
      [Effect.pushed s.generation envelope response, Effect.book .invalid,
        Effect.published envelope result s.current.received.progress] := rfl

private theorem processedEnvelopes_accepted (s : Session) (envelope : RawMessage) (book : OrderBook)
    (sequence : SequenceTracker) (result : ProcessResult) :
    (s.accepted envelope book sequence result).processedEnvelopes =
      s.processedEnvelopes ++ [envelope] :=
  processedEnvelopes_append (accepted_trace s envelope book sequence result)

private theorem ledger_accepted (s : Session) (envelope : RawMessage) (book : OrderBook)
    (sequence : SequenceTracker) (result : ProcessResult) :
    (s.accepted envelope book sequence result).ledger =
      Op.enter s.ledger (.published result s.current.completed.progress) :=
  ledger_append (accepted_trace s envelope book sequence result)

private theorem ledger_rejected (s : Session) (envelope : RawMessage) (response : SinkResponse)
    (result : ProcessResult) :
    (s.rejected envelope response result).ledger =
      Op.enter s.ledger (.published result s.current.received.progress) :=
  ledger_append (rejected_trace s envelope response result)

private theorem processedEnvelopes_rejected (s : Session) (envelope : RawMessage)
    (response : SinkResponse) (result : ProcessResult) :
    (s.rejected envelope response result).processedEnvelopes = s.processedEnvelopes := by
  rw [processedEnvelopes_append (rejected_trace s envelope response result)]
  exact List.append_nil _

private theorem Tallied.accepted {s : Session} (h : s.Tallied) {envelope : RawMessage}
    (book : OrderBook) (sequence : SequenceTracker) {result : ProcessResult}
    (ho : result.outcome ≠ .recordingRejected) (ha : s.terminal = false)
    (hv : envelope.venue = .coinbase) :
    (s.accepted envelope book sequence result).Tallied := by
  have hnext := h.alive ha
  have hlength : (s.accepted envelope book sequence result).processedEnvelopes.length =
      s.processedEnvelopes.length + 1 := by
    rw [processedEnvelopes_accepted, List.length_append, List.length_singleton]
  have hindex : (s.accepted envelope book sequence result).handler.nextIndex =
      s.processedEnvelopes.length + 1 := congrArg (· + 1) hnext
  have hlast : some s.handler.nextIndex = lastOf (s.processedEnvelopes.length + 1) := by
    rw [hnext, lastOf_succ]
  refine ⟨?_, ?_, ?_, ?_⟩
  · rw [hlength, hindex, ledger_accepted]
    refine ⟨?_, hlast, ?_, hlast, ?_, hlast⟩
    · exact congrArg (· + 1) (h.tallies.received.trans hnext)
    · simp [Op.enter, ho, h.tallies.enqueued]
    · simp [Op.enter, ho, h.tallies.processed]
  · rw [hlength]
    exact ⟨hlast, hlast⟩
  · rw [hlength, hindex]
    exact fun _ ↦ rfl
  · rw [processedEnvelopes_accepted]
    intro other hother
    rcases List.mem_append.mp hother with hother | hother
    · exact h.venues other hother
    · rw [List.mem_singleton.mp hother, hv]

private theorem Tallied.rejected {s s' : Session} (h : s.Tallied) (envelope : RawMessage)
    (response : SinkResponse) (error : Bytes)
    (hc : Continues (s.rejected envelope response { outcome := .recordingRejected, error }) s')
    (ht : s'.terminal = true) : s'.Tallied := by
  have hsame := hc.processed.trans (processedEnvelopes_rejected s _ _ _)
  refine ⟨?_, ?_, ?_, ?_⟩
  · rw [hsame, hc.handler]
    apply Ledger.Tallies.of_counters _ hc.counted.symm
    rw [ledger_rejected]
    refine ⟨?_, (lastOf_succ _).symm, ?_, h.progress.1, ?_, h.progress.2⟩
    · exact congrArg (· + 1) h.tallies.received
    · simp [Op.enter, h.tallies.enqueued]
    · simp [Op.enter, h.tallies.processed]
  · rw [hsame, hc.handler]
    exact h.progress
  · intro hf
    cases ht.symm.trans hf
  · rw [hsame]
    exact h.venues

/-- One step keeps the counters in agreement. -/
theorem Grows.tallied {s s' : Session} {handed : Option RawMessage} (h : Grows s handed s')
    (hc : s.Coherent) (ht : s.Tallied) : s'.Tallied := by
  cases h with
  | quiet rest => exact ht.continues rest
  | accepted raw wall mono book sequence result running outcome rest =>
    exact (ht.accepted book sequence outcome (hc.not_terminal running) rfl).continues rest
  | rejected raw wall mono response error running refused rest ended =>
    exact ht.rejected _ response error rest ended

/-- The trace only grows. -/
theorem Grows.trace {s s' : Session} {handed : Option RawMessage} (h : Grows s handed s') :
    ∃ suffix, s'.trace = s.trace ++ suffix := by
  cases h with
  | quiet rest =>
    obtain ⟨suffix, ht, -⟩ := rest.quiet
    exact ⟨suffix, ht⟩
  | accepted raw wall mono book sequence result running outcome rest =>
    obtain ⟨suffix, ht, -⟩ := rest.quiet
    rw [accepted_trace, List.append_assoc] at ht
    exact ⟨_, ht⟩
  | rejected raw wall mono response error running refused rest ended =>
    obtain ⟨suffix, ht, -⟩ := rest.quiet
    rw [rejected_trace, List.append_assoc] at ht
    exact ⟨_, ht⟩

/-- An answer right behind the old trace is the one that the step is about. -/
theorem Grows.answered {s s' : Session} {handed : Option RawMessage} (h : Grows s handed s')
    {envelope : RawMessage} (hs : handed = some envelope) {result : PushResult}
    {suffix : List Effect}
    (ht : s'.trace = s.trace ++ .pushed s.generation envelope (.returned result) :: suffix) :
    s'.processedEnvelopes =
      s.processedEnvelopes ++ if result = .accepted then [envelope] else [] := by
  cases h with
  | quiet rest => cases hs
  | accepted raw wall mono book sequence outcome running rejected rest =>
    obtain ⟨after, hafter, -⟩ := rest.quiet
    rw [hafter, accepted_trace, List.append_assoc] at ht
    have hhead := (List.cons.inj (List.append_cancel_left ht)).1
    simp only [Effect.pushed.injEq, SinkResponse.returned.injEq] at hhead
    rw [rest.processed, processedEnvelopes_accepted, if_pos hhead.2.2.symm, hhead.2.1]
  | rejected raw wall mono answer error running refused rest ended =>
    obtain ⟨after, hafter, -⟩ := rest.quiet
    rw [hafter, rejected_trace, List.append_assoc] at ht
    have hhead := (List.cons.inj (List.append_cancel_left ht)).1
    simp only [Effect.pushed.injEq] at hhead
    have hresult : result ≠ .accepted := by
      intro hr
      rw [hhead.2.2, hr] at refused
      exact refused rfl
    rw [rest.processed, processedEnvelopes_rejected, if_neg hresult, List.append_nil]

private theorem lifecycle_foldl (effects : List Effect) (entries : Ledger) :
    ((effects.filterMap effectOp).foldl Op.enter entries).lifecycleEvents.map
        LifecycleEntry.ofEvent =
      entries.lifecycleEvents.map LifecycleEntry.ofEvent ++
        Weave.events (effects.filterMap Effect.recording) := by
  induction effects generalizing entries with
  | nil => exact (List.append_nil _).symm
  | cons effect rest ih =>
    cases effect with
    | lifecycle event =>
      have hnext := ih (Op.enter entries (.lifecycle event))
      simpa [effectOp, Effect.recording, Op.enter] using hnext
    | published envelope result progress => exact ih (Op.enter entries (.published result progress))
    | pushed generation envelope response => exact ih entries
    | book | connect | close | schedule | parsed => exact ih entries

/-- The events of the status are those that the manifest records. -/
theorem ledger_lifecycle (s : Session) :
    s.ledger.lifecycleEvents.map LifecycleEntry.ofEvent = s.recordedLifecycle :=
  lifecycle_foldl s.trace ({} : RuntimeStatus).ledger

end Session

/-! ### The answer of the queue -/

namespace CoinbaseConnectionManager

variable (clock : Nat → ReceiveMonotonicTimestamp)

private theorem recover_trace (m : CoinbaseConnectionManager) (reason : Bytes) {state : BookState}
    (hs : state ≠ .valid) : ∃ suffix, (m.recover clock reason state).trace = m.trace ++ suffix := by
  by_cases hpending : m.stopping = true ∨ m.recoveryPending = true
  · rw [recover_of_pending clock m reason state hpending]
    exact ⟨[], (List.append_nil _).symm⟩
  · simp only [not_or, Bool.not_eq_true] at hpending
    rw [recover_toSession clock m reason state hpending.1 hpending.2 hs]
    obtain ⟨suffix, ht, -⟩ := Session.quiet_recovering m.toSession reason state
      m.backoff.nextDelay.2
    exact ⟨suffix, ht⟩

private theorem finishMessage_trace (m : CoinbaseConnectionManager) (previousState : BookState)
    (result : ProcessResult) :
    ∃ suffix, (m.finishMessage clock previousState result).1.trace = m.trace ++ suffix := by
  by_cases ho : result.outcome = .recordingRejected
  · rw [finishMessage_rejected clock m previousState result ho]
    obtain ⟨suffix, ht, -⟩ := Session.quiet_terminated m.toSession
    exact ⟨suffix, ht⟩
  · by_cases he : result.error = []
    · rw [finishMessage_clean clock m previousState result ho he]
      exact ⟨[], (List.append_nil _).symm⟩
    · have hrecover : ∃ other : CoinbaseConnectionManager, other.trace = m.trace ∧
          (m.finishMessage clock previousState result).1 =
            other.recover clock result.error .invalid := by
        unfold finishMessage
        dsimp only
        rw [if_neg ho, if_pos he]
        refine ⟨_, ?_, rfl⟩
        split <;> split <;> rfl
      obtain ⟨other, htrace, hfinish⟩ := hrecover
      rw [hfinish, ← htrace]
      exact recover_trace clock other result.error (by decide)

private theorem handle_trace (m : CoinbaseConnectionManager) (raw : Bytes)
    (wall : ReceiveWallTimestamp) (mono : ReceiveMonotonicTimestamp) (response : SinkResponse)
    (now : ReceiveMonotonicTimestamp) :
    ∃ suffix, (m.handle raw wall mono response now).1.trace =
      m.trace ++
        Effect.pushed m.generation (m.handler.envelope raw wall mono) response :: suffix := by
  simp only [handle, List.append_assoc]
  exact ⟨_, rfl⟩

/-- A message that is handed to the queue leaves its answer in the trace. -/
theorem step_pushed (m : CoinbaseConnectionManager) {generation : Nat} {raw : Bytes}
    {wall : ReceiveWallTimestamp} {mono now : ReceiveMonotonicTimestamp} {response : SinkResponse}
    {envelope : RawMessage}
    (h : m.handed (.message generation raw wall mono response now) = some envelope) :
    ∃ suffix, (m.step clock (.message generation raw wall mono response now)).trace =
      m.trace ++ Effect.pushed m.generation envelope response :: suffix := by
  have hlive : m.attempted generation = true ∧ m.live generation = true ∧ m.connected = true ∧
      m.toSession.envelope raw wall mono = envelope := by
    simp only [handed] at h
    split at h
    · next ha =>
      split at h
      · next hl =>
        split at h
        · next hc => exact ⟨ha, hl, hc, Option.some_inj.mp h⟩
        · cases h
      · cases h
    · cases h
  obtain ⟨hattempted, hlive, hconnected, henvelope⟩ := hlive
  simp only [step, onMessage, hattempted, hlive, ↓reduceIte]
  rw [handleMessage_eq clock m raw wall mono response now hconnected, ← henvelope]
  obtain ⟨before, hbefore⟩ :=
    handle_trace { m with handler := m.toSession.current } raw wall mono response now
  obtain ⟨after, hafter⟩ := finishMessage_trace clock
    ({ m with handler := m.toSession.current }.handle raw wall mono response now).1 m.book.state
    ({ m with handler := m.toSession.current }.handle raw wall mono response now).2
  rw [hbefore, List.append_assoc] at hafter
  exact ⟨before ++ after, hafter⟩

end CoinbaseConnectionManager

end ArbitrageEngine.Coinbase

/-! ### The accounts -/

namespace ArbitrageEngine.Pipeline

open Base ArbitrageEngine.Core Coinbase Recording Sessions

private theorem sectionsSince_append (before suffix : List Effect) :
    sectionsSince before (before ++ suffix) = suffix.filterMap effectOp := by
  rw [sectionsSince, List.drop_left]

namespace LiveMarket

variable (clock : Nat → ReceiveMonotonicTimestamp)

/-- What holds of every state of the thread. -/
structure Sound (m : LiveMarket) : Prop where
  tokens : m.manager.Tokens
  coherent : m.manager.Coherent
  recorded : m.manager.Recorded
  tallied : m.manager.Tallied

private theorem stopManager_session (m : LiveMarket) (error : Bytes) (hi : m.manager.Coherent) :
    Session.Step (fun _ ↦ True) m.manager.toSession none
      (m.stopManager clock error).toSession := by
  unfold stopManager
  split
  · exact m.manager.step_session_any clock (.terminalRecordingFailure error) hi.connected_idle
  · split
    · exact m.manager.step_session_any clock .stop hi.connected_idle
    · exact .idle _

/-- Every action is a step of the session. -/
theorem step_session (m : LiveMarket) (input : LiveAction) (hi : m.manager.Coherent) :
    Session.Step (fun _ ↦ True) m.manager.toSession (m.handed input)
      (m.step clock input).1.manager.toSession := by
  cases input with
  | manager action => exact m.manager.step_session_any clock action hi.connected_idle
  | stop error => exact m.stopManager_session clock error hi
  | tick fatal requested =>
    simp only [step, tick, handed]
    split
    · exact m.stopManager_session clock (fatal.getD []) hi
    · exact .idle _

private theorem stop_sections (m : LiveMarket) (error : Bytes) :
    ∃ extra, (m.stop clock error).2 =
        sectionsSince m.manager.trace (m.stop clock error).1.manager.trace ++ extra ∧
      ∀ entries, extra.foldl Op.enter entries = entries := by
  refine ⟨_, rfl, fun entries ↦ ?_⟩
  split <;> rfl

private theorem enter_settle (stopping : Bool) (entries : Ledger) :
    (if stopping then [Op.settle] else []).foldl Op.enter entries = entries := by
  cases stopping <;> rfl

/-- The sections of an action are those of its effects and some that count nothing. -/
theorem step_sections (m : LiveMarket) (input : LiveAction) :
    ∃ extra, (m.step clock input).2 =
        sectionsSince m.manager.trace (m.step clock input).1.manager.trace ++ extra ∧
      ∀ entries, extra.foldl Op.enter entries = entries := by
  cases input with
  | manager action => exact ⟨[], (List.append_nil _).symm, fun _ ↦ rfl⟩
  | stop error => exact m.stop_sections clock error
  | tick fatal requested =>
    simp only [step, tick]
    split
    · obtain ⟨extra, hops, hextra⟩ := m.stop_sections clock (fatal.getD [])
      refine ⟨extra ++ if (m.stop clock (fatal.getD [])).1.stopping then [Op.settle] else [],
        ?_, fun entries ↦ ?_⟩
      · rw [hops, List.append_assoc]
      · rw [List.foldl_append, hextra]
        exact enter_settle _ entries
    · refine ⟨if m.stopping then [.settle] else [], ?_, enter_settle m.stopping⟩
      rw [sectionsSince, List.drop_length]
      rfl

variable {clock}

private theorem Sound.step {m : LiveMarket} (h : m.Sound) (input : LiveAction) :
    (m.step clock input).1.Sound := by
  have hs := m.step_session clock input h.coherent
  exact ⟨hs.tokens h.tokens, hs.coherent h.tokens h.coherent, hs.recorded h.recorded,
    hs.grows.tallied h.coherent h.tallied⟩

private theorem Sound.entered {m : LiveMarket} (h : m.Sound) (input : LiveAction) :
    (m.step clock input).1.manager.ledger =
      (m.step clock input).2.foldl Op.enter m.manager.ledger := by
  obtain ⟨suffix, hsuffix⟩ := (m.step_session clock input h.coherent).grows.trace
  obtain ⟨extra, hops, hextra⟩ := m.step_sections clock input
  rw [hops, List.foldl_append, hextra, Session.ledger_append hsuffix, hsuffix,
    sectionsSince_append]

private theorem Sound.silent {m : LiveMarket} (h : m.Sound) {input : LiveAction}
    (hn : m.handed input = none) :
    (m.step clock input).1.manager.processedEnvelopes = m.manager.processedEnvelopes := by
  have hgrows := (m.step_session clock input h.coherent).grows
  rw [hn] at hgrows
  cases hgrows with
  | quiet rest => exact rest.processed

private theorem Sound.indexed {m : LiveMarket} (h : m.Sound) {input : LiveAction}
    {envelope : RawMessage} (hs : m.handed input = some envelope) :
    envelope.recordIndex = m.manager.processedEnvelopes.length := by
  have hgrows := (m.step_session (fun _ ↦ ⟨0⟩) input h.coherent).grows
  rw [hs] at hgrows
  cases hgrows with
  | accepted raw wall mono book sequence result running outcome rest =>
    exact h.tallied.alive (h.coherent.not_terminal running)
  | rejected raw wall mono response error running refused rest ended =>
    exact h.tallied.alive (h.coherent.not_terminal running)

private theorem handed_message {m : LiveMarket} {input : LiveAction} {envelope : RawMessage}
    (hs : m.handed input = some envelope) :
    ∃ generation raw wall mono response now,
      input = .manager (.message generation raw wall mono response now) := by
  cases input with
  | manager action =>
    cases action with
    | message generation raw wall mono response now =>
      exact ⟨generation, raw, wall, mono, response, now, rfl⟩
    | start | stop | checkHealth | forceDisconnect | terminalRecordingFailure | error | connected
    | resume => cases hs
  | stop | tick => cases hs

/-- The queue's answer decides whether an envelope is processed. -/
theorem Sound.pushed {m : LiveMarket} (h : m.Sound) {input : LiveAction} {envelope : RawMessage}
    (hs : m.handed input = some envelope) (result : PushResult) :
    (m.step clock (input.answered result)).1.manager.processedEnvelopes =
      m.manager.processedEnvelopes ++ if result = .accepted then [envelope] else [] := by
  obtain ⟨generation, raw, wall, mono, response, now, rfl⟩ := handed_message hs
  have hgrows := (m.step_session clock
    (.manager (.message generation raw wall mono (.returned result) now)) h.coherent).grows
  obtain ⟨suffix, hpushed⟩ := m.manager.step_pushed clock
    (show m.manager.handed (.message generation raw wall mono (.returned result) now) = _ from hs)
  exact hgrows.answered hs hpushed

/-- An envelope that is not accepted is published as rejected. -/
theorem Sound.rejected {m : LiveMarket} (h : m.Sound) (input : LiveAction)
    (hr : (m.step clock input).1.manager.ledger.receivedMessages ≠
      (m.step clock input).1.manager.processedEnvelopes.length) :
    m.manager.ledger.receivedMessages ≠ m.manager.processedEnvelopes.length ∨
      (m.step clock input).2.any Op.isFatal = true := by
  have hgrows := (m.step_session clock input h.coherent).grows
  obtain ⟨extra, hops, -⟩ := m.step_sections clock input
  generalize m.handed input = handed at hgrows
  cases hgrows with
  | quiet rest =>
    apply Or.inl
    have hcounted := congrArg Ledger.receivedMessages rest.counted
    rw [rest.processed] at hr
    exact fun heq ↦ hr (hcounted.trans heq)
  | accepted raw wall mono book sequence result running outcome rest =>
    apply Or.inl
    have hcounted := congrArg Ledger.receivedMessages rest.counted
    rw [Session.ledger_accepted] at hcounted
    rw [rest.processed, Session.processedEnvelopes_accepted, List.length_append] at hr
    intro heq
    exact hr (hcounted.trans (congrArg (· + 1) heq))
  | rejected raw wall mono response error running refused rest ended =>
    apply Or.inr
    obtain ⟨after, hafter, -⟩ := rest.quiet
    rw [Session.rejected_trace, List.append_assoc] at hafter
    rw [hops, hafter, sectionsSince_append, List.any_append, List.filterMap_append,
      List.any_append]
    rfl

end LiveMarket

/-- The books of `run_live`. -/
def liveAccounts (clock : Nat → ReceiveMonotonicTimestamp) : Accounts (liveProgram clock) where
  venue := .coinbase
  Inv := LiveMarket.Sound
  accepted := fun m ↦ m.manager.processedEnvelopes
  ledger := fun m ↦ m.manager.ledger
  kept := fun _ input h ↦ h.step input
  entered := fun _ input h ↦ h.entered input
  silent := fun _ _ h hn ↦ h.silent hn
  pushed := fun _ _ _ result h hs ↦ h.pushed hs result
  indexed := fun _ _ _ h hs ↦ h.indexed hs
  rejected := fun _ input h hr ↦ h.rejected input hr
  farewell := fun _ ↦ rfl
  tallied := fun m h ↦ by
    rw [h.tallied.tallies.received]
    exact h.tallied.tallies
  venues := fun _ h ↦ h.tallied.venues
  lifecycle := fun m h hr ↦ by
    have hvalid := h.recorded.validates
    rw [h.recorded.count, ← h.tallied.tallies.received, hr] at hvalid
    rw [Session.ledger_lifecycle]
    exact hvalid

private theorem sound_initial {clock : Nat → ReceiveMonotonicTimestamp} {config : FeedHealthConfig}
    {manager : CoinbaseConnectionManager}
    (hm : CoinbaseConnectionManager.create clock config = .ok manager) :
    (LiveMarket.initial manager).Sound := by
  refine ⟨CoinbaseConnectionManager.create_tokens hm, CoinbaseConnectionManager.create_coherent hm,
    CoinbaseConnectionManager.run_recorded hm [], ?_⟩
  show Session.Tallied manager.toSession
  rw [CoinbaseConnectionManager.create_toSession hm]
  exact ⟨⟨rfl, rfl, rfl, rfl, rfl, rfl⟩, ⟨rfl, rfl⟩, fun _ ↦ rfl, nofun⟩

/-- The books are kept along every run of `run_live`. -/
theorem live_kept {clock : Nat → ReceiveMonotonicTimestamp} {config : FeedHealthConfig}
    {manager : CoinbaseConnectionManager}
    (hm : CoinbaseConnectionManager.create clock config = .ok manager) (queue : RawQueueConfig)
    (events : List (Event LiveAction)) :
    ((System.create queue (LiveMarket.initial manager)).run (liveProgram clock) events).Kept
      (liveAccounts clock) := by
  apply System.run_kept (liveAccounts clock) queue (sound_initial hm)
  · show Session.processedEnvelopes manager.toSession = []
    rw [CoinbaseConnectionManager.create_toSession hm]
    rfl
  · show Session.ledger manager.toSession = _
    rw [CoinbaseConnectionManager.create_toSession hm]
    rfl

/-! ### No record is lost -/

/-- The index is in the range of the records that were processed but not written. -/
def RuntimeStatus.Names (status : RuntimeStatus) (index : Nat) : Prop :=
  ∃ first last, status.unpersistedProcessed = some (first, last) ∧ first ≤ index ∧ index ≤ last

private theorem RuntimeStatus.names_iff {status : RuntimeStatus} {processed written : Nat}
    (hp : status.progress.lastProcessedIndex = lastOf processed)
    (hw : status.progress.lastWrittenIndex = lastOf written) (index : Nat) :
    status.Names index ↔ index < processed ∧ ¬index < written := by
  unfold Names
  rw [unpersistedProcessed_eq hp hw]
  split
  · simp
    omega
  · simp
    omega

/-- The range of unpersisted indexes is empty if there is none. -/
theorem RuntimeStatus.range_eq_nil_iff (status : RuntimeStatus) :
    status.unpersistedProcessedRange = [] ↔ status.unpersistedProcessed = none := by
  unfold unpersistedProcessedRange
  cases status.unpersistedProcessed with
  | none => simp
  | some range =>
    have htext : ascii "unpersisted_processed_range=" ≠ [] := by decide
    simp [htext]

/-- In every interleaving of `run_live`, at every point, the records in the file are the first
ones that the queue accepted, in order and with the indexes from zero on, so the index check of
the writer never fails. Once both threads are done, and unless an exception has ended the market
thread, every accepted envelope was processed, the counters and last indexes agree if there is
no fatal error, and the reported range holds exactly the indexes that were processed but not
written. -/
theorem live_records_none_lost {clock : Nat → ReceiveMonotonicTimestamp}
    {config : FeedHealthConfig} {manager : CoinbaseConnectionManager}
    (hm : CoinbaseConnectionManager.create clock config = .ok manager) (queue : RawQueueConfig)
    (events : List (Event LiveAction)) :
    let s := (System.create queue (LiveMarket.initial manager)).run (liveProgram clock) events
    let written := s.backend.written
    let accepted := s.backend.accepted
    let processed := s.market.manager.processedEnvelopes
    written = accepted.take written.length ∧
      written.map RawMessage.recordIndex = List.range written.length ∧
      (∀ envelope, s.backend.writer = .appending envelope →
        envelope.recordIndex = written.length) ∧
      (s.finished = true → s.thrown = false →
        processed = accepted ∧
        (s.final.fatalError = none →
          s.final.receivedMessages = s.final.enqueuedMessages ∧
          s.final.enqueuedMessages = s.final.writtenMessages ∧
          s.final.writtenMessages = s.final.processedMessages ∧
          s.final.progress.lastReceivedIndex = s.final.progress.lastEnqueuedIndex ∧
          s.final.progress.lastEnqueuedIndex = s.final.progress.lastWrittenIndex ∧
          s.final.progress.lastWrittenIndex = s.final.progress.lastProcessedIndex) ∧
        (∀ index, s.final.Names index ↔
          index ∈ processed.map RawMessage.recordIndex ∧
            index ∉ written.map RawMessage.recordIndex) ∧
        (s.final.unpersistedProcessedRange = [] ↔
          ∀ index ∈ processed.map RawMessage.recordIndex,
            index ∈ written.map RawMessage.recordIndex)) := by
  intro s written accepted processed
  have hkept : s.Kept (liveAccounts clock) := live_kept hm queue events
  have hrecorded := hkept.recorded
  refine ⟨hrecorded.written_eq, hrecorded.written_indexes, fun _ ↦ hrecorded.appending_index, ?_⟩
  intro hfinished hthrown
  have hprocessed : processed = accepted := hkept.accepted.symm
  have htallies := hkept.final_tallies hfinished hthrown
  have hlast : s.final.progress.lastWrittenIndex = lastOf written.length :=
    (hkept.final_written hfinished).2
  have hlastProcessed : s.final.progress.lastProcessedIndex = lastOf processed.length := by
    rw [hprocessed]
    exact htallies.lastProcessed
  have hindexes : processed.map RawMessage.recordIndex = List.range processed.length := by
    rw [hprocessed]
    exact hrecorded.indexed
  have hwritten : written.map RawMessage.recordIndex = List.range written.length :=
    hrecorded.written_indexes
  refine ⟨hprocessed, ?_, ?_, ?_⟩
  · intro hclean
    rw [s.final_fatalError] at hclean
    have htally := hkept.final_clean hfinished hclean
    have hcount := hkept.final_written hfinished
    refine ⟨?_, ?_, ?_, ?_, ?_, ?_⟩
    · exact htally.received.trans htally.enqueued.symm
    · exact htally.enqueued.trans hcount.1.symm
    · exact hcount.1.trans htally.processed.symm
    · exact htally.lastReceived.trans htally.lastEnqueued.symm
    · exact htally.lastEnqueued.trans hcount.2.symm
    · exact hcount.2.trans htally.lastProcessed.symm
  · intro index
    rw [RuntimeStatus.names_iff hlastProcessed hlast, hindexes, hwritten, List.mem_range,
      List.mem_range]
  · rw [RuntimeStatus.range_eq_nil_iff, unpersistedProcessed_eq hlastProcessed hlast, hindexes,
      hwritten]
    simp only [List.mem_range, ite_eq_left_iff, reduceCtorEq, imp_false, not_not]
    constructor
    · intro hle index hindex
      omega
    · intro hle
      -- otherwise the first index that is not written would be a processed one
      by_contra hlt
      have hbad := hle written.length (by omega)
      omega

/-- A message that changes nothing. -/
def acknowledgement : Bytes := ascii "\x7b\"channel\":\"subscriptions\"\x7d"

/-- Two messages, of which the second one cannot be written; the failure is posted to the market
thread while its tick is due. -/
def lostTail : List (Event LiveAction) :=
  [.writer .prepared, .ready, .check false, .start ⟨0⟩, .proceed,
    .callback (.manager (.connected 1)), .proceed,
    .callback (.manager (.message 1 acknowledgement ⟨1⟩ ⟨1⟩ (.returned .accepted) ⟨1⟩)),
    .writer .pop, .proceed,
    .callback (.manager (.message 1 acknowledgement ⟨2⟩ ⟨2⟩ (.returned .accepted) ⟨2⟩)),
    .writer (.append .appended), .writer .note, .proceed, .writer .pop,
    .writer (.append (.refused 0)),
    .writer .fail, .posted, .proceed, .proceed, .proceed, .writer .release, .writer .finish, .look,
    .tick ⟨3⟩ false, .proceed, .proceed, .proceed, .exit, .proceed, .close, .finish]

/-- Both were processed, one was written, and the range names the other one. -/
theorem live_records_none_lost_tail :
    ∃ manager, CoinbaseConnectionManager.create (fun _ ↦ ⟨0⟩) {} = .ok manager ∧
      let s := (System.create {} (LiveMarket.initial manager)).run
        (liveProgram fun _ ↦ ⟨0⟩) lostTail
      s.finished = true ∧ s.thrown = false ∧
      s.backend.written.map RawMessage.recordIndex = [0] ∧
      s.market.manager.processedEnvelopes.map RawMessage.recordIndex = [0, 1] ∧
      s.final.Names 1 ∧
      s.final.unpersistedProcessedRange = ascii "unpersisted_processed_range=1-1" := by
  refine ⟨_, rfl, by decide +kernel, by decide +kernel, by decide +kernel, by decide +kernel, ?_,
    by decide +kernel⟩
  have h := live_records_none_lost
    (by rfl : CoinbaseConnectionManager.create (fun _ ↦ ⟨0⟩) {} = .ok _) {} lostTail
  exact ((h.2.2.2 (by decide +kernel) (by decide +kernel)).2.2.1 1).mpr
    ⟨by decide +kernel, by decide +kernel⟩

end ArbitrageEngine.Pipeline
