import ArbitrageEngine.Coinbase.Continuity
import ArbitrageEngine.Session.CoinbaseReplay

/-!
# What a Coinbase session records

The envelopes given to the sink and the lifecycle events, in the order in which the manager
produced them. Every lifecycle event carries the number of envelopes before it, so the
recorded session passes the validation of its manifest and can be woven back together.
-/

namespace ArbitrageEngine.Coinbase

open Base ArbitrageEngine.Core Recording Sessions

namespace Effect

/-- The part of an effect that a session records. -/
def recording : Effect → Option (LifecycleEntry ⊕ RawMessage)
  | lifecycle event => some (.inl (.ofEvent event))
  | pushed _ envelope _ => some (.inr envelope)
  | _ => none

/-- The state given to the book. -/
def assigned : Effect → Option BookState
  | book state => some state
  | _ => none

end Effect

namespace Session

/-- The recorded history of the session. -/
def history (s : Session) : List (LifecycleEntry ⊕ RawMessage) := s.trace.filterMap Effect.recording

/-- The envelopes given to the sink. -/
def recordedEnvelopes (s : Session) : List RawMessage := Weave.records s.history

/-- The lifecycle events given to `observe_lifecycle`, as the manifest has them. -/
def recordedLifecycle (s : Session) : List LifecycleEntry := Weave.events s.history

/-- The states of the book, from its construction on. -/
def bookStates (s : Session) : List BookState :=
  .initializing :: s.trace.filterMap Effect.assigned

/-- What a transition records. -/
def announcement (s : Session) (state : BookState) (reason : Bytes) :
    List (LifecycleEntry ⊕ RawMessage) :=
  if reason = [] then []
  else [.inl ⟨CoinbaseConnectionManager.nextRecordIndex s.handler.progress, bookName state, reason⟩]

/-! ### What each step adds -/

/-- What a step adds to the recorded history, the states of the book and the results. -/
structure Adds (s s' : Session) (items : List (LifecycleEntry ⊕ RawMessage))
    (states : List BookState) (results : List (RawMessage × ProcessResult)) : Prop where
  history_eq : s'.history = s.history ++ items
  states_eq : s'.bookStates = s.bookStates ++ states
  publications_eq : s'.publications = s.publications ++ results

private theorem adds_of_append {s s' : Session} (suffix : List Effect)
    (h : s'.trace = s.trace ++ suffix) :
    Adds s s' (suffix.filterMap Effect.recording) (suffix.filterMap Effect.assigned)
      (suffix.filterMap Effect.publication) := by
  constructor
  · rw [history, h, List.filterMap_append, history]
  · rw [bookStates, h, List.filterMap_append, bookStates, List.cons_append]
  · rw [publications, h, List.filterMap_append, publications]

private theorem filterMap_recording_observed (s : Session) (state : BookState) (reason : Bytes) :
    (s.observed state reason).filterMap Effect.recording = s.announcement state reason := by
  unfold observed announcement
  split <;> rfl

private theorem adds_of_trace {s s' : Session} (front back : List Effect) (state : BookState)
    (reason : Bytes) (h : s'.trace = s.trace ++ front ++ s.observed state reason ++ back)
    (hf : front.filterMap Effect.recording = []) (hb : back.filterMap Effect.recording = []) :
    Adds s s' (s.announcement state reason) ((front ++ back).filterMap Effect.assigned)
      ((front ++ back).filterMap Effect.publication) := by
  have hsplit : s'.trace = s.trace ++ (front ++ (s.observed state reason ++ back)) := by
    rw [h, List.append_assoc, List.append_assoc]
  have hadds := adds_of_append _ hsplit
  simpa only [List.filterMap_append, hf, hb, filterMap_recording_observed, List.nil_append,
    List.append_nil, filterMap_observed Effect.assigned (fun _ ↦ rfl),
    filterMap_observed Effect.publication (fun _ ↦ rfl)] using hadds

/-- A refreshed session adds the state of its book only. -/
theorem adds_refreshed (s : Session) : Adds s s.refreshed [] [s.book.state] [] :=
  adds_of_append [.book s.book.state] rfl

/-- A new attempt announces that it resynchronizes. -/
theorem adds_begun (s : Session) :
    Adds s s.begun (s.announcement .resyncing (ascii "resynchronization")) [.resyncing] [] :=
  adds_of_trace [] [.book .resyncing, .connect (s.generation + 1)] .resyncing
    (ascii "resynchronization") (by simp [begun]) rfl rfl

/-- A connection announces that it is new. -/
theorem adds_established (s : Session) :
    Adds s s.established (s.announcement .initializing (ascii "new_connection")) [.initializing]
      [] :=
  adds_of_trace [] [.book .initializing] .initializing (ascii "new_connection")
    (by simp [established]) rfl rfl

/-- A recovery announces its reason. -/
theorem adds_recovering (s : Session) (reason : Bytes) (state : BookState) (delay : Nat) :
    Adds s (s.recovering reason state delay) (s.announcement state reason) [state] [] :=
  adds_of_trace [] [.book state, .close, .schedule delay (s.generation + 1)] state reason
    (by simp [recovering]) rfl rfl

/-- A stop announces that it was requested. -/
theorem adds_stopped (s : Session) :
    Adds s s.stopped (s.announcement .disconnected (ascii "requested_shutdown")) [.disconnected]
      [] :=
  adds_of_trace [.close] [.book .disconnected] .disconnected (ascii "requested_shutdown") rfl rfl
    rfl

/-- A terminal failure announces itself. -/
theorem adds_invalidated (s : Session) :
    Adds s s.invalidated (s.announcement .invalid (ascii "terminal_failure")) [.invalid] [] :=
  adds_of_trace [] [.book .invalid] .invalid (ascii "terminal_failure") (by simp [invalidated]) rfl
    rfl

/-- An accepted envelope adds its record, the state of the book and its result. -/
theorem adds_accepted (s : Session) (envelope : RawMessage) (book : OrderBook)
    (sequence : SequenceTracker) (result : ProcessResult) :
    Adds s (s.accepted envelope book sequence result) [.inr envelope] [book.state]
      [(envelope, result)] :=
  adds_of_append [.pushed s.generation envelope (.returned .accepted), .parsed envelope,
    .book book.state, .published envelope result s.current.completed.progress] rfl

private theorem adds_rejected (s : Session) (envelope : RawMessage) (response : SinkResponse)
    (result : ProcessResult) :
    Adds s (s.rejected envelope response result) [.inr envelope] [.invalid]
      [(envelope, result)] :=
  adds_of_append [.pushed s.generation envelope response, .book .invalid,
    .published envelope result s.current.received.progress] rfl

/-! ### The recorded history is in order -/

/-- The recorded history can be woven back together and passes the validation. -/
structure Recorded (s : Session) : Prop where
  index : CoinbaseConnectionManager.nextRecordIndex s.handler.progress = s.handler.nextIndex
  count : s.recordedEnvelopes.length = s.handler.nextIndex
  filed : (CoinbaseReplay.loop .default).Filed 0 s.history
  named : ∀ event ∈ s.recordedLifecycle, event.state ∈ lifecycleStates
  state : s.bookStates.getLast? = some s.book.state
  published : s.publications.map Prod.fst = s.recordedEnvelopes

/-- A step that announces a state and gives it to the book. -/
theorem Recorded.announce {s s' : Session} {state : BookState} {reason : Bytes} (h : s.Recorded)
    (ha : Adds s s' (s.announcement state reason) [state] []) (hs : state ≠ .valid)
    (hh : s'.handler = s.handler) (hb : s'.book.state = state) : s'.Recorded := by
  have hrec : Weave.records (s.announcement state reason) = [] := by
    unfold announcement
    split <;> rfl
  have henv : s'.recordedEnvelopes = s.recordedEnvelopes := by
    rw [recordedEnvelopes, ha.history_eq, Weave.records_append, hrec, List.append_nil]
    rfl
  refine ⟨?_, ?_, ?_, ?_, ?_, ?_⟩
  · rw [hh]
    exact h.index
  · rw [henv, hh]
    exact h.count
  · rw [ha.history_eq, Weave.filed_append, Nat.zero_add]
    refine ⟨h.filed, ?_⟩
    change Weave.Loop.Filed _ s.recordedEnvelopes.length _
    rw [h.count, ← h.index]
    unfold announcement
    split
    · trivial
    · exact ⟨rfl, trivial⟩
  · intro event he
    rw [recordedLifecycle, ha.history_eq, Weave.events_append, List.mem_append] at he
    rcases he with he | he
    · exact h.named event he
    · unfold announcement at he
      split at he
      · cases he
      · rw [show event = _ from List.mem_singleton.mp he]
        exact bookName_mem hs
  · rw [ha.states_eq, List.getLast?_concat, hb]
  · rw [ha.publications_eq, List.append_nil, henv]
    exact h.published

/-- A step that gives an envelope to the sink. -/
theorem Recorded.push {s s' : Session} {envelope : RawMessage} {result : ProcessResult}
    (h : s.Recorded) (ha : Adds s s' [.inr envelope] [s'.book.state] [(envelope, result)])
    (hx : envelope.recordIndex = s.handler.nextIndex)
    (hn : s'.handler.nextIndex = s.handler.nextIndex + 1)
    (hi : CoinbaseConnectionManager.nextRecordIndex s'.handler.progress = s.handler.nextIndex + 1) :
    s'.Recorded := by
  have henv : s'.recordedEnvelopes = s.recordedEnvelopes ++ [envelope] := by
    rw [recordedEnvelopes, ha.history_eq, Weave.records_append]
    rfl
  refine ⟨?_, ?_, ?_, ?_, ?_, ?_⟩
  · rw [hi, hn]
  · rw [henv, List.length_append, hn, h.count]
    rfl
  · rw [ha.history_eq, Weave.filed_append, Nat.zero_add]
    refine ⟨h.filed, ?_, trivial⟩
    change envelope.recordIndex = s.recordedEnvelopes.length
    rw [hx, h.count]
  · intro event he
    rw [recordedLifecycle, ha.history_eq, Weave.events_append, List.mem_append] at he
    rcases he with he | he
    · exact h.named event he
    · cases he
  · rw [ha.states_eq, List.getLast?_concat]
  · rw [ha.publications_eq, List.map_append, h.published, henv]
    rfl

private theorem Recorded.begun {s : Session} (h : s.Recorded) : s.begun.Recorded :=
  h.announce (adds_begun s) (by decide) rfl rfl

private theorem Recorded.recovering {s : Session} (h : s.Recorded) (reason : Bytes)
    {state : BookState} (delay : Nat) (hs : state ≠ .valid) :
    (s.recovering reason state delay).Recorded :=
  h.announce (adds_recovering s reason state delay) hs rfl rfl

private theorem Recorded.terminated {s : Session} (h : s.Recorded) : s.terminated.Recorded := by
  unfold Session.terminated
  split
  · exact h.announce (adds_invalidated s) (by decide) rfl rfl
  · have hs : s.stopped.Recorded := h.announce (adds_stopped s) (by decide) rfl rfl
    exact hs.announce (adds_invalidated s.stopped) (by decide) rfl rfl

private theorem Recorded.accepted {s : Session} (h : s.Recorded) {envelope : RawMessage}
    (hx : envelope.recordIndex = s.handler.nextIndex) (book : OrderBook)
    (sequence : SequenceTracker) (result : ProcessResult) :
    (s.accepted envelope book sequence result).Recorded :=
  h.push (adds_accepted s envelope book sequence result) hx rfl rfl

/-- One step keeps the recorded history in order. -/
theorem Step.recorded {reasons : Bytes → Prop} {s s' : Session}
    {handed : Option RawMessage} (h : Step reasons s handed s')
    (hr : s.Recorded) : s'.Recorded := by
  cases h with
  | idle => exact hr
  | refreshed =>
    have ha := adds_refreshed s
    have hh : s.refreshed.history = s.history := by simpa using ha.history_eq
    refine ⟨hr.index, ?_, ?_, ?_, ?_, ?_⟩
    · rw [recordedEnvelopes, hh]
      exact hr.count
    · rw [hh]
      exact hr.filed
    · rw [recordedLifecycle, hh]
      exact hr.named
    · rw [ha.states_eq, List.getLast?_concat]
      rfl
    · rw [ha.publications_eq, List.append_nil, recordedEnvelopes, hh]
      exact hr.published
  | start stopping alive =>
    have hs : Recorded { s with stopping := false } := ⟨hr.1, hr.2, hr.3, hr.4, hr.5, hr.6⟩
    exact hs.begun
  | resume delay running token => exact hr.begun
  | connected running fresh token => exact hr.announce (adds_established s) (by decide) rfl rfl
  | recover reason state delay running idle state_eq given =>
    refine hr.recovering reason delay ?_
    rcases state_eq with rfl | rfl <;> decide
  | stop running => exact hr.announce (adds_stopped s) (by decide) rfl rfl
  | terminate => exact hr.terminated
  | delivered raw wall mono health now feed result running connected token processed clean =>
    exact hr.accepted rfl _ _ _
  | failed raw wall mono health now feed result delay running connected token
      processed error idle =>
    exact (hr.accepted rfl _ _ _).recovering _ _ (by decide)
  | thrown raw wall mono health now feed failure delay running connected token processed idle =>
    exact (hr.accepted rfl _ _ _).recovering _ _ (by decide)
  | rejected raw wall mono response error running connected token refused =>
    exact (hr.push (adds_rejected s _ _ _) rfl rfl rfl).terminated

end Session

/-! ### The validation of the manifest -/

/-- The lifecycle events of a recorded session are valid. -/
theorem Session.Recorded.validates {s : Session} (h : s.Recorded) :
    validateLifecycle true s.recordedEnvelopes.length 0 s.recordedLifecycle = .ok () := by
  exact validateLifecycle_of_filed rfl h.filed h.named

namespace CoinbaseConnectionManager

/-- The histories of every run are recorded. -/
theorem run_recorded {clock : Nat → ReceiveMonotonicTimestamp} {config : FeedHealthConfig}
    {initial : CoinbaseConnectionManager} (hm : create clock config = .ok initial)
    (actions : List Action) : (initial.run clock actions).Recorded := by
  refine run_invariant hm ?_ (fun _ _ _ _ _ hs hi ↦ hs.recorded hi) actions
  rw [create_toSession hm]
  refine ⟨rfl, rfl, trivial, ?_, rfl, rfl⟩
  intro event he
  cases he

end CoinbaseConnectionManager

end ArbitrageEngine.Coinbase
