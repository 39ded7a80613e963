import ArbitrageEngine.Coinbase.Tokens

/-!
# Flags and book state

The flags of the connection manager and the state of its book fit together in every state
between two entry points, so a failed feed shows no prices and always has a recovery.
-/

namespace ArbitrageEngine.Core.OrderBook

/-- An accepted event leaves a valid book. -/
theorem referenceEvent_state {book after : OrderBook} {event : MarketEvent}
    (h : book.referenceEvent event = some after) : after.state = .valid := by
  cases event with
  | snapshot event =>
    simp only [referenceEvent, referenceSnapshot] at h
    split at h
    · cases h
    · split at h
      · cases h
        rfl
      · cases h
  | update event =>
    simp only [referenceEvent, referenceUpdate] at h
    split at h
    · cases h
    · next hc =>
      simp only [Option.map_eq_some_iff] at h
      obtain ⟨sides, -, rfl⟩ := h
      simp only [not_or, not_not] at hc
      exact hc.1

/-- Events that were accepted leave a valid book. -/
theorem foldlM_referenceEvent_state {events : List MarketEvent} {book after : OrderBook}
    (h : events.foldlM referenceEvent book = some after) (hb : book.state = .valid ∨ events ≠ []) :
    after.state = .valid := by
  induction events generalizing book with
  | nil =>
    cases h
    rcases hb with hb | hb
    · exact hb
    · exact absurd rfl hb
  | cons event rest ih =>
    rw [List.foldlM_cons] at h
    cases he : book.referenceEvent event with
    | none => simp [he] at h
    | some next =>
      rw [he] at h
      exact ih h (Or.inl (referenceEvent_state he))

/-- An accepted, non-empty envelope leaves a valid book. -/
theorem applyEvents_state {book after : OrderBook} {events : List MarketEvent}
    (h : book.applyEvents events = (after, true)) (he : events ≠ []) : after.state = .valid := by
  rw [applyEvents_eq_foldlM] at h
  cases hf : events.foldlM referenceEvent book with
  | none => simp [hf] at h
  | some copy =>
    rw [hf] at h
    cases h
    exact foldlM_referenceEvent_state hf (Or.inr he)

end ArbitrageEngine.Core.OrderBook

namespace ArbitrageEngine.Coinbase

open Base ArbitrageEngine.Core Recording

/-- A processed message without error leaves the book as it was, or valid. -/
theorem Feed.Processed.book_of_clean {symbols : CoinbaseSymbolMapper} {feed after : Feed}
    {envelope : RawMessage} {result : ProcessResult}
    (h : Processed symbols feed envelope after (.ok result)) (he : result.error = []) :
    after.book = feed.book ∨ after.book.state = .valid := by
  cases h with
  | failed _ _ _ _ error => exact absurd he error
  | skipped => exact Or.inl rfl
  | quiet => exact Or.inl rfl
  | updated _ _ _ _ _ _ _ events applied =>
      exact Or.inr (OrderBook.applyEvents_state applied events)

namespace Session

/-- How the flags and the book state fit together between two entry points. -/
structure Coherent (s : Session) : Prop where
  connected_running : s.connected = true → s.stopping = false
  connected_idle : s.connected = true → s.recoveryPending = false
  connected_book : s.connected = true → s.book.state = .initializing ∨ s.book.state = .valid
  valid_connected : s.book.state = .valid → s.connected = true
  recovering_book : s.recoveryPending = true →
    s.book.state = .disconnected ∨ s.book.state = .stale ∨ s.book.state = .invalid
  attempting_book : s.stopping = false → s.connected = false → s.recoveryPending = false →
    s.book.state = .resyncing
  stopping_book : s.stopping = true → s.book.state = .disconnected ∨ s.book.state = .invalid
  stopping_idle : s.stopping = true → s.recoveryPending = false
  terminal_stopping : s.terminal = true → s.stopping = true

private theorem coherent_begun (s : Session) (hr : s.stopping = false) (ht : s.terminal = false) :
    s.begun.Coherent := by
  constructor <;> simp [begun, hr, ht, OrderBook.state_mark]

private theorem coherent_recovering (s : Session) (reason : Bytes) (state : BookState) (delay : Nat)
    (hr : s.stopping = false) (ht : s.terminal = false)
    (hs : state = .disconnected ∨ state = .stale ∨ state = .invalid) :
    (s.recovering reason state delay).Coherent := by
  rcases hs with rfl | rfl | rfl <;> constructor <;> simp [recovering, hr, ht, OrderBook.state_mark]

private theorem coherent_stopped (s : Session) : s.stopped.Coherent := by
  constructor <;> simp [stopped, OrderBook.state_mark]

private theorem coherent_established (s : Session) (hr : s.stopping = false)
    (ht : s.terminal = false) (hp : s.recoveryPending = false) : s.established.Coherent := by
  constructor <;> simp [established, hr, ht, hp, OrderBook.state_mark]

private theorem coherent_terminated (s : Session)
    (hi : s.stopping = true → s.recoveryPending = false)
    (hc : s.stopping = true → s.connected = false) : s.terminated.Coherent := by
  unfold terminated
  split
  · next hs => constructor <;> simp [invalidated, hs, hi hs, hc hs, OrderBook.state_mark]
  · constructor <;> simp [invalidated, stopped, OrderBook.state_mark]

/-- A session that stops is not connected. -/
theorem Coherent.not_connected {s : Session} (h : s.Coherent) (hs : s.stopping = true) :
    s.connected = false := by
  by_contra hc
  have hr := h.connected_running (by simpa using hc)
  simp [hs] at hr

/-- A session that runs has not failed for good. -/
theorem Coherent.not_terminal {s : Session} (h : s.Coherent) (hr : s.stopping = false) :
    s.terminal = false := by
  by_contra ht
  have hs := h.terminal_stopping (by simpa using ht)
  simp [hr] at hs

private theorem Coherent.accepted {s : Session} (h : s.Coherent) (hc : s.connected = true)
    (envelope : RawMessage) (book : OrderBook) (sequence : SequenceTracker) (result : ProcessResult)
    (hb : book = s.book ∨ book.state = .valid) :
    (s.accepted envelope book sequence result).Coherent := by
  have hbook : book.state = .initializing ∨ book.state = .valid := by
    rcases hb with rfl | hv
    · exact h.connected_book hc
    · exact Or.inr hv
  constructor
  · exact h.connected_running
  · exact h.connected_idle
  · exact fun _ ↦ hbook
  · exact fun _ ↦ hc
  · intro hp
    have hn := h.connected_idle hc
    rw [show s.recoveryPending = true from hp] at hn
    cases hn
  · intro _ hn
    rw [show s.connected = false from hn] at hc
    cases hc
  · intro hs
    have hn := h.not_connected hs
    rw [hc] at hn
    cases hn
  · exact h.stopping_idle
  · exact h.terminal_stopping

/-- One step keeps flags and book state coherent. -/
theorem Step.coherent {reasons : Bytes → Prop} {s s' : Session}
    {handed : Option RawMessage} (h : Step reasons s handed s')
    (ht : s.Tokens) (hc : s.Coherent) : s'.Coherent := by
  cases h with
  | idle => exact hc
  | refreshed => exact ⟨hc.1, hc.2, hc.3, hc.4, hc.5, hc.6, hc.7, hc.8, hc.9⟩
  | start stopping alive => exact coherent_begun _ rfl alive
  | resume delay running token => exact coherent_begun _ running (hc.not_terminal running)
  | connected running fresh token =>
    refine coherent_established _ running (hc.not_terminal running) ?_
    -- A pending recovery has replaced the token of every attempt.
    by_contra hp
    exact (ht.pending running (by simpa using hp)).2 (mem_connects.mpr token)
  | recover reason state delay running idle state_eq given =>
    refine coherent_recovering _ _ _ _ running (hc.not_terminal running) ?_
    rcases state_eq with h | h
    · exact Or.inl h
    · exact Or.inr (Or.inl h)
  | stop running => exact coherent_stopped _
  | terminate => exact coherent_terminated _ hc.stopping_idle hc.not_connected
  | delivered raw wall mono health now feed result running connected token processed clean =>
    exact hc.accepted connected _ _ _ _ ((Feed.processed_of_process processed).book_of_clean clean)
  | failed raw wall mono health now feed result delay running connected token
      processed error idle =>
    exact coherent_recovering _ _ _ _ running (hc.not_terminal running) (Or.inr (Or.inr rfl))
  | thrown raw wall mono health now feed failure delay running connected token processed idle =>
    exact coherent_recovering _ _ _ _ running (hc.not_terminal running) (Or.inr (Or.inr rfl))
  | rejected raw wall mono response error running connected token refused =>
    exact coherent_terminated _ hc.stopping_idle hc.not_connected

end Session

/-! ### Runs of the manager -/

namespace CoinbaseConnectionManager

variable {clock : Nat → ReceiveMonotonicTimestamp} {config : FeedHealthConfig}
  {initial : CoinbaseConnectionManager}

/-- The session of a new manager. -/
theorem create_toSession (hm : create clock config = .ok initial) :
    initial.toSession =
      { terminal := false, stopping := true, recoveryPending := false, connected := false
        generation := 0, connectionId := 0
        book := (OrderBook.create .coinbase .btcUsd).mark .disconnected
        sequence := .empty, handler := .initial, trace := [.book .disconnected] } := by
  unfold create at hm
  split at hm
  · cases hm
  · cases hm
    rfl

/-- A new manager has handed out nothing. -/
theorem create_tokens (hm : create clock config = .ok initial) : initial.Tokens := by
  have hc : initial.connects = [] := by
    rw [create_toSession hm]
    rfl
  have hr : initial.resumes = [] := by
    rw [create_toSession hm]
    rfl
  have hs : initial.stopping = true := by
    rw [create_toSession hm]
  exact ⟨⟨by simp [hc], by simp [hc], by simp [hr]⟩, by simp [hs], by simp [hs]⟩

/-- A new manager is coherent: it is stopped and its book is disconnected. -/
theorem create_coherent (hm : create clock config = .ok initial) : initial.Coherent := by
  rw [create_toSession hm]
  constructor <;> simp [OrderBook.state_mark]

/-- A run in two parts. -/
theorem run_append (m : CoinbaseConnectionManager) (pre post : List Action) :
    m.run clock (pre ++ post) = (m.run clock pre).run clock post :=
  List.foldl_append

/-- After any run the tokens are in order and the session is coherent. -/
theorem run_tokens_coherent (hm : create clock config = .ok initial) (actions : List Action) :
    (initial.run clock actions).Tokens ∧ (initial.run clock actions).Coherent := by
  induction actions using List.reverseRecOn with
  | nil => exact ⟨create_tokens hm, create_coherent hm⟩
  | append_singleton actions action ih =>
    obtain ⟨ht, hc⟩ := ih
    rw [run_append]
    have hs := step_session_any clock (initial.run clock actions) action hc.connected_idle
    exact ⟨hs.tokens ht, hs.coherent ht hc⟩

/-- What holds in one state of a run and is kept by the steps of a coherent session holds in
every later state. -/
theorem run_invariant_from {I : Session → Prop} (hm : create clock config = .ok initial)
    (hstep : ∀ s handed s', s.Tokens → s.Coherent → Session.Step (fun _ ↦ True) s handed s' →
      I s → I s') (pre : List Action)
    (h0 : I (initial.run clock pre).toSession) (post : List Action) :
    I (initial.run clock (pre ++ post)).toSession := by
  induction post using List.reverseRecOn with
  | nil =>
    rw [List.append_nil]
    exact h0
  | append_singleton post action ih =>
    obtain ⟨ht, hc⟩ := run_tokens_coherent hm (pre ++ post)
    rw [← List.append_assoc, run_append]
    exact hstep _ _ _ ht hc (step_session_any clock _ action hc.connected_idle) ih

/-- What holds of a new manager and is kept by the steps of a coherent session holds in every
state of a run. -/
theorem run_invariant {I : Session → Prop} (hm : create clock config = .ok initial)
    (h0 : I initial.toSession)
    (hstep : ∀ s handed s', s.Tokens → s.Coherent → Session.Step (fun _ ↦ True) s handed s' →
      I s → I s')
    (actions : List Action) : I (initial.run clock actions).toSession :=
  run_invariant_from hm hstep [] h0 actions

/-- The flags and the book state of every reachable manager fit together: prices are visible only
on a connected session, and an unusable book has its recovery scheduled. -/
theorem run_flags_fit_book (clock : Nat → ReceiveMonotonicTimestamp) (config : FeedHealthConfig)
    (initial : CoinbaseConnectionManager) (hm : create clock config = .ok initial)
    (actions : List Action) :
    let m := initial.run clock actions
    (m.connected = true → m.stopping = false ∧ m.recoveryPending = false ∧
        (m.book.state = .initializing ∨ m.book.state = .valid)) ∧
      (m.book.state = .valid → m.connected = true) ∧
      (m.book.bestBid.isSome = true ∨ m.book.bestAsk.isSome = true → m.connected = true) ∧
      (m.recoveryPending = true →
        m.book.state = .disconnected ∨ m.book.state = .stale ∨ m.book.state = .invalid) ∧
      (m.stopping = false → m.connected = false → m.recoveryPending = false →
        m.book.state = .resyncing) ∧
      (m.stopping = true → m.book.state = .disconnected ∨ m.book.state = .invalid) ∧
      (m.stopping = false →
        m.book.state = .disconnected ∨ m.book.state = .stale ∨ m.book.state = .invalid →
        m.recoveryPending = true ∧ m.resumes.count m.generation = 1) := by
  intro m
  obtain ⟨ht, hc⟩ : m.Tokens ∧ m.Coherent := run_tokens_coherent hm actions
  refine ⟨?_, hc.valid_connected, ?_, hc.recovering_book, hc.attempting_book, hc.stopping_book, ?_⟩
  · intro h
    exact ⟨hc.connected_running h, hc.connected_idle h, hc.connected_book h⟩
  · intro h
    apply hc.valid_connected
    by_contra hv
    rcases h with h | h
    · simp [OrderBook.bestBid, hv] at h
    · simp [OrderBook.bestAsk, hv] at h
  · intro hr hb
    have hp : m.recoveryPending = true := by
      by_contra hp
      by_cases hcon : m.connected = true
      · rcases hc.connected_book hcon with h | h <;> simp [h] at hb
      · have h := hc.attempting_book hr (by simpa using hcon) (by simpa using hp)
        simp [h] at hb
    exact ⟨hp, (ht.pending hr hp).1⟩

/-- A session that lost its socket is not connected and has a resume scheduled. -/
theorem run_flags_fit_book_recovering :
    ∃ initial, create (fun _ ↦ ⟨0⟩) {} = .ok initial ∧
      (initial.run (fun _ ↦ ⟨0⟩) [.start, .connected 1, .error 1 (ascii "read")]).stopping = false ∧
      (initial.run (fun _ ↦ ⟨0⟩) [.start, .connected 1, .error 1 (ascii "read")]).resumes.count 2 =
        1 := by
  refine ⟨_, rfl, rfl, ?_⟩
  have h := run_flags_fit_book (fun _ ↦ ⟨0⟩) {} _ rfl
    [.start, .connected 1, .error 1 (ascii "read")]
  exact (h.2.2.2.2.2.2 rfl (Or.inl rfl)).2

end CoinbaseConnectionManager

end ArbitrageEngine.Coinbase
