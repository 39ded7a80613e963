import ArbitrageEngine.Session.CoinbaseHistory

/-!
# Coinbase replay follows the live manager

The replay of a recorded session simulates the manager that recorded it: after every action the
replay of what was recorded so far has the manager's book and tracker. Two things differ. A
recovery whose reason is empty is not announced, so replay learns of it only at the next
transition. An exception of `parse_heartbeat` is absorbed by the live handler and leaves the
replay.
-/

namespace ArbitrageEngine.Sessions.CoinbaseReplay

open Base ArbitrageEngine.Core Coinbase Recording

/-! ### Single steps of the replay -/

/-- The replay after a lifecycle event. -/
def announced (replay : CoinbaseReplay) (index : Nat) (state : BookState) (reason : Bytes) :
    CoinbaseReplay :=
  { (replay.assign index state reason).resetSequence with
    lifecycleConnected := replay.lifecycleConnected || state = .initializing }

/-- The replay knows the name of every state but valid. -/
theorem stateNamed_bookName {state : BookState} (h : state ≠ .valid) :
    stateNamed (bookName state) = some state := by
  cases state with
  | valid => exact absurd rfl h
  | initializing | stale | resyncing | disconnected | invalid => decide

private theorem applyLifecycle_bookName (replay : CoinbaseReplay) (index : Nat) {state : BookState}
    (reason : Bytes) (h : state ≠ .valid) :
    replay.applyLifecycle ⟨index, bookName state, reason⟩ =
      .ok (replay.announced index state reason) := by
  simp [applyLifecycle, stateNamed_bookName h, announced, assign, mark]

/-- A record of the connection that replay is on, or that a lifecycle event announced, leaves
book and tracker alone. -/
theorem reconnect_attached (replay : CoinbaseReplay) (e : RawMessage)
    (h : replay.connection = some e.connectionId ∨
      (replay.lifecycleConnected = true ∧ replay.feed.sequence = .empty)) :
    (replay.reconnect e).feed.book = replay.feed.book ∧
      (replay.reconnect e).feed.sequence = replay.feed.sequence ∧
      (replay.reconnect e).connection = some e.connectionId ∧
      (replay.reconnect e).results = replay.results ∧
      (replay.reconnect e).states = replay.states := by
  unfold reconnect
  by_cases hc : replay.connection = some e.connectionId
  · rw [if_pos hc]
    exact ⟨rfl, rfl, hc, rfl, rfl⟩
  · obtain ⟨hl, hs⟩ := h.resolve_left hc
    rw [if_neg hc]
    by_cases hsome : replay.connection.isSome = true
    · simp [hsome, hl, hs, resetSequence]
    · simp [hsome, hl, hs, resetSequence]

section Record

variable {symbols : CoinbaseSymbolMapper} {replay : CoinbaseReplay} {e : RawMessage}
  {health : FeedHealth} {now : ReceiveMonotonicTimestamp} {feed : Feed}

/-- Processing a record is what it is elsewhere on the same book and tracker. -/
theorem process_reconnect
    (h : replay.connection = some e.connectionId ∨
      (replay.lifecycleConnected = true ∧ replay.feed.sequence = .empty)) :
    Feed.SameStep
      (Feed.process symbols ⟨replay.feed.book, replay.feed.sequence, health⟩ e now)
      (Feed.process symbols (replay.reconnect e).feed e e.receiveMonotonicTime) := by
  obtain ⟨hbook, hseq, -⟩ := reconnect_attached replay e h
  rw [← hbook, ← hseq]
  exact Feed.process_congr _ _ _ _ e now e.receiveMonotonicTime symbols

private theorem replayRecord_ok {result : ProcessResult}
    (h : replay.connection = some e.connectionId ∨
      (replay.lifecycleConnected = true ∧ replay.feed.sequence = .empty))
    (hp : Feed.process symbols ⟨replay.feed.book, replay.feed.sequence, health⟩ e now =
      (feed, .ok result)) :
    ∃ after, replay.replayRecord symbols e = .ok after ∧ after.feed.book = feed.book ∧
      after.feed.sequence = feed.sequence ∧ after.connection = some e.connectionId ∧
      after.results.map Feed.untimed = replay.results.map Feed.untimed ++ [Feed.untimed result] ∧
      after.states = replay.states ++ [feed.book.state] := by
  obtain ⟨-, -, hcon, hres, hst⟩ := reconnect_attached replay e h
  obtain ⟨hb, hq, hr⟩ := hp ▸ process_reconnect h
  cases hproc : Feed.process symbols (replay.reconnect e).feed e e.receiveMonotonicTime with
  | mk feed' outcome =>
    rw [hproc] at hb hq hr
    cases outcome with
    | error failure => cases hr
    | ok result' =>
      have hu : Feed.untimed result = Feed.untimed result' := by simpa [Except.map] using hr
      refine ⟨_, by rw [replayRecord, hproc], ?_, ?_, ?_, ?_, ?_⟩
      · simpa [recorded] using hb.symm
      · simpa [recorded] using hq.symm
      · simpa [recorded] using hcon
      · simp [recorded, hres, hu]
      · simp only [recorded, transition_states, hst]
        rw [show feed.book = feed'.book from hb]

/-- An exception leaves the replay. -/
theorem replayRecord_error {failure : Failure}
    (h : replay.connection = some e.connectionId ∨
      (replay.lifecycleConnected = true ∧ replay.feed.sequence = .empty))
    (hp : Feed.process symbols ⟨replay.feed.book, replay.feed.sequence, health⟩ e now =
      (feed, .error failure)) : replay.replayRecord symbols e = .error failure := by
  obtain ⟨-, -, hr⟩ := hp ▸ process_reconnect h
  cases hproc : Feed.process symbols (replay.reconnect e).feed e e.receiveMonotonicTime with
  | mk feed' outcome =>
    rw [hproc] at hr
    cases outcome with
    | error other =>
      have hf : failure = other := by simpa [Except.map] using hr
      rw [replayRecord, hproc, hf]
    | ok result' => cases hr

end Record

end ArbitrageEngine.Sessions.CoinbaseReplay

namespace ArbitrageEngine.Coinbase

open Base ArbitrageEngine.Core Recording Sessions

/-- The sink refused an envelope. -/
def Effect.isRefused : Effect → Bool
  | pushed _ _ response => response ≠ .returned .accepted
  | _ => false

namespace Session

/-! ### The simulation -/

/-- The replay of what the session recorded so far. Without empty reasons (`loud`) book and
tracker always agree; with them, a pending recovery may be unknown to the replay. -/
structure Sim (loud : Prop) (s : Session) (replay : CoinbaseReplay) : Prop where
  levels : replay.feed.book.mark s.book.state = s.book
  synced : loud ∨ s.recoveryPending = false →
    replay.feed.book = s.book ∧ replay.feed.sequence = s.sequence
  attached : s.connected = true → replay.connection = some s.connectionId ∨
    (replay.lifecycleConnected = true ∧ s.sequence = .empty)
  tracker : s.connected = false → s.sequence = .empty
  results : replay.results.map Feed.untimed = s.publications.map (Feed.untimed ·.2)
  states : loud → replay.states.destutter (· ≠ ·) = s.bookStates.destutter (· ≠ ·)

/-- The replay of what a step records arrives where the session arrives. -/
def Follows (loud : Prop) (s s' : Session) (replay : CoinbaseReplay) : Prop :=
  ∃ items after, s'.history = s.history ++ items ∧
    items.foldlM (CoinbaseReplay.loop .default).item replay = .ok after ∧ Sim loud s' after

variable {loud : Prop} {s s' : Session} {replay : CoinbaseReplay}

private theorem Follows.trans {s'' : Session} (h : Follows loud s s' replay)
    (hn : ∀ after, Sim loud s' after → Follows loud s' s'' after) : Follows loud s s'' replay := by
  obtain ⟨items, after, hh, hf, hs⟩ := h
  obtain ⟨items', after', hh', hf', hs'⟩ := hn after hs
  refine ⟨items ++ items', after', ?_, ?_, hs'⟩
  · rw [hh', hh, List.append_assoc]
  · rw [List.foldlM_append, hf]
    exact hf'

/-- A transition that is announced. -/
theorem Sim.announce {state : BookState} {reason : Bytes} (h : Sim loud s replay)
    (ha : Adds s s' (s.announcement state reason) [state] []) (hr : reason ≠ [])
    (hs : state ≠ .valid) (hbook : s'.book = s.book.mark state) (hseq : s'.sequence = .empty)
    (hcon : s'.connected = true → state = .initializing) :
    Follows loud s s' replay := by
  refine ⟨_, replay.announced (CoinbaseConnectionManager.nextRecordIndex s.handler.progress) state
    reason, ha.history_eq, ?_, ?_⟩
  · rw [announcement, if_neg hr]
    simp only [List.foldlM_cons, List.foldlM_nil, Weave.Loop.item, CoinbaseReplay.loop,
      CoinbaseReplay.applyLifecycle_bookName replay _ reason hs]
    rfl
  · have hb : (replay.announced (CoinbaseConnectionManager.nextRecordIndex s.handler.progress)
        state reason).feed.book = s'.book := by
      rw [hbook, ← h.levels]
      simp [CoinbaseReplay.announced, CoinbaseReplay.assign, CoinbaseReplay.mark,
        CoinbaseReplay.resetSequence, OrderBook.mark]
    constructor
    · rw [hb]
      rfl
    · intro _
      exact ⟨hb, hseq.symm ▸ rfl⟩
    · intro hc
      refine Or.inr ⟨?_, hseq⟩
      simp [CoinbaseReplay.announced, hcon hc]
    · exact fun _ ↦ hseq
    · rw [ha.publications_eq, List.append_nil, ← h.results]
      simp [CoinbaseReplay.announced, CoinbaseReplay.assign, CoinbaseReplay.mark,
        CoinbaseReplay.resetSequence]
    · intro hl
      rw [ha.states_eq]
      have hst : (replay.announced (CoinbaseConnectionManager.nextRecordIndex s.handler.progress)
          state reason).states = replay.states ++ [state] := by
        simp [CoinbaseReplay.announced, CoinbaseReplay.assign, CoinbaseReplay.mark,
          CoinbaseReplay.resetSequence]
      rw [hst]
      exact destutter_concat_congr (h.states hl) state

/-- A recovery that is not announced. -/
theorem Sim.silent (h : Sim loud s replay) (state : BookState) (delay : Nat) (hl : ¬loud) :
    Follows loud s (s.recovering [] state delay) replay := by
  have ha := adds_recovering s [] state delay
  refine ⟨[], replay, ha.history_eq, rfl, ?_⟩
  constructor
  · change replay.feed.book.mark state = s.book.mark state
    rw [← h.levels]
    rfl
  · rintro (hloud | hp)
    · exact absurd hloud hl
    · cases hp
  · intro hc
    cases hc
  · exact fun _ ↦ rfl
  · rw [ha.publications_eq, List.append_nil]
    exact h.results
  · exact fun hloud ↦ absurd hloud hl

private theorem Sim.recovering (h : Sim loud s replay) (reason : Bytes)
    {state : BookState} (delay : Nat) (hs : state ≠ .valid) (hg : loud → reason ≠ []) :
    Follows loud s (s.recovering reason state delay) replay := by
  by_cases hr : reason = []
  · subst hr
    exact h.silent state delay fun hl ↦ hg hl rfl
  · exact h.announce (adds_recovering s reason state delay) hr hs rfl rfl fun hc ↦ by cases hc

private theorem Sim.begun (h : Sim loud s replay) : Follows loud s s.begun replay :=
  h.announce (adds_begun s) (by decide) (by decide) rfl rfl fun hc ↦ by cases hc

private theorem Sim.established (h : Sim loud s replay) : Follows loud s s.established replay :=
  h.announce (adds_established s) (by decide) (by decide) rfl rfl fun _ ↦ rfl

private theorem Sim.stopped (h : Sim loud s replay) : Follows loud s s.stopped replay :=
  h.announce (adds_stopped s) (by decide) (by decide) rfl rfl fun hc ↦ by cases hc

private theorem Sim.invalidated (h : Sim loud s replay) (hc : s.connected = false) :
    Follows loud s s.invalidated replay :=
  h.announce (adds_invalidated s) (by decide) (by decide) rfl (h.tracker hc)
    fun hcon ↦ absurd (hc.symm.trans hcon) (by decide)

private theorem Sim.terminated (h : Sim loud s replay)
    (hc : s.stopping = true → s.connected = false) :
    Follows loud s s.terminated replay := by
  unfold Session.terminated
  split
  · next hs => exact h.invalidated (hc hs)
  · exact h.stopped.trans fun after hs ↦ hs.invalidated rfl

private theorem Sim.refreshed (h : Sim loud s replay)
    (hl : s.bookStates.getLast? = some s.book.state) :
    Follows loud s s.refreshed replay := by
  have ha := adds_refreshed s
  refine ⟨[], replay, ha.history_eq, rfl, h.levels, h.synced, h.attached, h.tracker, ?_, ?_⟩
  · rw [ha.publications_eq, List.append_nil]
    exact h.results
  · intro hloud
    rw [ha.states_eq, destutter_concat, if_pos hl]
    exact h.states hloud

/-- A message that is processed without an exception. -/
theorem Sim.accepted {envelope : RawMessage} {health : FeedHealth}
    {now : ReceiveMonotonicTimestamp} {feed : Feed} {result : ProcessResult}
    (h : Sim loud s replay) (hc : s.connected = true) (hp : s.recoveryPending = false)
    (hid : envelope.connectionId = s.connectionId)
    (processed : Feed.process .default ⟨s.book, s.sequence, health⟩ envelope now =
      (feed, .ok result)) :
    Follows loud s (s.accepted envelope feed.book feed.sequence result) replay := by
  obtain ⟨hbook, hseq⟩ := h.synced (Or.inr hp)
  have hattached := h.attached hc
  rw [← hid, ← hseq] at hattached
  rw [← hbook, ← hseq] at processed
  obtain ⟨after, hrec, hb, hq, hcon, hres, hst⟩ :=
    CoinbaseReplay.replayRecord_ok hattached processed
  refine ⟨[.inr envelope], (CoinbaseReplay.loop .default).opening after,
    (adds_accepted s envelope feed.book feed.sequence result).history_eq, ?_, ?_⟩
  · have hitem : (CoinbaseReplay.loop .default).record replay envelope = .ok after := hrec
    simp only [List.foldlM_cons, List.foldlM_nil, Weave.Loop.item, hitem]
    rfl
  · constructor
    · change after.feed.book.mark feed.book.state = feed.book
      rw [hb]
      rfl
    · exact fun _ ↦ ⟨hb, hq⟩
    · intro _
      exact Or.inl (hcon.trans (congrArg some hid))
    · intro hn
      exact absurd (hc.symm.trans hn) (by decide)
    · change after.results.map Feed.untimed = _
      rw [hres, publications_accepted, h.results, List.map_append]
      rfl
    · intro hloud
      rw [(adds_accepted s envelope feed.book feed.sequence result).states_eq]
      change after.states.destutter _ = _
      rw [hst]
      exact destutter_concat_congr (h.states hloud) _

/-! ### Steps -/

/-- The step hands the sink an envelope on which `parse_heartbeat` throws. -/
def Absorbs (s : Session) (handed : Option RawMessage) : Prop :=
  ∃ envelope, handed = some envelope ∧ Feed.HeartbeatThrows .default s.sequence envelope

private theorem not_absorbs_none (s : Session) : ¬s.Absorbs none := by
  rintro ⟨envelope, h, -⟩
  cases h

/-- An envelope that was processed without an exception is not one that throws. -/
theorem not_absorbs_of_processed {envelope : RawMessage} {health : FeedHealth}
    {now : ReceiveMonotonicTimestamp} {feed : Feed} {result : ProcessResult}
    (processed : Feed.process .default ⟨s.book, s.sequence, health⟩ envelope now =
      (feed, .ok result)) : ¬s.Absorbs (some envelope) := by
  rintro ⟨other, h, ht⟩
  cases h
  obtain ⟨failure, hf⟩ := (Feed.process_throws_iff .default ⟨s.book, s.sequence, health⟩ envelope
    now).mpr ht
  rw [processed] at hf
  cases hf

/-- The sink accepted every envelope. -/
def AllAccepted (s : Session) : Prop := ∀ effect ∈ s.trace, effect.isRefused = false

instance (s : Session) : Decidable s.AllAccepted :=
  inferInstanceAs (Decidable (∀ effect ∈ s.trace, effect.isRefused = false))

/-- What one step means for the replay: it follows, unless the step absorbed an exception. -/
inductive Replays (loud : Prop) (s : Session) (handed : Option RawMessage) (s' : Session)
    (replay : CoinbaseReplay) : Prop
  | follows (h : Follows loud s s' replay) (hn : ¬s.Absorbs handed)
  | escapes (items : List (LifecycleEntry ⊕ RawMessage)) (failure : Failure)
      (history : s'.history = s.history ++ items)
      (error : items.foldlM (CoinbaseReplay.loop .default).item replay = .error failure)
      (h : s.Absorbs handed)

/-- A message on which processing throws. -/
theorem Sim.thrown {envelope : RawMessage} {health : FeedHealth}
    {now : ReceiveMonotonicTimestamp} {feed : Feed} {failure : Failure} {result : ProcessResult}
    {book : OrderBook} {reason : Bytes} {delay : Nat} (h : Sim loud s replay)
    (hc : s.connected = true) (hp : s.recoveryPending = false)
    (hid : envelope.connectionId = s.connectionId)
    (processed : Feed.process .default ⟨s.book, s.sequence, health⟩ envelope now =
      (feed, .error failure)) :
    Replays loud s (some envelope)
      ((s.accepted envelope book feed.sequence result).recovering reason .invalid delay)
      replay := by
  obtain ⟨hbook, hseq⟩ := h.synced (Or.inr hp)
  have hattached := h.attached hc
  have hthrows : Feed.HeartbeatThrows .default s.sequence envelope :=
    (Feed.process_throws_iff .default ⟨s.book, s.sequence, health⟩ envelope now).mp
      ⟨failure, by rw [processed]⟩
  rw [← hid, ← hseq] at hattached
  rw [← hbook, ← hseq] at processed
  have hrec : (CoinbaseReplay.loop .default).record replay envelope = .error failure :=
    CoinbaseReplay.replayRecord_error hattached processed
  have ha := adds_accepted s envelope book feed.sequence result
  have hr := adds_recovering (s.accepted envelope book feed.sequence result) reason .invalid delay
  refine .escapes (.inr envelope ::
    (s.accepted envelope book feed.sequence result).announcement .invalid reason) failure ?_ ?_
    ⟨envelope, rfl, hthrows⟩
  · rw [hr.history_eq, ha.history_eq, List.append_assoc, List.singleton_append]
  · simp only [List.foldlM_cons, Weave.Loop.item, hrec]
    rfl

/-- One step of a session in which the sink accepts everything. -/
theorem Step.replays {handed : Option RawMessage}
    (h : Step (fun reason ↦ loud → reason ≠ []) s handed s') (hc : s.Coherent) (hr : s.Recorded)
    (ha : s'.AllAccepted) (hs : Sim loud s replay) : Replays loud s handed s' replay := by
  have hn := not_absorbs_none s
  cases h with
  | idle => exact .follows ⟨[], replay, by simp, rfl, hs⟩ hn
  | refreshed => exact .follows (hs.refreshed hr.state) hn
  | start stopping alive =>
    have hstart : Sim loud { s with stopping := false } replay :=
      ⟨hs.1, hs.2, hs.3, hs.4, hs.5, hs.6⟩
    exact .follows hstart.begun hn
  | resume delay running token => exact .follows hs.begun hn
  | connected running fresh token => exact .follows hs.established hn
  | recover reason state delay running idle state_eq given =>
    have hv : state ≠ .valid := by
      rcases state_eq with rfl | rfl <;> decide
    exact .follows (hs.recovering reason delay hv given) hn
  | stop running => exact .follows hs.stopped hn
  | terminate => exact .follows (hs.terminated hc.not_connected) hn
  | delivered raw wall mono health now feed result running connected token processed clean =>
    exact .follows (hs.accepted connected (hc.connected_idle connected) rfl processed)
      (not_absorbs_of_processed processed)
  | failed raw wall mono health now feed result delay running connected token
      processed error idle =>
    refine .follows ((hs.accepted connected idle rfl processed).trans fun after hafter ↦ ?_)
      (not_absorbs_of_processed processed)
    exact hafter.recovering result.error delay (by decide) fun _ ↦ error
  | thrown raw wall mono health now feed failure delay running connected token processed idle =>
    exact hs.thrown connected idle rfl processed
  | rejected raw wall mono response error running connected token refused =>
    obtain ⟨rest, ht, -⟩ := quiet_terminated (Session.rejected s (s.envelope raw wall mono) response
      { outcome := .recordingRejected, error })
    have hm : .pushed s.generation (s.envelope raw wall mono) response ∈ (Session.rejected s
        (s.envelope raw wall mono) response
          { outcome := .recordingRejected, error }).terminated.trace := by
      rw [ht]
      simp [Session.rejected]
    have hf := ha _ hm
    simp [Effect.isRefused, refused] at hf

private theorem Quiet.trace_grows (h : Quiet s s') : s.trace <+: s'.trace := by
  obtain ⟨rest, ht, -⟩ := h
  exact ⟨rest, ht.symm⟩

private theorem accepted_grows (s : Session) (envelope : RawMessage) (book : OrderBook)
    (sequence : SequenceTracker) (result : ProcessResult) :
    s.trace <+: (s.accepted envelope book sequence result).trace :=
  List.prefix_append _ _

private theorem rejected_grows (s : Session) (envelope : RawMessage) (response : SinkResponse)
    (result : ProcessResult) : s.trace <+: (s.rejected envelope response result).trace :=
  List.prefix_append _ _

/-- The trace only grows. -/
theorem Step.trace_grows {reasons : Bytes → Prop} {handed : Option RawMessage}
    (h : Step reasons s handed s') :
    s.trace <+: s'.trace := by
  cases h with
  | idle => exact List.prefix_rfl
  | refreshed => exact List.prefix_append _ _
  | start stopping alive => exact (quiet_begun { s with stopping := false }).trace_grows
  | resume delay running token => exact (quiet_begun s).trace_grows
  | connected running fresh token => exact (quiet_established s).trace_grows
  | recover reason state delay running idle state_eq given =>
    exact (quiet_recovering s _ _ _).trace_grows
  | stop running => exact (quiet_stopped s).trace_grows
  | terminate => exact (quiet_terminated s).trace_grows
  | delivered raw wall mono health now feed result running connected token processed clean =>
    exact List.prefix_append _ _
  | failed raw wall mono health now feed result delay running connected token
      processed error idle =>
    exact (accepted_grows s _ _ _ _).trans (quiet_recovering _ _ _ _).trace_grows
  | thrown raw wall mono health now feed failure delay running connected token processed idle =>
    exact (accepted_grows s _ _ _ _).trans (quiet_recovering _ _ _ _).trace_grows
  | rejected raw wall mono response error running connected token refused =>
    exact (rejected_grows s _ _ _).trans (quiet_terminated _).trace_grows

private theorem AllAccepted.of_grows (h : s'.AllAccepted) (hp : s.trace <+: s'.trace) :
    s.AllAccepted :=
  fun effect hm ↦ h effect (hp.subset hm)

private theorem history_of_grows (hp : s.trace <+: s'.trace) :
    ∃ items, s'.history = s.history ++ items := by
  obtain ⟨rest, ht⟩ := hp
  exact ⟨rest.filterMap Effect.recording, by rw [history, ← ht, List.filterMap_append, history]⟩

/-- The complete replay of a recorded session is a fold over what it recorded. -/
theorem Recorded.replay_eq (h : s.Recorded) (hne : s.recordedLifecycle ≠ []) :
    replayCoinbase .default .complete s.recordedEnvelopes s.recordedLifecycle =
      s.history.foldlM (CoinbaseReplay.loop .default).item
        (CoinbaseReplay.initial.mark .disconnected) := by
  have hstart : (CoinbaseReplay.loop .default).opening (.start s.recordedLifecycle) =
      CoinbaseReplay.initial.mark .disconnected := by
    rw [CoinbaseReplay.start, if_neg hne]
    rfl
  unfold replayCoinbase
  rw [show (decide (SessionStatus.complete = SessionStatus.complete)) = true from rfl, h.validates]
  have hrun := Weave.run_eq_foldlM h.filed (.start s.recordedLifecycle)
  rw [hstart] at hrun
  change ((CoinbaseReplay.loop .default).run 0 (.start s.recordedLifecycle)
    (Weave.records s.history) (Weave.events s.history) >>=
      fun final ↦ CoinbaseReplay.finish .complete final.1 final.2) = _
  rw [hrun]
  cases s.history.foldlM (CoinbaseReplay.loop .default).item
      (CoinbaseReplay.initial.mark .disconnected) with
  | error failure => rfl
  | ok replay => rfl

end Session

/-! ### Runs of the manager -/

namespace CoinbaseConnectionManager

variable {clock : Nat → ReceiveMonotonicTimestamp} {config : FeedHealthConfig}
  {initial : CoinbaseConnectionManager}

/-- No error callback that acts has an empty reason. -/
def GivesReasons (clock : Nat → ReceiveMonotonicTimestamp) (initial : CoinbaseConnectionManager)
    (actions : List Action) : Prop :=
  ∀ pre generation post, actions = pre ++ .error generation [] :: post →
    (initial.run clock pre).step clock (.error generation []) = initial.run clock pre

/-- No action hands the sink an envelope on which `parse_heartbeat` throws. -/
def AbsorbsNothing (clock : Nat → ReceiveMonotonicTimestamp) (initial : CoinbaseConnectionManager)
    (actions : List Action) : Prop :=
  ∀ pre action post, actions = pre ++ action :: post →
    ¬(initial.run clock pre).Absorbs ((initial.run clock pre).handed action)

private theorem givesReasons_of_concat {actions : List Action} {action : Action}
    (h : GivesReasons clock initial (actions ++ [action])) :
    GivesReasons clock initial actions := by
  intro pre generation post heq
  exact h pre generation (post ++ [action]) (by rw [heq]; simp)

private theorem absorbsNothing_concat {actions : List Action} {action : Action} :
    AbsorbsNothing clock initial (actions ++ [action]) ↔
      AbsorbsNothing clock initial actions ∧
        ¬(initial.run clock actions).Absorbs ((initial.run clock actions).handed action) := by
  constructor
  · intro h
    refine ⟨?_, h actions action [] rfl⟩
    intro pre other post heq
    exact h pre other (post ++ [action]) (by rw [heq]; simp)
  · rintro ⟨h, hlast⟩ pre other post heq
    rcases List.eq_nil_or_concat post with rfl | ⟨front, last, rfl⟩
    · obtain ⟨rfl, rfl⟩ : actions = pre ∧ action = other := by simpa using heq
      exact hlast
    · have hsplit : actions ++ [action] = (pre ++ other :: front) ++ [last] := by simpa using heq
      exact h pre other front (List.append_inj' hsplit rfl).1

/-- The replay of what a run recorded: it ends where the manager is, or an exception of
`parse_heartbeat` leaves it. -/
theorem run_replays (hm : create clock config = .ok initial) (loud : Prop) (actions : List Action)
    (hl : loud → GivesReasons clock initial actions)
    (ha : (initial.run clock actions).AllAccepted) :
    (AbsorbsNothing clock initial actions → ∃ replay,
      (initial.run clock actions).history.foldlM (CoinbaseReplay.loop .default).item
        (CoinbaseReplay.initial.mark .disconnected) = .ok replay ∧
      Session.Sim loud (initial.run clock actions).toSession replay) ∧
    (¬AbsorbsNothing clock initial actions → ∃ failure,
      (initial.run clock actions).history.foldlM (CoinbaseReplay.loop .default).item
        (CoinbaseReplay.initial.mark .disconnected) = .error failure) := by
  induction actions using List.reverseRecOn with
  | nil =>
    have hi : (initial.run clock []).toSession = _ := create_toSession hm
    refine ⟨fun _ ↦ ⟨CoinbaseReplay.initial.mark .disconnected, ?_, ?_⟩, fun hn ↦ absurd ?_ hn⟩
    · rw [hi]
      rfl
    · rw [hi]
      exact ⟨rfl, fun _ ↦ ⟨rfl, rfl⟩, (fun hc ↦ by cases hc), fun _ ↦ rfl, rfl, fun _ ↦ rfl⟩
    · intro pre action post heq
      simp at heq
  | append_singleton actions action ih =>
    obtain ⟨-, hc⟩ := run_tokens_coherent hm actions
    have hstep : Session.Step (fun reason ↦ loud → reason ≠ [])
        (initial.run clock actions).toSession ((initial.run clock actions).handed action)
        ((initial.run clock actions).step clock action).toSession := by
      have hown : ∀ reason ∈ ownReasons, reason ≠ [] := by decide
      refine step_session clock _ action hc.connected_idle (fun reason hr _ ↦ hown reason hr) ?_
      -- only an error of the venue can have an empty reason
      rintro generation reason rfl
      by_cases hr : loud → reason ≠ []
      · exact Or.inr hr
      · obtain ⟨hloud, hnil⟩ : loud ∧ reason = [] := by simpa using hr
        subst hnil
        exact Or.inl (hl hloud actions generation [] rfl)
    rw [run_append] at ha ⊢
    change Session.AllAccepted ((initial.run clock actions).step clock action).toSession at ha
    obtain ⟨hok, herr⟩ := ih (fun hloud ↦ givesReasons_of_concat (hl hloud))
      (ha.of_grows hstep.trace_grows)
    rw [absorbsNothing_concat]
    by_cases hn : AbsorbsNothing clock initial actions
    · obtain ⟨replay, hfold, hsim⟩ := hok hn
      cases hstep.replays hc (run_recorded hm actions) ha hsim with
      | follows h hlast =>
        obtain ⟨items, after, hh, hf, hs⟩ := h
        refine ⟨fun _ ↦ ⟨after, ?_, hs⟩, fun hbad ↦ absurd ⟨hn, hlast⟩ hbad⟩
        change ((initial.run clock actions).step clock action).history.foldlM _ _ = _
        rw [hh, List.foldlM_append, hfold]
        exact hf
      | escapes items failure hh hf hlast =>
        refine ⟨fun hgood ↦ absurd hlast hgood.2, fun _ ↦ ⟨failure, ?_⟩⟩
        change ((initial.run clock actions).step clock action).history.foldlM _ _ = _
        rw [hh, List.foldlM_append, hfold]
        exact hf
    -- an exception ends the fold, whatever is recorded after it
    · obtain ⟨failure, hfold⟩ := herr hn
      refine ⟨fun hgood ↦ absurd hgood.1 hn, fun _ ↦ ⟨failure, ?_⟩⟩
      obtain ⟨items, hh⟩ := Session.history_of_grows hstep.trace_grows
      change ((initial.run clock actions).step clock action).history.foldlM _ _ = _
      rw [hh, List.foldlM_append, hfold]
      rfl

/-- A run that begins with `start` records a lifecycle event. -/
theorem recordedLifecycle_ne_nil (hm : create clock config = .ok initial) (actions : List Action) :
    (initial.run clock (.start :: actions)).recordedLifecycle ≠ [] := by
  have hi := create_toSession hm
  have hstart : (initial.run clock [.start]).toSession =
      Session.begun { initial.toSession with stopping := false } := by
    have hs : initial.stopping = true := by rw [hi]
    have ht : initial.terminal = false := by rw [hi]
    change (initial.start clock).toSession = _
    simp only [start, hs, ht, Bool.not_true, Bool.or_self, Bool.false_eq_true, ↓reduceIte]
    exact beginConnection_toSession clock _ rfl
  refine run_invariant_from (I := fun s ↦ s.recordedLifecycle ≠ []) hm ?_ [.start] ?_ actions
  · intro s handed s' _ _ hs hne
    obtain ⟨items, hh⟩ := Session.history_of_grows hs.trace_grows
    rw [Session.recordedLifecycle, hh, Weave.events_append]
    exact List.append_ne_nil_of_left_ne_nil hne _
  · have hr : ascii "resynchronization" ≠ [] := by decide
    rw [hstart, Session.recordedLifecycle,
      (Session.adds_begun { initial.toSession with stopping := false }).history_eq,
      Weave.events_append, Session.announcement, if_neg hr]
    exact List.append_ne_nil_of_right_ne_nil _ (List.cons_ne_nil _ _)

private theorem stop_stopping (m : CoinbaseConnectionManager) :
    (m.step clock .stop).stopping = true := by
  by_cases hs : m.stopping = true
  · simp only [step, stop, hs, ↓reduceIte]
  · simp only [step]
    rw [stop_toSession clock m (by simpa using hs)]
    rfl

/-- A stopped run that was recorded completely: its replay, when it reaches its end, gives every
record the live outcome and ends with the live book and tracker. When no error callback acted
without a reason, both books went through the same states. -/
theorem run_replay_agrees (clock : Nat → ReceiveMonotonicTimestamp) (config : FeedHealthConfig)
    (initial : CoinbaseConnectionManager) (hm : create clock config = .ok initial)
    (middle : List Action) (replayed : CoinbaseReplay)
    (ha : (initial.run clock (.start :: middle ++ [.stop])).AllAccepted)
    (hr : replayCoinbase .default .complete
        (initial.run clock (.start :: middle ++ [.stop])).recordedEnvelopes
        (initial.run clock (.start :: middle ++ [.stop])).recordedLifecycle = .ok replayed) :
    let m := initial.run clock (.start :: middle ++ [.stop])
    m.publications.map Prod.fst = m.recordedEnvelopes ∧
      replayed.results.map (·.outcome) = m.publications.map (·.2.outcome) ∧
      replayed.feed.book.bids = m.book.bids ∧ replayed.feed.book.asks = m.book.asks ∧
      replayed.feed.book.state = m.book.state ∧
      replayed.feed.book.lastSequence = m.book.lastSequence ∧
      replayed.feed.sequence.last = m.sequence.last ∧
      (GivesReasons clock initial (.start :: middle ++ [.stop]) →
        replayed.states.destutter (· ≠ ·) = m.bookStates.destutter (· ≠ ·)) := by
  intro m
  have hrec : m.Recorded := run_recorded hm _
  have hidle : m.recoveryPending = false := by
    refine (run_tokens_coherent hm (.start :: middle ++ [Action.stop])).2.stopping_idle ?_
    rw [run_append]
    exact stop_stopping _
  rw [hrec.replay_eq (recordedLifecycle_ne_nil hm _)] at hr
  obtain ⟨hok, herr⟩ := run_replays hm
    (GivesReasons clock initial (.start :: middle ++ [Action.stop]))
    (.start :: middle ++ [Action.stop]) id ha
  have hsim : Session.Sim (GivesReasons clock initial (.start :: middle ++ [Action.stop]))
      m.toSession replayed := by
    by_cases hn : AbsorbsNothing clock initial (.start :: middle ++ [Action.stop])
    · obtain ⟨replay, hfold, hs⟩ := hok hn
      cases hfold.symm.trans hr
      exact hs
    · obtain ⟨failure, hfold⟩ := herr hn
      cases hfold.symm.trans hr
  obtain ⟨hbook, hseq⟩ := hsim.synced (Or.inr hidle)
  refine ⟨hrec.published, ?_, ?_, ?_, ?_, ?_, ?_, hsim.states⟩
  · have hres := congrArg (List.map ProcessResult.outcome) hsim.results
    simpa [Feed.untimed, Function.comp_def] using hres
  · rw [hbook]
  · rw [hbook]
  · rw [hbook]
  · rw [hbook]
  · rw [hseq]

/-- A session with a snapshot, a socket error and a second attempt. -/
theorem run_replay_agrees_recovery :
    ∃ initial, create (fun _ ↦ ⟨0⟩) {} = .ok initial ∧
      let m := initial.run (fun _ ↦ ⟨0⟩) (.start :: [.connected 1,
        .message 1 singleBid ⟨0⟩ ⟨0⟩ (.returned .accepted) ⟨0⟩, .error 1 (ascii "read"),
        .resume 2] ++ [.stop])
      m.AllAccepted ∧ ∃ replayed,
        replayCoinbase .default .complete m.recordedEnvelopes m.recordedLifecycle = .ok replayed ∧
          replayed.feed.book.bids = m.book.bids := by
  refine ⟨_, rfl, by decide +kernel, exists_ok_and (by decide +kernel) ?_⟩
  intro replayed hr
  exact (run_replay_agrees (fun _ ↦ ⟨0⟩) {} _ rfl [.connected 1,
    .message 1 singleBid ⟨0⟩ ⟨0⟩ (.returned .accepted) ⟨0⟩, .error 1 (ascii "read"), .resume 2]
    replayed (by decide +kernel) hr).2.2.1

/-- An error callback with an empty reason is not announced: the live book is disconnected before
the next attempt, the replayed book is not. -/
theorem replay_misses_empty_reason :
    ∃ initial, create (fun _ ↦ ⟨0⟩) {} = .ok initial ∧
      let m := initial.run (fun _ ↦ ⟨0⟩)
        (.start :: [.connected 1, .error 1 [], .resume 2] ++ [.stop])
      m.AllAccepted ∧
        (replayCoinbase .default .complete m.recordedEnvelopes m.recordedLifecycle).map
          (·.states.destutter (· ≠ ·)) =
            .ok [.initializing, .disconnected, .resyncing, .initializing, .resyncing,
              .disconnected] ∧
        m.bookStates.destutter (· ≠ ·) =
          [.initializing, .disconnected, .resyncing, .initializing, .disconnected, .resyncing,
            .disconnected] :=
  ⟨_, rfl, by decide +kernel, by decide +kernel, by decide +kernel⟩

/-- Either something was announced, or the session was never started and recorded nothing. -/
theorem run_unstarted (hm : create clock config = .ok initial) (actions : List Action) :
    (initial.run clock actions).recordedLifecycle ≠ [] ∨
      ((initial.run clock actions).stopping = true ∧ (initial.run clock actions).history = []) := by
  refine run_invariant (I := fun s ↦ s.recordedLifecycle ≠ [] ∨
    (s.stopping = true ∧ s.history = []))
    hm ?_ ?_ actions
  · rw [create_toSession hm]
    exact Or.inr ⟨rfl, rfl⟩
  · rintro s handed s' - - hs (hne | ⟨hstop, hnil⟩)
    · obtain ⟨items, hh⟩ := Session.history_of_grows hs.trace_grows
      left
      rw [Session.recordedLifecycle, hh, Weave.events_append]
      exact List.append_ne_nil_of_left_ne_nil hne _
    · have hterm : ascii "terminal_failure" ≠ [] := by decide
      have hresync : ascii "resynchronization" ≠ [] := by decide
      cases hs with
      | idle => exact Or.inr ⟨hstop, hnil⟩
      | refreshed =>
        refine Or.inr ⟨hstop, ?_⟩
        rw [(Session.adds_refreshed s).history_eq, hnil]
        rfl
      | start stopping alive =>
        left
        rw [Session.recordedLifecycle, (Session.adds_begun { s with stopping := false }).history_eq,
          Weave.events_append, Session.announcement, if_neg hresync]
        exact List.append_ne_nil_of_right_ne_nil _ (List.cons_ne_nil _ _)
      | terminate =>
        left
        rw [Session.terminated, if_pos hstop, Session.recordedLifecycle,
          (Session.adds_invalidated s).history_eq, Weave.events_append, Session.announcement,
          if_neg hterm]
        exact List.append_ne_nil_of_right_ne_nil _ (List.cons_ne_nil _ _)
      | resume _ running | connected running | recover _ _ _ running | stop running
      | delivered _ _ _ _ _ _ _ running | failed _ _ _ _ _ _ _ _ running
      | thrown _ _ _ _ _ _ _ _ running | rejected _ _ _ _ _ running => simp [hstop] at running

private theorem run_grows (hm : create clock config = .ok initial) (pre post : List Action) :
    (initial.run clock pre).trace <+: (initial.run clock (pre ++ post)).trace :=
  run_invariant_from (I := fun s ↦ (initial.run clock pre).trace <+: s.trace) hm
    (fun _ _ _ _ _ hs hi ↦ hi.trans hs.trace_grows) pre List.prefix_rfl post

/-- A stopping manager hands nothing to the sink. -/
theorem handed_of_stopping (m : CoinbaseConnectionManager) (hs : m.stopping = true)
    (action : Action) : m.handed action = none := by
  cases action with
  | message generation raw wall mono response now => simp [handed, live, hs]
  | start | stop | checkHealth | forceDisconnect | terminalRecordingFailure | error | connected
  | resume => rfl

/-- The replay of a run that was recorded completely reaches its end exactly if no action handed
the sink an envelope on which `parse_heartbeat` throws. -/
theorem run_replay_survives_iff (clock : Nat → ReceiveMonotonicTimestamp)
    (config : FeedHealthConfig) (initial : CoinbaseConnectionManager)
    (hm : create clock config = .ok initial) (actions : List Action)
    (ha : (initial.run clock actions).AllAccepted) :
    (∃ replayed, replayCoinbase .default .complete
        (initial.run clock actions).recordedEnvelopes
        (initial.run clock actions).recordedLifecycle = .ok replayed) ↔
      AbsorbsNothing clock initial actions := by
  rcases run_unstarted hm actions with hne | ⟨-, hnil⟩
  · rw [(run_recorded hm actions).replay_eq hne]
    obtain ⟨hok, herr⟩ := run_replays hm False actions False.elim ha
    constructor
    · rintro ⟨replayed, hr⟩
      by_contra hn
      obtain ⟨failure, hfold⟩ := herr hn
      cases hfold.symm.trans hr
    · intro hn
      obtain ⟨replay, hfold, -⟩ := hok hn
      exact ⟨replay, hfold⟩
  · -- Nothing was recorded, and no prefix of the run was started.
    constructor
    · intro _ pre action post heq
      have hpre : (initial.run clock pre).stopping = true := by
        rcases run_unstarted hm pre with hne | ⟨hs, -⟩
        · obtain ⟨items, hh⟩ := Session.history_of_grows (run_grows hm pre (action :: post))
          rw [← heq, hnil] at hh
          have hempty : (initial.run clock pre).history = [] :=
            (List.append_eq_nil_iff.mp hh.symm).1
          rw [Session.recordedLifecycle, hempty] at hne
          exact absurd rfl hne
        · exact hs
      rw [handed_of_stopping _ hpre]
      exact Session.not_absorbs_none _
    · intro _
      rw [Session.recordedEnvelopes, Session.recordedLifecycle, hnil]
      exact ⟨_, rfl⟩

/-- A heartbeats message without events. -/
def bareHeartbeat : Bytes := ascii "\x7b\"channel\":\"heartbeats\"\x7d"

/-- A snapshot is replayed: none of the actions absorbs an exception. -/
theorem run_replay_survives_iff_snapshot :
    ∃ initial, create (fun _ ↦ ⟨0⟩) {} = .ok initial ∧
      AbsorbsNothing (fun _ ↦ ⟨0⟩) initial [.start, .connected 1,
        .message 1 singleBid ⟨0⟩ ⟨0⟩ (.returned .accepted) ⟨0⟩, .stop] := by
  refine ⟨_, rfl, (run_replay_survives_iff (fun _ ↦ ⟨0⟩) {} _ rfl [.start, .connected 1,
    .message 1 singleBid ⟨0⟩ ⟨0⟩ (.returned .accepted) ⟨0⟩, .stop] (by decide +kernel)).mp ?_⟩
  exact exists_ok_of_isOk (by decide +kernel)

/-- The live manager absorbs a heartbeats message without events as a failed application and
recovers; replay stops with the exception. -/
theorem replay_stops_at_bare_heartbeat :
    ∃ initial, create (fun _ ↦ ⟨0⟩) {} = .ok initial ∧
      let m := initial.run (fun _ ↦ ⟨0⟩) (.start :: [.connected 1,
        .message 1 bareHeartbeat ⟨0⟩ ⟨0⟩ (.returned .accepted) ⟨0⟩] ++ [.stop])
      m.AllAccepted ∧ m.publications.map (·.2.outcome) = [.applyError] ∧
        (replayCoinbase .default .complete m.recordedEnvelopes m.recordedLifecycle).map
          (·.count) = .error ⟨.jsonException,
            ascii "[json.exception.out_of_range.403] key 'events' not found"⟩ :=
  ⟨_, rfl, by decide +kernel, by decide +kernel, by decide +kernel⟩

end CoinbaseConnectionManager

end ArbitrageEngine.Coinbase
