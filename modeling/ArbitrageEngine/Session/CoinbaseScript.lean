import ArbitrageEngine.Session.RecordOrder
import ArbitrageEngine.Session.ReplayTrail

/-!
# What a Coinbase session asks for

`src/session/session.cpp:449–549`: the deeds of the Coinbase branch of `replay`, as the records, the
lifecycle events and the status of a session determine them. The loop does these deeds, and its
counters are those of the records that it has read.
-/

namespace ArbitrageEngine.Sessions

open Base ArbitrageEngine.Core Coinbase Recording

/-! ### Results of single records -/

/-- Snapshots and updates are counted for an updated book, and only for it. -/
def Tallied (result : ProcessResult) : Prop :=
  if result.outcome = .bookUpdated then 0 < result.snapshots + result.updates
  else result.snapshots = 0 ∧ result.updates = 0

private theorem tallied_describe (events : List MarketEvent) {outcome : MessageOutcome}
    (h : outcome ≠ .bookUpdated) (error : Bytes) :
    Tallied { Feed.describe events with outcome, error } := by
  rw [Tallied, if_neg h]
  exact ⟨rfl, rfl⟩

private theorem applyL2_tallied {feed : Feed} {parsed : CoinbaseParseResult} {envelope : RawMessage}
    {now : ReceiveMonotonicTimestamp} {result : ProcessResult}
    (h : (feed.applyL2 parsed (Feed.describe parsed.events) envelope now).2 = .ok result) :
    Tallied result := by
  unfold Feed.applyL2 at h
  dsimp only at h
  split at h
  · cases h
    exact tallied_describe _ (by decide) _
  · split at h
    · cases h
      exact tallied_describe parsed.events (by decide) []
    · next hsome =>
      cases happlied : feed.book.applyEvents parsed.events with
      | mk book accepted =>
        rw [happlied] at h
        cases accepted with
        | false =>
          cases h
          exact tallied_describe _ (by decide) _
        | true =>
          cases h
          rw [Tallied, if_pos rfl]
          dsimp only
          have hparts := List.length_eq_length_filter_add (l := parsed.events)
            MarketEvent.isSnapshot
          have hlength : parsed.events.length ≠ 0 := by simpa using hsome
          omega

private theorem dispatch_tallied {feed : Feed} {parsed : CoinbaseParseResult}
    {envelope : RawMessage} {now : ReceiveMonotonicTimestamp} {result : ProcessResult}
    (h : (feed.dispatch parsed (Feed.describe parsed.events) envelope now).2 = .ok result) :
    Tallied result := by
  have quiet : Tallied (Feed.describe parsed.events) := tallied_describe _ (by decide) []
  unfold Feed.dispatch at h
  split at h
  · split at h
    · cases h
    · cases h
      exact quiet
    · cases h
      exact quiet
  · split at h
    · cases h
      exact quiet
    · exact applyL2_tallied h

private theorem process_tallied {symbols : CoinbaseSymbolMapper} {feed : Feed}
    {envelope : RawMessage} {now : ReceiveMonotonicTimestamp} {result : ProcessResult}
    (h : (feed.process symbols envelope now).2 = .ok result) : Tallied result := by
  unfold Feed.process at h
  dsimp only at h
  split at h
  · cases h
    exact tallied_describe [] (by decide) _
  · split at h
    · exact dispatch_tallied h
    · split at h
      · cases h
        exact tallied_describe _ (by decide) []
      · cases h
        exact tallied_describe _ (by decide) []
      · cases h
        exact tallied_describe _ (by decide) _
      · exact dispatch_tallied h
      · exact dispatch_tallied h

/-! ### Deeds -/

namespace CoinbaseReplay

/-- What the loop does to its book, its tracker and its feed. -/
inductive Act
  | mark (state : BookState) (reason : Bytes)
  | resetSequence
  | resetHealth (now : ReceiveMonotonicTimestamp)
  | process (e : RawMessage)

/-- An act with the index under which a change of state is noted. -/
structure Deed where
  index : Nat
  act : Act

/-- The record that is processed. -/
def Deed.record : Deed → Option RawMessage
  | ⟨_, .process e⟩ => some e
  | _ => none

/-- What a lifecycle event asks for (`src/session/session.cpp:479–502`). -/
def eventDeeds (index : Nat) (state : BookState) (reason : Bytes) : List Deed :=
  [⟨index, .mark state reason⟩, ⟨index, .resetSequence⟩]

/-- What a record asks for before it is processed; an event may have announced its connection
(`src/session/session.cpp:507–526`). -/
def reconnectDeeds (connection : Option Nat) (announced : Bool) (e : RawMessage) : List Deed :=
  if connection = some e.connectionId then []
  else
    (if connection.isSome ∧ announced = false then
      [⟨e.recordIndex, .mark .disconnected (ascii "connection_id_changed")⟩] else []) ++
    (if announced = false then
      [⟨e.recordIndex, .mark .resyncing (ascii "resynchronization")⟩,
        ⟨e.recordIndex, .mark .initializing (ascii "new_connection")⟩] else []) ++
    [⟨e.recordIndex, .resetSequence⟩, ⟨e.recordIndex, .resetHealth e.receiveMonotonicTime⟩]

/-- What a history asks for, behind a record of `connection`. -/
def deeds (connection : Option Nat) (announced : Bool) :
    List (LifecycleEntry ⊕ RawMessage) → List Deed
  | [] => []
  | .inl event :: history =>
    ((stateNamed event.state).map (eventDeeds event.beforeRecordIndex · event.reason)).getD [] ++
      deeds connection (announced || stateNamed event.state = some .initializing) history
  | .inr e :: history =>
    reconnectDeeds connection announced e ++
      ⟨e.recordIndex, .process e⟩ :: deeds (some e.connectionId) false history

/-- What a session asks for. The book of a session that was finalized as failed is invalidated at
the end (`src/session/session.cpp:542–547`). -/
def script (status : SessionStatus) (records : List RawMessage) (lifecycle : List LifecycleEntry) :
    List Deed :=
  deeds none false (timeline records lifecycle) ++
    if status ≠ .complete ∧ status ≠ .inProgress then
      eventDeeds records.length .invalid (ascii "terminal_failure")
    else []

/-- The feed, with what has come of the records so far. -/
structure Stage where
  feed : Feed
  results : List (Except Failure ProcessResult)

/-- The snapshots so far. -/
def Stage.snapshots (stage : Stage) : Nat :=
  (stage.results.map fun result ↦ (result.toOption.map ProcessResult.snapshots).getD 0).sum

/-- The reason of a change that a record makes. -/
def Stage.reasonOf (stage : Stage) (result : ProcessResult) : Bytes :=
  if result.error = [] then
    if stage.snapshots ≠ 0 then ascii "fresh_recovery_snapshot" else ascii "initial_snapshot"
  else result.error

/-- The feed of a session under its deeds. -/
def watched (symbols : CoinbaseSymbolMapper) : Watched Stage Deed where
  perform stage
    | ⟨_, .mark state _⟩ => { stage with feed.book := stage.feed.book.mark state }
    | ⟨_, .resetSequence⟩ => { stage with feed.sequence := .empty }
    | ⟨_, .resetHealth now⟩ => { stage with feed.health := stage.feed.health.reset now }
    | ⟨_, .process e⟩ =>
      let (feed, result) := stage.feed.process symbols e e.receiveMonotonicTime
      ⟨feed, stage.results ++ [result]⟩
  state stage := stage.feed.book.state
  index := Deed.index
  reason stage
    | ⟨_, .mark _ reason⟩ => reason
    | ⟨_, .process e⟩ =>
      ((stage.feed.process symbols e e.receiveMonotonicTime).2.toOption.map stage.reasonOf).getD []
    | _ => []

/-- The feed and the results of a replay. -/
def stage (replay : CoinbaseReplay) : Stage := ⟨replay.feed, replay.results.map .ok⟩

/-- The snapshots are those of the results. -/
def Sums (replay : CoinbaseReplay) : Prop :=
  replay.snapshots = (replay.results.map (·.snapshots)).sum

private theorem Sums.stage {replay : CoinbaseReplay} (h : replay.Sums) :
    replay.stage.snapshots = replay.snapshots := by
  rw [h, Stage.snapshots, CoinbaseReplay.stage, List.map_map]
  rfl

/-- The replay has gone on by doing these deeds. -/
structure Performs (symbols : CoinbaseSymbolMapper) (replay : CoinbaseReplay) (done : List Deed)
    (next : CoinbaseReplay) : Prop where
  stage : next.stage = (watched symbols).run replay.stage done
  transitions : next.transitions =
    replay.transitions ++ (watched symbols).changes replay.stage done

variable {symbols : CoinbaseSymbolMapper} {replay next after : CoinbaseReplay}

private theorem Performs.trans {done rest : List Deed} (h : Performs symbols replay done next)
    (hrest : Performs symbols next rest after) : Performs symbols replay (done ++ rest) after := by
  refine ⟨?_, ?_⟩
  · rw [hrest.stage, h.stage, Watched.run_append]
  · rw [hrest.transitions, h.transitions, h.stage, Watched.changes_append, List.append_assoc]

private theorem performs_nil (replay : CoinbaseReplay) : Performs symbols replay [] replay :=
  ⟨rfl, (List.append_nil _).symm⟩

private theorem transition_eq (replay : CoinbaseReplay) (index : Nat) (previous : BookState)
    (reason : Bytes) : replay.transition index previous reason =
      { replay with
        transitions := replay.transitions ++
          noted index previous replay.feed.book.state reason } := by
  unfold transition noted
  split
  · rw [List.append_nil]
  · rfl

private theorem performs_assign (replay : CoinbaseReplay) (index : Nat) (state : BookState)
    (reason : Bytes) :
    Performs symbols replay [⟨index, .mark state reason⟩] (replay.assign index state reason) := by
  rw [assign, transition_eq]
  refine ⟨rfl, ?_⟩
  rw [Watched.changes_singleton]
  rfl

private theorem performs_resetSequence (replay : CoinbaseReplay) (index : Nat) :
    Performs symbols replay [⟨index, .resetSequence⟩] replay.resetSequence := by
  refine ⟨rfl, ?_⟩
  rw [(watched symbols).changes_quiet rfl, List.append_nil]
  rfl

private theorem performs_event (replay : CoinbaseReplay) (index : Nat) (state : BookState)
    (reason : Bytes) :
    Performs symbols replay (eventDeeds index state reason)
      (replay.assign index state reason).resetSequence :=
  (performs_assign replay index state reason).trans (performs_resetSequence _ index)

/-- What comes before a record of another connection, apart from the connection itself. -/
private def resynchronize (replay : CoinbaseReplay) (index : Nat) : CoinbaseReplay :=
  if replay.lifecycleConnected = false then
    let replay :=
      if replay.connection.isSome then
        replay.assign index .disconnected (ascii "connection_id_changed")
      else replay
    (replay.assign index .resyncing (ascii "resynchronization")).assign index .initializing
      (ascii "new_connection")
  else replay

private theorem reconnect_eq (replay : CoinbaseReplay) {e : RawMessage}
    (hne : replay.connection ≠ some e.connectionId) :
    replay.reconnect e = { (replay.resynchronize e.recordIndex).resetSequence with
      feed.health := replay.feed.health.reset e.receiveMonotonicTime
      boundaries := replay.boundaries +
        if replay.connection.all (· = e.connectionId) then 0 else 1
      connection := some e.connectionId } := by
  obtain ⟨feed, connection, boundaries, snapshots, updates, count, transitions, connected, results,
    states⟩ := replay
  unfold reconnect CoinbaseReplay.resynchronize
  rw [if_neg hne]
  cases connection with
  | none =>
    cases connected with
    | false =>
      simp only [assign, transition_eq, mark]
      rfl
    | true => rfl
  | some id =>
    have hid : decide (id = e.connectionId) = false := by
      rw [decide_eq_false_iff_not]
      exact fun same ↦ hne (congrArg some same)
    cases connected with
    | false =>
      simp only [assign, transition_eq, mark, Option.all, hid]
      rfl
    | true =>
      simp only [Option.all, hid]
      rfl

private theorem performs_resynchronize (replay : CoinbaseReplay) (e : RawMessage) :
    Performs symbols replay
      ((if replay.connection.isSome ∧ replay.lifecycleConnected = false then
        [⟨e.recordIndex, .mark .disconnected (ascii "connection_id_changed")⟩] else []) ++
      if replay.lifecycleConnected = false then
        [⟨e.recordIndex, .mark .resyncing (ascii "resynchronization")⟩,
          ⟨e.recordIndex, .mark .initializing (ascii "new_connection")⟩] else [])
      (replay.resynchronize e.recordIndex) := by
  have again (replay : CoinbaseReplay) : Performs symbols replay
      [⟨e.recordIndex, .mark .resyncing (ascii "resynchronization")⟩,
        ⟨e.recordIndex, .mark .initializing (ascii "new_connection")⟩]
      ((replay.assign e.recordIndex .resyncing (ascii "resynchronization")).assign e.recordIndex
        .initializing (ascii "new_connection")) :=
    (performs_assign replay _ _ _).trans (performs_assign _ _ _ _)
  unfold CoinbaseReplay.resynchronize
  cases replay.lifecycleConnected with
  | true => simpa using performs_nil replay
  | false =>
    cases hsome : replay.connection.isSome with
    | false => simpa using again replay
    | true => simpa using (performs_assign replay _ _ _).trans (again _)

private theorem resynchronize_health (replay : CoinbaseReplay) (index : Nat) :
    (replay.resynchronize index).feed.health = replay.feed.health := by
  unfold CoinbaseReplay.resynchronize
  split
  · dsimp only
    split <;> simp [assign, mark]
  · rfl

private theorem performs_reconnect (replay : CoinbaseReplay) (e : RawMessage) :
    Performs symbols replay (reconnectDeeds replay.connection replay.lifecycleConnected e)
      (replay.reconnect e) := by
  unfold reconnectDeeds
  split
  · next same =>
    rw [reconnect, if_pos same]
    exact performs_nil replay
  · next differs =>
    apply (performs_resynchronize replay e).trans
    refine (performs_resetSequence _ e.recordIndex).trans ?_
    rw [reconnect_eq replay differs, ← resynchronize_health replay e.recordIndex]
    refine ⟨rfl, ?_⟩
    rw [(watched symbols).changes_quiet rfl, List.append_nil]

private theorem performs_recorded (h : replay.Sums) {e : RawMessage} {feed : Feed}
    {result : ProcessResult}
    (hprocess : replay.feed.process symbols e e.receiveMonotonicTime = (feed, .ok result)) :
    Performs symbols replay [⟨e.recordIndex, .process e⟩] (replay.recorded e feed result) := by
  have hperform : (watched symbols).perform replay.stage ⟨e.recordIndex, .process e⟩ =
      ⟨feed, (replay.results ++ [result]).map .ok⟩ := by
    simp only [watched, CoinbaseReplay.stage, hprocess, List.map_append]
    rfl
  have hreason : (watched symbols).reason replay.stage ⟨e.recordIndex, .process e⟩ =
      replay.recordReason result := by
    simp only [watched, CoinbaseReplay.stage, hprocess]
    rw [← CoinbaseReplay.stage]
    change replay.stage.reasonOf result = _
    rw [Stage.reasonOf, h.stage]
    rfl
  unfold CoinbaseReplay.recorded
  simp only [transition_eq]
  refine ⟨hperform.symm, ?_⟩
  rw [Watched.changes_singleton, hperform, hreason]
  rfl

private theorem Sums.reconnect (h : replay.Sums) (e : RawMessage) : (replay.reconnect e).Sums := by
  by_cases same : replay.connection = some e.connectionId
  · rwa [CoinbaseReplay.reconnect, if_pos same]
  · rw [reconnect_eq replay same]
    unfold CoinbaseReplay.resynchronize
    split
    · dsimp only
      split
      · simp only [assign, transition_eq]
        exact h
      · simp only [assign, transition_eq]
        exact h
    · exact h

private theorem Sums.recorded (h : replay.Sums) (e : RawMessage) (feed : Feed)
    (result : ProcessResult) : (replay.recorded e feed result).Sums := by
  unfold CoinbaseReplay.recorded
  simp only [transition_eq]
  unfold Sums
  rw [List.map_append, List.sum_append]
  dsimp only
  rw [h]
  simp

/-- The loop does what the history asks for. -/
theorem performs_history {history : List (LifecycleEntry ⊕ RawMessage)} (h : replay.Sums)
    (hfold : history.foldlM (loop symbols).item replay = .ok after) :
    Performs symbols replay (deeds replay.connection replay.lifecycleConnected history) after := by
  induction history generalizing replay with
  | nil =>
    cases hfold
    exact performs_nil _
  | cons item history ih =>
    obtain ⟨next, hnext, hrest⟩ := bind_ok hfold
    cases item with
    | inl event =>
      change replay.applyLifecycle event = .ok next at hnext
      unfold applyLifecycle at hnext
      split at hnext
      · cases hnext
      · next state hstate =>
        simp only [deeds, hstate, Option.map_some, Option.getD_some, Option.some.injEq]
        cases hnext
        refine (performs_event replay _ _ _).trans ?_
        have hdone := ih (by simp only [assign, transition_eq]; exact h) hrest
        simp only [assign, transition_eq] at hdone ⊢
        exact ⟨hdone.stage, hdone.transitions⟩
    | inr e =>
      obtain ⟨recorded, hrecorded, hopened⟩ := bind_ok hnext
      cases hopened
      change replay.replayRecord symbols e = .ok recorded at hrecorded
      unfold replayRecord at hrecorded
      dsimp only at hrecorded
      split at hrecorded
      · cases hrecorded
      · next feed result hprocess =>
        cases hrecorded
        have hsums := h.reconnect e
        rw [deeds]
        refine (performs_reconnect replay e).trans ((performs_recorded hsums hprocess).trans ?_)
        have hdone := @ih ((loop symbols).opening ((replay.reconnect e).recorded e feed result))
          (hsums.recorded e feed result) hrest
        have hconnection : ((replay.reconnect e).recorded e feed result).connection =
            some e.connectionId := by
          simp [CoinbaseReplay.recorded, reconnect_connection]
        rw [← hconnection]
        exact ⟨hdone.stage, hdone.transitions⟩

private theorem record_eventDeeds (index : Nat) (state : Option BookState) (reason : Bytes) :
    ((state.map (eventDeeds index · reason)).getD []).filterMap Deed.record = [] := by
  cases state <;> rfl

private theorem record_reconnectDeeds (connection : Option Nat) (announced : Bool)
    (e : RawMessage) : (reconnectDeeds connection announced e).filterMap Deed.record = [] := by
  unfold reconnectDeeds
  split
  · rfl
  · cases announced <;> cases connection <;> rfl

/-- Each record is processed once, in order. -/
theorem record_deeds (connection : Option Nat) (announced : Bool)
    (history : List (LifecycleEntry ⊕ RawMessage)) :
    (deeds connection announced history).filterMap Deed.record = Weave.records history := by
  induction history generalizing connection announced with
  | nil => rfl
  | cons item history ih =>
    cases item with
    | inl event => rw [deeds, List.filterMap_append, record_eventDeeds, List.nil_append, ih]; rfl
    | inr e =>
      rw [deeds, List.filterMap_append, record_reconnectDeeds, List.nil_append]
      exact congrArg (e :: ·) (ih _ _)

private theorem index_eventDeeds (index : Nat) (state : Option BookState) (reason : Bytes) :
    ∀ deed ∈ (state.map (eventDeeds index · reason)).getD [], deed.index = index := by
  cases state with
  | none => exact List.forall_mem_nil _
  | some state => simp [eventDeeds]

private theorem index_reconnectDeeds (connection : Option Nat) (announced : Bool)
    (e : RawMessage) :
    ∀ deed ∈ reconnectDeeds connection announced e, deed.index = e.recordIndex := by
  unfold reconnectDeeds
  split
  · exact List.forall_mem_nil _
  · cases announced <;> cases connection <;> simp

/-- The deeds of a history that starts behind `n` records are in order. -/
theorem inOrder_deeds {n : Nat} {history : List (LifecycleEntry ⊕ RawMessage)}
    (h : (loop symbols).Filed n history) (connection : Option Nat) (announced : Bool) :
    InOrder Deed.index n (n + (Weave.records history).length)
      (deeds connection announced history) := by
  induction history generalizing n connection announced with
  | nil => exact ⟨.nil, List.forall_mem_nil _⟩
  | cons item history ih =>
    cases item with
    | inl event =>
      have hindex : event.beforeRecordIndex = n := h.1
      rw [deeds, hindex]
      exact (InOrder.at_index (Nat.le_refl n) (Nat.le_refl n) (index_eventDeeds n _ _)).append
        (ih h.2 _ _) (Nat.le_refl n) (Nat.le_add_right _ _)
    | inr e =>
      have hindex : e.recordIndex = n := h.1
      have hfront : ∀ deed ∈ reconnectDeeds connection announced e ++ [⟨e.recordIndex, .process e⟩],
          deed.index = n := by
        intro deed hdeed
        rcases List.mem_append.mp hdeed with hdeed | hdeed
        · exact (index_reconnectDeeds _ _ _ deed hdeed).trans hindex
        · rw [List.mem_singleton.mp hdeed]
          exact hindex
      have hrest := ih h.2 (some e.connectionId) false
      rw [Nat.add_right_comm, Nat.add_assoc] at hrest
      rw [deeds, List.append_cons]
      exact (InOrder.at_index (Nat.le_refl n) (Nat.le_succ n) hfront).append hrest
        (Nat.le_succ n) (by rw [Weave.records_inr, List.length_cons]; omega)

/-- Each record of a session is processed once, in order. -/
theorem record_script (status : SessionStatus) (records : List RawMessage)
    (lifecycle : List LifecycleEntry) :
    (script status records lifecycle).filterMap Deed.record = records := by
  rw [script, List.filterMap_append, record_deeds, timeline, Weave.records_woven]
  split
  · exact List.append_nil records
  · exact List.append_nil records

/-- The deeds of a session with numbered records are in order. -/
theorem inOrder_script (status : SessionStatus) {records : List RawMessage}
    (contiguous : Contiguous records) (lifecycle : List LifecycleEntry) :
    InOrder Deed.index 0 records.length (script status records lifecycle) := by
  have hfiled : (loop ⟨[]⟩).Filed 0 (timeline records lifecycle) := by
    apply Weave.filed_woven
    intro k e hk
    rw [Nat.zero_add]
    exact contiguous k e hk
  have h := inOrder_deeds hfiled none false
  rw [timeline, Weave.records_woven, Nat.zero_add] at h
  refine h.append ?_ (Nat.zero_le _) (Nat.le_refl _)
  split
  · exact InOrder.at_index (Nat.le_refl _) (Nat.le_refl _) (by simp [eventDeeds])
  · exact ⟨.nil, List.forall_mem_nil _⟩

/-- Nothing is noted before the first deed. -/
theorem start_transitions (lifecycle : List LifecycleEntry) :
    (start lifecycle).transitions = [] := by
  unfold start
  split <;> rfl

/-! ### Counters -/

/-- The counters of a replay after `n` records, given the connections that it has come to. -/
structure Accounted (n : Nat) (ids : List Nat) (replay : CoinbaseReplay) : Prop where
  count : replay.count = n
  results : replay.results.length = n
  tallied : ∀ result ∈ replay.results, Tallied result
  sums : replay.Sums
  updates : replay.updates = (replay.results.map (·.updates)).sum
  connection : replay.connection = ids.getLast?
  boundaries : replay.boundaries = turns ids

variable {n : Nat} {ids : List Nat}

private theorem Accounted.assign (h : replay.Accounted n ids) (index : Nat) (state : BookState)
    (reason : Bytes) : (replay.assign index state reason).Accounted n ids := by
  rw [CoinbaseReplay.assign, transition_eq]
  exact { h with }

private theorem Accounted.event (h : replay.Accounted n ids) {event : LifecycleEntry}
    (hnext : replay.applyLifecycle event = .ok next) : next.Accounted n ids := by
  unfold applyLifecycle at hnext
  split at hnext
  · cases hnext
  · cases hnext
    exact { h.assign _ _ _ with }

private theorem Accounted.resynchronize (h : replay.Accounted n ids) (index : Nat) :
    (replay.resynchronize index).Accounted n ids := by
  unfold CoinbaseReplay.resynchronize
  split
  · dsimp only
    split
    · exact ((h.assign _ _ _).assign _ _ _).assign _ _ _
    · exact (h.assign _ _ _).assign _ _ _
  · exact h

/-- A connection is counted when the replay comes to it from another one. -/
private theorem Accounted.reconnect (h : replay.Accounted n ids) (e : RawMessage) :
    (replay.reconnect e).Accounted n (ids ++ [e.connectionId]) := by
  by_cases same : replay.connection = some e.connectionId
  · rw [CoinbaseReplay.reconnect, if_pos same]
    refine { h with connection := same.trans List.getLast?_concat.symm, boundaries := ?_ }
    rw [turns_concat, h.boundaries, ← h.connection, same]
    simp
  · rw [reconnect_eq replay same]
    refine { h.resynchronize e.recordIndex with
      connection := List.getLast?_concat.symm, boundaries := ?_ }
    rw [turns_concat, h.boundaries, h.connection]

private theorem Accounted.recorded (h : replay.Accounted n ids) (e : RawMessage) (feed : Feed)
    {result : ProcessResult} (tallied : Tallied result) :
    (replay.recorded e feed result).Accounted (n + 1) ids := by
  have hsums := h.sums.recorded e feed result
  unfold CoinbaseReplay.recorded at hsums ⊢
  simp only [transition_eq] at hsums ⊢
  refine { h with
    count := congrArg (· + 1) h.count
    results := ?_
    tallied := ?_
    sums := hsums
    updates := ?_ }
  · rw [List.length_append, h.results]
    rfl
  · intro other hother
    rcases List.mem_append.mp hother with hother | hother
    · exact h.tallied other hother
    · rw [List.mem_singleton.mp hother]
      exact tallied
  · rw [List.map_append, List.sum_append, ← h.updates]
    simp

private theorem Accounted.record (h : replay.Accounted n ids) {e : RawMessage}
    (hnext : replay.replayRecord symbols e = .ok next) :
    next.Accounted (n + 1) (ids ++ [e.connectionId]) := by
  unfold replayRecord at hnext
  dsimp only at hnext
  split at hnext
  · cases hnext
  · next hprocess =>
    cases hnext
    exact (h.reconnect e).recorded e _ (process_tallied (congrArg Prod.snd hprocess))

private theorem accounted_start (lifecycle : List LifecycleEntry) :
    (start lifecycle).Accounted 0 [] := by
  unfold start
  split <;> exact ⟨rfl, rfl, List.forall_mem_nil _, rfl, rfl, rfl, rfl⟩

/-- The loop has counted the records that it has read. -/
private theorem accounted_run {records : List RawMessage} {lifecycle left : List LifecycleEntry}
    (contiguous : Contiguous records)
    (h : (loop symbols).run 0 (start lifecycle) records lifecycle = .ok (replay, left)) :
    replay.Accounted records.length (records.map (·.connectionId)) := by
  let tracks : List RawMessage → CoinbaseReplay → Prop := fun read replay ↦
    replay.Accounted read.length (read.map (·.connectionId))
  have keeps : ∀ read replay e next, tracks read replay →
      (loop symbols).index read.length e = read.length →
      replay.replayRecord symbols e = .ok next → tracks (read ++ [e]) next := by
    intro read replay e next accounted _ hnext
    dsimp only [tracks]
    rw [List.length_append, List.map_append]
    exact accounted.record hnext
  exact Weave.run_invariant (I := tracks) (J := tracks) (fun _ _ accounted ↦ { accounted with })
    (fun _ _ _ _ accounted _ hnext ↦ accounted.event hnext) keeps contiguous h
    (accounted_start lifecycle)

end CoinbaseReplay

/-- A replay of numbered records does what the session asks for, and counts its records. -/
theorem replayCoinbase_performs {symbols : CoinbaseSymbolMapper} {status : SessionStatus}
    {records : List RawMessage} {lifecycle : List LifecycleEntry} {replay : CoinbaseReplay}
    (contiguous : Contiguous records)
    (h : replayCoinbase symbols status records lifecycle = .ok replay) :
    CoinbaseReplay.Performs symbols (.start lifecycle)
      (CoinbaseReplay.script status records lifecycle) replay ∧
    replay.Accounted records.length (records.map (·.connectionId)) := by
  unfold replayCoinbase at h
  obtain ⟨⟨⟩, hvalid, h⟩ := bind_ok h
  obtain ⟨⟨last, remaining⟩, hrun, hfinish⟩ := bind_ok h
  have accounted := CoinbaseReplay.accounted_run contiguous hrun
  have performs : CoinbaseReplay.Performs symbols (.start lifecycle)
      (CoinbaseReplay.deeds none false (timeline records lifecycle)) last := by
    have hfold := foldlM_timeline (CoinbaseReplay.loop symbols) rfl contiguous
      (validateLifecycle_ok hvalid).1 hrun
    have started := CoinbaseReplay.accounted_start lifecycle
    have sums : ((CoinbaseReplay.loop symbols).opening (.start lifecycle)).Sums := started.sums
    have performs := CoinbaseReplay.performs_history sums hfold
    rw [show ((CoinbaseReplay.loop symbols).opening (.start lifecycle)).connection = none from
      started.connection] at performs
    exact ⟨performs.stage, performs.transitions⟩
  change CoinbaseReplay.finish status last remaining = .ok replay at hfinish
  unfold CoinbaseReplay.finish at hfinish
  unfold CoinbaseReplay.script
  split at hfinish
  · cases hfinish
  · split at hfinish
    · next failed =>
      cases hfinish
      rw [if_pos failed]
      refine ⟨performs.trans ?_, { accounted.assign _ _ _ with }⟩
      rw [← accounted.count]
      exact CoinbaseReplay.performs_event ..
    · next failed =>
      cases hfinish
      rw [if_neg failed, List.append_nil]
      exact ⟨performs, accounted⟩

end ArbitrageEngine.Sessions
