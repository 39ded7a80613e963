import ArbitrageEngine.Kraken.Metrics
import ArbitrageEngine.Session.ReplayTrail

/-!
# What a Kraken session asks for

`src/session/session.cpp:353–405`: the calls of the processor in the Kraken branch of `replay`, as
the records and the lifecycle events of a session determine them. The loop makes these calls; what
it has kept are the outcomes and the state changes along them.
-/

namespace ArbitrageEngine.Sessions

open Base ArbitrageEngine.Core Kraken Recording

namespace KrakenReplay

/-- A call of the processor, with the index and the reason under which a change of state is noted;
a message gives its outcome as the reason. -/
structure Deed where
  index : Nat
  call : Call
  reason : Option Bytes

/-- The call for a lifecycle event (`src/session/session.cpp:372–377`). -/
def lifecycleCall (state : Bytes) : Call :=
  if state = ascii "STALE" then .stale
  else if state = ascii "INVALID" then .invalidate
  else .disconnect

/-- The call for a record (`src/session/session.cpp:394`). -/
def recordCall (e : RawMessage) : Call :=
  .process e.payload e.receiveWallTime e.receiveMonotonicTime

/-- What a record asks for before it is processed (`src/session/session.cpp:386–392`). -/
def reconnectDeeds (connection : Option Nat) (count : Nat) (e : RawMessage) : List Deed :=
  if connection.all (· = e.connectionId) then []
  else [⟨count, .resetConnection, some (ascii "new_connection")⟩]

/-- What a history asks for, behind `count` records the last of which is of `connection`. -/
def deeds (connection : Option Nat) (count : Nat) :
    List (LifecycleEntry ⊕ RawMessage) → List Deed
  | [] => []
  | .inl event :: history =>
    ⟨count, lifecycleCall event.state, some event.reason⟩ :: deeds connection count history
  | .inr e :: history =>
    reconnectDeeds connection count e ++
      ⟨count, recordCall e, none⟩ :: deeds (some e.connectionId) (count + 1) history

/-- What a session asks for. -/
def script (records : List RawMessage) (lifecycle : List LifecycleEntry) : List Deed :=
  deeds none 0 (timeline records lifecycle)

/-- The calls that a session asks for. -/
def calls (records : List RawMessage) (lifecycle : List LifecycleEntry) : List Call :=
  (script records lifecycle).map Deed.call

/-- The processor of a session under its deeds. -/
def watched (crc : Bytes → UInt32) : Watched KrakenBookProcessor Deed where
  perform processor deed := (processor.call crc deed.call).1
  state processor := processor.book.state
  index := Deed.index
  reason processor deed := deed.reason.getD (processor.call crc deed.call).1.outcomeText

/-- The run of the processor over the calls. -/
theorem run_watched (crc : Bytes → UInt32) (processor : KrakenBookProcessor) (done : List Deed) :
    (watched crc).run processor done = processor.run crc (done.map Deed.call) := by
  rw [KrakenBookProcessor.run, List.foldl_map]
  rfl

/-- The replay has gone on by doing these deeds. -/
structure Performs (crc : Bytes → UInt32) (replay : KrakenReplay) (done : List Deed)
    (next : KrakenReplay) : Prop where
  processor : next.processor = (watched crc).run replay.processor done
  transitions : next.transitions =
    replay.transitions ++ (watched crc).changes replay.processor done
  outcomes : next.outcomes =
    replay.outcomes ++ (replay.processor.outcomes crc (done.map Deed.call)).map some

variable {crc : Bytes → UInt32} {replay next after : KrakenReplay}

private theorem Performs.trans {done rest : List Deed} (h : Performs crc replay done next)
    (hrest : Performs crc next rest after) : Performs crc replay (done ++ rest) after := by
  refine ⟨?_, ?_, ?_⟩
  · rw [hrest.processor, h.processor, Watched.run_append]
  · rw [hrest.transitions, h.transitions, h.processor, Watched.changes_append, List.append_assoc]
  · rw [hrest.outcomes, h.outcomes, h.processor, run_watched, List.map_append,
      KrakenBookProcessor.outcomes_append, List.map_append, List.append_assoc]

private theorem performs_nil (replay : KrakenReplay) : Performs crc replay [] replay :=
  ⟨rfl, (List.append_nil _).symm, (List.append_nil _).symm⟩

/-- `assign` adds the note of its change. -/
theorem assign_eq (replay : KrakenReplay) (processor : KrakenBookProcessor)
    (reason : Bytes) :
    replay.assign processor reason =
      { replay with
        processor
        transitions := replay.transitions ++ noted replay.count replay.processor.book.state
          processor.book.state reason } := by
  unfold assign transition noted
  split
  · rw [List.append_nil]
  · rfl

variable (crc) in
/-- A call without an outcome. -/
private theorem performs_assign (replay : KrakenReplay) (call : Call)
    (hcall : call.hasOutcome = false) (reason : Bytes) :
    Performs crc replay [⟨replay.count, call, some reason⟩]
      (replay.assign (replay.processor.call crc call).1 reason) := by
  rw [assign_eq]
  refine ⟨rfl, ?_, ?_⟩
  · rw [Watched.changes_singleton]
    rfl
  · simp [KrakenBookProcessor.outcomes, hcall]

variable (crc) in
private theorem applyState_eq (processor : KrakenBookProcessor) (state : Bytes) :
    applyState processor state = (processor.call crc (lifecycleCall state)).1 := by
  unfold applyState lifecycleCall
  split
  · rfl
  · split <;> rfl

variable (crc) in
private theorem performs_event (replay : KrakenReplay) (event : LifecycleEntry) :
    Performs crc replay [⟨replay.count, lifecycleCall event.state, some event.reason⟩]
      (replay.assign (applyState replay.processor event.state) event.reason) := by
  rw [applyState_eq crc]
  refine performs_assign crc replay _ ?_ _
  unfold lifecycleCall
  split
  · rfl
  · split <;> rfl

private theorem performs_reconnect (replay : KrakenReplay) (e : RawMessage) :
    Performs crc replay (reconnectDeeds replay.connection replay.count e) (replay.reconnect e) := by
  unfold reconnectDeeds KrakenReplay.reconnect
  cases hconnection : replay.connection with
  | none =>
    rw [if_pos (by rfl), if_neg nofun]
    simp only [assign_eq]
    refine ⟨rfl, ?_, (List.append_nil _).symm⟩
    simp [noted, Watched.changes]
  | some id =>
    by_cases same : id = e.connectionId
    · rw [if_pos (by simpa using same), if_pos (congrArg some same)]
      exact performs_nil replay
    · rw [if_neg (by simpa using same), if_neg fun h ↦ same (Option.some.inj h)]
      obtain ⟨processor, transitions, outcomes⟩ := performs_assign crc replay
        .resetConnection rfl (ascii "new_connection")
      exact ⟨processor, transitions, outcomes⟩

variable (crc) in
private theorem performs_recorded (replay : KrakenReplay) (e : RawMessage) :
    Performs crc replay [⟨replay.count, recordCall e, none⟩] (replay.recorded crc e) := by
  obtain ⟨outcome, houtcome⟩ := KrakenBookProcessor.outcome_process crc replay.processor
    e.payload e.receiveWallTime e.receiveMonotonicTime
  unfold KrakenReplay.recorded
  simp only [assign_eq]
  refine ⟨rfl, ?_, ?_⟩
  · rw [Watched.changes_singleton]
    rfl
  · simp only [KrakenBookProcessor.outcomes, List.map_cons, List.map_nil, recordCall,
      KrakenBookProcessor.call, Call.hasOutcome, houtcome]
    rfl

private theorem reconnect_count (replay : KrakenReplay) (e : RawMessage) :
    (replay.reconnect e).count = replay.count := by
  unfold KrakenReplay.reconnect
  split
  · rfl
  · simp only [assign_eq]

private theorem recorded_count (replay : KrakenReplay) (e : RawMessage) :
    (replay.recorded crc e).count = replay.count + 1 := by
  unfold KrakenReplay.recorded
  simp only [assign_eq]

/-- The loop does what the history asks for. -/
theorem performs_history {history : List (LifecycleEntry ⊕ RawMessage)}
    (hfold : history.foldlM (loop crc).item replay = .ok after) :
    Performs crc replay (deeds replay.connection replay.count history) after ∧
      after.count = replay.count + (Weave.records history).length := by
  induction history generalizing replay with
  | nil =>
    cases hfold
    exact ⟨performs_nil _, rfl⟩
  | cons item history ih =>
    obtain ⟨next, hnext, hrest⟩ := bind_ok hfold
    obtain ⟨performs, hcount⟩ := ih hrest
    cases item with
    | inl event =>
      cases hnext
      have hevent := performs_event crc replay event
      rw [assign_eq] at performs hcount hevent
      exact ⟨hevent.trans performs, hcount⟩
    | inr e =>
      obtain ⟨recorded, hrecorded, hopened⟩ := bind_ok hnext
      cases hopened
      change replay.replayRecord crc e = .ok recorded at hrecorded
      unfold replayRecord at hrecorded
      split at hrecorded
      · cases hrecorded
      · cases hrecorded
        change Performs crc ((replay.reconnect e).recorded crc e) (deeds
          ((replay.reconnect e).recorded crc e).connection
          ((replay.reconnect e).recorded crc e).count history) after at performs
        change after.count = ((replay.reconnect e).recorded crc e).count + _ at hcount
        rw [recorded_connection, reconnect_connection, recorded_count, reconnect_count] at performs
        rw [recorded_count, reconnect_count] at hcount
        have hrecorded := performs_recorded crc (replay.reconnect e) e
        rw [reconnect_count] at hrecorded
        refine ⟨(performs_reconnect replay e).trans (hrecorded.trans performs), ?_⟩
        rw [hcount, Weave.records_inr, List.length_cons]
        omega

/-- The message of a call. -/
def message : Call → Option (Bytes × ReceiveWallTimestamp × ReceiveMonotonicTimestamp)
  | .process raw wall mono => some (raw, wall, mono)
  | _ => none

private theorem message_deeds (connection : Option Nat) (count : Nat)
    (history : List (LifecycleEntry ⊕ RawMessage)) :
    ((deeds connection count history).map Deed.call).filterMap message =
      (Weave.records history).map fun e ↦
        (e.payload, e.receiveWallTime, e.receiveMonotonicTime) := by
  induction history generalizing connection count with
  | nil => rfl
  | cons item history ih =>
    cases item with
    | inl event =>
      have hquiet : message (lifecycleCall event.state) = none := by
        unfold lifecycleCall
        split
        · rfl
        · split <;> rfl
      rw [deeds, List.map_cons, List.filterMap_cons_none hquiet, ih]
      rfl
    | inr e =>
      have hquiet : ((reconnectDeeds connection count e).map Deed.call).filterMap message = [] := by
        unfold reconnectDeeds
        split <;> rfl
      rw [deeds, List.map_append, List.filterMap_append, hquiet]
      exact congrArg (_ :: ·) (ih _ _)

private theorem count_deeds (connection : Option Nat) (count : Nat)
    (history : List (LifecycleEntry ⊕ RawMessage)) :
    ((deeds connection count history).map Deed.call).count .resetConnection =
      turns (connection.toList ++ (Weave.records history).map (·.connectionId)) := by
  induction history generalizing connection count with
  | nil => cases connection <;> rfl
  | cons item history ih =>
    cases item with
    | inl event =>
      have hquiet : lifecycleCall event.state ≠ .resetConnection := by
        unfold lifecycleCall
        split
        · nofun
        · split <;> nofun
      rw [deeds, List.map_cons, List.count_cons_of_ne hquiet, ih]
      rfl
    | inr e =>
      rw [deeds, List.map_append, List.count_append, List.map_cons,
        List.count_cons_of_ne (by nofun), ih]
      cases connection with
      | none => exact Nat.zero_add _
      | some id =>
        unfold reconnectDeeds
        by_cases same : id = e.connectionId
        · simp [turns, same]
        · simp [turns, same]

/-- The calls are messages, resets and marks. -/
private theorem hasOutcome_deeds (connection : Option Nat) (count : Nat)
    (history : List (LifecycleEntry ⊕ RawMessage)) :
    ∀ call ∈ (deeds connection count history).map Deed.call,
      call.hasOutcome = (message call).isSome ∧ call.isProcess = (message call).isSome ∧
        call.time = (message call).map (·.2.2) := by
  induction history generalizing connection count with
  | nil => exact List.forall_mem_nil _
  | cons item history ih =>
    cases item with
    | inl event =>
      refine List.forall_mem_cons.mpr ⟨?_, ih _ _⟩
      dsimp only
      unfold lifecycleCall
      split
      · exact ⟨rfl, rfl, rfl⟩
      · split <;> exact ⟨rfl, rfl, rfl⟩
    | inr e =>
      rw [deeds, List.map_append, List.forall_mem_append]
      refine ⟨?_, List.forall_mem_cons.mpr ⟨⟨rfl, rfl, rfl⟩, ih _ _⟩⟩
      unfold reconnectDeeds
      split
      · exact List.forall_mem_nil _
      · exact List.forall_mem_cons.mpr ⟨⟨rfl, rfl, rfl⟩, List.forall_mem_nil _⟩

/-- Each record is processed once, in order. -/
theorem message_calls (records : List RawMessage) (lifecycle : List LifecycleEntry) :
    (calls records lifecycle).filterMap message =
      records.map fun e ↦ (e.payload, e.receiveWallTime, e.receiveMonotonicTime) := by
  rw [calls, script, message_deeds, timeline, Weave.records_woven]

private theorem hasOutcome_calls (records : List RawMessage) (lifecycle : List LifecycleEntry) :
    ∀ call ∈ calls records lifecycle,
      call.hasOutcome = (message call).isSome ∧ call.isProcess = (message call).isSome ∧
        call.time = (message call).map (·.2.2) := hasOutcome_deeds none 0 _

private theorem countP_message_calls (records : List RawMessage)
    (lifecycle : List LifecycleEntry) :
    (calls records lifecycle).countP (message · |>.isSome) = records.length := by
  rw [← List.length_filterMap_eq_countP, message_calls, List.length_map]

/-- Every record is a message. -/
theorem countP_isProcess_calls (records : List RawMessage) (lifecycle : List LifecycleEntry) :
    (calls records lifecycle).countP Call.isProcess = records.length := by
  rw [← countP_message_calls records lifecycle]
  apply List.countP_congr
  intro call hcall
  rw [(hasOutcome_calls records lifecycle call hcall).2.1]

/-- Every record has an outcome. -/
theorem length_outcomes_calls (crc : Bytes → UInt32) (processor : KrakenBookProcessor)
    (records : List RawMessage) (lifecycle : List LifecycleEntry) :
    (processor.outcomes crc (calls records lifecycle)).length = records.length := by
  rw [KrakenBookProcessor.length_outcomes, ← countP_message_calls records lifecycle]
  apply List.countP_congr
  intro call hcall
  rw [(hasOutcome_calls records lifecycle call hcall).1]

/-- The clock is read from the records. -/
theorem time_calls (records : List RawMessage) (lifecycle : List LifecycleEntry) :
    (calls records lifecycle).filterMap Call.time = records.map (·.receiveMonotonicTime) := by
  have htime : (calls records lifecycle).filterMap Call.time =
      ((calls records lifecycle).filterMap message).map (·.2.2) := by
    rw [List.map_filterMap]
    apply List.filterMap_congr
    exact fun call hcall ↦ (hasOutcome_calls records lifecycle call hcall).2.2
  rw [htime, message_calls, List.map_map]
  rfl

/-- The processor is reset whenever the connection changes. -/
theorem count_calls (records : List RawMessage) (lifecycle : List LifecycleEntry) :
    (calls records lifecycle).count .resetConnection = turns (records.map (·.connectionId)) := by
  rw [calls, script, count_deeds, timeline, Weave.records_woven]
  rfl

private theorem inOrder_deeds (connection : Option Nat) (count : Nat)
    (history : List (LifecycleEntry ⊕ RawMessage)) :
    InOrder Deed.index count (count + (Weave.records history).length)
      (deeds connection count history) := by
  induction history generalizing connection count with
  | nil => exact ⟨.nil, List.forall_mem_nil _⟩
  | cons item history ih =>
    cases item with
    | inl event =>
      have hfront : ∀ deed ∈ [(⟨count, lifecycleCall event.state, some event.reason⟩ : Deed)],
          deed.index = count := by simp
      exact (InOrder.at_index (Nat.le_refl count) (Nat.le_refl count) hfront).append (ih _ _)
        (Nat.le_refl count) (Nat.le_add_right _ _)
    | inr e =>
      have hfront : ∀ deed ∈ reconnectDeeds connection count e ++ [⟨count, recordCall e, none⟩],
          deed.index = count := by
        unfold reconnectDeeds
        split <;> simp
      have hrest := ih (some e.connectionId) (count + 1)
      rw [Nat.add_right_comm, Nat.add_assoc] at hrest
      rw [deeds, List.append_cons]
      exact (InOrder.at_index (Nat.le_refl count) (Nat.le_succ count) hfront).append hrest
        (Nat.le_succ count) (by rw [Weave.records_inr, List.length_cons]; omega)

/-- The deeds of a session are in order. -/
theorem inOrder_script (records : List RawMessage) (lifecycle : List LifecycleEntry) :
    InOrder Deed.index 0 records.length (script records lifecycle) := by
  have h := inOrder_deeds none 0 (timeline records lifecycle)
  rwa [timeline, Weave.records_woven, Nat.zero_add] at h

end KrakenReplay

/-- What the end of the branch makes of a replay: the book of a session that ended badly is
invalidated without a note. -/
def KrakenReplay.closed (status : SessionStatus) (replay : KrakenReplay) : KrakenReplay :=
  if status ≠ .complete ∧ status ≠ .inProgress then
    { replay with processor := replay.processor.invalidate }
  else replay

/-- The end of a failed session invalidates the book and changes nothing else. -/
theorem KrakenReplay.closed_same (status : SessionStatus) (replay : KrakenReplay) :
    (closed status replay).count = replay.count ∧
    (closed status replay).outcomes = replay.outcomes ∧
    (closed status replay).transitions = replay.transitions ∧
    (closed status replay).processor.metrics = replay.processor.metrics ∧
    (closed status replay).processor.book.state =
      if status ≠ .complete ∧ status ≠ .inProgress then .invalid
      else replay.processor.book.state := by
  unfold closed
  split <;> exact ⟨rfl, rfl, rfl, rfl, rfl⟩

/-- What `finish` returns is the closed replay. -/
theorem KrakenReplay.finish_ok {status : SessionStatus} {replay after : KrakenReplay}
    {remaining : List LifecycleEntry} (h : finish status replay remaining = .ok after) :
    after = closed status replay := by
  unfold finish at h
  unfold closed
  split at h
  · cases h
  · split at h
    · next ended =>
      cases h
      rw [if_pos ended]
    · next ended =>
      cases h
      rw [if_neg ended]

/-- A replay does what the session asks for, up to its end. -/
theorem replayKraken_performs {crc : Bytes → UInt32} {depth : Nat} {status : SessionStatus}
    {records : List RawMessage} {lifecycle : List LifecycleEntry} {replay : KrakenReplay}
    (h : replayKraken crc depth status records lifecycle = .ok replay) :
    ∃ processor before, KrakenBookProcessor.create depth = .ok processor ∧
      replay = KrakenReplay.closed status before ∧ before.count = records.length ∧
      KrakenReplay.Performs crc (.initial processor) (KrakenReplay.script records lifecycle)
        before := by
  unfold replayKraken at h
  obtain ⟨⟨⟩, hvalid, h⟩ := bind_ok h
  obtain ⟨processor, hprocessor, h⟩ := bind_ok h
  obtain ⟨⟨last, remaining⟩, hrun, hfinish⟩ := bind_ok h
  have hfold := foldlM_timeline (KrakenReplay.loop crc) rfl (fun _ _ _ ↦ rfl)
    (validateLifecycle_ok hvalid).1 hrun
  obtain ⟨performs, hcount⟩ := KrakenReplay.performs_history hfold
  refine ⟨processor, last, hprocessor, KrakenReplay.finish_ok hfinish, ?_, performs⟩
  rw [hcount, timeline, Weave.records_woven]
  exact Nat.zero_add _

end ArbitrageEngine.Sessions
