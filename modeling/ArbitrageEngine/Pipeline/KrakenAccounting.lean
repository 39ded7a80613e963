import ArbitrageEngine.Pipeline.Accounting
import ArbitrageEngine.Pipeline.Programs
import ArbitrageEngine.Session.KrakenAgreement

/-!
# The books of `run_kraken`

What the market thread has pushed and counted: an envelope that the queue accepts is processed in
the same action, and the first one that it rejects stops the thread.
-/

namespace ArbitrageEngine.Pipeline

open Base ArbitrageEngine.Core Coinbase Kraken Recording Sessions

/-! ### Effects without an envelope -/

/-- The effect counts nothing; an event is filed under `index` and its state has a known name. -/
def KrakenEffect.Silent (index : Nat) : KrakenEffect → Prop
  | lifecycle event => event.beforeRecordIndex = index ∧ event.state ≠ .valid
  | pushed _ _ | received _ _ | processed _ => False
  | connect _ | abort | schedule _ | cancelRetry | closeQueue => True

namespace KrakenSession

/-- The market thread's fields of the status after these effects. -/
def ledger (s : KrakenSession) : Ledger :=
  (s.trace.filterMap krakenOp).foldl Op.enter ({} : RuntimeStatus).ledger

/-- The session goes on without an envelope. -/
structure Continues (s s' : KrakenSession) : Prop where
  index : s'.index = s.index
  running : s'.stopping = false → s.stopping = false
  silent : ∃ effects, s'.trace = s.trace ++ effects ∧ ∀ effect ∈ effects, effect.Silent s.index

private theorem Continues.of_trace {s s' : KrakenSession} (hi : s'.index = s.index)
    (hs : s'.stopping = s.stopping) (ht : s'.trace = s.trace) : Continues s s' :=
  ⟨hi, fun h ↦ hs ▸ h, [], by rw [ht, List.append_nil], List.forall_mem_nil _⟩

private theorem Continues.refl (s : KrakenSession) : Continues s s := .of_trace rfl rfl rfl

private theorem Continues.trans {a b c : KrakenSession} (h : Continues a b) (h' : Continues b c) :
    Continues a c := by
  obtain ⟨effects, ht, hsilent⟩ := h.silent
  obtain ⟨effects', ht', hsilent'⟩ := h'.silent
  rw [h.index] at hsilent'
  refine ⟨h'.index.trans h.index, h.running ∘ h'.running, effects ++ effects', ?_, ?_⟩
  · rw [ht', ht, List.append_assoc]
  · exact List.forall_mem_append.mpr ⟨hsilent, hsilent'⟩

private theorem continues_connecting (s : KrakenSession) : Continues s s.connecting :=
  ⟨rfl, id, _, rfl, by simp [KrakenEffect.Silent]⟩

private theorem continues_stopped (s : KrakenSession) : Continues s s.stopped :=
  ⟨rfl, nofun, _, rfl, by simp [KrakenEffect.Silent]⟩

private theorem continues_recovering (s : KrakenSession) (reason : Bytes)
    {state : BookState} (delay : Nat) (h : state = .disconnected ∨ state = .stale) :
    Continues s (s.recovering reason state delay) := by
  have hne : state ≠ .valid := by
    rcases h with rfl | rfl <;> nofun
  exact ⟨rfl, id, _, rfl, by simp [KrakenEffect.Silent, hne]⟩

/-! ### What has been counted -/

private theorem ledger_append {s s' : KrakenSession} {effects : List KrakenEffect}
    (h : s'.trace = s.trace ++ effects) :
    s'.ledger = (effects.filterMap krakenOp).foldl Op.enter s.ledger := by
  rw [ledger, h, List.filterMap_append, List.foldl_append]
  rfl

/-- Silent effects leave the counters alone. -/
theorem counters_foldl {index : Nat} {effects : List KrakenEffect}
    (h : ∀ effect ∈ effects, effect.Silent index) (entries : Ledger) :
    ((effects.filterMap krakenOp).foldl Op.enter entries).counters = entries.counters := by
  induction effects generalizing entries with
  | nil => rfl
  | cons effect rest ih =>
    have hrest := ih (List.forall_mem_of_forall_mem_cons h)
    have heffect := h effect List.mem_cons_self
    cases effect with
    | lifecycle event => exact hrest (Op.enter entries (.lifecycle event))
    | pushed | received | processed => exact heffect.elim
    | closeQueue => exact hrest (Op.enter entries .closeQueue)
    | connect | abort | schedule | cancelRetry => exact hrest entries

/-- Silent effects record events only, each where it belongs. -/
theorem recording_silent {index : Nat} {effects : List KrakenEffect}
    (h : ∀ effect ∈ effects, effect.Silent index) (crc : Bytes → UInt32) :
    Weave.records (effects.filterMap KrakenEffect.recording) = [] ∧
      (KrakenReplay.loop crc).Filed index (effects.filterMap KrakenEffect.recording) ∧
      ∀ event ∈ Weave.events (effects.filterMap KrakenEffect.recording),
        event.state ∈ lifecycleStates := by
  induction effects with
  | nil => exact ⟨rfl, trivial, List.forall_mem_nil _⟩
  | cons effect rest ih =>
    have hrest := ih (List.forall_mem_of_forall_mem_cons h)
    have heffect := h effect List.mem_cons_self
    cases effect with
    | lifecycle event =>
      refine ⟨hrest.1, ⟨heffect.1, hrest.2.1⟩, ?_⟩
      exact List.forall_mem_cons.mpr ⟨bookName_mem heffect.2, hrest.2.2⟩
    | pushed | received | processed => exact heffect.elim
    | closeQueue | connect | abort | schedule | cancelRetry => exact hrest

/-- The counters of the session agree with its envelopes, and its events are in order. -/
structure Tallied (s : KrakenSession) : Prop where
  tallies : s.ledger.Tallies s.ledger.receivedMessages s.recordedEnvelopes.length
  count : s.recordedEnvelopes.length = s.index
  running : s.stopping = false → s.ledger.receivedMessages = s.index
  venues : ∀ envelope ∈ s.recordedEnvelopes, envelope.venue = .kraken
  filed : (KrakenReplay.loop fun _ ↦ 0).Filed 0 s.history
  named : ∀ event ∈ s.recordedLifecycle, event.state ∈ lifecycleStates

private theorem Continues.envelopes {s s' : KrakenSession} (h : Continues s s') :
    s'.recordedEnvelopes = s.recordedEnvelopes := by
  obtain ⟨effects, ht, hsilent⟩ := h.silent
  rw [recordedEnvelopes, history_of_trace effects ht, Weave.records_append,
    (recording_silent hsilent fun _ ↦ 0).1]
  exact List.append_nil _

private theorem Continues.counters {s s' : KrakenSession} (h : Continues s s') :
    s'.ledger.counters = s.ledger.counters := by
  obtain ⟨effects, ht, hsilent⟩ := h.silent
  rw [ledger_append ht]
  exact counters_foldl hsilent s.ledger

private theorem Continues.received {s s' : KrakenSession} (h : Continues s s') :
    s'.ledger.receivedMessages = s.ledger.receivedMessages := by
  have hcounted := congrArg Ledger.receivedMessages h.counters
  exact hcounted

private theorem Tallied.continues {s s' : KrakenSession} (h : s.Tallied) (hc : Continues s s') :
    s'.Tallied := by
  obtain ⟨effects, ht, hsilent⟩ := hc.silent
  obtain ⟨-, hfiled, hnamed⟩ := recording_silent hsilent fun _ ↦ 0
  have hhistory := history_of_trace effects ht
  refine ⟨?_, ?_, ?_, ?_, ?_, ?_⟩
  · rw [hc.received, hc.envelopes]
    exact h.tallies.of_counters hc.counters.symm
  · rw [hc.envelopes, hc.index]
    exact h.count
  · rw [hc.received, hc.index]
    exact h.running ∘ hc.running
  · rw [hc.envelopes]
    exact h.venues
  · rw [hhistory, Weave.filed_append, Nat.zero_add]
    refine ⟨h.filed, ?_⟩
    rw [show (Weave.records s.history).length = s.index from h.count]
    exact hfiled
  · rw [recordedLifecycle, hhistory, Weave.events_append]
    exact List.forall_mem_append.mpr ⟨h.named, hnamed⟩

/-! ### Envelopes -/

private theorem delivered_trace (crc : Bytes → UInt32) (s : KrakenSession) (e : RawMessage) :
    (s.delivered crc e).trace =
      s.trace ++ [KrakenEffect.pushed e .accepted, KrakenEffect.received s.index .accepted,
        KrakenEffect.processed s.index] := by
  change (KrakenMarket.opened _).trace ++ [KrakenEffect.processed (KrakenMarket.opened _).index] = _
  rw [opened_trace, opened_index]
  simp [KrakenMarket.pushed]

private theorem delivered_index (crc : Bytes → UInt32) (s : KrakenSession) (e : RawMessage) :
    (s.delivered crc e).index = s.index + 1 :=
  congrArg (· + 1) (opened_index (KrakenMarket.pushed s e .accepted))

private theorem envelopes_delivered (crc : Bytes → UInt32) (s : KrakenSession) (e : RawMessage) :
    (s.delivered crc e).recordedEnvelopes = s.recordedEnvelopes ++ [e] := by
  rw [recordedEnvelopes, history_delivered, Weave.records_append]
  rfl

private theorem ledger_delivered (crc : Bytes → UInt32) (s : KrakenSession) (e : RawMessage) :
    (s.delivered crc e).ledger =
      Op.enter (Op.enter s.ledger (.received s.index .accepted)) (.processed s.index) :=
  ledger_append (delivered_trace crc s e)

private theorem Tallied.delivered {s : KrakenSession} (h : s.Tallied) (crc : Bytes → UInt32)
    {e : RawMessage} (hr : s.stopping = false) (hv : e.venue = .kraken) :
    (s.delivered crc e).Tallied := by
  have hreceived := h.running hr
  have hcount := h.count
  have hlength : (s.recordedEnvelopes ++ [e]).length = s.index + 1 := by
    rw [List.length_append, hcount, List.length_singleton]
  have hhistory := history_delivered crc s e
  have hlast : some s.index = lastOf (s.index + 1) := (lastOf_succ _).symm
  refine ⟨?_, ?_, ?_, ?_, ?_, ?_⟩
  · rw [envelopes_delivered, hlength, ledger_delivered]
    refine ⟨rfl, ?_, ?_, hlast, ?_, hlast⟩
    · change some s.index = lastOf (s.ledger.receivedMessages + 1)
      rw [hreceived, hlast]
    · exact congrArg (· + 1) (h.tallies.enqueued.trans hcount)
    · exact congrArg (· + 1) (h.tallies.processed.trans hcount)
  · rw [envelopes_delivered, hlength, delivered_index]
  · rw [ledger_delivered, delivered_index]
    exact fun _ ↦ congrArg (· + 1) hreceived
  · rw [envelopes_delivered]
    refine List.forall_mem_append.mpr ⟨h.venues, ?_⟩
    simpa using hv
  · rw [hhistory, Weave.filed_append]
    exact ⟨h.filed, rfl, trivial⟩
  · rw [recordedLifecycle, hhistory, Weave.events_append]
    exact (List.append_nil (Weave.events s.history)).symm ▸ h.named

/-- The session after a message that the queue rejected. -/
def refused (s : KrakenSession) (e : RawMessage) (result : PushResult) : KrakenSession :=
  (KrakenMarket.pushed s e result).invalidated.stopped

/-- A refused envelope is pushed and noted, and then the thread shuts down. -/
theorem refused_trace (s : KrakenSession) (e : RawMessage) (result : PushResult) :
    (s.refused e result).trace = s.trace ++
      [KrakenEffect.pushed e result, KrakenEffect.received s.index result, KrakenEffect.abort,
        KrakenEffect.cancelRetry, KrakenEffect.closeQueue] := by
  simp [refused, stopped, invalidated, KrakenMarket.pushed]

private theorem history_refused (s : KrakenSession) (e : RawMessage) {result : PushResult}
    (h : result ≠ .accepted) : (s.refused e result).history = s.history := by
  rw [history_of_trace _ (refused_trace s e result)]
  cases result with
  | accepted => exact absurd rfl h
  | full | closed => exact List.append_nil _

private theorem ledger_refused (s : KrakenSession) (e : RawMessage) (result : PushResult) :
    (s.refused e result).ledger = Op.enter s.ledger (.received s.index result) :=
  ledger_append (refused_trace s e result)

private theorem enter_received (ledger : Ledger) (index : Nat) {result : PushResult}
    (h : result ≠ .accepted) :
    Op.enter ledger (.received index result) =
      { ledger with
        receivedMessages := ledger.receivedMessages + 1
        lastReceivedIndex := some index } :=
  if_pos h

private theorem Tallied.refused {s : KrakenSession} (h : s.Tallied) (e : RawMessage)
    {result : PushResult} (hr : s.stopping = false) (hresult : result ≠ .accepted) :
    (s.refused e result).Tallied := by
  have hhistory := history_refused s e hresult
  have henvelopes : (s.refused e result).recordedEnvelopes = s.recordedEnvelopes := by
    rw [recordedEnvelopes, hhistory]
    rfl
  have hstopping : (s.refused e result).stopping = true := rfl
  refine ⟨?_, ?_, fun hf ↦ absurd (hf.symm.trans hstopping) Bool.false_ne_true, ?_, ?_, ?_⟩
  · rw [henvelopes, ledger_refused, enter_received _ _ hresult]
    refine ⟨rfl, ?_, h.tallies.enqueued, h.tallies.lastEnqueued, h.tallies.processed,
      h.tallies.lastProcessed⟩
    change some s.index = lastOf (s.ledger.receivedMessages + 1)
    rw [h.running hr, lastOf_succ]
  · rw [henvelopes]
    exact h.count
  · rw [henvelopes]
    exact h.venues
  · rw [hhistory]
    exact h.filed
  · rw [recordedLifecycle, hhistory]
    exact h.named

/-! ### Actions -/

/-- What an action does with an envelope, up to silent effects. -/
inductive Grows (s : KrakenSession) : Option (RawMessage × PushResult) → KrakenSession → Prop
  | silent {s' : KrakenSession} (rest : Continues s s') : Grows s none s'
  | accepted {s' : KrakenSession} (crc : Bytes → UInt32) (e : RawMessage)
      (running : s.stopping = false) (venue : e.venue = .kraken) (index : e.recordIndex = s.index)
      (rest : Continues (s.delivered crc e) s') : Grows s (some (e, .accepted)) s'
  | refused (e : RawMessage) (result : PushResult) (running : s.stopping = false)
      (index : e.recordIndex = s.index) (refusal : result ≠ .accepted) :
      Grows s (some (e, result)) (s.refused e result)

/-- One action keeps the counters in agreement. -/
theorem Grows.tallied {s s' : KrakenSession} {handed : Option (RawMessage × PushResult)}
    (h : Grows s handed s') (ht : s.Tallied) : s'.Tallied := by
  cases h with
  | silent rest => exact ht.continues rest
  | accepted crc e running venue index rest => exact (ht.delivered crc running venue).continues rest
  | refused e result running index refusal => exact ht.refused e running refusal

private theorem Grows.trace {s s' : KrakenSession} {handed : Option (RawMessage × PushResult)}
    (h : Grows s handed s') : ∃ effects, s'.trace = s.trace ++ effects := by
  cases h with
  | silent rest =>
    obtain ⟨effects, ht, -⟩ := rest.silent
    exact ⟨effects, ht⟩
  | accepted crc e running venue index rest =>
    obtain ⟨effects, ht, -⟩ := rest.silent
    rw [delivered_trace, List.append_assoc] at ht
    exact ⟨_, ht⟩
  | refused e result running index refusal => exact ⟨_, refused_trace s e result⟩

private theorem lifecycle_foldl (effects : List KrakenEffect) (entries : Ledger) :
    ((effects.filterMap krakenOp).foldl Op.enter entries).lifecycleEvents.map
        LifecycleEntry.ofEvent =
      entries.lifecycleEvents.map LifecycleEntry.ofEvent ++
        Weave.events (effects.filterMap KrakenEffect.recording) := by
  induction effects generalizing entries with
  | nil => exact (List.append_nil _).symm
  | cons effect rest ih =>
    cases effect with
    | lifecycle event =>
      have hnext := ih (Op.enter entries (.lifecycle event))
      simpa [krakenOp, KrakenEffect.recording, Op.enter] using hnext
    | pushed e result =>
      cases result with
      | accepted | full | closed => exact ih entries
    | received index result =>
      have hnext := ih (Op.enter entries (.received index result))
      cases result with
      | accepted | full | closed => exact hnext
    | processed index => exact ih (Op.enter entries (.processed index))
    | closeQueue => exact ih (Op.enter entries .closeQueue)
    | connect | abort | schedule | cancelRetry => exact ih entries

/-- The events of the status are those that the manifest records. -/
theorem ledger_lifecycle (s : KrakenSession) :
    s.ledger.lifecycleEvents.map LifecycleEntry.ofEvent = s.recordedLifecycle :=
  lifecycle_foldl s.trace ({} : RuntimeStatus).ledger

end KrakenSession

namespace KrakenMarket

open KrakenSession

private theorem recover_continues (m : KrakenMarket) (reason : Bytes) (stale : Bool) :
    Continues m.toKrakenSession (m.recover reason stale).toKrakenSession := by
  unfold recover
  split
  · exact .refl _
  · cases stale with
    | true =>
      exact continues_recovering m.toKrakenSession reason m.backoff.nextDelay.2
        (.inr (by rfl : BookState.stale = .stale))
    | false =>
      exact continues_recovering m.toKrakenSession reason m.backoff.nextDelay.2
        (.inl (by rfl : BookState.disconnected = .disconnected))

private theorem finishMessage_continues (m : KrakenMarket) (ok : Bool) :
    Continues m.toKrakenSession (m.finishMessage ok).1.toKrakenSession := by
  unfold finishMessage
  split
  · exact m.recover_continues _ _
  · split <;> exact .refl _

private theorem forceDisconnect_continues (limits : KrakenLimits) (m : KrakenMarket)
    (now : ReceiveMonotonicTimestamp) :
    Continues m.toKrakenSession (m.forceDisconnect limits now).toKrakenSession := by
  unfold forceDisconnect
  split
  · exact recover_continues { m with forced := true } _ _
  · exact .refl _

private theorem checkTimeouts_continues (m : KrakenMarket) (now : ReceiveMonotonicTimestamp) :
    Continues m.toKrakenSession (m.checkTimeouts now).toKrakenSession := by
  unfold checkTimeouts
  split
  · generalize (if m.firstRecord then m.connectedAt
      else m.processor.lastMessage.getD m.connectedAt) = last
    dsimp only
    split
    · exact m.recover_continues _ _
    · split
      · exact m.recover_continues _ _
      · exact .refl _
  · exact .refl _

private theorem tick_continues (limits : KrakenLimits) (m : KrakenMarket)
    (now : ReceiveMonotonicTimestamp) (fatal fatalLater requested : Bool) :
    Continues m.toKrakenSession
      (m.tick limits now fatal fatalLater requested).toKrakenSession := by
  unfold tick
  dsimp only
  have hfatal : Continues m.toKrakenSession
      (if fatal then { m with processor := m.processor.invalidate } else m).toKrakenSession := by
    cases fatal with
    | true => exact .of_trace rfl rfl rfl
    | false => exact .refl _
  generalize (if fatal then { m with processor := m.processor.invalidate } else m) = m₁ at hfatal ⊢
  have hstop : Continues m₁.toKrakenSession
      (if requested || fatalLater || m₁.elapsed now limits.duration then m₁.stop
        else m₁).toKrakenSession := by
    split
    · exact continues_stopped m₁.toKrakenSession
    · exact .refl _
  generalize (if requested || fatalLater || m₁.elapsed now limits.duration then m₁.stop
    else m₁) = m₂ at hstop ⊢
  split
  · exact hfatal.trans hstop
  · exact (hfatal.trans hstop).trans ((forceDisconnect_continues limits m₂ now).trans
      (checkTimeouts_continues _ now))

/-- The envelope of an action, with the answer of the queue. -/
def offered (m : KrakenMarket) : Action → Option (RawMessage × PushResult)
  | .message payload wall mono result =>
    if m.stopping then none
    else some (envelope m.toKrakenSession payload wall mono, result)
  | _ => none

private theorem onMessage_grows (crc : Bytes → UInt32) (m : KrakenMarket) (payload : Bytes)
    (wall : ReceiveWallTimestamp) (mono : ReceiveMonotonicTimestamp) (result : PushResult) :
    Grows m.toKrakenSession (m.offered (.message payload wall mono result))
      (m.onMessage crc payload wall mono result).1.toKrakenSession := by
  simp only [offered, onMessage]
  by_cases hs : m.stopping = true
  · rw [if_pos hs, if_pos hs]
    exact .silent (.refl _)
  · rw [if_neg hs, if_neg hs]
    rw [Bool.not_eq_true] at hs
    by_cases hr : result ≠ .accepted
    · rw [if_pos hr]
      exact .refused (envelope m.toKrakenSession payload wall mono) result hs rfl hr
    · rw [if_neg hr]
      rw [ne_eq, not_not] at hr
      subst hr
      exact .accepted crc (envelope m.toKrakenSession payload wall mono) hs rfl rfl
        (finishMessage_continues (withSession _ _) _)

/-- Every action is one of these. -/
theorem step_grows (crc : Bytes → UInt32) (limits : KrakenLimits) (m : KrakenMarket)
    (action : Action) :
    Grows m.toKrakenSession (m.offered action) (m.step crc limits action).toKrakenSession := by
  cases action with
  | connect now => exact .silent (continues_connecting m.toKrakenSession)
  | stop => exact .silent (continues_stopped m.toKrakenSession)
  | message payload wall mono result => exact m.onMessage_grows crc payload wall mono result
  | error reason => exact .silent (m.recover_continues reason false)
  | connected now => exact .silent (.of_trace rfl rfl rfl)
  | retry now =>
    refine .silent ?_
    change Continues m.toKrakenSession (m.onRetry now).toKrakenSession
    unfold onRetry
    split
    · exact .refl _
    · exact continues_connecting m.toKrakenSession
  | tick now fatal fatalLater requested =>
    exact .silent (m.tick_continues limits now fatal fatalLater requested)

private theorem offered_of_handed {m : KrakenMarket} {action : Action}
    (h : m.handed action = none) :
    m.offered action = none := by
  cases action with
  | message payload wall mono result =>
    simp only [handed] at h
    simp only [offered]
    split at h
    · next hs => rw [if_pos hs]
    · cases h
  | connect | stop | error | connected | retry | tick => rfl

/-- Only a message to a running thread is handed to the queue. -/
theorem handed_message {m : KrakenMarket} {action : Action} {e : RawMessage}
    (h : m.handed action = some e) :
    ∃ payload wall mono result, action = .message payload wall mono result ∧
      m.stopping = false ∧ envelope m.toKrakenSession payload wall mono = e := by
  cases action with
  | message payload wall mono result =>
    simp only [handed] at h
    split at h
    · cases h
    · next hs =>
      exact ⟨payload, wall, mono, result, rfl, Bool.eq_false_iff.mpr hs, Option.some_inj.mp h⟩
  | connect | stop | error | connected | retry | tick => cases h

private theorem offered_answered {m : KrakenMarket} {action : Action} {e : RawMessage}
    (h : m.handed action = some e) (result : PushResult) :
    m.offered (action.answered result) = some (e, result) := by
  obtain ⟨payload, wall, mono, other, rfl, hs, rfl⟩ := handed_message h
  simp only [Action.answered, offered, hs]
  rfl

private theorem index_of_handed {m : KrakenMarket} {action : Action} {e : RawMessage}
    (h : m.handed action = some e) : e.recordIndex = m.index := by
  obtain ⟨payload, wall, mono, other, rfl, hs, rfl⟩ := handed_message h
  rfl

variable {crc : Bytes → UInt32} {limits : KrakenLimits}

private theorem envelopes_silent {m : KrakenMarket} {action : Action} (h : m.handed action = none) :
    (m.step crc limits action).recordedEnvelopes = m.recordedEnvelopes := by
  have hgrows := m.step_grows crc limits action
  rw [offered_of_handed h] at hgrows
  cases hgrows with
  | silent rest => exact rest.envelopes

private theorem envelopes_pushed {m : KrakenMarket} {action : Action} {e : RawMessage}
    (h : m.handed action = some e) (result : PushResult) :
    (m.step crc limits (action.answered result)).recordedEnvelopes =
      m.recordedEnvelopes ++ if result = .accepted then [e] else [] := by
  have hgrows := m.step_grows crc limits (action.answered result)
  rw [offered_answered h] at hgrows
  generalize (m.step crc limits (action.answered result)).toKrakenSession = s' at hgrows
  cases hgrows with
  | accepted crc e running venue index rest =>
    rw [rest.envelopes, envelopes_delivered, if_pos rfl]
  | refused e result running index refusal =>
    rw [recordedEnvelopes, history_refused _ _ refusal, if_neg refusal, List.append_nil]
    rfl

/-- An envelope that is not accepted goes with a fatal section. -/
theorem refused_fatal {m : KrakenMarket} (action : Action)
    (h : (m.step crc limits action).toKrakenSession.ledger.receivedMessages ≠
      (m.step crc limits action).recordedEnvelopes.length) :
    m.toKrakenSession.ledger.receivedMessages ≠ m.recordedEnvelopes.length ∨
      (krakenSectionsSince m.trace (m.step crc limits action).trace).any Op.isFatal = true := by
  have hgrows := m.step_grows crc limits action
  generalize (m.step crc limits action).toKrakenSession = s' at h hgrows
  generalize m.offered action = offered at hgrows
  cases hgrows with
  | silent rest =>
    rw [rest.received, rest.envelopes] at h
    exact .inl h
  | accepted crc e running venue index rest =>
    rw [rest.received, rest.envelopes, envelopes_delivered, ledger_delivered,
      List.length_append] at h
    exact .inl fun heq ↦ h (congrArg (· + 1) heq)
  | refused e result running index refusal =>
    apply Or.inr
    rw [refused_trace, krakenSectionsSince, List.drop_left]
    simp [krakenOp, Op.isFatal, refusal]

end KrakenMarket

/-- The books of `run_kraken`. -/
def krakenAccounts (crc : Bytes → UInt32) (limits : KrakenLimits) :
    Accounts (krakenProgram crc limits) where
  venue := .kraken
  Inv := fun m ↦ m.toKrakenSession.Tallied
  accepted := fun m ↦ m.recordedEnvelopes
  ledger := fun m ↦ m.toKrakenSession.ledger
  kept := fun m input h ↦ (m.step_grows crc limits input).tallied h
  entered := fun m input _ ↦ by
    obtain ⟨effects, ht⟩ := (m.step_grows crc limits input).trace
    rw [show (krakenProgram crc limits).step m input = (m.step crc limits input,
      krakenSectionsSince m.trace (m.step crc limits input).trace) from rfl]
    dsimp only
    rw [KrakenSession.ledger_append ht, ht, krakenSectionsSince, List.drop_left]
  silent := fun _ _ _ hn ↦ KrakenMarket.envelopes_silent hn
  pushed := fun _ _ _ result _ hs ↦ KrakenMarket.envelopes_pushed hs result
  indexed := fun _ _ _ h hs ↦ (KrakenMarket.index_of_handed hs).trans h.count.symm
  rejected := fun _ input _ hr ↦ KrakenMarket.refused_fatal input hr
  farewell := fun _ ↦ rfl
  tallied := fun _ h ↦ h.tallies
  venues := fun _ h ↦ h.venues
  lifecycle := fun m h _ ↦ by
    rw [KrakenSession.ledger_lifecycle]
    exact validateLifecycle_of_filed rfl h.filed h.named

/-- The books are kept along every run of `run_kraken`. -/
theorem kraken_kept (crc : Bytes → UInt32) (limits : KrakenLimits) (processor : KrakenBookProcessor)
    (now : ReceiveMonotonicTimestamp) (queue : RawQueueConfig)
    (events : List (Event KrakenMarket.Action)) :
    ((System.create queue (KrakenMarket.initial processor now)).run (krakenProgram crc limits)
      events).Kept (krakenAccounts crc limits) := by
  refine System.run_kept (krakenAccounts crc limits) queue ?_ rfl rfl events
  exact ⟨⟨rfl, rfl, rfl, rfl, rfl, rfl⟩, rfl, fun _ ↦ rfl, List.forall_mem_nil _, trivial,
    List.forall_mem_nil _⟩

end ArbitrageEngine.Pipeline
