import ArbitrageEngine.Coinbase.Recovery
import ArbitrageEngine.Transport.ClientProtocol

/-!
# The clients of `run_live`

`src/pipeline/live_runtime.cpp` with `src/adapters/coinbase/coinbase_connection_manager.cpp` and
`src/transport/websocket_client.cpp`: the manager with every client that it ever created. Its
`close_` aborts the current client and its `connect_` replaces it; the operations of earlier
clients may still complete afterwards. Every callback names the generation of its client.
-/

namespace ArbitrageEngine.Coinbase

open Base ArbitrageEngine.Core Recording

/-! ### What a step of the session does to the clients -/

/-- Neither a call of `connect_` or `close_` nor a wait. -/
def Effect.quiet : Effect → Bool
  | connect _ | close | schedule _ _ => false
  | _ => true

namespace Session

/-- The effects of a step that are not quiet. -/
def Hands (s s' : Session) (core : List Effect) : Prop :=
  ∃ effects, s'.trace = s.trace ++ effects ∧ effects.filter (!·.quiet) = core

private theorem Hands.trans {a b c : Session} {core rest : List Effect} (h : a.Hands b core)
    (h' : b.Hands c rest) : a.Hands c (core ++ rest) := by
  obtain ⟨effects, htrace, hcore⟩ := h
  obtain ⟨others, htrace', hrest⟩ := h'
  refine ⟨effects ++ others, ?_, ?_⟩
  · rw [htrace', htrace, List.append_assoc]
  · rw [List.filter_append, hcore, hrest]

private theorem hands_of_trace {s s' : Session} (front back : List Effect) (state : BookState)
    (reason : Bytes) (h : s'.trace = s.trace ++ front ++ s.observed state reason ++ back) :
    s.Hands s' ((front ++ back).filter (!·.quiet)) := by
  refine ⟨front ++ (s.observed state reason ++ back), ?_, ?_⟩
  · rw [h, List.append_assoc, List.append_assoc]
  · have hobserved : (s.observed state reason).filter (!·.quiet) = [] := by
      unfold observed
      split <;> rfl
    rw [List.filter_append, List.filter_append, hobserved, List.nil_append, List.filter_append]

private theorem hands_begun (s : Session) : s.Hands s.begun [.connect (s.generation + 1)] :=
  hands_of_trace [] [.book .resyncing, .connect (s.generation + 1)] .resyncing
    (ascii "resynchronization") (by simp [begun])

private theorem hands_established (s : Session) : s.Hands s.established [] :=
  hands_of_trace [] [.book .initializing] .initializing (ascii "new_connection")
    (by simp [established])

private theorem hands_recovering (s : Session) (reason : Bytes) (state : BookState) (delay : Nat) :
    s.Hands (s.recovering reason state delay) [.close, .schedule delay (s.generation + 1)] :=
  hands_of_trace [] [.book state, .close, .schedule delay (s.generation + 1)] state reason
    (by simp [recovering])

private theorem hands_stopped (s : Session) : s.Hands s.stopped [.close] :=
  hands_of_trace [.close] [.book .disconnected] .disconnected (ascii "requested_shutdown") rfl

private theorem hands_invalidated (s : Session) : s.Hands s.invalidated [] :=
  hands_of_trace [] [.book .invalid] .invalid (ascii "terminal_failure") (by simp [invalidated])

private theorem hands_accepted (s : Session) (envelope : RawMessage) (book : OrderBook)
    (sequence : SequenceTracker) (result : ProcessResult) :
    s.Hands (s.accepted envelope book sequence result) [] :=
  ⟨_, rfl, rfl⟩

private theorem hands_rejected (s : Session) (envelope : RawMessage) (response : SinkResponse)
    (result : ProcessResult) : s.Hands (s.rejected envelope response result) [] :=
  ⟨_, rfl, rfl⟩

/-- What a step other than a connection attempt hands out, and what the session is afterwards. -/
inductive Move (s s' : Session) : Prop
  | keep (hands : s.Hands s' []) (generation : s'.generation = s.generation)
      (stopping : s'.stopping = s.stopping) (pending : s'.recoveryPending = s.recoveryPending)
      (connected : s.connected = true → s'.connected = true)
  | recover (delay : Nat) (hands : s.Hands s' [.close, .schedule delay s'.generation])
      (generation : s'.generation = s.generation + 1) (pending : s'.recoveryPending = true)
  | stop (hands : s.Hands s' [.close]) (generation : s'.generation = s.generation + 1)
      (stopping : s'.stopping = true)

private theorem Move.generation_le {s s' : Session} (h : s.Move s') :
    s.generation ≤ s'.generation := by
  cases h with
  | keep hands generation => exact Nat.le_of_eq generation.symm
  | recover delay hands generation => exact generation ▸ Nat.le_succ _
  | stop hands generation => exact generation ▸ Nat.le_succ _

/-- The same for a connection attempt. -/
structure Begins (s s' : Session) : Prop where
  hands : s.Hands s' [.connect s'.generation]
  generation : s'.generation = s.generation + 1
  stopping : s'.stopping = false
  pending : s'.recoveryPending = false

private theorem Begins.not_move {s s' : Session} (h : s.Begins s') : ¬ s.Move s' := by
  intro hmove
  cases hmove with
  | keep hands generation =>
    exact Nat.succ_ne_self _ (h.generation.symm.trans generation)
  | recover delay hands generation pending => cases h.pending.symm.trans pending
  | stop hands generation stopping => cases h.stopping.symm.trans stopping

private theorem move_idle (s : Session) : s.Move s :=
  .keep ⟨[], (List.append_nil _).symm, rfl⟩ rfl rfl rfl id

private theorem move_terminated (s : Session) : s.Move s.terminated := by
  cases hstop : s.stopping with
  | true =>
    have heq : s.terminated = s.invalidated := if_pos hstop
    rw [heq]
    exact .keep s.hands_invalidated rfl rfl rfl id
  | false =>
    have heq : s.terminated = s.stopped.invalidated := if_neg (by rw [hstop]; decide)
    rw [heq]
    exact .stop (s.hands_stopped.trans s.stopped.hands_invalidated) rfl rfl

/-- A message. -/
theorem Step.move_message {reasons : Bytes → Prop} {s s' : Session} {envelope : RawMessage}
    (h : Step reasons s (some envelope) s') : s.Move s' := by
  cases h with
  | delivered => exact .keep (s.hands_accepted _ _ _ _) rfl rfl rfl id
  | failed raw wall mono health now feed result delay =>
    exact .recover delay ((s.hands_accepted _ _ _ _).trans (hands_recovering _ _ _ _)) rfl rfl
  | thrown raw wall mono health now feed failure delay =>
    exact .recover delay ((s.hands_accepted _ _ _ _).trans (hands_recovering _ _ _ _)) rfl rfl
  | rejected raw wall mono response error running connected token refused =>
    have hrejected := s.hands_rejected (s.envelope raw wall mono) response
      { outcome := .recordingRejected, error }
    generalize hs₁ : s.rejected (s.envelope raw wall mono) response
      { outcome := .recordingRejected, error } = s₁ at hrejected
    have hstopping : s₁.stopping = false := by rw [← hs₁]; exact running
    have hgeneration : s₁.generation = s.generation := by rw [← hs₁]; rfl
    have heq : s₁.terminated = s₁.stopped.invalidated := if_neg (by rw [hstopping]; decide)
    rw [heq]
    exact .stop ((hrejected.trans (hands_stopped _)).trans (hands_invalidated _))
      (congrArg (· + 1) hgeneration) rfl

/-- Every step is one of these. -/
theorem Step.move {reasons : Bytes → Prop} {s s' : Session} {handed : Option RawMessage}
    (h : Step reasons s handed s') : s.Move s' ∨ s.Begins s' := by
  cases handed with
  | some envelope => exact .inl h.move_message
  | none =>
    cases h with
    | idle => exact .inl s.move_idle
    | refreshed => exact .inl (.keep ⟨_, rfl, rfl⟩ rfl rfl rfl id)
    | start => exact .inr ⟨hands_begun { s with stopping := false }, rfl, rfl, rfl⟩
    | resume delay running => exact .inr ⟨s.hands_begun, rfl, running, rfl⟩
    | connected => exact .inl (.keep s.hands_established rfl rfl rfl fun _ ↦ rfl)
    | recover reason state delay =>
      exact .inl (.recover delay (s.hands_recovering reason state delay) rfl rfl)
    | stop => exact .inl (.stop s.hands_stopped rfl rfl)
    | terminate => exact .inl s.move_terminated

private theorem Hands.connects {s s' : Session} {core : List Effect} (h : s.Hands s' core) :
    s'.connects = s.connects ++ core.filterMap Effect.connectToken := by
  obtain ⟨effects, htrace, rfl⟩ := h
  unfold Session.connects
  rw [htrace, List.filterMap_append, List.filterMap_filter]
  congr 2
  funext effect
  cases effect <;> rfl

private theorem Hands.resumes {s s' : Session} {core : List Effect} (h : s.Hands s' core) :
    s'.resumes = s.resumes ++ core.filterMap Effect.resumeToken := by
  obtain ⟨effects, htrace, rfl⟩ := h
  unfold Session.resumes
  rw [htrace, List.filterMap_append, List.filterMap_filter]
  congr 2
  funext effect
  cases effect <;> rfl

end Session

namespace CoinbaseConnectionManager

variable {clock : Nat → ReceiveMonotonicTimestamp}

/-- A recovery hands out a wait, unless the session recovers already or has been stopped. -/
theorem recover_move (m : CoinbaseConnectionManager) (reason : Bytes) (state : BookState)
    (hs : state ≠ .valid) : m.toSession.Move (m.recover clock reason state).toSession := by
  by_cases hp : m.stopping = true ∨ m.recoveryPending = true
  · rw [recover_of_pending clock m reason state hp]
    exact m.toSession.move_idle
  · simp only [not_or, Bool.not_eq_true] at hp
    rw [recover_toSession clock m reason state hp.1 hp.2 hs]
    exact .recover _ (Session.hands_recovering _ _ _ _) rfl rfl

private theorem recover_ends (m : CoinbaseConnectionManager) (reason : Bytes) (state : BookState)
    (hs : state ≠ .valid) : (m.recover clock reason state).stopping = true ∨
      (m.recover clock reason state).recoveryPending = true := by
  by_cases hp : m.stopping = true ∨ m.recoveryPending = true
  · rw [recover_of_pending clock m reason state hp]
    exact hp
  · simp only [not_or, Bool.not_eq_true] at hp
    have hsession := recover_toSession clock m reason state hp.1 hp.2 hs
    exact .inr (congrArg Session.recoveryPending hsession)

private theorem terminalRecordingFailure_stops (m : CoinbaseConnectionManager) (error : Bytes) :
    (m.terminalRecordingFailure clock error).stopping = true := by
  have hsession := terminalRecordingFailure_toSession clock m error
  rw [hsession]
  unfold Session.terminated
  split
  · next hstop => exact hstop
  · rfl

/-- A message that the manager does not want to be followed has ended the connection. -/
theorem handleMessage_ends (m : CoinbaseConnectionManager) (raw : Bytes)
    (wall : ReceiveWallTimestamp) (mono : ReceiveMonotonicTimestamp) (response : SinkResponse)
    (now : ReceiveMonotonicTimestamp) (hc : m.connected = true)
    (h : (m.handleMessage clock raw wall mono response now).2 = false) :
    (m.handleMessage clock raw wall mono response now).1.stopping = true ∨
      (m.handleMessage clock raw wall mono response now).1.recoveryPending = true := by
  rw [handleMessage_eq clock m raw wall mono response now hc] at h ⊢
  dsimp only at h ⊢
  generalize { m with handler := m.toSession.current }.handle raw wall mono response now = result
    at h ⊢
  unfold finishMessage at h ⊢
  dsimp only at h ⊢
  split
  · exact .inl (terminalRecordingFailure_stops _ _)
  · next hkept =>
    rw [if_neg hkept] at h
    split
    · exact recover_ends _ _ _ (by decide)
    · next hclean =>
      rw [if_neg hclean] at h
      cases h

private theorem checkHealth_move (m : CoinbaseConnectionManager) :
    m.toSession.Move (m.checkHealth clock).toSession := by
  have hidle := m.toSession.move_idle
  unfold checkHealth
  split
  · exact hidle
  split
  · split
    · exact hidle
    · dsimp only
      split
      · exact recover_move { m with ticks := m.ticks + 1 } _ _ (by decide)
      · exact hidle
  · dsimp only
    split
    · by_cases hv : m.book.state = .valid
      · simp only [transition, hv, ↓reduceIte]
        exact hidle
      · rw [transition_toSession clock _ _ _ hv]
        exact .keep (Session.hands_of_trace [] [.book m.book.state] m.book.state [] (by simp))
          rfl rfl rfl id
    · split
      · exact recover_move { m with
          ticks := m.ticks + 1
          health := { m.health with heartbeatTimeouts := m.health.heartbeatTimeouts + 1 } } _ _
          (by decide)
      · exact recover_move { m with ticks := m.ticks + 1 } _ _ (by decide)

private theorem stop_move (m : CoinbaseConnectionManager) :
    m.toSession.Move (m.stop clock).toSession := by
  by_cases hs : m.stopping = true
  · rw [stop, if_pos hs]
    exact m.toSession.move_idle
  · rw [stop_toSession clock m (Bool.eq_false_iff.mpr hs)]
    exact .stop m.toSession.hands_stopped rfl rfl

/-- The attempts of a run come before those of its continuation. -/
theorem connects_run {config : FeedHealthConfig} {initial : CoinbaseConnectionManager}
    (hm : create clock config = .ok initial) (pre post : List Action) :
    (initial.run clock pre).connects <+: (initial.run clock (pre ++ post)).connects := by
  refine run_invariant_from (I := fun s ↦ (initial.run clock pre).connects <+: s.connects) hm ?_
    pre (List.prefix_refl _) post
  intro s handed s' _ _ hstep hpre
  refine hpre.trans ?_
  rcases hstep.move with hmove | hbegins
  · cases hmove with
    | keep hands | recover _ hands | stop hands =>
      rw [hands.connects]
      exact List.prefix_append _ _
  · rw [hbegins.hands.connects]
    exact List.prefix_append _ _

end CoinbaseConnectionManager

end ArbitrageEngine.Coinbase

namespace ArbitrageEngine.Pipeline

open Base ArbitrageEngine.Core Coinbase Recording Transport

/-! ### The manager and its clients -/

/-- The manager, its clients from the first to the current one, each with the generation of its
callbacks, the generation that the reconnect timer is waited for with, and whether that wait has
been cancelled (`src/pipeline/live_runtime.cpp:98–111`). -/
structure LiveClients where
  manager : CoinbaseConnectionManager
  clients : List (Nat × ClientRun)
  waiting : Option Nat
  cancelled : Bool

/-- What comes with a completion: the code, whether the stream is still open, the message that
was read, the clock, and the answer of the sink to that message. -/
structure LiveDelivery where
  code : ErrorCode := .success
  isOpen : Bool := true
  payload : Bytes := []
  wall : ReceiveWallTimestamp := ⟨0⟩
  mono : ReceiveMonotonicTimestamp := ⟨0⟩
  response : SinkResponse := .returned .accepted
  now : ReceiveMonotonicTimestamp := ⟨0⟩

namespace LiveClients

/-- A new manager; there is no client yet. -/
def ofManager (manager : CoinbaseConnectionManager) : LiveClients := ⟨manager, [], none, false⟩

/-- A call out of the manager: `close_` aborts the current client, `connect_` makes a new one of two
requests. A new wait replaces the old one (`src/pipeline/live_runtime.cpp:102–111`). -/
def effect (s : LiveClients) : Effect → LiveClients
  | .close =>
    { s with clients := s.clients.modify (s.clients.length - 1) fun entry ↦
        (entry.1, entry.2.abort) }
  | .connect generation =>
    { s with clients := s.clients ++ [(generation, ⟨.create 2, true, false, []⟩)] }
  | .schedule _ generation => { s with waiting := some generation, cancelled := false }
  | _ => s

/-- A member function of the manager has run. If it has stopped the manager it has cancelled the
wait, and its new effects take place. -/
def call (s : LiveClients) (manager : CoinbaseConnectionManager) : LiveClients :=
  (manager.trace.drop s.manager.trace.length).foldl effect { s with
    manager
    cancelled := s.cancelled || !s.manager.stopping && manager.stopping }

/-- The callback that the manager has passed to `connect_` for a handler. -/
def action (generation : Nat) (d : LiveDelivery) : Handler → CoinbaseConnectionManager.Action
  | .connected => .connected generation
  | .message payload => .message generation payload d.wall d.mono d.response d.now
  | .error text => .error generation text

/-- What a call of `close_` does to the client that it is made from. -/
def reaction : Effect → Option Reaction
  | .close => some .abort
  | _ => none

section Runs

variable (clock : Nat → ReceiveMonotonicTimestamp)

/-- What the message callback returns (`src/transport/websocket_client.cpp:129`). -/
def proceeds (m : CoinbaseConnectionManager) (generation : Nat) (d : LiveDelivery) :
    Handler → Bool
  | .message payload => (m.onMessage clock generation payload d.wall d.mono d.response d.now).2
  | _ => true

/-- The client `k` goes on to `next` and calls at most one handler on its way; `next` is given
the calls that the handler makes and what it returns. -/
def deliver (s : LiveClients) (k generation : Nat) (client : ClientRun) (d : LiveDelivery)
    (next : List Reaction → Bool → ClientRun) : LiveClients :=
  match ((next [] true).handlers.drop client.handlers.length).head? with
  | none => { s with clients := s.clients.set k (generation, next [] true) }
  | some handler =>
    let manager := s.manager.step clock (action generation d handler)
    let effects := manager.trace.drop s.manager.trace.length
    let reactions := if k + 1 = s.clients.length then effects.filterMap reaction else []
    let later := next reactions (proceeds clock s.manager generation d handler)
    let s := s.call manager
    { s with clients := s.clients.set k (generation, later) }

/-- The completion of an operation of the client `k` is delivered. -/
def complete (s : LiveClients) (k : Nat) (operation : Operation) (d : LiveDelivery) :
    LiveClients :=
  match s.clients[k]? with
  | none => s
  | some (generation, client) =>
    s.deliver clock k generation client d fun reactions proceed ↦
      client.complete operation ⟨d.code, d.isOpen, d.payload, reactions, proceed⟩

/-- `client->connect()` for the newest client (`src/pipeline/live_runtime.cpp:106`). -/
def dial (s : LiveClients) (sni resolve : ErrorCode) : LiveClients :=
  match s.clients[s.clients.length - 1]? with
  | none => s
  | some (generation, client) =>
    s.deliver clock (s.clients.length - 1) generation client {} fun reactions _ ↦
      client.connect sni resolve reactions

/-- A member function of the manager that may call `connect_`, which it then does last. -/
def attempt (s : LiveClients) (manager : CoinbaseConnectionManager) (sni resolve : ErrorCode) :
    LiveClients :=
  if (s.call manager).clients.length = s.clients.length then s.call manager
  else (s.call manager).dial clock sni resolve

/-- What happens on the market thread: completions, the timers, and the calls of `run_live`. -/
inductive Event
  | complete (k : Nat) (operation : Operation) (d : LiveDelivery)
  /-- The reconnect timer; a wait that was cancelled may have expired before. -/
  | resume (expired : Bool) (sni resolve : ErrorCode)
  | start (sni resolve : ErrorCode)
  | stop
  | checkHealth
  | forceDisconnect
  | terminalRecordingFailure (error : Bytes)

/-- One event. -/
def step (s : LiveClients) : Event → LiveClients
  | .complete k operation d => s.complete clock k operation d
  | .resume expired sni resolve =>
    match s.waiting with
    | none => s
    | some generation =>
      let s := { s with waiting := none }
      if expired || !s.cancelled then
        s.attempt clock (s.manager.step clock (.resume generation)) sni resolve
      else s
  | .start sni resolve => s.attempt clock (s.manager.step clock .start) sni resolve
  | .stop => s.call (s.manager.step clock .stop)
  | .checkHealth => s.call (s.manager.step clock .checkHealth)
  | .forceDisconnect => s.call (s.manager.step clock .forceDisconnect)
  | .terminalRecordingFailure error =>
    s.call (s.manager.step clock (.terminalRecordingFailure error))

/-- A run: any list of events, one after another. -/
def run (s : LiveClients) (events : List Event) : LiveClients := events.foldl (step clock) s

end Runs

/-- `abort` was called on the client, or a later attempt has replaced it. -/
def Abandoned (s : LiveClients) (k : Nat) (client : ClientRun) : Prop :=
  client.client.aborted = true ∨ k + 1 < s.clients.length

/-! ### Calls of the manager -/

variable {s : LiveClients} {clock : Nat → ReceiveMonotonicTimestamp}

private theorem foldl_effect_filter (effects : List Effect) (s : LiveClients) :
    effects.foldl effect s = (effects.filter (!·.quiet)).foldl effect s := by
  rw [List.foldl_filter]
  congr 1
  funext s effect
  cases effect <;> rfl

private theorem call_of_hands {m : CoinbaseConnectionManager} {core : List Effect}
    (h : s.manager.toSession.Hands m.toSession core) :
    s.call m = core.foldl effect { s with
      manager := m
      cancelled := s.cancelled || !s.manager.stopping && m.stopping } := by
  obtain ⟨effects, htrace, rfl⟩ := h
  rw [call, htrace, List.drop_left]
  exact foldl_effect_filter effects _

private theorem reactions_of_hands {m m' : CoinbaseConnectionManager} {core : List Effect}
    (h : m.toSession.Hands m'.toSession core) :
    (m'.trace.drop m.trace.length).filterMap reaction = core.filterMap reaction := by
  obtain ⟨effects, htrace, rfl⟩ := h
  rw [htrace, List.drop_left, List.filterMap_filter]
  congr 1
  funext effect
  cases effect <;> rfl

/-- A call that changes nothing. -/
theorem call_self (s : LiveClients) : s.call s.manager = s := by
  have hhands : s.manager.toSession.Hands s.manager.toSession [] :=
    ⟨[], (List.append_nil _).symm, rfl⟩
  have hcancelled : (s.cancelled || !s.manager.stopping && s.manager.stopping) = s.cancelled := by
    rw [Bool.not_and_self, Bool.or_false]
  rw [call_of_hands hhands, List.foldl_nil, hcancelled]

private theorem call_manager (s : LiveClients) (m : CoinbaseConnectionManager) :
    (s.call m).manager = m := by
  have hfold (effects : List Effect) (s : LiveClients) :
      (effects.foldl effect s).manager = s.manager := by
    induction effects generalizing s with
    | nil => rfl
    | cons first effects ih =>
      rw [List.foldl_cons, ih]
      cases first <;> rfl
  exact hfold _ _

/-! ### Generations -/

/-- Each client has the generation of its attempt. An aborted client is outdated, the wait is one
that the manager has asked for, and one that was cancelled is outdated. -/
structure Sound (s : LiveClients) : Prop where
  tokens : s.manager.Tokens
  coherent : s.manager.Coherent
  generations : s.clients.map Prod.fst = s.manager.connects
  rests : ∀ entry ∈ s.clients, entry.2.Rests ⟨2, true⟩
  aborted : ∀ entry ∈ s.clients, entry.2.client.aborted = true → entry.1 < s.manager.generation
  waiting : ∀ generation, s.waiting = some generation → generation ∈ s.manager.resumes
  cancelled : s.cancelled = true → ∀ generation, s.waiting = some generation →
    generation < s.manager.generation

private theorem Sound.le_generation (h : s.Sound) {entry : Nat × ClientRun}
    (hmem : entry ∈ s.clients) :
    entry.1 ≤ s.manager.generation := by
  apply h.tokens.connects_le
  rw [← h.generations]
  exact List.mem_map_of_mem hmem

/-- An abandoned client is outdated. -/
theorem Sound.outdated (h : s.Sound) {k generation : Nat} {client : ClientRun}
    (hk : s.clients[k]? = some (generation, client)) (habandoned : s.Abandoned k client) :
    generation < s.manager.generation := by
  rcases habandoned with haborted | hlater
  · exact h.aborted (generation, client) (List.mem_of_getElem? hk) haborted
  · obtain ⟨later, hlast⟩ : ∃ later, s.clients[k + 1]? = some later :=
      ⟨_, List.getElem?_eq_getElem hlater⟩
    have hlt : generation < later.1 := by
      have hordered := h.tokens.connects_lt
      rw [← h.generations, List.pairwise_map, List.pairwise_iff_getElem] at hordered
      obtain ⟨hbound, hk⟩ := List.getElem?_eq_some_iff.mp hk
      obtain ⟨hbound', hlast⟩ := List.getElem?_eq_some_iff.mp hlast
      have hpair := hordered k (k + 1) hbound hbound' (Nat.lt_succ_self k)
      rwa [hk, hlast] at hpair
    exact Nat.lt_of_lt_of_le hlt (h.le_generation (List.mem_of_getElem? hlast))

private theorem mem_modify {entry : Nat × ClientRun} {clients : List (Nat × ClientRun)} {i : Nat}
    {f : Nat × ClientRun → Nat × ClientRun} (h : entry ∈ clients.modify i f) :
    entry ∈ clients ∨ ∃ before ∈ clients, entry = f before := by
  obtain ⟨j, hj⟩ := List.mem_iff_getElem?.mp h
  rw [List.getElem?_modify] at hj
  obtain ⟨before, hbefore, heq⟩ := Option.map_eq_some_iff.mp hj
  have hmem := List.mem_of_getElem? hbefore
  split at heq
  · exact .inr ⟨before, hmem, heq.symm⟩
  · cases heq
    exact .inl hmem

/-- The clients after a call of `close_`. -/
theorem Sound.close (h : s.Sound) {m : CoinbaseConnectionManager} {clients : List (Nat × ClientRun)}
    (heq : clients = s.clients.modify (s.clients.length - 1) fun entry ↦ (entry.1, entry.2.abort))
    (hg : m.generation = s.manager.generation + 1) (hconnects : m.connects = s.manager.connects) :
    clients.map Prod.fst = m.connects ∧ (∀ entry ∈ clients, entry.2.Rests ⟨2, true⟩) ∧
      ∀ entry ∈ clients, entry.2.client.aborted = true → entry.1 < m.generation := by
  subst heq
  refine ⟨?_, ?_, ?_⟩
  · rw [hconnects, ← h.generations]
    apply List.ext_getElem?
    intro j
    rw [List.getElem?_map, List.getElem?_map, List.getElem?_modify, Option.map_eq_map,
      Option.map_map]
    congr 1
    funext entry
    dsimp only [Function.comp_apply]
    split <;> rfl
  · intro entry hmem
    rcases mem_modify hmem with hold | ⟨before, hold, rfl⟩
    · exact h.rests entry hold
    · exact (h.rests before hold).step (.call .abort)
  · intro entry hmem _
    have hle : entry.1 ≤ s.manager.generation := by
      rcases mem_modify hmem with hold | ⟨before, hold, rfl⟩
      · exact h.le_generation hold
      · have hbefore := h.le_generation hold
        exact hbefore
    rw [hg]
    exact Nat.lt_succ_of_le hle

private theorem Sound.waiting_le (h : s.Sound) {generation : Nat}
    (hw : s.waiting = some generation) :
    generation ≤ s.manager.generation :=
  h.tokens.resumes_le generation (h.waiting generation hw)

/-- A call that is not a connection attempt. -/
theorem Sound.call_move (h : s.Sound) {m : CoinbaseConnectionManager}
    (hm : s.manager.toSession.Move m.toSession) (ht : m.Tokens) (hc : m.Coherent) :
    (s.call m).Sound := by
  cases hm with
  | keep hands generation stopping =>
    have hconnects : m.connects = s.manager.connects := hands.connects.trans (List.append_nil _)
    have hresumes : m.resumes = s.manager.resumes := hands.resumes.trans (List.append_nil _)
    have hcancelled : (s.cancelled || !s.manager.stopping && m.stopping) = s.cancelled := by
      rw [stopping, Bool.not_and_self, Bool.or_false]
    rw [call_of_hands hands, List.foldl_nil, hcancelled]
    exact {
      tokens := ht
      coherent := hc
      generations := h.generations.trans hconnects.symm
      rests := h.rests
      aborted := generation ▸ h.aborted
      waiting := hresumes ▸ h.waiting
      cancelled := generation ▸ h.cancelled }
  | recover delay hands generation pending =>
    have hconnects : m.connects = s.manager.connects := hands.connects.trans (List.append_nil _)
    have hresumes : m.resumes = s.manager.resumes ++ [m.generation] := hands.resumes
    rw [call_of_hands hands]
    obtain ⟨hgenerations, hrests, haborted⟩ := h.close rfl generation hconnects
    refine ⟨ht, hc, hgenerations, hrests, haborted, ?_, fun no ↦ by cases no⟩
    intro token htoken
    cases htoken
    exact hresumes ▸ List.mem_append_right _ List.mem_cons_self
  | stop hands generation stopping =>
    have hconnects : m.connects = s.manager.connects := hands.connects.trans (List.append_nil _)
    have hresumes : m.resumes = s.manager.resumes := hands.resumes.trans (List.append_nil _)
    rw [call_of_hands hands]
    obtain ⟨hgenerations, hrests, haborted⟩ := h.close rfl generation hconnects
    refine ⟨ht, hc, hgenerations, hrests, haborted, hresumes ▸ h.waiting, ?_⟩
    intro _ token htoken
    exact generation ▸ Nat.lt_succ_of_le (h.waiting_le htoken)

/-- A connection attempt. -/
theorem Sound.call_begins (h : s.Sound) {m : CoinbaseConnectionManager}
    (hm : s.manager.toSession.Begins m.toSession) (ht : m.Tokens) (hc : m.Coherent) :
    (s.call m).Sound := by
  have hgeneration : m.generation = s.manager.generation + 1 := hm.generation
  have hconnects : m.connects = s.manager.connects ++ [m.generation] := hm.hands.connects
  have hresumes : m.resumes = s.manager.resumes := hm.hands.resumes.trans (List.append_nil _)
  rw [call_of_hands hm.hands]
  refine ⟨ht, hc, ?_, ?_, ?_, hresumes ▸ h.waiting, ?_⟩
  · change (s.clients ++ [_]).map Prod.fst = m.connects
    rw [List.map_append, h.generations, hconnects]
    rfl
  · intro entry hmem
    rcases List.mem_append.mp hmem with hold | hnew
    · exact h.rests entry hold
    · cases List.mem_singleton.mp hnew
      exact .inr ⟨@ClientRun.keeps_create ⟨2, true⟩ Nat.two_pos, rfl⟩
  · intro entry hmem haborted
    rcases List.mem_append.mp hmem with hold | hnew
    · exact Nat.lt_trans (h.aborted entry hold haborted) (hgeneration ▸ Nat.lt_succ_self _)
    · cases List.mem_singleton.mp hnew
      cases haborted
  · intro _ token htoken
    exact hgeneration ▸ Nat.lt_succ_of_le (h.waiting_le htoken)

variable (clock) in
private theorem Sound.call (h : s.Sound) (action : CoinbaseConnectionManager.Action) :
    (s.call (s.manager.step clock action)).Sound := by
  have hstep := CoinbaseConnectionManager.step_session_any clock s.manager action
    h.coherent.connected_idle
  have ht := hstep.tokens h.tokens
  have hc := hstep.coherent h.tokens h.coherent
  rcases hstep.move with hmove | hbegins
  · exact h.call_move hmove ht hc
  · exact h.call_begins hbegins ht hc

/-! ### Deliveries -/

variable (clock) in
/-- No callback of a client is a connection attempt. -/
theorem action_move (m : CoinbaseConnectionManager)
    (hi : m.connected = true → m.recoveryPending = false) (generation : Nat) (d : LiveDelivery)
    (handler : Handler) :
    m.toSession.Move (m.step clock (action generation d handler)).toSession := by
  have hidle := m.toSession.move_idle
  cases handler with
  | connected =>
    simp only [action, CoinbaseConnectionManager.step, CoinbaseConnectionManager.onConnected]
    split
    · split
      · unfold CoinbaseConnectionManager.handleConnected
        by_cases hc : m.connected = true
        · rwa [if_pos hc]
        · have hsession := CoinbaseConnectionManager.handleConnected_toSession clock m
            (Bool.eq_false_iff.mpr hc)
          unfold CoinbaseConnectionManager.handleConnected at hsession
          rw [hsession]
          exact .keep m.toSession.hands_established rfl rfl rfl fun _ ↦ rfl
      · exact hidle
    · exact hidle
  | message payload =>
    have hstep := CoinbaseConnectionManager.step_session_any clock m
      (action generation d (.message payload)) hi
    cases hhanded : m.handed (action generation d (.message payload)) with
    | some envelope =>
      rw [hhanded] at hstep
      exact hstep.move_message
    | none =>
      simp only [action, CoinbaseConnectionManager.handed, CoinbaseConnectionManager.step,
        CoinbaseConnectionManager.onMessage] at hhanded ⊢
      split
      · next ha =>
        rw [if_pos ha] at hhanded
        split
        · next hl =>
          rw [if_pos hl] at hhanded
          have hc : m.connected = false := by
            cases hc : m.connected with
            | false => rfl
            | true =>
              rw [hc] at hhanded
              cases hhanded
          simp only [CoinbaseConnectionManager.handleMessage, hc, Bool.not_false, if_true]
          exact hidle
        · exact hidle
      · exact hidle
  | error text =>
    simp only [action, CoinbaseConnectionManager.step, CoinbaseConnectionManager.onError]
    split
    · split
      · exact m.recover_move text .disconnected (by decide)
      · exact hidle
    · exact hidle

private theorem step_action_dead {m : CoinbaseConnectionManager} {generation : Nat}
    (h : m.live generation = false) (d : LiveDelivery) (handler : Handler) :
    m.step clock (action generation d handler) = m := by
  cases handler with
  | connected =>
    simp [action, CoinbaseConnectionManager.step, CoinbaseConnectionManager.onConnected, h]
  | message payload =>
    simp [action, CoinbaseConnectionManager.step, CoinbaseConnectionManager.onMessage, h]
  | error text =>
    simp [action, CoinbaseConnectionManager.step, CoinbaseConnectionManager.onError, h]

variable (clock) in
/-- Whatever a client with an outdated generation does concerns nobody else. -/
theorem deliver_dead {k generation : Nat} (h : s.manager.live generation = false)
    (client : ClientRun) (d : LiveDelivery) (next : List Reaction → Bool → ClientRun) :
    ∃ later, s.deliver clock k generation client d next =
      { s with clients := s.clients.set k (generation, later) } := by
  unfold deliver
  split
  · exact ⟨_, rfl⟩
  · next handler _ =>
    simp only [step_action_dead h d handler, call_self]
    exact ⟨_, rfl⟩

/-- One client is replaced by a later state of it. -/
theorem Sound.set (h : s.Sound) {k generation : Nat} {before later : ClientRun}
    (hk : s.clients[k]? = some (generation, before)) (hrests : later.Rests ⟨2, true⟩)
    (haborted : later.client.aborted = true → generation < s.manager.generation) :
    Sound { s with clients := s.clients.set k (generation, later) } := by
  refine { h with generations := ?_, rests := ?_, aborted := ?_ }
  · rw [← h.generations]
    apply List.ext_getElem?
    intro j
    rw [List.getElem?_map, List.getElem?_map, List.getElem?_set]
    split
    · next heq =>
      subst heq
      rw [if_pos (List.getElem?_eq_some_iff.mp hk).1, hk]
      rfl
    · rfl
  · intro entry hmem
    rcases List.mem_or_eq_of_mem_set hmem with hold | rfl
    · exact h.rests entry hold
    · exact hrests
  · intro entry hmem ha
    rcases List.mem_or_eq_of_mem_set hmem with hold | rfl
    · exact h.aborted entry hold ha
    · exact haborted ha

/-- A call keeps the generation of every client. -/
theorem call_getElem? {m : CoinbaseConnectionManager}
    (hm : s.manager.toSession.Move m.toSession) {k generation : Nat} {client : ClientRun}
    (hk : s.clients[k]? = some (generation, client)) :
    ∃ later, (s.call m).clients[k]? = some (generation, later) := by
  have hmodify : ∃ later, (s.clients.modify (s.clients.length - 1)
      fun entry ↦ (entry.1, entry.2.abort))[k]? = some (generation, later) := by
    rw [List.getElem?_modify, hk]
    by_cases hlast : s.clients.length - 1 = k
    · exact ⟨client.abort, congrArg some (if_pos hlast)⟩
    · exact ⟨client, congrArg some (if_neg hlast)⟩
  cases hm with
  | keep hands =>
    rw [call_of_hands hands]
    exact ⟨client, hk⟩
  | recover delay hands =>
    rw [call_of_hands hands]
    exact hmodify
  | stop hands =>
    rw [call_of_hands hands]
    exact hmodify

/-- A client that is told to abort itself is outdated. -/
theorem outdated_abort {m : CoinbaseConnectionManager}
    (hm : s.manager.toSession.Move m.toSession) {generation : Nat}
    (hle : generation ≤ s.manager.generation)
    (habort : .abort ∈ (m.trace.drop s.manager.trace.length).filterMap reaction) :
    generation < m.generation := by
  cases hm with
  | keep hands =>
    rw [reactions_of_hands hands] at habort
    cases habort
  | recover delay hands hgeneration => exact hgeneration ▸ Nat.lt_succ_of_le hle
  | stop hands hgeneration => exact hgeneration ▸ Nat.lt_succ_of_le hle

/-- A client goes on, and so does the manager if one of its callbacks is called. -/
theorem Sound.deliver (h : s.Sound) {k generation : Nat} {client : ClientRun}
    (hk : s.clients[k]? = some (generation, client)) (d : LiveDelivery)
    {next : List Reaction → Bool → ClientRun}
    (hrests : ∀ reactions proceed, (next reactions proceed).Rests ⟨2, true⟩)
    (haborted : ∀ {reactions proceed}, (next reactions proceed).client.aborted = true →
      client.client.aborted = true ∨ .abort ∈ reactions) :
    (s.deliver clock k generation client d next).Sound := by
  have hmem := List.mem_of_getElem? hk
  unfold LiveClients.deliver
  split
  · refine h.set hk (hrests _ _) fun ha ↦ ?_
    rcases haborted ha with ha | no
    · exact h.aborted _ hmem ha
    · cases no
  · next handler _ =>
    have hmove := action_move clock s.manager h.coherent.connected_idle generation d
      handler
    have hcall := h.call clock (action generation d handler)
    obtain ⟨before, hk'⟩ := call_getElem? hmove hk
    refine hcall.set hk' (hrests _ _) fun ha ↦ ?_
    rw [call_manager]
    rcases haborted ha with ha | ha
    · exact Nat.lt_of_lt_of_le (h.aborted _ hmem ha) hmove.generation_le
    · split at ha
      · exact outdated_abort hmove (h.le_generation hmem) ha
      · cases ha

private theorem Sound.complete (h : s.Sound) (k : Nat) (operation : Operation) (d : LiveDelivery) :
    (s.complete clock k operation d).Sound := by
  unfold LiveClients.complete
  split
  · exact h
  · next generation client hk =>
    have hrests := h.rests _ (List.mem_of_getElem? hk)
    exact h.deliver hk d (fun _ _ ↦ hrests.step (.complete operation _))
      ClientRun.aborted_complete

private theorem Sound.dial (h : s.Sound) (sni resolve : ErrorCode) :
    (s.dial clock sni resolve).Sound := by
  unfold LiveClients.dial
  split
  · exact h
  · next generation client hk =>
    have hrests := h.rests _ (List.mem_of_getElem? hk)
    exact h.deliver hk {} (fun reactions _ ↦ hrests.step (.connect sni resolve reactions))
      ClientRun.aborted_connect

private theorem Sound.attempt (h : s.Sound) (action : CoinbaseConnectionManager.Action)
    (sni resolve : ErrorCode) :
    (s.attempt clock (s.manager.step clock action) sni resolve).Sound := by
  have hcall := h.call clock action
  unfold LiveClients.attempt
  split
  · exact hcall
  · exact hcall.dial sni resolve

/-- A wait has come to its end. -/
theorem Sound.unwait (h : s.Sound) : Sound { s with waiting := none } :=
  { h with
    waiting := fun _ no ↦ by cases no
    cancelled := fun _ _ no ↦ by cases no }

private theorem Sound.step (h : s.Sound) (event : Event) : (s.step clock event).Sound := by
  cases event with
  | complete k operation d => exact h.complete k operation d
  | resume expired sni resolve =>
    simp only [LiveClients.step]
    split
    · exact h
    · next generation _ =>
      split
      · exact h.unwait.attempt (.resume generation) sni resolve
      · exact h.unwait
  | start sni resolve => exact h.attempt .start sni resolve
  | stop => exact h.call clock .stop
  | checkHealth => exact h.call clock .checkHealth
  | forceDisconnect => exact h.call clock .forceDisconnect
  | terminalRecordingFailure error => exact h.call clock (.terminalRecordingFailure error)

private theorem Sound.run (h : s.Sound) (events : List Event) : (s.run clock events).Sound := by
  induction events generalizing s with
  | nil => exact h
  | cons event events ih => exact ih (h.step event)

private theorem sound_create {config : FeedHealthConfig} {manager : CoinbaseConnectionManager}
    (h : CoinbaseConnectionManager.create clock config = .ok manager) :
    (ofManager manager).Sound where
  tokens := CoinbaseConnectionManager.create_tokens h
  coherent := CoinbaseConnectionManager.create_coherent h
  generations := by
    change [] = manager.connects
    rw [CoinbaseConnectionManager.create_toSession h]
    rfl
  rests := fun _ no ↦ by cases no
  aborted := fun _ no ↦ by cases no
  waiting := fun _ no ↦ by cases no
  cancelled := fun no ↦ by cases no

/-! ### Runs of the manager -/

section Acts

variable (clock)

/-- One action of the manager. -/
theorem call_acts (s : LiveClients) (action : CoinbaseConnectionManager.Action) :
    ∃ actions, (s.call (s.manager.step clock action)).manager = s.manager.run clock actions :=
  ⟨[action], s.call_manager _⟩

private theorem deliver_acts (s : LiveClients) (k generation : Nat) (client : ClientRun)
    (d : LiveDelivery) (next : List Reaction → Bool → ClientRun) :
    ∃ actions,
      (s.deliver clock k generation client d next).manager = s.manager.run clock actions := by
  unfold deliver
  split
  · exact ⟨[], rfl⟩
  · exact s.call_acts clock _

private theorem attempt_acts (s : LiveClients) (action : CoinbaseConnectionManager.Action)
    (sni resolve : ErrorCode) : ∃ actions,
      (s.attempt clock (s.manager.step clock action) sni resolve).manager =
        s.manager.run clock actions := by
  have hcall := s.call_acts clock action
  unfold attempt
  split
  · exact hcall
  · unfold dial
    split
    · exact hcall
    · obtain ⟨first, hfirst⟩ := hcall
      obtain ⟨second, hsecond⟩ := (s.call (s.manager.step clock action)).deliver_acts
        clock _ _ _ {} fun reactions _ ↦ _
      exact ⟨first ++ second, by rw [hsecond, hfirst, CoinbaseConnectionManager.run_append]⟩

/-- Each event is a run of the manager alone. -/
theorem step_acts (s : LiveClients) (event : Event) :
    ∃ actions, (s.step clock event).manager = s.manager.run clock actions := by
  cases event with
  | complete k operation d =>
    simp only [step, complete]
    split
    · exact ⟨[], rfl⟩
    · exact s.deliver_acts clock _ _ _ _ _
  | resume expired sni resolve =>
    simp only [step]
    split
    · exact ⟨[], rfl⟩
    · split
      · exact attempt_acts clock _ _ sni resolve
      · exact ⟨[], rfl⟩
  | start sni resolve => exact s.attempt_acts clock .start sni resolve
  | stop => exact s.call_acts clock .stop
  | checkHealth => exact s.call_acts clock .checkHealth
  | forceDisconnect => exact s.call_acts clock .forceDisconnect
  | terminalRecordingFailure error => exact s.call_acts clock (.terminalRecordingFailure error)

private theorem run_acts (s : LiveClients) (events : List Event) :
    ∃ actions, (s.run clock events).manager = s.manager.run clock actions := by
  induction events generalizing s with
  | nil => exact ⟨[], rfl⟩
  | cons event events ih =>
    obtain ⟨first, hfirst⟩ := s.step_acts clock event
    obtain ⟨second, hsecond⟩ := ih (s.step clock event)
    refine ⟨first ++ second, ?_⟩
    rw [CoinbaseConnectionManager.run_append, ← hfirst, ← hsecond]
    rfl

end Acts

private theorem run_append (s : LiveClients) (pre post : List Event) :
    s.run clock (pre ++ post) = (s.run clock pre).run clock post :=
  List.foldl_append

/-- A client that has once been abandoned stays outdated. -/
theorem run_outdated {config : FeedHealthConfig} {manager : CoinbaseConnectionManager}
    (hm : CoinbaseConnectionManager.create clock config = .ok manager) (pre post : List Event)
    {k generation : Nat} {client : ClientRun}
    (hk : ((ofManager manager).run clock pre).clients[k]? = some (generation, client))
    (habandoned : ((ofManager manager).run clock pre).Abandoned k client) :
    generation < ((ofManager manager).run clock (pre ++ post)).manager.generation ∧
      ∃ later, ((ofManager manager).run clock (pre ++ post)).clients[k]? =
        some (generation, later) := by
  have hsound : ((ofManager manager).run clock pre).Sound := (sound_create hm).run pre
  have hlater : ((ofManager manager).run clock (pre ++ post)).Sound :=
    (sound_create hm).run (pre ++ post)
  obtain ⟨first, hfirst⟩ := run_acts clock (ofManager manager) pre
  obtain ⟨second, hsecond⟩ := run_acts clock ((ofManager manager).run clock pre) post
  rw [hfirst, ← run_append, ← CoinbaseConnectionManager.run_append] at hsecond
  generalize (ofManager manager).run clock pre = s at *
  generalize (ofManager manager).run clock (pre ++ post) = s' at *
  have hle : s.manager.generation ≤ s'.manager.generation := by
    rw [hfirst, hsecond]
    exact CoinbaseConnectionManager.generation_le_run hm first second
  have hattempts : s.clients.map Prod.fst <+: s'.clients.map Prod.fst := by
    rw [hsound.generations, hlater.generations, hfirst, hsecond]
    exact CoinbaseConnectionManager.connects_run hm first second
  refine ⟨Nat.lt_of_lt_of_le (hsound.outdated hk habandoned) hle, ?_⟩
  have hfst : (s.clients.map Prod.fst)[k]? = some generation := by
    rw [List.getElem?_map, hk]
    rfl
  obtain ⟨rest, hrest⟩ := hattempts
  have hfst' : (s'.clients.map Prod.fst)[k]? = some generation := by
    rw [← hrest, List.getElem?_append_left (List.getElem?_eq_some_iff.mp hfst).1, hfst]
  rw [List.getElem?_map] at hfst'
  obtain ⟨⟨_, later⟩, hk', rfl⟩ := Option.map_eq_some_iff.mp hfst'
  exact ⟨later, hk'⟩

/-- A client that `run_live` has aborted or replaced is harmless from then on: whatever happens
afterwards, none of its completions changes the manager, the wait or another client. -/
theorem abandoned_client_isolated {config : FeedHealthConfig} {manager : CoinbaseConnectionManager}
    (hm : CoinbaseConnectionManager.create clock config = .ok manager) (pre post : List Event)
    {k generation : Nat} {client : ClientRun}
    (hk : ((ofManager manager).run clock pre).clients[k]? = some (generation, client))
    (habandoned : ((ofManager manager).run clock pre).Abandoned k client) (operation : Operation)
    (d : LiveDelivery) :
    let s := (ofManager manager).run clock (pre ++ post)
    let s' := s.step clock (.complete k operation d)
    s'.manager = s.manager ∧ s'.waiting = s.waiting ∧ s'.cancelled = s.cancelled ∧
      s'.clients.length = s.clients.length ∧ ∀ j, j ≠ k → s'.clients[j]? = s.clients[j]? := by
  intro s s'
  obtain ⟨houtdated, later, hlater⟩ := run_outdated hm pre post hk habandoned
  have hdead : s.manager.live generation = false := by
    rw [← Bool.not_eq_true, CoinbaseConnectionManager.live_iff]
    exact fun hlive ↦ Nat.ne_of_lt houtdated hlive.2
  obtain ⟨after, hafter⟩ : ∃ after,
      s' = { s with clients := s.clients.set k (generation, after) } := by
    have hcomplete : s' = s.deliver clock k generation later d fun reactions proceed ↦
        later.complete operation ⟨d.code, d.isOpen, d.payload, reactions, proceed⟩ := by
      simp only [s', step, complete]
      rw [hlater]
    rw [hcomplete]
    exact deliver_dead clock hdead later d _
  rw [hafter]
  refine ⟨rfl, rfl, rfl, List.length_set, fun j hj ↦ ?_⟩
  exact List.getElem?_set_ne hj.symm

/-- A connection is made and then given up while a read is outstanding. -/
def forced : List Event :=
  [.start .success .success, .complete 0 .connect {}, .complete 0 .tlsHandshake {},
    .complete 0 .handshake {}, .complete 0 (.write 0) {}, .complete 0 (.write 1) {},
    .forceDisconnect]

/-- The read completes with a message after the next attempt has begun. -/
theorem abandoned_client_isolated_read :
    ∃ manager, CoinbaseConnectionManager.create (fun _ ↦ ⟨0⟩) {} = .ok manager ∧
      let s := (ofManager manager).run (fun _ ↦ ⟨0⟩) (forced ++ [.resume true .success .success])
      (s.clients.map fun entry ↦ (entry.1, entry.2.client.pending)) =
        [(1, [.read]), (3, [.connect])] ∧
      (s.step (fun _ ↦ ⟨0⟩) (.complete 0 .read { payload := ascii "late" })).manager =
        s.manager := by
  have hrun : (CoinbaseConnectionManager.create (fun _ ↦ ⟨0⟩) {}).toOption.map (fun manager ↦
      let s := (ofManager manager).run (fun _ ↦ ⟨0⟩) forced
      let s' := (ofManager manager).run (fun _ ↦ ⟨0⟩) (forced ++ [.resume true .success .success])
      (s.clients.map fun entry ↦ (entry.1, entry.2.client.aborted),
        s'.clients.map fun entry ↦ (entry.1, entry.2.client.pending))) =
      some ([(1, true)], [(1, [.read]), (3, [.connect])]) := by decide +kernel
  obtain ⟨manager, hm⟩ : ∃ manager,
      CoinbaseConnectionManager.create (fun _ ↦ ⟨0⟩) {} = .ok manager := ⟨_, rfl⟩
  rw [hm] at hrun
  obtain ⟨haborted, hpending⟩ := Prod.mk.inj (Option.some.inj hrun)
  obtain ⟨⟨generation, client⟩, hclients, hentry⟩ := List.map_eq_singleton_iff.mp haborted
  have hk : ((ofManager manager).run (fun _ ↦ ⟨0⟩) forced).clients[0]? =
      some (generation, client) := congrArg (·[0]?) hclients
  refine ⟨manager, hm, hpending, ?_⟩
  exact (abandoned_client_isolated hm forced [.resume true .success .success] hk
    (.inl (Prod.mk.inj hentry).2) .read { payload := ascii "late" }).1

/-! ### What is waited for -/

/-- The manager has stopped or waits for the next attempt. -/
def Ended (s : LiveClients) : Prop :=
  s.manager.stopping = true ∨
    s.manager.recoveryPending = true ∧ s.waiting = some s.manager.generation

/-- A running manager waits for the next attempt, or its current client is on its way. -/
structure Attended (s : LiveClients) : Prop where
  waits : s.manager.stopping = false → s.manager.recoveryPending = true →
    s.waiting = some s.manager.generation
  lives : s.manager.stopping = false → s.manager.recoveryPending = false →
    ∃ client, s.clients[s.clients.length - 1]? = some (s.manager.generation, client) ∧
      client.Runs ⟨2, true⟩ ∧ client.client.stopping = false ∧
      (.read ∈ client.client.pending → s.manager.connected = true)

private theorem Ended.attended (h : s.Ended) : s.Attended := by
  rcases h with hstop | ⟨hpending, hwaiting⟩
  · refine ⟨fun hrun ↦ ?_, fun hrun ↦ ?_⟩
    · rw [hstop] at hrun
      cases hrun
    · rw [hstop] at hrun
      cases hrun
  · refine ⟨fun _ _ ↦ hwaiting, fun _ hidle ↦ ?_⟩
    rw [hpending] at hidle
    cases hidle

/-- A call keeps the connection or ends it. -/
theorem call_ends {m : CoinbaseConnectionManager} (hm : s.manager.toSession.Move m.toSession) :
    (s.call m).Ended ∨
      (s.call m = { s with manager := m } ∧ m.generation = s.manager.generation ∧
        m.stopping = s.manager.stopping ∧ m.recoveryPending = s.manager.recoveryPending ∧
        (s.manager.connected = true → m.connected = true) ∧
        (m.trace.drop s.manager.trace.length).filterMap reaction = []) := by
  cases hm with
  | keep hands generation stopping pending connected =>
    have hcancelled : (s.cancelled || !s.manager.stopping && m.stopping) = s.cancelled := by
      rw [stopping, Bool.not_and_self, Bool.or_false]
    refine .inr ⟨?_, generation, stopping, pending, connected, reactions_of_hands hands⟩
    rw [call_of_hands hands, List.foldl_nil, hcancelled]
  | recover delay hands generation pending =>
    refine .inl (.inr ?_)
    rw [call_of_hands hands]
    exact ⟨pending, rfl⟩
  | stop hands generation stopping =>
    refine .inl (.inl ?_)
    rw [call_of_hands hands]
    exact stopping

private theorem Attended.call_move (h : s.Attended) {m : CoinbaseConnectionManager}
    (hm : s.manager.toSession.Move m.toSession) : (s.call m).Attended := by
  rcases call_ends hm with hended | ⟨hcall, hgeneration, hstopping, hpending, hconnected, -⟩
  · exact hended.attended
  · rw [hcall]
    refine ⟨fun hrun hp ↦ ?_, fun hrun hp ↦ ?_⟩
    · exact (h.waits (hstopping ▸ hrun) (hpending ▸ hp)).trans (congrArg some hgeneration.symm)
    · obtain ⟨client, hlast, hruns, hgoing, hread⟩ :=
        h.lives (hstopping ▸ hrun) (hpending ▸ hp)
      refine ⟨client, ?_, hruns, hgoing, fun hmem ↦ hconnected (hread hmem)⟩
      exact hlast.trans (congrArg (fun g ↦ some (g, client)) hgeneration.symm)

/-- A callback of the current client that does not end the connection: the client is to go on,
and the manager is connected. -/
theorem action_goes_on {m : CoinbaseConnectionManager} (hr : m.stopping = false)
    (hattempt : m.generation ∈ m.connects) (d : LiveDelivery) {handler : Handler}
    (hc : ∀ payload, handler = .message payload → m.connected = true)
    (hkeep : m.connected = true →
      (m.step clock (action m.generation d handler)).connected = true)
    (hstop : (m.step clock (action m.generation d handler)).stopping = false)
    (hidle : (m.step clock (action m.generation d handler)).recoveryPending = false) :
    proceeds clock m m.generation d handler = true ∧
      (m.step clock (action m.generation d handler)).connected = true ∧
      ∀ text, handler ≠ .error text := by
  have hlive : m.live m.generation = true := by simp [CoinbaseConnectionManager.live, hr]
  have hattempted : m.attempted m.generation = true :=
    (CoinbaseConnectionManager.attempted_iff m _).mpr (Session.mem_connects.mp hattempt)
  have hends {m' : CoinbaseConnectionManager}
      (h : m'.stopping = true ∨ m'.recoveryPending = true) (hstop : m'.stopping = false)
      (hidle : m'.recoveryPending = false) : False := by
    rw [hstop, hidle] at h
    rcases h with h | h <;> cases h
  cases handler with
  | connected =>
    refine ⟨rfl, ?_, fun _ no ↦ by cases no⟩
    by_cases hcon : m.connected = true
    · exact hkeep hcon
    · have hsession := CoinbaseConnectionManager.handleConnected_toSession clock m
        (Bool.eq_false_iff.mpr hcon)
      simp only [action, CoinbaseConnectionManager.step, CoinbaseConnectionManager.onConnected,
        hattempted, hlive, if_true]
      exact congrArg Session.connected hsession
  | message payload =>
    have hcon := hc payload rfl
    refine ⟨?_, hkeep hcon, fun _ no ↦ by cases no⟩
    simp only [action, CoinbaseConnectionManager.step, CoinbaseConnectionManager.onMessage,
      hattempted, hlive, if_true] at hstop hidle
    simp only [proceeds, CoinbaseConnectionManager.onMessage, hlive, if_true]
    by_contra hclosed
    exact hends (CoinbaseConnectionManager.handleMessage_ends m payload d.wall d.mono d.response
      d.now hcon (Bool.eq_false_iff.mpr hclosed)) hstop hidle
  | error text =>
    simp only [action, CoinbaseConnectionManager.step, CoinbaseConnectionManager.onError,
      hattempted, hlive, if_true] at hstop hidle
    exact (hends (m.recover_ends text .disconnected (by decide)) hstop hidle).elim

private theorem getElem?_set_last {clients : List (Nat × ClientRun)} (hne : clients ≠ [])
    (entry : Nat × ClientRun) :
    (clients.set (clients.length - 1) entry)[(clients.set (clients.length - 1) entry).length - 1]? =
      some entry := by
  have hlt : clients.length - 1 < clients.length :=
    Nat.sub_lt (List.length_pos_iff.mpr hne) Nat.one_pos
  rw [List.length_set, List.getElem?_set_self hlt]

/-- The current client goes on; `called` is the callback on its way. -/
theorem Sound.deliver_current (h : s.Sound) {client : ClientRun}
    (hrun : s.manager.stopping = false)
    (hlast : s.clients[s.clients.length - 1]? = some (s.manager.generation, client))
    (d : LiveDelivery) {next : List Reaction → Bool → ClientRun} {called : Option Handler}
    (hidle : s.manager.recoveryPending = false)
    (hcalled : (next [] true).handlers = client.handlers ++ called.toList)
    (hruns : ∀ reactions proceed, (next reactions proceed).Runs ⟨2, true⟩)
    (hgoes : (∀ text, called ≠ some (.error text)) → (next [] true).client.stopping = false ∧
      (.read ∈ (next [] true).client.pending → called ≠ none))
    (hmessage : ∀ payload, called = some (.message payload) → s.manager.connected = true) :
    (s.deliver clock (s.clients.length - 1) s.manager.generation client d next).Attended := by
  have hne : s.clients ≠ [] := by
    intro hnil
    rw [hnil] at hlast
    cases hlast
  have hattempt : s.manager.generation ∈ s.manager.connects := by
    rw [← h.generations]
    exact List.mem_map_of_mem (List.mem_of_getElem? hlast)
  unfold LiveClients.deliver
  rw [hcalled, List.drop_left]
  cases called with
  | none =>
    obtain ⟨hgoing, hread⟩ := hgoes (by simp)
    refine ⟨fun _ hp ↦ ?_, fun _ _ ↦ ?_⟩
    · cases hp.symm.trans hidle
    · exact ⟨_, getElem?_set_last hne _, hruns _ _, hgoing, fun hmem ↦ absurd rfl (hread hmem)⟩
  | some handler =>
    dsimp only [Option.toList_some, List.head?_cons]
    have hmove := action_move clock s.manager h.coherent.connected_idle s.manager.generation d
      handler
    rcases call_ends hmove with hended | ⟨hcall, hgeneration, hstopping, hpending, hkeep, hquiet⟩
    · have hlater := hended
      generalize s.call _ = s' at hlater ⊢
      exact Ended.attended (s := { s' with clients := _ }) hlater
    · obtain ⟨hproceed, hconnected, hfine⟩ := action_goes_on hrun hattempt d
        (fun payload heq ↦ hmessage payload (congrArg some heq)) hkeep
        (hstopping.trans hrun) (hpending.trans hidle)
      obtain ⟨hgoing, -⟩ := hgoes fun text heq ↦ hfine text (Option.some.inj heq)
      rw [hcall, hquiet, hproceed, ite_self]
      refine ⟨fun _ hp ↦ ?_, fun _ _ ↦ ?_⟩
      · cases hp.symm.trans (hpending.trans hidle)
      · refine ⟨_, ?_, hruns _ _, hgoing, fun _ ↦ hconnected⟩
        exact (getElem?_set_last hne _).trans
          (congrArg (fun g ↦ some (g, _)) hgeneration.symm)

/-- A generation belongs to one client. -/
theorem Sound.index_eq (h : s.Sound) {i j generation : Nat} {client other : ClientRun}
    (hi : s.clients[i]? = some (generation, client))
    (hj : s.clients[j]? = some (generation, other)) : i = j := by
  have hnodup : (s.clients.map Prod.fst).Nodup := by
    rw [h.generations]
    exact h.tokens.connects_lt.imp fun hlt ↦ Nat.ne_of_lt hlt
  have hfst {n : Nat} {entry : ClientRun} (hn : s.clients[n]? = some (generation, entry)) :
      (s.clients.map Prod.fst)[n]? = some generation := by
    rw [List.getElem?_map, hn]
    rfl
  have hbound := (List.getElem?_eq_some_iff.mp (hfst hi)).1
  exact (List.getElem?_inj hbound hnodup).mp ((hfst hi).trans (hfst hj).symm)

private theorem Attended.complete (h : s.Attended) (hs : s.Sound) (k : Nat) (operation : Operation)
    (d : LiveDelivery) : (s.complete clock k operation d).Attended := by
  unfold LiveClients.complete
  split
  · exact h
  · next generation client hk =>
    have hmem := List.mem_of_getElem? hk
    cases hlive : s.manager.live generation with
    | false =>
      -- an outdated client changes nothing but itself, and it is not the last one
      obtain ⟨later, hlater⟩ := deliver_dead clock (k := k) hlive client d
        fun reactions proceed ↦
          client.complete operation ⟨d.code, d.isOpen, d.payload, reactions, proceed⟩
      rw [hlater]
      refine ⟨h.waits, fun hrun hidle ↦ ?_⟩
      obtain ⟨current, hlast, hcurrent⟩ := h.lives hrun hidle
      have hother : k ≠ s.clients.length - 1 := by
        intro heq
        rw [heq, hlast] at hk
        cases hk
        rw [(CoinbaseConnectionManager.live_iff _ _).mpr ⟨hrun, rfl⟩] at hlive
        cases hlive
      refine ⟨current, ?_, hcurrent⟩
      rw [List.length_set, List.getElem?_set_ne hother]
      exact hlast
    | true =>
      obtain ⟨hrun, rfl⟩ := (CoinbaseConnectionManager.live_iff _ _).mp hlive
      have hattempt : s.manager.generation ∈ s.manager.connects := by
        rw [← hs.generations]
        exact List.mem_map_of_mem hmem
      -- a pending recovery has a generation of its own, without an attempt
      have hidle : s.manager.recoveryPending = false := by
        cases hpending : s.manager.recoveryPending with
        | false => rfl
        | true => exact absurd hattempt (hs.tokens.pending hrun hpending).2
      obtain ⟨current, hlast, hruns, hgoing, hread⟩ := h.lives hrun hidle
      cases hs.index_eq hk hlast
      cases hk.symm.trans hlast
      by_cases hpending : operation ∈ client.client.pending
      · refine hs.deliver_current hrun hlast d hidle
          (ClientRun.handlers_complete hpending _) (fun _ _ ↦ hruns.complete operation _)
          (fun hok ↦ hruns.goes_on rfl hgoing hpending rfl rfl hok) fun payload hcalled ↦ ?_
        exact hread (ClientRun.callback_message hcalled ▸ hpending)
      · have hsame (answer : Answer) : client.complete operation answer = client :=
          if_neg hpending
        have hdeliver : s.deliver clock (s.clients.length - 1) s.manager.generation client d
            (fun reactions proceed ↦
              client.complete operation ⟨d.code, d.isOpen, d.payload, reactions, proceed⟩) = s := by
          simp only [LiveClients.deliver, hsame, List.drop_length, List.head?_nil]
          obtain ⟨hbound, heq⟩ := List.getElem?_eq_some_iff.mp hlast
          rw [← heq, List.set_getElem_self]
        rw [hdeliver]
        exact h

/-- The new client of an attempt is told to connect. -/
theorem Sound.dial_begun (h : s.Sound) {m : CoinbaseConnectionManager}
    (hm : s.manager.toSession.Begins m.toSession) (ht : m.Tokens) (hc : m.Coherent)
    (sni resolve : ErrorCode) : ((s.call m).dial clock sni resolve).Attended := by
  have hbegun := h.call_begins hm ht hc
  have hcall : (s.call m).clients =
      s.clients ++ [(m.generation, ⟨.create 2, true, false, []⟩)] := by
    rw [call_of_hands hm.hands]
    rfl
  have hlast : (s.call m).clients[(s.call m).clients.length - 1]? =
      some ((s.call m).manager.generation, ⟨.create 2, true, false, []⟩) := by
    rw [hcall, call_manager, List.length_append, List.length_singleton, Nat.add_sub_cancel,
      List.getElem?_concat_length]
  have hmanager := s.call_manager m
  unfold LiveClients.dial
  rw [hlast]
  refine hbegun.deliver_current ?_ hlast {} ?_
    (ClientRun.handlers_connect rfl rfl sni resolve [])
    (fun reactions _ ↦
      (@ClientRun.keeps_create ⟨2, true⟩ Nat.two_pos).connect_runs rfl sni resolve reactions)
    ?_ ?_
  · rw [hmanager]
    exact hm.stopping
  · rw [hmanager]
    exact hm.pending
  · intro hok
    obtain ⟨hsni, hresolve⟩ := ClientRun.accepted_of_refusal hok
    have hconnect : ClientRun.connect ⟨.create 2, true, false, []⟩ sni resolve [] =
        { (⟨.create 2, true, false, []⟩ : ClientRun) with started := true }.begin .connect := by
      simp [ClientRun.connect, hsni, hresolve, WebSocketClient.create]
    rw [hconnect]
    exact ⟨rfl, fun hmem ↦ by cases List.mem_singleton.mp hmem⟩
  · intro payload hcalled
    unfold ClientRun.refusal at hcalled
    split at hcalled
    · cases hcalled
    · split at hcalled <;> cases hcalled

private theorem length_call_move {m : CoinbaseConnectionManager}
    (hm : s.manager.toSession.Move m.toSession) :
    (s.call m).clients.length = s.clients.length := by
  cases hm with
  | keep hands =>
    rw [call_of_hands hands]
    rfl
  | recover delay hands =>
    rw [call_of_hands hands]
    exact List.length_modify _ _ _
  | stop hands =>
    rw [call_of_hands hands]
    exact List.length_modify _ _ _

private theorem length_call_begins {m : CoinbaseConnectionManager}
    (hm : s.manager.toSession.Begins m.toSession) :
    (s.call m).clients.length = s.clients.length + 1 := by
  rw [call_of_hands hm.hands]
  exact List.length_append

/-- An action that may be a connection attempt. -/
theorem Sound.attempt_attended (h : s.Sound) (action : CoinbaseConnectionManager.Action)
    (ha : s.manager.toSession.Move (s.manager.step clock action).toSession → s.Attended)
    (sni resolve : ErrorCode) :
    (s.attempt clock (s.manager.step clock action) sni resolve).Attended := by
  have hstep := CoinbaseConnectionManager.step_session_any clock s.manager action
    h.coherent.connected_idle
  unfold LiveClients.attempt
  rcases hstep.move with hmove | hbegins
  · rw [if_pos (length_call_move hmove)]
    exact (ha hmove).call_move hmove
  · rw [if_neg (length_call_begins hbegins ▸ Nat.succ_ne_self _)]
    exact h.dial_begun hbegins (hstep.tokens h.tokens) (hstep.coherent h.tokens h.coherent) sni
      resolve

variable (clock) in
/-- A wait that has expired while the manager waits for it is an attempt. -/
theorem resume_begins {m : CoinbaseConnectionManager} (hrun : m.stopping = false)
    (hmem : m.generation ∈ m.resumes) :
    m.toSession.Begins (m.step clock (.resume m.generation)).toSession := by
  have hlive : m.live m.generation = true := by simp [CoinbaseConnectionManager.live, hrun]
  have hscheduled : m.scheduled m.generation = true :=
    (CoinbaseConnectionManager.scheduled_iff m _).mpr (Session.mem_resumes.mp hmem)
  have hstep : m.step clock (.resume m.generation) = m.beginConnection clock := by
    simp [CoinbaseConnectionManager.step, CoinbaseConnectionManager.onResume, hscheduled, hlive]
  rw [hstep, CoinbaseConnectionManager.beginConnection_toSession clock m hrun]
  exact ⟨m.toSession.hands_begun, rfl, hrun, rfl⟩

/-- The end of a wait. -/
theorem Attended.resume (h : s.Attended) (hs : s.Sound) (expired : Bool)
    (sni resolve : ErrorCode) : (s.step clock (.resume expired sni resolve)).Attended := by
  simp only [LiveClients.step]
  split
  · exact h
  · next generation hwaiting =>
    -- Without the wait nothing is lost, unless the manager waits for it.
    have hunwait (hother : s.manager.stopping = false → generation ≠ s.manager.generation) :
        Attended { s with waiting := none } := by
      refine ⟨fun hrun hpending ↦ ?_, h.lives⟩
      cases hwaiting.symm.trans (h.waits hrun hpending)
      exact absurd rfl (hother hrun)
    split
    · refine hs.unwait.attempt_attended (.resume generation) (fun hmove ↦ ?_) sni resolve
      refine hunwait fun hrun heq ↦ ?_
      subst heq
      exact (resume_begins clock hrun (hs.waiting _ hwaiting)).not_move hmove
    · next hcancelled =>
      simp only [Bool.or_eq_true, Bool.not_eq_true', not_or, Bool.not_eq_false] at hcancelled
      exact hunwait fun _ ↦ Nat.ne_of_lt (hs.cancelled hcancelled.2 generation hwaiting)

private theorem Attended.step (h : s.Attended) (hs : s.Sound) (event : Event) :
    (s.step clock event).Attended := by
  cases event with
  | complete k operation d => exact h.complete hs k operation d
  | resume expired sni resolve => exact h.resume hs expired sni resolve
  | start sni resolve => exact hs.attempt_attended .start (fun _ ↦ h) sni resolve
  | stop => exact h.call_move s.manager.stop_move
  | checkHealth => exact h.call_move s.manager.checkHealth_move
  | forceDisconnect => exact h.call_move (s.manager.recover_move _ _ (by decide))
  | terminalRecordingFailure error =>
    refine h.call_move ?_
    rw [CoinbaseConnectionManager.step,
      CoinbaseConnectionManager.terminalRecordingFailure_toSession]
    exact s.manager.toSession.move_terminated

private theorem Attended.run (h : s.Attended) (hs : s.Sound) (events : List Event) :
    (s.run clock events).Attended := by
  induction events generalizing s with
  | nil => exact h
  | cons event events ih => exact ih (h.step hs event) (hs.step event)

private theorem attended_create {config : FeedHealthConfig} {manager : CoinbaseConnectionManager}
    (h : CoinbaseConnectionManager.create clock config = .ok manager) :
    (ofManager manager).Attended := by
  refine Ended.attended (.inl ?_)
  change manager.stopping = true
  rw [CoinbaseConnectionManager.create_toSession h]

private theorem Sound.length_deliver (h : s.Sound) (k generation : Nat) (client : ClientRun)
    (d : LiveDelivery) (next : List Reaction → Bool → ClientRun) :
    (s.deliver clock k generation client d next).clients.length = s.clients.length := by
  unfold LiveClients.deliver
  split
  · exact List.length_set
  · exact List.length_set.trans
      (length_call_move (action_move clock s.manager h.coherent.connected_idle generation d _))

/-- The wait that the manager waits for makes the next attempt. -/
theorem Sound.length_resume (h : s.Sound) (hrun : s.manager.stopping = false)
    (hwaiting : s.waiting = some s.manager.generation) (expired : Bool) (sni resolve : ErrorCode) :
    (s.step clock (.resume expired sni resolve)).clients.length = s.clients.length + 1 := by
  have hcancelled : s.cancelled = false := by
    cases hc : s.cancelled with
    | false => rfl
    | true => exact absurd (h.cancelled hc _ hwaiting) (Nat.lt_irrefl _)
  have hexpired : (expired || !s.cancelled) = true := by
    rw [hcancelled, Bool.not_false, Bool.or_true]
  have hbegins := resume_begins clock hrun (h.waiting _ hwaiting)
  have hlength := length_call_begins (s := { s with waiting := none }) hbegins
  have hcall := h.unwait.call clock (.resume s.manager.generation)
  simp only [LiveClients.step, hwaiting, if_pos hexpired]
  unfold LiveClients.attempt
  rw [if_neg (hlength ▸ Nat.succ_ne_self _)]
  unfold LiveClients.dial
  split
  · exact hlength
  · exact (hcall.length_deliver _ _ _ _ _).trans hlength

/-- While the manager of `run_live` runs, something is outstanding that leads on. Either a recovery
is pending, and the end of the wait for it makes the next attempt, whatever code it comes with; or
the current client waits for exactly one operation, and a message that it reads is never ignored,
since the manager is connected. -/
theorem live_never_stuck {config : FeedHealthConfig} {manager : CoinbaseConnectionManager}
    (hm : CoinbaseConnectionManager.create clock config = .ok manager) (events : List Event) :
    let s := (ofManager manager).run clock events
    s.manager.stopping = false →
      (s.manager.recoveryPending = true ∧ s.waiting = some s.manager.generation ∧
        ∀ expired sni resolve,
          (s.step clock (.resume expired sni resolve)).clients.length = s.clients.length + 1) ∨
      (s.manager.recoveryPending = false ∧ ∃ client operation,
        s.clients.getLast? = some (s.manager.generation, client) ∧
          client.client.stopping = false ∧ client.client.pending = [operation] ∧
          (operation = .read → s.manager.connected = true)) := by
  intro s hrun
  have hsound : s.Sound := (sound_create hm).run events
  have hattended : s.Attended := (attended_create hm).run (sound_create hm) events
  cases hpending : s.manager.recoveryPending with
  | true =>
    have hwaiting := hattended.waits hrun hpending
    exact .inl ⟨rfl, hwaiting, hsound.length_resume hrun hwaiting⟩
  | false =>
    obtain ⟨client, hlast, hruns, hgoing, hread⟩ := hattended.lives hrun hpending
    obtain ⟨operation, hwaits⟩ := hruns.waits hgoing
    refine .inr ⟨rfl, client, operation, ?_, hgoing, hwaits, fun heq ↦ ?_⟩
    · rw [List.getLast?_eq_getElem?]
      exact hlast
    · apply hread
      rw [hwaits, heq]
      exact List.mem_singleton_self _

/-- After a forced disconnect the wait is outstanding, and its end makes a second client. -/
theorem live_never_stuck_forced :
    ∃ manager, CoinbaseConnectionManager.create (fun _ ↦ ⟨0⟩) {} = .ok manager ∧
      let s := (ofManager manager).run (fun _ ↦ ⟨0⟩) forced
      s.manager.stopping = false ∧ s.waiting = some 2 ∧
        (s.step (fun _ ↦ ⟨0⟩) (.resume false .success .success)).clients.length =
          s.clients.length + 1 := by
  have hrun : (CoinbaseConnectionManager.create (fun _ ↦ ⟨0⟩) {}).toOption.map (fun manager ↦
      let s := (ofManager manager).run (fun _ ↦ ⟨0⟩) forced
      (s.manager.stopping, s.manager.recoveryPending, s.waiting)) =
      some (false, true, some 2) := by decide +kernel
  obtain ⟨manager, hm⟩ : ∃ manager,
      CoinbaseConnectionManager.create (fun _ ↦ ⟨0⟩) {} = .ok manager := ⟨_, rfl⟩
  rw [hm] at hrun
  obtain ⟨hstopping, hrest⟩ := Prod.mk.inj (Option.some.inj hrun)
  obtain ⟨hpending, hwaiting⟩ := Prod.mk.inj hrest
  refine ⟨manager, hm, hstopping, hwaiting, ?_⟩
  rcases live_never_stuck hm forced hstopping with ⟨-, -, hnext⟩ | ⟨hidle, -⟩
  · exact hnext false .success .success
  · cases hpending.symm.trans hidle

end LiveClients

end ArbitrageEngine.Pipeline
