import ArbitrageEngine.Pipeline.KrakenClients
import ArbitrageEngine.Transport.ClientProtocol

/-!
# The clients of `run_kraken` follow the protocol

`src/pipeline/kraken_runtime.cpp` with `src/transport/websocket_client.cpp`: the market thread is
an owner like any other, so each of its clients is a client of the protocol. While the loop has not
been told to stop it always waits for something that leads on.
-/

namespace ArbitrageEngine.Pipeline

open Base ArbitrageEngine.Core Kraken Recording Transport

/-! ### Clients of the protocol -/

/-- The state of a client that has come about by the protocol, after its `connect`. -/
def Behaves (client : WebSocketClient) : Prop :=
  ∃ sni resolve reactions events, client = (ClientRun.run ⟨.create 1, true, false, []⟩
    (.connect sni resolve reactions :: events)).client

/-- A client that has been connected runs, whatever has happened since. -/
theorem runs_connected (sni resolve : ErrorCode) (reactions : List Reaction)
    (events : List ClientRun.Event) :
    (ClientRun.run ⟨.create 1, true, false, []⟩
      (.connect sni resolve reactions :: events)).Runs ⟨1, true⟩ := by
  have hidle := @ClientRun.keeps_create ⟨1, true⟩ Nat.one_pos
  exact (hidle.connect_runs rfl sni resolve reactions).run events

/-- One more event. -/
theorem Behaves.step {client later : WebSocketClient} (h : Behaves client)
    (event : ClientRun.Event)
    (hlater : ∀ run : ClientRun, run.client = client → run.connected = true →
      later = (run.step event).client) :
    Behaves later := by
  obtain ⟨sni, resolve, reactions, events, rfl⟩ := h
  refine ⟨sni, resolve, reactions, events ++ [event], ?_⟩
  have hconnected := (runs_connected sni resolve reactions events).connected
  rw [hlater _ rfl hconnected, ← List.cons_append, ClientRun.run, ClientRun.run, List.foldl_append]
  rfl

/-- The calls that have led to a client. -/
theorem Behaves.runs {client : WebSocketClient} (h : Behaves client) :
    ∃ calls : List ClientRun.Event,
      (ClientRun.run ⟨.create 1, true, false, []⟩ calls).Runs ⟨1, true⟩ ∧
        (ClientRun.run ⟨.create 1, true, false, []⟩ calls).client = client := by
  obtain ⟨sni, resolve, reactions, events, rfl⟩ := h
  exact ⟨_, runs_connected sni resolve reactions events, rfl⟩

/-- The client after the calls that reach it. -/
def quit (aborts : Bool) (client : WebSocketClient) : WebSocketClient :=
  if aborts then client.abort else client

/-- The same calls as those of a handler. -/
def reactions (aborts : Bool) : List Reaction := if aborts then [.abort] else []

private theorem notify_client (run : ClientRun) (handler : Handler) (aborts : Bool) :
    (run.notify handler (reactions aborts)).client = quit aborts run.client := by
  cases aborts <;> rfl

private theorem Behaves.quit {client : WebSocketClient} (h : Behaves client) (aborts : Bool) :
    Behaves (quit aborts client) := by
  cases aborts with
  | false => exact h
  | true =>
    refine h.step (.call .abort) fun run hrun _ ↦ ?_
    rw [← hrun]
    rfl

namespace KrakenClients

variable {s : KrakenClients}

private theorem clients_update (s : KrakenClients) (k : Nat)
    (f : WebSocketClient → WebSocketClient) :
    (s.update k f).clients[k]? = (s.clients[k]?).map f :=
  List.getElem?_modify_eq _ _ _

private theorem clients_update_other {k j : Nat} (h : k ≠ j)
    (f : WebSocketClient → WebSocketClient) :
    (s.update k f).clients[j]? = s.clients[j]? :=
  List.getElem?_modify_ne _ _ h

private theorem quit_quit (first second : Bool) (client : WebSocketClient) :
    quit second (quit first client) = quit (first || second) client := by
  cases first <;> cases second <;> rfl

/-- The client `j` is aborted or left alone. -/
def Spares (j : Nat) (s s' : KrakenClients) : Prop :=
  ∃ aborts, s'.clients[j]? = (s.clients[j]?).map (quit aborts)

private theorem spares_of_eq {j : Nat} {s s' : KrakenClients} (h : s'.clients[j]? = s.clients[j]?) :
    Spares j s s' := by
  refine ⟨false, h.trans ?_⟩
  cases s.clients[j]? <;> rfl

private theorem Spares.trans {j : Nat} {s s' s'' : KrakenClients} (h : Spares j s s')
    (h' : Spares j s' s'') : Spares j s s'' := by
  obtain ⟨first, hfirst⟩ := h
  obtain ⟨second, hsecond⟩ := h'
  refine ⟨first || second, ?_⟩
  rw [hsecond, hfirst, Option.map_map]
  exact congrArg (Option.map · s.clients[j]?) (funext (quit_quit first second))

private theorem spares_update {k j : Nat} (h : k ≠ j) (s : KrakenClients)
    (f : WebSocketClient → WebSocketClient) : Spares j s (s.update k f) :=
  spares_of_eq (clients_update_other h f)

private theorem spares_effect {effect : KrakenEffect}
    (h : ∀ connection, effect ≠ .connect connection) (s : KrakenClients) (j : Nat) :
    Spares j s (s.effect effect) := by
  cases effect with
  | abort =>
    by_cases hlast : s.clients.length - 1 = j
    · subst hlast
      exact ⟨true, clients_update _ _ _⟩
    · exact spares_update hlast s _
  | connect connection => exact absurd rfl (h connection)
  | pushed | received | processed | lifecycle | schedule | cancelRetry | closeQueue =>
    exact spares_of_eq rfl

private theorem spares_effects {effects : List KrakenEffect}
    (h : ∀ connection, .connect connection ∉ effects) (s : KrakenClients) (j : Nat) :
    Spares j s (effects.foldl effect s) := by
  induction effects generalizing s with
  | nil => exact spares_of_eq rfl
  | cons effect rest ih =>
    have hfirst : Spares j s (s.effect effect) :=
      spares_effect (fun connection heq ↦ h connection (heq ▸ List.mem_cons_self)) s j
    exact hfirst.trans (ih (fun connection hmem ↦ h connection (List.mem_cons_of_mem _ hmem)) _)

private theorem orderly_connect {effects : List KrakenEffect} (h : KrakenEffect.Orderly effects)
    (connection : Nat) : .connect connection ∉ effects := by
  induction h with
  | nil => exact List.not_mem_nil
  | quiet effect rest hq _ ih =>
    rintro (_ | ⟨_, hmem⟩)
    · cases hq
    · exact ih hmem
  | retry delay rest _ ih =>
    rintro (_ | ⟨_, _ | ⟨_, hmem⟩⟩)
    exact ih hmem

/-- A lambda other than `connect` aborts a client or leaves it alone. -/
theorem spares_call {m : KrakenMarket} {effects : List KrakenEffect}
    (he : s.market.Emits effects m) (j : Nat) : Spares j s (s.call m) := by
  rw [call_of_trace he.trace]
  exact spares_effects (orderly_connect he.orderly) { s with market := m } j

/-! ### The client whose operation completes -/

section Handlers

variable {k : Nat} (client : WebSocketClient) {current : WebSocketClient}
variable (hk : s.clients[k]? = some current)
include hk

private theorem client_fail (hs : client.stopping = current.stopping) (operation : Bytes)
    (code : ErrorCode) :
    ∃ aborts, ∀ run : ClientRun, run.client = current →
      (s.fail k client operation code).clients[k]? =
        some (run.fail operation code (reactions aborts)).client := by
  obtain ⟨effects, he⟩ := s.market.emits_recover (operation ++ ascii ": " ++ code.message) false
  obtain ⟨aborts, hcall⟩ := spares_call (s := s.update k .halt) he k
  refine ⟨aborts, fun run hrun ↦ ?_⟩
  unfold KrakenClients.fail ClientRun.fail
  rw [hs, hrun]
  split
  · rw [hk, hrun]
  · rw [notify_client, ClientRun.stop_client, hrun]
    refine hcall.trans ?_
    rw [clients_update, hk]
    rfl

private theorem client_advance (hs : client.stopping = current.stopping) (operation : Bytes)
    (d : Delivery) (next : WebSocketClient → WebSocketClient) :
    ∃ aborts, ∀ (run : ClientRun) (onward : ClientRun → ClientRun), run.client = current →
      (onward run).client = next run.client →
      (s.advance k client operation d.code next).clients[k]? =
        some (run.advance operation { code := d.code, reactions := reactions aborts }
          onward).client := by
  obtain ⟨aborts, hfail⟩ := client_fail client hk hs operation d.code
  refine ⟨aborts, fun run onward hrun honward ↦ ?_⟩
  unfold KrakenClients.advance ClientRun.advance
  rw [hs, hrun]
  split
  · rw [hk, hrun]
  · split
    · exact hfail run hrun
    · rw [clients_update, hk, honward, hrun]
      rfl

private theorem client_write (hs : client.stopping = current.stopping)
    (hn : client.requests = current.requests) (crc : Bytes → UInt32) (d : Delivery) (index : Nat) :
    ∃ answer, ∀ run : ClientRun, run.client = current → run.connected = true →
      (s.handle crc k client d (.write index)).clients[k]? =
        some (run.wrote index answer).client := by
  have hwrote : (s.update k .wrote).clients[k]? = some current.wrote := by
    rw [clients_update, hk]
    rfl
  obtain ⟨aborts, hfail⟩ := client_fail client hwrote hs (ascii "subscribe") d.code
  have he : s.market.Emits [] (s.market.onConnected d.now) :=
    KrakenMarket.emits_none rfl rfl rfl
  obtain ⟨aborts', hcall⟩ := spares_call (s := s.update k .wrote) he k
  refine ⟨{ code := d.code, isOpen := d.isOpen,
            reactions := reactions (if d.code.failed then aborts else aborts') },
    fun run hrun hconnected ↦ ?_⟩
  simp only [KrakenClients.handle, ClientRun.wrote]
  have hstopping : run.client.wrote.stopping = client.stopping := by rw [hrun, hs]; rfl
  have hrequests : run.client.wrote.requests = client.requests := by rw [hrun, hn]; rfl
  rw [hstopping, hrequests]
  split
  · rw [clients_update, hwrote, ClientRun.close_client, hrun]
    rfl
  · split
    · refine hfail { run with client := run.client.wrote } ?_
      rw [hrun]
    · split
      · rw [clients_update, hwrote, hrun]
        rfl
      · rw [clients_update, ClientRun.read_client, notify_client, hrun]
        refine (congrArg (Option.map WebSocketClient.read) hcall).trans ?_
        rw [hwrote]
        rfl

private theorem client_read (hs : client.stopping = current.stopping) (crc : Bytes → UInt32)
    (d : Delivery) :
    ∃ answer, ∀ run : ClientRun, run.client = current →
      (s.handle crc k client d .read).clients[k]? = some (run.received answer).client := by
  obtain ⟨aborts, hfail⟩ := client_fail client hk hs (ascii "read") d.code
  obtain ⟨effects, he⟩ := s.market.emits_onMessage crc d.payload d.wall d.mono d.result
  obtain ⟨aborts', hcall⟩ := spares_call he k
  refine ⟨{ code := d.code, isOpen := d.isOpen, payload := d.payload,
            reactions := reactions (if d.code.failed then aborts else aborts'),
            proceed := (s.market.onMessage crc d.payload d.wall d.mono d.result).2 },
    fun run hrun ↦ ?_⟩
  simp only [KrakenClients.handle, ClientRun.received]
  split
  · exact hfail run hrun
  · rw [hs, hrun]
    split
    · rw [hk, hrun]
    · rw [clients_update, hcall, hk]
      split
      · rw [ClientRun.read_client, notify_client, hrun]
        rfl
      · rw [ClientRun.close_client, notify_client, hrun]
        rfl

private theorem client_close (crc : Bytes → UInt32) (d : Delivery) :
    ∃ answer, ∀ run : ClientRun, run.client = current →
      (s.handle crc k client d .close).clients[k]? = some (run.closed answer).client := by
  obtain ⟨effects, he⟩ := s.market.emits_recover (ascii "close: " ++ d.code.message) false
  obtain ⟨aborts, hcall⟩ := spares_call he k
  refine ⟨{ code := d.code, reactions := reactions aborts }, fun run hrun ↦ ?_⟩
  simp only [KrakenClients.handle, ClientRun.closed]
  split
  · rw [notify_client, hrun]
    refine hcall.trans ?_
    rw [hk]
    rfl
  · rw [hk, hrun]

/-- The completion handlers do to their client what those of the protocol do. -/
theorem client_handle (hs : client.stopping = current.stopping)
    (hn : client.requests = current.requests) (crc : Bytes → UInt32) (d : Delivery)
    (operation : Operation) :
    ∃ answer, ∀ run : ClientRun, run.client = current → run.connected = true →
      (s.handle crc k client d operation).clients[k]? =
        some (run.handle answer operation).client := by
  cases operation with
  | connect =>
    obtain ⟨aborts, h⟩ := client_advance client hk hs (ascii "connect") d (·.begin .tlsHandshake)
    exact ⟨_, fun run hrun _ ↦ h run (·.begin .tlsHandshake) hrun rfl⟩
  | tlsHandshake =>
    obtain ⟨aborts, h⟩ := client_advance client hk hs (ascii "TLS handshake") d (·.begin .handshake)
    exact ⟨_, fun run hrun _ ↦ h run (·.begin .handshake) hrun rfl⟩
  | handshake =>
    obtain ⟨aborts, h⟩ := client_advance client hk hs (ascii "WebSocket handshake") d
      (·.subscribe 0)
    exact ⟨_, fun run hrun _ ↦ h run (·.subscribe 0) hrun rfl⟩
  | write index => exact client_write client hk hs hn crc d index
  | read =>
    obtain ⟨answer, h⟩ := client_read client hk hs crc d
    exact ⟨answer, fun run hrun _ ↦ h run hrun⟩
  | close =>
    obtain ⟨answer, h⟩ := client_close client hk crc d
    exact ⟨answer, fun run hrun _ ↦ h run hrun⟩

end Handlers

/-! ### The other clients -/

section Others

variable {k j : Nat} (h : k ≠ j)
include h

private theorem spares_fail (s : KrakenClients) (client : WebSocketClient) (operation : Bytes)
    (code : ErrorCode) : Spares j s (s.fail k client operation code) := by
  unfold KrakenClients.fail
  split
  · exact spares_of_eq rfl
  · obtain ⟨effects, he⟩ := s.market.emits_recover (operation ++ ascii ": " ++ code.message) false
    exact (spares_update h s .halt).trans (spares_call (s := s.update k .halt) he j)

private theorem spares_advance (s : KrakenClients) (client : WebSocketClient) (operation : Bytes)
    (code : ErrorCode) (next : WebSocketClient → WebSocketClient) :
    Spares j s (s.advance k client operation code next) := by
  unfold KrakenClients.advance
  split
  · exact spares_of_eq rfl
  · split
    · exact spares_fail h s client operation code
    · exact spares_update h s next

private theorem spares_handle (crc : Bytes → UInt32) (s : KrakenClients) (client : WebSocketClient)
    (d : Delivery) (operation : Operation) : Spares j s (s.handle crc k client d operation) := by
  cases operation with
  | connect => exact spares_advance h s client _ _ _
  | tlsHandshake => exact spares_advance h s client _ _ _
  | handshake => exact spares_advance h s client _ _ _
  | write index =>
    simp only [KrakenClients.handle]
    refine (spares_update h s .wrote).trans ?_
    split
    · exact spares_update h _ _
    · split
      · exact spares_fail h _ client _ _
      · split
        · exact spares_update h _ _
        · have he : s.market.Emits [] (s.market.onConnected d.now) :=
            KrakenMarket.emits_none rfl rfl rfl
          exact (spares_call (s := s.update k .wrote) he j).trans (spares_update h _ _)
  | read =>
    simp only [KrakenClients.handle]
    split
    · exact spares_fail h s client _ _
    · split
      · exact spares_of_eq rfl
      · obtain ⟨effects, he⟩ := s.market.emits_onMessage crc d.payload d.wall d.mono d.result
        exact (spares_call he j).trans (spares_update h _ _)
  | close =>
    simp only [KrakenClients.handle]
    split
    · obtain ⟨effects, he⟩ := s.market.emits_recover (ascii "close: " ++ d.code.message) false
      exact spares_call he j
    · exact spares_of_eq rfl

end Others

/-! ### Every client follows the protocol -/

/-- Every client that was ever created follows the protocol. -/
def Behaved (s : KrakenClients) : Prop :=
  ∀ (k : Nat) (client : WebSocketClient), s.clients[k]? = some client → Behaves client

private theorem Behaved.spared (h : s.Behaved) {s' : KrakenClients} {j : Nat} (hj : Spares j s s')
    {client : WebSocketClient} (hclient : s'.clients[j]? = some client) : Behaves client := by
  obtain ⟨aborts, hj⟩ := hj
  rw [hj] at hclient
  obtain ⟨before, hbefore, rfl⟩ := Option.map_eq_some_iff.mp hclient
  exact (h j before hbefore).quit aborts

private theorem Behaved.call (h : s.Behaved) {m : KrakenMarket} {effects : List KrakenEffect}
    (he : s.market.Emits effects m) : (s.call m).Behaved :=
  fun j _ hj ↦ h.spared (spares_call he j) hj

private theorem Behaved.complete (crc : Bytes → UInt32) (h : s.Behaved) (k : Nat)
    (operation : Operation) (d : Delivery) : (s.complete crc k operation d).Behaved := by
  unfold KrakenClients.complete
  split
  · exact h
  · next client hk =>
    split
    · next hmem =>
      intro j later hj
      by_cases hkj : k = j
      · subst hkj
        have hcurrent : (s.update k (·.finished operation)).clients[k]? =
            some (client.finished operation) := by
          rw [clients_update, hk]
          rfl
        obtain ⟨answer, hanswer⟩ := client_handle client hcurrent rfl rfl crc d operation
        refine (h k client hk).step (.complete operation answer) fun run hrun hconnected ↦ ?_
        have hstep : run.step (.complete operation answer) =
            { run with client := run.client.finished operation }.handle answer operation := by
          rw [ClientRun.step, ClientRun.complete, hrun, if_pos hmem]
        rw [hstep, hrun]
        exact Option.some.inj (hj.symm.trans (hanswer { run with client := _ } rfl hconnected))
      · have hspares := spares_handle hkj crc (s.update k (·.finished operation)) client d operation
        exact h.spared ((spares_update hkj s _).trans hspares) hj
    · exact h

private theorem Behaved.connect (h : s.Behaved) (now : ReceiveMonotonicTimestamp)
    (sni resolve : ErrorCode) : (s.connect now sni resolve).Behaved := by
  have hclients : (s.call (s.market.connect now)).clients = s.clients ++ [.create 1] := by
    rw [call_of_trace (rfl : (s.market.connect now).trace = _ ++ [.connect _])]
    rfl
  unfold KrakenClients.connect
  dsimp only
  generalize s.call (s.market.connect now) = s₁ at hclients ⊢
  have hlast : s₁.clients.length - 1 = s.clients.length := by simp [hclients]
  rw [hlast]
  have hnew : s₁.clients[s.clients.length]? = some (.create 1) := by simp [hclients]
  -- the older clients are spared by all that follows
  have hold {j : Nat} {s₂ : KrakenClients} {client : WebSocketClient} (hj : s.clients.length ≠ j)
      (hspares : Spares j s₁ s₂) (hclient : s₂.clients[j]? = some client) : Behaves client := by
    refine h.spared (Spares.trans (spares_of_eq ?_) hspares) hclient
    rw [hclients, List.getElem?_append]
    split
    · rfl
    · next hge =>
      rw [List.getElem?_eq_none (by simp; omega), List.getElem?_eq_none (by omega)]
  intro j client hj
  by_cases hother : s.clients.length = j
  · subst hother
    obtain ⟨aborts, hsni⟩ := client_fail (.create 1) hnew rfl (ascii "SNI") sni
    obtain ⟨aborts', hresolve⟩ := client_fail (.create 1) hnew rfl (ascii "resolve") resolve
    refine ⟨sni, resolve, reactions (if sni.failed then aborts else aborts'), [], ?_⟩
    change client = (ClientRun.connect ⟨.create 1, true, false, []⟩ sni resolve _).client
    unfold ClientRun.connect
    rw [if_neg (by decide)]
    split at hj
    · next hfailed =>
      rw [if_pos hfailed, if_pos hfailed]
      exact Option.some.inj (hj.symm.trans (hsni ⟨.create 1, true, true, []⟩ rfl))
    · next hfailed =>
      rw [if_neg hfailed, if_neg hfailed]
      split at hj
      · next hfailed' =>
        rw [if_pos hfailed']
        exact Option.some.inj (hj.symm.trans (hresolve ⟨.create 1, true, true, []⟩ rfl))
      · next hfailed' =>
        rw [if_neg hfailed']
        rw [clients_update, hnew] at hj
        exact (Option.some.inj hj).symm
  · split at hj
    · exact hold hother (spares_fail hother s₁ _ _ _) hj
    · split at hj
      · exact hold hother (spares_fail hother s₁ _ _ _) hj
      · exact hold hother (spares_update hother s₁ _) hj

private theorem Behaved.step (crc : Bytes → UInt32) (limits : KrakenLimits) (h : s.Behaved)
    (event : Event) : (s.step crc limits event).Behaved := by
  cases event with
  | complete k operation d => exact h.complete crc k operation d
  | retry expired now sni resolve =>
    simp only [KrakenClients.step]
    split
    · split
      · exact Behaved.connect (s := { s with retrying := false }) h now sni resolve
      · exact h
    · exact h
  | tick now fatal fatalLater requested =>
    obtain ⟨effects, he⟩ := s.market.emits_tick limits now fatal fatalLater requested
    exact h.call he

private theorem run_behaved (crc : Bytes → UInt32) (limits : KrakenLimits)
    (processor : KrakenBookProcessor) (now : ReceiveMonotonicTimestamp) (sni resolve : ErrorCode)
    (events : List Event) : ((start processor now sni resolve).run crc limits events).Behaved := by
  induction events using List.reverseRecOn with
  | nil =>
    refine Behaved.connect (fun k client hk ↦ ?_) now sni resolve
    cases hk
  | append_singleton events event ih =>
    rw [run, List.foldl_append]
    exact ih.step crc limits event

end KrakenClients

/-! ### Lambdas that give the connection up -/

namespace KrakenMarket

/-- After `recover` the loop recovers or has been told to stop. -/
theorem recover_ends (m : KrakenMarket) (reason : Bytes) (stale : Bool) :
    (m.recover reason stale).stopping = true ∨ (m.recover reason stale).recovering = true := by
  by_cases h : m.stopping = true ∨ m.recovering = true
  · rw [recover_of_idle h]
    exact h
  · simp only [not_or, Bool.not_eq_true] at h
    rw [recover, if_neg (by simp [h])]
    exact .inr rfl

/-- The client is told to go on, or the loop recovers or has been told to stop. -/
theorem finishMessage_ends (m : KrakenMarket) (ok : Bool) :
    (m.finishMessage ok).2 = true ∨ (m.finishMessage ok).1.stopping = true ∨
      (m.finishMessage ok).1.recovering = true := by
  unfold finishMessage
  cases ok with
  | false => exact .inr (m.recover_ends _ _)
  | true =>
    apply Or.inl
    rw [if_neg (by decide)]
    split <;> rfl

private theorem onMessage_ends (crc : Bytes → UInt32) (m : KrakenMarket) (payload : Bytes)
    (wall : ReceiveWallTimestamp) (mono : ReceiveMonotonicTimestamp) (result : PushResult) :
    (m.onMessage crc payload wall mono result).2 = true ∨
      (m.onMessage crc payload wall mono result).1.stopping = true ∨
      (m.onMessage crc payload wall mono result).1.recovering = true := by
  unfold onMessage
  split
  · next hstop => exact .inr (.inl hstop)
  · dsimp only
    split
    · exact .inr (.inl rfl)
    · exact finishMessage_ends _ _

end KrakenMarket

/-! ### The loop always waits for something -/

namespace KrakenClients

variable {s : KrakenClients}

/-- The current client has not stopped. -/
def Alive (s : KrakenClients) : Prop :=
  ∃ client, s.clients[s.clients.length - 1]? = some client ∧ client.stopping = false

/-- While the loop has not been told to stop, a recovery waits for the retry timer, and otherwise
the current client has not stopped. -/
structure Attended (s : KrakenClients) : Prop where
  waits : s.market.stopping = false → s.market.recovering = true → s.retrying = true
  lives : s.market.stopping = false → s.market.recovering = false → s.Alive

private theorem Alive.update (h : s.Alive) {k : Nat} {f : WebSocketClient → WebSocketClient}
    (hf : ∀ client, s.clients[k]? = some client → client.stopping = false →
      (f client).stopping = false) : (s.update k f).Alive := by
  obtain ⟨client, hlast, hrun⟩ := h
  unfold Alive
  rw [length_update]
  by_cases hk : k = s.clients.length - 1
  · rw [← hk] at hlast ⊢
    refine ⟨f client, ?_, hf client hlast hrun⟩
    rw [clients_update, hlast]
    rfl
  · exact ⟨client, (clients_update_other hk f).trans hlast, hrun⟩

private theorem Attended.update (h : s.Attended) {k : Nat} {f : WebSocketClient → WebSocketClient}
    (hf : ∀ client, s.clients[k]? = some client → client.stopping = false →
      (f client).stopping = false) : (s.update k f).Attended :=
  ⟨h.waits, fun hrun hidle ↦ (h.lives hrun hidle).update hf⟩

private theorem retrying_mono {effects : List KrakenEffect} {s : KrakenClients}
    (h : s.retrying = true ∨ ∃ delay, .schedule delay ∈ effects) :
    (effects.foldl effect s).retrying = true := by
  induction effects generalizing s with
  | nil =>
    rcases h with h | ⟨delay, no⟩
    · exact h
    · cases no
  | cons effect rest ih =>
    apply ih
    rcases h with h | ⟨delay, hmem⟩
    · refine .inl ?_
      cases effect <;> first | exact h | rfl
    · rcases List.mem_cons.mp hmem with rfl | hmem
      · exact .inl rfl
      · exact .inr ⟨delay, hmem⟩

private theorem clients_spared {effects : List KrakenEffect} (habort : .abort ∉ effects)
    (hconnect : ∀ connection, .connect connection ∉ effects) (s : KrakenClients) :
    (effects.foldl effect s).clients = s.clients := by
  induction effects generalizing s with
  | nil => rfl
  | cons effect rest ih =>
    rw [List.foldl_cons, ih (fun hm ↦ habort (List.mem_cons_of_mem _ hm))
      (fun connection hm ↦ hconnect connection (List.mem_cons_of_mem _ hm))]
    cases effect with
    | abort => exact absurd List.mem_cons_self habort
    | connect connection => exact absurd List.mem_cons_self (hconnect connection)
    | pushed | received | processed | lifecycle | schedule | cancelRetry | closeQueue => rfl

/-- A recovery of the loop leaves the retry timer waiting. -/
theorem waits_call {m : KrakenMarket} {effects : List KrakenEffect}
    (h : s.market.stopping = false → s.market.recovering = true → s.retrying = true)
    (he : s.market.Emits effects m) (hrun : m.stopping = false)
    (hrecovering : m.recovering = true) :
    (s.call m).retrying = true := by
  rw [call_of_trace he.trace]
  exact retrying_mono ((he.waits hrun hrecovering).imp_left (h (he.running hrun)))

private theorem Attended.call (h : s.Attended) {m : KrakenMarket} {effects : List KrakenEffect}
    (he : s.market.Emits effects m) : (s.call m).Attended := by
  constructor
  · intro hrun hrecovering
    rw [market_call] at hrun hrecovering
    exact waits_call h.waits he hrun hrecovering
  · intro hrun hidle
    rw [market_call] at hrun hidle
    obtain ⟨hbefore, habort⟩ := he.spares hrun hidle
    have hclients : (s.call m).clients = s.clients := by
      rw [call_of_trace he.trace]
      exact clients_spared habort (orderly_connect he.orderly) _
    unfold Alive
    rw [hclients]
    exact h.lives (he.running hrun) hbefore

/-- After a lambda that has recovered or stopped. -/
theorem attended_ended
    (h : s.market.stopping = false → s.market.recovering = true → s.retrying = true)
    {m : KrakenMarket} {effects : List KrakenEffect}
    (he : s.market.Emits effects m) (hends : m.stopping = true ∨ m.recovering = true)
    {s' : KrakenClients} (hm : s'.market = m) (hr : s'.retrying = (s.call m).retrying) :
    s'.Attended := by
  constructor
  · intro hrun hrecovering
    rw [hm] at hrun hrecovering
    rw [hr]
    exact waits_call h he hrun hrecovering
  · intro hrun hidle
    rw [hm] at hrun hidle
    rcases hends with hstop | hrecovering
    · rw [hstop] at hrun
      cases hrun
    · rw [hrecovering] at hidle
      cases hidle

private theorem Attended.fail (h : s.Attended) (k : Nat) (client : WebSocketClient)
    (operation : Bytes) (code : ErrorCode) : (s.fail k client operation code).Attended := by
  unfold KrakenClients.fail
  split
  · exact h
  · obtain ⟨effects, he⟩ := s.market.emits_recover (operation ++ ascii ": " ++ code.message) false
    exact attended_ended (s := s.update k .halt) h.waits he (s.market.recover_ends _ _)
      (market_call _ _) rfl

private theorem Attended.advance (h : s.Attended) (k : Nat) (client : WebSocketClient)
    (operation : Bytes) (code : ErrorCode) {next : WebSocketClient → WebSocketClient}
    (hn : ∀ client, (next client).stopping = client.stopping) :
    (s.advance k client operation code next).Attended := by
  unfold KrakenClients.advance
  split
  · exact h
  · split
    · exact h.fail k client operation code
    · exact h.update fun client _ hrun ↦ (hn client).trans hrun

private theorem Attended.handle (crc : Bytes → UInt32) (h : s.Attended) {k : Nat}
    {client current : WebSocketClient} (hk : s.clients[k]? = some current)
    (hs : client.stopping = current.stopping) (d : Delivery) (operation : Operation) :
    (s.handle crc k client d operation).Attended := by
  cases operation with
  | connect => exact h.advance _ _ _ _ fun _ ↦ rfl
  | tlsHandshake => exact h.advance _ _ _ _ fun _ ↦ rfl
  | handshake => exact h.advance _ _ _ _ fun _ ↦ rfl
  | write index =>
    have hwrote : (s.update k .wrote).Attended := h.update fun _ _ hrun ↦ hrun
    simp only [KrakenClients.handle]
    split
    · next hstop =>
      refine hwrote.update fun other hother hrun ↦ ?_
      -- The client has stopped, so it is not the one that is waited for.
      rw [clients_update, hk] at hother
      cases hother
      cases (hs.symm.trans hstop).symm.trans hrun
    · split
      · exact hwrote.fail k client _ _
      · split
        · exact hwrote.update fun _ _ hrun ↦ hrun
        · have he : s.market.Emits [] (s.market.onConnected d.now) :=
            KrakenMarket.emits_none rfl rfl rfl
          exact (Attended.call (s := s.update k .wrote) hwrote he).update
            fun _ _ hrun ↦ WebSocketClient.stopping_read hrun
  | read =>
    simp only [KrakenClients.handle]
    split
    · exact h.fail k client _ _
    · split
      · exact h
      · obtain ⟨effects, he⟩ := s.market.emits_onMessage crc d.payload d.wall d.mono d.result
        rcases s.market.onMessage_ends crc d.payload d.wall d.mono d.result with hproceed | hends
        · rw [if_pos hproceed]
          exact (h.call he).update fun _ _ hrun ↦ WebSocketClient.stopping_read hrun
        · exact attended_ended h.waits he hends (market_call _ _) rfl
  | close =>
    simp only [KrakenClients.handle]
    split
    · obtain ⟨effects, he⟩ := s.market.emits_recover (ascii "close: " ++ d.code.message) false
      exact h.call he
    · exact h

private theorem Attended.complete (crc : Bytes → UInt32) (h : s.Attended) (k : Nat)
    (operation : Operation) (d : Delivery) : (s.complete crc k operation d).Attended := by
  unfold KrakenClients.complete
  split
  · exact h
  · next client hk =>
    split
    · have hfinished : (s.update k (·.finished operation)).Attended := h.update fun _ _ hrun ↦ hrun
      have hcurrent : (s.update k (·.finished operation)).clients[k]? =
          some (client.finished operation) := by
        rw [clients_update, hk]
        rfl
      exact hfinished.handle crc hcurrent rfl d operation
    · exact h

private theorem attended_connect (s : KrakenClients) (now : ReceiveMonotonicTimestamp)
    (sni resolve : ErrorCode) : (s.connect now sni resolve).Attended := by
  have hclients : (s.call (s.market.connect now)).clients = s.clients ++ [.create 1] := by
    rw [call_of_trace (rfl : (s.market.connect now).trace = _ ++ [.connect _])]
    rfl
  have hmarket := market_call s (s.market.connect now)
  have hnew : (s.call (s.market.connect now)).Attended := by
    constructor
    · intro _ hrecovering
      rw [hmarket] at hrecovering
      cases hrecovering
    · intro _ _
      refine ⟨.create 1, ?_, rfl⟩
      simp [hclients]
  unfold KrakenClients.connect
  dsimp only
  split
  · exact hnew.fail _ _ _ _
  · split
    · exact hnew.fail _ _ _ _
    · exact hnew.update fun _ _ hrun ↦ hrun

private theorem Attended.step (crc : Bytes → UInt32) (limits : KrakenLimits) (h : s.Attended)
    {event : Event} (hcancel : ∀ now sni resolve, event = .retry false now sni resolve →
      s.market.stopping = true) : (s.step crc limits event).Attended := by
  cases event with
  | complete k operation d => exact h.complete crc k operation d
  | retry expired now sni resolve =>
    simp only [KrakenClients.step]
    split
    · split
      · exact attended_connect _ now sni resolve
      · next hstop =>
        have hstopping : s.market.stopping = true := by
          cases expired with
          | false => exact hcancel now sni resolve rfl
          | true => simpa using hstop
        constructor
        · intro hrun
          cases hstopping.symm.trans hrun
        · intro hrun
          cases hstopping.symm.trans hrun
    · exact h
  | tick now fatal fatalLater requested =>
    obtain ⟨effects, he⟩ := s.market.emits_tick limits now fatal fatalLater requested
    exact h.call he

private theorem run_attended (crc : Bytes → UInt32) (limits : KrakenLimits)
    (processor : KrakenBookProcessor) (now : ReceiveMonotonicTimestamp) (sni resolve : ErrorCode)
    {events : List Event}
    (hcancel : ∀ before after now' sni' resolve',
      events = before ++ .retry false now' sni' resolve' :: after →
      ((start processor now sni resolve).run crc limits before).market.stopping = true) :
    ((start processor now sni resolve).run crc limits events).Attended := by
  induction events using List.reverseRecOn with
  | nil => exact attended_connect _ now sni resolve
  | append_singleton events event ih =>
    rw [run, List.foldl_append]
    refine (ih fun before after now' sni' resolve' heq ↦ ?_).step crc limits ?_
    · exact hcancel before (after ++ [event]) now' sni' resolve' (by rw [heq]; simp)
    · rintro now' sni' resolve' rfl
      exact hcancel events [] now' sni' resolve' rfl

/-- Whatever is delivered, in whatever order: each client that `run_kraken` ever created is in a
state of the protocol for one request. So its operations never overlap, except that a close may be
outstanding beside an operation that is not a write. -/
theorem kraken_clients_follow_protocol (crc : Bytes → UInt32) (limits : KrakenLimits)
    (processor : KrakenBookProcessor) (now : ReceiveMonotonicTimestamp) (sni resolve : ErrorCode)
    (events : List Event) :
    let s := (start processor now sni resolve).run crc limits events
    ∀ (k : Nat) (client : WebSocketClient), s.clients[k]? = some client →
      (∃ calls : List ClientRun.Event, ∃ phase,
        let run := ClientRun.run ⟨.create 1, true, false, []⟩ calls
        run.client = client ∧ Phase.after ⟨1, true⟩ run.log = some phase ∧
          client.stopping = phase.isDown) ∧
      client.pending.Nodup ∧
      (∀ first ∈ client.pending, ∀ second ∈ client.pending, first ≠ .close → second ≠ .close →
        first = second) ∧
      ∀ index, .write index ∈ client.pending → .close ∉ client.pending := by
  intro s k client hk
  obtain ⟨calls, hruns, rfl⟩ := (run_behaved crc limits processor now sni resolve events k client
    hk).runs
  obtain ⟨phase, front, late, hkeeps⟩ := hruns.keeps
  exact ⟨⟨calls, phase, rfl, hkeeps.after, hkeeps.stopping⟩, hkeeps.outstanding⟩

/-- The first client cannot resolve its host, the second one connects. -/
def secondAttempt : List Event :=
  [.tick ⟨0⟩ false false false, .retry true ⟨1⟩ .success .success]

/-- The second client has followed the protocol. -/
theorem kraken_clients_follow_protocol_second :
    ∃ processor client, KrakenBookProcessor.create 10 = .ok processor ∧
      ((start processor ⟨0⟩ .success (.other [])).run Crc.crc32 {} secondAttempt).clients[1]? =
        some client ∧
      ∃ (calls : List ClientRun.Event) (phase : Phase),
        (ClientRun.run ⟨.create 1, true, false, []⟩ calls).client = client ∧
          Phase.after ⟨1, true⟩ (ClientRun.run ⟨.create 1, true, false, []⟩ calls).log =
            some phase := by
  obtain ⟨processor, hprocessor, hlength⟩ : ∃ processor,
      KrakenBookProcessor.create 10 = .ok processor ∧
      ((start processor ⟨0⟩ .success (.other [])).run Crc.crc32 {} secondAttempt).clients.length =
        2 := ⟨_, rfl, by decide +kernel⟩
  have hk := List.getElem?_eq_getElem (i := 1) (Nat.lt_of_lt_of_eq Nat.one_lt_two hlength.symm)
  obtain ⟨⟨calls, phase, hclient, hafter, -⟩, -⟩ := kraken_clients_follow_protocol Crc.crc32 {}
    processor ⟨0⟩ .success (.other []) secondAttempt 1 _ hk
  exact ⟨processor, _, hprocessor, hk, calls, phase, hclient, hafter⟩

/-- While `run_kraken` has not been told to stop it is never stuck: either it recovers and the
retry timer is waited for, or the current client has not stopped and waits for exactly one
operation. Waits are cancelled by `stop` only. -/
theorem kraken_never_stuck (crc : Bytes → UInt32) (limits : KrakenLimits)
    (processor : KrakenBookProcessor) (now : ReceiveMonotonicTimestamp) (sni resolve : ErrorCode)
    (events : List Event)
    (hcancel : ∀ before after now' sni' resolve',
      events = before ++ .retry false now' sni' resolve' :: after →
      ((start processor now sni resolve).run crc limits before).market.stopping = true) :
    let s := (start processor now sni resolve).run crc limits events
    s.market.stopping = false →
      (s.market.recovering = true ∧ s.retrying = true) ∨
      (s.market.recovering = false ∧ ∃ client operation,
        s.clients[s.clients.length - 1]? = some client ∧ client.stopping = false ∧
          client.pending = [operation]) := by
  intro s hrun
  have hattended : s.Attended := run_attended crc limits processor now sni resolve hcancel
  cases hrecovering : s.market.recovering with
  | true => exact .inl ⟨rfl, hattended.waits hrun hrecovering⟩
  | false =>
    obtain ⟨client, hlast, hgoing⟩ := hattended.lives hrun hrecovering
    obtain ⟨calls, hruns, rfl⟩ := (run_behaved crc limits processor now sni resolve events _ client
      hlast).runs
    obtain ⟨operation, hpending⟩ := hruns.waits hgoing
    exact .inr ⟨rfl, _, operation, hlast, hgoing, hpending⟩

/-- The second client waits for one operation. -/
theorem kraken_never_stuck_second :
    ∃ processor, KrakenBookProcessor.create 10 = .ok processor ∧
      let s := (start processor ⟨0⟩ .success (.other [])).run Crc.crc32 {} secondAttempt
      s.clients.length = 2 ∧ ∃ client operation,
        s.clients[s.clients.length - 1]? = some client ∧ client.pending = [operation] := by
  obtain ⟨processor, hprocessor, hlength, hrun, hidle⟩ : ∃ processor,
      KrakenBookProcessor.create 10 = .ok processor ∧
      let s := (start processor ⟨0⟩ .success (.other [])).run Crc.crc32 {} secondAttempt
      s.clients.length = 2 ∧ s.market.stopping = false ∧ s.market.recovering = false :=
    ⟨_, rfl, by decide +kernel, by decide +kernel, by decide +kernel⟩
  refine ⟨processor, hprocessor, hlength, ?_⟩
  have hcancel : ∀ before after now sni resolve,
      secondAttempt ≠ before ++ .retry false now sni resolve :: after := by
    intro before after now sni resolve heq
    have hmem : Event.retry false now sni resolve ∈ secondAttempt := by
      rw [heq]
      simp
    simp [secondAttempt] at hmem
  rcases kraken_never_stuck Crc.crc32 {} processor ⟨0⟩ .success (.other []) secondAttempt
    (fun before after now sni resolve heq ↦ absurd heq (hcancel before after now sni resolve))
    hrun with ⟨hrecovering, -⟩ | ⟨-, client, operation, hclient, -, hpending⟩
  · cases hrecovering.symm.trans hidle
  · exact ⟨client, operation, hclient, hpending⟩

end KrakenClients

end ArbitrageEngine.Pipeline
