import ArbitrageEngine.Kraken.BookAgreement
import ArbitrageEngine.Pipeline.KrakenMarket
import ArbitrageEngine.Transport.WebSocketClient

/-!
# The clients of `run_kraken`

`src/pipeline/kraken_runtime.cpp` with `src/transport/websocket_client.cpp`: the market thread
with every client that it ever created. `recover` and `stop` abort the current client, a
connect replaces it; its operations may still complete afterwards, in any order with those of
the later clients and the timers. There is no generation number: a late completion is kept out
by the flags alone.
-/

namespace ArbitrageEngine.Pipeline

open Base ArbitrageEngine.Core Kraken Recording Transport

/-- The market thread, its clients from the first to the current one, and whether the retry timer is
being waited for (`src/pipeline/kraken_runtime.cpp:40–41,98–155`). -/
structure KrakenClients where
  market : KrakenMarket
  clients : List WebSocketClient
  retrying : Bool

/-- What comes with a completion: the code, whether the stream is still open, the message that
was read, the clock, and the answer of the queue to that message. -/
structure Delivery where
  code : ErrorCode := .success
  isOpen : Bool := true
  payload : Bytes := []
  wall : ReceiveWallTimestamp := ⟨0⟩
  mono : ReceiveMonotonicTimestamp := ⟨0⟩
  now : ReceiveMonotonicTimestamp := ⟨0⟩
  result : PushResult := .accepted
  deriving DecidableEq, Repr

namespace KrakenClients

/-! ### Calls between the market thread and its clients -/

/-- A change of one client. -/
def update (s : KrakenClients) (k : Nat) (f : WebSocketClient → WebSocketClient) : KrakenClients :=
  { s with clients := s.clients.modify k f }

/-- What an effect of the market thread does here: `client->abort()`, a new client, a wait for the
retry timer. A cancelled wait is still completed (`src/pipeline/kraken_runtime.cpp:60–92`). -/
def effect (s : KrakenClients) : KrakenEffect → KrakenClients
  | .abort => s.update (s.clients.length - 1) .abort
  | .connect _ => { s with clients := s.clients ++ [.create 1] }
  | .schedule _ => { s with retrying := true }
  | _ => s

/-- A lambda of the market thread has run: its new effects take place. -/
def call (s : KrakenClients) (market : KrakenMarket) : KrakenClients :=
  (market.trace.drop s.market.trace.length).foldl effect { s with market }

/-- `fail` of the client `k` (`src/transport/websocket_client.cpp:40–47`). -/
def fail (s : KrakenClients) (k : Nat) (client : WebSocketClient) (operation : Bytes)
    (code : ErrorCode) : KrakenClients :=
  if client.stopping then s
  else
    (s.update k .halt).call (s.market.onError (operation ++ ascii ": " ++ code.message))

/-- The `connect` lambda with `connect` of the new client, which sets the server name and resolves
at once (`src/pipeline/kraken_runtime.cpp:98–155`). -/
def connect (s : KrakenClients) (now : ReceiveMonotonicTimestamp) (sni resolve : ErrorCode) :
    KrakenClients :=
  let s := s.call (s.market.connect now)
  let k := s.clients.length - 1
  if sni.failed then s.fail k (.create 1) (ascii "SNI") sni
  else if resolve.failed then s.fail k (.create 1) (ascii "resolve") resolve
  else s.update k (·.begin .connect)

/-! ### Completions -/

/-- The completion of one of the operations that lead to the connection
(`src/transport/websocket_client.cpp:62–92`). -/
def advance (s : KrakenClients) (k : Nat) (client : WebSocketClient) (operation : Bytes)
    (code : ErrorCode) (next : WebSocketClient → WebSocketClient) : KrakenClients :=
  if client.stopping then s
  else if code.failed then s.fail k client operation code
  else s.update k next

/-- The completion handlers of the client `k` (`src/transport/websocket_client.cpp:62–154`). -/
def handle (crc : Bytes → UInt32) (s : KrakenClients) (k : Nat) (client : WebSocketClient)
    (d : Delivery) : Operation → KrakenClients
  | .connect => s.advance k client (ascii "connect") d.code (·.begin .tlsHandshake)
  | .tlsHandshake => s.advance k client (ascii "TLS handshake") d.code (·.begin .handshake)
  | .handshake => s.advance k client (ascii "WebSocket handshake") d.code (·.subscribe 0)
  | .write index =>
    let s := s.update k .wrote
    if client.stopping then s.update k (·.close d.isOpen)
    else if d.code.failed then s.fail k client (ascii "subscribe") d.code
    else if index + 1 < client.requests then s.update k (·.subscribe (index + 1))
    else (s.call (s.market.onConnected d.now)).update k .read
  | .read =>
    if d.code.failed then s.fail k client (ascii "read") d.code
    else if client.stopping then s
    else
      let (market, proceed) := s.market.onMessage crc d.payload d.wall d.mono d.result
      (s.call market).update k (if proceed then .read else (·.close d.isOpen))
  | .close =>
    if d.code.reported then s.call (s.market.onError (ascii "close: " ++ d.code.message)) else s

/-- The completion of an operation of the client `k` is delivered, if it is still to be. -/
def complete (crc : Bytes → UInt32) (s : KrakenClients) (k : Nat) (operation : Operation)
    (d : Delivery) : KrakenClients :=
  match s.clients[k]? with
  | none => s
  | some client =>
    if operation ∈ client.pending then
      (s.update k (·.finished operation)).handle crc k client d operation
    else s

/-! ### Runs -/

/-- What the I/O context delivers. -/
inductive Event
  | complete (k : Nat) (operation : Operation) (d : Delivery)
  /-- The retry timer; a cancelled wait has not expired. -/
  | retry (expired : Bool) (now : ReceiveMonotonicTimestamp) (sni resolve : ErrorCode)
  | tick (now : ReceiveMonotonicTimestamp) (fatal fatalLater requested : Bool)
  deriving DecidableEq, Repr

/-- The first `connect`, before the loop (`src/pipeline/kraken_runtime.cpp:169`). -/
def start (processor : KrakenBookProcessor) (now : ReceiveMonotonicTimestamp)
    (sni resolve : ErrorCode) : KrakenClients :=
  connect ⟨.initial processor now, [], false⟩ now sni resolve

/-- One event. -/
def step (crc : Bytes → UInt32) (limits : KrakenLimits) (s : KrakenClients) : Event → KrakenClients
  | .complete k operation d => s.complete crc k operation d
  | .retry expired now sni resolve =>
    if s.retrying then
      let s := { s with retrying := false }
      if expired && !s.market.stopping then s.connect now sni resolve else s
    else s
  | .tick now fatal fatalLater requested =>
    s.call (s.market.tick limits now fatal fatalLater requested)

/-- A run: any list of events, one after another. -/
def run (crc : Bytes → UInt32) (limits : KrakenLimits) (s : KrakenClients) (events : List Event) :
    KrakenClients :=
  events.foldl (step crc limits) s

/-- `abort` was called on the client, or a later connect has replaced it. -/
def Abandoned (s : KrakenClients) (k : Nat) (client : WebSocketClient) : Prop :=
  client.aborted = true ∨ k + 1 < s.clients.length

end KrakenClients

/-! ### What the market thread does to its clients -/

namespace KrakenEffect

/-- The record of a recovery. -/
def isRecovery : KrakenEffect → Bool
  | lifecycle _ => true
  | _ => false

/-- Neither a new client nor a wait. -/
def quiet : KrakenEffect → Bool
  | connect _ | schedule _ => false
  | _ => true

/-- No new client, and no wait but directly after the current client was aborted. -/
inductive Orderly : List KrakenEffect → Prop
  | nil : Orderly []
  | quiet (effect : KrakenEffect) (rest : List KrakenEffect) (h : effect.quiet = true)
      (hr : Orderly rest) : Orderly (effect :: rest)
  | retry (delay : Nat) (rest : List KrakenEffect) (hr : Orderly rest) :
      Orderly (.abort :: .schedule delay :: rest)

private theorem Orderly.append {effects rest : List KrakenEffect} (h : Orderly effects)
    (hr : Orderly rest) : Orderly (effects ++ rest) := by
  induction h with
  | nil => exact hr
  | quiet effect others hq _ ih => exact .quiet effect _ hq ih
  | retry delay others _ ih => exact .retry delay _ ih

end KrakenEffect

namespace KrakenMarket

/-- The recoveries so far. -/
def recoveries (m : KrakenMarket) : Nat := m.trace.countP KrakenEffect.isRecovery

/-- The recoveries that there can be before the next connect. -/
def chances (m : KrakenMarket) : Nat := if m.recovering then 0 else 1

/-- What a lambda other than `connect` does: a recovery uses up the only chance there is and sets
the retry timer, and without one the client is left alone, unless the loop is told to stop. -/
structure Emits (m : KrakenMarket) (effects : List KrakenEffect) (m' : KrakenMarket) : Prop where
  trace : m'.trace = m.trace ++ effects
  orderly : KrakenEffect.Orderly effects
  balance : m'.recoveries + m'.chances = m.recoveries + m.chances
  recovering : m.recovering = true → m'.recovering = true
  retry : ∀ delay, .schedule delay ∈ effects → m'.recovering = true
  stopping : m.stopping = true → m'.stopping = true
  waits : m'.stopping = false → m'.recovering = true →
    m.recovering = true ∨ ∃ delay, .schedule delay ∈ effects
  spares : m'.stopping = false → m'.recovering = false → m.recovering = false ∧ .abort ∉ effects

/-- A loop that has not been told to stop had not been told so before. -/
theorem Emits.running {m m' : KrakenMarket} {effects : List KrakenEffect} (h : m.Emits effects m')
    (hrun : m'.stopping = false) : m.stopping = false := by
  cases hstop : m.stopping with
  | false => rfl
  | true =>
    rw [h.stopping hstop] at hrun
    cases hrun

private theorem Emits.trans {m m' m'' : KrakenMarket} {effects rest : List KrakenEffect}
    (h : m.Emits effects m') (h' : m'.Emits rest m'') : m.Emits (effects ++ rest) m'' where
  trace := by rw [h'.trace, h.trace, List.append_assoc]
  orderly := h.orderly.append h'.orderly
  balance := h'.balance.trans h.balance
  recovering hr := h'.recovering (h.recovering hr)
  retry := by
    intro delay hd
    rcases List.mem_append.mp hd with hd | hd
    · exact h'.recovering (h.retry delay hd)
    · exact h'.retry delay hd
  stopping hs := h'.stopping (h.stopping hs)
  waits := by
    intro hrun hrecovering
    rcases h'.waits hrun hrecovering with hearlier | ⟨delay, hd⟩
    · refine (h.waits (h'.running hrun) hearlier).imp_right ?_
      rintro ⟨delay, hd⟩
      exact ⟨delay, List.mem_append_left _ hd⟩
    · exact .inr ⟨delay, List.mem_append_right _ hd⟩
  spares := by
    intro hrun hrecovering
    obtain ⟨hearlier, hrest⟩ := h'.spares hrun hrecovering
    obtain ⟨hfirst, heffects⟩ := h.spares (h'.running hrun) hearlier
    refine ⟨hfirst, fun hmem ↦ ?_⟩
    rcases List.mem_append.mp hmem with hmem | hmem
    · exact heffects hmem
    · exact hrest hmem

private theorem orderly_of_quiet {effects : List KrakenEffect}
    (hq : ∀ effect ∈ effects, effect.quiet = true) : KrakenEffect.Orderly effects := by
  induction effects with
  | nil => exact .nil
  | cons effect rest ih =>
    rw [List.forall_mem_cons] at hq
    exact .quiet effect rest hq.1 (ih hq.2)

private theorem balance_of_none {m m' : KrakenMarket} {effects : List KrakenEffect}
    (ht : m'.trace = m.trace ++ effects) (hr : m'.recovering = m.recovering)
    (hn : effects.countP KrakenEffect.isRecovery = 0) :
    m'.recoveries + m'.chances = m.recoveries + m.chances := by
  rw [recoveries, ht, List.countP_append, hn, chances, hr]
  rfl

/-- A lambda that neither recovers nor stops. -/
private theorem emits_quiet {m m' : KrakenMarket} (effects : List KrakenEffect)
    (ht : m'.trace = m.trace ++ effects) (hs : m'.stopping = m.stopping)
    (hr : m'.recovering = m.recovering) (hq : ∀ effect ∈ effects, effect.quiet = true)
    (hn : effects.countP KrakenEffect.isRecovery = 0) (ha : .abort ∉ effects) :
    m.Emits effects m' where
  trace := ht
  orderly := orderly_of_quiet hq
  balance := balance_of_none ht hr hn
  recovering h := hr.trans h
  retry _ hd := absurd (hq _ hd) nofun
  stopping h := hs.trans h
  waits _ h := .inl (hr.symm.trans h)
  spares _ h := ⟨hr.symm.trans h, ha⟩

/-- A lambda that does nothing of all this. -/
theorem emits_none {m m' : KrakenMarket} (ht : m'.trace = m.trace) (hs : m'.stopping = m.stopping)
    (hr : m'.recovering = m.recovering) : m.Emits [] m' :=
  emits_quiet [] (ht.trans (List.append_nil _).symm) hs hr nofun rfl nofun

private theorem emits_refl (m : KrakenMarket) : m.Emits [] m := emits_none rfl rfl rfl

private theorem emits_stop (m : KrakenMarket) :
    m.Emits [.abort, .cancelRetry, .closeQueue] m.stop where
  trace := rfl
  orderly := orderly_of_quiet (by decide)
  balance := balance_of_none rfl rfl rfl
  recovering h := h
  retry _ hd := by simp at hd
  stopping _ := rfl
  waits no := by cases no
  spares no := by cases no

/-- `recover` does nothing when the market is stopped or recovers already. -/
theorem recover_of_idle {m : KrakenMarket} (h : m.stopping = true ∨ m.recovering = true)
    (reason : Bytes) (stale : Bool) : m.recover reason stale = m := by
  rw [recover, if_pos (by simpa using h)]

/-- The effects of `recover`. -/
theorem emits_recover (m : KrakenMarket) (reason : Bytes) (stale : Bool) :
    ∃ effects, m.Emits effects (m.recover reason stale) := by
  by_cases h : m.stopping = true ∨ m.recovering = true
  · rw [recover_of_idle h]
    exact ⟨[], m.emits_refl⟩
  · simp only [not_or, Bool.not_eq_true] at h
    rw [recover, if_neg (by simp [h])]
    refine ⟨_, rfl, .quiet _ _ rfl (.retry _ _ .nil), ?_, fun _ ↦ rfl, fun _ _ ↦ rfl, fun hs ↦ hs,
      fun _ _ ↦ .inr ⟨m.backoff.nextDelay.2, ?_⟩, fun _ no ↦ ?_⟩
    · simp [recoveries, chances, h, List.countP_cons, KrakenEffect.isRecovery]
    · simp
    · cases no

private theorem emits_pushed (m : KrakenMarket) (e : RawMessage) (result : PushResult) :
    m.Emits [.pushed e result, .received m.index result]
      (m.withSession (pushed m.toKrakenSession e result)) := by
  apply emits_quiet <;> try rfl
  · intro effect he
    rcases List.mem_pair.mp he with rfl | rfl <;> rfl
  · simp

/-- The effects of an accepted envelope. -/
theorem emits_processed (crc : Bytes → UInt32) (m : KrakenMarket) (payload : Bytes)
    (wall : ReceiveWallTimestamp) (mono : ReceiveMonotonicTimestamp) :
    m.Emits [.processed m.index]
      (m.withSession (processed crc (opened m.toKrakenSession) payload wall mono).1) := by
  apply emits_quiet
  · change (opened m.toKrakenSession).trace ++
      [KrakenEffect.processed (opened m.toKrakenSession).index] = _
    unfold opened
    split <;> rfl
  · change (opened m.toKrakenSession).stopping = m.stopping
    unfold opened
    split <;> rfl
  · rfl
  · intro effect he
    rw [List.mem_singleton.mp he]
    rfl
  · rfl
  · simp

private theorem emits_finishMessage (m : KrakenMarket) (ok : Bool) :
    ∃ effects, m.Emits effects (m.finishMessage ok).1 := by
  unfold finishMessage
  split
  · exact m.emits_recover _ _
  · split
    · exact ⟨[], emits_none rfl rfl rfl⟩
    · exact ⟨[], m.emits_refl⟩

/-- The effects of `on_message`. -/
theorem emits_onMessage (crc : Bytes → UInt32) (m : KrakenMarket) (payload : Bytes)
    (wall : ReceiveWallTimestamp) (mono : ReceiveMonotonicTimestamp) (result : PushResult) :
    ∃ effects, m.Emits effects (m.onMessage crc payload wall mono result).1 := by
  unfold onMessage
  split
  · exact ⟨[], m.emits_refl⟩
  · have hpushed := m.emits_pushed (envelope m.toKrakenSession payload wall mono) result
    dsimp only
    generalize m.withSession (pushed m.toKrakenSession _ result) = m₁ at hpushed ⊢
    split
    · have hinvalid : m₁.Emits [] { m₁ with processor := m₁.processor.invalidate } :=
        emits_none rfl rfl rfl
      exact ⟨_, (hpushed.trans hinvalid).trans (emits_stop _)⟩
    · have hprocessed := m₁.emits_processed crc payload wall mono
      obtain ⟨effects, hfinish⟩ := emits_finishMessage
        (m₁.withSession (processed crc (opened m₁.toKrakenSession) payload wall mono).1)
        (processed crc (opened m₁.toKrakenSession) payload wall mono).2
      exact ⟨_, (hpushed.trans hprocessed).trans hfinish⟩

private theorem emits_forceDisconnect (limits : KrakenLimits) (m : KrakenMarket)
    (now : ReceiveMonotonicTimestamp) :
    ∃ effects, m.Emits effects (m.forceDisconnect limits now) := by
  unfold forceDisconnect
  split
  · have hforced : m.Emits [] { m with forced := true } :=
      emits_none rfl rfl rfl
    obtain ⟨effects, hrecover⟩ := emits_recover { m with forced := true }
      (ascii "forced_disconnect")
      false
    exact ⟨_, hforced.trans hrecover⟩
  · exact ⟨[], m.emits_refl⟩

private theorem emits_checkTimeouts (m : KrakenMarket) (now : ReceiveMonotonicTimestamp) :
    ∃ effects, m.Emits effects (m.checkTimeouts now) := by
  unfold checkTimeouts
  split
  · generalize (if m.firstRecord then m.connectedAt
      else m.processor.lastMessage.getD m.connectedAt) = last
    dsimp only
    split
    · exact m.emits_recover _ _
    · split
      · exact m.emits_recover _ _
      · exact ⟨[], m.emits_refl⟩
  · exact ⟨[], m.emits_refl⟩

/-- The effects of a tick. -/
theorem emits_tick (limits : KrakenLimits) (m : KrakenMarket) (now : ReceiveMonotonicTimestamp)
    (fatal fatalLater requested : Bool) :
    ∃ effects, m.Emits effects (m.tick limits now fatal fatalLater requested) := by
  unfold tick
  dsimp only
  generalize hm₁ : (if fatal then { m with processor := m.processor.invalidate } else m) = m₁
  have h₁ : m.Emits [] m₁ := by
    subst hm₁
    split
    · exact emits_none rfl rfl rfl
    · exact m.emits_refl
  generalize hm₂ : (if requested || fatalLater || m₁.elapsed now limits.duration then m₁.stop
    else m₁) = m₂
  have h₂ : ∃ effects, m₁.Emits effects m₂ := by
    subst hm₂
    split
    · exact ⟨_, m₁.emits_stop⟩
    · exact ⟨[], m₁.emits_refl⟩
  obtain ⟨effects, h₂⟩ := h₂
  split
  · exact ⟨_, h₁.trans h₂⟩
  · obtain ⟨forced, h₃⟩ := m₂.emits_forceDisconnect limits now
    obtain ⟨late, h₄⟩ := (m₂.forceDisconnect limits now).emits_checkTimeouts now
    exact ⟨_, ((h₁.trans h₂).trans h₃).trans h₄⟩

end KrakenMarket

/-! ### Abandoned clients have stopped -/

namespace KrakenClients

variable {s : KrakenClients}

/-- Every client but the current one has stopped, and the current one has as soon as it was
aborted; nothing else is left to wait for the retry timer. -/
structure Shut (s : KrakenClients) : Prop where
  replaced : ∀ (k : Nat) (client : WebSocketClient), s.clients[k]? = some client →
    k + 1 < s.clients.length → client.stopping = true
  aborted : ∀ (k : Nat) (client : WebSocketClient), s.clients[k]? = some client →
    client.aborted = true → client.stopping = true
  waiting : s.retrying = true → ∀ (k : Nat) (client : WebSocketClient),
    s.clients[k]? = some client → client.stopping = true

private theorem Shut.of_abandoned (h : s.Shut) {k : Nat} {client : WebSocketClient}
    (hk : s.clients[k]? = some client) (ha : s.Abandoned k client) : client.stopping = true := by
  rcases ha with ha | ha
  · exact h.aborted k client hk ha
  · exact h.replaced k client hk ha

private theorem getElem?_update {k j : Nat} {f : WebSocketClient → WebSocketClient}
    {client : WebSocketClient} (h : (s.update k f).clients[j]? = some client) :
    ∃ before, s.clients[j]? = some before ∧ client = if k = j then f before else before := by
  change (s.clients.modify k f)[j]? = some client at h
  rw [List.getElem?_modify] at h
  cases hb : s.clients[j]? with
  | none => simp [hb] at h
  | some before =>
    refine ⟨before, rfl, ?_⟩
    simpa [hb] using h.symm

/-- A change of a client makes no new one. -/
@[simp]
theorem length_update (s : KrakenClients) (k : Nat) (f : WebSocketClient → WebSocketClient) :
    (s.update k f).clients.length = s.clients.length :=
  List.length_modify _ _ _

private theorem Shut.update (h : s.Shut) {f : WebSocketClient → WebSocketClient}
    (hf : WebSocketClient.Keeps f) (k : Nat) : (s.update k f).Shut := by
  have hkeeps (j : Nat) (before : WebSocketClient) (hb : before.stopping = true) :
      (if k = j then f before else before).stopping = true := by
    split
    · exact hf.stopping before hb
    · exact hb
  refine ⟨?_, ?_, ?_⟩
  · intro j client hj hl
    obtain ⟨before, hb, rfl⟩ := getElem?_update hj
    rw [length_update] at hl
    exact hkeeps j before (h.replaced j before hb hl)
  · intro j client hj ha
    obtain ⟨before, hb, rfl⟩ := getElem?_update hj
    refine hkeeps j before (h.aborted j before hb ?_)
    split at ha
    · rwa [hf.aborted] at ha
    · exact ha
  · intro hr j client hj
    obtain ⟨before, hb, rfl⟩ := getElem?_update hj
    exact hkeeps j before (h.waiting hr j before hb)

/-- After the current client was aborted every client has stopped. -/
theorem Shut.stopping_of_abort (h : s.Shut) {j : Nat} {client : WebSocketClient}
    (hj : (s.effect .abort).clients[j]? = some client) : client.stopping = true := by
  obtain ⟨before, hb, rfl⟩ := getElem?_update hj
  split
  · rfl
  · next hne =>
    have hlt : j < s.clients.length := List.getElem?_eq_some_iff.mp hb |>.1
    apply h.replaced j before hb
    omega

private theorem Shut.abort (h : s.Shut) : (s.effect .abort).Shut :=
  ⟨fun _ _ hj _ ↦ h.stopping_of_abort hj, fun _ _ hj _ ↦ h.stopping_of_abort hj,
    fun _ _ _ hj ↦ h.stopping_of_abort hj⟩

private theorem Shut.quiet (h : s.Shut) {effect : KrakenEffect} (hq : effect.quiet = true) :
    (s.effect effect).Shut := by
  cases effect with
  | abort => exact h.abort
  | connect | schedule => cases hq
  | pushed | received | processed | lifecycle | cancelRetry | closeQueue => exact h

/-- Orderly effects leave no client running that should not be. -/
theorem Shut.effects {effects : List KrakenEffect} (ho : KrakenEffect.Orderly effects)
    (h : s.Shut) : (effects.foldl effect s).Shut := by
  induction ho generalizing s with
  | nil => exact h
  | quiet effect rest hq _ ih => exact ih (h.quiet hq)
  | retry delay rest _ ih =>
    have habort := h.abort
    exact ih ⟨habort.replaced, habort.aborted, fun _ _ _ hj ↦ h.stopping_of_abort hj⟩

private theorem length_effects {effects : List KrakenEffect} (ho : KrakenEffect.Orderly effects)
    (s : KrakenClients) : (effects.foldl effect s).clients.length = s.clients.length := by
  induction ho generalizing s with
  | nil => rfl
  | quiet effect rest hq _ ih =>
    rw [List.foldl_cons, ih]
    cases effect with
    | abort => exact length_update _ _ _
    | connect | schedule => cases hq
    | pushed | received | processed | lifecycle | cancelRetry | closeQueue => rfl
  | retry delay rest _ ih =>
    rw [List.foldl_cons, List.foldl_cons, ih]
    exact length_update _ _ _

@[simp]
private theorem market_effects (effects : List KrakenEffect) (s : KrakenClients) :
    (effects.foldl effect s).market = s.market := by
  induction effects generalizing s with
  | nil => rfl
  | cons effect rest ih =>
    rw [List.foldl_cons, ih]
    cases effect <;> rfl

private theorem retrying_effects {effects : List KrakenEffect} {s : KrakenClients}
    (h : (effects.foldl effect s).retrying = true) :
    s.retrying = true ∨ ∃ delay, .schedule delay ∈ effects := by
  induction effects generalizing s with
  | nil => exact .inl h
  | cons effect rest ih =>
    rcases ih h with hr | ⟨delay, hd⟩
    · cases effect with
      | schedule delay => exact .inr ⟨delay, List.mem_cons_self⟩
      | abort | connect | pushed | received | processed | lifecycle | cancelRetry | closeQueue =>
        exact .inl hr
    · exact .inr ⟨delay, List.mem_cons_of_mem _ hd⟩

/-! ### The invariant -/

/-- Every attempt has had its recovery, but the current one may still have its chance; while the
retry timer is waited for it had it. -/
structure Guarded (s : KrakenClients) : Prop where
  shut : s.Shut
  attempts : s.market.recoveries + s.market.chances = s.clients.length
  retrying : s.retrying = true → s.market.recovering = true

private theorem Guarded.update (h : s.Guarded) {f : WebSocketClient → WebSocketClient}
    (hf : WebSocketClient.Keeps f) (k : Nat) : (s.update k f).Guarded :=
  ⟨h.shut.update hf k, h.attempts.trans (length_update s k f).symm, h.retrying⟩

/-- The clients do what the market has added to its trace. -/
theorem call_of_trace {m : KrakenMarket} {effects : List KrakenEffect}
    (h : m.trace = s.market.trace ++ effects) :
    s.call m = effects.foldl effect { s with market := m } := by
  rw [call, h, List.drop_left]

/-- The market after a call. -/
@[simp]
theorem market_call (s : KrakenClients) (m : KrakenMarket) : (s.call m).market = m :=
  market_effects _ _

private theorem Guarded.call (h : s.Guarded) {m : KrakenMarket} {effects : List KrakenEffect}
    (he : s.market.Emits effects m) : (s.call m).Guarded := by
  have hshut : Shut { s with market := m } := ⟨h.shut.replaced, h.shut.aborted, h.shut.waiting⟩
  rw [call_of_trace he.trace]
  refine ⟨hshut.effects he.orderly, ?_, ?_⟩
  · rw [market_effects, length_effects he.orderly, he.balance]
    exact h.attempts
  · intro hr
    rw [market_effects]
    rcases retrying_effects hr with hr | ⟨delay, hd⟩
    · exact he.recovering (h.retrying hr)
    · exact he.retry delay hd

private theorem Guarded.fail (h : s.Guarded) (k : Nat) (client : WebSocketClient)
    (operation : Bytes) (code : ErrorCode) : (s.fail k client operation code).Guarded := by
  unfold KrakenClients.fail
  split
  · exact h
  · obtain ⟨effects, he⟩ := s.market.emits_recover (operation ++ ascii ": " ++ code.message) false
    exact (h.update WebSocketClient.keeps_halt k).call he

private theorem Guarded.advance (h : s.Guarded) (k : Nat) (client : WebSocketClient)
    (operation : Bytes) (code : ErrorCode) {next : WebSocketClient → WebSocketClient}
    (hn : WebSocketClient.Keeps next) : (s.advance k client operation code next).Guarded := by
  unfold KrakenClients.advance
  split
  · exact h
  · split
    · exact h.fail k client operation code
    · exact h.update hn k

private theorem Guarded.handle (crc : Bytes → UInt32) (h : s.Guarded) (k : Nat)
    (client : WebSocketClient) (d : Delivery) (operation : Operation) :
    (s.handle crc k client d operation).Guarded := by
  cases operation with
  | connect => exact h.advance _ _ _ _ (WebSocketClient.keeps_begin _)
  | tlsHandshake => exact h.advance _ _ _ _ (WebSocketClient.keeps_begin _)
  | handshake => exact h.advance _ _ _ _ (WebSocketClient.keeps_subscribe 0)
  | write index =>
    have hwrote := h.update WebSocketClient.keeps_wrote k
    simp only [KrakenClients.handle]
    split
    · exact hwrote.update (WebSocketClient.keeps_close d.isOpen) k
    · split
      · exact hwrote.fail k client _ _
      · split
        · exact hwrote.update (WebSocketClient.keeps_subscribe _) k
        · have he : s.market.Emits [] (s.market.onConnected d.now) :=
            KrakenMarket.emits_none rfl rfl rfl
          exact (hwrote.call he).update WebSocketClient.keeps_read k
  | read =>
    simp only [KrakenClients.handle]
    split
    · exact h.fail k client _ _
    · split
      · exact h
      · obtain ⟨effects, he⟩ := s.market.emits_onMessage crc d.payload d.wall d.mono d.result
        refine (h.call he).update ?_ k
        split
        · exact WebSocketClient.keeps_read
        · exact WebSocketClient.keeps_close d.isOpen
  | close =>
    simp only [KrakenClients.handle]
    split
    · obtain ⟨effects, he⟩ := s.market.emits_recover (ascii "close: " ++ d.code.message) false
      exact h.call he
    · exact h

private theorem Guarded.complete (crc : Bytes → UInt32) (h : s.Guarded) (k : Nat)
    (operation : Operation) (d : Delivery) : (s.complete crc k operation d).Guarded := by
  unfold KrakenClients.complete
  split
  · exact h
  · split
    · exact (h.update (WebSocketClient.keeps_finished operation) k).handle crc k _ d operation
    · exact h

private theorem getElem?_concat {k : Nat} {client created : WebSocketClient}
    {clients : List WebSocketClient} (h : (clients ++ [created])[k]? = some client) :
    clients[k]? = some client ∨ (k = clients.length ∧ client = created) := by
  rw [List.getElem?_append] at h
  split at h
  · exact .inl h
  · next hk =>
    have hlt := List.getElem?_eq_some_iff.mp h |>.1
    rw [List.length_singleton] at hlt
    have hzero : k - clients.length = 0 := by omega
    rw [hzero] at h
    exact .inr ⟨by omega, (Option.some_inj.mp h).symm⟩

/-- A connect finds every earlier client stopped. -/
theorem guarded_connect
    (hs : ∀ (k : Nat) (client : WebSocketClient), s.clients[k]? = some client →
      client.stopping = true)
    (hc : s.market.recoveries = s.clients.length) (hr : s.retrying = false)
    (now : ReceiveMonotonicTimestamp) (sni resolve : ErrorCode) :
    (s.connect now sni resolve).Guarded := by
  have htrace : (s.market.connect now).trace =
      s.market.trace ++ [KrakenEffect.connect (s.market.connection + 1)] := rfl
  have hnew : (s.call (s.market.connect now)).Guarded := by
    rw [call_of_trace htrace]
    refine ⟨⟨?_, ?_, ?_⟩, ?_, ?_⟩
    · intro k client hk hl
      rcases getElem?_concat hk with hk | ⟨rfl, -⟩
      · exact hs k client hk
      · change s.clients.length + 1 < (s.clients ++ [_]).length at hl
        rw [List.length_append, List.length_singleton] at hl
        omega
    · intro k client hk ha
      rcases getElem?_concat hk with hk | ⟨-, rfl⟩
      · exact hs k client hk
      · cases ha
    · intro hretry
      cases hr.symm.trans hretry
    · change (s.market.connect now).recoveries + 1 = (s.clients ++ [_]).length
      rw [List.length_append, List.length_singleton, ← hc, KrakenMarket.recoveries, htrace,
        List.countP_append]
      rfl
    · intro hretry
      cases hr.symm.trans hretry
  unfold connect
  dsimp only
  split
  · exact hnew.fail _ _ _ _
  · split
    · exact hnew.fail _ _ _ _
    · exact hnew.update (WebSocketClient.keeps_begin _) _

private theorem Guarded.step (crc : Bytes → UInt32) (limits : KrakenLimits) (h : s.Guarded)
    (event : Event) :
    (s.step crc limits event).Guarded := by
  cases event with
  | complete k operation d => exact h.complete crc k operation d
  | retry expired now sni resolve =>
    simp only [KrakenClients.step]
    split
    · next hretry =>
      have hrecovering := h.retrying hretry
      split
      · refine guarded_connect (s := { s with retrying := false })
          (h.shut.waiting hretry) ?_ rfl now sni resolve
        have hattempts := h.attempts
        rw [KrakenMarket.chances, if_pos hrecovering] at hattempts
        exact hattempts
      · exact ⟨⟨h.shut.replaced, h.shut.aborted, nofun⟩, h.attempts, nofun⟩
    · exact h
  | tick now fatal fatalLater requested =>
    obtain ⟨effects, he⟩ := s.market.emits_tick limits now fatal fatalLater requested
    exact h.call he

private theorem run_guarded (crc : Bytes → UInt32) (limits : KrakenLimits)
    (processor : KrakenBookProcessor) (now : ReceiveMonotonicTimestamp) (sni resolve : ErrorCode)
    (events : List Event) : ((start processor now sni resolve).run crc limits events).Guarded := by
  induction events using List.reverseRecOn with
  | nil =>
    refine guarded_connect ?_ rfl rfl now sni resolve
    intro k client hk
    cases hk
  | append_singleton events event ih =>
    rw [run, List.foldl_append]
    exact ih.step crc limits event

/-! ### Late completions -/

private theorem market_update (s : KrakenClients) (k : Nat)
    (f : WebSocketClient → WebSocketClient) :
    (s.update k f).market = s.market := rfl

/-- A client that has stopped calls back only when its close reports an error. -/
theorem handle_stopped (crc : Bytes → UInt32) (s : KrakenClients) (k : Nat)
    {client : WebSocketClient} (h : client.stopping = true) (d : Delivery) (operation : Operation) :
    (s.handle crc k client d operation).market =
      if operation = .close ∧ d.code.reported = true then
        s.market.onError (ascii "close: " ++ d.code.message)
      else s.market := by
  cases operation with
  | connect | tlsHandshake | handshake => simp [handle, advance, h]
  | write index => simp [handle, h, market_update]
  | read => simp [handle, fail, h]
  | close =>
    by_cases hd : d.code.reported = true
    · simp [handle, hd]
    · simp [handle, hd]

/-- The error callback changes nothing exactly if the thread is stopping or recovering already. -/
theorem onError_eq_iff (m : KrakenMarket) (reason : Bytes) :
    m.onError reason = m ↔ m.stopping = true ∨ m.recovering = true := by
  constructor
  · intro h
    by_contra hn
    simp only [not_or, Bool.not_eq_true] at hn
    have htrace := congrArg (fun m : KrakenMarket ↦ m.trace.length) h
    simp [KrakenMarket.onError, KrakenMarket.recover, hn] at htrace
  · intro h
    exact KrakenMarket.recover_of_idle h reason false

/-- In every run, every connection attempt but the current one had exactly one recovery while it
was the current one; and a completion of an abandoned client leaves the market thread as it is,
its processor, index and flags and what it has recorded, unless it is that of a close with an
error to report, delivered while the thread is neither recovering nor stopping. -/
theorem abandoned_completion_isolated_iff (crc : Bytes → UInt32) (limits : KrakenLimits)
    (processor : KrakenBookProcessor) (now : ReceiveMonotonicTimestamp) (sni resolve : ErrorCode)
    (events : List Event) :
    let s := (start processor now sni resolve).run crc limits events
    s.market.recoveries + s.market.chances = s.clients.length ∧
      ∀ (k : Nat) (client : WebSocketClient) (operation : Operation) (d : Delivery),
        s.clients[k]? = some client → operation ∈ client.pending → s.Abandoned k client →
          ((s.complete crc k operation d).market = s.market ↔
            ¬(operation = .close ∧ d.code.reported = true ∧ s.market.recovering = false ∧
              s.market.stopping = false)) := by
  intro s
  have hinv : s.Guarded := run_guarded crc limits processor now sni resolve events
  refine ⟨hinv.attempts, ?_⟩
  intro k client operation d hk hp ha
  have hstopping := hinv.shut.of_abandoned hk ha
  have hcomplete : (s.complete crc k operation d).market =
      if operation = .close ∧ d.code.reported = true then
        s.market.onError (ascii "close: " ++ d.code.message)
      else s.market := by
    rw [complete, hk]
    dsimp only
    rw [if_pos hp, handle_stopped crc _ k hstopping]
    rfl
  rw [hcomplete]
  split
  · next hc =>
    rw [onError_eq_iff]
    simp only [hc, true_and, not_and, Bool.not_eq_false]
    cases s.market.recovering <;> simp
  · next hc =>
    simp only [true_iff]
    rintro ⟨hop, hreported, -⟩
    exact hc ⟨hop, hreported⟩

/-- The operations of the client `k` up to its first read. -/
def subscribing (k : Nat) : List Event :=
  [.complete k .connect {}, .complete k .tlsHandshake {}, .complete k .handshake {},
    .complete k (.write 0) {}]

/-- The first client reads a message that is no JSON, so it is aborted and closed; the second one
is connected and reads a snapshot. -/
def replacedClient : List Event :=
  subscribing 0 ++ .complete 0 .read { payload := ascii "x" } ::
    .retry true ⟨1⟩ .success .success :: subscribing 1 ++
    [.complete 1 .read { payload := KrakenBookProcessor.oneLevelEach }]

/-- A close without error of the replaced client changes nothing. -/
theorem abandoned_completion_isolated_iff_silent :
    ∃ p₀, KrakenBookProcessor.create 10 = .ok p₀ ∧
      let s := (start p₀ ⟨0⟩ .success .success).run Crc.crc32 {} replacedClient
      s.market.recoveries = 1 ∧ s.clients.length = 2 ∧
        (s.complete Crc.crc32 0 .close {}).market = s.market := by
  refine ⟨_, rfl, by decide +kernel, by decide +kernel, ?_⟩
  refine ((abandoned_completion_isolated_iff Crc.crc32 {} _ ⟨0⟩ .success .success
    replacedClient).2 0 ⟨1, true, false, true, [.close], true⟩ .close {} (by decide +kernel)
    (by decide) (.inl rfl)).mpr ?_
  rintro ⟨-, hreported, -⟩
  cases hreported

/-- The close of the replaced client ends with an error while the second client is connected and
its book is valid: the thread recovers, a second lifecycle event is recorded, the book is
disconnected and the second client is aborted. -/
theorem late_close_breaks_connection :
    ∃ p₀, KrakenBookProcessor.create 10 = .ok p₀ ∧
      let s := (start p₀ ⟨0⟩ .success .success).run Crc.crc32 {} replacedClient
      let s' := s.complete Crc.crc32 0 .close { code := .other (ascii "Bad file descriptor") }
      s.clients.map (·.aborted) = [true, false] ∧ s.clients.map (·.pending) = [[.close], [.read]] ∧
        s.market.recoveries = 1 ∧ s.market.connected = true ∧
        s.market.processor.book.state = .valid ∧
        s'.clients.map (·.aborted) = [true, true] ∧ s'.market.recoveries = 2 ∧
        s'.market.connected = false ∧ s'.market.processor.book.state = .disconnected :=
  ⟨_, rfl, by decide +kernel⟩

end KrakenClients

end ArbitrageEngine.Pipeline
