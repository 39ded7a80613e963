import ArbitrageEngine.Pipeline.LiveAccounting
import ArbitrageEngine.Pipeline.KrakenClients

/-!
# What the status shows of the book

`src/pipeline/{live_runtime,kraken_runtime}.cpp`: the fields of the status that `publish` writes,
over the runs of both captures. Only the market thread writes them, each time in one section
under the mutex; every other thread copies what is there between two sections. The sizes of the
queue, the checksum and the metrics that are published along with them are left out.
-/

namespace ArbitrageEngine.Pipeline

open Base ArbitrageEngine.Core Coinbase Kraken Recording

/-! ### The screen -/

/-- The fields of `RuntimeStatus` that show the book, with their defaults
(`include/pipeline/runtime_status.hpp:24–31`). -/
structure Screen where
  connected : Bool := false
  bookState : BookState := .initializing
  bidLevels : Nat := 0
  askLevels : Nat := 0
  lastSequence : Option Nat := none
  bestBid : Option PriceTicks := none
  bestAsk : Option PriceTicks := none
  deriving DecidableEq, Repr

namespace Screen

/-- What both `publish` lambdas write (`src/pipeline/live_runtime.cpp:156–162`,
`src/pipeline/kraken_runtime.cpp:51–56`). -/
def publish (screen : Screen) (connected : Bool) (book : OrderBook) : Screen :=
  { screen with
    connected
    bookState := book.state
    bidLevels := book.bids.size
    askLevels := book.asks.size
    bestBid := book.bestBid.map (·.price)
    bestAsk := book.bestAsk.map (·.price) }

/-- The handler of `run_live` (`src/pipeline/live_runtime.cpp:247–250`). -/
def caught (screen : Screen) : Screen :=
  { screen with connected := false, bookState := .invalid, bestBid := none, bestAsk := none }

/-- The handler of `run_kraken`: the prices and the connection stay
(`src/pipeline/kraken_runtime.cpp:230`). -/
def overruled (screen : Screen) : Screen := { screen with bookState := .invalid }

/-- Neither price is shown. -/
def Blank (screen : Screen) : Prop := screen.bestBid = none ∧ screen.bestAsk = none

/-- A price is only shown of a valid book. -/
def PricesValid (screen : Screen) : Prop := screen.bookState = .valid ∨ screen.Blank

instance (screen : Screen) : Decidable screen.Blank := inferInstanceAs (Decidable (_ ∧ _))

instance (screen : Screen) : Decidable screen.PricesValid := inferInstanceAs (Decidable (_ ∨ _))

private theorem publish_pricesValid (screen : Screen) (connected : Bool) (book : OrderBook) :
    (screen.publish connected book).PricesValid := by
  by_cases hstate : book.state = .valid
  · exact .inl hstate
  · right
    have hbid : book.bestBid = none := by rw [OrderBook.bestBid, if_pos hstate]
    have hask : book.bestAsk = none := by rw [OrderBook.bestAsk, if_pos hstate]
    exact ⟨by rw [publish, hbid]; rfl, by rw [publish, hask]; rfl⟩

private theorem caught_pricesValid (screen : Screen) : screen.caught.PricesValid := .inr ⟨rfl, rfl⟩

private theorem overruled_pricesValid_iff (screen : Screen) :
    screen.overruled.PricesValid ↔ screen.Blank := by
  constructor
  · rintro (hstate | hblank)
    · cases hstate
    · exact hblank
  · exact .inr

end Screen

/-! ### Sections -/

/-- The section of the handler of `run_kraken`. -/
def Op.isOverruled : Op → Bool
  | overruled _ => true
  | _ => false

/-- A section of the market thread: what it does to the queue or the status, and to the screen. -/
structure Section where
  op : Option Op := none
  draw : Screen → Screen := id

namespace Section

/-- A section that leaves the screen alone. -/
def plain (op : Op) : Section := { op := some op }

/-- A section that only publishes. -/
def shown (draw : Screen → Screen) : Section := { draw := draw }

/-- The section shows prices of valid books only, if that was so before. -/
def Keeps (part : Section) : Prop :=
  ∀ screen : Screen, screen.PricesValid → (part.draw screen).PricesValid

private theorem plain_keeps (op : Op) : (plain op).Keeps := fun _ h ↦ h

/-- The operations of the sections, in order. -/
def ops (parts : List Section) : List Op := parts.filterMap Section.op

@[simp]
private theorem ops_append (parts rest : List Section) :
    ops (parts ++ rest) = ops parts ++ ops rest :=
  List.filterMap_append

@[simp]
private theorem ops_map_plain (list : List Op) : ops (list.map plain) = list := by
  rw [ops, List.filterMap_map]
  exact List.filterMap_some

end Section

/-- The sections of a market thread with what they show. -/
structure Display {σ ι : Type} (P : Program σ ι) where
  /-- The sections of an action. -/
  parts : σ → ι → List Section
  /-- The `publish` lambda. -/
  publish : σ → Screen → Screen
  /-- The sections of the handler around the thread. -/
  handler : σ → Bytes → List Section
  parts_ops : ∀ m input, Section.ops (parts m input) = (P.step m input).2
  handler_ops : ∀ m what, Section.ops (handler m what) = P.handler m what

/-! ### Runs -/

namespace System

variable {σ ι : Type} (P : Program σ ι)

/-- The action that an event starts. -/
def begun (s : System σ) : Event ι → Option ι
  | .check requested => if s.phase = .checking then P.refuses s.fatal requested else none
  | .start now => if s.phase = .starting then some (P.start now) else none
  | .callback input => if s.idle && P.isCallback input then some input else none
  | .posted => if s.idle then s.backend.shared.posted.head?.map P.failure else none
  | .tick now requested =>
    match s.phase, s.pending, s.seen with
    | .looping, [], some first => some (P.tick now first s.fatal requested)
    | _, _, _ => none
  | _ => none

/-- An action with the answer of the queue. -/
def answered (s : System σ) (input : ι) : ι :=
  match P.handed s.market input with
  | none => input
  | some envelope => P.answered input (s.backend.push envelope).2

/-- The event loop ends with this event. -/
def exits (s : System σ) : Bool := s.idle && !s.armed && s.backend.shared.posted.isEmpty

end System

/-- Both threads with the sections that the current action has still to go through and with the
screen that any thread can copy. -/
structure Displayed (σ : Type) where
  system : System σ
  parts : List Section := []
  screen : Screen := {}

namespace Displayed

variable {σ ι : Type} {P : Program σ ι} (D : Display P)

/-- The threads before their first step. -/
def create (config : RawQueueConfig) (market : σ) : Displayed σ where
  system := .create config market

/-- The next section. A tick that finds the writer done returns without publishing. -/
def proceed (d : Displayed σ) : Displayed σ :=
  match d.parts with
  | [] => d
  | part :: rest =>
    match part.op with
    | none => { d with parts := rest, screen := part.draw d.screen }
    | some op =>
      { system := d.system.proceed
        parts :=
          if op = .settle && d.system.backend.shared.writerDone then rest.filter (·.op.isSome)
          else rest
        screen := part.draw d.screen }

/-- A step of the market thread to its next action; there is none before the last section. -/
def advance (d : Displayed σ) (event : Event ι) : Displayed σ :=
  if d.parts.isEmpty then
    { d with
      system := d.system.step P event
      parts := match d.system.begun P event with
        | none => []
        | some input => D.parts d.system.market (d.system.answered P input) }
  else d

/-- One step of a thread. -/
def step (d : Displayed σ) (event : Event ι) : Displayed σ :=
  match event with
  | .writer _ => { d with system := d.system.step P event }
  | .proceed => d.proceed
  | .throw what =>
    if d.system.phase.isGuarded then
      { d with system := d.system.step P event, parts := D.handler d.system.market what }
    else d
  | .exit =>
    if d.parts.isEmpty && d.system.exits then
      { d with
        system := d.system.step P event
        parts := .shown (D.publish d.system.market) :: P.farewell.map .plain }
    else d
  | event => d.advance D event

/-- A run: any order of steps. -/
def run (d : Displayed σ) (events : List (Event ι)) : Displayed σ := events.foldl (step D) d

/-- The next section is the one of the handler of `run_kraken`. -/
def catching (d : Displayed σ) : Bool := (d.parts.head?.bind Section.op).any Op.isOverruled

end Displayed

/-! ### `run_live` -/

namespace LiveMarket

variable (clock : Nat → ReceiveMonotonicTimestamp)

/-- The `publish` lambda, and the same lines of the publish callback
(`src/pipeline/live_runtime.cpp:116–165`). -/
def publish (manager : CoinbaseConnectionManager) (screen : Screen) : Screen :=
  { screen.publish manager.connected manager.book with lastSequence := manager.sequence.last }

/-- The manager when it calls the publish callback. -/
def publishing (manager : CoinbaseConnectionManager) :
    CoinbaseConnectionManager.Action → CoinbaseConnectionManager
  | .message _ raw wall mono response now =>
    ({ manager with
        handler := { manager.handler with connectionId := manager.connectionId } }.handle
      raw wall mono response now).1
  | _ => manager

/-- A section of the manager's: only the publish callback shows something. -/
def managerPart (manager : CoinbaseConnectionManager) : Op → Section
  | .published result progress => ⟨some (.published result progress), publish manager⟩
  | op => .plain op

/-- The sections of the `stop` lambda (`src/pipeline/live_runtime.cpp:167–178`). -/
def stopParts (m : LiveMarket) (error : Bytes) : List Section :=
  (m.stop clock error).2.map .plain ++ [.shown (publish (m.stop clock error).1.manager)]

/-- The sections of the `tick` lambda (`src/pipeline/live_runtime.cpp:217–229`). -/
def tickParts (m : LiveMarket) (fatal : Option Bytes) (requested : Bool) : List Section :=
  let (m, parts) :=
    if requested || fatal.isSome || m.manager.terminal then
      ((m.stop clock (fatal.getD [])).1, m.stopParts clock (fatal.getD []))
    else (m, [])
  parts ++ (if m.stopping then [.plain .settle] else []) ++ [.shown (publish m.manager)]

/-- The sections of an action. -/
def parts (m : LiveMarket) : LiveAction → List Section
  | .manager action =>
    (m.step clock (.manager action)).2.map (managerPart (publishing m.manager action))
  | .stop error => m.stopParts clock error
  | .tick fatal requested => m.tickParts clock fatal requested

private theorem op_managerPart (manager : CoinbaseConnectionManager) (op : Op) :
    (managerPart manager op).op = some op := by
  cases op <;> rfl

private theorem ops_stopParts (m : LiveMarket) (error : Bytes) :
    Section.ops (m.stopParts clock error) = (m.stop clock error).2 := by
  rw [stopParts, Section.ops_append, Section.ops_map_plain]
  exact List.append_nil _

private theorem ops_parts (m : LiveMarket) (action : LiveAction) :
    Section.ops (m.parts clock action) = (m.step clock action).2 := by
  cases action with
  | manager action =>
    rw [parts, Section.ops, List.filterMap_map]
    have hop : Section.op ∘ managerPart (publishing m.manager action) = some :=
      funext (op_managerPart _)
    rw [hop, List.filterMap_some]
  | stop error => exact m.ops_stopParts clock error
  | tick fatal requested =>
    have hend : ∀ (m : LiveMarket) (parts : List Section),
        Section.ops (parts ++ (if m.stopping then [Section.plain .settle] else []) ++
          [Section.shown (publish m.manager)]) =
        Section.ops parts ++ if m.stopping then [Op.settle] else [] := by
      intro m parts
      rw [Section.ops_append, Section.ops_append, List.append_assoc]
      cases m.stopping <;> rfl
    change Section.ops (m.tickParts clock fatal requested) = (m.tick clock fatal requested).2
    unfold tickParts tick
    by_cases hstop : (requested || fatal.isSome || m.manager.terminal) = true
    · rw [if_pos hstop, if_pos hstop]
      exact (hend _ _).trans (by rw [ops_stopParts])
    · rw [if_neg hstop, if_neg hstop]
      exact hend _ _

end LiveMarket

/-- What `run_live` shows (`src/pipeline/live_runtime.cpp:92–256`). -/
def liveDisplay (clock : Nat → ReceiveMonotonicTimestamp) : Display (liveProgram clock) where
  parts := LiveMarket.parts clock
  publish := fun m ↦ LiveMarket.publish m.manager
  handler := fun m what ↦
    (Op.clearPost :: m.destroyed clock ++ [Op.closeQueue]).map .plain ++
      [⟨some (.caught what), Screen.caught⟩]
  parts_ops := LiveMarket.ops_parts clock
  handler_ops := fun m what ↦ by
    rw [Section.ops_append, Section.ops_map_plain]
    exact List.append_assoc (Op.clearPost :: m.destroyed clock) [.closeQueue] [.caught what]

/-! ### `run_kraken` -/

namespace KrakenMarket

/-- The `publish` lambda (`src/pipeline/kraken_runtime.cpp:47–59`). -/
def publish (m : KrakenMarket) (screen : Screen) : Screen :=
  screen.publish m.connected m.processor.book

/-- The sections of the `recover` lambda (`src/pipeline/kraken_runtime.cpp:69–92`). -/
def recoverParts (m : KrakenMarket) (reason : Bytes) (stale : Bool) : List Section :=
  if m.stopping || m.recovering then []
  else
    let after := m.recover reason stale
    [.plain (.lifecycle ⟨m.index, after.processor.book.state, reason⟩), .shown after.publish]

/-- The sections of the message callback (`src/pipeline/kraken_runtime.cpp:100–148`). -/
def messageParts (crc : Bytes → UInt32) (m : KrakenMarket) (payload : Bytes)
    (wall : ReceiveWallTimestamp) (mono : ReceiveMonotonicTimestamp) (result : PushResult) :
    List Section :=
  if m.stopping then []
  else
    let e := envelope m.toKrakenSession payload wall mono
    let m := m.withSession (pushed m.toKrakenSession e result)
    .plain (.received m.index result) ::
      if result ≠ .accepted then
        let after := { m with processor := m.processor.invalidate }.stop
        [.plain .closeQueue, .shown after.publish]
      else
        let (session, ok) := processed crc (opened m.toKrakenSession) payload wall mono
        let after := m.withSession session
        [.plain (.processed m.index), .shown after.publish] ++
          if !ok then after.recoverParts (failureReason after.processor) false else []

/-- The sections of the forced disconnect of a tick (`src/pipeline/kraken_runtime.cpp:184–189`). -/
def forceParts (limits : KrakenLimits) (m : KrakenMarket) (now : ReceiveMonotonicTimestamp) :
    List Section :=
  if !m.recovering && !m.forced && m.elapsed now limits.forceSeconds then
    { m with forced := true }.recoverParts (ascii "forced_disconnect") false
  else []

/-- The sections of the timeouts of a tick (`src/pipeline/kraken_runtime.cpp:190–200`). -/
def timeoutParts (m : KrakenMarket) (now : ReceiveMonotonicTimestamp) : List Section :=
  if m.connected && !m.recovering then
    let last := if m.firstRecord then m.connectedAt else m.processor.lastMessage.getD m.connectedAt
    if 5000000000 < now.nanoseconds - last.nanoseconds then
      m.recoverParts (ascii "message_timeout") true
    else if m.processor.book.state ≠ .valid ∧
        15000000000 < now.nanoseconds - m.connectedAt.nanoseconds then
      m.recoverParts (ascii "snapshot_timeout") false
    else []
  else []

/-- The sections of the `tick` lambda (`src/pipeline/kraken_runtime.cpp:172–207`). -/
def tickParts (limits : KrakenLimits) (m : KrakenMarket) (now : ReceiveMonotonicTimestamp)
    (fatal fatalLater requested : Bool) : List Section :=
  let m := if fatal then { m with processor := m.processor.invalidate } else m
  let stops := requested || fatalLater || m.elapsed now limits.duration
  let m := if stops then m.stop else m
  let closing : List Section := if stops then [.plain .closeQueue] else []
  closing ++
    if m.stopping then [.shown m.publish]
    else
      m.forceParts limits now ++ (m.forceDisconnect limits now).timeoutParts now ++
        [.shown ((m.forceDisconnect limits now).checkTimeouts now).publish]

/-- The sections of an action. -/
def parts (crc : Bytes → UInt32) (limits : KrakenLimits) (m : KrakenMarket) :
    Action → List Section
  | .connect _ | .connected _ | .retry _ => []
  | .stop => [.plain .closeQueue]
  | .message payload wall mono result => m.messageParts crc payload wall mono result
  | .error reason => m.recoverParts reason false
  | .tick now fatal fatalLater requested => m.tickParts limits now fatal fatalLater requested

/-- The trace grows by the operations of the sections. -/
def Through (m : KrakenMarket) (parts : List Section) (m' : KrakenMarket) : Prop :=
  ∃ effects, m'.trace = m.trace ++ effects ∧ effects.filterMap krakenOp = Section.ops parts

private theorem Through.trans {m m' m'' : KrakenMarket} {parts rest : List Section}
    (h : m.Through parts m') (h' : m'.Through rest m'') : m.Through (parts ++ rest) m'' := by
  obtain ⟨effects, htrace, hops⟩ := h
  obtain ⟨effects', htrace', hops'⟩ := h'
  refine ⟨effects ++ effects', ?_, ?_⟩
  · rw [htrace', htrace, List.append_assoc]
  · rw [List.filterMap_append, hops, hops', Section.ops_append]

/-- Publishing adds nothing to the trace. -/
theorem Through.published {m m' : KrakenMarket} {parts : List Section} (h : m.Through parts m')
    (draw : Screen → Screen) : m.Through (parts ++ [Section.shown draw]) m' := by
  obtain ⟨effects, htrace, hops⟩ := h
  refine ⟨effects, htrace, ?_⟩
  rw [hops, Section.ops_append]
  exact (List.append_nil _).symm

private theorem through_same {m m' : KrakenMarket} (h : m'.trace = m.trace) : m.Through [] m' :=
  ⟨[], by rw [h, List.append_nil], rfl⟩

private theorem through_stop (m : KrakenMarket) : m.Through [.plain .closeQueue] m.stop :=
  ⟨[.abort, .cancelRetry, .closeQueue], rfl, rfl⟩

private theorem through_recover (m : KrakenMarket) (reason : Bytes) (stale : Bool) :
    m.Through (m.recoverParts reason stale) (m.recover reason stale) := by
  unfold recoverParts
  split
  · next h => exact through_same (by rw [recover, if_pos h])
  · next h =>
    refine ⟨[.lifecycle ⟨m.index, (m.recover reason stale).processor.book.state, reason⟩, .abort,
      .schedule m.backoff.nextDelay.2], ?_, rfl⟩
    rw [recover, if_neg h]

private theorem through_message (crc : Bytes → UInt32) (m : KrakenMarket) (payload : Bytes)
    (wall : ReceiveWallTimestamp) (mono : ReceiveMonotonicTimestamp) (result : PushResult) :
    m.Through (m.messageParts crc payload wall mono result)
      (m.onMessage crc payload wall mono result).1 := by
  unfold messageParts onMessage
  split
  · exact through_same rfl
  · dsimp only
    have hpushed : m.Through [.plain (.received m.index result)] (m.withSession
        (pushed m.toKrakenSession (envelope m.toKrakenSession payload wall mono) result)) :=
      ⟨_, rfl, rfl⟩
    generalize hm : m.withSession (pushed m.toKrakenSession _ result) = m₁ at hpushed ⊢
    have hindex : m.index = m₁.index := by rw [← hm]; rfl
    rw [hindex] at hpushed
    by_cases hresult : result ≠ .accepted
    · rw [if_pos hresult, if_pos hresult]
      exact hpushed.trans
        ((through_stop { m₁ with processor := m₁.processor.invalidate }).published _)
    · rw [if_neg hresult, if_neg hresult]
      have hprocessed := (m₁.emits_processed crc payload wall mono).trace
      generalize processed crc (opened m₁.toKrakenSession) payload wall mono = r at hprocessed ⊢
      have hthrough : m₁.Through [.plain (.processed m₁.index)] (m₁.withSession r.1) :=
        ⟨_, hprocessed, rfl⟩
      refine hpushed.trans ((hthrough.published (m₁.withSession r.1).publish).trans ?_)
      unfold finishMessage
      split
      · exact through_recover _ _ _
      · split <;> exact through_same rfl

private theorem through_forceDisconnect (limits : KrakenLimits) (m : KrakenMarket)
    (now : ReceiveMonotonicTimestamp) :
    m.Through (m.forceParts limits now) (m.forceDisconnect limits now) := by
  unfold forceParts forceDisconnect
  split
  · exact through_recover { m with forced := true } _ _
  · exact through_same rfl

private theorem through_checkTimeouts (m : KrakenMarket) (now : ReceiveMonotonicTimestamp) :
    m.Through (m.timeoutParts now) (m.checkTimeouts now) := by
  unfold timeoutParts checkTimeouts
  split
  · generalize (if m.firstRecord then m.connectedAt
      else m.processor.lastMessage.getD m.connectedAt) = last
    dsimp only
    split
    · exact m.through_recover _ _
    · split
      · exact m.through_recover _ _
      · exact through_same rfl
  · exact through_same rfl

private theorem through_tick (limits : KrakenLimits) (m : KrakenMarket)
    (now : ReceiveMonotonicTimestamp) (fatal fatalLater requested : Bool) :
    m.Through (m.tickParts limits now fatal fatalLater requested)
      (m.tick limits now fatal fatalLater requested) := by
  unfold tickParts tick
  dsimp only
  have hfatal : m.Through []
      (if fatal then { m with processor := m.processor.invalidate } else m) :=
    through_same (by cases fatal <;> rfl)
  generalize (if fatal then { m with processor := m.processor.invalidate } else m) = m₁ at hfatal ⊢
  apply hfatal.trans
  generalize (requested || fatalLater || m₁.elapsed now limits.duration) = stops
  have hstop : m₁.Through (if stops then [.plain .closeQueue] else [])
      (if stops then m₁.stop else m₁) := by
    cases stops with
    | true => exact through_stop m₁
    | false => exact through_same rfl
  generalize (if stops then m₁.stop else m₁) = m₂ at hstop ⊢
  apply hstop.trans
  split
  · exact (through_same rfl).published _
  · exact ((through_forceDisconnect limits m₂ now).trans (through_checkTimeouts _ now)).published _

private theorem ops_parts (crc : Bytes → UInt32) (limits : KrakenLimits) (m : KrakenMarket)
    (action : Action) :
    Section.ops (m.parts crc limits action) =
      krakenSectionsSince m.trace (m.step crc limits action).trace := by
  have hthrough : m.Through (m.parts crc limits action) (m.step crc limits action) := by
    cases action with
    | connect now => exact ⟨[.connect (m.connection + 1)], rfl, rfl⟩
    | stop => exact m.through_stop
    | message payload wall mono result => exact m.through_message crc payload wall mono result
    | error reason => exact m.through_recover reason false
    | connected now => exact through_same rfl
    | retry now =>
      change m.Through [] (m.onRetry now)
      unfold onRetry
      split
      · exact through_same rfl
      · exact ⟨[.connect (m.connection + 1)], rfl, rfl⟩
    | tick now fatal fatalLater requested =>
      exact m.through_tick limits now fatal fatalLater requested
  obtain ⟨effects, htrace, hops⟩ := hthrough
  rw [krakenSectionsSince, htrace, List.drop_left, hops]

end KrakenMarket

/-- What `run_kraken` shows (`src/pipeline/kraken_runtime.cpp:33–236`). -/
def krakenDisplay (crc : Bytes → UInt32) (limits : KrakenLimits) :
    Display (krakenProgram crc limits) where
  parts := KrakenMarket.parts crc limits
  publish := KrakenMarket.publish
  handler := fun _ what ↦ [⟨some (.overruled what), Screen.overruled⟩]
  parts_ops := KrakenMarket.ops_parts crc limits
  handler_ops := fun _ _ ↦ rfl

/-! ### What a step shows -/

namespace System

variable {σ ι : Type} {P : Program σ ι}

private theorem act_eq (s : System σ) (input : ι) :
    ((s.act P input).market, (s.act P input).pending) =
      P.step s.market (s.answered P input) := by
  unfold act answered
  cases P.handed s.market input <;> rfl

/-- An action that an event starts, up to its first section. -/
theorem step_begun {s : System σ} {event : Event ι} {input : ι}
    (h : s.begun P event = some input) :
    ((s.step P event).market, (s.step P event).pending) =
      P.step s.market (s.answered P input) := by
  cases event with
  | check requested =>
    simp only [begun] at h
    split at h
    · next hphase =>
      simp only [step, if_pos hphase, h]
      exact act_eq { s with phase := .looping } input
    · cases h
  | start now =>
    simp only [begun] at h
    split at h
    · next hphase =>
      cases h
      simp only [step, if_pos hphase]
      exact act_eq _ (P.start now)
    · cases h
  | callback other =>
    simp only [begun] at h
    split at h
    · next hdue =>
      cases h
      simp only [step, if_pos hdue]
      exact act_eq s input
    · cases h
  | posted =>
    simp only [begun] at h
    split at h
    · next hidle =>
      obtain ⟨error, herror, rfl⟩ := Option.map_eq_some_iff.mp h
      obtain ⟨rest, hposted⟩ := List.head?_eq_some_iff.mp herror
      simp only [step, hidle, hposted]
      exact act_eq _ (P.failure error)
    · cases h
  | tick now requested =>
    simp only [begun] at h
    split at h
    · next first hphase hpending hseen =>
      cases h
      simp only [step, hphase, hpending, hseen]
      exact act_eq { s with seen := none } (P.tick now first s.fatal requested)
    · cases h
  | writer _ | ready | proceed | look | exit | close | finish | throw _ => cases h

/-- Without an action the market thread's variables stay, and so do the sections unless one of
them is gone through or the loop is left. -/
theorem step_not_begun {s : System σ} {event : Event ι} (h : s.begun P event = none) :
    (s.step P event).market = s.market ∧
      (event ≠ .proceed → event ≠ .exit → (∀ what, event ≠ .throw what) →
        (s.step P event).pending = s.pending) := by
  cases event with
  | writer move => exact ⟨rfl, fun _ _ _ ↦ rfl⟩
  | ready =>
    simp only [step]
    split <;> exact ⟨rfl, fun _ _ _ ↦ rfl⟩
  | check requested =>
    simp only [begun] at h
    simp only [step]
    split
    · next hphase =>
      rw [if_pos hphase] at h
      rw [h]
      exact ⟨rfl, fun _ _ _ ↦ rfl⟩
    · exact ⟨rfl, fun _ _ _ ↦ rfl⟩
  | start now =>
    simp only [begun] at h
    split at h
    · cases h
    · next hphase =>
      simp only [step, if_neg hphase]
      exact ⟨trivial, fun _ _ _ ↦ trivial⟩
  | proceed =>
    refine ⟨?_, fun hn ↦ absurd rfl hn⟩
    simp only [step, proceed]
    split <;> rfl
  | callback input =>
    simp only [begun] at h
    split at h
    · cases h
    · next hdue =>
      simp only [step, if_neg hdue]
      exact ⟨trivial, fun _ _ _ ↦ trivial⟩
  | posted =>
    simp only [begun] at h
    simp only [step]
    split
    · next error rest hidle hposted =>
      rw [if_pos hidle, hposted] at h
      cases h
    · exact ⟨rfl, fun _ _ _ ↦ rfl⟩
  | look =>
    simp only [step]
    split <;> exact ⟨rfl, fun _ _ _ ↦ rfl⟩
  | tick now requested =>
    simp only [begun] at h
    simp only [step]
    split
    · next first hphase hpending hseen =>
      rw [hphase, hpending, hseen] at h
      cases h
    · exact ⟨rfl, fun _ _ _ ↦ rfl⟩
  | exit =>
    refine ⟨?_, fun _ hn ↦ absurd rfl hn⟩
    simp only [step]
    split <;> rfl
  | close | finish =>
    simp only [step]
    split <;> exact ⟨rfl, fun _ _ _ ↦ rfl⟩
  | throw what =>
    refine ⟨?_, fun _ _ hn ↦ absurd rfl (hn what)⟩
    simp only [step]
    split <;> rfl

/-- The sections after a step that is not one of the sections, the end of the loop or an
exception. -/
theorem pending_step (s : System σ) (event : Event ι) (hproceed : event ≠ .proceed)
    (hexit : event ≠ .exit) (hthrow : ∀ what, event ≠ .throw what) :
    (s.step P event).pending =
      match s.begun P event with
      | none => s.pending
      | some input => (P.step s.market (s.answered P input)).2 := by
  cases hbegun : s.begun P event with
  | none => exact (step_not_begun hbegun).2 hproceed hexit hthrow
  | some input => exact congrArg Prod.snd (step_begun hbegun)

end System

/-- What every section of a display satisfies. -/
structure Display.All {σ ι : Type} {P : Program σ ι} (D : Display P) (Good : Section → Prop) :
    Prop where
  parts : ∀ m input, ∀ part ∈ D.parts m input, Good part
  publish : ∀ m, Good (.shown (D.publish m))
  handler : ∀ m what, ∀ part ∈ D.handler m what, Good part
  farewell : ∀ op ∈ P.farewell, Good (.plain op)

namespace Displayed

variable {σ ι : Type} {P : Program σ ι} (D : Display P)

/-- Everything a step can do to the sections and the screen. -/
inductive Shown (d : Displayed σ) : Event ι → Displayed σ → Prop
  | drawn (part : Section) (rest : List Section) (parts : d.parts = part :: rest)
      (d' : Displayed σ) (subset : ∀ other ∈ d'.parts, other ∈ rest)
      (screen : d'.screen = part.draw d.screen) : Shown d .proceed d'
  | still (event : Event ι) (idle : event = .proceed → d.parts = []) (d' : Displayed σ)
      (parts : d'.parts = d.parts) (screen : d'.screen = d.screen) : Shown d event d'
  | begun (event : Event ι) (other : event ≠ .proceed) (m : σ) (input : ι) (d' : Displayed σ)
      (parts : d'.parts = D.parts m input) (screen : d'.screen = d.screen) : Shown d event d'
  | threw (m : σ) (what : Bytes) (d' : Displayed σ) (parts : d'.parts = D.handler m what)
      (screen : d'.screen = d.screen) : Shown d (.throw what) d'
  | left (m : σ) (d' : Displayed σ)
      (parts : d'.parts = .shown (D.publish m) :: P.farewell.map .plain)
      (screen : d'.screen = d.screen) : Shown d .exit d'

private theorem proceed_shown (d : Displayed σ) : Shown D d .proceed d.proceed := by
  unfold proceed
  split
  · next hparts => exact .still _ (fun _ ↦ hparts) _ rfl rfl
  · next part rest hparts =>
    split
    · exact .drawn part rest hparts _ (fun _ h ↦ h) rfl
    · refine .drawn part rest hparts _ ?_ rfl
      intro other hother
      dsimp only at hother
      split at hother
      · exact List.mem_of_mem_filter hother
      · exact hother

private theorem advance_shown (d : Displayed σ) (event : Event ι) (h : event ≠ .proceed) :
    Shown D d event (d.advance D event) := by
  unfold advance
  split
  · next hempty =>
    cases d.system.begun P event with
    | none => exact .still _ (absurd · h) _ (List.isEmpty_iff.mp hempty).symm rfl
    | some input => exact .begun event h d.system.market (d.system.answered P input) _ rfl rfl
  · exact .still _ (absurd · h) _ rfl rfl

/-- Every event is one of these steps. -/
theorem step_shown (d : Displayed σ) (event : Event ι) : Shown D d event (d.step D event) := by
  unfold step
  split
  · next move => exact .still (.writer move) nofun _ rfl rfl
  · exact d.proceed_shown D
  · next what =>
    split
    · exact .threw d.system.market what _ rfl rfl
    · exact .still (.throw what) nofun _ rfl rfl
  · split
    · exact .left d.system.market _ rfl rfl
    · exact .still .exit nofun _ rfl rfl
  · next hwriter hproceed hthrow hexit => exact d.advance_shown D _ hproceed

/-- The sections of a run are the ones of the display. -/
theorem run_parts {Good : Section → Prop} (hall : D.All Good) {d : Displayed σ}
    (hd : ∀ part ∈ d.parts, Good part) (events : List (Event ι)) :
    ∀ part ∈ (d.run D events).parts, Good part := by
  induction events generalizing d with
  | nil => exact hd
  | cons event rest ih =>
    refine ih fun part hpart ↦ ?_
    cases d.step_shown D event with
    | drawn first others parts _ subset _ =>
      exact hd part (parts ▸ List.mem_cons_of_mem first (subset part hpart))
    | still _ _ _ parts _ => exact hd part (parts ▸ hpart)
    | begun _ _ m input _ parts _ => exact hall.parts m input part (parts ▸ hpart)
    | threw m what _ parts _ => exact hall.handler m what part (parts ▸ hpart)
    | left m _ parts _ =>
      rw [parts] at hpart
      rcases List.mem_cons.mp hpart with rfl | hpart
      · exact hall.publish m
      · obtain ⟨op, hop, rfl⟩ := List.mem_map.mp hpart
        exact hall.farewell op hop

/-- The first sections of a run are its own. -/
theorem run_take_succ (d : Displayed σ) (events : List (Event ι)) (n : Nat) (event : Event ι)
    (h : events[n]? = some event) :
    d.run D (events.take (n + 1)) = (d.run D (events.take n)).step D event := by
  rw [List.take_add_one, h]
  exact List.foldl_append

/-! ### The threads behind the screen -/

/-- The sections are the ones that the threads have still to go through. -/
def Aligned (d : Displayed σ) : Prop := Section.ops d.parts = d.system.pending

private theorem ops_filter_isSome (parts : List Section) :
    Section.ops (parts.filter (·.op.isSome)) = Section.ops parts := by
  rw [Section.ops, Section.ops, List.filterMap_filter]
  congr 1
  funext part
  cases part.op <;> simp

private theorem proceed_aligned (d : Displayed σ) (h : d.Aligned) : d.proceed.Aligned := by
  unfold proceed
  split
  · exact h
  · next part rest hparts =>
    have hpending : Section.ops (part :: rest) = d.system.pending := by rw [← hparts]; exact h
    split
    · next hop =>
      rw [Section.ops, List.filterMap_cons_none hop] at hpending
      exact hpending
    · next op hop =>
      rw [Section.ops, List.filterMap_cons_some hop] at hpending
      change Section.ops (if _ then _ else _) = d.system.proceed.pending
      rw [System.proceed, ← hpending]
      split
      · exact ops_filter_isSome rest
      · rfl

private theorem advance_aligned (d : Displayed σ) (event : Event ι) (hproceed : event ≠ .proceed)
    (hexit : event ≠ .exit) (hthrow : ∀ what, event ≠ .throw what) (h : d.Aligned) :
    (d.advance D event).Aligned := by
  unfold advance
  split
  · next hempty =>
    have hnone : d.system.pending = [] := by rw [← h, List.isEmpty_iff.mp hempty]; rfl
    rw [Aligned, System.pending_step _ _ hproceed hexit hthrow]
    cases d.system.begun P event with
    | none => exact hnone.symm
    | some input => exact D.parts_ops _ _
  · exact h

private theorem step_aligned (d : Displayed σ) (event : Event ι) (h : d.Aligned) :
    (d.step D event).Aligned := by
  unfold step
  split
  · exact h
  · exact d.proceed_aligned h
  · next what =>
    split
    · next hguarded =>
      change Section.ops (D.handler d.system.market what) =
        (d.system.step P (.throw what)).pending
      rw [D.handler_ops, System.step, if_pos hguarded]
    · exact h
  · split
    · next hexits =>
      change Section.ops (Section.shown _ :: _) = (d.system.step P .exit).pending
      have hexit : d.system.exits = true := (Bool.and_eq_true_iff.mp hexits).2
      rw [System.exits] at hexit
      rw [System.step, if_pos hexit]
      exact Section.ops_map_plain P.farewell
    · exact h
  · next hwriter hproceed hthrow hexit =>
    exact d.advance_aligned D _ hproceed hexit hthrow h

/-- The threads behind the screen are the ones of the capture. -/
theorem run_system (d : Displayed σ) (h : d.Aligned) (events : List (Event ι)) :
    (d.run D events).Aligned ∧
      ∃ taken, (d.run D events).system = d.system.run P taken := by
  induction events generalizing d with
  | nil => exact ⟨h, [], rfl⟩
  | cons event rest ih =>
    obtain ⟨haligned, taken, htaken⟩ := ih (d.step D event) (d.step_aligned D event h)
    refine ⟨haligned, ?_⟩
    have hstep : (d.step D event).system = d.system ∨
        (d.step D event).system = d.system.step P event := by
      unfold step
      split
      · exact .inr rfl
      · unfold proceed
        split
        · exact .inl rfl
        · split
          · exact .inl rfl
          · exact .inr rfl
      · split
        · exact .inr rfl
        · exact .inl rfl
      · split
        · exact .inr rfl
        · exact .inl rfl
      · unfold advance
        split
        · exact .inr rfl
        · exact .inl rfl
    rcases hstep with hstep | hstep
    · exact ⟨taken, by rw [← hstep]; exact htaken⟩
    · refine ⟨event :: taken, ?_⟩
      rw [System.run, List.foldl_cons, ← hstep]
      exact htaken

end Displayed

/-! ### The prices of both captures -/

/-- Along a run whose sections keep the prices of valid books, these are all that is shown. -/
theorem Displayed.run_pricesValid {σ ι : Type} {P : Program σ ι} {D : Display P}
    (hall : D.All Section.Keeps) {d : Displayed σ} (hparts : ∀ part ∈ d.parts, part.Keeps)
    (hscreen : d.screen.PricesValid) (events : List (Event ι)) :
    (d.run D events).screen.PricesValid := by
  induction events generalizing d with
  | nil => exact hscreen
  | cons event rest ih =>
    refine ih (Displayed.run_parts D hall hparts [event]) ?_
    cases d.step_shown D event with
    | still _ _ _ _ screen | begun _ _ _ _ _ _ screen | threw _ _ _ _ screen
    | left _ _ _ screen =>
      rw [screen]
      exact hscreen
    | drawn part others parts _ _ screen =>
      rw [screen]
      exact hparts part (parts ▸ List.mem_cons_self) d.screen hscreen

namespace LiveMarket

variable (clock : Nat → ReceiveMonotonicTimestamp)

private theorem publish_keeps (manager : CoinbaseConnectionManager) (op : Option Op) :
    Section.Keeps ⟨op, publish manager⟩ :=
  fun screen _ ↦ screen.publish_pricesValid manager.connected manager.book

private theorem stopParts_keeps (m : LiveMarket) (error : Bytes) :
    ∀ part ∈ m.stopParts clock error, part.Keeps := by
  intro part hpart
  rcases List.mem_append.mp hpart with hpart | hpart
  · obtain ⟨op, -, rfl⟩ := List.mem_map.mp hpart
    exact Section.plain_keeps op
  · rw [List.mem_singleton.mp hpart]
    exact publish_keeps _ none

private theorem parts_keeps (m : LiveMarket) (action : LiveAction) :
    ∀ part ∈ m.parts clock action, part.Keeps := by
  intro part hpart
  cases action with
  | manager action =>
    obtain ⟨op, -, rfl⟩ := List.mem_map.mp hpart
    cases op with
    | published result progress => exact publish_keeps _ _
    | received | processed | lifecycle | closeQueue | settle | clearPost | caught | overruled =>
      exact Section.plain_keeps _
  | stop error => exact m.stopParts_keeps clock error part hpart
  | tick fatal requested =>
    have hend : ∀ (m : LiveMarket) (parts : List Section), (∀ part ∈ parts, part.Keeps) →
        part ∈ parts ++ (if m.stopping then [Section.plain .settle] else []) ++
          [Section.shown (publish m.manager)] → part.Keeps := by
      intro m parts hparts hpart
      rcases List.mem_append.mp hpart with hpart | hpart
      · rcases List.mem_append.mp hpart with hpart | hpart
        · exact hparts part hpart
        · split at hpart
          · rw [List.mem_singleton.mp hpart]
            exact Section.plain_keeps _
          · cases hpart
      · rw [List.mem_singleton.mp hpart]
        exact publish_keeps _ none
    change part ∈ m.tickParts clock fatal requested at hpart
    unfold tickParts at hpart
    by_cases hstop : (requested || fatal.isSome || m.manager.terminal) = true
    · rw [if_pos hstop] at hpart
      exact hend _ _ (m.stopParts_keeps clock _) hpart
    · rw [if_neg hstop] at hpart
      exact hend _ _ (List.forall_mem_nil _) hpart

end LiveMarket

private theorem liveDisplay_keeps (clock : Nat → ReceiveMonotonicTimestamp) :
    (liveDisplay clock).All Section.Keeps where
  parts := LiveMarket.parts_keeps clock
  publish := fun m ↦ LiveMarket.publish_keeps m.manager none
  handler := by
    intro m what part hpart
    rcases List.mem_append.mp hpart with hpart | hpart
    · obtain ⟨op, -, rfl⟩ := List.mem_map.mp hpart
      exact Section.plain_keeps op
    · rw [List.mem_singleton.mp hpart]
      exact fun screen _ ↦ screen.caught_pricesValid
  farewell := fun op _ ↦ Section.plain_keeps op

namespace KrakenMarket

/-- The sections of `run_kraken`: all but the one of the handler keep the prices of valid
books. -/
inductive Part : Section → Prop
  | keeps (part : Section) (op : part.op.any Op.isOverruled = false) (keeps : part.Keeps) :
      Part part
  | overruled (what : Bytes) : Part ⟨some (.overruled what), Screen.overruled⟩

private theorem part_plain (op : Op) (h : op.isOverruled = false) : Part (.plain op) :=
  .keeps _ h (Section.plain_keeps op)

private theorem part_publish (m : KrakenMarket) : Part (.shown m.publish) :=
  .keeps _ rfl fun screen _ ↦ screen.publish_pricesValid m.connected m.processor.book

private theorem part_recover (m : KrakenMarket) (reason : Bytes) (stale : Bool) :
    ∀ part ∈ m.recoverParts reason stale, Part part := by
  intro part hpart
  unfold recoverParts at hpart
  split at hpart
  · cases hpart
  · rcases List.mem_pair.mp hpart with rfl | rfl
    · exact part_plain _ rfl
    · exact part_publish _

private theorem part_message (crc : Bytes → UInt32) (m : KrakenMarket) (payload : Bytes)
    (wall : ReceiveWallTimestamp) (mono : ReceiveMonotonicTimestamp) (result : PushResult) :
    ∀ part ∈ m.messageParts crc payload wall mono result, Part part := by
  intro part hpart
  unfold messageParts at hpart
  split at hpart
  · cases hpart
  · dsimp only at hpart
    generalize processed crc _ payload wall mono = r at hpart
    rcases List.mem_cons.mp hpart with rfl | hpart
    · exact part_plain _ rfl
    · split at hpart
      · rcases List.mem_pair.mp hpart with rfl | rfl
        · exact part_plain _ rfl
        · exact part_publish _
      · rcases List.mem_append.mp hpart with hpart | hpart
        · rcases List.mem_pair.mp hpart with rfl | rfl
          · exact part_plain _ rfl
          · exact part_publish _
        · split at hpart
          · exact part_recover _ _ _ part hpart
          · cases hpart

private theorem part_force (limits : KrakenLimits) (m : KrakenMarket)
    (now : ReceiveMonotonicTimestamp) :
    ∀ part ∈ m.forceParts limits now, Part part := by
  unfold forceParts
  split
  · exact part_recover _ _ _
  · exact List.forall_mem_nil _

private theorem part_timeout (m : KrakenMarket) (now : ReceiveMonotonicTimestamp) :
    ∀ part ∈ m.timeoutParts now, Part part := by
  unfold timeoutParts
  split
  · dsimp only
    generalize (if m.firstRecord then m.connectedAt
      else m.processor.lastMessage.getD m.connectedAt) = last
    split
    · exact part_recover _ _ _
    · split
      · exact part_recover _ _ _
      · exact List.forall_mem_nil _
  · exact List.forall_mem_nil _

private theorem part_tick (limits : KrakenLimits) (m : KrakenMarket)
    (now : ReceiveMonotonicTimestamp) (fatal fatalLater requested : Bool) :
    ∀ part ∈ m.tickParts limits now fatal fatalLater requested, Part part := by
  intro part hpart
  unfold tickParts at hpart
  dsimp only at hpart
  generalize (requested || fatalLater || elapsed _ now limits.duration) = stops at hpart
  rcases List.mem_append.mp hpart with hpart | hpart
  · split at hpart
    · rw [List.mem_singleton.mp hpart]
      exact part_plain _ rfl
    · cases hpart
  · generalize (if stops = true then KrakenMarket.stop _ else _) = m₁ at hpart
    split at hpart
    · rw [List.mem_singleton.mp hpart]
      exact part_publish _
    · simp only [List.mem_append, List.mem_singleton] at hpart
      rcases hpart with (hpart | hpart) | rfl
      · exact part_force limits _ now part hpart
      · exact part_timeout _ now part hpart
      · exact part_publish _

private theorem part_parts (crc : Bytes → UInt32) (limits : KrakenLimits) (m : KrakenMarket)
    (action : Action) : ∀ part ∈ m.parts crc limits action, Part part := by
  cases action with
  | connect now => exact List.forall_mem_nil _
  | stop =>
    intro part hpart
    rw [List.mem_singleton.mp hpart]
    exact part_plain _ rfl
  | message payload wall mono result => exact m.part_message crc payload wall mono result
  | error reason => exact m.part_recover reason false
  | connected now => exact List.forall_mem_nil _
  | retry now => exact List.forall_mem_nil _
  | tick now fatal fatalLater requested =>
    exact m.part_tick limits now fatal fatalLater requested

end KrakenMarket

private theorem krakenDisplay_parts (crc : Bytes → UInt32) (limits : KrakenLimits) :
    (krakenDisplay crc limits).All KrakenMarket.Part where
  parts := KrakenMarket.part_parts crc limits
  publish := KrakenMarket.part_publish
  handler := by
    intro m what part hpart
    rw [List.mem_singleton.mp hpart]
    exact .overruled what
  farewell := nofun

/-- What one step of `run_kraken` shows: only its handler can show prices of a book that is not
valid, and it does so if there are any. -/
theorem KrakenMarket.step_pricesValid_iff {crc : Bytes → UInt32} {limits : KrakenLimits}
    {d : Displayed KrakenMarket} (hparts : ∀ part ∈ d.parts, Part part)
    (hscreen : d.screen.PricesValid) (event : Event Action) :
    (d.step (krakenDisplay crc limits) event).screen.PricesValid ↔
      (event = .proceed → d.catching = true → d.screen.Blank) := by
  cases d.step_shown (krakenDisplay crc limits) event with
  | still _ idle _ _ screen =>
    refine iff_of_true (screen ▸ hscreen) fun hevent hcatch ↦ ?_
    rw [Displayed.catching, idle hevent] at hcatch
    cases hcatch
  | begun _ other _ _ _ _ screen => exact iff_of_true (screen ▸ hscreen) fun h ↦ absurd h other
  | threw _ _ _ _ screen | left _ _ _ screen => exact iff_of_true (screen ▸ hscreen) nofun
  | drawn part rest parts _ _ screen =>
    have hcatching : d.catching = part.op.any Op.isOverruled := by
      rw [Displayed.catching, parts]
      rfl
    rw [screen, hcatching]
    cases hparts part (parts ▸ List.mem_cons_self) with
    | keeps _ op keeps =>
      rw [op]
      exact iff_of_true (keeps d.screen hscreen) nofun
    | overruled what =>
      rw [Screen.overruled_pricesValid_iff]
      exact ⟨fun h _ _ ↦ h, fun h ↦ h rfl rfl⟩

/-- Every status that a thread of `run_live` can copy shows prices of a valid book only. So does
every one of `run_kraken`, if and only if its handler is never entered while a price is shown. -/
theorem shown_prices_valid_iff (clock : Nat → ReceiveMonotonicTimestamp)
    (manager : CoinbaseConnectionManager) (crc : Bytes → UInt32) (limits : KrakenLimits)
    (processor : KrakenBookProcessor) (now : ReceiveMonotonicTimestamp) (config : RawQueueConfig) :
    (∀ events : List (Event LiveAction),
      ((Displayed.create config (LiveMarket.initial manager)).run (liveDisplay clock)
        events).screen.PricesValid) ∧
    (∀ events : List (Event KrakenMarket.Action),
      let after := fun n ↦ (Displayed.create config (KrakenMarket.initial processor now)).run
        (krakenDisplay crc limits) (events.take n)
      (∀ n, (after n).screen.PricesValid) ↔
        ∀ n, events[n]? = some .proceed → (after n).catching = true → (after n).screen.Blank) := by
  constructor
  · exact Displayed.run_pricesValid (liveDisplay_keeps clock) (List.forall_mem_nil _)
      (.inr ⟨rfl, rfl⟩)
  · intro events after
    have hparts : ∀ n, ∀ part ∈ (after n).parts, KrakenMarket.Part part := fun n ↦
      Displayed.run_parts _ (krakenDisplay_parts crc limits) (List.forall_mem_nil _) (events.take n)
    have hnext : ∀ n event, events[n]? = some event →
        after (n + 1) = (after n).step (krakenDisplay crc limits) event :=
      Displayed.run_take_succ _ _ events
    constructor
    · intro hvalid n hevent hcatch
      have hafter := hvalid (n + 1)
      rw [hnext n .proceed hevent, KrakenMarket.step_pricesValid_iff (hparts n)
        (hvalid n)] at hafter
      exact hafter rfl hcatch
    · intro hblank n
      induction n with
      | zero => exact .inr ⟨rfl, rfl⟩
      | succ n ih =>
        cases hevent : events[n]? with
        | none =>
          have hsame : after (n + 1) = after n := by
            simp only [after, List.take_add_one, hevent, Option.toList_none, List.append_nil]
          rw [hsame]
          exact ih
        | some event =>
          rw [hnext n event hevent, KrakenMarket.step_pricesValid_iff (hparts n) ih]
          rintro rfl
          exact hblank n hevent

/-- A capture that is asked to stop before a message has come, and throws. -/
def thrownBeforeSnapshot : List (Event KrakenMarket.Action) :=
  [.writer .prepared, .ready, .check false, .start ⟨0⟩, .look, .tick ⟨1⟩ true, .proceed, .proceed,
    .throw (ascii "bad"), .proceed]

/-- Nothing was shown of its book, so the handler finds no price. -/
theorem shown_prices_valid_iff_early :
    ∃ processor, KrakenBookProcessor.create 10 = .ok processor ∧
      ∀ n, ((Displayed.create {} (KrakenMarket.initial processor ⟨0⟩)).run
        (krakenDisplay Crc.crc32 {}) (thrownBeforeSnapshot.take n)).screen.PricesValid := by
  obtain ⟨manager, -⟩ : ∃ manager,
      CoinbaseConnectionManager.create (fun _ ↦ ⟨0⟩) {} = .ok manager := ⟨_, rfl⟩
  refine ⟨_, rfl, ((shown_prices_valid_iff (fun _ ↦ ⟨0⟩) manager Crc.crc32 {} _ ⟨0⟩ {}).2
    thrownBeforeSnapshot).mpr ?_⟩
  intro n hevent hcatch
  have hn : n < 10 := (List.getElem?_eq_some_iff.mp hevent).1
  clear hevent hcatch
  revert n
  decide +kernel

/-- A capture whose event loop throws once a snapshot has made the book valid. -/
def thrownAfterSnapshot : List (Event KrakenMarket.Action) :=
  [.writer .prepared, .ready, .check false, .start ⟨0⟩, .callback (.connected ⟨0⟩),
    .callback (.message KrakenBookProcessor.oneLevelEach ⟨1⟩ ⟨1⟩ .accepted), .proceed, .proceed,
    .proceed, .throw (ascii "bad"), .proceed]

/-- It goes on showing both prices, of a book that is invalid. -/
theorem thrown_prices_shown :
    ∃ processor, KrakenBookProcessor.create 10 = .ok processor ∧
      let screen := ((Displayed.create {} (KrakenMarket.initial processor ⟨0⟩)).run
        (krakenDisplay Crc.crc32 {}) thrownAfterSnapshot).screen
      screen.bookState = .invalid ∧ screen.bestBid = some ⟨10010, by decide⟩ ∧
        screen.bestAsk = some ⟨10020, by decide⟩ := by
  refine ⟨_, rfl, ?_⟩
  decide +kernel

end ArbitrageEngine.Pipeline
