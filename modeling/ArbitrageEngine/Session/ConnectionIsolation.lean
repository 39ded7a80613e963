import ArbitrageEngine.Coinbase.Continuity
import ArbitrageEngine.Kraken.SnapshotFold
import ArbitrageEngine.Session.CoinbaseReplay
import ArbitrageEngine.Session.KrakenReplay

/-!
# Replay keeps connections apart

`sessions::replay` sees connections only as the `connection_id` of the records. Whatever the
lifecycle events say, a book that is valid owes its levels to records of the connection that
the last record belongs to, from a snapshot among them on. The two branches differ in how they
mark a boundary; the statement and its induction are the same for both.
-/

namespace ArbitrageEngine.Sessions

open Base ArbitrageEngine.Core Coinbase Kraken Recording

/-! ### Isolation -/

/-- A branch of `sessions::replay` with what isolation speaks of. -/
structure VenueReplay (σ O : Type) where
  loop : Weave.Loop σ LifecycleEntry RawMessage Failure
  /-- What the record loop does between `apply_lifecycle` and `process`. -/
  reconnect : σ → RawMessage → σ
  book : σ → OrderBook
  /-- What `process` answered to the records. -/
  outcomes : σ → List O
  /-- The record held a snapshot and was applied. -/
  Opens : RawMessage × O → Prop
  /-- What a record does to the levels. -/
  follow : Sides → RawMessage × O → Sides

namespace VenueReplay

variable {σ O : Type} (v : VenueReplay σ O)

/-- The book is usable. -/
def Valid (s : σ) : Prop := (v.book s).state = .valid

/-- The levels of the book. -/
def sides (s : σ) : Sides := ((v.book s).bids, (v.book s).asks)

/-- The book's levels come from records of the last record's connection only, the first of
which was applied and brought a snapshot. -/
def FromConnection (read : List RawMessage) (s : σ) : Prop :=
  ∃ before anchor later current, read.zip (v.outcomes s) = before ++ anchor :: later ∧
    v.Opens anchor ∧ read.getLast?.map RawMessage.connectionId = some current ∧
    (∀ entry ∈ anchor :: later, entry.1.connectionId = current) ∧
    v.sides s = (anchor :: later).foldl v.follow (∅, ∅)

/-- What a round of the loop must keep, after the records `read`: `s` is the state before
`apply_lifecycle`, `s'` the one after it. -/
structure Isolated (read : List RawMessage) (s s' : σ) : Prop where
  outcomes : (v.outcomes s).length = read.length
  before : v.Valid s → v.FromConnection read s
  after : v.Valid s' → v.FromConnection read s'
  /-- No lifecycle event makes the book valid. -/
  event : ∀ event next, v.loop.event s' event = .ok next → ¬v.Valid next
  /-- The book is not valid when a record of another connection is about to be processed. -/
  boundary : ∀ last e, read.getLast? = some last → last.connectionId ≠ e.connectionId →
    ¬v.Valid (v.reconnect s' e)
  /-- A record that makes the book valid brings a snapshot. -/
  opens : ∀ e next, v.loop.record s' e = .ok next → ¬v.Valid (v.reconnect s' e) → v.Valid next →
    ∃ outcome, v.outcomes next = v.outcomes s' ++ [outcome] ∧ v.Opens (e, outcome)

/-- Every round of every replay from a start keeps connections apart. -/
def Isolates (start : σ) (lifecycle : List LifecycleEntry) : Prop :=
  ∀ read s pending index s' left,
    v.loop.reading 0 start read lifecycle = .ok (s, pending) →
      v.loop.takeIn index (v.loop.opening s) pending = .ok (s', left) → v.Isolated read s s'

/-! ### Its induction -/

/-- The effect of `process` on a book: unusable, continued, or opened by a snapshot. -/
def Processes (s : σ) (entry : RawMessage × O) (s' : σ) : Prop :=
  v.Valid s' →
    (v.Valid s ∧ v.sides s' = v.follow (v.sides s) entry) ∨
      (v.Opens entry ∧ v.sides s' = v.follow (∅, ∅) entry)

/-- What a branch has to show of its steps, with an invariant of its own within a round. -/
structure Laws (K : List RawMessage → σ → Prop) : Prop where
  opening_book : ∀ s, v.book (v.loop.opening s) = v.book s
  opening_outcomes : ∀ s, v.outcomes (v.loop.opening s) = v.outcomes s
  event : ∀ read s event s', K read s → v.loop.event s event = .ok s' →
    K read s' ∧ ¬v.Valid s' ∧ v.outcomes s' = v.outcomes s
  reconnect : ∀ read s e, K read s → v.Valid (v.reconnect s e) →
    v.Valid s ∧ v.sides (v.reconnect s e) = v.sides s ∧
      read.getLast?.map RawMessage.connectionId = some e.connectionId
  record : ∀ read s e s', K read s → v.loop.record s e = .ok s' →
    K (read ++ [e]) (v.loop.opening s') ∧
      ∃ outcome, v.outcomes s' = v.outcomes s ++ [outcome] ∧
        v.Processes (v.reconnect s e) (e, outcome) s'

variable {v}

private theorem FromConnection.congr {read : List RawMessage} {s s' : σ}
    (h : v.FromConnection read s) (hb : v.book s' = v.book s) (ho : v.outcomes s' = v.outcomes s) :
    v.FromConnection read s' := by
  unfold FromConnection sides at h ⊢
  rwa [hb, ho]

private theorem zip_concat {read : List RawMessage} {s s' : σ} {e : RawMessage} {outcome : O}
    (hl : (v.outcomes s).length = read.length) (ho : v.outcomes s' = v.outcomes s ++ [outcome]) :
    (read ++ [e]).zip (v.outcomes s') = read.zip (v.outcomes s) ++ [(e, outcome)] := by
  rw [ho, List.zip_append hl.symm]
  rfl

/-- Another record of the connection goes on from the levels there are. -/
theorem FromConnection.continues {read : List RawMessage} {s s' : σ} {e : RawMessage} {outcome : O}
    (h : v.FromConnection read s) (hl : (v.outcomes s).length = read.length)
    (ho : v.outcomes s' = v.outcomes s ++ [outcome])
    (hc : read.getLast?.map RawMessage.connectionId = some e.connectionId)
    (hs : v.sides s' = v.follow (v.sides s) (e, outcome)) : v.FromConnection (read ++ [e]) s' := by
  obtain ⟨before, anchor, later, current, hz, hopens, hlast, hall, hsides⟩ := h
  have hcurrent : e.connectionId = current := by
    rw [hc] at hlast
    exact Option.some_inj.mp hlast
  refine ⟨before, anchor, later ++ [(e, outcome)], current, ?_, hopens, ?_, ?_, ?_⟩
  · rw [zip_concat hl ho, hz, List.append_assoc, List.cons_append]
  · rw [List.getLast?_concat, Option.map_some, hcurrent]
  · intro entry hentry
    rw [← List.cons_append, List.mem_append, List.mem_singleton] at hentry
    rcases hentry with hentry | rfl
    · exact hall entry hentry
    · exact hcurrent
  · rw [← List.cons_append, List.foldl_append, ← hsides, hs]
    rfl

/-- A snapshot starts anew. -/
theorem fromConnection_of_opens {read : List RawMessage} {s s' : σ} {e : RawMessage} {outcome : O}
    (hl : (v.outcomes s).length = read.length) (ho : v.outcomes s' = v.outcomes s ++ [outcome])
    (hopens : v.Opens (e, outcome)) (hs : v.sides s' = v.follow (∅, ∅) (e, outcome)) :
    v.FromConnection (read ++ [e]) s' := by
  refine ⟨read.zip (v.outcomes s), (e, outcome), [], e.connectionId, zip_concat hl ho, hopens, ?_,
    ?_, hs⟩
  · rw [List.getLast?_concat, Option.map_some]
  · intro entry hentry
    rw [List.mem_singleton] at hentry
    rw [hentry]

/-- The invariant of the replay between and within rounds. -/
structure Current (v : VenueReplay σ O) (read : List RawMessage) (s : σ) : Prop where
  outcomes : (v.outcomes s).length = read.length
  levels : v.Valid s → v.FromConnection read s

variable {K : List RawMessage → σ → Prop}

private theorem Current.opening {read : List RawMessage} {s : σ} (h : v.Current read s)
    (hv : v.Laws K) :
    v.Current read (v.loop.opening s) := by
  have hb := hv.opening_book s
  have ho := hv.opening_outcomes s
  refine ⟨by rw [ho, h.outcomes], fun hvalid ↦ ?_⟩
  have hbefore : v.Valid s := by
    rwa [Valid, hb] at hvalid
  exact (h.levels hbefore).congr hb ho

private theorem Current.event {read : List RawMessage} {s s' : σ} {event : LifecycleEntry}
    (h : v.Current read s) (hv : v.Laws K) (hk : K read s) (he : v.loop.event s event = .ok s') :
    v.Current read s' := by
  obtain ⟨-, hinvalid, ho⟩ := hv.event read s event s' hk he
  exact ⟨by rw [ho, h.outcomes], fun hvalid ↦ absurd hvalid hinvalid⟩

private theorem Current.record {read : List RawMessage} {s s' : σ} {e : RawMessage}
    (h : v.Current read s) (hv : v.Laws K) (hk : K read s) (he : v.loop.record s e = .ok s') :
    v.Current (read ++ [e]) s' := by
  obtain ⟨-, outcome, ho, hp⟩ := hv.record read s e s' hk he
  refine ⟨by rw [ho, List.length_append, List.length_append, h.outcomes]; rfl, fun hvalid ↦ ?_⟩
  rcases hp hvalid with ⟨hbefore, hs⟩ | ⟨hopens, hs⟩
  · obtain ⟨hvalid₀, hsame, hlast⟩ := hv.reconnect read s e hk hbefore
    rw [hsame] at hs
    exact (h.levels hvalid₀).continues h.outcomes ho hlast hs
  · exact fromConnection_of_opens h.outcomes ho hopens hs

/-- A branch whose steps obey the laws keeps connections apart. -/
theorem Laws.isolates (hv : v.Laws K) {start : σ} {lifecycle : List LifecycleEntry}
    (hk : K [] (v.loop.opening start)) (ho : v.outcomes start = []) (hs : ¬v.Valid start) :
    v.Isolates start lifecycle := by
  intro read s pending index s' left hread htake
  have hround : v.Current read s ∧ K read (v.loop.opening s) := by
    have hstart : v.Current [] start := ⟨by rw [ho]; rfl, fun h ↦ absurd h hs⟩
    refine Weave.reading_invariant (I := fun read s ↦ v.Current read s ∧ K read (v.loop.opening s))
      (J := fun read s ↦ v.Current read s ∧ K read s) ?_ ?_ ?_ hread ⟨hstart, hk⟩
    · intro read s h
      exact ⟨h.1.opening hv, h.2⟩
    · intro read s event s' h he
      exact ⟨h.1.event hv h.2 he, (hv.event read s event s' h.2 he).1⟩
    · intro read s e s' h he
      exact ⟨h.1.record hv h.2 he, (hv.record read s e s' h.2 he).1⟩
  have hlater : v.Current read s' ∧ K read s' := by
    refine Weave.takeIn_invariant (J := fun s ↦ v.Current read s ∧ K read s) ?_ htake
      ⟨hround.1.opening hv, hround.2⟩
    intro s event s' h he
    exact ⟨h.1.event hv h.2 he, (hv.event read s event s' h.2 he).1⟩
  obtain ⟨hcurrent, hkeeps⟩ := hlater
  constructor
  · exact hround.1.outcomes
  · exact hround.1.levels
  · exact hcurrent.levels
  · intro event next he
    exact (hv.event read s' event next hkeeps he).2.1
  · intro last e hlast hne hvalid
    obtain ⟨-, -, hsame⟩ := hv.reconnect read s' e hkeeps hvalid
    rw [hlast, Option.map_some, Option.some_inj] at hsame
    exact hne hsame
  · intro e next he hbefore hvalid
    obtain ⟨-, outcome, houtcome, hp⟩ := hv.record read s' e next hkeeps he
    rcases hp hvalid with h | h
    · exact absurd h.1 hbefore
    · exact ⟨outcome, houtcome, h.1⟩

end VenueReplay

/-! ### Coinbase -/

namespace CoinbaseReplay

/-- The Coinbase branch: a record counts once its events were applied. -/
def venue (symbols : CoinbaseSymbolMapper) : VenueReplay CoinbaseReplay ProcessResult where
  loop := loop symbols
  reconnect := reconnect
  book replay := replay.feed.book
  outcomes := results
  Opens entry := entry.2.outcome = .bookUpdated ∧
    (parseEnvelope symbols entry.1).events.head?.map MarketEvent.isSnapshot = some true
  follow sides entry :=
    if entry.2.outcome = .bookUpdated then
      (parseEnvelope symbols entry.1).events.foldl applyNaively sides
    else sides

/-- The source's own account of the connection: the id of the last record, and a book that was
marked when a lifecycle event announced a connection. -/
def Tracks (read : List RawMessage) (replay : CoinbaseReplay) : Prop :=
  replay.connection = read.getLast?.map RawMessage.connectionId ∧
    (replay.lifecycleConnected = true → replay.feed.book.state ≠ .valid)

@[simp]
private theorem assign_results (replay : CoinbaseReplay) (index : Nat) (state : BookState)
    (reason : Bytes) : (replay.assign index state reason).results = replay.results :=
  transition_results _ _ _ _

@[simp]
private theorem assign_connection (replay : CoinbaseReplay) (index : Nat) (state : BookState)
    (reason : Bytes) : (replay.assign index state reason).connection = replay.connection :=
  transition_connection _ _ _ _

@[simp]
private theorem assign_state (replay : CoinbaseReplay) (index : Nat) (state : BookState)
    (reason : Bytes) : (replay.assign index state reason).feed.book.state = state := by
  rw [assign, transition_feed]
  rfl

@[simp]
private theorem assign_lifecycleConnected (replay : CoinbaseReplay) (index : Nat)
    (state : BookState) (reason : Bytes) :
    (replay.assign index state reason).lifecycleConnected = replay.lifecycleConnected :=
  transition_lifecycleConnected _ _ _ _

private theorem stateNamed_ne_valid {name : Bytes} {state : BookState}
    (h : stateNamed name = some state) :
    state ≠ .valid := by
  unfold stateNamed at h
  split_ifs at h <;> cases h <;> nofun

private theorem applyLifecycle_ok {replay replay' : CoinbaseReplay} {event : LifecycleEntry}
    (h : replay.applyLifecycle event = .ok replay') :
    replay'.feed.book.state ≠ .valid ∧ replay'.connection = replay.connection ∧
      replay'.results = replay.results := by
  unfold applyLifecycle at h
  split at h
  · cases h
  · next state hs =>
    cases h
    refine ⟨?_, assign_connection _ _ _ _, assign_results _ _ _ _⟩
    change (replay.assign _ _ _).feed.book.state ≠ .valid
    rw [assign_state]
    exact stateNamed_ne_valid hs

private theorem reconnect_results (replay : CoinbaseReplay) (e : RawMessage) :
    (replay.reconnect e).results = replay.results := by
  unfold reconnect
  split
  · rfl
  · cases hc : replay.connection.isSome <;> cases hl : replay.lifecycleConnected <;>
      simp [resetSequence, hc, hl]

/-- At a boundary the book is marked here, unless a lifecycle event marked it before. -/
theorem reconnect_boundary {replay : CoinbaseReplay} {e : RawMessage}
    (hc : replay.connection ≠ some e.connectionId)
    (hm : replay.lifecycleConnected = true → replay.feed.book.state ≠ .valid) :
    (replay.reconnect e).feed.book.state ≠ .valid := by
  unfold reconnect
  rw [if_neg hc]
  cases hl : replay.lifecycleConnected with
  | true => cases hs : replay.connection.isSome <;> simp [resetSequence, hs, hl, hm hl]
  | false => cases hs : replay.connection.isSome <;> simp [resetSequence, hs, hl]

private theorem replayRecord_processed {symbols : CoinbaseSymbolMapper}
    {replay replay' : CoinbaseReplay} {e : RawMessage}
    (h : replay.replayRecord symbols e = .ok replay') :
    ∃ feed result, Feed.Processed symbols (replay.reconnect e).feed e feed (.ok result) ∧
      replay' = (replay.reconnect e).recorded e feed result := by
  unfold replayRecord at h
  dsimp only at h
  split at h
  · cases h
  · next feed result hp =>
    cases h
    exact ⟨feed, result, Feed.processed_of_process hp, rfl⟩

private theorem recorded_eq (replay : CoinbaseReplay) (e : RawMessage) (feed : Feed)
    (result : ProcessResult) :
    (replay.recorded e feed result).feed = feed ∧
      (replay.recorded e feed result).connection = replay.connection ∧
      (replay.recorded e feed result).results = replay.results ++ [result] := by
  simp [recorded]

private theorem processes_of_processed {symbols : CoinbaseSymbolMapper} {s s' : CoinbaseReplay}
    {e : RawMessage} {result : ProcessResult}
    (h : Feed.Processed symbols s.feed e s'.feed (.ok result)) :
    (venue symbols).Processes s (e, result) s' := by
  intro hvalid
  change s'.feed.book.state = .valid at hvalid
  generalize hf : s'.feed = feed at h
  have hsides : (venue symbols).sides s' = (feed.book.bids, feed.book.asks) := by
    rw [← hf]
    rfl
  rw [hf] at hvalid
  rw [hsides]
  cases h with
  | failed _ _ _ outcome _ => cases hvalid
  | skipped _ _ outcome _ =>
    refine .inl ⟨hvalid, ?_⟩
    rcases outcome with h | h
    · exact (if_neg (by rw [h]; nofun)).symm
    · exact (if_neg (by rw [h]; nofun)).symm
  | quiet _ _ _ _ _ outcome _ =>
    exact .inl ⟨hvalid, (if_neg (by rw [outcome]; nofun)).symm⟩
  | updated book _ _ _ _ _ anchored _ applied outcome _ =>
    have hnaive := OrderBook.applyEvents_sides applied
    have hfollow (sides : Sides) : (venue symbols).follow sides (e, result) =
        (parseEnvelope symbols e).events.foldl applyNaively sides := if_pos outcome
    rcases anchored with hv | hhead
    · refine .inl ⟨hv, ?_⟩
      rw [hfollow]
      exact hnaive
    · refine .inr ⟨⟨outcome, hhead⟩, ?_⟩
      rw [hfollow, hnaive]
      exact foldl_applyNaively_of_head hhead _ _

private theorem venue_laws (symbols : CoinbaseSymbolMapper) : (venue symbols).Laws Tracks where
  opening_book _ := rfl
  opening_outcomes _ := rfl
  event read s event s' hk he := by
    obtain ⟨hinvalid, hconnection, hresults⟩ := applyLifecycle_ok he
    exact ⟨⟨hconnection.trans hk.1, fun _ ↦ hinvalid⟩, hinvalid, hresults⟩
  reconnect read s e hk hvalid := by
    by_cases hc : s.connection = some e.connectionId
    · have hsame : s.reconnect e = s := if_pos hc
      change (s.reconnect e).feed.book.state = .valid at hvalid
      refine ⟨?_, ?_, hk.1.symm.trans hc⟩
      · rwa [hsame] at hvalid
      · unfold VenueReplay.sides
        rw [show (venue symbols).reconnect s e = s from hsame]
    · exact absurd hvalid (reconnect_boundary hc hk.2)
  record read s e s' hk he := by
    obtain ⟨feed, result, hp, rfl⟩ := replayRecord_processed he
    obtain ⟨hfeed, hconnection, hresults⟩ := recorded_eq (s.reconnect e) e feed result
    refine ⟨⟨?_, ?_⟩, result, ?_, ?_⟩
    · rw [List.getLast?_concat, Option.map_some, ← reconnect_connection s e]
      exact hconnection
    · intro h
      cases h
    · rw [reconnect_results s e] at hresults
      exact hresults
    · apply processes_of_processed
      rw [hfeed]
      exact hp

end CoinbaseReplay

end ArbitrageEngine.Sessions

/-! ### Kraken -/

namespace ArbitrageEngine.Kraken

open Base ArbitrageEngine.Core

/-- The outcome of an applied message. -/
def KrakenBookMessageType.outcome : KrakenBookMessageType → ProcessOutcome
  | .snapshot => .snapshot
  | .update => .update

private theorem KrakenBookMessageType.outcome_ne {outcome : ProcessOutcome}
    (hs : outcome ≠ .snapshot) (hu : outcome ≠ .update) (type : KrakenBookMessageType) :
    some outcome ≠ some type.outcome := by
  rw [Ne, Option.some_inj]
  cases type with
  | snapshot => exact hs
  | update => exact hu

namespace KrakenBookProcessor

variable {crc : Bytes → UInt32}

private theorem verify_outcome {p p' : KrakenBookProcessor} {m : KrakenBookMessage}
    {next : KrakenChecksumBook} {sum : UInt32} {ok : Bool} (h : p.verify m next sum = (p', ok)) :
    (ok = true ∧ p'.outcome = some m.type.outcome) ∨
      (ok = false ∧ ∀ type : KrakenBookMessageType, p'.outcome ≠ some type.outcome) := by
  unfold verify at h
  simp only at h
  split at h
  · cases h
    exact .inr ⟨rfl, KrakenBookMessageType.outcome_ne (by decide) (by decide)⟩
  · split at h
    · cases h
      exact .inr ⟨rfl, KrakenBookMessageType.outcome_ne (by decide) (by decide)⟩
    · cases h
      refine .inl ⟨rfl, ?_⟩
      cases hm : m.type <;> simp [install, hm, KrakenBookMessageType.outcome]

private theorem apply_outcome {p p' : KrakenBookProcessor} {m : KrakenBookMessage} {ok : Bool}
    (h : p.apply crc m = (p', ok)) :
    (ok = true ∧ p'.outcome = some m.type.outcome) ∨
      (ok = false ∧ ∀ type : KrakenBookMessageType, p'.outcome ≠ some type.outcome) := by
  unfold apply at h
  simp only at h
  split at h
  · cases h
    exact .inr ⟨rfl, KrakenBookMessageType.outcome_ne (by decide) (by decide)⟩
  · split at h
    · cases h
      exact .inr ⟨rfl, KrakenBookMessageType.outcome_ne (by decide) (by decide)⟩
    · split at h
      · cases h
        exact .inr ⟨rfl, KrakenBookMessageType.outcome_ne (by decide) (by decide)⟩
      · exact verify_outcome h

/-- The outcome of `process` tells the applied messages from all others. -/
theorem process_outcome (crc : Bytes → UInt32) (p : KrakenBookProcessor) (raw : Bytes)
    (wall : ReceiveWallTimestamp) (mono : ReceiveMonotonicTimestamp) :
    (∃ m, p.note crc (.process raw wall mono) = .accepted m ∧
        (p.process crc raw wall mono).1.outcome = some m.type.outcome) ∨
      ((∀ m, p.note crc (.process raw wall mono) ≠ .accepted m) ∧
        ∀ type : KrakenBookMessageType,
          (p.process crc raw wall mono).1.outcome ≠ some type.outcome) := by
  unfold note call process
  simp only [Call.message]
  cases parse raw wall mono with
  | heartbeat | subscriptionSuccess | ignored | subscriptionFailure | error =>
    refine .inr ⟨?_, KrakenBookMessageType.outcome_ne (by decide) (by decide)⟩
    intro m h
    cases h
  | book m =>
    cases h : (p.receive mono).dispatch crc mono (.book m) with
    | mk p' ok =>
      obtain ⟨rfl, ho⟩ | ⟨rfl, ho⟩ := apply_outcome h
      · exact .inl ⟨m, rfl, ho⟩
      · refine .inr ⟨?_, ho⟩
        intro m h
        cases h

end KrakenBookProcessor

end ArbitrageEngine.Kraken

namespace ArbitrageEngine.Sessions

open Base ArbitrageEngine.Core Coinbase Kraken Recording

namespace KrakenReplay

/-- The `process` call for a record. -/
def processCall (e : RawMessage) : Call :=
  .process e.payload e.receiveWallTime e.receiveMonotonicTime

/-- The Kraken branch: a record counts once its message was applied. -/
def venue (crc : Bytes → UInt32) (depth : Nat) :
    VenueReplay KrakenReplay (Option ProcessOutcome) where
  loop := loop crc
  reconnect := reconnect
  book replay := replay.processor.book
  outcomes := outcomes
  Opens entry := entry.2 = some .snapshot ∧
    ∃ m, (processCall entry.1).message = some m ∧ m.type = .snapshot
  follow sides entry :=
    match entry.2, (processCall entry.1).message with
    | some .snapshot, some m => followMessage depth (∅, ∅) m
    | some .update, some m => followMessage depth sides m
    | _, _ => sides

/-- The id of the last record, and a processor whose two books agree and that is not valid
before the first record. -/
structure Tracks (depth : Nat) (read : List RawMessage) (replay : KrakenReplay) : Prop where
  connection : replay.connection = read.getLast?.map RawMessage.connectionId
  depth : replay.processor.depth = depth
  agrees : replay.processor.Agrees
  fresh : replay.connection = none → replay.processor.book.state ≠ .valid

variable {crc : Bytes → UInt32} {depth : Nat}

private theorem applyState_mark (processor : KrakenBookProcessor) (name : Bytes) :
    ∃ state, state ≠ BookState.valid ∧ applyState processor name = processor.mark state := by
  unfold applyState
  split_ifs
  · exact ⟨.stale, nofun, rfl⟩
  · exact ⟨.invalid, nofun, rfl⟩
  · exact ⟨.disconnected, nofun, rfl⟩

private theorem venue_follow_snapshot {e : RawMessage} {m : KrakenBookMessage}
    (hm : (processCall e).message = some m) (sides : Sides) :
    (venue crc depth).follow sides (e, some .snapshot) = followMessage depth (∅, ∅) m := by
  simp only [venue, hm]

private theorem venue_follow_update {e : RawMessage} {m : KrakenBookMessage}
    (hm : (processCall e).message = some m) (sides : Sides) :
    (venue crc depth).follow sides (e, some .update) = followMessage depth sides m := by
  simp only [venue, hm]

private theorem venue_follow_other {e : RawMessage} {outcome : Option ProcessOutcome}
    (h : ∀ type : KrakenBookMessageType, outcome ≠ some type.outcome) (sides : Sides) :
    (venue crc depth).follow sides (e, outcome) = sides := by
  simp only [venue]
  split
  · exact absurd rfl (h .snapshot)
  · exact absurd rfl (h .update)
  · rfl

private theorem processes_of_call {s s' : KrakenReplay} {e : RawMessage}
    (hs : s'.processor = (s.processor.call crc (processCall e)).1)
    (hd : s.processor.depth = depth) (ha : s.processor.Agrees) :
    (venue crc depth).Processes s (e, s'.processor.outcome) s' := by
  intro hvalid
  change s'.processor.book.state = .valid at hvalid
  have hstep : s.processor.Step crc (s.processor.note crc (processCall e)) s'.processor := by
    rw [hs]
    exact KrakenBookProcessor.call_step _ _
  have hout := KrakenBookProcessor.process_outcome crc s.processor e.payload e.receiveWallTime
    e.receiveMonotonicTime
  change (∃ m, s.processor.note crc (processCall e) = .accepted m ∧
      (s.processor.call crc (processCall e)).1.outcome = some m.type.outcome) ∨
    ((∀ m, s.processor.note crc (processCall e) ≠ .accepted m) ∧
      ∀ type : KrakenBookMessageType,
        (s.processor.call crc (processCall e)).1.outcome ≠ some type.outcome) at hout
  rw [← hs] at hout
  -- an accepted message gives its type as the outcome, any other call another one
  rcases hout with ⟨m, hn, ho⟩ | ⟨hn, ho⟩
  · have hm := KrakenBookProcessor.message_of_accepted hn
    rw [hn] at hstep
    rw [ho]
    cases hstep with
    | accepted hi =>
      have hsides := hi.sides_eq ha
      rw [hd] at hsides
      cases ht : m.type with
      | snapshot =>
        rw [ht, KrakenBookProcessor.stagedOn, KrakenChecksumBook.sides_empty] at hsides
        refine .inr ⟨⟨rfl, m, hm, ht⟩, ?_⟩
        rw [KrakenBookMessageType.outcome, venue_follow_snapshot hm]
        exact hsides
      | update =>
        rw [ht, KrakenBookProcessor.stagedOn, ha.sides_eq] at hsides
        have hawaited := hi.awaited
        rw [ht] at hawaited
        refine .inl ⟨hawaited.resolve_left (by decide), ?_⟩
        rw [KrakenBookMessageType.outcome, venue_follow_update hm]
        exact hsides
    | unusable hnote _ _ hne _ => exact absurd hvalid hne
  · generalize s.processor.note crc (processCall e) = n at hn hstep
    cases hstep with
    | accepted hi => exact absurd rfl (hn _)
    | unusable _ _ _ hne _ => exact absurd hvalid hne
    | neutral _ hb =>
      refine .inl ⟨?_, ?_⟩
      · rwa [hb] at hvalid
      · rw [venue_follow_other ho]
        unfold VenueReplay.sides
        change (s'.processor.book.bids, s'.processor.book.asks) = _
        rw [hb]
        rfl

private theorem reconnect_outcomes (replay : KrakenReplay) (e : RawMessage) :
    (replay.reconnect e).outcomes = replay.outcomes := by
  unfold reconnect
  split
  · rfl
  · exact transition_outcomes _ _ _

private theorem mark_tracks {processor : KrakenBookProcessor} (hd : processor.depth = depth)
    (ha : processor.Agrees) (state : BookState) :
    (processor.mark state).depth = depth ∧ (processor.mark state).Agrees :=
  ⟨hd, KrakenBookProcessor.Frame.agrees (p := processor) ⟨rfl, rfl, rfl⟩ rfl ha⟩

private theorem resetConnection_tracks {processor : KrakenBookProcessor}
    (hd : processor.depth = depth) (ha : processor.Agrees) :
    processor.resetConnection.depth = depth ∧ processor.resetConnection.Agrees :=
  ⟨hd, KrakenBookProcessor.Frame.agrees (p := processor) ⟨rfl, rfl, rfl⟩ rfl ha⟩

private theorem reconnect_tracks {replay : KrakenReplay} (hd : replay.processor.depth = depth)
    (ha : replay.processor.Agrees) (e : RawMessage) :
    (replay.reconnect e).processor.depth = depth ∧ (replay.reconnect e).processor.Agrees := by
  rw [reconnect_processor]
  split
  · exact ⟨hd, ha⟩
  · exact resetConnection_tracks hd ha

private theorem event_law {read : List RawMessage} {s s' : KrakenReplay} {event : LifecycleEntry}
    (hk : Tracks depth read s) (he : s.applyLifecycle event = .ok s') :
    Tracks depth read s' ∧ s'.processor.book.state ≠ .valid ∧ s'.outcomes = s.outcomes := by
  cases he
  obtain ⟨state, hne, hmark⟩ := applyState_mark s.processor event.state
  have hmarked := mark_tracks hk.depth hk.agrees state
  have hstate : (s.assign (s.processor.mark state) event.reason).processor.book.state ≠ .valid := by
    rw [assign_processor]
    exact hne
  rw [hmark]
  refine ⟨⟨?_, ?_, ?_, fun _ ↦ hstate⟩, hstate, transition_outcomes _ _ _⟩
  · rw [assign_connection]
    exact hk.connection
  · rw [assign_processor]
    exact hmarked.1
  · rw [assign_processor]
    exact hmarked.2

/-- Before a record the book stays usable only if the connection goes on. -/
theorem reconnect_law {s : KrakenReplay} {e : RawMessage}
    (hs : s.connection = none → s.processor.book.state ≠ .valid)
    (hvalid : (s.reconnect e).processor.book.state = .valid) :
    s.connection = some e.connectionId ∧ (s.reconnect e).processor = s.processor := by
  rw [reconnect_processor] at hvalid ⊢
  split at hvalid
  · next h =>
    rw [if_pos h]
    rcases h with h | h
    · exact ⟨h, rfl⟩
    · exact absurd hvalid (hs h)
  · cases hvalid

private theorem record_law {read : List RawMessage} {s s' : KrakenReplay} {e : RawMessage}
    (hk : Tracks depth read s) (he : s.replayRecord crc e = .ok s') :
    Tracks depth (read ++ [e]) s' ∧
      ∃ outcome, s'.outcomes = s.outcomes ++ [outcome] ∧
        (venue crc depth).Processes (s.reconnect e) (e, outcome) s' := by
  unfold replayRecord at he
  split at he
  · cases he
  · cases he
    obtain ⟨hd, ha⟩ := reconnect_tracks hk.depth hk.agrees e
    have hprocessor : ((s.reconnect e).recorded crc e).processor =
        ((s.reconnect e).processor.call crc (processCall e)).1 := recorded_processor _ _ _
    have hstep : (s.reconnect e).processor.Step crc _ _ :=
      KrakenBookProcessor.call_step (s.reconnect e).processor (processCall e)
    refine ⟨⟨?_, ?_, ?_, ?_⟩, ((s.reconnect e).recorded crc e).processor.outcome, ?_, ?_⟩
    · rw [recorded_connection, reconnect_connection, List.getLast?_concat, Option.map_some]
    · rw [hprocessor]
      exact hstep.depth_eq.trans hd
    · rw [hprocessor]
      exact hstep.agrees ha
    · rw [recorded_connection, reconnect_connection]
      nofun
    · rw [recorded_outcomes, reconnect_outcomes]
    · exact processes_of_call hprocessor hd ha

private theorem venue_laws (crc : Bytes → UInt32) (depth : Nat) :
    (venue crc depth).Laws (Tracks depth) where
  opening_book _ := rfl
  opening_outcomes _ := rfl
  event _ _ _ _ hk he := event_law hk he
  reconnect read s e hk hvalid := by
    obtain ⟨hconnection, hsame⟩ := reconnect_law hk.fresh hvalid
    have hbook : (venue crc depth).book ((venue crc depth).reconnect s e) =
        (venue crc depth).book s := congrArg KrakenBookProcessor.book hsame
    refine ⟨?_, ?_, hk.connection.symm.trans hconnection⟩
    · rwa [VenueReplay.Valid, hbook] at hvalid
    · unfold VenueReplay.sides
      rw [hbook]
  record _ _ _ _ hk he := record_law hk he

end KrakenReplay

/-! ### Both venues -/

/-- In a replay of either venue, with any records and any lifecycle events: the book is not valid
when a record of another connection is about to be processed, only a record with a snapshot makes
it valid, and while it is valid its levels come from records of the current connection alone. -/
theorem replay_isolates_connections (symbols : CoinbaseSymbolMapper) (crc : Bytes → UInt32)
    {depth : Nat} {p : KrakenBookProcessor} (hc : KrakenBookProcessor.create depth = .ok p)
    (lifecycle : List LifecycleEntry) :
    (CoinbaseReplay.venue symbols).Isolates (.start lifecycle) lifecycle ∧
      (KrakenReplay.venue crc depth).Isolates (.initial p) lifecycle := by
  constructor
  · have hstate : (CoinbaseReplay.start lifecycle).feed.book.state ≠ .valid := by
      unfold CoinbaseReplay.start
      split <;> nofun
    refine (CoinbaseReplay.venue_laws symbols).isolates ⟨?_, nofun⟩ ?_ hstate
    · change (CoinbaseReplay.start lifecycle).connection = none
      unfold CoinbaseReplay.start
      split <;> rfl
    · change (CoinbaseReplay.start lifecycle).results = []
      unfold CoinbaseReplay.start
      split <;> rfl
  · obtain ⟨hdepth, hagrees, hstate⟩ := KrakenBookProcessor.create_ok hc
    have hinvalid : p.book.state ≠ .valid := by
      rw [hstate]
      nofun
    exact (KrakenReplay.venue_laws crc depth).isolates ⟨rfl, hdepth, hagrees, fun _ ↦ hinvalid⟩ rfl
      hinvalid

/-- A Kraken record of one connection. -/
def krakenRecord (index connection : Nat) (payload : Bytes) : RawMessage :=
  ⟨index, .kraken, connection, ⟨0⟩, ⟨0⟩, payload⟩

/-- A snapshot makes the book valid; at the record of the next connection it no longer is. -/
theorem replay_isolates_connections_boundary :
    ∃ p, KrakenBookProcessor.create 10 = .ok p ∧
      ∃ s, (KrakenReplay.venue Crc.crc32 10).loop.reading 0 (.initial p)
          [krakenRecord 0 1 KrakenBookProcessor.oneLevelEach] [] = .ok (s, []) ∧
        (KrakenReplay.venue Crc.crc32 10).Valid s ∧
        (KrakenReplay.venue Crc.crc32 10).FromConnection
          [krakenRecord 0 1 KrakenBookProcessor.oneLevelEach] s ∧
        ¬(KrakenReplay.venue Crc.crc32 10).Valid
          ((KrakenReplay.venue Crc.crc32 10).reconnect s
            (krakenRecord 1 2 KrakenBookProcessor.bidRemoved)) := by
  have hisolates := (replay_isolates_connections .default Crc.crc32
    (by rfl : KrakenBookProcessor.create 10 = .ok _) []).2
      [krakenRecord 0 1 KrakenBookProcessor.oneLevelEach] _ [] 1 _ [] rfl rfl
  refine ⟨_, rfl, _, rfl, ?_, hisolates.before ?_, ?_⟩
  · unfold VenueReplay.Valid
    decide +kernel
  · unfold VenueReplay.Valid
    decide +kernel
  · have hother : (krakenRecord 0 1 KrakenBookProcessor.oneLevelEach).connectionId ≠
        (krakenRecord 1 2 KrakenBookProcessor.bidRemoved).connectionId := by
      nofun
    exact hisolates.boundary _ _ rfl hother

end ArbitrageEngine.Sessions
