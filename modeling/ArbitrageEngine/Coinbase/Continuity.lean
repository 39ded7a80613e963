import ArbitrageEngine.Base.Lists
import ArbitrageEngine.Coinbase.Coherence

/-!
# A valid book is the history of its connection

While the Coinbase book is valid, its levels are what the envelopes of the current
connection say, applied one change at a time from the last snapshot on; the envelopes have
no hole and no repetition, and each was recorded before it was read.
-/

namespace ArbitrageEngine.Core

open Base Std

/-! ### Naive application -/

/-- One event without any check: a snapshot replaces both sides, an update goes change by change. -/
def applyNaively (sides : Sides) : MarketEvent → Sides
  | .snapshot event => event.levels.foldl applyChange (∅, ∅)
  | .update event => event.changes.foldl applyChange sides

namespace OrderBook

/-- An accepted event changes the levels as its naive application does. -/
theorem referenceEvent_sides {book after : OrderBook} {event : MarketEvent}
    (h : book.referenceEvent event = some after) :
    (after.bids, after.asks) = applyNaively (book.bids, book.asks) event := by
  cases event with
  | snapshot event =>
    simp only [referenceEvent, referenceSnapshot] at h
    split at h
    · cases h
    · split at h
      · cases h
        rfl
      · cases h
  | update event =>
    simp only [referenceEvent, referenceUpdate] at h
    split at h
    · cases h
    · simp only [Option.map_eq_some_iff] at h
      obtain ⟨sides, hs, rfl⟩ := h
      exact foldl_of_checked hs

private theorem foldlM_referenceEvent_sides {events : List MarketEvent} {book after : OrderBook}
    (h : events.foldlM referenceEvent book = some after) :
    (after.bids, after.asks) = events.foldl applyNaively (book.bids, book.asks) := by
  induction events generalizing book with
  | nil =>
    cases h
    rfl
  | cons event rest ih =>
    rw [List.foldlM_cons] at h
    cases he : book.referenceEvent event with
    | none => simp [he] at h
    | some next =>
      rw [he] at h
      rw [ih h, List.foldl_cons, referenceEvent_sides he]

/-- An accepted envelope changes the levels as its naive application does. -/
theorem applyEvents_sides {book after : OrderBook} {events : List MarketEvent}
    (h : book.applyEvents events = (after, true)) :
    (after.bids, after.asks) = events.foldl applyNaively (book.bids, book.asks) := by
  rw [applyEvents_eq_foldlM] at h
  cases hf : events.foldlM referenceEvent book with
  | none => simp [hf] at h
  | some copy =>
    rw [hf] at h
    cases h
    exact foldlM_referenceEvent_sides hf

end OrderBook

/-- Events that begin with a snapshot do not depend on the levels before. -/
theorem foldl_applyNaively_of_head {events : List MarketEvent}
    (h : events.head?.map MarketEvent.isSnapshot = some true) (sides sides' : Sides) :
    events.foldl applyNaively sides = events.foldl applyNaively sides' := by
  cases events with
  | nil => cases h
  | cons event rest =>
    cases event with
    | snapshot event => rfl
    | update event => cases h

/-- Events with a snapshot split at the last one. -/
theorem exists_last_snapshot {events : List MarketEvent}
    (h : events.any MarketEvent.isSnapshot = true) :
    ∃ pre last, ∃ updates : List BookUpdate,
      events = pre ++ MarketEvent.snapshot last :: updates.map .update := by
  induction events using List.reverseRecOn with
  | nil => cases h
  | append_singleton events event ih =>
    cases event with
    | snapshot last => exact ⟨events, last, [], rfl⟩
    | update update =>
      have hany : events.any MarketEvent.isSnapshot = true := by
        simpa [MarketEvent.isSnapshot] using h
      obtain ⟨pre, last, updates, rfl⟩ := ih hany
      exact ⟨pre, last, updates ++ [update], by simp⟩

private theorem foldl_applyNaively_updates (updates : List BookUpdate) (sides : Sides) :
    (updates.map MarketEvent.update).foldl applyNaively sides =
      (updates.flatMap (·.changes)).foldl applyChange sides := by
  induction updates generalizing sides with
  | nil => rfl
  | cons update rest ih =>
    rw [List.map_cons, List.foldl_cons, List.flatMap_cons, List.foldl_append]
    exact ih _

/-- The levels are those of the last snapshot and of the changes after it. -/
theorem foldl_applyNaively_eq (pre : List MarketEvent) (last : BookSnapshot)
    (updates : List BookUpdate) (sides : Sides) :
    (pre ++ MarketEvent.snapshot last :: updates.map .update).foldl applyNaively sides =
      (updates.flatMap (·.changes)).foldl applyChange (last.levels.foldl applyChange (∅, ∅)) := by
  rw [List.foldl_append, List.foldl_cons, foldl_applyNaively_updates]
  rfl

/-! ### Sequence numbers -/

/-- The tracker has seen these numbers, which have no hole and no repetition. -/
def SequenceTracker.Tracks (tracker : SequenceTracker) (numbers : List Nat) : Prop :=
  tracker.last = numbers.getLast? ∧ ∃ start, numbers = List.range' start numbers.length

private theorem SequenceTracker.tracks_nil : SequenceTracker.Tracks .empty [] := ⟨rfl, 0, rfl⟩

end ArbitrageEngine.Core

namespace ArbitrageEngine.Coinbase

open Base ArbitrageEngine.Core Recording

private theorem Feed.Accepts.tracks {tracker after : SequenceTracker} {sequence : Option Nat}
    {numbers : List Nat} (h : Accepts tracker sequence after) (ht : tracker.Tracks numbers) :
    after.Tracks (numbers ++ sequence.toList) := by
  obtain ⟨hlast, start, hrange⟩ := ht
  cases h with
  | unsequenced =>
    rw [Option.toList_none, List.append_nil]
    exact ⟨hlast, start, hrange⟩
  | first sequence hnone =>
    have hnil : numbers = [] := by
      rw [hnone] at hlast
      exact List.getLast?_eq_none_iff.mp hlast.symm
    rw [hnil]
    exact ⟨rfl, sequence, rfl⟩
  | next sequence hsome =>
    rw [hsome, hrange, List.getLast?_range'] at hlast
    refine ⟨by simp, start, ?_⟩
    have hend : sequence + 1 = start + numbers.length := by
      split at hlast
      · cases hlast
      · cases hlast
        omega
    rw [Option.toList_some, List.length_append, List.length_singleton, List.range'_1_concat, ← hend]
    exact congrArg (· ++ [sequence + 1]) hrange

/-! ### The history of a connection -/

/-- The sequence number of an envelope. -/
def sequenceOf (envelope : RawMessage) : Option Nat := (parseEnvelope .default envelope).sequence

/-- The events of an envelope. -/
def eventsOf (envelope : RawMessage) : List MarketEvent := (parseEnvelope .default envelope).events

/-- A sequenced envelope that was not dropped as a repetition. -/
def counts (publication : RawMessage × ProcessResult) : Bool :=
  (sequenceOf publication.1).isSome && publication.2.outcome ≠ .duplicate &&
    publication.2.outcome ≠ .outOfOrder

namespace Effect

/-- The envelope and the result given to `publish_`. -/
def publication : Effect → Option (RawMessage × ProcessResult)
  | published envelope result _ => some (envelope, result)
  | _ => none

/-- The effects of processing a message. -/
def isProcessing : Effect → Bool
  | parsed _ => true
  | published _ _ _ => true
  | _ => false

end Effect

/-- Every envelope was accepted by the recording sink before it was parsed. -/
def RecordedFirst (effects : List Effect) : Prop :=
  ∀ (i : Nat) (envelope : RawMessage), effects[i]? = some (.parsed envelope) →
    ∃ j < i, ∃ generation, effects[j]? = some (.pushed generation envelope (.returned .accepted))

private theorem RecordedFirst.append {effects rest : List Effect} (h : RecordedFirst effects)
    (hr : RecordedFirst rest) : RecordedFirst (effects ++ rest) := by
  intro i envelope hi
  by_cases hlt : i < effects.length
  · rw [List.getElem?_append_left hlt] at hi
    obtain ⟨j, hj, generation, he⟩ := h i envelope hi
    exact ⟨j, hj, generation, by rwa [List.getElem?_append_left (by omega)]⟩
  · rw [List.getElem?_append_right (by omega)] at hi
    obtain ⟨j, hj, generation, he⟩ := hr _ envelope hi
    refine ⟨effects.length + j, by omega, generation, ?_⟩
    rw [List.getElem?_append_right (by omega)]
    simpa using he

private theorem recordedFirst_of_quiet {effects : List Effect}
    (h : ∀ x ∈ effects, x.isProcessing = false) :
    RecordedFirst effects := by
  intro i envelope hi
  exact absurd (h _ (List.mem_of_getElem? hi)) (by simp [Effect.isProcessing])

private theorem recordedFirst_accepted (generation : Nat) (envelope : RawMessage)
    (rest : List Effect) (h : ∀ other, .parsed other ∉ rest) :
    RecordedFirst
      (.pushed generation envelope (.returned .accepted) :: .parsed envelope :: rest) := by
  intro i other hi
  match i with
  | 0 => cases hi
  | 1 =>
    cases hi
    exact ⟨0, Nat.zero_lt_one, generation, rfl⟩
  | i + 2 =>
    change rest[i]? = some (.parsed other) at hi
    exact absurd (List.mem_of_getElem? hi) (h other)

namespace Session

/-- What was published so far. -/
def publications (s : Session) : List (RawMessage × ProcessResult) :=
  s.trace.filterMap Effect.publication

/-- The sequenced envelopes delivered on the current connection, repetitions dropped. -/
def effective (s : Session) : List RawMessage :=
  (s.publications.filter fun publication ↦
    publication.1.connectionId = s.connectionId && counts publication).map Prod.fst

private theorem isSome_sequenceOf_effective (s : Session) :
    ∀ envelope ∈ s.effective, (sequenceOf envelope).isSome = true := by
  intro envelope he
  obtain ⟨publication, hp, rfl⟩ := List.mem_map.mp he
  have hc := (List.mem_filter.mp hp).2
  simp only [counts, Bool.and_eq_true] at hc
  exact hc.2.1.1

/-- What the trace says about messages, on whatever connection. -/
structure History (s : Session) : Prop where
  ids_le : ∀ publication ∈ s.publications, publication.1.connectionId ≤ s.connectionId
  recorded : RecordedFirst s.trace

/-- What the envelopes of the current connection say about tracker and book. -/
structure Current (s : Session) : Prop where
  parsed : ∀ envelope ∈ s.effective, .parsed envelope ∈ s.trace
  tracked : s.sequence.Tracks (s.effective.filterMap sequenceOf)
  unanchored : s.book.state = .initializing → s.effective.flatMap eventsOf = []
  anchored : s.book.state = .valid →
    (s.effective.flatMap eventsOf).any MarketEvent.isSnapshot = true ∧
      (s.book.bids, s.book.asks) = (s.effective.flatMap eventsOf).foldl applyNaively (∅, ∅)

/-- The history, and on a connected session its current part. -/
structure Continuous (s : Session) : Prop extends History s where
  current : s.connected = true → s.Current

/-! ### Steps without a message -/

/-- The trace grows by effects that process no message. -/
def Quiet (s s' : Session) : Prop :=
  ∃ rest, s'.trace = s.trace ++ rest ∧ ∀ x ∈ rest, x.isProcessing = false

private theorem quiet_of_trace {s s' : Session} (front back : List Effect) (state : BookState)
    (reason : Bytes) (h : s'.trace = s.trace ++ front ++ s.observed state reason ++ back)
    (hq : ∀ x ∈ front ++ back, x.isProcessing = false) : Quiet s s' := by
  refine ⟨front ++ s.observed state reason ++ back, by simp [h], ?_⟩
  intro x hx
  rw [List.append_assoc, List.mem_append, List.mem_append] at hx
  rcases hx with hx | hx | hx
  · exact hq x (List.mem_append_left _ hx)
  · unfold observed at hx
    split at hx
    · cases hx
    · rw [List.mem_singleton.mp hx]
      rfl
  · exact hq x (List.mem_append_right _ hx)

private theorem Quiet.trans {a b c : Session} (h : Quiet a b) (h' : Quiet b c) : Quiet a c := by
  obtain ⟨rest, ht, hq⟩ := h
  obtain ⟨rest', ht', hq'⟩ := h'
  refine ⟨rest ++ rest', by rw [ht', ht, List.append_assoc], ?_⟩
  intro x hx
  rcases List.mem_append.mp hx with hx | hx
  · exact hq x hx
  · exact hq' x hx

/-- A new attempt publishes nothing. -/
theorem quiet_begun (s : Session) : Quiet s s.begun :=
  quiet_of_trace [] [.book .resyncing, .connect (s.generation + 1)] .resyncing
    (ascii "resynchronization") (by simp [begun]) (by simp [Effect.isProcessing])

/-- A connection publishes nothing. -/
theorem quiet_established (s : Session) : Quiet s s.established :=
  quiet_of_trace [] [.book .initializing] .initializing (ascii "new_connection")
    (by simp [established]) (by simp [Effect.isProcessing])

/-- A recovery publishes nothing. -/
theorem quiet_recovering (s : Session) (reason : Bytes) (state : BookState) (delay : Nat) :
    Quiet s (s.recovering reason state delay) :=
  quiet_of_trace [] [.book state, .close, .schedule delay (s.generation + 1)] state reason
    (by simp [recovering]) (by simp [Effect.isProcessing])

/-- A stop publishes nothing. -/
theorem quiet_stopped (s : Session) : Quiet s s.stopped :=
  quiet_of_trace [.close] [.book .disconnected] .disconnected (ascii "requested_shutdown") rfl
    (by simp [Effect.isProcessing])

private theorem quiet_invalidated (s : Session) : Quiet s s.invalidated :=
  quiet_of_trace [] [.book .invalid] .invalid (ascii "terminal_failure") (by simp [invalidated])
    (by simp [Effect.isProcessing])

/-- A terminal failure publishes nothing. -/
theorem quiet_terminated (s : Session) : Quiet s s.terminated := by
  unfold terminated
  split
  · exact quiet_invalidated s
  · exact (quiet_stopped s).trans (quiet_invalidated s.stopped)

private theorem Quiet.publications_eq {s s' : Session} (h : Quiet s s') :
    s'.publications = s.publications := by
  obtain ⟨rest, ht, hq⟩ := h
  have hnone : rest.filterMap Effect.publication = [] := by
    rw [List.filterMap_eq_nil_iff]
    intro x hx
    have hn := hq x hx
    cases x <;> first | rfl | cases hn
  rw [publications, ht, List.filterMap_append, hnone, List.append_nil, publications]

private theorem Quiet.effective_eq {s s' : Session} (h : Quiet s s')
    (hi : s'.connectionId = s.connectionId) : s'.effective = s.effective := by
  unfold effective
  rw [h.publications_eq, hi]

private theorem History.of_quiet {s s' : Session} (h : s.History) (hq : Quiet s s')
    (hi : s.connectionId ≤ s'.connectionId) : s'.History := by
  refine ⟨?_, ?_⟩
  · rw [hq.publications_eq]
    exact fun publication hp ↦ Nat.le_trans (h.ids_le publication hp) hi
  · obtain ⟨rest, ht, hrest⟩ := hq
    rw [ht]
    exact h.recorded.append (recordedFirst_of_quiet hrest)

/-- A quiet step that leaves the session unconnected. -/
theorem History.continuous {s s' : Session} (h : s.History) (hq : Quiet s s')
    (hi : s'.connectionId = s.connectionId) (hc : s'.connected = false) : s'.Continuous := by
  refine ⟨h.of_quiet hq (Nat.le_of_eq hi.symm), ?_⟩
  intro hcon
  rw [hc] at hcon
  cases hcon

private theorem continuous_established {s : Session} (h : s.History) :
    s.established.Continuous := by
  have hq := quiet_established s
  have hnil : s.established.effective = [] := by
    unfold effective
    rw [hq.publications_eq, List.map_eq_nil_iff, List.filter_eq_nil_iff]
    intro publication hp hc
    have hle := h.ids_le publication hp
    have hid : s.established.connectionId = s.connectionId + 1 := rfl
    simp only [Bool.and_eq_true, decide_eq_true_eq] at hc
    omega
  refine ⟨h.of_quiet hq (Nat.le_succ _), ?_⟩
  intro _
  constructor
  · rw [hnil]
    exact fun envelope he ↦ absurd he List.not_mem_nil
  · rw [hnil]
    exact SequenceTracker.tracks_nil
  · rw [hnil]
    exact fun _ ↦ rfl
  · intro hv
    cases hv

/-! ### Messages -/

section Accepted

variable {s : Session} {envelope : RawMessage} {book : OrderBook} {sequence : SequenceTracker}
  {result : ProcessResult}

/-- An accepted envelope is published with its result, behind the earlier ones. -/
theorem publications_accepted :
    (s.accepted envelope book sequence result).publications =
      s.publications ++ [(envelope, result)] := by
  unfold publications accepted
  rw [List.filterMap_append]
  rfl

private theorem effective_accepted (hid : envelope.connectionId = s.connectionId) :
    (s.accepted envelope book sequence result).effective =
      s.effective ++ if counts (envelope, result) then [envelope] else [] := by
  unfold effective
  rw [publications_accepted, List.filter_append, List.map_append]
  refine congrArg (s.effective ++ ·) ?_
  by_cases hc : counts (envelope, result) = true
  · simp [accepted, hid, hc]
  · simp [accepted, hid, hc]

private theorem History.accepted (h : s.History) (hid : envelope.connectionId = s.connectionId) :
    (s.accepted envelope book sequence result).History := by
  refine ⟨?_, ?_⟩
  · rw [publications_accepted]
    intro publication hp
    rcases List.mem_append.mp hp with hp | hp
    · exact h.ids_le publication hp
    · rw [List.mem_singleton.mp hp]
      exact Nat.le_of_eq hid
  · exact h.recorded.append (recordedFirst_accepted _ _ _ (by simp))

/-- The numbers of the connection grow by the number of a message that was let through. -/
theorem numbers_accepted (hid : envelope.connectionId = s.connectionId)
    (hc : counts (envelope, result) = (sequenceOf envelope).isSome) :
    (s.accepted envelope book sequence result).effective.filterMap sequenceOf =
      s.effective.filterMap sequenceOf ++ (sequenceOf envelope).toList := by
  rw [effective_accepted hid, hc, List.filterMap_append]
  cases hn : sequenceOf envelope with
  | none => rfl
  | some number => simp [hn]

/-- The events of the connection grow by the events of a message that was let through. -/
theorem events_accepted (hid : envelope.connectionId = s.connectionId)
    (hc : counts (envelope, result) = (sequenceOf envelope).isSome)
    (he : (sequenceOf envelope).isSome = true ∨ eventsOf envelope = []) :
    (s.accepted envelope book sequence result).effective.flatMap eventsOf =
      s.effective.flatMap eventsOf ++ eventsOf envelope := by
  rw [effective_accepted hid, hc, List.flatMap_append]
  cases hn : (sequenceOf envelope).isSome with
  | true => simp
  | false =>
    have hnil : eventsOf envelope = [] := by simpa [hn] using he
    simp [hnil]

private theorem parsed_accepted (h : s.Current) (hid : envelope.connectionId = s.connectionId) :
    ∀ e ∈ (s.accepted envelope book sequence result).effective,
      .parsed e ∈ (s.accepted envelope book sequence result).trace := by
  intro e he
  rw [effective_accepted hid, List.mem_append] at he
  change .parsed e ∈ s.trace ++ _
  rcases he with he | he
  · exact List.mem_append_left _ (h.parsed e he)
  · split at he
    · rw [List.mem_singleton.mp he]
      simp
    · cases he

end Accepted

/-- A delivered message keeps tracker and book in step with the connection's envelopes. -/
theorem Current.delivered {s : Session} {envelope : RawMessage} {health : FeedHealth} {feed : Feed}
    {result : ProcessResult} (h : s.Current) (hc : s.Coherent) (hcon : s.connected = true)
    (hid : envelope.connectionId = s.connectionId)
    (hp : Feed.Processed .default ⟨s.book, s.sequence, health⟩ envelope feed (.ok result))
    (clean : result.error = []) :
    (s.accepted envelope feed.book feed.sequence result).Current := by
  cases hp with
  | failed _ _ _ _ error => exact absurd clean error
  | skipped health result outcome error =>
    have hn : counts (envelope, result) = false := by
      rcases outcome with h | h <;> simp [counts, h]
    have heff : (s.accepted envelope s.book s.sequence result).effective = s.effective := by
      rw [effective_accepted hid, hn]
      simp
    refine ⟨parsed_accepted h hid, ?_, ?_, ?_⟩
    · rw [heff]
      exact h.tracked
    · rw [heff]
      exact h.unanchored
    · rw [heff]
      exact h.anchored
  | quiet sequence health result accepts events outcome error =>
    -- the number is consumed, but there are no events to apply
    have hn : counts (envelope, result) = (sequenceOf envelope).isSome := by
      simp [counts, outcome]
    have hev : (s.accepted envelope s.book sequence result).effective.flatMap eventsOf =
        s.effective.flatMap eventsOf := by
      rw [events_accepted hid hn (Or.inr events), show eventsOf envelope = [] from events,
        List.append_nil]
    refine ⟨parsed_accepted h hid, ?_, ?_, ?_⟩
    · rw [numbers_accepted hid hn]
      exact accepts.tracks h.tracked
    · rw [hev]
      exact h.unanchored
    · rw [hev]
      exact h.anchored
  | updated book sequence health result accepts sequenced anchored events applied outcome error =>
    have hn : counts (envelope, result) = (sequenceOf envelope).isSome := by
      simp [counts, outcome]
    have hvalid : book.state = .valid := OrderBook.applyEvents_state applied events
    have hsides := OrderBook.applyEvents_sides applied
    refine ⟨parsed_accepted h hid, ?_, ?_, ?_⟩
    · rw [numbers_accepted hid hn]
      exact accepts.tracks h.tracked
    · intro hi
      exact absurd (hvalid.symm.trans hi) (by decide)
    · intro _
      rw [events_accepted hid hn (Or.inl sequenced), List.any_append, List.foldl_append]
      by_cases hv : s.book.state = .valid
      · obtain ⟨hany, hfold⟩ := h.anchored hv
        refine ⟨by simp [hany], ?_⟩
        rw [← hfold]
        exact hsides
      · -- The first events of a connection start with a snapshot.
        have hnil := h.unanchored ((hc.connected_book hcon).resolve_right hv)
        have hhead := anchored.resolve_left hv
        refine ⟨?_, ?_⟩
        · cases he : (parseEnvelope .default envelope).events with
          | nil => exact absurd he events
          | cons event rest =>
            rw [he] at hhead
            have hsnap : event.isSnapshot = true := by simpa using hhead
            simp [eventsOf, he, hsnap]
        · rw [hnil]
          exact hsides.trans (foldl_applyNaively_of_head hhead _ _)

private theorem History.rejected {s : Session} {envelope : RawMessage} {response : SinkResponse}
    {result : ProcessResult} (h : s.History) (hid : envelope.connectionId = s.connectionId) :
    (s.rejected envelope response result).History := by
  have hp : (s.rejected envelope response result).publications =
      s.publications ++ [(envelope, result)] := by
    unfold publications Session.rejected
    rw [List.filterMap_append]
    rfl
  refine ⟨?_, ?_⟩
  · rw [hp]
    intro publication hm
    rcases List.mem_append.mp hm with hm | hm
    · exact h.ids_le publication hm
    · rw [List.mem_singleton.mp hm]
      exact Nat.le_of_eq hid
  · refine h.recorded.append ?_
    intro i other hi
    have hm := List.mem_of_getElem? hi
    simp at hm

private theorem continuous_terminated {s : Session} (h : s.History)
    (hc : s.stopping = true → s.connected = false) : s.terminated.Continuous := by
  refine h.continuous (quiet_terminated s) ?_ ?_
  · unfold terminated
    split <;> rfl
  · unfold terminated
    split
    · next hs => exact hc hs
    · rfl

/-- One step keeps the book of a connected session the history of its connection. -/
theorem Step.continuous {reasons : Bytes → Prop} {s s' : Session}
    {handed : Option RawMessage} (h : Step reasons s handed s')
    (hc : s.Coherent) (hs : s.Continuous) : s'.Continuous := by
  have hh := hs.toHistory
  cases h with
  | idle => exact hs
  | refreshed =>
    have hq : Quiet s s.refreshed := ⟨[.book s.book.state], rfl, by simp [Effect.isProcessing]⟩
    refine ⟨hh.of_quiet hq (Nat.le_refl _), ?_⟩
    intro hcon
    have hcur := hs.current hcon
    have heff : s.refreshed.effective = s.effective := hq.effective_eq rfl
    constructor
    · rw [heff]
      exact fun e he ↦ List.mem_append_left _ (hcur.parsed e he)
    · rw [heff]
      exact hcur.tracked
    · rw [heff]
      exact hcur.unanchored
    · rw [heff]
      exact hcur.anchored
  | start stopping alive => exact hh.continuous (quiet_begun { s with stopping := false }) rfl rfl
  | resume delay running token => exact hh.continuous (quiet_begun s) rfl rfl
  | connected running fresh token => exact continuous_established hh
  | recover reason state delay running idle state_eq given =>
    exact hh.continuous (quiet_recovering s _ _ _) rfl rfl
  | stop running => exact hh.continuous (quiet_stopped s) rfl rfl
  | terminate => exact continuous_terminated hh hc.not_connected
  | delivered raw wall mono health now feed result running connected token processed clean =>
    exact ⟨hh.accepted rfl,
      fun _ ↦ (hs.current connected).delivered hc connected rfl
        (Feed.processed_of_process processed) clean⟩
  | failed raw wall mono health now feed result delay running connected token
      processed error idle =>
    exact (hh.accepted rfl).continuous (quiet_recovering _ _ _ _) rfl rfl
  | thrown raw wall mono health now feed failure delay running connected token processed idle =>
    exact (hh.accepted rfl).continuous (quiet_recovering _ _ _ _) rfl rfl
  | rejected raw wall mono response error running connected token refused =>
    exact continuous_terminated (hh.rejected rfl) hc.not_connected

end Session

/-! ### Runs of the manager -/

namespace CoinbaseConnectionManager

private theorem run_continuous {clock : Nat → ReceiveMonotonicTimestamp} {config : FeedHealthConfig}
    {initial : CoinbaseConnectionManager} (hm : create clock config = .ok initial)
    (actions : List Action) : (initial.run clock actions).Continuous := by
  refine run_invariant hm ?_ (fun _ _ _ _ hc hs hi ↦ hs.continuous hc hi) actions
  rw [create_toSession hm]
  refine ⟨⟨?_, ?_⟩, ?_⟩
  · intro publication hp
    cases hp
  · intro i envelope hi
    have hmem := List.mem_of_getElem? hi
    simp at hmem
  · intro hc
    cases hc

/-- Whenever the book is valid, the sequenced envelopes of the current connection are numbered
without hole or repetition, each was recorded before it was parsed, and the levels are those of
their last snapshot and of every change after it. -/
theorem run_valid_book (clock : Nat → ReceiveMonotonicTimestamp) (config : FeedHealthConfig)
    (initial : CoinbaseConnectionManager) (hm : create clock config = .ok initial)
    (actions : List Action) (hv : (initial.run clock actions).book.state = .valid) :
    let m := initial.run clock actions
    (∃ start, m.effective.map sequenceOf = (List.range' start m.effective.length).map some) ∧
      (∀ envelope ∈ m.effective, .parsed envelope ∈ m.trace ∧
        ∀ i : Nat, m.trace[i]? = some (Effect.parsed envelope) → ∃ j < i, ∃ generation,
          m.trace[j]? = some (Effect.pushed generation envelope (.returned .accepted))) ∧
      ∃ pre last, ∃ updates : List BookUpdate,
        m.effective.flatMap eventsOf = pre ++ .snapshot last :: updates.map .update ∧
          (m.book.bids, m.book.asks) =
            (updates.flatMap (·.changes)).foldl applyChange
              (last.levels.foldl applyChange (∅, ∅)) := by
  intro m
  have hcon : m.connected = true := (run_tokens_coherent hm actions).2.valid_connected hv
  have hall : m.Continuous := run_continuous hm actions
  have hcur := hall.current hcon
  refine ⟨?_, ?_, ?_⟩
  · obtain ⟨-, start, hrange⟩ := hcur.tracked
    have hmap := map_eq_map_filterMap (Session.isSome_sequenceOf_effective m.toSession)
    have hlen := congrArg List.length hmap
    rw [List.length_map, List.length_map] at hlen
    exact ⟨start, by rw [hmap, hlen, ← hrange]⟩
  · intro envelope he
    exact ⟨hcur.parsed envelope he, fun i hi ↦ hall.recorded i envelope hi⟩
  · obtain ⟨hany, hfold⟩ := hcur.anchored hv
    obtain ⟨pre, last, updates, hsplit⟩ := exists_last_snapshot hany
    refine ⟨pre, last, updates, hsplit, ?_⟩
    rw [hfold, hsplit, foldl_applyNaively_eq]

/-- A level-two message with a snapshot of one bid. -/
def singleBid : Bytes :=
  ascii "\x7b\"channel\":\"l2_data\",\"timestamp\":\"2024-01-01T00:00:00Z\",\"sequence_num\":7," ++
  ascii "\"events\":[\x7b\"type\":\"snapshot\",\"product_id\":\"BTC-USD\",\"updates\":[" ++
  ascii "\x7b\"side\":\"bid\",\"event_time\":\"2024-01-01T00:00:00Z\",\"price_level\":\"5\"," ++
  ascii "\"new_quantity\":\"2\"\x7d]\x7d]\x7d"

/-- The next one, with an update that puts a better bid in front. -/
def betterBid : Bytes :=
  ascii "\x7b\"channel\":\"l2_data\",\"timestamp\":\"2024-01-01T00:00:01Z\",\"sequence_num\":8," ++
  ascii "\"events\":[\x7b\"type\":\"update\",\"product_id\":\"BTC-USD\",\"updates\":[" ++
  ascii "\x7b\"side\":\"bid\",\"event_time\":\"2024-01-01T00:00:01Z\",\"price_level\":\"6\"," ++
  ascii "\"new_quantity\":\"1\"\x7d]\x7d]\x7d"

/-- A connection that is lost behind its snapshot, and the snapshot and update of the next one. -/
def secondSnapshot : List Action :=
  [.start, .connected 1, .message 1 singleBid ⟨0⟩ ⟨0⟩ (.returned .accepted) ⟨0⟩,
    .error 1 (ascii "closed"), .resume 2, .connected 3,
    .message 3 singleBid ⟨1⟩ ⟨1⟩ (.returned .accepted) ⟨1⟩,
    .message 3 betterBid ⟨2⟩ ⟨2⟩ (.returned .accepted) ⟨2⟩]

/-- Its book is valid and comes from the two messages of the second connection. -/
theorem run_valid_book_snapshot :
    ∃ initial, create (fun n ↦ ⟨n⟩) {} = .ok initial ∧
      let m := initial.run (fun n ↦ ⟨n⟩) secondSnapshot
      m.book.state = .valid ∧ m.book.bids.size = 2 ∧ m.effective.length = 2 ∧
        (∃ start, m.effective.map sequenceOf =
          (List.range' start m.effective.length).map some) ∧
        ∃ pre last, ∃ updates : List BookUpdate,
          m.effective.flatMap eventsOf = pre ++ .snapshot last :: updates.map .update := by
  have hcreated : create (fun n ↦ ⟨n⟩) {} = .ok _ := rfl
  have hvalid := run_valid_book (fun n ↦ ⟨n⟩) {} _ hcreated secondSnapshot (by decide +kernel)
  obtain ⟨pre, last, updates, hsplit, -⟩ := hvalid.2.2
  exact ⟨_, hcreated, by decide +kernel, by decide +kernel, by decide +kernel, hvalid.1,
    pre, last, updates, hsplit⟩

end CoinbaseConnectionManager

end ArbitrageEngine.Coinbase
