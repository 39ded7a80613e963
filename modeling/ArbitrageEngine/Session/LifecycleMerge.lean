import ArbitrageEngine.Recording.RawEventReader
import ArbitrageEngine.Session.CoinbaseReplay
import ArbitrageEngine.Session.KrakenReplay

/-!
# Lifecycle events between the records

`sessions::replay` in `src/session/session.cpp` merges two streams: the records of the raw
file, whose indexes the reader forces to count from zero, and the lifecycle events of the
manifest, which were validated before. Both venues do it by comparing the next event with a
moving index.
-/

namespace ArbitrageEngine.Sessions

open Base ArbitrageEngine.Core Recording

/-- What the validation of the lifecycle events says about their indexes. -/
theorem validateLifecycle_ok {complete : Bool} {records last : Nat}
    {lifecycle : List LifecycleEntry}
    (h : validateLifecycle complete records last lifecycle = .ok ()) :
    (lifecycle.Pairwise fun a b ↦ a.beforeRecordIndex ≤ b.beforeRecordIndex) ∧
      ∀ event ∈ lifecycle, last ≤ event.beforeRecordIndex ∧
        (complete = true → event.beforeRecordIndex ≤ records) := by
  induction lifecycle generalizing last with
  | nil => exact ⟨.nil, by simp⟩
  | cons event rest ih =>
    rw [validateLifecycle] at h
    split at h
    · cases h
    · next hok =>
      simp only [not_or, not_and, Nat.not_lt] at hok
      obtain ⟨hsorted, hbounds⟩ := ih h
      refine ⟨.cons (fun other ho ↦ (hbounds other ho).1) hsorted, ?_⟩
      intro other ho
      obtain rfl | ho := List.mem_cons.mp ho
      · exact ⟨hok.1, hok.2.1⟩
      · exact ⟨Nat.le_trans hok.1 (hbounds other ho).1, (hbounds other ho).2⟩

/-- The loop goes through a history that has the records, and between them the events up to the
last record: each once, in order, behind as many records as it says. The other events are
left over. -/
def Merges {σ φ : Type} (loop : Weave.Loop σ LifecycleEntry RawMessage φ)
    (records : List RawMessage) (lifecycle : List LifecycleEntry) : Prop :=
  ∃ history : List (LifecycleEntry ⊕ RawMessage),
    Weave.records history = records ∧
    Weave.events history = lifecycle.filter (·.beforeRecordIndex ≤ records.length) ∧
    (∀ front event rest, history = front ++ .inl event :: rest →
      (Weave.records front).length = event.beforeRecordIndex) ∧
    ∀ start, loop.run 0 start records lifecycle =
      (history.foldlM loop.item (loop.opening start)).map fun final ↦
        (final, lifecycle.filter (records.length < ·.beforeRecordIndex))

/-- Sorted events are merged by any loop that looks them up under the number of records read. -/
theorem merges_of_sorted {σ φ : Type} {loop : Weave.Loop σ LifecycleEntry RawMessage φ}
    {records : List RawMessage} {lifecycle : List LifecycleEntry}
    (hp : loop.position = LifecycleEntry.beforeRecordIndex)
    (hi : ∀ k r, records[k]? = some r → loop.index k r = k)
    (hs : lifecycle.Pairwise fun a b ↦ a.beforeRecordIndex ≤ b.beforeRecordIndex) :
    Merges loop records lifecycle := by
  rw [← hp] at hs
  have hfiled : loop.Filed 0 (Weave.woven loop.position lifecycle 0 records) := by
    apply Weave.filed_woven
    intro k r hk
    rw [Nat.zero_add]
    exact hi k r hk
  refine ⟨_, Weave.records_woven loop.position lifecycle 0 records, ?_, ?_, ?_⟩
  · rw [Weave.events_woven hs, hp]
    apply List.filter_congr
    intro event _
    rw [decide_eq_decide]
    omega
  · intro front event rest hfront
    rw [hfront] at hfiled
    rw [Weave.length_records_of_filed hfiled, hp]
  · intro start
    rw [Weave.run_eq_woven hi hs, hp]

/-- Without events behind the last record nothing is left over. -/
theorem Merges.nothing_left {σ φ : Type} {loop : Weave.Loop σ LifecycleEntry RawMessage φ}
    {records : List RawMessage} {lifecycle : List LifecycleEntry}
    (h : Merges loop records lifecycle)
    (hb : ∀ event ∈ lifecycle, event.beforeRecordIndex ≤ records.length) {start final : σ}
    {remaining : List LifecycleEntry}
    (hr : loop.run 0 start records lifecycle = .ok (final, remaining)) : remaining = [] := by
  obtain ⟨history, -, -, -, hrun⟩ := h
  have hnone : lifecycle.filter (records.length < ·.beforeRecordIndex) = [] :=
    List.filter_eq_nil_iff.mpr fun event he ↦ by simpa using hb event he
  rw [hrun, hnone] at hr
  cases hf : history.foldlM loop.item (loop.opening start) with
  | error failure =>
    rw [hf] at hr
    cases hr
  | ok final =>
    rw [hf] at hr
    cases hr
    rfl

/-- Both replays apply the validated events up to the last record, each at its place, and leave
the others alone. In a complete session none is left, so that the final check passes. -/
theorem lifecycle_merged (file : Option Bytes)
    (hsize : ∀ bytes, file = some bytes → bytes.length < 2 ^ 64) (c : Nat)
    (status : SessionStatus) (lifecycle : List LifecycleEntry)
    (hv : validateLifecycle (status = .complete)
      ((RawEventReader.create file).readAll c).1.length 0 lifecycle = .ok ()) :
    let records := ((RawEventReader.create file).readAll c).1
    (∀ crc, Merges (KrakenReplay.loop crc) records lifecycle) ∧
    (∀ symbols, Merges (CoinbaseReplay.loop symbols) records lifecycle) ∧
    (status = .complete →
      lifecycle.filter (·.beforeRecordIndex ≤ records.length) = lifecycle ∧
      (∀ crc start replay remaining,
        (KrakenReplay.loop crc).run 0 start records lifecycle = .ok (replay, remaining) →
          KrakenReplay.finish status replay remaining = .ok replay) ∧
      ∀ symbols start replay remaining,
        (CoinbaseReplay.loop symbols).run 0 start records lifecycle = .ok (replay, remaining) →
          CoinbaseReplay.finish status replay remaining = .ok replay) := by
  intro records
  obtain ⟨hsorted, hbounds⟩ := validateLifecycle_ok hv
  have hkraken (crc : Bytes → UInt32) : Merges (KrakenReplay.loop crc) records lifecycle :=
    merges_of_sorted rfl (fun _ _ _ ↦ rfl) hsorted
  have hcoinbase (symbols : Coinbase.CoinbaseSymbolMapper) :
      Merges (CoinbaseReplay.loop symbols) records lifecycle :=
    merges_of_sorted rfl (fun k r hk ↦ RawEventReader.readAll_contiguous c hsize hk) hsorted
  refine ⟨hkraken, hcoinbase, ?_⟩
  intro hcomplete
  have hwithin : ∀ event ∈ lifecycle, event.beforeRecordIndex ≤ records.length :=
    fun event he ↦ (hbounds event he).2 (decide_eq_true hcomplete)
  refine ⟨List.filter_eq_self.mpr fun event he ↦ decide_eq_true (hwithin event he), ?_, ?_⟩
  · intro crc start replay remaining hr
    rw [(hkraken crc).nothing_left hwithin hr, hcomplete]
    rfl
  · intro symbols start replay remaining hr
    rw [(hcoinbase symbols).nothing_left hwithin hr, hcomplete]
    rfl

/-- A message that changes no book. -/
def subscriptions : Bytes := ascii "\x7b\"channel\":\"subscriptions\"\x7d"

/-- Two messages, each on a connection of its own; the second one cannot be read. -/
def twoCalls (venue : KnownVenue) : List AppendCall :=
  [⟨venue, 1, 0, 3, subscriptions⟩, ⟨venue, 2, 1, 12, ascii "x"⟩]

/-- The recording of the two messages. -/
def twoConnections (venue : KnownVenue) : Bytes :=
  ((RawEventRecorder.create false).appendAll (twoCalls venue)).1.output

/-- Events before two records, between them, behind them and beyond them. -/
def fiveEvents : List LifecycleEntry :=
  [⟨0, ascii "RESYNCING", ascii "connecting"⟩, ⟨1, ascii "DISCONNECTED", ascii "connection_lost"⟩,
    ⟨1, ascii "INITIALIZING", ascii "connected"⟩, ⟨2, ascii "STALE", ascii "feed_silent"⟩,
    ⟨7, ascii "INVALID", ascii "shutdown"⟩]

/-- In a session that failed the event beyond the records is left over; without it the session can
be complete. -/
theorem lifecycle_merged_two :
    let records := ((RawEventReader.create (some (twoConnections .kraken))).readAll 3).1
    records.map (·.connectionId) = [1, 2] ∧
      fiveEvents.filter (·.beforeRecordIndex ≤ records.length) = fiveEvents.take 4 ∧
      (∀ crc, Merges (KrakenReplay.loop crc) records fiveEvents) ∧
      (∀ symbols, Merges (CoinbaseReplay.loop symbols) records fiveEvents) ∧
      ∀ crc start replay remaining,
        (KrakenReplay.loop crc).run 0 start records (fiveEvents.take 4) = .ok (replay, remaining) →
          KrakenReplay.finish .complete replay remaining = .ok replay := by
  intro records
  have hsize : ∀ bytes, some (twoConnections .kraken) = some bytes → bytes.length < 2 ^ 64 := by
    rintro bytes ⟨⟩
    decide +kernel
  have hfailed : validateLifecycle (SessionStatus.interrupted = .complete) records.length 0
      fiveEvents = .ok () := by
    decide +kernel
  have hcomplete : validateLifecycle (SessionStatus.complete = .complete) records.length 0
      (fiveEvents.take 4) = .ok () := by
    decide +kernel
  obtain ⟨kraken, coinbase, -⟩ := lifecycle_merged _ hsize 3 .interrupted fiveEvents hfailed
  obtain ⟨-, -, complete⟩ := lifecycle_merged _ hsize 3 .complete (fiveEvents.take 4) hcomplete
  exact ⟨by decide +kernel, by decide +kernel, kraken, coinbase, (complete rfl).2.1⟩

end ArbitrageEngine.Sessions
