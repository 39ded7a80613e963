import ArbitrageEngine.Session.LifecycleMerge
import ArbitrageEngine.Session.Replay

/-!
# The order of connections in a recording

A recorder numbers its connections upwards, so a recording in which an earlier connection comes
back has been put together by someone else. Three loops read recordings: the two branches of
`sessions::replay` and the loop of `--replay FILE`. Here it is shown which of them refuse such a
recording.
-/

namespace ArbitrageEngine.Sessions

open Base ArbitrageEngine.Core Coinbase Json Kraken Pipeline Recording

/-- The records are numbered from zero. -/
def Contiguous (records : List RawMessage) : Prop :=
  ∀ (k : Nat) (e : RawMessage), records[k]? = some e → e.recordIndex = k

/-- The reader checks the numbers. -/
theorem contiguous_rawRecords {file : Bytes} (h : file.length < 2 ^ 64) :
    Contiguous (rawRecords file) := by
  have hsize : ∀ bytes, some file = some bytes → bytes.length < 2 ^ 64 := by
    rintro bytes ⟨⟩
    exact h
  intro k e hk
  exact RawEventReader.readAll_contiguous (file.length + 1) hsize hk

/-- Connection ids never decrease along the records. -/
def Ordered (records : List RawMessage) : Prop :=
  records.Pairwise fun a b ↦ a.connectionId ≤ b.connectionId

instance (records : List RawMessage) : Decidable (Ordered records) :=
  inferInstanceAs (Decidable (records.Pairwise _))

/-- It is enough to compare every record with the one before it. -/
theorem ordered_of_last {records : List RawMessage}
    (h : ∀ (read : List RawMessage) (e : RawMessage) (rest : List RawMessage),
      records = read ++ e :: rest →
      ∀ last ∈ read.getLast?, last.connectionId ≤ e.connectionId) : Ordered records := by
  induction records using List.reverseRecOn with
  | nil => exact List.Pairwise.nil
  | append_singleton records e ih =>
    have hfront : Ordered records := by
      refine ih fun read other rest hsplit ↦ h read other (rest ++ [e]) ?_
      rw [hsplit, List.append_assoc, List.cons_append]
    refine List.pairwise_append.mpr ⟨hfront, List.pairwise_singleton _ _, ?_⟩
    intro other hother e' he'
    rw [List.mem_singleton.mp he']
    obtain ⟨front, last, rfl⟩ := List.eq_nil_or_concat' records |>.resolve_left
      (List.ne_nil_of_mem hother)
    have hlast : last.connectionId ≤ e.connectionId :=
      h (front ++ [last]) e [] rfl last List.getLast?_concat
    rcases List.mem_append.mp hother with hother | hother
    · have hle := (List.pairwise_append.mp hfront).2.2 other hother last List.mem_cons_self
      exact Nat.le_trans hle hlast
    · rw [List.mem_singleton.mp hother]
      exact hlast

private theorem Ordered.last_le {read rest : List RawMessage} {e last : RawMessage}
    (h : Ordered (read ++ e :: rest)) (hl : last ∈ read.getLast?) :
    last.connectionId ≤ e.connectionId :=
  (List.pairwise_append.mp h).2.2 last (List.mem_of_getLast? hl) e List.mem_cons_self

/-! ### The Kraken branch -/

namespace KrakenReplay

variable {crc : Bytes → UInt32} {processor : KrakenBookProcessor} {records : List RawMessage}
  {lifecycle : List LifecycleEntry}

/-- `connection` is that of the last record. -/
def Follows (read : List RawMessage) (replay : KrakenReplay) : Prop :=
  replay.connection = read.getLast?.map RawMessage.connectionId

private theorem follows_of_reaches {read : List RawMessage} {e : RawMessage} {after : KrakenReplay}
    (h : (loop crc).Reaches 0 (initial processor) records lifecycle read e after) :
    Follows read after := by
  have hstart : Follows [] (initial processor) := rfl
  refine h.invariant (I := Follows) (J := Follows) (fun _ _ hs ↦ hs) ?_ ?_ hstart
  · intro read s event s' hs hevent
    cases hevent
    rw [Follows, assign_connection]
    exact hs
  · intro read s e s' _ hrecord
    simp only [loop, replayRecord] at hrecord
    split at hrecord
    · cases hrecord
    · cases hrecord
      rw [Follows, recorded_connection, reconnect_connection, List.getLast?_concat]
      rfl

/-- A record is refused exactly if the one before it has a greater id. -/
theorem regresses_iff {read : List RawMessage} {s : KrakenReplay} (h : Follows read s)
    (e : RawMessage) :
    s.connection.any (e.connectionId < ·) = true ↔
      ∃ last ∈ read.getLast?, e.connectionId < last.connectionId := by
  rw [h]
  cases read.getLast? <;> simp

/-- No lifecycle event stops the loop. -/
theorem event_ok (event : LifecycleEntry) (s : KrakenReplay) :
    ∃ s', (loop crc).event s event = .ok s' :=
  ⟨_, rfl⟩

private theorem ordered_of_run {result : KrakenReplay × List LifecycleEntry}
    (h : (loop crc).run 0 (initial processor) records lifecycle = .ok result) :
    Ordered records := by
  apply ordered_of_last
  rintro read e rest rfl last hlast
  obtain ⟨after, next, hreaches, hnext⟩ := Weave.exists_reaches h
  by_contra hless
  have hrefused := (regresses_iff (follows_of_reaches hreaches) e).mpr ⟨last, hlast, by omega⟩
  simp only [loop, replayRecord, if_pos hrefused] at hnext
  cases hnext

/-- The loop comes to the end of ordered records, and stops with its own error in others. -/
theorem run_cases (crc : Bytes → UInt32) (processor : KrakenBookProcessor)
    (records : List RawMessage) (lifecycle : List LifecycleEntry) :
    (Ordered records ∧
        ∃ result, (loop crc).run 0 (initial processor) records lifecycle = .ok result) ∨
      (¬Ordered records ∧ (loop crc).run 0 (initial processor) records lifecycle =
        runtimeError "connection order regression") := by
  cases hrun : (loop crc).run 0 (initial processor) records lifecycle with
  | ok result => exact .inl ⟨ordered_of_run hrun, result, rfl⟩
  | error failure =>
    obtain ⟨read, e, after, hreaches, herror⟩ :=
      (Weave.run_error_iff fun event _ ↦ event_ok event).mp hrun
    simp only [loop, replayRecord] at herror
    split at herror
    · next hrefused =>
      obtain ⟨last, hlast, hless⟩ := (regresses_iff (follows_of_reaches hreaches) e).mp hrefused
      cases herror
      refine .inr ⟨fun hordered ↦ ?_, rfl⟩
      obtain ⟨rest, rfl⟩ := hreaches.records_eq
      have hle := hordered.last_le hlast
      omega
    · cases herror

end KrakenReplay

/-- A Kraken session that replays has its records in order. -/
theorem ordered_of_replayKraken {crc : Bytes → UInt32} {depth : Nat} {status : SessionStatus}
    {records : List RawMessage} {lifecycle : List LifecycleEntry} {replay : KrakenReplay}
    (h : replayKraken crc depth status records lifecycle = .ok replay) : Ordered records := by
  obtain ⟨-, -, h⟩ := bind_ok h
  obtain ⟨processor, -, h⟩ := bind_ok h
  obtain ⟨result, hrun, -⟩ := bind_ok h
  exact KrakenReplay.ordered_of_run hrun

/-- What is published for a Kraken session comes from ordered records. -/
theorem ordered_of_replay {env : Surroundings} {crc : Bytes → UInt32}
    {allowIncomplete includeFinalBook : Bool} {final inProgress : Option Bytes}
    {session : OpenSession} {result : Value}
    (ho : openSession env allowIncomplete final inProgress = .ok session)
    (h : replay env crc allowIncomplete includeFinalBook final inProgress = .ok result)
    (hk : session.validated.venue = .kraken) : Ordered session.records := by
  obtain ⟨branch, hbranch, -⟩ := replay_ok ho h
  obtain ⟨-, replay, -, hreplay⟩ := branch_kraken hk hbranch
  exact ordered_of_replayKraken hreplay

/-! ### The legacy loop -/

namespace LegacyReplay

/-- The loop comes to the end of ordered records of Coinbase. -/
theorem loop_ended_iff (replay : LegacyReplay) (records : List RawMessage) :
    (replay.loop records).2 = true ↔
      (∀ e ∈ records, e.venue = .coinbase ∧ replay.connectionId ≤ e.connectionId) ∧
        Ordered records := by
  induction records generalizing replay with
  | nil => exact ⟨fun _ ↦ ⟨List.forall_mem_nil _, List.Pairwise.nil⟩, fun _ ↦ rfl⟩
  | cons e records ih =>
    rw [loop, List.forall_mem_cons, Ordered, List.pairwise_cons]
    split
    · next hrefused =>
      refine ⟨nofun, fun h ↦ ?_⟩
      rcases hrefused with hvenue | hless
      · exact absurd h.1.1.1 hvenue
      · exact absurd h.1.1.2 (Nat.not_le.mpr hless)
    · next haccepted =>
      rw [not_or, not_not, Nat.not_lt] at haccepted
      rw [ih]
      constructor
      · rintro ⟨hall, hordered⟩
        refine ⟨⟨haccepted, fun other hother ↦ ⟨(hall other hother).1, ?_⟩⟩,
          fun other hother ↦ (hall other hother).2, hordered⟩
        exact Nat.le_trans haccepted.2 (hall other hother).2
      · rintro ⟨⟨-, hall⟩, hfirst, hordered⟩
        exact ⟨fun other hother ↦ ⟨(hall other hother).1, hfirst other hother⟩, hordered⟩

/-- A loop that was left has reported why. -/
theorem loop_left {replay : LegacyReplay} {records : List RawMessage}
    (h : (replay.loop records).2 = false) :
    (replay.loop records).1.error = ascii "expected ordered Coinbase connection IDs" := by
  induction records generalizing replay with
  | nil => cases h
  | cons e records ih =>
    rw [loop] at h ⊢
    split at h
    · next hrefused =>
      rw [if_pos hrefused]
      rfl
    · next haccepted =>
      rw [if_neg haccepted]
      exact ih h

end LegacyReplay

/-- Records out of order are reported, whatever the reader says. -/
theorem legacyReplay_unordered {records : List RawMessage} (h : ¬Ordered records)
    (readError : Bytes) :
    (legacyReplay records readError).error = ascii "expected ordered Coinbase connection IDs" := by
  have hleft : (LegacyReplay.initial.loop records).2 = false := by
    rw [← Bool.not_eq_true, LegacyReplay.loop_ended_iff]
    exact fun hended ↦ h hended.2
  have herror := LegacyReplay.loop_left hleft
  unfold legacyReplay
  split
  · next hended =>
    rw [hended] at hleft
    cases hleft
  · next hloop =>
    rw [hloop] at herror
    exact herror

/-! ### The Coinbase branch -/

private theorem validateLifecycle_names {complete : Bool} {records last : Nat}
    {lifecycle : List LifecycleEntry}
    (h : validateLifecycle complete records last lifecycle = .ok ()) :
    ∀ event ∈ lifecycle, event.state ∈ lifecycleStates := by
  induction lifecycle generalizing last with
  | nil => exact List.forall_mem_nil _
  | cons event rest ih =>
    rw [validateLifecycle] at h
    split at h
    · cases h
    · next hok =>
      rw [not_or, not_or, not_not] at hok
      exact List.forall_mem_cons.mpr ⟨hok.2.2, ih h⟩

namespace CoinbaseReplay

variable {symbols : CoinbaseSymbolMapper} {records : List RawMessage}
  {lifecycle : List LifecycleEntry}

/-- The loop comes to a heartbeats message on which `parse_heartbeat` throws. -/
def Halts (symbols : CoinbaseSymbolMapper) (records : List RawMessage)
    (lifecycle : List LifecycleEntry) : Prop :=
  ∃ read e after, (loop symbols).Reaches 0 (start lifecycle) records lifecycle read e after ∧
    Feed.HeartbeatThrows symbols (after.reconnect e).feed.sequence e

/-- No lifecycle event with a known name stops the loop. -/
theorem event_ok {event : LifecycleEntry} (h : event.state ∈ lifecycleStates)
    (s : CoinbaseReplay) : ∃ s', (loop symbols).event s event = .ok s' := by
  have hnamed : ∀ name ∈ lifecycleStates, (stateNamed name).isSome = true := by decide +kernel
  obtain ⟨state, hstate⟩ := Option.isSome_iff_exists.mp (hnamed event.state h)
  simp only [loop, applyLifecycle, hstate]
  exact ⟨_, rfl⟩

/-- A record stops the loop exactly if `process` throws. The id is not compared. -/
theorem replayRecord_error_iff (replay : CoinbaseReplay) (e : RawMessage) :
    (∃ failure, replay.replayRecord symbols e = .error failure) ↔
      Feed.HeartbeatThrows symbols (replay.reconnect e).feed.sequence e := by
  rw [← Feed.process_throws_iff symbols (replay.reconnect e).feed e e.receiveMonotonicTime]
  unfold replayRecord
  cases hp : (replay.reconnect e).feed.process symbols e e.receiveMonotonicTime with
  | mk feed outcome => cases outcome <;> simp [hp]

private theorem run_error_iff_halts (h : ∀ event ∈ lifecycle, event.state ∈ lifecycleStates) :
    (∃ failure, (loop symbols).run 0 (start lifecycle) records lifecycle = .error failure) ↔
      Halts symbols records lifecycle := by
  have hevent : ∀ event ∈ lifecycle, ∀ s, ∃ s', (loop symbols).event s event = .ok s' :=
    fun event hm ↦ event_ok (h event hm)
  simp only [Weave.run_error_iff hevent]
  constructor
  · rintro ⟨failure, read, e, after, hreaches, herror⟩
    exact ⟨read, e, after, hreaches, (replayRecord_error_iff after e).mp ⟨failure, herror⟩⟩
  · rintro ⟨read, e, after, hreaches, hthrows⟩
    obtain ⟨failure, herror⟩ := (replayRecord_error_iff after e).mpr hthrows
    exact ⟨failure, read, e, after, hreaches, herror⟩

end CoinbaseReplay

/-- The branch fails on invalid lifecycle events and on heartbeats, and on nothing else. -/
theorem replayCoinbase_isOk_iff (symbols : CoinbaseSymbolMapper) (status : SessionStatus)
    {records : List RawMessage} (lifecycle : List LifecycleEntry)
    (hi : Contiguous records) :
    (replayCoinbase symbols status records lifecycle).isOk = true ↔
      validateLifecycle (status = .complete) records.length 0 lifecycle = .ok () ∧
        ¬CoinbaseReplay.Halts symbols records lifecycle := by
  unfold replayCoinbase
  cases hvalid : validateLifecycle (status = .complete) records.length 0 lifecycle with
  | error failure => exact ⟨nofun, fun h ↦ nomatch h.1⟩
  | ok _ =>
    rw [← CoinbaseReplay.run_error_iff_halts (validateLifecycle_names hvalid)]
    cases hrun : (CoinbaseReplay.loop symbols).run 0 (.start lifecycle) records lifecycle with
    | error failure =>
      exact ⟨nofun, fun h ↦ absurd ⟨failure, rfl⟩ h.2⟩
    | ok result =>
      obtain ⟨hsorted, hbounds⟩ := validateLifecycle_ok hvalid
      have hmerges : Merges (CoinbaseReplay.loop symbols) records lifecycle :=
        merges_of_sorted rfl hi hsorted
      have hfinish : (CoinbaseReplay.finish status result.1 result.2).isOk = true := by
        unfold CoinbaseReplay.finish
        split
        · next hleft =>
          have hwithin : ∀ event ∈ lifecycle, event.beforeRecordIndex ≤ records.length :=
            fun event he ↦ (hbounds event he).2 (decide_eq_true hleft.1)
          exact absurd (hmerges.nothing_left hwithin hrun) hleft.2
        · split <;> rfl
      exact ⟨fun _ ↦ ⟨rfl, nofun⟩, fun _ ↦ hfinish⟩

/-! ### All three -/

/-- For records with contiguous indexes and of one venue: the Kraken branch and the legacy loop
come to the end of ordered records only and report all others; the Coinbase branch does not
compare ids, so it refuses records out of order only if something else stops it. What is published
for Kraken comes from ordered records. -/
theorem record_order_enforced_iff (symbols : CoinbaseSymbolMapper) (crc : Bytes → UInt32)
    (status : SessionStatus) (lifecycle : List LifecycleEntry) (records : List RawMessage)
    (venue : Venue) (hi : Contiguous records)
    (hv : ∀ e ∈ records, e.venue = venue) :
    (∀ processor,
      let result := (KrakenReplay.loop crc).run 0 (.initial processor) records lifecycle
      (result.isOk = true ↔ Ordered records) ∧
      (¬Ordered records → result = runtimeError "connection order regression")) ∧
    (((LegacyReplay.initial.loop records).2 = true ↔
        records = [] ∨ venue = .coinbase ∧ Ordered records) ∧
      ∀ readError, ¬Ordered records → (legacyReplay records readError).error ≠ []) ∧
    (((replayCoinbase symbols status records lifecycle).isOk = true → Ordered records) ↔
      Ordered records ∨
        validateLifecycle (status = .complete) records.length 0 lifecycle ≠ .ok () ∨
        CoinbaseReplay.Halts symbols records lifecycle) ∧
    (∀ env allowIncomplete includeFinalBook final inProgress session result,
      openSession env allowIncomplete final inProgress = .ok session →
      replay env crc allowIncomplete includeFinalBook final inProgress = .ok result →
      session.validated.venue = .kraken → Ordered session.records) := by
  refine ⟨fun processor ↦ ?_, ⟨?_, fun readError h ↦ ?_⟩, ?_, ?_⟩
  · rcases KrakenReplay.run_cases crc processor records lifecycle with
      ⟨hordered, result, hrun⟩ | ⟨hunordered, hrun⟩
    · rw [hrun]
      exact ⟨⟨fun _ ↦ hordered, fun _ ↦ rfl⟩, fun h ↦ absurd hordered h⟩
    · rw [hrun]
      exact ⟨⟨nofun, fun h ↦ absurd h hunordered⟩, fun _ ↦ rfl⟩
  · rw [LegacyReplay.loop_ended_iff]
    cases records with
    | nil => exact ⟨fun _ ↦ .inl rfl, fun _ ↦ ⟨List.forall_mem_nil _, List.Pairwise.nil⟩⟩
    | cons e records =>
      constructor
      · rintro ⟨hall, hordered⟩
        have hvenue := hv e List.mem_cons_self
        exact .inr ⟨hvenue.symm.trans (hall e List.mem_cons_self).1, hordered⟩
      · rintro (hnil | ⟨rfl, hordered⟩)
        · cases hnil
        · exact ⟨fun other hother ↦ ⟨hv other hother, Nat.zero_le _⟩, hordered⟩
  · rw [legacyReplay_unordered h readError]
    decide
  · rw [replayCoinbase_isOk_iff symbols status lifecycle hi]
    tauto
  · intro env allowIncomplete includeFinalBook final inProgress session result hopen hreplay hkraken
    exact ordered_of_replay hopen hreplay hkraken

/-- A recording in which the first connection comes back behind the second one. -/
def reordered : Bytes :=
  ((RawEventRecorder.create false).appendAll
    [⟨.coinbase, 1, 0, 0, subscriptions⟩, ⟨.coinbase, 2, 1, 1, subscriptions⟩,
      ⟨.coinbase, 1, 2, 2, subscriptions⟩]).1.output

private theorem contiguous_reordered : Contiguous (rawRecords reordered) :=
  contiguous_rawRecords (by decide +kernel)

private theorem venue_reordered :
    ∀ e ∈ rawRecords reordered, e.venue = .coinbase := by decide +kernel

private theorem unordered_reordered : ¬Ordered (rawRecords reordered) := by decide +kernel

/-- The Kraken branch and the legacy loop refuse it. -/
theorem record_order_enforced_iff_reordered :
    ¬Ordered (rawRecords reordered) ∧
      (∀ processor, (KrakenReplay.loop Crc.crc32).run 0 (.initial processor) (rawRecords reordered)
        [] = runtimeError "connection order regression") ∧
      (legacyReplay (rawRecords reordered) []).error ≠ [] := by
  obtain ⟨hkraken, hlegacy, -⟩ := record_order_enforced_iff .default Crc.crc32 .complete []
    (rawRecords reordered) .coinbase contiguous_reordered venue_reordered
  exact ⟨unordered_reordered, fun processor ↦ (hkraken processor).2 unordered_reordered,
    hlegacy.2 [] unordered_reordered⟩

/-- A session directory with this recording. -/
def reorderedDirectory : Surroundings := directoryWith (some reordered)

/-- The status of a capture that has written three records and was stopped. -/
def stoppedStatus : RuntimeStatus where
  runtimeState := .stopped
  receivedMessages := 3
  enqueuedMessages := 3
  writtenMessages := 3
  processedMessages := 3
  progress := ⟨some 2, some 2, some 2, some 2⟩

/-- A manifest for the recording, the session and its replay. -/
def reorderedReplay : Except Failure (Bytes × OpenSession × Value) := do
  let capture ← Capture.create reorderedDirectory.sha256 .coinbase 100 true ⟨[], [], [], [], [], []⟩
  let manifest ← capture.finalize reorderedDirectory.sha256 [] (some reordered) stoppedStatus
  let session ← openSession reorderedDirectory false (some manifest) none
  let result ← replay reorderedDirectory Crc.crc32 false false (some manifest) none
  return (manifest, session, result)

/-- The Coinbase branch replays it to its end, and the result is marked as valid research. -/
theorem reordered_research_valid :
    ∃ manifest session result,
      openSession reorderedDirectory false (some manifest) none = .ok session ∧
      session.file = reordered ∧ Contiguous session.records ∧
      (∀ e ∈ session.records, e.venue = .coinbase) ∧ ¬Ordered session.records ∧
      replay reorderedDirectory Crc.crc32 false false (some manifest) none = .ok result ∧
      researchValid result = true := by
  have hmarked : (reorderedReplay.toOption.map fun (_, session, result) ↦
      (session.file, researchValid result)) = some (reordered, true) := by
    decide +kernel
  obtain ⟨⟨manifest, session, result⟩, hsome, hchecked⟩ := Option.map_eq_some_iff.mp hmarked
  obtain ⟨hfile, hvalid⟩ := Prod.mk.inj hchecked
  have hreplay : reorderedReplay = .ok (manifest, session, result) := by
    cases h : reorderedReplay with
    | error failure =>
      rw [h] at hsome
      cases hsome
    | ok replayed =>
      rw [h] at hsome
      cases hsome
      rfl
  obtain ⟨capture, -, hreplay⟩ := bind_ok hreplay
  obtain ⟨written, -, hreplay⟩ := bind_ok hreplay
  obtain ⟨opened, hopened, hreplay⟩ := bind_ok hreplay
  obtain ⟨published, hpublished, hreplay⟩ := bind_ok hreplay
  cases hreplay
  have hrecords : session.records = rawRecords reordered := congrArg rawRecords hfile
  refine ⟨manifest, session, result, hopened, hfile, ?_, ?_, ?_, hpublished, hvalid⟩
  · rw [hrecords]
    exact contiguous_reordered
  · rw [hrecords]
    exact venue_reordered
  · rw [hrecords]
    exact unordered_reordered

end ArbitrageEngine.Sessions
