import ArbitrageEngine.Pipeline.Reasons
import ArbitrageEngine.Session.Completeness

/-!
# When the final manifest can be published

`src/session/session.cpp`: `Capture::finalize` writes the reasons of all lifecycle events into
the manifest, and the serializer throws if a text is not UTF-8. Whether a capture that was stopped
cleanly leaves a manifest depends on the texts that its runtime has taken over.
-/

namespace ArbitrageEngine.Sessions

open Base ArbitrageEngine.Core Coinbase Json Kraken Pipeline Recording

/-! ### Values that can be written -/

/-- A document is published exactly if it is UTF-8. -/
theorem publish_isOk_iff (value : Value) : (publish value).isOk = true ↔ value.Utf8 := by
  rw [← dumpValue_isOk_iff (some 2) 0 value]
  unfold publish dump
  cases dumpValue (some 2) 0 value <;> rfl

/-- An object of fields in UTF-8. -/
theorem utf8_objectOf {fields : List (Bytes × Value)} (h : Value.Utf8Fields fields) :
    (objectOf fields).Utf8 :=
  utf8Fields_insertFields h trivial

/-- A value or its default. -/
theorem utf8_getD {value : Option Value} {fallback : Value} (h : ∀ item ∈ value, item.Utf8)
    (hf : fallback.Utf8) : (value.getD fallback).Utf8 := by
  cases value with
  | none => exact hf
  | some item => exact h item rfl

/-- An index or null. -/
theorem utf8_optionalIndex (index : Option Nat) : (optionalIndex index).Utf8 := by
  cases index <;> trivial

/-- The names of the states. -/
theorem isUtf8_bookName (state : BookState) : IsUtf8 (bookName state) := by
  cases state <;> exact isUtf8_ascii _

private theorem isUtf8_statusName (status : SessionStatus) : IsUtf8 (statusName status) := by
  cases status <;> exact isUtf8_ascii _

private theorem isUtf8_venueName (venue : KnownVenue) : IsUtf8 (venueName venue) := by
  cases venue <;> exact isUtf8_ascii _

private theorem isUtf8_rawPath (venue : KnownVenue) : IsUtf8 (rawPath venue) :=
  ((isUtf8_ascii _).append (isUtf8_venueName venue)).append (isUtf8_ascii _)

/-- An event can be written exactly if its reason can. -/
theorem utf8_eventValue (event : LifecycleEvent) :
    (eventValue event).Utf8 ↔ IsUtf8 event.reason := by
  constructor
  · intro h
    have hreason : (eventValue event).find? (ascii "reason") = some (.string event.reason) := rfl
    exact h.find? hreason
  · intro h
    unfold eventValue
    apply utf8_objectOf
    exact ⟨⟨isUtf8_ascii _, trivial⟩, ⟨isUtf8_ascii _, isUtf8_bookName event.state⟩,
      ⟨isUtf8_ascii _, h⟩, trivial⟩

private theorem utf8_events (events : List LifecycleEvent) :
    (Value.array (events.map eventValue)).Utf8 ↔ ∀ event ∈ events, IsUtf8 event.reason := by
  rw [Value.Utf8, utf8Items_iff, List.forall_mem_map]
  exact forall₂_congr fun event _ ↦ utf8_eventValue event

/-- The metrics are numbers. -/
theorem utf8_metricsValue (metrics : KrakenMetrics) : (metricsValue metrics).Utf8 := by
  rw [metricsValue, objectOf, Value.Utf8, utf8Fields_iff]
  intro field hf
  have hmem := (mem_insertFields hf).resolve_right List.not_mem_nil
  simp only [List.mem_cons, List.not_mem_nil, or_false] at hmem
  rcases hmem with rfl | rfl | rfl | rfl | rfl | rfl | rfl | rfl | rfl | rfl | rfl | rfl | rfl
  all_goals exact ⟨isUtf8_ascii _, trivial⟩

namespace Capture

/-! ### The manifest -/

/-- The fields of the capture can be written. -/
structure Writable (capture : Capture) : Prop where
  fields : Value.Utf8Fields capture.fields
  raw : Value.Utf8Fields capture.raw

/-- The manifest of a writable capture is UTF-8. -/
theorem Writable.manifest {capture : Capture} (h : capture.Writable) : capture.manifest.Utf8 :=
  utf8Fields_insertField (isUtf8_ascii _) ⟨h.raw, trivial⟩ h.fields

private theorem fields_of_manifest {capture : Capture} (h : capture.manifest.Utf8)
    (hk : ∀ field ∈ capture.fields, ascii "raw_files" ≠ field.1) :
    Value.Utf8Fields capture.fields :=
  utf8Fields_of_insertField h hk

/-- No configuration has a raw file. -/
theorem configurationOf_keys {depth : Nat} {venue : KnownVenue} {fields : List (Bytes × Value)}
    (h : configurationOf depth venue = .ok fields) :
    ascii "raw_files" ∉ fields.map Prod.fst := by
  cases venue with
  | coinbase =>
    cases h
    decide +kernel
  | kraken =>
    simp only [configurationOf, krakenConfiguration] at h
    split at h
    · cases h
      show ascii "raw_files" ∉ [ascii "venues", ascii "instruments", ascii "venue_symbols",
        ascii "subscriptions", ascii "product_metadata", ascii "processor_version"]
      decide +kernel
    · cases h

/-- The constructor publishes its manifest, so it has found no other texts. -/
theorem create_writable {sha256 : Bytes → Bytes} {venue : KnownVenue} {depth : Nat} {isNew : Bool}
    {labels : Labels} {capture : Capture}
    (h : create sha256 venue depth isNew labels = .ok capture) : capture.Writable := by
  unfold create at h
  obtain ⟨-, h⟩ := check_ok h
  obtain ⟨fields, hconfig, h⟩ := bind_ok h
  obtain ⟨text, htext, h⟩ := bind_ok h
  obtain ⟨written, hwritten, h⟩ := bind_ok h
  cases h
  have hmanifest := (publish_isOk_iff _).mp (congrArg Except.isOk hwritten)
  refine ⟨fields_of_manifest hmanifest fun field hf ↦ ?_, ?_⟩
  · have hstart : ascii "raw_files" ∉ (startFields labels (sha256 text)).map Prod.fst := by
      show ascii "raw_files" ∉ [ascii "format_version", ascii "session_id", ascii "status",
        ascii "started_at_utc", ascii "application", ascii "platform", ascii "configuration_hash"]
      decide +kernel
    intro hkey
    rcases mem_insertFields hf with hf | hf
    · exact hstart (hkey ▸ List.mem_map_of_mem hf)
    · exact configurationOf_keys hconfig
        (hkey ▸ List.mem_map_of_mem ((mem_insertFields hf).resolve_right List.not_mem_nil))
  · exact utf8Fields_insertFields ⟨⟨isUtf8_ascii _, isUtf8_venueName venue⟩,
      ⟨isUtf8_ascii _, isUtf8_rawPath venue⟩, trivial⟩ trivial

private theorem Writable.setMetrics {capture : Capture} (h : capture.Writable)
    (metrics : Option KrakenMetrics) : (capture.setMetrics metrics).Writable := by
  refine ⟨utf8Fields_insertField (isUtf8_ascii _) (utf8_getD ?_ trivial) h.fields, h.raw⟩
  intro item hitem
  obtain ⟨given, -, rfl⟩ := Option.map_eq_some_iff.mp hitem
  exact utf8_metricsValue given

private theorem Writable.setFinalBookHash {capture : Capture} (h : capture.Writable)
    {hash : Option Bytes} (hh : ∀ text ∈ hash, IsUtf8 text) :
    (capture.setFinalBookHash hash).Writable := by
  cases hash with
  | none => exact h
  | some text =>
    exact ⟨utf8Fields_insertField (isUtf8_ascii _) (hh text rfl) h.fields, h.raw⟩

private theorem utf8_statusFields {status : RuntimeStatus} {endedAt runtime : Bytes}
    (hevents : ∀ event ∈ status.lifecycleEvents, IsUtf8 event.reason)
    (hfatal : status.fatalError = none) (hended : IsUtf8 endedAt) (hruntime : IsUtf8 runtime) :
    Value.Utf8Fields (statusFields status endedAt runtime) := by
  rw [utf8Fields_iff]
  intro field hf
  simp only [statusFields, List.mem_cons, List.not_mem_nil, or_false] at hf
  rcases hf with rfl | rfl | rfl | rfl | rfl | rfl | rfl | rfl | rfl | rfl <;>
    refine ⟨isUtf8_ascii _, ?_⟩
  · exact (utf8_events _).mpr hevents
  · exact hruntime
  · exact hended
  · rw [hfatal]
    exact isUtf8_ascii _
  · exact utf8_optionalIndex _
  · exact utf8_optionalIndex _
  · exact utf8_optionalIndex _
  · exact utf8_optionalIndex _
  · trivial
  · trivial

private theorem utf8_rawFields {sha256 : Bytes → Bytes} (hsha : ∀ file, IsUtf8 (sha256 file))
    (status : RuntimeStatus) (file : Bytes) : Value.Utf8Fields (rawFields sha256 status file) := by
  rw [utf8Fields_iff]
  intro field hf
  simp only [rawFields, List.mem_cons, List.not_mem_nil, or_false] at hf
  rcases hf with rfl | rfl | rfl | rfl | rfl <;> refine ⟨isUtf8_ascii _, ?_⟩
  · trivial
  · exact hsha file
  · trivial
  · dsimp only
    split <;> trivial
  · exact utf8_optionalIndex _

private theorem utf8_scanned (venue : KnownVenue) (status : RuntimeStatus) (outcome : SessionStatus)
    (file : Option Bytes) : Value.Utf8Fields (scanned venue status outcome file).1 := by
  unfold scanned
  split
  · split
    · exact ⟨⟨isUtf8_ascii _, trivial⟩, trivial⟩
    · trivial
  · exact ⟨⟨isUtf8_ascii _, trivial⟩, trivial⟩

/-- The final fields can be written if the reasons and the texts of the surroundings can. -/
theorem Writable.withStatus {capture : Capture} (h : capture.Writable) {sha256 : Bytes → Bytes}
    (hsha : ∀ file, IsUtf8 (sha256 file)) {endedAt runtime : Bytes} (hended : IsUtf8 endedAt)
    (hruntime : IsUtf8 runtime) {status : RuntimeStatus} (hfatal : status.fatalError = none)
    (hevents : ∀ event ∈ status.lifecycleEvents, IsUtf8 event.reason) (file : Option Bytes)
    (outcome : SessionStatus) :
    (capture.withStatus sha256 endedAt file status outcome runtime).Writable := by
  have hstatus := (utf8Fields_iff _).mp (utf8_statusFields hevents hfatal hended hruntime)
  have hscanned := (utf8Fields_iff _).mp (utf8_scanned capture.venue status outcome file)
  refine ⟨utf8Fields_insertFields ((utf8Fields_iff _).mpr ?_) h.fields,
    utf8Fields_insertFields ?_ h.raw⟩
  · rw [List.forall_mem_append, List.forall_mem_append]
    refine ⟨⟨hstatus, hscanned⟩, fun field hf ↦ ?_⟩
    rw [List.mem_singleton.mp hf]
    exact ⟨isUtf8_ascii _, isUtf8_statusName _⟩
  · cases file with
    | none => trivial
    | some bytes => exact utf8_rawFields hsha status bytes

/-- The reasons are part of the final manifest. -/
theorem utf8_lifecycle {capture : Capture} {sha256 : Bytes → Bytes} {endedAt runtime : Bytes}
    {file : Option Bytes} {status : RuntimeStatus} {outcome : SessionStatus}
    (h : (capture.withStatus sha256 endedAt file status outcome runtime).manifest.Utf8) :
    ∀ event ∈ status.lifecycleEvents, IsUtf8 event.reason := by
  have hended := capture.withStatus_ended sha256 endedAt file status outcome runtime
  have hfind : (capture.withStatus sha256 endedAt file status outcome runtime).manifest.find?
      (ascii "lifecycle_events") = some (.array (status.lifecycleEvents.map eventValue)) := by
    change lookup _ (insertField _ _ _) = _
    rw [lookup_insertField, if_neg (by decide +kernel)]
    exact hended.lifecycle
  exact (utf8_events _).mp (h.find? hfind)

/-- `finalize` returns for a stopped run exactly if every reason is UTF-8. -/
theorem Writable.finalize_isOk_iff {capture : Capture} (h : capture.Writable)
    {sha256 : Bytes → Bytes} (hsha : ∀ file, IsUtf8 (sha256 file)) {endedAt : Bytes}
    (hended : IsUtf8 endedAt) (file : Option Bytes) {status : RuntimeStatus}
    (hs : status.runtimeState = .stopped) (hfatal : status.fatalError = none) :
    (capture.finalize sha256 endedAt file status).isOk = true ↔
      ∀ event ∈ status.lifecycleEvents, IsUtf8 event.reason := by
  have hfinalize : capture.finalize sha256 endedAt file status =
      publish (capture.withStatus sha256 endedAt file status .complete
        (ascii "Stopped")).manifest := by
    unfold finalize finalized
    rw [hs]
    rfl
  rw [hfinalize, publish_isOk_iff]
  constructor
  · exact utf8_lifecycle
  · intro hevents
    exact (h.withStatus hsha hended (isUtf8_ascii _) hfatal hevents file .complete).manifest

end Capture

/-! ### Runs -/

/-- A reason of the run is UTF-8 unless an action garbles it, and the manifest of a capture that
was stopped cleanly can be published exactly if none does. -/
def Publishes {σ ι : Type} (P : Program σ ι) (garbles : σ → ι → Prop) (start : System σ)
    (events : List (Event ι)) (finalize : RuntimeStatus → Except Failure Bytes) : Prop :=
  let s := start.run P events
  (start.Never P garbles events →
    ∀ event ∈ s.backend.shared.status.lifecycleEvents, IsUtf8 event.reason) ∧
  (s.finished = true → s.fatal = none →
    ((∀ event ∈ s.final.lifecycleEvents, IsUtf8 event.reason) ↔ start.Never P garbles events) ∧
    ((finalize s.final).isOk = true ↔ start.Never P garbles events))

section Runs

variable {σ ι : Type} {P : Program σ ι} {A : Accounts P}

private theorem publishes_run (R : Reasons A) {queue : RawQueueConfig} {market : σ}
    (hk : (System.create queue market).Kept A) {events : List (Event ι)} (hd : R.Delivers events)
    {capture : Capture} (hc : capture.Writable) {sha256 : Bytes → Bytes}
    (hsha : ∀ file, IsUtf8 (sha256 file)) {endedAt : Bytes} (hended : IsUtf8 endedAt)
    (file : Option Bytes) :
    Publishes P R.Garbles (System.create queue market) events
      (capture.finalize sha256 endedAt file) := by
  have hempty : (A.ledger (System.create queue market).market).Legible := by
    rw [← hk.ledger rfl]
    exact List.forall_mem_nil _
  have hlegible := (R.run_legible hk hd).trans (and_iff_right hempty)
  refine ⟨fun hnever event hevent ↦ ?_, fun hf hclean ↦ ?_⟩
  · have hfiled := R.run_filed hk (R.filed_of_kept hk rfl) events
    exact (hfiled event (.inl hevent)).elim (hlegible.mpr hnever event) id
  · have hkept := System.run_invariant (fun _ _ h hk ↦ h.kept hk) hk events
    have hledger := (System.final_ledger _).trans (hkept.ledger_eq hf (hkept.clean hf hclean).1)
    have hreasons : (∀ event ∈ ((System.create queue market).run P events).final.lifecycleEvents,
        IsUtf8 event.reason) ↔ (System.create queue market).Never P R.Garbles events := by
      rw [← hlegible, ← hledger]
      rfl
    have hfatal := (System.final_fatalError _).trans hclean
    have hstopped := (System.run_orderly queue market events).settled.1.mp hfatal
    exact ⟨hreasons, (hc.finalize_isOk_iff hsha hended file hstopped hfatal).trans hreasons⟩

end Runs

/-- For every run of `run_live` with a capture and of `run_kraken` whose payloads are all UTF-8:
the lifecycle reasons are UTF-8 as long as no error text that the JSON parser or the socket gives
for them is not, and only then is the manifest of a clean run published. -/
theorem lifecycle_reasons_publishable (sha256 : Bytes → Bytes) (endedAt : Bytes)
    (hsha : ∀ file, IsUtf8 (sha256 file)) (hended : IsUtf8 endedAt) (depth : Nat) (isNew : Bool)
    (labels : Labels) (queue : RawQueueConfig) (capture : Capture) (file : Option Bytes) :
    (∀ (clock : Nat → ReceiveMonotonicTimestamp) (config : FeedHealthConfig)
        (manager : CoinbaseConnectionManager) (events : List (Event LiveAction)),
      CoinbaseConnectionManager.create clock config = .ok manager →
      Capture.create sha256 .coinbase depth isNew labels = .ok capture →
      (∀ input, .callback input ∈ events → ∀ raw ∈ input.payload, IsUtf8 raw) →
      Publishes (liveProgram clock) LiveMarket.Garbles
        (System.create queue (LiveMarket.initial manager)) events
        (capture.finalize sha256 endedAt file)) ∧
    (∀ (crc : Bytes → UInt32) (limits : KrakenLimits) (processor : KrakenBookProcessor)
        (now : ReceiveMonotonicTimestamp) (events : List (Event KrakenMarket.Action))
        (metrics : Option KrakenMetrics) (hash : Option Bytes),
      Capture.create sha256 .kraken depth isNew labels = .ok capture →
      (∀ text ∈ hash, IsUtf8 text) →
      (∀ input, .callback input ∈ events → ∀ raw ∈ input.payload, IsUtf8 raw) →
      Publishes (krakenProgram crc limits) KrakenMarket.Garbles
        (System.create queue (KrakenMarket.initial processor now)) events
        (((capture.setMetrics metrics).setFinalBookHash hash).finalize sha256 endedAt file)) := by
  constructor
  · intro clock config manager events hmanager hcapture hdelivers
    exact publishes_run (liveReasons clock) (live_kept hmanager queue []) hdelivers
      (Capture.create_writable hcapture) hsha hended file
  · intro crc limits processor now events metrics hash hcapture hhash hdelivers
    exact publishes_run (krakenReasons crc limits) (kraken_kept crc limits processor now queue [])
      hdelivers (((Capture.create_writable hcapture).setMetrics metrics).setFinalBookHash hhash)
      hsha hended file

private theorem utf8_countDigest (text : Bytes) : IsUtf8 (countDigest text) :=
  isUtf8_of_isAscii (isAscii_countDigest text)

/-- The capture of a snapshot and an update is published, and a run of `run_kraken` that has lost
its disk is covered too. -/
theorem lifecycle_reasons_publishable_runs :
    ∃ manager processor live kraken,
      CoinbaseConnectionManager.create (fun n ↦ ⟨n⟩) {} = .ok manager ∧
      KrakenBookProcessor.create 10 = .ok processor ∧
      Capture.create countDigest .coinbase 10 true ⟨[], [], [], [], [], []⟩ = .ok live ∧
      Capture.create countDigest .kraken 10 true ⟨[], [], [], [], [], []⟩ = .ok kraken ∧
      (capturedSystem manager).backend.written.map (·.payload) =
        [CoinbaseConnectionManager.singleBid, CoinbaseConnectionManager.betterBid] ∧
      (System.create {} (LiveMarket.initial manager)).Never (liveProgram fun n ↦ ⟨n⟩)
        LiveMarket.Garbles capturedBook ∧
      Publishes (krakenProgram Crc.crc32 {}) KrakenMarket.Garbles
        (System.create {} (KrakenMarket.initial processor ⟨0⟩)) lostDisk
        (((kraken.setMetrics none).setFinalBookHash none).finalize countDigest []
          (lostSystem processor).backend.file) := by
  obtain ⟨manager, hmanager, hstopped, hclean, hwritten, -, hpublished⟩ := capturedSystem_ended
  obtain ⟨⟨live, text⟩, hlive⟩ := exists_ok_of_isOk hpublished
  obtain ⟨_, hcapture, hlive⟩ := bind_ok hlive
  obtain ⟨_, htext, hlive⟩ := bind_ok hlive
  cases hlive
  have hkraken : (Capture.create countDigest .kraken 10 true
      ⟨[], [], [], [], [], []⟩).isOk = true := by
    decide +kernel
  obtain ⟨kraken, hkraken⟩ := exists_ok_of_isOk hkraken
  have hpublishes := (lifecycle_reasons_publishable countDigest [] utf8_countDigest isUtf8_nil 10
    true ⟨[], [], [], [], [], []⟩ {} live (capturedSystem manager).backend.file).1 _ {} manager
    capturedBook hmanager hcapture
  have hnever := ((hpublishes ?_).2 hstopped hclean).2.mp (congrArg Except.isOk htext)
  · refine ⟨manager, _, live, kraken, hmanager, rfl, hcapture, hkraken, hwritten, hnever, ?_⟩
    refine (lifecycle_reasons_publishable countDigest [] utf8_countDigest isUtf8_nil 10 true
      ⟨[], [], [], [], [], []⟩ {} kraken _).2 _ {} _ ⟨0⟩ lostDisk none none hkraken nofun ?_
    intro input hinput raw hraw
    simp only [lostDisk, List.mem_cons, List.not_mem_nil, reduceCtorEq, Event.callback.injEq,
      or_false, false_or] at hinput
    rcases hinput with rfl | rfl
    · cases hraw
    · cases hraw
      exact isUtf8_nil
  · intro input hinput raw hraw
    simp only [capturedBook, List.mem_cons, List.not_mem_nil, reduceCtorEq, Event.callback.injEq,
      or_false, false_or] at hinput
    rcases hinput with rfl | rfl | rfl
    · cases hraw
    · cases hraw
      exact isUtf8_of_isAscii (by decide +kernel)
    · cases hraw
      exact isUtf8_of_isAscii (by decide +kernel)

/-- A capture of one message, the letter é, that is then stopped by the signal. -/
def garbledMessage : List (Event LiveAction) :=
  [.writer .prepared, .ready, .check false, .start ⟨0⟩, .proceed,
    .callback (.manager (.connected 1)), .proceed,
    .callback (.manager (.message 1 [0xC3, 0xA9] ⟨0⟩ ⟨0⟩ (.returned .accepted) ⟨0⟩)), .proceed,
    .proceed, .proceed, .proceed, .writer .pop, .writer (.append .appended), .writer .note, .look,
    .tick ⟨0⟩ true, .proceed, .proceed, .writer .pop, .writer (.closed true), .proceed,
    .writer .finish, .look, .tick ⟨0⟩ true, .proceed, .exit, .proceed, .close, .finish]

/-- The raw file that this capture leaves. -/
def garbledRecording : RawEventRecorder × List RawMessage :=
  (RawEventRecorder.create false).appendAll [⟨.coinbase, 1, 0, 0, [0xC3, 0xA9]⟩]

private theorem garbledRecording_delivered :
    Delivered (some garbledRecording.1.output) garbledRecording.2 :=
  ⟨_, garbledRecording.1, (Prod.mk.eta : _ = garbledRecording).symm, rfl, by decide +kernel⟩

/-- Its only payload is UTF-8 and is written to the file, the threads end without a failure, and no
manifest is published: the parser quotes the first byte of the letter, and the quotation is the
reason of the recovery. -/
theorem garbledMessage_unpublished :
    ∃ manager capture,
      CoinbaseConnectionManager.create (fun _ ↦ ⟨0⟩) {} = .ok manager ∧
      Capture.create countDigest .coinbase 10 true ⟨[], [], [], [], [], []⟩ =
        .ok capture ∧
      (∀ input, .callback input ∈ garbledMessage → ∀ raw ∈ input.payload, IsUtf8 raw) ∧
      let s := (System.create {} (LiveMarket.initial manager)).run (liveProgram fun _ ↦ ⟨0⟩)
        garbledMessage
      s.finished = true ∧ s.fatal = none ∧
      Delivered (some garbledRecording.1.output) s.backend.written ∧
      (∃ event ∈ s.final.lifecycleEvents, ¬IsUtf8 event.reason) ∧
      (capture.finalize countDigest [] (some garbledRecording.1.output)
        s.final).isOk = false := by
  obtain ⟨manager, hmanager, hstopped, hclean, hwritten, hreason, hfinal⟩ : ∃ manager,
      CoinbaseConnectionManager.create (fun _ ↦ ⟨0⟩) {} = .ok manager ∧
      let s := (System.create {} (LiveMarket.initial manager)).run (liveProgram fun _ ↦ ⟨0⟩)
        garbledMessage
      s.finished = true ∧ s.fatal = none ∧ s.backend.written = garbledRecording.2 ∧
      (∃ event ∈ s.final.lifecycleEvents, ¬IsUtf8 event.reason) ∧
      ((Capture.create countDigest .coinbase 10 true ⟨[], [], [], [], [], []⟩).bind
        fun capture ↦ capture.finalize countDigest []
          (some garbledRecording.1.output) s.final).isOk = false :=
    ⟨_, rfl, by decide +kernel, by decide +kernel, by decide +kernel, by decide +kernel,
      by decide +kernel⟩
  have hcapture : (Capture.create countDigest .coinbase 10 true
      ⟨[], [], [], [], [], []⟩).isOk = true := by
    decide +kernel
  obtain ⟨capture, hcapture⟩ := exists_ok_of_isOk hcapture
  rw [hcapture] at hfinal
  dsimp only [Except.bind] at hfinal
  refine ⟨manager, capture, hmanager, hcapture, ?_, hstopped, hclean, ?_, hreason, hfinal⟩
  · intro input hinput raw hraw
    simp only [garbledMessage, List.mem_cons, List.not_mem_nil, reduceCtorEq,
      Event.callback.injEq, or_false, false_or] at hinput
    rcases hinput with rfl | rfl
    · cases hraw
    · cases hraw
      decide
  · rw [hwritten]
    exact garbledRecording_delivered

end ArbitrageEngine.Sessions
