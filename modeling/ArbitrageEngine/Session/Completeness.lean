import ArbitrageEngine.Pipeline.KrakenAccounting
import ArbitrageEngine.Pipeline.LiveAccounting
import ArbitrageEngine.Pipeline.Shutdown
import ArbitrageEngine.Session.Finalization

/-!
# Finalizing and replaying agree on completeness

`finalize` writes the manifest from the counters of the threads, `replay` checks it against the
raw file. A run without a fatal error gets a manifest that passes every check; every other run
gets one that replay refuses unless it is told otherwise.
-/

namespace ArbitrageEngine.Sessions

open Base ArbitrageEngine.Core Coinbase Json Kraken Pipeline Recording

variable {env : Surroundings}

/-! ### Single checks -/

private theorem demand_ok {text : String} {value item expected : Value} {key : Bytes}
    (h : value.atKey key = .ok item) (he : item.equals env.floats expected = true) :
    demand env text value key expected = .ok () := by
  simp [demand, h, he, bind, Except.bind, pure, Except.pure]

/-- A field that was written and read back is what it was. -/
theorem demand_reread {text : String} {value item : Value} {key : Bytes}
    (h : value.atKey key = .ok item.reread) (hp : item.Plain) :
    demand env text value key item = .ok () :=
  demand_ok h (Value.equals_reread hp)

private theorem checkVersion_ok {manifest : Value}
    (h : manifest.atKey (ascii "format_version") = .ok (.numberUnsigned 1)) :
    checkVersion env manifest = .ok () := by
  rw [checkVersion, h]
  rfl

/-- The status of a complete session passes. -/
theorem checkStatus_complete {manifest : Value} (allowIncomplete : Bool)
    (h : manifest.atKey (ascii "status") = .ok (.string (statusName .complete))) :
    checkStatus allowIncomplete manifest = .ok true := by
  rw [checkStatus, h]
  rfl

/-- Any other one does not, unless it is allowed to. -/
theorem checkStatus_incomplete {manifest : Value} {status : SessionStatus}
    (h : manifest.atKey (ascii "status") = .ok (.string (statusName status)))
    (hs : status ≠ .complete) :
    checkStatus false manifest =
      runtimeError "incomplete session requires --allow-incomplete" := by
  rw [checkStatus, h]
  cases status with
  | complete => exact absurd rfl hs
  | inProgress | recordingFailure | queueOverflow | processingFailure | interrupted => rfl

/-! ### The configuration -/

section Configuration

variable {manifest : Value} {venue : KnownVenue} {depth : Nat}

/-- The depth that replay goes on with. -/
def sessionDepth (depth : Nat) : KnownVenue → Nat
  | .kraken => depth
  | .coinbase => 100

/-- The manifest has the fields of a configuration. -/
def Configured (manifest : Value) (venue : KnownVenue) (depth : Nat) : Prop :=
  ∀ key ∈ Capture.configKeys, ∀ item,
    lookup key (insertFields (Capture.config depth venue) []) = some item →
    manifest.atKey key = .ok item.reread

private theorem checkVenue_ok (h : Configured manifest venue depth) :
    checkVenue env manifest = .ok venue := by
  cases venue with
  | kraken =>
    rw [checkVenue, h (ascii "venues") (by decide) (.array [.string (ascii "kraken")]) rfl]
    rfl
  | coinbase =>
    rw [checkVenue, h (ascii "venues") (by decide) (.array [.string (ascii "coinbase")]) rfl]
    rfl

private theorem expectedConfiguration_ok (h : Configured manifest venue depth)
    (hd : venue = .kraken → depth ∈ supportedDepths) :
    expectedConfiguration env manifest venue =
      .ok (sessionDepth depth venue, insertFields (Capture.config depth venue) []) := by
  cases venue with
  | coinbase => rfl
  | kraken =>
    have hdepth := hd rfl
    have hsmall : depth % 2 ^ 64 = depth := by
      simp only [supportedDepths, List.mem_cons, List.not_mem_nil, or_false] at hdepth
      omega
    rw [expectedConfiguration, h (ascii "subscriptions") (by decide) _ rfl]
    change (krakenConfiguration (depth % 2 ^ 64) >>= fun config ↦
      pure (depth % 2 ^ 64, insertFields config [])) = _
    rw [hsmall, krakenConfiguration, if_pos hdepth]
    rfl

private theorem checkProducts_ok (venue : KnownVenue) :
    checkProducts (productMetadata (productKey venue)).reread (productKey venue) = .ok () := by
  cases venue <;> rfl

/-- The products of the configuration. -/
theorem lookup_products (depth : Nat) (venue : KnownVenue) :
    lookup (ascii "product_metadata") (insertFields (Capture.config depth venue) []) =
      some (productMetadata (productKey venue)) := by
  cases venue <;> rfl

private theorem plain_lookup {key : Bytes} {item : Value}
    (h : lookup key (insertFields (Capture.config depth venue) []) = some item) : item.Plain :=
  (readable_nil.insertFields (Capture.plain_config depth venue)).plain _ (lookup_eq_some h)

/-- A field of the configuration is what replay expects. -/
theorem demand_config {text : String} (h : Configured manifest venue depth) {key : Bytes}
    (hk : key ∈ Capture.configKeys) {item : Value}
    (hi : lookup key (insertFields (Capture.config depth venue) []) = some item) :
    demand env text manifest key item = .ok () :=
  demand_reread (h key hk item hi) (plain_lookup hi)

private theorem checkKraken_ok (h : Configured manifest venue depth) :
    checkKraken env manifest (productMetadata (productKey venue)).reread
      (insertFields (Capture.config depth venue) []) venue = .ok () := by
  cases venue with
  | coinbase => rfl
  | kraken =>
    have hproducts : (productMetadata (productKey .kraken)).reread.equals env.floats
        ((Value.object (insertFields (Capture.config depth .kraken) [])).index
          (ascii "product_metadata")) = true :=
      Value.equals_reread (plain_productMetadata _)
    have hsymbols : demand env "unsupported Kraken subscription" manifest (ascii "venue_symbols")
        ((Value.object (insertFields (Capture.config depth .kraken) [])).index
          (ascii "venue_symbols")) = .ok () :=
      demand_config h (by decide) rfl
    have hsubscriptions : demand env "unsupported Kraken subscription" manifest
        (ascii "subscriptions")
        ((Value.object (insertFields (Capture.config depth .kraken) [])).index
          (ascii "subscriptions")) = .ok () :=
      demand_config h (by decide) rfl
    simp only [checkKraken, hproducts, hsymbols, hsubscriptions]
    rfl

/-- The configuration with the recorded products is written as the one of the venue. -/
theorem dump_configuration (depth : Nat) (venue : KnownVenue) :
    dump none (.object (insertField (ascii "product_metadata")
        (productMetadata (productKey venue)).reread
        (insertFields (Capture.config depth venue) []))) =
      dump none (objectOf (Capture.config depth venue)) := by
  have hreadable : Readable (insertFields (Capture.config depth venue) []) :=
    readable_nil.insertFields (Capture.plain_config depth venue)
  have hfields := dumpFields_insertField hreadable.sorted (lookup_products depth venue)
    (Value.dumpValue_reread (plain_productMetadata (productKey venue)) none (newIndent none 0))
  rw [dump, dump, objectOf, dumpValue, dumpValue, hfields]

/-- A field of the configuration passes, with the recorded products in it. -/
theorem checkField_ok (h : Configured manifest venue depth) {key : Bytes}
    (hk : key ∈ Capture.configKeys) {item : Value}
    (hi : lookup key (insertFields (Capture.config depth venue) []) = some item) :
    checkField env manifest (insertField (ascii "product_metadata")
      (productMetadata (productKey venue)).reread
      (insertFields (Capture.config depth venue) [])) key = .ok () := by
  have hlookup := lookup_insertField (ascii "product_metadata") key
    (productMetadata (productKey venue)).reread (insertFields (Capture.config depth venue) [])
  unfold checkField
  by_cases hproduct : ascii "product_metadata" = key
  · subst hproduct
    rw [atKey_of_lookup (hlookup.trans (if_pos rfl))]
    exact demand_ok (h _ hk _ (lookup_products depth venue))
      (Value.equals_self (plain_productMetadata _).reread)
  · rw [atKey_of_lookup (hlookup.trans ((if_neg hproduct).trans hi))]
    exact demand_config h hk hi

/-- The configuration of a manifest passes. -/
theorem checkConfiguration_ok {text : Bytes} (h : Configured manifest venue depth)
    (hd : venue = .kraken → depth ∈ supportedDepths)
    (htext : dump none (objectOf (Capture.config depth venue)) = .ok text)
    (hhash : manifest.atKey (ascii "configuration_hash") = .ok (.string (env.sha256 text))) :
    checkConfiguration env manifest = .ok (venue, sessionDepth depth venue) := by
  have hfields : ∃ venues instruments version,
      lookup (ascii "venues") (insertFields (Capture.config depth venue) []) = some venues ∧
      lookup (ascii "instruments") (insertFields (Capture.config depth venue) []) =
        some instruments ∧
      lookup (ascii "processor_version") (insertFields (Capture.config depth venue) []) =
        some version := by
    cases venue <;> exact ⟨_, _, _, rfl, rfl, rfl⟩
  obtain ⟨_, _, _, hvenues, hinstruments, hversion⟩ := hfields
  have hproducts := lookup_products depth venue
  simp only [checkConfiguration, checkVenue_ok h, expectedConfiguration_ok h hd,
    h (ascii "product_metadata") (by decide) _ hproducts, checkProducts_ok, checkKraken_ok h,
    checkField_ok h (by decide) hvenues, checkField_ok h (by decide) hinstruments,
    checkField_ok h (by decide) hproducts, checkField_ok h (by decide) hversion,
    dump_configuration, htext, bind, Except.bind]
  rw [demand_ok hhash (Value.equals_self (.string _))]
  rfl

end Configuration

/-! ### The raw file -/

namespace Capture

variable {capture : Capture} {venue : KnownVenue} {depth : Nat}

/-- The raw file of a capture is found where its manifest says. -/
theorem checkRawFile_ok (h : capture.Started env.sha256 venue depth) {file : Bytes}
    (hfile : env.file (rawPath venue) = some file) (hinside : env.outside (rawPath venue) = false) :
    checkRawFile env capture.manifest.reread venue =
      .ok ((Value.object capture.raw).reread, file) := by
  have hvenue : demand env "unexpected raw venue" (Value.object capture.raw).reread (ascii "venue")
      (.string (venueName venue)) = .ok () :=
    demand_reread (raw_atKey h.rawVenue) (.string _)
  have hrelative : ¬(rawPath venue).head? = some 0x2F := by
    cases venue <;> decide
  have hpath : (Value.string (rawPath venue)).reread.getString = .ok (rawPath venue) := rfl
  simp only [checkRawFile, manifest_rawFiles, Value.atFirst, hvenue, raw_atKey h.rawPath, hpath,
    hfile, hinside, bind, Except.bind, Value.size, List.length_singleton, if_neg hrelative]
  rfl

end Capture

/-- The file of a recorder is scanned back. -/
theorem scan_holds {recorder : RawEventRecorder} {messages : List RawMessage} {venue : KnownVenue}
    (h : recorder.Holds messages) (hv : ∀ message ∈ messages, message.venue = venue)
    (hsize : recorder.output.length < 2 ^ 64) :
    messages.length < 2 ^ 64 ∧
      ∃ connections, scan recorder.output venue = .ok ⟨messages.length, connections⟩ := by
  obtain ⟨-, -, lines, hfile, houtput⟩ := h
  have hlines : messages.length ≤ recorder.output.length := by
    rw [hfile.lines.length_eq, houtput, joinLines, List.length_flatMap]
    clear hfile houtput
    induction lines with
    | nil => exact Nat.zero_le _
    | cons line lines ih =>
      rw [List.length_cons, List.map_cons, List.sum_cons, List.length_append,
        List.length_singleton]
      omega
  have hlength : messages.length < 2 ^ 64 := by omega
  refine ⟨hlength, (messages.map RawMessage.connectionId).dedup.length, ?_⟩
  have hinput : (RawEventReader.create (some recorder.output)).input =
      joinLines lines ++ [] := by
    rw [List.append_nil]
    exact houtput
  obtain ⟨final, hread, herror⟩ := readAll_file hfile ⟨rfl, rfl, rfl⟩ rfl rfl
    (List.forall_mem_nil _) hinput (Nat.lt_succ_of_le hlines)
  have hvenues : ¬(messages.any (·.venue ≠ venue)) = true := by
    simpa using hv
  simp only [scan, hread, if_neg hvenues, herror, Nat.mod_eq_of_lt hlength]
  rfl

private theorem checkCount_ok {metadata : Value} {key : Bytes} {n : Nat}
    (h : metadata.atKey key = .ok (uint64 n)) : checkCount metadata key = .ok () := by
  rw [checkCount, h]
  rfl

section Final

variable {venue : KnownVenue} {status : RuntimeStatus} {bytes : Bytes} {outcome : SessionStatus}
  {runtime : Bytes} {final : Capture}

/-- The metadata of a scanned file passes. -/
theorem checkMetadata_ok (h : final.Ended env.sha256 status (some bytes) outcome runtime)
    {connections : Nat} (hscan : scan bytes venue = .ok ⟨status.writtenMessages, connections⟩) :
    checkMetadata env true (Value.object final.raw).reread bytes venue =
      .ok status.writtenMessages := by
  have hraw : ∀ key item, (key, item) ∈ Capture.rawFields env.sha256 status bytes →
      (Value.object final.raw).reread.atKey key = .ok item.reread := fun key item hm ↦
    Capture.raw_atKey (h.raw bytes rfl (key, item) hm)
  have hbytes := hraw (ascii "bytes") (uint64 bytes.length) (by simp [Capture.rawFields])
  have hsha := hraw (ascii "sha256") (.string (env.sha256 bytes)) (by simp [Capture.rawFields])
  have hrecords := hraw (ascii "records") (uint64 status.writtenMessages)
    (by simp [Capture.rawFields])
  simp only [checkMetadata, whenPresent, Bool.true_or, if_true, checkCount_ok hbytes,
    checkCount_ok hrecords, demand_reread hbytes (plain_uint64 _), demand_reread hsha (.string _),
    hscan, demand_reread hrecords (plain_uint64 _), bind, Except.bind]
  rfl

private theorem optionalIndex_lastOf (n : Nat) : optionalIndex (lastOf n) = lastIndex n := by
  cases n <;> rfl

/-- The counters of a run in which everything was written pass. -/
theorem checkComplete_ok
    (h : final.Ended env.sha256 status (some bytes) outcome (ascii "Stopped"))
    (hsmall : status.writtenMessages < 2 ^ 64)
    (hwritten : status.progress.lastWrittenIndex = lastOf status.writtenMessages)
    (htallies : status.ledger.Tallies status.writtenMessages status.writtenMessages) :
    checkComplete env final.manifest.reread (Value.object final.raw).reread
      status.writtenMessages = .ok () := by
  have hraw : ∀ key item, (key, item) ∈ Capture.rawFields env.sha256 status bytes →
      (Value.object final.raw).reread.atKey key = .ok item.reread := fun key item hm ↦
    Capture.raw_atKey (h.raw bytes rfl (key, item) hm)
  -- every index in the manifest is that of the last message written
  have hindex : ∀ {text : String} {value : Value} {key : Bytes} {index : Option Nat},
      index = lastOf status.writtenMessages →
      value.atKey key = .ok (optionalIndex index).reread →
      demand env text value key (lastIndex status.writtenMessages) = .ok () := by
    rintro text value key index rfl hat
    rw [← optionalIndex_lastOf]
    exact demand_reread hat (plain_optionalIndex _)
  have hfirst := hraw (ascii "first_record_index")
    (if status.writtenMessages % 2 ^ 64 ≠ 0 then .numberInteger 0 else .null)
    (by simp [Capture.rawFields])
  have hlast := hraw (ascii "last_record_index") (optionalIndex status.progress.lastWrittenIndex)
    (by simp [Capture.rawFields])
  rw [Nat.mod_eq_of_lt hsmall] at hfirst
  have hfirstPlain :
      (if status.writtenMessages ≠ 0 then Value.numberInteger 0 else .null).Plain := by
    split
    · exact .numberInteger (by decide) (by decide)
    · exact .null
  have hunpersisted : final.manifest.reread.atKey (ascii "unpersisted_records") =
      .ok (.numberUnsigned 0) := by
    have hzero : (status.receivedMessages + (2 ^ 64 - status.writtenMessages % 2 ^ 64)) % 2 ^ 64 =
        0 := by
      have hreceived : status.receivedMessages = status.writtenMessages := htallies.received
      omega
    have hat := Capture.manifest_atKey (by decide) h.unpersisted
    rw [uint64, hzero] at hat
    exact hat
  have htail : final.manifest.reread.atKey (ascii "unpersisted_processed_tail") =
      .ok (.boolean false) := by
    have hnone : status.unpersistedProcessedRange = [] := by
      rw [RuntimeStatus.range_eq_nil_iff,
        unpersistedProcessed_eq (htallies.lastProcessed) hwritten, if_pos le_rfl]
    have hat := Capture.manifest_atKey (by decide) h.tail
    rw [hnone] at hat
    exact hat
  simp only [checkComplete,
    hindex htallies.lastReceived (Capture.manifest_atKey (by decide) h.received),
    hindex htallies.lastEnqueued (Capture.manifest_atKey (by decide) h.enqueued),
    hindex hwritten (Capture.manifest_atKey (by decide) h.written),
    hindex htallies.lastProcessed (Capture.manifest_atKey (by decide) h.processed),
    demand_reread (Capture.manifest_atKey (by decide) h.runtime_eq) (.string _),
    demand_reread hfirst hfirstPlain, hindex hwritten hlast,
    demand_ok hunpersisted (show Value.equals env.floats _ (.numberInteger 0) = true from rfl),
    demand_ok htail (show Value.equals env.floats _ (.boolean false) = true from rfl),
    bind, Except.bind]

end Final

/-! ### Lifecycle events -/

/-- An event that was written passes as it was. -/
theorem checkEvent_ok {records last : Nat} {event : LifecycleEvent}
    (hl : last ≤ event.beforeRecordIndex) (hr : event.beforeRecordIndex ≤ records)
    (hsmall : records < 2 ^ 64) (hs : bookName event.state ∈ lifecycleStates) :
    checkEvent true records last (eventValue event).reread = .ok (.ofEvent event) := by
  have hindex : event.beforeRecordIndex % 2 ^ 64 = event.beforeRecordIndex :=
    Nat.mod_eq_of_lt (by omega)
  have hposition : (eventValue event).reread.atKey (ascii "before_record_index") =
      .ok (.numberUnsigned (event.beforeRecordIndex % 2 ^ 64)) := rfl
  have hstate : (eventValue event).reread.atKey (ascii "state") =
      .ok (.string (bookName event.state)) := rfl
  have hreason : (eventValue event).reread.atKey (ascii "reason") = .ok (.string event.reason) :=
    rfl
  have hrange : ¬(event.beforeRecordIndex < last ∨ True ∧ records < event.beforeRecordIndex) := by
    rintro (h | ⟨-, h⟩) <;> omega
  rw [hindex] at hposition
  simp only [checkEvent, hposition, hstate, hreason, bind, Except.bind, Value.isNumberUnsigned,
    Value.getUint64, Value.getString, if_neg hrange, if_neg (not_not.mpr hs)]
  rfl

/-- The events of a valid manifest pass as they were written. -/
theorem checkEvents_ok {records last : Nat} {events : List LifecycleEvent}
    (h : validateLifecycle true records last (events.map .ofEvent) = .ok ())
    (hsmall : records < 2 ^ 64) :
    checkEvents true records last (Value.array (events.map eventValue)).reread.elements =
      .ok (events.map .ofEvent) := by
  change checkEvents true records last (Value.rereadItems (events.map eventValue)) = _
  induction events generalizing last with
  | nil => rfl
  | cons event events ih =>
    rw [List.map_cons, validateLifecycle] at h
    split at h
    · cases h
    · next hvalid =>
      rw [not_or, not_or, not_not] at hvalid
      obtain ⟨hl, hr, hs⟩ := hvalid
      have hl' : last ≤ event.beforeRecordIndex := Nat.le_of_not_lt hl
      have hr' : event.beforeRecordIndex ≤ records := by
        by_contra hlt
        exact hr ⟨rfl, Nat.lt_of_not_le hlt⟩
      rw [List.map_cons, Value.rereadItems, checkEvents, checkEvent_ok hl' hr' hsmall hs]
      change (checkEvents true records (LifecycleEntry.ofEvent event).beforeRecordIndex _ >>= _) = _
      rw [ih h]
      rfl

/-! ### Whole manifests -/

/-- The counters and the file of a run in which everything was written. -/
structure Accounted (venue : KnownVenue) (status : RuntimeStatus) (file : Bytes) : Prop where
  small : status.writtenMessages < 2 ^ 64
  scanned : ∃ connections, scan file venue = .ok ⟨status.writtenMessages, connections⟩
  written : status.progress.lastWrittenIndex = lastOf status.writtenMessages
  tallies : status.ledger.Tallies status.writtenMessages status.writtenMessages
  lifecycle : validateLifecycle true status.writtenMessages 0
    (status.lifecycleEvents.map .ofEvent) = .ok ()

namespace Capture

variable {final : Capture} {venue : KnownVenue} {depth : Nat} {status : RuntimeStatus}

/-- The manifest of a capture names its configuration. -/
theorem Started.configured_manifest (h : final.Started env.sha256 venue depth) :
    Configured final.manifest.reread venue depth := by
  intro key hkey item hitem
  apply manifest_atKey
  · rintro rfl
    exact absurd hkey (by decide)
  · rw [h.configured key hkey]
    exact hitem

/-- The manifest of a capture has the version and the hash that are checked. -/
theorem Started.checkVersion (h : final.Started env.sha256 venue depth) :
    Sessions.checkVersion env final.manifest.reread = .ok () :=
  checkVersion_ok (manifest_atKey (by decide) h.version)

/-- A complete manifest passes every check. -/
theorem validateManifest_complete {file : Bytes} (h : final.Started env.sha256 venue depth)
    (he : final.Ended env.sha256 status (some file) .complete (ascii "Stopped"))
    (ha : Accounted venue status file) (hfile : env.file (Sessions.rawPath venue) = some file)
    (hinside : env.outside (Sessions.rawPath venue) = false) (allowIncomplete : Bool) :
    validateManifest env allowIncomplete final.manifest.reread =
      .ok ⟨true, venue, sessionDepth depth venue, status.writtenMessages,
        status.lifecycleEvents.map .ofEvent⟩ := by
  obtain ⟨text, htext, hhash⟩ := h.hash
  obtain ⟨connections, hscan⟩ := ha.scanned
  have hconfig := checkConfiguration_ok h.configured_manifest h.supported htext
    (manifest_atKey (by decide) hhash)
  have hlookup : final.manifest.find? (ascii "lifecycle_events") =
      some (.array (status.lifecycleEvents.map eventValue)) := by
    change lookup _ (Json.insertField _ _ final.fields) = _
    rw [lookup_insertField, if_neg (by decide)]
    exact he.lifecycle
  have hevents : final.manifest.reread.find? (ascii "lifecycle_events") =
      some (Value.array (status.lifecycleEvents.map eventValue)).reread := by
    rw [Value.find?_reread, hlookup]
    rfl
  simp only [validateManifest, h.checkVersion, hconfig,
    checkStatus_complete allowIncomplete (manifest_atKey (by decide) he.status_eq),
    checkRawFile_ok h hfile hinside, checkMetadata_ok he hscan,
    checkComplete_ok he ha.small ha.written ha.tallies, hevents, Option.getD_some,
    checkEvents_ok ha.lifecycle ha.small, bind, Except.bind, if_true]
  rfl

/-- Any other one is refused. -/
theorem validateManifest_incomplete {file : Option Bytes} {outcome : SessionStatus}
    {runtime : Bytes} (h : final.Started env.sha256 venue depth)
    (he : final.Ended env.sha256 status file outcome runtime) (ho : outcome ≠ .complete) :
    validateManifest env false final.manifest.reread =
      runtimeError "incomplete session requires --allow-incomplete" := by
  rw [validateManifest, h.checkVersion]
  change (checkStatus false final.manifest.reread >>= _) = _
  rw [checkStatus_incomplete (manifest_atKey (by decide) he.status_eq) ho]
  rfl

end Capture

/-! ### Finished runs -/

/-- The `status` of a manifest. -/
def manifestStatus (text : Bytes) : Except Failure Bytes := do
  let manifest ← Json.parse text
  (← manifest.atKey (ascii "status")).getString

/-- The raw file is what a recorder has left behind that was given these records. -/
def Delivered (file : Option Bytes) (written : List RawMessage) : Prop :=
  ∃ calls recorder, (RawEventRecorder.create false).appendAll calls = (recorder, written) ∧
    file = some recorder.output ∧ recorder.output.length < 2 ^ 64

/-- The raw file is scanned back to so many records. -/
def ScansTo (venue : KnownVenue) (file : Option Bytes) (records : Nat) : Prop :=
  ∃ bytes connections, file = some bytes ∧ scan bytes venue = .ok ⟨records % 2 ^ 64, connections⟩

section Runs

variable {σ ι : Type} {P : Program σ ι} {A : Accounts P} {s : System σ}

/-- What `finalize` and `replay` have to agree on, for a run and the manifest of its capture. -/
def Agrees (env : Surroundings) (s : System σ) (venue : KnownVenue) (depth : Nat)
    (text : Bytes) : Prop :=
  (s.fatal = none → (∀ bytes, s.backend.file = some bytes → bytes.length < 2 ^ 64) →
    manifestStatus text = .ok (statusName .complete) ∧
    ∀ allowIncomplete inProgress, validateSession env allowIncomplete (some text) inProgress =
      .ok ⟨true, venue, sessionDepth depth venue, s.backend.written.length,
        s.final.lifecycleEvents.map .ofEvent⟩) ∧
  (s.final.receivedMessages ≠ s.final.writtenMessages ∨ s.fatal ≠ none ∨
      ¬ScansTo venue s.backend.file s.final.writtenMessages →
    (∃ status, status ≠ .complete ∧ manifestStatus text = .ok (statusName status)) ∧
    ∀ inProgress, validateSession env false (some text) inProgress =
      runtimeError "incomplete session requires --allow-incomplete")

/-- A run without a fatal error has written everything that its counters say, into a file that
holds as many records of the venue. -/
theorem accounted_of_clean (hk : s.Kept A) (hf : s.finished = true) (hc : s.fatal = none)
    {recorder : RawEventRecorder} {messages : List RawMessage} (hholds : recorder.Holds messages)
    (hcount : messages.length = s.backend.written.length)
    (hvenues : ∀ message ∈ messages, message.venue = A.venue)
    (hsize : recorder.output.length < 2 ^ 64) : Accounted A.venue s.final recorder.output := by
  have hwritten := hk.final_written hf
  obtain ⟨hsmall, connections, hscan⟩ := scan_holds hholds hvenues hsize
  rw [hcount] at hsmall hscan
  have hledger := s.final_ledger.trans (hk.ledger_eq hf (hk.clean hf hc).1)
  have hlifecycle := A.lifecycle s.market hk.inv (hk.clean hf hc).2
  rw [← hk.written_accepted hf hc, ← hledger] at hlifecycle
  have htallies := hk.final_clean hf hc
  rw [← hwritten.1] at hsmall hscan hlifecycle htallies
  exact ⟨hsmall, ⟨connections, hscan⟩, hwritten.1 ▸ hwritten.2, htallies, hlifecycle⟩

/-- The records written by a run without a fatal error are of its venue. -/
theorem venue_of_written (hk : s.Kept A) (hf : s.finished = true) (hc : s.fatal = none) :
    ∀ message ∈ s.backend.written, message.venue = A.venue := by
  rw [hk.written_accepted hf hc]
  exact A.venues s.market hk.inv

/-- The status is `complete` only if nothing speaks against it. -/
theorem settledStatus_complete {venue : KnownVenue} {status : RuntimeStatus}
    {outcome : SessionStatus} {file : Option Bytes}
    (h : Capture.settledStatus status (Capture.scanned venue status outcome file).2 = .complete) :
    status.fatalError = none ∧ (file ≠ none → ScansTo venue file status.writtenMessages) := by
  unfold Capture.settledStatus at h
  split at h
  · cases h
  · next hsettled =>
    rw [h] at hsettled
    refine ⟨by_contra fun hfatal ↦ hsettled ⟨rfl, .inl hfatal⟩, fun hfile ↦ ?_⟩
    obtain ⟨bytes, rfl⟩ := Option.ne_none_iff_exists'.mp hfile
    cases hscan : scan bytes venue with
    | error failure =>
      simp only [Capture.scanned, hscan] at h
      cases h
    | ok result =>
      simp only [Capture.scanned, hscan] at h
      split at h
      · cases h
      · next hrecords =>
        refine ⟨bytes, result.connections, rfl, ?_⟩
        rw [hscan, ← not_not.mp hrecords]

/-- A run in which everything was written is settled as `complete`. -/
theorem settledStatus_accounted {venue : KnownVenue} {status : RuntimeStatus} {file : Bytes}
    (h : Accounted venue status file) (hf : status.fatalError = none) :
    Capture.settledStatus status (Capture.scanned venue status .complete (some file)).2 =
      .complete := by
  obtain ⟨connections, hscan⟩ := h.scanned
  have hrecords : ¬status.writtenMessages ≠ status.writtenMessages % 2 ^ 64 :=
    not_not.mpr (Nat.mod_eq_of_lt h.small).symm
  have hreceived : status.receivedMessages = status.writtenMessages := h.tallies.received
  have hclean : ¬((SessionStatus.complete = .complete) ∧ (status.fatalError ≠ none ∨
      status.receivedMessages % 2 ^ 64 ≠ status.writtenMessages % 2 ^ 64)) := by
    rintro ⟨-, hfatal | hcount⟩
    · exact hfatal hf
    · exact hcount (by rw [hreceived])
  simp only [Capture.scanned, hscan, if_neg hrecords]
  exact if_neg hclean

private theorem validateSession_published {depth : Nat} {venue : KnownVenue} {final : Capture}
    (h : final.Started env.sha256 venue depth) {text : Bytes}
    (ht : publish final.manifest = .ok text) (allowIncomplete : Bool) (inProgress : Option Bytes) :
    validateSession env allowIncomplete (some text) inProgress =
      validateManifest env allowIncomplete final.manifest.reread := by
  simp only [validateSession, openManifest, h.parse_publish ht, bind, Except.bind]

private theorem manifestStatus_published {depth : Nat} {venue : KnownVenue} {final : Capture}
    (h : final.Started env.sha256 venue depth) {text : Bytes}
    (ht : publish final.manifest = .ok text) {status : RuntimeStatus} {file : Option Bytes}
    {outcome : SessionStatus} {runtime : Bytes}
    (he : final.Ended env.sha256 status file outcome runtime) :
    manifestStatus text = .ok (statusName outcome) := by
  simp only [manifestStatus, h.parse_publish ht, bind, Except.bind,
    Capture.manifest_atKey (by decide) he.status_eq]
  rfl

/-- A finished run and its manifest. -/
theorem finalize_agrees (hk : s.Kept A) (ho : s.Orderly) (hf : s.finished = true) {depth : Nat}
    {capture : Capture} (hc : capture.Started env.sha256 A.venue depth)
    (hfile : env.file (rawPath A.venue) = s.backend.file)
    (hinside : env.outside (rawPath A.venue) = false) {endedAt text : Bytes}
    (ht : capture.finalize env.sha256 endedAt s.backend.file s.final = .ok text) :
    Agrees env s A.venue depth text := by
  obtain ⟨final, hfinal, hpublish⟩ := bind_ok ht
  obtain ⟨⟨outcome, runtime⟩, houtcome, hfinal⟩ := bind_ok hfinal
  cases hfinal
  have hstarted := hc.withStatus endedAt s.backend.file s.final outcome runtime
  have hended := capture.withStatus_ended env.sha256 endedAt s.backend.file s.final outcome runtime
  rw [hc.venue_eq] at hended
  constructor
  · intro hclean hsize
    obtain ⟨recorder, hbytes, hholds⟩ := hk.file_holds hf hclean
    have hvenues : ∀ message ∈ s.backend.written.map RawMessage.narrowed,
        message.venue = A.venue :=
      List.forall_mem_map.mpr (venue_of_written hk hf hclean)
    have haccounted := accounted_of_clean hk hf hclean hholds (List.length_map _) hvenues
      (hsize _ hbytes)
    have hfatal : s.final.fatalError = none := s.final_fatalError.trans hclean
    rw [ho.settled.1.mp hfatal] at houtcome
    cases houtcome
    rw [hbytes] at hfile hended hpublish hstarted
    rw [settledStatus_accounted haccounted hfatal] at hended
    refine ⟨manifestStatus_published hstarted hpublish hended, ?_⟩
    intro allowIncomplete inProgress
    rw [validateSession_published hstarted hpublish, ← (hk.final_written hf).1]
    exact Capture.validateManifest_complete hstarted hended haccounted hfile hinside allowIncomplete
  · intro hflaw
    have hincomplete : Capture.settledStatus s.final
        (Capture.scanned A.venue s.final outcome s.backend.file).2 ≠ .complete := by
      intro hcomplete
      obtain ⟨hfatal, hscans⟩ := settledStatus_complete hcomplete
      rw [s.final_fatalError] at hfatal
      rcases hflaw with hcount | hfailed | hscan
      · exact hcount ((hk.final_clean hf hfatal).received.trans (hk.final_written hf).1.symm)
      · exact hfailed hfatal
      · obtain ⟨recorder, hbytes, -⟩ := hk.file_holds hf hfatal
        exact hscan (hscans (by rw [hbytes]; nofun))
    refine ⟨⟨_, hincomplete, manifestStatus_published hstarted hpublish hended⟩, ?_⟩
    intro inProgress
    rw [validateSession_published hstarted hpublish]
    exact Capture.validateManifest_incomplete hstarted hended hincomplete

end Runs

/-- For every finished run of `run_live` with a capture and of `run_kraken`, whatever the order of
the threads and whatever failed: if `finalize` returns, it has published a manifest on which it
agrees with `replay`. -/
theorem finalize_replay_agree (env : Surroundings) (depth : Nat) (isNew : Bool) (labels : Labels)
    (endedAt : Bytes) (queue : RawQueueConfig) (capture : Capture) (text : Bytes) :
    (∀ (clock : Nat → ReceiveMonotonicTimestamp) (config : FeedHealthConfig)
        (manager : CoinbaseConnectionManager) (events : List (Event LiveAction)),
      CoinbaseConnectionManager.create clock config = .ok manager →
      Capture.create env.sha256 .coinbase depth isNew labels = .ok capture →
      env.outside (rawPath .coinbase) = false →
      let s := (System.create queue (LiveMarket.initial manager)).run (liveProgram clock) events
      s.finished = true → env.file (rawPath .coinbase) = s.backend.file →
      capture.finalize env.sha256 endedAt s.backend.file s.final = .ok text →
      Agrees env s .coinbase depth text) ∧
    (∀ (crc : Bytes → UInt32) (limits : KrakenLimits) (processor : KrakenBookProcessor)
        (now : ReceiveMonotonicTimestamp) (events : List (Event KrakenMarket.Action))
        (metrics : Option KrakenMetrics) (hash : Option Bytes),
      Capture.create env.sha256 .kraken depth isNew labels = .ok capture →
      env.outside (rawPath .kraken) = false →
      let s := (System.create queue (KrakenMarket.initial processor now)).run
        (krakenProgram crc limits) events
      s.finished = true → env.file (rawPath .kraken) = s.backend.file →
      ((capture.setMetrics metrics).setFinalBookHash hash).finalize env.sha256 endedAt
        s.backend.file s.final = .ok text →
      Agrees env s .kraken depth text) := by
  constructor
  · intro clock config manager events hmanager hcapture hinside s hfinished hfile htext
    exact finalize_agrees (live_kept hmanager queue events)
      (System.run_orderly queue (LiveMarket.initial manager) events) hfinished
      (Capture.create_started hcapture) hfile hinside htext
  · intro crc limits processor now events metrics hash hcapture hinside s hfinished hfile htext
    exact finalize_agrees (kraken_kept crc limits processor now queue events)
      (System.run_orderly queue (KrakenMarket.initial processor now) events) hfinished
      (((Capture.create_started hcapture).setMetrics metrics).setFinalBookHash hash) hfile hinside
      htext

/-- A capture of a snapshot and an update that is then stopped by the signal. -/
def capturedBook : List (Event LiveAction) :=
  [.writer .prepared, .ready, .check false, .start ⟨0⟩, .proceed,
    .callback (.manager (.connected 1)), .proceed,
    .callback (.manager (.message 1 CoinbaseConnectionManager.singleBid ⟨1⟩ ⟨1⟩
      (.returned .accepted) ⟨1⟩)),
    .proceed, .writer .pop, .writer (.append .appended), .writer .note,
    .callback (.manager (.message 1 CoinbaseConnectionManager.betterBid ⟨2⟩ ⟨2⟩
      (.returned .accepted) ⟨2⟩)),
    .proceed, .writer .pop, .writer (.append .appended), .look, .tick ⟨3⟩ true, .writer .note,
    .proceed, .proceed, .writer .pop, .writer (.closed true), .proceed, .writer .finish, .look,
    .tick ⟨4⟩ true, .proceed, .exit, .proceed, .close, .finish]

/-- The threads after this capture. -/
def capturedSystem (manager : CoinbaseConnectionManager) : System LiveMarket :=
  (System.create {} (LiveMarket.initial manager)).run (liveProgram fun n ↦ ⟨n⟩) capturedBook

/-- Its manifest. -/
def capturedManifest (manager : CoinbaseConnectionManager) : Except Failure (Capture × Bytes) := do
  let s := capturedSystem manager
  let capture ← Capture.create countDigest .coinbase 10 true ⟨[], [], [], [], [], []⟩
  let text ← capture.finalize countDigest [] s.backend.file s.final
  return (capture, text)

/-- The threads of Kraken after a capture that has lost its first record. -/
def lostSystem (processor : KrakenBookProcessor) : System KrakenMarket :=
  (System.create {} (KrakenMarket.initial processor ⟨0⟩)).run (krakenProgram Crc.crc32 {}) lostDisk

/-- Its manifest. -/
def lostManifest (processor : KrakenBookProcessor) : Except Failure (Capture × Bytes) := do
  let s := lostSystem processor
  let capture ← Capture.create countDigest .kraken 10 true ⟨[], [], [], [], [], []⟩
  let text ← ((capture.setMetrics none).setFinalBookHash none).finalize countDigest []
    s.backend.file s.final
  return (capture, text)

/-- The first capture ends without a fatal error, with both payloads written and a manifest. -/
theorem capturedSystem_ended :
    ∃ manager, CoinbaseConnectionManager.create (fun n ↦ ⟨n⟩) {} = .ok manager ∧
      (capturedSystem manager).finished = true ∧ (capturedSystem manager).fatal = none ∧
      (capturedSystem manager).backend.written.map (·.payload) =
        [CoinbaseConnectionManager.singleBid, CoinbaseConnectionManager.betterBid] ∧
      ((capturedSystem manager).backend.file.all fun bytes ↦ bytes.length < 2 ^ 64) = true ∧
      (capturedManifest manager).isOk = true :=
  ⟨_, rfl, by decide +kernel, by decide +kernel, by decide +kernel, by decide +kernel,
    by decide +kernel⟩

/-- The first one can be replayed with its two records, the second one is refused. -/
theorem finalize_replay_agree_runs :
    ∃ manager processor live kraken text text',
      CoinbaseConnectionManager.create (fun n ↦ ⟨n⟩) {} = .ok manager ∧
      KrakenBookProcessor.create 10 = .ok processor ∧
      capturedManifest manager = .ok (live, text) ∧ lostManifest processor = .ok (kraken, text') ∧
      (∃ lifecycle, validateSession (directoryWith (capturedSystem manager).backend.file) false
        (some text) none = .ok ⟨true, .coinbase, 100, 2, lifecycle⟩) ∧
      validateSession (directoryWith (lostSystem processor).backend.file) false (some text') none =
        runtimeError "incomplete session requires --allow-incomplete" := by
  obtain ⟨manager, hmanager, hstopped, hclean, hpayloads, hsize, hlive⟩ := capturedSystem_ended
  have hwritten : (capturedSystem manager).backend.written.length = 2 := by
    rw [← List.length_map (·.payload), hpayloads]
    rfl
  obtain ⟨processor, hprocessor, hlost, hfatal, hkraken⟩ : ∃ processor,
      KrakenBookProcessor.create 10 = .ok processor ∧ (lostSystem processor).finished = true ∧
      (lostSystem processor).fatal ≠ none ∧ (lostManifest processor).isOk = true :=
    ⟨_, rfl, by decide +kernel, by decide +kernel, by decide +kernel⟩
  obtain ⟨⟨live, text⟩, hlive⟩ := exists_ok_of_isOk hlive
  obtain ⟨⟨kraken, text'⟩, hkraken⟩ := exists_ok_of_isOk hkraken
  refine ⟨manager, processor, live, kraken, text, text', hmanager, hprocessor, hlive,
    hkraken, ?_, ?_⟩
  · obtain ⟨_, hcapture, h⟩ := bind_ok hlive
    obtain ⟨_, htext, h⟩ := bind_ok h
    cases h
    unfold capturedSystem at hstopped hclean hwritten hsize htext ⊢
    have hagrees := (finalize_replay_agree (directoryWith _) 10 true ⟨[], [], [], [], [], []⟩ [] {}
      live text).1 _ {} manager capturedBook hmanager hcapture rfl hstopped (file_directoryWith _ _)
      htext
    have hvalid := (hagrees.1 hclean (fun bytes hbytes ↦ by
      rw [hbytes] at hsize
      exact of_decide_eq_true hsize)).2 false none
    rw [hwritten] at hvalid
    exact ⟨_, hvalid⟩
  · obtain ⟨_, hcapture, h⟩ := bind_ok hkraken
    obtain ⟨_, htext, h⟩ := bind_ok h
    cases h
    unfold lostSystem at hlost hfatal htext ⊢
    have hagrees := (finalize_replay_agree (directoryWith _) 10 true ⟨[], [], [], [], [], []⟩ [] {}
      kraken text').2 _ {} processor ⟨0⟩ lostDisk none none hcapture rfl hlost
      (file_directoryWith _ _) htext
    exact (hagrees.2 (.inr (.inl hfatal))).2 none

end ArbitrageEngine.Sessions
