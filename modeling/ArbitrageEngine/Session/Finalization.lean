import ArbitrageEngine.Session.Validation

/-!
# What the final manifest says

The fields of a manifest are assigned one after another, and the last assignment to a key counts.
Here it is shown what replay reads from the text that `finalize` has published.
-/

namespace ArbitrageEngine.Sessions

open Base ArbitrageEngine.Core Coinbase Json Kraken Pipeline Recording

/-! ### Readable fields -/

/-- Fields in the order of their keys whose values can be read back. -/
structure Readable (fields : List (Bytes × Value)) : Prop where
  sorted : fields.Pairwise fun a b ↦ a.1 < b.1
  plain : ∀ field ∈ fields, field.2.Plain

private theorem Readable.object {fields : List (Bytes × Value)} (h : Readable fields) :
    (Value.object fields).Plain :=
  .object h.sorted h.plain

/-- No fields at all can be read again. -/
theorem readable_nil : Readable [] := ⟨List.Pairwise.nil, List.forall_mem_nil _⟩

private theorem Readable.insertField {fields : List (Bytes × Value)}
    (h : Readable fields) (key : Bytes) {item : Value} (hi : item.Plain) :
    Readable (insertField key item fields) := by
  refine ⟨insertField_sorted h.sorted, fun field hf ↦ ?_⟩
  rcases mem_insertField hf with rfl | hf
  · exact hi
  · exact h.plain field hf

/-- Setting plain fields keeps an object readable. -/
theorem Readable.insertFields {fields done : List (Bytes × Value)} (h : Readable done)
    (hf : ∀ field ∈ fields, field.2.Plain) : Readable (insertFields fields done) := by
  refine ⟨insertFields_pairwise h.sorted, fun field hm ↦ ?_⟩
  rcases mem_insertFields hm with hm | hm
  · exact hf field hm
  · exact h.plain field hm

/-- A count is plain. -/
theorem plain_uint64 (n : Nat) : (uint64 n).Plain := .numberUnsigned (Nat.mod_lt _ (by decide))

/-- An index or null is plain. -/
theorem plain_optionalIndex (index : Option Nat) : (optionalIndex index).Plain := by
  cases index with
  | none => exact .null
  | some index => exact plain_uint64 index

private theorem plain_eventValue (event : LifecycleEvent) : (eventValue event).Plain := by
  refine Value.plain_objectOf fun field hf ↦ ?_
  simp only [List.mem_cons, List.not_mem_nil, or_false] at hf
  rcases hf with rfl | rfl | rfl
  · exact plain_uint64 _
  · exact .string _
  · exact .string _

/-- The metadata of a product are plain. -/
theorem plain_productMetadata (product : Bytes) : (productMetadata product).Plain := by
  refine Value.plain_objectOf fun field hf ↦ ?_
  rw [List.mem_singleton.mp hf]
  refine Value.plain_objectOf fun scale hs ↦ ?_
  rcases List.mem_pair.mp hs with rfl | rfl
  · exact .numberInteger (by decide) (by decide)
  · exact .numberInteger (by decide) (by decide)

private theorem plain_text (text : Bytes) : (Value.array [.string text]).Plain := by
  refine .array fun item hi ↦ ?_
  rw [List.mem_singleton.mp hi]
  exact .string text

private theorem plain_configuration : ∀ field ∈ configuration, field.2.Plain := by
  intro field hf
  simp only [configuration, List.mem_cons, List.not_mem_nil, or_false] at hf
  rcases hf with rfl | rfl | rfl | rfl
  · exact plain_text _
  · exact plain_text _
  · exact plain_productMetadata _
  · exact .numberInteger (by decide) (by decide)

private theorem plain_krakenFields (depth : Nat) : ∀ field ∈ krakenFields depth, field.2.Plain := by
  intro field hf
  simp only [krakenFields, List.mem_cons, List.not_mem_nil, or_false] at hf
  rcases hf with rfl | rfl | rfl | rfl | rfl | rfl
  · exact plain_text _
  · exact plain_text _
  · refine Value.plain_objectOf fun field hf ↦ ?_
    rw [List.mem_singleton.mp hf]
    exact .string _
  · refine Value.plain_objectOf fun field hf ↦ ?_
    rw [List.mem_singleton.mp hf]
    refine Value.plain_objectOf fun field hf ↦ ?_
    rcases List.mem_pair.mp hf with rfl | rfl
    · exact .string _
    · exact plain_uint64 depth
  · exact plain_productMetadata _
  · exact .numberInteger (by decide) (by decide)

private theorem plain_metricsValue (metrics : KrakenMetrics) : (metricsValue metrics).Plain := by
  refine Value.plain_objectOf fun field hf ↦ ?_
  simp only [List.mem_cons, List.not_mem_nil, or_false] at hf
  rcases hf with rfl | rfl | rfl | rfl | rfl | rfl | rfl | rfl | rfl | rfl | rfl | rfl | rfl
  all_goals exact plain_uint64 _

/-! ### Assignments to other keys -/

/-- A field that is not set stays. -/
theorem lookup_insertFields_other {key : Bytes} {fields done : List (Bytes × Value)}
    (h : key ∉ fields.map Prod.fst) : lookup key (insertFields fields done) = lookup key done := by
  induction fields generalizing done with
  | nil => rfl
  | cons field fields ih =>
    rw [List.map_cons, List.mem_cons, not_or] at h
    change lookup key (insertFields fields (insertField field.1 field.2 done)) = _
    rw [ih h.2, lookup_insertField, if_neg (Ne.symm h.1)]

/-! ### Captures -/

namespace Capture

/-- The configuration of a venue. -/
def config (depth : Nat) : KnownVenue → List (Bytes × Value)
  | .kraken => krakenFields depth
  | .coinbase => configuration

/-- The configuration is plain. -/
theorem plain_config (depth : Nat) (venue : KnownVenue) :
    ∀ field ∈ config depth venue, field.2.Plain := by
  cases venue with
  | kraken => exact plain_krakenFields depth
  | coinbase => exact plain_configuration

/-- The keys of the configurations. -/
def configKeys : List Bytes :=
  [ascii "venues", ascii "instruments", ascii "venue_symbols", ascii "subscriptions",
    ascii "product_metadata", ascii "processor_version"]

/-- What the constructor has put into a capture, and what stays until its end. -/
structure Started (sha256 : Bytes → Bytes) (venue : KnownVenue) (depth : Nat) (capture : Capture) :
    Prop where
  venue_eq : capture.venue = venue
  supported : venue = .kraken → depth ∈ supportedDepths
  configured : ∀ key ∈ configKeys,
    lookup key capture.fields = lookup key (insertFields (config depth venue) [])
  version : lookup (ascii "format_version") capture.fields = some (.numberInteger 1)
  hash : ∃ text, dump none (objectOf (config depth venue)) = .ok text ∧
    lookup (ascii "configuration_hash") capture.fields = some (.string (sha256 text))
  rawVenue : lookup (ascii "venue") capture.raw = some (.string (venueName venue))
  rawPath : lookup (ascii "path") capture.raw = some (.string (rawPath venue))
  readable : Readable capture.fields
  rawReadable : Readable capture.raw

private theorem plain_startFields (labels : Labels) (hash : Bytes) :
    ∀ field ∈ startFields labels hash, field.2.Plain := by
  intro field hf
  have htexts : ∀ a b c d : Bytes, (objectOf [(a, .string b), (c, .string d)]).Plain := by
    intro a b c d
    refine Value.plain_objectOf fun field hf ↦ ?_
    rcases List.mem_pair.mp hf with rfl | rfl
    · exact .string _
    · exact .string _
  simp only [startFields, List.mem_cons, List.not_mem_nil, or_false] at hf
  rcases hf with rfl | rfl | rfl | rfl | rfl | rfl | rfl
  · exact .numberInteger (by decide) (by decide)
  · exact .string _
  · exact .string _
  · exact .string _
  · exact htexts _ _ _ _
  · exact htexts _ _ _ _
  · exact .string _

/-- A new capture has started. -/
theorem create_started {sha256 : Bytes → Bytes} {venue : KnownVenue} {depth : Nat} {isNew : Bool}
    {labels : Labels} {capture : Capture}
    (h : create sha256 venue depth isNew labels = .ok capture) :
    capture.Started sha256 venue depth := by
  unfold create at h
  obtain ⟨-, h⟩ := check_ok h
  obtain ⟨fields, hconfig, h⟩ := bind_ok h
  obtain ⟨text, htext, h⟩ := bind_ok h
  obtain ⟨_, -, h⟩ := bind_ok h
  cases h
  have hvenue : fields = config depth venue ∧ (venue = .kraken → depth ∈ supportedDepths) := by
    cases venue with
    | coinbase =>
      cases hconfig
      exact ⟨rfl, nofun⟩
    | kraken =>
      simp only [configurationOf, krakenConfiguration] at hconfig
      split at hconfig
      · next hsupported =>
        cases hconfig
        exact ⟨rfl, fun _ ↦ hsupported⟩
      · cases hconfig
  obtain ⟨rfl, hsupported⟩ := hvenue
  have hkeys : (startFields labels (sha256 text)).map Prod.fst =
      [ascii "format_version", ascii "session_id", ascii "status", ascii "started_at_utc",
        ascii "application", ascii "platform", ascii "configuration_hash"] := rfl
  have hreadable : Readable (insertFields (config depth venue) []) :=
    readable_nil.insertFields (plain_config depth venue)
  refine ⟨rfl, hsupported, ?_, ?_, ⟨text, htext, ?_⟩, rfl, rfl, ?_, ?_⟩
  · intro key hkey
    apply lookup_insertFields_other
    rw [hkeys]
    revert key
    decide +kernel
  · rw [lookup_insertFields]
    rfl
  · rw [lookup_insertFields]
    rfl
  · exact hreadable.insertFields (plain_startFields labels (sha256 text))
  · refine readable_nil.insertFields fun field hf ↦ ?_
    rcases List.mem_pair.mp hf with rfl | rfl
    · exact .string _
    · exact .string _

/-- The keys that replay reads from what the constructor has written. -/
def startKeys : List Bytes :=
  configKeys ++ [ascii "format_version", ascii "configuration_hash"]

/-- Assignments to other keys keep what the constructor has written. -/
theorem Started.withFields {sha256 : Bytes → Bytes} {venue : KnownVenue} {depth : Nat}
    {capture capture' : Capture} (h : capture.Started sha256 venue depth)
    (hv : capture'.venue = capture.venue)
    (hsame : ∀ key ∈ startKeys, lookup key capture'.fields = lookup key capture.fields)
    (hraw : ∀ key ∈ [ascii "venue", ascii "path"], lookup key capture'.raw = lookup key capture.raw)
    (hr : Readable capture'.fields) (hr' : Readable capture'.raw) :
    capture'.Started sha256 venue depth := by
  obtain ⟨text, htext, hhash⟩ := h.hash
  refine ⟨hv.trans h.venue_eq, h.supported, ?_, ?_, ⟨text, htext, ?_⟩, ?_, ?_, hr, hr'⟩
  · intro key hkey
    rw [hsame key (List.mem_append_left _ hkey)]
    exact h.configured key hkey
  · rw [hsame _ (by decide)]
    exact h.version
  · rw [hsame _ (by decide)]
    exact hhash
  · rw [hraw _ (by decide)]
    exact h.rawVenue
  · rw [hraw _ (by decide)]
    exact h.rawPath

private theorem Started.insertField {sha256 : Bytes → Bytes} {venue : KnownVenue} {depth : Nat}
    {capture : Capture} (h : capture.Started sha256 venue depth) {key : Bytes} {item : Value}
    (hk : key ∉ startKeys) (hi : item.Plain) :
    { capture with fields := Json.insertField key item capture.fields }.Started sha256 venue
      depth := by
  refine h.withFields rfl ?_ (fun _ _ ↦ rfl) (h.readable.insertField key hi) h.rawReadable
  intro other hother
  rw [lookup_insertField, if_neg]
  rintro rfl
  exact hk hother

/-- Setting the metrics leaves a capture started. -/
theorem Started.setMetrics {sha256 : Bytes → Bytes} {venue : KnownVenue} {depth : Nat}
    {capture : Capture} (h : capture.Started sha256 venue depth) (metrics : Option KrakenMetrics) :
    (capture.setMetrics metrics).Started sha256 venue depth := by
  refine h.insertField (by decide +kernel) ?_
  cases metrics with
  | none => exact readable_nil.object
  | some metrics => exact plain_metricsValue metrics

/-- Setting the hash of the book leaves a capture started. -/
theorem Started.setFinalBookHash {sha256 : Bytes → Bytes} {venue : KnownVenue} {depth : Nat}
    {capture : Capture} (h : capture.Started sha256 venue depth) (hash : Option Bytes) :
    (capture.setFinalBookHash hash).Started sha256 venue depth := by
  cases hash with
  | none => exact h
  | some hash => exact h.insertField (by decide +kernel) (.string hash)

/-! ### The final fields -/

private theorem plain_statusFields (status : RuntimeStatus) (endedAt runtime : Bytes) :
    ∀ field ∈ statusFields status endedAt runtime, field.2.Plain := by
  intro field hf
  simp only [statusFields, List.mem_cons, List.not_mem_nil, or_false] at hf
  rcases hf with rfl | rfl | rfl | rfl | rfl | rfl | rfl | rfl | rfl | rfl
  · refine .array fun item hi ↦ ?_
    obtain ⟨event, -, rfl⟩ := List.mem_map.mp hi
    exact plain_eventValue event
  · exact .string _
  · exact .string _
  · exact .string _
  · exact plain_optionalIndex _
  · exact plain_optionalIndex _
  · exact plain_optionalIndex _
  · exact plain_optionalIndex _
  · exact plain_uint64 _
  · exact .boolean _

private theorem plain_rawFields (sha256 : Bytes → Bytes) (status : RuntimeStatus) (file : Bytes) :
    ∀ field ∈ rawFields sha256 status file, field.2.Plain := by
  intro field hf
  simp only [rawFields, List.mem_cons, List.not_mem_nil, or_false] at hf
  rcases hf with rfl | rfl | rfl | rfl | rfl
  · exact plain_uint64 _
  · exact .string _
  · exact plain_uint64 _
  · split
    · exact .numberInteger (by decide) (by decide)
    · exact .null
  · exact plain_optionalIndex _

/-- The scan adds at most the number of connections. -/
theorem scanned_fields (venue : KnownVenue) (status : RuntimeStatus) (outcome : SessionStatus)
    (file : Option Bytes) :
    (∀ field ∈ (scanned venue status outcome file).1, field.2.Plain) ∧
      ∀ key ∈ (scanned venue status outcome file).1.map Prod.fst, key = ascii "connections" := by
  unfold scanned
  split
  · split
    · refine ⟨?_, by simp⟩
      simpa using plain_uint64 _
    · simp
  · refine ⟨?_, by simp⟩
    simpa using Value.Plain.numberInteger (by decide) (by decide)

/-- What `finalize` has added. -/
structure Ended (sha256 : Bytes → Bytes) (status : RuntimeStatus) (file : Option Bytes)
    (outcome : SessionStatus) (runtime : Bytes) (final : Capture) : Prop where
  status_eq : lookup (ascii "status") final.fields = some (.string (statusName outcome))
  lifecycle : lookup (ascii "lifecycle_events") final.fields =
    some (.array (status.lifecycleEvents.map eventValue))
  runtime_eq : lookup (ascii "final_runtime_state") final.fields = some (.string runtime)
  received : lookup (ascii "last_received_index") final.fields =
    some (optionalIndex status.progress.lastReceivedIndex)
  enqueued : lookup (ascii "last_enqueued_index") final.fields =
    some (optionalIndex status.progress.lastEnqueuedIndex)
  written : lookup (ascii "last_written_index") final.fields =
    some (optionalIndex status.progress.lastWrittenIndex)
  processed : lookup (ascii "last_processed_index") final.fields =
    some (optionalIndex status.progress.lastProcessedIndex)
  unpersisted : lookup (ascii "unpersisted_records") final.fields =
    some (uint64 (status.receivedMessages + (2 ^ 64 - status.writtenMessages % 2 ^ 64)))
  tail : lookup (ascii "unpersisted_processed_tail") final.fields =
    some (.boolean (status.unpersistedProcessedRange ≠ []))
  raw : ∀ bytes, file = some bytes → ∀ field ∈ rawFields sha256 status bytes,
    lookup field.1 final.raw = some field.2

/-- The status and the number of connections are assigned behind the other fields. -/
theorem lookup_final {status : RuntimeStatus} {endedAt runtime : Bytes} {outcome : SessionStatus}
    {extra : List (Bytes × Value)} (hextra : ∀ key ∈ extra.map Prod.fst, key = ascii "connections")
    {key : Bytes} (hk : key ≠ ascii "connections") (hk' : key ≠ ascii "status")
    (fields : List (Bytes × Value)) :
    lookup key (insertFields (statusFields status endedAt runtime ++ extra ++
        [(ascii "status", Value.string (statusName outcome))]) fields) =
      lookup key (insertFields (statusFields status endedAt runtime) fields) := by
  rw [List.append_assoc, insertFields, List.foldl_append]
  apply lookup_insertFields_other
  rw [List.map_append, List.mem_append, not_or]
  refine ⟨fun hmem ↦ hk (hextra key hmem), ?_⟩
  simpa using hk'

/-- A capture that was given its status has ended with it. -/
theorem withStatus_ended (sha256 : Bytes → Bytes) (capture : Capture) (endedAt : Bytes)
    (file : Option Bytes) (status : RuntimeStatus) (outcome : SessionStatus) (runtime : Bytes) :
    (capture.withStatus sha256 endedAt file status outcome runtime).Ended sha256 status file
      (settledStatus status (scanned capture.venue status outcome file).2) runtime := by
  have hextra := (scanned_fields capture.venue status outcome file).2
  have hother : ∀ key, key ≠ ascii "connections" → key ≠ ascii "status" →
      lookup key (capture.withStatus sha256 endedAt file status outcome runtime).fields =
        (lookup key (statusFields status endedAt runtime).reverse).or (lookup key capture.fields) :=
    fun key hk hk' ↦ (lookup_final hextra hk hk' _).trans (lookup_insertFields _ _ _)
  refine ⟨?_, ?_, ?_, ?_, ?_, ?_, ?_, ?_, ?_, ?_⟩
  · rw [withStatus, insertFields, List.foldl_append, List.foldl_cons, List.foldl_nil,
      lookup_insertField, if_pos rfl]
  · exact hother _ (by decide) (by decide)
  · exact hother _ (by decide) (by decide)
  · exact hother _ (by decide) (by decide)
  · exact hother _ (by decide) (by decide)
  · exact hother _ (by decide) (by decide)
  · exact hother _ (by decide) (by decide)
  · exact hother _ (by decide) (by decide)
  · exact hother _ (by decide) (by decide)
  · rintro bytes rfl field hfield
    change lookup field.1 (insertFields (rawFields sha256 status bytes) capture.raw) = _
    rw [lookup_insertFields]
    simp only [rawFields, List.mem_cons, List.not_mem_nil, or_false] at hfield
    rcases hfield with rfl | rfl | rfl | rfl | rfl <;> rfl

/-- `finalize` keeps what the constructor has written, but for the status. -/
theorem Started.withStatus {sha256 : Bytes → Bytes} {venue : KnownVenue} {depth : Nat}
    {capture : Capture} (h : capture.Started sha256 venue depth) (endedAt : Bytes)
    (file : Option Bytes) (status : RuntimeStatus) (outcome : SessionStatus) (runtime : Bytes) :
    (capture.withStatus sha256 endedAt file status outcome runtime).Started sha256 venue depth := by
  obtain ⟨hplain, hextra⟩ := scanned_fields capture.venue status outcome file
  have hkeys : (statusFields status endedAt runtime).map Prod.fst =
      [ascii "lifecycle_events", ascii "final_runtime_state", ascii "ended_at_utc",
        ascii "stop_reason", ascii "last_received_index", ascii "last_enqueued_index",
        ascii "last_written_index", ascii "last_processed_index", ascii "unpersisted_records",
        ascii "unpersisted_processed_tail"] := rfl
  refine h.withFields rfl ?_ ?_ ?_ ?_
  · intro key hkey
    have hother : key ≠ ascii "connections" ∧ key ≠ ascii "status" ∧
        key ∉ (statusFields status endedAt runtime).map Prod.fst := by
      rw [hkeys]
      revert key
      decide +kernel
    exact (lookup_final hextra hother.1 hother.2.1 _).trans
      (lookup_insertFields_other hother.2.2)
  · intro key hkey
    apply lookup_insertFields_other
    cases file with
    | none => exact List.not_mem_nil
    | some bytes =>
      have hraw : (rawFields sha256 status bytes).map Prod.fst =
          [ascii "bytes", ascii "sha256", ascii "records", ascii "first_record_index",
            ascii "last_record_index"] := rfl
      change key ∉ (rawFields sha256 status bytes).map Prod.fst
      rw [hraw]
      revert key
      decide +kernel
  · refine h.readable.insertFields ?_
    rw [List.forall_mem_append, List.forall_mem_append]
    refine ⟨⟨plain_statusFields status endedAt runtime, hplain⟩, fun field hfield ↦ ?_⟩
    rw [List.mem_singleton.mp hfield]
    exact .string _
  · refine h.rawReadable.insertFields ?_
    cases file with
    | none => exact List.forall_mem_nil _
    | some bytes => exact plain_rawFields sha256 status bytes

/-! ### What replay reads -/

/-- A field of the manifest, as it is read again. -/
theorem manifest_atKey {capture : Capture} {key : Bytes} {item : Value}
    (hk : ascii "raw_files" ≠ key) (h : lookup key capture.fields = some item) :
    capture.manifest.reread.atKey key = .ok item.reread := by
  apply Value.atKey_reread rfl
  change lookup key (Json.insertField _ _ capture.fields) = some item
  rw [lookup_insertField, if_neg hk]
  exact h

/-- The raw file of the manifest, as it is read again. -/
theorem manifest_rawFiles (capture : Capture) :
    capture.manifest.reread.atKey (ascii "raw_files") =
      .ok (.array [(Value.object capture.raw).reread]) := by
  have hfind : capture.manifest.find? (ascii "raw_files") =
      some (.array [.object capture.raw]) := by
    change lookup (ascii "raw_files") (Json.insertField _ _ capture.fields) = _
    rw [lookup_insertField, if_pos rfl]
  exact Value.atKey_reread rfl hfind

/-- A field of the raw file, as it is read again. -/
theorem raw_atKey {capture : Capture} {key : Bytes} {item : Value}
    (h : lookup key capture.raw = some item) :
    (Value.object capture.raw).reread.atKey key = .ok item.reread :=
  Value.atKey_reread rfl h

/-- A manifest that was published is read back. -/
theorem Started.parse_publish {sha256 : Bytes → Bytes} {venue : KnownVenue} {depth : Nat}
    {capture : Capture} (h : capture.Started sha256 venue depth) {text : Bytes}
    (ht : publish capture.manifest = .ok text) :
    Json.parse text = .ok capture.manifest.reread := by
  obtain ⟨written, hwritten, htext⟩ := bind_ok ht
  cases htext
  have hraw : (Value.array [.object capture.raw]).Plain := by
    refine .array fun item hi ↦ ?_
    rw [List.mem_singleton.mp hi]
    exact h.rawReadable.object
  refine parse_dump (h.readable.insertField _ hraw).object hwritten ?_
  intro c hc
  rw [List.mem_singleton.mp hc]
  rfl

end Capture

end ArbitrageEngine.Sessions
