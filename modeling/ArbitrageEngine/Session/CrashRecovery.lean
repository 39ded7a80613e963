import ArbitrageEngine.Session.ResultTexts

/-!
# What a crash leaves of a session

`src/session/session.cpp`, `src/recording/raw_event_recorder.cpp`: a capture that is killed leaves
the manifest of its constructor and some first part of its raw file. `replay` refuses the session
unless `--allow-incomplete` is given; then it reads back every record whose newline was written.
-/

namespace ArbitrageEngine.Sessions

open Base ArbitrageEngine.Core Coinbase Json Kraken Pipeline Recording

/-! ### The raw file -/

/-- The text of the reader's error behind the last newline. -/
def truncated : Bytes := ascii "truncated JSONL: missing final newline"

/-- The file ends with a line. -/
def Whole (file : Bytes) : Prop := file = [] ∨ file.getLast? = some 0x0A

instance (file : Bytes) : Decidable (Whole file) := inferInstanceAs (Decidable (_ ∨ _))

section Parts

variable {recorder : RawEventRecorder} {messages : List RawMessage} {venue : KnownVenue}
variable {file : Bytes} {n : Nat}

/-- A first part of a recording has the records whose newlines are in it; the reader is at an error
behind them if the part ends within a line. -/
theorem readAll_part (h : recorder.Holds messages) (hfile : file = recorder.output.take n) :
    ∃ reader, (RawEventReader.create (some file)).readAll (file.length + 1) =
        (messages.take (file.count 0x0A), reader) ∧
      reader.lastError = if Whole file then [] else truncated := by
  obtain ⟨-, -, lines, hlines, houtput⟩ := h
  obtain ⟨part, hpart, htake⟩ := take_joinLines hlines.line n
  rw [← houtput, ← hfile] at htake
  have hcount := List.count_le_length (a := (0x0A : UInt8)) (l := file)
  have hcreate : (RawEventReader.create (some file)).Good := ⟨rfl, rfl, rfl⟩
  obtain ⟨reader, hread, herror⟩ := readAll_lines (hlines.take (file.count 0x0A)) hcreate rfl rfl
    hpart htake (c := file.length + 1) (by rw [List.length_take]; omega)
  refine ⟨reader, hread, herror.trans ?_⟩
  have hends : Whole file ↔ part = [] := by
    have hlast := getLast?_joinLines_append (lines.take (file.count 0x0A)) hpart
    rwa [← htake] at hlast
  by_cases hnone : part = []
  · rw [if_pos hnone, if_pos (hends.mpr hnone)]
  · rw [if_neg hnone, if_neg fun whole ↦ hnone (hends.mp whole)]
    rfl

private theorem rawRecords_part (h : recorder.Holds messages)
    (hfile : file = recorder.output.take n) :
    rawRecords file = messages.take (file.count 0x0A) := by
  obtain ⟨reader, hread, -⟩ := readAll_part h hfile
  exact congrArg Prod.fst hread

private theorem not_any_venue (hv : ∀ message ∈ messages, message.venue = venue) (k : Nat) :
    ¬((messages.take k).any (·.venue ≠ venue)) = true := by
  have hmem : ∀ message ∈ messages.take k, message.venue = venue :=
    fun message hmessage ↦ hv message (List.mem_of_mem_take hmessage)
  simpa using hmem

/-- A part that ends with a line is scanned. -/
theorem scan_whole (h : recorder.Holds messages) (hv : ∀ message ∈ messages, message.venue = venue)
    (hfile : file = recorder.output.take n) (hsize : file.length < 2 ^ 64) (whole : Whole file) :
    ∃ connections, scan file venue =
      .ok ⟨(messages.take (file.count 0x0A)).length, connections⟩ := by
  obtain ⟨reader, hread, herror⟩ := readAll_part h hfile
  have hle := length_rawRecords_le file
  rw [rawRecords_part h hfile] at hle
  rw [if_pos whole] at herror
  refine ⟨((messages.take (file.count 0x0A)).map RawMessage.connectionId).dedup.length, ?_⟩
  simp only [scan, hread, if_neg (not_any_venue hv _), RawEventReader.hasError, herror,
    Nat.mod_eq_of_lt (Nat.lt_of_le_of_lt hle hsize)]
  rfl

/-- Any other part is refused. -/
theorem scan_torn (h : recorder.Holds messages) (hv : ∀ message ∈ messages, message.venue = venue)
    (hfile : file = recorder.output.take n) (torn : ¬Whole file) :
    scan file venue = .error ⟨.runtimeError, truncated⟩ := by
  obtain ⟨reader, hread, herror⟩ := readAll_part h hfile
  rw [if_neg torn] at herror
  simp only [scan, hread, if_neg (not_any_venue hv _), RawEventReader.hasError, herror]
  rfl

end Parts

/-! ### The manifest -/

namespace Capture

variable {sha256 : Bytes → Bytes} {venue : KnownVenue} {depth : Nat} {isNew : Bool}
  {labels : Labels}
variable {capture : Capture}

/-- The keys of a configuration. -/
theorem configKeys_of_configurationOf {fields : List (Bytes × Value)}
    (h : configurationOf depth venue = .ok fields) :
    ∀ key ∈ fields.map Prod.fst, key ∈ configKeys := by
  cases venue with
  | coinbase =>
    cases h
    decide +kernel
  | kraken =>
    simp only [configurationOf, krakenConfiguration] at h
    split at h
    · cases h
      exact fun key hkey ↦ hkey
    · cases h

/-- What the constructor has written besides the configuration, and what it has not. -/
theorem create_fields (h : create sha256 venue depth isNew labels = .ok capture) :
    lookup (ascii "status") capture.fields = some (.string (statusName .inProgress)) ∧
    lookup (ascii "session_id") capture.fields = some (.string labels.sessionId) ∧
    lookup (ascii "lifecycle_events") capture.fields = none ∧
    capture.raw = insertFields
      [(ascii "venue", .string (venueName venue)),
        (ascii "path", .string (Sessions.rawPath venue))] [] := by
  unfold create at h
  obtain ⟨-, h⟩ := check_ok h
  obtain ⟨fields, hconfig, h⟩ := bind_ok h
  obtain ⟨text, htext, h⟩ := bind_ok h
  obtain ⟨_, -, h⟩ := bind_ok h
  cases h
  refine ⟨?_, ?_, ?_, rfl⟩
  · rw [lookup_insertFields]
    rfl
  · rw [lookup_insertFields]
    rfl
  · have hstart : ascii "lifecycle_events" ∉ (startFields labels (sha256 text)).map Prod.fst := by
      show ascii "lifecycle_events" ∉ [ascii "format_version", ascii "session_id", ascii "status",
        ascii "started_at_utc", ascii "application", ascii "platform", ascii "configuration_hash"]
      decide +kernel
    have hfields : ascii "lifecycle_events" ∉ fields.map Prod.fst := by
      intro hkey
      exact absurd (configKeys_of_configurationOf hconfig _ hkey) (by decide +kernel)
    rw [lookup_insertFields_other hstart, lookup_insertFields_other hfields]
    rfl

/-- The constructor's manifest has no lifecycle events. -/
theorem find?_lifecycle_created (h : create sha256 venue depth isNew labels = .ok capture) :
    capture.manifest.reread.find? (ascii "lifecycle_events") = none := by
  obtain ⟨-, -, hevents, -⟩ := create_fields h
  have hfind : capture.manifest.find? (ascii "lifecycle_events") = none := by
    change lookup _ (Json.insertField _ _ capture.fields) = _
    rw [lookup_insertField, if_neg (by decide), hevents]
  rw [Value.find?_reread, hfind]
  rfl

/-- The validation of the constructor's manifest comes down to the scan of the raw file. -/
theorem validateManifest_created {env : Surroundings} {file : Bytes}
    (h : create env.sha256 venue depth isNew labels = .ok capture)
    (hfile : env.file (Sessions.rawPath venue) = some file)
    (hinside : env.outside (Sessions.rawPath venue) = false) :
    validateManifest env true capture.manifest.reread =
      (scan file venue).map fun scanned ↦
        ⟨false, venue, sessionDepth depth venue, scanned.records, []⟩ := by
  have started := create_started h
  obtain ⟨hstatus, -, -, hraw⟩ := create_fields h
  obtain ⟨text, htext, hhash⟩ := started.hash
  have hconfig := checkConfiguration_ok started.configured_manifest started.supported htext
    (manifest_atKey (by decide) hhash)
  have hcheck : checkStatus true capture.manifest.reread = .ok false := by
    rw [checkStatus, manifest_atKey (by decide) hstatus]
    rfl
  have hmetadata : checkMetadata env false (Value.object capture.raw).reread file venue =
      (scan file venue).map Scan.records := by
    have habsent : ∀ key ∈ [ascii "bytes", ascii "records", ascii "sha256"],
        (Value.object capture.raw).reread.contains key = false := by
      rw [hraw]
      cases venue <;> decide +kernel
    have hskip (key : Bytes) (hkey : key ∈ [ascii "bytes", ascii "records", ascii "sha256"])
        (check : Except Failure Unit) :
        whenPresent false (Value.object capture.raw).reread key check = .ok () := by
      rw [whenPresent, habsent key hkey]
      rfl
    rw [checkMetadata]
    rw [hskip _ (by decide), hskip _ (by decide), hskip _ (by decide), hskip _ (by decide)]
    cases scan file venue with
    | error failure => rfl
    | ok scanned =>
      change (whenPresent false (Value.object capture.raw).reread (ascii "records") _ >>= _) = _
      rw [hskip _ (by decide)]
      rfl
  have hlifecycle := find?_lifecycle_created h
  simp only [validateManifest, started.checkVersion, hcheck, hconfig,
    checkRawFile_ok started hfile hinside, hmetadata, hlifecycle, bind, Except.bind]
  cases scan file venue <;> rfl

end Capture

/-! ### Crashed sessions -/

/-- What is left of a capture that was killed: the manifest of its constructor and a first part of
what the recorder has written. -/
structure Crashed (env : Surroundings) (venue : KnownVenue) (depth : Nat) (text : Bytes)
    (messages : List RawMessage) (file : Bytes) : Prop where
  manifest : ∃ isNew labels capture,
    Capture.create env.sha256 venue depth isNew labels = .ok capture ∧
    publish capture.manifest = .ok text
  recording : ∃ calls n, ((RawEventRecorder.create false).appendAll calls).2 = messages ∧
    file = ((RawEventRecorder.create false).appendAll calls).1.output.take n
  venues : ∀ message ∈ messages, message.venue = venue
  found : env.file (rawPath venue) = some file
  inside : env.outside (rawPath venue) = false
  small : file.length < 2 ^ 64

section Crash

variable {env : Surroundings} {venue : KnownVenue} {depth : Nat} {text file : Bytes}
variable {messages : List RawMessage}

private theorem Crashed.holds (h : Crashed env venue depth text messages file) :
    ∃ recorder n, RawEventRecorder.Holds recorder messages ∧ file = recorder.output.take n := by
  obtain ⟨calls, n, rfl, hfile⟩ := h.recording
  have hholds := RawEventRecorder.holds_create.appendAll calls
  rw [List.nil_append] at hholds
  exact ⟨_, n, hholds, hfile⟩

/-- A crashed session opens exactly if its raw file is scanned. -/
theorem Crashed.openSession_eq (h : Crashed env venue depth text messages file) :
    ∃ manifest : Value, manifest.contains (ascii "session_id") = true ∧
      manifest.find? (ascii "lifecycle_events") = none ∧
      openSession env true none (some text) = (scan file venue).map fun scanned ↦
        ⟨text, manifest, ⟨false, venue, sessionDepth depth venue, scanned.records, []⟩,
          .inProgress, file⟩ := by
  obtain ⟨isNew, labels, capture, hcreate, hpublish⟩ := h.manifest
  have started := Capture.create_started hcreate
  obtain ⟨hstatus, hid, -, -⟩ := Capture.create_fields hcreate
  refine ⟨capture.manifest.reread, contains_of_atKey (Capture.manifest_atKey (by decide) hid),
    Capture.find?_lifecycle_created hcreate, ?_⟩
  have hsession : sessionStatus capture.manifest.reread = .ok .inProgress := by
    rw [sessionStatus, Capture.manifest_atKey (by decide) hstatus]
    rfl
  have hraw := Capture.checkRawFile_ok started h.found h.inside
  rw [openSession, openManifest]
  change (Json.parse text >>= _) = _
  rw [started.parse_publish hpublish]
  change (validateManifest env true capture.manifest.reread >>= _) = _
  rw [Capture.validateManifest_created hcreate h.found h.inside]
  cases scan file venue with
  | error failure => rfl
  | ok scanned =>
    change (sessionStatus capture.manifest.reread >>= _) = _
    rw [hsession]
    change (checkRawFile env capture.manifest.reread venue >>= _) = _
    rw [hraw]
    rfl

/-- A replay that was not told to allow incomplete sessions does not find a manifest. With the
option every record whose newline was written is read back, and the result is marked as no valid
research; a Kraken session is then replayed unless its connections are out of order. A file that
ends within a line is refused. -/
theorem crashed_session_replays (h : Crashed env venue depth text messages file)
    (crc : Bytes → UInt32) (includeFinalBook : Bool) :
    replay env crc false includeFinalBook none (some text) =
      runtimeError "missing session manifest" ∧
    (¬Whole file → replay env crc true includeFinalBook none (some text) =
      .error ⟨.runtimeError, truncated⟩) ∧
    (Whole file → ∃ session, openSession env true none (some text) = .ok session ∧
      session.records = messages.take (file.count 0x0A) ∧
      session.status = .inProgress ∧
      session.validated =
        ⟨false, venue, sessionDepth depth venue, session.records.length, []⟩ ∧
      (∀ result, replay env crc true includeFinalBook none (some text) = .ok result →
        researchValid result = false ∧
        result.find? (ascii "messages_read") = some (uint64 session.records.length)) ∧
      (venue = .kraken → (∀ text, IsUtf8 (env.sha256 text)) →
        ((replay env crc true includeFinalBook none (some text)).isOk = true ↔
          Ordered session.records))) := by
  obtain ⟨recorder, n, hholds, hfile⟩ := h.holds
  obtain ⟨manifest, hid, hevents, hopen⟩ := h.openSession_eq
  refine ⟨rfl, ?_, ?_⟩
  · intro torn
    rw [scan_torn hholds h.venues hfile torn] at hopen
    unfold replay
    rw [hopen]
    rfl
  · intro whole
    obtain ⟨connections, hscan⟩ := scan_whole hholds h.venues hfile h.small whole
    rw [hscan] at hopen
    have hrecords := rawRecords_part hholds hfile
    refine ⟨_, hopen, hrecords, rfl, ?_, ?_, ?_⟩
    · rw [OpenSession.records, hrecords]
    · intro result hresult
      refine ⟨?_, find?_messages hopen h.small hresult⟩
      obtain ⟨branch, -, hresult⟩ := replay_ok hopen hresult
      obtain ⟨parts, rfl, -⟩ := replayResult_ok hresult
      rw [researchValid, parts.find?_fields 6 rfl]
    · intro hkraken hsha
      rw [replay_isOk_iff crc includeFinalBook hsha hopen h.small,
        kraken_branch_iff crc (openSession_sound hopen h.small) hkraken]
      have harray : ∀ fields, lifecycleEvents manifest = .object fields → fields = [] := by
        rw [lifecycleEvents, hevents]
        nofun
      exact ⟨fun hreplay ↦ hreplay.2.1, fun hordered ↦ ⟨hid, hordered, harray⟩⟩

end Crash

/-- The directory of a session whose recorder was killed after so many bytes. -/
def crashDirectory (n : Nat) : Surroundings :=
  directoryWith (some ((twoConnections .kraken).take n))

/-- What is left after so many bytes. -/
private theorem crashed_two {n : Nat} {capture : Capture} {text : Bytes}
    (hcapture : Capture.create countDigest .kraken 10 true ⟨[], [], [], [], [], []⟩ = .ok capture)
    (htext : publish capture.manifest = .ok text)
    (hsmall : ((twoConnections .kraken).take n).length < 2 ^ 64) :
    Crashed (crashDirectory n) .kraken 10 text
      ((RawEventRecorder.create false).appendAll (twoCalls .kraken)).2
      ((twoConnections .kraken).take n) :=
  ⟨⟨true, _, capture, hcapture, htext⟩, ⟨twoCalls .kraken, n, rfl, rfl⟩, by decide +kernel,
    file_directoryWith _ _, rfl, hsmall⟩

/-- Within the first line the torn line is reported; behind it one record is replayed. -/
theorem crashed_session_replays_cut :
    ∃ text, replay (crashDirectory 40) Crc.crc32 false false none (some text) =
        runtimeError "missing session manifest" ∧
      replay (crashDirectory 40) Crc.crc32 true false none (some text) =
        .error ⟨.runtimeError, truncated⟩ ∧
      ∃ session, openSession (crashDirectory 162) true none (some text) = .ok session ∧
        session.records.map (·.payload) = [subscriptions] ∧
        (replay (crashDirectory 162) Crc.crc32 true false none (some text)).isOk = true := by
  have hisOk :
      (Capture.create countDigest .kraken 10 true ⟨[], [], [], [], [], []⟩).isOk = true := by
    decide +kernel
  obtain ⟨capture, hcapture⟩ := exists_ok_of_isOk hisOk
  obtain ⟨text, htext⟩ := exists_ok_of_isOk
    ((publish_isOk_iff _).mpr (Capture.create_writable hcapture).manifest)
  obtain ⟨hrefused, htorn, -⟩ := crashed_session_replays
    (crashed_two (n := 40) hcapture htext (by decide +kernel)) Crc.crc32 false
  obtain ⟨-, -, hwhole⟩ := crashed_session_replays
    (crashed_two (n := 162) hcapture htext (by decide +kernel)) Crc.crc32 false
  obtain ⟨session, hopen, hrecords, -, -, -, hreplay⟩ := hwhole (by decide +kernel)
  refine ⟨text, hrefused, htorn (by decide +kernel), session, hopen, ?_, ?_⟩
  · rw [hrecords]
    decide +kernel
  · refine (hreplay rfl fun text ↦ isUtf8_of_isAscii (isAscii_countDigest text)).mpr ?_
    rw [hrecords]
    decide +kernel

end ArbitrageEngine.Sessions
