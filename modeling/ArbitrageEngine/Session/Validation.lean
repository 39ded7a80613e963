import ArbitrageEngine.Session.Capture

/-!
# What replay demands of a session

`src/session/session.cpp`: the part of `replay` before the records are processed. The directory
of the session is a function from the paths in it to the files there.
-/

namespace ArbitrageEngine.Sessions

open Base ArbitrageEngine.Core Coinbase Json Kraken Pipeline Recording

/-! ### Surroundings -/

/-- What the validation reads besides the manifest, and what it leaves to libraries. -/
structure Surroundings where
  sha256 : Bytes → Bytes
  /-- Comparison with a floating-point number. -/
  floats : Value → Value → Bool
  /-- A floating-point number as a `std::size_t`. -/
  truncated : Bytes → Nat
  /-- The file under a relative path, if `canonical` finds one. -/
  file : Bytes → Option Bytes
  /-- The file is outside of the session. -/
  outside : Bytes → Bool

/-- The lower-case digit of a number below sixteen. -/
def hexadecimalDigit (n : Nat) : UInt8 :=
  if n < 10 then UInt8.ofNat (0x30 + n) else UInt8.ofNat (0x57 + n)

/-- A text in the form of a SHA-256, sixty-four hexadecimal digits; it counts the bytes. -/
def countDigest (text : Bytes) : Bytes :=
  (List.range 64).map fun i ↦ hexadecimalDigit (text.length / 16 ^ (63 - i) % 16)

/-- A session directory with one file. -/
def directoryWith (file : Option Bytes) : Surroundings where
  sha256 := countDigest
  floats := fun _ _ ↦ false
  truncated := fun _ ↦ 0
  file := fun _ ↦ file
  outside := fun _ ↦ false

/-- The directory has one file, under any path. -/
theorem file_directoryWith (file : Option Bytes) (path : Bytes) :
    (directoryWith file).file path = file := rfl

/-- The digest is ASCII. -/
theorem isAscii_countDigest (text : Bytes) : isAscii (countDigest text) = true := by
  have hdigit : ∀ n < 16, hexadecimalDigit n < 0x80 := by decide
  rw [isAscii, countDigest, List.all_map, List.all_eq_true]
  intro i _
  exact decide_eq_true (hdigit _ (Nat.mod_lt _ (by decide)))

/-- The digest is not empty. -/
theorem countDigest_ne_nil (text : Bytes) : countDigest text ≠ [] := by
  rw [countDigest, Ne, List.map_eq_nil_iff, List.range_eq_nil]
  decide

/-- What the record loops go on with. -/
structure Validated where
  complete : Bool
  venue : KnownVenue
  depth : Nat
  records : Nat
  lifecycle : List LifecycleEntry
  deriving DecidableEq, Repr

variable (env : Surroundings)

/-- `if (value.at(key) != expected) throw std::runtime_error(text)`. -/
def demand (text : String) (value : Value) (key : Bytes) (expected : Value) :
    Except Failure Unit := do
  let item ← value.atKey key
  if !item.equals env.floats expected then runtimeError text

/-! ### The manifest -/

/-- The version of the manifest (`src/session/session.cpp:258–259`). -/
def checkVersion (manifest : Value) : Except Failure Unit := do
  let version ← manifest.atKey (ascii "format_version")
  if !version.isNumberUnsigned || !version.equals env.floats (.numberInteger 1) then
    runtimeError "unsupported manifest version"

/-- The values of `statuses` (`src/session/session.cpp:260–262`). -/
def statuses : List SessionStatus :=
  [.inProgress, .complete, .recordingFailure, .queueOverflow, .processingFailure, .interrupted]

/-- The status; `complete` afterwards (`src/session/session.cpp:263–267`). -/
def checkStatus (allowIncomplete : Bool) (manifest : Value) : Except Failure Bool := do
  let status ← (← manifest.atKey (ascii "status")).getString
  if status ∉ statuses.map statusName then runtimeError "unknown session status"
  if status ≠ statusName .complete ∧ !allowIncomplete then
    runtimeError "incomplete session requires --allow-incomplete"
  return status = statusName .complete

/-- The venue of the session (`src/session/session.cpp:268`). -/
def checkVenue (manifest : Value) : Except Failure KnownVenue := do
  let venues ← manifest.atKey (ascii "venues")
  return if venues.equals env.floats (.array [.string (ascii "kraken")]) then .kraken else .coinbase

/-- The depth of the subscription and the configuration that belongs to it
(`src/session/session.cpp:269–272`). -/
def expectedConfiguration (manifest : Value) :
    KnownVenue → Except Failure (Nat × List (Bytes × Value))
  | .kraken => do
    let subscriptions ← manifest.atKey (ascii "subscriptions")
    let subscription ← subscriptions.atKey (ascii "kraken:BTC_USD")
    let depth ← (← subscription.atKey (ascii "depth")).getSize env.truncated
    let config ← krakenConfiguration depth
    return (depth, insertFields config [])
  | .coinbase => .ok (100, insertFields configuration [])

/-- `product_key` (`src/session/session.cpp:273`). -/
def productKey : KnownVenue → Bytes
  | .kraken => ascii "kraken:BTC_USD"
  | .coinbase => ascii "coinbase:BTC-USD"

/-- One scale of the recorded precision (`src/session/session.cpp:282–284`). -/
def checkScale (precision : Value) (key : Bytes) : Except Failure Unit := do
  let scale ← precision.atKey key
  if !scale.isNumberUnsigned || 18 < scale.getUint64 then runtimeError "unsupported precision scale"

/-- The recorded products (`src/session/session.cpp:274–284`). -/
def checkProducts (products : Value) (key : Bytes) : Except Failure Unit := do
  if !products.isObject || products.size ≠ 1 || !products.contains key then
    runtimeError "unexpected product metadata"
  let precision ← products.atKey key
  if !precision.isObject || precision.size ≠ 2 then runtimeError "invalid precision metadata"
  checkScale precision (ascii "price_scale")
  checkScale precision (ascii "quantity_scale")

/-- The checks that only Kraken sessions go through (`src/session/session.cpp:285–290`). -/
def checkKraken (manifest products : Value) (config : List (Bytes × Value)) :
    KnownVenue → Except Failure Unit
  | .coinbase => .ok ()
  | .kraken => do
    let expected := Value.object config
    if !products.equals env.floats (expected.index (ascii "product_metadata")) then
      runtimeError "unsupported Kraken precision"
    let demand := demand env "unsupported Kraken subscription" manifest
    demand (ascii "venue_symbols") (expected.index (ascii "venue_symbols"))
    demand (ascii "subscriptions") (expected.index (ascii "subscriptions"))

/-- A field of the configuration (`src/session/session.cpp:292–294`). -/
def checkField (manifest : Value) (config : List (Bytes × Value)) (key : Bytes) :
    Except Failure Unit := do
  let expected ← (Value.object config).atKey key
  demand env "unexpected venue, instrument, precision or processor configuration" manifest key
    expected

/-- The configuration with its hash; the venue and the depth afterwards
(`src/session/session.cpp:268–296`). -/
def checkConfiguration (manifest : Value) : Except Failure (KnownVenue × Nat) := do
  let venue ← checkVenue env manifest
  let (depth, config) ← expectedConfiguration env manifest venue
  let products ← manifest.atKey (ascii "product_metadata")
  checkProducts products (productKey venue)
  checkKraken env manifest products config venue
  let config := insertField (ascii "product_metadata") products config
  checkField env manifest config (ascii "venues")
  checkField env manifest config (ascii "instruments")
  checkField env manifest config (ascii "product_metadata")
  checkField env manifest config (ascii "processor_version")
  let text ← dump none (.object config)
  demand env "configuration hash mismatch" manifest (ascii "configuration_hash")
    (.string (env.sha256 text))
  return (venue, depth)

/-! ### The raw file -/

/-- `raw_files[0]` and its file. The rest of the text that `canonical` throws is left out
(`src/session/session.cpp:297–310`). -/
def checkRawFile (manifest : Value) (venue : KnownVenue) : Except Failure (Value × Bytes) := do
  let files ← manifest.atKey (ascii "raw_files")
  if files.size ≠ 1 then runtimeError "expected one Coinbase raw file"
  let metadata ← files.atFirst
  demand env "unexpected raw venue" metadata (ascii "venue") (.string (venueName venue))
  let relative ← (← metadata.atKey (ascii "path")).getString
  if relative.head? = some 0x2F then runtimeError "raw path must be relative"
  match env.file relative with
  | none => runtimeError "filesystem error: cannot make canonical path"
  | some file =>
    if env.outside relative then runtimeError "raw path escapes session"
    return (metadata, file)

/-- `(complete || metadata.contains(key)) && ...` (`src/session/session.cpp:312,314,317,323`). -/
def whenPresent (complete : Bool) (metadata : Value) (key : Bytes) (check : Except Failure Unit) :
    Except Failure Unit :=
  if complete || metadata.contains key then check else .ok ()

/-- A count of the metadata (`src/session/session.cpp:312–313`). -/
def checkCount (metadata : Value) (key : Bytes) : Except Failure Unit := do
  let count ← metadata.atKey key
  if !count.isNumberUnsigned then runtimeError "invalid raw metadata count"

/-- The metadata of the raw file; the number of its records afterwards
(`src/session/session.cpp:311–324`). -/
def checkMetadata (complete : Bool) (metadata : Value) (file : Bytes) (venue : KnownVenue) :
    Except Failure Nat := do
  let present := whenPresent complete metadata
  present (ascii "bytes") (checkCount metadata (ascii "bytes"))
  present (ascii "records") (checkCount metadata (ascii "records"))
  present (ascii "bytes")
    (demand env "raw file size mismatch" metadata (ascii "bytes") (uint64 file.length))
  present (ascii "sha256")
    (demand env "raw checksum mismatch" metadata (ascii "sha256") (.string (env.sha256 file)))
  let scanned ← scan file venue
  present (ascii "records")
    (demand env "raw record count mismatch" metadata (ascii "records") (uint64 scanned.records))
  return scanned.records

/-- The last index of so many records (`src/session/session.cpp:326`). -/
def lastIndex (records : Nat) : Value := if records ≠ 0 then uint64 (records - 1) else .null

/-- The checks of a complete session (`src/session/session.cpp:325–339`). -/
def checkComplete (manifest metadata : Value) (records : Nat) : Except Failure Unit := do
  let progress := demand env "inconsistent complete runtime progress" manifest
  progress (ascii "last_received_index") (lastIndex records)
  progress (ascii "last_enqueued_index") (lastIndex records)
  progress (ascii "last_written_index") (lastIndex records)
  progress (ascii "last_processed_index") (lastIndex records)
  demand env "complete session has non-stopped runtime" manifest (ascii "final_runtime_state")
    (.string (ascii "Stopped"))
  let consistent := demand env "inconsistent complete manifest"
  consistent metadata (ascii "first_record_index")
    (if records ≠ 0 then .numberInteger 0 else .null)
  consistent metadata (ascii "last_record_index") (lastIndex records)
  consistent manifest (ascii "unpersisted_records") (.numberInteger 0)
  consistent manifest (ascii "unpersisted_processed_tail") (.boolean false)

/-! ### Lifecycle events -/

/-- One lifecycle event, after an event at index `last` (`src/session/session.cpp:342–351`). -/
def checkEvent (complete : Bool) (records last : Nat) (event : Value) :
    Except Failure LifecycleEntry := do
  let position ← event.atKey (ascii "before_record_index")
  if !position.isNumberUnsigned then runtimeError "invalid lifecycle index"
  let index := position.getUint64
  if index < last ∨ (complete ∧ records < index) then runtimeError "invalid lifecycle event"
  let state ← (← event.atKey (ascii "state")).getString
  if state ∉ lifecycleStates then runtimeError "invalid lifecycle event"
  match ← event.atKey (ascii "reason") with
  | .string reason => return ⟨index, state, reason⟩
  | _ => runtimeError "invalid lifecycle event"

/-- The loop over the lifecycle events (`src/session/session.cpp:340–352`). -/
def checkEvents (complete : Bool) (records : Nat) : Nat → List Value →
    Except Failure (List LifecycleEntry)
  | _, [] => .ok []
  | last, event :: rest => do
    let entry ← checkEvent complete records last event
    let entries ← checkEvents complete records entry.beforeRecordIndex rest
    return entry :: entries

/-! ### The whole -/

/-- The validation of a session whose manifest has been read (`src/session/session.cpp:258–352`). -/
def validateManifest (allowIncomplete : Bool) (manifest : Value) : Except Failure Validated := do
  checkVersion env manifest
  let complete ← checkStatus allowIncomplete manifest
  let (venue, depth) ← checkConfiguration env manifest
  let (metadata, file) ← checkRawFile env manifest venue
  let records ← checkMetadata env complete metadata file venue
  if complete then checkComplete env manifest metadata records
  let events := (manifest.find? (ascii "lifecycle_events")).getD (.array [])
  let lifecycle ← checkEvents complete records 0 events.elements
  return ⟨complete, venue, depth, records, lifecycle⟩

/-- The manifest that replay opens: `manifest.json`, or else `manifest.inprogress.json` if the
session may be incomplete (`src/session/session.cpp:248–253`). -/
def openManifest (allowIncomplete : Bool) (final inProgress : Option Bytes) :
    Except Failure Bytes :=
  match final, inProgress, allowIncomplete with
  | some text, _, _ => .ok text
  | none, some text, true => .ok text
  | none, _, _ => runtimeError "missing session manifest"

/-- `replay` up to its record loops (`src/session/session.cpp:246–352`). -/
def validateSession (allowIncomplete : Bool) (final inProgress : Option Bytes) :
    Except Failure Validated := do
  let text ← openManifest allowIncomplete final inProgress
  validateManifest env allowIncomplete (← Json.parse text)

end ArbitrageEngine.Sessions
