import ArbitrageEngine.Session.Publication
import ArbitrageEngine.Session.ReplayAccount

/-!
# When the result of a replay can be published

`src/session/session.cpp`: the end of `replay` writes three texts and publishes the result. Its
texts come from the manifest, which was read as UTF-8, and from the reasons of the state changes.
-/

namespace ArbitrageEngine.Sessions

open Base ArbitrageEngine.Core Coinbase Json Kraken Pipeline Recording

/-! ### The values of a result -/

private theorem dump_ok_of_utf8 {value : Value} (h : value.Utf8) (indent : Option Nat) :
    ∃ text, dump indent value = .ok text :=
  exists_ok_of_isOk ((dumpValue_isOk_iff indent 0 value).mpr h)

private theorem utf8_of_dump {value : Value} {indent : Option Nat} {text : Bytes}
    (h : dump indent value = .ok text) : value.Utf8 :=
  (dumpValue_isOk_iff indent 0 value).mp (congrArg Except.isOk h)

private theorem utf8_atKey {value item : Value} {key : Bytes} (hv : value.Utf8)
    (h : value.atKey key = .ok item) : item.Utf8 := by
  unfold Value.atKey at h
  split at h
  · split at h
    · next field hfield =>
      cases h
      exact hv.find? hfield
    · cases h
  · cases h

/-- The state changes of a branch. -/
def Branch.changes : Branch → List StateTransition
  | coinbase replay => replay.transitions
  | kraken replay => replay.transitions

private theorem Branch.transitions_eq (branch : Branch) :
    branch.transitions = .array (branch.changes.map transitionValue) := by
  cases branch <;> rfl

/-- A state change can be written exactly if its reason can. -/
theorem utf8_transitionValue (change : StateTransition) :
    (transitionValue change).Utf8 ↔ IsUtf8 change.reason := by
  constructor
  · intro h
    have hreason : (transitionValue change).find? (ascii "reason") =
      some (.string change.reason) := rfl
    exact h.find? hreason
  · intro h
    unfold transitionValue
    apply utf8_objectOf
    exact ⟨⟨isUtf8_ascii _, trivial⟩, ⟨isUtf8_ascii _, isUtf8_bookName change.old⟩,
      ⟨isUtf8_ascii _, isUtf8_bookName change.new⟩, ⟨isUtf8_ascii _, h⟩, trivial⟩

private theorem utf8_transitions (branch : Branch) :
    branch.transitions.Utf8 ↔ ∀ change ∈ branch.changes, IsUtf8 change.reason := by
  rw [branch.transitions_eq, Value.Utf8, utf8Items_iff, List.forall_mem_map]
  exact forall₂_congr fun change _ ↦ utf8_transitionValue change

private theorem utf8_levelsValue (levels : List (Nat × Nat)) : (levelsValue levels).Utf8 := by
  rw [levelsValue, Value.Utf8, utf8Items_iff, List.forall_mem_map]
  intro level _
  exact ⟨trivial, trivial, trivial⟩

private theorem utf8_contentsValue (branch : Branch) : (contentsValue branch.contents).Utf8 := by
  have hstate : IsUtf8 branch.contents.state := by
    cases branch <;> exact isUtf8_bookName _
  unfold contentsValue
  apply utf8_objectOf
  exact ⟨⟨isUtf8_ascii _, utf8_levelsValue _⟩, ⟨isUtf8_ascii _, utf8_levelsValue _⟩,
    ⟨isUtf8_ascii _, hstate⟩, ⟨isUtf8_ascii _, utf8_optionalIndex _⟩, trivial⟩

private theorem utf8_bestValue (level : Option BookLevel) : (bestValue level).Utf8 := by
  cases level <;> trivial

private theorem isUtf8_text (outcome : ProcessOutcome) : IsUtf8 outcome.text := by
  cases outcome <;> exact isUtf8_ascii _

/-- The fields of a venue can always be written. -/
theorem utf8_branchFields (branch : Branch) : Value.Utf8Fields branch.fields := by
  cases branch with
  | coinbase replay =>
    have houtcomes : Value.Utf8Fields (messageOutcomes.map fun outcome ↦
        (outcomeName outcome, uint64 (replay.outcomes outcome))) := by
      rw [utf8Fields_iff, List.forall_mem_map]
      intro outcome _
      exact ⟨by cases outcome <;> exact isUtf8_ascii _, trivial⟩
    exact ⟨⟨isUtf8_ascii _, utf8_objectOf houtcomes⟩, ⟨isUtf8_ascii _, trivial⟩,
      ⟨isUtf8_ascii _, trivial⟩, ⟨isUtf8_ascii _, trivial⟩, ⟨isUtf8_ascii _, trivial⟩,
      ⟨isUtf8_ascii _, trivial⟩, ⟨isUtf8_ascii _, trivial⟩,
      ⟨isUtf8_ascii _, utf8_optionalIndex _⟩, trivial⟩
  | kraken replay =>
    refine ⟨⟨isUtf8_ascii _, utf8_objectOf ?_⟩, ⟨isUtf8_ascii _, utf8_metricsValue _⟩,
      ⟨isUtf8_ascii _, trivial⟩, ⟨isUtf8_ascii _, trivial⟩, trivial⟩
    rw [utf8Fields_iff, List.forall_mem_map, List.forall_mem_map]
    intro outcome _
    refine ⟨?_, trivial⟩
    cases outcome with
    | none => exact isUtf8_ascii ""
    | some outcome => exact isUtf8_text outcome

section Results

variable {env : Surroundings} {branch : Branch} {includeFinalBook : Bool}

private theorem utf8_resultFields (session : OpenSession) (hsha : ∀ text, IsUtf8 (env.sha256 text))
    {sessionId configHash : Value} (hsession : sessionId.Utf8) (hconfig : configHash.Utf8)
    (hreasons : ∀ change ∈ branch.changes, IsUtf8 change.reason) (bookText transitionText : Bytes) :
    Value.Utf8Fields
      (resultFields env session branch sessionId configHash bookText transitionText) := by
  exact ⟨⟨isUtf8_ascii _, trivial⟩, ⟨isUtf8_ascii _, hsession⟩, ⟨isUtf8_ascii _, hsha _⟩,
    ⟨isUtf8_ascii _, hsha _⟩, ⟨isUtf8_ascii _, hconfig⟩, ⟨isUtf8_ascii _, trivial⟩,
    ⟨isUtf8_ascii _, trivial⟩, ⟨isUtf8_ascii _, trivial⟩, ⟨isUtf8_ascii _, isUtf8_bookName _⟩,
    ⟨isUtf8_ascii _, trivial⟩, ⟨isUtf8_ascii _, trivial⟩, ⟨isUtf8_ascii _, utf8_bestValue _⟩,
    ⟨isUtf8_ascii _, utf8_bestValue _⟩, ⟨isUtf8_ascii _, hsha _⟩,
    ⟨isUtf8_ascii _, (utf8_transitions branch).mpr hreasons⟩, ⟨isUtf8_ascii _, hsha _⟩,
    utf8_branchFields branch⟩

/-- Behind the record loop only a reason that is not UTF-8 keeps a result from being published. -/
theorem replayResult_isOk_iff (hsha : ∀ text, IsUtf8 (env.sha256 text))
    {session : OpenSession} (hmanifest : session.manifest.Utf8) {sessionId configHash : Value}
    (hsession : session.manifest.atKey (ascii "session_id") = .ok sessionId)
    (hconfig : session.manifest.atKey (ascii "configuration_hash") = .ok configHash) :
    (replayResult env includeFinalBook session branch).isOk = true ↔
      ∀ change ∈ branch.changes, IsUtf8 change.reason := by
  constructor
  · intro h
    obtain ⟨result, hresult⟩ := exists_ok_of_isOk h
    obtain ⟨parts, -⟩ := replayResult_ok hresult
    exact (utf8_transitions branch).mp (utf8_of_dump parts.transition_eq)
  · intro hreasons
    have hcontents := utf8_contentsValue branch
    obtain ⟨bookText, hbook⟩ := dump_ok_of_utf8 hcontents none
    obtain ⟨transitionText, htransition⟩ :=
      dump_ok_of_utf8 ((utf8_transitions branch).mpr hreasons) none
    have hfields := utf8_resultFields session hsha (utf8_atKey hmanifest hsession)
      (utf8_atKey hmanifest hconfig) hreasons bookText transitionText
    rw [utf8Fields_iff] at hfields
    obtain ⟨canonical, hcanonical⟩ : ∃ text, dump none (objectOf
        ((resultFields env session branch sessionId configHash bookText transitionText).filter
          (fun field ↦ field.1 ∉ [ascii "source_session_id", ascii "source_manifest_sha256"]) ++
            [(ascii "final_book", contentsValue branch.contents)])) = .ok text := by
      apply dump_ok_of_utf8 (utf8_objectOf _) none
      rw [utf8Fields_iff, List.forall_mem_append, List.forall_mem_singleton]
      exact ⟨fun field hfield ↦ hfields field (List.mem_filter.mp hfield).1, isUtf8_ascii _,
        hcontents⟩
    have hbooks : ∀ field ∈ (if includeFinalBook then
        [(ascii "final_book", contentsValue branch.contents)] else []),
        IsUtf8 field.1 ∧ field.2.Utf8 := by
      cases includeFinalBook
      · exact List.forall_mem_nil _
      · exact List.forall_mem_singleton.mpr ⟨isUtf8_ascii _, hcontents⟩
    obtain ⟨text, htext⟩ : ∃ text, publish (objectOf
        (resultFields env session branch sessionId configHash bookText transitionText ++
          [(ascii "deterministic_result_hash", .string (env.sha256 canonical))] ++
          if includeFinalBook then [(ascii "final_book", contentsValue branch.contents)]
          else [])) = .ok text := by
      apply exists_ok_of_isOk
      rw [publish_isOk_iff]
      apply utf8_objectOf
      rw [utf8Fields_iff, List.forall_mem_append, List.forall_mem_append,
        List.forall_mem_singleton]
      exact ⟨⟨hfields, isUtf8_ascii _, hsha canonical⟩, hbooks⟩
    simp only [replayResult, hsession, hconfig, hbook, htransition, hcanonical, htext, bind,
      Except.bind]
    rfl

end Results

/-! ### Open sessions -/

section Opening

variable {env : Surroundings} {allowIncomplete : Bool} {final inProgress : Option Bytes}
variable {session : OpenSession} {manifest : Value} {validated : Validated}

private theorem openSession_ok
    (h : openSession env allowIncomplete final inProgress = .ok session) :
    session.manifest.Utf8 ∧
    validateManifest env allowIncomplete session.manifest = .ok session.validated ∧
    sessionStatus session.manifest = .ok session.status ∧
    ∃ metadata, checkRawFile env session.manifest session.validated.venue =
      .ok (metadata, session.file) := by
  unfold openSession at h
  obtain ⟨text, -, h⟩ := bind_ok h
  obtain ⟨manifest, hparse, h⟩ := bind_ok h
  obtain ⟨validated, hvalidated, h⟩ := bind_ok h
  obtain ⟨status, hstatus, h⟩ := bind_ok h
  obtain ⟨⟨metadata, file⟩, hfile, h⟩ := bind_ok h
  cases h
  exact ⟨parse_utf8 hparse, hvalidated, hstatus, metadata, hfile⟩

/-- The steps of a validation that has passed. -/
theorem validateManifest_ok (h : validateManifest env allowIncomplete manifest = .ok validated) :
    checkStatus allowIncomplete manifest = .ok validated.complete ∧
    checkConfiguration env manifest = .ok (validated.venue, validated.depth) ∧
    (∃ metadata file, checkRawFile env manifest validated.venue = .ok (metadata, file) ∧
      checkMetadata env validated.complete metadata file validated.venue =
        .ok validated.records) ∧
    checkEvents validated.complete validated.records 0
      ((manifest.find? (ascii "lifecycle_events")).getD (.array [])).elements =
        .ok validated.lifecycle := by
  unfold validateManifest at h
  obtain ⟨-, -, h⟩ := bind_ok h
  obtain ⟨complete, hcomplete, h⟩ := bind_ok h
  obtain ⟨⟨venue, depth⟩, hconfig, h⟩ := bind_ok h
  obtain ⟨⟨metadata, file⟩, hfile, h⟩ := bind_ok h
  obtain ⟨records, hrecords, h⟩ := bind_ok h
  have hevents : ∃ lifecycle, checkEvents complete records 0
      ((manifest.find? (ascii "lifecycle_events")).getD (.array [])).elements = .ok lifecycle ∧
      validated = ⟨complete, venue, depth, records, lifecycle⟩ := by
    dsimp only at h
    split at h
    · obtain ⟨-, -, h⟩ := bind_ok h
      obtain ⟨lifecycle, hlifecycle, h⟩ := bind_ok h
      cases h
      exact ⟨lifecycle, hlifecycle, rfl⟩
    · obtain ⟨lifecycle, hlifecycle, h⟩ := bind_ok h
      cases h
      exact ⟨lifecycle, hlifecycle, rfl⟩
  obtain ⟨lifecycle, hlifecycle, rfl⟩ := hevents
  exact ⟨hcomplete, hconfig, ⟨metadata, file, hfile, hrecords⟩, hlifecycle⟩

private theorem checkMetadata_ok_scan {complete : Bool} {metadata : Value} {file : Bytes}
    {venue : KnownVenue} {records : Nat}
    (h : checkMetadata env complete metadata file venue = .ok records) :
    ∃ scanned, scan file venue = .ok scanned ∧ records = scanned.records := by
  unfold checkMetadata at h
  obtain ⟨-, -, h⟩ := bind_ok h
  obtain ⟨-, -, h⟩ := bind_ok h
  obtain ⟨-, -, h⟩ := bind_ok h
  obtain ⟨-, -, h⟩ := bind_ok h
  obtain ⟨scanned, hscanned, h⟩ := bind_ok h
  obtain ⟨-, -, h⟩ := bind_ok h
  cases h
  exact ⟨scanned, hscanned, rfl⟩

private theorem scan_ok {file : Bytes} {venue : KnownVenue} {scanned : Scan}
    (h : scan file venue = .ok scanned) : scanned.records = (rawRecords file).length % 2 ^ 64 := by
  unfold scan at h
  dsimp only at h
  split at h
  · cases h
  · split at h
    · cases h
    · cases h
      rfl

/-- The configuration that has passed has a hash, and Kraken's has a depth that is supported. -/
theorem checkConfiguration_ok_inv {venue : KnownVenue} {depth : Nat}
    (h : checkConfiguration env manifest = .ok (venue, depth)) :
    (∃ hash, manifest.atKey (ascii "configuration_hash") = .ok hash) ∧
      (venue = .kraken → depth ∈ supportedDepths) := by
  unfold checkConfiguration at h
  obtain ⟨venue', -, h⟩ := bind_ok h
  obtain ⟨⟨depth', config⟩, hexpected, h⟩ := bind_ok h
  obtain ⟨products, -, h⟩ := bind_ok h
  obtain ⟨_, -, h⟩ := bind_ok h
  obtain ⟨_, -, h⟩ := bind_ok h
  obtain ⟨_, -, h⟩ := bind_ok h
  obtain ⟨_, -, h⟩ := bind_ok h
  obtain ⟨_, -, h⟩ := bind_ok h
  obtain ⟨_, -, h⟩ := bind_ok h
  obtain ⟨text, -, h⟩ := bind_ok h
  obtain ⟨_, hdemand, h⟩ := bind_ok h
  cases h
  constructor
  · obtain ⟨hash, hhash, -⟩ := bind_ok hdemand
    exact ⟨hash, hhash⟩
  · rintro rfl
    unfold expectedConfiguration at hexpected
    obtain ⟨subscriptions, -, hexpected⟩ := bind_ok hexpected
    obtain ⟨subscription, -, hexpected⟩ := bind_ok hexpected
    obtain ⟨recorded, -, hexpected⟩ := bind_ok hexpected
    obtain ⟨size, -, hexpected⟩ := bind_ok hexpected
    obtain ⟨fields, hfields, hexpected⟩ := bind_ok hexpected
    cases hexpected
    unfold krakenConfiguration at hfields
    split at hfields
    · next hsupported => exact hsupported
    · cases hfields

/-- The lifecycle events that have passed are in order, and their reasons are UTF-8. -/
theorem checkEvents_ok_inv {complete : Bool} {records last : Nat} {events : List Value}
    {lifecycle : List LifecycleEntry} (hutf8 : ∀ event ∈ events, event.Utf8)
    (h : checkEvents complete records last events = .ok lifecycle) :
    validateLifecycle complete records last lifecycle = .ok () ∧
      ∀ event ∈ lifecycle, IsUtf8 event.reason := by
  induction events generalizing last lifecycle with
  | nil =>
    cases h
    exact ⟨rfl, List.forall_mem_nil _⟩
  | cons event events ih =>
    obtain ⟨hevent, hevents⟩ := List.forall_mem_cons.mp hutf8
    unfold checkEvents at h
    obtain ⟨entry, hentry, h⟩ := bind_ok h
    obtain ⟨entries, hentries, h⟩ := bind_ok h
    cases h
    obtain ⟨hvalid, hreasons⟩ := ih hevents hentries
    have hchecked : ¬(entry.beforeRecordIndex < last ∨
        (complete ∧ records < entry.beforeRecordIndex) ∨ entry.state ∉ lifecycleStates) ∧
        IsUtf8 entry.reason := by
      unfold checkEvent at hentry
      obtain ⟨position, -, hentry⟩ := bind_ok hentry
      obtain ⟨-, hentry⟩ := check_ok hentry
      obtain ⟨hindex, hentry⟩ := check_ok hentry
      obtain ⟨name, -, hentry⟩ := bind_ok hentry
      obtain ⟨state, -, hentry⟩ := bind_ok hentry
      obtain ⟨hstate, hentry⟩ := check_ok hentry
      obtain ⟨reason, hreason, hentry⟩ := bind_ok hentry
      split at hentry
      · next text =>
        cases hentry
        refine ⟨?_, utf8_atKey hevent hreason⟩
        rw [← or_assoc, not_or]
        exact ⟨hindex, hstate⟩
      · cases hentry
    rw [validateLifecycle, if_neg hchecked.1]
    exact ⟨hvalid, List.forall_mem_cons.mpr ⟨hchecked.2, hreasons⟩⟩

/-- The two readings of the status agree. -/
theorem complete_iff {complete : Bool} {status : SessionStatus}
    (hcheck : checkStatus allowIncomplete manifest = .ok complete)
    (hstatus : sessionStatus manifest = .ok status) : complete = decide (status = .complete) := by
  unfold checkStatus at hcheck
  unfold sessionStatus at hstatus
  obtain ⟨item, hitem, hcheck⟩ := bind_ok hcheck
  obtain ⟨name, hname, hcheck⟩ := bind_ok hcheck
  obtain ⟨item', hitem', hstatus⟩ := bind_ok hstatus
  obtain ⟨name', hname', hstatus⟩ := bind_ok hstatus
  obtain rfl : item' = item := Except.ok.inj (hitem'.symm.trans hitem)
  obtain rfl : name' = name := Except.ok.inj (hname'.symm.trans hname)
  obtain ⟨-, hcheck⟩ := check_ok hcheck
  obtain ⟨-, hcheck⟩ := check_ok hcheck
  cases hcheck
  split at hstatus
  · next hfound =>
    cases hstatus
    have hnamed := List.find?_some hfound
    rw [decide_eq_true_eq] at hnamed
    rw [← hnamed]
    cases status <;> decide
  · cases hstatus

private theorem utf8_elements {value : Value} (h : value.Utf8) :
    ∀ item ∈ value.elements, item.Utf8 := by
  cases value with
  | null => exact List.forall_mem_nil _
  | array items => exact (utf8Items_iff items).mp h
  | object fields =>
    intro item hitem
    obtain ⟨field, hfield, rfl⟩ := List.mem_map.mp hitem
    exact ((utf8Fields_iff fields).mp h field hfield).2
  | boolean | numberInteger | numberUnsigned | numberFloat | string =>
    exact List.forall_mem_singleton.mpr h

/-- What the record loops and the result can rely on. -/
structure OpenSession.Sound (session : OpenSession) : Prop where
  manifest : session.manifest.Utf8
  hash : ∃ hash, session.manifest.atKey (ascii "configuration_hash") = .ok hash
  depth : session.validated.venue = .kraken → session.validated.depth ∈ supportedDepths
  count : session.validated.records = session.records.length
  lifecycle : validateLifecycle (session.status = .complete) session.records.length 0
    session.validated.lifecycle = .ok ()
  reasons : ∀ event ∈ session.validated.lifecycle, IsUtf8 event.reason
  indexed : indexLifecycle session.manifest = .ok () ↔
    ∀ fields, lifecycleEvents session.manifest = .object fields → fields = []

/-- Lifecycle events that have passed have numbers, unless they are those of an object. -/
theorem indexLifecycle_iff {complete : Bool} {records : Nat} {lifecycle : List LifecycleEntry}
    (h : checkEvents complete records 0 (lifecycleEvents manifest).elements = .ok lifecycle) :
    indexLifecycle manifest = .ok () ↔
      ∀ fields, lifecycleEvents manifest = .object fields → fields = [] := by
  unfold indexLifecycle
  cases hevents : lifecycleEvents manifest with
  | null | array => simp [Value.size, Value.numbered, bind, Except.bind, pure, Except.pure]
  | object fields =>
    cases fields with
    | nil => simp [Value.size, pure, Except.pure]
    | cons field fields =>
      simp [Value.size, Value.numbered, bind, Except.bind]
  | boolean | numberInteger | numberUnsigned | numberFloat | string =>
    rw [hevents] at h
    cases h

/-- A file has no more records than bytes. -/
theorem length_rawRecords_le (file : Bytes) : (rawRecords file).length ≤ file.length := by
  have hstart : (RawEventReader.create (some file)).expectedIndex < 2 ^ 64 :=
    Nat.two_pow_pos 64
  exact (RawEventReader.readAll_indexed (file.length + 1) hstart).2

/-- A session that was opened is sound, if its file is not too long. -/
theorem openSession_sound (h : openSession env allowIncomplete final inProgress = .ok session)
    (hsize : session.file.length < 2 ^ 64) : session.Sound := by
  obtain ⟨hutf8, hvalidated, hstatus, metadata, hfile⟩ := openSession_ok h
  obtain ⟨hcomplete, hconfig, ⟨metadata', file, hfile', hmetadata⟩, hevents⟩ :=
    validateManifest_ok hvalidated
  obtain ⟨rfl, rfl⟩ : metadata' = metadata ∧ file = session.file :=
    Prod.mk.inj (Except.ok.inj (hfile'.symm.trans hfile))
  obtain ⟨scanned, hscan, hrecords⟩ := checkMetadata_ok_scan hmetadata
  obtain ⟨hhash, hdepth⟩ := checkConfiguration_ok_inv hconfig
  have hcount : session.validated.records = session.records.length := by
    have hle := length_rawRecords_le session.file
    rw [hrecords, scan_ok hscan, Nat.mod_eq_of_lt (by omega)]
    rfl
  have hfound : ∀ item ∈ session.manifest.find? (ascii "lifecycle_events"), item.Utf8 :=
    fun item hitem ↦ hutf8.find? hitem
  have hnone : (Value.array []).Utf8 := trivial
  obtain ⟨hvalid, hreasons⟩ :=
    checkEvents_ok_inv (utf8_elements (utf8_getD hfound hnone)) hevents
  rw [complete_iff hcomplete hstatus, hcount] at hvalid
  exact ⟨hutf8, hhash, hdepth, hcount, hvalid, hreasons, indexLifecycle_iff hevents⟩

end Opening

/-! ### Kraken sessions -/

namespace KrakenReplay

/-- The reasons of the state changes can be written. -/
def Legible (replay : KrakenReplay) : Prop := ∀ change ∈ replay.transitions, IsUtf8 change.reason

variable {replay : KrakenReplay}

private theorem Legible.assign (h : replay.Legible) (processor : KrakenBookProcessor)
    {reason : Bytes} (hreason : IsUtf8 reason) : (replay.assign processor reason).Legible := by
  rw [assign_eq]
  unfold Legible noted
  dsimp only
  rw [List.forall_mem_append]
  refine ⟨h, ?_⟩
  split
  · exact List.forall_mem_nil _
  · exact List.forall_mem_singleton.mpr hreason

private theorem Legible.reconnect (h : replay.Legible) (e : RawMessage) :
    (replay.reconnect e).Legible := by
  unfold KrakenReplay.reconnect
  split
  · exact h
  · exact h.assign _ (isUtf8_ascii "new_connection")

private theorem Legible.recorded (h : replay.Legible) (crc : Bytes → UInt32) (e : RawMessage) :
    (replay.recorded crc e).Legible := by
  refine h.assign _ ?_
  unfold KrakenBookProcessor.outcomeText
  split
  · exact isUtf8_text _
  · exact isUtf8_ascii ""

end KrakenReplay

/-- The branch fails on records out of order, and on nothing else. -/
theorem replayKraken_isOk_iff (crc : Bytes → UInt32) {depth : Nat}
    (hdepth : depth ∈ supportedDepths) {status : SessionStatus} {records : List RawMessage}
    {lifecycle : List LifecycleEntry}
    (hvalid : validateLifecycle (status = .complete) records.length 0 lifecycle = .ok ()) :
    (replayKraken crc depth status records lifecycle).isOk = true ↔ Ordered records := by
  obtain ⟨processor, hprocessor⟩ : ∃ processor, KrakenBookProcessor.create depth = .ok processor :=
    ⟨_, dif_pos hdepth⟩
  constructor
  · intro h
    obtain ⟨replay, hreplay⟩ := exists_ok_of_isOk h
    exact ordered_of_replayKraken hreplay
  · intro hordered
    obtain ⟨-, ⟨result, remaining⟩, hrun⟩ | ⟨hnot, -⟩ :=
      KrakenReplay.run_cases crc processor records lifecycle
    · obtain ⟨hsorted, hbounds⟩ := validateLifecycle_ok hvalid
      have hmerges : Merges (KrakenReplay.loop crc) records lifecycle :=
        merges_of_sorted rfl (fun _ _ _ ↦ rfl) hsorted
      simp only [replayKraken, hvalid, hprocessor, hrun, bind, Except.bind]
      unfold KrakenReplay.finish
      split
      · next hleft =>
        have hwithin : ∀ event ∈ lifecycle, event.beforeRecordIndex ≤ records.length :=
          fun event he ↦ (hbounds event he).2 (decide_eq_true hleft.1)
        exact absurd (hmerges.nothing_left hwithin hrun) hleft.2
      · split <;> rfl
    · exact absurd hordered hnot

/-- A replay whose lifecycle reasons are UTF-8 has legible transitions. -/
theorem replayKraken_legible {crc : Bytes → UInt32} {depth : Nat} {status : SessionStatus}
    {records : List RawMessage} {lifecycle : List LifecycleEntry} {replay : KrakenReplay}
    (hreasons : ∀ event ∈ lifecycle, IsUtf8 event.reason)
    (h : replayKraken crc depth status records lifecycle = .ok replay) : replay.Legible := by
  unfold replayKraken at h
  obtain ⟨-, -, h⟩ := bind_ok h
  obtain ⟨processor, -, h⟩ := bind_ok h
  obtain ⟨⟨last, remaining⟩, hrun, hfinish⟩ := bind_ok h
  have hlast : last.Legible := by
    refine Weave.run_preserves (fun _ legible ↦ legible) ?_ ?_ hreasons hrun (List.forall_mem_nil _)
    · intro replay event after legible hreason hafter
      cases hafter
      exact legible.assign _ hreason
    · intro replay e after legible hafter
      dsimp only [KrakenReplay.loop, KrakenReplay.replayRecord] at hafter
      split at hafter
      · cases hafter
      · cases hafter
        exact (legible.reconnect e).recorded crc e
  rw [KrakenReplay.finish_ok hfinish]
  unfold KrakenReplay.Legible
  rw [(KrakenReplay.closed_same status last).2.2.1]
  exact hlast

section Publication

variable {env : Surroundings} {allowIncomplete : Bool} {final inProgress : Option Bytes}
variable {session : OpenSession}

/-- A value that is found is there. -/
theorem contains_of_atKey {value item : Value} {key : Bytes} (h : value.atKey key = .ok item) :
    value.contains key = true := by
  unfold Value.atKey at h
  unfold Value.contains
  split at h
  · split at h
    · next field hfield =>
      rw [hfield]
      rfl
    · cases h
  · cases h

private theorem atKey_of_contains {value : Value} {key : Bytes} (h : value.contains key = true) :
    ∃ item, value.atKey key = .ok item := by
  obtain ⟨item, hitem⟩ := Option.isSome_iff_exists.mp h
  cases value with
  | object fields => exact ⟨item, by rw [Value.atKey, hitem]; rfl⟩
  | null | boolean | numberInteger | numberUnsigned | numberFloat | string | array => cases hitem

/-- A session that opens is replayed to a published result if it has an id and its record loop comes
to its end with reasons that can be written. -/
theorem replay_isOk_iff (crc : Bytes → UInt32) (includeFinalBook : Bool)
    (hsha : ∀ text, IsUtf8 (env.sha256 text))
    (hopen : openSession env allowIncomplete final inProgress = .ok session)
    (hsize : session.file.length < 2 ^ 64) :
    (replay env crc allowIncomplete includeFinalBook final inProgress).isOk = true ↔
      session.manifest.contains (ascii "session_id") = true ∧
      ∃ branch, session.branch crc = .ok branch ∧
        ∀ change ∈ branch.changes, IsUtf8 change.reason := by
  have sound := openSession_sound hopen hsize
  obtain ⟨hash, hhash⟩ := sound.hash
  constructor
  · intro h
    obtain ⟨result, hresult⟩ := exists_ok_of_isOk h
    obtain ⟨branch, hbranch, hresult⟩ := replay_ok hopen hresult
    obtain ⟨parts, -⟩ := replayResult_ok hresult
    have hid := parts.session_eq
    exact ⟨contains_of_atKey hid, branch, hbranch,
      (replayResult_isOk_iff hsha sound.manifest hid hhash).mp
      (congrArg Except.isOk hresult)⟩
  · rintro ⟨hcontains, branch, hbranch, hreasons⟩
    obtain ⟨sessionId, hid⟩ := atKey_of_contains hcontains
    have hresult : (replayResult env includeFinalBook session branch).isOk = true :=
      (replayResult_isOk_iff hsha sound.manifest hid hhash).mpr hreasons
    unfold Sessions.replay
    rw [hopen]
    change (session.branch crc >>= _).isOk = true
    rw [hbranch]
    exact hresult

/-- The record loop of a Kraken session comes to its end unless its connections are out of order or
its lifecycle events have no numbers, and its reasons can always be written. -/
theorem kraken_branch_iff (crc : Bytes → UInt32) (sound : session.Sound)
    (hvenue : session.validated.venue = .kraken) :
    (∃ branch, session.branch crc = .ok branch ∧
      ∀ change ∈ branch.changes, IsUtf8 change.reason) ↔
      Ordered session.records ∧
        ∀ fields, lifecycleEvents session.manifest = .object fields → fields = [] := by
  rw [← replayKraken_isOk_iff crc (sound.depth hvenue) sound.lifecycle, ← sound.indexed]
  constructor
  · rintro ⟨branch, hbranch, -⟩
    obtain ⟨hindex, replay, -, hreplay⟩ := branch_kraken hvenue hbranch
    rw [hreplay]
    exact ⟨rfl, hindex⟩
  · rintro ⟨h, hindex⟩
    obtain ⟨kraken, hkraken⟩ := exists_ok_of_isOk h
    refine ⟨.kraken kraken, ?_, replayKraken_legible sound.reasons hkraken⟩
    unfold OpenSession.branch
    rw [hvenue]
    dsimp only
    rw [hindex, hkraken]
    rfl

/-- A Kraken session that opens is replayed to a published result, unless its connections are out
of order, its manifest has no `session_id`, or its lifecycle events are those of an object. -/
theorem kraken_replay_publishes_iff (crc : Bytes → UInt32) (includeFinalBook : Bool)
    (hsha : ∀ text, IsUtf8 (env.sha256 text))
    (hopen : openSession env allowIncomplete final inProgress = .ok session)
    (hvenue : session.validated.venue = .kraken) (hsize : session.file.length < 2 ^ 64) :
    (replay env crc allowIncomplete includeFinalBook final inProgress).isOk = true ↔
      Ordered session.records ∧ session.manifest.contains (ascii "session_id") = true ∧
        ∀ fields, lifecycleEvents session.manifest = .object fields → fields = [] := by
  rw [replay_isOk_iff crc includeFinalBook hsha hopen hsize,
    kraken_branch_iff crc (openSession_sound hopen hsize) hvenue]
  exact and_left_comm

end Publication

/-- The session of two connections is in order; its final book can be published as well. -/
theorem kraken_replay_publishes_iff_two :
    ∃ manifest session,
      openSession (twoDirectory .kraken) false (some manifest) none = .ok session ∧
      Ordered session.records ∧ session.manifest.contains (ascii "session_id") = true ∧
      (replay (twoDirectory .kraken) Crc.crc32 false true (some manifest) none).isOk = true := by
  obtain ⟨manifest, session, result, hopen, hreplay, hvenue, hsize⟩ := twoReplay_ok .kraken
  have hsha : ∀ text, IsUtf8 ((twoDirectory .kraken).sha256 text) :=
    fun text ↦ isUtf8_of_isAscii (isAscii_countDigest text)
  have h := (kraken_replay_publishes_iff Crc.crc32 false hsha hopen hvenue hsize).mp
    (congrArg Except.isOk hreplay)
  exact ⟨manifest, session, hopen, h.1, h.2.1,
    (kraken_replay_publishes_iff Crc.crc32 true hsha hopen hvenue hsize).mpr h⟩

end ArbitrageEngine.Sessions
