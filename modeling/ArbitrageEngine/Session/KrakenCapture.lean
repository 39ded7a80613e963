import ArbitrageEngine.Kraken.SnapshotFold
import ArbitrageEngine.Session.CrashRecovery
import ArbitrageEngine.Session.KrakenAgreement

/-!
# A capture of Kraken from its start to its replay

`src/pipeline/kraken_runtime.cpp`, `src/session/session.cpp`: `run_kraken` hashes the book of its
processor and finalizes its capture. Whatever the order of the threads was, replaying the session
of a run without a failure publishes the same hash.
-/

namespace ArbitrageEngine.Pipeline

open Base ArbitrageEngine.Core Coinbase Json Kraken Recording Sessions

/-! ### The market thread among the other threads -/

namespace KrakenMarket

variable {crc : Bytes → UInt32} {limits : KrakenLimits} {p₀ : KrakenBookProcessor}

variable (limits) in
/-- An action after which replay no longer follows has a fatal section. -/
theorem step_replays {m : KrakenMarket} (h : m.Replays crc p₀) (action : Action)
    (hquiet : ∀ now first last requested, action = .tick now first last requested →
      first = false ∧ last = false) :
    (m.step crc limits action).Replays crc p₀ ∨
      (krakenSectionsSince m.trace (m.step crc limits action).trace).any Op.isFatal = true := by
  have clean (hclean : action.clean = true) : (m.step crc limits action).Replays crc p₀ := by
    have hfaultless : ∀ other ∈ [action], other.clean = false → False := by
      intro other hother hfault
      rw [List.mem_singleton.mp hother, hclean] at hfault
      cases hfault
    exact run_invariant (fun _ _ hs hi ↦ KrakenSession.Step.replays hs hi) h hfaultless
  cases action with
  | message payload wall mono result =>
    by_cases haccepted : result = .accepted
    · exact .inl (clean (decide_eq_true haccepted))
    · cases hstopping : m.stopping with
      | true =>
        have hsame : m.step crc limits (.message payload wall mono result) = m := by
          rw [step, onMessage, if_pos hstopping]
        rw [hsame]
        exact .inl h
      | false =>
        have hgrows := m.step_grows crc limits (.message payload wall mono result)
        have hoffered : m.offered (.message payload wall mono result) =
            some (envelope m.toKrakenSession payload wall mono, result) := by
          rw [offered, hstopping]
          rfl
        rw [hoffered] at hgrows
        apply Or.inr
        generalize (m.step crc limits (.message payload wall mono result)).toKrakenSession = s'
          at hgrows ⊢
        cases hgrows with
        | accepted => exact absurd rfl haccepted
        | refused e result running index refusal =>
          rw [KrakenSession.refused_trace, krakenSectionsSince, List.drop_left]
          simp [krakenOp, Op.isFatal, refusal]
  | tick now first last requested =>
    obtain ⟨rfl, rfl⟩ := hquiet now first last requested rfl
    exact .inl (clean rfl)
  | connect now => exact .inl (clean rfl)
  | stop => exact .inl (clean rfl)
  | error reason => exact .inl (clean rfl)
  | connected now => exact .inl (clean rfl)
  | retry now => exact .inl (clean rfl)

end KrakenMarket

section Runs

variable {crc : Bytes → UInt32} {limits : KrakenLimits} {p₀ : KrakenBookProcessor}
variable {s : System KrakenMarket} {depth : Nat}

/-- Replay follows the market thread until something fatal happens; a tick that has seen a fatal
error has not been mistaken. -/
structure Followed (crc : Bytes → UInt32) (p₀ : KrakenBookProcessor) (s : System KrakenMarket) :
    Prop where
  followed : s.Doomed ∨ s.market.Replays crc p₀
  seen : ∀ error, s.seen = some (some error) → s.fatal ≠ none

/-- A step that leaves the market thread alone. -/
theorem Followed.frame (h : Followed crc p₀ s) {s' : System KrakenMarket}
    (hm : s'.market = s.market) (hd : s.Doomed → s'.Doomed)
    (hs : ∀ error, s'.seen = some (some error) → s'.fatal ≠ none) : Followed crc p₀ s' := by
  refine ⟨?_, hs⟩
  rw [hm]
  exact h.followed.imp_left hd

private theorem Followed.advance (h : Followed crc p₀ s) (hp : s.pending = []) {backend : Backend}
    (hb : backend.shared = s.backend.shared) (input : KrakenMarket.Action)
    (hquiet : s.fatal = none → ∀ now first last requested,
      input = .tick now first last requested → first = false ∧ last = false) :
    Followed crc p₀ ({ s with backend }.advance (krakenProgram crc limits) input) := by
  have hfatal : ({ s with backend }.advance (krakenProgram crc limits) input).fatal = s.fatal :=
    congrArg (·.status.fatalError) hb
  refine ⟨?_, fun error hseen ↦ hfatal ▸ h.seen error hseen⟩
  cases hnone : s.fatal with
  | some error =>
    apply Or.inl
    apply Or.inl
    rw [hfatal, hnone]
    exact Option.some_ne_none error
  | none =>
    have hsafe : ¬s.Doomed := by
      unfold System.Doomed
      rw [hp, hnone]
      simp
    rcases KrakenMarket.step_replays limits (h.followed.resolve_left hsafe) input
      (hquiet hnone) with hreplays | hdoomed
    · exact .inr hreplays
    · exact .inl (.inr hdoomed)

private theorem Followed.act (h : Followed crc p₀ s) (hp : s.pending = [])
    (input : KrakenMarket.Action)
    (hquiet : s.fatal = none → ∀ now first last requested,
      input = .tick now first last requested → first = false ∧ last = false) :
    Followed crc p₀ (s.act (krakenProgram crc limits) input) := by
  unfold System.act
  split
  · exact h.advance hp rfl input hquiet
  · next envelope handed =>
    have hshared : (s.backend.push envelope).1.shared = s.backend.shared := rfl
    refine h.advance hp hshared _ fun hnone now first last requested htick ↦ ?_
    cases input with
    | tick => cases handed
    | message => cases htick
    | connect | stop | error | connected | retry => cases handed

/-! What the events do that take a step of the market thread or change what is doomed. -/

private theorem Followed.step_check {A : Accounts (krakenProgram crc limits)} (hk : s.Kept A)
    (h : Followed crc p₀ s) (requested : Bool) :
    Followed crc p₀ (s.step (krakenProgram crc limits) (.check requested)) := by
  simp only [System.step]
  split
  · next phase =>
    have hp := hk.early (by rw [phase]; rfl)
    split
    · next input hinput =>
      have hnext : Followed crc p₀ { s with phase := .looping } := h.frame rfl id h.seen
      refine hnext.act hp input fun hnone ↦ ?_
      rw [show s.fatal = none from hnone] at hinput
      cases hinput
    · exact h.frame rfl id h.seen
  · exact h

private theorem Followed.step_start {A : Accounts (krakenProgram crc limits)} (hk : s.Kept A)
    (h : Followed crc p₀ s) (now : ReceiveMonotonicTimestamp) :
    Followed crc p₀ (s.step (krakenProgram crc limits) (.start now)) := by
  simp only [System.step]
  split
  · next phase =>
    have hp := hk.early (by rw [phase]; rfl)
    have hnext : Followed crc p₀ { s with
        phase := .looping
        backend := s.backend.withStatus
          { s.backend.shared.status with runtimeState := .running } } :=
      h.frame rfl id h.seen
    exact hnext.act hp _ fun _ _ _ _ _ htick ↦ by cases htick
  · exact h

/-- A fatal section that was pending has been performed. -/
private theorem Followed.step_proceed (h : Followed crc p₀ s) :
    Followed crc p₀ (s.step (krakenProgram crc limits) .proceed) := by
  simp only [System.step, System.proceed]
  split
  · exact h
  · next op rest hpending =>
    refine h.frame rfl (fun hd ↦ ?_)
      fun error hseen ↦ Backend.fatal_perform op (.inl (h.seen error hseen))
    unfold System.Doomed at hd
    rw [hpending, List.any_cons, Bool.or_eq_true, ← or_assoc] at hd
    exact hd.imp_left (Backend.fatal_perform op)

private theorem Followed.step_callback (h : Followed crc p₀ s) (input : KrakenMarket.Action) :
    Followed crc p₀ (s.step (krakenProgram crc limits) (.callback input)) := by
  simp only [System.step, Bool.and_eq_true, System.idle_iff]
  split
  · next due =>
    refine h.act due.1.2.1 input fun _ now first last requested htick ↦ ?_
    rw [htick] at due
    cases due.2
  · exact h

private theorem Followed.step_posted (h : Followed crc p₀ s) :
    Followed crc p₀ (s.step (krakenProgram crc limits) .posted) := by
  simp only [System.step]
  split
  · next error rest hidle hposted =>
    rw [System.idle_iff] at hidle
    have hnext : Followed crc p₀ { s with backend := s.backend.withPosted rest } :=
      h.frame rfl id h.seen
    exact hnext.act hidle.2.1 _ fun _ _ _ _ _ htick ↦ by cases htick
  · exact h

private theorem Followed.step_look (h : Followed crc p₀ s) :
    Followed crc p₀ (s.step (krakenProgram crc limits) .look) := by
  simp only [System.step]
  split
  · refine h.frame rfl id fun error hseen ↦ ?_
    have hsome : s.fatal = some error := Option.some.inj hseen
    change s.fatal ≠ none
    rw [hsome]
    exact Option.some_ne_none error
  · exact h

/-- A tick of a run without a fatal error finds none. -/
private theorem Followed.step_tick (h : Followed crc p₀ s) (now : ReceiveMonotonicTimestamp)
    (requested : Bool) :
    Followed crc p₀ (s.step (krakenProgram crc limits) (.tick now requested)) := by
  simp only [System.step]
  split
  · next first phase hpending hseen =>
    have hnext : Followed crc p₀ { s with seen := none } :=
      h.frame rfl id fun error no ↦ by cases no
    have hacted : Followed crc p₀ ({ s with seen := none }.act (krakenProgram crc limits)
        ((krakenProgram crc limits).tick now first s.fatal requested)) := by
      refine hnext.act hpending _ fun hnone now' first' last' requested' htick ↦ ?_
      have hquiet : s.fatal = none := hnone
      have hfirst : first = none := by
        cases first with
        | none => rfl
        | some error => exact absurd hquiet (h.seen error hseen)
      rw [hfirst, hquiet] at htick
      cases htick
      exact ⟨rfl, rfl⟩
    exact hacted.frame rfl id hacted.seen
  · exact h

private theorem Followed.step_exit (h : Followed crc p₀ s) :
    Followed crc p₀ (s.step (krakenProgram crc limits) .exit) := by
  simp only [System.step, Bool.and_eq_true, System.idle_iff]
  split
  · next due =>
    refine h.frame rfl (fun hd ↦ ?_) h.seen
    unfold System.Doomed at hd
    rw [due.1.1.2.1] at hd
    exact .inl (hd.resolve_right (by simp))
  · exact h

private theorem Followed.step {A : Accounts (krakenProgram crc limits)} (hk : s.Kept A)
    (h : Followed crc p₀ s) (event : Event KrakenMarket.Action) :
    Followed crc p₀ (s.step (krakenProgram crc limits) event) := by
  cases event with
  | writer move =>
    have hmoved := s.backend.move_moved move
    exact h.frame rfl (fun hd ↦ hd.imp_left hmoved.fatal)
      fun error hseen ↦ hmoved.fatal (h.seen error hseen)
  | check requested => exact h.step_check hk requested
  | start now => exact h.step_start hk now
  | proceed => exact h.step_proceed
  | callback input => exact h.step_callback input
  | posted => exact h.step_posted
  | look => exact h.step_look
  | tick now requested => exact h.step_tick now requested
  | exit => exact h.step_exit
  | ready | close | finish =>
    simp only [System.step]
    split
    · exact h.frame rfl id h.seen
    · exact h
  | throw what =>
    simp only [System.step]
    split
    · exact ⟨.inl (.inr ((krakenProgram crc limits).handler_fatal s.market what)),
        fun error no ↦ by cases no⟩
    · exact h

private theorem run_followed (hc : KrakenBookProcessor.create depth = .ok p₀)
    (now : ReceiveMonotonicTimestamp) (queue : RawQueueConfig)
    (events : List (Event KrakenMarket.Action)) :
    Followed crc p₀ ((System.create queue (KrakenMarket.initial p₀ now)).run
      (krakenProgram crc limits) events) := by
  induction events using List.reverseRecOn with
  | nil => exact ⟨.inr (KrakenSession.replays_initial hc now), fun error no ↦ by cases no⟩
  | append_singleton events event ih =>
    rw [System.run, List.foldl_append]
    exact Followed.step (kraken_kept crc limits p₀ now queue events) ih event

/-- Replay follows the market thread of a run that ends without a failure. -/
theorem replays_of_clean (hc : KrakenBookProcessor.create depth = .ok p₀)
    (now : ReceiveMonotonicTimestamp) (queue : RawQueueConfig)
    (events : List (Event KrakenMarket.Action)) :
    let s := (System.create queue (KrakenMarket.initial p₀ now)).run (krakenProgram crc limits)
      events
    s.finished = true → s.fatal = none → s.market.Replays crc p₀ := by
  intro s hfinished hclean
  have hkept : s.Kept (krakenAccounts crc limits) :=
    kraken_kept crc limits p₀ now queue events
  have hfollowed : Followed crc p₀ s := run_followed hc now queue events
  have hsafe : ¬s.Doomed := by
    unfold System.Doomed
    rw [hkept.ended (.inr ((System.finished_iff s).mp hfinished).1), hclean]
    simp
  exact hfollowed.followed.resolve_left hsafe

end Runs

/-- Replaying what was recorded ends with the processor of the market thread. -/
theorem KrakenSession.Replays.replayKraken_eq {crc : Bytes → UInt32} {depth : Nat}
    {p₀ : KrakenBookProcessor} {s : KrakenSession} (h : s.Replays crc p₀)
    (hc : KrakenBookProcessor.create depth = .ok p₀) :
    ∃ replay, replayKraken crc depth .complete s.recordedEnvelopes s.recordedLifecycle =
      .ok replay ∧ replay.processor = s.processor := by
  obtain ⟨replay, hfold, hprocessor, -⟩ := h.replayed
  have hvalid : validateLifecycle (SessionStatus.complete = .complete) s.recordedEnvelopes.length 0
      s.recordedLifecycle = .ok () := validateLifecycle_of_filed rfl h.filed h.named
  have hrun : (KrakenReplay.loop crc).run 0 (.initial p₀) s.recordedEnvelopes
      s.recordedLifecycle = .ok (replay, []) := by
    rw [KrakenSession.recordedEnvelopes, KrakenSession.recordedLifecycle,
      Weave.run_eq_foldlM h.filed]
    exact congrArg (Except.map fun final ↦ (final, [])) hfold
  refine ⟨replay, ?_, hprocessor⟩
  rw [replayKraken, hvalid]
  simp only [hc, hrun, bind, Except.bind]
  rfl

end ArbitrageEngine.Pipeline

namespace ArbitrageEngine.Sessions

open Base ArbitrageEngine.Core Coinbase Json Kraken Pipeline Recording

/-- The end of `run_kraken`, after a market thread whose loop has ended regularly
(`src/pipeline/kraken_runtime.cpp:268–274`). -/
def krakenEnd (sha256 : Bytes → Bytes) (capture : Capture) (processor : KrakenBookProcessor)
    (endedAt : Bytes) (file : Option Bytes) (status : RuntimeStatus) : Except Failure Bytes := do
  let contents ← dump none (contentsValue (liveContents processor.book))
  let hash := sha256 contents
  let capture := capture.setMetrics (some processor.metrics)
  let capture := capture.setFinalBookHash (if hash = [] then none else some hash)
  capture.finalize sha256 endedAt file status

private theorem length_le_joinLines (lines : List Bytes) :
    lines.length ≤ (joinLines lines).length := by
  induction lines with
  | nil => exact Nat.le_refl 0
  | cons line lines ih =>
    rw [joinLines, List.flatMap_cons, List.length_append, List.length_append, List.length_cons]
    have hrest : lines.length ≤ (lines.flatMap fun line ↦ line ++ [0x0A]).length := ih
    have hline : [(0x0A : UInt8)].length = 1 := rfl
    omega

/-- A recording is read back to the end. -/
theorem rawRecords_holds {recorder : RawEventRecorder} {messages : List RawMessage}
    (h : recorder.Holds messages) : rawRecords recorder.output = messages := by
  obtain ⟨-, -, lines, hlines, houtput⟩ := h
  have hlength : messages.length ≤ recorder.output.length := by
    rw [hlines.lines.length_eq, houtput]
    exact length_le_joinLines lines
  have hgood : (RawEventReader.create (some recorder.output)).Good := ⟨rfl, rfl, rfl⟩
  have hinput : (RawEventReader.create (some recorder.output)).input = joinLines lines ++ [] := by
    rw [List.append_nil]
    exact houtput
  obtain ⟨reader, hread, -⟩ := readAll_lines hlines hgood rfl rfl (List.forall_mem_nil _) hinput
    (Nat.lt_succ_of_le hlength)
  exact congrArg Prod.fst hread

/-- The fields that the end of `run_kraken` leaves, beside those of the status. -/
theorem Capture.withStatus_lookup {sha256 : Bytes → Bytes} (capture : Capture) {endedAt : Bytes}
    {file : Option Bytes} {status : RuntimeStatus} {outcome : SessionStatus} {runtime : Bytes}
    {key : Bytes}
    (hkey : key ∈ [ascii "session_id", ascii "metrics", ascii "final_book_hash"]) :
    lookup key (capture.withStatus sha256 endedAt file status outcome runtime).fields =
      lookup key capture.fields := by
  have hkeys : (Capture.statusFields status endedAt runtime).map Prod.fst =
      [ascii "lifecycle_events", ascii "final_runtime_state", ascii "ended_at_utc",
        ascii "stop_reason", ascii "last_received_index", ascii "last_enqueued_index",
        ascii "last_written_index", ascii "last_processed_index", ascii "unpersisted_records",
        ascii "unpersisted_processed_tail"] := rfl
  have hother : key ≠ ascii "connections" ∧ key ≠ ascii "status" ∧
      key ∉ (Capture.statusFields status endedAt runtime).map Prod.fst := by
    rw [hkeys]
    revert key
    decide +kernel
  exact (Capture.lookup_final (Capture.scanned_fields capture.venue status outcome file).2
    hother.1 hother.2.1 _).trans (lookup_insertFields_other hother.2.2)

/-- A complete session opens. -/
theorem openSession_complete {env : Surroundings} {venue : KnownVenue} {depth : Nat}
    {final : Capture} {status : RuntimeStatus} {file text : Bytes}
    (hstarted : final.Started env.sha256 venue depth)
    (hended : final.Ended env.sha256 status (some file) .complete (ascii "Stopped"))
    (haccounted : Accounted venue status file) (hfile : env.file (rawPath venue) = some file)
    (hinside : env.outside (rawPath venue) = false) (htext : publish final.manifest = .ok text)
    (allowIncomplete : Bool) (inProgress : Option Bytes) :
    openSession env allowIncomplete (some text) inProgress =
      .ok ⟨text, final.manifest.reread, ⟨true, venue, sessionDepth depth venue,
        status.writtenMessages, status.lifecycleEvents.map .ofEvent⟩, .complete, file⟩ := by
  have hstatus : sessionStatus final.manifest.reread = .ok .complete := by
    rw [sessionStatus, Capture.manifest_atKey (by decide) hended.status_eq]
    rfl
  simp only [openSession, openManifest, hstarted.parse_publish htext, hstatus,
    Capture.validateManifest_complete hstarted hended haccounted hfile hinside allowIncomplete,
    Capture.checkRawFile_ok hstarted hfile hinside, bind, Except.bind]
  rfl

/-- The manifest that the end of `run_kraken` publishes. -/
theorem krakenEnd_ok {sha256 : Bytes → Bytes} (hsha : ∀ text, sha256 text ≠ []) {depth : Nat}
    {isNew : Bool} {labels : Labels} {capture : Capture}
    (hcapture : Capture.create sha256 .kraken depth isNew labels = .ok capture)
    {processor : KrakenBookProcessor} {endedAt text : Bytes} {file : Option Bytes}
    {status : RuntimeStatus}
    (h : krakenEnd sha256 capture processor endedAt file status = .ok text) :
    ∃ (contents : Bytes) (final : Capture) (outcome : SessionStatus) (runtime : Bytes),
      dump none (contentsValue (liveContents processor.book)) = .ok contents ∧
      outcomeOf status.runtimeState = .ok (outcome, runtime) ∧
      publish final.manifest = .ok text ∧
      final.Started sha256 .kraken depth ∧
      final.Ended sha256 status file
        (Capture.settledStatus status (Capture.scanned .kraken status outcome file).2) runtime ∧
      lookup (ascii "session_id") final.fields = some (.string labels.sessionId) ∧
      lookup (ascii "metrics") final.fields = some (metricsValue processor.metrics) ∧
      lookup (ascii "final_book_hash") final.fields = some (.string (sha256 contents)) := by
  unfold krakenEnd at h
  obtain ⟨contents, hcontents, h⟩ := bind_ok h
  dsimp only at h
  rw [if_neg (hsha contents)] at h
  obtain ⟨final, hfinal, hpublish⟩ := bind_ok h
  obtain ⟨⟨outcome, runtime⟩, houtcome, hfinal⟩ := bind_ok hfinal
  cases hfinal
  have hstarted := ((Capture.create_started hcapture).setMetrics (some processor.metrics)
    ).setFinalBookHash (some (sha256 contents))
  have hended := Capture.withStatus_ended sha256 ((capture.setMetrics (some processor.metrics)
    ).setFinalBookHash (some (sha256 contents))) endedAt file status outcome runtime
  rw [hstarted.venue_eq] at hended
  refine ⟨contents, _, outcome, runtime, hcontents, houtcome, hpublish,
    hstarted.withStatus endedAt file status outcome runtime, hended, ?_, ?_, ?_⟩
  · rw [Capture.withStatus_lookup _ (by decide)]
    change lookup _ (insertField _ _ (insertField _ _ capture.fields)) = _
    rw [lookup_insertField, if_neg (by decide), lookup_insertField, if_neg (by decide)]
    exact (Capture.create_fields hcapture).2.1
  · rw [Capture.withStatus_lookup _ (by decide)]
    change lookup _ (insertField _ _ (insertField _ _ capture.fields)) = _
    rw [lookup_insertField, if_neg (by decide), lookup_insertField, if_pos rfl]
    rfl
  · rw [Capture.withStatus_lookup _ (by decide)]
    change lookup _ (insertField _ _ (insertField _ _ capture.fields)) = _
    rw [lookup_insertField, if_pos rfl]

private theorem reread_metricsValue (metrics : KrakenMetrics) :
    (metricsValue metrics).reread = metricsValue metrics :=
  rfl

/-- A field of the manifest as it is read back. -/
theorem find?_manifest {capture : Capture} {key : Bytes} {item : Value}
    (hkey : ascii "raw_files" ≠ key) (h : lookup key capture.fields = some item) :
    capture.manifest.reread.find? key = some item.reread := by
  rw [Value.find?_reread]
  have hlookup : capture.manifest.find? key = some item := by
    change lookup key (Json.insertField _ _ capture.fields) = some item
    rw [lookup_insertField, if_neg hkey]
    exact h
  rw [hlookup]
  rfl

/-! ### From the capture to the replay -/

/-- What a capture without a failure has left behind: its session opens, with the records and the
events of the market thread, and its manifest has what the live run has put into it. -/
structure Captured (env : Surroundings) (s : System KrakenMarket) (depth : Nat)
    (text contents : Bytes) (session : OpenSession) : Prop where
  opens : ∀ allowIncomplete inProgress,
    openSession env allowIncomplete (some text) inProgress = .ok session
  parsed : Json.parse text = .ok session.manifest
  complete : session.validated.complete = true
  venue : session.validated.venue = .kraken
  depth_eq : session.validated.depth = depth
  status : session.status = .complete
  lifecycle : session.validated.lifecycle = s.market.recordedLifecycle
  records : session.records = s.market.recordedEnvelopes
  small : session.file.length < 2 ^ 64
  id : session.manifest.contains (ascii "session_id") = true
  indexed : indexLifecycle session.manifest = .ok ()
  contents_eq : dump none (contentsValue (liveContents s.market.processor.book)) = .ok contents
  metrics : session.manifest.find? (ascii "metrics") =
    some (metricsValue s.market.processor.metrics)
  hash : session.manifest.find? (ascii "final_book_hash") = some (.string (env.sha256 contents))

/-- An array of lifecycle events has numbers. -/
private theorem indexLifecycle_array {manifest : Value} {items : List Value}
    (h : manifest.find? (ascii "lifecycle_events") = some (.array items)) :
    indexLifecycle manifest = .ok () := by
  unfold indexLifecycle lifecycleEvents
  rw [h]
  dsimp only [Option.getD_some, Value.numbered]
  split <;> rfl

section Capture

variable {env : Surroundings} {crc : Bytes → UInt32} {limits : KrakenLimits}
variable {s : System KrakenMarket} {depth : Nat}

/-- The events of the status are those of the market thread. -/
private theorem lifecycle_of_clean (hkept : s.Kept (krakenAccounts crc limits))
    (hfinished : s.finished = true) (hclean : s.fatal = none) :
    s.final.lifecycleEvents.map LifecycleEntry.ofEvent = s.market.recordedLifecycle := by
  have hledger : s.final.ledger = s.market.toKrakenSession.ledger :=
    s.final_ledger.trans (hkept.ledger_eq hfinished (hkept.clean hfinished hclean).1)
  rw [← KrakenSession.ledger_lifecycle, ← hledger]
  rfl

/-- A capture that ended without a failure. -/
theorem captured_of_clean (hsha : ∀ text, env.sha256 text ≠ [])
    (hkept : s.Kept (krakenAccounts crc limits)) (horderly : s.Orderly)
    (hfinished : s.finished = true) (hclean : s.fatal = none) {isNew : Bool} {labels : Labels}
    {capture : Capture}
    (hcapture : Capture.create env.sha256 .kraken depth isNew labels = .ok capture)
    {file endedAt text : Bytes} (hfile : env.file (rawPath .kraken) = some file)
    (hinside : env.outside (rawPath .kraken) = false)
    (hdelivered : Delivered (some file) s.backend.written)
    (hend : krakenEnd env.sha256 capture s.market.processor endedAt (some file) s.final =
      .ok text) :
    ∃ contents session, Captured env s depth text contents session := by
  obtain ⟨contents, final, outcome, runtime, hcontents, houtcome, hpublish, hstarted, hended, hid,
    hmetrics, hhash⟩ := krakenEnd_ok hsha hcapture hend
  obtain ⟨calls, recorder, hcalls, hoffered, hsize⟩ := hdelivered
  cases hoffered
  have hholds := RawEventRecorder.holds_create.appendAll calls
  rw [hcalls, List.nil_append] at hholds
  have haccounted : Accounted .kraken s.final recorder.output :=
    accounted_of_clean hkept hfinished hclean hholds rfl (venue_of_written hkept hfinished hclean)
      hsize
  have hfatal : s.final.fatalError = none := s.final_fatalError.trans hclean
  rw [horderly.settled.1.mp hfatal] at houtcome
  cases houtcome
  rw [settledStatus_accounted haccounted hfatal] at hended
  have hrecords : rawRecords recorder.output = s.market.recordedEnvelopes :=
    (rawRecords_holds hholds).trans (hkept.written_accepted hfinished hclean)
  refine ⟨contents, _, {
    opens := openSession_complete hstarted hended haccounted hfile hinside hpublish
    parsed := hstarted.parse_publish hpublish
    complete := rfl
    venue := rfl
    depth_eq := rfl
    status := rfl
    lifecycle := lifecycle_of_clean hkept hfinished hclean
    records := hrecords
    small := hsize
    id := contains_of_atKey (Capture.manifest_atKey (by decide) hid)
    indexed := indexLifecycle_array (find?_manifest (by decide) hended.lifecycle)
    contents_eq := hcontents
    metrics := ?_
    hash := find?_manifest (by decide) hhash }⟩
  rw [← reread_metricsValue]
  exact find?_manifest (by decide) hmetrics

variable {text contents : Bytes} {session : OpenSession} {processor : KrakenBookProcessor}

/-- The record loop ends with the processor of the market thread. -/
private theorem Captured.branch (h : Captured env s depth text contents session)
    (hprocessor : KrakenBookProcessor.create depth = .ok processor)
    (hreplays : s.market.Replays crc processor) :
    ∃ kraken, session.branch crc = .ok (.kraken kraken) ∧
      kraken.processor = s.market.processor := by
  obtain ⟨kraken, hkraken, hprocessed⟩ := hreplays.replayKraken_eq hprocessor
  refine ⟨kraken, ?_, hprocessed⟩
  unfold OpenSession.branch
  rw [h.venue]
  dsimp only
  rw [h.indexed, h.depth_eq, h.status, h.records, h.lifecycle, hkraken]
  rfl

/-- The result has the hash of the book that the live run has hashed. -/
private theorem Captured.bookText (h : Captured env s depth text contents session)
    (hreplays : s.market.Replays crc processor) {kraken : KrakenReplay}
    (hprocessed : kraken.processor = s.market.processor)
    (parts : ResultParts env session (.kraken kraken)) : parts.bookText = contents := by
  have hcontents := parts.book_eq
  change dump none (contentsValue (krakenContents kraken.processor.book)) = _ at hcontents
  rw [hprocessed, ← liveContents_eq hreplays.state, h.contents_eq] at hcontents
  exact (Except.ok.inj hcontents).symm

/-- The replay of what a capture has left behind. -/
theorem Captured.replays (h : Captured env s depth text contents session)
    (hsha : ∀ text, IsUtf8 (env.sha256 text))
    (hprocessor : KrakenBookProcessor.create depth = .ok processor)
    (hreplays : s.market.Replays crc processor) (allowIncomplete includeFinalBook : Bool)
    (inProgress : Option Bytes) :
    ∃ result, replay env crc allowIncomplete includeFinalBook (some text) inProgress = .ok result ∧
      researchValid result = true ∧
      result.find? (ascii "messages_read") =
        some (uint64 s.market.toKrakenSession.recordedEnvelopes.length) ∧
      result.find? (ascii "final_book_hash") = some (.string (env.sha256 contents)) ∧
      result.find? (ascii "metrics") = some (metricsValue s.market.processor.metrics) := by
  have hopen := h.opens allowIncomplete inProgress
  obtain ⟨kraken, hbranch, hprocessed⟩ := h.branch hprocessor hreplays
  obtain ⟨-, replayed, hkraken, hreplay⟩ := branch_kraken h.venue hbranch
  cases hkraken
  have hlegible := replayKraken_legible (openSession_sound hopen h.small).reasons hreplay
  obtain ⟨result, hresult⟩ := exists_ok_of_isOk
    ((replay_isOk_iff crc includeFinalBook hsha hopen h.small).mpr
      ⟨h.id, .kraken kraken, hbranch, hlegible⟩)
  obtain ⟨branch, hbranch', hparts⟩ := replay_ok hopen hresult
  cases Except.ok.inj (hbranch.symm.trans hbranch')
  obtain ⟨parts, hparts, -⟩ := replayResult_ok hparts
  have hmessages := find?_messages hopen h.small hresult
  rw [h.records] at hmessages
  refine ⟨result, hresult, ?_, hmessages, ?_, ?_⟩
  · have hvalid : result.find? (ascii "research_valid") = some (.boolean true) := by
      rw [hparts, ← h.complete]
      exact parts.find?_fields 6 rfl
    unfold researchValid
    rw [hvalid]
  · rw [hparts, ← h.bookText hreplays hprocessed parts]
    exact parts.find?_fields 13 rfl
  · rw [hparts, ← hprocessed]
    exact parts.find?_fields 17 rfl

end Capture

/-- Whatever the order of the threads was: a capture of Kraken that ended without a failure and was
finalized is replayed to a result that is marked as valid research. It has read every record that
was written, and it has the hash of the book and the metrics that the live run has put into the
manifest. -/
theorem kraken_capture_replays {env : Surroundings}
    (hsha : ∀ text, IsUtf8 (env.sha256 text) ∧ env.sha256 text ≠ []) (crc : Bytes → UInt32)
    (limits : KrakenLimits) (queue : RawQueueConfig) {depth : Nat} {processor : KrakenBookProcessor}
    (hprocessor : KrakenBookProcessor.create depth = .ok processor)
    (now : ReceiveMonotonicTimestamp) (events : List (Event KrakenMarket.Action)) {isNew : Bool}
    {labels : Labels} {capture : Capture}
    (hcapture : Capture.create env.sha256 .kraken depth isNew labels = .ok capture)
    {file endedAt text : Bytes} (hfile : env.file (rawPath .kraken) = some file)
    (hinside : env.outside (rawPath .kraken) = false) :
    let s := (System.create queue (KrakenMarket.initial processor now)).run
      (krakenProgram crc limits) events
    s.finished = true → s.fatal = none → Delivered (some file) s.backend.written →
    krakenEnd env.sha256 capture s.market.processor endedAt (some file) s.final = .ok text →
    ∀ allowIncomplete includeFinalBook inProgress, ∃ manifest result hash,
      Json.parse text = .ok manifest ∧
      replay env crc allowIncomplete includeFinalBook (some text) inProgress = .ok result ∧
      researchValid result = true ∧
      result.find? (ascii "messages_read") = some (uint64 s.backend.written.length) ∧
      manifest.find? (ascii "final_book_hash") = some (.string hash) ∧
      result.find? (ascii "final_book_hash") = some (.string hash) ∧
      manifest.find? (ascii "metrics") = some (metricsValue s.market.processor.metrics) ∧
      result.find? (ascii "metrics") = some (metricsValue s.market.processor.metrics) := by
  intro s hfinished hclean hdelivered hend allowIncomplete includeFinalBook inProgress
  have hkept : s.Kept (krakenAccounts crc limits) :=
    kraken_kept crc limits processor now queue events
  have horderly : s.Orderly := System.run_orderly queue (KrakenMarket.initial processor now) events
  have hreplays : s.market.Replays crc processor :=
    replays_of_clean hprocessor now queue events hfinished hclean
  obtain ⟨contents, session, captured⟩ := captured_of_clean (fun text ↦ (hsha text).2) hkept
    horderly hfinished hclean hcapture hfile hinside hdelivered hend
  obtain ⟨result, hresult, hvalid, hmessages, hhash, hmetrics⟩ := captured.replays
    (fun text ↦ (hsha text).1) hprocessor hreplays allowIncomplete includeFinalBook inProgress
  have hwritten : s.backend.written = s.market.recordedEnvelopes :=
    hkept.written_accepted hfinished hclean
  rw [← hwritten] at hmessages
  exact ⟨session.manifest, result, env.sha256 contents, captured.parsed, hresult, hvalid, hmessages,
    captured.hash, hhash, captured.metrics, hmetrics⟩

/-- A capture of a snapshot and an update, and of a snapshot on a second connection, that is then
stopped by the signal. -/
def recordedBook : List (Event KrakenMarket.Action) :=
  [.writer .prepared, .ready, .check false, .start ⟨0⟩, .callback (.connected ⟨3⟩),
    .callback (.message KrakenBookProcessor.oneLevelEach ⟨4⟩ ⟨4⟩ .accepted), .proceed, .proceed,
    .callback (.message KrakenBookProcessor.bidRemoved ⟨5⟩ ⟨5⟩ .accepted), .proceed, .proceed,
    .writer .pop, .writer (.append .appended), .writer .note,
    .callback (.error (ascii "read: End of file")), .proceed, .proceed,
    .callback (.retry ⟨9⟩), .proceed, .callback (.connected ⟨10⟩),
    .callback (.message KrakenBookProcessor.oneLevelEach ⟨11⟩ ⟨11⟩ .accepted), .proceed, .proceed,
    .writer .pop, .writer (.append .appended), .writer .note,
    .writer .pop, .writer (.append .appended), .writer .note,
    .look, .tick ⟨12⟩ true, .proceed, .writer .pop, .writer (.closed true), .writer .finish, .exit,
    .close, .finish]

/-- The raw file that this capture leaves. -/
def bookRecording : RawEventRecorder × List RawMessage :=
  (RawEventRecorder.create false).appendAll
    [⟨.kraken, 1, 4, 4, KrakenBookProcessor.oneLevelEach⟩,
      ⟨.kraken, 1, 5, 5, KrakenBookProcessor.bidRemoved⟩,
      ⟨.kraken, 2, 11, 11, KrakenBookProcessor.oneLevelEach⟩]

/-- The directory of this capture. -/
def bookDirectory : Surroundings := directoryWith (some bookRecording.1.output)

/-- The run of this capture. -/
def recordedSystem (processor : KrakenBookProcessor) : System KrakenMarket :=
  (System.create {} (KrakenMarket.initial processor ⟨0⟩)).run (krakenProgram Crc.crc32 {})
    recordedBook

/-- The capture, up to the final manifest. -/
def bookCapture (processor : KrakenBookProcessor) : Except Failure (Capture × Bytes) := do
  let capture ← Capture.create countDigest .kraken 10 true ⟨[], [], [], [], [], []⟩
  let s := recordedSystem processor
  let text ← krakenEnd countDigest capture s.market.processor [] (some bookRecording.1.output)
    s.final
  return (capture, text)

/-- Its replay reads the three messages. -/
theorem kraken_capture_replays_reconnect :
    ∃ processor capture text result, KrakenBookProcessor.create 10 = .ok processor ∧
      bookCapture processor = .ok (capture, text) ∧
      replay bookDirectory Crc.crc32 false false (some text) none = .ok result ∧
      researchValid result = true ∧ result.find? (ascii "messages_read") = some (uint64 3) ∧
      result.find? (ascii "metrics") =
        some (metricsValue (recordedSystem processor).market.processor.metrics) ∧
      (recordedSystem processor).market.processor.metrics.reconnects = 1 ∧
      (recordedSystem processor).market.processor.book.state = .valid := by
  obtain ⟨processor, hprocessor, hfinished, hclean, hwritten, hisOk, hreconnects, hstate⟩ :
      ∃ processor, KrakenBookProcessor.create 10 = .ok processor ∧
      (recordedSystem processor).finished = true ∧ (recordedSystem processor).fatal = none ∧
      (recordedSystem processor).backend.written = bookRecording.2 ∧
      (bookCapture processor).isOk = true ∧
      (recordedSystem processor).market.processor.metrics.reconnects = 1 ∧
      (recordedSystem processor).market.processor.book.state = .valid :=
    ⟨_, rfl, by decide +kernel, by decide +kernel, by decide +kernel, by decide +kernel,
      by decide +kernel, by decide +kernel⟩
  obtain ⟨⟨capture, text⟩, hbook⟩ := exists_ok_of_isOk hisOk
  obtain ⟨_, hcapture, h⟩ := bind_ok hbook
  obtain ⟨_, htext, h⟩ := bind_ok h
  cases h
  have hsha (bytes : Bytes) :
      IsUtf8 (bookDirectory.sha256 bytes) ∧ bookDirectory.sha256 bytes ≠ [] :=
    ⟨isUtf8_of_isAscii (isAscii_countDigest bytes), countDigest_ne_nil bytes⟩
  have hdelivered : Delivered (some bookRecording.1.output) bookRecording.2 :=
    ⟨_, bookRecording.1, (Prod.mk.eta : _ = bookRecording).symm, rfl, by decide +kernel⟩
  rw [← hwritten] at hdelivered
  have hfile : bookDirectory.file (rawPath .kraken) = some bookRecording.1.output :=
    file_directoryWith _ _
  unfold recordedSystem at *
  obtain ⟨_, result, _, -, hresult, hvalid, hread, -, -, -, hmetrics⟩ :=
    kraken_capture_replays hsha Crc.crc32 {} {} hprocessor ⟨0⟩ recordedBook hcapture hfile rfl
      hfinished hclean hdelivered htext false false none
  have hthree : bookRecording.2.length = 3 := by decide +kernel
  rw [hwritten, hthree] at hread
  exact ⟨processor, capture, text, result, hprocessor, hbook, hresult, hvalid, hread, hmetrics,
    hreconnects, hstate⟩

end ArbitrageEngine.Sessions
