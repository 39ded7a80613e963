import ArbitrageEngine.Pipeline.Runtime
import ArbitrageEngine.Session.Manifest

/-!
# What the counters count

The counters of the shared status are written section by section, while both threads go on. A
market thread keeps its own books: what the queue has accepted from it, and what its fields of
the status will be once the pending sections are done. When both threads are done and there is
no fatal error, these books are what the status says, and the writer has written all of them.
-/

namespace ArbitrageEngine.Pipeline

open Base ArbitrageEngine.Core Coinbase Recording Sessions

/-! ### The books of a market thread -/

/-- The counters and the last indexes say that this many records were received and this many were
enqueued and processed. -/
structure Ledger.Tallies (ledger : Ledger) (total taken : Nat) : Prop where
  received : ledger.receivedMessages = total
  lastReceived : ledger.lastReceivedIndex = lastOf total
  enqueued : ledger.enqueuedMessages = taken
  lastEnqueued : ledger.lastEnqueuedIndex = lastOf taken
  processed : ledger.processedMessages = taken
  lastProcessed : ledger.lastProcessedIndex = lastOf taken

/-- The ledger without its events. -/
def Ledger.counters (ledger : Ledger) : Ledger := { ledger with lifecycleEvents := [] }

/-- The tallies depend on the counters only. -/
theorem Ledger.Tallies.of_counters {ledger ledger' : Ledger} {total taken : Nat}
    (h : ledger.Tallies total taken) (hc : ledger.counters = ledger'.counters) :
    ledger'.Tallies total taken := by
  have hcounters : ledger.counters.Tallies total taken := ⟨h.1, h.2, h.3, h.4, h.5, h.6⟩
  rw [hc] at hcounters
  exact ⟨hcounters.1, hcounters.2, hcounters.3, hcounters.4, hcounters.5, hcounters.6⟩

/-- What a market thread knows of its own envelopes and sections, and the laws of an action. -/
structure Accounts {σ ι : Type} (P : Program σ ι) where
  venue : KnownVenue
  /-- Holds of every state of the thread. -/
  Inv : σ → Prop
  /-- The envelopes that the queue has accepted. -/
  accepted : σ → List RawMessage
  /-- The thread's fields of the status once its sections are done. -/
  ledger : σ → Ledger
  kept : ∀ m input, Inv m → Inv (P.step m input).1
  entered : ∀ m input, Inv m →
    ledger (P.step m input).1 = (P.step m input).2.foldl Op.enter (ledger m)
  silent : ∀ m input, Inv m → P.handed m input = none →
    accepted (P.step m input).1 = accepted m
  pushed : ∀ m input envelope result, Inv m → P.handed m input = some envelope →
    accepted (P.step m (P.answered input result)).1 =
      accepted m ++ if result = .accepted then [envelope] else []
  indexed : ∀ m input envelope, Inv m → P.handed m input = some envelope →
    envelope.recordIndex = (accepted m).length
  /-- An envelope that is not accepted goes with a fatal section. -/
  rejected : ∀ m input, Inv m →
    (ledger (P.step m input).1).receivedMessages ≠ (accepted (P.step m input).1).length →
    (ledger m).receivedMessages ≠ (accepted m).length ∨ (P.step m input).2.any Op.isFatal = true
  farewell : ∀ entries, P.farewell.foldl Op.enter entries = entries
  tallied : ∀ m, Inv m → (ledger m).Tallies (ledger m).receivedMessages (accepted m).length
  venues : ∀ m, Inv m → ∀ envelope ∈ accepted m, envelope.venue = venue
  /-- Without a rejection the lifecycle events are those of a valid manifest. -/
  lifecycle : ∀ m, Inv m → (ledger m).receivedMessages = (accepted m).length →
    validateLifecycle true (accepted m).length 0
      ((ledger m).lifecycleEvents.map .ofEvent) = .ok ()

/-! ### Sections -/

namespace Backend

variable {b : Backend}

/-- A section of the market thread enters its operation in the ledger. -/
theorem ledger_perform (op : Op) :
    (b.perform op).shared.status.ledger = op.enter b.shared.status.ledger := by
  cases op with
  | closeQueue | clearPost => rfl
  | settle =>
    unfold perform
    dsimp only
    split
    · rfl
    · split <;> rfl
  | received | processed | published | lifecycle | caught | overruled =>
    exact Op.ledger_apply b.shared.status _

private theorem accepted_perform (op : Op) : (b.perform op).accepted = b.accepted := by
  cases op with
  | settle =>
    unfold perform
    dsimp only
    split
    · rfl
    · split <;> rfl
  | closeQueue | clearPost | received | processed | published | lifecycle | caught
  | overruled => rfl

/-- A fatal error stays, and a fatal section leaves one. -/
theorem fatal_perform (op : Op)
    (h : b.shared.status.fatalError ≠ none ∨ op.isFatal = true) :
    (b.perform op).shared.status.fatalError ≠ none := by
  cases op with
  | closeQueue | clearPost => exact h.resolve_right nofun
  | settle =>
    have hf := h.resolve_right nofun
    unfold perform
    dsimp only
    split
    · exact hf
    · split <;> exact hf
  | received | processed | published | lifecycle | caught | overruled =>
    have hv := Op.verdict_apply b.shared.status
    exact h.elim (hv _).1.fatalError (hv _).2

/-- The flags beside the status do not matter to the writer. -/
theorem Recorded.withFlags (h : b.Recorded) (ready done market posting : Bool)
    (posted : List Bytes) :
    { b with shared := ⟨b.shared.status, ready, done, market, posting, posted⟩ }.Recorded :=
  ⟨h.indexed, h.kept, h.count, h.last, h.noting, h.left, h.releasing, h.filed⟩

private theorem Recorded.perform (h : b.Recorded) (op : Op) : (b.perform op).Recorded := by
  cases op with
  | closeQueue => exact h.close
  | clearPost => exact h.withFlags _ _ _ _ _
  | settle =>
    unfold Backend.perform
    dsimp only
    split
    · exact h
    · split
      · exact h.withStatus rfl rfl id
      · exact h
  | received | processed | published | lifecycle | caught | overruled =>
    have hw := Op.written_apply b.shared.status
    exact h.withStatus (hw _).1 (hw _).2 (Op.verdict_apply b.shared.status _).1.fatalError

/-- The writer leaves the ledger of the market thread alone. -/
theorem Moved.ledger {b' : Backend} (h : b.Moved b') :
    b'.shared.status.ledger = b.shared.status.ledger := by
  cases h with
  | failed error phase => exact ledger_fail _ _ _
  | idle | prepared | unprepared | popped | drained | appended | unwritten | noted | closed
  | unclosed | released | finished => rfl

private theorem Moved.accepted {b' : Backend} (h : b.Moved b') : b'.accepted = b.accepted := by
  cases h <;> rfl

/-- The writer never takes a fatal error back. -/
theorem Moved.fatal {b' : Backend} (h : b.Moved b') (hf : b.shared.status.fatalError ≠ none) :
    b'.shared.status.fatalError ≠ none := by
  cases h with
  | failed error phase => exact recordingFailed_failed b.shared error
  | idle | prepared | unprepared | popped | drained | appended | unwritten | noted | closed
  | unclosed | released | finished => exact hf

end Backend

/-! ### The invariant -/

namespace System

variable {σ ι : Type} {P : Program σ ι}

/-- There is a fatal error, or a pending section leaves one. -/
def Doomed (s : System σ) : Prop := s.fatal ≠ none ∨ s.pending.any Op.isFatal = true

/-- The books of the market thread are what the status comes to. -/
structure Kept (A : Accounts P) (s : System σ) : Prop where
  inv : A.Inv s.market
  recorded : s.backend.Recorded
  accepted : s.backend.accepted = A.accepted s.market
  ledger : s.thrown = false →
    s.pending.foldl Op.enter s.backend.shared.status.ledger = A.ledger s.market
  rejected : s.thrown = false →
    (A.ledger s.market).receivedMessages ≠ (A.accepted s.market).length → s.Doomed
  thrown : s.thrown = true → s.phase.isGuarded = false ∧ s.Doomed
  early : s.phase.isEarly = true → s.pending = []
  ended : s.phase = .ending ∨ s.phase = .done → s.pending = []

private theorem kept_create (A : Accounts P) (config : RawQueueConfig) {market : σ}
    (hi : A.Inv market) (ha : A.accepted market = [])
    (hl : A.ledger market = ({} : RuntimeStatus).ledger) :
    (create config market).Kept A where
  inv := hi
  recorded := Backend.recorded_create config
  accepted := ha.symm
  ledger := fun _ ↦ hl.symm
  rejected := by
    intro _ hr
    exact absurd (by rw [create, hl, ha]; rfl) hr
  thrown := nofun
  early := fun _ ↦ rfl
  ended := fun _ ↦ rfl

/-- A change that leaves the market, its sections and the ledger alone. -/
theorem Kept.frame {A : Accounts P} {s s' : System σ} (h : s.Kept A) (hm : s'.market = s.market)
    (hr : s'.backend.Recorded) (ha : s'.backend.accepted = s.backend.accepted)
    (hl : s'.backend.shared.status.ledger = s.backend.shared.status.ledger)
    (hf : s.fatal ≠ none → s'.fatal ≠ none) (hp : s'.pending = s.pending)
    (hphase : s'.phase = s.phase) (ht : s'.thrown = s.thrown) : s'.Kept A := by
  have hdoomed (hd : s.Doomed) : s'.Doomed := hd.imp hf (by rw [hp]; exact id)
  refine ⟨hm ▸ h.inv, hr, ?_, ?_, ?_, ?_, ?_, ?_⟩
  · rw [ha, hm]
    exact h.accepted
  · rw [ht, hp, hl, hm]
    exact h.ledger
  · rw [ht, hm]
    exact fun hn hr ↦ hdoomed (h.rejected hn hr)
  · rw [ht, hphase]
    exact fun hn ↦ ⟨(h.thrown hn).1, hdoomed (h.thrown hn).2⟩
  · rw [hphase, hp]
    exact h.early
  · rw [hphase, hp]
    exact h.ended

/-- Nothing has been thrown in a phase that guards against it. -/
theorem Kept.not_thrown {A : Accounts P} {s : System σ} (h : s.Kept A)
    (hp : s.phase.isGuarded = true) : s.thrown = false := by
  cases ht : s.thrown with
  | false => rfl
  | true =>
    rw [(h.thrown ht).1] at hp
    cases hp

/-- Between two actions the thread can go on to another phase. -/
theorem Kept.toPhase {A : Accounts P} {s : System σ} (h : s.Kept A) (phase : MarketPhase)
    (hg : s.phase.isGuarded = true ∨ phase.isGuarded = false) (hp : s.pending = []) :
    { s with phase }.Kept A where
  inv := h.inv
  recorded := h.recorded
  accepted := h.accepted
  ledger := h.ledger
  rejected := h.rejected
  thrown := by
    intro ht
    apply And.intro _ (h.thrown ht).2
    apply hg.resolve_left
    intro hs
    rw [h.not_thrown hs] at ht
    cases ht
  early := fun _ ↦ hp
  ended := fun _ ↦ hp

/-- The local part of an action, after its push. -/
theorem Kept.advance {A : Accounts P} {s : System σ} (h : s.Kept A) {backend : Backend} (input : ι)
    (hphase : s.phase = .looping) (hp : s.pending = []) (hr : backend.Recorded)
    (hs : backend.shared = s.backend.shared)
    (ha : backend.accepted = A.accepted (P.step s.market input).1) :
    ({ s with backend }.advance P input).Kept A where
  inv := A.kept s.market input h.inv
  recorded := hr
  accepted := ha
  ledger := by
    intro ht
    have hledger := h.ledger ht
    rw [hp, List.foldl_nil] at hledger
    show (P.step s.market input).2.foldl Op.enter backend.shared.status.ledger = _
    rw [hs, hledger]
    exact (A.entered s.market input h.inv).symm
  rejected := by
    intro ht hrejected
    rcases A.rejected s.market input h.inv hrejected with hbefore | hnow
    · have hdoomed := h.rejected ht hbefore
      unfold Doomed at hdoomed
      rw [hp] at hdoomed
      apply Or.inl
      show backend.shared.status.fatalError ≠ none
      rw [hs]
      exact hdoomed.resolve_right nofun
    · exact .inr hnow
  thrown := by
    intro ht
    rw [h.not_thrown (by rw [hphase]; rfl)] at ht
    cases ht
  early := by
    intro (he : s.phase.isEarly = true)
    rw [hphase] at he
    cases he
  ended := by
    intro (he : s.phase = .ending ∨ s.phase = .done)
    rw [hphase] at he
    rcases he with he | he <;> cases he

private theorem Kept.act {A : Accounts P} {s : System σ} (h : s.Kept A) (input : ι)
    (hphase : s.phase = .looping) (hp : s.pending = []) : (s.act P input).Kept A := by
  unfold System.act
  split
  · next hnone =>
    apply h.advance input hphase hp h.recorded rfl
    rw [A.silent s.market input h.inv hnone]
    exact h.accepted
  · next envelope hsome =>
    have hindex : envelope.recordIndex = s.backend.accepted.length := by
      rw [h.accepted]
      exact A.indexed s.market input envelope h.inv hsome
    apply h.advance _ hphase hp (h.recorded.push hindex) rfl
    rw [A.pushed s.market input envelope _ h.inv hsome, ← h.accepted]
    show (if (s.backend.push envelope).2 = .accepted then _ else _) = _
    split
    · rfl
    · exact (List.append_nil _).symm

/-- One step keeps the books. -/
theorem Stepped.kept {A : Accounts P} {s s' : System σ} (h : Stepped P s s') (hk : s.Kept A) :
    s'.Kept A := by
  cases h with
  | idle => exact hk
  | writer backend moved =>
    exact hk.frame rfl (moved.recorded hk.recorded) moved.accepted moved.ledger moved.fatal rfl rfl
      rfl
  | ready phase due =>
    have hpending := hk.early (by rw [phase]; rfl)
    have hnext := hk.toPhase .checking (.inl (by rw [phase]; rfl)) hpending
    exact hnext.frame rfl (hk.recorded.withFlags _ _ _ _ _) rfl rfl id rfl rfl rfl
  | refused input phase =>
    have hpending := hk.early (by rw [phase]; rfl)
    exact (hk.toPhase .looping (.inl (by rw [phase]; rfl)) hpending).act input rfl hpending
  | cleared phase clean =>
    exact hk.toPhase .starting (.inl (by rw [phase]; rfl)) (hk.early (by rw [phase]; rfl))
  | started now phase =>
    have hpending := hk.early (by rw [phase]; rfl)
    have hnext := hk.toPhase .looping (.inl (by rw [phase]; rfl)) hpending
    have hrunning : Kept A { s with
        phase := .looping
        backend := s.backend.withStatus
          { s.backend.shared.status with runtimeState := .running } } :=
      hnext.frame rfl (hk.recorded.withStatus rfl rfl id) rfl rfl id rfl rfl rfl
    exact hrunning.act _ rfl hpending
  | proceeded op rest armed pending =>
    -- the section moves from the pending ones to the backend; what dooms the run stays
    have hdoomed (hd : s.Doomed) :
        System.Doomed { s with backend := s.backend.perform op, pending := rest, armed } := by
      unfold Doomed at hd
      rw [pending, List.any_cons, Bool.or_eq_true, ← or_assoc] at hd
      exact hd.imp_left (Backend.fatal_perform op)
    have hnonempty (hn : s.pending = []) : False := by
      rw [pending] at hn
      cases hn
    refine ⟨hk.inv, hk.recorded.perform op, ?_, ?_, ?_, ?_, ?_, ?_⟩
    · exact (Backend.accepted_perform op).trans hk.accepted
    · intro ht
      have hledger := hk.ledger ht
      rw [pending, List.foldl_cons, ← Backend.ledger_perform] at hledger
      exact hledger
    · exact fun ht hr ↦ hdoomed (hk.rejected ht hr)
    · exact fun ht ↦ ⟨(hk.thrown ht).1, hdoomed (hk.thrown ht).2⟩
    · exact fun he ↦ (hnonempty (hk.early he)).elim
    · exact fun he ↦ (hnonempty (hk.ended he)).elim
  | acted input posted seen armed phase pending =>
    have hnext : Kept A { s with backend := s.backend.withPosted posted, seen, armed } :=
      hk.frame rfl (hk.recorded.withFlags _ _ _ _ _) rfl rfl id rfl rfl rfl
    exact hnext.act input phase pending
  | looked phase seen => exact hk.frame rfl hk.recorded rfl rfl id rfl rfl rfl
  | exited phase pending =>
    have ht := hk.not_thrown (by rw [phase]; rfl)
    refine ⟨hk.inv, hk.recorded, hk.accepted, ?_, ?_, ?_, nofun, nofun⟩
    · intro _
      have hledger := hk.ledger ht
      rw [pending, List.foldl_nil] at hledger
      rw [← hledger]
      exact A.farewell _
    · intro _ hr
      have hdoomed := hk.rejected ht hr
      unfold Doomed at hdoomed
      rw [pending] at hdoomed
      exact .inl (hdoomed.resolve_right nofun)
    · intro hthrown
      rw [show s.thrown = true from hthrown] at ht
      cases ht
  | closed phase pending =>
    have hnext := hk.toPhase .ending (.inr rfl) pending
    exact hnext.frame rfl hk.recorded.close rfl rfl id rfl rfl rfl
  | finished phase =>
    have hnext := hk.toPhase .done (.inr rfl) (hk.ended (.inl phase))
    exact hnext.frame rfl (hk.recorded.withFlags _ _ _ _ _) rfl rfl id rfl rfl rfl
  | threw what phase =>
    exact ⟨hk.inv, hk.recorded, hk.accepted, nofun, nofun,
      fun _ ↦ ⟨rfl, .inr (P.handler_fatal s.market what)⟩, nofun, nofun⟩

/-- The books are kept along every run. -/
theorem run_kept (A : Accounts P) (config : RawQueueConfig) {market : σ} (hi : A.Inv market)
    (ha : A.accepted market = []) (hl : A.ledger market = ({} : RuntimeStatus).ledger)
    (events : List (Event ι)) : ((create config market).run P events).Kept A :=
  run_invariant (fun _ _ h hk ↦ h.kept hk) (kept_create A config hi ha hl) events

/-! ### Finished runs -/

/-- A run is over when both threads are done. -/
theorem finished_iff (s : System σ) :
    s.finished = true ↔ s.phase = .done ∧ s.backend.writer = .done := by
  simp [finished]

/-- Unless an exception has ended the loop, the status of a finished run is the ledger. -/
theorem Kept.ledger_eq {A : Accounts P} {s : System σ} (h : s.Kept A) (hf : s.finished = true)
    (ht : s.thrown = false) : s.backend.shared.status.ledger = A.ledger s.market := by
  have hledger := h.ledger ht
  rw [h.ended (.inr ((finished_iff s).mp hf).1)] at hledger
  exact hledger

/-- A finished run without a fatal error has met no exception and no rejection. -/
theorem Kept.clean {A : Accounts P} {s : System σ} (h : s.Kept A) (hf : s.finished = true)
    (hc : s.fatal = none) :
    s.thrown = false ∧ (A.ledger s.market).receivedMessages = (A.accepted s.market).length := by
  have hsafe : ¬s.Doomed := by
    unfold Doomed
    rw [h.ended (.inr ((finished_iff s).mp hf).1), hc]
    simp
  have ht : s.thrown = false := by
    cases ht : s.thrown with
    | false => rfl
    | true => exact absurd (h.thrown ht).2 hsafe
  apply And.intro ht
  by_contra hr
  exact hsafe (h.rejected ht hr)

private theorem not_failed {s : System σ} (hf : s.finished = true) (hc : s.fatal = none) :
    ¬s.backend.Failed := by
  unfold Backend.Failed
  rw [((finished_iff s).mp hf).2]
  exact not_not.mpr hc

/-- A writer that is done without a fatal error has written every accepted record. -/
theorem Kept.written_accepted {A : Accounts P} {s : System σ} (h : s.Kept A)
    (hf : s.finished = true) (hc : s.fatal = none) :
    s.backend.written = A.accepted s.market := by
  have hdone := ((finished_iff s).mp hf).2
  have hsafe := not_failed hf hc
  obtain ⟨lost, hsplit, hlost⟩ := h.recorded.kept
  have hleft := h.recorded.left (by rw [hdone]; rfl)
  rw [hdone, hlost.resolve_right hsafe, hleft.2.resolve_right hsafe] at hsplit
  rw [← h.accepted, hsplit]
  exact (List.append_nil _).symm

/-- Its file holds them. -/
theorem Kept.file_holds {A : Accounts P} {s : System σ} (h : s.Kept A) (hf : s.finished = true)
    (hc : s.fatal = none) :
    ∃ recorder : RawEventRecorder, s.backend.file = some recorder.output ∧
      recorder.Holds (s.backend.written.map RawMessage.narrowed) := by
  obtain hfailed | ⟨hphase, -⟩ | ⟨-, recorder, hrecorder, hholds⟩ := h.recorded.filed
  · exact absurd hfailed (not_failed hf hc)
  · rw [((finished_iff s).mp hf).2] at hphase
    cases hphase
  · refine ⟨recorder, by rw [Backend.file, hrecorder]; rfl, hholds fun e he ↦ ⟨A.venue, ?_⟩⟩
    rw [h.written_accepted hf hc] at he
    exact A.venues s.market h.inv e he

/-- The counter of the writer. -/
theorem Kept.written_count {A : Accounts P} {s : System σ} (h : s.Kept A)
    (hf : s.finished = true) :
    s.backend.shared.status.writtenMessages = s.backend.written.length := by
  have hcount := h.recorded.count
  rw [((finished_iff s).mp hf).2] at hcount
  exact hcount

/-! ### The final status -/

/-- The final status has the ledger of the market thread. -/
theorem final_ledger (s : System σ) : s.final.ledger = s.backend.shared.status.ledger := by
  unfold final
  split <;> rfl

private theorem final_progress (s : System σ) :
    s.final.writtenMessages = s.backend.shared.status.writtenMessages ∧
      s.final.progress = s.backend.shared.status.progress := by
  unfold final
  split <;> exact ⟨rfl, rfl⟩

/-- The final status has the fatal error of the run. -/
theorem final_fatalError (s : System σ) : s.final.fatalError = s.fatal := by
  unfold final
  split <;> rfl

/-- The writer's counter and last index are those of the records in the file. -/
theorem Kept.final_written {A : Accounts P} {s : System σ} (h : s.Kept A)
    (hf : s.finished = true) :
    s.final.writtenMessages = s.backend.written.length ∧
      s.final.progress.lastWrittenIndex = lastOf s.backend.written.length := by
  have hcount := h.written_count hf
  rw [s.final_progress.1, s.final_progress.2, h.recorded.last, hcount]
  exact ⟨rfl, rfl⟩

/-- Without an exception the other counters are those of the accepted envelopes. -/
theorem Kept.final_tallies {A : Accounts P} {s : System σ} (h : s.Kept A)
    (hf : s.finished = true) (ht : s.thrown = false) :
    s.final.ledger.Tallies s.final.receivedMessages s.backend.accepted.length := by
  have hledger := s.final_ledger.trans (h.ledger_eq hf ht)
  have htallies := A.tallied s.market h.inv
  rw [← hledger, ← h.accepted] at htallies
  exact htallies

/-- Without a fatal error all of them count the records in the file. -/
theorem Kept.final_clean {A : Accounts P} {s : System σ} (h : s.Kept A)
    (hf : s.finished = true) (hc : s.fatal = none) :
    s.final.ledger.Tallies s.backend.written.length s.backend.written.length := by
  have htallies := h.final_tallies hf (h.clean hf hc).1
  have hledger := s.final_ledger.trans (h.ledger_eq hf (h.clean hf hc).1)
  have hreceived : s.final.receivedMessages = s.backend.written.length := by
    rw [h.written_accepted hf hc, ← (h.clean hf hc).2, ← hledger]
    rfl
  rw [hreceived, h.accepted, ← h.written_accepted hf hc] at htallies
  exact htallies

end System

end ArbitrageEngine.Pipeline
