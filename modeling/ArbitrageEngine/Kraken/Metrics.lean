import ArbitrageEngine.Kraken.BookAgreement
import ArbitrageEngine.Kraken.ProcessorRuns

/-!
# The metrics of the book processor

`src/adapters/kraken/kraken_book_processor.cpp`: every counter of `metrics_` against the outcomes
of the messages, and the three clocks against the time that has passed.
-/

namespace ArbitrageEngine.Kraken

open Base Base.TreeMap Std ArbitrageEngine.Core

/-! ### Counters -/

/-- The outcomes of book messages. -/
def ProcessOutcome.ofBook : ProcessOutcome → Bool
  | awaitingSnapshot | checksumMismatch | snapshot | update | applyError => true
  | heartbeat | subscriptionSuccess | ignored | subscriptionFailure | parseError => false

/-- The outcomes of book messages whose checksum was computed. -/
def ProcessOutcome.validates : ProcessOutcome → Bool
  | checksumMismatch | snapshot | update => true
  | heartbeat | subscriptionSuccess | ignored | subscriptionFailure | parseError
  | awaitingSnapshot | applyError => false

/-- The outcomes of book messages whose checksum may have been computed: an exception comes before
it or behind it. -/
def ProcessOutcome.mayValidate (outcome : ProcessOutcome) : Bool :=
  outcome.validates || outcome = .applyError

/-- The counters after messages with these outcomes, modulo `2 ^ 64`; `pending` book messages have
been counted and not yet got theirs. -/
structure KrakenMetrics.Counts (metrics : KrakenMetrics) (outcomes : List ProcessOutcome)
    (pending : Nat) : Prop where
  heartbeats : metrics.heartbeats = UInt64.ofNat (outcomes.count .heartbeat)
  subscriptionErrors : metrics.subscriptionErrors =
    UInt64.ofNat (outcomes.count .subscriptionFailure)
  parseErrors : metrics.parseErrors = UInt64.ofNat (outcomes.count .parseError)
  books : metrics.snapshots + metrics.updates =
    UInt64.ofNat (outcomes.countP ProcessOutcome.ofBook + pending)
  failures : metrics.checksumFailures = UInt64.ofNat (outcomes.count .checksumMismatch)
  validations : ∃ n, metrics.checksumValidations = UInt64.ofNat n ∧
    outcomes.countP ProcessOutcome.validates ≤ n ∧ n ≤ outcomes.countP ProcessOutcome.mayValidate

/-- What the outcome of a message adds to the counters; a book message has been counted before. -/
structure KrakenMetrics.Adds (metrics : KrakenMetrics) (outcome : ProcessOutcome)
    (after : KrakenMetrics) : Prop where
  heartbeats : after.heartbeats = metrics.heartbeats + if outcome = .heartbeat then 1 else 0
  subscriptionErrors : after.subscriptionErrors =
    metrics.subscriptionErrors + if outcome = .subscriptionFailure then 1 else 0
  parseErrors : after.parseErrors = metrics.parseErrors + if outcome = .parseError then 1 else 0
  books : after.snapshots + after.updates = metrics.snapshots + metrics.updates
  failures : after.checksumFailures =
    metrics.checksumFailures + if outcome = .checksumMismatch then 1 else 0
  validations : ∃ n, after.checksumValidations = metrics.checksumValidations + UInt64.ofNat n ∧
    outcome.validates.toNat ≤ n ∧ n ≤ outcome.mayValidate.toNat

namespace KrakenMetrics.Adds

/-- Outcomes without a counter of their own. -/
private theorem uncounted (metrics : KrakenMetrics) {outcome : ProcessOutcome}
    (h : outcome ∈ [.subscriptionSuccess, .ignored, .awaitingSnapshot, .applyError]) :
    metrics.Adds outcome metrics := by
  simp only [List.mem_cons, List.not_mem_nil, or_false] at h
  rcases h with rfl | rfl | rfl | rfl <;>
    exact ⟨by simp, by simp, by simp, rfl, by simp, 0, by simp, by decide, by decide⟩

/-- Outcomes of a book message whose checksum matches. -/
private theorem matched (metrics : KrakenMetrics) {outcome : ProcessOutcome}
    (h : outcome ∈ [.applyError, .snapshot, .update]) :
    metrics.Adds outcome { metrics with
      checksumValidations := metrics.checksumValidations + 1 } := by
  simp only [List.mem_cons, List.not_mem_nil, or_false] at h
  rcases h with rfl | rfl | rfl <;>
    exact ⟨by simp, by simp, by simp, rfl, by simp, 1, rfl, by decide, by decide⟩

end KrakenMetrics.Adds

private theorem ofNat_count_concat (outcomes : List ProcessOutcome) (a b : ProcessOutcome) :
    UInt64.ofNat ((outcomes ++ [b]).count a) =
      UInt64.ofNat (outcomes.count a) + if b = a then 1 else 0 := by
  rw [List.count_append, List.count_singleton, UInt64.ofNat_add]
  by_cases h : b = a <;> simp [h]

private theorem countP_concat (outcomes : List ProcessOutcome) (q : ProcessOutcome → Bool)
    (outcome : ProcessOutcome) :
    (outcomes ++ [outcome]).countP q = outcomes.countP q + (q outcome).toNat := by
  rw [List.countP_append, List.countP_singleton]
  cases q outcome <;> rfl

/-- One message more is counted by its outcome. -/
theorem KrakenMetrics.Counts.concat {metrics after : KrakenMetrics}
    {outcomes : List ProcessOutcome} {outcome : ProcessOutcome}
    (h : metrics.Counts outcomes outcome.ofBook.toNat) (ha : metrics.Adds outcome after) :
    after.Counts (outcomes ++ [outcome]) 0 := by
  obtain ⟨n, hn, hle, hge⟩ := h.validations
  obtain ⟨m, hm, hleast, hmost⟩ := ha.validations
  refine ⟨?_, ?_, ?_, ?_, ?_, n + m, ?_, ?_, ?_⟩
  · rw [ha.heartbeats, h.heartbeats, ofNat_count_concat]
  · rw [ha.subscriptionErrors, h.subscriptionErrors, ofNat_count_concat]
  · rw [ha.parseErrors, h.parseErrors, ofNat_count_concat]
  · rw [ha.books, h.books, countP_concat, Nat.add_zero]
  · rw [ha.failures, h.failures, ofNat_count_concat]
  · rw [hm, hn, UInt64.ofNat_add]
  · rw [countP_concat]
    omega
  · rw [countP_concat]
    omega

namespace KrakenBookProcessor

/-- The snapshots that were installed: all but the first one are recoveries, and without one the
book is not valid. -/
structure Seen (p : KrakenBookProcessor) (outcomes : List ProcessOutcome) : Prop where
  recovery : p.metrics.recoverySnapshots = UInt64.ofNat (outcomes.count .snapshot - 1)
  seen : p.hadSnapshot = true ↔ .snapshot ∈ outcomes
  valid : p.book.state = .valid → p.hadSnapshot = true

variable {crc : Bytes → UInt32} {p : KrakenBookProcessor} {outcomes : List ProcessOutcome}

/-- An outcome that leaves the book as it was or invalidates it. -/
theorem Seen.concat (h : p.Seen outcomes) {q : KrakenBookProcessor} {outcome : ProcessOutcome}
    (same : q.metrics.recoverySnapshots = p.metrics.recoverySnapshots ∧
      q.hadSnapshot = p.hadSnapshot ∧ (q.book.state = .valid → p.book.state = .valid))
    (ho : outcome ≠ .snapshot) : q.Seen (outcomes ++ [outcome]) := by
  obtain ⟨hm, hs, hb⟩ := same
  refine ⟨?_, ?_, ?_⟩
  · rw [hm, h.recovery, List.count_append, List.count_singleton]
    simp [ho]
  · rw [hs, h.seen]
    simp [Ne.symm ho]
  · rw [hs]
    exact fun valid ↦ h.valid (hb valid)

/-- What the counters of a processor say of the outcomes. -/
structure Tallies (p : KrakenBookProcessor) (outcomes : List ProcessOutcome) : Prop where
  counts : p.metrics.Counts outcomes 0
  seen : p.Seen outcomes

/-- A new processor has counted nothing. -/
theorem tallies_create {depth : Nat} (h : create depth = .ok p) : p.Tallies [] := by
  unfold create at h
  split at h
  · cases h
    refine ⟨⟨rfl, rfl, rfl, rfl, rfl, 0, rfl, Nat.le_refl 0, Nat.le_refl 0⟩, rfl, ?_, ?_⟩
    · exact ⟨fun no ↦ (by cases no), fun no ↦ (by cases no)⟩
    · intro no
      cases no
  · cases h

private theorem Tallies.mark (h : p.Tallies outcomes) {state : BookState} (hs : state ≠ .valid) :
    (p.mark state).Tallies outcomes :=
  ⟨h.counts, h.seen.recovery, h.seen.seen, fun no ↦ absurd no hs⟩

private theorem Tallies.resetConnection (h : p.Tallies outcomes) :
    p.resetConnection.Tallies outcomes :=
  ⟨{ h.counts with }, h.seen.recovery, h.seen.seen, fun no ↦ by cases no⟩

private theorem Tallies.advance (h : p.Tallies outcomes) (now : ReceiveMonotonicTimestamp) :
    (p.advance now).Tallies outcomes := by
  have elapsed (n : UInt64) : Tallies
      { p with metrics := elapse p.metrics p.book.state n, previousTime := some now } outcomes := by
    unfold elapse
    split <;> exact ⟨{ h.counts with }, { h.seen with }⟩
  unfold KrakenBookProcessor.advance
  dsimp only
  split
  · split
    · exact elapsed _
    · exact ⟨h.counts, { h.seen with }⟩
  · exact ⟨h.counts, { h.seen with }⟩

/-! ### Book messages -/

/-- The count at the start of `apply`. -/
theorem Tallies.countBook (h : p.Tallies outcomes) (type : KrakenBookMessageType) :
    (p.countBook type).metrics.Counts outcomes 1 ∧ (p.countBook type).Seen outcomes := by
  have books := h.counts.books
  rw [Nat.add_zero] at books
  cases type with
  | snapshot =>
    refine ⟨{ h.counts with books := ?_ }, { h.seen with }⟩
    change p.metrics.snapshots + 1 + p.metrics.updates = _
    rw [add_right_comm, books, UInt64.ofNat_add]
    rfl
  | update =>
    refine ⟨{ h.counts with books := ?_ }, { h.seen with }⟩
    change p.metrics.snapshots + (p.metrics.updates + 1) = _
    rw [← add_assoc, books, UInt64.ofNat_add]
    rfl

/-- The handler of `apply`. -/
theorem tallies_applyError (hc : p.metrics.Counts (outcomes ++ [ProcessOutcome.applyError]) 0)
    (hs : p.Seen outcomes) (failure : Failure) :
    (p.applyError failure).Tallies (outcomes ++ [ProcessOutcome.applyError]) := by
  refine ⟨hc, hs.concat ⟨rfl, rfl, ?_⟩ (by decide)⟩
  intro no
  cases no

/-- An installed book. -/
theorem seen_install (hs : p.Seen outcomes) {m : KrakenBookMessage}
    (hv : m.type = .snapshot ∨ p.book.state = .valid) (next : KrakenChecksumBook)
    (book : OrderBook) (crc : UInt32) :
    ∃ outcome, (p.install m next book crc).outcome = some outcome ∧
      (outcome = .snapshot ∨ outcome = .update) ∧
      (p.install m next book crc).Seen (outcomes ++ [outcome]) := by
  have recovery := hs.recovery
  have seen := hs.seen
  rw [← List.count_pos_iff] at seen
  cases type : m.type with
  | snapshot =>
    refine ⟨.snapshot, by simp [install, type], .inl rfl, ?_, ?_, fun _ ↦ rfl⟩
    · rw [List.count_append, List.count_singleton]
      cases had : p.hadSnapshot with
      | true =>
        obtain ⟨n, hn⟩ := Nat.exists_eq_succ_of_ne_zero (Nat.ne_of_gt (seen.mp had))
        rw [hn] at recovery ⊢
        simp [install, type, had, recovery]
      | false =>
        have none : outcomes.count .snapshot = 0 := by
          by_contra some
          rw [seen.mpr (Nat.pos_of_ne_zero some)] at had
          cases had
        rw [none] at recovery ⊢
        simp [install, type, had, recovery]
    · simp [install]
  | update =>
    have had : p.hadSnapshot = true := hs.valid (hv.resolve_left (by rw [type]; decide))
    refine ⟨.update, by simp [install, type], .inr rfl, ?_, ?_, fun _ ↦ rfl⟩
    · simp [install, type, recovery]
    · simp [install, hs.seen.mp had]

private theorem tallies_verify (hc : p.metrics.Counts outcomes 1) (hs : p.Seen outcomes)
    {m : KrakenBookMessage} (hv : m.type = .snapshot ∨ p.book.state = .valid)
    (next : KrakenChecksumBook) (sum : UInt32) :
    ∃ outcome, (p.verify m next sum).1.outcome = some outcome ∧
      (p.verify m next sum).1.Tallies (outcomes ++ [outcome]) := by
  unfold verify
  dsimp only
  split
  · refine ⟨.checksumMismatch, rfl, hc.concat ?_, hs.concat ⟨rfl, rfl, ?_⟩ (by decide)⟩
    · exact ⟨by simp [checksumMismatch], by simp [checksumMismatch], by simp [checksumMismatch],
        rfl, rfl, 1, rfl, by decide, by decide⟩
    · intro valid
      cases valid
  · split
    · refine ⟨.applyError, rfl, ?_⟩
      apply tallies_applyError
      · exact hc.concat (.matched _ (by simp))
      · exact { hs with }
    · next book candidate =>
      obtain ⟨outcome, houtcome, hkind, hseen⟩ := seen_install (p := { p with
        metrics := { p.metrics with
          checksumValidations := p.metrics.checksumValidations + 1 } }) { hs with } hv next book sum
      have hadds : p.metrics.Adds outcome { p.metrics with
          checksumValidations := p.metrics.checksumValidations + 1 } := .matched _ (by simp [hkind])
      have hbook : outcome.ofBook = true := by obtain rfl | rfl := hkind <;> rfl
      refine ⟨outcome, houtcome, KrakenMetrics.Counts.concat ?_ { hadds with }, hseen⟩
      rw [hbook]
      exact hc

variable (crc) in
private theorem Tallies.apply (h : p.Tallies outcomes) (m : KrakenBookMessage) :
    ∃ outcome, (p.apply crc m).1.outcome = some outcome ∧
      (p.apply crc m).1.Tallies (outcomes ++ [outcome]) := by
  obtain ⟨hc, hs⟩ := h.countBook m.type
  unfold KrakenBookProcessor.apply
  dsimp only
  split
  · exact ⟨.awaitingSnapshot, rfl, hc.concat (.uncounted _ (by simp)),
      hs.concat ⟨rfl, rfl, id⟩ (by decide)⟩
  · next awaited =>
    have unchecked := hc.concat (.uncounted _ (by simp : ProcessOutcome.applyError ∈ _))
    split
    · exact ⟨.applyError, rfl, tallies_applyError unchecked hs _⟩
    · split
      · exact ⟨.applyError, rfl, tallies_applyError unchecked hs _⟩
      · apply tallies_verify hc hs
        cases type : m.type with
        | snapshot => exact .inl rfl
        | update => simpa [type] using awaited

/-! ### Messages -/

private theorem Tallies.dispatch (h : p.Tallies outcomes) (mono : ReceiveMonotonicTimestamp)
    (result : ParseResult) :
    ∃ outcome, (p.dispatch crc mono result).1.outcome = some outcome ∧
      (p.dispatch crc mono result).1.Tallies (outcomes ++ [outcome]) := by
  obtain ⟨hc, hs⟩ := h
  cases result with
  | heartbeat =>
    have hadds : p.metrics.Adds .heartbeat
        { p.metrics with heartbeats := p.metrics.heartbeats + 1 } :=
      ⟨rfl, by simp, by simp, rfl, by simp, 0, by simp, by decide, by decide⟩
    exact ⟨.heartbeat, rfl, hc.concat hadds, hs.concat ⟨rfl, rfl, id⟩ (by decide)⟩
  | subscriptionSuccess =>
    exact ⟨.subscriptionSuccess, rfl, hc.concat (.uncounted _ (by simp)),
      hs.concat ⟨rfl, rfl, id⟩ (by decide)⟩
  | ignored =>
    exact ⟨.ignored, rfl, hc.concat (.uncounted _ (by simp)),
      hs.concat ⟨rfl, rfl, id⟩ (by decide)⟩
  | subscriptionFailure error =>
    have hadds : p.metrics.Adds .subscriptionFailure
        { p.metrics with subscriptionErrors := p.metrics.subscriptionErrors + 1 } :=
      ⟨by simp, rfl, by simp, rfl, by simp, 0, by simp, by decide, by decide⟩
    exact ⟨.subscriptionFailure, rfl, hc.concat hadds, hs.concat ⟨rfl, rfl, nofun⟩ (by decide)⟩
  | error error =>
    have hadds : p.metrics.Adds .parseError
        { p.metrics with parseErrors := p.metrics.parseErrors + 1 } :=
      ⟨by simp, by simp, rfl, rfl, by simp, 0, by simp, by decide, by decide⟩
    exact ⟨.parseError, rfl, hc.concat hadds, hs.concat ⟨rfl, rfl, nofun⟩ (by decide)⟩
  | book m => exact Tallies.apply crc ⟨hc, hs⟩ m

variable (crc) in
private theorem Tallies.process (h : p.Tallies outcomes) (raw : Bytes) (wall : ReceiveWallTimestamp)
    (mono : ReceiveMonotonicTimestamp) :
    ∃ outcome, (p.process crc raw wall mono).1.outcome = some outcome ∧
      (p.process crc raw wall mono).1.Tallies (outcomes ++ [outcome]) := by
  have received : (p.receive mono).Tallies outcomes :=
    ⟨{ (h.advance mono).counts with }, { (h.advance mono).seen with }⟩
  exact received.dispatch mono _

variable (crc) in
/-- Every book message has an outcome. -/
private theorem outcome_apply (p : KrakenBookProcessor) (m : KrakenBookMessage) :
    ∃ outcome, (p.apply crc m).1.outcome = some outcome := by
  unfold apply
  dsimp only
  split
  · exact ⟨_, rfl⟩
  · split
    · exact ⟨_, rfl⟩
    · split
      · exact ⟨_, rfl⟩
      · unfold verify
        dsimp only
        split
        · exact ⟨_, rfl⟩
        · split <;> exact ⟨_, rfl⟩

variable (crc) in
/-- Every message has an outcome. -/
theorem outcome_process (p : KrakenBookProcessor) (raw : Bytes) (wall : ReceiveWallTimestamp)
    (mono : ReceiveMonotonicTimestamp) :
    ∃ outcome, (p.process crc raw wall mono).1.outcome = some outcome := by
  unfold process dispatch
  dsimp only
  split
  · exact ⟨_, rfl⟩
  · exact ⟨_, rfl⟩
  · exact ⟨_, rfl⟩
  · exact ⟨_, rfl⟩
  · exact ⟨_, rfl⟩
  · exact outcome_apply ..

/-! ### Time -/

/-- The counters that `process`, `reset_connection` and `advance` touch at their start. -/
structure Clock where
  messages : UInt64
  reconnects : UInt64
  validTime : UInt64
  staleTime : UInt64
  invalidTime : UInt64
  previousTime : Option ReceiveMonotonicTimestamp

/-- The clock of a processor. -/
def clock (p : KrakenBookProcessor) : Clock :=
  ⟨p.metrics.messages, p.metrics.reconnects, p.metrics.validTime, p.metrics.staleTime,
    p.metrics.invalidTime, p.previousTime⟩

private theorem clock_countBook (p : KrakenBookProcessor) (type : KrakenBookMessageType) :
    (p.countBook type).clock = p.clock := by
  cases type <;> rfl

private theorem clock_verify (p : KrakenBookProcessor) (m : KrakenBookMessage)
    (next : KrakenChecksumBook) (sum : UInt32) : (p.verify m next sum).1.clock = p.clock := by
  unfold verify
  dsimp only
  split
  · rfl
  · split <;> rfl

/-- A book message leaves the clock alone. -/
theorem clock_apply (p : KrakenBookProcessor) (m : KrakenBookMessage) :
    (p.apply crc m).1.clock = p.clock := by
  rw [← clock_countBook p m.type]
  unfold apply
  dsimp only
  split
  · rfl
  · split
    · rfl
    · split
      · rfl
      · exact clock_verify ..

private theorem clock_dispatch (p : KrakenBookProcessor) (mono : ReceiveMonotonicTimestamp)
    (result : ParseResult) : (p.dispatch crc mono result).1.clock = p.clock := by
  cases result with
  | heartbeat | subscriptionSuccess | ignored | subscriptionFailure | error => rfl
  | book m => exact clock_apply p m

namespace Clock

/-- The three times together, as the counters add them. -/
def time (c : Clock) : UInt64 := c.validTime + c.staleTime + c.invalidTime

/-- The three times together, as numbers. -/
def totalTime (c : Clock) : Nat := c.validTime.toNat + c.staleTime.toNat + c.invalidTime.toNat

/-- What a call does to the clock. Counters wrap around, so that their sum as numbers may fall
behind. -/
structure Ticks (before : Clock) (messages reconnects passed : Nat)
    (previousTime : Option ReceiveMonotonicTimestamp) (after : Clock) : Prop where
  messages : after.messages = before.messages + UInt64.ofNat messages
  reconnects : after.reconnects = before.reconnects + UInt64.ofNat reconnects
  time : after.time = before.time + UInt64.ofNat passed
  total : after.totalTime ≤ before.totalTime + passed
  previousTime : after.previousTime = previousTime

private theorem ticks_none (c : Clock) : c.Ticks 0 0 0 c.previousTime c :=
  ⟨by simp, by simp, by simp, Nat.le_refl _, rfl⟩

end Clock

/-- Between readings of a clock that does not go back, what is added is the time that has
passed. -/
theorem elapsed_eq {previous now : ReceiveMonotonicTimestamp}
    (h : previous.nanoseconds ≤ now.nanoseconds) :
    elapsed previous now = UInt64.ofNat (now.nanoseconds - previous.nanoseconds).toNat := by
  obtain ⟨n, hn⟩ := Int.eq_ofNat_of_zero_le (Int.sub_nonneg.mpr h)
  rw [elapsed, ← Int64.ofInt_sub, hn]
  rfl

/-- The time since the previous reading, none if there is no such reading or the clock went
back. -/
def passed (previous : Option ReceiveMonotonicTimestamp) (now : ReceiveMonotonicTimestamp) : Nat :=
  (previous.map fun previous ↦ (now.nanoseconds - previous.nanoseconds).toNat).getD 0

private theorem toNat_add_ofNat_le (a : UInt64) (n : Nat) :
    (a + UInt64.ofNat n).toNat ≤ a.toNat + n := by
  rw [UInt64.toNat_add, UInt64.toNat_ofNat']
  have := Nat.mod_le (a.toNat + n % 2 ^ 64) (2 ^ 64)
  have := Nat.mod_le n (2 ^ 64)
  omega

/-- The counter of one state grows. -/
private theorem ticks_elapse (p : KrakenBookProcessor) (n : Nat)
    (now : Option ReceiveMonotonicTimestamp) :
    p.clock.Ticks 0 0 n now
      ({ p with
        metrics := elapse p.metrics p.book.state (UInt64.ofNat n)
        previousTime := now }).clock := by
  have valid := toNat_add_ofNat_le p.metrics.validTime n
  have stale := toNat_add_ofNat_le p.metrics.staleTime n
  have invalid := toNat_add_ofNat_le p.metrics.invalidTime n
  unfold elapse
  split
  all_goals
    refine ⟨by simp [clock], by simp [clock], ?_, ?_, rfl⟩
    · simp only [Clock.time, clock]
      ac_rfl
    · simp only [Clock.totalTime, clock]
      omega

/-- `advance` counts the time since the previous reading. -/
theorem ticks_advance (p : KrakenBookProcessor) (now : ReceiveMonotonicTimestamp) :
    p.clock.Ticks 0 0 (passed p.previousTime now) (some now) (p.advance now).clock := by
  have still : p.clock.Ticks 0 0 0 (some now) { p with previousTime := some now }.clock :=
    { p.clock.ticks_none with previousTime := rfl }
  unfold advance passed
  cases hprevious : p.previousTime with
  | none => exact still
  | some previous =>
    dsimp only
    split
    · next forth =>
      rw [elapsed_eq forth]
      exact ticks_elapse p _ (some now)
    · next back =>
      have zero : (now.nanoseconds - previous.nanoseconds).toNat = 0 := by omega
      rw [Option.map_some, Option.getD_some, zero]
      exact still

/-- The time from each reading of the clock to the next, which is lost if the clock goes back. -/
def forward : List ReceiveMonotonicTimestamp → Nat
  | a :: b :: rest => (b.nanoseconds - a.nanoseconds).toNat + forward (b :: rest)
  | _ => 0

/-- One reading more. -/
theorem forward_concat (times : List ReceiveMonotonicTimestamp) (now : ReceiveMonotonicTimestamp) :
    forward (times ++ [now]) = forward times + passed times.getLast? now := by
  induction times with
  | nil => rfl
  | cons a times ih =>
    cases times with
    | nil => simp [forward, passed]
    | cons b rest =>
      rw [List.cons_append, List.cons_append, forward, ← List.cons_append, ih, forward,
        List.getLast?_cons_cons, Nat.add_assoc]

/-- Along a clock that does not go back nothing is lost. -/
theorem forward_ordered {first : ReceiveMonotonicTimestamp} {times : List ReceiveMonotonicTimestamp}
    (h : (first :: times).Pairwise fun a b ↦ a.nanoseconds ≤ b.nanoseconds) :
    (forward (first :: times) : Int) =
      ((first :: times).getLast (by simp)).nanoseconds - first.nanoseconds := by
  induction times generalizing first with
  | nil => simp [forward]
  | cons next times ih =>
    obtain ⟨hfirst, hrest⟩ := List.pairwise_cons.mp h
    have hnext := hfirst next List.mem_cons_self
    rw [forward, List.getLast_cons_cons]
    have := ih hrest
    omega

/-! ### Runs -/

end KrakenBookProcessor

/-- The reading of the clock that a call brings. -/
def Call.time : Call → Option ReceiveMonotonicTimestamp
  | process _ _ mono => some mono
  | advance now => some now
  | apply _ | resetConnection | stale | invalidate | disconnect => none

/-- The call is `process`. -/
def Call.isProcess : Call → Bool
  | process .. => true
  | _ => false

/-- The call is `process` or `apply`. -/
def Call.hasOutcome : Call → Bool
  | process .. | apply _ => true
  | _ => false

namespace KrakenBookProcessor

variable (crc : Bytes → UInt32)

/-- The outcomes along a run. -/
def outcomes (p : KrakenBookProcessor) : List Call → List ProcessOutcome
  | [] => []
  | c :: calls =>
    let after := (p.call crc c).1
    (if c.hasOutcome then after.outcome.toList else []) ++ outcomes after calls

/-- The outcomes along two runs, one behind the other. -/
theorem outcomes_append (p : KrakenBookProcessor) (calls rest : List Call) :
    p.outcomes crc (calls ++ rest) = p.outcomes crc calls ++
      (p.run crc calls).outcomes crc rest := by
  induction calls generalizing p with
  | nil => rfl
  | cons c calls ih =>
    rw [List.cons_append, outcomes, outcomes, ih, List.append_assoc]
    rfl

/-- Every `process` and every `apply` has an outcome. -/
theorem length_outcomes (p : KrakenBookProcessor) (calls : List Call) :
    (p.outcomes crc calls).length = calls.countP Call.hasOutcome := by
  induction calls generalizing p with
  | nil => rfl
  | cons c calls ih =>
    rw [outcomes, List.length_append, ih, List.countP_cons, Nat.add_comm]
    cases c with
    | process raw wall mono =>
      obtain ⟨outcome, houtcome⟩ := outcome_process crc p raw wall mono
      simp [call, Call.hasOutcome, houtcome]
    | apply m =>
      obtain ⟨outcome, houtcome⟩ := outcome_apply crc p m
      simp [call, Call.hasOutcome, houtcome]
    | resetConnection | stale | invalidate | disconnect | advance => rfl

/-- What a call does to the clock. -/
theorem ticks_call (p : KrakenBookProcessor) (c : Call) :
    p.clock.Ticks c.isProcess.toNat (if c = .resetConnection then 1 else 0)
      ((c.time.map (passed p.previousTime)).getD 0) (c.time.or p.previousTime)
      (p.call crc c).1.clock := by
  cases c with
  | process raw wall mono =>
    have hclock : (p.call crc (.process raw wall mono)).1.clock =
        { (p.advance mono).clock with messages := (p.advance mono).clock.messages + 1 } :=
      clock_dispatch (p.receive mono) mono _
    have hadvance := ticks_advance p mono
    rw [hclock]
    refine { hadvance with messages := ?_ }
    change (p.advance mono).clock.messages + 1 = _
    rw [hadvance.messages]
    simp [Call.isProcess]
  | apply m =>
    have hclock : (p.call crc (.apply m)).1.clock = p.clock := clock_apply p m
    rw [hclock]
    exact p.clock.ticks_none
  | resetConnection => exact { p.clock.ticks_none with reconnects := rfl }
  | stale | invalidate | disconnect => exact p.clock.ticks_none
  | advance now => exact ticks_advance p now

variable {p : KrakenBookProcessor} {log : List ProcessOutcome}

/-- The outcome of a call is counted. -/
theorem Tallies.call (h : p.Tallies log) (c : Call) :
    (p.call crc c).1.Tallies
      (log ++ if c.hasOutcome then (p.call crc c).1.outcome.toList else []) := by
  cases c with
  | process raw wall mono =>
    obtain ⟨outcome, houtcome, tallies⟩ := h.process crc raw wall mono
    have hnew : (p.call crc (.process raw wall mono)).1.outcome.toList = [outcome] :=
      congrArg Option.toList houtcome
    rw [hnew]
    exact tallies
  | apply m =>
    obtain ⟨outcome, houtcome, tallies⟩ := h.apply crc m
    have hnew : (p.call crc (.apply m)).1.outcome.toList = [outcome] :=
      congrArg Option.toList houtcome
    rw [hnew]
    exact tallies
  | resetConnection => exact (List.append_nil log).symm ▸ h.resetConnection
  | stale => exact (List.append_nil log).symm ▸ h.mark (by decide)
  | invalidate => exact (List.append_nil log).symm ▸ h.mark (by decide)
  | disconnect => exact (List.append_nil log).symm ▸ h.mark (by decide)
  | advance now => exact (List.append_nil log).symm ▸ h.advance now

/-- The clock goes with the calls made so far, its counters modulo `2 ^ 64`. -/
structure Clock.Shows (c : Clock) (calls : List Call) : Prop where
  messages : c.messages = UInt64.ofNat (calls.countP Call.isProcess)
  reconnects : c.reconnects = UInt64.ofNat (calls.count .resetConnection)
  time : c.time = UInt64.ofNat (forward (calls.filterMap Call.time))
  total : c.totalTime ≤ forward (calls.filterMap Call.time)
  previousTime : c.previousTime = (calls.filterMap Call.time).getLast?

private theorem forward_call (calls : List Call) (c : Call) :
    forward ((calls ++ [c]).filterMap Call.time) = forward (calls.filterMap Call.time) +
      (c.time.map (passed (calls.filterMap Call.time).getLast?)).getD 0 := by
  rw [List.filterMap_append]
  cases now : c.time with
  | none => simp [now]
  | some now' =>
    rw [List.filterMap_cons_some now, List.filterMap_nil, forward_concat]
    rfl

private theorem Clock.Shows.ticks {before after : Clock} {calls : List Call} {c : Call}
    (h : before.Shows calls)
    (ht : before.Ticks c.isProcess.toNat (if c = .resetConnection then 1 else 0)
      ((c.time.map (passed before.previousTime)).getD 0) (c.time.or before.previousTime) after) :
    after.Shows (calls ++ [c]) := by
  rw [h.previousTime] at ht
  refine ⟨?_, ?_, ?_, ?_, ?_⟩
  · rw [ht.messages, h.messages, List.countP_append, List.countP_singleton, UInt64.ofNat_add]
    cases c.isProcess <;> rfl
  · rw [ht.reconnects, h.reconnects, List.count_append, List.count_singleton, UInt64.ofNat_add]
    simp
  · rw [ht.time, h.time, forward_call, UInt64.ofNat_add]
  · rw [forward_call]
    exact ht.total.trans (Nat.add_le_add_right h.total _)
  · rw [ht.previousTime, List.filterMap_append]
    cases now : c.time with
    | none => simp [now]
    | some now' => simp [now]

/-- The clock of a new processor. -/
theorem clock_create {depth : Nat} (h : create depth = .ok p) : p.clock.Shows [] := by
  unfold create at h
  split at h
  · cases h
    exact ⟨rfl, rfl, rfl, Nat.le_refl 0, rfl⟩
  · cases h

/-- The clock along a run. -/
theorem run_clock (hp : p.clock.Shows []) (calls : List Call) :
    (p.run crc calls).clock.Shows calls := by
  induction calls using List.reverseRecOn with
  | nil => exact hp
  | append_singleton calls c ih =>
    rw [run_concat]
    exact ih.ticks (ticks_call crc _ c)

/-- The counters along a run. -/
theorem run_tallies (hp : p.Tallies []) (calls : List Call) :
    (p.run crc calls).Tallies (p.outcomes crc calls) := by
  induction calls using List.reverseRecOn with
  | nil => exact hp
  | append_singleton calls c ih =>
    rw [run_concat, outcomes_append, outcomes, outcomes, List.append_nil]
    exact ih.call crc c

/-- Times that do not exceed what has passed, and are equal to it modulo `2 ^ 64`, are equal to it
if that is less than `2 ^ 64`. -/
private theorem Clock.Shows.totalTime_eq {c : Clock} {calls : List Call} (h : c.Shows calls)
    (hsmall : forward (calls.filterMap Call.time) < 2 ^ 64) :
    c.totalTime = forward (calls.filterMap Call.time) := by
  have htime := congrArg UInt64.toNat h.time
  rw [UInt64.toNat_ofNat', Nat.mod_eq_of_lt hsmall, Clock.time, UInt64.toNat_add,
    UInt64.toNat_add, Nat.mod_add_mod] at htime
  have htotal := h.total
  rw [Clock.totalTime] at htotal ⊢
  rwa [Nat.mod_eq_of_lt (htotal.trans_lt hsmall)] at htime

/-- The metrics of a processor tell what it was called with and what came of it: every message is
counted by its outcome, modulo `2 ^ 64`, and as long as the clock does not go back and the time
between its first and its last reading is an `std::int64_t` the three states share out the whole of
this time. -/
theorem metrics_account {depth : Nat} (h : create depth = .ok p) (calls : List Call) :
    (p.run crc calls).clock.Shows calls ∧
    (p.run crc calls).Tallies (p.outcomes crc calls) ∧
    ∀ first times, calls.filterMap Call.time = first :: times →
      (first :: times).Pairwise (fun a b ↦ a.nanoseconds ≤ b.nanoseconds) →
      ((first :: times).getLast (by simp)).nanoseconds - first.nanoseconds < 2 ^ 63 →
      ((p.run crc calls).clock.totalTime : Int) =
        ((first :: times).getLast (by simp)).nanoseconds - first.nanoseconds := by
  have hclock := run_clock crc (clock_create h) calls
  refine ⟨hclock, run_tallies crc (tallies_create h) calls, ?_⟩
  intro first times htimes ordered short
  have hforward := forward_ordered ordered
  have hsmall : forward (calls.filterMap Call.time) < 2 ^ 64 := by
    rw [htimes]
    omega
  rw [hclock.totalTime_eq hsmall, htimes, hforward]

/-- A snapshot, and nine nanoseconds and a new connection later a text that is no message. -/
def twoMessages : List Call :=
  [.process oneLevelEach ⟨0⟩ ⟨3⟩, .advance ⟨7⟩, .resetConnection, .process (ascii "x") ⟨0⟩ ⟨12⟩]

/-- Both messages are counted; four nanoseconds were valid and five were not. -/
theorem metrics_account_two :
    ∃ p₀, create 10 = .ok p₀ ∧
      p₀.outcomes Crc.crc32 twoMessages = [.snapshot, .parseError] ∧
      let p := p₀.run Crc.crc32 twoMessages
      p.Tallies (p₀.outcomes Crc.crc32 twoMessages) ∧ p.clock.messages = 2 ∧
        p.clock.validTime = 4 ∧ p.clock.invalidTime = 5 ∧ (p.clock.totalTime : Int) = 9 := by
  have account := metrics_account Crc.crc32 (by rfl : create 10 = .ok _) twoMessages
  refine ⟨_, rfl, by decide +kernel, account.2.1, ?_, by decide +kernel, by decide +kernel, ?_⟩
  · exact account.1.messages
  · exact account.2.2 ⟨3⟩ [⟨7⟩, ⟨12⟩] rfl (by decide) (by decide)

end KrakenBookProcessor

end ArbitrageEngine.Kraken
