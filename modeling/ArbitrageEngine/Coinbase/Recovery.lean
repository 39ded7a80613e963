import ArbitrageEngine.Coinbase.Coherence

/-!
# Recovery over whole runs

Outdated callbacks do nothing, a running manager always has exactly one token that acts, the
sink sees one gapless series of envelopes, and a terminal failure is final.
-/

namespace ArbitrageEngine.Coinbase

open Base ArbitrageEngine.Core Recording

namespace Session

/-! ### Generations only grow -/

private theorem Step.generation_le {reasons : Bytes → Prop} {s s' : Session}
    {handed : Option RawMessage} (h : Step reasons s handed s') :
    s.generation ≤ s'.generation := by
  cases h with
  | idle => exact Nat.le_refl _
  | refreshed => exact Nat.le_refl _
  | start => exact Nat.le_succ _
  | resume => exact Nat.le_succ _
  | connected => exact Nat.le_refl _
  | recover => exact Nat.le_succ _
  | stop => exact Nat.le_succ _
  | terminate => exact generation_le_terminated s
  | delivered => exact Nat.le_refl _
  | failed => exact Nat.le_succ _
  | thrown => exact Nat.le_succ _
  | rejected => exact generation_le_terminated (Session.rejected s _ _ _)

/-! ### A terminal session stays terminal -/

private theorem Step.of_terminal {reasons : Bytes → Prop} {s s' : Session}
    {handed : Option RawMessage} (h : Step reasons s handed s')
    (hc : s.Coherent) (ht : s.terminal = true) :
    s'.terminal = true ∧ s'.connects = s.connects := by
  have hs := hc.terminal_stopping ht
  cases h with
  | idle => exact ⟨ht, rfl⟩
  | refreshed => exact ⟨ht, by simpa using (extends_refreshed s).connects_eq⟩
  | start stopping alive => simp [ht] at alive
  | terminate => exact ⟨terminated_terminal s, by simpa using (extends_terminated s).connects_eq⟩
  | resume _ running | connected running | recover _ _ _ running | stop running
  | delivered _ _ _ _ _ _ _ running | failed _ _ _ _ _ _ _ _ running
  | thrown _ _ _ _ _ _ _ _ running
  | rejected _ _ _ _ _ running => simp [hs] at running

/-! ### Envelopes given to the sink -/

/-- The envelopes are numbered without gaps, and a connection id belongs to one attempt. -/
structure Deliveries (s : Session) : Prop where
  indexes : s.pushes.map (·.2.recordIndex) = List.range s.handler.nextIndex
  ids_le : ∀ p ∈ s.pushes, p.2.connectionId ≤ s.connectionId
  current : s.connected = true →
    ∀ p ∈ s.pushes, p.2.connectionId = s.connectionId → p.1 = s.generation
  ordered : s.pushes.Pairwise fun a b ↦ a.2.connectionId ≤ b.2.connectionId ∧
    (a.2.connectionId = b.2.connectionId → a.1 = b.1)
  known : ∀ p ∈ s.pushes, p.1 ∈ s.connects

/-- A step without a message on a connection that already delivered. -/
theorem Deliveries.of_same {s s' : Session} {connects resumes : List Nat} (h : s.Deliveries)
    (he : Extends s s' connects resumes [])
    (hn : s'.handler.nextIndex = s.handler.nextIndex) (hi : s'.connectionId = s.connectionId)
    (hc : s'.connected = true → s.connected = true ∧ s'.generation = s.generation) :
    s'.Deliveries := by
  have hp : s'.pushes = s.pushes := by simpa using he.pushes_eq
  refine ⟨?_, ?_, ?_, ?_, ?_⟩
  · rw [hp, hn]
    exact h.indexes
  · rw [hp, hi]
    exact h.ids_le
  · intro hcon
    rw [hp, hi, (hc hcon).2]
    exact h.current (hc hcon).1
  · rw [hp]
    exact h.ordered
  · rw [hp, he.connects_eq]
    exact fun p hm ↦ List.mem_append_left _ (h.known p hm)

private theorem deliveries_established {s : Session} (h : s.Deliveries) :
    s.established.Deliveries := by
  have he := extends_established s
  have hp : s.established.pushes = s.pushes := by simpa using he.pushes_eq
  have hi : s.established.connectionId = s.connectionId + 1 := rfl
  refine ⟨?_, ?_, ?_, ?_, ?_⟩
  · rw [hp]
    exact h.indexes
  · rw [hp]
    exact fun p hm ↦ Nat.le_succ_of_le (h.ids_le p hm)
  · intro _ p hm heq
    rw [hp] at hm
    have hle := h.ids_le p hm
    omega
  · rw [hp]
    exact h.ordered
  · rw [hp, he.connects_eq]
    exact fun p hm ↦ List.mem_append_left _ (h.known p hm)

/-- A message of the current connection, accepted or not. -/
theorem Deliveries.push {s s' : Session} {envelope : RawMessage} (h : s.Deliveries)
    (he : Extends s s' [] [] [(s.generation, envelope)])
    (hx : envelope.recordIndex = s.handler.nextIndex) (hid : envelope.connectionId = s.connectionId)
    (hn : s'.handler.nextIndex = s.handler.nextIndex + 1) (hi : s'.connectionId = s.connectionId)
    (hg : s'.generation = s.generation) (hc : s.connected = true)
    (token : .connect s.generation ∈ s.trace) : s'.Deliveries := by
  have hcs : s'.connects = s.connects := by simpa using he.connects_eq
  refine ⟨?_, ?_, ?_, ?_, ?_⟩
  · rw [he.pushes_eq, hn, List.range_succ, List.map_append, h.indexes]
    simp [hx]
  · intro p hm
    rw [he.pushes_eq, List.mem_append, List.mem_singleton] at hm
    rw [hi]
    rcases hm with hm | rfl
    · exact h.ids_le p hm
    · exact Nat.le_of_eq hid
  · intro _ p hm heq
    rw [he.pushes_eq, List.mem_append, List.mem_singleton] at hm
    rw [hg]
    rcases hm with hm | rfl
    · exact h.current hc p hm (heq.trans hi)
    · rfl
  · rw [he.pushes_eq, List.pairwise_append]
    refine ⟨h.ordered, List.pairwise_singleton _ _, ?_⟩
    intro a ha b hb
    rw [List.mem_singleton] at hb
    subst hb
    refine ⟨?_, ?_⟩
    · change a.2.connectionId ≤ envelope.connectionId
      rw [hid]
      exact h.ids_le a ha
    · intro heq
      exact h.current hc a ha (heq.trans hid)
  · intro p hm
    rw [he.pushes_eq, List.mem_append, List.mem_singleton] at hm
    rw [hcs]
    rcases hm with hm | rfl
    · exact h.known p hm
    · exact mem_connects.mpr token

private theorem deliveries_terminated {s : Session} (h : s.Deliveries)
    (hc : s.stopping = true → s.connected = false) : s.terminated.Deliveries := by
  refine h.of_same (extends_terminated s) ?_ ?_ ?_
  · unfold terminated
    split <;> rfl
  · unfold terminated
    split <;> rfl
  · unfold terminated
    split
    · next hs =>
      intro hcon
      rw [show s.connected = true from hcon] at hc
      exact absurd (hc hs) (by decide)
    · intro hcon
      simp [invalidated, stopped] at hcon

/-- One step keeps the numbering of the envelopes. -/
theorem Step.deliveries {reasons : Bytes → Prop} {s s' : Session}
    {handed : Option RawMessage} (h : Step reasons s handed s')
    (hc : s.Coherent) (hd : s.Deliveries) : s'.Deliveries := by
  have hoff (x : Prop) : false = true → x := fun h ↦ absurd h (by decide)
  cases h with
  | idle => exact hd
  | refreshed => exact hd.of_same (extends_refreshed s) rfl rfl fun h ↦ ⟨h, rfl⟩
  | start stopping alive =>
    have hs : Deliveries { s with stopping := false } := ⟨hd.1, hd.2, hd.3, hd.4, hd.5⟩
    exact hs.of_same (extends_begun _) rfl rfl (hoff _)
  | resume delay running token => exact hd.of_same (extends_begun s) rfl rfl (hoff _)
  | connected running fresh token => exact deliveries_established hd
  | recover reason state delay running idle state_eq given =>
    exact hd.of_same (extends_recovering s _ _ _) rfl rfl (hoff _)
  | stop running => exact hd.of_same (extends_stopped s) rfl rfl (hoff _)
  | terminate => exact deliveries_terminated hd hc.not_connected
  | delivered raw wall mono health now feed result running connected token processed clean =>
    exact hd.push (extends_accepted s _ _ _ _) rfl rfl rfl rfl rfl connected token
  | failed raw wall mono health now feed result delay running connected token
      processed error idle =>
    have ha := hd.push (extends_accepted s (s.envelope raw wall mono) feed.book
      feed.sequence result)
      rfl rfl rfl rfl rfl connected token
    exact ha.of_same (extends_recovering _ _ _ _) rfl rfl (hoff _)
  | thrown raw wall mono health now feed failure delay running connected token processed idle =>
    have ha := hd.push (extends_accepted s (s.envelope raw wall mono) (feed.book.mark .invalid)
      feed.sequence { outcome := .applyError, error := failure.what }) rfl rfl rfl rfl rfl connected
      token
    exact ha.of_same (extends_recovering _ _ _ _) rfl rfl (hoff _)
  | rejected raw wall mono response error running connected token refused =>
    have ha := hd.push (extends_rejected s (s.envelope raw wall mono) response
      { outcome := .recordingRejected, error }) rfl rfl rfl rfl rfl connected token
    exact deliveries_terminated ha hc.not_connected

end Session

/-! ### Runs of the manager -/

namespace CoinbaseConnectionManager

/-- The scheduled resumes that would act now. -/
def pendingResumes (m : CoinbaseConnectionManager) : List Nat := m.resumes.filter (m.live ·)

/-- The connection attempts whose callbacks would act now. -/
def currentAttempts (m : CoinbaseConnectionManager) : List Nat := m.connects.filter (m.live ·)

variable {clock : Nat → ReceiveMonotonicTimestamp} {config : FeedHealthConfig}
  {initial : CoinbaseConnectionManager}

private theorem run_deliveries (hm : create clock config = .ok initial) (actions : List Action) :
    (initial.run clock actions).Deliveries := by
  refine run_invariant hm ?_ (fun _ _ _ _ hc hs hi ↦ hs.deliveries hc hi) actions
  rw [create_toSession hm]
  refine ⟨rfl, ?_, ?_, List.Pairwise.nil, ?_⟩
  · intro p hp
    cases hp
  · intro _ p hp
    cases hp
  · intro p hp
    cases hp

/-- Generations never go back. -/
theorem generation_le_run (hm : create clock config = .ok initial) (pre post : List Action) :
    (initial.run clock pre).generation ≤ (initial.run clock (pre ++ post)).generation :=
  run_invariant_from (I := fun s ↦ (initial.run clock pre).generation ≤ s.generation) hm
    (fun _ _ _ _ _ hs hi ↦ Nat.le_trans hi hs.generation_le) pre (Nat.le_refl _) post

/-- Callbacks of a generation that is not the current one do nothing. -/
theorem step_outdated (clock : Nat → ReceiveMonotonicTimestamp) (m : CoinbaseConnectionManager)
    (generation : Nat) (h : generation ≠ m.generation) :
    (∀ raw wall mono response now,
        m.step clock (.message generation raw wall mono response now) = m) ∧
      (∀ reason, m.step clock (.error generation reason) = m) ∧
      m.step clock (.connected generation) = m ∧ m.step clock (.resume generation) = m := by
  have hl : m.live generation = false := by simp [live, h]
  refine ⟨?_, ?_, ?_, ?_⟩
  · intro raw wall mono response now
    simp [step, onMessage, hl]
  · intro reason
    simp [step, onError, hl]
  · simp [step, onConnected, hl]
  · simp [step, onResume, hl]

private theorem filter_live (m : CoinbaseConnectionManager) (hr : m.stopping = false)
    (tokens : List Nat) :
    (tokens.filter (m.live ·)).length = tokens.count m.generation := by
  rw [List.count_eq_length_filter]
  congr 1
  apply List.filter_congr
  intro g _
  simp [live, hr, beq_eq_decide]

private theorem filter_live_eq_nil (m : CoinbaseConnectionManager) {tokens : List Nat}
    (h : m.generation ∉ tokens) : tokens.filter (m.live ·) = [] := by
  rw [List.filter_eq_nil_iff]
  intro g hg hl
  obtain ⟨-, rfl⟩ := (live_iff m g).mp hl
  exact h hg

/-- A resume that acts starts the next connection attempt. -/
theorem step_resume (clock : Nat → ReceiveMonotonicTimestamp) (m : CoinbaseConnectionManager)
    (generation : Nat) (hm : generation ∈ m.resumes) (hl : m.live generation = true) :
    (m.step clock (.resume generation)).connects = m.connects ++ [m.generation + 1] ∧
      (m.step clock (.resume generation)).generation = m.generation + 1 := by
  have hs : m.scheduled generation = true :=
    (scheduled_iff m generation).mpr (Session.mem_resumes.mp hm)
  have hb := beginConnection_toSession clock m ((live_iff m generation).mp hl).1
  have hstep : m.step clock (.resume generation) = m.beginConnection clock := by
    simp [step, onResume, hs, hl]
  rw [hstep, hb]
  exact ⟨(Session.extends_begun m.toSession).connects_eq, rfl⟩

/-- While the manager runs, exactly one token acts. -/
theorem one_live_token (hm : create clock config = .ok initial) (actions : List Action)
    (hr : (initial.run clock actions).stopping = false) :
    ((initial.run clock actions).recoveryPending = true ∧
        (initial.run clock actions).pendingResumes.length = 1 ∧
        (initial.run clock actions).currentAttempts = []) ∨
      ((initial.run clock actions).recoveryPending = false ∧
        (initial.run clock actions).currentAttempts.length = 1 ∧
        (initial.run clock actions).pendingResumes = []) := by
  have ht := (run_tokens_coherent hm actions).1
  by_cases hp : (initial.run clock actions).recoveryPending = true
  · obtain ⟨hcount, hnot⟩ := ht.pending hr hp
    exact Or.inl ⟨hp, (filter_live _ hr _).trans hcount, filter_live_eq_nil _ hnot⟩
  · have hp : (initial.run clock actions).recoveryPending = false := by simpa using hp
    obtain ⟨hcount, hnot⟩ := ht.attempting hr hp
    exact Or.inr ⟨hp, (filter_live _ hr _).trans hcount, filter_live_eq_nil _ hnot⟩

/-- A resume that acted does nothing ever after. -/
theorem resume_acts_once (hm : create clock config = .ok initial) (pre post : List Action)
    (generation : Nat)
    (hact : (initial.run clock pre).step clock (.resume generation) ≠ initial.run clock pre) :
    (initial.run clock (pre ++ [Action.resume generation] ++ post)).step clock
        (.resume generation) =
      initial.run clock (pre ++ [Action.resume generation] ++ post) := by
  have hscheduled : (initial.run clock pre).scheduled generation = true := by
    by_contra hn
    exact hact (by simp [step, hn])
  have hlive : (initial.run clock pre).live generation = true := by
    by_contra hn
    exact hact (by simp [step, onResume, hn])
  have hgen := (step_resume clock _ generation
    (Session.mem_resumes.mpr ((scheduled_iff _ _).mp hscheduled)) hlive).2
  have hle := generation_le_run hm (pre ++ [Action.resume generation]) post
  rw [run_append _ pre] at hle
  change ((initial.run clock pre).step clock (.resume generation)).generation ≤ _ at hle
  have heq := ((live_iff _ _).mp hlive).2
  exact (step_outdated clock _ generation (by omega)).2.2.2

/-- After a terminal failure no connection is attempted and the book is never valid. -/
theorem terminal_final (hm : create clock config = .ok initial) (pre post : List Action)
    (ht : (initial.run clock pre).terminal = true) :
    (initial.run clock (pre ++ post)).connects = (initial.run clock pre).connects ∧
      (initial.run clock (pre ++ post)).book.state ≠ .valid := by
  have hall : (initial.run clock (pre ++ post)).terminal = true ∧
      (initial.run clock (pre ++ post)).connects = (initial.run clock pre).connects := by
    refine run_invariant_from
      (I := fun s ↦ s.terminal = true ∧ s.connects = (initial.run clock pre).connects) hm ?_ pre
      ⟨ht, rfl⟩ post
    rintro s handed s' - hc hs ⟨hterm, hcon⟩
    obtain ⟨hterm', hcon'⟩ := hs.of_terminal hc hterm
    exact ⟨hterm', hcon'.trans hcon⟩
  refine ⟨hall.2, ?_⟩
  intro hv
  have hc := (run_tokens_coherent hm (pre ++ post)).2
  have hcon := hc.valid_connected hv
  rw [hc.not_connected (hc.terminal_stopping hall.1)] at hcon
  cases hcon

/-- Recovery over every interleaving: outdated callbacks are inert, one token acts while the
manager runs, envelopes are numbered and tied to one attempt, a terminal failure is final. -/
theorem run_recovery_safe (clock : Nat → ReceiveMonotonicTimestamp) (config : FeedHealthConfig)
    (initial : CoinbaseConnectionManager) (hm : create clock config = .ok initial) :
    (∀ pre post generation,
      generation ∈ (initial.run clock pre).connects ∨ generation ∈ (initial.run clock pre).resumes →
      (initial.run clock pre).generation ≠ (initial.run clock (pre ++ post)).generation →
      let m := initial.run clock (pre ++ post)
      (∀ raw wall mono response now,
          m.step clock (.message generation raw wall mono response now) = m) ∧
        (∀ reason, m.step clock (.error generation reason) = m) ∧
        m.step clock (.connected generation) = m ∧ m.step clock (.resume generation) = m) ∧
    (∀ actions,
      let m := initial.run clock actions
      m.stopping = false →
        (m.recoveryPending = true ∧ m.pendingResumes.length = 1 ∧ m.currentAttempts = []) ∨
        (m.recoveryPending = false ∧ m.currentAttempts.length = 1 ∧ m.pendingResumes = [])) ∧
    (∀ actions generation,
      let m := initial.run clock actions
      generation ∈ m.pendingResumes →
        (m.step clock (.resume generation)).connects = m.connects ++ [m.generation + 1]) ∧
    (∀ pre post generation,
      (initial.run clock pre).step clock (.resume generation) ≠ initial.run clock pre →
      let m := initial.run clock (pre ++ [.resume generation] ++ post)
      m.step clock (.resume generation) = m) ∧
    (∀ actions,
      let m := initial.run clock actions
      m.pushes.map (·.2.recordIndex) = List.range m.pushes.length ∧
        m.pushes.Pairwise (fun a b ↦ a.2.connectionId ≤ b.2.connectionId) ∧
        (∀ a ∈ m.pushes, ∀ b ∈ m.pushes, a.2.connectionId = b.2.connectionId → a.1 = b.1) ∧
        ∀ a ∈ m.pushes, m.connects.count a.1 = 1) ∧
    (∀ actions error,
      (initial.run clock (actions ++ [.terminalRecordingFailure error])).terminal = true) ∧
    (∀ pre post,
      (initial.run clock pre).terminal = true →
      let m := initial.run clock (pre ++ post)
      m.connects = (initial.run clock pre).connects ∧ m.book.state ≠ .valid) := by
  refine ⟨?_, ?_, ?_, ?_, ?_, ?_, terminal_final hm⟩
  · intro pre post generation hg hne m
    -- generations only grow, so a token that was replaced is never current again
    have hle := generation_le_run hm pre post
    have ht := (run_tokens_coherent hm pre).1
    have hold : generation ≤ (initial.run clock pre).generation := by
      rcases hg with hg | hg
      · exact ht.connects_le generation hg
      · exact ht.resumes_le generation hg
    have hnow : generation ≠ m.generation := by
      change generation ≠ (initial.run clock (pre ++ post)).generation
      omega
    exact step_outdated clock m generation hnow
  · exact fun actions hr ↦ one_live_token hm actions hr
  · intro actions generation m hg
    obtain ⟨hmem, hl⟩ := List.mem_filter.mp hg
    exact (step_resume clock m generation hmem hl).1
  · exact fun pre post generation hact ↦ resume_acts_once hm pre post generation hact
  · intro actions m
    have hd : m.Deliveries := run_deliveries hm actions
    have ht : m.Tokens := (run_tokens_coherent hm actions).1
    refine ⟨?_, hd.ordered.imp fun h ↦ h.1, ?_, ?_⟩
    · have hlen : m.pushes.length = m.handler.nextIndex := by
        have h := congrArg List.length hd.indexes
        simpa using h
      rw [hlen]
      exact hd.indexes
    · have hsymm : Std.Symm fun a b : Nat × RawMessage ↦
          a.2.connectionId = b.2.connectionId → a.1 = b.1 :=
        ⟨fun _ _ h hid ↦ (h hid.symm).symm⟩
      exact (hd.ordered.imp fun h ↦ h.2).forall_of_forall fun _ _ _ ↦ rfl
    · intro a ha
      exact List.count_eq_one_of_mem (ht.connects_lt.imp fun h ↦ Nat.ne_of_lt h) (hd.known a ha)
  · intro actions error
    rw [run_append]
    have h := terminalRecordingFailure_toSession clock (initial.run clock actions) error
    change ((initial.run clock actions).terminalRecordingFailure clock error).toSession.terminal =
      true
    rw [h]
    exact Session.terminated_terminal _

/-- A socket error leaves one pending resume, and that resume opens the second attempt. -/
theorem run_recovery_safe_read_error :
    ∃ initial, create (fun _ ↦ ⟨0⟩) {} = .ok initial ∧
      ((initial.run (fun _ ↦ ⟨0⟩) [.start, .connected 1, .error 1 (ascii "read")]).step
        (fun _ ↦ ⟨0⟩) (.resume 2)).connects = [1, 3] := by
  refine ⟨_, rfl, ?_⟩
  have h := run_recovery_safe (fun _ ↦ ⟨0⟩) {} _ rfl
  exact h.2.2.1 [.start, .connected 1, .error 1 (ascii "read")] 2 (by decide)

end CoinbaseConnectionManager

end ArbitrageEngine.Coinbase
