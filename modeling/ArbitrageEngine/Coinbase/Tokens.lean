import ArbitrageEngine.Coinbase.Session

/-!
# Tokens: connection attempts, resumes and envelopes

Every `++generation_` outdates all tokens handed out before. While the manager runs, exactly
one token is current: the pending resume, or the connection attempt.
-/

namespace ArbitrageEngine.Coinbase

open Base ArbitrageEngine.Core Recording

/-! ### What the trace hands out -/

namespace Effect

/-- The generation of a `connect_` call. -/
def connectToken : Effect → Option Nat
  | connect token => some token
  | _ => none

/-- The generation of a scheduled resume. -/
def resumeToken : Effect → Option Nat
  | schedule _ token => some token
  | _ => none

/-- The envelope given to the sink, with the generation of the callback it came through. -/
def push : Effect → Option (Nat × RawMessage)
  | pushed token envelope _ => some (token, envelope)
  | _ => none

end Effect

namespace Session

/-- The `connect_` calls so far. -/
def connects (s : Session) : List Nat := s.trace.filterMap Effect.connectToken

/-- The resumes scheduled so far. -/
def resumes (s : Session) : List Nat := s.trace.filterMap Effect.resumeToken

/-- The envelopes given to the sink so far. -/
def pushes (s : Session) : List (Nat × RawMessage) := s.trace.filterMap Effect.push

/-- The attempts are those of the trace. -/
theorem mem_connects {s : Session} {generation : Nat} :
    generation ∈ s.connects ↔ .connect generation ∈ s.trace := by
  simp only [connects, List.mem_filterMap]
  constructor
  · rintro ⟨effect, hm, he⟩
    cases effect <;> simp only [Effect.connectToken, reduceCtorEq, Option.some.injEq] at he
    subst he
    exact hm
  · intro hm
    exact ⟨_, hm, rfl⟩

/-- The resumes are those of the trace. -/
theorem mem_resumes {s : Session} {generation : Nat} :
    generation ∈ s.resumes ↔ ∃ delay, .schedule delay generation ∈ s.trace := by
  simp only [resumes, List.mem_filterMap]
  constructor
  · rintro ⟨effect, hm, he⟩
    cases effect <;> simp only [Effect.resumeToken, reduceCtorEq, Option.some.injEq] at he
    subst he
    exact ⟨_, hm⟩
  · rintro ⟨delay, hm⟩
    exact ⟨_, hm, rfl⟩

/-- What a step adds: the session that its trace and tokens came from. -/
structure Extends (s s' : Session) (connects resumes : List Nat)
    (pushes : List (Nat × RawMessage)) :
    Prop where
  connects_eq : s'.connects = s.connects ++ connects
  resumes_eq : s'.resumes = s.resumes ++ resumes
  pushes_eq : s'.pushes = s.pushes ++ pushes

/-- Observing a transition adds nothing else to the trace. -/
theorem filterMap_observed {α : Type} (f : Effect → Option α) (hf : ∀ e, f (.lifecycle e) = none)
    (s : Session) (state : BookState) (reason : Bytes) :
    (s.observed state reason).filterMap f = [] := by
  unfold observed
  split <;> simp [hf]

private theorem extends_of_append {s s' : Session} (suffix : List Effect)
    (h : s'.trace = s.trace ++ suffix) :
    Extends s s' (suffix.filterMap Effect.connectToken) (suffix.filterMap Effect.resumeToken)
      (suffix.filterMap Effect.push) := by
  constructor
  · rw [connects, h, List.filterMap_append, connects]
  · rw [resumes, h, List.filterMap_append, resumes]
  · rw [pushes, h, List.filterMap_append, pushes]

private theorem extends_of_trace {s s' : Session} (front back : List Effect) (state : BookState)
    (reason : Bytes) (h : s'.trace = s.trace ++ front ++ s.observed state reason ++ back) :
    Extends s s' ((front ++ back).filterMap Effect.connectToken)
      ((front ++ back).filterMap Effect.resumeToken) ((front ++ back).filterMap Effect.push) := by
  have hsplit : s'.trace = s.trace ++ (front ++ (s.observed state reason ++ back)) := by
    rw [h, List.append_assoc, List.append_assoc]
  have hsuffix := extends_of_append _ hsplit
  simpa only [List.filterMap_append, List.nil_append,
    filterMap_observed Effect.connectToken (fun _ ↦ rfl),
    filterMap_observed Effect.resumeToken (fun _ ↦ rfl),
    filterMap_observed Effect.push (fun _ ↦ rfl)] using hsuffix

private theorem Extends.trans {a b c : Session} {x x' y y' : List Nat}
    {z z' : List (Nat × RawMessage)} (h : Extends a b x y z) (h' : Extends b c x' y' z') :
    Extends a c (x ++ x') (y ++ y') (z ++ z') := by
  constructor
  · rw [h'.connects_eq, h.connects_eq, List.append_assoc]
  · rw [h'.resumes_eq, h.resumes_eq, List.append_assoc]
  · rw [h'.pushes_eq, h.pushes_eq, List.append_assoc]

/-- A refreshed session hands out nothing. -/
theorem extends_refreshed (s : Session) : Extends s s.refreshed [] [] [] :=
  extends_of_append [.book s.book.state] rfl

/-- A new attempt hands out the callbacks of the next generation. -/
theorem extends_begun (s : Session) : Extends s s.begun [s.generation + 1] [] [] :=
  extends_of_trace [] [.book .resyncing, .connect (s.generation + 1)] .resyncing
    (ascii "resynchronization") (by simp [begun])

/-- A connection hands out nothing. -/
theorem extends_established (s : Session) : Extends s s.established [] [] [] :=
  extends_of_trace [] [.book .initializing] .initializing (ascii "new_connection")
    (by simp [established])

/-- A recovery hands out a resume of the next generation. -/
theorem extends_recovering (s : Session) (reason : Bytes) (state : BookState) (delay : Nat) :
    Extends s (s.recovering reason state delay) [] [s.generation + 1] [] :=
  extends_of_trace [] [.book state, .close, .schedule delay (s.generation + 1)] state reason
    (by simp [recovering])

/-- A stop hands out nothing. -/
theorem extends_stopped (s : Session) : Extends s s.stopped [] [] [] :=
  extends_of_trace [.close] [.book .disconnected] .disconnected (ascii "requested_shutdown") rfl

private theorem extends_invalidated (s : Session) : Extends s s.invalidated [] [] [] :=
  extends_of_trace [] [.book .invalid] .invalid (ascii "terminal_failure") (by simp [invalidated])

/-- A terminal failure hands out nothing. -/
theorem extends_terminated (s : Session) : Extends s s.terminated [] [] [] := by
  unfold terminated
  split
  · exact extends_invalidated s
  · exact (extends_stopped s).trans (extends_invalidated s.stopped)

/-- An accepted envelope is pushed under the current generation. -/
theorem extends_accepted (s : Session) (envelope : RawMessage) (book : OrderBook)
    (sequence : SequenceTracker) (result : ProcessResult) :
    Extends s (s.accepted envelope book sequence result) [] [] [(s.generation, envelope)] :=
  extends_of_append [.pushed s.generation envelope (.returned .accepted), .parsed envelope,
    .book book.state, .published envelope result s.current.completed.progress] rfl

/-- A rejected envelope is pushed under the current generation. -/
theorem extends_rejected (s : Session) (envelope : RawMessage) (response : SinkResponse)
    (result : ProcessResult) :
    Extends s (s.rejected envelope response result) [] [] [(s.generation, envelope)] :=
  extends_of_append [.pushed s.generation envelope response, .book .invalid,
    .published envelope result s.current.received.progress] rfl

/-! ### One current token -/

/-- Tokens are numbered by generation. -/
structure Numbered (s : Session) : Prop where
  connects_le : ∀ g ∈ s.connects, g ≤ s.generation
  connects_lt : s.connects.Pairwise (· < ·)
  resumes_le : ∀ g ∈ s.resumes, g ≤ s.generation

/-- While the session runs, the current generation has exactly one token. -/
structure Tokens (s : Session) : Prop extends Numbered s where
  pending : s.stopping = false → s.recoveryPending = true →
    s.resumes.count s.generation = 1 ∧ s.generation ∉ s.connects
  attempting : s.stopping = false → s.recoveryPending = false →
    s.connects.count s.generation = 1 ∧ s.generation ∉ s.resumes

/-- A step that hands out no token and keeps generation and flags. -/
theorem Tokens.of_same {s s' : Session} {pushes : List (Nat × RawMessage)} (h : s.Tokens)
    (he : Extends s s' [] [] pushes) (hg : s'.generation = s.generation)
    (hs : s'.stopping = s.stopping) (hr : s'.recoveryPending = s.recoveryPending) : s'.Tokens := by
  have hc : s'.connects = s.connects := by simpa using he.connects_eq
  have hm : s'.resumes = s.resumes := by simpa using he.resumes_eq
  refine ⟨⟨?_, ?_, ?_⟩, ?_, ?_⟩
  · rw [hc, hg]
    exact h.connects_le
  · rw [hc]
    exact h.connects_lt
  · rw [hm, hg]
    exact h.resumes_le
  · rw [hs, hr, hm, hc, hg]
    exact h.pending
  · rw [hs, hr, hm, hc, hg]
    exact h.attempting

private theorem tokens_begun {s : Session} (h : s.Numbered) : s.begun.Tokens := by
  have he := extends_begun s
  have hm : s.begun.resumes = s.resumes := by simpa using he.resumes_eq
  have hfresh : s.generation + 1 ∉ s.connects := fun hmem ↦ by
    have := h.connects_le _ hmem
    omega
  have hg : s.begun.generation = s.generation + 1 := rfl
  refine ⟨⟨?_, ?_, ?_⟩, ?_, ?_⟩
  · intro g hmem
    rw [he.connects_eq, List.mem_append, List.mem_singleton] at hmem
    rcases hmem with hmem | rfl
    · exact Nat.le_succ_of_le (h.connects_le g hmem)
    · exact Nat.le_refl _
  · rw [he.connects_eq, List.pairwise_append]
    refine ⟨h.connects_lt, List.pairwise_singleton _ _, ?_⟩
    intro a ha b hb
    rw [List.mem_singleton] at hb
    have := h.connects_le a ha
    omega
  · intro g hmem
    rw [hm] at hmem
    exact Nat.le_succ_of_le (h.resumes_le g hmem)
  · intro _ hr
    simp [begun] at hr
  · intro _ _
    constructor
    · rw [he.connects_eq, hg, List.count_append, List.count_eq_zero_of_not_mem hfresh]
      simp
    · rw [hm, hg]
      intro hmem
      have := h.resumes_le _ hmem
      omega

private theorem tokens_recovering {s : Session} (h : s.Tokens) (reason : Bytes) (state : BookState)
    (delay : Nat) : (s.recovering reason state delay).Tokens := by
  have he := extends_recovering s reason state delay
  have hc : (s.recovering reason state delay).connects = s.connects := by
    simpa using he.connects_eq
  have hg : (s.recovering reason state delay).generation = s.generation + 1 := rfl
  have hfresh : s.generation + 1 ∉ s.resumes := fun hmem ↦ by
    have := h.resumes_le _ hmem
    omega
  refine ⟨⟨?_, ?_, ?_⟩, ?_, ?_⟩
  · intro g hmem
    rw [hc] at hmem
    exact Nat.le_succ_of_le (h.connects_le g hmem)
  · rw [hc]
    exact h.connects_lt
  · intro g hmem
    rw [he.resumes_eq, List.mem_append, List.mem_singleton] at hmem
    rcases hmem with hmem | rfl
    · exact Nat.le_succ_of_le (h.resumes_le g hmem)
    · exact Nat.le_refl _
  · intro _ _
    constructor
    · rw [he.resumes_eq, hg, List.count_append, List.count_eq_zero_of_not_mem hfresh]
      simp
    · rw [hc, hg]
      intro hmem
      have := h.connects_le _ hmem
      omega
  · intro _ hr
    simp [recovering] at hr

/-- A step that hands out no token and leaves a stopped session. -/
theorem Tokens.of_stopping {s s' : Session} {pushes : List (Nat × RawMessage)} (h : s.Tokens)
    (he : Extends s s' [] [] pushes) (hg : s.generation ≤ s'.generation)
    (hs : s'.stopping = true) : s'.Tokens := by
  have hc : s'.connects = s.connects := by simpa using he.connects_eq
  have hm : s'.resumes = s.resumes := by simpa using he.resumes_eq
  refine ⟨⟨?_, ?_, ?_⟩, ?_, ?_⟩
  · rw [hc]
    exact fun g hmem ↦ Nat.le_trans (h.connects_le g hmem) hg
  · rw [hc]
    exact h.connects_lt
  · rw [hm]
    exact fun g hmem ↦ Nat.le_trans (h.resumes_le g hmem) hg
  · intro hr
    simp [hs] at hr
  · intro hr
    simp [hs] at hr

private theorem terminated_stopping (s : Session) : s.terminated.stopping = true := by
  unfold terminated
  split
  · next h => exact h
  · rfl

/-- A session that failed for good is terminal. -/
theorem terminated_terminal (s : Session) : s.terminated.terminal = true := by
  unfold terminated
  split <;> rfl

/-- A terminal failure does not take the generation back. -/
theorem generation_le_terminated (s : Session) : s.generation ≤ s.terminated.generation := by
  unfold terminated
  split
  · exact Nat.le_refl _
  · exact Nat.le_succ _

/-- One step keeps exactly one current token. -/
theorem Step.tokens {reasons : Bytes → Prop} {s s' : Session}
    {handed : Option RawMessage} (h : Step reasons s handed s')
    (ht : s.Tokens) : s'.Tokens := by
  cases h with
  | idle => exact ht
  | refreshed => exact ht.of_same (extends_refreshed s) rfl rfl rfl
  | start stopping alive =>
    exact tokens_begun ⟨ht.connects_le, ht.connects_lt, ht.resumes_le⟩
  | resume delay running token => exact tokens_begun ht.toNumbered
  | connected running fresh token => exact ht.of_same (extends_established s) rfl rfl rfl
  | recover reason state delay running idle state_eq given => exact tokens_recovering ht _ _ _
  | stop running => exact ht.of_stopping (extends_stopped s) (Nat.le_succ _) rfl
  | terminate =>
    exact ht.of_stopping (extends_terminated s) (generation_le_terminated s) (terminated_stopping s)
  | delivered raw wall mono health now feed result running connected token processed clean =>
    exact ht.of_same (extends_accepted s _ _ _ _) rfl rfl rfl
  | failed raw wall mono health now feed result delay running connected token
      processed error idle =>
    exact tokens_recovering (ht.of_same (extends_accepted s _ _ _ _) rfl rfl rfl) _ _ _
  | thrown raw wall mono health now feed failure delay running connected token processed idle =>
    exact tokens_recovering (ht.of_same (extends_accepted s _ _ _ _) rfl rfl rfl) _ _ _
  | rejected raw wall mono response error running connected token refused =>
    have hr := ht.of_same (extends_rejected s (s.envelope raw wall mono) response
      { outcome := .recordingRejected, error }) rfl rfl rfl
    exact hr.of_stopping (extends_terminated _) (generation_le_terminated _) (terminated_stopping _)

end Session

end ArbitrageEngine.Coinbase
