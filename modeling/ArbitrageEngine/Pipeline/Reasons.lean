import ArbitrageEngine.Coinbase.ErrorTexts
import ArbitrageEngine.Kraken.ErrorTexts
import ArbitrageEngine.Pipeline.Display
import ArbitrageEngine.Pipeline.KrakenAccounting

/-!
# The reasons in the status

`src/pipeline/{live_runtime,kraken_runtime}.cpp`: which texts the lifecycle events of a capture
carry. Most of them are fixed; the others are the error of a message and the text of a socket
error. An action garbles a reason if such a text is not UTF-8.
-/

namespace ArbitrageEngine.Pipeline

open Base ArbitrageEngine.Core Coinbase Json Kraken Recording

/-! ### Ledgers -/

/-- Every reason of the ledger is UTF-8. -/
def Ledger.Legible (ledger : Ledger) : Prop :=
  ∀ event ∈ ledger.lifecycleEvents, IsUtf8 event.reason

private theorem mem_lifecycle_enter (op : Op) (ledger : Ledger) (event : LifecycleEvent) :
    event ∈ (Op.enter ledger op).lifecycleEvents ↔
      event ∈ ledger.lifecycleEvents ∨ op = .lifecycle event := by
  cases op with
  | lifecycle other =>
    simp only [Op.enter, List.mem_append, List.mem_singleton, Op.lifecycle.injEq]
    exact or_congr_right eq_comm
  | received index result =>
    simp only [Op.enter, reduceCtorEq, or_false]
    split <;> rfl
  | processed | published | closeQueue | settle | clearPost | caught | overruled =>
    simp only [Op.enter, reduceCtorEq, or_false]

/-- The events of a ledger after some sections. -/
theorem mem_lifecycle_foldl (ops : List Op) (ledger : Ledger) (event : LifecycleEvent) :
    event ∈ (ops.foldl Op.enter ledger).lifecycleEvents ↔
      event ∈ ledger.lifecycleEvents ∨ .lifecycle event ∈ ops := by
  induction ops generalizing ledger with
  | nil => simp
  | cons op ops ih =>
    rw [List.foldl_cons, ih, mem_lifecycle_enter, List.mem_cons, or_assoc, eq_comm]

/-! ### Runs -/

namespace System

variable {σ ι : Type} (P : Program σ ι)

/-- No action of the run is of this kind in the state in which it starts. -/
def Never (kind : σ → ι → Prop) : System σ → List (Event ι) → Prop
  | _, [] => True
  | s, event :: events =>
    (∀ input, s.begun P event = some input → ¬kind s.market (s.answered P input)) ∧
      Never kind (s.step P event) events

end System

/-- The texts that the surroundings give a market thread, and what becomes of them. -/
structure Reasons {σ ι : Type} {P : Program σ ι} (A : Accounts P) where
  /-- The payload of a message. -/
  payload : ι → Option Bytes
  /-- The action puts a reason into the status that is not UTF-8. -/
  Garbles : σ → ι → Prop
  answered : ∀ input result, payload (P.answered input result) = payload input
  refuses : ∀ fatal requested input, P.refuses fatal requested = some input → payload input = none
  start : ∀ now, payload (P.start now) = none
  failure : ∀ error, payload (P.failure error) = none
  tick : ∀ now first last requested, payload (P.tick now first last requested) = none
  handler : ∀ m what event, .lifecycle event ∈ P.handler m what → IsUtf8 event.reason
  legible : ∀ m input, A.Inv m → (∀ raw ∈ payload input, IsUtf8 raw) →
    ((A.ledger (P.step m input).1).Legible ↔ (A.ledger m).Legible ∧ ¬Garbles m input)

namespace Reasons

variable {σ ι : Type} {P : Program σ ι} {A : Accounts P} (R : Reasons A)

/-- Every payload that the events deliver is UTF-8. -/
def Delivers (events : List (Event ι)) : Prop :=
  ∀ input, .callback input ∈ events → ∀ raw ∈ R.payload input, IsUtf8 raw

private theorem payload_answered (s : System σ) (input : ι) :
    R.payload (s.answered P input) = R.payload input := by
  unfold System.answered
  split
  · rfl
  · exact R.answered input _

/-- Only a callback brings a payload. -/
theorem payload_begun {s : System σ} {event : Event ι} {input : ι}
    (h : s.begun P event = some input) :
    event = .callback input ∨ R.payload input = none := by
  cases event with
  | check requested =>
    simp only [System.begun] at h
    split at h
    · exact .inr (R.refuses _ _ _ h)
    · cases h
  | start now =>
    simp only [System.begun] at h
    split at h
    · cases h
      exact .inr (R.start now)
    · cases h
  | callback other =>
    simp only [System.begun] at h
    split at h
    · cases h
      exact .inl rfl
    · cases h
  | posted =>
    simp only [System.begun] at h
    split at h
    · obtain ⟨error, -, rfl⟩ := Option.map_eq_some_iff.mp h
      exact .inr (R.failure error)
    · cases h
  | tick now requested =>
    simp only [System.begun] at h
    split at h
    · cases h
      exact .inr (R.tick _ _ _ _)
    · cases h
  | writer _ | ready | proceed | look | exit | close | finish | throw _ => cases h

/-- One step of a thread keeps the reasons of the market thread UTF-8 unless it garbles one. -/
theorem step_legible {s : System σ} (hi : A.Inv s.market) {event : Event ι}
    (hd : R.Delivers [event]) :
    (A.ledger (s.step P event).market).Legible ↔
      (A.ledger s.market).Legible ∧
        ∀ input, s.begun P event = some input → ¬R.Garbles s.market (s.answered P input) := by
  cases hbegun : s.begun P event with
  | none =>
    rw [(System.step_not_begun hbegun).1]
    exact ⟨fun h ↦ ⟨h, nofun⟩, fun h ↦ h.1⟩
  | some input =>
    have hutf8 : ∀ raw ∈ R.payload (s.answered P input), IsUtf8 raw := by
      rw [R.payload_answered]
      rcases R.payload_begun hbegun with rfl | hnone
      · exact hd input List.mem_cons_self
      · rw [hnone]
        exact nofun
    have hmarket : (s.step P event).market = (P.step s.market (s.answered P input)).1 :=
      congrArg Prod.fst (System.step_begun hbegun)
    rw [hmarket, R.legible _ _ hi hutf8]
    simp only [Option.some.injEq, forall_eq']

/-- The reasons of the market thread are UTF-8 exactly if no action of the run garbles one. -/
theorem run_legible {s : System σ} (hk : s.Kept A) {events : List (Event ι)}
    (hd : R.Delivers events) :
    (A.ledger (s.run P events).market).Legible ↔
      (A.ledger s.market).Legible ∧ s.Never P R.Garbles events := by
  induction events generalizing s with
  | nil => exact ⟨fun h ↦ ⟨h, trivial⟩, fun h ↦ h.1⟩
  | cons event events ih =>
    have hnext : (s.step P event).Kept A := (s.step_stepped P event).kept hk
    have hrest : R.Delivers events := fun input hm ↦ hd input (List.mem_cons_of_mem _ hm)
    have hfirst : R.Delivers [event] := by
      intro input hm
      exact hd input (List.mem_cons.mpr (.inl (List.mem_singleton.mp hm)))
    rw [System.Never, ← and_assoc, ← R.step_legible hk.inv hfirst]
    exact ih hnext hrest

/-- What the status shows, pending sections included, is in the books of the market thread, or
its reason is UTF-8. -/
def Filed (_ : Reasons A) (s : System σ) : Prop :=
  ∀ event, event ∈ s.backend.shared.status.lifecycleEvents ∨ .lifecycle event ∈ s.pending →
    event ∈ (A.ledger s.market).lifecycleEvents ∨ IsUtf8 event.reason

/-- The books of a run that has not thrown are filed. -/
theorem filed_of_kept {s : System σ} (hk : s.Kept A) (ht : s.thrown = false) : R.Filed s := by
  intro event h
  left
  rw [← hk.ledger ht, mem_lifecycle_foldl]
  exact h

private theorem stepped_filed {s s' : System σ} (h : System.Stepped P s s') (hk : s.Kept A)
    (hf : R.Filed s) : R.Filed s' := by
  have hnext := h.kept hk
  cases ht : s'.thrown with
  | false => exact R.filed_of_kept hnext ht
  | true =>
    have hguarded (hp : s.phase.isGuarded = true) (hs : s'.thrown = s.thrown) : R.Filed s' := by
      rw [hs, hk.not_thrown hp] at ht
      cases ht
    cases h with
    | idle => exact hf
    | writer backend moved =>
      have hledger : backend.shared.status.lifecycleEvents =
          s.backend.shared.status.lifecycleEvents :=
        congrArg Ledger.lifecycleEvents moved.ledger
      intro event he
      exact hf event (he.imp_left fun hm ↦ hledger ▸ hm)
    | ready phase due => exact hguarded (by rw [phase]; rfl) rfl
    | refused input phase =>
      exact hguarded (by rw [phase]; rfl) (System.thrown_act P _ input)
    | cleared phase clean => exact hguarded (by rw [phase]; rfl) rfl
    | started now phase => exact hguarded (by rw [phase]; rfl) (System.thrown_act P _ _)
    | proceeded op rest armed pending =>
      have hledger := Backend.ledger_perform (b := s.backend) op
      intro event he
      refine hf event ?_
      have hlist : event ∈ (s.backend.perform op).shared.status.ledger.lifecycleEvents ∨
          .lifecycle event ∈ rest := he
      rw [hledger, mem_lifecycle_enter, or_assoc] at hlist
      rw [pending, List.mem_cons, eq_comm]
      exact hlist
    | acted input posted seen armed phase pending =>
      exact hguarded (by rw [phase]; rfl) (System.thrown_act P _ input)
    | looked phase seen => exact hguarded (by rw [phase]; rfl) rfl
    | exited phase pending => exact hguarded (by rw [phase]; rfl) rfl
    | closed phase pending => exact hf
    | finished phase => exact hf
    | threw what phase =>
      intro event he
      rcases he with he | he
      · exact hf event (.inl he)
      · exact .inr (R.handler s.market what event he)

/-- The books stay filed during a run. -/
theorem run_filed {s : System σ} (hk : s.Kept A) (hf : R.Filed s) (events : List (Event ι)) :
    R.Filed (s.run P events) := by
  have hboth := System.run_invariant (P := P) (I := fun s ↦ s.Kept A ∧ R.Filed s)
    (fun _ _ h hs ↦ ⟨h.kept hs.1, R.stepped_filed h hs.1 hs.2⟩) ⟨hk, hf⟩ events
  exact hboth.2

end Reasons

end ArbitrageEngine.Pipeline

/-! ### `run_live` -/

namespace ArbitrageEngine.Coinbase

open Base ArbitrageEngine.Core Json Pipeline Recording

namespace Session

/-- Every reason that was observed is UTF-8. -/
def Legible (s : Session) : Prop := ∀ event, .lifecycle event ∈ s.trace → IsUtf8 event.reason

private theorem legible_ledger (s : Session) : s.ledger.Legible ↔ s.Legible := by
  have hop (event : LifecycleEvent) :
      .lifecycle event ∈ s.trace.filterMap effectOp ↔ .lifecycle event ∈ s.trace := by
    rw [List.mem_filterMap]
    constructor
    · rintro ⟨effect, hm, he⟩
      cases effect with
      | lifecycle other =>
        cases he
        exact hm
      | published | book | connect | close | schedule | pushed | parsed => cases he
    · exact fun hm ↦ ⟨_, hm, rfl⟩
  unfold Ledger.Legible ledger
  simp only [mem_lifecycle_foldl, hop]
  exact forall_congr' fun event ↦ imp_congr_left (or_iff_right (List.not_mem_nil))

/-- A transition with one observed reason between other effects. -/
theorem legible_observed {s s' s₀ : Session} {state : BookState} {reason : Bytes}
    {before after : List Effect}
    (h : s'.trace = s.trace ++ before ++ s₀.observed state reason ++ after)
    (hb : ∀ event, .lifecycle event ∉ before) (ha : ∀ event, .lifecycle event ∉ after) :
    s'.Legible ↔ s.Legible ∧ IsUtf8 reason := by
  unfold Legible
  simp only [h, List.mem_append, hb, ha, or_false, or_imp, forall_and]
  apply and_congr_right fun _ ↦ ?_
  unfold observed
  split
  · next hnil =>
    rw [hnil]
    exact ⟨fun _ ↦ isUtf8_nil, fun _ _ ↦ nofun⟩
  · simp

/-- Effects without a reason. -/
theorem legible_append {s s' : Session} {suffix : List Effect} (h : s'.trace = s.trace ++ suffix)
    (hs : ∀ event, .lifecycle event ∉ suffix) : s'.Legible ↔ s.Legible := by
  unfold Legible
  simp only [h, List.mem_append, hs, or_false]

private theorem legible_fixed {p : Prop} {reason : Bytes} (h : isAscii reason = true) :
    p ∧ IsUtf8 reason ↔ p :=
  and_iff_left (isUtf8_of_isAscii h)

private theorem legible_begun (s : Session) : s.begun.Legible ↔ s.Legible := by
  have htrace : s.begun.trace = s.trace ++ [] ++
      s.observed .resyncing (ascii "resynchronization") ++
      [Effect.book .resyncing, Effect.connect (s.generation + 1)] := by
    rw [List.append_nil]
    rfl
  exact (legible_observed htrace nofun (by simp)).trans (legible_fixed (by decide))

private theorem legible_established (s : Session) : s.established.Legible ↔ s.Legible := by
  have htrace : s.established.trace = s.trace ++ [] ++
      s.observed .initializing (ascii "new_connection") ++ [Effect.book .initializing] := by
    rw [List.append_nil]
    rfl
  exact (legible_observed htrace nofun (by simp)).trans (legible_fixed (by decide))

private theorem legible_recovering (s : Session) (reason : Bytes) (state : BookState)
    (delay : Nat) :
    (s.recovering reason state delay).Legible ↔ s.Legible ∧ IsUtf8 reason := by
  have htrace : (s.recovering reason state delay).trace = s.trace ++ [] ++
      s.observed state reason ++
      [Effect.book state, Effect.close, Effect.schedule delay (s.generation + 1)] := by
    rw [List.append_nil]
    rfl
  exact legible_observed htrace nofun (by simp)

private theorem legible_stopped (s : Session) : s.stopped.Legible ↔ s.Legible := by
  have htrace : s.stopped.trace = s.trace ++ [Effect.close] ++
      s.observed .disconnected (ascii "requested_shutdown") ++ [Effect.book .disconnected] :=
    rfl
  exact (legible_observed htrace (by simp) (by simp)).trans (legible_fixed (by decide))

private theorem legible_invalidated (s : Session) : s.invalidated.Legible ↔ s.Legible := by
  have htrace : s.invalidated.trace = s.trace ++ [] ++
      s.observed .invalid (ascii "terminal_failure") ++ [Effect.book .invalid] := by
    rw [List.append_nil]
    rfl
  exact (legible_observed htrace nofun (by simp)).trans (legible_fixed (by decide))

private theorem legible_terminated (s : Session) : s.terminated.Legible ↔ s.Legible := by
  unfold terminated
  split
  · exact s.legible_invalidated
  · exact s.stopped.legible_invalidated.trans s.legible_stopped

private theorem legible_accepted (s : Session) (envelope : RawMessage) (book : OrderBook)
    (sequence : SequenceTracker) (result : ProcessResult) :
    (s.accepted envelope book sequence result).Legible ↔ s.Legible :=
  legible_append (accepted_trace s envelope book sequence result) (by simp)

private theorem legible_rejected (s : Session) (envelope : RawMessage) (response : SinkResponse)
    (result : ProcessResult) : (s.rejected envelope response result).Legible ↔ s.Legible :=
  legible_append (rejected_trace s envelope response result) (by simp)

/-- A step without an envelope gives no reason but one that its recovery was given. -/
theorem Step.legible {s s' : Session} (h : Step IsUtf8 s none s') : s'.Legible ↔ s.Legible := by
  cases h with
  | idle => rfl
  | refreshed =>
    have htrace : s.refreshed.trace = s.trace ++ [Effect.book s.book.state] := rfl
    exact legible_append htrace (by simp)
  | start stopping alive => exact legible_begun { s with stopping := false }
  | resume delay running token => exact s.legible_begun
  | connected running fresh token => exact s.legible_established
  | recover reason state delay running idle state_eq given =>
    exact (s.legible_recovering reason state delay).trans (and_iff_left given)
  | stop running => exact s.legible_stopped
  | terminate => exact s.legible_terminated

end Session

namespace CoinbaseConnectionManager

variable (clock : Nat → ReceiveMonotonicTimestamp)

/-- A message that is recorded makes the JSON parser throw a text that is not UTF-8, or a socket
error that is followed by a recovery has such a text. -/
def Garbles (m : CoinbaseConnectionManager) : Action → Prop
  | .message generation raw _ _ response _ =>
    m.attempted generation = true ∧ m.live generation = true ∧ m.connected = true ∧
      response = .returned .accepted ∧ ¬Raises Legible (Json.parse raw)
  | .error generation reason =>
    m.attempted generation = true ∧ m.live generation = true ∧ m.recoveryPending = false ∧
      ¬IsUtf8 reason
  | _ => False

/-- The payload of a message. -/
def Action.payload : Action → Option Bytes
  | message _ raw _ _ _ _ => some raw
  | _ => none

/-- An action without an envelope that is not a socket error gives fixed reasons. -/
theorem legible_silent (m : CoinbaseConnectionManager) {action : Action}
    (hi : m.connected = true → m.recoveryPending = false) (hh : m.handed action = none)
    (he : ∀ generation reason, action ≠ .error generation reason) :
    (m.step clock action).toSession.Legible ↔ m.toSession.Legible := by
  have hown : ∀ reason ∈ ownReasons, IsUtf8 reason := by decide +kernel
  have hstep := step_session clock m action hi hown
    fun generation reason h ↦ absurd h (he generation reason)
  rw [hh] at hstep
  exact hstep.legible

/-- The error of a message is the reason of the recovery behind it. -/
theorem legible_handleMessage (m : CoinbaseConnectionManager) {raw : Bytes} (hraw : IsUtf8 raw)
    (wall : ReceiveWallTimestamp) (mono : ReceiveMonotonicTimestamp) (response : SinkResponse)
    (now : ReceiveMonotonicTimestamp) (hc : m.connected = true) (hr : m.stopping = false)
    (hi : m.recoveryPending = false) :
    (m.handleMessage clock raw wall mono response now).1.toSession.Legible ↔
      m.toSession.Legible ∧
        ¬(response = .returned .accepted ∧ ¬Raises Legible (Json.parse raw)) := by
  rw [handleMessage_eq clock m raw wall mono response now hc]
  dsimp only
  by_cases hresponse : response = .returned .accepted
  · subst hresponse
    have htext := Feed.isUtf8_process_iff .default ⟨m.book, m.sequence, m.health⟩
      (m.toSession.envelope raw wall mono) now hraw
    simp only [true_and, not_not]
    cases hp : Feed.process .default ⟨m.book, m.sequence, m.health⟩
        (m.toSession.envelope raw wall mono) now with
    | mk feed outcome =>
      have processed := Feed.processed_of_process hp
      rw [hp] at htext
      cases outcome with
      | ok result =>
        obtain ⟨h2, h1⟩ := handle_accepted m raw wall mono now feed result hp
        have ho : result.outcome ≠ .recordingRejected := processed.outcome_ne_rejected
        rw [h2]
        by_cases he : result.error = []
        · have hnil : IsUtf8 result.error := he ▸ isUtf8_nil
          have hlegible := htext.mp hnil
          rw [finishMessage_clean clock _ _ _ ho he, h1, Session.legible_accepted]
          exact (and_iff_left hlegible).symm
        · obtain ⟨delay, hd⟩ := finishMessage_failed clock _ m.book.state result ho he
            (by rw [h1]; exact hr) (by rw [h1]; exact hi)
          rw [hd, h1, Session.legible_recovering, Session.legible_accepted]
          exact and_congr_right fun _ ↦ htext
      | error failure =>
        obtain ⟨h2, h1⟩ := handle_thrown m raw wall mono now feed failure hp
        have he : failure.what ≠ [] := processed.what_ne_nil
        rw [h2]
        obtain ⟨delay, hd⟩ := finishMessage_failed clock _ m.book.state
          { outcome := .applyError, error := failure.what } (by simp) he
          (by rw [h1]; exact hr) (by rw [h1]; exact hi)
        rw [hd, h1, Session.legible_recovering, Session.legible_accepted]
        exact and_congr_right fun _ ↦ htext
  · obtain ⟨error, h2, h1⟩ := handle_refused m raw wall mono response now hresponse
    rw [h2, finishMessage_rejected clock _ _ _ rfl, h1, Session.legible_terminated,
      Session.legible_rejected]
    exact (and_iff_left fun h ↦ hresponse h.1).symm

/-- One action of the manager keeps the reasons UTF-8 unless it garbles one. -/
theorem legible_step (m : CoinbaseConnectionManager) (hm : m.Coherent) (action : Action)
    (hp : ∀ raw ∈ action.payload, IsUtf8 raw) :
    (m.step clock action).toSession.Legible ↔ m.toSession.Legible ∧ ¬m.Garbles action := by
  have hsilent (hh : m.handed action = none)
      (he : ∀ generation reason, action ≠ .error generation reason) (hg : ¬m.Garbles action) :
      (m.step clock action).toSession.Legible ↔ m.toSession.Legible ∧ ¬m.Garbles action :=
    (m.legible_silent clock hm.connected_idle hh he).trans (and_iff_left hg).symm
  cases action with
  | start | stop | checkHealth | forceDisconnect | terminalRecordingFailure | connected | resume =>
    exact hsilent rfl nofun id
  | message generation raw wall mono response now =>
    by_cases hc : m.attempted generation = true ∧ m.live generation = true ∧ m.connected = true
    · obtain ⟨ha, hl, hc⟩ := hc
      have hr := ((live_iff m generation).mp hl).1
      simp only [step, onMessage, Garbles, ha, hl, hc, ↓reduceIte, true_and]
      exact m.legible_handleMessage clock (hp raw rfl) wall mono response now hc hr
        (hm.connected_idle hc)
    · refine hsilent ?_ (fun _ _ h ↦ by cases h) fun hg ↦ hc ⟨hg.1, hg.2.1, hg.2.2.1⟩
      simp only [handed]
      split
      · next ha =>
        split
        · next hl => exact if_neg fun h ↦ hc ⟨ha, hl, h⟩
        · rfl
      · rfl
  | error generation reason =>
    by_cases hlive : m.attempted generation = true ∧ m.live generation = true ∧
        m.recoveryPending = false
    · obtain ⟨ha, hl, hi⟩ := hlive
      have hr := ((live_iff m generation).mp hl).1
      simp only [step, onError, Garbles, ha, hl, hi, ↓reduceIte, true_and, not_not]
      rw [recover_toSession clock m reason .disconnected hr hi (by decide)]
      exact m.toSession.legible_recovering reason _ _
    · have hg : ¬m.Garbles (.error generation reason) :=
        fun hg ↦ hlive ⟨hg.1, hg.2.1, hg.2.2.1⟩
      have hidle : m.step clock (.error generation reason) = m := by
        simp only [step, onError]
        split
        · next ha =>
          split
          · next hl =>
            refine recover_of_pending clock m reason _ (.inr ?_)
            exact Bool.not_eq_false _ ▸ fun hi ↦ hlive ⟨ha, hl, hi⟩
          · rfl
        · rfl
      rw [hidle]
      exact (and_iff_left hg).symm

end CoinbaseConnectionManager

end ArbitrageEngine.Coinbase

namespace ArbitrageEngine.Pipeline

open Base ArbitrageEngine.Core Coinbase Json Kraken Recording

namespace LiveMarket

variable (clock : Nat → ReceiveMonotonicTimestamp)

/-- The manager garbles a reason. -/
def Garbles (m : LiveMarket) : LiveAction → Prop
  | .manager action => m.manager.Garbles action
  | _ => False

/-- A manager that is running reports its shutdown when it is destroyed. -/
theorem destroyed_eq (m : LiveMarket) :
    m.destroyed clock = if m.manager.stopping then [] else
      [.lifecycle ⟨CoinbaseConnectionManager.nextRecordIndex m.manager.handler.progress,
        .disconnected, ascii "requested_shutdown"⟩] := by
  unfold destroyed sectionsSince
  split
  · next hstopping => rw [CoinbaseConnectionManager.stop, if_pos hstopping, List.drop_length]; rfl
  · next hrunning =>
    have htrace := congrArg Session.trace
      (m.manager.stop_toSession clock (Bool.eq_false_iff.mpr hrunning))
    rw [htrace, Session.stopped, List.append_assoc, List.append_assoc, List.drop_left]
    rfl

private theorem destroyed_legible (m : LiveMarket) {event : LifecycleEvent}
    (h : .lifecycle event ∈ m.destroyed clock) : IsUtf8 event.reason := by
  rw [destroyed_eq] at h
  split at h
  · cases h
  · cases List.mem_singleton.mp h
    exact isUtf8_ascii _

/-- The `stop` lambda and the manager's own calls put UTF-8 reasons into the status. -/
theorem legible_stopManager (m : LiveMarket) (hm : m.manager.Coherent) (error : Bytes) :
    (m.stopManager clock error).toSession.Legible ↔ m.manager.toSession.Legible := by
  unfold stopManager
  split
  · exact m.manager.legible_silent clock hm.connected_idle
      (rfl : m.manager.handed (.terminalRecordingFailure error) = none) nofun
  · split
    · exact m.manager.legible_silent clock hm.connected_idle
        (rfl : m.manager.handed .stop = none) nofun
    · rfl

end LiveMarket

/-- The payload of a message. -/
def LiveAction.payload : LiveAction → Option Bytes
  | manager action => action.payload
  | _ => none

/-- The reasons of `run_live`. -/
def liveReasons (clock : Nat → ReceiveMonotonicTimestamp) : Reasons (liveAccounts clock) where
  payload := LiveAction.payload
  Garbles := LiveMarket.Garbles
  answered := fun input result ↦ by
    cases input with
    | manager action => cases action <;> rfl
    | stop | tick => rfl
  refuses := fun fatal requested input h ↦ by
    cases fatal with
    | some error =>
      cases h
      rfl
    | none =>
      cases requested with
      | true =>
        cases h
        rfl
      | false => cases h
  start := fun _ ↦ rfl
  failure := fun _ ↦ rfl
  tick := fun _ _ _ _ ↦ rfl
  handler := fun m what event h ↦ by
    simp only [liveProgram, List.cons_append, List.mem_cons, List.mem_append, reduceCtorEq,
      List.not_mem_nil, or_false, false_or] at h
    exact m.destroyed_legible clock h
  legible := fun m input h hp ↦ by
    refine (Session.legible_ledger _).trans (Iff.trans ?_
      (and_congr_left' (Session.legible_ledger _).symm))
    cases input with
    | manager action => exact m.manager.legible_step clock h.coherent action hp
    | stop error =>
      exact (m.legible_stopManager clock h.coherent error).trans (and_iff_left id).symm
    | tick fatal requested =>
      refine Iff.trans ?_ (and_iff_left id).symm
      simp only [liveProgram, LiveMarket.step, LiveMarket.tick]
      split
      · exact m.legible_stopManager clock h.coherent (fatal.getD [])
      · rfl

/-! ### `run_kraken` -/

namespace KrakenSession

/-- Every reason that was pushed is UTF-8. -/
def Legible (s : KrakenSession) : Prop := ∀ event, .lifecycle event ∈ s.trace → IsUtf8 event.reason

private theorem legible_ledger (s : KrakenSession) : s.ledger.Legible ↔ s.Legible := by
  have hop (event : LifecycleEvent) :
      .lifecycle event ∈ s.trace.filterMap krakenOp ↔ .lifecycle event ∈ s.trace := by
    rw [List.mem_filterMap]
    constructor
    · rintro ⟨effect, hm, he⟩
      cases effect with
      | lifecycle other =>
        cases he
        exact hm
      | pushed | received | processed | connect | abort | schedule | cancelRetry | closeQueue =>
        cases he
    · exact fun hm ↦ ⟨_, hm, rfl⟩
  unfold Ledger.Legible ledger
  simp only [mem_lifecycle_foldl, hop]
  exact forall_congr' fun event ↦ imp_congr_left (or_iff_right List.not_mem_nil)

/-- Effects without a reason. -/
theorem legible_append {s s' : KrakenSession} {effects : List KrakenEffect}
    (h : s'.trace = s.trace ++ effects) (he : ∀ event, .lifecycle event ∉ effects) :
    s'.Legible ↔ s.Legible := by
  unfold Legible
  simp only [h, List.mem_append, he, or_false]

end KrakenSession

namespace KrakenMarket

/-- A message that is recorded outside of a recovery makes `exact_json` throw a text that is not
UTF-8, or a socket error that is followed by a recovery has such a text. -/
def Garbles (m : KrakenMarket) : Action → Prop
  | .message payload _ _ result =>
    m.stopping = false ∧ m.recovering = false ∧ result = .accepted ∧
      ¬Raises Legible (exactJson payload)
  | .error reason => m.stopping = false ∧ m.recovering = false ∧ ¬IsUtf8 reason
  | _ => False

/-- The payload of a message. -/
def Action.payload : Action → Option Bytes
  | message payload _ _ _ => some payload
  | _ => none

private theorem legible_recover (m : KrakenMarket) (reason : Bytes) (stale : Bool) :
    (m.recover reason stale).toKrakenSession.Legible ↔
      m.toKrakenSession.Legible ∧
        ¬(m.stopping = false ∧ m.recovering = false ∧ ¬IsUtf8 reason) := by
  unfold recover
  split
  · next hidle =>
    simp only [Bool.or_eq_true] at hidle
    refine (and_iff_left ?_).symm
    rintro ⟨hs, hr, -⟩
    simp [hs, hr] at hidle
  · next hrunning =>
    simp only [Bool.or_eq_true, not_or, Bool.not_eq_true] at hrunning
    simp [KrakenSession.Legible, hrunning.1, hrunning.2, or_imp, forall_and]

private theorem legible_recover_fixed (m : KrakenMarket) {reason : Bytes}
    (h : isAscii reason = true) (stale : Bool) :
    (m.recover reason stale).toKrakenSession.Legible ↔ m.toKrakenSession.Legible :=
  (m.legible_recover reason stale).trans
    (and_iff_left fun hn ↦ hn.2.2 (isUtf8_of_isAscii h))

private theorem legible_stop (m : KrakenMarket) :
    m.stop.toKrakenSession.Legible ↔ m.toKrakenSession.Legible := by
  have htrace : m.stop.trace = m.trace ++
      [KrakenEffect.abort, KrakenEffect.cancelRetry, KrakenEffect.closeQueue] := rfl
  exact KrakenSession.legible_append htrace (by simp)

private theorem legible_connect (m : KrakenMarket) (now : ReceiveMonotonicTimestamp) :
    (m.connect now).toKrakenSession.Legible ↔ m.toKrakenSession.Legible := by
  have htrace : (m.connect now).trace = m.trace ++
      [KrakenEffect.connect (m.connection + 1)] := rfl
  exact KrakenSession.legible_append htrace (by simp)

private theorem legible_tick (limits : KrakenLimits) (m : KrakenMarket)
    (now : ReceiveMonotonicTimestamp) (fatal fatalLater requested : Bool) :
    (m.tick limits now fatal fatalLater requested).toKrakenSession.Legible ↔
      m.toKrakenSession.Legible := by
  have hforced (m : KrakenMarket) :
      (m.forceDisconnect limits now).toKrakenSession.Legible ↔ m.toKrakenSession.Legible := by
    unfold forceDisconnect
    split
    · exact legible_recover_fixed { m with forced := true } (by decide) false
    · rfl
  have htimeouts (m : KrakenMarket) :
      (m.checkTimeouts now).toKrakenSession.Legible ↔ m.toKrakenSession.Legible := by
    unfold checkTimeouts
    split
    · generalize (if m.firstRecord then m.connectedAt
        else m.processor.lastMessage.getD m.connectedAt) = last
      dsimp only
      split
      · exact m.legible_recover_fixed (by decide) true
      · split
        · exact m.legible_recover_fixed (by decide) false
        · rfl
    · rfl
  unfold tick
  dsimp only
  have hfatal : (if fatal then { m with processor := m.processor.invalidate }
      else m).toKrakenSession.Legible ↔ m.toKrakenSession.Legible := by
    cases fatal <;> rfl
  generalize (if fatal then { m with processor := m.processor.invalidate } else m) = m₁ at hfatal ⊢
  have hstop : (if requested || fatalLater || m₁.elapsed now limits.duration then m₁.stop
      else m₁).toKrakenSession.Legible ↔ m₁.toKrakenSession.Legible := by
    split
    · exact m₁.legible_stop
    · rfl
  generalize (if requested || fatalLater || m₁.elapsed now limits.duration then m₁.stop
    else m₁) = m₂ at hstop ⊢
  split
  · exact hstop.trans hfatal
  · exact (htimeouts _).trans ((hforced m₂).trans (hstop.trans hfatal))

private theorem isUtf8_failureReason (p : KrakenBookProcessor) :
    IsUtf8 (failureReason p) ↔ IsUtf8 p.error := by
  unfold failureReason
  split
  · next hnil =>
    have houtcome : IsUtf8 p.outcomeText := by
      unfold KrakenBookProcessor.outcomeText
      split
      · next outcome _ => cases outcome <;> decide +kernel
      · exact isUtf8_nil
    exact iff_of_true houtcome (hnil ▸ isUtf8_nil)
  · rfl

private theorem legible_finishMessage (m : KrakenMarket) (ok : Bool)
    (hok : ok = true → IsUtf8 m.processor.error) :
    (m.finishMessage ok).1.toKrakenSession.Legible ↔
      m.toKrakenSession.Legible ∧
        ¬(m.stopping = false ∧ m.recovering = false ∧ ¬IsUtf8 m.processor.error) := by
  unfold finishMessage
  split
  · rw [← isUtf8_failureReason m.processor]
    exact m.legible_recover (failureReason m.processor) false
  · next hfine =>
    have herror : IsUtf8 m.processor.error := hok (by simpa using hfine)
    have hnot : ¬(m.stopping = false ∧ m.recovering = false ∧ ¬IsUtf8 m.processor.error) :=
      fun h ↦ h.2.2 herror
    split <;> exact (and_iff_left hnot).symm

/-- The error of a message is the reason of the recovery behind it. -/
theorem legible_processed (crc : Bytes → UInt32) (m : KrakenMarket) (s : KrakenSession)
    (payload : Bytes) (wall : ReceiveWallTimestamp) (mono : ReceiveMonotonicTimestamp) :
    ((m.withSession (processed crc s payload wall mono).1).finishMessage
        (processed crc s payload wall mono).2).1.toKrakenSession.Legible ↔
      s.Legible ∧ ¬(s.stopping = false ∧ m.recovering = false ∧
        ¬Raises Legible (exactJson payload)) := by
  have htext := s.processor.isUtf8_process_iff crc payload wall mono
  have htrace : (processed crc s payload wall mono).1.trace = s.trace ++
      [KrakenEffect.processed s.index] := rfl
  rw [← htext, ← KrakenSession.legible_append htrace (by simp)]
  exact legible_finishMessage (m.withSession (processed crc s payload wall mono).1) _
    fun hok ↦ htext.mpr (KrakenBookProcessor.raises_of_process hok _)

private theorem legible_onMessage (crc : Bytes → UInt32) (m : KrakenMarket) (payload : Bytes)
    (wall : ReceiveWallTimestamp) (mono : ReceiveMonotonicTimestamp) (result : PushResult) :
    (m.onMessage crc payload wall mono result).1.toKrakenSession.Legible ↔
      m.toKrakenSession.Legible ∧ ¬m.Garbles (.message payload wall mono result) := by
  unfold onMessage
  split
  · next hs =>
    refine (and_iff_left fun hg ↦ ?_).symm
    rw [hg.1] at hs
    cases hs
  · dsimp only
    split
    · next hr =>
      have htrace := KrakenSession.refused_trace m.toKrakenSession
        (envelope m.toKrakenSession payload wall mono) result
      refine Iff.trans ?_ (and_iff_left fun hg ↦ hr hg.2.2.1).symm
      exact KrakenSession.legible_append htrace (by simp)
    · next hr =>
      rw [ne_eq, not_not] at hr
      subst hr
      have htrace := KrakenSession.opened_trace (pushed m.toKrakenSession
        (envelope m.toKrakenSession payload wall mono) .accepted)
      have hstopping : (opened (pushed m.toKrakenSession
          (envelope m.toKrakenSession payload wall mono) .accepted)).stopping = m.stopping := by
        unfold opened
        split <;> rfl
      refine (legible_processed crc _ _ payload wall mono).trans ?_
      refine and_congr (KrakenSession.legible_append htrace (by simp)) (not_congr ?_)
      rw [Garbles]
      exact and_congr (Eq.congr_left hstopping) (and_congr_right fun _ ↦ (and_iff_right rfl).symm)

/-- One action keeps the reasons UTF-8 unless it garbles one. -/
theorem legible_step (crc : Bytes → UInt32) (limits : KrakenLimits) (m : KrakenMarket)
    (action : Action) :
    (m.step crc limits action).toKrakenSession.Legible ↔
      m.toKrakenSession.Legible ∧ ¬m.Garbles action := by
  cases action with
  | connect now => exact (m.legible_connect now).trans (and_iff_left id).symm
  | stop => exact m.legible_stop.trans (and_iff_left id).symm
  | message payload wall mono result => exact m.legible_onMessage crc payload wall mono result
  | error reason => exact m.legible_recover reason false
  | connected now => exact (and_iff_left id).symm
  | retry now =>
    refine Iff.trans ?_ (and_iff_left id).symm
    show (m.onRetry now).toKrakenSession.Legible ↔ _
    unfold onRetry
    split
    · rfl
    · exact m.legible_connect now
  | tick now fatal fatalLater requested =>
    exact (m.legible_tick limits now fatal fatalLater requested).trans (and_iff_left id).symm

end KrakenMarket

/-- The reasons of `run_kraken`. -/
def krakenReasons (crc : Bytes → UInt32) (limits : KrakenLimits) :
    Reasons (krakenAccounts crc limits) where
  payload := KrakenMarket.Action.payload
  Garbles := KrakenMarket.Garbles
  answered := fun input result ↦ by cases input <;> rfl
  refuses := fun fatal requested input h ↦ by
    obtain ⟨error, -, rfl⟩ := Option.map_eq_some_iff.mp h
    rfl
  start := fun _ ↦ rfl
  failure := fun _ ↦ rfl
  tick := fun _ _ _ _ ↦ rfl
  handler := fun _ _ _ h ↦ by simp [krakenProgram] at h
  legible := fun m input _ _ ↦ by
    refine (KrakenSession.legible_ledger _).trans (Iff.trans ?_
      (and_congr_left' (KrakenSession.legible_ledger _).symm))
    exact m.legible_step crc limits input

end ArbitrageEngine.Pipeline
