import ArbitrageEngine.Base.Weave
import ArbitrageEngine.Coinbase.ConnectionManager

/-!
# The session manifest

`src/session/session.cpp`: the parts of the manifest that replay reads back, and the
validation of its lifecycle events.
-/

namespace ArbitrageEngine.Sessions

open Base ArbitrageEngine.Core Coinbase Recording

/-- `SessionStatus`, the values of the manifest's `status` (`include/session/session.hpp:5–12`). -/
inductive SessionStatus
  | inProgress
  | complete
  | recordingFailure
  | queueOverflow
  | processingFailure
  | interrupted
  deriving DecidableEq, Repr

/-- `book_name` (`src/session/session.cpp:87–103`). -/
def bookName : BookState → Bytes
  | .initializing => ascii "INITIALIZING"
  | .valid => ascii "VALID"
  | .stale => ascii "STALE"
  | .resyncing => ascii "RESYNCING"
  | .disconnected => ascii "DISCONNECTED"
  | .invalid => ascii "INVALID"

/-- An element of the manifest's `lifecycle_events` (`src/session/session.cpp:208–210`). -/
structure LifecycleEntry where
  beforeRecordIndex : Nat
  state : Bytes
  reason : Bytes
  deriving DecidableEq, Repr

/-- What `Capture::finalize` writes for a lifecycle event (`src/session/session.cpp:207–210`). -/
def LifecycleEntry.ofEvent (event : LifecycleEvent) : LifecycleEntry :=
  ⟨event.beforeRecordIndex, bookName event.state, event.reason⟩

/-- The state names that the validation accepts (`src/session/session.cpp:345–346`). -/
def lifecycleStates : List Bytes :=
  [ascii "DISCONNECTED", ascii "RESYNCING", ascii "INITIALIZING", ascii "STALE", ascii "INVALID"]

/-- The validation loop over the lifecycle events, after an event at index `last`
(`src/session/session.cpp:340–352`). -/
def validateLifecycle (complete : Bool) (records : Nat) (last : Nat) :
    List LifecycleEntry → Except Failure Unit
  | [] => .ok ()
  | event :: rest =>
    if event.beforeRecordIndex < last ∨ (complete ∧ records < event.beforeRecordIndex) ∨
        event.state ∉ lifecycleStates then
      runtimeError "invalid lifecycle event"
    else validateLifecycle complete records event.beforeRecordIndex rest

/-- An element of `state_transitions` (`src/session/session.cpp:362–365,469–472`). -/
structure StateTransition where
  recordIndex : Nat
  old : BookState
  new : BookState
  reason : Bytes
  deriving DecidableEq, Repr

/-- Every state but Valid is one of a lifecycle event. -/
theorem bookName_mem {state : BookState} (h : state ≠ .valid) :
    bookName state ∈ lifecycleStates := by
  cases state with
  | valid => exact absurd rfl h
  | initializing | stale | resyncing | disconnected | invalid => decide

/-- Events in order, within the records and with known names are valid. -/
theorem validateLifecycle_of_ordered {complete : Bool} {records last : Nat}
    {lifecycle : List LifecycleEntry}
    (ho : lifecycle.Pairwise fun a b ↦ a.beforeRecordIndex ≤ b.beforeRecordIndex)
    (hl : ∀ event ∈ lifecycle, last ≤ event.beforeRecordIndex)
    (hr : ∀ event ∈ lifecycle, event.beforeRecordIndex ≤ records)
    (hn : ∀ event ∈ lifecycle, event.state ∈ lifecycleStates) :
    validateLifecycle complete records last lifecycle = .ok () := by
  induction lifecycle generalizing last with
  | nil => rfl
  | cons event rest ih =>
    obtain ⟨hfirst, hrest⟩ := List.pairwise_cons.mp ho
    have hlast := hl event List.mem_cons_self
    have hcount := hr event List.mem_cons_self
    have hname := hn event List.mem_cons_self
    have hok : ¬(event.beforeRecordIndex < last ∨
        (complete = true ∧ records < event.beforeRecordIndex) ∨
        event.state ∉ lifecycleStates) := by
      rintro (h | ⟨-, h⟩ | h)
      · omega
      · omega
      · exact h hname
    rw [validateLifecycle, if_neg hok]
    exact ih hrest hfirst (fun other ho ↦ hr other (List.mem_cons_of_mem _ ho))
      fun other ho ↦ hn other (List.mem_cons_of_mem _ ho)

/-- Events that are filed under the number of records before them are valid. -/
theorem validateLifecycle_of_filed {σ φ : Type} {loop : Weave.Loop σ LifecycleEntry RawMessage φ}
    {history : List (LifecycleEntry ⊕ RawMessage)}
    (hp : loop.position = LifecycleEntry.beforeRecordIndex) (h : loop.Filed 0 history)
    (hn : ∀ event ∈ Weave.events history, event.state ∈ lifecycleStates) :
    validateLifecycle true (Weave.records history).length 0 (Weave.events history) = .ok () := by
  have ho := Weave.pairwise_position_of_filed h
  have hle := Weave.position_le_of_filed h
  rw [hp] at ho hle
  refine validateLifecycle_of_ordered ho (fun _ _ ↦ Nat.zero_le _) ?_ hn
  intro event he
  have hposition := hle event he
  rwa [Nat.zero_add] at hposition

end ArbitrageEngine.Sessions
