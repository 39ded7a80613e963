import Mathlib.Data.Nat.Basic

/-!
# Envelope sequence tracking

`src/core/sequence_tracker.cpp`. Sequence numbers are `uint64`; the only subtraction is
taken when it does not wrap.
-/

namespace ArbitrageEngine.Core

/-- `core::SequenceResult` (`include/core/sequence_tracker.hpp:5`). -/
inductive SequenceResult
  | first
  | expected
  | duplicate
  | outOfOrder
  | gap
  deriving DecidableEq, Repr

/-- `core::SequenceTracker` (`include/core/sequence_tracker.hpp:6–14`). -/
@[ext]
structure SequenceTracker where
  last : Option Nat
  deriving DecidableEq, Repr

namespace SequenceTracker

/-- The state of a new tracker, and of one after `reset` (`include/core/sequence_tracker.hpp:9`). -/
def empty : SequenceTracker := ⟨none⟩

/-- `observe` (`src/core/sequence_tracker.cpp:3–16`). -/
def observe (tracker : SequenceTracker) (sequence : Nat) : SequenceTracker × SequenceResult :=
  match tracker.last with
  | none => (⟨some sequence⟩, .first)
  | some last =>
    if sequence = last then (tracker, .duplicate)
    else if sequence < last then (tracker, .outOfOrder)
    else if sequence - last ≠ 1 then (tracker, .gap)
    else (⟨some sequence⟩, .expected)

/-- The five answers of `observe` and the tracker each of them leaves. -/
inductive Observed (tracker : SequenceTracker) (sequence : Nat) :
    SequenceTracker × SequenceResult → Prop
  | first (h : tracker.last = none) : Observed tracker sequence (⟨some sequence⟩, .first)
  | expected (last : Nat) (h : tracker.last = some last) (hs : sequence = last + 1) :
      Observed tracker sequence (⟨some sequence⟩, .expected)
  | duplicate (h : tracker.last = some sequence) : Observed tracker sequence (tracker, .duplicate)
  | outOfOrder (last : Nat) (h : tracker.last = some last) (hs : sequence < last) :
      Observed tracker sequence (tracker, .outOfOrder)
  | gap (last : Nat) (h : tracker.last = some last) (hs : last + 1 < sequence) :
      Observed tracker sequence (tracker, .gap)

/-- What `observe` returns, by the last number and the new one. -/
theorem observe_observed (tracker : SequenceTracker) (sequence : Nat) :
    Observed tracker sequence (tracker.observe sequence) := by
  unfold observe
  cases hl : tracker.last with
  | none => exact .first hl
  | some last =>
    dsimp only
    by_cases heq : sequence = last
    · rw [if_pos heq]
      exact .duplicate (heq ▸ hl)
    by_cases hlt : sequence < last
    · rw [if_neg heq, if_pos hlt]
      exact .outOfOrder last hl hlt
    by_cases hgap : sequence - last ≠ 1
    · rw [if_neg heq, if_neg hlt, if_pos hgap]
      exact .gap last hl (by omega)
    · rw [if_neg heq, if_neg hlt, if_neg hgap]
      exact .expected last hl (by omega)

end SequenceTracker

end ArbitrageEngine.Core
