import ArbitrageEngine.Base.Bytes
import Mathlib.Algebra.Group.Int.Defs
import Mathlib.Algebra.Group.Nat.Defs

/-!
# Computations with undefined steps

A computation that throws, or that does something the language leaves undefined: it reads past
the end of a sequence or computes a signed value that its type cannot hold.
-/

namespace Base

/-- A computation that may throw; `none` is an undefined step. -/
abbrev Checked (α : Type) := ExceptT Failure Option α

namespace Checked

variable {α β : Type}

/-- Reading one element of a sequence. -/
def read (items : List α) (i : Nat) : Checked α := ExceptT.mk (items[i]?.map .ok)

/-- The values of a signed type of a width. -/
def Representable (bits : Nat) (n : Int) : Prop := -2 ^ (bits - 1) ≤ n ∧ n < 2 ^ (bits - 1)

instance (bits : Nat) (n : Int) : Decidable (Representable bits n) :=
  inferInstanceAs (Decidable (_ ∧ _))

/-- The range of a signed integer of 32 bits. -/
theorem representable_32 (n : Int) :
    Representable 32 n ↔ -2147483648 ≤ n ∧ n ≤ 2147483647 := by
  unfold Representable
  omega

/-- The range of a signed integer of 64 bits. -/
theorem representable_64 (n : Int) :
    Representable 64 n ↔ -9223372036854775808 ≤ n ∧ n ≤ 9223372036854775807 := by
  unfold Representable
  omega

/-- Computing a value in a signed type of a width. -/
def computes (bits : Nat) (n : Int) : Checked Unit :=
  ExceptT.mk (if Representable bits n then some (.ok ()) else none)

/-- No step is undefined, and the outcome is the given one. -/
def Defined (x : Checked α) (y : Except Failure α) : Prop := x.run = some y

/-- A value is defined. -/
theorem defined_pure (a : α) : Defined (pure a) (.ok a) := rfl

/-- A failure is defined. -/
theorem defined_throw (failure : Failure) : Defined (throw failure : Checked α) (.error failure) :=
  rfl

/-- A sequence is defined if its parts are, the second one only for the results of the first. -/
theorem Defined.bind {x : Checked α} {y : Except Failure α} {f : α → Checked β}
    {g : α → Except Failure β} (hx : Defined x y) (hf : ∀ a, y = .ok a → Defined (f a) (g a)) :
    Defined (x >>= f) (y >>= g) := by
  unfold Defined at hx ⊢
  rw [ExceptT.run_bind, hx]
  cases y with
  | error failure => rfl
  | ok a => exact hf a rfl

/-- A sequence whose first part has a known result. -/
theorem Defined.bind_ok {x : Checked α} {a : α} {f : α → Checked β} {y : Except Failure β}
    (hx : Defined x (.ok a)) (hf : Defined (f a) y) : Defined (x >>= f) y := by
  unfold Defined at hx hf ⊢
  rw [ExceptT.run_bind, hx]
  exact hf

/-- A read within the bounds of a list. -/
theorem Defined.read_bind {items : List α} {i : Nat} {a : α} {f : α → Checked β}
    {y : Except Failure β} (hi : items[i]? = some a) (hf : Defined (f a) y) :
    Defined (read items i >>= f) y := by
  unfold Defined at hf ⊢
  rw [ExceptT.run_bind, read, ExceptT.run_mk, hi]
  exact hf

/-- An integer that fits its type. -/
theorem Defined.computes_bind {bits : Nat} {n : Int} {f : Unit → Checked β}
    {y : Except Failure β} (hn : Representable bits n) (hf : Defined (f ()) y) :
    Defined (computes bits n >>= f) y := by
  unfold Defined at hf ⊢
  rw [ExceptT.run_bind, computes, ExceptT.run_mk, if_pos hn]
  exact hf

/-- A test; only the branch that is taken has to be defined. -/
theorem Defined.ite {c d : Prop} [Decidable c] [Decidable d] {x₁ x₂ : Checked α}
    {y₁ y₂ : Except Failure α} (hcd : c ↔ d) (h₁ : c → Defined x₁ y₁) (h₂ : ¬c → Defined x₂ y₂) :
    Defined (if c then x₁ else x₂) (if d then y₁ else y₂) := by
  by_cases hc : c
  · rw [if_pos hc, if_pos (hcd.mp hc)]
    exact h₁ hc
  · rw [if_neg hc, if_neg (fun hd ↦ hc (hcd.mpr hd))]
    exact h₂ hc

end Checked

end Base
