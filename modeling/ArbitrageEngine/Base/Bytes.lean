import Mathlib.Data.List.Basic

/-!
# Byte strings and exceptions

A `std::string` is the list of its bytes; nothing below assumes that they are text.
Fallible C++ functions are `Except Failure`: a failure keeps the dynamic class of the
exception, which handlers select on, and its `what()`.
-/

namespace Base

/-- The bytes of a `std::string`. -/
abbrev Bytes := List UInt8

instance lawfulBEqBytes : LawfulBEq Bytes := inferInstanceAs (LawfulBEq (List UInt8))

/-- The bytes of a string literal. -/
def ascii (text : String) : Bytes := text.toUTF8.data.toList

/-- `std::to_string` of an unsigned value. -/
def decimal (n : Nat) : Bytes := ascii (toString n)

/-- `'0' <= c && c <= '9'`. -/
def isDigit (c : UInt8) : Bool := 0x30 ≤ c && c ≤ 0x39

/-- The value `c - '0'` of a digit. -/
def digit (c : UInt8) : Nat := c.toNat - 0x30

/-- The value of a digit string, most significant digit first. -/
def digitsValue (digits : Bytes) : Nat := digits.foldl (fun value c ↦ value * 10 + digit c) 0

/-- The codes of the digits. -/
theorem toNat_of_isDigit {c : UInt8} (h : isDigit c = true) : 0x30 ≤ c.toNat ∧ c.toNat ≤ 0x39 := by
  simp only [isDigit, Bool.and_eq_true, decide_eq_true_eq] at h
  exact h

/-- The exception classes that the modelled code throws. -/
inductive ExceptionClass
  | jsonException
  | invalidArgument
  | outOfRange
  | overflowError
  | runtimeError
  deriving DecidableEq, Repr

/-- A thrown exception: its class and its `what()`. -/
structure Failure where
  kind : ExceptionClass
  what : Bytes
  deriving DecidableEq, Repr

/-- An exception other than a plain `std::runtime_error`, with a text. -/
def Failure.Specific (failure : Failure) : Prop :=
  failure.kind ≠ .runtimeError ∧ failure.what ≠ []

instance (failure : Failure) : Decidable failure.Specific :=
  inferInstanceAs (Decidable (failure.kind ≠ .runtimeError ∧ failure.what ≠ []))

/-- A text of bytes below `0x80`. -/
def isAscii (text : Bytes) : Bool := text.all (· < 0x80)

/-- A specific exception with an ASCII text. -/
def Failure.Plain (failure : Failure) : Prop := failure.Specific ∧ isAscii failure.what = true

instance (failure : Failure) : Decidable failure.Plain := inferInstanceAs (Decidable (_ ∧ _))

/-- `throw std::invalid_argument(text)`. -/
def invalidArgument {α : Type} (text : String) : Except Failure α :=
  .error ⟨.invalidArgument, ascii text⟩

/-- `throw std::runtime_error(text)`. -/
def runtimeError {α : Type} (text : String) : Except Failure α :=
  .error ⟨.runtimeError, ascii text⟩

/-! ### What a computation can throw -/

section Raises

variable {α β : Type} {P : Failure → Prop}

/-- Every exception of the computation satisfies `P`. -/
def Raises (P : Failure → Prop) (x : Except Failure α) : Prop :=
  ∀ failure, x = .error failure → P failure

/-- A weaker predicate holds of the failure as well. -/
theorem Raises.mono {Q : Failure → Prop} {x : Except Failure α} (h : Raises P x)
    (hq : ∀ failure, P failure → Q failure) : Raises Q x :=
  fun failure hx ↦ hq failure (h failure hx)

/-- A result is no failure. -/
theorem raises_ok (a : α) : Raises P (.ok a : Except Failure α) := by
  intro failure h
  cases h

/-- A failure with the predicate. -/
theorem raises_error {failure : Failure} (h : P failure) :
    Raises P (.error failure : Except Failure α) := by
  intro other ho
  cases ho
  exact h

instance [DecidablePred P] (x : Except Failure α) : Decidable (Raises P x) :=
  match x with
  | .ok a => isTrue (raises_ok a)
  | .error failure => decidable_of_iff (P failure) ⟨raises_error, fun h ↦ h failure rfl⟩

/-- A failure of a sequence is one of its first part or one of its second. -/
theorem raises_bind {x : Except Failure α} {f : α → Except Failure β} (hx : Raises P x)
    (hf : ∀ a, Raises P (f a)) : Raises P (x >>= f) := by
  cases x with
  | error failure => exact raises_error (hx failure rfl)
  | ok a => exact hf a

/-- Both branches of a test. -/
theorem raises_ite {c : Prop} [Decidable c] {x y : Except Failure α} (hx : Raises P x)
    (hy : Raises P y) : Raises P (if c then x else y) := by
  split
  · exact hx
  · exact hy

/-- A loop over the items of a list. -/
theorem raises_foldlM {f : β → α → Except Failure β} (hf : ∀ b a, Raises P (f b a))
    (items : List α) (b : β) : Raises P (items.foldlM f b) := by
  induction items generalizing b with
  | nil => exact raises_ok b
  | cons item rest ih =>
    rw [List.foldlM_cons]
    exact raises_bind (hf b item) ih

/-- A map over the items of a list. -/
theorem raises_mapM {f : α → Except Failure β} (hf : ∀ a, Raises P (f a)) (items : List α) :
    Raises P (items.mapM f) := by
  induction items with
  | nil => exact raises_ok []
  | cons item rest ih =>
    rw [List.mapM_cons]
    exact raises_bind (hf item) fun b ↦ raises_bind ih fun bs ↦ raises_ok (b :: bs)

/-- The failure of a rejected argument. -/
theorem raises_invalidArgument {text : String} (h : P ⟨.invalidArgument, ascii text⟩) :
    Raises P (invalidArgument text : Except Failure α) :=
  raises_error h

end Raises

/-- A successful sequence of computations succeeds in both. -/
theorem bind_ok {α β : Type} {x : Except Failure α} {f : α → Except Failure β} {b : β}
    (h : (x >>= f) = .ok b) : ∃ a, x = .ok a ∧ f a = .ok b := by
  cases x with
  | error failure => cases h
  | ok a => exact ⟨a, rfl, h⟩

/-- A computation that succeeds has passed the check it begins with. -/
theorem check_ok {β : Type} {c : Prop} [Decidable c] {failure : Failure}
    {f : Unit → Except Failure β} {b : β}
    (h : (if c then Except.error failure >>= f else f ()) = .ok b) : ¬c ∧ f () = .ok b := by
  by_cases hc : c
  · rw [if_pos hc] at h
    cases h
  · rw [if_neg hc] at h
    exact ⟨hc, h⟩

/-- What is not a failure has a result. -/
theorem exists_ok_of_isOk {α φ : Type} {x : Except φ α} (h : x.isOk = true) :
    ∃ a, x = .ok a := by
  cases x with
  | error failure => cases h
  | ok a => exact ⟨a, rfl⟩

/-- A computation that succeeds has a result with what holds of its results. -/
theorem exists_ok_and {α φ : Type} {x : Except φ α} {P : α → Prop} (h : x.isOk = true)
    (hp : ∀ a, x = .ok a → P a) : ∃ a, x = .ok a ∧ P a := by
  obtain ⟨a, ha⟩ := exists_ok_of_isOk h
  exact ⟨a, ha, hp a ha⟩

end Base
