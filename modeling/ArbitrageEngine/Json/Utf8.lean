import ArbitrageEngine.Json.Lexer
import Mathlib.Data.List.Basic

/-!
# UTF-8 texts

The byte ranges of the scanner as an automaton over bytes: a state is what the current
character still misses. The scanner's strings and the serializer's strings are both
compared with it.
-/

namespace Json

open Base

/-- The ranges of the bytes that the current character still misses. -/
abbrev Pending := List (UInt8 × UInt8)

/-- Read one byte: the start of a character, or the next byte of the current one. -/
def utf8Step : Pending → UInt8 → Option Pending
  | [], c => if c < 0x80 then some [] else continuationRanges c
  | (low, high) :: ranges, c => if low ≤ c && c ≤ high then some ranges else none

/-- Read a text from a state. -/
def utf8Run (pending : Pending) (text : Bytes) : Option Pending := text.foldlM utf8Step pending

/-- A text of whole characters. -/
def IsUtf8 (text : Bytes) : Prop := utf8Run [] text = some []

instance (text : Bytes) : Decidable (IsUtf8 text) :=
  inferInstanceAs (Decidable (utf8Run [] text = some []))

/-- The decoder at the end of a text. -/
@[simp]
theorem utf8Run_nil (pending : Pending) : utf8Run pending [] = some pending := rfl

/-- The decoder takes one byte. -/
theorem utf8Run_cons (pending : Pending) (c : UInt8) (text : Bytes) :
    utf8Run pending (c :: text) = (utf8Step pending c).bind fun next ↦ utf8Run next text := rfl

/-- The decoder goes on behind a first part. -/
theorem utf8Run_append (pending : Pending) (a b : Bytes) :
    utf8Run pending (a ++ b) = (utf8Run pending a).bind fun next ↦ utf8Run next b := by
  unfold utf8Run
  rw [List.foldlM_append]
  rfl

/-- A byte of ASCII stands alone. -/
theorem utf8Step_ascii {c : UInt8} (h : c < 0x80) : utf8Step [] c = some [] := if_pos h

/-- Another byte leads a sequence. -/
theorem utf8Step_lead {c : UInt8} (h : ¬c < 0x80) : utf8Step [] c = continuationRanges c := if_neg h

/-- A fact about every byte is a fact about 256 numbers. -/
theorem forall_byte {P : UInt8 → Prop} : (∀ n < 256, P (UInt8.ofNat n)) ↔ ∀ c, P c := by
  constructor
  · intro h c
    have hc := h c.toNat c.toNat_lt
    rw [UInt8.ofNat_toNat] at hc
    exact hc
  · intro h n _
    exact h (UInt8.ofNat n)

instance decidableForallByte {P : UInt8 → Prop} [DecidablePred P] : Decidable (∀ c, P c) :=
  decidable_of_iff _ forall_byte

/-- The first byte of a longer character stands for nothing else. -/
theorem continuationRanges_lead : ∀ c : UInt8, (continuationRanges c).isSome = true →
    c ≠ 0x22 ∧ c ≠ 0x5C ∧ ¬c < 0x20 ∧ ¬c ≤ 0x7F := by
  decide +kernel

/-- The other bytes of a longer character are no ASCII either. -/
theorem continuationRanges_low {c : UInt8} {ranges : Pending}
    (h : continuationRanges c = some ranges) : ∀ range ∈ ranges, (0x80 : UInt8) ≤ range.1 := by
  have hall : ∀ c : UInt8, ∀ ranges ∈ continuationRanges c,
      ranges.all (fun range ↦ decide ((0x80 : UInt8) ≤ range.1)) = true := by
    decide +kernel
  intro range hr
  simpa using List.all_eq_true.mp (hall c ranges h) range hr

/-- The empty text is UTF-8. -/
theorem isUtf8_nil : IsUtf8 [] := rfl

/-- Two texts in UTF-8, one behind the other. -/
theorem IsUtf8.append {a b : Bytes} (ha : IsUtf8 a) (hb : IsUtf8 b) : IsUtf8 (a ++ b) := by
  show utf8Run [] (a ++ b) = some []
  rw [utf8Run_append, ha]
  exact hb

/-- Bytes below `0x80` are characters of their own. -/
theorem isUtf8_of_ascii {text : Bytes} (h : ∀ c ∈ text, c < 0x80) : IsUtf8 text := by
  induction text with
  | nil => exact isUtf8_nil
  | cons c text ih =>
    show utf8Run [] (c :: text) = some []
    rw [utf8Run_cons, utf8Step_ascii (h c List.mem_cons_self)]
    exact ih fun d hd ↦ h d (List.mem_cons_of_mem c hd)

/-- A text that completes a character begins with the missing bytes. -/
theorem exists_append_of_run {ranges : Pending} {text : Bytes}
    (h : utf8Run ranges text = some []) :
    ∃ missing rest, text = missing ++ rest ∧
      List.Forall₂ (fun range c ↦ range.1 ≤ c ∧ c ≤ range.2) ranges missing ∧ IsUtf8 rest := by
  induction ranges generalizing text with
  | nil => exact ⟨[], text, rfl, .nil, h⟩
  | cons range ranges ih =>
    obtain ⟨low, high⟩ := range
    cases text with
    | nil => cases h
    | cons c text =>
      rw [utf8Run_cons, utf8Step] at h
      by_cases hc : (low ≤ c && c ≤ high) = true
      · rw [if_pos hc] at h
        obtain ⟨missing, rest, ht, hm, hr⟩ := ih h
        rw [Bool.and_eq_true, decide_eq_true_eq, decide_eq_true_eq] at hc
        exact ⟨c :: missing, rest, by rw [ht, List.cons_append], .cons hc hm, hr⟩
      · rw [if_neg hc] at h
        cases h

/-- `next_byte_in_range` reads the missing bytes. -/
theorem nextByteInRange_append {ranges : Pending} {missing : Bytes}
    (h : List.Forall₂ (fun range c ↦ range.1 ≤ c ∧ c ≤ range.2) ranges missing)
    (buffer rest : Bytes) :
    nextByteInRange ranges buffer (missing ++ rest) = .ok (buffer ++ missing, rest) := by
  induction h generalizing buffer with
  | nil => simp [nextByteInRange]
  | @cons range c ranges missing hc _ ih =>
    have hin : (decide (range.1 ≤ c) && decide (c ≤ range.2)) = true := by
      rw [decide_eq_true hc.1, decide_eq_true hc.2]
      rfl
    rw [List.cons_append, nextByteInRange, if_pos hin, ih, List.append_assoc]
    rfl

end Json
