import ArbitrageEngine.Json.Dump
import ArbitrageEngine.Json.Parser
import ArbitrageEngine.Base.Decimal

/-!
# Reading back what was written

`json::parse` of the text of `json::dump`, compact or pretty, gives the value back: every
string as it was, every object with its fields, and every number with its value, where a
nonnegative integer comes back unsigned.
-/

namespace Json

open Base

/-! ### Strings -/

private theorem hexValue_lowerHexDigit : ∀ n < 16, hexValue (lowerHexDigit n) = some n := by
  decide

private theorem unicodeEscape_control {codepoint : Nat} (h : codepoint ≤ 0x1F) (rest : Bytes) :
    unicodeEscape (0x30 :: 0x30 :: lowerHexDigit (codepoint / 16) ::
      lowerHexDigit (codepoint % 16) :: rest) = .ok (codepoint, rest) := by
  have hvalue : ((0 * 16 + 0) * 16 + 0) * 16 + codepoint / 16 = codepoint / 16 := by omega
  have hcode : codepoint / 16 * 16 + codepoint % 16 = codepoint := by omega
  have hget : getCodepoint 4 0 (0x30 :: 0x30 :: lowerHexDigit (codepoint / 16) ::
      lowerHexDigit (codepoint % 16) :: rest) = .ok (codepoint, rest) := by
    have hzero : hexValue 0x30 = some 0 := rfl
    simp only [getCodepoint, hzero, hexValue_lowerHexDigit (codepoint / 16) (by omega),
      hexValue_lowerHexDigit (codepoint % 16) (by omega), hvalue, hcode]
  have hhigh : (decide (0xD800 ≤ codepoint) && decide (codepoint ≤ 0xDBFF)) = false := by
    rw [decide_eq_false (by omega), Bool.false_and]
  have hlow : (decide (0xDC00 ≤ codepoint) && decide (codepoint ≤ 0xDFFF)) = false := by
    rw [decide_eq_false (by omega), Bool.false_and]
  unfold unicodeEscape
  rw [hget]
  simp only [hhigh, hlow, Bool.false_eq_true, if_false]

private theorem escapeCodepoint_bytes (codepoint : Nat) (byte : UInt8) :
    escapeCodepoint codepoint byte =
      if codepoint = 0x08 then [0x5C, 0x62]
      else if codepoint = 0x09 then [0x5C, 0x74]
      else if codepoint = 0x0A then [0x5C, 0x6E]
      else if codepoint = 0x0C then [0x5C, 0x66]
      else if codepoint = 0x0D then [0x5C, 0x72]
      else if codepoint = 0x22 then [0x5C, 0x22]
      else if codepoint = 0x5C then [0x5C, 0x5C]
      else if codepoint ≤ 0x1F then
        0x5C :: 0x75 :: 0x30 :: 0x30 ::
          [lowerHexDigit (codepoint / 16), lowerHexDigit (codepoint % 16)]
      else [byte] := by
  rfl

/-- How an ASCII character is written: a letter escape, a numeric escape, or as it is. -/
private theorem escapeByte_cases {c : UInt8} (hc : c < 0x80) :
    (∃ e, escapeByte c = [0x5C, e] ∧ simpleEscape e = some c) ∨
    (c.toNat ≤ 0x1F ∧ escapeByte c = 0x5C :: 0x75 :: 0x30 :: 0x30 ::
      [lowerHexDigit (c.toNat / 16), lowerHexDigit (c.toNat % 16)]) ∨
    (escapeByte c = [c] ∧ c ≠ 0x22 ∧ c ≠ 0x5C ∧ ¬c < 0x20) := by
  have hof {b : UInt8} (h : c.toNat = b.toNat) : b = c := (UInt8.toNat.inj h).symm
  rw [escapeByte, if_pos hc, escapeCodepoint_bytes]
  split
  · next h => exact .inl ⟨_, rfl, congrArg some (hof (b := 0x08) h)⟩
  split
  · next h => exact .inl ⟨_, rfl, congrArg some (hof (b := 0x09) h)⟩
  split
  · next h => exact .inl ⟨_, rfl, congrArg some (hof (b := 0x0A) h)⟩
  split
  · next h => exact .inl ⟨_, rfl, congrArg some (hof (b := 0x0C) h)⟩
  split
  · next h => exact .inl ⟨_, rfl, congrArg some (hof (b := 0x0D) h)⟩
  split
  · next h => exact .inl ⟨_, rfl, congrArg some (hof (b := 0x22) h)⟩
  split
  · next h => exact .inl ⟨_, rfl, congrArg some (hof (b := 0x5C) h)⟩
  split
  · next h => exact .inr (.inl ⟨h, rfl⟩)
  · next hquote hslash hcontrol =>
    refine .inr (.inr ⟨rfl, ?_, ?_, ?_⟩)
    · rintro rfl
      exact hquote rfl
    · rintro rfl
      exact hslash rfl
    · intro hlt
      exact hcontrol (Nat.le_of_lt_succ hlt)

private theorem encodeCodepoint_ascii {c : UInt8} (h : c < 0x80) :
    encodeCodepoint c.toNat = [c] := by
  have hlt : c.toNat < 0x80 := h
  rw [encodeCodepoint, if_pos hlt, UInt8.ofNat_toNat]

/-- The scanner takes one written ASCII character off. -/
private theorem scanString_escapeByte {c : UInt8} (hc : c < 0x80) (fuel : Nat)
    (buffer rest : Bytes) :
    scanString (fuel + 1) buffer (escapeByte c ++ rest) = scanString fuel (buffer ++ [c]) rest := by
  have hquote : ¬(0x5C : UInt8) = 0x22 := by decide
  rcases escapeByte_cases hc with ⟨e, hbytes, he⟩ | ⟨hsmall, hbytes⟩ | ⟨hbytes, hq, hs, hspace⟩
  · rw [hbytes]
    simp only [List.cons_append, List.nil_append, scanString, if_neg hquote, if_true, he]
  · have hu : simpleEscape 0x75 = none := rfl
    rw [hbytes]
    simp only [List.cons_append, List.nil_append, scanString, if_neg hquote, if_true, hu,
      unicodeEscape_control hsmall rest, encodeCodepoint_ascii hc]
  · have hle : c ≤ 0x7F := Nat.le_of_lt_succ hc
    rw [hbytes]
    simp only [List.cons_append, List.nil_append, scanString, if_neg hq, if_neg hs, if_neg hspace,
      if_pos hle]

private theorem escapeByte_of_wide {c : UInt8} (h : ¬c < 0x80) : escapeByte c = [c] := if_neg h

private theorem escapeByte_continuation {ranges : Pending} {missing : Bytes}
    (hr : ∀ range ∈ ranges, (0x80 : UInt8) ≤ range.1)
    (h : List.Forall₂ (fun range c ↦ range.1 ≤ c ∧ c ≤ range.2) ranges missing) :
    missing.flatMap escapeByte = missing := by
  induction h with
  | nil => rfl
  | @cons range c ranges missing hc _ ih =>
    have hwide : ¬c < 0x80 := Nat.not_lt.mpr (Nat.le_trans (hr range List.mem_cons_self) hc.1)
    rw [List.flatMap_cons, escapeByte_of_wide hwide,
      ih fun other ho ↦ hr other (List.mem_cons_of_mem _ ho)]
    rfl

/-- The scanner reads a written string back. -/
theorem scanString_escaped {text : Bytes} (h : IsUtf8 text) {fuel : Nat}
    (hf : (text.flatMap escapeByte).length < fuel) (buffer rest : Bytes) :
    scanString fuel buffer (text.flatMap escapeByte ++ 0x22 :: rest) =
      ⟨.valueString (buffer ++ text), rest, false⟩ := by
  -- Induction on the characters: one turn of the scanner reads all bytes of one.
  induction hlen : text.length using Nat.strong_induction_on generalizing text fuel buffer with
  | h length ih =>
    obtain ⟨fuel, rfl⟩ : ∃ n, fuel = n + 1 := ⟨fuel - 1, by omega⟩
    cases text with
    | nil => simp [scanString]
    | cons c text =>
      rw [List.flatMap_cons, List.length_append] at hf
      rw [List.length_cons] at hlen
      replace h : utf8Run [] (c :: text) = some [] := h
      rw [utf8Run_cons] at h
      by_cases hc : c < 0x80
      · rw [utf8Step_ascii hc] at h
        have hpos : 0 < (escapeByte c).length := by
          rcases escapeByte_cases hc with ⟨e, hb, _⟩ | ⟨_, hb⟩ | ⟨hb, _⟩ <;> simp [hb]
        rw [List.flatMap_cons, List.append_assoc, scanString_escapeByte hc,
          ih text.length (by omega) h (by omega) _ rfl, List.append_assoc]
        rfl
      · rw [utf8Step_lead hc] at h
        cases hr : continuationRanges c with
        | none =>
          rw [hr] at h
          cases h
        | some ranges =>
          rw [hr] at h
          obtain ⟨missing, tail, rfl, hm, htail⟩ := exists_append_of_run h
          obtain ⟨hq, hs, hspace, hle⟩ := continuationRanges_lead c (by rw [hr]; rfl)
          have hplain := escapeByte_continuation (continuationRanges_low hr) hm
          rw [List.flatMap_append, hplain, escapeByte_of_wide hc, List.length_append,
            List.length_singleton] at hf
          rw [List.length_append] at hlen
          rw [List.flatMap_cons, List.flatMap_append, hplain, escapeByte_of_wide hc]
          simp only [List.cons_append, List.nil_append, List.append_assoc, scanString, if_neg hq,
            if_neg hs, if_neg hspace, if_neg hle, hr, nextByteInRange_append hm]
          rw [ih tail.length (by omega) htail (by omega) _ rfl]
          simp

/-! ### Tokens -/

section Tokens

/-- The next token and what is then unread. -/
def Scans (cursor : Cursor) (token : Token) (rest : Bytes) : Prop :=
  cursor.scan.1 = token ∧ cursor.scan.2.rest = rest

/-- Whitespace. -/
def Blank (space : Bytes) : Prop := ∀ c ∈ space, Cursor.isSpace c = true

/-- No byte of a number may follow. -/
def Ends (rest : Bytes) : Prop :=
  ∀ c ∈ rest.head?, isDigit c = false ∧ c ≠ 0x2E ∧ c ≠ 0x65 ∧ c ≠ 0x45

/-- No bytes at all are blank. -/
theorem blank_nil : Blank [] := by
  intro c hc
  cases hc

private theorem ends_nil : Ends [] := by
  intro c hc
  cases hc

private theorem isSpace_facts : ∀ c : UInt8, Cursor.isSpace c = true →
    c ≠ 0xEF ∧ isDigit c = false ∧ c ≠ 0x2E ∧ c ≠ 0x65 ∧ c ≠ 0x45 := by
  decide +kernel

/-- Whitespace and what may follow a value. -/
theorem Blank.ends {space rest : Bytes} (hs : Blank space) (hr : Ends rest) :
    Ends (space ++ rest) := by
  cases space with
  | nil => exact hr
  | cons c space =>
    rintro d hd
    cases hd
    exact (isSpace_facts c (hs c List.mem_cons_self)).2

variable {cursor : Cursor} {space rest : Bytes}

private theorem skipBom_of_ne {c : UInt8} {tail : Bytes} (h : cursor.rest = c :: tail)
    (hb : c ≠ 0xEF) : cursor.skipBom = .ok cursor := by
  unfold Cursor.skipBom
  rw [h]
  have hcond : (decide (cursor.offset ≠ 0) || decide (c ≠ 0xEF)) = true := by
    rw [decide_eq_true hb, Bool.or_true]
  simp only [hcond, if_true]

/-- `scan` behind the whitespace: the first byte of a token decides what it is. -/
def dispatch (cursor : Cursor) (c : UInt8) (rest : Bytes) : Token × Cursor :=
  if c = 0x5B then cursor.after ⟨.beginArray, rest, false⟩
  else if c = 0x5D then cursor.after ⟨.endArray, rest, false⟩
  else if c = 0x7B then cursor.after ⟨.beginObject, rest, false⟩
  else if c = 0x7D then cursor.after ⟨.endObject, rest, false⟩
  else if c = 0x3A then cursor.after ⟨.nameSeparator, rest, false⟩
  else if c = 0x2C then cursor.after ⟨.valueSeparator, rest, false⟩
  else if c = 0x74 then cursor.after (scanLiteral .literalTrue (ascii "rue") rest)
  else if c = 0x66 then cursor.after (scanLiteral .literalFalse (ascii "alse") rest)
  else if c = 0x6E then cursor.after (scanLiteral .literalNull (ascii "ull") rest)
  else if c = 0x22 then cursor.afterString rest
  else if c = 0x2D || isDigit c then cursor.afterNumber c rest
  else if c = 0x00 then cursor.after ⟨.endOfInput, rest, false⟩
  else cursor.after (fault "invalid literal" rest false)

private theorem skipBom_blank {t : Bytes} (hs : Blank space) (h : cursor.rest = space ++ t)
    (ht : ∀ c ∈ t.head?, c ≠ 0xEF) : cursor.skipBom = .ok cursor := by
  cases space with
  | nil =>
    cases t with
    | nil =>
      unfold Cursor.skipBom
      rw [h]
      rfl
    | cons c tail => exact skipBom_of_ne h (ht c rfl)
  | cons s space => exact skipBom_of_ne h (isSpace_facts s (hs s List.mem_cons_self)).1

private theorem scan_eq_dispatch {c : UInt8} (hs : Blank space) (hc : Cursor.isSpace c = false)
    (hb : c ≠ 0xEF) (h : cursor.rest = space ++ c :: rest) :
    cursor.scan = dispatch cursor c rest := by
  have hskip : cursor.skipBom = .ok cursor := by
    refine skipBom_blank hs h fun d hd ↦ ?_
    cases hd
    exact hb
  have hdrop : cursor.rest.dropWhile Cursor.isSpace = c :: rest := by
    rw [h, List.dropWhile_append_of_pos hs, List.dropWhile_cons_of_neg (by simp [hc])]
  unfold Cursor.scan
  rw [hskip]
  simp only [hdrop]
  rfl

private theorem scans_dispatch {c : UInt8} (hs : Blank space) (hc : Cursor.isSpace c = false)
    (hb : c ≠ 0xEF) (h : cursor.rest = space ++ c :: rest) :
    Scans cursor (dispatch cursor c rest).1 (dispatch cursor c rest).2.rest := by
  rw [Scans, scan_eq_dispatch hs hc hb h]
  exact ⟨rfl, rfl⟩

private theorem scans_beginArray (hs : Blank space) (h : cursor.rest = space ++ 0x5B :: rest) :
    Scans cursor .beginArray rest :=
  scans_dispatch hs rfl (by decide) h

private theorem scans_endArray (hs : Blank space) (h : cursor.rest = space ++ 0x5D :: rest) :
    Scans cursor .endArray rest :=
  scans_dispatch hs rfl (by decide) h

private theorem scans_beginObject (hs : Blank space) (h : cursor.rest = space ++ 0x7B :: rest) :
    Scans cursor .beginObject rest :=
  scans_dispatch hs rfl (by decide) h

private theorem scans_endObject (hs : Blank space) (h : cursor.rest = space ++ 0x7D :: rest) :
    Scans cursor .endObject rest :=
  scans_dispatch hs rfl (by decide) h

private theorem scans_nameSeparator (hs : Blank space) (h : cursor.rest = space ++ 0x3A :: rest) :
    Scans cursor .nameSeparator rest :=
  scans_dispatch hs rfl (by decide) h

private theorem scans_valueSeparator (hs : Blank space) (h : cursor.rest = space ++ 0x2C :: rest) :
    Scans cursor .valueSeparator rest :=
  scans_dispatch hs rfl (by decide) h

/-- Nothing but whitespace is the end of the input. -/
theorem scans_endOfInput (hs : Blank space) (h : cursor.rest = space) :
    Scans cursor .endOfInput [] := by
  have hskip : cursor.skipBom = .ok cursor :=
    skipBom_blank (t := []) hs (by rw [h, List.append_nil]) nofun
  have hdrop : cursor.rest.dropWhile Cursor.isSpace = [] := by
    have ha : (space ++ []).dropWhile Cursor.isSpace = [] := List.dropWhile_append_of_pos hs
    rw [List.append_nil] at ha
    rw [h, ha]
  unfold Scans Cursor.scan
  rw [hskip]
  simp only [hdrop]
  exact ⟨rfl, rfl⟩

private theorem scanLiteral_append (token : Token) (text rest : Bytes) :
    scanLiteral token text (text ++ rest) = ⟨token, rest, false⟩ := by
  induction text with
  | nil => rfl
  | cons c text ih =>
    rw [List.cons_append, scanLiteral, if_pos rfl]
    exact ih

private theorem scans_literal {c : UInt8} {token : Token} {t : Bytes}
    (hc : Cursor.isSpace c = false) (hb : c ≠ 0xEF)
    (hd : dispatch cursor c (t ++ rest) = cursor.after (scanLiteral token t (t ++ rest)))
    (hs : Blank space) (h : cursor.rest = space ++ c :: (t ++ rest)) :
    Scans cursor token rest := by
  rw [scanLiteral_append] at hd
  rw [Scans, scan_eq_dispatch hs hc hb h, hd]
  exact ⟨rfl, rfl⟩

private theorem scans_true (hs : Blank space) (h : cursor.rest = space ++ (ascii "true" ++ rest)) :
    Scans cursor .literalTrue rest :=
  scans_literal (t := ascii "rue") rfl (by decide) rfl hs h

private theorem scans_false (hs : Blank space)
    (h : cursor.rest = space ++ (ascii "false" ++ rest)) :
    Scans cursor .literalFalse rest :=
  scans_literal (t := ascii "alse") rfl (by decide) rfl hs h

private theorem scans_null (hs : Blank space) (h : cursor.rest = space ++ (ascii "null" ++ rest)) :
    Scans cursor .literalNull rest :=
  scans_literal (t := ascii "ull") rfl (by decide) rfl hs h

/-- A written string is read as one token. -/
theorem scans_string {text written : Bytes} (hw : dumpString text = .ok written) (hs : Blank space)
    (h : cursor.rest = space ++ (written ++ rest)) : Scans cursor (.valueString text) rest := by
  obtain ⟨hu, rfl⟩ := dumpString_eq_ok.mp hw
  have hr : cursor.rest = space ++ 0x22 :: (text.flatMap escapeByte ++ 0x22 :: rest) := by
    rw [h]
    simp
  have hscan : scanString ((text.flatMap escapeByte ++ 0x22 :: rest).length + 1) []
      (text.flatMap escapeByte ++ 0x22 :: rest) = ⟨.valueString text, rest, false⟩ :=
    scanString_escaped hu (by rw [List.length_append]; omega) [] rest
  have hd : dispatch cursor 0x22 (text.flatMap escapeByte ++ 0x22 :: rest) =
      cursor.afterString (text.flatMap escapeByte ++ 0x22 :: rest) := rfl
  rw [Scans, scan_eq_dispatch hs rfl (by decide) hr, hd]
  simp only [Cursor.afterString, hscan, and_self]

/-! ### Numbers -/

private theorem scanFraction_ends (hr : Ends rest) (negative : Bool) (token : Bytes) :
    scanFraction negative token rest = ⟨numberToken negative false token, rest, false⟩ := by
  cases rest with
  | nil => rfl
  | cons c rest =>
    obtain ⟨_, hpoint, he, hE⟩ := hr c rfl
    have hmark : (decide (c = 0x65) || decide (c = 0x45)) = false := by
      rw [decide_eq_false he, decide_eq_false hE]
      rfl
    unfold scanFraction scanExponent
    simp only [if_neg hpoint, hmark, Bool.false_eq_true, if_false]

/-- The digits of a number are read to their end. -/
private theorem scanInteger_decimal {n : Nat} {c : UInt8} {tail : Bytes}
    (hd : decimal n = c :: tail) (hr : Ends rest) (negative : Bool) (sign : Bytes) :
    scanInteger negative sign c (tail ++ rest) =
      ⟨numberToken negative false (sign ++ decimal n), rest, false⟩ := by
  obtain ⟨c', tail', hd', hc, hz⟩ := Decimal.decimal_cons n
  rw [hd] at hd'
  cases hd'
  unfold scanInteger
  by_cases h0 : c = 0x30
  · rw [if_pos h0, hd, hz h0, List.nil_append]
    exact scanFraction_ends hr negative (sign ++ [c])
  · have hall := Decimal.all_decimal n
    rw [hd, List.all_cons, Bool.and_eq_true] at hall
    obtain ⟨ht, hdrop⟩ := Decimal.takeWhile_digits hall.2 (fun d hd ↦ (hr d hd).1)
    rw [if_neg h0, ht, hdrop, hd, List.append_assoc]
    exact scanFraction_ends hr negative (sign ++ ([c] ++ tail))

private theorem digit_facts : ∀ c : UInt8, isDigit c = true → Cursor.isSpace c = false ∧ c ≠ 0xEF ∧
    c ≠ 0x5B ∧ c ≠ 0x5D ∧ c ≠ 0x7B ∧ c ≠ 0x7D ∧ c ≠ 0x3A ∧ c ≠ 0x2C ∧ c ≠ 0x74 ∧ c ≠ 0x66 ∧
    c ≠ 0x6E ∧ c ≠ 0x22 ∧ c ≠ 0x2D := by
  decide +kernel

private theorem dispatch_digit {c : UInt8} (hc : isDigit c = true) :
    dispatch cursor c rest = cursor.afterNumber c rest := by
  obtain ⟨_, _, h1, h2, h3, h4, h5, h6, h7, h8, h9, h10, _⟩ := digit_facts c hc
  have hnumber : (decide (c = 0x2D) || isDigit c) = true := by rw [hc, Bool.or_true]
  rw [dispatch, if_neg h1, if_neg h2, if_neg h3, if_neg h4, if_neg h5, if_neg h6, if_neg h7,
    if_neg h8, if_neg h9, if_neg h10, if_pos hnumber]

/-- A number that is written in digits is read as an unsigned number. -/
theorem scans_unsigned {n : Nat} (hn : n < 2 ^ 64) (hr : Ends rest) (hs : Blank space)
    (h : cursor.rest = space ++ (decimal n ++ rest)) : Scans cursor (.valueUnsigned n) rest := by
  obtain ⟨c, tail, hd, hc, _⟩ := Decimal.decimal_cons n
  obtain ⟨hspace, hbom, _, _, _, _, _, _, _, _, _, _, hminus⟩ := digit_facts c hc
  have hscan : scanNumber c (tail ++ rest) = ⟨.valueUnsigned n, rest, false⟩ := by
    unfold scanNumber
    rw [if_neg hminus, scanInteger_decimal hd hr, List.nil_append]
    simp only [numberToken, Bool.false_eq_true, if_false, Decimal.digitsValue_decimal, if_pos hn]
  rw [hd, List.cons_append] at h
  rw [Scans, scan_eq_dispatch hs hspace hbom h, dispatch_digit hc]
  simp only [Cursor.afterNumber, hscan, and_self]

/-- A negative number is read as an integer. -/
theorem scans_negative {n : Nat} (hn : n ≤ 2 ^ 63) (hr : Ends rest) (hs : Blank space)
    (h : cursor.rest = space ++ (0x2D :: decimal n ++ rest)) :
    Scans cursor (.valueInteger (-(n : Int))) rest := by
  obtain ⟨c, tail, hd, hc, _⟩ := Decimal.decimal_cons n
  have hscan : scanNumber 0x2D (c :: (tail ++ rest)) =
      ⟨.valueInteger (-(n : Int)), rest, false⟩ := by
    unfold scanNumber
    simp only [if_true, if_pos hc]
    rw [scanInteger_decimal hd hr]
    simp only [numberToken, Bool.false_eq_true, if_false, if_true, List.singleton_append,
      List.drop_succ_cons, List.drop_zero, Decimal.digitsValue_decimal, if_pos hn]
  have hd' : dispatch cursor 0x2D (c :: (tail ++ rest)) =
      cursor.afterNumber 0x2D (c :: (tail ++ rest)) := rfl
  rw [hd, List.cons_append, List.cons_append] at h
  rw [Scans, scan_eq_dispatch hs rfl (by decide) h, hd']
  simp only [Cursor.afterNumber, hscan, and_self]

end Tokens

/-! ### Values -/

mutual

/-- The value that is read back: a nonnegative integer is read as an unsigned number. -/
def Value.reread : Value → Value
  | .null => .null
  | .boolean value => .boolean value
  | .numberInteger value => if value < 0 then .numberInteger value else .numberUnsigned value.toNat
  | .numberUnsigned value => .numberUnsigned value
  | .numberFloat token => .numberFloat token
  | .string text => .string text
  | .array items => .array (Value.rereadItems items)
  | .object fields => .object (Value.rereadFields fields)

/-- The items of an array that is read back. -/
def Value.rereadItems : List Value → List Value
  | [] => []
  | item :: items => item.reread :: Value.rereadItems items

/-- The fields of an object that is read back. -/
def Value.rereadFields : List (Bytes × Value) → List (Bytes × Value)
  | [] => []
  | (key, value) :: fields => (key, value.reread) :: Value.rereadFields fields

end

/-- The values that can be read back: integers of 64 bits, objects in the order of their
keys, no floating-point number. -/
inductive Value.Plain : Value → Prop
  | null : Plain .null
  | boolean (value : Bool) : Plain (.boolean value)
  | numberInteger {value : Int} (low : -2 ^ 63 ≤ value) (high : value < 2 ^ 63) :
    Plain (.numberInteger value)
  | numberUnsigned {value : Nat} (high : value < 2 ^ 64) : Plain (.numberUnsigned value)
  | string (text : Bytes) : Plain (.string text)
  | array {items : List Value} (each : ∀ item ∈ items, Plain item) : Plain (.array items)
  | object {fields : List (Bytes × Value)} (sorted : fields.Pairwise fun a b ↦ a.1 < b.1)
    (each : ∀ field ∈ fields, Plain field.2) : Plain (.object fields)

/-- An object that is built by assignments can be read back if its values can. -/
theorem Value.plain_objectOf {fields : List (Bytes × Value)}
    (h : ∀ field ∈ fields, field.2.Plain) : (objectOf fields).Plain := by
  refine .object (insertFields_pairwise List.Pairwise.nil) fun field hf ↦ ?_
  rcases mem_insertFields hf with hf | hf
  · exact h field hf
  · cases hf

/-- The loop builds the value in the given number of turns, whatever fuel is left then. -/
def Builds (turns : Nat) (mode : Mode) (cursor : Cursor) (open_ : List Frame) (value : Value)
    (rest : Bytes) (stack : List Frame) : Prop :=
  ∃ next : Cursor, next.rest = rest ∧ ∀ fuel,
    parseLoop (turns + fuel) mode cursor open_ = parseLoop fuel (.built value) next stack

/-- A text from which the loop reads the value, wherever it stands. -/
def Reads (value : Value) (text : Bytes) : Prop :=
  ∃ turns, turns + 1 ≤ 2 * text.length ∧
    ∀ (cursor : Cursor) (space rest : Bytes) (stack : List Frame),
    Blank space → Ends rest → cursor.rest = space ++ (text ++ rest) →
    cursor.scan.1 ≠ .endArray ∧
      Builds turns (.token cursor.scan.1) cursor.scan.2 stack value rest stack

section Loop

variable {cursor : Cursor} {rest : Bytes} {stack : List Frame}

private theorem Scans.eq {token : Token} (h : Scans cursor token rest) :
    ∃ next, next.rest = rest ∧ cursor.scan = (token, next) := by
  obtain ⟨ht, hr⟩ := h
  exact ⟨cursor.scan.2, hr, Prod.ext ht rfl⟩

private theorem builds_done (value : Value) :
    Builds 0 (.built value) cursor stack value cursor.rest stack := by
  refine ⟨cursor, rfl, fun fuel ↦ ?_⟩
  rw [Nat.zero_add]

/-- One turn that begins a value. -/
theorem builds_token {last : Token} {mode : Mode} {next : Cursor} {inner outer : List Frame}
    {value : Value} {turns : Nat} (h : beginValue last cursor stack = .ok (mode, next, inner))
    (hb : Builds turns mode next inner value rest outer) :
    Builds (turns + 1) (.token last) cursor stack value rest outer := by
  obtain ⟨final, hr, hloop⟩ := hb
  refine ⟨final, hr, fun fuel ↦ ?_⟩
  rw [Nat.add_right_comm, parseLoop, h]
  exact hloop fuel

/-- One turn that puts a value into its container. -/
theorem builds_built {item : Value} {frame : Frame} {mode : Mode} {next : Cursor}
    {inner outer : List Frame} {value : Value} {turns : Nat}
    (h : continueFrame item cursor frame stack = .ok (mode, next, inner))
    (hb : Builds turns mode next inner value rest outer) :
    Builds (turns + 1) (.built item) cursor (frame :: stack) value rest outer := by
  obtain ⟨final, hr, hloop⟩ := hb
  refine ⟨final, hr, fun fuel ↦ ?_⟩
  rw [Nat.add_right_comm, parseLoop, h]
  exact hloop fuel

/-- Go on behind a value that was built. -/
theorem Builds.trans {first second : Nat} {mode : Mode} {item value : Value} {middle : Bytes}
    {inner outer : List Frame} (h : Builds first mode cursor stack item middle inner)
    (hb : ∀ next : Cursor, next.rest = middle →
      Builds second (.built item) next inner value rest outer) :
    Builds (first + second) mode cursor stack value rest outer := by
  obtain ⟨next, hr, hloop⟩ := h
  obtain ⟨final, hf, hrest⟩ := hb next hr
  refine ⟨final, hf, fun fuel ↦ ?_⟩
  rw [Nat.add_assoc, hloop, hrest]

/-! ### Arrays -/

private theorem continueFrame_endArray (item : Value) (items : List Value)
    (h : Scans cursor .endArray rest) :
    Builds 1 (.built item) cursor (.array items :: stack) (.array (items ++ [item]))
      rest stack := by
  obtain ⟨next, hr, hscan⟩ := h.eq
  subst hr
  refine builds_built ?_ (builds_done _)
  simp only [continueFrame, hscan]

private theorem continueFrame_nextItem (item : Value) (items : List Value)
    (h : Scans cursor .valueSeparator rest) :
    ∃ next : Cursor, next.rest = rest ∧ continueFrame item cursor (.array items) stack =
      .ok (.token next.scan.1, next.scan.2, .array (items ++ [item]) :: stack) := by
  obtain ⟨next, hr, hscan⟩ := h.eq
  exact ⟨next, hr, by simp only [continueFrame, hscan]⟩

private theorem intercalate_cons_cons (separator a b : Bytes) (parts : List Bytes) :
    List.intercalate separator (a :: b :: parts) =
      a ++ (separator ++ List.intercalate separator (b :: parts)) := by
  simp [List.intercalate, List.intersperse]

private theorem ends_closing {outer : Bytes} (ho : Blank outer) {c : UInt8}
    (hc : c = 0x5D ∨ c = 0x7D ∨ c = 0x2C) : Ends (outer ++ c :: rest) := by
  refine ho.ends fun d hd ↦ ?_
  cases hd
  rcases hc with rfl | rfl | rfl <;> decide

/-- The items of an array are read one after the other. -/
theorem builds_items {items : List Value} {parts : List Bytes}
    (h : List.Forall₂ Reads items parts) (hne : parts ≠ []) {inner outer : Bytes}
    (hi : Blank inner) (ho : Blank outer) :
    ∃ turns, turns ≤ 2 * (List.intercalate (0x2C :: inner) parts).length ∧
      ∀ (cursor : Cursor) (space rest : Bytes) (done : List Value) (stack : List Frame),
        Blank space →
        cursor.rest = space ++
          (List.intercalate (0x2C :: inner) parts ++ (outer ++ 0x5D :: rest)) →
        cursor.scan.1 ≠ .endArray ∧
          Builds turns (.token cursor.scan.1) cursor.scan.2 (.array done :: stack)
            (.array (done ++ items)) rest stack := by
  induction h with
  | nil => exact absurd rfl hne
  | @cons item part items parts hitem hitems ih =>
    obtain ⟨first, hfirst, hread⟩ := hitem
    cases parts with
    | nil =>
      cases hitems
      have hpart : List.intercalate (0x2C :: inner) [part] = part := by
        simp [List.intercalate]
      refine ⟨first + 1, by rw [hpart]; exact hfirst, ?_⟩
      intro cursor space rest done stack hs hr
      rw [hpart] at hr
      obtain ⟨hopen, hbuild⟩ := hread cursor space _ (.array done :: stack) hs
        (ends_closing ho (.inl rfl)) hr
      refine ⟨hopen, hbuild.trans fun next hn ↦ ?_⟩
      exact continueFrame_endArray item done (scans_endArray ho hn)
    | cons next parts =>
      obtain ⟨others, hothers, hrest⟩ := ih (List.cons_ne_nil _ _)
      refine ⟨first + (others + 1), ?_, ?_⟩
      · rw [intercalate_cons_cons, List.length_append, List.length_append]
        omega
      · intro cursor space rest done stack hs hr
        rw [intercalate_cons_cons, List.append_assoc, List.append_assoc] at hr
        obtain ⟨hopen, hbuild⟩ := hread cursor space _ (.array done :: stack) hs
          (ends_closing blank_nil (.inr (.inr rfl))) hr
        refine ⟨hopen, hbuild.trans fun behind hb ↦ ?_⟩
        obtain ⟨separated, hsep, hcont⟩ := continueFrame_nextItem item done
          (scans_valueSeparator blank_nil hb)
        have hgoal := (hrest separated inner rest (done ++ [item]) stack hi hsep).2
        rw [List.append_assoc] at hgoal
        exact builds_built hcont hgoal

private theorem beginValue_array (h : cursor.scan.1 ≠ .endArray) :
    beginValue .beginArray cursor stack =
      .ok (.token cursor.scan.1, cursor.scan.2, .array [] :: stack) := by
  unfold beginValue
  dsimp only
  split
  · next next heq => exact absurd (congrArg Prod.fst heq) h
  · next other next _ heq => rw [heq]

/-! ### Objects -/

/-- The text of a field, with the given whitespace behind the colon. -/
def ReadsField (gap : Bytes) (field : Bytes × Value) (part : Bytes) : Prop :=
  ∃ name text, dumpString field.1 = .ok name ∧ part = name ++ (0x3A :: gap ++ text) ∧
    Reads field.2 text

private theorem beginValue_object {key : Bytes} {next : Cursor} (h : cursor.scan.1 ≠ .endObject)
    (hk : parseKey cursor.scan.1 cursor.scan.2 = .ok (key, next)) :
    beginValue .beginObject cursor stack =
      .ok (.token next.scan.1, next.scan.2, .object [] key :: stack) := by
  unfold beginValue
  dsimp only
  split
  · next behind heq => exact absurd (congrArg Prod.fst heq) h
  · next other behind _ heq =>
    rw [heq] at hk
    rw [hk]
    rfl

private theorem continueFrame_endObject (value : Value)
    (fields : List (Bytes × Value)) (key : Bytes) (h : Scans cursor .endObject rest) :
    Builds 1 (.built value) cursor (.object fields key :: stack)
      (.object (insertField key value fields)) rest stack := by
  obtain ⟨next, hr, hscan⟩ := h.eq
  subst hr
  refine builds_built ?_ (builds_done _)
  simp only [continueFrame, hscan]

private theorem continueFrame_nextField (value : Value)
    (fields : List (Bytes × Value)) (key : Bytes) (h : Scans cursor .valueSeparator rest) :
    ∃ next : Cursor, next.rest = rest ∧ ∀ other behind,
      parseKey next.scan.1 next.scan.2 = .ok (other, behind) →
      continueFrame value cursor (.object fields key) stack =
        .ok (.token behind.scan.1, behind.scan.2,
          .object (insertField key value fields) other :: stack) := by
  obtain ⟨next, hr, hscan⟩ := h.eq
  refine ⟨next, hr, fun other behind hk ↦ ?_⟩
  simp only [continueFrame, hscan, hk]
  rfl

/-- A written key and the colon behind it. -/
theorem parseKey_written {key name space : Bytes} (hk : dumpString key = .ok name)
    (hs : Blank space) (h : cursor.rest = space ++ (name ++ 0x3A :: rest)) :
    cursor.scan.1 ≠ .endObject ∧ ∃ next : Cursor, next.rest = rest ∧
      parseKey cursor.scan.1 cursor.scan.2 = .ok (key, next) := by
  obtain ⟨behind, hb, hscan⟩ := (scans_string hk hs h).eq
  have hscans : Scans behind .nameSeparator rest := scans_nameSeparator blank_nil hb
  obtain ⟨next, hn, hcolon⟩ := hscans.eq
  rw [hscan]
  refine ⟨nofun, next, hn, ?_⟩
  simp only [parseKey, hcolon]

/-- The fields of an object are read one after the other. -/
theorem builds_fields {fields : List (Bytes × Value)} {parts : List Bytes} {gap : Bytes}
    (hg : Blank gap) (h : List.Forall₂ (ReadsField gap) fields parts) (hne : parts ≠ [])
    {inner outer : Bytes} (hi : Blank inner) (ho : Blank outer) :
    ∃ turns, turns ≤ 2 * (List.intercalate (0x2C :: inner) parts).length ∧
      ∀ (cursor : Cursor) (space rest : Bytes) (done : List (Bytes × Value)) (stack : List Frame),
        Blank space →
        cursor.rest = space ++
          (List.intercalate (0x2C :: inner) parts ++ (outer ++ 0x7D :: rest)) →
        cursor.scan.1 ≠ .endObject ∧ ∃ key next,
          parseKey cursor.scan.1 cursor.scan.2 = .ok (key, next) ∧
          Builds turns (.token next.scan.1) next.scan.2 (.object done key :: stack)
            (.object (insertFields fields done)) rest stack := by
  induction h with
  | nil => exact absurd rfl hne
  | @cons field part fields parts hfield hfields ih =>
    obtain ⟨name, text, hname, rfl, first, hfirst, hread⟩ := hfield
    cases parts with
    | nil =>
      cases hfields
      have hpart : List.intercalate (0x2C :: inner) [name ++ (0x3A :: gap ++ text)] =
          name ++ (0x3A :: gap ++ text) := by
        simp [List.intercalate]
      refine ⟨first + 1, ?_, ?_⟩
      · rw [hpart, List.length_append, List.length_append]
        omega
      · intro cursor space rest done stack hs hr
        rw [hpart, List.append_assoc, List.append_assoc, List.cons_append] at hr
        obtain ⟨hclosed, next, hn, hkey⟩ := parseKey_written hname hs hr
        refine ⟨hclosed, field.1, next, hkey, ?_⟩
        obtain ⟨_, hbuild⟩ := hread next gap _ (.object done field.1 :: stack) hg
          (ends_closing ho (.inr (.inl rfl))) hn
        refine hbuild.trans fun behind hb ↦ ?_
        exact continueFrame_endObject field.2 done field.1 (scans_endObject ho hb)
    | cons other parts =>
      obtain ⟨others, hothers, hrest⟩ := ih (List.cons_ne_nil _ _)
      refine ⟨first + (others + 1), ?_, ?_⟩
      · rw [intercalate_cons_cons, List.length_append, List.length_append, List.length_append,
          List.length_append]
        omega
      · intro cursor space rest done stack hs hr
        rw [intercalate_cons_cons, List.append_assoc, List.append_assoc, List.append_assoc,
          List.cons_append] at hr
        obtain ⟨hclosed, next, hn, hkey⟩ := parseKey_written hname hs hr
        refine ⟨hclosed, field.1, next, hkey, ?_⟩
        rw [List.append_assoc] at hn
        obtain ⟨_, hbuild⟩ := hread next gap _ (.object done field.1 :: stack) hg
          (ends_closing blank_nil (.inr (.inr rfl))) hn
        refine hbuild.trans fun behind hb ↦ ?_
        obtain ⟨separated, hsep, hcont⟩ := continueFrame_nextField field.2 done field.1
          (scans_valueSeparator blank_nil hb)
        obtain ⟨_, key, after, hparse, hgoal⟩ :=
          hrest separated inner rest (insertField field.1 field.2 done) stack hi hsep
        exact builds_built (hcont key after hparse) hgoal

/-! ### Dumped values -/

/-- The items of an array are read again one by one. -/
theorem rereadItems_eq (items : List Value) : Value.rereadItems items = items.map Value.reread := by
  induction items with
  | nil => rfl
  | cons item items ih =>
    rw [Value.rereadItems, ih]
    rfl

/-- The members of an object are read again one by one. -/
theorem rereadFields_eq (fields : List (Bytes × Value)) :
    Value.rereadFields fields = fields.map fun field ↦ (field.1, field.2.reread) := by
  induction fields with
  | nil => rfl
  | cons field fields ih =>
    obtain ⟨key, value⟩ := field
    rw [Value.rereadFields, ih]
    rfl

private theorem blank_lineBreak (indent : Option Nat) (level : Nat) :
    Blank (lineBreak indent level) := by
  intro c hc
  unfold lineBreak at hc
  split at hc
  · rcases List.mem_cons.mp hc with rfl | hc
    · rfl
    · rw [List.eq_of_mem_replicate hc]
      rfl
  · cases hc

private theorem keySeparator_eq (indent : Option Nat) :
    ∃ gap, Blank gap ∧ keySeparator indent = 0x3A :: gap := by
  cases indent with
  | none => exact ⟨[], blank_nil, rfl⟩
  | some width =>
    refine ⟨[0x20], fun c hc ↦ ?_, rfl⟩
    rw [List.mem_singleton.mp hc]
    rfl

/-- A value of one token. -/
theorem reads_token (token : Token) {value : Value} {text : Bytes} (hne : 0 < text.length)
    (hscan : ∀ (cursor : Cursor) (space rest : Bytes), Blank space → Ends rest →
      cursor.rest = space ++ (text ++ rest) → Scans cursor token rest)
    (hbegin : ∀ cursor stack, beginValue token cursor stack = .ok (.built value, cursor, stack)) :
    Reads value text := by
  refine ⟨1, by omega, fun cursor space rest stack hs hr hc ↦ ?_⟩
  obtain ⟨next, hn, hnext⟩ := (hscan cursor space rest hs hr hc).eq
  subst hn
  rw [hnext]
  refine ⟨?_, builds_token (hbegin next stack) (builds_done value)⟩
  rintro rfl
  exact nomatch hbegin next stack

/-- An array between its brackets. -/
theorem reads_array {items : List Value} {parts : List Bytes} (indent : Option Nat) (level : Nat)
    (h : List.Forall₂ Reads items parts) :
    Reads (.array items) (dumpBlock indent level 0x5B 0x5D parts) := by
  by_cases hne : parts = []
  · subst hne
    cases h
    refine ⟨1, Nat.le_add_right 2 2, fun cursor space rest stack hs hr hc ↦ ?_⟩
    obtain ⟨next, hn, hnext⟩ := (scans_beginArray hs hc).eq
    have hend : Scans next .endArray rest := scans_endArray blank_nil hn
    obtain ⟨behind, hb, hbehind⟩ := hend.eq
    subst hb
    rw [hnext]
    refine ⟨nofun, builds_token ?_ (builds_done _)⟩
    simp only [beginValue, hbehind]
  · obtain ⟨turns, hturns, hitems⟩ := builds_items h hne
      (blank_lineBreak indent (newIndent indent level)) (blank_lineBreak indent level)
    rw [dumpBlock, if_neg hne]
    refine ⟨turns + 1, ?_, fun cursor space rest stack hs hr hc ↦ ?_⟩
    · simp only [List.length_cons, List.length_append]
      omega
    · simp only [List.cons_append, List.append_assoc, List.nil_append] at hc
      obtain ⟨next, hn, hnext⟩ := (scans_beginArray hs hc).eq
      rw [hnext]
      obtain ⟨hopen, hbuild⟩ := hitems next _ rest [] stack
        (blank_lineBreak indent (newIndent indent level)) hn
      exact ⟨nofun, builds_token (beginValue_array hopen) hbuild⟩

/-- An object between its brackets. -/
theorem reads_object {fields : List (Bytes × Value)} {parts : List Bytes} {gap : Bytes}
    (indent : Option Nat) (level : Nat) (hg : Blank gap)
    (h : List.Forall₂ (ReadsField gap) fields parts) :
    Reads (.object (insertFields fields [])) (dumpBlock indent level 0x7B 0x7D parts) := by
  by_cases hne : parts = []
  · subst hne
    cases h
    refine ⟨1, Nat.le_add_right 2 2, fun cursor space rest stack hs hr hc ↦ ?_⟩
    obtain ⟨next, hn, hnext⟩ := (scans_beginObject hs hc).eq
    have hend : Scans next .endObject rest := scans_endObject blank_nil hn
    obtain ⟨behind, hb, hbehind⟩ := hend.eq
    subst hb
    rw [hnext]
    refine ⟨nofun, builds_token ?_ (builds_done _)⟩
    simp only [beginValue, hbehind]
    rfl
  · obtain ⟨turns, hturns, hfields⟩ := builds_fields hg h hne
      (blank_lineBreak indent (newIndent indent level)) (blank_lineBreak indent level)
    rw [dumpBlock, if_neg hne]
    refine ⟨turns + 1, ?_, fun cursor space rest stack hs hr hc ↦ ?_⟩
    · simp only [List.length_cons, List.length_append]
      omega
    · simp only [List.cons_append, List.append_assoc, List.nil_append] at hc
      obtain ⟨next, hn, hnext⟩ := (scans_beginObject hs hc).eq
      rw [hnext]
      obtain ⟨hclosed, key, behind, hkey, hbuild⟩ := hfields next _ rest [] stack
        (blank_lineBreak indent (newIndent indent level)) hn
      exact ⟨nofun, builds_token (beginValue_object hclosed hkey) hbuild⟩

end Loop

/-- The parts of an array are the texts of its items. -/
theorem dumpItems_parts {items : List Value} {indent : Option Nat} {level : Nat}
    {parts : List Bytes} (h : dumpItems indent level items = .ok parts) :
    List.Forall₂ (fun item part ↦ dumpValue indent level item = .ok part) items parts := by
  induction items generalizing parts with
  | nil =>
    cases h
    exact .nil
  | cons item items ih =>
    rw [dumpItems] at h
    obtain ⟨part, hpart, h⟩ := bind_ok h
    obtain ⟨others, hothers, h⟩ := bind_ok h
    cases h
    exact .cons hpart (ih hothers)

/-- The parts of an object are the texts of its keys and values. -/
theorem dumpFields_parts {fields : List (Bytes × Value)} {indent : Option Nat} {level : Nat}
    {parts : List Bytes} (h : dumpFields indent level fields = .ok parts) :
    List.Forall₂ (fun field part ↦ ∃ name text, dumpString field.1 = .ok name ∧
      dumpValue indent level field.2 = .ok text ∧ part = name ++ keySeparator indent ++ text)
      fields parts := by
  induction fields generalizing parts with
  | nil =>
    cases h
    exact .nil
  | cons field fields ih =>
    obtain ⟨key, value⟩ := field
    rw [dumpFields] at h
    obtain ⟨name, hname, h⟩ := bind_ok h
    obtain ⟨text, htext, h⟩ := bind_ok h
    obtain ⟨others, hothers, h⟩ := bind_ok h
    cases h
    exact .cons ⟨name, text, hname, htext, rfl⟩ (ih hothers)

private theorem forall₂_map {α β γ : Type} {R : α → β → Prop} {S : γ → β → Prop} {f : α → γ}
    {as : List α} {bs : List β} (h : List.Forall₂ R as bs)
    (hs : ∀ a ∈ as, ∀ b, R a b → S (f a) b) : List.Forall₂ S (as.map f) bs := by
  induction h with
  | nil => exact .nil
  | cons hr _ ih =>
    exact .cons (hs _ List.mem_cons_self _ hr) (ih fun a ha ↦ hs a (List.mem_cons_of_mem _ ha))

private theorem exists_of_forall₂ {α β : Type} {R : α → β → Prop} {as : List α} {bs : List β}
    (h : List.Forall₂ R as bs) {b : β} (hb : b ∈ bs) : ∃ a ∈ as, R a b := by
  induction h with
  | nil => cases hb
  | cons hr _ ih =>
    rcases List.mem_cons.mp hb with rfl | hb
    · exact ⟨_, List.mem_cons_self, hr⟩
    · obtain ⟨a, ha, hab⟩ := ih hb
      exact ⟨a, List.mem_cons_of_mem _ ha, hab⟩

private theorem length_decimal_pos (n : Nat) : 0 < (decimal n).length := by
  obtain ⟨c, tail, hd, _⟩ := Decimal.decimal_cons n
  rw [hd]
  exact Nat.succ_pos _

/-- What was written is read back, by induction on the value. -/
theorem reads_dumpValue {value : Value} (h : value.Plain) {indent : Option Nat} {level : Nat}
    {text : Bytes} (hd : dumpValue indent level value = .ok text) : Reads value.reread text := by
  induction h generalizing level text with
  | null =>
    cases hd
    exact reads_token .literalNull (by decide) (fun _ _ _ hs _ hc ↦ scans_null hs hc) fun _ _ ↦ rfl
  | boolean flag =>
    cases flag with
    | false =>
      cases hd
      exact reads_token .literalFalse (by decide)
        (fun _ _ _ hs _ hc ↦ scans_false hs hc) fun _ _ ↦ rfl
    | true =>
      cases hd
      exact reads_token .literalTrue (by decide)
        (fun _ _ _ hs _ hc ↦ scans_true hs hc) fun _ _ ↦ rfl
  | @numberInteger number low high =>
    cases hd
    rw [Value.reread, dumpInteger]
    by_cases hneg : number < 0
    · have hvalue : -(number.natAbs : Int) = number := by omega
      rw [if_pos hneg, if_pos hneg]
      refine reads_token (.valueInteger number) (Nat.succ_pos _)
        (fun _ _ _ hs hr hc ↦ ?_) fun _ _ ↦ rfl
      have hscan := scans_negative (n := number.natAbs) (by omega) hr hs hc
      rw [hvalue] at hscan
      exact hscan
    · have hvalue : number.natAbs = number.toNat := by omega
      rw [if_neg hneg, if_neg hneg, hvalue]
      refine reads_token (.valueUnsigned number.toNat) (length_decimal_pos _)
        (fun _ _ _ hs hr hc ↦ ?_) fun _ _ ↦ rfl
      exact scans_unsigned (by omega) hr hs hc
  | @numberUnsigned number high =>
    cases hd
    refine reads_token (.valueUnsigned number) (length_decimal_pos _)
      (fun _ _ _ hs hr hc ↦ ?_) fun _ _ ↦ rfl
    exact scans_unsigned high hr hs hc
  | string content =>
    rw [dumpValue] at hd
    have hne : 0 < text.length := by
      rw [(dumpString_eq_ok.mp hd).2]
      exact Nat.succ_pos _
    exact reads_token (.valueString content) hne
      (fun _ _ _ hs _ hc ↦ scans_string hd hs hc) fun _ _ ↦ rfl
  | array each ih =>
    rw [dumpValue] at hd
    obtain ⟨parts, hparts, hd⟩ := bind_ok hd
    cases hd
    rw [Value.reread, rereadItems_eq]
    exact reads_array indent level (forall₂_map (dumpItems_parts hparts) fun item hi _ ↦ ih item hi)
  | @object fields sorted each ih =>
    obtain ⟨gap, hgap, hg⟩ := keySeparator_eq indent
    rw [dumpValue] at hd
    obtain ⟨parts, hparts, hd⟩ := bind_ok hd
    cases hd
    have hread : List.Forall₂ (ReadsField gap)
        (fields.map fun field ↦ (field.1, field.2.reread)) parts := by
      refine forall₂_map (dumpFields_parts hparts) fun field hf part hp ↦ ?_
      obtain ⟨name, text, hname, htext, rfl⟩ := hp
      exact ⟨name, text, hname, by rw [hg, List.append_assoc], ih field hf htext⟩
    have hsorted : insertFields (fields.map fun field ↦ (field.1, field.2.reread)) [] =
        fields.map fun field ↦ (field.1, field.2.reread) :=
      insertFields_sorted (List.Pairwise.map _ (fun _ _ hlt ↦ hlt) sorted)
    rw [Value.reread, rereadFields_eq, ← hsorted]
    exact reads_object indent level hgap hread

/-- `json::parse` of a dumped value, with any whitespace behind it. -/
theorem parse_dump {value : Value} (h : value.Plain) {indent : Option Nat} {text space : Bytes}
    (hd : dump indent value = .ok text) (hs : Blank space) :
    parse (text ++ space) = .ok value.reread := by
  obtain ⟨turns, hturns, hread⟩ := reads_dumpValue h hd
  have hends : Ends space := by
    have he := hs.ends ends_nil
    rw [List.append_nil] at he
    exact he
  obtain ⟨_, next, hn, hloop⟩ :=
    hread (Cursor.start (text ++ space)) [] space [] blank_nil hends rfl
  obtain ⟨behind, _, hend⟩ := (scans_endOfInput hs hn).eq
  have hfuel : 2 * (text ++ space).length + 4 =
      turns + ((2 * (text ++ space).length + 3 - turns) + 1) := by
    rw [List.length_append]
    omega
  have hbuilt : parseLoop (2 * (text ++ space).length + 4)
      (.token (Cursor.start (text ++ space)).scan.1) (Cursor.start (text ++ space)).scan.2 [] =
        .ok (value.reread, next) := by
    rw [hfuel, hloop]
    rfl
  show (parseLoop (2 * (text ++ space).length + 4)
      (.token (Cursor.start (text ++ space)).scan.1) (Cursor.start (text ++ space)).scan.2 [] >>=
        _) = _
  rw [hbuilt]
  dsimp only [Bind.bind, Except.bind]
  rw [hend]

/-! ### Compact texts are lines -/

private theorem lowerHexDigit_line : ∀ n < 16, lowerHexDigit n ≠ 0x0A := by
  decide

private theorem escapeByte_line (c : UInt8) : ∀ b ∈ escapeByte c, b ≠ 0x0A := by
  intro b hb
  by_cases hc : c < 0x80
  · rcases escapeByte_cases hc with ⟨e, hbytes, he⟩ | ⟨hsmall, hbytes⟩ | ⟨hbytes, _, _, hspace⟩
    · rw [hbytes] at hb
      simp only [List.mem_cons, List.not_mem_nil, or_false] at hb
      rcases hb with rfl | rfl
      · decide
      · rintro rfl
        cases he
    · rw [hbytes] at hb
      simp only [List.mem_cons, List.not_mem_nil, or_false] at hb
      rcases hb with rfl | rfl | rfl | rfl | rfl | rfl
      · decide
      · decide
      · decide
      · decide
      · exact lowerHexDigit_line _ (by omega)
      · exact lowerHexDigit_line _ (by omega)
    · rw [hbytes, List.mem_singleton] at hb
      subst hb
      rintro rfl
      exact hspace (by decide)
  · rw [escapeByte_of_wide hc, List.mem_singleton] at hb
    subst hb
    rintro rfl
    exact hc (by decide)

private theorem dumpString_line {text written : Bytes} (h : dumpString text = .ok written) :
    ∀ b ∈ written, b ≠ 0x0A := by
  obtain ⟨_, rfl⟩ := dumpString_eq_ok.mp h
  intro b hb
  simp only [List.mem_cons, List.mem_append, List.mem_flatMap, List.not_mem_nil, or_false] at hb
  rcases hb with rfl | ⟨c, _, hb⟩ | rfl
  · decide
  · exact escapeByte_line c b hb
  · decide

private theorem decimal_line (n : Nat) : ∀ b ∈ decimal n, b ≠ 0x0A := by
  intro b hb
  have hd := List.all_eq_true.mp (Decimal.all_decimal n) b hb
  rintro rfl
  cases hd

private theorem dumpBlock_line {level : Nat} {opening closing : UInt8} {parts : List Bytes}
    (ho : opening ≠ 0x0A) (hc : closing ≠ 0x0A) (h : ∀ part ∈ parts, ∀ b ∈ part, b ≠ 0x0A) :
    ∀ b ∈ dumpBlock none level opening closing parts, b ≠ 0x0A := by
  have hinter : ∀ b ∈ List.intercalate [0x2C] parts, b ≠ 0x0A := by
    induction parts with
    | nil =>
      intro b hb
      cases hb
    | cons part parts ih =>
      have hrest := ih fun other hother ↦ h other (List.mem_cons_of_mem _ hother)
      cases parts with
      | nil =>
        intro b hb
        exact h part List.mem_cons_self b (by simpa [List.intercalate] using hb)
      | cons next parts =>
        intro b hb
        rw [intercalate_cons_cons, List.mem_append, List.mem_append] at hb
        rcases hb with hb | hb | hb
        · exact h part List.mem_cons_self b hb
        · rw [List.mem_singleton.mp hb]
          decide
        · exact hrest b hb
  intro b hb
  unfold dumpBlock at hb
  split at hb
  · simp only [List.mem_cons, List.not_mem_nil, or_false] at hb
    rcases hb with rfl | rfl
    · exact ho
    · exact hc
  · simp only [lineBreak, Option.isSome_none, Bool.false_eq_true, if_false, List.nil_append,
      List.mem_cons, List.mem_append, List.not_mem_nil, or_false] at hb
    rcases hb with rfl | hb | rfl
    · exact ho
    · exact hinter b hb
    · exact hc

/-- The compact text of a value has no line break. -/
theorem dumpValue_line {value : Value} (h : value.Plain) {level : Nat} {text : Bytes}
    (hd : dumpValue none level value = .ok text) : ∀ b ∈ text, b ≠ 0x0A := by
  induction h generalizing level text with
  | null =>
    cases hd
    decide +kernel
  | boolean flag =>
    cases flag with
    | false =>
      cases hd
      decide +kernel
    | true =>
      cases hd
      decide +kernel
  | @numberInteger number low high =>
    cases hd
    intro b hb
    unfold dumpInteger at hb
    split at hb
    · rcases List.mem_cons.mp hb with rfl | hb
      · decide
      · exact decimal_line _ b hb
    · exact decimal_line _ b hb
  | numberUnsigned high =>
    cases hd
    exact decimal_line _
  | string content =>
    rw [dumpValue] at hd
    exact dumpString_line hd
  | array each ih =>
    rw [dumpValue] at hd
    obtain ⟨parts, hparts, hd⟩ := bind_ok hd
    cases hd
    refine dumpBlock_line (by decide) (by decide) fun part hp ↦ ?_
    obtain ⟨item, hi, hitem⟩ := exists_of_forall₂ (dumpItems_parts hparts) hp
    exact ih item hi hitem
  | @object fields sorted each ih =>
    rw [dumpValue] at hd
    obtain ⟨parts, hparts, hd⟩ := bind_ok hd
    cases hd
    refine dumpBlock_line (by decide) (by decide) fun part hp ↦ ?_
    obtain ⟨field, hf, name, text, hname, htext, rfl⟩ :=
      exists_of_forall₂ (dumpFields_parts hparts) hp
    intro b hb
    rw [List.mem_append, List.mem_append] at hb
    rcases hb with (hb | hb) | hb
    · exact dumpString_line hname b hb
    · rw [List.mem_singleton.mp hb]
      decide
    · exact ih field hf htext b hb

end Json
