import ArbitrageEngine.Json.Dump
import ArbitrageEngine.Json.Parser

/-!
# Values of characters

`third_party/nlohmann/json.hpp`: the scanner checks the encoding of the strings that it reads,
and the serializer that of the strings that it writes. So every value that was read can be
written, and a value that was put together can be written if its strings are UTF-8.
-/

namespace Json

open Base

/-- The exception has a text of whole characters. -/
def Legible (failure : Failure) : Prop := IsUtf8 failure.what

instance (failure : Failure) : Decidable (Legible failure) :=
  inferInstanceAs (Decidable (IsUtf8 failure.what))

/-- ASCII is UTF-8. -/
theorem isUtf8_of_isAscii {text : Bytes} (h : isAscii text = true) : IsUtf8 text := by
  refine isUtf8_of_ascii fun c hc ↦ ?_
  exact of_decide_eq_true (List.all_eq_true.mp h c hc)

/-- A plain text is legible. -/
theorem legible_of_plain (failure : Failure) (h : failure.Plain) : Legible failure :=
  isUtf8_of_isAscii h.2

/-! ### Encoded code points -/

/-- A code point that is not a surrogate. -/
def IsScalar (codepoint : Nat) : Prop :=
  codepoint < 0xD800 ∨ 0xE000 ≤ codepoint ∧ codepoint ≤ 0x10FFFF

private theorem utf8Step_tail (n : Nat) (ranges : Pending) :
    utf8Step ((0x80, 0xBF) :: ranges) (UInt8.ofNat (0x80 + n % 64)) = some ranges := by
  have htail : ∀ k < 64,
      (0x80 ≤ UInt8.ofNat (0x80 + k) && UInt8.ofNat (0x80 + k) ≤ 0xBF) = true := by
    decide
  exact if_pos (htail (n % 64) (Nat.mod_lt _ (by decide)))

private theorem lead_two : ∀ a < 32, 2 ≤ a →
    utf8Step [] (UInt8.ofNat (0xC0 + a)) = some [(0x80, 0xBF)] := by
  decide

private theorem lead_three : ∀ (a : Fin 16) (b : Fin 64), (a.1 = 0 → 32 ≤ b.1) →
    (a.1 = 13 → b.1 < 32) →
    utf8Run [] [UInt8.ofNat (0xE0 + a), UInt8.ofNat (0x80 + b)] = some [(0x80, 0xBF)] := by
  decide +kernel

private theorem lead_four : ∀ (a : Fin 5) (b : Fin 64), (a.1 = 0 → 16 ≤ b.1) →
    (a.1 = 4 → b.1 < 16) →
    utf8Run [] [UInt8.ofNat (0xF0 + a), UInt8.ofNat (0x80 + b)] =
      some [(0x80, 0xBF), (0x80, 0xBF)] := by
  decide +kernel

/-- The bytes of a code point are a character. -/
theorem isUtf8_encodeCodepoint {codepoint : Nat} (h : IsScalar codepoint) :
    IsUtf8 (encodeCodepoint codepoint) := by
  unfold IsScalar at h
  unfold encodeCodepoint IsUtf8
  split
  · next hone =>
    have hascii : ∀ n < 0x80, utf8Run [] [UInt8.ofNat n] = some [] := by decide
    exact hascii codepoint hone
  · split
    · next hwide htwo =>
      rw [utf8Run_cons, lead_two (codepoint / 64) (by omega) (by omega), Option.bind_some,
        utf8Run_cons, utf8Step_tail]
      rfl
    · split
      · next hthree =>
        have hlead := lead_three ⟨codepoint / 4096, by omega⟩ ⟨codepoint / 64 % 64, by omega⟩
          (by dsimp only; omega) (by dsimp only; omega)
        rw [show [UInt8.ofNat (0xE0 + codepoint / 4096), UInt8.ofNat (0x80 + codepoint / 64 % 64),
            UInt8.ofNat (0x80 + codepoint % 64)] =
          [UInt8.ofNat (0xE0 + codepoint / 4096), UInt8.ofNat (0x80 + codepoint / 64 % 64)] ++
            [UInt8.ofNat (0x80 + codepoint % 64)] from rfl, utf8Run_append, hlead,
          Option.bind_some, utf8Run_cons, utf8Step_tail]
        rfl
      · next hfour =>
        have hlead := lead_four ⟨codepoint / 262144, by omega⟩ ⟨codepoint / 4096 % 64, by omega⟩
          (by dsimp only; omega) (by dsimp only; omega)
        rw [show [UInt8.ofNat (0xF0 + codepoint / 262144),
            UInt8.ofNat (0x80 + codepoint / 4096 % 64), UInt8.ofNat (0x80 + codepoint / 64 % 64),
            UInt8.ofNat (0x80 + codepoint % 64)] =
          [UInt8.ofNat (0xF0 + codepoint / 262144), UInt8.ofNat (0x80 + codepoint / 4096 % 64)] ++
            [UInt8.ofNat (0x80 + codepoint / 64 % 64),
              UInt8.ofNat (0x80 + codepoint % 64)] from rfl,
          utf8Run_append, hlead, Option.bind_some, utf8Run_cons, utf8Step_tail, Option.bind_some,
          utf8Run_cons, utf8Step_tail]
        rfl

/-- The characters of a literal are encoded like code points of an escape. -/
theorem utf8EncodeChar_eq (c : Char) : String.utf8EncodeChar c = encodeCodepoint c.toNat := by
  have hlt : c.val.toNat < 0x110000 := by
    rcases c.valid with h | h <;> omega
  unfold String.utf8EncodeChar encodeCodepoint Char.toNat
  generalize c.val.toNat = v at hlt
  dsimp only
  by_cases hone : v < 0x80
  · rw [if_pos (Nat.le_of_lt_succ hone), if_pos hone]
  · rw [if_neg (by omega), if_neg hone]
    by_cases htwo : v ≤ 0x7FF
    · rw [if_pos htwo, if_pos htwo, Nat.add_comm, Nat.add_comm (v % 64),
        Nat.mod_eq_of_lt (by omega)]
    · rw [if_neg htwo, if_neg htwo]
      by_cases hthree : v ≤ 0xFFFF
      · rw [if_pos hthree, if_pos hthree, Nat.mod_eq_of_lt (a := v / 4096) (by omega)]
        simp only [Nat.add_comm]
      · rw [if_neg hthree, if_neg hthree, Nat.mod_eq_of_lt (a := v / 262144) (by omega)]
        simp only [Nat.add_comm]

/-- A literal is UTF-8. -/
theorem isUtf8_ascii (text : String) : IsUtf8 (ascii text) := by
  obtain ⟨chars, hchars⟩ := text.isValidUTF8
  have htext : ascii text = chars.flatMap String.utf8EncodeChar := by
    unfold ascii String.toUTF8
    rw [hchars]
    simp [List.utf8Encode]
  rw [htext]
  clear htext hchars
  induction chars with
  | nil => exact isUtf8_nil
  | cons c chars ih =>
    have hscalar : IsScalar c.toNat := by
      rcases c.valid with h | h
      · exact .inl h
      · exact .inr ⟨by unfold Char.toNat; omega, by unfold Char.toNat; omega⟩
    rw [List.flatMap_cons, utf8EncodeChar_eq]
    exact (isUtf8_encodeCodepoint hscalar).append ih

/-! ### Strings of the scanner -/

private theorem hexValue_lt : ∀ c : UInt8, ∀ d ∈ hexValue c, d < 16 := by
  decide +kernel

private theorem getCodepoint_lt {count value codepoint : Nat} {rest tail : Bytes}
    (h : getCodepoint count value rest = .ok (codepoint, tail)) :
    codepoint < (value + 1) * 16 ^ count := by
  induction count generalizing value rest with
  | zero =>
    cases h
    omega
  | succ count ih =>
    cases rest with
    | nil => cases h
    | cons c rest =>
      rw [getCodepoint] at h
      split at h
      · next d hd =>
        have hlt := hexValue_lt c d hd
        have hle : (value * 16 + d + 1) * 16 ^ count ≤ (value + 1) * 16 * 16 ^ count :=
          Nat.mul_le_mul_right _ (by omega)
        rw [Nat.pow_succ', ← Nat.mul_assoc]
        exact Nat.lt_of_lt_of_le (ih h) hle
      · cases h

private theorem lowSurrogate_scalar {high codepoint : Nat} {rest tail : Bytes}
    (hh : 0xD800 ≤ high ∧ high ≤ 0xDBFF) (h : lowSurrogate high rest = .ok (codepoint, tail)) :
    IsScalar codepoint := by
  cases rest with
  | nil => cases h
  | cons slash rest =>
    simp only [lowSurrogate] at h
    split at h
    · cases h
    · split at h
      · cases h
      · split at h
        · cases h
        · split at h
          · cases h
          · split at h
            · next hlow =>
              simp only [Bool.and_eq_true, decide_eq_true_eq] at hlow
              obtain ⟨rfl, -⟩ := Prod.mk.inj (Except.ok.inj h)
              right
              omega
            · cases h

private theorem unicodeEscape_scalar {codepoint : Nat} {rest tail : Bytes}
    (h : unicodeEscape rest = .ok (codepoint, tail)) : IsScalar codepoint := by
  unfold unicodeEscape at h
  split at h
  · cases h
  · next n rest' hn =>
    have hlt : n < 65536 := getCodepoint_lt hn
    split at h
    · next hhigh =>
      simp only [Bool.and_eq_true, decide_eq_true_eq] at hhigh
      exact lowSurrogate_scalar hhigh h
    · next hhigh =>
      split at h
      · cases h
      · next hlow =>
        simp only [Bool.and_eq_true, decide_eq_true_eq] at hhigh hlow
        cases h
        unfold IsScalar
        omega

private theorem lowSurrogate_error {high : Nat} {rest : Bytes} {stopped : Scanned}
    (h : lowSurrogate high rest = .error stopped) :
    ∃ message, stopped.token = .parseError message := by
  cases rest with
  | nil =>
    cases h
    exact ⟨_, rfl⟩
  | cons slash rest =>
    simp only [lowSurrogate] at h
    split at h
    · cases h
      exact ⟨_, rfl⟩
    · split at h
      · cases h
        exact ⟨_, rfl⟩
      · split at h
        · cases h
          exact ⟨_, rfl⟩
        · split at h
          · cases h
            exact ⟨_, rfl⟩
          · split at h
            · cases h
            · cases h
              exact ⟨_, rfl⟩

private theorem unicodeEscape_error {rest : Bytes} {stopped : Scanned}
    (h : unicodeEscape rest = .error stopped) :
    ∃ message, stopped.token = .parseError message := by
  unfold unicodeEscape at h
  split at h
  · cases h
    exact ⟨_, rfl⟩
  · split at h
    · exact lowSurrogate_error h
    · split at h
      · cases h
        exact ⟨_, rfl⟩
      · cases h

private theorem nextByteInRange_isUtf8 {ranges : Pending} {buffer rest text tail : Bytes}
    (hb : utf8Run [] buffer = some ranges)
    (h : nextByteInRange ranges buffer rest = .ok (text, tail)) : IsUtf8 text := by
  induction ranges generalizing buffer rest with
  | nil =>
    cases h
    exact hb
  | cons range ranges ih =>
    cases rest with
    | nil => cases h
    | cons c rest =>
      rw [nextByteInRange] at h
      split at h
      · next hin =>
        refine ih ?_ h
        rw [utf8Run_append, hb, Option.bind_some, utf8Run_cons]
        show (utf8Step (range :: ranges) c).bind _ = _
        rw [show utf8Step (range :: ranges) c = some ranges from if_pos hin]
        rfl
      · cases h

private theorem simpleEscape_ascii {c byte : UInt8} (h : simpleEscape c = some byte) :
    byte < 0x80 := by
  have hall : ∀ c : UInt8, (simpleEscape c).all (· < 0x80) = true := by
    decide +kernel
  have hbyte := hall c
  rw [h] at hbyte
  exact of_decide_eq_true hbyte

private theorem isUtf8_byte {c : UInt8} (h : c < 0x80) : IsUtf8 [c] :=
  isUtf8_of_ascii (by simpa using h)

private theorem byte_lt_iff {c : UInt8} : c < 0x80 ↔ c ≤ 0x7F := by
  rw [UInt8.lt_iff_toNat_lt, UInt8.le_iff_toNat_le]
  exact Nat.lt_succ_iff

/-- A string that the scanner completes is UTF-8. -/
theorem scanString_isUtf8 {fuel : Nat} {buffer rest text : Bytes} (hb : IsUtf8 buffer)
    (h : (scanString fuel buffer rest).token = .valueString text) : IsUtf8 text := by
  induction fuel generalizing buffer rest with
  | zero => cases h
  | succ fuel ih =>
    cases rest with
    | nil => cases h
    | cons c rest =>
      simp only [scanString] at h
      split at h
      · cases h
        exact hb
      · split at h
        · cases rest with
          | nil => cases h
          | cons e rest =>
            dsimp only at h
            split at h
            · next byte hescape =>
              exact ih (hb.append (isUtf8_byte (simpleEscape_ascii hescape))) h
            · split at h
              · split at h
                · next stopped hstopped =>
                  obtain ⟨message, hmessage⟩ := unicodeEscape_error hstopped
                  rw [hmessage] at h
                  cases h
                · next codepoint tail hescape =>
                  exact ih (hb.append (isUtf8_encodeCodepoint (unicodeEscape_scalar hescape))) h
              · cases h
        · split at h
          · cases h
          · split at h
            · next hascii => exact ih (hb.append (isUtf8_byte (byte_lt_iff.mpr hascii))) h
            · next hwide =>
              split at h
              · cases h
              · next ranges hranges =>
                have hlead : utf8Run [] (buffer ++ [c]) = some ranges := by
                  have hstep : utf8Step [] c = some ranges :=
                    (utf8Step_lead fun hlt ↦ hwide (byte_lt_iff.mp hlt)).trans hranges
                  rw [utf8Run_append, hb, Option.bind_some, utf8Run_cons, hstep]
                  rfl
                split at h
                · cases h
                · next text' tail hnext => exact ih (nextByteInRange_isUtf8 hlead hnext) h

/-! ### Tokens -/

/-- The token, if it is a string, is UTF-8. -/
def Token.Utf8 : Token → Prop
  | valueString text => IsUtf8 text
  | _ => True

private theorem utf8_numberToken (negative float : Bool) (token : Bytes) :
    (numberToken negative float token).Utf8 := by
  unfold numberToken
  dsimp only
  repeat' split
  all_goals trivial

private theorem utf8_scanExponent (negative float : Bool) (token rest : Bytes) :
    (scanExponent negative float token rest).token.Utf8 := by
  unfold scanExponent
  repeat' split
  all_goals first | trivial | exact utf8_numberToken negative float token

private theorem utf8_scanFraction (negative : Bool) (token rest : Bytes) :
    (scanFraction negative token rest).token.Utf8 := by
  unfold scanFraction
  repeat' split
  all_goals first | trivial | exact utf8_scanExponent negative _ _ _

private theorem utf8_scanNumber (c : UInt8) (rest : Bytes) : (scanNumber c rest).token.Utf8 := by
  have hinteger (negative : Bool) (sign : Bytes) (d : UInt8) (rest : Bytes) :
      (scanInteger negative sign d rest).token.Utf8 := by
    unfold scanInteger
    split
    · exact utf8_scanFraction _ _ _
    · exact utf8_scanFraction _ _ _
  unfold scanNumber
  repeat' split
  all_goals first | trivial | exact hinteger _ _ _ _

private theorem utf8_scanLiteral {token : Token} (ht : token.Utf8) (text rest : Bytes) :
    (scanLiteral token text rest).token.Utf8 := by
  induction text generalizing rest with
  | nil => exact ht
  | cons expected text ih =>
    cases rest with
    | nil => trivial
    | cons c rest =>
      rw [scanLiteral]
      split
      · exact ih rest
      · trivial

private theorem utf8_afterString (cursor : Cursor) (rest : Bytes) :
    (cursor.afterString rest).1.Utf8 := by
  show (scanString (rest.length + 1) [] rest).token.Utf8
  cases ht : (scanString (rest.length + 1) [] rest).token with
  | valueString text => exact scanString_isUtf8 isUtf8_nil ht
  | _ => trivial

private theorem utf8_ite {c : Prop} [Decidable c] {x y : Token × Cursor} (hx : x.1.Utf8)
    (hy : y.1.Utf8) : (if c then x else y).1.Utf8 := by
  split
  · exact hx
  · exact hy

/-- Every string that the scanner reads is UTF-8. -/
theorem utf8_scan (cursor : Cursor) : cursor.scan.1.Utf8 := by
  have hbom {stopped : Scanned} (h : cursor.skipBom = .error stopped) : stopped.token.Utf8 := by
    unfold Cursor.skipBom at h
    repeat' split at h
    all_goals
      cases h
      try trivial
  unfold Cursor.scan
  split
  · next stopped hstopped => exact hbom hstopped
  · split
    · trivial
    · iterate 6 refine utf8_ite trivial ?_
      iterate 3 refine utf8_ite (utf8_scanLiteral (by trivial) _ _) ?_
      refine utf8_ite (utf8_afterString _ _) ?_
      exact utf8_ite (utf8_scanNumber _ _) (utf8_ite trivial trivial)

/-! ### Values -/

mutual

/-- Every string of the value, keys included, is UTF-8. -/
def Value.Utf8 : Value → Prop
  | .string text => IsUtf8 text
  | .array items => Value.Utf8Items items
  | .object fields => Value.Utf8Fields fields
  | _ => True

/-- `Utf8` for the items of an array. -/
def Value.Utf8Items : List Value → Prop
  | [] => True
  | item :: items => item.Utf8 ∧ Value.Utf8Items items

/-- `Utf8` for the fields of an object. -/
def Value.Utf8Fields : List (Bytes × Value) → Prop
  | [] => True
  | (key, item) :: fields => (IsUtf8 key ∧ item.Utf8) ∧ Value.Utf8Fields fields

end

/-- The items of an array, one by one. -/
theorem utf8Items_iff (items : List Value) :
    Value.Utf8Items items ↔ ∀ item ∈ items, item.Utf8 := by
  induction items with
  | nil => simp [Value.Utf8Items]
  | cons item items ih => rw [Value.Utf8Items, ih, List.forall_mem_cons]

/-- The members of an object, one by one. -/
theorem utf8Fields_iff (fields : List (Bytes × Value)) :
    Value.Utf8Fields fields ↔ ∀ field ∈ fields, IsUtf8 field.1 ∧ field.2.Utf8 := by
  induction fields with
  | nil => simp [Value.Utf8Fields]
  | cons field fields ih => rw [Value.Utf8Fields, ih, List.forall_mem_cons]

/-- A member is set. -/
theorem utf8Fields_insertField {key : Bytes} {value : Value} {fields : List (Bytes × Value)}
    (hk : IsUtf8 key) (hv : value.Utf8) (hf : Value.Utf8Fields fields) :
    Value.Utf8Fields (insertField key value fields) := by
  rw [utf8Fields_iff] at hf ⊢
  intro field hfield
  rcases mem_insertField hfield with rfl | hfield
  · exact ⟨hk, hv⟩
  · exact hf field hfield

/-- Several members are set. -/
theorem utf8Fields_insertFields {fields done : List (Bytes × Value)}
    (hf : Value.Utf8Fields fields) (hd : Value.Utf8Fields done) :
    Value.Utf8Fields (insertFields fields done) := by
  rw [utf8Fields_iff] at hf hd ⊢
  intro field hfield
  rcases mem_insertFields hfield with hfield | hfield
  · exact hf field hfield
  · exact hd field hfield

/-- An assignment to another key hides none of the fields. -/
theorem utf8Fields_of_insertField {key : Bytes} {value : Value} {fields : List (Bytes × Value)}
    (h : Value.Utf8Fields (insertField key value fields)) (hk : ∀ field ∈ fields, key ≠ field.1) :
    Value.Utf8Fields fields := by
  induction fields with
  | nil => trivial
  | cons field fields ih =>
    rw [List.forall_mem_cons] at hk
    rw [insertField, if_neg hk.1] at h
    split at h
    · exact h.2
    · exact ⟨h.1, ih h.2 hk.2⟩

/-! ### What the parser reads -/

/-- `Utf8` for an open container. -/
def Frame.Utf8 : Frame → Prop
  | array items => Value.Utf8Items items
  | object fields key => Value.Utf8Fields fields ∧ IsUtf8 key

/-- `Utf8` for what the loop goes on with. -/
def Mode.Utf8 : Mode → Prop
  | token last => last.Utf8
  | built value => value.Utf8

/-- What the loop holds is UTF-8. -/
def Utf8State (next : Mode × Cursor × List Frame) : Prop :=
  next.1.Utf8 ∧ ∀ frame ∈ next.2.2, frame.Utf8

private theorem parseKey_utf8 {last : Token} {cursor next : Cursor} {key : Bytes} (hl : last.Utf8)
    (h : parseKey last cursor = .ok (key, next)) : IsUtf8 key := by
  unfold parseKey at h
  split at h
  · split at h
    · cases h
      exact hl
    · cases h
  · cases h

private theorem beginValue_utf8 {last : Token} {cursor : Cursor} {stack : List Frame}
    {next : Mode × Cursor × List Frame} (hl : last.Utf8) (hs : ∀ frame ∈ stack, frame.Utf8)
    (h : beginValue last cursor stack = .ok next) : Utf8State next := by
  cases last with
  | beginObject =>
    simp only [beginValue] at h
    split at h
    · cases h
      exact ⟨trivial, hs⟩
    · next other other' hother =>
      obtain ⟨⟨key, after⟩, hkey, h⟩ := bind_ok h
      cases h
      have hfirst := utf8_scan cursor
      rw [hother] at hfirst
      refine ⟨utf8_scan after, List.forall_mem_cons.mpr ⟨⟨trivial, ?_⟩, hs⟩⟩
      exact parseKey_utf8 hfirst hkey
  | beginArray =>
    simp only [beginValue] at h
    split at h
    · cases h
      exact ⟨trivial, hs⟩
    · next other other' hother =>
      cases h
      have hfirst := utf8_scan cursor
      rw [hother] at hfirst
      exact ⟨hfirst, List.forall_mem_cons.mpr ⟨trivial, hs⟩⟩
  | valueFloat token =>
    simp only [beginValue] at h
    split at h
    · cases h
    · cases h
      exact ⟨trivial, hs⟩
  | endOfInput =>
    simp only [beginValue] at h
    split at h
    · cases h
    · cases h
  | valueString value =>
    cases h
    exact ⟨hl, hs⟩
  | parseError _ | endArray | endObject | nameSeparator | valueSeparator => cases h
  | literalFalse | literalNull | literalTrue | valueInteger _ | valueUnsigned _ =>
    cases h
    exact ⟨trivial, hs⟩

private theorem continueFrame_utf8 {value : Value} {cursor : Cursor} {frame : Frame}
    {stack : List Frame} {next : Mode × Cursor × List Frame} (hv : value.Utf8) (hf : frame.Utf8)
    (hs : ∀ frame ∈ stack, frame.Utf8) (h : continueFrame value cursor frame stack = .ok next) :
    Utf8State next := by
  cases frame with
  | array items =>
    have hitems : Value.Utf8Items (items ++ [value]) := by
      rw [utf8Items_iff, List.forall_mem_append, List.forall_mem_singleton]
      exact ⟨(utf8Items_iff items).mp hf, hv⟩
    simp only [continueFrame] at h
    split at h
    · next after _ =>
      cases h
      exact ⟨utf8_scan after, List.forall_mem_cons.mpr ⟨hitems, hs⟩⟩
    · cases h
      exact ⟨hitems, hs⟩
    · cases h
  | object fields key =>
    have hfields := utf8Fields_insertField hf.2 hv hf.1
    simp only [continueFrame] at h
    split at h
    · next after _ =>
      obtain ⟨⟨name, rest⟩, hkey, h⟩ := bind_ok h
      cases h
      have hname := parseKey_utf8 (utf8_scan after) hkey
      exact ⟨utf8_scan rest, List.forall_mem_cons.mpr ⟨⟨hfields, hname⟩, hs⟩⟩
    · cases h
      exact ⟨hfields, hs⟩
    · cases h

private theorem parseLoop_utf8 {fuel : Nat} {mode : Mode} {cursor next : Cursor}
    {stack : List Frame} {value : Value} (hm : mode.Utf8) (hs : ∀ frame ∈ stack, frame.Utf8)
    (h : parseLoop fuel mode cursor stack = .ok (value, next)) : value.Utf8 := by
  induction fuel generalizing mode cursor stack with
  | zero => cases h
  | succ fuel ih =>
    cases mode with
    | token last =>
      obtain ⟨⟨mode, after, stack'⟩, hbegin, h⟩ := bind_ok h
      obtain ⟨hmode, hstack⟩ := beginValue_utf8 hm hs hbegin
      exact ih hmode hstack h
    | built item =>
      cases stack with
      | nil =>
        cases h
        exact hm
      | cons frame stack =>
        obtain ⟨hframe, hrest⟩ := List.forall_mem_cons.mp hs
        obtain ⟨⟨mode, after, stack'⟩, hcontinue, h⟩ := bind_ok h
        obtain ⟨hmode, hstack⟩ := continueFrame_utf8 hm hframe hrest hcontinue
        exact ih hmode hstack h

/-- Every string of a parsed value is UTF-8. -/
theorem parse_utf8 {raw : Bytes} {value : Value} (h : parse raw = .ok value) : value.Utf8 := by
  unfold parse at h
  obtain ⟨⟨item, cursor⟩, hloop, h⟩ := bind_ok h
  have hfirst : (Mode.token (Cursor.start raw).scan.1).Utf8 := utf8_scan _
  have hitem := parseLoop_utf8 hfirst (List.forall_mem_nil _) hloop
  dsimp only at h
  split at h
  · cases h
    exact hitem
  · cases h

/-- A member of a value in UTF-8. -/
theorem Value.Utf8.find? {value item : Value} {key : Bytes} (h : value.Utf8)
    (hf : value.find? key = some item) : item.Utf8 := by
  cases value with
  | object fields =>
    obtain ⟨field, hfield, rfl⟩ := Option.map_eq_some_iff.mp hf
    exact ((utf8Fields_iff fields).mp h field (List.mem_of_find?_eq_some hfield)).2
  | null | boolean _ | numberInteger _ | numberUnsigned _ | numberFloat _ | string _ | array _ =>
    cases hf

/-- The text that `value` returns. -/
theorem Value.Utf8.valueString {value : Value} {key fallback text : Bytes} (h : value.Utf8)
    (hf : IsUtf8 fallback) (ht : value.valueString key fallback = .ok text) : IsUtf8 text := by
  unfold Value.valueString at ht
  split at ht
  · split at ht
    · next item hitem =>
      unfold Value.getString at ht
      split at ht
      · cases ht
        exact h.find? hitem
      · cases ht
    · cases ht
      exact hf
  · cases ht

/-! ### What the serializer writes -/

private theorem dumpString_isOk_iff (text : Bytes) :
    (dumpString text).isOk = true ↔ IsUtf8 text := by
  constructor
  · intro h
    obtain ⟨written, hw⟩ := exists_ok_of_isOk h
    exact (dumpString_eq_ok.mp hw).1
  · intro h
    rw [dumpString_eq_ok.mpr ⟨h, rfl⟩]
    rfl

/-- A computation and another one after it both succeed. -/
private theorem isOk_bind_iff {α β γ : Type} (x : Except Failure α) (y : Except Failure β)
    (f : α → β → γ) :
    (do let a ← x; let b ← y; .ok (f a b) : Except Failure γ).isOk = true ↔
      x.isOk = true ∧ y.isOk = true := by
  cases x with
  | error failure => exact ⟨nofun, nofun⟩
  | ok a =>
    cases y with
    | error failure => exact ⟨nofun, nofun⟩
    | ok b => exact ⟨fun _ ↦ ⟨rfl, rfl⟩, fun _ ↦ rfl⟩

mutual

/-- A value can be written exactly if its strings are UTF-8. -/
theorem dumpValue_isOk_iff (indent : Option Nat) (level : Nat) :
    ∀ value : Value, (dumpValue indent level value).isOk = true ↔ value.Utf8
  | .string text => dumpString_isOk_iff text
  | .array items => by
    have hitems := dumpItems_isOk_iff indent (newIndent indent level) items
    rw [dumpValue, Value.Utf8, ← hitems]
    cases dumpItems indent (newIndent indent level) items <;> rfl
  | .object fields => by
    have hfields := dumpFields_isOk_iff indent (newIndent indent level) fields
    rw [dumpValue, Value.Utf8, ← hfields]
    cases dumpFields indent (newIndent indent level) fields <;> rfl
  | .boolean true => iff_of_true rfl trivial
  | .boolean false => iff_of_true rfl trivial
  | .numberInteger _ => iff_of_true rfl trivial
  | .numberUnsigned _ => iff_of_true rfl trivial
  | .numberFloat _ => iff_of_true rfl trivial
  | .null => iff_of_true rfl trivial

private theorem dumpItems_isOk_iff (indent : Option Nat) (level : Nat) :
    ∀ items : List Value, (dumpItems indent level items).isOk = true ↔ Value.Utf8Items items
  | [] => iff_of_true rfl trivial
  | item :: items => by
    have hitem := dumpValue_isOk_iff indent level item
    have hitems := dumpItems_isOk_iff indent level items
    rw [dumpItems, Value.Utf8Items, ← hitem, ← hitems]
    exact isOk_bind_iff _ _ _

private theorem dumpFields_isOk_iff (indent : Option Nat) (level : Nat) :
    ∀ fields : List (Bytes × Value),
      (dumpFields indent level fields).isOk = true ↔ Value.Utf8Fields fields
  | [] => iff_of_true rfl trivial
  | (key, item) :: fields => by
    have hitem := dumpValue_isOk_iff indent level item
    have hfields := dumpFields_isOk_iff indent level fields
    rw [dumpFields, Value.Utf8Fields, ← dumpString_isOk_iff key, ← hitem, ← hfields]
    cases dumpString key with
    | error failure => exact ⟨nofun, fun h ↦ nomatch h.1.1⟩
    | ok name =>
      refine (isOk_bind_iff _ _ _).trans ?_
      exact and_congr_left fun _ ↦ ⟨fun h ↦ ⟨rfl, h⟩, fun h ↦ h.2⟩

end

end Json
