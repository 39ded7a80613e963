import ArbitrageEngine.Json.Utf8
import Mathlib.Data.Nat.Bitwise

/-!
# JSON serializer

`third_party/nlohmann/json.hpp`, class `serializer`: `dump`, `dump_escaped`, `dump_integer`
and the UTF-8 decoder `decode`, as `json::dump(indent)` calls them, with the strict error
handler and without `ensure_ascii`. A floating-point number is written as the token it
keeps; nothing that is written here has one.
-/

namespace Json

open Base

/-! ### Strings -/

/-- The first part of `utf8d`: the type of each byte. -/
def utf8Types : List Nat :=
  List.flatten
    [List.replicate 128 0, List.replicate 16 1, List.replicate 16 9, List.replicate 32 7,
      List.replicate 2 8, List.replicate 30 2, [0xA], List.replicate 12 3, [4],
      List.replicate 2 3, [0xB], List.replicate 3 6, [5], List.replicate 11 8]

/-- The second part of `utf8d`: the next state for each state and byte type. -/
def utf8Transitions : List Nat :=
  List.flatten
    [[0, 1, 2, 3, 5, 8, 7, 1, 1, 1, 4, 6, 1, 1, 1, 1],
      [1, 1, 1, 1, 1, 1, 1, 1, 1, 1, 1, 1, 1, 1, 1, 1],
      [1, 0, 1, 1, 1, 1, 1, 0, 1, 0, 1, 1, 1, 1, 1, 1],
      [1, 2, 1, 1, 1, 1, 1, 2, 1, 2, 1, 1, 1, 1, 1, 1],
      [1, 1, 1, 1, 1, 1, 1, 2, 1, 1, 1, 1, 1, 1, 1, 1],
      [1, 2, 1, 1, 1, 1, 1, 1, 1, 2, 1, 1, 1, 1, 1, 1],
      [1, 1, 1, 1, 1, 1, 1, 3, 1, 3, 1, 1, 1, 1, 1, 1],
      [1, 3, 1, 1, 1, 1, 1, 3, 1, 3, 1, 1, 1, 1, 1, 1],
      [1, 3, 1, 1, 1, 1, 1, 1, 1, 1, 1, 1, 1, 1, 1, 1]]

/-- `utf8d`. -/
def utf8d : List Nat := utf8Types ++ utf8Transitions

/-- `UTF8_ACCEPT`. -/
def utf8Accept : Nat := 0

/-- `UTF8_REJECT`. -/
def utf8Reject : Nat := 1

/-- `decode`: the next state and the code point so far. -/
def decode (state codepoint : Nat) (byte : UInt8) : Nat × Nat :=
  let type := utf8d.getD byte.toNat 0
  (utf8d.getD (256 + state * 16 + type) utf8Reject,
    if state ≠ utf8Accept then (byte.toNat &&& 0x3F) ||| (codepoint <<< 6)
    else (0xFF >>> type) &&& byte.toNat)

/-- `hex_bytes`. -/
def hexBytes (byte : UInt8) : Bytes := [hexDigit (byte.toNat / 16), hexDigit (byte.toNat % 16)]

/-- A lower-case hexadecimal digit. -/
def lowerHexDigit (n : Nat) : UInt8 :=
  if n < 10 then UInt8.ofNat (0x30 + n) else UInt8.ofNat (0x57 + n)

/-- The text of a code point that is complete with the byte `byte`, the bytes before it
being written already. -/
def escapeCodepoint (codepoint : Nat) (byte : UInt8) : Bytes :=
  if codepoint = 0x08 then ascii "\\b"
  else if codepoint = 0x09 then ascii "\\t"
  else if codepoint = 0x0A then ascii "\\n"
  else if codepoint = 0x0C then ascii "\\f"
  else if codepoint = 0x0D then ascii "\\r"
  else if codepoint = 0x22 then ascii "\\\""
  else if codepoint = 0x5C then ascii "\\\\"
  else if codepoint ≤ 0x1F then
    ascii "\\u00" ++ [lowerHexDigit (codepoint / 16), lowerHexDigit (codepoint % 16)]
  else [byte]

/-- The loop of `dump_escaped`; `last` is the byte before the unread ones. -/
def dumpEscapedFrom (state codepoint index : Nat) (last : UInt8) : Bytes → Except Failure Bytes
  | [] =>
    if state = utf8Accept then .ok []
    else .error (jsonFailure "type_error" 316
      (ascii "incomplete UTF-8 string; last byte: 0x" ++ hexBytes last))
  | byte :: rest =>
    let (state, codepoint) := decode state codepoint byte
    if state = utf8Reject then
      .error (jsonFailure "type_error" 316
        (ascii "invalid UTF-8 byte at index " ++ decimal index ++ ascii ": 0x" ++ hexBytes byte))
    else do
      let tail ← dumpEscapedFrom state codepoint (index + 1) byte rest
      .ok ((if state = utf8Accept then escapeCodepoint codepoint byte else [byte]) ++ tail)

/-- `dump_escaped`. -/
def dumpEscaped (text : Bytes) : Except Failure Bytes := dumpEscapedFrom utf8Accept 0 0 0 text

/-- A string between its quotes. -/
def dumpString (text : Bytes) : Except Failure Bytes := do
  let body ← dumpEscaped text
  .ok (0x22 :: (body ++ [0x22]))

/-! ### Values -/

/-- `dump_integer`. -/
def dumpInteger (value : Int) : Bytes :=
  if value < 0 then 0x2D :: decimal value.natAbs else decimal value.natAbs

/-- The line break and the indentation of a pretty text. -/
def lineBreak (indent : Option Nat) (level : Nat) : Bytes :=
  if indent.isSome then 0x0A :: List.replicate level 0x20 else []

/-- `new_indent`. -/
def newIndent (indent : Option Nat) (level : Nat) : Nat := level + indent.getD 0

/-- The parts of an array or of an object between its brackets. -/
def dumpBlock (indent : Option Nat) (level : Nat) (opening closing : UInt8) (parts : List Bytes) :
    Bytes :=
  if parts = [] then [opening, closing]
  else
    let inner := lineBreak indent (newIndent indent level)
    opening :: (inner ++ List.intercalate (0x2C :: inner) parts ++
      (lineBreak indent level ++ [closing]))

/-- What stands between a key and its value. -/
def keySeparator (indent : Option Nat) : Bytes :=
  if indent.isSome then [0x3A, 0x20] else [0x3A]

mutual

/-- `serializer::dump` at the indentation `level`. -/
def dumpValue (indent : Option Nat) (level : Nat) : Value → Except Failure Bytes
  | .object fields => do
    let parts ← dumpFields indent (newIndent indent level) fields
    .ok (dumpBlock indent level 0x7B 0x7D parts)
  | .array items => do
    let parts ← dumpItems indent (newIndent indent level) items
    .ok (dumpBlock indent level 0x5B 0x5D parts)
  | .string text => dumpString text
  | .boolean true => .ok (ascii "true")
  | .boolean false => .ok (ascii "false")
  | .numberInteger value => .ok (dumpInteger value)
  | .numberUnsigned value => .ok (decimal value)
  | .numberFloat token => .ok token
  | .null => .ok (ascii "null")

/-- The items of an array. -/
def dumpItems (indent : Option Nat) (level : Nat) : List Value → Except Failure (List Bytes)
  | [] => .ok []
  | item :: items => do
    let part ← dumpValue indent level item
    let parts ← dumpItems indent level items
    .ok (part :: parts)

/-- The fields of an object. -/
def dumpFields (indent : Option Nat) (level : Nat) :
    List (Bytes × Value) → Except Failure (List Bytes)
  | [] => .ok []
  | (key, value) :: fields => do
    let name ← dumpString key
    let text ← dumpValue indent level value
    let parts ← dumpFields indent level fields
    .ok ((name ++ keySeparator indent ++ text) :: parts)

end

/-- `json::dump(indent)`; `none` is the compact text of `json::dump()`. -/
def dump (indent : Option Nat) (value : Value) : Except Failure Bytes := dumpValue indent 0 value

example : dump none (.object [(ascii "a", .array [.numberInteger (-7), .string [0x0A]])]) =
    .ok (ascii "\x7b\"a\":[-7,\"\\n\"]\x7d") := by
  decide +kernel

/-! ### The decoder and the characters of a text -/

/-- The states of the decoder, with what the current character still misses in them. -/
def decoderStates : List (Nat × Pending) :=
  [(0, []), (2, [(0x80, 0xBF)]), (3, [(0x80, 0xBF), (0x80, 0xBF)]),
    (4, [(0xA0, 0xBF), (0x80, 0xBF)]), (5, [(0x80, 0x9F), (0x80, 0xBF)]),
    (6, [(0x90, 0xBF), (0x80, 0xBF), (0x80, 0xBF)]),
    (7, [(0x80, 0xBF), (0x80, 0xBF), (0x80, 0xBF)]),
    (8, [(0x80, 0x8F), (0x80, 0xBF), (0x80, 0xBF)])]

/-- The least code point that the missing bytes can complete. -/
def leastCodepoint : Pending → Nat → Nat
  | [], codepoint => codepoint
  | (low, _) :: ranges, codepoint => leastCodepoint ranges (codepoint * 64 + low.toNat % 64)

private theorem leastCodepoint_mono {a b : Nat} (h : a ≤ b) (pending : Pending) :
    leastCodepoint pending a ≤ leastCodepoint pending b := by
  induction pending generalizing a b with
  | nil => exact h
  | cons range ranges ih => exact ih (by omega)

/-- The type of a byte, by its range. -/
def byteType (byte : UInt8) : Nat :=
  if byte < 0x80 then 0
  else if byte < 0x90 then 1
  else if byte < 0xA0 then 9
  else if byte < 0xC0 then 7
  else if byte < 0xC2 then 8
  else if byte < 0xE0 then 2
  else if byte = 0xE0 then 0xA
  else if byte = 0xED then 4
  else if byte < 0xF0 then 3
  else if byte = 0xF0 then 0xB
  else if byte < 0xF4 then 6
  else if byte = 0xF4 then 5
  else 8

/-- The automaton over byte types. -/
def typeStep : Pending → Nat → Option Pending
  | [], type =>
    if type = 0 then some []
    else if type = 2 then some [(0x80, 0xBF)]
    else if type = 3 then some [(0x80, 0xBF), (0x80, 0xBF)]
    else if type = 4 then some [(0x80, 0x9F), (0x80, 0xBF)]
    else if type = 5 then some [(0x80, 0x8F), (0x80, 0xBF), (0x80, 0xBF)]
    else if type = 6 then some [(0x80, 0xBF), (0x80, 0xBF), (0x80, 0xBF)]
    else if type = 0xA then some [(0xA0, 0xBF), (0x80, 0xBF)]
    else if type = 0xB then some [(0x90, 0xBF), (0x80, 0xBF), (0x80, 0xBF)]
    else none
  | (low, high) :: rest, type =>
    if (type = 1 ∧ low = 0x80) ∨ (type = 9 ∧ low ≤ 0x90 ∧ 0x9F ≤ high) ∨ (type = 7 ∧ high = 0xBF)
    then some rest
    else none

private theorem utf8Types_eq :
    utf8Types = (List.range 256).map fun n ↦ byteType (UInt8.ofNat n) := by
  decide +kernel

private theorem utf8Step_eq : ∀ byte : UInt8, ∀ entry ∈ decoderStates,
    utf8Step entry.2 byte = typeStep entry.2 (byteType byte) := by
  decide +kernel

private theorem transition_eq : ∀ entry ∈ decoderStates, ∀ type < 12,
    (typeStep entry.2 type = none → utf8Transitions.getD (entry.1 * 16 + type) 1 = 1) ∧
      ∀ next ∈ typeStep entry.2 type,
        (utf8Transitions.getD (entry.1 * 16 + type) 1, next) ∈ decoderStates := by
  decide +kernel

private theorem byteType_lt : ∀ byte : UInt8, byteType byte < 12 := by
  decide +kernel

private theorem utf8d_type (byte : UInt8) : utf8d.getD byte.toNat 0 = byteType byte := by
  have hlt : byte.toNat < utf8Types.length := by
    rw [utf8Types_eq, List.length_map, List.length_range]
    exact byte.toNat_lt
  rw [utf8d, List.getD_append _ _ _ _ hlt, utf8Types_eq, List.getD_eq_getElem?_getD,
    List.getElem?_map, List.getElem?_range byte.toNat_lt, Option.map_some, Option.getD_some,
    UInt8.ofNat_toNat]

private theorem decode_fst (state codepoint : Nat) (byte : UInt8) :
    (decode state codepoint byte).1 = utf8Transitions.getD (state * 16 + byteType byte) 1 := by
  have hlen : utf8Types.length = 256 := by
    rw [utf8Types_eq, List.length_map, List.length_range]
  show utf8d.getD (256 + state * 16 + utf8d.getD byte.toNat 0) 1 = _
  rw [utf8d_type, utf8d, List.getD_append_right _ _ _ _ (by omega), hlen]
  exact congrArg (utf8Transitions.getD · 1) (by omega)

private theorem decode_accept (codepoint : Nat) (byte : UInt8) :
    (decode utf8Accept codepoint byte).2 = (0xFF >>> byteType byte) &&& byte.toNat := by
  show (0xFF >>> utf8d.getD byte.toNat 0) &&& byte.toNat = _
  rw [utf8d_type]

private theorem ascii_codepoint : ∀ byte : UInt8, byte < 0x80 →
    (0xFF >>> byteType byte) &&& byte.toNat = byte.toNat := by
  decide +kernel

private theorem lead_codepoint : ∀ byte : UInt8, ∀ ranges ∈ continuationRanges byte,
    0x80 ≤ leastCodepoint ranges ((0xFF >>> byteType byte) &&& byte.toNat) := by
  decide +kernel

private theorem low_of_state (entry : Nat × Pending) (h : entry ∈ decoderStates) :
    ∀ range ∈ entry.2, 0x80 ≤ range.1 ∧ range.2 ≤ 0xBF := by
  have hall : decoderStates.all (fun entry ↦ entry.2.all fun range ↦
      decide (0x80 ≤ range.1) && decide (range.2 ≤ 0xBF)) = true := by
    decide +kernel
  intro range hr
  simpa using List.all_eq_true.mp (List.all_eq_true.mp hall entry h) range hr

private theorem accept_of_state : ∀ entry ∈ decoderStates,
    (entry.1 = utf8Accept ↔ entry.2 = []) ∧ entry.1 ≠ utf8Reject := by
  decide +kernel

/-- Every byte that the automaton refuses is refused by the table. -/
theorem decode_reject {state : Nat} {pending : Pending} (h : (state, pending) ∈ decoderStates)
    {codepoint : Nat} {byte : UInt8} (hb : utf8Step pending byte = none) :
    (decode state codepoint byte).1 = utf8Reject := by
  rw [utf8Step_eq byte _ h] at hb
  rw [decode_fst]
  exact (transition_eq _ h _ (byteType_lt byte)).1 hb

/-- Every other byte leads both to corresponding states. -/
theorem decode_step {state : Nat} {pending next : Pending}
    (h : (state, pending) ∈ decoderStates) (codepoint : Nat) {byte : UInt8}
    (hb : utf8Step pending byte = some next) :
    ((decode state codepoint byte).1, next) ∈ decoderStates := by
  rw [utf8Step_eq byte _ h] at hb
  rw [decode_fst]
  exact (transition_eq _ h _ (byteType_lt byte)).2 next hb

private theorem decode_pending {state codepoint : Nat} {byte : UInt8} (h : state ≠ utf8Accept) :
    (decode state codepoint byte).2 = codepoint * 64 + byte.toNat % 64 := by
  have hlt : byte.toNat % 2 ^ 6 < 2 ^ 6 := Nat.mod_lt _ (by omega)
  show (if state ≠ utf8Accept then (byte.toNat &&& 0x3F) ||| (codepoint <<< 6) else _) = _
  rw [if_pos h, Nat.and_two_pow_sub_one_eq_mod byte.toNat 6, Nat.or_comm,
    ← Nat.shiftLeft_add_eq_or_of_lt hlt, Nat.shiftLeft_eq]
  omega

/-- A character of several bytes has a code point beyond ASCII, whatever its bytes. -/
theorem leastCodepoint_decode {state codepoint : Nat} {pending next : Pending} {byte : UInt8}
    (h : (state, pending) ∈ decoderStates)
    (hleast : pending ≠ [] → 0x80 ≤ leastCodepoint pending codepoint)
    (hb : utf8Step pending byte = some next) (hmulti : ¬(pending = [] ∧ byte < 0x80)) :
    0x80 ≤ leastCodepoint next (decode state codepoint byte).2 := by
  cases pending with
  | nil =>
    have hlead : ¬byte < 0x80 := fun hlt ↦ hmulti ⟨rfl, hlt⟩
    have hstate : state = utf8Accept := (accept_of_state _ h).1.mpr rfl
    rw [utf8Step_lead hlead] at hb
    subst hstate
    rw [decode_accept]
    exact lead_codepoint byte next hb
  | cons range rest =>
    obtain ⟨low, high⟩ := range
    have hstate : state ≠ utf8Accept := fun hs ↦
      List.cons_ne_nil _ _ ((accept_of_state _ h).1.mp hs)
    have hbounds : (0x80 : UInt8) ≤ low ∧ high ≤ 0xBF :=
      low_of_state _ h (low, high) List.mem_cons_self
    rw [utf8Step] at hb
    by_cases hin : (decide (low ≤ byte) && decide (byte ≤ high)) = true
    · rw [if_pos hin] at hb
      cases hb
      rw [Bool.and_eq_true, decide_eq_true_eq, decide_eq_true_eq] at hin
      rw [decode_pending hstate]
      have hl : 0x80 ≤ low.toNat := hbounds.1
      have hlb : low.toNat ≤ byte.toNat := hin.1
      have hbh : byte.toNat ≤ 0xBF := Nat.le_trans hin.2 hbounds.2
      have hmono : codepoint * 64 + low.toNat % 64 ≤ codepoint * 64 + byte.toNat % 64 := by omega
      exact Nat.le_trans (hleast (List.cons_ne_nil _ _)) (leastCodepoint_mono hmono _)
    · rw [if_neg hin] at hb
      cases hb

/-- How one byte of a text is written. -/
def escapeByte (byte : UInt8) : Bytes :=
  if byte < 0x80 then escapeCodepoint byte.toNat byte else [byte]

private theorem escapeCodepoint_wide {codepoint : Nat} (h : 0x80 ≤ codepoint) (byte : UInt8) :
    escapeCodepoint codepoint byte = [byte] := by
  unfold escapeCodepoint
  rw [if_neg (by omega), if_neg (by omega), if_neg (by omega), if_neg (by omega), if_neg (by omega),
    if_neg (by omega), if_neg (by omega), if_neg (by omega)]

private theorem dumpEscapedFrom_cons (state codepoint index : Nat) (last byte : UInt8)
    (text : Bytes) :
    dumpEscapedFrom state codepoint index last (byte :: text) =
      if (decode state codepoint byte).1 = utf8Reject then
        .error (jsonFailure "type_error" 316
          (ascii "invalid UTF-8 byte at index " ++ decimal index ++ ascii ": 0x" ++ hexBytes byte))
      else
        dumpEscapedFrom (decode state codepoint byte).1 (decode state codepoint byte).2
          (index + 1) byte text >>= fun tail ↦
        .ok ((if (decode state codepoint byte).1 = utf8Accept then
          escapeCodepoint (decode state codepoint byte).2 byte else [byte]) ++ tail) := by
  rfl

/-- A byte that the decoder takes is written as `escapeByte` says. -/
private theorem escapeByte_of_decode {state codepoint : Nat} {pending next : Pending} {byte : UInt8}
    (h : (state, pending) ∈ decoderStates)
    (hleast : pending ≠ [] → 0x80 ≤ leastCodepoint pending codepoint)
    (hb : utf8Step pending byte = some next) :
    (if (decode state codepoint byte).1 = utf8Accept then
      escapeCodepoint (decode state codepoint byte).2 byte else [byte]) = escapeByte byte := by
  have hs := (accept_of_state _ (decode_step h codepoint hb)).1
  by_cases hone : pending = [] ∧ byte < 0x80
  · obtain ⟨hp, hlt⟩ := hone
    subst hp
    have hstate : state = utf8Accept := (accept_of_state _ h).1.mpr rfl
    have hnext : next = [] := by
      rw [utf8Step_ascii hlt] at hb
      exact (Option.some.inj hb).symm
    subst hstate
    rw [if_pos (hs.mpr hnext), escapeByte, if_pos hlt, decode_accept, ascii_codepoint byte hlt]
  · have hwide := leastCodepoint_decode h hleast hb hone
    have hbyte : escapeByte byte = [byte] := by
      refine if_neg fun hlt ↦ ?_
      cases pending with
      | nil => exact hone ⟨rfl, hlt⟩
      | cons range rest =>
        have hlow : (0x80 : UInt8) ≤ range.1 := (low_of_state _ h range List.mem_cons_self).1
        rw [utf8Step] at hb
        rw [if_neg] at hb
        · cases hb
        · intro hin
          rw [Bool.and_eq_true, decide_eq_true_eq] at hin
          have hbyte : 0x80 ≤ byte.toNat := Nat.le_trans hlow hin.1
          exact Nat.not_lt.mpr hbyte hlt
    rw [hbyte]
    by_cases hnext : next = []
    · subst hnext
      rw [if_pos (hs.mpr rfl)]
      exact escapeCodepoint_wide hwide byte
    · exact if_neg fun ha ↦ hnext (hs.mp ha)

/-- The serializer writes a text byte by byte when it consists of characters, and throws
`type_error` otherwise. -/
theorem dumpEscapedFrom_eq {state : Nat} {pending : Pending} (h : (state, pending) ∈ decoderStates)
    {codepoint : Nat} (hleast : pending ≠ [] → 0x80 ≤ leastCodepoint pending codepoint)
    (index : Nat) (last : UInt8) (text : Bytes) :
    (utf8Run pending text = some [] →
      dumpEscapedFrom state codepoint index last text = .ok (text.flatMap escapeByte)) ∧
    (utf8Run pending text ≠ some [] →
      ∃ what, dumpEscapedFrom state codepoint index last text =
        .error (jsonFailure "type_error" 316 what)) := by
  induction text generalizing state pending codepoint index last with
  | nil =>
    have hs := (accept_of_state _ h).1
    rw [utf8Run_nil]
    constructor
    · intro hr
      exact if_pos (hs.mpr (Option.some.inj hr))
    · intro hr
      exact ⟨_, if_neg fun ha ↦ hr (congrArg some (hs.mp ha))⟩
  | cons byte text ih =>
    rw [utf8Run_cons, dumpEscapedFrom_cons]
    cases hb : utf8Step pending byte with
    | none =>
      rw [if_pos (decode_reject h hb)]
      exact ⟨nofun, fun _ ↦ ⟨_, rfl⟩⟩
    | some next =>
      have hn := decode_step h codepoint hb
      have hleast' : next ≠ [] → 0x80 ≤ leastCodepoint next (decode state codepoint byte).2 := by
        intro hne
        apply leastCodepoint_decode h hleast hb
        rintro ⟨rfl, hlt⟩
        rw [utf8Step_ascii hlt] at hb
        exact hne (Option.some.inj hb).symm
      rw [if_neg (accept_of_state _ hn).2, escapeByte_of_decode h hleast hb]
      obtain ⟨hok, herror⟩ := ih hn hleast' (index + 1) byte
      constructor
      · intro hr
        rw [hok hr]
        rfl
      · intro hr
        obtain ⟨what, hw⟩ := herror hr
        exact ⟨what, by rw [hw]; rfl⟩

private theorem dumpEscaped_of_isUtf8 {text : Bytes} (h : IsUtf8 text) :
    dumpEscaped text = .ok (text.flatMap escapeByte) :=
  (dumpEscapedFrom_eq (by decide) (fun hne ↦ absurd rfl hne) 0 0 text).1 h

private theorem dumpEscaped_of_not_isUtf8 {text : Bytes} (h : ¬IsUtf8 text) :
    ∃ what, dumpEscaped text = .error (jsonFailure "type_error" 316 what) :=
  (dumpEscapedFrom_eq (by decide) (fun hne ↦ absurd rfl hne) 0 0 text).2 h

/-- A string is written exactly when it consists of characters. -/
theorem dumpString_eq_ok {text written : Bytes} :
    dumpString text = .ok written ↔
      IsUtf8 text ∧ written = 0x22 :: (text.flatMap escapeByte ++ [0x22]) := by
  by_cases h : IsUtf8 text
  · rw [dumpString, dumpEscaped_of_isUtf8 h]
    constructor
    · intro hw
      exact ⟨h, (Except.ok.inj hw).symm⟩
    · rintro ⟨_, hw⟩
      rw [hw]
      rfl
  · obtain ⟨what, hw⟩ := dumpEscaped_of_not_isUtf8 h
    rw [dumpString, hw]
    exact ⟨nofun, fun hu ↦ absurd hu.1 h⟩
end Json
