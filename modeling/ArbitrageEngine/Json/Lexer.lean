import ArbitrageEngine.Json.Value

/-!
# JSON scanner

`third_party/nlohmann/json.hpp`, class `lexer`: `scan`, `scan_string`, `scan_number`,
`scan_literal` and the position bookkeeping of `get`/`unget`. The scanner reads
bytes one at a time and stops behind the byte that decided the token, so the
faults below carry what was still unread and whether the end of the input was met.
A NUL byte between tokens ends the input, as in the library.
-/

namespace Json

open Base

/-- `token_type`, with the value the token carries. -/
inductive Token
  | literalTrue
  | literalFalse
  | literalNull
  | valueString (value : Bytes)
  | valueUnsigned (value : Nat)
  | valueInteger (value : Int)
  | valueFloat (token : Bytes)
  | beginArray
  | beginObject
  | endArray
  | endObject
  | nameSeparator
  | valueSeparator
  | parseError (message : Bytes)
  | endOfInput
  deriving DecidableEq, Repr

/-- `token_type_name`. -/
def Token.typeName : Token → Bytes
  | literalTrue => ascii "true literal"
  | literalFalse => ascii "false literal"
  | literalNull => ascii "null literal"
  | valueString _ => ascii "string literal"
  | valueUnsigned _ | valueInteger _ | valueFloat _ => ascii "number literal"
  | beginArray => ascii "'['"
  | beginObject => ascii "'\x7b'"
  | endArray => ascii "']'"
  | endObject => ascii "'\x7d'"
  | nameSeparator => ascii "':'"
  | valueSeparator => ascii "','"
  | parseError _ => ascii "<parse error>"
  | endOfInput => ascii "end of input"

/-- What a scanning function leaves: the token, the unread bytes, and whether the last
`get` returned the end of the input. -/
structure Scanned where
  token : Token
  rest : Bytes
  eof : Bool
  deriving DecidableEq, Repr

/-- A fault raised by the byte in front of `rest`, or by the end of the input. -/
def fault (message : String) (rest : Bytes) (eof : Bool) : Scanned :=
  ⟨.parseError (ascii message), rest, eof⟩

/-! ### Strings -/

/-- The value of a hexadecimal digit, either case. -/
def hexValue (c : UInt8) : Option Nat :=
  if isDigit c then some (digit c)
  else if 0x41 ≤ c && c ≤ 0x46 then some (c.toNat - 0x37)
  else if 0x61 ≤ c && c ≤ 0x66 then some (c.toNat - 0x57)
  else none

/-- `get_codepoint`: `count` more hexadecimal digits behind a `\u`. -/
def getCodepoint : Nat → Nat → Bytes → Except (Bytes × Bool) (Nat × Bytes)
  | 0, value, rest => .ok (value, rest)
  | _ + 1, _, [] => .error ([], true)
  | count + 1, value, c :: rest =>
    match hexValue c with
    | some d => getCodepoint count (value * 16 + d) rest
    | none => .error (rest, false)

/-- The UTF-8 bytes of a code point. -/
def encodeCodepoint (codepoint : Nat) : Bytes :=
  if codepoint < 0x80 then [UInt8.ofNat codepoint]
  else if codepoint ≤ 0x7FF then
    [UInt8.ofNat (0xC0 + codepoint / 64), UInt8.ofNat (0x80 + codepoint % 64)]
  else if codepoint ≤ 0xFFFF then
    [UInt8.ofNat (0xE0 + codepoint / 4096), UInt8.ofNat (0x80 + codepoint / 64 % 64),
      UInt8.ofNat (0x80 + codepoint % 64)]
  else
    [UInt8.ofNat (0xF0 + codepoint / 262144), UInt8.ofNat (0x80 + codepoint / 4096 % 64),
      UInt8.ofNat (0x80 + codepoint / 64 % 64), UInt8.ofNat (0x80 + codepoint % 64)]

/-- The byte of a one-letter escape. -/
def simpleEscape (c : UInt8) : Option UInt8 :=
  if c = 0x22 || c = 0x5C || c = 0x2F then some c
  else if c = 0x62 then some 0x08
  else if c = 0x66 then some 0x0C
  else if c = 0x6E then some 0x0A
  else if c = 0x72 then some 0x0D
  else if c = 0x74 then some 0x09
  else none

private def surrogateFault (rest : Bytes) (eof : Bool) : Scanned :=
  fault "invalid string: surrogate U+D800..U+DBFF must be followed by U+DC00..U+DFFF" rest eof

private def hexFault (rest : Bytes) (eof : Bool) : Scanned :=
  fault "invalid string: '\\u' must be followed by 4 hex digits" rest eof

/-- The second half of a surrogate pair whose first half was `high`. -/
def lowSurrogate (high : Nat) : Bytes → Except Scanned (Nat × Bytes)
  | [] => .error (surrogateFault [] true)
  | slash :: rest =>
    if slash ≠ 0x5C then .error (surrogateFault rest false)
    else match rest with
      | [] => .error (surrogateFault [] true)
      | u :: rest =>
        if u ≠ 0x75 then .error (surrogateFault rest false)
        else match getCodepoint 4 0 rest with
          | .error (rest, eof) => .error (hexFault rest eof)
          | .ok (low, rest) =>
            if 0xDC00 ≤ low && low ≤ 0xDFFF then .ok (high * 1024 + low - 0x35FDC00, rest)
            else .error (surrogateFault rest false)

/-- A `\u` escape, surrogate pairs included. -/
def unicodeEscape (rest : Bytes) : Except Scanned (Nat × Bytes) :=
  match getCodepoint 4 0 rest with
  | .error (rest, eof) => .error (hexFault rest eof)
  | .ok (codepoint, rest) =>
    if 0xD800 ≤ codepoint && codepoint ≤ 0xDBFF then lowSurrogate codepoint rest
    else if 0xDC00 ≤ codepoint && codepoint ≤ 0xDFFF then
      .error
        (fault "invalid string: surrogate U+DC00..U+DFFF must follow U+D800..U+DBFF" rest false)
    else .ok (codepoint, rest)

/-- The control character names that the scanner's messages use. -/
def controlNames : List String :=
  ["NUL", "SOH", "STX", "ETX", "EOT", "ENQ", "ACK", "BEL", "BS", "HT", "LF", "VT", "FF", "CR", "SO",
    "SI", "DLE", "DC1", "DC2", "DC3", "DC4", "NAK", "SYN", "ETB", "CAN", "EM", "SUB", "ESC", "FS",
    "GS", "RS", "US"]

/-- An upper-case hexadecimal digit. -/
def hexDigit (n : Nat) : UInt8 := if n < 10 then UInt8.ofNat (0x30 + n) else UInt8.ofNat (0x37 + n)

/-- `%.4X` of a byte. -/
def hexByte (c : UInt8) : Bytes := ascii "00" ++ [hexDigit (c.toNat / 16), hexDigit (c.toNat % 16)]

/-- The message for an unescaped control character. -/
def controlMessage (c : UInt8) : Bytes :=
  ascii "invalid string: control character U+" ++ hexByte c ++ ascii " (" ++
    ascii (controlNames.getD c.toNat "") ++ ascii ") must be escaped to \\u" ++ hexByte c ++
    (if c = 0x08 then ascii " or \\b" else if c = 0x09 then ascii " or \\t"
      else if c = 0x0A then ascii " or \\n" else if c = 0x0C then ascii " or \\f"
      else if c = 0x0D then ascii " or \\r" else [])

/-- The ranges of the bytes that must follow a lead byte of a multi-byte character. -/
def continuationRanges (c : UInt8) : Option (List (UInt8 × UInt8)) :=
  if 0xC2 ≤ c && c ≤ 0xDF then some [(0x80, 0xBF)]
  else if c = 0xE0 then some [(0xA0, 0xBF), (0x80, 0xBF)]
  else if c = 0xED then some [(0x80, 0x9F), (0x80, 0xBF)]
  else if 0xE1 ≤ c && c ≤ 0xEF then some [(0x80, 0xBF), (0x80, 0xBF)]
  else if c = 0xF0 then some [(0x90, 0xBF), (0x80, 0xBF), (0x80, 0xBF)]
  else if 0xF1 ≤ c && c ≤ 0xF3 then some [(0x80, 0xBF), (0x80, 0xBF), (0x80, 0xBF)]
  else if c = 0xF4 then some [(0x80, 0x8F), (0x80, 0xBF), (0x80, 0xBF)]
  else none

/-- `next_byte_in_range`: append the continuation bytes, or stop behind the first bad one. -/
def nextByteInRange : List (UInt8 × UInt8) → Bytes → Bytes → Except (Bytes × Bool) (Bytes × Bytes)
  | [], buffer, rest => .ok (buffer, rest)
  | _ :: _, _, [] => .error ([], true)
  | (low, high) :: ranges, buffer, c :: rest =>
    if low ≤ c && c ≤ high then nextByteInRange ranges (buffer ++ [c]) rest
    else .error (rest, false)

/-- `scan_string` behind the opening quote. Every turn consumes a byte, so the length of
the unread input is enough fuel. -/
def scanString : Nat → Bytes → Bytes → Scanned
  | 0, _, rest => fault "invalid string: missing closing quote" rest true
  | _ + 1, _, [] => fault "invalid string: missing closing quote" [] true
  | fuel + 1, buffer, c :: rest =>
    if c = 0x22 then ⟨.valueString buffer, rest, false⟩
    else if c = 0x5C then
      match rest with
      | [] => fault "invalid string: forbidden character after backslash" [] true
      | e :: rest =>
        match simpleEscape e with
        | some byte => scanString fuel (buffer ++ [byte]) rest
        | none =>
          if e = 0x75 then
            match unicodeEscape rest with
            | .error stopped => stopped
            | .ok (codepoint, rest) => scanString fuel (buffer ++ encodeCodepoint codepoint) rest
          else fault "invalid string: forbidden character after backslash" rest false
    else if c < 0x20 then ⟨.parseError (controlMessage c), rest, false⟩
    else if c ≤ 0x7F then scanString fuel (buffer ++ [c]) rest
    else
      match continuationRanges c with
      | none => fault "invalid string: ill-formed UTF-8 byte" rest false
      | some ranges =>
        match nextByteInRange ranges (buffer ++ [c]) rest with
        | .error (rest, eof) => fault "invalid string: ill-formed UTF-8 byte" rest eof
        | .ok (buffer, rest) => scanString fuel buffer rest

/-! ### Numbers and literals -/

/-- The token of a complete number: integers that do not fit become floats. -/
def numberToken (negative float : Bool) (token : Bytes) : Token :=
  if float then .valueFloat token
  else if negative then
    let value := digitsValue (token.drop 1)
    if value ≤ 2 ^ 63 then .valueInteger (-(value : Int)) else .valueFloat token
  else
    let value := digitsValue token
    if value < 2 ^ 64 then .valueUnsigned value else .valueFloat token

/-- `scan_number_exponent` and behind, or the end of the number. -/
def scanExponent (negative float : Bool) (token rest : Bytes) : Scanned :=
  match rest with
  | [] => ⟨numberToken negative float token, [], false⟩
  | e :: afterMark =>
    if e = 0x65 || e = 0x45 then
      match afterMark with
      | [] => fault "invalid number; expected '+', '-', or digit after exponent" [] true
      | s :: afterSign =>
        if s = 0x2B || s = 0x2D then
          match afterSign with
          | [] => fault "invalid number; expected digit after exponent sign" [] true
          | d :: tail =>
            if isDigit d then
              ⟨.valueFloat (token ++ [e, s, d] ++ tail.takeWhile isDigit),
                tail.dropWhile isDigit, false⟩
            else fault "invalid number; expected digit after exponent sign" tail false
        else if isDigit s then
          ⟨.valueFloat (token ++ [e, s] ++ afterSign.takeWhile isDigit),
            afterSign.dropWhile isDigit, false⟩
        else fault "invalid number; expected '+', '-', or digit after exponent" afterSign false
    else ⟨numberToken negative float token, rest, false⟩

/-- `scan_number_decimal1` and behind. -/
def scanFraction (negative : Bool) (token rest : Bytes) : Scanned :=
  match rest with
  | [] => scanExponent negative false token rest
  | point :: afterPoint =>
    if point = 0x2E then
      match afterPoint with
      | [] => fault "invalid number; expected digit after '.'" [] true
      | d :: tail =>
        if isDigit d then
          scanExponent negative true (token ++ [point, d] ++ tail.takeWhile isDigit)
            (tail.dropWhile isDigit)
        else fault "invalid number; expected digit after '.'" tail false
    else scanExponent negative false token rest

/-- The integer part that starts with the digit `d`: a lone zero, or all digits. -/
def scanInteger (negative : Bool) (sign : Bytes) (d : UInt8) (rest : Bytes) : Scanned :=
  if d = 0x30 then scanFraction negative (sign ++ [d]) rest
  else scanFraction negative (sign ++ [d] ++ rest.takeWhile isDigit) (rest.dropWhile isDigit)

/-- `scan_number` on its first byte. -/
def scanNumber (c : UInt8) (rest : Bytes) : Scanned :=
  if c = 0x2D then
    match rest with
    | [] => fault "invalid number; expected digit after '-'" [] true
    | d :: rest =>
      if isDigit d then scanInteger true [c] d rest
      else fault "invalid number; expected digit after '-'" rest false
  else scanInteger false [] c rest

/-- `scan_literal` behind its first byte. -/
def scanLiteral (token : Token) : Bytes → Bytes → Scanned
  | [], rest => ⟨token, rest, false⟩
  | _ :: _, [] => fault "invalid literal" [] true
  | expected :: text, c :: rest =>
    if c = expected then scanLiteral token text rest else fault "invalid literal" rest false

/-! ### Tokens and positions -/

/-- Where the scanner stands in `raw`. `tokenStart` is the offset at which `token_string`
was last reset; strings and numbers reset it, other tokens do not. -/
structure Cursor where
  raw : Bytes
  rest : Bytes
  tokenStart : Nat
  eof : Bool
  columnLost : Bool
  deriving DecidableEq, Repr

namespace Cursor

/-- The scanner in front of its input. -/
def start (raw : Bytes) : Cursor := ⟨raw, raw, 0, false, false⟩

/-- The number of bytes read. -/
def offset (cursor : Cursor) : Nat := cursor.raw.length - cursor.rest.length

/-- Continue behind a scanned token that did not reset `token_string`. -/
def after (cursor : Cursor) (scanned : Scanned) : Token × Cursor :=
  (scanned.token, { cursor with rest := scanned.rest, eof := scanned.eof, columnLost := false })

/-- Continue behind a string, whose first byte is the one before `rest`. -/
def afterString (cursor : Cursor) (rest : Bytes) : Token × Cursor :=
  let scanned := scanString (rest.length + 1) [] rest
  (scanned.token, ⟨cursor.raw, scanned.rest, cursor.raw.length - rest.length - 1,
    scanned.eof, false⟩)

/-- Continue behind a number. The byte after it was read and put back; `unget` does not
restore the column when that byte is a newline. -/
def afterNumber (cursor : Cursor) (c : UInt8) (rest : Bytes) : Token × Cursor :=
  let scanned := scanNumber c rest
  let ungot := match scanned.token with
    | .parseError _ => false
    | _ => scanned.rest.head? = some 0x0A
  (scanned.token,
    ⟨cursor.raw, scanned.rest, cursor.raw.length - rest.length - 1, scanned.eof, ungot⟩)

private def bomFault (rest : Bytes) (eof : Bool) : Scanned :=
  fault "invalid BOM; must be 0xEF 0xBB 0xBF if given" rest eof

/-- `skip_bom`, tried in front of the first token only. -/
def skipBom (cursor : Cursor) : Except Scanned Cursor :=
  match cursor.rest with
  | [] => .ok cursor
  | c :: rest =>
    if cursor.offset ≠ 0 || c ≠ 0xEF then .ok cursor
    else match rest with
      | [] => .error (bomFault [] true)
      | d :: rest =>
        if d ≠ 0xBB then .error (bomFault rest false)
        else match rest with
          | [] => .error (bomFault [] true)
          | e :: rest => if e ≠ 0xBF then .error (bomFault rest false) else .ok { cursor with rest }

/-- `skip_whitespace` stops in front of the first byte that is not one of these. -/
def isSpace (c : UInt8) : Bool := c = 0x20 || c = 0x09 || c = 0x0A || c = 0x0D

/-- `scan`: the next token and where the scanner then stands. -/
def scan (cursor : Cursor) : Token × Cursor :=
  match cursor.skipBom with
  | .error stopped => cursor.after stopped
  | .ok cursor =>
    match cursor.rest.dropWhile isSpace with
    | [] => cursor.after ⟨.endOfInput, [], true⟩
    | c :: rest =>
      if c = 0x5B then cursor.after ⟨.beginArray, rest, false⟩
      else if c = 0x5D then cursor.after ⟨.endArray, rest, false⟩
      else if c = 0x7B then cursor.after ⟨.beginObject, rest, false⟩
      else if c = 0x7D then cursor.after ⟨.endObject, rest, false⟩
      else if c = 0x3A then cursor.after ⟨.nameSeparator, rest, false⟩
      else if c = 0x2C then cursor.after ⟨.valueSeparator, rest, false⟩
      else if c = 0x74 then cursor.after (scanLiteral .literalTrue (ascii "rue") rest)
      else if c = 0x66 then cursor.after (scanLiteral .literalFalse (ascii "alse") rest)
      else if c = 0x6E then cursor.after (scanLiteral .literalNull (ascii "ull") rest)
      else if c = 0x22 then cursor.afterString rest
      else if c = 0x2D || isDigit c then cursor.afterNumber c rest
      else if c = 0x00 then cursor.after ⟨.endOfInput, rest, false⟩
      else cursor.after (fault "invalid literal" rest false)

/-- `get_token_string`: the bytes since the last reset, control characters spelled out. -/
def tokenString (cursor : Cursor) : Bytes :=
  ((cursor.raw.take cursor.offset).drop cursor.tokenStart).flatMap fun c ↦
    if c ≤ 0x1F then ascii "<U+" ++ hexByte c ++ ascii ">" else [c]

/-- `chars_read_total`: reading the end of the input counts. -/
def charsRead (cursor : Cursor) : Nat := cursor.offset + if cursor.eof then 1 else 0

/-- `position_string`. -/
def positionString (cursor : Cursor) : Bytes :=
  let read := cursor.raw.take cursor.offset
  let column := (read.reverse.takeWhile (fun c ↦ c ≠ 0x0A)).length + if cursor.eof then 1 else 0
  ascii " at line " ++ decimal (read.count 0x0A + 1) ++ ascii ", column " ++
    decimal (if cursor.columnLost then 0 else column)

end Cursor

end Json
