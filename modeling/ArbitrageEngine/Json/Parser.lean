import ArbitrageEngine.Json.Lexer

/-!
# JSON parser

`third_party/nlohmann/json.hpp`, class `parser`: `sax_parse_internal` with the DOM
builder `json_sax_dom_parser` folded in. The library's `states` stack and `ref_stack`
are one stack of open containers; `skip_to_state_evaluation` is the `built` mode.
-/

namespace Json

open Base

/-- A container that is still open: an array with its items so far, or an object with
its fields so far and the key whose value is being read. -/
inductive Frame
  | array (items : List Value)
  | object (fields : List (Bytes × Value)) (key : Bytes)
  deriving Repr

/-- What the loop does next: read a value that starts with `last_token`, or go on after a
complete value. -/
inductive Mode
  | token (last : Token)
  | built (value : Value)
  deriving Repr

/-- `exception_message`. -/
def exceptionMessage (last : Token) (cursor : Cursor) (expected : Option Bytes) (context : String) :
    Bytes :=
  ascii "syntax error while parsing " ++ ascii context ++ ascii " - " ++
    (match last with
      | .parseError message => message ++ ascii "; last read: '" ++ cursor.tokenString ++ ascii "'"
      | _ => ascii "unexpected " ++ last.typeName) ++
    (match expected with
      | some name => ascii "; expected " ++ name
      | none => [])

/-- `parse_error::create(101, position, text)`. -/
def parseError (cursor : Cursor) (text : Bytes) : Failure :=
  jsonFailure "parse_error" 101 (ascii "parse error" ++ cursor.positionString ++ ascii ": " ++ text)

private def unexpected (last : Token) (cursor : Cursor) (expected : Option Bytes)
    (context : String) :
    Failure :=
  parseError cursor (exceptionMessage last cursor expected context)

/-- Whether the nearest double of a number token is infinite: its magnitude reaches the
midpoint between the greatest double and `2 ^ 1024`. -/
def floatOverflows (token : Bytes) : Bool :=
  let body := token.dropWhile (fun c ↦ c = 0x2D)
  let mantissa := body.takeWhile (fun c ↦ c ≠ 0x65 && c ≠ 0x45)
  let exponent := (body.dropWhile (fun c ↦ c ≠ 0x65 && c ≠ 0x45)).drop 1
  let fraction := (mantissa.dropWhile (fun c ↦ c ≠ 0x2E)).drop 1
  let digits := digitsValue (mantissa.filter isDigit)
  let shift := digitsValue (exponent.filter isDigit)
  let bound := 2 ^ 1024 - 2 ^ 970
  if exponent.head? = some 0x2D then bound * 10 ^ (fraction.length + shift) ≤ digits
  else bound * 10 ^ fraction.length ≤ digits * 10 ^ shift

/-- A key and the colon behind it; the result still needs the first token of the value. -/
def parseKey (last : Token) (cursor : Cursor) : Except Failure (Bytes × Cursor) :=
  match last with
  | .valueString key =>
    match cursor.scan with
    | (.nameSeparator, cursor) => .ok (key, cursor)
    | (other, cursor) =>
      .error (unexpected other cursor (some Token.nameSeparator.typeName) "object separator")
  | _ => .error (unexpected last cursor (some (Token.valueString []).typeName) "object key")

/-- Read the value that starts with `last`: either it is complete, or a container opens. -/
def beginValue (last : Token) (cursor : Cursor) (stack : List Frame) :
    Except Failure (Mode × Cursor × List Frame) :=
  match last with
  | .beginObject =>
    match cursor.scan with
    | (.endObject, cursor) => .ok (.built (.object []), cursor, stack)
    | (other, cursor) => do
      let (key, cursor) ← parseKey other cursor
      let (first, cursor) := cursor.scan
      .ok (.token first, cursor, .object [] key :: stack)
  | .beginArray =>
    match cursor.scan with
    | (.endArray, cursor) => .ok (.built (.array []), cursor, stack)
    | (other, cursor) => .ok (.token other, cursor, .array [] :: stack)
  | .valueFloat token =>
    if floatOverflows token then
      .error (jsonFailure "out_of_range" 406
        (ascii "number overflow parsing '" ++ cursor.tokenString ++ ascii "'"))
    else .ok (.built (.numberFloat token), cursor, stack)
  | .literalFalse => .ok (.built (.boolean false), cursor, stack)
  | .literalNull => .ok (.built .null, cursor, stack)
  | .literalTrue => .ok (.built (.boolean true), cursor, stack)
  | .valueInteger value => .ok (.built (.numberInteger value), cursor, stack)
  | .valueString value => .ok (.built (.string value), cursor, stack)
  | .valueUnsigned value => .ok (.built (.numberUnsigned value), cursor, stack)
  | .parseError _ => .error (unexpected last cursor none "value")
  | .endOfInput =>
    if cursor.charsRead = 1 then
      .error (parseError cursor (ascii ("attempting to parse an empty input; check that your input "
        ++ "string or stream contains the expected JSON")))
    else .error (unexpected last cursor (some (ascii "'[', '\x7b', or a literal")) "value")
  | .endArray | .endObject | .nameSeparator | .valueSeparator =>
    .error (unexpected last cursor (some (ascii "'[', '\x7b', or a literal")) "value")

/-- Put a complete value into the innermost open container and see whether that closes. -/
def continueFrame (value : Value) (cursor : Cursor) (frame : Frame) (stack : List Frame) :
    Except Failure (Mode × Cursor × List Frame) :=
  match frame with
  | .array items =>
    match cursor.scan with
    | (.valueSeparator, cursor) =>
      let (first, cursor) := cursor.scan
      .ok (.token first, cursor, .array (items ++ [value]) :: stack)
    | (.endArray, cursor) => .ok (.built (.array (items ++ [value])), cursor, stack)
    | (other, cursor) => .error (unexpected other cursor (some Token.endArray.typeName) "array")
  | .object fields key =>
    let fields := insertField key value fields
    match cursor.scan with
    | (.valueSeparator, cursor) => do
      let (other, cursor) := cursor.scan
      let (key, cursor) ← parseKey other cursor
      let (first, cursor) := cursor.scan
      .ok (.token first, cursor, .object fields key :: stack)
    | (.endObject, cursor) => .ok (.built (.object fields), cursor, stack)
    | (other, cursor) => .error (unexpected other cursor (some Token.endObject.typeName) "object")

/-- `sax_parse_internal`. Two turns for each token are enough fuel. -/
def parseLoop : Nat → Mode → Cursor → List Frame → Except Failure (Value × Cursor)
  | 0, _, cursor, _ => .error (parseError cursor (ascii "parser out of fuel"))
  | fuel + 1, .token last, cursor, stack => do
    let (mode, cursor, stack) ← beginValue last cursor stack
    parseLoop fuel mode cursor stack
  | _ + 1, .built value, cursor, [] => .ok (value, cursor)
  | fuel + 1, .built value, cursor, frame :: stack => do
    let (mode, cursor, stack) ← continueFrame value cursor frame stack
    parseLoop fuel mode cursor stack

/-- `json::parse`: one value, then nothing but whitespace. -/
def parse (raw : Bytes) : Except Failure Value := do
  let (first, cursor) := (Cursor.start raw).scan
  let (value, cursor) ← parseLoop (2 * raw.length + 4) (.token first) cursor []
  match cursor.scan with
  | (.endOfInput, _) => .ok value
  | (other, cursor) => .error (unexpected other cursor (some Token.endOfInput.typeName) "value")

/-! ### What the parser throws -/

section Raises

variable {P : Failure → Prop} (hP : ∀ name id text, P (jsonFailure name id text))

include hP

private theorem raises_parseKey (last : Token) (cursor : Cursor) :
    Raises P (parseKey last cursor) := by
  unfold parseKey
  split
  · split
    · exact raises_ok _
    · exact raises_error (hP _ _ _)
  · exact raises_error (hP _ _ _)

private theorem raises_beginValue (last : Token) (cursor : Cursor) (stack : List Frame) :
    Raises P (beginValue last cursor stack) := by
  cases last with
  | beginObject =>
    simp only [beginValue]
    split
    · exact raises_ok _
    · exact raises_bind (raises_parseKey hP _ _) fun key ↦ raises_ok _
  | beginArray =>
    simp only [beginValue]
    split <;> exact raises_ok _
  | valueFloat token => exact raises_ite (raises_error (hP _ _ _)) (raises_ok _)
  | endOfInput => exact raises_ite (raises_error (hP _ _ _)) (raises_error (hP _ _ _))
  | parseError _ | endArray | endObject | nameSeparator | valueSeparator =>
    exact raises_error (hP _ _ _)
  | literalFalse | literalNull | literalTrue | valueInteger _ | valueString _ | valueUnsigned _ =>
    exact raises_ok _

private theorem raises_continueFrame (value : Value) (cursor : Cursor) (frame : Frame)
    (stack : List Frame) : Raises P (continueFrame value cursor frame stack) := by
  cases frame with
  | array items =>
    simp only [continueFrame]
    split
    · exact raises_ok _
    · exact raises_ok _
    · exact raises_error (hP _ _ _)
  | object fields key =>
    simp only [continueFrame]
    split
    · exact raises_bind (raises_parseKey hP _ _) fun key ↦ raises_ok _
    · exact raises_ok _
    · exact raises_error (hP _ _ _)

private theorem raises_parseLoop (fuel : Nat) (mode : Mode) (cursor : Cursor)
    (stack : List Frame) : Raises P (parseLoop fuel mode cursor stack) := by
  induction fuel generalizing mode cursor stack with
  | zero => exact raises_error (hP _ _ _)
  | succ fuel ih =>
    cases mode with
    | token last => exact raises_bind (raises_beginValue hP _ _ _) fun next ↦ ih _ _ _
    | built value =>
      cases stack with
      | nil => exact raises_ok _
      | cons frame stack => exact raises_bind (raises_continueFrame hP _ _ _ _) fun next ↦ ih _ _ _

/-- The parser throws nothing but `json::exception`. -/
theorem raises_parse (raw : Bytes) : Raises P (parse raw) := by
  unfold parse
  refine raises_bind (raises_parseLoop hP _ _ _ _) fun result ↦ ?_
  obtain ⟨value, cursor⟩ := result
  dsimp only
  split
  · exact raises_ok _
  · exact raises_error (hP _ _ _)

end Raises

end Json
