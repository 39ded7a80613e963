import ArbitrageEngine.Recording.RawEventRecorder

/-!
# Raw event reader

`src/recording/raw_event_reader.cpp`: `next` reads one line, checks it and returns its
record; it returns nothing at the end of the file and after an error.
-/

namespace ArbitrageEngine.Recording

open Base ArbitrageEngine.Core Json

/-- `recording::RawEventReader`: the unread input with the state of its stream, `last_error_` and
`expected_index_` (`include/recording/raw_event_reader.hpp:12–25`). -/
structure RawEventReader where
  isOpen : Bool
  input : Bytes
  eof : Bool
  failed : Bool
  lastError : Bytes
  expectedIndex : Nat
  deriving DecidableEq, Repr

/-- The fields that a record must have, in the order of the checks
(`src/recording/raw_event_reader.cpp:53–55`). -/
def requiredFields : List Bytes :=
  [ascii "record_index", ascii "venue", ascii "connection_id", ascii "receive_wall_ns",
    ascii "receive_monotonic_ns", ascii "payload"]

/-- Whether `format_version` is the unsigned number one
(`src/recording/raw_event_reader.cpp:47`). -/
def hasFormatVersion (j : Value) : Bool :=
  (j.find? (ascii "format_version")).any fun version ↦
    version.isNumberUnsigned && version.getUint64 = 1

/-- Whether the fields have their types (`src/recording/raw_event_reader.cpp:63–65`). -/
def hasFieldTypes (j : Value) : Bool :=
  (j.index (ascii "record_index")).isNumberUnsigned &&
    (j.index (ascii "connection_id")).isNumberUnsigned &&
    (j.index (ascii "receive_wall_ns")).isNumberInteger &&
    (j.index (ascii "receive_monotonic_ns")).isNumberInteger &&
    (j.index (ascii "venue")).isString && (j.index (ascii "payload")).isString

/-- Whether an unsigned timestamp exceeds `std::int64_t`
(`src/recording/raw_event_reader.cpp:70–71`). -/
def timestampOutOfRange (timestamp : Value) : Bool :=
  timestamp.isNumberUnsigned && 2 ^ 63 - 1 < timestamp.getUint64

/-- The venue of a record (`src/recording/raw_event_reader.cpp:86–92`). -/
def venueOf : Value → Option Venue
  | .string name =>
    if name = ascii "coinbase" then some .coinbase
    else if name = ascii "kraken" then some .kraken
    else none
  | _ => none

/-- The text of a string field. -/
def textOf : Value → Bytes
  | .string text => text
  | _ => []

/-- The checks of `next` behind `json::parse`; an error is the text of `last_error_`
(`src/recording/raw_event_reader.cpp:46–103`). -/
def validateRecord (expectedIndex : Nat) (j : Value) : Except Bytes RawMessage :=
  if !hasFormatVersion j then .error (ascii "unsupported or missing format_version")
  else
    match requiredFields.find? fun field ↦ !j.contains field with
    | some field => .error (ascii "missing field: " ++ field)
    | none =>
      if !hasFieldTypes j then .error (ascii "invalid raw record field type")
      else if timestampOutOfRange (j.index (ascii "receive_wall_ns")) ||
          timestampOutOfRange (j.index (ascii "receive_monotonic_ns")) then
        .error (ascii "raw timestamp out of range")
      else
        let recordIndex := (j.index (ascii "record_index")).getUint64
        if recordIndex ≠ expectedIndex then
          .error (ascii "noncontiguous record index: expected " ++ decimal expectedIndex ++
            ascii " got " ++ decimal recordIndex)
        else
          match venueOf (j.index (ascii "venue")) with
          | none => .error (ascii "unknown venue")
          | some venue =>
            .ok ⟨recordIndex, venue, (j.index (ascii "connection_id")).getUint64,
              ⟨(j.index (ascii "receive_wall_ns")).getInt64⟩,
              ⟨(j.index (ascii "receive_monotonic_ns")).getInt64⟩,
              textOf (j.index (ascii "payload"))⟩

namespace RawEventReader

/-- The constructor, on the bytes of the file if there is one
(`src/recording/raw_event_reader.cpp:12–17`). -/
def create : Option Bytes → RawEventReader
  | some file => ⟨true, file, false, false, [], 0⟩
  | none => ⟨false, [], false, true, ascii "failed to open input file", 0⟩

/-- `std::getline`: the bytes before the next newline, or before the end of the input
(`src/recording/raw_event_reader.cpp:25–30`). -/
def getline (reader : RawEventReader) : RawEventReader × Option Bytes :=
  match reader.input with
  | [] => ({ reader with eof := true, failed := true }, none)
  | _ :: _ =>
    let line := reader.input.takeWhile (· ≠ 0x0A)
    match reader.input.dropWhile (· ≠ 0x0A) with
    | [] => ({ reader with input := [], eof := true }, some line)
    | _ :: rest => ({ reader with input := rest }, some line)

/-- `next` (`src/recording/raw_event_reader.cpp:19–104`). -/
def next (reader : RawEventReader) : RawEventReader × Option RawMessage :=
  if !reader.isOpen || reader.eof || reader.failed then
    (if reader.lastError = [] then { reader with lastError := ascii "input stream not open" }
      else reader, none)
  else
    match reader.getline with
    | (reader, none) =>
      (if reader.eof then reader
        else { reader with lastError := ascii "failed to read line" }, none)
    | (reader, some line) =>
      if reader.eof then
        ({ reader with lastError := ascii "truncated JSONL: missing final newline" }, none)
      else
        match Json.parse line with
        | .error failure =>
          ({ reader with lastError := ascii "json parse error: " ++ failure.what }, none)
        | .ok j =>
          match validateRecord reader.expectedIndex j with
          | .error text => ({ reader with lastError := text }, none)
          | .ok message =>
            ({ reader with expectedIndex := (reader.expectedIndex + 1) % 2 ^ 64 }, some message)

/-- `has_error` (`src/recording/raw_event_reader.cpp:106`). -/
def hasError (reader : RawEventReader) : Bool := reader.lastError ≠ []

/-- Call `next` until it returns nothing, at most the given number of times. -/
def readAll : Nat → RawEventReader → List RawMessage × RawEventReader
  | 0, reader => ([], reader)
  | calls + 1, reader =>
    match reader.next with
    | (reader, none) => ([], reader)
    | (reader, some message) =>
      let (messages, final) := readAll calls reader
      (message :: messages, final)

end RawEventReader

/-! ### Reading a record back -/

/-- The timestamp that is read back has the value that was written. -/
private theorem getInt64_reread {value : Int} (low : -2 ^ 63 ≤ value) (high : value < 2 ^ 63) :
    (Value.numberInteger value).reread.isNumberInteger = true ∧
      timestampOutOfRange (Value.numberInteger value).reread = false ∧
      (Value.numberInteger value).reread.getInt64 = value := by
  rw [Value.reread]
  split
  · exact ⟨rfl, rfl, rfl⟩
  · next hpos =>
    refine ⟨rfl, ?_, ?_⟩
    · have hrange : ¬2 ^ 63 - 1 < value.toNat := by omega
      show (true && _) = false
      rw [Bool.true_and, decide_eq_false_iff_not]
      exact hrange
    · rw [Value.getInt64_numberUnsigned (by omega), Int.toNat_of_nonneg (by omega)]

private theorem venueOf_venueName {venue : Venue} (h : ∃ known : KnownVenue, venue = known) :
    venueOf (.string (venueName venue)) = some venue := by
  obtain ⟨known, rfl⟩ := h
  cases known <;> rfl

/-- A record passes the checks of the reader that expects its index. -/
theorem validateRecord_reread {message : RawMessage} (h : message.Fits) :
    validateRecord message.recordIndex (recordValue message).reread = .ok message := by
  obtain ⟨hwi, hwr, hwv⟩ := getInt64_reread h.wallLow h.wallHigh
  obtain ⟨hmi, hmr, hmv⟩ := getInt64_reread h.monotonicLow h.monotonicHigh
  have hversion : hasFormatVersion (recordValue message).reread = true := rfl
  have hrequired : (requiredFields.find? fun field ↦
      !(recordValue message).reread.contains field) = none := rfl
  have hindex : (recordValue message).reread.index (ascii "record_index") =
      .numberUnsigned message.recordIndex := rfl
  have hconnection : (recordValue message).reread.index (ascii "connection_id") =
      .numberUnsigned message.connectionId := rfl
  have hwall : (recordValue message).reread.index (ascii "receive_wall_ns") =
      (Value.numberInteger message.receiveWallTime.nanoseconds).reread := rfl
  have hmonotonic : (recordValue message).reread.index (ascii "receive_monotonic_ns") =
      (Value.numberInteger message.receiveMonotonicTime.nanoseconds).reread := rfl
  have hvenue : (recordValue message).reread.index (ascii "venue") =
      .string (venueName message.venue) := rfl
  have hpayload : (recordValue message).reread.index (ascii "payload") =
      .string message.payload := rfl
  have htypes : hasFieldTypes (recordValue message).reread = true := by
    simp only [hasFieldTypes, hindex, hconnection, hwall, hmonotonic, hvenue, hpayload, hwi, hmi,
      Value.isNumberUnsigned, Value.isString, Bool.and_self]
  simp only [validateRecord, hversion, hrequired, htypes, hindex, hconnection, hwall, hmonotonic,
    hvenue, hpayload, hwr, hmr, hwv, hmv, venueOf_venueName h.venue, Value.getUint64,
    textOf, Bool.not_true,
    Bool.or_self, Bool.false_eq_true, if_false, ne_eq, not_true_eq_false]

namespace RawEventReader

/-- A reader whose stream is good. -/
def Good (reader : RawEventReader) : Prop :=
  reader.isOpen = true ∧ reader.eof = false ∧ reader.failed = false

private theorem getline_line {reader : RawEventReader} {line rest : Bytes}
    (hl : ∀ b ∈ line, b ≠ 0x0A) (hi : reader.input = line ++ 0x0A :: rest) :
    reader.getline = ({ reader with input := rest }, some line) := by
  have hl' : ∀ b ∈ line, decide (b ≠ 0x0A) = true := fun b hb ↦ decide_eq_true (hl b hb)
  have htake : (line ++ 0x0A :: rest).takeWhile (fun b ↦ decide (b ≠ 0x0A)) = line := by
    rw [List.takeWhile_append_of_pos hl', List.takeWhile_cons_of_neg (by decide), List.append_nil]
  have hdrop : (line ++ 0x0A :: rest).dropWhile (fun b ↦ decide (b ≠ 0x0A)) = 0x0A :: rest := by
    rw [List.dropWhile_append_of_pos hl', List.dropWhile_cons_of_neg (by decide)]
  unfold getline
  rw [hi]
  split
  · next h => exact absurd h (by simp)
  · simp only [htake, hdrop]

private theorem getline_part {reader : RawEventReader} {part : Bytes}
    (hl : ∀ b ∈ part, b ≠ 0x0A) (hne : part ≠ []) (hi : reader.input = part) :
    reader.getline = ({ reader with input := [], eof := true }, some part) := by
  have hl' : ∀ b ∈ part, decide (b ≠ 0x0A) = true := fun b hb ↦ decide_eq_true (hl b hb)
  have htake : (part ++ []).takeWhile (fun b ↦ decide (b ≠ 0x0A)) = part ++ [] :=
    List.takeWhile_append_of_pos hl'
  have hdrop : (part ++ []).dropWhile (fun b ↦ decide (b ≠ 0x0A)) = [] :=
    List.dropWhile_append_of_pos hl'
  rw [List.append_nil] at htake hdrop
  unfold getline
  rw [hi]
  split
  · exact absurd rfl hne
  · simp only [htake, hdrop]

private theorem Good.not_stopped {reader : RawEventReader} (hg : reader.Good) :
    (!reader.isOpen || reader.eof || reader.failed) = false := by
  obtain ⟨hopen, heof, hfailed⟩ := hg
  rw [hopen, heof, hfailed]
  rfl

/-- A complete line with the expected record. -/
theorem next_line {reader : RawEventReader} {message : RawMessage} {line rest : Bytes}
    (hg : reader.Good) (hm : message.Fits) (hd : dump none (recordValue message) = .ok line)
    (he : message.recordIndex = reader.expectedIndex) (hi : reader.input = line ++ 0x0A :: rest) :
    reader.next = ({ reader with
      input := rest
      expectedIndex := (reader.expectedIndex + 1) % 2 ^ 64 }, some message) := by
  have hparse : Json.parse line = .ok (recordValue message).reread := by
    have hp := parse_dump hm.plain hd blank_nil
    rw [List.append_nil] at hp
    exact hp
  have hvalid := validateRecord_reread hm
  rw [he] at hvalid
  rw [next, hg.not_stopped, getline_line (dumpValue_line hm.plain hd) hi]
  simp only [hg.2.1, Bool.false_eq_true, if_false, hparse, hvalid]

/-- The end of the file. -/
theorem next_end {reader : RawEventReader} (hg : reader.Good) (hi : reader.input = []) :
    reader.next = ({ reader with eof := true, failed := true }, none) := by
  have hline : reader.getline = ({ reader with eof := true, failed := true }, none) := by
    unfold getline
    rw [hi]
  rw [next, hg.not_stopped, hline]
  rfl

/-- A line without its newline. -/
theorem next_part {reader : RawEventReader} {part : Bytes} (hg : reader.Good)
    (hl : ∀ b ∈ part, b ≠ 0x0A) (hne : part ≠ []) (hi : reader.input = part) :
    reader.next = ({ reader with
      input := []
      eof := true
      lastError := ascii "truncated JSONL: missing final newline" }, none) := by
  rw [next, hg.not_stopped, getline_part hl hne hi]
  rfl

end RawEventReader

/-! ### The indexes of what is read -/

private theorem recordIndex_of_validateRecord {expectedIndex : Nat} {j : Value}
    {message : RawMessage} (h : validateRecord expectedIndex j = .ok message) :
    message.recordIndex = expectedIndex := by
  unfold validateRecord at h
  split at h
  · cases h
  · split at h
    · cases h
    · split at h
      · cases h
      · split at h
        · cases h
        · dsimp only at h
          split at h
          · cases h
          · next hi =>
            rw [ne_eq, not_not] at hi
            split at h
            · cases h
            · cases h
              exact hi

namespace RawEventReader

private theorem getline_some {reader after : RawEventReader} {line : Bytes}
    (h : reader.getline = (after, some line)) :
    after.expectedIndex = reader.expectedIndex ∧ after.input.length < reader.input.length := by
  unfold getline at h
  split at h
  · cases h
  · next b tail hi =>
    have hle : (reader.input.dropWhile (· ≠ 0x0A)).length ≤ reader.input.length :=
      (List.dropWhile_sublist _).length_le
    dsimp only at h
    split at h
    · cases h
      refine ⟨rfl, ?_⟩
      rw [hi]
      exact Nat.succ_pos _
    · next b' rest hd =>
      cases h
      refine ⟨rfl, ?_⟩
      rw [hd, List.length_cons] at hle
      exact hle

/-- A record that is returned has the expected index, and its line is off the input. -/
theorem next_some {reader after : RawEventReader} {message : RawMessage}
    (h : reader.next = (after, some message)) :
    message.recordIndex = reader.expectedIndex ∧
      after.expectedIndex = (reader.expectedIndex + 1) % 2 ^ 64 ∧
      after.input.length < reader.input.length := by
  unfold next at h
  split at h
  · cases h
  · cases hg : reader.getline with
    | mk mid line =>
      rw [hg] at h
      cases line with
      | none => cases h
      | some line =>
        obtain ⟨hexpected, hlength⟩ := getline_some hg
        dsimp only at h
        split at h
        · cases h
        · split at h
          · cases h
          · split at h
            · cases h
            · next read hv =>
              cases h
              rw [← hexpected]
              exact ⟨recordIndex_of_validateRecord hv, rfl, hlength⟩

/-- The indexes of the records that are read count from the expected one. -/
theorem readAll_indexed (c : Nat) {reader : RawEventReader} (h : reader.expectedIndex < 2 ^ 64) :
    (∀ k message, (reader.readAll c).1[k]? = some message →
      message.recordIndex = (reader.expectedIndex + k) % 2 ^ 64) ∧
      (reader.readAll c).1.length ≤ reader.input.length := by
  induction c generalizing reader with
  | zero =>
    rw [readAll]
    exact ⟨fun k message hk ↦ by simp at hk, Nat.zero_le _⟩
  | succ calls ih =>
    rw [readAll]
    cases hn : reader.next with
    | mk after read =>
      cases read with
      | none => exact ⟨fun k message hk ↦ by simp at hk, Nat.zero_le _⟩
      | some first =>
        obtain ⟨hindex, hexpected, hlength⟩ := next_some hn
        obtain ⟨hrest, hcount⟩ := ih (hexpected ▸ Nat.mod_lt _ (by decide))
        refine ⟨?_, ?_⟩
        · intro k message hk
          cases k with
          | zero =>
            cases hk
            rw [hindex, Nat.add_zero, Nat.mod_eq_of_lt h]
          | succ k =>
            rw [hrest k message hk, hexpected, Nat.mod_add_mod, Nat.add_right_comm, Nat.add_assoc]
        · show (after.readAll calls).1.length + 1 ≤ _
          omega

/-- A file of fewer than `2 ^ 64` bytes is read with indexes that count from zero. -/
theorem readAll_contiguous (c : Nat) {file : Option Bytes}
    (h : ∀ bytes, file = some bytes → bytes.length < 2 ^ 64) {k : Nat} {message : RawMessage}
    (hk : ((create file).readAll c).1[k]? = some message) : message.recordIndex = k := by
  have hstart : (create file).expectedIndex = 0 := by
    cases file <;> rfl
  have hinput : (create file).input.length < 2 ^ 64 := by
    cases file with
    | none => decide
    | some bytes => exact h bytes rfl
  obtain ⟨hindex, hcount⟩ := readAll_indexed c (hstart ▸ Nat.zero_lt_succ _ :
    (create file).expectedIndex < 2 ^ 64)
  have hlt := (List.getElem?_eq_some_iff.mp hk).1
  rw [hindex k message hk, hstart, Nat.zero_add, Nat.mod_eq_of_lt (by omega)]

end RawEventReader

/-! ### Files of records -/

/-- The lines of a file, each with its newline. -/
def joinLines (lines : List Bytes) : Bytes := lines.flatMap fun line ↦ line ++ [0x0A]

/-- The records of a file: their lines, the ranges of their numbers, and their indexes, which
count from `start`. -/
structure RecordFile (start : Nat) (messages : List RawMessage) (lines : List Bytes) : Prop where
  lines :
    List.Forall₂ (fun message line ↦ dump none (recordValue message) = .ok line) messages lines
  fits : ∀ message ∈ messages, message.Fits
  indexed : ∀ k message, messages[k]? = some message →
    message.recordIndex = (start + k) % 2 ^ 64

private theorem RecordFile.tail {start : Nat} {message : RawMessage} {messages : List RawMessage}
    {line : Bytes} {lines : List Bytes}
    (h : RecordFile start (message :: messages) (line :: lines)) :
    RecordFile (start + 1) messages lines where
  lines := (List.forall₂_cons.mp h.lines).2
  fits other ho := h.fits other (List.mem_cons_of_mem _ ho)
  indexed k other ho := by
    rw [h.indexed (k + 1) other ho, Nat.add_right_comm, Nat.add_assoc]

/-- A part of the file: the first records. -/
theorem RecordFile.take {start : Nat} {messages : List RawMessage} {lines : List Bytes}
    (h : RecordFile start messages lines) (k : Nat) :
    RecordFile start (messages.take k) (lines.take k) where
  lines := List.forall₂_take k h.lines
  fits message hm := h.fits message (List.mem_of_mem_take hm)
  indexed i message hi := by
    refine h.indexed i message ?_
    rw [List.getElem?_take] at hi
    split at hi
    · exact hi
    · cases hi

/-- No line of a file has a line break inside. -/
theorem RecordFile.line {start : Nat} {messages : List RawMessage} {lines : List Bytes}
    (h : RecordFile start messages lines) : ∀ line ∈ lines, ∀ b ∈ line, b ≠ 0x0A := by
  have hlines := h.lines
  have hfits := h.fits
  clear h
  induction hlines with
  | nil =>
    intro line hl
    cases hl
  | cons hd _ ih =>
    intro line hl
    rcases List.mem_cons.mp hl with rfl | hl
    · exact dumpValue_line (hfits _ List.mem_cons_self).plain hd
    · exact ih (fun other ho ↦ hfits other (List.mem_cons_of_mem _ ho)) line hl

/-- One more record at the end of the file. -/
theorem RecordFile.concat {start : Nat} {messages : List RawMessage} {lines : List Bytes}
    (h : RecordFile start messages lines) {message : RawMessage} {line : Bytes}
    (hd : dump none (recordValue message) = .ok line) (hf : message.Fits)
    (hi : message.recordIndex = (start + messages.length) % 2 ^ 64) :
    RecordFile start (messages ++ [message]) (lines ++ [line]) where
  lines := List.rel_append h.lines (.cons hd .nil)
  fits other ho := by
    rcases List.mem_append.mp ho with ho | ho
    · exact h.fits other ho
    · rw [List.mem_singleton.mp ho]
      exact hf
  indexed k other ho := by
    rw [List.getElem?_append] at ho
    split at ho
    · exact h.indexed k other ho
    · next hk =>
      have hlast : k = messages.length := by
        have hlt := (List.getElem?_eq_some_iff.mp ho).1
        rw [List.length_singleton] at hlt
        omega
      rw [hlast, Nat.sub_self] at ho
      cases ho
      rw [hlast]
      exact hi

/-- Reading whole lines and what stands behind the last newline, with the error at the end. -/
theorem readAll_lines {start : Nat} {messages : List RawMessage} {lines : List Bytes}
    (h : RecordFile start messages lines) {reader : RawEventReader} {part : Bytes}
    (hg : reader.Good) (he : reader.expectedIndex = start % 2 ^ 64) (hn : reader.lastError = [])
    (hp : ∀ b ∈ part, b ≠ 0x0A) (hi : reader.input = joinLines lines ++ part) {c : Nat}
    (hc : messages.length < c) :
    ∃ final, reader.readAll c = (messages, final) ∧ final.lastError =
      if part = [] then [] else ascii "truncated JSONL: missing final newline" := by
  obtain ⟨calls, rfl⟩ : ∃ m, c = m + 1 := ⟨c - 1, by omega⟩
  -- Induction on the records: one call of `next` takes one line off.
  induction messages generalizing start lines reader calls with
  | nil =>
    cases h.lines
    rw [joinLines, List.flatMap_nil, List.nil_append] at hi
    rw [RawEventReader.readAll]
    by_cases hpart : part = []
    · rw [RawEventReader.next_end hg (hi.trans hpart)]
      exact ⟨_, rfl, hn.trans (if_pos hpart).symm⟩
    · rw [RawEventReader.next_part hg hp hpart hi]
      exact ⟨_, rfl, (if_neg hpart).symm⟩
  | cons message messages ih =>
    obtain ⟨line, rest, hd, hrest, rfl⟩ := List.forall₂_cons_left_iff.mp h.lines
    have hindex : message.recordIndex = reader.expectedIndex :=
      (h.indexed 0 message rfl).trans he.symm
    have hinput : reader.input = line ++ 0x0A :: (joinLines rest ++ part) := by
      rw [hi, joinLines, List.flatMap_cons]
      simp [joinLines]
    obtain ⟨calls, rfl⟩ : ∃ m, calls = m + 1 := ⟨calls - 1, by rw [List.length_cons] at hc; omega⟩
    rw [RawEventReader.readAll,
      RawEventReader.next_line hg (h.fits _ List.mem_cons_self) hd hindex hinput]
    have hnext : (reader.expectedIndex + 1) % 2 ^ 64 = (start + 1) % 2 ^ 64 := by
      rw [he, Nat.mod_add_mod]
    let behind : RawEventReader := { reader with
      input := joinLines rest ++ part
      expectedIndex := (reader.expectedIndex + 1) % 2 ^ 64 }
    have hbehind : behind.Good := hg
    obtain ⟨final, hread, herror⟩ := ih h.tail hbehind hnext hn rfl calls
      (by rw [List.length_cons] at hc; omega)
    refine ⟨final, ?_, herror⟩
    exact congrArg (fun read ↦ (message :: read.1, read.2)) hread

/-- Reading whole lines and what stands behind the last newline. -/
theorem readAll_file {start : Nat} {messages : List RawMessage} {lines : List Bytes}
    (h : RecordFile start messages lines) {reader : RawEventReader} {part : Bytes}
    (hg : reader.Good) (he : reader.expectedIndex = start % 2 ^ 64) (hn : reader.lastError = [])
    (hp : ∀ b ∈ part, b ≠ 0x0A) (hi : reader.input = joinLines lines ++ part) {c : Nat}
    (hc : messages.length < c) :
    ∃ final, reader.readAll c = (messages, final) ∧ final.hasError = decide (part ≠ []) := by
  obtain ⟨final, hread, herror⟩ := readAll_lines h hg he hn hp hi hc
  refine ⟨final, hread, ?_⟩
  rw [RawEventReader.hasError, herror]
  by_cases hpart : part = []
  · rw [if_pos hpart, hpart]
  · rw [if_neg hpart, decide_eq_true hpart]
    rfl

/-- A part of a file ends inside a line, or behind a newline. -/
theorem take_joinLines {lines : List Bytes} (hl : ∀ line ∈ lines, ∀ b ∈ line, b ≠ 0x0A) (n : Nat) :
    ∃ part, (∀ b ∈ part, b ≠ 0x0A) ∧ (joinLines lines).take n =
      joinLines (lines.take (((joinLines lines).take n).count 0x0A)) ++ part := by
  induction lines generalizing n with
  | nil => exact ⟨[], nofun, by simp [joinLines]⟩
  | cons line lines ih =>
    have hline := hl line List.mem_cons_self
    have hcount (l : Bytes) (hb : ∀ b ∈ l, b ≠ 0x0A) : l.count 0x0A = 0 :=
      List.count_eq_zero.mpr fun hmem ↦ hb _ hmem rfl
    have hjoin : joinLines (line :: lines) = line ++ 0x0A :: joinLines lines := by
      simp [joinLines]
    by_cases hn : n ≤ line.length
    · have htake : (joinLines (line :: lines)).take n = line.take n := by
        rw [hjoin, List.take_append_of_le_length hn]
      have hpart : ∀ b ∈ line.take n, b ≠ 0x0A := fun b hb ↦ hline b (List.mem_of_mem_take hb)
      refine ⟨line.take n, hpart, ?_⟩
      rw [htake, hcount _ hpart]
      rfl
    · obtain ⟨m, rfl⟩ : ∃ m, n = line.length + (m + 1) := ⟨n - line.length - 1, by omega⟩
      obtain ⟨part, hpart, htake⟩ := ih (fun other ho ↦ hl other (List.mem_cons_of_mem _ ho)) m
      refine ⟨part, hpart, ?_⟩
      have hhead : (joinLines (line :: lines)).take (line.length + (m + 1)) =
          line ++ 0x0A :: (joinLines lines).take m := by
        rw [hjoin, List.take_length_add_append, List.take_succ_cons]
      rw [hhead, List.count_append, hcount _ hline, List.count_cons_self, Nat.zero_add,
        List.take_succ_cons]
      nth_rewrite 1 [htake]
      simp [joinLines]

/-! ### What a recorder wrote is what a reader reads -/

/-- The arguments of a call of `append` for a known venue. -/
structure AppendCall where
  venue : KnownVenue
  connectionId : UInt64
  wallTime : Int64
  monotonicTime : Int64
  payload : Bytes
  deriving DecidableEq

/-- The record of a call. -/
def AppendCall.message (call : AppendCall) (index : Nat) : RawMessage :=
  ⟨index, call.venue, call.connectionId.toNat, ⟨call.wallTime.toInt⟩, ⟨call.monotonicTime.toInt⟩,
    call.payload⟩

private theorem AppendCall.fits (call : AppendCall) {index : Nat} (h : index < 2 ^ 64) :
    (call.message index).Fits where
  venue := ⟨call.venue, rfl⟩
  index := h
  connection := call.connectionId.toNat_lt
  wallLow := call.wallTime.le_toInt
  wallHigh := call.wallTime.toInt_lt
  monotonicLow := call.monotonicTime.le_toInt
  monotonicHigh := call.monotonicTime.toInt_lt

namespace RawEventRecorder

/-- `append` with the arguments of a call. -/
def appendCall (recorder : RawEventRecorder) (call : AppendCall) :
    RawEventRecorder × Except Failure Bool :=
  recorder.append call.venue call.connectionId.toNat ⟨call.wallTime.toInt⟩
    ⟨call.monotonicTime.toInt⟩ call.payload

/-- A sequence of calls: the recorder afterwards and the records that were appended. -/
def appendAll (recorder : RawEventRecorder) : List AppendCall → RawEventRecorder × List RawMessage
  | [] => (recorder, [])
  | call :: calls =>
    let (next, result) := recorder.appendCall call
    let (final, messages) := next.appendAll calls
    match result with
    | .ok true => (final, call.message recorder.nextRecordIndex :: messages)
    | _ => (final, messages)

/-- A recorder that is open with these records in its file. -/
def Holds (recorder : RawEventRecorder) (messages : List RawMessage) : Prop :=
  recorder.isOpen = true ∧ recorder.nextRecordIndex = messages.length % 2 ^ 64 ∧
    ∃ lines, RecordFile 0 messages lines ∧ recorder.output = joinLines lines

/-- A new recorder holds no records. -/
theorem holds_create : (create false).Holds [] :=
  ⟨rfl, rfl, [], ⟨.nil, nofun, nofun⟩, rfl⟩

/-- One call: its record is appended, or nothing happens. -/
theorem Holds.appendCall {recorder : RawEventRecorder} {messages : List RawMessage}
    (h : recorder.Holds messages) (call : AppendCall) :
    (∃ next, recorder.appendCall call = (next, .ok true) ∧
      next.Holds (messages ++ [call.message recorder.nextRecordIndex])) ∨
    ∃ failure, recorder.appendCall call = (recorder, .error failure) := by
  obtain ⟨hopen, hnext, lines, hfile, houtput⟩ := h
  have hindex : recorder.nextRecordIndex < 2 ^ 64 := hnext ▸ Nat.mod_lt _ (by decide)
  cases hd : dump none (recordValue (call.message recorder.nextRecordIndex)) with
  | error failure =>
    refine .inr ⟨failure, ?_⟩
    unfold RawEventRecorder.appendCall append
    rw [if_neg (by rw [hopen]; decide)]
    simp only [AppendCall.message] at hd
    rw [hd]
  | ok line =>
    refine .inl ⟨{ recorder with
      output := recorder.output ++ line ++ [0x0A]
      nextRecordIndex := (recorder.nextRecordIndex + 1) % 2 ^ 64 }, ?_, hopen, ?_,
      lines ++ [line], ?_, ?_⟩
    · unfold RawEventRecorder.appendCall append
      rw [if_neg (by rw [hopen]; decide)]
      simp only [AppendCall.message] at hd
      rw [hd]
    · show (recorder.nextRecordIndex + 1) % 2 ^ 64 = _
      rw [hnext, Nat.mod_add_mod, List.length_append, List.length_singleton]
    · refine hfile.concat hd (call.fits hindex) ?_
      rw [Nat.zero_add]
      exact hnext
    · show recorder.output ++ line ++ [0x0A] = _
      rw [houtput, joinLines, joinLines, List.flatMap_append, List.append_assoc]
      simp

/-- An envelope of a known venue that is appended under its own index is the next record. -/
theorem Holds.appendEnvelope {recorder next : RawEventRecorder} {messages : List RawMessage}
    (h : recorder.Holds messages) {e : RawMessage} {venue : KnownVenue} (hv : e.venue = venue)
    (hi : e.recordIndex % 2 ^ 64 = recorder.nextRecordIndex)
    (ha : recorder.appendEnvelope e = (next, .ok true)) :
    next.Holds (messages ++ [e.narrowed]) := by
  let call : AppendCall := ⟨venue, UInt64.ofNat e.connectionId,
    Int64.ofInt e.receiveWallTime.nanoseconds, Int64.ofInt e.receiveMonotonicTime.nanoseconds,
    e.payload⟩
  have hcall : recorder.appendCall call = (next, .ok true) := by
    rw [← ha, RawEventRecorder.appendEnvelope, hv]
    rfl
  have hmessage : call.message recorder.nextRecordIndex = e.narrowed := by
    rw [AppendCall.message, RawMessage.narrowed, hv, hi]
  obtain ⟨after, happend, hholds⟩ | ⟨failure, happend⟩ := h.appendCall call
  · rw [hcall] at happend
    cases happend
    rw [← hmessage]
    exact hholds
  · rw [hcall] at happend
    cases happend

/-- A run of calls appends its records. -/
theorem Holds.appendAll {recorder : RawEventRecorder} {messages : List RawMessage}
    (h : recorder.Holds messages) (calls : List AppendCall) :
    (recorder.appendAll calls).1.Holds (messages ++ (recorder.appendAll calls).2) := by
  induction calls generalizing recorder messages with
  | nil =>
    rw [RawEventRecorder.appendAll, List.append_nil]
    exact h
  | cons call calls ih =>
    rw [RawEventRecorder.appendAll]
    rcases h.appendCall call with ⟨next, hcall, hnext⟩ | ⟨failure, hcall⟩
    · have hrest := ih hnext
      rw [List.append_assoc] at hrest
      rw [hcall]
      exact hrest
    · rw [hcall]
      exact ih h

end RawEventRecorder

/-- A file ends with a line break, or is empty, exactly if no line is cut off. -/
theorem getLast?_joinLines_append (lines : List Bytes) {part : Bytes}
    (hp : ∀ b ∈ part, b ≠ 0x0A) :
    (joinLines lines ++ part = [] ∨ (joinLines lines ++ part).getLast? = some 0x0A) ↔
      part = [] := by
  constructor
  · rintro (h | h)
    · exact (List.append_eq_nil_iff.mp h).2
    · by_contra hne
      rw [List.getLast?_append_of_ne_nil _ hne] at h
      exact hp _ (List.mem_of_getLast? h) rfl
  · intro h
    rw [h, List.append_nil]
    cases hl : lines.reverse with
    | nil =>
      rw [List.reverse_eq_nil_iff.mp hl]
      exact .inl rfl
    | cons line rest =>
      have hlines : lines = rest.reverse ++ [line] := by
        rw [← List.reverse_reverse lines, hl, List.reverse_cons]
      rw [hlines, joinLines, List.flatMap_append]
      exact .inr (by simp)

/-- An append that throws changes nothing, and every part of the file that a crash can leave
is read back record by record: as many records as it has newlines, and an error exactly if
it ends inside a line. -/
theorem records_read_back :
    (∀ (recorder : RawEventRecorder) (call : AppendCall),
      (recorder.appendCall call).2.isOk = true ∨ (recorder.appendCall call).1 = recorder) ∧
    ∀ (calls : List AppendCall) (n more : Nat),
      let (recorder, messages) := (RawEventRecorder.create false).appendAll calls
      let file := recorder.output.take n
      ∃ final,
        (RawEventReader.create (some file)).readAll (file.count 0x0A + 1 + more) =
          (messages.take (file.count 0x0A), final) ∧
        final.hasError = !decide (file = [] ∨ file.getLast? = some 0x0A) := by
  constructor
  · intro recorder call
    cases hr : (recorder.appendCall call).2 with
    | ok flag => exact .inl rfl
    | error failure => exact .inr (RawEventRecorder.append_error hr)
  · intro calls n more
    obtain ⟨_, _, lines, hfile, houtput⟩ := RawEventRecorder.holds_create.appendAll calls
    rw [List.nil_append] at hfile
    show ∃ final, _
    rw [houtput]
    obtain ⟨part, hpart, htake⟩ := take_joinLines hfile.line n
    generalize hk : ((joinLines lines).take n).count 0x0A = k at htake
    have hcreate : (RawEventReader.create (some ((joinLines lines).take n))).Good := ⟨rfl, rfl, rfl⟩
    obtain ⟨final, hread, herror⟩ := readAll_file (hfile.take k) hcreate rfl rfl hpart htake
      (c := k + 1 + more) (by rw [List.length_take]; omega)
    refine ⟨final, hread, ?_⟩
    rw [herror, htake, decide_eq_decide.mpr (getLast?_joinLines_append (lines.take k) hpart),
      decide_not]

end ArbitrageEngine.Recording
