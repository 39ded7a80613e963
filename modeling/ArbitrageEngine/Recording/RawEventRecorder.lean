import ArbitrageEngine.Recording.RawRecordingQueue
import ArbitrageEngine.Json.RoundTrip

/-!
# Raw event recorder

`src/recording/raw_event_recorder.cpp`: one line of compact JSON for each message. The
stream is a file that takes every write; `json::dump` throws before anything is written.
-/

namespace ArbitrageEngine.Recording

open Base ArbitrageEngine.Core Json

/-- The `venue` field of a record, `src/recording/raw_event_recorder.cpp:43–53`. -/
def venueName : Venue → Bytes
  | .coinbase => ascii "coinbase"
  | .kraken => ascii "kraken"
  | .other _ => ascii "unknown"

/-- The JSON object of a record; its keys are assigned in this order
(`src/recording/raw_event_recorder.cpp:40–59`). -/
def recordValue (message : RawMessage) : Value :=
  objectOf
    [(ascii "format_version", .numberInteger 1),
      (ascii "record_index", .numberUnsigned message.recordIndex),
      (ascii "venue", .string (venueName message.venue)),
      (ascii "connection_id", .numberUnsigned message.connectionId),
      (ascii "receive_wall_ns", .numberInteger message.receiveWallTime.nanoseconds),
      (ascii "receive_monotonic_ns", .numberInteger message.receiveMonotonicTime.nanoseconds),
      (ascii "payload", .string message.payload)]

/-- `recording::RawEventRecorder`: whether its stream is open, the file, and `next_record_index_`
(`include/recording/raw_event_recorder.hpp:12–35`). -/
structure RawEventRecorder where
  isOpen : Bool
  output : Bytes
  nextRecordIndex : Nat
  deriving DecidableEq, Repr

namespace RawEventRecorder

/-- The constructor, which refuses to overwrite a file
(`src/recording/raw_event_recorder.cpp:14–29`). -/
def create (fileExists : Bool) : RawEventRecorder := ⟨!fileExists, [], 0⟩

/-- `append`: the recorder afterwards, and what it returned or threw
(`src/recording/raw_event_recorder.cpp:31–71`). -/
def append (recorder : RawEventRecorder) (venue : Venue) (connectionId : Nat)
    (wallTime : ReceiveWallTimestamp) (monotonicTime : ReceiveMonotonicTimestamp)
    (payload : Bytes) : RawEventRecorder × Except Failure Bool :=
  if !recorder.isOpen then (recorder, .ok false)
  else
    match dump none (recordValue
      ⟨recorder.nextRecordIndex, venue, connectionId, wallTime, monotonicTime, payload⟩) with
    | .error failure => (recorder, .error failure)
    | .ok line =>
      ({ recorder with
          output := recorder.output ++ line ++ [0x0A]
          nextRecordIndex := (recorder.nextRecordIndex + 1) % 2 ^ 64 }, .ok true)

/-- `append` as `write_raw` calls it for an envelope, whose numbers have the width of their C++
types (`src/pipeline/runtime_status.cpp:32–37`). -/
def appendEnvelope (recorder : RawEventRecorder) (e : RawMessage) :
    RawEventRecorder × Except Failure Bool :=
  recorder.append e.venue (UInt64.ofNat e.connectionId).toNat
    ⟨(Int64.ofInt e.receiveWallTime.nanoseconds).toInt⟩
    ⟨(Int64.ofInt e.receiveMonotonicTime.nanoseconds).toInt⟩ e.payload

/-- An append that throws changes nothing. -/
theorem append_error {recorder : RawEventRecorder} {venue : Venue} {connectionId : Nat}
    {wallTime : ReceiveWallTimestamp} {monotonicTime : ReceiveMonotonicTimestamp} {payload : Bytes}
    {failure : Failure}
    (h : (recorder.append venue connectionId wallTime monotonicTime payload).2 = .error failure) :
    (recorder.append venue connectionId wallTime monotonicTime payload).1 = recorder := by
  unfold append at h ⊢
  split
  · rfl
  · next hopen =>
    rw [if_neg hopen] at h
    split
    · rfl
    · next line hline =>
      rw [hline] at h
      cases h

end RawEventRecorder

/-! ### Records -/

/-- A record whose venue has a name and whose numbers are values of their C++ types. -/
structure RawMessage.Fits (message : RawMessage) : Prop where
  venue : ∃ known : KnownVenue, message.venue = known
  index : message.recordIndex < 2 ^ 64
  connection : message.connectionId < 2 ^ 64
  wallLow : -2 ^ 63 ≤ message.receiveWallTime.nanoseconds
  wallHigh : message.receiveWallTime.nanoseconds < 2 ^ 63
  monotonicLow : -2 ^ 63 ≤ message.receiveMonotonicTime.nanoseconds
  monotonicHigh : message.receiveMonotonicTime.nanoseconds < 2 ^ 63

/-- An envelope with its numbers in the width of their C++ types. -/
def RawMessage.narrowed (e : RawMessage) : RawMessage :=
  ⟨e.recordIndex % 2 ^ 64, e.venue, (UInt64.ofNat e.connectionId).toNat,
    ⟨(Int64.ofInt e.receiveWallTime.nanoseconds).toInt⟩,
    ⟨(Int64.ofInt e.receiveMonotonicTime.nanoseconds).toInt⟩, e.payload⟩

/-- A record can be read back. -/
theorem RawMessage.Fits.plain {message : RawMessage} (h : message.Fits) :
    (recordValue message).Plain := by
  refine Value.plain_objectOf fun field hf ↦ ?_
  simp only [List.mem_cons, List.not_mem_nil, or_false] at hf
  rcases hf with rfl | rfl | rfl | rfl | rfl | rfl | rfl
  · exact .numberInteger (by decide) (by decide)
  · exact .numberUnsigned h.index
  · exact .string _
  · exact .numberUnsigned h.connection
  · exact .numberInteger h.wallLow h.wallHigh
  · exact .numberInteger h.monotonicLow h.monotonicHigh
  · exact .string _

end ArbitrageEngine.Recording
