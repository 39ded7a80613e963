import ArbitrageEngine.Core.MarketEvent

/-!
# Raw messages and the recording queue

`include/recording/{raw_message,raw_recording_queue}.hpp`. Every member function of the
queue runs under its mutex, so each is one step of the model.
-/

namespace ArbitrageEngine.Recording

open Base ArbitrageEngine.Core

/-- `recording::RawMessage`, also called `RawEnvelope`
(`include/recording/raw_message.hpp:15–24`). -/
structure RawMessage where
  recordIndex : Nat
  venue : Venue
  connectionId : Nat
  receiveWallTime : ReceiveWallTimestamp
  receiveMonotonicTime : ReceiveMonotonicTimestamp
  payload : Bytes
  deriving DecidableEq, Repr

/-- `recording::RawQueueConfig` with its defaults
(`include/recording/raw_recording_queue.hpp:12–15`). -/
structure RawQueueConfig where
  maximumMessages : Nat := 4096
  maximumBytes : Nat := 64 * 1024 * 1024
  deriving DecidableEq, Repr

/-- `RawRecordingQueue::PushResult` (`include/recording/raw_recording_queue.hpp:18`). -/
inductive PushResult
  | accepted
  | full
  | closed
  deriving DecidableEq, Repr

/-- `recording::RawRecordingQueue` (`include/recording/raw_recording_queue.hpp:16–63`). -/
structure RawRecordingQueue where
  config : RawQueueConfig
  messages : List RawMessage
  bytes : Nat
  closed : Bool
  deriving DecidableEq, Repr

namespace RawRecordingQueue

/-- The constructor (`include/recording/raw_recording_queue.hpp:19`). -/
def create (config : RawQueueConfig) : RawRecordingQueue := ⟨config, [], 0, false⟩

/-- `maximum_bytes - bytes_` in `std::size_t` (`include/recording/raw_recording_queue.hpp:25`). -/
def remainingBytes (queue : RawRecordingQueue) : Nat :=
  (queue.config.maximumBytes + 2 ^ 64 - queue.bytes) % 2 ^ 64

/-- `try_push` (`include/recording/raw_recording_queue.hpp:20–31`). -/
def tryPush (queue : RawRecordingQueue) (message : RawMessage) : RawRecordingQueue × PushResult :=
  if queue.closed then (queue, .closed)
  else if queue.config.maximumMessages ≤ queue.messages.length ∨
      queue.remainingBytes < message.payload.length then (queue, .full)
  else
    ({ queue with
        messages := queue.messages ++ [message]
        bytes := (queue.bytes + message.payload.length) % 2 ^ 64 }, .accepted)

/-- `wait_pop` once its wait is over; `none` while it blocks
(`include/recording/raw_recording_queue.hpp:32–41`). -/
def waitPop (queue : RawRecordingQueue) : Option (RawRecordingQueue × Option RawMessage) :=
  match queue.messages with
  | [] => if queue.closed then some (queue, none) else none
  | message :: rest =>
    some ({ queue with
      messages := rest
      bytes := (queue.bytes + 2 ^ 64 - message.payload.length) % 2 ^ 64 }, some message)

/-- `close` (`include/recording/raw_recording_queue.hpp:42–46`). -/
def close (queue : RawRecordingQueue) : RawRecordingQueue := { queue with closed := true }

end RawRecordingQueue

end ArbitrageEngine.Recording
