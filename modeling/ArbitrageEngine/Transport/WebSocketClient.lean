import ArbitrageEngine.Base.Bytes

/-!
# The WebSocket client

`src/transport/websocket_client.cpp`: the flags of `WebSocketClient::Impl` and the asynchronous
operations it has started. Of Asio and Beast only this is assumed: the completion of an
operation is delivered at most once, with any error code.
-/

namespace ArbitrageEngine.Transport

open Base

/-- An error code, as far as the client tells them apart, with its `message()`. -/
inductive ErrorCode
  | success
  | closed (message : Bytes)
  | operationAborted (message : Bytes)
  | other (message : Bytes)
  deriving DecidableEq, Repr

namespace ErrorCode

/-- The code converts to true. -/
def failed : ErrorCode → Bool
  | success => false
  | _ => true

/-- `message()`. -/
def message : ErrorCode → Bytes
  | success => ascii "Success"
  | closed message => message
  | operationAborted message => message
  | other message => message

/-- The completion of `async_close` reports this code (`src/transport/websocket_client.cpp:152`). -/
def reported : ErrorCode → Bool
  | other _ => true
  | _ => false

end ErrorCode

/-- The asynchronous operations; a write carries the index of its request. -/
inductive Operation
  | connect
  | tlsHandshake
  | handshake
  | write (index : Nat)
  | read
  | close
  deriving DecidableEq, Repr

/-- `WebSocketClient::Impl`: its flags, the number of its requests, and the operations whose
completion is still to be delivered. Besides, it is known whether `abort` was called
(`src/transport/websocket_client.cpp:16–156`). -/
structure WebSocketClient where
  requests : Nat
  stopping : Bool
  writing : Bool
  closing : Bool
  pending : List Operation
  aborted : Bool
  deriving DecidableEq, Repr

namespace WebSocketClient

/-- A client on which `connect` has been called (`src/transport/websocket_client.cpp:26–35`). -/
def create (requests : Nat) : WebSocketClient := ⟨requests, false, false, false, [], false⟩

/-- An operation is started. -/
def begin (client : WebSocketClient) (operation : Operation) : WebSocketClient :=
  { client with pending := operation :: client.pending }

/-- The completion of an operation is delivered. -/
def finished (client : WebSocketClient) (operation : Operation) : WebSocketClient :=
  { client with pending := client.pending.erase operation }

/-- The flag that `fail` sets (`src/transport/websocket_client.cpp:43`). -/
def halt (client : WebSocketClient) : WebSocketClient := { client with stopping := true }

/-- `abort` (`src/transport/websocket_client.cpp:137–141`). -/
def abort (client : WebSocketClient) : WebSocketClient :=
  { client with stopping := true, aborted := true }

/-- `close`; the stream says whether it is open (`src/transport/websocket_client.cpp:142–155`). -/
def close (client : WebSocketClient) (isOpen : Bool) : WebSocketClient :=
  let client := { client with stopping := true }
  if client.writing || client.closing then client
  else if !isOpen then client
  else { client with closing := true }.begin .close

/-- `subscribe` (`src/transport/websocket_client.cpp:94–97`). -/
def subscribe (client : WebSocketClient) (index : Nat) : WebSocketClient :=
  { client with writing := true }.begin (.write index)

/-- The start of a write's completion (`src/transport/websocket_client.cpp:98`). -/
def wrote (client : WebSocketClient) : WebSocketClient := { client with writing := false }

/-- `read` (`src/transport/websocket_client.cpp:112–115`). -/
def read (client : WebSocketClient) : WebSocketClient :=
  if client.stopping then client else client.begin .read

/-- A change of the client that starts nothing again once it is stopped. -/
structure Keeps (f : WebSocketClient → WebSocketClient) : Prop where
  stopping : ∀ client, client.stopping = true → (f client).stopping = true
  aborted : ∀ client, (f client).aborted = client.aborted

/-- Starting an operation. -/
theorem keeps_begin (operation : Operation) : Keeps (begin · operation) :=
  ⟨fun _ h ↦ h, fun _ ↦ rfl⟩

/-- Finishing an operation. -/
theorem keeps_finished (operation : Operation) : Keeps (finished · operation) :=
  ⟨fun _ h ↦ h, fun _ ↦ rfl⟩

/-- Setting the flag `stopping`. -/
theorem keeps_halt : Keeps halt :=
  ⟨fun _ _ ↦ rfl, fun _ ↦ rfl⟩

/-- Starting a write. -/
theorem keeps_subscribe (index : Nat) : Keeps (subscribe · index) :=
  ⟨fun _ h ↦ h, fun _ ↦ rfl⟩

/-- The end of a write. -/
theorem keeps_wrote : Keeps wrote :=
  ⟨fun _ h ↦ h, fun _ ↦ rfl⟩

/-- Closing the stream. -/
theorem keeps_close (isOpen : Bool) : Keeps (close · isOpen) := by
  constructor
  · intro client _
    unfold close
    dsimp only
    split
    · rfl
    · split <;> rfl
  · intro client
    unfold close
    dsimp only
    split
    · rfl
    · split <;> rfl

/-- Starting a read. -/
theorem keeps_read : Keeps read := by
  constructor
  · intro client h
    rwa [read, if_pos h]
  · intro client
    unfold read
    split <;> rfl

end WebSocketClient

end ArbitrageEngine.Transport
