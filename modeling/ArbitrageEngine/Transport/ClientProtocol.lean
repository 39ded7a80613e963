import ArbitrageEngine.Base.Checked
import ArbitrageEngine.Transport.WebSocketClient

/-!
# A client and its owner

`src/transport/websocket_client.cpp`: `WebSocketClient` for any owner. The owner may call the
client at any time, also from within its handlers, and the completions of the operations arrive in
any order and with any code. Whatever happens, what the client does follows one protocol.
-/

namespace ArbitrageEngine.Transport

open Base

/-- `read` stops nothing. -/
theorem WebSocketClient.stopping_read {client : WebSocketClient} (h : client.stopping = false) :
    client.read.stopping = false := by
  rwa [read, if_neg (by rw [h]; decide)]

/-! ### Clients -/

/-- The handlers of the owner. -/
inductive Handler
  | connected
  | message (payload : Bytes)
  | error (text : Bytes)
  deriving DecidableEq, Repr

/-- What a client does: it starts an operation, it calls a handler of its owner, or it is
stopped for good. -/
inductive Act
  | begin (operation : Operation)
  | call (handler : Handler)
  | stop
  deriving DecidableEq, Repr

/-- A call that a handler of the owner makes. A call of `connect` there returns at once, since
`started` is set. -/
inductive Reaction
  | close (isOpen : Bool)
  | abort
  deriving DecidableEq, Repr

/-- What comes with a completion: the code, whether the stream is still open, the message that was
read, the calls that the handler of the owner makes, and whether it wants to proceed. -/
structure Answer where
  code : ErrorCode := .success
  isOpen : Bool := true
  payload : Bytes := []
  reactions : List Reaction := []
  proceed : Bool := true
  deriving DecidableEq, Repr

/-- What the constructor is given: how many requests there are, and whether the owner has a handler
for the connection (`src/transport/websocket_client.cpp:16–35`). -/
structure Setup where
  requests : Nat
  connected : Bool
  deriving DecidableEq, Repr

/-- A client with its handler `connected`, the flag of its `connect` and everything that it has
done. -/
structure ClientRun where
  client : WebSocketClient
  connected : Bool
  started : Bool
  log : List Act
  deriving DecidableEq, Repr

namespace ClientRun

/-- The constructor; it throws without a request (`src/transport/websocket_client.cpp:26–35`). -/
def create (setup : Setup) : Except Failure ClientRun :=
  if setup.requests = 0 then .error ⟨.invalidArgument, ascii "WebSocket subscriptions required"⟩
  else .ok ⟨.create setup.requests, setup.connected, false, []⟩

/-- An operation is started. -/
def begin (s : ClientRun) (operation : Operation) : ClientRun :=
  { s with client := s.client.begin operation, log := s.log ++ [.begin operation] }

/-- The flag `stopping` is set. -/
def stop (s : ClientRun) : ClientRun :=
  if s.client.stopping then s
  else { s with client := s.client.halt, log := s.log ++ [.stop] }

/-- `abort` (`src/transport/websocket_client.cpp:137–141`). -/
def abort (s : ClientRun) : ClientRun :=
  { s.stop with client := s.client.abort }

/-- `close` (`src/transport/websocket_client.cpp:142–155`). -/
def close (s : ClientRun) (isOpen : Bool) : ClientRun :=
  let s := s.stop
  if s.client.writing || s.client.closing then s
  else if !isOpen then s
  else { s with client := { s.client with closing := true } }.begin .close

/-- A call of the owner. -/
def react (s : ClientRun) : Reaction → ClientRun
  | .close isOpen => s.close isOpen
  | .abort => s.abort

/-- A handler of the owner is called. -/
def notify (s : ClientRun) (handler : Handler) (reactions : List Reaction) : ClientRun :=
  reactions.foldl react { s with log := s.log ++ [.call handler] }

/-- `fail` (`src/transport/websocket_client.cpp:40–47`). -/
def fail (s : ClientRun) (operation : Bytes) (code : ErrorCode) (reactions : List Reaction) :
    ClientRun :=
  if s.client.stopping then s
  else s.stop.notify (.error (operation ++ ascii ": " ++ code.message)) reactions

/-- `connect`; the name of the server is set and resolved at once
(`src/transport/websocket_client.cpp:48–68`). -/
def connect (s : ClientRun) (sni resolve : ErrorCode) (reactions : List Reaction) : ClientRun :=
  if s.started || s.client.stopping then s
  else
    let s := { s with started := true }
    if sni.failed then s.fail (ascii "SNI") sni reactions
    else if resolve.failed then s.fail (ascii "resolve") resolve reactions
    else s.begin .connect

/-- `subscribe` (`src/transport/websocket_client.cpp:94–97`). -/
def subscribe (s : ClientRun) (index : Nat) : ClientRun :=
  { s with client := { s.client with writing := true } }.begin (.write index)

/-- `read` (`src/transport/websocket_client.cpp:112–115`). -/
def read (s : ClientRun) : ClientRun :=
  if s.client.stopping then s else s.begin .read

/-- The completion of one of the operations that lead to the connection
(`src/transport/websocket_client.cpp:69–90`). -/
def advance (s : ClientRun) (operation : Bytes) (answer : Answer) (next : ClientRun → ClientRun) :
    ClientRun :=
  if s.client.stopping then s
  else if answer.code.failed then s.fail operation answer.code answer.reactions
  else next s

/-- The completion of a write (`src/transport/websocket_client.cpp:97–110`). -/
def wrote (s : ClientRun) (index : Nat) (answer : Answer) : ClientRun :=
  let s := { s with client := s.client.wrote }
  if s.client.stopping then s.close answer.isOpen
  else if answer.code.failed then s.fail (ascii "subscribe") answer.code answer.reactions
  else if index + 1 < s.client.requests then s.subscribe (index + 1)
  else (if s.connected then s.notify .connected answer.reactions else s).read

/-- The completion of a read (`src/transport/websocket_client.cpp:115–135`). -/
def received (s : ClientRun) (answer : Answer) : ClientRun :=
  if answer.code.failed then s.fail (ascii "read") answer.code answer.reactions
  else if s.client.stopping then s
  else
    let s := s.notify (.message answer.payload) answer.reactions
    if answer.proceed then s.read else s.close answer.isOpen

/-- The completion of a close (`src/transport/websocket_client.cpp:150–154`). -/
def closed (s : ClientRun) (answer : Answer) : ClientRun :=
  if answer.code.reported then
    s.notify (.error (ascii "close: " ++ answer.code.message)) answer.reactions
  else s

/-- The completion handlers (`src/transport/websocket_client.cpp:68–91,97,115,150`). -/
def handle (s : ClientRun) (answer : Answer) : Operation → ClientRun
  | .connect => s.advance (ascii "connect") answer (·.begin .tlsHandshake)
  | .tlsHandshake => s.advance (ascii "TLS handshake") answer (·.begin .handshake)
  | .handshake => s.advance (ascii "WebSocket handshake") answer (·.subscribe 0)
  | .write index => s.wrote index answer
  | .read => s.received answer
  | .close => s.closed answer

/-- The completion of an operation is delivered, if it is still to be. -/
def complete (s : ClientRun) (operation : Operation) (answer : Answer) : ClientRun :=
  if operation ∈ s.client.pending then
    { s with client := s.client.finished operation }.handle answer operation
  else s

/-- The handler of the owner that an operation of the connection calls when it fails. -/
def failure (s : ClientRun) (operation : Bytes) (code : ErrorCode) : Option Handler :=
  if !s.client.stopping && code.failed then
    some (.error (operation ++ ascii ": " ++ code.message))
  else none

/-- The handler of the owner that `connect` calls. -/
def refusal (sni resolve : ErrorCode) : Option Handler :=
  if sni.failed then some (.error (ascii "SNI" ++ ascii ": " ++ sni.message))
  else if resolve.failed then some (.error (ascii "resolve" ++ ascii ": " ++ resolve.message))
  else none

/-- The handler of the owner that a completion calls. -/
def callback (s : ClientRun) (code : ErrorCode) (payload : Bytes) : Operation → Option Handler
  | .connect => s.failure (ascii "connect") code
  | .tlsHandshake => s.failure (ascii "TLS handshake") code
  | .handshake => s.failure (ascii "WebSocket handshake") code
  | .write index =>
    if s.client.stopping || code.failed then s.failure (ascii "subscribe") code
    else if index + 1 < s.client.requests then none
    else if s.connected then some .connected else none
  | .read =>
    if s.client.stopping || code.failed then s.failure (ascii "read") code
    else some (.message payload)
  | .close => if code.reported then some (.error (ascii "close: " ++ code.message)) else none

/-! ### The client alone -/

/-- The client of a run that is stopped. -/
@[simp]
theorem stop_client (s : ClientRun) : s.stop.client = s.client.halt := by
  unfold stop
  split
  · next hstop =>
    change s.client = { s.client with stopping := true }
    rw [← hstop]
  · rfl

/-- The client of a run that is closed. -/
theorem close_client (s : ClientRun) (isOpen : Bool) :
    (s.close isOpen).client = s.client.close isOpen := by
  unfold close WebSocketClient.close
  dsimp only
  rw [stop_client]
  by_cases hbusy : (s.client.writing || s.client.closing) = true
  · rw [if_pos hbusy]
    exact (congrArg client (if_pos hbusy)).trans s.stop_client
  · rw [if_neg hbusy]
    refine (congrArg client (if_neg hbusy)).trans ?_
    cases isOpen with
    | false => exact s.stop_client
    | true => rfl

/-- The client of a run that reads. -/
theorem read_client (s : ClientRun) : s.read.client = s.client.read := by
  unfold read WebSocketClient.read
  split <;> rfl

/-- Only a call of the owner aborts a client. -/
theorem aborted_reactions {reactions : List Reaction} {s : ClientRun}
    (h : (reactions.foldl react s).client.aborted = true) :
    s.client.aborted = true ∨ .abort ∈ reactions := by
  induction reactions generalizing s with
  | nil => exact .inl h
  | cons reaction reactions ih =>
    rcases ih h with hfirst | hmem
    · cases reaction with
      | close isOpen =>
        rw [react, close_client, (WebSocketClient.keeps_close isOpen).aborted] at hfirst
        exact .inl hfirst
      | abort => exact .inr List.mem_cons_self
    · exact .inr (List.mem_cons_of_mem _ hmem)

private theorem aborted_notify {s : ClientRun} {handler : Handler} {reactions : List Reaction}
    (h : (s.notify handler reactions).client.aborted = true) :
    s.client.aborted = true ∨ .abort ∈ reactions :=
  aborted_reactions (s := { s with log := s.log ++ [.call handler] }) h

private theorem aborted_fail {s : ClientRun} {operation : Bytes} {code : ErrorCode}
    {reactions : List Reaction} (h : (s.fail operation code reactions).client.aborted = true) :
    s.client.aborted = true ∨ .abort ∈ reactions := by
  unfold fail at h
  split at h
  · exact .inl h
  · refine (aborted_notify h).imp_left fun haborted ↦ ?_
    rwa [stop_client] at haborted

private theorem aborted_handle {s : ClientRun} {answer : Answer} {operation : Operation}
    (h : (s.handle answer operation).client.aborted = true) :
    s.client.aborted = true ∨ .abort ∈ answer.reactions := by
  have hadvance {name : Bytes} {next : ClientRun → ClientRun}
      (hnext : (next s).client.aborted = s.client.aborted)
      (h : (s.advance name answer next).client.aborted = true) :
      s.client.aborted = true ∨ .abort ∈ answer.reactions := by
    unfold advance at h
    split at h
    · exact .inl h
    · split at h
      · exact aborted_fail h
      · exact .inl (hnext.symm.trans h)
  have hread {s : ClientRun} (h : s.read.client.aborted = true) : s.client.aborted = true := by
    rwa [read_client, WebSocketClient.keeps_read.aborted] at h
  have hclose {s : ClientRun} (h : (s.close answer.isOpen).client.aborted = true) :
      s.client.aborted = true := by
    rwa [close_client, (WebSocketClient.keeps_close answer.isOpen).aborted] at h
  cases operation with
  | connect => exact hadvance rfl h
  | tlsHandshake => exact hadvance rfl h
  | handshake => exact hadvance rfl h
  | write index =>
    simp only [handle, wrote] at h
    split at h
    · have hbefore := hclose h
      exact .inl hbefore
    · split at h
      · have hbefore := aborted_fail h
        exact hbefore
      · split at h
        · exact .inl h
        · have hbefore := hread h
          split at hbefore
          · have hcalled := aborted_notify hbefore
            exact hcalled
          · exact .inl hbefore
  | read =>
    simp only [handle, received] at h
    split at h
    · exact aborted_fail h
    · split at h
      · exact .inl h
      · split at h
        · exact aborted_notify (hread h)
        · exact aborted_notify (hclose h)
  | close =>
    simp only [handle, closed] at h
    split at h
    · exact aborted_notify h
    · exact .inl h

/-- A completion aborts a client only if its owner does. -/
theorem aborted_complete {s : ClientRun} {answer : Answer} {operation : Operation}
    (h : (s.complete operation answer).client.aborted = true) :
    s.client.aborted = true ∨ .abort ∈ answer.reactions := by
  unfold complete at h
  split at h
  · have hbefore := aborted_handle h
    exact hbefore
  · exact .inl h

/-- `connect` aborts a client only if its owner does. -/
theorem aborted_connect {s : ClientRun} {sni resolve : ErrorCode} {reactions : List Reaction}
    (h : (s.connect sni resolve reactions).client.aborted = true) :
    s.client.aborted = true ∨ .abort ∈ reactions := by
  simp only [connect] at h
  split at h
  · exact .inl h
  · split at h
    · have hbefore := aborted_fail h
      exact hbefore
    · split at h
      · have hbefore := aborted_fail h
        exact hbefore
      · exact .inl h

/-! ### Handlers that are called -/

/-- The handlers that the client has called so far. -/
def handlers (s : ClientRun) : List Handler :=
  s.log.filterMap fun
    | .call handler => some handler
    | _ => none

private theorem handlers_concat {s s' : ClientRun} {acts : List Act} (h : s'.log = s.log ++ acts)
    (hquiet : ∀ handler, .call handler ∉ acts) : s'.handlers = s.handlers := by
  unfold handlers
  rw [h, List.filterMap_append]
  refine (congrArg _ (List.filterMap_eq_nil_iff.mpr fun act hmem ↦ ?_)).trans (List.append_nil _)
  cases act with
  | begin | stop => rfl
  | call handler => exact absurd hmem (hquiet handler)

private theorem handlers_begin (s : ClientRun) (operation : Operation) :
    (s.begin operation).handlers = s.handlers :=
  handlers_concat rfl (by simp)

private theorem handlers_stop (s : ClientRun) : s.stop.handlers = s.handlers := by
  unfold stop
  split
  · rfl
  · exact handlers_concat rfl (by simp)

private theorem handlers_close (s : ClientRun) (isOpen : Bool) :
    (s.close isOpen).handlers = s.handlers := by
  rw [← s.handlers_stop]
  unfold close
  dsimp only
  split
  · rfl
  · split
    · rfl
    · exact handlers_begin _ _

private theorem handlers_react (s : ClientRun) (reaction : Reaction) :
    (s.react reaction).handlers = s.handlers := by
  cases reaction with
  | close isOpen => exact s.handlers_close isOpen
  | abort => exact s.handlers_stop

private theorem handlers_notify (s : ClientRun) (handler : Handler) (reactions : List Reaction) :
    (s.notify handler reactions).handlers = s.handlers ++ [handler] := by
  have hreactions (s : ClientRun) : (reactions.foldl react s).handlers = s.handlers := by
    induction reactions generalizing s with
    | nil => rfl
    | cons reaction reactions ih => exact (ih (s.react reaction)).trans (s.handlers_react reaction)
  refine (hreactions _).trans ?_
  unfold handlers
  dsimp only
  rw [List.filterMap_append]
  rfl

private theorem handlers_fail (s : ClientRun) (operation : Bytes) {code : ErrorCode}
    (h : code.failed = true) (reactions : List Reaction) :
    (s.fail operation code reactions).handlers =
      s.handlers ++ (s.failure operation code).toList := by
  unfold fail failure
  cases s.client.stopping with
  | true => exact (List.append_nil _).symm
  | false =>
    rw [h]
    exact (handlers_notify _ _ _).trans (congrArg (· ++ _) s.handlers_stop)

private theorem handlers_read (s : ClientRun) : s.read.handlers = s.handlers := by
  unfold read
  split
  · rfl
  · exact handlers_begin _ _

private theorem handlers_advance (s : ClientRun) (operation : Bytes) (answer : Answer)
    {next : ClientRun → ClientRun} (hnext : (next s).handlers = s.handlers) :
    (s.advance operation answer next).handlers =
      s.handlers ++ (s.failure operation answer.code).toList := by
  unfold advance
  split
  · next hstop => simp [failure, hstop]
  · split
    · next hfailed => exact s.handlers_fail operation hfailed answer.reactions
    · next hfailed => simp [failure, hfailed, hnext]

private theorem handlers_wrote (s : ClientRun) (index : Nat) (answer : Answer) :
    (s.wrote index answer).handlers =
      s.handlers ++ (s.callback answer.code answer.payload (.write index)).toList := by
  have hstopping : s.client.wrote.stopping = s.client.stopping := rfl
  have hrequests : s.client.wrote.requests = s.client.requests := rfl
  simp only [wrote, callback, hstopping, hrequests]
  cases hstop : s.client.stopping with
  | true =>
    rw [if_pos rfl, handlers_close]
    simp [failure, hstop, handlers]
  | false =>
    cases hfailed : answer.code.failed with
    | true => exact handlers_fail { s with client := s.client.wrote } _ hfailed answer.reactions
    | false =>
      simp only [Bool.false_eq_true, ↓reduceIte, Bool.or_self]
      split
      · exact (handlers_begin _ _).trans (List.append_nil _).symm
      · rw [handlers_read]
        split
        · rw [handlers_notify]
          rfl
        · exact (List.append_nil _).symm

private theorem handlers_received (s : ClientRun) (answer : Answer) :
    (s.received answer).handlers =
      s.handlers ++ (s.callback answer.code answer.payload .read).toList := by
  unfold received callback
  cases hfailed : answer.code.failed with
  | true =>
    simp only [↓reduceIte, Bool.or_true]
    exact s.handlers_fail _ hfailed answer.reactions
  | false =>
    cases hstop : s.client.stopping with
    | true => simp [failure, hstop]
    | false =>
      simp only [Bool.false_eq_true, ↓reduceIte, Bool.or_self]
      cases answer.proceed with
      | true => exact (handlers_read _).trans (handlers_notify _ _ _)
      | false => exact (handlers_close _ _).trans (handlers_notify _ _ _)

/-- A completion calls the handler that `callback` names, and no other. -/
theorem handlers_handle (s : ClientRun) (answer : Answer) (operation : Operation) :
    (s.handle answer operation).handlers =
      s.handlers ++ (s.callback answer.code answer.payload operation).toList := by
  cases operation with
  | connect => exact s.handlers_advance _ answer (handlers_begin _ _)
  | tlsHandshake => exact s.handlers_advance _ answer (handlers_begin _ _)
  | handshake => exact s.handlers_advance _ answer (handlers_begin _ _)
  | write index => exact s.handlers_wrote index answer
  | read => exact s.handlers_received answer
  | close =>
    simp only [handle, closed, callback]
    split
    · exact handlers_notify _ _ _
    · exact (List.append_nil _).symm

/-- A completion calls the handler that `callback` names. -/
theorem handlers_complete {s : ClientRun} {operation : Operation}
    (h : operation ∈ s.client.pending) (answer : Answer) :
    (s.complete operation answer).handlers =
      s.handlers ++ (s.callback answer.code answer.payload operation).toList := by
  unfold complete
  rw [if_pos h]
  exact handlers_handle _ answer operation

/-- The first `connect` calls the handler that `refusal` names. -/
theorem handlers_connect {s : ClientRun} (hs : s.started = false) (hc : s.client.stopping = false)
    (sni resolve : ErrorCode) (reactions : List Reaction) :
    (s.connect sni resolve reactions).handlers =
      s.handlers ++ (refusal sni resolve).toList := by
  unfold connect refusal
  rw [hs, hc]
  simp only [Bool.or_self, Bool.false_eq_true, ↓reduceIte]
  split
  · next hfailed =>
    refine (handlers_fail _ _ hfailed reactions).trans ?_
    simp [failure, hc, hfailed, handlers]
  · split
    · next hfailed =>
      refine (handlers_fail _ _ hfailed reactions).trans ?_
      simp [failure, hc, hfailed, handlers]
    · exact (handlers_begin _ _).trans (List.append_nil _).symm

/-- The name was set and resolved if no error is reported. -/
theorem accepted_of_refusal {sni resolve : ErrorCode}
    (h : ∀ text, refusal sni resolve ≠ some (.error text)) :
    sni.failed = false ∧ resolve.failed = false := by
  unfold refusal at h
  cases hsni : sni.failed with
  | true =>
    rw [hsni] at h
    exact absurd rfl (h _)
  | false =>
    cases hresolve : resolve.failed with
    | true =>
      rw [hsni, hresolve] at h
      exact absurd rfl (h _)
    | false => exact ⟨rfl, rfl⟩

/-- Only a read hands over a message. -/
theorem callback_message {s : ClientRun} {code : ErrorCode} {payload message : Bytes}
    {operation : Operation} (h : s.callback code payload operation = some (.message message)) :
    operation = .read := by
  have hfailure {name : Bytes} : s.failure name code ≠ some (.message message) := by
    unfold failure
    split <;> simp
  cases operation with
  | connect | tlsHandshake | handshake => exact absurd h hfailure
  | write index =>
    simp only [callback] at h
    split at h
    · exact absurd h hfailure
    · split at h
      · cases h
      · split at h <;> cases h
  | read => rfl
  | close =>
    simp only [callback] at h
    split at h <;> cases h

/-! ### Events -/

/-- What can happen to a client. -/
inductive Event
  | connect (sni resolve : ErrorCode) (reactions : List Reaction)
  | call (reaction : Reaction)
  | complete (operation : Operation) (answer : Answer)
  deriving DecidableEq, Repr

/-- One event. -/
def step (s : ClientRun) : Event → ClientRun
  | .connect sni resolve reactions => s.connect sni resolve reactions
  | .call reaction => s.react reaction
  | .complete operation answer => s.complete operation answer

/-- A run: any list of events, one after another. -/
def run (s : ClientRun) (events : List Event) : ClientRun := events.foldl step s

end ClientRun

/-! ### The protocol -/

/-- How far a connection has come. -/
inductive Phase
  | idle
  | connecting
  | securing
  | upgrading
  | subscribing (index : Nat)
  | subscribed
  | listening
  | heard
  | stopped
  | failed
  | closing
  | closed
  deriving DecidableEq, Repr

namespace Phase

/-- The connection has been given up. -/
def isDown : Phase → Bool
  | stopped | failed | closing | closed => true
  | _ => false

/-- A close has been started. -/
def isClosing : Phase → Bool
  | closing | closed => true
  | _ => false

/-- The operation that the phase waits for. -/
def operation : Phase → Option Operation
  | connecting => some .connect
  | securing => some .tlsHandshake
  | upgrading => some .handshake
  | subscribing index => some (.write index)
  | listening => some .read
  | _ => none

/-- The protocol: the connection is made step by step, then every request is written, in order,
then the owner is told, if it wants to be, and then each message is read and handed over. It can be
given up at any time. After that there is at most the error for which this was done, a close, and
an error of the close. -/
def next (setup : Setup) : Phase → Act → Option Phase
  | idle, .begin .connect => some connecting
  | connecting, .begin .tlsHandshake => some securing
  | securing, .begin .handshake => some upgrading
  | upgrading, .begin (.write 0) => some (subscribing 0)
  | subscribing index, .begin (.write later) =>
    if later = index + 1 ∧ later < setup.requests then some (subscribing later) else none
  | subscribing index, .call .connected =>
    if setup.connected = true ∧ index + 1 = setup.requests then some subscribed else none
  | subscribing index, .begin .read =>
    if setup.connected = false ∧ index + 1 = setup.requests then some listening else none
  | subscribed, .begin .read => some listening
  | listening, .call (.message _) => some heard
  | heard, .begin .read => some listening
  | stopped, .call (.error _) => some failed
  | stopped, .begin .close => some closing
  | failed, .begin .close => some closing
  | closing, .call (.error _) => some closed
  | phase, .stop => if phase.isDown then none else some stopped
  | _, _ => none

/-- The phase after a log that follows the protocol. -/
def after (setup : Setup) (log : List Act) : Option Phase := log.foldlM (next setup) idle

private theorem after_concat {setup : Setup} {log : List Act} {phase later : Phase} {act : Act}
    (h : after setup log = some phase) (hact : next setup phase act = some later) :
    after setup (log ++ [act]) = some later := by
  unfold after at h ⊢
  rw [List.foldlM_append, h]
  exact (bind_pure _).trans hact

private theorem next_subscribing {setup : Setup} {index : Nat} {phase : Phase} {act : Act}
    (h : next setup phase act = some (subscribing index)) :
    index = 0 ∨ index < setup.requests := by
  unfold next at h
  split at h
  case h_4 =>
    cases h
    exact .inl rfl
  case h_5 =>
    split at h
    · next hmore =>
      cases h
      exact .inr hmore.2
    · cases h
  all_goals first | (split at h <;> cases h) | cases h

/-- Only requests that there are get written. -/
theorem index_lt {setup : Setup} {index : Nat} {log : List Act} (hn : 0 < setup.requests)
    (h : after setup log = some (subscribing index)) : index < setup.requests := by
  rcases List.eq_nil_or_concat log with rfl | ⟨before, act, rfl⟩
  · cases h
  · unfold after at h
    rw [List.concat_eq_append, List.foldlM_append] at h
    obtain ⟨phase, -, hlast⟩ := Option.bind_eq_some_iff.mp h
    have hact : next setup phase act = some (subscribing index) := by
      simpa using hlast
    rcases next_subscribing hact with rfl | hlt
    · exact hn
    · exact hlt

private theorem next_stop {phase : Phase} (h : phase.isDown = false) (setup : Setup) :
    next setup phase .stop = some stopped := by
  cases phase <;> first | rfl | cases h

private theorem next_close {phase : Phase} (h : phase.isDown = true)
    (hopen : phase.isClosing = false) (setup : Setup) :
    next setup phase (.begin .close) = some closing := by
  cases phase with
  | stopped | failed => rfl
  | closing | closed => cases hopen
  | _ => cases h

/-- Each operation is waited for in one phase only. -/
theorem operation_injective {phase other : Phase} {operation : Operation}
    (h : phase.operation = some operation) (h' : other.operation = some operation) :
    phase = other := by
  cases phase <;> cases h <;> cases other <;> cases h' <;> rfl

/-- A phase that waits for an operation. -/
theorem up_of_operation {phase : Phase} {operation : Operation}
    (h : phase.operation = some operation) :
    phase.isDown = false ∧ phase.isClosing = false ∧ operation ≠ .close := by
  cases phase with
  | connecting | securing | upgrading | listening =>
    cases h
    exact ⟨rfl, rfl, by decide⟩
  | subscribing index =>
    cases h
    exact ⟨rfl, rfl, fun no ↦ by cases no⟩
  | _ => cases h

private theorem isDown_of_isClosing {phase : Phase} (h : phase.isClosing = true) :
    phase.isDown = true := by
  cases phase <;> first | rfl | cases h

end Phase

namespace ClientRun

/-- The client follows the protocol: it is in `phase`, `front` is the operation of the connection
that is outstanding, and `late` tells whether a close is. -/
structure Keeps (s : ClientRun) (n : Setup) (phase : Phase) (front : Option Operation)
    (late : Bool) : Prop where
  positive : 0 < n.requests
  requests : s.client.requests = n.requests
  connected : s.connected = n.connected
  after : Phase.after n s.log = some phase
  stopping : s.client.stopping = phase.isDown
  closing : s.client.closing = phase.isClosing
  pending : s.client.pending = (if late then [Operation.close] else []) ++ front.toList
  writing : s.client.writing = true ↔ ∃ index, front = some (.write index)
  front : front ≠ some .close
  late : late = true → phase = .closing
  exclusive : phase.isClosing = true → s.client.writing = false
  started : s.started = true ∨ phase = .idle ∨ phase.isDown = true

variable {n : Setup} {s : ClientRun} {phase : Phase} {front : Option Operation} {late : Bool}

/-! ### Stopping -/

private theorem Keeps.stop (h : s.Keeps n phase front late) :
    s.stop.Keeps n (if phase.isDown then phase else .stopped) front late := by
  unfold ClientRun.stop
  rw [h.stopping]
  cases hdown : phase.isDown with
  | true => exact h
  | false =>
    have hlate : late = false := by
      cases late with
      | false => rfl
      | true =>
        rw [h.late rfl] at hdown
        cases hdown
    have hopen : phase.isClosing = false := by
      cases hclosing : phase.isClosing with
      | false => rfl
      | true =>
        rw [Phase.isDown_of_isClosing hclosing] at hdown
        cases hdown
    exact {
      positive := h.positive
      requests := h.requests
      connected := h.connected
      after := Phase.after_concat h.after (Phase.next_stop hdown _)
      stopping := rfl
      closing := h.closing.trans hopen
      pending := h.pending
      writing := h.writing
      front := h.front
      late := fun hl ↦ by
        rw [hlate] at hl
        cases hl
      exclusive := fun no ↦ by cases no
      started := .inr (.inr rfl) }

private theorem Keeps.down (h : s.Keeps n phase front late) (hstop : s.client.stopping = true) :
    phase.isDown = true :=
  h.stopping.symm.trans hstop

private theorem Keeps.up (h : s.Keeps n phase front late) (hrun : s.client.stopping = false) :
    phase.isDown = false :=
  h.stopping.symm.trans hrun

/-- A close waits only for a connection that has been given up. -/
theorem Keeps.late_eq (h : s.Keeps n phase front late) (hup : phase.isDown = false) :
    late = false := by
  cases late with
  | false => rfl
  | true =>
    rw [h.late rfl] at hup
    cases hup

/-- The connection has been given up, with `front` outstanding as before. -/
def Down (s : ClientRun) (n : Setup) (front : Option Operation) : Prop :=
  ∃ phase late, s.Keeps n phase front late ∧ phase.isDown = true

private theorem Keeps.stop_down (h : s.Keeps n phase front late) : s.stop.Down n front := by
  refine ⟨_, late, h.stop, ?_⟩
  cases hdown : phase.isDown with
  | true => exact hdown
  | false => rfl

private theorem Keeps.abort_down (h : s.Keeps n phase front late) : s.abort.Down n front := by
  obtain ⟨phase', late', hkeeps, hdown⟩ := h.stop_down
  refine ⟨phase', late', ?_, hdown⟩
  obtain ⟨hpositive, hrequests, hconnected, hafter, hstopping, hclosing, hpending, hwriting, hfront,
    hlate, hexclusive, hstarted⟩ := hkeeps
  rw [stop_client] at hrequests hstopping hclosing hpending hwriting hexclusive
  exact ⟨hpositive, hrequests, hconnected, hafter, hstopping, hclosing, hpending, hwriting, hfront,
    hlate, hexclusive, hstarted⟩

private theorem Keeps.close_down (h : s.Keeps n phase front late) (isOpen : Bool) :
    (s.close isOpen).Down n front := by
  obtain ⟨phase', late', hkeeps, hdown⟩ := h.stop_down
  unfold ClientRun.close
  dsimp only
  split
  · exact ⟨phase', late', hkeeps, hdown⟩
  · next hfree =>
    simp only [Bool.or_eq_true, not_or, Bool.not_eq_true] at hfree
    split
    · exact ⟨phase', late', hkeeps, hdown⟩
    · have hopen : phase'.isClosing = false := hkeeps.closing.symm.trans hfree.2
      have hlate : late' = false := by
        cases late' with
        | false => rfl
        | true =>
          rw [hkeeps.late rfl] at hopen
          cases hopen
      refine ⟨.closing, true, ?_, rfl⟩
      exact {
        positive := hkeeps.positive
        requests := hkeeps.requests
        connected := hkeeps.connected
        after := Phase.after_concat hkeeps.after (Phase.next_close hdown hopen _)
        stopping := hkeeps.stopping.trans hdown
        closing := rfl
        pending := by
          rw [hlate] at hkeeps
          exact congrArg (Operation.close :: ·) hkeeps.pending
        writing := hkeeps.writing
        front := hkeeps.front
        late := fun _ ↦ rfl
        exclusive := fun _ ↦ hfree.1
        started := .inr (.inr rfl) }

private theorem Keeps.react_down (h : s.Keeps n phase front late) (reaction : Reaction) :
    (s.react reaction).Down n front := by
  cases reaction with
  | close isOpen => exact h.close_down isOpen
  | abort => exact h.abort_down

private theorem Down.reactions (h : s.Down n front) (reactions : List Reaction) :
    (reactions.foldl react s).Down n front := by
  induction reactions generalizing s with
  | nil => exact h
  | cons reaction reactions ih =>
    obtain ⟨phase, late, hkeeps, -⟩ := h
    exact ih (hkeeps.react_down reaction)

/-! ### Handlers -/

/-- A handler of the owner is called, and the client goes on or has been given up. -/
theorem Keeps.notify (h : s.Keeps n phase front late) {handler : Handler} {later : Phase}
    (hnext : Phase.next n phase (.call handler) = some later)
    (hdown : later.isDown = phase.isDown) (hclosing : later.isClosing = phase.isClosing)
    (hlate : late = true → later = .closing) (hidle : phase ≠ .idle) (reactions : List Reaction) :
    (s.notify handler reactions).Keeps n later front late ∨
      (s.notify handler reactions).Down n front := by
  have hkeeps : ({ s with log := s.log ++ [.call handler] } : ClientRun).Keeps n later front late :=
    { h with
      after := Phase.after_concat h.after hnext
      stopping := h.stopping.trans hdown.symm
      closing := h.closing.trans hclosing.symm
      late := hlate
      exclusive := fun hc ↦ h.exclusive (hclosing.symm.trans hc)
      started := h.started.imp_right fun hs ↦ .inr (hdown.trans (hs.resolve_left hidle)) }
  cases reactions with
  | nil => exact .inl hkeeps
  | cons reaction reactions => exact .inr ((hkeeps.react_down reaction).reactions reactions)

private theorem Keeps.notify_down (h : s.Keeps n phase front late) {handler : Handler}
    {later : Phase} (hnext : Phase.next n phase (.call handler) = some later)
    (hdown : phase.isDown = true) (hlater : later.isDown = true)
    (hclosing : later.isClosing = phase.isClosing) (hlate : late = true → later = .closing)
    (reactions : List Reaction) :
    (s.notify handler reactions).Down n front := by
  have hidle : phase ≠ .idle := fun heq ↦ by
    rw [heq] at hdown
    cases hdown
  rcases h.notify hnext (hlater.trans hdown.symm) hclosing hlate hidle reactions with
    hkeeps | hgiven
  · exact ⟨later, late, hkeeps, hlater⟩
  · exact hgiven

private theorem Keeps.fail_down (h : s.Keeps n phase front late) (operation : Bytes)
    (code : ErrorCode) (reactions : List Reaction) :
    (s.fail operation code reactions).Down n front := by
  unfold ClientRun.fail
  split
  · next hstop => exact ⟨phase, late, h, h.down hstop⟩
  · next hrun =>
    have hup := h.up (Bool.eq_false_iff.mpr hrun)
    have hstopped : s.stop.Keeps n .stopped front late := by
      have hstop := h.stop
      rw [hup] at hstop
      exact hstop
    have hlate : late = true → Phase.failed = .closing := fun hl ↦ by
      rw [h.late_eq hup] at hl
      cases hl
    have hnext : Phase.next n .stopped
        (.call (.error (operation ++ ascii ": " ++ code.message))) = some .failed := rfl
    exact hstopped.notify_down hnext rfl rfl rfl hlate reactions

/-! ### Operations -/

/-- An operation of the connection is started. -/
theorem Keeps.begin (h : s.Keeps n phase none late) {operation : Operation} {later : Phase}
    (hup : phase.isDown = false) (hlater : later.operation = some operation)
    (hnext : Phase.next n phase (.begin operation) = some later)
    (hstarted : s.started = true) {writing : Bool}
    (hwriting : writing = true ↔ ∃ index, operation = .write index) :
    ({ s with client := { s.client with writing } }.begin operation).Keeps n later (some operation)
      false := by
  obtain ⟨hdown, hopen, hforward⟩ := Phase.up_of_operation hlater
  have hclosing : phase.isClosing = false := by
    cases hc : phase.isClosing with
    | false => rfl
    | true =>
      rw [Phase.isDown_of_isClosing hc] at hup
      cases hup
  exact {
    positive := h.positive
    requests := h.requests
    connected := h.connected
    after := Phase.after_concat h.after hnext
    stopping := h.stopping.trans (hup.trans hdown.symm)
    closing := h.closing.trans (hclosing.trans hopen.symm)
    pending := by
      have hpending := h.pending
      rw [h.late_eq hup] at hpending
      exact congrArg (operation :: ·) hpending
    writing := hwriting.trans (by simp only [Option.some.injEq])
    front := fun heq ↦ hforward (Option.some.inj heq)
    late := fun no ↦ by cases no
    exclusive := fun hc ↦ by
      rw [hopen] at hc
      cases hc
    started := .inl hstarted }

private theorem Keeps.writing_none (h : s.Keeps n phase none late) : s.client.writing = false := by
  cases hw : s.client.writing with
  | false => rfl
  | true =>
    obtain ⟨index, no⟩ := h.writing.mp hw
    cases no

private theorem Keeps.begin_quiet (h : s.Keeps n phase none late) {operation : Operation}
    {later : Phase} (hup : phase.isDown = false) (hlater : later.operation = some operation)
    (hnext : Phase.next n phase (.begin operation) = some later) (hstarted : s.started = true)
    (hquiet : ∀ index, operation ≠ .write index) :
    (s.begin operation).Keeps n later (some operation) false := by
  have hwriting : s.client.writing = true ↔ ∃ index, operation = .write index := by
    rw [h.writing_none]
    simp [hquiet]
  exact h.begin hup hlater hnext hstarted hwriting

/-- Between two events after the first `connect`: the connection has been given up, or it waits
for exactly one operation. -/
def Runs (s : ClientRun) (n : Setup) : Prop :=
  (∃ front, s.Down n front) ∨
    ∃ phase operation, s.Keeps n phase (some operation) false ∧ phase.operation = some operation

private theorem Keeps.started_of_up (h : s.Keeps n phase front late) (hup : phase.isDown = false)
    (hidle : phase ≠ .idle) : s.started = true := by
  rcases h.started with hs | hs | hs
  · exact hs
  · exact absurd hs hidle
  · rw [hup] at hs
    cases hs

private theorem Keeps.advance_runs (h : s.Keeps n phase none late) (name : Bytes) (answer : Answer)
    {next : ClientRun → ClientRun} (hnext : phase.isDown = false → (next s).Runs n) :
    (s.advance name answer next).Runs n := by
  unfold ClientRun.advance
  split
  · next hstop => exact .inl ⟨none, phase, late, h, h.down hstop⟩
  · next hrun =>
    split
    · exact .inl ⟨none, h.fail_down name answer.code answer.reactions⟩
    · exact hnext (h.up (Bool.eq_false_iff.mpr hrun))

/-- A read is started, in any phase that lets it follow. -/
theorem Keeps.read_runs (h : s.Keeps n phase none late)
    (hphase : phase.isDown = false →
      phase ≠ .idle ∧ Phase.next n phase (.begin .read) = some .listening) : s.read.Runs n := by
  unfold ClientRun.read
  split
  · next hstop => exact .inl ⟨none, phase, late, h, h.down hstop⟩
  · next hrun =>
    have hup := h.up (Bool.eq_false_iff.mpr hrun)
    obtain ⟨hidle, hnext⟩ := hphase hup
    have hstarted : s.started = true := h.started_of_up hup hidle
    exact .inr ⟨.listening, .read, h.begin_quiet hup rfl hnext hstarted (by simp), rfl⟩

private theorem Keeps.wrote_runs {index : Nat}
    (h : ({ s with client := s.client.wrote } : ClientRun).Keeps n phase none late)
    (hphase : phase.isDown = false → phase = .subscribing index) (answer : Answer) :
    (s.wrote index answer).Runs n := by
  unfold ClientRun.wrote
  dsimp only
  split
  · exact .inl ⟨none, h.close_down answer.isOpen⟩
  · next hrun =>
    have hup := h.up (Bool.eq_false_iff.mpr hrun)
    have hstarted : s.started = true := h.started_of_up hup (by rw [hphase hup]; simp)
    cases hphase hup
    split
    · exact .inl ⟨none, h.fail_down _ _ _⟩
    · split
      · next hmore =>
        have hnext : Phase.next n (.subscribing index)
            (.begin (.write (index + 1))) = some (.subscribing (index + 1)) :=
          if_pos ⟨rfl, h.requests ▸ hmore⟩
        exact .inr ⟨.subscribing (index + 1), .write (index + 1),
          h.begin rfl rfl hnext hstarted (by simp), rfl⟩
      · next hlast =>
        have hindex : index < n.requests := Phase.index_lt h.positive h.after
        have hend : index + 1 = n.requests :=
          Nat.le_antisymm hindex (Nat.le_of_not_lt (h.requests ▸ hlast))
        -- the owner may have no handler for the connection; then the client reads at once
        split
        · next hhandler =>
          have hnext : Phase.next n (.subscribing index) (.call .connected) = some .subscribed :=
            if_pos ⟨h.connected ▸ hhandler, hend⟩
          rcases h.notify hnext rfl rfl (fun hl ↦ by cases h.late hl) (by simp)
            answer.reactions with hkeeps | ⟨later, late', hkeeps, hdown⟩
          · exact hkeeps.read_runs fun _ ↦ ⟨by decide, rfl⟩
          · refine hkeeps.read_runs fun hup' ↦ ?_
            rw [hdown] at hup'
            cases hup'
        · next hhandler =>
          refine h.read_runs fun _ ↦ ⟨by simp, if_pos ⟨?_, hend⟩⟩
          exact h.connected ▸ Bool.eq_false_iff.mpr hhandler

private theorem Keeps.received_runs (h : s.Keeps n phase none late)
    (hphase : phase.isDown = false → phase = .listening) (answer : Answer) :
    (s.received answer).Runs n := by
  unfold ClientRun.received
  split
  · exact .inl ⟨none, h.fail_down _ _ _⟩
  · split
    · next hstop => exact .inl ⟨none, phase, late, h, h.down hstop⟩
    · next hrun =>
      cases hphase (h.up (Bool.eq_false_iff.mpr hrun))
      dsimp only
      have hnext : Phase.next n .listening (.call (.message answer.payload)) =
          some .heard := rfl
      obtain ⟨later, late', hkeeps, hlater⟩ : ∃ later late',
          (s.notify (.message answer.payload) answer.reactions).Keeps n later none late' ∧
            (later.isDown = false →
              later ≠ .idle ∧ Phase.next n later (.begin .read) = some .listening) := by
        rcases h.notify hnext rfl rfl (fun hl ↦ by cases h.late hl) (by simp) answer.reactions with
          hkeeps | ⟨later, late', hkeeps, hdown⟩
        · exact ⟨.heard, late, hkeeps, fun _ ↦ ⟨by decide, rfl⟩⟩
        · refine ⟨later, late', hkeeps, fun hup ↦ ?_⟩
          rw [hdown] at hup
          cases hup
      split
      · exact hkeeps.read_runs hlater
      · exact .inl ⟨none, hkeeps.close_down answer.isOpen⟩

private theorem Keeps.closed_down (h : s.Keeps n phase front false) (hclosing : phase = .closing)
    (answer : Answer) : (s.closed answer).Down n front := by
  subst hclosing
  unfold ClientRun.closed
  split
  · have hnext : Phase.next n .closing
        (.call (.error (ascii "close: " ++ answer.code.message))) = some .closed := rfl
    exact h.notify_down hnext rfl rfl rfl (fun no ↦ by cases no) answer.reactions
  · exact ⟨.closing, false, h, rfl⟩

/-! ### Completions -/

private theorem Keeps.finished_close (h : s.Keeps n phase front true) :
    ({ s with client := s.client.finished .close } : ClientRun).Keeps n phase front false :=
  { h with
    pending := by
      change s.client.pending.erase .close = _
      rw [h.pending]
      exact List.erase_cons_head _ _
    late := fun no ↦ by cases no }

/-- The completion of the operation that the connection waits for; a write clears its flag. -/
theorem Keeps.finished_front {operation : Operation} (h : s.Keeps n phase (some operation) late) :
    ({ s with client := (s.client.finished operation).wrote } : ClientRun).Keeps n phase none
      late :=
  { h with
    pending := by
      change s.client.pending.erase operation = _
      rw [h.pending]
      cases late with
      | false => exact List.erase_cons_head _ _
      | true =>
        have hother : (Operation.close == operation) = false :=
          beq_false_of_ne fun heq ↦ h.front (congrArg some heq.symm)
        rw [if_pos rfl, List.singleton_append, Option.toList_some,
          List.erase_cons_tail (Bool.not_eq_true _ ▸ hother), List.erase_cons_head]
        rfl
    writing := by simp [WebSocketClient.wrote]
    front := by simp
    exclusive := fun _ ↦ rfl }

private theorem Keeps.finished_quiet {operation : Operation}
    (h : s.Keeps n phase (some operation) late) (hquiet : ∀ index, operation ≠ .write index) :
    ({ s with client := s.client.finished operation } : ClientRun).Keeps n phase none late := by
  have hwriting : s.client.writing = false := by
    cases hw : s.client.writing with
    | false => rfl
    | true =>
      obtain ⟨index, heq⟩ := h.writing.mp hw
      exact absurd (Option.some.inj heq) (hquiet index)
  have hsame : (s.client.finished operation).wrote = s.client.finished operation := by
    unfold WebSocketClient.wrote WebSocketClient.finished
    rw [← hwriting]
  rw [← hsame]
  exact h.finished_front

/-- The completion handler of the operation that the connection waits for. -/
theorem Keeps.handle_runs {operation : Operation} (h : s.Keeps n phase (some operation) late)
    (hphase : phase.isDown = false → phase.operation = some operation) (answer : Answer) :
    (({ s with client := s.client.finished operation } : ClientRun).handle answer
      operation).Runs n := by
  have hwaits {other : Phase} (hother : other.operation = some operation)
      (hup : phase.isDown = false) : phase = other :=
    Phase.operation_injective (hphase hup) hother
  unfold ClientRun.handle
  cases operation with
  | connect =>
    have hkeeps := h.finished_quiet (by simp)
    refine hkeeps.advance_runs (ascii "connect") answer fun hup ↦ ?_
    cases hwaits (rfl : Phase.connecting.operation = _) hup
    have hstarted := hkeeps.started_of_up rfl (by simp)
    exact .inr ⟨.securing, _, hkeeps.begin_quiet rfl rfl rfl hstarted (by simp), rfl⟩
  | tlsHandshake =>
    have hkeeps := h.finished_quiet (by simp)
    refine hkeeps.advance_runs (ascii "TLS handshake") answer fun hup ↦ ?_
    cases hwaits (rfl : Phase.securing.operation = _) hup
    have hstarted := hkeeps.started_of_up rfl (by simp)
    exact .inr ⟨.upgrading, _, hkeeps.begin_quiet rfl rfl rfl hstarted (by simp), rfl⟩
  | handshake =>
    have hkeeps := h.finished_quiet (by simp)
    refine hkeeps.advance_runs (ascii "WebSocket handshake") answer fun hup ↦ ?_
    cases hwaits (rfl : Phase.upgrading.operation = _) hup
    have hstarted := hkeeps.started_of_up rfl (by simp)
    exact .inr ⟨.subscribing 0, _, hkeeps.begin rfl rfl rfl hstarted (by simp), rfl⟩
  | write index => exact Keeps.wrote_runs h.finished_front (hwaits rfl) answer
  | read => exact (h.finished_quiet (by simp)).received_runs (hwaits rfl) answer
  | close => exact absurd rfl h.front

/-! ### Runs -/

/-- A client still runs after a completion. -/
theorem Runs.complete (h : s.Runs n) (operation : Operation) (answer : Answer) :
    (s.complete operation answer).Runs n := by
  obtain ⟨phase, front, late, hkeeps, hphase⟩ : ∃ phase front late, s.Keeps n phase front late ∧
      (phase.isDown = false → phase.operation = front) := by
    rcases h with ⟨front, phase, late, hkeeps, hdown⟩ | ⟨phase, operation, hkeeps, hwaits⟩
    · refine ⟨phase, front, late, hkeeps, fun hup ↦ ?_⟩
      rw [hdown] at hup
      cases hup
    · exact ⟨phase, some operation, false, hkeeps, fun _ ↦ hwaits⟩
  unfold ClientRun.complete
  split
  · next hmem =>
    rw [hkeeps.pending, List.mem_append] at hmem
    rcases hmem with hclose | hfront
    · cases late with
      | false => cases hclose
      | true =>
        cases List.mem_singleton.mp hclose
        exact .inl ⟨front, hkeeps.finished_close.closed_down (hkeeps.late rfl) answer⟩
    · cases Option.mem_toList.mp hfront
      exact hkeeps.handle_runs hphase answer
  · exact h

private theorem Runs.react (h : s.Runs n) (reaction : Reaction) : (s.react reaction).Runs n := by
  rcases h with ⟨front, phase, late, hkeeps, -⟩ | ⟨phase, operation, hkeeps, -⟩
  · exact .inl ⟨front, hkeeps.react_down reaction⟩
  · exact .inl ⟨some operation, hkeeps.react_down reaction⟩

/-- A second `connect` does nothing. -/
theorem Runs.connect (h : s.Runs n) (sni resolve : ErrorCode) (reactions : List Reaction) :
    s.connect sni resolve reactions = s := by
  unfold ClientRun.connect
  rcases h with ⟨front, phase, late, hkeeps, hdown⟩ | ⟨phase, operation, hkeeps, hwaits⟩
  · rw [hkeeps.stopping, hdown, Bool.or_true, if_pos rfl]
  · have hidle : phase ≠ .idle := fun heq ↦ by
      rw [heq] at hwaits
      cases hwaits
    rw [hkeeps.started_of_up (Phase.up_of_operation hwaits).1 hidle, Bool.true_or, if_pos rfl]

private theorem Runs.step (h : s.Runs n) (event : Event) : (s.step event).Runs n := by
  cases event with
  | connect sni resolve reactions =>
    rw [ClientRun.step, h.connect]
    exact h
  | call reaction => exact h.react reaction
  | complete operation answer => exact h.complete operation answer

/-- A client still runs after any events. -/
theorem Runs.run (h : s.Runs n) (events : List Event) : (s.run events).Runs n := by
  induction events generalizing s with
  | nil => exact h
  | cons event events ih => exact ih (h.step event)

/-- A client that runs follows the protocol. -/
theorem Runs.keeps (h : s.Runs n) : ∃ phase front late, s.Keeps n phase front late := by
  rcases h with ⟨front, phase, late, hkeeps, -⟩ | ⟨phase, operation, hkeeps, -⟩
  · exact ⟨phase, front, late, hkeeps⟩
  · exact ⟨phase, some operation, false, hkeeps⟩

/-- A client that has not stopped waits for exactly one operation. -/
theorem Runs.waits (h : s.Runs n) (hrun : s.client.stopping = false) :
    ∃ operation, s.client.pending = [operation] := by
  rcases h with ⟨front, phase, late, hkeeps, hdown⟩ | ⟨phase, operation, hkeeps, -⟩
  · rw [hkeeps.up hrun] at hdown
    cases hdown
  · exact ⟨operation, hkeeps.pending⟩

/-- The first `connect`. -/
theorem Keeps.connect_runs (h : s.Keeps n .idle none false) (hfresh : s.started = false)
    (sni resolve : ErrorCode) (reactions : List Reaction) :
    (s.connect sni resolve reactions).Runs n := by
  have hkeeps : ({ s with started := true } : ClientRun).Keeps n .idle none false :=
    { h with started := .inl rfl }
  have hstopping : s.client.stopping = false := h.stopping
  unfold ClientRun.connect
  rw [hfresh, hstopping, Bool.or_false, if_neg Bool.false_ne_true]
  dsimp only
  split
  · exact .inl ⟨none, hkeeps.fail_down _ _ _⟩
  · split
    · exact .inl ⟨none, hkeeps.fail_down _ _ _⟩
    · exact .inr ⟨.connecting, _, hkeeps.begin_quiet rfl rfl rfl rfl (by simp), rfl⟩

/-- Between two events. -/
def Rests (s : ClientRun) (n : Setup) : Prop :=
  s.Runs n ∨ (s.Keeps n .idle none false ∧ s.started = false)

/-- A client rests again after every event. -/
theorem Rests.step (h : s.Rests n) (event : Event) : (s.step event).Rests n := by
  rcases h with hruns | ⟨hidle, hfresh⟩
  · exact .inl (hruns.step event)
  · cases event with
    | connect sni resolve reactions => exact .inl (hidle.connect_runs hfresh sni resolve reactions)
    | call reaction => exact .inl (.inl ⟨none, hidle.react_down reaction⟩)
    | complete operation answer =>
      have hsame : s.complete operation answer = s := by
        have hnone : operation ∉ s.client.pending := by
          rw [hidle.pending]
          exact List.not_mem_nil
        exact if_neg hnone
      rw [ClientRun.step, hsame]
      exact .inr ⟨hidle, hfresh⟩

/-- A new client is idle. -/
theorem keeps_create (hn : 0 < n.requests) :
    Keeps ⟨.create n.requests, n.connected, false, []⟩ n .idle none false where
  positive := hn
  requests := rfl
  connected := rfl
  after := rfl
  stopping := rfl
  closing := rfl
  pending := rfl
  writing := by simp [WebSocketClient.create]
  front := by simp
  late := fun no ↦ by cases no
  exclusive := fun no ↦ by cases no
  started := .inr (.inl rfl)

private theorem rests_create (h : create n = .ok s) : s.Rests n := by
  unfold create at h
  split at h
  · cases h
  · next hn =>
    cases h
    exact .inr ⟨keeps_create (Nat.pos_of_ne_zero hn), rfl⟩

private theorem Rests.run (h : s.Rests n) (events : List Event) : (s.run events).Rests n := by
  induction events generalizing s with
  | nil => exact h
  | cons event events ih => exact ih (h.step event)

/-- The handlers of a client do not change. -/
theorem Runs.connected (h : s.Runs n) : s.connected = n.connected := by
  obtain ⟨phase, front, late, hkeeps⟩ := h.keeps
  exact hkeeps.connected

/-- A client that has not stopped goes on after a completion for which no error is reported, if
its owner lets it. It reads only after it has called its owner, who has all the handlers. -/
theorem Runs.goes_on (h : s.Runs n) (hn : n.connected = true) (hrun : s.client.stopping = false)
    {operation : Operation} (hmem : operation ∈ s.client.pending) {answer : Answer}
    (hr : answer.reactions = []) (hp : answer.proceed = true)
    (hok : ∀ text, s.callback answer.code answer.payload operation ≠ some (.error text)) :
    (s.complete operation answer).client.stopping = false ∧
      (.read ∈ (s.complete operation answer).client.pending →
        s.callback answer.code answer.payload operation ≠ none) := by
  have hconnected : s.connected = true := h.connected.trans hn
  -- a running client waits for one operation only, so that is the one completed
  obtain ⟨waited, hpending, hforward⟩ : ∃ waited, s.client.pending = [waited] ∧
      waited ≠ .close := by
    rcases h with ⟨front, phase, late, hkeeps, hdown⟩ | ⟨phase, waited, hkeeps, hwaits⟩
    · rw [hkeeps.up hrun] at hdown
      cases hdown
    · exact ⟨waited, hkeeps.pending, (Phase.up_of_operation hwaits).2.2⟩
  rw [hpending] at hmem
  cases List.mem_singleton.mp hmem
  have hdone : (s.client.finished operation).pending = [] := by
    change s.client.pending.erase operation = []
    rw [hpending, List.erase_cons_head]
  have hcomplete : s.complete operation answer =
      { s with client := s.client.finished operation }.handle answer operation :=
    if_pos (by rw [hpending]; exact List.mem_singleton_self operation)
  have hfailure {name : Bytes} {called : Option Handler}
      (hcalled : answer.code.failed = true → called = s.failure name answer.code)
      (hne : ∀ text, called ≠ some (.error text)) : answer.code.failed = false := by
    cases hfailed : answer.code.failed with
    | false => rfl
    | true => exact absurd ((hcalled hfailed).trans (if_pos (by simp [hrun, hfailed]))) (hne _)
  rw [hcomplete]
  generalize hfinished : ({ s with client := s.client.finished operation } : ClientRun) = s' at *
  have hstopping : s'.client.stopping = false := by rw [← hfinished]; exact hrun
  have hnone : s'.client.pending = [] := by rw [← hfinished]; exact hdone
  have hhandler : s'.connected = true := by rw [← hfinished]; exact hconnected
  -- the steps before the subscriptions differ in their name and in what they begin
  have hadvance {name : Bytes} {next : ClientRun → ClientRun} {other : Operation}
      (hne : ∀ text, s.failure name answer.code ≠ some (.error text))
      (hnext : (next s').client.stopping = s'.client.stopping)
      (hbegun : (next s').client.pending = other :: s'.client.pending) (hother : other ≠ .read) :
      (s'.advance name answer next).client.stopping = false ∧
        (.read ∈ (s'.advance name answer next).client.pending →
          s.callback answer.code answer.payload operation ≠ none) := by
    unfold advance
    rw [hstopping, hfailure (fun _ ↦ rfl) hne, if_neg Bool.false_ne_true, if_neg Bool.false_ne_true]
    refine ⟨hnext.trans hstopping, fun hread ↦ ?_⟩
    rw [hbegun, hnone] at hread
    exact absurd (List.mem_singleton.mp hread).symm hother
  cases operation with
  | connect => exact hadvance hok rfl rfl (by decide)
  | tlsHandshake => exact hadvance hok rfl rfl (by decide)
  | handshake => exact hadvance hok rfl rfl (by decide)
  | write index =>
    have hgood : answer.code.failed = false :=
      hfailure (fun hfailed ↦ if_pos (by simp [hfailed])) hok
    have hwrote : s'.client.wrote.stopping = false := hstopping
    have hrequests : s'.client.wrote.requests = s.client.requests := by rw [← hfinished]; rfl
    simp only [handle, wrote, hwrote, hgood, hrequests, hr, hhandler, Bool.false_eq_true, if_false,
      if_true]
    split
    · refine ⟨hstopping, fun hread ↦ ?_⟩
      have hmem : Operation.read ∈ Operation.write (index + 1) :: s'.client.pending := hread
      rw [hnone] at hmem
      cases List.mem_singleton.mp hmem
    · next hlast =>
      have hcalled : s.callback answer.code answer.payload (.write index) = some .connected := by
        simp only [callback, hrun, hgood, hconnected, Bool.or_self, Bool.false_eq_true, if_false,
          if_true, if_neg hlast]
      refine ⟨?_, fun _ ↦ by rw [hcalled]; exact Option.some_ne_none _⟩
      rw [read_client]
      exact WebSocketClient.stopping_read hwrote
  | read =>
    have hgood : answer.code.failed = false :=
      hfailure (fun hfailed ↦ if_pos (by simp [hfailed])) hok
    have hcalled : s.callback answer.code answer.payload .read =
        some (.message answer.payload) := if_neg (by simp [hrun, hgood])
    simp only [handle, received, hgood, hstopping, hr, hp, Bool.false_eq_true, if_false, if_true]
    refine ⟨?_, fun _ ↦ by rw [hcalled]; exact Option.some_ne_none _⟩
    rw [read_client]
    exact WebSocketClient.stopping_read hstopping
  | close => exact absurd rfl hforward

/-- At most one operation of the connection and one close are outstanding, and never a close
together with a write. -/
theorem Keeps.outstanding (h : s.Keeps n phase front late) :
    s.client.pending.Nodup ∧
      (∀ first ∈ s.client.pending, ∀ second ∈ s.client.pending, first ≠ .close →
        second ≠ .close → first = second) ∧
      ∀ index, .write index ∈ s.client.pending → .close ∉ s.client.pending := by
  have hfront : ∀ operation ∈ s.client.pending, operation ≠ .close → front = some operation := by
    intro operation hmem hforward
    rw [h.pending, List.mem_append] at hmem
    rcases hmem with hclose | hmem
    · cases late with
      | false => cases hclose
      | true => exact absurd (List.mem_singleton.mp hclose) hforward
    · exact Option.mem_toList.mp hmem
  refine ⟨?_, ?_, ?_⟩
  · rw [h.pending]
    cases hf : front with
    | none => cases late <;> decide
    | some operation =>
      cases late with
      | false => exact List.nodup_cons.mpr ⟨List.not_mem_nil, List.nodup_nil⟩
      | true =>
        have hne : Operation.close ≠ operation := fun heq ↦
          h.front (hf.trans (congrArg some heq.symm))
        simpa using hne
  · intro first hfirst second hsecond hforward hforward'
    exact Option.some.inj ((hfront first hfirst hforward).symm.trans
      (hfront second hsecond hforward'))
  · intro index hwrite hclose
    have hwriting := h.writing.mpr ⟨index, hfront _ hwrite (by simp)⟩
    rw [h.pending, List.mem_append] at hclose
    rcases hclose with hclose | hclose
    · cases late with
      | false => cases hclose
      | true =>
        rw [h.exclusive (by rw [h.late rfl]; rfl)] at hwriting
        cases hwriting
    · exact h.front (Option.mem_toList.mp hclose)

/-- Whatever the owner does and in whatever order the completions arrive: what a client does
follows the protocol, and the flag `stopping` tells whether the connection has been given up. A
client that was started and is not stopped waits for exactly one operation. Operations never
overlap, except that a close may be outstanding beside an operation that is not a write. -/
theorem client_follows_protocol {setup : Setup} {client : ClientRun}
    (hcreate : create setup = .ok client) (events : List Event) :
    let s := client.run events
    (∃ phase, Phase.after setup s.log = some phase ∧ s.client.stopping = phase.isDown) ∧
      (s.started = true → s.client.stopping = false →
        ∃ operation, s.client.pending = [operation]) ∧
      s.client.pending.Nodup ∧
      (∀ first ∈ s.client.pending, ∀ second ∈ s.client.pending, first ≠ .close →
        second ≠ .close → first = second) ∧
      ∀ index, .write index ∈ s.client.pending → .close ∉ s.client.pending := by
  intro s
  have hrests : s.Rests setup := (rests_create hcreate).run events
  rcases hrests with hruns | ⟨hidle, hfresh⟩
  · obtain ⟨phase, front, late, hkeeps⟩ := hruns.keeps
    exact ⟨⟨phase, hkeeps.after, hkeeps.stopping⟩, fun _ ↦ hruns.waits, hkeeps.outstanding⟩
  · refine ⟨⟨.idle, hidle.after, hidle.stopping⟩, fun hstarted ↦ ?_, hidle.outstanding⟩
    rw [hfresh] at hstarted
    cases hstarted

/-- A client of one request whose owner closes it twice, once from within the handler of the
first message. -/
theorem client_follows_protocol_closed :
    ∃ client, create ⟨1, true⟩ = .ok client ∧
      let s := client.run [.connect .success .success [], .complete .connect {},
        .complete .tlsHandshake {}, .complete .handshake {}, .complete (.write 0) {},
        .complete .read { reactions := [.close true], proceed := false },
        .complete .close { code := .other [] }]
      Phase.after ⟨1, true⟩ s.log = some .closed ∧ s.client.pending = [] ∧
        ∀ index, .write index ∈ s.client.pending → .close ∉ s.client.pending :=
  ⟨_, rfl, by decide +kernel, by decide +kernel,
    (client_follows_protocol (rfl : create ⟨1, true⟩ = _) _).2.2.2.2⟩

end ClientRun

end ArbitrageEngine.Transport
