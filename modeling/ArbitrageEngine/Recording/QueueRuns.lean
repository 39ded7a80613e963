import ArbitrageEngine.Recording.RawRecordingQueue

/-!
# Runs of the recording queue

`include/recording/raw_recording_queue.hpp`: any number of callers push, pop and close in
any order. A run keeps what was accepted and what was popped beside the queue.
-/

namespace ArbitrageEngine.Recording

open Base

/-- The payload bytes of some messages. -/
def payloadBytes (messages : List RawMessage) : Nat :=
  (messages.map fun message ↦ message.payload.length).sum

/-- A call of one of the queue's functions. -/
inductive QueueCall
  | tryPush (message : RawMessage)
  | waitPop
  | close
  deriving DecidableEq, Repr

/-- A queue with the messages that it accepted and those that were popped. -/
structure QueueRun where
  queue : RawRecordingQueue
  accepted : List RawMessage
  popped : List RawMessage
  deriving DecidableEq, Repr

namespace QueueRun

/-- A new queue. -/
def initial (config : RawQueueConfig) : QueueRun := ⟨.create config, [], []⟩

/-- One call; a `wait_pop` that blocks has not happened yet. -/
def step (run : QueueRun) : QueueCall → QueueRun
  | .tryPush message =>
    match run.queue.tryPush message with
    | (queue, .accepted) => { run with queue, accepted := run.accepted ++ [message] }
    | (queue, _) => { run with queue }
  | .waitPop =>
    match run.queue.waitPop with
    | none => run
    | some (queue, none) => { run with queue }
    | some (queue, some message) => { run with queue, popped := run.popped ++ [message] }
  | .close => { run with queue := run.queue.close }

/-- Calls one after the other. -/
def calls (run : QueueRun) (list : List QueueCall) : QueueRun := list.foldl step run

/-- What holds in every state of a run. -/
structure Sound (config : RawQueueConfig) (run : QueueRun) : Prop where
  same : run.queue.config = config
  count : run.queue.messages.length ≤ config.maximumMessages
  bytes : run.queue.bytes = payloadBytes run.queue.messages
  limit : run.queue.bytes ≤ config.maximumBytes
  order : run.popped ++ run.queue.messages = run.accepted

variable {config : RawQueueConfig} {run : QueueRun}

private theorem sound_initial (config : RawQueueConfig) : (initial config).Sound config :=
  ⟨rfl, Nat.zero_le _, rfl, Nat.zero_le _, rfl⟩

/-- The subtraction in `try_push` does not wrap. -/
theorem Sound.remainingBytes (h : run.Sound config) (hc : config.maximumBytes < 2 ^ 64) :
    run.queue.remainingBytes = config.maximumBytes - run.queue.bytes := by
  have hlimit := h.limit
  rw [RawRecordingQueue.remainingBytes, h.same]
  omega

/-- The messages that are accepted. -/
theorem Sound.tryPush (h : run.Sound config) (hc : config.maximumBytes < 2 ^ 64)
    (message : RawMessage) :
    run.queue.tryPush message =
      if run.queue.closed then (run.queue, .closed)
      else if run.queue.messages.length < config.maximumMessages ∧
          run.queue.bytes + message.payload.length ≤ config.maximumBytes then
        ({ run.queue with
          messages := run.queue.messages ++ [message]
          bytes := run.queue.bytes + message.payload.length }, .accepted)
      else (run.queue, .full) := by
  have hlimit := h.limit
  obtain rfl := h.same
  rw [RawRecordingQueue.tryPush, h.remainingBytes hc]
  by_cases hclosed : run.queue.closed = true
  · rw [if_pos hclosed, if_pos hclosed]
  · rw [if_neg hclosed, if_neg hclosed]
    by_cases hfit : run.queue.messages.length < run.queue.config.maximumMessages ∧
        run.queue.bytes + message.payload.length ≤ run.queue.config.maximumBytes
    · have hmod : (run.queue.bytes + message.payload.length) % 2 ^ 64 =
          run.queue.bytes + message.payload.length := Nat.mod_eq_of_lt (by omega)
      rw [if_neg (by omega), if_pos hfit, hmod]
    · rw [if_pos (by omega), if_neg hfit]

/-- The decrement in `wait_pop` does not wrap. -/
theorem Sound.waitPop (h : run.Sound config) (hc : config.maximumBytes < 2 ^ 64)
    {message : RawMessage} {rest : List RawMessage} (hm : run.queue.messages = message :: rest) :
    run.queue.waitPop = some ({ run.queue with
      messages := rest
      bytes := run.queue.bytes - message.payload.length }, some message) ∧
      message.payload.length ≤ run.queue.bytes := by
  have hlimit := h.limit
  have hbytes := h.bytes
  rw [hm, payloadBytes, List.map_cons, List.sum_cons] at hbytes
  -- the message is counted in the bytes, so the subtraction does not wrap around
  have hmod : (run.queue.bytes + 2 ^ 64 - message.payload.length) % 2 ^ 64 =
      run.queue.bytes - message.payload.length := by omega
  refine ⟨?_, by omega⟩
  rw [RawRecordingQueue.waitPop]
  simp only [hm, hmod]

/-- Every call keeps the queue sound. -/
theorem Sound.step (h : run.Sound config) (hc : config.maximumBytes < 2 ^ 64) (call : QueueCall) :
    (run.step call).Sound config := by
  cases call with
  | tryPush message =>
    rw [QueueRun.step, h.tryPush hc message]
    by_cases hclosed : run.queue.closed = true
    · rw [if_pos hclosed]
      exact h
    · rw [if_neg hclosed]
      by_cases hfit : run.queue.messages.length < config.maximumMessages ∧
          run.queue.bytes + message.payload.length ≤ config.maximumBytes
      · rw [if_pos hfit]
        refine ⟨h.same, ?_, ?_, hfit.2, ?_⟩
        · show (run.queue.messages ++ [message]).length ≤ _
          rw [List.length_append, List.length_singleton]
          exact hfit.1
        · show run.queue.bytes + message.payload.length = _
          rw [h.bytes, payloadBytes, payloadBytes, List.map_append, List.sum_append]
          rfl
        · show run.popped ++ (run.queue.messages ++ [message]) = run.accepted ++ [message]
          rw [← List.append_assoc, h.order]
      · rw [if_neg hfit]
        exact h
  | waitPop =>
    rw [QueueRun.step]
    cases hm : run.queue.messages with
    | nil =>
      rw [RawRecordingQueue.waitPop, hm]
      by_cases hclosed : run.queue.closed = true
      · simp only [if_pos hclosed]
        exact h
      · simp only [if_neg hclosed]
        exact h
    | cons message rest =>
      obtain ⟨hpop, hle⟩ := h.waitPop hc hm
      have hcount := h.count
      have hbytes := h.bytes
      have hlimit := h.limit
      have horder := h.order
      rw [hm] at hcount hbytes horder
      rw [hpop]
      refine ⟨h.same, ?_, ?_, ?_, ?_⟩
      · rw [List.length_cons] at hcount
        show rest.length ≤ _
        omega
      · show run.queue.bytes - message.payload.length = payloadBytes rest
        rw [payloadBytes, List.map_cons, List.sum_cons] at hbytes
        rw [payloadBytes]
        omega
      · show run.queue.bytes - message.payload.length ≤ _
        omega
      · show run.popped ++ [message] ++ rest = run.accepted
        rw [List.append_assoc]
        exact horder
  | close => exact ⟨h.same, h.count, h.bytes, h.limit, h.order⟩

/-- Every state of every run is sound. -/
theorem Sound.calls (h : run.Sound config) (hc : config.maximumBytes < 2 ^ 64)
    (list : List QueueCall) : (run.calls list).Sound config := by
  induction list generalizing run with
  | nil => exact h
  | cons call rest ih => exact ih (h.step hc call)

/-- A closed queue stays closed and accepts nothing. -/
theorem closed_step (hq : run.queue.closed = true) (call : QueueCall) :
    (run.step call).queue.closed = true ∧ (run.step call).accepted = run.accepted := by
  cases call with
  | tryPush message =>
    rw [step, RawRecordingQueue.tryPush, if_pos hq]
    exact ⟨hq, rfl⟩
  | waitPop =>
    rw [step, RawRecordingQueue.waitPop]
    cases run.queue.messages with
    | nil =>
      simp only [if_pos hq, and_true]
      exact hq
    | cons message rest => exact ⟨hq, rfl⟩
  | close => exact ⟨rfl, rfl⟩

private theorem closed_calls (hq : run.queue.closed = true) (list : List QueueCall) :
    (run.calls list).queue.closed = true ∧ (run.calls list).accepted = run.accepted := by
  induction list generalizing run with
  | nil => exact ⟨hq, rfl⟩
  | cons call rest ih =>
    obtain ⟨hclosed, haccepted⟩ := closed_step hq call
    obtain ⟨hrest, hsame⟩ := ih hclosed
    exact ⟨hrest, hsame.trans haccepted⟩

/-- `wait_pop` reports the end of a closed queue that is empty, and blocks on an open one. -/
theorem waitPop_nil (hm : run.queue.messages = []) :
    run.queue.waitPop = if run.queue.closed then some (run.queue, none) else none := by
  rw [RawRecordingQueue.waitPop, hm]

/-- Both limits, the byte count and the order of the messages hold in every state of every
run; a push is accepted exactly if the open queue has room; after `close` nothing more is
accepted, no `wait_pop` blocks, and it reports the end exactly when all is popped. -/
theorem queue_run_sound (config : RawQueueConfig) (hc : config.maximumBytes < 2 ^ 64)
    (list : List QueueCall) :
    let run := (initial config).calls list
    let queue := run.queue
    queue.messages.length ≤ config.maximumMessages ∧
    queue.bytes = payloadBytes queue.messages ∧ queue.bytes ≤ config.maximumBytes ∧
    queue.remainingBytes = config.maximumBytes - queue.bytes ∧
    (∀ message rest, queue.messages = message :: rest → message.payload.length ≤ queue.bytes ∧
      queue.waitPop = some ({ queue with
        messages := rest, bytes := queue.bytes - message.payload.length }, some message)) ∧
    (∀ message, (queue.tryPush message).2 = .accepted ↔
      queue.closed = false ∧ queue.messages.length < config.maximumMessages ∧
        queue.bytes + message.payload.length ≤ config.maximumBytes) ∧
    run.popped ++ queue.messages = run.accepted ∧
    (queue.closed = true → ∀ later, ((run.calls later).queue.closed = true ∧
      (run.calls later).accepted = run.accepted ∧
      (run.calls later).queue.waitPop ≠ none)) ∧
    (∀ rest, queue.waitPop = some (rest, none) ↔
      rest = queue ∧ queue.closed = true ∧ run.popped = run.accepted) := by
  intro run queue
  have hsound : run.Sound config := (sound_initial config).calls hc list
  refine ⟨hsound.count, hsound.bytes, hsound.limit, hsound.remainingBytes hc, ?_, ?_, hsound.order,
    ?_, ?_⟩
  · intro message rest hm
    obtain ⟨hpop, hle⟩ := hsound.waitPop hc hm
    exact ⟨hle, hpop⟩
  · intro message
    rw [hsound.tryPush hc message]
    by_cases hclosed : run.queue.closed = true
    · rw [if_pos hclosed]
      exact ⟨nofun, fun h ↦ absurd (h.1.symm.trans hclosed) nofun⟩
    · rw [if_neg hclosed]
      by_cases hfit : run.queue.messages.length < config.maximumMessages ∧
          run.queue.bytes + message.payload.length ≤ config.maximumBytes
      · rw [if_pos hfit]
        exact ⟨fun _ ↦ ⟨Bool.eq_false_iff.mpr hclosed, hfit⟩, fun _ ↦ rfl⟩
      · rw [if_neg hfit]
        exact ⟨nofun, fun h ↦ absurd h.2 hfit⟩
  · intro hclosed later
    obtain ⟨hstill, haccepted⟩ := closed_calls hclosed later
    refine ⟨hstill, haccepted, ?_⟩
    cases hm : (run.calls later).queue.messages with
    | nil =>
      rw [waitPop_nil hm, if_pos hstill]
      nofun
    | cons message rest =>
      rw [((hsound.calls hc later).waitPop hc hm).1]
      nofun
  · intro rest
    have horder := hsound.order
    cases hm : run.queue.messages with
    | nil =>
      rw [hm, List.append_nil] at horder
      rw [waitPop_nil hm]
      by_cases hclosed : run.queue.closed = true
      · rw [if_pos hclosed, Option.some.injEq, Prod.mk.injEq]
        exact ⟨fun h ↦ ⟨h.1.symm, hclosed, horder⟩, fun h ↦ ⟨h.1.symm, rfl⟩⟩
      · rw [if_neg hclosed]
        exact ⟨nofun, fun h ↦ absurd h.2.1 hclosed⟩
    | cons message others =>
      rw [(hsound.waitPop hc hm).1]
      refine ⟨nofun, fun h ↦ ?_⟩
      -- what is still queued was accepted and has not been popped
      rw [← h.2.2, hm] at horder
      exact absurd (List.append_right_eq_self.mp horder) (List.cons_ne_nil _ _)

/-- A message of a run. -/
def numbered (recordIndex : Nat) (payload : Bytes) : RawMessage :=
  ⟨recordIndex, .kraken, 1, ⟨0⟩, ⟨0⟩, payload⟩

/-- Calls on a queue for two messages and five bytes: the third push finds it full, the fourth has
room again, and the last comes behind the `close`. -/
def fullQueue : List QueueCall :=
  [.tryPush (numbered 0 [1, 2]), .tryPush (numbered 1 [3, 4, 5]), .tryPush (numbered 2 [6]),
    .waitPop, .tryPush (numbered 3 [7, 8]), .close, .tryPush (numbered 4 []), .waitPop]

/-- Two messages are popped and the third is left; one more `wait_pop` reaches the end. -/
theorem queue_run_sound_full :
    (RawQueueConfig.mk 2 5).maximumBytes < 2 ^ 64 ∧
      let run := (initial ⟨2, 5⟩).calls fullQueue
      run.accepted.map (·.recordIndex) = [0, 1, 3] ∧ run.popped.map (·.recordIndex) = [0, 1] ∧
        run.popped ++ run.queue.messages = run.accepted ∧ run.queue.remainingBytes = 3 ∧
        ((initial ⟨2, 5⟩).calls (fullQueue ++ [.waitPop])).popped =
          ((initial ⟨2, 5⟩).calls (fullQueue ++ [.waitPop])).accepted := by
  have hrun := queue_run_sound ⟨2, 5⟩ (by decide) fullQueue
  have hend := queue_run_sound ⟨2, 5⟩ (by decide) (fullQueue ++ [.waitPop])
  refine ⟨by decide, by decide, by decide, hrun.2.2.2.2.2.2.1, ?_, ?_⟩
  · exact hrun.2.2.2.1
  · exact ((hend.2.2.2.2.2.2.2.2 _).mp rfl).2.2

end QueueRun

end ArbitrageEngine.Recording
