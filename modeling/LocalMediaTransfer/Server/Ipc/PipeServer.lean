import LocalMediaTransfer.Lib.Run
import LocalMediaTransfer.Lib.Table
import LocalMediaTransfer.Server.ByteString

/-!
# The pipe server

Model of `PipeServer` (`ipc/PipeServer.cpp`): one thread serves the GUI over a named pipe, one
client at a time, and drains a queue that any thread may add to.  Each access to an atomic flag and
each section under the queue mutex is one step.

* `enqueue` — the section of `sendMessage` under the mutex.
* `PipePc` — where the pipe thread stands in `run`; `SendPc` — where a call of `sendMessage` stands.
* `pipeStep` — one step; `PipeMove`, `pipeStep_move` — everything a step can do to the messages.

Reading the client's commands is left out but for what it does to the connection: it may find the
pipe broken, and the callback may mark the session authenticated.  `running` and `m_running`, which
only end the loops, are left out: a stopped server may go on in the model.
-/

set_option autoImplicit false

namespace LocalMediaTransfer

open Lib

/-! ## Messages -/

/-- The types that callers pass to `sendMessage`. -/
inductive MessageType where
  | metrics
  | log
  | transferHistory
  | pairingRequest
  | nativePairingRequest
  | nativeTransferRequest
  | trustedDevices
  | browserLinkConsumed
  | commandResult
  | ownershipProof
  | sessionReady
  | sessionRejected
  deriving DecidableEq

/-- `struct OutboundMessage`. -/
structure OutboundMessage where
  type : MessageType
  payload : ByteString
  deriving DecidableEq

/-- `isCoalescibleMessage`. -/
def isCoalescibleMessage : MessageType → Bool
  | .metrics | .transferHistory | .trustedDevices => true
  | _ => false

/-- The types that may be sent before the session is authenticated. -/
def MessageType.isControl : MessageType → Bool
  | .ownershipProof | .sessionReady | .sessionRejected => true
  | _ => false

/-- A message that may make room for another one. -/
def OutboundMessage.disposable (message : OutboundMessage) : Bool :=
  message.type == .log || isCoalescibleMessage message.type

def MaxQueuedMessages : Nat := 256
def ReservedImportantMessages : Nat := 32

/-! ## The queue -/

/-- `pending->payload = payload` at the first message of the type. -/
def replacePayload (message : OutboundMessage) : List OutboundMessage → List OutboundMessage
  | [] => []
  | queued :: rest =>
      if queued.type = message.type then { queued with payload := message.payload } :: rest
      else queued :: replacePayload message rest

/-- What became of a message. -/
inductive SendOutcome where
  | merged
  | droppedLog
  | rejected
  | appended
  | evicting (victim : OutboundMessage)
  deriving DecidableEq

def SendOutcome.accepted : SendOutcome → Bool
  | .merged | .appended | .evicting _ => true
  | _ => false

/-- The section of `sendMessage` under the mutex. -/
def enqueue (queue : List OutboundMessage) (message : OutboundMessage) :
    List OutboundMessage × SendOutcome :=
  if isCoalescibleMessage message.type && queue.any (fun queued => queued.type == message.type) then
    (replacePayload message queue, .merged)
  else if message.type == .log &&
      decide (MaxQueuedMessages - ReservedImportantMessages ≤ queue.length) then
    (queue, .droppedLog)
  -- one slot stays free for a message that is requeued after a failed write
  else if MaxQueuedMessages - 1 ≤ queue.length then
    match queue.find? (·.disposable) with
    | some victim => (queue.eraseP (·.disposable) ++ [message], .evicting victim)
    | none => (queue, .rejected)
  else (queue ++ [message], .appended)

/-! ## Threads -/

/-- Where the pipe thread stands. -/
inductive PipePc where
  /-- No client; `ConnectNamedPipe` blocks. -/
  | waiting
  /-- The session flag is set for the new client. -/
  | opened
  /-- At `processIncoming`. -/
  | serving
  /-- At the condition of the drain loop. -/
  | draining
  /-- At the queue section of the drain loop. -/
  | popping
  /-- In `WriteFile`. -/
  | writing (message : OutboundMessage)
  /-- `WriteFile` failed. -/
  | failed (message : OutboundMessage)
  /-- The message is back in the queue. -/
  | requeued
  /-- At the condition of the connection loop. -/
  | resting
  /-- The pipe is closed; at `m_connected = false`. -/
  | closing
  /-- At `m_sessionAuthenticated = false`. -/
  | closed
  deriving DecidableEq

/-- The message that is out of the queue and not yet written. -/
def PipePc.inFlight : PipePc → List OutboundMessage
  | .writing message | .failed message => [message]
  | _ => []

/-- Where a call of `sendMessage` stands. -/
inductive SendPc where
  /-- `m_connected` was set. -/
  | connected (message : OutboundMessage)
  /-- The session may have the message. -/
  | admitted (message : OutboundMessage)
  deriving DecidableEq

/-- What happened to messages. -/
inductive PipeEvent where
  | accepted (message : OutboundMessage)
  | evicted (message : OutboundMessage)
  | refused (message : OutboundMessage)
  | written (connection : Nat) (authenticated : Bool) (message : OutboundMessage)
  deriving DecidableEq

structure PipeState where
  connected : Bool := false
  authenticated : Bool := false
  queue : List OutboundMessage := []
  pc : PipePc := .waiting
  senders : Table Nat SendPc := ∅
  /-- The number of connections so far. -/
  connection : Nat := 0
  log : List PipeEvent := []

/-- The events of the queue section. -/
def SendOutcome.events (message : OutboundMessage) : SendOutcome → List PipeEvent
  | .merged | .appended => [.accepted message]
  | .evicting victim => [.evicted victim, .accepted message]
  | .droppedLog | .rejected => [.refused message]

inductive PipeLabel where
  /-- `sendMessage` begins on a thread: the check of `m_connected`. -/
  | send (thread : Nat) (message : OutboundMessage)
  /-- The check of `m_sessionAuthenticated`. -/
  | check (thread : Nat)
  /-- The section under the queue mutex. -/
  | enqueue (thread : Nat)
  | connect
  | announce
  /-- `markSessionAuthenticated`, from the callback. -/
  | authenticate
  /-- `processIncoming` returns; `broken` when it cleared `m_connected`. -/
  | poll (broken : Bool)
  | look
  | pop
  /-- `WriteFile` returns. -/
  | wrote (ok : Bool)
  | requeue
  | disconnect
  | rest
  | close
  | reset
  /-- `stop` clears `m_connected` from another thread. -/
  | stop
  deriving DecidableEq

/-- One step; `required` is `m_authenticationRequired`. -/
def pipeStep (required : Bool) (s : PipeState) : PipeLabel → Option PipeState
  | .send thread message =>
      if (s.senders.lookup thread).isSome then none
      else if s.connected then
        some { s with senders := s.senders.insert thread (.connected message) }
      else some s
  | .check thread =>
      match s.senders.lookup thread with
      | some (.connected message) =>
          if required && !s.authenticated && !message.type.isControl then
            some { s with senders := s.senders.erase thread }
          else some { s with senders := s.senders.insert thread (.admitted message) }
      | _ => none
  | .enqueue thread =>
      match s.senders.lookup thread with
      | some (.admitted message) =>
          some { s with
            senders := s.senders.erase thread
            queue := (enqueue s.queue message).1
            log := s.log ++ (enqueue s.queue message).2.events message }
      | _ => none
  | .connect =>
      if s.pc = .waiting then
        some { s with pc := .opened, authenticated := !required, connection := s.connection + 1 }
      else none
  | .announce => if s.pc = .opened then some { s with pc := .serving, connected := true } else none
  | .authenticate => if s.pc = .serving then some { s with authenticated := true } else none
  | .poll broken =>
      if s.pc = .serving then
        some { s with pc := .draining, connected := s.connected && !broken }
      else none
  | .look =>
      if s.pc = .draining then
        some { s with pc := if s.connected then .popping else .resting }
      else none
  | .pop =>
      if s.pc = .popping then
        match s.queue with
        | [] => some { s with pc := .resting }
        | message :: rest => some { s with pc := .writing message, queue := rest }
      else none
  | .wrote ok =>
      match s.pc with
      | .writing message =>
          if ok then
            some { s with
              pc := .draining
              log := s.log ++ [.written s.connection s.authenticated message] }
          else some { s with pc := .failed message }
      | _ => none
  | .requeue =>
      match s.pc with
      | .failed message => some { s with pc := .requeued, queue := message :: s.queue }
      | _ => none
  | .disconnect =>
      if s.pc = .requeued then some { s with pc := .resting, connected := false } else none
  | .rest =>
      if s.pc = .resting then
        some { s with pc := if s.connected then .serving else .closing }
      else none
  | .close => if s.pc = .closing then some { s with pc := .closed, connected := false } else none
  | .reset =>
      if s.pc = .closed then some { s with pc := .waiting, authenticated := false } else none
  | .stop => some { s with connected := false }

/-! ## What a step does to the messages -/

/-- What a step can do to the queue, the message in flight and the history. -/
inductive PipeMove (s : PipeState) : PipeLabel → PipeState → Prop where
  | quiet (l : PipeLabel) (t : PipeState) (queue : t.queue = s.queue)
      (flight : t.pc.inFlight = s.pc.inFlight) (log : t.log = s.log) : PipeMove s l t
  | enqueue (thread : Nat) (message : OutboundMessage)
      (admitted : s.senders.lookup thread = some (.admitted message)) :
      PipeMove s (.enqueue thread)
        { s with
          senders := s.senders.erase thread
          queue := (enqueue s.queue message).1
          log := s.log ++ (enqueue s.queue message).2.events message }
  | pop (message : OutboundMessage) (rest : List OutboundMessage) (pc : s.pc = .popping)
      (queue : s.queue = message :: rest) :
      PipeMove s .pop { s with pc := .writing message, queue := rest }
  | wrote (message : OutboundMessage) (pc : s.pc = .writing message) :
      PipeMove s (.wrote true)
        { s with
          pc := .draining
          log := s.log ++ [.written s.connection s.authenticated message] }
  | requeue (message : OutboundMessage) (pc : s.pc = .failed message) :
      PipeMove s .requeue { s with pc := .requeued, queue := message :: s.queue }

variable {required : Bool} {s t : PipeState} {l : PipeLabel}

theorem pipeStep_move (h : pipeStep required s l = some t) : PipeMove s l t := by
  cases l with
  | send thread message =>
    simp only [pipeStep] at h
    split at h
    · cases h
    · split at h
      · cases h
        exact .quiet _ _ rfl rfl rfl
      · cases h
        exact .quiet _ _ rfl rfl rfl
  | check thread =>
    simp only [pipeStep] at h
    split at h
    · split at h
      · cases h
        exact .quiet _ _ rfl rfl rfl
      · cases h
        exact .quiet _ _ rfl rfl rfl
    · cases h
  | enqueue thread =>
    simp only [pipeStep] at h
    split at h
    · rename_i message hlookup
      cases h
      exact .enqueue thread message hlookup
    · cases h
  | pop =>
    simp only [pipeStep] at h
    split at h
    · rename_i hpc
      split at h
      · cases h
        exact .quiet _ _ rfl (by rw [hpc]; rfl) rfl
      · rename_i message rest hqueue
        cases h
        exact .pop message rest hpc hqueue
    · cases h
  | wrote ok =>
    simp only [pipeStep] at h
    split at h
    · rename_i message hpc
      cases ok with
      | true =>
        cases h
        exact .wrote message hpc
      | false =>
        cases h
        exact .quiet _ _ rfl (by rw [hpc]; rfl) rfl
    · cases h
  | requeue =>
    simp only [pipeStep] at h
    split at h
    · rename_i message hpc
      cases h
      exact .requeue message hpc
    · cases h
  | look | rest =>
    simp only [pipeStep] at h
    split at h
    · rename_i hpc
      cases h
      refine .quiet _ _ rfl ?_ rfl
      rw [hpc]
      cases s.connected <;> rfl
    · cases h
  | authenticate =>
    simp only [pipeStep] at h
    split at h
    · cases h
      exact .quiet _ _ rfl rfl rfl
    · cases h
  | connect | announce | poll | disconnect | close | reset =>
    simp only [pipeStep] at h
    split at h
    · rename_i hpc
      cases h
      exact .quiet _ _ rfl (by rw [hpc]; rfl) rfl
    · cases h
  | stop =>
    cases h
    exact .quiet _ _ rfl rfl rfl

end LocalMediaTransfer
