import Mathlib.Tactic
import LocalMediaTransfer.Lib.Run

/-!
# The GUI's pipe connection loop

Model of `PipeConnectionLoop` (`Services/Pipe/PipeConnectionLoop.cs`): `Start`, `Stop` and
`Dispose`, which one thread calls, and the read loops that they start and leave behind.  A step is
what happens up to the next await, lock, shared counter or event; any thread may run next.  What the
pipe and the server do is chosen with the step.  Messages, sends and the diagnostic log are left
out; a send that fails is the step `sendFailure`.

* `PipeClient` — the shared fields, the calling thread and the loops.
* `controlStep` — `Start`, `Stop`, `Dispose` and `SetConnectionState(false)` of `Stop`.
* `loopStep` — `ReadLoopAsync`.
-/

set_option autoImplicit false

namespace LocalMediaTransfer

/-- What the awaits of `ReadLoopAsync` throw. -/
inductive PipeError where
  | timeout
  | operationCanceled
  | objectDisposed
  | io
  | other
  deriving DecidableEq

/-- How a round of the loop ends: `continue`, `break` or an unhandled exception, or the delay. -/
inductive RoundExit where
  | again
  | leave
  | pause
  deriving DecidableEq

/-- The catch clauses; `cancelled` is `ct.IsCancellationRequested`. -/
def RoundExit.ofError (error : PipeError) (cancelled disposed : Bool) : RoundExit :=
  match error with
  | .timeout => .again
  | .operationCanceled => .leave
  | .objectDisposed => if cancelled || disposed then .leave else .pause
  | .io => if cancelled then .leave else .pause
  | .other => if cancelled then .leave else .pause

/-- Where a read loop stands. -/
inductive LoopPc where
  /-- The condition of the outer loop. -/
  | check
  /-- `lock (_pipeLock)` with the new pipe. -/
  | publish
  /-- `await pipe.ConnectAsync`. -/
  | connect
  /-- `IsCurrentRun` after the connection. -/
  | checkRun
  /-- `pipe.ReadMode = Message`. -/
  | readMode
  /-- `await AuthenticateAsync`. -/
  | authenticate
  /-- `SetConnectionState(true)`, before its lock. -/
  | setTrue
  /-- `SetConnectionState(true)`, before its event. -/
  | raiseTrue
  /-- The inner loop. -/
  | read
  /-- `DisconnectPipe(pipe)` in the finally block. -/
  | disconnect (exit : RoundExit)
  /-- `IsCurrentRun` in the finally block. -/
  | checkFinally (exit : RoundExit)
  /-- `SetConnectionState(false)`, before its lock. -/
  | setFalse (exit : RoundExit)
  /-- `SetConnectionState(false)`, before its event. -/
  | raiseFalse (exit : RoundExit)
  /-- `await Task.Delay`. -/
  | delay
  | ended
  deriving DecidableEq

structure ReadLoop where
  generation : Nat
  /-- `ct.IsCancellationRequested`. -/
  cancelled : Bool := false
  /-- The pipe of this round. -/
  pipe : Nat := 0
  pc : LoopPc := .check
  deriving DecidableEq

/-- Where the thread that calls `Start` and `Stop` stands. -/
inductive ControlPc where
  | idle
  /-- `Start` after `Interlocked.Increment`. -/
  | launch
  /-- `Stop` after it has taken the fields; `cts` is the source of this loop. -/
  | increment (cts : Option Nat)
  | cancel (cts : Option Nat)
  | disconnect
  /-- `DisconnectPipe`, after its lock. -/
  | dispose (pipe : Nat)
  /-- `SetConnectionState(false)`, before its lock. -/
  | setFalse
  /-- `SetConnectionState(false)`, before its event. -/
  | raiseFalse
  deriving DecidableEq

structure PipeClient where
  /-- `_authenticator` is there. -/
  authenticates : Bool
  runGeneration : Nat := 0
  /-- `_pipe`. -/
  pipe : Option Nat := none
  disposedPipes : List Nat := []
  nextPipe : Nat := 0
  /-- `_cts` and `_readTask`, by the number of their loop. -/
  cts : Option Nat := none
  readTask : Option Nat := none
  isConnected : Bool := false
  disposed : Bool := false
  /-- The arguments of `ConnectionChanged`, as raised. -/
  events : List Bool := []
  control : ControlPc := .idle
  loops : List ReadLoop := []
  deriving DecidableEq

namespace PipeClient

variable (s : PipeClient)

/-! ## Start and Stop -/

def start : PipeClient :=
  if s.disposed || s.readTask.isSome then s
  else { s with runGeneration := s.runGeneration + 1, control := .launch }

/-- `Stop` up to its increment. -/
def stop : PipeClient :=
  { s with cts := none, readTask := none, control := .increment s.cts }

def dispose : PipeClient :=
  if s.disposed then s else { s with disposed := true }.stop

def isDisposed (pipe : Nat) : Bool := pipe ∈ s.disposedPipes

/-- The next step of the calling thread. -/
def controlStep : Option PipeClient :=
  match s.control with
  | .idle => none
  | .launch =>
    some { s with
      cts := some s.loops.length
      readTask := some s.loops.length
      loops := s.loops ++ [{ generation := s.runGeneration }]
      control := .idle }
  | .increment cts =>
    some { s with runGeneration := s.runGeneration + 1, control := .cancel cts }
  | .cancel cts =>
    some { s with
      loops := cts.elim s.loops fun i => s.loops.modify i ({ · with cancelled := true })
      control := .disconnect }
  | .disconnect =>
    some { s with
      pipe := none
      control := s.pipe.elim .setFalse .dispose }
  | .dispose pipe =>
    some { s with disposedPipes := pipe :: s.disposedPipes, control := .setFalse }
  | .setFalse =>
    if s.isConnected then some { s with isConnected := false, control := .raiseFalse }
    else some { s with control := .idle }
  | .raiseFalse => some { s with events := s.events ++ [false], control := .idle }

/-! ## The read loop -/

/-- What the pipe does in a step of a loop. -/
inductive PipeAnswer where
  | ok
  | throws (error : PipeError)
  /-- `pipe.IsConnected` is false, or reading reports a closed pipe or a message too large. -/
  | closed
  deriving DecidableEq

/-- The round ends with an exception. -/
def throwIn (loop : ReadLoop) (error : PipeError) : ReadLoop :=
  { loop with pc := .disconnect (.ofError error loop.cancelled s.disposed) }

/-- The code after the finally block. -/
def afterRound (loop : ReadLoop) : RoundExit → ReadLoop
  | .again => { loop with pc := .check }
  | .leave => { loop with pc := .ended }
  | .pause => { loop with pc := .delay }

/-- The step of a loop, with the loop after it; an await succeeds on a pipe that is not disposed,
under a token that is not cancelled. -/
def loopStep (loop : ReadLoop) (answer : PipeAnswer) : Option (PipeClient × ReadLoop) :=
  let current := loop.generation = s.runGeneration
  match loop.pc with
  | .check =>
    if loop.cancelled || !current then some (s, { loop with pc := .ended })
    else
      some ({ s with nextPipe := s.nextPipe + 1 }, { loop with pipe := s.nextPipe, pc := .publish })
  | .publish =>
    if current then some ({ s with pipe := some loop.pipe }, { loop with pc := .connect })
    else
      some ({ s with disposedPipes := loop.pipe :: s.disposedPipes },
        { loop with pc := .disconnect .leave })
  | .connect =>
    match answer with
    | .ok =>
      if loop.cancelled || s.isDisposed loop.pipe then none
      else some (s, { loop with pc := .checkRun })
    | .throws error => some (s, s.throwIn loop error)
    | .closed => none
  | .checkRun =>
    if current then some (s, { loop with pc := .readMode })
    else some (s, { loop with pc := .disconnect .leave })
  | .readMode =>
    match answer with
    | .ok =>
      if s.isDisposed loop.pipe then none
      else some (s, { loop with pc := if s.authenticates then .authenticate else .setTrue })
    | .throws error => some (s, s.throwIn loop error)
    | .closed => none
  | .authenticate =>
    match answer with
    | .ok =>
      if loop.cancelled || s.isDisposed loop.pipe then none
      else some (s, { loop with pc := .setTrue })
    | .throws error => some (s, s.throwIn loop error)
    | .closed => none
  | .setTrue =>
    if s.isConnected then some (s, { loop with pc := .read })
    else some ({ s with isConnected := true }, { loop with pc := .raiseTrue })
  | .raiseTrue => some ({ s with events := s.events ++ [true] }, { loop with pc := .read })
  | .read =>
    match answer with
    | .ok => if loop.cancelled || s.isDisposed loop.pipe then none else some (s, loop)
    | .throws error => some (s, s.throwIn loop error)
    | .closed => some (s, { loop with pc := .disconnect .pause })
  | .disconnect exit =>
    some ({ s with
      pipe := if s.pipe = some loop.pipe then none else s.pipe
      disposedPipes := loop.pipe :: s.disposedPipes }, { loop with pc := .checkFinally exit })
  | .checkFinally exit =>
    if current then some (s, { loop with pc := .setFalse exit })
    else some (s, afterRound loop exit)
  | .setFalse exit =>
    if s.isConnected then some
      ({ s with isConnected := false }, { loop with pc := .raiseFalse exit })
    else some (s, afterRound loop exit)
  | .raiseFalse exit => some ({ s with events := s.events ++ [false] }, afterRound loop exit)
  | .delay => some (s, { loop with pc := .check })
  | .ended => none

end PipeClient

/-- One step of the system. -/
inductive PipeAction where
  | start
  | stop
  | dispose
  | control
  | loop (i : Nat) (answer : PipeClient.PipeAnswer)
  /-- `HandleSendFailure`: `DisconnectPipe()` of the current pipe. -/
  | sendFailure
  deriving DecidableEq

def PipeClient.step (s : PipeClient) : PipeAction → Option PipeClient
  | .start => if s.control = .idle then some s.start else none
  | .stop => if s.control = .idle then some s.stop else none
  | .dispose => if s.control = .idle then some s.dispose else none
  | .control => s.controlStep
  | .loop i answer =>
    s.loops[i]?.bind fun loop =>
      (s.loopStep loop answer).map fun (s', loop') =>
        { s' with loops := s'.loops.modify i fun _ => loop' }
  | .sendFailure =>
    some { s with
      pipe := none
      disposedPipes := s.pipe.elim s.disposedPipes (· :: s.disposedPipes) }

end LocalMediaTransfer
