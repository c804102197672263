import Mathlib.Tactic
import LocalMediaTransfer.Lib.Run

/-!
# The GUI's server manager

Model of `ServerManager` (`Services/Server/ServerManager.cs`), of its monitor loop
(`ServerProcessMonitor.cs`) and of the process wrapper under them (`ServerProcessAbstractions.cs`).
One thread calls `Start`, `StopAsync` and `Dispose`; every `Start` leaves a monitor behind.  A step
is what happens up to the next lock, await or operation on a `Process`, and any thread may run next.
What fails and when a process exits is chosen with the step.  The events, the log, the ownership
protocol and the launch options are left out.

* `Disposal`, `disposalStep` — the end of a process and of its wrapper.
* `Launch`, `launchStep` — `LaunchOwnedServer` with the wrapper's `Start`.
* `monitorStep` — `ServerProcessMonitor.RunAsync`.
* `controlStep` — `Start`, `StopAsync` and `Dispose`.
-/

set_option autoImplicit false

namespace LocalMediaTransfer

inductive ServerManagerState where
  | stopped
  | starting
  | running
  | conflict
  | faulted
  deriving DecidableEq

/-- The process of the operating system. -/
inductive ProcessStatus where
  | notStarted
  | running
  | exited (exitCode : Int)
  deriving DecidableEq

/-- A `SystemServerProcess` with its `Process`. -/
structure ServerProcess where
  status : ProcessStatus := .notStarted
  /-- `_process` is disposed. -/
  disposed : Bool := false
  /-- `_lifetimeJob` is there. -/
  lifetimeJob : Bool := false
  deriving DecidableEq

namespace ServerProcess

def running (process : ServerProcess) : Bool := decide (process.status = .running)

/-- `HasExited`; `none` where it throws. -/
def hasExited (process : ServerProcess) : Option Bool :=
  if process.disposed then none
  else
    match process.status with
    | .notStarted => none
    | .running => some false
    | .exited _ => some true

/-- `ExitCode`, or −1 where it throws. -/
def exitCode (process : ServerProcess) : Int :=
  if process.disposed then -1
  else
    match process.status with
    | .exited exitCode => exitCode
    | _ => -1

/-- A running process ends. -/
def ended (process : ServerProcess) (exitCode : Int) : ServerProcess :=
  if process.running then { process with status := .exited exitCode } else process

/-- `Kill`, without effect where it throws. -/
def kill (process : ServerProcess) : ServerProcess :=
  if process.disposed then process else process.ended (-1)

/-- `_lifetimeJob?.Dispose()`. -/
def closeJob (process : ServerProcess) : ServerProcess :=
  if process.lifetimeJob then process.ended (-1) else process

end ServerProcess

/-- Where the end of a detached process stands. -/
inductive Disposal where
  /-- `!process.HasExited`. -/
  | check (process : Nat)
  | kill (process : Nat)
  /-- `process.Dispose()`: `_lifetimeJob?.Dispose()`. -/
  | closeJob (process : Nat)
  /-- `_lifetimeJob = null`. -/
  | clearJob (process : Nat)
  /-- `_process.Dispose()`. -/
  | disposeProcess (process : Nat)
  | finished
  deriving DecidableEq

/-- `DisposeOwnedProcessAsync` and `DisposeOwnedProcessImmediately` after `DetachOwnedProcess`. -/
def Disposal.of (killIfRunning : Bool) : Option Nat → Disposal
  | none => .finished
  | some process => if killIfRunning then .check process else .closeJob process

/-- Where `LaunchOwnedServer` stands. -/
inductive Launch where
  | create
  /-- The lock that sets `_ownedProcess`. -/
  | publish (process : Nat)
  /-- `SetState(Starting)`. -/
  | setStarting (process : Nat)
  /-- `DetachOwnedProcess` after a refused `SetState`. -/
  | unpublish (process : Nat)
  /-- `_process.Start()`. -/
  | start (process : Nat)
  /-- `ProcessLifetimeJob.CreateFor`. -/
  | createJob (process : Nat)
  /-- `_lifetimeJob = ` the new job. -/
  | storeJob (process : Nat)
  /-- `!_process.HasExited` in the wrapper's catch clause. -/
  | checkFailed (process : Nat)
  | killFailed (process : Nat)
  /-- The output readers and the control token. -/
  | finishStart (process : Nat)
  /-- `DetachOwnedProcess` in the catch clause. -/
  | detach (process : Option Nat)
  | discard (disposal : Disposal)
  | dispose (disposal : Disposal)
  | setFaulted
  | returned (launched : Bool)
  deriving DecidableEq

inductive MonitorPc where
  /-- The condition of the loop. -/
  | check
  | delay
  | getProcess
  | checkExited (process : Nat)
  | getState
  | setRunning
  | readExitCode (process : Nat)
  | detach (process : Nat) (exitCode : Int)
  | dispose (disposal : Disposal) (exitCode : Int)
  | decide (exitCode : Int)
  | launch (launch : Launch)
  /-- The last `SetState` before the loop is left. -/
  | setFinal (state : ServerManagerState)
  | ended
  deriving DecidableEq

structure Monitor where
  generation : Nat
  cancelled : Bool := false
  restartCount : Nat := 0
  pc : MonitorPc := .check
  deriving DecidableEq

inductive ControlGoal where
  | start
  | stop
  deriving DecidableEq

/-- Where the thread that calls `Start`, `StopAsync` and `Dispose` stands. -/
inductive ManagerPc where
  | idle
  /-- `StopMonitor` with the source it has taken, by the number of its monitor. -/
  | increment (goal : ControlGoal) (cts : Option Nat)
  | cancel (goal : ControlGoal) (cts : Option Nat)
  | detach (goal : ControlGoal)
  | dispose (goal : ControlGoal) (disposal : Disposal)
  | launch (launch : Launch)
  | runMonitor
  | setStopped
  deriving DecidableEq

structure ServerManager where
  state : ServerManagerState := .stopped
  monitorGeneration : Nat := 0
  ownedProcess : Option Nat := none
  disposed : Bool := false
  /-- `_cts`, by the number of its monitor. -/
  cts : Option Nat := none
  control : ManagerPc := .idle
  monitors : List Monitor := []
  /-- The processes, by the order of their creation. -/
  processes : Nat → ServerProcess := fun _ => {}
  created : Nat := 0

namespace ServerManager

variable (s : ServerManager)

def serverAlreadyRunningExitCode : Int := 2

def inventoryStartupFailureExitCode : Int := 3

def maxAutoRestarts : Nat := 3

def withProcess (process : Nat) (p : ServerProcess) : ServerManager :=
  { s with processes := Function.update s.processes process p }

/-! ## Under the lock -/

def current (expectedGeneration : Option Nat) : Bool :=
  expectedGeneration.all fun generation => decide (generation = s.monitorGeneration)

def setState (state : ServerManagerState)
    (expectedGeneration : Option Nat) : ServerManager × Bool :=
  if s.current expectedGeneration then ({ s with state }, true) else (s, false)

def detachOwnedProcess (expectedProcess expectedGeneration : Option Nat) :
    ServerManager × Option Nat :=
  if !s.current expectedGeneration then (s, none)
  else if expectedProcess.isSome && decide (s.ownedProcess ≠ expectedProcess) then (s, none)
  else ({ s with ownedProcess := none }, s.ownedProcess)

/-! ## The end of a process -/

def disposalStep : Disposal → Option (ServerManager × Disposal)
  | .check process =>
    match (s.processes process).hasExited with
    | some false => some (s, .kill process)
    | _ => some (s, .closeJob process)
  | .kill process =>
    some (s.withProcess process (s.processes process).kill, .closeJob process)
  | .closeJob process =>
    some (s.withProcess process (s.processes process).closeJob, .clearJob process)
  | .clearJob process =>
    some (s.withProcess process { s.processes process with lifetimeJob := false },
      .disposeProcess process)
  | .disposeProcess process =>
    some (s.withProcess process { s.processes process with disposed := true }, .finished)
  | .finished => none

/-! ## LaunchOwnedServer -/

/-- Whether what may fail in a step does. -/
inductive ServerAnswer where
  | ok
  | throws
  deriving DecidableEq

def launchStep (expectedGeneration : Option Nat) (answer : ServerAnswer) :
    Launch → Option (ServerManager × Launch)
  | .create =>
    match answer with
    | .ok => some ({ s with created := s.created + 1 }, .publish s.created)
    | .throws => some (s, .detach none)
  | .publish process =>
    if s.current expectedGeneration then
      some ({ s with ownedProcess := some process }, .setStarting process)
    else some (s, .discard (.closeJob process))
  | .setStarting process =>
    let (s', set) := s.setState .starting expectedGeneration
    some (s', if set then .start process else .unpublish process)
  | .unpublish process =>
    let (s', detached) := s.detachOwnedProcess (some process) expectedGeneration
    some (s', .discard (.of false detached))
  | .start process =>
    if answer = .throws || (s.processes process).disposed then some (s, .detach (some process))
    else
      some (s.withProcess process { s.processes process with status := .running },
        .createJob process)
  | .createJob process =>
    if answer = .throws || (s.processes process).disposed then some (s, .checkFailed process)
    else some (s, .storeJob process)
  | .storeJob process =>
    some (s.withProcess process { s.processes process with lifetimeJob := true },
      .finishStart process)
  | .checkFailed process =>
    match (s.processes process).hasExited with
    | some false => some (s, .killFailed process)
    | _ => some (s, .detach (some process))
  | .killFailed process =>
    some (s.withProcess process (s.processes process).kill, .detach (some process))
  | .finishStart process =>
    if answer = .throws || (s.processes process).disposed then some (s, .detach (some process))
    else some (s, .returned true)
  | .detach process =>
    let (s', detached) := s.detachOwnedProcess process expectedGeneration
    some (s', .dispose (.of true detached))
  | .discard disposal =>
    if disposal = .finished then some (s, .returned false)
    else (s.disposalStep disposal).map fun (s', disposal') => (s', .discard disposal')
  | .dispose disposal =>
    if disposal = .finished then some (s, .setFaulted)
    else (s.disposalStep disposal).map fun (s', disposal') => (s', .dispose disposal')
  | .setFaulted => some ((s.setState .faulted expectedGeneration).1, .returned false)
  | .returned _ => none

/-! ## The monitor -/

def monitorStep (monitor : Monitor) (answer : ServerAnswer) : Option (ServerManager × Monitor) :=
  let generation := some monitor.generation
  match monitor.pc with
  | .check => some (s, { monitor with pc := if monitor.cancelled then .ended else .delay })
  | .delay =>
    match answer with
    | .ok => some (s, { monitor with pc := .getProcess })
    | .throws => if monitor.cancelled then some (s, { monitor with pc := .ended }) else none
  | .getProcess =>
    let process := if s.current generation then s.ownedProcess else none
    some (s, { monitor with pc := process.elim .ended .checkExited })
  | .checkExited process =>
    match answer, (s.processes process).hasExited with
    | .ok, some true => some (s, { monitor with pc := .readExitCode process })
    | .ok, some false => some (s, { monitor with pc := .getState })
    | _, _ => some (s, { monitor with pc := .setFinal .faulted })
  | .getState =>
    some (s, { monitor with pc := if s.state = .starting then .setRunning else .check })
  | .setRunning => some ((s.setState .running generation).1, { monitor with pc := .check })
  | .readExitCode process =>
    some (s, { monitor with pc := .detach process (s.processes process).exitCode })
  | .detach process exitCode =>
    let (s', detached) := s.detachOwnedProcess (some process) generation
    some (s', { monitor with
      pc := if detached.isSome then .dispose (.of false detached) exitCode else .ended })
  | .dispose disposal exitCode =>
    if disposal = .finished then some (s, { monitor with pc := .decide exitCode })
    else (s.disposalStep disposal).map fun (s', disposal') =>
      (s', { monitor with pc := .dispose disposal' exitCode })
  | .decide exitCode =>
    if exitCode = serverAlreadyRunningExitCode then
      some (s, { monitor with pc := .setFinal .conflict })
    else if exitCode = inventoryStartupFailureExitCode then
      some (s, { monitor with pc := .setFinal .faulted })
    else if !monitor.cancelled && s.current generation &&
        decide (monitor.restartCount < maxAutoRestarts) then
      some (s, { monitor with restartCount := monitor.restartCount + 1, pc := .launch .create })
    else some (s, { monitor with pc := .setFinal .faulted })
  | .launch (.returned launched) =>
    some (s, { monitor with pc := if launched then .check else .ended })
  | .launch launch =>
    (s.launchStep generation answer launch).map fun (s', launch') =>
      (s', { monitor with pc := .launch launch' })
  | .setFinal state => some ((s.setState state generation).1, { monitor with pc := .ended })
  | .ended => none

/-! ## Start, StopAsync and Dispose -/

/-- `Start` up to `StopMonitor`; `none` where it throws. -/
def start : Option ServerManager :=
  if s.disposed then none
  else if s.state = .starting || s.state = .running then some s
  else some { s with cts := none, control := .increment .start s.cts }

/-- `StopAsync` up to the increment of `StopMonitor`. -/
def stopAsync : ServerManager := { s with cts := none, control := .increment .stop s.cts }

def dispose : ServerManager := if s.disposed then s else { s with disposed := true }.stopAsync

def withControl (control : ManagerPc) : ServerManager := { s with control }

/-- The next step of the calling thread. -/
def controlStep (answer : ServerAnswer) : Option ServerManager :=
  match s.control with
  | .idle => none
  | .increment goal cts =>
    some { s with monitorGeneration := s.monitorGeneration + 1, control := .cancel goal cts }
  | .cancel goal cts =>
    some { s with
      monitors := cts.elim s.monitors fun i => s.monitors.modify i ({ · with cancelled := true })
      control := .detach goal }
  | .detach goal =>
    let (s', detached) := s.detachOwnedProcess none none
    some (s'.withControl (.dispose goal (.of (goal = .stop) detached)))
  | .dispose goal disposal =>
    if disposal = .finished then
      match goal with
      | .start => some { s with cts := some s.monitors.length, control := .launch .create }
      | .stop => some (s.withControl .setStopped)
    else (s.disposalStep disposal).map fun (s', disposal') =>
      s'.withControl (.dispose goal disposal')
  | .launch (.returned _) => some (s.withControl .runMonitor)
  | .launch launch =>
    (s.launchStep none answer launch).map fun (s', launch') => s'.withControl (.launch launch')
  | .runMonitor =>
    some { s with
      monitors := s.monitors ++ [{ generation := s.monitorGeneration }]
      control := .idle }
  | .setStopped => some ((s.setState .stopped none).1.withControl .idle)

end ServerManager

/-- One step of the system. -/
inductive ServerAction where
  | start
  | stopAsync
  | dispose
  | control (answer : ServerManager.ServerAnswer)
  | monitor (i : Nat) (answer : ServerManager.ServerAnswer)
  /-- A process of the operating system exits. -/
  | exit (process : Nat) (exitCode : Int)
  deriving DecidableEq

def ServerManager.withMonitor (s : ServerManager) (i : Nat) (monitor : Monitor) : ServerManager :=
  { s with monitors := s.monitors.modify i fun _ => monitor }

def ServerManager.step (s : ServerManager) : ServerAction → Option ServerManager
  | .start => if s.control = .idle then s.start else none
  | .stopAsync => if s.control = .idle then some s.stopAsync else none
  | .dispose => if s.control = .idle then some s.dispose else none
  | .control answer => s.controlStep answer
  | .monitor i answer =>
    s.monitors[i]?.bind fun monitor =>
      (s.monitorStep monitor answer).map fun (s', monitor') => s'.withMonitor i monitor'
  | .exit process exitCode =>
    if (s.processes process).running then
      some (s.withProcess process ((s.processes process).ended exitCode))
    else none

end LocalMediaTransfer
