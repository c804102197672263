import LocalMediaTransfer.Ios.Upload.BoundedAsyncQueue
import LocalMediaTransfer.Ios.Upload.DuplicatePreflight
import LocalMediaTransfer.Lib.Run

/-!
# A run of `uploadFilesConcurrent`

`UploadManager.ts` with `upload/transferPipeline.ts`, as a step function over every order in which
the suspended tasks resume.  The tasks are the function itself, the producer, the enqueuer of the
prepare-first mode and two workers; a program counter names the await a task stands at, and a step
runs it to its next await.  `cancel` may be called whenever the tasks are suspended.

* `UploadRun` — the fields of the manager, the local variables of the run and the tasks.
* `UploadRun.cancel` — `UploadManager.cancel`.
* `runStep` — one resumption, with everything the phone, the receiver and the user decide in it.

Left out: progress reports, timings, the history preview images, and the texts of the reports.  The
releases of the files that a preflight decided are one await.  An upload is one await of the worker
with acknowledgements in between; its chunks are not modelled here.
-/

set_option autoImplicit false

namespace LocalMediaTransfer

open Lib

/-- The selection and the options of a run. -/
structure UploadConfig where
  assets : List MediaAsset
  policy : PreparationPolicy
  thermalPolicy : ThermalPolicy := .monitorOnly
  skipExactDuplicates : Bool := true
  nativeAvailable : Bool := true
  sessionId : String := "ios"

inductive TransferCompletionStatus where
  | completed
  | mixed
  | cancelled
  | fatal
  deriving DecidableEq

/-- `UploadSummary`, its counts and byte totals. -/
structure UploadSummary where
  expandedFiles : Nat
  uploadedFiles : Nat
  skippedFiles : Nat
  failedFiles : Nat
  uploadedBytes : Nat
  skippedBytes : Nat
  completionStatus : TransferCompletionStatus
  deriving DecidableEq

/-- `duplicateStage` of a history entry. -/
inductive DuplicateStage where
  | preflight
  | outgoingSelection
  | finalization
  deriving DecidableEq

/-- What the run reports, to the observer, in the history and to the server. -/
inductive RunEvent where
  | uploading (file : PreparedUploadFile)
  | skipped (file : PreparedUploadFile) (stage : DuplicateStage)
  | saved (file : PreparedUploadFile)
  | failed (file : PreparedUploadFile) (failure : TransferFailure)
  | preparationFailed (asset : MediaAsset) (itemId : String) (code : TransferErrorCode)
  /-- `api.cancelUploadSession`. -/
  | cancelRequest
  /-- `api.transferHistory`. -/
  | history (status : TransferCompletionStatus)
  /-- `onComplete`. -/
  | complete (summary : UploadSummary)
  /-- `onError`. -/
  | error (failure : TransferFailure)
  deriving DecidableEq

/-! ## Program counters -/

/-- The await of `uploadFilesConcurrent`. -/
inductive MainPc where
  | beginTransfer
  | thermalState
  | startDiagnostics
  | ping
  | logStarted
  /-- Prepare-first: `await produce(false)`. -/
  | produce
  /-- `await Promise.all`. -/
  | pipeline
  | logPrepared
  | finish (status : TransferCompletionStatus) (failedFiles expandedFiles : Nat)
  | history (summary : UploadSummary)
  | logDone (summary : UploadSummary)
  /-- The three awaits of the catch block. -/
  | failFinish (failure : TransferFailure)
  | failHistory (failure : TransferFailure)
  | failLog (failure : TransferFailure)
  /-- The awaits of the finally block. -/
  | cancelSession
  | endTransfer
  | metrics
  | finished
  deriving DecidableEq

/-- The await of the producer. -/
inductive ProducerPc where
  | idle
  /-- `waitForPreparation`, with its result. -/
  | waiting (prepares : Bool)
  | preparing
  /-- The duplicate preflight of a window. -/
  | checking (window : PreparedWindow)
  /-- The releases of the files that are skipped or failed. -/
  | releasing (files : List PreparedUploadFile)
  /-- Inside `push`, suspended for capacity. -/
  | pushing (file : PreparedUploadFile) (rest : List PreparedUploadFile)
  /-- `push` returned. -/
  | pushed (rest : List PreparedUploadFile)
  | returned (completed : Bool)
  /-- Streaming: the continuation of `produce` has run. -/
  | settled (completed : Bool)
  deriving DecidableEq

/-- The await of `enqueuePreparedWindows`; the files of the later windows follow those of its
own. -/
inductive EnqueuerPc where
  | idle
  | pushing (file : PreparedUploadFile) (rest : List PreparedUploadFile)
  | pushed (rest : List PreparedUploadFile)
  | done (rejected : Bool)
  deriving DecidableEq

/-- The await of a worker. -/
inductive WorkerPc where
  | idle
  | shifting
  /-- `shift` returned. -/
  | received (item : Option PreparedUploadFile)
  /-- Inside `waitForUpload`. -/
  | waiting (file : PreparedUploadFile)
  /-- `waitForUpload` returned. -/
  | admitted (file : PreparedUploadFile) (admits : Bool)
  | uploading (file : PreparedUploadFile) (acknowledgedBytes : Nat)
  /-- The last release of a file; `exits` when the worker returns after it. -/
  | releasing (exits : Bool)
  | done
  deriving DecidableEq

/-- The tasks that push. -/
inductive Feeder where
  | producer
  | enqueuer
  deriving DecidableEq

abbrev ReadyQueue := BoundedAsyncQueue PreparedUploadFile Feeder (Fin 2)

/-- The manager and the run. -/
structure UploadRun where
  main : MainPc := .beginTransfer
  producer : ProducerPc := .idle
  enqueuer : EnqueuerPc := .idle
  workers : Fin 2 → WorkerPc := fun _ => .idle
  isCancelled : Bool := false
  queue : ReadyQueue
  thermal : ThermalController
  startIndex : Nat := 0
  preparedFiles : Nat := 0
  readyFiles : Nat := 0
  preparationComplete : Bool := false
  plannedUploadMediaBytes : Nat := 0
  uploadedMediaBytes : Nat := 0
  nextUploadFileSequence : Nat := 0
  fatalError : Option RunError := none
  outgoingHashes : OutgoingHashRegistry := ∅
  outcomes : TransferOutcomes := {}
  preparedOutcomeAssetIds : List String := []
  preparedWindows : List (List PreparedUploadFile) := []
  /-- `completionStatus` of the diagnostics report. -/
  diagnostics : Option TransferCompletionStatus := none
  log : List RunEvent := []
  /-- History variable: the files whose preflight is over, with the hash it computed. -/
  checked : List (PreparedUploadFile × Option String) := []

namespace UploadRun

def start (cfg : UploadConfig) : UploadRun :=
  { queue := { capacity := cfg.policy.queueCapacity }
    thermal := { policy := cfg.thermalPolicy } }

variable (cfg : UploadConfig) (s : UploadRun)

def report (event : RunEvent) : UploadRun := { s with log := s.log ++ [event] }

def setWorker (w : Fin 2) (pc : WorkerPc) : UploadRun :=
  { s with workers := Function.update s.workers w pc }

/-! ## The queue -/

/-- `queue.close()`: the suspended workers get null. -/
def closeQueue : UploadRun :=
  { s with
    queue := s.queue.close
    workers := fun w =>
      if s.queue.closed = false ∧
        w ∈ s.queue.waitingConsumers then .received none else s.workers w }

/-- `queue.push(file)` up to its next await, `none` when it throws; the flag tells whether it is
suspended. -/
def push (feeder : Feeder) (file : PreparedUploadFile) : Option (UploadRun × Bool) :=
  match s.queue.push file feeder with
  | .waits queue => some ({ s with queue }, true)
  | .rejected => none
  | .handed queue w =>
    some (({ s with queue } : UploadRun).setWorker w (.received (some file)), false)
  | .stored queue => some ({ s with queue }, false)

/-- `cancel`; the aborted requests and the native tasks end in steps of their own. -/
def cancel : UploadRun :=
  ({ s with
    isCancelled := true
    log := s.log ++ [.cancelRequest]
    thermal := s.thermal.cancel } : UploadRun).closeQueue

/-! ## The workers -/

/-- The head of the loop of `worker`. -/
def workerLoop (w : Fin 2) : UploadRun :=
  if s.isCancelled then s.setWorker w .done
  else match s.queue.shift w with
    | .item file queue => ({ s with queue } : UploadRun).setWorker w (.received (some file))
    | .closed => s.setWorker w (.received none)
    | .waits queue => ({ s with queue } : UploadRun).setWorker w .shifting

/-- What a worker does with an admitted file, up to its next await. -/
def processFile (w : Fin 2) (file : PreparedUploadFile) : UploadRun :=
  if file.preflightAction = some .skip then
    (({ s with outcomes := s.outcomes.skip file.variantId file.size false } : UploadRun).report
      (.skipped file
        (if file.duplicateSource = some .outgoingSelection then .outgoingSelection
        else .preflight))).setWorker w (.releasing false)
  else match file.preflightFailureCode with
    | some code =>
      (({ s with outcomes := (s.outcomes.fail file.variantId false).1 } : UploadRun).report
        (.failed file { stage := .preflight, code })).setWorker w (.releasing false)
    | none => (s.report (.uploading file)).setWorker w (.uploading file 0)

def effectiveChunkSize : Nat :=
  if cfg.nativeAvailable then TransferLimits.nativeChunkBytes
  else TransferLimits.compatibilityChunkBytes

/-- The size check before an upload. -/
def exceedsReceiverLimit (size : Nat) : Bool :=
  TransferLimits.maxFileBytes < size ||
    TransferLimits.maxChunksPerFile < (size + effectiveChunkSize cfg - 1) / effectiveChunkSize cfg

/-- How the transport of a file ends. -/
inductive UploadReply where
  | saved
  /-- The receiver verified that it has the content. -/
  | skipped
  | failed (error : RunError)
  deriving DecidableEq

/-- The receiver is not asked about a file that exceeds its limits. -/
def effectiveReply (file : PreparedUploadFile) (reply : UploadReply) : UploadReply :=
  if exceedsReceiverLimit cfg file.size then .failed .other else reply

/-- The end of an upload, up to the release of its file. -/
def finishUpload (w : Fin 2) (file : PreparedUploadFile) (acknowledgedBytes : Nat)
    (reply : UploadReply) : UploadRun :=
  match effectiveReply cfg file reply with
  | .saved =>
    (({ s with outcomes := s.outcomes.save file.variantId file.size } : UploadRun).report
      (.saved file)).setWorker w (.releasing false)
  | .skipped =>
    (({ s with outcomes := s.outcomes.skip file.variantId file.size true } : UploadRun).report
      (.skipped file .finalization)).setWorker w (.releasing false)
  | .failed error =>
    if isUnauthorizedError error then
      (({ s with fatalError := some error } : UploadRun).cancel).setWorker w (.releasing true)
    else if s.isCancelled then s.setWorker w (.releasing true)
    else
      (({ s with
        outcomes := (s.outcomes.fail file.variantId false).1
        plannedUploadMediaBytes := max s.uploadedMediaBytes
          (s.plannedUploadMediaBytes - (file.size - acknowledgedBytes)) } : UploadRun).report
        (.failed file (transferFailure error .upload .uploadFailed))).setWorker w (.releasing false)

/-- `recordNativeAcknowledgement`. -/
def acknowledge (w : Fin 2) (file : PreparedUploadFile) (acknowledgedBytes reportedBytes : Nat) :
    UploadRun :=
  let boundedBytes := min file.size (max acknowledgedBytes reportedBytes)
  ({ s with
    uploadedMediaBytes := s.uploadedMediaBytes + (boundedBytes - acknowledgedBytes) } :
      UploadRun).setWorker w (.uploading file boundedBytes)

def workerStep (w : Fin 2) : Option UploadRun :=
  match s.workers w with
  | .received none => some (s.setWorker w .done)
  | .received (some file) => some (s.setWorker w (.waiting file))
  | .waiting file => (s.thermal.waitForUpload w).map fun admits =>
    s.setWorker w (.admitted file admits)
  | .admitted file admits => some (if admits then s.processFile w file else s.setWorker w .done)
  | .releasing exits => some (if exits then s.setWorker w .done else s.workerLoop w)
  | _ => none

/-! ## The producer -/

/-- The catch block of the producer. -/
def producerFail (error : RunError) : UploadRun :=
  let fatalError := match error with
    | .unauthorized => .unauthorized
    | .failure value =>
      if value.fatal then .failure value
      else .failure { stage := .preflight, code := .unexpected, fatal := true }
    | .other => .failure { stage := .preflight, code := .unexpected, fatal := true }
  { ({ s with fatalError := some fatalError } : UploadRun).cancel with producer := .returned false }

/-- The head of the loop of the producer. -/
def producerLoop : UploadRun :=
  if s.startIndex < cfg.assets.length then
    if s.isCancelled then { s with producer := .returned false }
    else { s with producer := .waiting s.thermal.waitForPreparation }
  else { s with
    producer := .returned (decide (s.preparedFiles = cfg.assets.length) && !s.isCancelled) }

def nextWindow : UploadRun :=
  ({ s with startIndex := s.startIndex + cfg.policy.windowSize } : UploadRun).producerLoop cfg

def producerPush (file : PreparedUploadFile) (rest : List PreparedUploadFile) : UploadRun :=
  match s.push .producer file with
  | none => s.producerFail .other
  | some (s, true) => { s with producer := .pushing file rest }
  | some (s, false) => { s with producer := .pushed rest }

/-- The loop that pushes the files of a window, from its head. -/
def pushFiles : List PreparedUploadFile → UploadRun
  | [] => s.nextWindow cfg
  | file :: rest => if s.isCancelled then s.nextWindow cfg else s.producerPush file rest

def windowAssets : List MediaAsset := (cfg.assets.drop s.startIndex).take cfg.policy.windowSize

def markPreparationFailure (asset : MediaAsset) (itemId : String) (code : TransferErrorCode) :
    UploadRun :=
  let (outcomes, first) := s.outcomes.fail itemId true
  if first then
    ({ s with
      outcomes
      preparedOutcomeAssetIds := asset.id :: s.preparedOutcomeAssetIds } : UploadRun).report
      (.preparationFailed asset itemId code)
  else s

/-- A prepared window is counted, its failures are reported, and its preflight starts. -/
def recordWindow (window : PreparedWindow) : UploadRun :=
  { window.failures.foldl (fun s failure => s.markPreparationFailure failure.asset failure.itemId
      failure.code) { s with
        preparedFiles := s.preparedFiles + (s.windowAssets cfg).length
        readyFiles := s.readyFiles + window.files.length } with
    producer := .checking window }

/-- The decisions of the preflight, written into a file. -/
def decideFile (result : PreflightResult) (sequenceNumber : Nat) (file : PreparedUploadFile) :
    PreparedUploadFile :=
  { file with
    computedHash := cfg.sessionId ++ "-" ++ toString sequenceNumber
    preflightAction := some ((result.preflightResults.lookup file.variantId).getD .upload)
    duplicateMatchedFilename := result.matchedFilenames.lookup file.variantId
    duplicateSource := result.duplicateSources.lookup file.variantId
    preflightFailureCode := result.hashFailureCodes.lookup file.variantId }

def isPlanned (file : PreparedUploadFile) : Bool :=
  file.preflightAction ≠ some .skip && file.preflightFailureCode.isNone

/-- The files of a window after its preflight. -/
def decideFiles (result : PreflightResult) (files : List PreparedUploadFile) :
    List PreparedUploadFile :=
  files.zipIdx.map fun e => decideFile cfg result (s.nextUploadFileSequence + e.2 + 1) e.1

def recordPreflight (window : PreparedWindow) (result : PreflightResult)
    (outgoingHashes : OutgoingHashRegistry) : UploadRun :=
  let files := s.decideFiles cfg result window.files
  { s with
    producer := .releasing files
    outgoingHashes
    nextUploadFileSequence := s.nextUploadFileSequence + files.length
    preparedOutcomeAssetIds := files.map (·.asset.id) ++ s.preparedOutcomeAssetIds
    checked := s.checked ++
      files.map fun file => (file, result.computedHashes.lookup file.variantId) }

/-- After the releases of a window: its bytes are planned, and its files are pushed, or kept for
later. -/
def enqueueWindow (files : List PreparedUploadFile) : UploadRun :=
  let s : UploadRun := { s with
    plannedUploadMediaBytes := s.plannedUploadMediaBytes +
      ((files.filter isPlanned).map (·.size)).sum }
  if cfg.policy.effectiveMode = .streaming then s.pushFiles cfg files
  else ({ s with preparedWindows := s.preparedWindows ++ [files] } : UploadRun).nextWindow cfg

def finishPreparation : UploadRun := { s with preparationComplete := true }

def producerStep : Option UploadRun :=
  match s.producer with
  | .waiting prepares => some { s with producer :=
    if prepares then .preparing else .returned false }
  | .releasing files => some (s.enqueueWindow cfg files)
  | .pushing file rest =>
    if .producer ∈ s.queue.waitingProducers then none else some (s.producerPush file rest)
  | .pushed rest => some (s.pushFiles cfg rest)
  | .returned completed =>
    if cfg.policy.effectiveMode = .streaming ∧ s.main = .pipeline then
      some { (if completed then s.finishPreparation else s).closeQueue with
        producer := .settled completed }
    else none
  | _ => none

/-- `prepareAssetWindow` returns, `none` when it throws; a cancelled run gets null. -/
def prepared (window : Option PreparedWindow) : Option UploadRun :=
  match s.producer with
  | .preparing =>
    match window with
    | none => some (s.producerFail .other)
    | some window =>
      some (if s.isCancelled then { s with producer := .returned false }
        else s.recordWindow cfg window)
  | _ => none

/-- The duplicate preflight ends. -/
def preflightDone (peers : PreflightPeers) : Option UploadRun :=
  match s.producer with
  | .checking window =>
    match runDuplicatePreflightWindow cfg.nativeAvailable cfg.skipExactDuplicates peers window.files
        s.outgoingHashes with
    | none => some (s.producerFail .unauthorized)
    | some (result, outgoingHashes) => some (s.recordPreflight cfg window result outgoingHashes)
  | _ => none

/-! ## The enqueuer -/

/-- The end of `enqueuePreparedWindows`, with its finally block. -/
def enqueuerReturn (rejected : Bool) : UploadRun :=
  { s.closeQueue with enqueuer := .done rejected }

def enqueuerPush (file : PreparedUploadFile) (rest : List PreparedUploadFile) : UploadRun :=
  match s.push .enqueuer file with
  | none => s.enqueuerReturn true
  | some (s, true) => { s with enqueuer := .pushing file rest }
  | some (s, false) => { s with enqueuer := .pushed rest }

/-- The loop over the prepared files, from its head. -/
def enqueueFiles : List PreparedUploadFile → UploadRun
  | [] => s.enqueuerReturn false
  | file :: rest => if s.isCancelled then s.enqueuerReturn false else s.enqueuerPush file rest

def enqueuerStep : Option UploadRun :=
  match s.enqueuer with
  | .pushing file rest =>
    if .enqueuer ∈ s.queue.waitingProducers then none else some (s.enqueuerPush file rest)
  | .pushed rest => some (s.enqueueFiles rest)
  | _ => none

/-! ## The function itself -/

/-- The catch block, up to its first await. -/
def fail (error : RunError) : UploadRun :=
  let failure := if isUnauthorizedError error then
      { stage := .network, code := .unauthorized, fatal := true }
    else transferFailure error .upload .unexpected
  { s with
    diagnostics := some (if s.isCancelled && !failure.fatal then .cancelled else .fatal)
    main := .failFinish failure }

/-- The finally block after its first await. -/
def cleanUp : UploadRun :=
  { ({ s with thermal := s.thermal.cancel } : UploadRun).closeQueue with main := .endTransfer }

/-- The finally block. -/
def finallyBlock : UploadRun :=
  if s.isCancelled then { s.report .cancelRequest with main := .cancelSession } else s.cleanUp

def startWorkers : UploadRun := (s.workerLoop 0).workerLoop 1

/-- `runTransferPipeline` starts. -/
def startPipeline : UploadRun :=
  if cfg.policy.effectiveMode = .streaming then
    (({ s with main := .pipeline } : UploadRun).producerLoop cfg).startWorkers
  else ({ s with main := .produce } : UploadRun).producerLoop cfg

/-- Prepare-first: everything is prepared, the upload phase starts. -/
def startFeeding : UploadRun :=
  (({ s.finishPreparation with main := .pipeline, preparedWindows := [] } : UploadRun).enqueueFiles
    s.preparedWindows.flatten).startWorkers

/-- After the pipeline. -/
def pipelineDone (preparedAll : Bool) : UploadRun :=
  match s.fatalError with
  | some error => s.fail error
  | none =>
    if preparedAll then { s with main := .logPrepared }
    else if s.isCancelled then s.fail (.failure { stage := .upload, code := .cancelled })
    else s.fail (.failure { stage := .preflight, code := .unexpected, fatal := true })

/-- The promise that the function awaits for the pipeline is settled. -/
def settle : Option UploadRun :=
  match s.main with
  | .produce =>
    match s.producer with
    | .returned true => some s.startFeeding
    | .returned false => some (s.pipelineDone false)
    | _ => none
  | .pipeline =>
    if cfg.policy.effectiveMode = .streaming then
      match s.producer with
      | .settled completed => if ∀ w, s.workers w =
        .done then some (s.pipelineDone completed) else none
      | _ => none
    else match s.enqueuer with
      | .done true => some (s.fail .other)
      | .done false => if ∀ w, s.workers w = .done then some (s.pipelineDone true) else none
      | _ => none
  | _ => none

/-- The assets that got no outcome. -/
def markMissing : UploadRun :=
  cfg.assets.foldl (fun s asset =>
    if asset.id ∈ s.preparedOutcomeAssetIds then s
    else s.markPreparationFailure asset (asset.id ++ ":missing") .unexpected) s

def completionStatus : TransferCompletionStatus :=
  if s.isCancelled then .cancelled else if 0 < s.outcomes.failedFiles then .mixed else .completed

/-- The outcome is fixed and written to the diagnostics. -/
def conclude : UploadRun :=
  let s := if s.isCancelled then s else s.markMissing cfg
  { s with
    diagnostics := some s.completionStatus
    main := .finish s.completionStatus s.outcomes.failedFiles
      (s.readyFiles + s.outcomes.preparationFailedFiles) }

def summary (status : TransferCompletionStatus) (failedFiles expandedFiles : Nat) : UploadSummary :=
  { expandedFiles
    uploadedFiles := s.outcomes.uploadedFiles
    skippedFiles := s.outcomes.skippedFiles
    failedFiles
    uploadedBytes := s.outcomes.successfulUploadedBytes
    skippedBytes := s.outcomes.skippedBytes
    completionStatus := status }

/-- The awaits whose result the function does not look at. -/
def mainStep : Option UploadRun :=
  match s.main with
  | .startDiagnostics => some { s with main := .ping }
  | .logStarted => some (s.startPipeline cfg)
  | .logPrepared => some (s.conclude cfg)
  | .finish status failedFiles expandedFiles =>
    some { s.report (.history status) with main := .history (s.summary status failedFiles
      expandedFiles) }
  | .history summary => some { s with main := .logDone summary }
  | .logDone summary =>
    some (if s.isCancelled then s.finallyBlock else (s.report (.complete summary)).finallyBlock)
  | .failFinish failure =>
    some (if s.isCancelled && !failure.fatal then
        { s.report (.history .cancelled) with main := .failHistory failure }
      else { s with main := .failLog failure })
  | .failHistory failure => some { s with main := .failLog failure }
  | .failLog failure =>
    some (if !s.isCancelled || failure.fatal then (s.report (.error failure)).finallyBlock
      else s.finallyBlock)
  | .cancelSession => some s.cleanUp
  | .endTransfer => some { s with main := .metrics }
  | .metrics => some { s with main := .finished }
  | _ => none

end UploadRun

open UploadRun

/-! ## Steps -/

inductive RunLabel where
  /-- The user cancels. -/
  | cancel
  | thermalChanged (state : ThermalState)
  /-- `beginTransfer` returns or throws. -/
  | begun (succeeds : Bool)
  /-- `getThermalState` returns, or throws. -/
  | thermalRead (state : Option ThermalState)
  | pinged (succeeds : Bool)
  /-- The function resumes at an await whose result it does not look at. -/
  | main
  | settle
  | producer
  | prepared (window : Option PreparedWindow)
  | preflightDone (peers : PreflightPeers)
  | enqueuer
  | worker (w : Fin 2)
  | acknowledged (w : Fin 2) (reportedBytes : Nat)
  | uploaded (w : Fin 2) (reply : UploadReply)

/-- One resumption. -/
def runStep (cfg : UploadConfig) (s : UploadRun) : RunLabel → Option UploadRun
  | .cancel => if s.main = .finished then none else some s.cancel
  | .thermalChanged state => some { s with thermal := s.thermal.update state }
  | .begun succeeds =>
    if s.main = .beginTransfer then
      some (if succeeds then { s with main := .thermalState } else s.fail .other)
    else none
  | .thermalRead state =>
    if s.main = .thermalState then
      some (match state with
        | some state => { s with thermal := s.thermal.update state, main := .startDiagnostics }
        | none => s.fail .other)
    else none
  | .pinged succeeds =>
    if s.main = .ping then
      some (if succeeds then { s with main := .logStarted }
        else s.fail (.failure { stage := .network, code := .unauthorized, fatal := true }))
    else none
  | .main => s.mainStep cfg
  | .settle => s.settle cfg
  | .producer => s.producerStep cfg
  | .prepared window => s.prepared cfg window
  | .preflightDone peers => s.preflightDone cfg peers
  | .enqueuer => s.enqueuerStep
  | .worker w => s.workerStep w
  | .acknowledged w reportedBytes =>
    match s.workers w with
    | .uploading file acknowledgedBytes =>
      some (s.acknowledge w file acknowledgedBytes reportedBytes)
    | _ => none
  | .uploaded w reply =>
    match s.workers w with
    | .uploading file acknowledgedBytes => some (s.finishUpload cfg w file acknowledgedBytes reply)
    | _ => none

/-! ## Weights -/

/-- A quantity of a file of which some bytes are acknowledged. -/
abbrev FileWeight := PreparedUploadFile → Nat → Nat

def filesWeight (g : FileWeight) (files : List PreparedUploadFile) : Nat :=
  (files.map fun file => g file 0).sum

@[simp] theorem filesWeight_nil (g : FileWeight) : filesWeight g [] = 0 := rfl

@[simp] theorem filesWeight_cons (g : FileWeight) (file : PreparedUploadFile)
    (files : List PreparedUploadFile) :
    filesWeight g (file :: files) = g file 0 + filesWeight g files := by
  simp [filesWeight]

@[simp] theorem filesWeight_append (g : FileWeight) (files files' : List PreparedUploadFile) :
    filesWeight g (files ++ files') = filesWeight g files + filesWeight g files' := by
  simp [filesWeight]

/-- The files of a producer whose preflight is over. -/
def ProducerPc.files : ProducerPc → List PreparedUploadFile
  | .releasing files => files
  | .pushing file rest => file :: rest
  | .pushed rest => rest
  | _ => []

def EnqueuerPc.files : EnqueuerPc → List PreparedUploadFile
  | .pushing file rest => file :: rest
  | .pushed rest => rest
  | _ => []

def WorkerPc.load (g : FileWeight) : WorkerPc → Nat
  | .received (some file) | .waiting file | .admitted file _ => g file 0
  | .uploading file acknowledgedBytes => g file acknowledgedBytes
  | _ => 0

namespace UploadRun

/-- **A weight, added up over the files in flight.** -/
def load (g : FileWeight) (s : UploadRun) : Nat :=
  filesWeight g s.producer.files + filesWeight g s.preparedWindows.flatten +
    filesWeight g s.enqueuer.files + filesWeight g s.queue.items +
    (s.workers 0).load g + (s.workers 1).load g

end UploadRun

end LocalMediaTransfer
