import Mathlib.Tactic

/-!
# The data of an upload on the phone

Types and small services under `services/upload/` that `UploadManager.ts` works with: `errors.ts`,
`types.ts`, `transferLimits.ts`, `preparationPolicy.ts`, `ThermalController.ts`,
`TransferAccounting.ts`.  Texts shown to the user, timings and throughput are left out.

* `TransferFailure`, `RunError` — what a run throws; `transferFailure` — how it is classified.
* `PreparedUploadFile` — a prepared media component with the decisions of the preflight.
* `resolvePreparationPolicy` — mode, window size and queue capacity.
* `TransferOutcomes` — terminal outcomes, recorded once per item.
-/

set_option autoImplicit false

namespace LocalMediaTransfer

/-! ## Errors -/

inductive TransferStage where
  | rendition
  | metadata
  | filename
  | preflight
  | upload
  | network
  | server
  deriving DecidableEq

inductive TransferErrorCode where
  | assetInfoUnavailable
  | fileMissing
  | fileSizeUnavailable
  | temporaryStorageLimit
  | invalidPreparedFile
  | icloudResourceUnavailable
  | preparedFileNotOwned
  | fileChanged
  | nativeHashingUnavailable
  | assetNotFound
  | resourceNotFound
  | invalidFilenameRequest
  | filenameResolutionFailed
  | preflightUnavailable
  | fileEmpty
  | fileReadFailed
  | requestTimeout
  | unauthorized
  | serverRejected
  | uploadFailed
  | cancelled
  | unexpected
  deriving DecidableEq

/-- `class TransferFailure`. -/
structure TransferFailure where
  stage : TransferStage
  code : TransferErrorCode
  fatal : Bool := false
  deriving DecidableEq

/-- What can be thrown: an `ApiRequestError` of status 401, a `TransferFailure`, any other value. -/
inductive RunError where
  | unauthorized
  | failure (value : TransferFailure)
  | other
  deriving DecidableEq

def isUnauthorizedError : RunError → Bool
  | .unauthorized => true
  | _ => false

def transferFailure (value : RunError) (stage : TransferStage) (fallbackCode : TransferErrorCode) :
    TransferFailure :=
  match value with
  | .failure value => value
  | _ => { stage, code := fallbackCode }

/-! ## Files -/

inductive PreflightAction where
  | upload
  | skip
  | hashRequired
  deriving DecidableEq

inductive DuplicateSource where
  | receiverPreflight
  | outgoingSelection
  deriving DecidableEq

structure MediaAsset where
  id : String
  filename : String
  deriving DecidableEq

/-- `PreparedUploadFile`; the last four fields are set by the preflight of its window. -/
structure PreparedUploadFile where
  asset : MediaAsset
  variantId : String
  fileRef : Nat
  windowIndex : Nat
  nativeUri : String
  size : Nat
  /-- In spite of its name no hash: the file ID that the chunk requests of this file carry.  It is
  empty after the preparation and becomes the session ID with a sequence number when the file is
  handed to the upload queue. -/
  computedHash : String := ""
  transferFilename : String
  preflightAction : Option PreflightAction := none
  duplicateMatchedFilename : Option String := none
  duplicateSource : Option DuplicateSource := none
  preflightFailureCode : Option TransferErrorCode := none
  deriving DecidableEq

/-- `PreparationFailure`. -/
structure PreparationFailure where
  asset : MediaAsset
  itemId : String
  fileRef : Nat
  stage : TransferStage
  code : TransferErrorCode
  deriving DecidableEq

/-- `PreparedWindow`. -/
structure PreparedWindow where
  files : List PreparedUploadFile
  failures : List PreparationFailure
  deriving DecidableEq

/-! ## Limits and policies -/

namespace TransferLimits

def maxChunksPerFile : Nat := 10000
def maxFileBytes : Nat := 107374182400
def nativeChunkBytes : Nat := 8388608
def compatibilityChunkBytes : Nat := 4194304

end TransferLimits

inductive PreparationMode where
  | prepareFirst
  | streaming
  deriving DecidableEq

/-- `PreparationPolicy`. -/
structure PreparationPolicy where
  requestedMode : PreparationMode
  effectiveMode : PreparationMode
  automaticallyStreamsLargeSelection : Bool
  windowSize : Nat
  queueCapacity : Nat
  windowSize_pos : 0 < windowSize
  queueCapacity_pos : 0 < queueCapacity

def maxPrepareFirstAssets : Nat := 250
def streamingPreparationWindowSize : Nat := 16
def streamingReadyQueueCapacity : Nat := 2

def resolvePreparationPolicy (requestedMode : PreparationMode) (nativeAvailable : Bool)
    (selectedAssetCount : Nat) : PreparationPolicy :=
  let automaticallyStreamsLargeSelection :=
    nativeAvailable && requestedMode = .prepareFirst && maxPrepareFirstAssets < selectedAssetCount
  let boundedNativeStreaming :=
    nativeAvailable && (requestedMode = .streaming || automaticallyStreamsLargeSelection)
  { requestedMode
    effectiveMode := if boundedNativeStreaming then .streaming else requestedMode
    automaticallyStreamsLargeSelection
    windowSize :=
      if boundedNativeStreaming then streamingPreparationWindowSize else maxPrepareFirstAssets
    queueCapacity :=
      if boundedNativeStreaming then streamingReadyQueueCapacity else maxPrepareFirstAssets
    windowSize_pos := by split <;> decide
    queueCapacity_pos := by split <;> decide }

inductive ThermalPolicy where
  | monitorOnly
  | adaptive
  deriving DecidableEq

inductive ThermalState where
  | nominal
  | fair
  | serious
  | critical
  deriving DecidableEq

/-- `class ThermalController`; its waiters are the workers that stand inside `waitForUpload`. -/
structure ThermalController where
  policy : ThermalPolicy
  state : ThermalState := .nominal
  cancelled : Bool := false
  deriving DecidableEq

namespace ThermalController

variable (thermal : ThermalController)

def update (state : ThermalState) : ThermalController := { thermal with state }

def waitForPreparation : Bool := !thermal.cancelled

/-- What `waitForUpload` returns, `none` while it waits. -/
def waitForUpload (workerIndex : Nat) : Option Bool :=
  if thermal.policy = .monitorOnly then some !thermal.cancelled
  else if !thermal.cancelled && (thermal.state = .serious || thermal.state = .critical) &&
      0 < workerIndex then none
  else some !thermal.cancelled

def cancel : ThermalController := { thermal with cancelled := true }

@[simp] theorem cancel_cancelled : thermal.cancel.cancelled = true := rfl

@[simp] theorem update_cancelled (state : ThermalState) :
    (thermal.update state).cancelled = thermal.cancelled := rfl

theorem waitForUpload_eq_some {workerIndex : Nat} {admitted : Bool}
    (h : thermal.waitForUpload workerIndex = some admitted) : admitted = !thermal.cancelled := by
  unfold waitForUpload at h
  split at h
  · exact (Option.some.inj h).symm
  · split at h
    · cases h
    · exact (Option.some.inj h).symm

end ThermalController

/-! ## Outcomes -/

/-- `class TransferOutcomes`. -/
structure TransferOutcomes where
  terminalIds : List String := []
  filesCompleted : Nat := 0
  uploadedFiles : Nat := 0
  skippedFiles : Nat := 0
  failedFiles : Nat := 0
  preparationFailedFiles : Nat := 0
  successfulUploadedBytes : Nat := 0
  skippedBytes : Nat := 0
  avoidedBytes : Nat := 0
  finalizationDuplicateBytes : Nat := 0
  serverSkippedFiles : Nat := 0
  serverSkippedBytes : Nat := 0
  deriving DecidableEq

namespace TransferOutcomes

variable (outcomes : TransferOutcomes) (id : String)

/-- `begin`, `none` when it returns false. -/
def start : Option TransferOutcomes :=
  if id ∈ outcomes.terminalIds then none
  else some { outcomes with
    terminalIds := id :: outcomes.terminalIds
    filesCompleted := outcomes.filesCompleted + 1 }

/-- `fail`, with its return value. -/
def fail (preparation : Bool) : TransferOutcomes × Bool :=
  match outcomes.start id with
  | none => (outcomes, false)
  | some outcomes =>
    ({ outcomes with
      failedFiles := outcomes.failedFiles + 1
      preparationFailedFiles :=
        if preparation then outcomes.preparationFailedFiles +
          1 else outcomes.preparationFailedFiles },
      true)

/-- `skip`; `finalization` is its stage. -/
def skip (bytes : Nat) (finalization : Bool) : TransferOutcomes :=
  match outcomes.start id with
  | none => outcomes
  | some outcomes =>
    let outcomes := { outcomes with
      skippedFiles := outcomes.skippedFiles + 1
      skippedBytes := outcomes.skippedBytes + bytes }
    if finalization then { outcomes with
      finalizationDuplicateBytes := outcomes.finalizationDuplicateBytes + bytes
      serverSkippedFiles := outcomes.serverSkippedFiles + 1
      serverSkippedBytes := outcomes.serverSkippedBytes + bytes }
    else { outcomes with avoidedBytes := outcomes.avoidedBytes + bytes }

def save (bytes : Nat) : TransferOutcomes :=
  match outcomes.start id with
  | none => outcomes
  | some outcomes =>
    { outcomes with
      uploadedFiles := outcomes.uploadedFiles + 1
      successfulUploadedBytes := outcomes.successfulUploadedBytes + bytes }

end TransferOutcomes

end LocalMediaTransfer
