import Mathlib.Tactic
import LocalMediaTransfer.Lib.LinkedMap
import LocalMediaTransfer.Ios.Upload.UploadRun

/-!
# The transfer screen

The result bookkeeping of `useTransferController` (`features/transfer/useTransferController.ts`):
statuses, result rows and totals, keyed by item, and the sweep over the selected assets that a fatal
error makes.  Progress, timers, metrics and the presentation of the screen are left out; a scheduled
update of the screen is a call of `flushUi`.

* `updateFileStatus` — one status update of an item.
* `markUnfinishedAsFailed` — the sweep over the assets.
* `reportFatalError`, `finish` — the end of a transfer.
-/

set_option autoImplicit false

namespace LocalMediaTransfer

open Lib

/-! ## Updates and rows -/

inductive FileStatus where
  | pending
  | uploading
  | success
  | error
  | skipped
  deriving DecidableEq

/-- `isTerminal`, `wasTerminal`. -/
def FileStatus.isTerminal (status : FileStatus) : Bool :=
  status = .success || status = .error || status = .skipped

inductive MediaType where
  | photo
  | video
  deriving DecidableEq

inductive MediaVariantRole where
  | originalPhoto
  | originalVideo
  | rawOriginal
  | jpegCompanion
  | livePhotoStill
  | livePhotoMotion
  | editedPhoto
  | editedVideo
  | editedLivePhotoStill
  | expoFallback
  | unknown
  deriving DecidableEq

inductive MediaComponentSemantics where
  | primary
  | optional
  deriving DecidableEq

/-- What the screen reads of a selected asset. -/
structure SelectedAsset extends MediaAsset where
  uri : String
  type : MediaType
  deriving DecidableEq

structure FileStatusUpdate where
  assetId : String
  itemId : Option String
  status : FileStatus
  transferFilename : String
  mediaRole : Option MediaVariantRole := none
  componentSemantics : Option MediaComponentSemantics := none
  message : Option String := none
  stage : Option TransferStage := none
  errorCode : Option TransferErrorCode := none
  deriving DecidableEq

/-- `a || b` on strings: an empty one counts as missing. -/
def orElse (a : Option String) (b : String) : String :=
  match a with
  | some a => if a = "" then b else a
  | none => b

/-- `itemId || assetId`. -/
def FileStatusUpdate.statusId (update : FileStatusUpdate) : String :=
  orElse update.itemId update.assetId

structure FileState where
  id : String
  assetId : Option String
  filename : String
  status : FileStatus
  thumbnailUri : Option String
  mediaType : Option MediaType
  msg : Option String
  mediaRole : Option MediaVariantRole := none
  componentSemantics : Option MediaComponentSemantics := none
  stage : Option TransferStage := none
  errorCode : Option TransferErrorCode := none
  deriving DecidableEq

/-- `summaryRef`. -/
structure TransferTotals where
  success : Nat := 0
  skipped : Nat := 0
  failed : Nat := 0
  deriving DecidableEq

def TransferTotals.sum (totals : TransferTotals) : Nat :=
  totals.success + totals.skipped + totals.failed

def TransferTotals.add (totals : TransferTotals) (status : FileStatus) : TransferTotals where
  success := totals.success + if status = .success then 1 else 0
  skipped := totals.skipped + if status = .skipped then 1 else 0
  failed := totals.failed + if status = .error then 1 else 0

namespace TransferText

def fatalErrorTitle : String := "Upload Fatal Error"
def unknownError : String := "Unknown error"
def unfinishedFileError : String := "Upload failed before this file completed."

end TransferText

/-- The refs of the hook and the state that the screen shows. -/
structure TransferScreen where
  assets : List SelectedAsset
  /-- `isActive()`: mounted and not cancelled. -/
  active : Bool := true
  finished : Bool := false
  statusById : LinkedMap String FileStatus := .empty
  resultById : LinkedMap String FileState := .empty
  recentFilesRef : List FileState := []
  summaryRef : TransferTotals := {}
  fileUiDirty : Bool := false
  totalTransferFiles : Nat
  summary : TransferTotals := {}
  recentFiles : List FileState := []
  resultList : List FileState := []
  completionSummary : Option UploadSummary := none
  isFinished : Bool := false
  alert : Option (String × String) := none

namespace TransferScreen

/-- The hook after its effect has run. -/
def start (assets : List SelectedAsset) : TransferScreen :=
  { assets, totalTransferFiles := assets.length }

variable (s : TransferScreen)

/-- `assetById.get`: the last asset of an ID, as `new Map` keeps it. -/
def assetById (id : String) : Option SelectedAsset :=
  s.assets.reverse.find? fun asset => asset.id = id

def filenameById (id : String) : Option String := (s.assetById id).map (·.filename)

/-- `[next, ...recentFiles.filter(item => item.id !== id)].slice(0, 60)`. -/
def remember (next : FileState) (recentFiles : List FileState) : List FileState :=
  (next :: recentFiles.filter fun item => item.id ≠ next.id).take 60

/-! ## Updates -/

/-- The row of an update. -/
def rowOf (update : FileStatusUpdate) : FileState where
  id := update.statusId
  assetId := some update.assetId
  filename :=
    orElse (some update.transferFilename) (orElse (s.filenameById update.assetId) update.assetId)
  status := update.status
  thumbnailUri := (s.assetById update.assetId).map (·.uri)
  mediaType := (s.assetById update.assetId).map (·.type)
  msg := update.message
  mediaRole := update.mediaRole
  componentSemantics := update.componentSemantics
  stage := update.stage
  errorCode := update.errorCode

/-- Whether a status is there and terminal. -/
def isDone (status : Option FileStatus) : Bool := status.any FileStatus.isTerminal

/-- `updateFileStatus`. -/
def updateFileStatus (update : FileStatusUpdate) : TransferScreen :=
  if !s.active || s.finished then s
  else
    let previous := s.statusById.get? update.statusId
    let statusById := s.statusById.set update.statusId update.status
    { s with
      statusById
      totalTransferFiles :=
        if previous = none then max s.totalTransferFiles statusById.size else s.totalTransferFiles
      summaryRef :=
        if update.status.isTerminal && !isDone previous then
          s.summaryRef.add update.status
        else s.summaryRef
      resultById := s.resultById.set update.statusId (s.rowOf update)
      recentFilesRef := remember (s.rowOf update) s.recentFilesRef
      fileUiDirty := true }

/-- The updates of a transfer, one after the other. -/
def play (updates : List FileStatusUpdate) : TransferScreen :=
  updates.foldl updateFileStatus s

/-! ## The end of a transfer -/

def flushUi : TransferScreen :=
  if !s.active then s
  else if s.fileUiDirty then
    { s with fileUiDirty := false, summary := s.summaryRef, recentFiles := s.recentFilesRef }
  else s

/-- `finish`, with its return value. -/
def finish (uploadSummary : Option UploadSummary) : TransferScreen × Bool :=
  if !s.active || s.finished then (s, false)
  else
    let s := { s with finished := true }.flushUi
    ({ s with
        resultList := s.resultById.values
        completionSummary := uploadSummary.or s.completionSummary
        totalTransferFiles :=
          uploadSummary.elim s.totalTransferFiles fun summary =>
            max s.totalTransferFiles summary.expandedFiles
        isFinished := true }, true)

/-- The row that the sweep makes for an asset. -/
def failedRow (asset : SelectedAsset) (message : String) : FileState where
  id := asset.id
  assetId := some asset.id
  filename := orElse (s.filenameById asset.id) asset.filename
  status := .error
  thumbnailUri := some asset.uri
  mediaType := some asset.type
  msg := some message

/-- The loop of `markUnfinishedAsFailed`, with its count `newlyFailed`. -/
def markAssets (message : String) :
    List SelectedAsset → TransferScreen → Nat → TransferScreen × Nat
  | [], s, newlyFailed => (s, newlyFailed)
  | asset :: rest, s, newlyFailed =>
    if isDone (s.statusById.get? asset.id) then markAssets message rest s newlyFailed
    else
      let next := s.failedRow asset message
      markAssets message rest
        { s with
          statusById := s.statusById.set asset.id .error
          resultById := s.resultById.set asset.id next
          recentFilesRef := remember next s.recentFilesRef }
        (newlyFailed + 1)

def markUnfinishedAsFailed (message : String) : TransferScreen :=
  let (s', newlyFailed) := markAssets message s.assets s 0
  if 0 < newlyFailed then
    { s' with summaryRef := { s'.summaryRef with failed := s'.summaryRef.failed + newlyFailed } }
  else s'

/-- `reportFatalError`; `error` is the message of an `Error`, `none` for any other value. -/
def reportFatalError (error : Option String) (uploadSummary : Option UploadSummary) :
    TransferScreen :=
  if !s.active || s.finished then s
  else
    let message := error.getD TransferText.unknownError
    let marked := s.markUnfinishedAsFailed (orElse (some message) TransferText.unfinishedFileError)
    let (s', first) := { marked with fileUiDirty := true }.finish uploadSummary
    if first then { s' with alert := some (TransferText.fatalErrorTitle, message) } else s'

end TransferScreen

end LocalMediaTransfer
