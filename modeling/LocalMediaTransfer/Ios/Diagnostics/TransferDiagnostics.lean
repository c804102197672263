import Mathlib.Tactic
import LocalMediaTransfer.Lib.Table

/-!
# The diagnostic report of a transfer

`services/diagnostics/TransferDiagnostics.ts` and `DiagnosticAggregation.ts`: the window records and
the counters that `beginWindow` and `checkpointWindow` maintain.  Numbers are exact.  The
asynchronous writing of the report is left out; `revision` counts the requests for it.

* `beginWindow`, `checkpointWindow`, `accumulatePreflightSummary` — the operations.
* `DiagnosticCall`, `afterCalls` — sequences of calls on a new report.
-/

set_option autoImplicit false

namespace LocalMediaTransfer

open Lib

/-- `keyof DuplicatePreflightMetrics`. -/
inductive PreflightMetric where
  | componentsConsidered
  | bypassedFiles
  | metadataUploadFiles
  | metadataFallbackFiles
  | receiverCandidateFiles
  | localCandidateFiles
  | hashCandidateFiles
  | hashedFiles
  | hashAttemptCount
  | hashCacheHits
  | hashFailureFiles
  | hashedBytes
  | hashedThenUploadedFiles
  | hashedThenUploadedBytes
  | receiverSkippedFiles
  | receiverSkippedBytes
  | outgoingSkippedFiles
  | outgoingSkippedBytes
  | metadataRequestCount
  | metadataFailureCount
  | verificationRequestCount
  | verificationFailureCount
  | verificationInconclusiveFiles
  | metadataDurationMs
  | hashingDurationMs
  | verificationDurationMs
  | candidateResolutionDurationMs
  | totalHashWorkerDurationMs
  | longestHashDurationMs
  | largestHashedFileBytes
  | nonCandidateFilesBlockedByHash
  | nonCandidateBytesBlockedByHash
  | preparedBytesHeldDuringPreflight
  | temporaryBytesHeldDuringPreflight
  deriving DecidableEq

abbrev DuplicatePreflightMetrics := PreflightMetric → ℚ

def emptyPreflightMetrics : DuplicatePreflightMetrics := fun _ => 0

/-- The keys over which `accumulatePreflightSummary` sums. -/
def summedMetrics : List PreflightMetric :=
  [.componentsConsidered, .bypassedFiles, .metadataUploadFiles, .metadataFallbackFiles,
    .receiverCandidateFiles, .localCandidateFiles, .hashCandidateFiles, .hashedFiles,
    .hashAttemptCount, .hashCacheHits, .hashFailureFiles, .hashedBytes, .hashedThenUploadedFiles,
    .hashedThenUploadedBytes, .receiverSkippedFiles, .receiverSkippedBytes, .outgoingSkippedFiles,
    .outgoingSkippedBytes, .metadataRequestCount, .metadataFailureCount, .verificationRequestCount,
    .verificationFailureCount, .verificationInconclusiveFiles, .metadataDurationMs,
    .hashingDurationMs, .verificationDurationMs, .candidateResolutionDurationMs,
    .totalHashWorkerDurationMs, .nonCandidateFilesBlockedByHash, .nonCandidateBytesBlockedByHash,
    .preparedBytesHeldDuringPreflight, .temporaryBytesHeldDuringPreflight]

/-- `DiagnosticWindowPreflight`, with the values it has when a window begins. -/
structure DiagnosticWindowPreflight where
  metrics : DuplicatePreflightMetrics := emptyPreflightMetrics
  allUploadWorkersIdleDuringPreflightMs : ℚ := 0
  queueDepthAtStart : ℚ := 0
  queueDepthAtEnd : ℚ := 0
  activeUploadWorkersAtStart : ℚ := 0
  activeUploadWorkersAtEnd : ℚ := 0

/-- `DiagnosticUploadTiming`, with the values of `emptyUploadTiming`. -/
structure DiagnosticUploadTiming where
  measuredFiles : ℚ := 0
  fileReadDurationMs : ℚ := 0
  httpRequestDurationMs : ℚ := 0
  interChunkGapDurationMs : ℚ := 0
  serverWriteDurationMs : ℚ := 0
  serverFinalizeDurationMs : ℚ := 0
  maxServerFinalizeDurationMs : ℚ := 0

inductive WindowStatus where
  | preparing
  | ready
  | enqueued
  deriving DecidableEq

/-- `DiagnosticWindow`. -/
structure DiagnosticWindow where
  windowIndex : Nat
  status : WindowStatus
  selectedCount : ℚ
  preparedCount : ℚ := 0
  failedCount : ℚ := 0
  discoveredBytes : ℚ := 0
  selectedMediaBytes : ℚ := 0
  additionalComponentsBytes : ℚ := 0
  selectedMediaFiles : ℚ := 0
  additionalComponentsFiles : ℚ := 0
  plannedUploadBytes : ℚ := 0
  preflightSkippedFiles : ℚ := 0
  preflightSkippedBytes : ℚ := 0
  appleFilenameCount : ℚ := 0
  fallbackFilenameCount : ℚ := 0
  startedElapsedMs : ℚ
  readyElapsedMs : Option ℚ := none
  enqueueCompletedElapsedMs : Option ℚ := none
  uploadCapacityWaitDurationMs : ℚ := 0
  uploadCapacityWaitCount : ℚ := 0
  preparationDurationMs : ℚ := 0
  filenameDurationMs : ℚ := 0
  preflightDurationMs : ℚ := 0
  preflight : Option DiagnosticWindowPreflight := none
  firstUploadStartedElapsedMs : Option ℚ := none
  uploadTiming : Option DiagnosticUploadTiming := none

/-- `DiagnosticPreflightSummary`, with the values of `emptyPreflightSummary`. -/
structure DiagnosticPreflightSummary where
  metrics : DuplicatePreflightMetrics := emptyPreflightMetrics
  windowCount : ℚ := 0
  totalWindowDurationMs : ℚ := 0
  maxWindowDurationMs : ℚ := 0
  windowsWithHashing : ℚ := 0
  windowsWithBlockedNonCandidates : ℚ := 0
  windowsWithAllUploadWorkersIdle : ℚ := 0
  allUploadWorkersIdleDuringPreflightMs : ℚ := 0
  maxPreparedBytesHeldDuringPreflight : ℚ := 0
  maxTemporaryBytesHeldDuringPreflight : ℚ := 0

/-- The part of `TransferDiagnosticReport` that the windows make up. -/
structure TransferDiagnosticReport where
  startedAt : ℚ
  updatedAt : ℚ
  preparedAssets : ℚ := 0
  expandedFiles : ℚ := 0
  preparedFiles : ℚ := 0
  discoveredBytes : ℚ := 0
  selectedMediaBytes : ℚ := 0
  additionalComponentsBytes : ℚ := 0
  selectedMediaFiles : ℚ := 0
  additionalComponentsFiles : ℚ := 0
  plannedUploadBytes : ℚ := 0
  preflightSkippedFiles : ℚ := 0
  preflightSkippedBytes : ℚ := 0
  filenameResolvedAppleFiles : ℚ := 0
  filenameFallbackFiles : ℚ := 0
  preflight : DiagnosticPreflightSummary := {}
  windows : List DiagnosticWindow := []

/-- `class TransferDiagnostics`. -/
structure TransferDiagnostics where
  report : TransferDiagnosticReport
  windowIndexById : Table Nat Nat := ∅
  revision : Nat := 0

/-- `Number(value)` of a boolean. -/
def number (value : Bool) : ℚ := if value then 1 else 0

namespace DiagnosticWindowPreflight

variable (preflight : DiagnosticWindowPreflight)

def hashes : Bool := decide (0 < preflight.metrics .hashedFiles)

def blocks : Bool := decide (0 < preflight.metrics .nonCandidateFilesBlockedByHash)

def idles : Bool :=
  preflight.blocks && decide (0 < preflight.allUploadWorkersIdleDuringPreflightMs)

end DiagnosticWindowPreflight

def accumulatePreflightSummary (summary : DiagnosticPreflightSummary)
    (current : DiagnosticWindowPreflight) (durationMs : ℚ)
    (previous : Option DiagnosticWindowPreflight) (previousDurationMs : ℚ) :
    DiagnosticPreflightSummary :=
  let before := previous.getD {}
  { metrics := fun key =>
      if key ∈ summedMetrics then
        summary.metrics key + (current.metrics key - before.metrics key)
      -- the other two keys are `longestHashDurationMs` and `largestHashedFileBytes`
      else max (summary.metrics key) (current.metrics key)
    windowCount := if previous.isNone then summary.windowCount + 1 else summary.windowCount
    totalWindowDurationMs := summary.totalWindowDurationMs + (durationMs - previousDurationMs)
    maxWindowDurationMs := max summary.maxWindowDurationMs durationMs
    windowsWithHashing :=
      summary.windowsWithHashing + (number current.hashes - number before.hashes)
    windowsWithBlockedNonCandidates :=
      summary.windowsWithBlockedNonCandidates + (number current.blocks - number before.blocks)
    windowsWithAllUploadWorkersIdle :=
      summary.windowsWithAllUploadWorkersIdle + (number current.idles - number before.idles)
    allUploadWorkersIdleDuringPreflightMs :=
      summary.allUploadWorkersIdleDuringPreflightMs +
        (current.allUploadWorkersIdleDuringPreflightMs -
          before.allUploadWorkersIdleDuringPreflightMs)
    maxPreparedBytesHeldDuringPreflight :=
      max summary.maxPreparedBytesHeldDuringPreflight
        (current.metrics .preparedBytesHeldDuringPreflight)
    maxTemporaryBytesHeldDuringPreflight :=
      max summary.maxTemporaryBytesHeldDuringPreflight
        (current.metrics .temporaryBytesHeldDuringPreflight) }

namespace TransferDiagnostics

variable (diagnostics : TransferDiagnostics)

/-- `constructor`, at the time `now`. -/
def new (now : ℚ) : TransferDiagnostics := { report := { startedAt := now, updatedAt := now } }

def elapsedMs (now : ℚ) : ℚ := max 0 (now - diagnostics.report.startedAt)

def queueWrite (now : ℚ) : TransferDiagnostics :=
  { diagnostics with
    report := { diagnostics.report with updatedAt := now }
    revision := diagnostics.revision + 1 }

/-- The record of a window that has begun. -/
def provisionalWindow (windowIndex : Nat) (selectedCount startedElapsedMs : ℚ) :
    DiagnosticWindow where
  windowIndex := windowIndex
  status := .preparing
  selectedCount := selectedCount
  startedElapsedMs := startedElapsedMs
  preflight := some {}
  uploadTiming := some {}

/-- `report.windows.push(record)`, and its position in the table. -/
def pushWindow (record : DiagnosticWindow) : TransferDiagnostics :=
  { diagnostics with
    report := { diagnostics.report with windows := diagnostics.report.windows ++ [record] }
    windowIndexById :=
      diagnostics.windowIndexById.insert record.windowIndex diagnostics.report.windows.length }

def beginWindow (windowIndex : Nat) (selectedCount now : ℚ) : TransferDiagnostics :=
  if (diagnostics.windowIndexById.lookup windowIndex).isSome then diagnostics
  else
    diagnostics.pushWindow
      (provisionalWindow windowIndex selectedCount (diagnostics.elapsedMs now))

/-- The record that a window has in the report. -/
def existing (windowIndex : Nat) : Option DiagnosticWindow :=
  (diagnostics.windowIndexById.lookup windowIndex).bind fun i => diagnostics.report.windows[i]?

/-- The record that a checkpoint writes. -/
def completedWindow (window : DiagnosticWindow) (now : ℚ) : DiagnosticWindow :=
  { window with
    status := .ready
    startedElapsedMs :=
      ((diagnostics.existing window.windowIndex).map (·.startedElapsedMs)).getD
        window.startedElapsedMs
    readyElapsedMs := some (window.readyElapsedMs.getD (diagnostics.elapsedMs now))
    preflight := some (window.preflight.getD {})
    uploadTiming := some (window.uploadTiming.getD {}) }

/-- What the report's counter loses of the window's previous record. -/
def before (windowIndex : Nat) (field : DiagnosticWindow → ℚ) : ℚ :=
  ((diagnostics.existing windowIndex).map field).getD 0

/-- The write of the record: in its place, or at the end. -/
def storeWindow (completedWindow : DiagnosticWindow) : TransferDiagnostics :=
  match diagnostics.windowIndexById.lookup completedWindow.windowIndex with
  | some existingIndex =>
    { diagnostics with
      report := { diagnostics.report with
        windows := diagnostics.report.windows.set existingIndex completedWindow } }
  | none => diagnostics.pushWindow completedWindow

/-- The counters after a checkpoint; `diagnostics` is the state before it. -/
def countWindow (completed : DiagnosticWindow) (report : TransferDiagnosticReport) :
    TransferDiagnosticReport :=
  let before := diagnostics.before completed.windowIndex
  let existing := diagnostics.existing completed.windowIndex
  let counted := existing.filter fun window => window.status ≠ .preparing
  { report with
    preparedFiles := report.preparedFiles + (completed.preparedCount - before (·.preparedCount))
    preparedAssets := report.preparedAssets + (completed.selectedCount - before (·.selectedCount))
    expandedFiles := report.expandedFiles + (completed.preparedCount + completed.failedCount -
      (before (·.preparedCount) + before (·.failedCount)))
    discoveredBytes :=
      report.discoveredBytes + (completed.discoveredBytes - before (·.discoveredBytes))
    selectedMediaBytes :=
      report.selectedMediaBytes + (completed.selectedMediaBytes - before (·.selectedMediaBytes))
    additionalComponentsBytes := report.additionalComponentsBytes +
      (completed.additionalComponentsBytes - before (·.additionalComponentsBytes))
    selectedMediaFiles :=
      report.selectedMediaFiles + (completed.selectedMediaFiles - before (·.selectedMediaFiles))
    additionalComponentsFiles := report.additionalComponentsFiles +
      (completed.additionalComponentsFiles - before (·.additionalComponentsFiles))
    plannedUploadBytes :=
      report.plannedUploadBytes + (completed.plannedUploadBytes - before (·.plannedUploadBytes))
    preflightSkippedFiles := report.preflightSkippedFiles +
      (completed.preflightSkippedFiles - before (·.preflightSkippedFiles))
    preflightSkippedBytes := report.preflightSkippedBytes +
      (completed.preflightSkippedBytes - before (·.preflightSkippedBytes))
    filenameResolvedAppleFiles := report.filenameResolvedAppleFiles +
      (completed.appleFilenameCount - before (·.appleFilenameCount))
    filenameFallbackFiles := report.filenameFallbackFiles +
      (completed.fallbackFilenameCount - before (·.fallbackFilenameCount))
    preflight := accumulatePreflightSummary report.preflight (completed.preflight.getD {})
      completed.preflightDurationMs (counted.bind (·.preflight))
      ((counted.map (·.preflightDurationMs)).getD 0) }

/-- `WINDOW_PERSIST_INTERVAL`. -/
def windowPersistInterval : Nat := 8

def checkpointWindow (window : DiagnosticWindow) (now : ℚ) : TransferDiagnostics :=
  let completed := diagnostics.completedWindow window now
  let stored := diagnostics.storeWindow completed
  let counted := { stored with report := diagnostics.countWindow completed stored.report }
  if (window.windowIndex + 1) % windowPersistInterval = 0 then counted.queueWrite now else counted

end TransferDiagnostics

/-! ## Sequences of calls -/

/-- A call, at the time `now`. -/
inductive DiagnosticCall where
  | beginWindow (windowIndex : Nat) (selectedCount now : ℚ)
  | checkpointWindow (window : DiagnosticWindow) (now : ℚ)

def TransferDiagnostics.call (diagnostics : TransferDiagnostics) :
    DiagnosticCall → TransferDiagnostics
  | .beginWindow windowIndex selectedCount now =>
    diagnostics.beginWindow windowIndex selectedCount now
  | .checkpointWindow window now => diagnostics.checkpointWindow window now

/-- The diagnostics of a run that starts at `now` and makes these calls. -/
def TransferDiagnostics.afterCalls (now : ℚ) (calls : List DiagnosticCall) : TransferDiagnostics :=
  calls.foldl TransferDiagnostics.call (.new now)

end LocalMediaTransfer
