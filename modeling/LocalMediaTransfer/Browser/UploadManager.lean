import LocalMediaTransfer.Lib.Run

/-!
# The upload queue of the browser client

`static/js/upload/manager.js`, `workers.js` and `preflight.js`: the file queue, the runs of
`uploadFiles` and their counters.  A step is what the page does between two awaits; the environment
chooses the answers of the receiver and the progress events.  Speeds, timers and the display are
left out.

* `addFiles`, `resetFiles`, `requestRun`, `beginRun`, `preflight`, `takeNext`, `progress`,
  `succeed`, `fail`, `finishRun` — the steps.
* `runDuplicatePreflight` — the loop of `DuplicatePreflight.run` over the verified files.
* `transferHistory` — what `submitTransferHistory` sends.
-/

set_option autoImplicit false

namespace LocalMediaTransfer.Browser

/-- What the receiver answers to an upload. -/
structure ServerResult where
  skipped : Bool
  filename : Option String
  deriving DecidableEq

/-- An entry of `fileQueue`. -/
structure QueuedFile where
  id : String
  name : String
  size : Nat
  running : Bool := false
  done : Bool := false
  failed : Bool := false
  skipped : Bool := false
  preflightSkipped : Bool := false
  uploadedBytes : Nat := 0
  completedBytes : Nat := 0
  serverResult : Option ServerResult := none
  deriving DecidableEq

inductive Outcome where
  | failed
  | skipped
  | duplicateAfterUpload
  | uploaded
  deriving DecidableEq

structure HistoryFile where
  id : String
  name : String
  savedName : String
  size : Nat
  outcome : Outcome
  deriving DecidableEq

/-- The payload of `submitTransferHistory`, without the times and the speeds. -/
structure TransferHistory where
  selectedFiles : Nat
  uploadedFiles : Nat
  skippedFiles : Nat
  failedFiles : Nat
  selectedBytes : Nat
  uploadedBytes : Nat
  skippedBytes : Nat
  files : List HistoryFile
  deriving DecidableEq

/-- Where `worker()` stands; `wasFailedBefore` is the local variable of `uploadSingle`. -/
inductive Worker where
  | idle
  | uploading (index : Nat) (wasFailedBefore : Bool)
  | ended
  deriving DecidableEq

/-- The awaits of `uploadFiles`; `idle` when none is under way. -/
inductive RunPhase where
  | idle
  /-- It awaits `configReady`. -/
  | configuring
  /-- It awaits the duplicate preflight. -/
  | checking
  /-- It awaits the workers. -/
  | uploading
  /-- It awaits the cleanup. -/
  | verifying
  deriving DecidableEq

structure UploadManager where
  concurrency : { n : Nat // 0 < n }
  fileQueue : List QueuedFile := []
  phase : RunPhase := .idle
  workers : List Worker := []
  nextUploadIndex : Nat := 0
  successCount : Nat := 0
  errorCount : Nat := 0
  totalBytes : Nat := 0
  skippedBytes : Nat := 0
  networkBytesUploaded : Nat := 0
  globalUploadedBytes : Nat := 0
  globalCompletedBytes : Nat := 0
  /-- The payloads submitted. -/
  histories : List TransferHistory := []
  deriving DecidableEq

/-! ## Duplicate preflight -/

inductive VerifyAction where
  | skip
  | uploadNameConflict
  | upload
  deriving DecidableEq

/-- What `DuplicatePreflight.run` gets: the answer to the metadata request, by file ID whether
hashing is required; whether every candidate could be hashed; and the answer to the verification.
A request that fails has no answer. -/
structure PreflightAnswers where
  initial : Option (List (String × Bool))
  hashed : Bool
  verified : Option (List (String × VerifyAction × Option String))

/-- The value of a key in `new Map(entries)`. -/
def mapGet {β : Type} (entries : List (String × β)) (key : String) : Option β :=
  (entries.reverse.find? fun entry => entry.1 = key).map (·.2)

namespace PreflightAnswers

variable (answers : PreflightAnswers)

/-- `candidates` holds the file. -/
def hashRequired (file : QueuedFile) : Bool :=
  !file.done && ((answers.initial.bind fun files => mapGet files file.id) == some true)

/-- The receiver's filename, when the verification says `skip`. -/
def skip? (file : QueuedFile) : Option (Option String) :=
  if answers.hashRequired file then
    match answers.verified.bind fun files => mapGet files file.id with
    | some (.skip, filename) => some filename
    | _ => none
  else none

/-- `run` throws before it changes anything. -/
def throws (queue : List QueuedFile) : Bool :=
  queue.any (fun file => !file.done) &&
    (answers.initial.isNone ||
      (queue.any answers.hashRequired && (!answers.hashed || answers.verified.isNone)))

end PreflightAnswers

/-- The counters that `markFileCompletedWithoutUpload` and the verification loop move. -/
structure PreflightCounts where
  globalCompletedBytes : Nat
  skippedFiles : Nat
  skippedBytes : Nat

/-- The changes to a file that the receiver holds already. -/
def QueuedFile.skip (file : QueuedFile) (filename : Option String) : QueuedFile :=
  { file with
    done := true
    skipped := true
    preflightSkipped := true
    uploadedBytes := 0
    completedBytes := file.size
    serverResult := some { skipped := true, filename } }

/-- The loop of `DuplicatePreflight.run` over the candidates. -/
def runDuplicatePreflight (answers : PreflightAnswers) :
    List QueuedFile → PreflightCounts → List QueuedFile × PreflightCounts
  | [], counts => ([], counts)
  | file :: rest, counts =>
    match answers.skip? file with
    | some filename =>
      let result := runDuplicatePreflight answers rest
        { globalCompletedBytes := counts.globalCompletedBytes + (file.size - file.completedBytes)
          skippedFiles := counts.skippedFiles + 1
          skippedBytes := counts.skippedBytes + file.size }
      (file.skip filename :: result.1, result.2)
    | none =>
      let result := runDuplicatePreflight answers rest counts
      (file :: result.1, result.2)

/-! ## History -/

namespace QueuedFile

variable (file : QueuedFile)

/-- `uploadedItems` holds the file. -/
def isUploaded : Bool := file.done && !file.failed && !file.preflightSkipped && !file.skipped

/-- `skippedItems` holds the file. -/
def isSkipped : Bool := file.preflightSkipped || file.skipped

def outcome : Outcome :=
  if file.failed then .failed
  else if file.preflightSkipped then .skipped
  else if file.skipped then .duplicateAfterUpload
  else .uploaded

/-- `file.serverResult?.filename || file.name` -/
def savedName : String :=
  match file.serverResult.bind (·.filename) with
  | some filename => if filename = "" then file.name else filename
  | none => file.name

def historyFile : HistoryFile where
  id := file.id
  name := file.name
  savedName := file.savedName
  size := file.size
  outcome := file.outcome

/-- The reset of a file that failed, at the start of a run. -/
def requeue : QueuedFile :=
  if file.done && file.failed then
    { file with done := false, running := false, uploadedBytes := 0, completedBytes := 0 }
  else file

end QueuedFile

namespace UploadManager

variable (s : UploadManager)

/-- `submitTransferHistory`. -/
def transferHistory : TransferHistory where
  selectedFiles := s.fileQueue.length
  uploadedFiles := (s.fileQueue.filter (·.isUploaded)).length
  skippedFiles := (s.fileQueue.filter (·.isSkipped)).length
  failedFiles := s.errorCount
  selectedBytes := s.totalBytes
  uploadedBytes := ((s.fileQueue.filter (·.isUploaded)).map (·.size)).sum
  skippedBytes := ((s.fileQueue.filter (·.isSkipped)).map (·.size)).sum
  files := s.fileQueue.map (·.historyFile)

/-! ## Steps -/

/-- `addFiles`, with an ID for each file. -/
def addFiles (files : List (String × String × Nat)) : UploadManager :=
  if s.phase ≠ .idle then s
  else
    { s with
      fileQueue := s.fileQueue ++ files.map fun (id, name, size) => { id, name, size }
      totalBytes := s.totalBytes + (files.map fun file => file.2.2).sum }

def resetFiles : UploadManager :=
  if s.phase ≠ .idle then s
  else
    { s with
      fileQueue := []
      nextUploadIndex := 0
      successCount := 0
      errorCount := 0
      totalBytes := 0
      skippedBytes := 0
      networkBytesUploaded := 0
      globalUploadedBytes := 0
      globalCompletedBytes := 0 }

/-- `uploadFiles`, up to its first await. -/
def requestRun : UploadManager :=
  if s.phase ≠ .idle then s
  else if s.fileQueue.isEmpty then s
  else { s with phase := .configuring }

/-- The start of a run, when the configuration is there. -/
def beginRun : UploadManager :=
  let fileQueue := s.fileQueue.map (·.requeue)
  if fileQueue.all (·.done) then { s with fileQueue, phase := .idle }
  else
    { s with
      fileQueue
      phase := .checking
      nextUploadIndex := 0
      skippedBytes := 0
      networkBytesUploaded := 0
      globalUploadedBytes := 0
      globalCompletedBytes := 0 }

/-- The end of the check: `uploadFiles` goes on with its workers, if a file is left. -/
def startWorkers : UploadManager :=
  if s.fileQueue.any (fun file => !file.done) then
    { s with
      phase := .uploading
      nextUploadIndex := 0
      workers := List.replicate s.concurrency .idle }
  else { s with phase := .verifying, nextUploadIndex := 0 }

/-- The duplicate preflight, and what `uploadFiles` makes of its result. -/
def preflight (answers : PreflightAnswers) : UploadManager :=
  if answers.throws s.fileQueue then s.startWorkers
  else
    let result := runDuplicatePreflight answers s.fileQueue
      { globalCompletedBytes := s.globalCompletedBytes, skippedFiles := 0, skippedBytes := 0 }
    ({ s with
      fileQueue := result.1
      skippedBytes := result.2.skippedBytes
      globalCompletedBytes := max result.2.globalCompletedBytes result.2.skippedBytes
      successCount := s.successCount + result.2.skippedFiles }).startWorkers

/-- The file at an index changes. -/
def updateFile (index : Nat) (f : QueuedFile → QueuedFile) : UploadManager :=
  { s with fileQueue := s.fileQueue.modify index f }

def setWorker (w : Nat) (worker : Worker) : UploadManager :=
  { s with workers := s.workers.set w worker }

/-- The search of `worker()` for a file, from an index on. -/
def nextCandidate : List QueuedFile → Nat → Option Nat
  | [], _ => none
  | file :: rest, index =>
    if file.running || file.done then nextCandidate rest (index + 1) else some index

/-- The start of `uploadSingle`. -/
def startUpload (file : QueuedFile) : QueuedFile :=
  { file with running := true, failed := false, uploadedBytes := 0, completedBytes := 0 }

/-- A worker takes the next file, up to the start of its request, or ends. -/
def takeNext (w : Nat) : UploadManager :=
  match nextCandidate (s.fileQueue.drop s.nextUploadIndex) s.nextUploadIndex with
  | some index =>
    let wasFailedBefore := (s.fileQueue[index]?.map (·.failed)).getD false
    (({ s with nextUploadIndex := index + 1 }).updateFile index startUpload).setWorker w
      (.uploading index wasFailedBefore)
  | none => ({ s with nextUploadIndex := s.fileQueue.length }).setWorker w .ended

/-- `safeLoaded`: `none` is a number that is not finite. -/
def safeLoaded (loadedBytes : Option Int) (size : Nat) : Nat :=
  match loadedBytes with
  | some loaded => (max 0 (min loaded size)).toNat
  | none => 0

/-- `updateFileTransferProgress` for the file at an index. -/
def updateFileTransferProgress (index : Nat) (file : QueuedFile) (loadedBytes : Option Int) :
    UploadManager :=
  let loaded := safeLoaded loadedBytes file.size
  let nextUploaded := max file.uploadedBytes loaded
  let nextCompleted := max file.completedBytes loaded
  let globalUploadedBytes := s.globalUploadedBytes + (nextUploaded - file.uploadedBytes)
  ({ s with
    globalUploadedBytes
    networkBytesUploaded :=
      if file.uploadedBytes < nextUploaded then globalUploadedBytes else s.networkBytesUploaded
    globalCompletedBytes :=
      s.globalCompletedBytes + (nextCompleted - file.completedBytes) }).updateFile index
    fun file => { file with uploadedBytes := nextUploaded, completedBytes := nextCompleted }

/-- A progress event of the request of a worker. -/
def progress (w : Nat) (loadedBytes : Option Int) : Option UploadManager :=
  match s.workers[w]? with
  | some (.uploading index _) =>
    s.fileQueue[index]?.map fun file => s.updateFileTransferProgress index file loadedBytes
  | _ => none

/-- `uploadSingle` after a successful upload. -/
def succeed (w : Nat) (result : Option ServerResult) : Option UploadManager :=
  match s.workers[w]? with
  | some (.uploading index wasFailedBefore) =>
    s.fileQueue[index]?.map fun file =>
      let errorCount :=
        if wasFailedBefore && decide (0 < s.errorCount) then s.errorCount - 1 else s.errorCount
      let counted := ({ s with errorCount }).updateFileTransferProgress index file (some file.size)
      (({ counted with successCount := counted.successCount + 1 }).updateFile index
        fun file =>
          { file with
            serverResult := result
            skipped := (result.map ServerResult.skipped).getD false || file.skipped
            done := true
            running := false }).setWorker w .idle
  | _ => none

/-- `uploadSingle` after an error. -/
def fail (w : Nat) : Option UploadManager :=
  match s.workers[w]? with
  | some (.uploading index wasFailedBefore) =>
    s.fileQueue[index]?.map fun _ =>
      (({ s with
          errorCount :=
            if wasFailedBefore then s.errorCount else s.errorCount + 1 }).updateFile index
        fun file => { file with failed := true, done := true, running := false }).setWorker w .idle
  | _ => none

/-- All workers have ended. -/
def joinWorkers : UploadManager := { s with phase := .verifying, workers := [] }

/-- The end of a run: the history is submitted. -/
def finishRun : UploadManager :=
  { s with phase := .idle, histories := s.histories ++ [s.transferHistory] }

end UploadManager

inductive QueueAction where
  | addFiles (files : List (String × String × Nat))
  | resetFiles
  | uploadFiles
  | configured
  | preflight (answers : PreflightAnswers)
  | take (w : Nat)
  | progress (w : Nat) (loadedBytes : Option Int)
  | succeed (w : Nat) (result : Option ServerResult)
  | fail (w : Nat)
  | joined
  | finish

/-- The steps of the page. -/
def UploadManager.step (s : UploadManager) : QueueAction → Option UploadManager
  | .addFiles files => some (s.addFiles files)
  | .resetFiles => some s.resetFiles
  | .uploadFiles => some s.requestRun
  | .configured => if s.phase = .configuring then some s.beginRun else none
  | .preflight answers => if s.phase = .checking then some (s.preflight answers) else none
  | .take w => if s.workers[w]? = some .idle then some (s.takeNext w) else none
  | .progress w loadedBytes => s.progress w loadedBytes
  | .succeed w result => s.succeed w result
  | .fail w => s.fail w
  | .joined =>
    if s.phase = .uploading ∧ s.workers.all (· = .ended) then some s.joinWorkers else none
  | .finish => if s.phase = .verifying then some s.finishRun else none

def UploadManager.start (concurrency : { n : Nat // 0 < n }) : UploadManager := { concurrency }

end LocalMediaTransfer.Browser
