import LocalMediaTransfer.Lib.Run
import LocalMediaTransfer.Server.Json
import LocalMediaTransfer.Server.Unicode

/-!
# The history of transfers

Model of `TransferHistoryStore` (`history/TransferHistoryStore.cpp`) and of
`PipeServer::sendTransferHistory` (`ipc/PipeServer.cpp`).  A session is kept with its files, which
SQLite deletes with it.

* `sessionOf` — the row that a payload is stored as; `recordSession` — storing it.
* `transferHistoryMessage` — what the pipe server builds from `recentSessionsJson`.
* `historyStep` — payloads and clears in any order; `stored_of_run` — where rows come from.
-/

set_option autoImplicit false

namespace LocalMediaTransfer

open Lib

/-- A row of `session_files`. -/
structure HistoryFile where
  id : ByteString
  name : ByteString
  savedName : ByteString
  size : Int
  outcome : ByteString
  matchedName : ByteString
  duplicateStage : ByteString
  avoidedBytes : Int
  deriving DecidableEq

/-- A row of `sessions`, with its files. -/
structure HistorySession where
  sessionId : ByteString
  completedAt : Int
  clientIp : ByteString
  selectedFiles : Int
  uploadedFiles : Int
  skippedFiles : Int
  failedFiles : Int
  selectedBytes : Int
  selectedMediaBytes : Int
  additionalComponentsBytes : Int
  selectedMediaFiles : Int
  additionalComponentsFiles : Int
  uploadedBytes : Int
  skippedBytes : Int
  avoidedBytes : Int
  finalizationDuplicateBytes : Int
  checkDurationMs : Int
  uploadDurationMs : Int
  totalDurationMs : Int
  averageSpeedMBps : Rat
  peakSpeedMBps : Rat
  retries : Int
  selectedAssets : Int
  expandedFiles : Int
  completionStatus : ByteString
  files : List HistoryFile
  deriving DecidableEq

/-- `TransferLimits::MaxQueuedFiles` of the receiver. -/
def MaxHistoryFiles : Nat := 1000

/-- How many sessions the table keeps. -/
def MaxHistorySessions : Nat := 200

/-- `maxGuiHistoryEntries`. -/
def maxGuiHistoryEntries : Nat := 120

/-- `sqlite3_bind_text` with length -1 ends at a NUL. -/
def sqlText (value : ByteString) : ByteString := value.takeWhile (· != 0)

/-- One element of `files`; `none` when a conversion throws. -/
def historyFileOf (item : Json) : Option HistoryFile := do
  let id ← item.value Json.getString "id" []
  let original ← item.value Json.getString "name" []
  let saved ← item.value Json.getString "savedName" original
  let outcome ← item.value Json.getString "outcome" (ascii "failed")
  let size ← item.value Json.getInt64 "size" 0
  let matched ← item.value Json.getString "matchedName" []
  let duplicateStage ← item.value Json.getString "duplicateStage" []
  let avoidedBytes ← item.value Json.getInt64 "avoidedBytes" 0
  return {
    id := sqlText id
    name := sqlText original
    savedName := sqlText saved
    size
    outcome := sqlText outcome
    matchedName := sqlText matched
    duplicateStage := sqlText duplicateStage
    avoidedBytes }

/-- `INSERT OR REPLACE INTO session_files`. -/
def insertFile (files : List HistoryFile) (file : HistoryFile) : List HistoryFile :=
  files.filter (·.id != file.id) ++ [file]

/-- The elements of `files`, when there are not too many. -/
def historyItems : Json → Option (List Json)
  | .array items => if items.length ≤ MaxHistoryFiles then some items else none
  | _ => none

/-- The row of a payload; `none` when `recordSession` throws. -/
def sessionOf (payload : Json) (clientIp : ByteString) : Option HistorySession := do
  let sessionId ← payload.value Json.getString "sessionId" []
  guard (sessionId ≠ [])
  let files ← payload.value some "files" (.array [])
  let items ← historyItems files
  let completedAt ← payload.value Json.getInt64 "completedAt" 0
  let selectedFiles ← payload.value Json.getInt "selectedFiles" 0
  let uploadedFiles ← payload.value Json.getInt "uploadedFiles" 0
  let skippedFiles ← payload.value Json.getInt "skippedFiles" 0
  let failedFiles ← payload.value Json.getInt "failedFiles" 0
  let selectedBytes ← payload.value Json.getInt64 "selectedBytes" 0
  let uploadedBytes ← payload.value Json.getInt64 "uploadedBytes" 0
  let skippedBytes ← payload.value Json.getInt64 "skippedBytes" 0
  let selectedMediaBytes ← payload.value Json.getInt64 "selectedMediaBytes" selectedBytes
  let additionalComponentsBytes ← payload.value Json.getInt64 "additionalComponentsBytes" 0
  let selectedMediaFiles ← payload.value Json.getInt "selectedMediaFiles" selectedFiles
  let additionalComponentsFiles ← payload.value Json.getInt "additionalComponentsFiles" 0
  let avoidedBytes ← payload.value Json.getInt64 "avoidedBytes" 0
  let finalizationDuplicateBytes ← payload.value Json.getInt64 "finalizationDuplicateBytes" 0
  let checkDurationMs ← payload.value Json.getInt64 "checkDurationMs" 0
  let uploadDurationMs ← payload.value Json.getInt64 "uploadDurationMs" 0
  let totalDurationMs ← payload.value Json.getInt64 "totalDurationMs" 0
  let averageSpeedMBps ← payload.value Json.getDouble "averageSpeedMBps" 0
  let peakSpeedMBps ← payload.value Json.getDouble "peakSpeedMBps" 0
  let retries ← payload.value Json.getInt "retries" 0
  let selectedAssets ← payload.value Json.getInt "selectedAssets" 0
  let expandedFiles ← payload.value Json.getInt "expandedFiles" selectedFiles
  let completionStatus ← payload.value Json.getString "completionStatus" (ascii "completed")
  let rows ← items.mapM historyFileOf
  return {
    sessionId := sqlText sessionId
    completedAt
    clientIp := sqlText clientIp
    selectedFiles, uploadedFiles, skippedFiles, failedFiles, selectedBytes, selectedMediaBytes
    additionalComponentsBytes, selectedMediaFiles, additionalComponentsFiles, uploadedBytes
    skippedBytes, avoidedBytes, finalizationDuplicateBytes, checkDurationMs, uploadDurationMs
    totalDurationMs, averageSpeedMBps, peakSpeedMBps, retries, selectedAssets, expandedFiles
    completionStatus := sqlText completionStatus
    files := rows.foldl insertFile [] }

/-- `ORDER BY completed_at DESC`; SQLite orders sessions of one time as it likes. -/
structure SqlOrder where
  sort : List HistorySession → List HistorySession
  perm : ∀ rows, (sort rows).Perm rows
  sorted : ∀ rows, (sort rows).Pairwise fun a b => b.completedAt ≤ a.completedAt

/-- The table. -/
abbrev HistorySessions := List HistorySession

/-- `recordSession`; `none` when it throws and the transaction is rolled back. -/
def recordSession (order : SqlOrder) (sessions : HistorySessions) (payload : Json)
    (clientIp : ByteString) : Option HistorySessions :=
  (sessionOf payload clientIp).map fun row =>
    let sessions := sessions.filter (·.sessionId != row.sessionId) ++ [row]
    let dropped := (order.sort sessions).drop MaxHistorySessions
    sessions.filter fun row => !dropped.any (·.sessionId == row.sessionId)

/-- `dump` throws on text that is not UTF-8. -/
def isUtf8 (text : ByteString) : Bool := (decodeUtf8 text).isSome

/-- The members of a session but for its files. -/
def HistorySession.members (row : HistorySession) : List (ByteString × Json) :=
  [(ascii "sessionId", .string row.sessionId), (ascii "completedAt", .integer row.completedAt),
    (ascii "clientIp", .string row.clientIp), (ascii "selectedFiles", .integer row.selectedFiles),
    (ascii "uploadedFiles", .integer row.uploadedFiles),
    (ascii "skippedFiles", .integer row.skippedFiles),
    (ascii "failedFiles", .integer row.failedFiles),
    (ascii "selectedBytes", .integer row.selectedBytes),
    (ascii "selectedMediaBytes", .integer row.selectedMediaBytes),
    (ascii "additionalComponentsBytes", .integer row.additionalComponentsBytes),
    (ascii "selectedMediaFiles", .integer row.selectedMediaFiles),
    (ascii "additionalComponentsFiles", .integer row.additionalComponentsFiles),
    (ascii "uploadedBytes", .integer row.uploadedBytes),
    (ascii "skippedBytes", .integer row.skippedBytes),
    (ascii "avoidedBytes", .integer row.avoidedBytes),
    (ascii "finalizationDuplicateBytes", .integer row.finalizationDuplicateBytes),
    (ascii "checkDurationMs", .integer row.checkDurationMs),
    (ascii "uploadDurationMs", .integer row.uploadDurationMs),
    (ascii "totalDurationMs", .integer row.totalDurationMs),
    (ascii "averageSpeedMBps", .floating row.averageSpeedMBps),
    (ascii "peakSpeedMBps", .floating row.peakSpeedMBps), (ascii "retries", .integer row.retries),
    (ascii "selectedAssets", .integer row.selectedAssets),
    (ascii "expandedFiles", .integer row.expandedFiles),
    (ascii "completionStatus", .string row.completionStatus)]

def HistoryFile.toJson (file : HistoryFile) : Json :=
  .object [(ascii "id", .string file.id), (ascii "name", .string file.name),
    (ascii "savedName", .string file.savedName), (ascii "size", .integer file.size),
    (ascii "outcome", .string file.outcome), (ascii "matchedName", .string file.matchedName),
    (ascii "duplicateStage", .string file.duplicateStage),
    (ascii "avoidedBytes", .integer file.avoidedBytes)]

def HistorySession.toJson (row : HistorySession) : Json :=
  .object (row.members ++ [(ascii "files", .array (row.files.map HistoryFile.toJson))])

def HistoryFile.dumps (file : HistoryFile) : Bool :=
  isUtf8 file.id && isUtf8 file.name && isUtf8 file.savedName && isUtf8 file.outcome &&
    isUtf8 file.matchedName && isUtf8 file.duplicateStage

def HistorySession.dumps (row : HistorySession) : Bool :=
  isUtf8 row.sessionId && isUtf8 row.clientIp && isUtf8 row.completionStatus &&
    row.files.all HistoryFile.dumps

/-- `recentSessionsJson`; `none` when `dump` throws. -/
def recentSessionsJson (order : SqlOrder) (sessions : HistorySessions) (limit : Int) :
    Option Json :=
  let rows := (order.sort sessions).take (max 1 (min limit MaxHistorySessions)).toNat
  if rows.all HistorySession.dumps then some (.array (rows.map HistorySession.toJson)) else none

/-- `session.erase("files")`. -/
def eraseFiles : Json → Json
  | .object members => .object (members.filter fun m => m.1 != ascii "files")
  | value => value

/-- The message that `sendTransferHistory` sends. -/
def sendTransferHistory : Json → Option Json
  | .array sessions =>
      some (.object [(ascii "type", .string (ascii "transfer_history")),
        (ascii "data", .array ((sessions.take maxGuiHistoryEntries).map eraseFiles))])
  | _ => none

/-- `sendTransferHistory(recentSessionsJson())`. -/
def transferHistoryMessage (order : SqlOrder) (sessions : HistorySessions) : Option Json :=
  (recentSessionsJson order sessions 200).bind sendTransferHistory

/-! ## Runs -/

structure HistoryState where
  sessions : HistorySessions := []
  /-- The accepted payloads. -/
  log : List (Json × ByteString) := []

inductive HistoryLabel where
  | record (payload : Json) (clientIp : ByteString)
  | clear

def historyStep (order : SqlOrder) (s : HistoryState) : HistoryLabel → Option HistoryState
  | .record payload clientIp =>
      (recordSession order s.sessions payload clientIp).map fun sessions =>
        { sessions, log := s.log ++ [(payload, clientIp)] }
  | .clear => some { s with sessions := [] }

/-- A run of accepted payloads and of clears, from an empty table. -/
abbrev HistoryRun (order : SqlOrder) : HistoryState → HistoryState → Prop :=
  Run (historyStep order) fun _ _ => True

variable {order : SqlOrder} {s : HistoryState}

/-- Every stored session is the row of an accepted payload. -/
def Stored (s : HistoryState) : Prop :=
  ∀ row ∈ s.sessions, ∃ entry ∈ s.log, sessionOf entry.1 entry.2 = some row

/-- **What storing a payload adds.** -/
theorem mem_recordSession {sessions sessions' : HistorySessions} {payload : Json}
    {clientIp : ByteString} (h : recordSession order sessions payload clientIp = some sessions') :
    ∃ row, sessionOf payload clientIp = some row ∧
      ∀ other ∈ sessions', other = row ∨ other ∈ sessions := by
  unfold recordSession at h
  cases hrow : sessionOf payload clientIp with
  | none =>
    rw [hrow] at h
    cases h
  | some row =>
    rw [hrow, Option.map_some, Option.some.injEq] at h
    dsimp only at h
    refine ⟨row, rfl, fun other hother => ?_⟩
    rw [← h] at hother
    rw [List.mem_filter, List.mem_append, List.mem_filter, List.mem_singleton] at hother
    rcases hother.1 with hold | hnew
    · exact .inr hold.1
    · exact .inl hnew

theorem stored_of_run (hrun : HistoryRun order {} s) : Stored s := by
  refine hrun.invariant (I := Stored) (fun row hrow => absurd hrow List.not_mem_nil)
    fun t l u h _ hst => ?_
  cases l with
  | record payload clientIp =>
    obtain ⟨sessions, hrecord, rfl⟩ := Option.map_eq_some_iff.mp hst
    obtain ⟨row, hrow, hmem⟩ := mem_recordSession hrecord
    intro other hother
    rcases hmem other hother with rfl | hold
    · exact ⟨(payload, clientIp), List.mem_append_right _ (List.mem_singleton.mpr rfl), hrow⟩
    · obtain ⟨entry, hentry, heq⟩ := h other hold
      exact ⟨entry, List.mem_append_left _ hentry, heq⟩
  | clear =>
    cases hst
    exact fun row hrow => absurd hrow List.not_mem_nil

end LocalMediaTransfer
