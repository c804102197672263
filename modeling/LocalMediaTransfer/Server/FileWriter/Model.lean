import LocalMediaTransfer.Lib.Overwrite
import LocalMediaTransfer.Lib.Table
import LocalMediaTransfer.Server.Filename

/-!
# The file writer: state and critical sections

Model of `FileWriter` (`io/FileWriter.cpp`, `io/FileWriter.hpp`) with the streaming-hash part of
`HashEngine`.  Every definition here is one section that the source runs under a mutex, or one
stretch of code between two such sections that touches only what the calling thread owns; the
interleaving of sections is the business of `FileWriter.System`.

* `initFile` reserves, creates and registers a session under `m_mutex`.
* `rememberCompletedSessionLocked` appends to the completed-session cache and evicts.
* `checkChunk`, `commitChunk` are the two sections of `writeChunk` that read and update the handle.
* `collectAborted`, `retireTemporary` are the two halves of `abortMatching`.

One `initFile` call creates one write mutex, one `FinalizationState` and one temporary file with
a random 256-bit name that is created exclusively.  The three are identified by one `Ref`: the
file ID and a serial number that is never reused, which stands for the random names never
repeating.  For the same reason the temporary files and the destination files are kept apart,
although both lie in the upload directory.

Left out: logging, and the inventory database (`FileWriter.Publish` takes its answers as inputs).
-/

set_option autoImplicit false

namespace LocalMediaTransfer

open Lib

/-- `enum class ChunkWriteStatus`. -/
inductive ChunkWriteStatus where
  | success
  | alreadyAccepted
  | completed
  | finalizing
  | unknownFile
  | outOfOrder
  | sizeExceeded
  | storageError
  deriving DecidableEq, Repr

/-- `enum class FileFinalizeDisposition`. -/
inductive FileFinalizeDisposition where
  | saved
  | duplicate
  | nameConflict
  | finalizing
  | error
  deriving DecidableEq, Repr

/-- `struct FileFinalizeResult`. -/
structure FileFinalizeResult where
  disposition : FileFinalizeDisposition := .error
  filename : ByteString := []
  sha256 : ByteString := []
  deriving DecidableEq, Repr

/-- `enum class FilenameConflictPolicy`. -/
inductive FilenameConflictPolicy where
  | keepBoth
  | reject
  deriving DecidableEq, Repr

/-- `TransferLimits::MaxChunksPerFile`. -/
def MaxChunksPerFile : Nat := 10000

/-- `MaxCompletedSessions`. -/
def MaxCompletedSessions : Nat := 2048

/-- `uint64_t` addition and subtraction. -/
def add64 (a b : Nat) : Nat := (a + b) % 2 ^ 64

def sub64 (a b : Nat) : Nat := (a + (2 ^ 64 - b)) % 2 ^ 64

theorem add64_of_lt {a b : Nat} (h : a + b < 2 ^ 64) : add64 a b = a + b :=
  Nat.mod_eq_of_lt h

theorem sub64_of_le {a b : Nat} (hab : b ≤ a) (ha : a < 2 ^ 64) : sub64 a b = a - b := by
  unfold sub64
  omega

/-- `struct UploadLimits`; sizes and counts are 64-bit, times are steady-clock ticks. -/
structure UploadLimits where
  maxFileBytes : Nat := 107374182400
  maxReservedBytes : Nat := 128 * 1024 * 1024 * 1024
  maxOwnerBytes : Nat := 107374182400
  minFreeBytes : Nat := 256 * 1024 * 1024
  maxActiveFiles : Nat := 32
  maxOwnerFiles : Nat := 8
  idleTimeout : Nat := 30 * 60
  maxFileBytes_lt : maxFileBytes < 2 ^ 64 := by decide
  maxReservedBytes_lt : maxReservedBytes < 2 ^ 64 := by decide
  maxOwnerBytes_lt : maxOwnerBytes < 2 ^ 64 := by decide

/-- What the writer is built with, and what it takes from the machine: SHA-256 in lower-case
hex, the legacy code page, and `nameKey`, which maps two names to one key when the file system
takes them for the same file (NTFS ignores case). -/
structure WriterConfig where
  limits : UploadLimits
  filenameConflictPolicy : FilenameConflictPolicy
  sha256 : ByteString → ByteString
  ansiToWide : ByteString → WideString
  nameKey : ByteString → ByteString

/-- The objects one `initFile` call creates: write mutex, finalization state, temporary file. -/
structure Ref where
  fileId : ByteString
  serial : Nat
  deriving DecidableEq, Repr

/-- `struct FinalizationState`. -/
structure FinalizationState where
  finalizing : Bool := false
  completed : Bool := false
  failed : Bool := false
  originalName : ByteString := []
  totalSize : Nat := 0
  totalChunks : Nat := 0
  skipExactDuplicates : Bool := true
  filename : ByteString := []
  sha256 : ByteString := []
  disposition : FileFinalizeDisposition := .error
  reserved : Bool := true
  lastActivity : Nat := 0
  deriving DecidableEq, Repr

/-- `struct FileHandle`, registered under its file ID; `serial` stands for its `writeMutex`,
`finalization` and `tempPath`. -/
structure FileHandle where
  serial : Nat
  originalName : ByteString
  totalSize : Nat
  bytesWritten : Nat := 0
  chunksReceived : Nat := 0
  chunksExpected : Nat
  skipExactDuplicates : Bool
  acceptedChunkSizes : List Nat := []
  streamingHashValid : Bool
  deriving DecidableEq, Repr

/-- An entry of the destination directory; `content` is `none` when it is no regular file. -/
structure DirEntry where
  name : ByteString
  content : Option ByteString
  deriving DecidableEq, Repr

/-- The shared state of the writer, with the part of the disk it works on: `temps` are the
temporary files and `files` is the destination, keyed by `nameKey`. -/
structure Writer where
  handles : Table ByteString FileHandle
  sessions : Table ByteString Nat
  states : Ref → FinalizationState
  completedSessionOrder : List ByteString
  mutexOwner : Ref → Option Nat
  hashContexts : ByteString → Option ByteString
  temps : Ref → Option ByteString
  files : Table ByteString DirEntry
  nextFilenameSuffix : Table ByteString Nat
  nextSerial : Nat

/-- A writer that was just constructed over a destination.  No finalization state has been
allocated yet; the cells hold the value of a released one. -/
def Writer.init (files : Table ByteString DirEntry) : Writer where
  handles := ∅
  sessions := ∅
  states := fun _ => { reserved := false }
  completedSessionOrder := []
  mutexOwner := fun _ => none
  hashContexts := fun _ => none
  temps := fun _ => none
  files := files
  nextFilenameSuffix := ∅
  nextSerial := 0

/-- Change one finalization state under its mutex. -/
def Writer.updateState (w : Writer) (r : Ref)
    (f : FinalizationState → FinalizationState) : Writer :=
  { w with states := Function.update w.states r (f (w.states r)) }

/-- `HashEngine::abortHash`. -/
def Writer.abortHash (w : Writer) (fileId : ByteString) : Writer :=
  { w with hashContexts := Function.update w.hashContexts fileId none }

/-- Lock a write mutex for thread `tid`. -/
def Writer.lock (w : Writer) (tid : Nat) (r : Ref) : Writer :=
  { w with mutexOwner := Function.update w.mutexOwner r (some tid) }

/-- Unlock a write mutex. -/
def Writer.unlock (w : Writer) (r : Ref) : Writer :=
  { w with mutexOwner := Function.update w.mutexOwner r none }

/-- Remove a temporary file. -/
def Writer.removeTemp (w : Writer) (r : Ref) : Writer :=
  { w with temps := Function.update w.temps r none }

/-! ## The completed-session cache -/

/-- The `while` loop of `rememberCompletedSessionLocked`. -/
def evictExpired (handles : Table ByteString FileHandle) :
    List ByteString → Table ByteString Nat → List ByteString × Table ByteString Nat
  | [], sessions => ([], sessions)
  | expired :: rest, sessions =>
      if MaxCompletedSessions < rest.length + 1 then
        evictExpired handles rest
          (if (handles.lookup expired).isNone then sessions.erase expired else sessions)
      else (expired :: rest, sessions)

/-- `rememberCompletedSessionLocked`. -/
def Writer.rememberCompletedSessionLocked (w : Writer) (fileId : ByteString) : Writer :=
  let evicted := evictExpired w.handles (w.completedSessionOrder ++ [fileId]) w.sessions
  { w with completedSessionOrder := evicted.1, sessions := evicted.2 }

/-! ## `initFile` -/

/-- The arguments of `initFile`. -/
structure InitArgs where
  fileId : ByteString
  originalName : ByteString
  totalSize : Nat
  totalChunks : Nat
  skipExactDuplicates : Bool
  deriving DecidableEq, Repr

/-- How `createMemoryMappedFile` ended. -/
inductive CreateOutcome where
  /-- The file was created, sized and mapped. -/
  | created
  /-- Exclusive creation failed; `tempPath` was cleared. -/
  | notCreated
  /-- The file was created and then could not be sized, or could not be mapped after it was `sized`;
  `removed` tells whether removing it worked. -/
  | unusable (sized removed : Bool)
  deriving DecidableEq, Repr

/-- What the environment decides during `initFile`. -/
structure InitEnv where
  /-- `fs::space(...).available`, or an error. -/
  spaceAvailable : Option Nat := some (2 ^ 62)
  randomBytes : Bool := true
  create : CreateOutcome := .created
  beginHash : Bool := true

/-- The metadata comparison for a registered session without an active handle. -/
def FinalizationState.matches (st : FinalizationState) (a : InitArgs) : Bool :=
  !st.failed && st.originalName == a.originalName && st.totalSize == a.totalSize &&
    st.totalChunks == a.totalChunks && st.skipExactDuplicates == a.skipExactDuplicates

/-- `sameSession`. -/
def FileHandle.sameSession (h : FileHandle) (a : InitArgs) : Bool :=
  h.originalName == a.originalName && h.totalSize == a.totalSize &&
    h.chunksExpected == a.totalChunks && h.skipExactDuplicates == a.skipExactDuplicates

/-- The 64-bit sum of the reserved sizes of the sessions selected by `p`. -/
def Writer.reservedBytes (w : Writer) (p : ByteString → Bool) : Nat :=
  w.sessions.total (fun id n =>
    if p id && (w.states ⟨id, n⟩).reserved then (w.states ⟨id, n⟩).totalSize else 0) % 2 ^ 64

/-- The number of reserved sessions selected by `p`. -/
def Writer.reservedCount (w : Writer) (p : ByteString → Bool) : Nat :=
  w.sessions.total fun id n => if p id && (w.states ⟨id, n⟩).reserved then 1 else 0

/-- The admission test: active counts, reserved bytes, free space. -/
def Writer.admits (cfg : WriterConfig) (w : Writer) (a : InitArgs) (env : InitEnv) : Bool :=
  let limits := cfg.limits
  let mine := fun id => owner id == owner a.fileId
  !(limits.maxActiveFiles ≤ w.reservedCount (fun _ => true) ||
    limits.maxOwnerFiles ≤ w.reservedCount mine ||
    limits.maxReservedBytes < a.totalSize ||
    limits.maxReservedBytes - a.totalSize < w.reservedBytes (fun _ => true) ||
    limits.maxOwnerBytes < a.totalSize ||
    limits.maxOwnerBytes - a.totalSize < w.reservedBytes mine) &&
  match env.spaceAvailable with
  | none => false
  | some available =>
      !(available < limits.minFreeBytes || available - limits.minFreeBytes < a.totalSize)

/-- The finalization state of a new session. -/
def InitArgs.state (a : InitArgs) (now : Nat) : FinalizationState :=
  { originalName := a.originalName, totalSize := a.totalSize, totalChunks := a.totalChunks,
    skipExactDuplicates := a.skipExactDuplicates, lastActivity := now }

/-- The handle of a new session. -/
def InitArgs.handle (a : InitArgs) (serial : Nat) (streamingHashValid : Bool) : FileHandle :=
  { serial, originalName := a.originalName, totalSize := a.totalSize,
    chunksExpected := a.totalChunks, skipExactDuplicates := a.skipExactDuplicates,
    streamingHashValid }

/-- The reservation made before creation: the session is registered and charged. -/
def Writer.reserve (w : Writer) (now : Nat) (a : InitArgs) : Writer :=
  { w with
    nextSerial := w.nextSerial + 1
    sessions := w.sessions.insert a.fileId w.nextSerial
    states := Function.update w.states ⟨a.fileId, w.nextSerial⟩ (a.state now) }

/-- Reserve a new session, create its file and register its handle. -/
def Writer.createSession (w : Writer) (now : Nat) (a : InitArgs) (env : InitEnv) : Writer × Bool :=
  let r : Ref := ⟨a.fileId, w.nextSerial⟩
  let reserved := w.reserve now a
  match env.create with
  | .created =>
      ({ reserved with
          temps := Function.update w.temps r (some (List.replicate a.totalSize 0))
          hashContexts := if env.beginHash then
            Function.update w.hashContexts a.fileId (some []) else w.hashContexts
          handles := w.handles.insert a.fileId (a.handle w.nextSerial env.beginHash) }, true)
  | .unusable sized false =>
      let left := if sized then List.replicate a.totalSize 0 else []
      ({ reserved.updateState r fun st => { st with failed := true } with
          temps := Function.update w.temps r (some left) }, false)
  | _ =>
      ((reserved.updateState r fun st =>
          { st with failed := true, reserved := false }).rememberCompletedSessionLocked a.fileId,
        false)

/-- The early exits of `initFile` on its arguments. -/
def InitArgs.valid (cfg : WriterConfig) (a : InitArgs) : Bool :=
  isSafeFileId a.fileId &&
    !(a.totalSize == 0 || cfg.limits.maxFileBytes < a.totalSize ||
      a.totalChunks == 0 || MaxChunksPerFile < a.totalChunks)

/-- `initFile`. -/
def Writer.initFile (cfg : WriterConfig) (w : Writer) (now : Nat) (a : InitArgs) (env : InitEnv) :
    Writer × Bool :=
  if !a.valid cfg then (w, false)
  else
    match w.handles.lookup a.fileId with
    | some h => (w, h.sameSession a)
    | none =>
      match w.sessions.lookup a.fileId with
      | some n => (w, (w.states ⟨a.fileId, n⟩).matches a)
      | none =>
          if !w.admits cfg a env || !env.randomBytes then (w, false)
          else w.createSession now a env

/-! ## `writeChunk` -/

/-- What the section of `writeChunk` that reads the handle decides. -/
inductive ChunkCheck where
  | reject (status : ChunkWriteStatus)
  /-- Copy `size` bytes to `offset` of the file of the handle found. -/
  | accept (target offset : Nat)
  deriving DecidableEq, Repr

/-- The comparison of a chunk with the handle. -/
def FileHandle.checkChunk (h : FileHandle) (chunkIndex size : Nat) : ChunkCheck :=
  if chunkIndex < h.chunksReceived then
    if h.acceptedChunkSizes[chunkIndex]? = some size then .reject .alreadyAccepted
    else .reject .outOfOrder
  else if chunkIndex ≠ h.chunksReceived then .reject .outOfOrder
  else if sub64 h.totalSize h.bytesWritten < size then .reject .sizeExceeded
  else .accept h.serial h.bytesWritten

/-- The counters after an accepted chunk. -/
def FileHandle.commitChunk (h : FileHandle) (size : Nat) (hashUpdated : Bool) : FileHandle :=
  { h with
    bytesWritten := add64 h.bytesWritten size
    chunksReceived := h.chunksReceived + 1
    acceptedChunkSizes := h.acceptedChunkSizes ++ [size]
    streamingHashValid := h.streamingHashValid && hashUpdated }

/-- `writeMappedRange`: copy bytes into the mapped temporary file. -/
def Writer.writeMappedRange (w : Writer) (r : Ref) (offset : Nat) (data : ByteString) : Writer :=
  { w with temps := Function.update w.temps r ((w.temps r).map fun c => overwrite c offset data) }

/-- `HashEngine::updateHash`, which needs a context; `ok` is the answer of `EVP_DigestUpdate`. -/
def Writer.updateHash (w : Writer) (fileId data : ByteString) (ok : Bool) : Writer × Bool :=
  match w.hashContexts fileId with
  | none => (w, false)
  | some hashed =>
      if ok then
        ({ w with hashContexts := Function.update w.hashContexts fileId (some (hashed ++ data)) },
          true)
      else (w, false)

/-- Whether all bytes and chunks of a handle arrived. -/
def FileHandle.isComplete (h : FileHandle) : Bool :=
  h.bytesWritten == h.totalSize && h.chunksReceived == h.chunksExpected

/-! ## `abortMatching` and `retireTemporary` -/

/-- The predicates handed to `abortMatching`. -/
inductive AbortMatch where
  | byId (fileId : ByteString)
  | byPrefix (fileIdPrefix : ByteString)
  | idleSince (now : Nat)
  deriving DecidableEq, Repr

/-- Whether a handle matches. -/
def AbortMatch.holds (cfg : WriterConfig) (m : AbortMatch) (fileId : ByteString)
    (st : FinalizationState) : Bool :=
  match m with
  | .byId id => fileId == id
  | .byPrefix p => p.isPrefixOf fileId
  | .idleSince now => st.lastActivity + cfg.limits.idleTimeout ≤ now

/-- Whether `abortMatching` takes the handle registered for a file ID. -/
def Writer.aborts (cfg : WriterConfig) (w : Writer) (m : AbortMatch) (fileId : ByteString)
    (h : FileHandle) : Bool := m.holds cfg fileId (w.states ⟨fileId, h.serial⟩)

/-- The handles that `abortMatching` takes. -/
def Writer.abortedRefs (cfg : WriterConfig) (w : Writer) (m : AbortMatch) : List Ref :=
  (w.handles.filter (w.aborts cfg m)).entries.map fun e => ⟨e.1, e.2.serial⟩

/-- The section of `abortMatching` under `m_mutex`: matching handles leave the table and their
sessions are marked failed. -/
def Writer.collectAborted (cfg : WriterConfig) (w : Writer) (m : AbortMatch) : Writer :=
  { w with
    handles := w.handles.filter fun id h => !w.aborts cfg m id h
    states := fun r =>
      if r ∈ w.abortedRefs cfg m then { w.states r with failed := true } else w.states r }

/-- `finalizing = false; failed = true` under the state mutex. -/
def Writer.markFailed (w : Writer) (r : Ref) : Writer :=
  w.updateState r fun st => { st with finalizing := false, failed := true }

/-- The section of `retireTemporary` under the state mutex, when the removal worked. -/
def Writer.release (w : Writer) (r : Ref) : Writer :=
  (w.updateState r fun st => { st with reserved := false }).removeTemp r

/-- The sessions `expireIdleFiles` retries: failed and still reserved. -/
def Writer.pendingCleanup (w : Writer) : List Ref :=
  (w.sessions.filter fun id n => (w.states ⟨id, n⟩).failed &&
    (w.states ⟨id, n⟩).reserved).entries.map
    fun e => ⟨e.1, e.2⟩

end LocalMediaTransfer
