import LocalMediaTransfer.Lib.Run
import LocalMediaTransfer.Server.ChunkRequest
import LocalMediaTransfer.Server.FileWriter.Publish

/-!
# The receiver as a system of threads

Requests run on threads that share one `Writer`.  A thread is a program counter (`Pc`) in
`initFile`, `writeChunk`, `finalizeFileResult`, `abortMatching` or `expireIdleFiles`, together
with the local variables that are live there; one step of a thread runs up to the end of one
mutex-protected section, or one stretch of work on objects the thread owns.  Between two steps any
other thread may move, which gives all interleavings of `io/FileWriter.cpp` and of the
`/upload_chunk` handler (`server/HttpServer.cpp`) above it.

* `stepThread` — one step of a thread, one clause per section.
* `step` — one step of the system: a call starts, a thread moves, time passes.
* `Event` — the history that properties speak about: answers, returned finalization results,
  accepted chunks, publications, evictions.

The environment chooses every fault of a step (`StepEnv`).  Left out of the handler: metrics, the
upload index, the control pipe and `markFileTerminal`, none of which feeds back into the writer.
-/

set_option autoImplicit false

namespace LocalMediaTransfer

open Lib

/-! ## Program counters -/

/-- Who waits for the result of a writer call. -/
inductive Caller where
  | direct
  /-- The `/upload_chunk` handler. -/
  | uploadChunk (req : ChunkRequest)

/-- The arguments of a `writeChunk` call besides the file ID. -/
structure WriteCall where
  caller : Caller
  chunkIndex : Nat
  data : ByteString

/-- What a call of `abortMatching` returns to. -/
inductive AfterAbort where
  /-- The caller of `abortFile` or `abortFilesWithPrefix`. -/
  | count
  /-- `writeChunk` after a failed copy. -/
  | storageError (call : WriteCall) (r : Ref)
  /-- `finalizeFileResult` of an incomplete file. -/
  | incomplete (r : Ref)
  /-- The handler after `SizeExceeded`. -/
  | sizeExceeded
  /-- The second half of `expireIdleFiles`. -/
  | expire

/-- What `retireTemporary` returns to. -/
inductive Cont where
  /-- `failFinalization`, then `return {}` or rethrow. -/
  | finalizeFailed (caller : Caller) (thrown : Option String)
  /-- The loop of `abortMatching`, which holds the write mutex of `held`. -/
  | abortNext (caller : Caller) (held : Ref) (rest : List Ref) (count : Nat) (after : AfterAbort)
  /-- The loop of `expireIdleFiles`. -/
  | expireNext (pending : List Ref)

inductive Pc where
  | idle
  | initFile (caller : Caller) (args : InitArgs)
  | writeLookup (call : WriteCall) (fileId : ByteString)
  | writeLock (call : WriteCall) (r : Ref)
  | writeCheck (call : WriteCall) (r : Ref)
  | writeCopy (call : WriteCall) (r : Ref) (target offset : Nat)
  | writeCommit (call : WriteCall) (r : Ref) (target offset : Nat) (hashUpdated : Bool)
  | writeWait (call : WriteCall) (held : Option Ref) (s : Ref)
  | finalizeLookup (caller : Caller) (fileId : ByteString)
  | finalizeLock (caller : Caller) (r : Ref)
  | finalizeTake (caller : Caller) (r : Ref)
  | finalizeWait (caller : Caller) (s : Ref)
  | finalizeHash (caller : Caller) (s : Ref) (handle : FileHandle)
  | finalizePublish (caller : Caller) (s : Ref) (handle : FileHandle) (fullHash : ByteString)
  | finalizeComplete (caller : Caller) (s : Ref) (result : FileFinalizeResult)
  | finalizeRemember (caller : Caller) (s : Ref) (result : FileFinalizeResult)
  | finalizeFail (caller : Caller) (s : Ref) (thrown : Option String)
  | abortCollect (caller : Caller) (m : AbortMatch) (after : AfterAbort)
  | abortLock (caller : Caller) (r : Ref) (rest : List Ref) (count : Nat) (after : AfterAbort)
  | abortClose (caller : Caller) (r : Ref) (rest : List Ref) (count : Nat) (after : AfterAbort)
  | retire (cont : Cont) (r : Ref)
  | remember (cont : Cont) (r : Ref)
  | expireCollect

/-! ## History -/

/-- What a direct call of the writer returns. -/
inductive Returned where
  | initFile (args : InitArgs) (ok : Bool)
  | writeChunk (fileId : ByteString) (chunkIndex : Nat) (status : ChunkWriteStatus)
  | aborted (count : Nat)
  | expired

inductive Event where
  | rejected (response : HttpResponse)
  | answered (req : ChunkRequest) (response : HttpResponse)
  | returned (value : Returned)
  /-- `finalizeFileResult` returned `result`; `session` is the session it speaks about. -/
  | finalized (fileId : ByteString) (session : Option Ref) (result : FileFinalizeResult)
      (finalizedNow : Bool)
  /-- `finalizeFileResult` rethrew an exception. -/
  | threw (s : Ref) (what : String)
  /-- A chunk was counted for session `r`. -/
  | accepted (r : Ref) (data : ByteString)
  /-- The temporary file of `r` became the destination file `name`; `replaced` is what was
  there before. -/
  | published (r : Ref) (name bytes : ByteString) (replaced : Option DirEntry)
  /-- A session left `m_sessions`. -/
  | evicted (fileId : ByteString)

/-! ## Thread-local code between sections -/

/-- The handler after `initFile`. -/
def Caller.afterInit (caller : Caller) (a : InitArgs) (ok : Bool) : Pc × List Event :=
  match caller with
  | .direct => (.idle, [.returned (.initFile a ok)])
  | .uploadChunk req =>
      if ok then
        (.writeLookup ⟨caller, req.chunkIndex, req.data⟩ req.storageId, [])
      else
        (.idle, [.answered req ⟨409, .error ("Receiver could not start this file. Restart its " ++
          "upload; if it still fails, check file-size limits, free space and folder access, and " ++
          "wait for other uploads to finish.")⟩])

/-- The handler after `writeChunk`. -/
def WriteCall.afterWrite (call : WriteCall) (fileId : ByteString) (status : ChunkWriteStatus) :
    Pc × List Event :=
  match call.caller with
  | .direct => (.idle, [.returned (.writeChunk fileId call.chunkIndex status)])
  | .uploadChunk req =>
      match status with
      | .success | .alreadyAccepted | .completed =>
          if req.chunkIndex = req.totalChunks - 1 ∨ status = .completed then
            (.finalizeLookup call.caller fileId, [])
          else (.idle, [.answered req ⟨200, .accepted req.chunkIndex req.totalChunks⟩])
      | .outOfOrder | .unknownFile =>
          (.idle, [.answered req
            ⟨409, .error "Chunk is out of order or has no active file session"⟩])
      | .sizeExceeded => (.abortCollect call.caller (.byId fileId) .sizeExceeded, [])
      | .finalizing => (.idle, [.answered req ⟨503, .error "Upload is still finalizing"⟩])
      | .storageError =>
          (.idle, [.answered req ⟨500, .error ("Receiver could not write this file. Check free " ++
            "space and folder access, then restart its upload.")⟩])

/-- The response to a chunk whose finalization returned. -/
def ChunkRequest.finalizeResponse (req : ChunkRequest) (result : FileFinalizeResult) :
    HttpResponse :=
  match result.disposition with
  | .finalizing => ⟨503, .error "Upload is still finalizing"⟩
  | .nameConflict => ⟨409, .filenameConflict result.filename⟩
  | .error =>
      ⟨400, .error ("Receiver could not finish saving this file. Check free space and folder " ++
        "access, then restart its upload.")⟩
  | .saved | .duplicate =>
      if result.filename.isEmpty then ⟨200, .accepted req.chunkIndex req.totalChunks⟩
      else ⟨200, .complete req.chunkIndex req.totalChunks result.filename
        (result.disposition = .duplicate) result.sha256⟩

/-- The handler after `finalizeFileResult`. -/
def Caller.afterFinalize (caller : Caller) (fileId : ByteString) (session : Option Ref)
    (result : FileFinalizeResult) (finalizedNow : Bool) : Pc × List Event :=
  match caller with
  | .direct => (.idle, [.finalized fileId session result finalizedNow])
  | .uploadChunk req =>
      (.idle, [.finalized fileId session result finalizedNow,
        .answered req (req.finalizeResponse result)])

/-- The handler after an exception of `finalizeFileResult`. -/
def Caller.afterThrow (caller : Caller) (s : Ref) (what : String) (healthy : Bool) :
    Pc × List Event :=
  match caller with
  | .direct => (.idle, [.threw s what])
  | .uploadChunk req => (.idle, [.threw s what, .answered req (exceptionResponse healthy what)])

/-- What follows a finished `abortMatching`. -/
def AfterAbort.resume (after : AfterAbort) (caller : Caller) (count : Nat) : Pc × List Event :=
  match after with
  | .count => (.idle, [.returned (.aborted count)])
  | .storageError call r => call.afterWrite r.fileId .storageError
  | .incomplete r => caller.afterFinalize r.fileId (some r) {} false
  | .sizeExceeded =>
      match caller with
      | .direct => (.idle, [])
      | .uploadChunk req =>
          (.idle, [.answered req ⟨400, .error "Chunk exceeds declared file size"⟩])
  | .expire => (.expireCollect, [])

/-- The loop head of `abortMatching`. -/
def nextAbort (caller : Caller) (refs : List Ref) (count : Nat) (after : AfterAbort) :
    Pc × List Event :=
  match refs with
  | [] => after.resume caller count
  | r :: rest => (.abortLock caller r rest count after, [])

/-- The loop head of the second half of `expireIdleFiles`. -/
def nextExpire : List Ref → Pc × List Event
  | [] => (.idle, [.returned .expired])
  | r :: rest => (.retire (.expireNext rest) r, [])

/-- What follows `retireTemporary` on `r`. -/
def Cont.resume (cont : Cont) (r : Ref) (w : Writer) (healthy : Bool) :
    Writer × Pc × List Event :=
  match cont with
  | .finalizeFailed caller none => (w, caller.afterFinalize r.fileId (some r) {} false)
  | .finalizeFailed caller (some what) => (w, caller.afterThrow r what healthy)
  | .abortNext caller held rest count after => (w.unlock held, nextAbort caller rest count after)
  | .expireNext pending => (w, nextExpire pending)

/-! ## One step of a thread -/

/-- What the environment decides in a step. -/
structure StepEnv where
  init : InitEnv := {}
  /-- `writeMappedRange` fails after this many bytes. -/
  copyFails : Option Nat := none
  hashUpdated : Bool := true
  /-- `FinalizationWaitTimeout` has passed. -/
  timeout : Bool := false
  flushed : Bool := true
  /-- Whether `HashEngine::finalizeHash` and `computeFileHash` work. -/
  digest : Bool := true
  readBack : Bool := true
  publish : PublishEnv := {}
  /-- Whether `fs::remove` in `retireTemporary` works. -/
  removed : Bool := true
  /-- `inventoryHealthy()` in the handler's `catch` clause. -/
  healthy : Bool := true

/-- Unlock an optional write mutex. -/
def Writer.unlock? (w : Writer) (held : Option Ref) : Writer :=
  match held with
  | none => w
  | some r => w.unlock r

/-- The result a completed state reports. -/
def FinalizationState.result (st : FinalizationState) : FileFinalizeResult :=
  ⟨st.disposition, st.filename, st.sha256⟩

/-- The hash of the upload: the streaming one, else one read back from the temporary file. -/
def Writer.fullHash (cfg : WriterConfig) (w : Writer) (s : Ref) (h : FileHandle) (env : StepEnv) :
    ByteString :=
  let streaming :=
    if h.streamingHashValid && env.digest then ((w.hashContexts s.fileId).map cfg.sha256).getD []
    else []
  if streaming.isEmpty then
    match w.temps ⟨s.fileId, h.serial⟩ with
    | some bytes => if env.readBack && bytes.length == h.totalSize then cfg.sha256 bytes else []
    | none => []
  else streaming

/-- Take the handle of a complete upload out of the table. -/
def Writer.takeHandle (w : Writer) (r : Ref) : Writer :=
  { w.updateState r fun st => { st with finalizing := true } with
    handles := w.handles.erase r.fileId }

/-- The disk after the publication section. -/
def Writer.setDisk (w : Writer) (t : Ref) (p : Published) : Writer :=
  { w with
    files := p.files
    temps := Function.update w.temps t p.temp
    nextFilenameSuffix := p.nextFilenameSuffix }

/-- `finalization->completed = true`, with the result. -/
def Writer.markCompleted (w : Writer) (s : Ref) (result : FileFinalizeResult) : Writer :=
  w.updateState s fun st =>
    { st with
      filename := result.filename, sha256 := result.sha256, disposition := result.disposition,
      finalizing := false, completed := true, reserved := false }

/-- One step of thread `tid`; `none` when it has nothing to do or waits. -/
def stepThread (cfg : WriterConfig) (now tid : Nat) (w : Writer) (pc : Pc) (env : StepEnv) :
    Option (Writer × Pc × List Event) :=
  match pc with
  | .idle => none
  | .initFile caller a =>
      let created := w.initFile cfg now a env.init
      some (created.1, caller.afterInit a created.2)
  | .writeLookup call id =>
      match w.handles.lookup id with
      | some h => some (w, .writeLock call ⟨id, h.serial⟩, [])
      | none =>
        match w.sessions.lookup id with
        | some n => some (w, .writeWait call none ⟨id, n⟩, [])
        | none => some (w, call.afterWrite id .unknownFile)
  | .writeLock call r =>
      if w.mutexOwner r = none then some (w.lock tid r, .writeCheck call r, []) else none
  | .writeCheck call r =>
      match w.handles.lookup r.fileId with
      | some h =>
        match h.checkChunk call.chunkIndex call.data.length with
        | .reject status => some (w.unlock r, call.afterWrite r.fileId status)
        | .accept target offset =>
            some (w.updateState ⟨r.fileId, target⟩ (fun st => { st with lastActivity := now }),
              .writeCopy call r target offset, [])
      | none =>
        match w.sessions.lookup r.fileId with
        | some n => some (w, .writeWait call (some r) ⟨r.fileId, n⟩, [])
        | none => some (w.unlock r, call.afterWrite r.fileId .unknownFile)
  | .writeCopy call r target offset =>
      match env.copyFails with
      | some written =>
          some ((w.writeMappedRange ⟨r.fileId, target⟩ offset (call.data.take written)).unlock r,
            .abortCollect call.caller (.byId r.fileId) (.storageError call r), [])
      | none =>
          let hashed :=
            (w.writeMappedRange ⟨r.fileId, target⟩ offset call.data).updateHash r.fileId call.data
              env.hashUpdated
          some (hashed.1, .writeCommit call r target offset hashed.2, [])
  | .writeCommit call r _ _ hashUpdated =>
      match w.handles.lookup r.fileId with
      | some h =>
          some (({ w with handles :=
                w.handles.insert r.fileId (h.commitChunk call.data.length hashUpdated) }).unlock r,
            (call.afterWrite r.fileId .success).1,
            .accepted ⟨r.fileId, h.serial⟩ call.data :: (call.afterWrite r.fileId .success).2)
      | none => some (w.unlock r, call.afterWrite r.fileId .unknownFile)
  | .writeWait call held s =>
      if (w.states s).completed then
        some (w.unlock? held, call.afterWrite s.fileId .completed)
      else if (w.states s).failed then
        some (w.unlock? held, call.afterWrite s.fileId .storageError)
      else if env.timeout then some (w.unlock? held, call.afterWrite s.fileId .finalizing)
      else none
  | .finalizeLookup caller id =>
      match w.handles.lookup id with
      | some h => some (w, .finalizeLock caller ⟨id, h.serial⟩, [])
      | none =>
        match w.sessions.lookup id with
        | some n => some (w, .finalizeWait caller ⟨id, n⟩, [])
        | none => some (w, caller.afterFinalize id none {} false)
  | .finalizeLock caller r =>
      if w.mutexOwner r = none then some (w.lock tid r, .finalizeTake caller r, []) else none
  | .finalizeTake caller r =>
      match w.handles.lookup r.fileId with
      | some h =>
          if h.isComplete then some ((w.takeHandle r).unlock r, .finalizeHash caller r h, [])
          else some (w.unlock r, .abortCollect caller (.byId r.fileId) (.incomplete r), [])
      | none =>
        match w.sessions.lookup r.fileId with
        | some n => some (w.unlock r, .finalizeWait caller ⟨r.fileId, n⟩, [])
        | none => some (w.unlock r, caller.afterFinalize r.fileId none {} false)
  | .finalizeWait caller s =>
      if (w.states s).failed then some (w, caller.afterFinalize s.fileId (some s) {} false)
      else if (w.states s).completed then
        some (w, caller.afterFinalize s.fileId (some s) (w.states s).result false)
      else if env.timeout then
        some (w, caller.afterFinalize s.fileId (some s) { disposition := .finalizing } false)
      else none
  | .finalizeHash caller s h =>
      if !env.flushed then some (w.abortHash s.fileId, .finalizeFail caller s none, [])
      else
        let fullHash := w.fullHash cfg s h env
        if fullHash.isEmpty then some (w.abortHash s.fileId, .finalizeFail caller s none, [])
        else some (w.abortHash s.fileId, .finalizePublish caller s h fullHash, [])
  | .finalizePublish caller s h fullHash =>
      let t : Ref := ⟨s.fileId, h.serial⟩
      let p := w.publish cfg env.publish h (w.temps t) fullHash
      match p.outcome with
      | .done disposition name =>
          some (w.setDisk t p, .finalizeComplete caller s ⟨disposition, name, fullHash⟩,
            if disposition = .saved then
              [.published t name ((w.temps t).getD []) (findEntry cfg w.files name)] else [])
      | .failed => some (w.setDisk t p, .finalizeFail caller s none, [])
      | .threw what =>
          some ((w.setDisk t p).abortHash s.fileId, .finalizeFail caller s (some what), [])
  | .finalizeComplete caller s result =>
      some (w.markCompleted s result, .finalizeRemember caller s result, [])
  | .finalizeRemember caller s result =>
      some (w.rememberCompletedSessionLocked s.fileId,
        caller.afterFinalize s.fileId (some s) result true)
  | .finalizeFail caller s thrown =>
      some (w.markFailed s, .retire (.finalizeFailed caller thrown) s, [])
  | .abortCollect caller m after =>
      let refs := w.abortedRefs cfg m
      some (w.collectAborted cfg m, nextAbort caller refs refs.length after)
  | .abortLock caller r rest count after =>
      if w.mutexOwner r = none then
        some (w.lock tid r, .abortClose caller r rest count after, [])
      else none
  | .abortClose caller r rest count after =>
      some ((w.abortHash r.fileId).markFailed r,
        .retire (.abortNext caller r rest count after) r, [])
  | .retire cont r =>
      if (w.states r).reserved && env.removed then some (w.release r, .remember cont r, [])
      else some (cont.resume r w env.healthy)
  | .remember cont r =>
      some (cont.resume r (w.rememberCompletedSessionLocked r.fileId) env.healthy)
  | .expireCollect => some (w, nextExpire w.pendingCleanup)

/-- The mutex a section waits for, and the section that runs under it. -/
def Pc.waitsFor : Pc → Option (Ref × Pc)
  | .writeLock call r => some (r, .writeCheck call r)
  | .finalizeLock caller r => some (r, .finalizeTake caller r)
  | .abortLock caller r rest count after => some (r, .abortClose caller r rest count after)
  | _ => none

/-- A section that waits for a mutex takes it when it is free, and does nothing else. -/
theorem stepThread_lock {cfg : WriterConfig} {now tid : Nat} {w : Writer} {pc next : Pc}
    {env : StepEnv} {out : Writer × Pc × List Event} {r : Ref}
    (hpc : pc.waitsFor = some (r, next)) (hst : stepThread cfg now tid w pc env = some out) :
    w.mutexOwner r = none ∧ out = (w.lock tid r, next, []) := by
  unfold Pc.waitsFor at hpc
  split at hpc <;> cases hpc
  all_goals
    simp only [stepThread] at hst
    split at hst <;> cases hst
    exact ⟨‹_›, rfl⟩

/-! ## The system -/

/-- The calls that arrive: requests, and direct calls of the writer (other routes, tests, the
idle timer). -/
inductive Call where
  | uploadChunk (http : HttpChunkRequest)
  | initFile (args : InitArgs)
  | writeChunk (fileId : ByteString) (chunkIndex : Nat) (data : ByteString)
  | finalizeFileResult (fileId : ByteString)
  | abortFile (fileId : ByteString)
  | abortFilesWithPrefix (fileIdPrefix : ByteString)
  | expireIdleFiles

/-- The arguments the handler hands to `initFile`. -/
def ChunkRequest.initArgs (req : ChunkRequest) : InitArgs :=
  ⟨req.storageId, req.filename, req.fileSize, req.totalChunks, req.skipExactDuplicates⟩

/-- The handler once the request is validated: `initFile` for chunk 0, else `writeChunk`. -/
def ChunkRequest.start (req : ChunkRequest) : Pc :=
  if req.chunkIndex = 0 then .initFile (.uploadChunk req) req.initArgs
  else .writeLookup ⟨.uploadChunk req, req.chunkIndex, req.data⟩ req.storageId

/-- Where a call starts. -/
def Call.start (now : Nat) : Call → Pc × List Event
  | .uploadChunk http =>
      match admitRequest http with
      | .error response => (.idle, [.rejected response])
      | .ok req => (req.start, [])
  | .initFile a => (.initFile .direct a, [])
  | .writeChunk id chunkIndex data => (.writeLookup ⟨.direct, chunkIndex, data⟩ id, [])
  | .finalizeFileResult id => (.finalizeLookup .direct id, [])
  | .abortFile id => (.abortCollect .direct (.byId id) .count, [])
  | .abortFilesWithPrefix p =>
      if p.isEmpty || !isSafeFileId p then (.idle, [.returned (.aborted 0)])
      else (.abortCollect .direct (.byPrefix p) .count, [])
  | .expireIdleFiles => (.abortCollect .direct (.idleSince now) .expire, [])

structure System where
  writer : Writer
  threads : Nat → Pc
  clock : Nat
  log : List Event

/-- The receiver at start, over a destination directory. -/
def System.init (files : Table ByteString DirEntry) : System :=
  ⟨.init files, fun _ => .idle, 0, []⟩

inductive Label where
  | call (tid : Nat) (c : Call)
  | run (tid : Nat) (env : StepEnv)
  | tick (elapsed : Nat)

/-- The sessions that a step dropped. -/
def evictions (before after : Writer) : List Event :=
  (before.sessions.keys.filter fun id => (after.sessions.lookup id).isNone).map .evicted

/-- One step of the system. -/
def step (cfg : WriterConfig) (s : System) : Label → Option System
  | .call tid c =>
      match s.threads tid with
      | .idle =>
          let (pc, events) := c.start s.clock
          some { s with threads := Function.update s.threads tid pc, log := s.log ++ events }
      | _ => none
  | .run tid env =>
      match stepThread cfg s.clock tid s.writer (s.threads tid) env with
      | some (w, pc, events) =>
          some
            { s with
              writer := w
              threads := Function.update s.threads tid pc
              log := s.log ++ events ++ evictions s.writer w }
      | none => none
  | .tick elapsed => some { s with clock := s.clock + elapsed }

/-- Requests, cancels and the idle timer; no direct use of the writer. -/
def Label.isTraffic : Label → Bool
  | .call _ (.uploadChunk _) | .call _ (.abortFile _) | .call _ (.abortFilesWithPrefix _)
  | .call _ .expireIdleFiles => true
  | .call _ _ => false
  | _ => true

/-! ## A sample receiver -/

/-- A receiver with the default limits, the Latin-1 code page and a file system that ignores the
case of ASCII letters.  SHA-256 is tabulated on the contents that occur in sample runs. -/
def sampleConfig (policy : FilenameConflictPolicy) : WriterConfig where
  limits := {}
  filenameConflictPolicy := policy
  sha256 bytes :=
    if bytes = ascii "ab" then
      ascii "fb8e20fc2e4c3f248c60c39bd652f3c1347298bb977b8b4d5903b85055620603"
    else ascii "e3b0c44298fc1c149afbf4c8996fb92427ae41e4649b934ca495991b7852b855"
  ansiToWide bytes := bytes.map fun b => UInt16.ofNat b.toNat
  nameKey name := name.map toLower

/-- A request of the device with owner prefix `o-` for a chunk of `a.txt`. -/
def sampleRequest (fileId chunkIndex totalChunks fileSize body : String) : HttpChunkRequest where
  authorization := some (ascii "o-")
  inventoryHealthy := true
  healthyAtCatch := true
  manifestAllows := true
  decoded := .error "Invalid base64 chunk"
  fileId := ascii fileId
  filename := ascii "a.txt"
  chunkIndex := ascii chunkIndex
  totalChunks := ascii totalChunks
  fileSize := ascii fileSize
  skipDuplicates := []
  transferEncoding := []
  body := ascii body

/-- Thread `tid` handles a request without faults, in `steps` steps. -/
def sampleCall (tid : Nat) (c : Call) (steps : Nat) : List Label :=
  .call tid c :: List.replicate steps (.run tid {})

/-- A test for histories without an eviction of `X`. -/
def Event.isEviction (X : ByteString) : Event → Bool
  | .evicted id => id == X
  | _ => false

theorem not_evicted_of_all {X : ByteString} {log : List Event}
    (h : log.all (fun e => !e.isEviction X) = true) : Event.evicted X ∉ log := by
  intro he
  have hne := List.all_eq_true.mp h _ he
  simp [Event.isEviction] at hne

/-- A test for histories without any eviction. -/
def evictionFree (log : List Event) : Bool := log.all fun e => !(e matches .evicted _)

theorem not_evicted_of_evictionFree {log : List Event} (h : evictionFree log = true)
    (X : ByteString) : Event.evicted X ∉ log := by
  intro he
  have hne := List.all_eq_true.mp h _ he
  simp at hne

end LocalMediaTransfer
