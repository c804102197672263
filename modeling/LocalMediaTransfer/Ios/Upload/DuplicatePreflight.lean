import LocalMediaTransfer.Ios.Upload.Types
import LocalMediaTransfer.Lib.Grouping
import LocalMediaTransfer.Lib.Table

/-!
# The duplicate preflight of a window

`runDuplicatePreflightWindow` in `services/upload/duplicatePreflight.ts`.  The receiver is asked
about all files of the window, the files it cannot tell from what it has and those of equal size are
hashed on the phone, the hashed candidates of the receiver are asked about again, and the hashed
files are compared with each other and with those of earlier windows (`outgoingHashes`).

* `PreflightPeers` — what the receiver and the native hasher answer, request by request.
* `runDuplicatePreflightWindow` — the function; it throws for an authorization error only.

The metrics and the progress reports are left out.
-/

set_option autoImplicit false

namespace LocalMediaTransfer

open Lib

/-! ## Requests and answers -/

/-- An entry of `PreflightResponse`; the client keeps no empty ID and no empty filename. -/
structure PreflightFileResult where
  id : String
  action : PreflightAction
  filename : Option String := none
  deriving DecidableEq

structure PreflightFile where
  id : String
  name : String
  size : Nat
  deriving DecidableEq

structure PreflightVerifyFile where
  id : String
  name : String
  size : Nat
  sha256 : String
  deriving DecidableEq

/-- How `api.preflightCheck` or `api.preflightVerify` ends. -/
inductive ReceiverReply where
  /-- It throws an error of status 401. -/
  | unauthorized
  /-- It throws another error. -/
  | failed
  | files (files : List PreflightFileResult)
  deriving DecidableEq

structure NativeHashRequest where
  variantId : String
  localUri : String
  expectedSizeBytes : Nat
  deriving DecidableEq

/-- `NativeHashResult` without its timings. -/
inductive NativeHashResult where
  | success (variantId sha256 : String)
  | failed (variantId : String) (errorCode : TransferErrorCode)
  deriving DecidableEq

def NativeHashResult.variantId : NativeHashResult → String
  | .success variantId _ => variantId
  | .failed variantId _ => variantId

/-- The answers to the requests of one preflight; the first argument counts the batches. -/
structure PreflightPeers where
  preflightCheck : Nat → List PreflightFile → ReceiverReply
  preflightVerify : Nat → List PreflightVerifyFile → ReceiverReply
  /-- `hashPreparedFiles`, `none` when it rejects; the flag marks the retry of changed files. -/
  hashPreparedFiles : Nat → Bool → List NativeHashRequest → Option (List NativeHashResult)

structure OutgoingHash where
  transferFilename : String
  receiverMatch : Option String := none
  deriving DecidableEq

abbrev OutgoingHashRegistry := Table String OutgoingHash

/-- The maps that `runDuplicatePreflightWindow` fills, and its set of receiver candidates. -/
structure PreflightResult where
  preflightResults : Table String PreflightAction := ∅
  matchedFilenames : Table String String := ∅
  duplicateSources : Table String DuplicateSource := ∅
  computedHashes : Table String String := ∅
  hashFailureCodes : Table String TransferErrorCode := ∅
  receiverCandidateIds : List String := []

def preflightBatchSize : Nat := 100

namespace PreflightResult

variable (result : PreflightResult)

def setAction (id : String) (action : PreflightAction) : PreflightResult :=
  { result with preflightResults := result.preflightResults.insert id action }

/-! ## The metadata pass -/

/-- One result of `api.preflightCheck`. -/
def recordMetadata (reply : PreflightFileResult) : PreflightResult :=
  match reply.action with
  | .hashRequired =>
    { result.setAction reply.id .hashRequired with
      receiverCandidateIds := setAdd result.receiverCandidateIds reply.id }
  | .upload => result.setAction reply.id .upload
  | .skip =>
    match reply.filename with
    | none => result.setAction reply.id .skip
    | some filename =>
      { result.setAction reply.id .skip with
        matchedFilenames := result.matchedFilenames.insert reply.id filename
        duplicateSources := result.duplicateSources.insert reply.id .receiverPreflight }

/-- The files of a batch that got no result are uploaded. -/
def uploadMissing (returned batch : List String) : PreflightResult :=
  (batch.filter (· ∉ returned)).foldl (fun result id => result.setAction id .upload) result

/-- One batch of the metadata pass, `none` when it throws. -/
def checkBatch (reply : ReceiverReply) (batch : List String) : Option PreflightResult :=
  match reply with
  | .unauthorized => none
  | .failed => some (result.uploadMissing [] batch)
  | .files files => some ((files.foldl recordMetadata result).uploadMissing
    (files.map (·.id)) batch)

/-! ## The hashing pass -/

/-- One recorded result of the native hasher; a cancelled hash leaves no trace. -/
def recordHash (hashed : NativeHashResult) : PreflightResult :=
  match hashed with
  | .success variantId sha256 =>
    { result with computedHashes := result.computedHashes.insert variantId sha256 }
  | .failed variantId errorCode =>
    if errorCode = .cancelled then result
    else { result with hashFailureCodes := result.hashFailureCodes.insert variantId errorCode }

/-! ## The verification pass -/

/-- One result of `api.preflightVerify`. -/
def recordVerification (reply : PreflightFileResult) : PreflightResult :=
  match reply.action with
  | .hashRequired | .upload => result.setAction reply.id .upload
  | .skip =>
    let result := { result.setAction reply.id .skip with
      duplicateSources := result.duplicateSources.insert reply.id .receiverPreflight }
    match reply.filename with
    | none => result
    | some filename =>
      { result with matchedFilenames := result.matchedFilenames.insert reply.id filename }

/-- One batch of the verification pass, `none` when it throws. -/
def verifyBatch (reply : ReceiverReply) (batch : List String) : Option PreflightResult :=
  match reply with
  | .unauthorized => none
  | .failed => some (result.uploadMissing [] batch)
  | .files files =>
    some ((files.foldl recordVerification result).uploadMissing (files.map (·.id)) batch)

/-! ## The hash groups -/

/-- A file is skipped in favour of `matched`. -/
def skipFor (source : DuplicateSource) (matched id : String) : PreflightResult :=
  { result.setAction id .skip with
    matchedFilenames := result.matchedFilenames.insert id matched
    duplicateSources := result.duplicateSources.insert id source }

def skipAll (source : DuplicateSource) (matched : String) (group : List PreparedUploadFile) :
    PreflightResult :=
  group.foldl (fun result file => result.skipFor source matched file.variantId) result

/-- The decision for the files of one hash; `group` is not empty. -/
def resolveGroup (outgoingHashes : OutgoingHashRegistry) (hash : String)
    (group : List PreparedUploadFile) : PreflightResult × OutgoingHashRegistry :=
  match group with
  | [] => (result, outgoingHashes)
  | canonical :: duplicates =>
    let earlier := outgoingHashes.lookup hash
    let receiverMatch :=
      (group.findSome? fun file => result.matchedFilenames.lookup file.variantId).or
        (earlier.bind (·.receiverMatch))
    match receiverMatch with
    | some receiverMatch =>
      (result.skipAll .receiverPreflight receiverMatch group,
        outgoingHashes.insert hash
          { transferFilename := (earlier.map (·.transferFilename)).getD canonical.transferFilename
            receiverMatch := some receiverMatch })
    | none =>
      match earlier with
      | some earlier =>
        (result.skipAll .outgoingSelection earlier.transferFilename group, outgoingHashes)
      | none =>
        (result.skipAll .outgoingSelection canonical.transferFilename duplicates,
          outgoingHashes.insert hash { transferFilename := canonical.transferFilename })

end PreflightResult

/-! ## The window -/

section Window

variable (nativeAvailable shouldSkipDuplicates : Bool) (peers : PreflightPeers)
  (fileInfos : List PreparedUploadFile)

/-- The IDs of the files whose size another file of the window has. -/
def localCandidateIds : List String :=
  ((groupBy (fun file : PreparedUploadFile => some file.size) fileInfos).flatMap fun e =>
    if e.2.length < 2 then [] else e.2.map (·.variantId)).foldl setAdd []

/-- `fileById.get`: the map of the window keeps the last file of an ID. -/
def fileById (id : String) : Option PreparedUploadFile :=
  fileInfos.reverse.find? fun file => file.variantId = id

/-- The files that are hashed: those of equal size first, then those of the receiver. -/
def hashCandidates (receiverCandidateIds : List String) : List PreparedUploadFile :=
  (receiverCandidateIds.foldl setAdd (localCandidateIds fileInfos)).filterMap (fileById fileInfos)

def hashRequest (file : PreparedUploadFile) : NativeHashRequest :=
  { variantId := file.variantId, localUri := file.nativeUri, expectedSizeBytes := file.size }

/-- What a batch of hashing records: the results, with those of the retry for changed files; when a
call rejects, a failure of every file. -/
def hashBatch (index : Nat) (batch : List PreparedUploadFile) : List NativeHashResult :=
  let requests := batch.map hashRequest
  let unavailable := batch.map fun file =>
    NativeHashResult.failed file.variantId .nativeHashingUnavailable
  match peers.hashPreparedFiles index false requests with
  | none => unavailable
  | some results =>
    let changedIds := results.filterMap fun
      | .failed variantId .fileChanged => some variantId
      | _ => none
    if changedIds = [] then results
    else match peers.hashPreparedFiles index true
        (requests.filter fun request => request.variantId ∈ changedIds) with
      | none => unavailable
      | some retried => results.map fun result =>
        (retried.reverse.find? fun again => again.variantId = result.variantId).getD result

def hashPass (candidates : List PreparedUploadFile) : List NativeHashResult :=
  (batches preflightBatchSize candidates).zipIdx.flatMap fun e => hashBatch peers e.2 e.1

/-- The files that are verified by their hash. -/
def verificationPayload (result : PreflightResult) : List PreflightVerifyFile :=
  result.receiverCandidateIds.filterMap fun id =>
    match fileById fileInfos id, result.computedHashes.lookup id with
    | some file, some sha256 =>
      some { id, name := file.transferFilename, size := file.size, sha256 }
    | _, _ => none

/-- The passes over the receiver's metadata answers. -/
def metadataPass : Option PreflightResult :=
  let payload := fileInfos.map fun file =>
    ({ id := file.variantId, name := file.transferFilename, size := file.size } : PreflightFile)
  (batches preflightBatchSize payload).zipIdx.foldlM
    (fun result e => result.checkBatch (peers.preflightCheck e.2 e.1) (e.1.map (·.id))) {}

/-- The pass over the receiver's verification answers. -/
def verificationPass (result : PreflightResult) : Option PreflightResult :=
  (batches preflightBatchSize (verificationPayload fileInfos result)).zipIdx.foldlM
    (fun result e => result.verifyBatch (peers.preflightVerify e.2 e.1) (e.1.map (·.id))) result

/-- Receiver candidates among `ids` are uploaded. -/
def uploadUnverified (result : PreflightResult) (ids : List String) : PreflightResult :=
  ids.foldl (fun result id => result.setAction id .upload) result

def hashGroups (result : PreflightResult) : List (String × List PreparedUploadFile) :=
  groupBy (fun file : PreparedUploadFile => result.computedHashes.lookup file.variantId) fileInfos

def resolveGroups (result : PreflightResult) (outgoingHashes : OutgoingHashRegistry) :
    PreflightResult × OutgoingHashRegistry :=
  (hashGroups fileInfos result).foldl (fun acc e => acc.1.resolveGroup acc.2 e.1 e.2)
    (result, outgoingHashes)

/-- `runDuplicatePreflightWindow`: its result and the registry after it; `none` when it throws an
authorization error. -/
def runDuplicatePreflightWindow (outgoingHashes : OutgoingHashRegistry) :
    Option (PreflightResult × OutgoingHashRegistry) :=
  if !shouldSkipDuplicates then
    some (uploadUnverified {} (fileInfos.map (·.variantId)), outgoingHashes)
  else do
    let result ← metadataPass peers fileInfos
    if !nativeAvailable then
      some (uploadUnverified result result.receiverCandidateIds, outgoingHashes)
    else do
      let result := (hashPass peers (hashCandidates fileInfos result.receiverCandidateIds)).foldl
        PreflightResult.recordHash result
      let result ← verificationPass peers fileInfos result
      let result := uploadUnverified result
        (result.receiverCandidateIds.filter fun id => (result.computedHashes.lookup id).isNone)
      some (resolveGroups fileInfos result outgoingHashes)

end Window

end LocalMediaTransfer
