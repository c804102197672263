import LocalMediaTransfer.Server.Inventory.HashEngine

/-!
# Preflight verification

Model of the inventory users of `io/FileWriter.cpp`: `verifyPreflight` with its cache of hashes,
`verifyInventoryRecord`, `findVerifiedDuplicate` and `storeHash`.

`verifyPreflight` looks at the file of the requested name, then at the pages of rows with the given
hash, then at the pages of rows with the given name, hash or size.  `fuel` bounds the number of
pages; `Scan.looks` keeps what each look at a file found and is read by nothing.
-/

set_option autoImplicit false

namespace LocalMediaTransfer

namespace Preflight

open Lib HashEngine

structure PreflightHashCacheEntry where
  sizeBytes : Nat
  modifiedTime : Int
  sha256 : ByteString
deriving DecidableEq, Repr

abbrev PreflightHashCache := Table ByteString PreflightHashCacheEntry

inductive PreflightDisposition where
  | upload
  | skip
  | uploadNameConflict
  | inconclusive
deriving DecidableEq, Repr

structure PreflightResult where
  disposition : PreflightDisposition
  filename : ByteString
deriving DecidableEq, Repr

/-- The arguments of `verifyPreflight`, with the sanitized name. -/
structure PreflightQuery where
  safeName : ByteString
  sizeBytes : Nat
  sha256 : ByteString

/-- What a look at a regular file of known size found. -/
inductive Verdict where
  /-- The size is not the requested one. -/
  | otherSize
  /-- The row has another hash and the file has not changed since. -/
  | settled
  /-- No hash could be computed. -/
  | unreadable
  /-- Size or modification time changed around the hashing. -/
  | changed
  | hashed (modifiedTime : Int) (hash : ByteString)
deriving DecidableEq, Repr

/-- A look at the file of a candidate. -/
structure Look where
  filename : ByteString
  storedHash : ByteString
  sizeBytes : Nat
  verdict : Verdict
deriving DecidableEq, Repr

/-- The local variables of `verifyPreflight`, the cache behind `hashCache`, and the looks. -/
structure Scan where
  sameNameConflict : Bool
  inconclusive : Bool
  hashCache : Option PreflightHashCache
  looks : List Look

def Scan.start (hashCache : Option PreflightHashCache) : Scan := ⟨false, false, hashCache, []⟩

def Scan.look (scan : Scan) (candidate : FileInventoryRecord) (sizeBytes : Nat)
    (verdict : Verdict) : Scan :=
  { scan with looks := scan.looks ++ [⟨candidate.filename, candidate.sha256, sizeBytes, verdict⟩] }

/-- `if (condition) sameNameConflict = true;` -/
def Scan.conflictIf (scan : Scan) (condition : Bool) : Scan :=
  { scan with sameNameConflict := scan.sameNameConflict || condition }

/-- `inconclusive = true;` -/
def Scan.setInconclusive (scan : Scan) : Scan := { scan with inconclusive := true }

/-- The cached hash of a file with this size and time, or nothing. -/
def cachedHash (hashCache : Option PreflightHashCache) (filename : ByteString) (sizeBytes : Nat)
    (modifiedTime : Int) : ByteString :=
  match hashCache.bind fun cache => cache.lookup filename with
  | some cached =>
      if cached.sizeBytes = sizeBytes ∧ cached.modifiedTime = modifiedTime then cached.sha256
      else []
  | none => []

/-- The cache is emptied when it holds 256 entries. -/
def rememberHash (hashCache : Option PreflightHashCache) (filename : ByteString)
    (entry : PreflightHashCacheEntry) : Option PreflightHashCache :=
  hashCache.map fun cache =>
    (if 256 ≤ cache.entries.length then ∅ else cache).insert filename entry

/-- `actualHash` of a candidate, from the cache or computed, and the cache after it. -/
def candidateHash (hashCache : Option PreflightHashCache) (filename : ByteString)
    (sizeBytes : Nat) (modifiedTime : Int) :
    InventoryProg (ByteString × Option PreflightHashCache) := do
  let cached := cachedHash hashCache filename sizeBytes modifiedTime
  if !cached.isEmpty then return (cached, hashCache)
  let computed ← HashEngine.computeFileHash .preflight filename.filename (some sizeBytes)
  if computed.isEmpty then return ([], hashCache)
  return (computed, rememberHash hashCache filename ⟨sizeBytes, modifiedTime, computed⟩)

/-- The rest of the loop body once a hash is there: the file must not have changed meanwhile. -/
def recheckCandidate (q : PreflightQuery) (candidate : FileInventoryRecord) (actualSize : Nat)
    (modifiedTime : Int) (actualHash : ByteString) (scan : Scan) : InventoryProg (Bool × Scan) := do
  let name := candidate.filename.filename
  let afterSize ← fileSize .preflightAfter name
  let afterModifiedTime ← fileModifiedTime .preflightAfter name
  match afterSize with
  | none => return (false, (scan.look candidate actualSize .changed).setInconclusive)
  | some size =>
      if size ≠ actualSize ∨ afterModifiedTime ≠ modifiedTime then
        upsertFile ⟨candidate.filename, [], size, afterModifiedTime, ← unixNow⟩
        return (false, (scan.look candidate actualSize .changed).setInconclusive)
      else
        upsertFile ⟨candidate.filename, actualHash, actualSize, modifiedTime, ← unixNow⟩
        let scan := scan.look candidate actualSize (.hashed modifiedTime actualHash)
        if actualHash = q.sha256 then return (true, scan)
        else return (false, scan.conflictIf (candidate.filename == q.safeName))

/-- The part of the loop body for a file of the requested size. -/
def hashCandidate (q : PreflightQuery) (candidate : FileInventoryRecord) (actualSize : Nat)
    (scan : Scan) : InventoryProg (Bool × Scan) := do
  let modifiedTime ← fileModifiedTime .preflightBefore candidate.filename.filename
  let exactName := candidate.filename == q.safeName
  let storedHashMatches := candidate.sha256 == q.sha256
  let inventoryMetadataChanged :=
    candidate.sizeBytes != actualSize || candidate.modifiedTime != modifiedTime
  if !exactName && !candidate.sha256.isEmpty && !storedHashMatches && !inventoryMetadataChanged then
    return (false, scan.look candidate actualSize .settled)
  else
    let (actualHash, hashCache) ←
      candidateHash scan.hashCache candidate.filename actualSize modifiedTime
    if actualHash.isEmpty then
      return (false, (Scan.look { scan with hashCache } candidate actualSize
        .unreadable).setInconclusive)
    else
      recheckCandidate q candidate actualSize modifiedTime actualHash { scan with hashCache }

/-- The body of the candidate loop of `verifyPreflight`; `true` is its `return` of a skip. -/
def verifyCandidate (q : PreflightQuery) (candidate : FileInventoryRecord) (scan : Scan) :
    InventoryProg (Bool × Scan) := do
  let name := candidate.filename.filename
  if (← fileStatus name) ≠ .regular then
    removeFile candidate.filename
    return (false, scan)
  else
    match ← fileSize .preflightBefore name with
    | none => return (false, scan)
    | some actualSize =>
        let scan := scan.conflictIf (candidate.filename == q.safeName &&
          (actualSize != q.sizeBytes || candidate.sha256 != q.sha256))
        if actualSize ≠ q.sizeBytes then
          return (false, scan.look candidate actualSize .otherSize)
        else hashCandidate q candidate actualSize scan

/-- The candidate loop; the name is that of a skip. -/
def verifyCandidates (q : PreflightQuery) :
    List FileInventoryRecord → Scan → InventoryProg (Option ByteString × Scan)
  | [], scan => return (none, scan)
  | candidate :: rest, scan => do
      match ← verifyCandidate q candidate scan with
      | (true, scan) => return (some candidate.filename, scan)
      | (false, scan) => verifyCandidates q rest scan

/-- The answer after the last page. -/
def PreflightQuery.answer (q : PreflightQuery) (scan : Scan) : PreflightResult :=
  if scan.sameNameConflict then ⟨.uploadNameConflict, q.safeName⟩
  else if scan.inconclusive then ⟨.inconclusive, q.safeName⟩
  else ⟨.upload, q.safeName⟩

/-- The next page of candidates: indexed matches first, then everything plausible. -/
def nextCandidates (q : PreflightQuery) (knownHashPages : Bool) (afterFilename : ByteString) :
    InventoryProg (List FileInventoryRecord) :=
  if knownHashPages then findByHash q.sha256 afterFilename
  else findVerificationCandidates q.safeName q.sizeBytes q.sha256 afterFilename

/-- The page loop of `verifyPreflight` after the exact name; no result is a lack of `fuel`. -/
def verifyPages (q : PreflightQuery) :
    Nat → Bool → ByteString → Scan → InventoryProg (Option (PreflightResult × Scan))
  | 0, _, _, _ => return none
  | fuel + 1, knownHashPages, afterFilename, scan => do
      let candidates ← nextCandidates q knownHashPages afterFilename
      match candidates.getLast? with
      | none =>
          if knownHashPages then verifyPages q fuel false [] scan
          else return some (q.answer scan, scan)
      | some last =>
          match ← verifyCandidates q candidates scan with
          | (some name, scan) => return some (⟨.skip, name⟩, scan)
          | (none, scan) => verifyPages q fuel knownHashPages last.filename scan

/-- The record that stands for the file of the requested name; an unreadable size is the error
value of `file_size`. -/
def exactCandidate (safeName : ByteString) (sizeBytes : Option Nat) : FileInventoryRecord :=
  ⟨safeName, [], sizeBytes.getD (2 ^ 64 - 1), 0, 0⟩

/-- The candidates of the first round. -/
def exactCandidates (safeName : ByteString) : InventoryProg (List FileInventoryRecord) := do
  if (← fileStatus safeName.filename) = .regular then
    let size ← fileSize .exactCandidate safeName.filename
    return [exactCandidate safeName size]
  else return []

/-- `verifyPreflight`. -/
def verifyPreflight (fuel : Nat) (env : NameEnv) (originalName : ByteString) (sizeBytes : Nat)
    (sha256 : ByteString) (hashCache : Option PreflightHashCache) :
    InventoryProg (Option (PreflightResult × Scan)) := do
  if sha256.length ≠ 64 then return some (⟨.upload, []⟩, .start hashCache)
  else
    let q : PreflightQuery := ⟨makeFinalFilename env originalName, sizeBytes, sha256⟩
    let candidates ← exactCandidates q.safeName
    match ← verifyCandidates q candidates (.start hashCache) with
    | (some name, scan) => return some (⟨.skip, name⟩, scan)
    | (none, scan) => verifyPages q fuel true [] scan

/-! ## Finalization -/

/-- `verifyInventoryRecord`. -/
def verifyInventoryRecord (filename : ByteString) (expectedSize : Nat) (expectedHash : ByteString) :
    InventoryProg Bool := do
  let name := filename.filename
  if (← fileStatus name) ≠ .regular then
    removeFile filename
    return false
  match ← fileSize .verifyRecord name with
  | none =>
      removeFile filename
      return false
  | some actualSize =>
      if expectedSize ≠ 0 ∧ actualSize ≠ expectedSize then
        removeFile filename
        return false
      let actualHash ← HashEngine.computeFileHash .verifyRecord name (some actualSize)
      if actualHash = expectedHash then
        let modifiedTime ← fileModifiedTime .recordVerified name
        upsertFile ⟨filename, actualHash, actualSize, modifiedTime, ← unixNow⟩
        return true
      let modifiedTime ← fileModifiedTime .recordInvalidated name
      let verifiedAt ← if actualHash.isEmpty then pure 0 else unixNow
      upsertFile ⟨filename, actualHash, actualSize, modifiedTime, verifiedAt⟩
      return false

/-- The record loop of `findVerifiedDuplicate`. -/
def verifyRecords (hash : ByteString) : List FileInventoryRecord → InventoryProg (Option ByteString)
  | [] => return none
  | record :: rest => do
      if ← verifyInventoryRecord record.filename record.sizeBytes hash then
        return some record.filename
      verifyRecords hash rest

/-- `findVerifiedDuplicate`, on at most `fuel` pages. -/
def findVerifiedDuplicate (hash : ByteString) : Nat → ByteString → InventoryProg (Option ByteString)
  | 0, _ => return none
  | fuel + 1, afterFilename => do
      let records ← findByHash hash afterFilename
      match records.getLast? with
      | none => return none
      | some last =>
          match ← verifyRecords hash records with
          | some filename => return some filename
          | none => findVerifiedDuplicate hash fuel last.filename

/-- `storeHash`. -/
def storeHash (hash filename : ByteString) : InventoryProg Unit := do
  if hash.isEmpty then return ()
  let name := filename.filename
  let size ← fileSize .stored name
  let modifiedTime ← fileModifiedTime .stored name
  upsertFile ⟨filename, hash, size.getD 0, modifiedTime, ← unixNow⟩

end Preflight

end LocalMediaTransfer
