import LocalMediaTransfer.Server.Inventory.Preflight

/-!
# The writers of the inventory, side by side

Everything that writes inventory rows (a finished upload, the duplicate check, preflight requests,
reconciliation, the background indexing) runs in threads that make one call at a time, next to
modifications of the destination from outside.  `m_mutex` is the `owner`: while a reconciliation
is between `BEGIN` and `COMMIT` or `ROLLBACK`, the statements of other threads wait.

A file keeps the list of the states it has been in.  The content of an open file is read over a
period of time: if the file changed since it was opened, any text may come out as its hash.
-/

set_option autoImplicit false

namespace LocalMediaTransfer

namespace InventoryWriters

open Lib HashEngine Preflight

/-! ## The world -/

/-- A regular file of the destination. -/
structure DestinationFile where
  content : ByteString
  modifiedTime : Int
deriving DecidableEq, Repr

def DestinationFile.size (f : DestinationFile) : Nat := f.content.length

/-- A period that ends with the reading of a modification time for a row: between the two readings
of a verification, or from the opening for the hash (or the publication) of a finished upload. -/
inductive Hold where
  | verifying (name : ByteString)
  | recording (name : ByteString)
deriving DecidableEq, Repr

/-- The destination with its past, newest state first (`none`: no file), the database, and for each
thread the period it is in and the file it has open, with the number of states at that time. -/
structure World (θ : Type) where
  history : ByteString → List (Option DestinationFile)
  database : Database
  owner : Option θ
  hold : θ → Option Hold
  stream : θ → Option (ByteString × Nat)

variable {θ : Type} [DecidableEq θ]

/-- The present state of a name. -/
def World.file (s : World θ) (name : ByteString) : Option DestinationFile :=
  (s.history name).head?.join

def World.setHold (s : World θ) (t : θ) (hold : Option Hold) : World θ :=
  { s with hold := Function.update s.hold t hold }

def World.push (s : World θ) (name : ByteString) (file : Option DestinationFile) : World θ :=
  { s with history := Function.update s.history name (file :: s.history name) }

/-- What a call leaves open. -/
structure Decision where
  /-- The file can be opened, or published. -/
  opens : Bool
  /-- The content can be read to its end. -/
  reads : Bool
  /-- The hash that comes out of a file that changed meanwhile. -/
  hash : ByteString
  listing : List ByteString × Bool
  now : Int
  stop : Bool
  /-- The state of a published file. -/
  published : DestinationFile
  /-- The statement, or the reading of a status, a size or a time, fails. -/
  fault : Bool

/-- A modification time is read: of which period it is the beginning or the end. -/
def holdAfterTime (site : Site) (name : ByteString) (hold : Option Hold) : Option Hold :=
  match site with
  | .preflightBefore => some (.verifying name)
  | .indexingBefore => some (.verifying name)
  | .recordInvalidated => none
  | .stored => none
  | _ => hold

/-- The size read after the hashing ends a verification. -/
def holdAfterSize (site : Site) (hold : Option Hold) : Option Hold :=
  match site with
  | .preflightAfter => none
  | .indexingAfter => none
  | _ => hold

/-- The opening for the hash of a finished upload. -/
def holdAfterOpen (site : Site) (name : ByteString) (hold : Option Hold) : Option Hold :=
  match site with
  | .verifyRecord => some (.recording name)
  | .finalization => some (.recording name)
  | _ => hold

/-- The hash that comes out of the open file. -/
def streamHash (sha256 : ByteString → ByteString) (s : World θ) (t : θ) (name : ByteString)
    (expectedSize : Nat) (d : Decision) : ByteString :=
  if s.stream t = some (name, (s.history name).length) then
    match s.file name with
    | some f => if d.reads ∧ f.size = expectedSize then sha256 f.content else []
    | none => []
  else d.hash

/-- A call to the destination; it turns to another file with `status`. -/
def performFile (sha256 : ByteString → ByteString) (t : θ) (s : World θ) (d : Decision) :
    (c : FileCall) → c.Answer × World θ
  | .status name =>
      (if d.fault then .failed else if (s.file name).isSome then .regular else .notFound,
        s.setHold t none)
  | .fileSize site name =>
      (if d.fault then none else (s.file name).map (·.size),
        s.setHold t (holdAfterSize site (s.hold t)))
  | .lastWriteTime site name =>
      (if d.fault then 0 else (s.file name).elim 0 (·.modifiedTime),
        s.setHold t (holdAfterTime site name (s.hold t)))
  | .openFile site name =>
      if d.opens ∧ (s.file name).isSome then
        (true, { s.setHold t (holdAfterOpen site name (s.hold t)) with
          stream := Function.update s.stream t (some (name, (s.history name).length)) })
      else (false, s)
  | .streamHash name expectedSize => (streamHash sha256 s t name expectedSize d, s)
  | .listDirectory => (d.listing, s)
  | .now => (d.now, s)
  | .stopRequested => (d.stop, s)
  | .publish name fullHash =>
      if d.opens ∧ s.file name = none ∧ sha256 d.published.content = fullHash then
        (true, (s.push name (some d.published)).setHold t (some (.recording name)))
      else (false, s)

/-- Who holds the mutex after a statement. -/
def ownerAfter (t : θ) (owner : Option θ) : (c : DbCall) → c.Answer → Option θ
  | .begin, some () => some t
  | .commit, some () => none
  | .rollback, _ => none
  | _, _ => owner

/-- A call of thread `t`; a statement waits while another thread owns the database. -/
def perform (sha256 : ByteString → ByteString) (t : θ) (s : World θ) :
    (c : InventoryCalls.Call) → Decision → Option (InventoryCalls.Answer c × World θ)
  | .inl c, d => some (performFile sha256 t s d c)
  | .inr c, d =>
      if s.owner.all (· = t) then
        let r := s.database.serve d.fault c
        some (r.1, { s with database := r.2, owner := ownerAfter t s.owner c r.1 })
      else none

/-- A modification from outside: the name gets another file, with another size or modification
time, or none. -/
def disturb (s : World θ) (m : ByteString × Option DestinationFile) : Option (World θ) :=
  if (s.file m.1).map (fun f => (f.size, f.modifiedTime)) =
      m.2.map (fun f => (f.size, f.modifiedTime)) then none
  else some (s.push m.1 m.2)

/-! ## The programs -/

/-- A name that is a single path component. -/
abbrev PlainName := { name : ByteString // name.filename = name }

/-- The files of one preflight request, which share the cache. -/
def verifyRequest (fuel : Nat) (env : NameEnv) :
    List (ByteString × Nat × ByteString) → Option PreflightHashCache → InventoryProg Unit
  | [], _ => return ()
  | (name, size, sha256) :: rest, hashCache => do
      match ← verifyPreflight fuel env name size sha256 hashCache with
      | none => return ()
      | some (_, scan) => verifyRequest fuel env rest scan.hashCache

/-- The hash of the file that has the name already. -/
def existingHash (finalName : ByteString) (skipExactDuplicates : Bool) : InventoryProg ByteString :=
  if skipExactDuplicates then HashEngine.computeFileHash .finalization finalName none else return []

/-- The search for a verified duplicate before an upload is published. -/
def finalDuplicate (fuel : Nat) (fullHash : ByteString) (skipExactDuplicates : Bool) :
    InventoryProg (Option ByteString) :=
  if skipExactDuplicates then Preflight.findVerifiedDuplicate fullHash fuel [] else return none

/-- Publish a finished upload under a free name and enter it. -/
def publishAndStore (name : PlainName) (fullHash : ByteString) : InventoryProg Unit := do
  if ← publishTemporary name.1 fullHash then storeHash fullHash name.1 else return ()

/-- Enter a duplicate, once the temporary file is removed. -/
def storeDuplicate (removed : Bool) (fullHash duplicateName : ByteString) : InventoryProg Unit :=
  if removed then storeHash fullHash duplicateName else return ()

/-- What a finished upload comes with: its name and its SHA-256, whether exact duplicates are
skipped, the outcome of `makeNumberedFilename` where both files are kept, and whether its temporary
file can be removed. -/
structure FinishedUpload where
  finalName : PlainName
  fullHash : ByteString
  skipExactDuplicates : Bool
  numberedName : Option PlainName
  removed : Bool

/-- The part of the finalization that touches the destination and the inventory. -/
def finalize (fuel : Nat) (upload : FinishedUpload) : InventoryProg Unit := do
  if (← fileStatus upload.finalName.1) ≠ .notFound then
    let existing ← existingHash upload.finalName.1 upload.skipExactDuplicates
    if upload.skipExactDuplicates ∧ !existing.isEmpty ∧ existing = upload.fullHash then
      storeDuplicate upload.removed upload.fullHash upload.finalName.1
    else
      match ← finalDuplicate fuel upload.fullHash upload.skipExactDuplicates with
      | some duplicateName => storeDuplicate upload.removed upload.fullHash duplicateName
      | none =>
          match upload.numberedName with
          | some name => publishAndStore name upload.fullHash
          | none => return ()
  else
    match ← finalDuplicate fuel upload.fullHash upload.skipExactDuplicates with
    | some duplicateName => storeDuplicate upload.removed upload.fullHash duplicateName
    | none => publishAndStore upload.finalName upload.fullHash

/-- What a thread can be started on. -/
inductive Writer where
  | reconcile
  | backgroundIndexing (fuel passes : Nat)
  | preflight (fuel : Nat) (env : NameEnv) (files : List (ByteString × Nat × ByteString))
  | isDuplicate (fuel : Nat) (hash : ByteString)
  | finalize (fuel : Nat) (upload : FinishedUpload)

def Writer.program : Writer → InventoryProg Unit
  | .reconcile => do
      let _ ← reconcileDirectory
      return ()
  | .backgroundIndexing fuel passes => runBackgroundIndexing fuel passes
  | .preflight fuel env files => verifyRequest fuel env files (some ∅)
  | .isDuplicate fuel hash => do
      if hash.isEmpty then return ()
      else
        let _ ← Preflight.findVerifiedDuplicate hash fuel []
        return ()
  | .finalize fuel upload => InventoryWriters.finalize fuel upload

/-- The receiver's storage as a system of threads. -/
def storage (sha256 : ByteString → ByteString) : Pool.System InventoryCalls θ (World θ) Writer
    (ByteString × Option DestinationFile) Decision where
  perform := perform sha256
  program := Writer.program
  disturb := disturb

end InventoryWriters

end LocalMediaTransfer
