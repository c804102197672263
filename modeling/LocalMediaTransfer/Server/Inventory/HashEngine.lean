import LocalMediaTransfer.Lib.Interaction
import LocalMediaTransfer.Lib.SortedTable
import LocalMediaTransfer.Lib.Table
import LocalMediaTransfer.Server.Filename

/-!
# The file inventory

Model of `io/HashEngine.cpp`: the table `files` with its queries, `reconcileDirectory`, and one
pass of the background indexing.  The functions are programs that call the destination directory
(`FileCall`) and the database (`DbCall`); what the directory answers is left to the module that
runs them, and the database is the table with its transaction (`Database.serve`).

A call names the place it is made from (`Site`) where the same question is asked twice.  The
storage faults of a reconciliation are answers of its statements; elsewhere a fault ends the call
with an exception, and the calls here are those that a healthy database answers.
-/

set_option autoImplicit false

namespace LocalMediaTransfer

open Lib

/-! ## The table -/

/-- `memcmp` order of the text keys. -/
instance linearOrderByte : LinearOrder UInt8 where
  le_refl := UInt8.le_refl
  le_trans _ _ _ := UInt8.le_trans
  le_antisymm _ _ := UInt8.le_antisymm
  le_total := UInt8.le_total
  lt_iff_le_not_ge a b := by
    simp only [UInt8.lt_iff_toNat_lt, UInt8.le_iff_toNat_le]
    omega
  toDecidableLE := inferInstance
  toDecidableEq := inferInstance
  toDecidableLT := inferInstance

/-- `FileInventoryRecord`, a row of `files`; an empty `sha256` is `NULL`. -/
structure FileInventoryRecord where
  filename : ByteString
  sha256 : ByteString
  sizeBytes : Nat
  modifiedTime : Int
  verifiedAt : Int
deriving DecidableEq, Repr

/-- The table `files` with its primary key. -/
abbrev Inventory := SortedTable FileInventoryRecord.filename

/-- `LIMIT 256`. -/
def pageLimit : Nat := 256

/-- `findByHash`. -/
def Inventory.findByHash (files : Inventory) (hash afterFilename : ByteString) :
    List FileInventoryRecord :=
  if hash.isEmpty then []
  else files.page (fun r => r.sha256 == hash) afterFilename pageLimit

/-- `findVerificationCandidates`. -/
def Inventory.findVerificationCandidates (files : Inventory) (filename : ByteString)
    (sizeBytes : Nat) (expectedHash afterFilename : ByteString) : List FileInventoryRecord :=
  if filename.isEmpty || expectedHash.isEmpty then []
  else
    files.page
      (fun r => r.filename == filename || r.sha256 == expectedHash || r.sizeBytes == sizeBytes)
      afterFilename pageLimit

/-- `findUnhashedFiles`. -/
def Inventory.findUnhashedFiles (files : Inventory) (afterFilename : ByteString) :
    List FileInventoryRecord :=
  files.page (fun r => r.sha256.isEmpty) afterFilename pageLimit

/-- `upsertFile`. -/
def Inventory.upsertFile (files : Inventory) (record : FileInventoryRecord) : Inventory :=
  if record.filename.isEmpty then files else files.upsert record

/-- `removeFile`. -/
def Inventory.removeFile (files : Inventory) (filename : ByteString) : Inventory :=
  if filename.isEmpty then files else files.erase filename

namespace HashEngine

/-! ## Calls -/

/-- `fs::status` of a path, with its error code. -/
inductive FileStatus where
  | regular
  | other
  | notFound
  | failed
deriving DecidableEq, Repr

/-- The place in the source that a call is made from. -/
inductive Site where
  | reconcile
  | indexingBefore
  | indexingAfter
  | exactCandidate
  | preflightBefore
  | preflightAfter
  | hashing
  | preflight
  | indexing
  | finalization
  | verifyRecord
  | recordVerified
  | recordInvalidated
  | stored
deriving DecidableEq, Repr

/-- What the programs ask the destination directory, the clock and the stop flag. -/
inductive FileCall where
  /-- `fs::is_regular_file(root / name, ec)`. -/
  | status (name : ByteString)
  /-- `fs::file_size(root / name, ec)`; no answer is an error code. -/
  | fileSize (site : Site) (name : ByteString)
  /-- `fs::last_write_time` in nanoseconds, zero on an error. -/
  | lastWriteTime (site : Site) (name : ByteString)
  /-- `std::ifstream input(root / name)`. -/
  | openFile (site : Site) (name : ByteString)
  /-- `computeStreamHash` of the open file, empty on any failure. -/
  | streamHash (name : ByteString) (expectedSize : Nat)
  /-- The entries that `fs::directory_iterator` yields, and whether an error ended it. -/
  | listDirectory
  /-- `std::time(nullptr)`. -/
  | now
  /-- `m_stopBackground`. -/
  | stopRequested
  /-- The rename of a finished upload with this SHA-256 to a free name. -/
  | publish (name fullHash : ByteString)

/-- The answers to a `FileCall`. -/
@[reducible] def FileCall.Answer : FileCall → Type
  | .status _ => FileStatus
  | .fileSize _ _ => Option Nat
  | .lastWriteTime _ _ => Int
  | .openFile _ _ => Bool
  | .streamHash _ _ => ByteString
  | .listDirectory => List ByteString × Bool
  | .now => Int
  | .stopRequested => Bool
  | .publish _ _ => Bool

/-- What the programs ask the database. -/
inductive DbCall where
  | findByHash (hash afterFilename : ByteString)
  | findVerificationCandidates (filename : ByteString) (sizeBytes : Nat)
      (expectedHash afterFilename : ByteString)
  | findUnhashedFiles (afterFilename : ByteString)
  | upsertFile (record : FileInventoryRecord)
  | removeFile (filename : ByteString)
  | requireHealthy
  /-- `BEGIN IMMEDIATE;` -/
  | begin
  | prepare
  /-- The row of a name, if there is one. -/
  | lookup (filename : ByteString)
  | upsert (record : FileInventoryRecord)
  /-- `SELECT filename FROM files;` -/
  | allNames
  /-- A step of that statement. -/
  | nextName
  | remove (filename : ByteString)
  /-- `COMMIT;` -/
  | commit
  /-- `ROLLBACK;` in the destructor of a transaction that is still active. -/
  | rollback
  | markUnhealthy

/-- The answers to a `DbCall`; no answer of a statement is an exception. -/
@[reducible] def DbCall.Answer : DbCall → Type
  | .findByHash _ _ => List FileInventoryRecord
  | .findVerificationCandidates _ _ _ _ => List FileInventoryRecord
  | .findUnhashedFiles _ => List FileInventoryRecord
  | .upsertFile _ => Unit
  | .removeFile _ => Unit
  | .requireHealthy => Option Unit
  | .begin => Option Unit
  | .prepare => Option Unit
  | .lookup _ => Option (Option FileInventoryRecord)
  | .upsert _ => Option Unit
  | .allNames => Option (List ByteString)
  | .nextName => Option Unit
  | .remove _ => Option Unit
  | .commit => Option Unit
  | .rollback => Unit
  | .markUnhealthy => Unit

/-- The calls of the inventory's programs. -/
abbrev InventoryCalls : Interface where
  Call := FileCall ⊕ DbCall
  Answer
    | .inl c => c.Answer
    | .inr c => c.Answer

abbrev InventoryProg := Prog InventoryCalls

private abbrev file (c : FileCall) : InventoryProg c.Answer := Prog.ask
    (J := InventoryCalls) (.inl c)
private abbrev db (c : DbCall) : InventoryProg c.Answer := Prog.ask (J := InventoryCalls) (.inr c)

def fileStatus (name : ByteString) : InventoryProg FileStatus := file (.status name)
def fileSize (site : Site) (name : ByteString) : InventoryProg (Option Nat) :=
  file (.fileSize site name)
def fileModifiedTime (site : Site) (name : ByteString) : InventoryProg Int :=
  file (.lastWriteTime site name)
def openFile (site : Site) (name : ByteString) : InventoryProg Bool := file (.openFile site name)
def computeStreamHash (name : ByteString) (expectedSize : Nat) : InventoryProg ByteString :=
  file (.streamHash name expectedSize)
def listDirectory : InventoryProg (List ByteString × Bool) := file .listDirectory
def unixNow : InventoryProg Int := file .now
def stopRequested : InventoryProg Bool := file .stopRequested
def publishTemporary (name fullHash : ByteString) : InventoryProg Bool :=
  file (.publish name fullHash)

def findByHash (hash afterFilename : ByteString) : InventoryProg (List FileInventoryRecord) :=
  db (.findByHash hash afterFilename)
def findVerificationCandidates (filename : ByteString) (sizeBytes : Nat)
    (expectedHash afterFilename : ByteString) : InventoryProg (List FileInventoryRecord) :=
  db (.findVerificationCandidates filename sizeBytes expectedHash afterFilename)
def findUnhashedFiles (afterFilename : ByteString) : InventoryProg (List FileInventoryRecord) :=
  db (.findUnhashedFiles afterFilename)
def upsertFile (record : FileInventoryRecord) : InventoryProg Unit := db (.upsertFile record)
def removeFile (filename : ByteString) : InventoryProg Unit := db (.removeFile filename)
def markUnhealthy : InventoryProg Unit := db .markUnhealthy

/-- A statement of the reconciliation: no answer ends the transaction. -/
private abbrev statement {α : Type} (p : InventoryProg (Option α)) : OptionT InventoryProg α :=
  OptionT.mk p

def requireHealthy : OptionT InventoryProg Unit := statement (db .requireHealthy)
def beginTransaction : OptionT InventoryProg Unit := statement (db .begin)
def prepare : OptionT InventoryProg Unit := statement (db .prepare)
def lookup (filename : ByteString) : OptionT InventoryProg (Option FileInventoryRecord) :=
  statement (db (.lookup filename))
def upsert (record : FileInventoryRecord) : OptionT InventoryProg Unit :=
  statement (db (.upsert record))
def allNames : OptionT InventoryProg (List ByteString) := statement (db .allNames)
def nextName : OptionT InventoryProg Unit := statement (db .nextName)
def remove (filename : ByteString) : OptionT InventoryProg Unit :=
  statement (db (.remove filename))
def commit : OptionT InventoryProg Unit := statement (db .commit)
def rollback : InventoryProg Unit := db .rollback

section Calls

variable {σ : Type} {step : σ → (c : InventoryCalls.Call) → InventoryCalls.Answer c → σ → Prop}
  (s : σ)

@[simp] theorem wp_fileStatus (name : ByteString) (Q : FileStatus → σ → Prop) :
    wp step (fileStatus name) Q s =
      ∀ (x : FileStatus) s', step s (.inl (.status name)) x s' → Q x s' :=
  rfl

@[simp] theorem wp_fileSize (site : Site) (name : ByteString) (Q : Option Nat → σ → Prop) :
    wp step (fileSize site name) Q s =
      ∀ (x : Option Nat) s', step s (.inl (.fileSize site name)) x s' → Q x s' := rfl

@[simp] theorem wp_fileModifiedTime (site : Site) (name : ByteString) (Q : Int → σ → Prop) :
    wp step (fileModifiedTime site name) Q s =
      ∀ (x : Int) s', step s (.inl (.lastWriteTime site name)) x s' → Q x s' := rfl

@[simp] theorem wp_openFile (site : Site) (name : ByteString) (Q : Bool → σ → Prop) :
    wp step (openFile site name) Q s =
      ∀ (x : Bool) s', step s (.inl (.openFile site name)) x s' → Q x s' := rfl

@[simp] theorem wp_computeStreamHash (name : ByteString) (size : Nat) (Q : ByteString → σ → Prop) :
    wp step (computeStreamHash name size) Q s =
      ∀ (x : ByteString) s', step s (.inl (.streamHash name size)) x s' → Q x s' := rfl

@[simp] theorem wp_listDirectory (Q : List ByteString × Bool → σ → Prop) :
    wp step listDirectory Q s =
      ∀ (x : List ByteString × Bool) s', step s (.inl .listDirectory) x s' → Q x s' := rfl

@[simp] theorem wp_unixNow (Q : Int → σ → Prop) :
    wp step unixNow Q s = ∀ (x : Int) s', step s (.inl .now) x s' → Q x s' := rfl

@[simp] theorem wp_findByHash (hash after : ByteString)
    (Q : List FileInventoryRecord → σ → Prop) :
    wp step (findByHash hash after) Q s =
      ∀ (x : List FileInventoryRecord) s', step s (.inr (.findByHash hash after)) x s' →
        Q x s' := rfl

@[simp] theorem wp_findVerificationCandidates (filename : ByteString) (size : Nat)
    (hash after : ByteString) (Q : List FileInventoryRecord → σ → Prop) :
    wp step (findVerificationCandidates filename size hash after) Q s =
      ∀ (x : List FileInventoryRecord) s',
        step s (.inr (.findVerificationCandidates filename size hash after)) x s' → Q x s' := rfl

@[simp] theorem wp_upsertFile (record : FileInventoryRecord) (Q : Unit → σ → Prop) :
    wp step (upsertFile record) Q s =
      ∀ (x : Unit) s', step s (.inr (.upsertFile record)) x s' → Q x s' := rfl

@[simp] theorem wp_removeFile (filename : ByteString) (Q : Unit → σ → Prop) :
    wp step (removeFile filename) Q s =
      ∀ (x : Unit) s', step s (.inr (.removeFile filename)) x s' → Q x s' := rfl

@[simp] theorem wp_markUnhealthy (Q : Unit → σ → Prop) :
    wp step markUnhealthy Q s = ∀ (x : Unit) s', step s (.inr .markUnhealthy) x s' → Q x s' := rfl

@[simp] theorem wp_rollback (Q : Unit → σ → Prop) :
    wp step rollback Q s = ∀ (x : Unit) s', step s (.inr .rollback) x s' → Q x s' := rfl

@[simp] theorem wp_requireHealthy (Q : Option Unit → σ → Prop) :
    wp step requireHealthy.run Q s =
      ∀ (x : Option Unit) s', step s (.inr .requireHealthy) x s' → Q x s' := rfl

@[simp] theorem wp_beginTransaction (Q : Option Unit → σ → Prop) :
    wp step beginTransaction.run Q s =
      ∀ (x : Option Unit) s', step s (.inr .begin) x s' → Q x s' := rfl

@[simp] theorem wp_prepare (Q : Option Unit → σ → Prop) :
    wp step prepare.run Q s = ∀ (x : Option Unit) s', step s (.inr .prepare) x s' → Q x s' := rfl

@[simp] theorem wp_lookup (filename : ByteString)
    (Q : Option (Option FileInventoryRecord) → σ → Prop) :
    wp step (lookup filename).run Q s =
      ∀ (x : Option (Option FileInventoryRecord)) s', step s (.inr (.lookup filename)) x s' →
        Q x s' :=
  rfl

@[simp] theorem wp_upsert (record : FileInventoryRecord) (Q : Option Unit → σ → Prop) :
    wp step (upsert record).run Q s =
      ∀ (x : Option Unit) s', step s (.inr (.upsert record)) x s' → Q x s' := rfl

@[simp] theorem wp_allNames (Q : Option (List ByteString) → σ → Prop) :
    wp step allNames.run Q s =
      ∀ (x : Option (List ByteString)) s', step s (.inr .allNames) x s' → Q x s' := rfl

@[simp] theorem wp_nextName (Q : Option Unit → σ → Prop) :
    wp step nextName.run Q s = ∀ (x : Option Unit) s', step s (.inr .nextName) x s' → Q x s' := rfl

@[simp] theorem wp_remove (filename : ByteString) (Q : Option Unit → σ → Prop) :
    wp step (remove filename).run Q s =
      ∀ (x : Option Unit) s', step s (.inr (.remove filename)) x s' → Q x s' := rfl

@[simp] theorem wp_commit (Q : Option Unit → σ → Prop) :
    wp step commit.run Q s = ∀ (x : Option Unit) s', step s (.inr .commit) x s' → Q x s' := rfl

end Calls

/-! ## The database -/

/-- The committed table, the transaction in progress and `m_healthy`. -/
structure Database where
  files : Inventory
  working : Option Inventory
  healthy : Bool

/-- A healthy database between transactions. -/
def Database.of (files : Inventory) : Database := ⟨files, none, true⟩

/-- The table that statements see. -/
def Database.current (d : Database) : Inventory := d.working.getD d.files

/-- Change the table that statements see. -/
def Database.modify (d : Database) (f : Inventory → Inventory) : Database :=
  match d.working with
  | some working => { d with working := some (f working) }
  | none => { d with files := f d.files }

/-- What the database answers and becomes; `fault` is a failing statement. -/
def Database.serve (d : Database) (fault : Bool) : (c : DbCall) → c.Answer × Database
  | .findByHash hash afterFilename => (d.current.findByHash hash afterFilename, d)
  | .findVerificationCandidates filename sizeBytes expectedHash afterFilename =>
      (d.current.findVerificationCandidates filename sizeBytes expectedHash afterFilename, d)
  | .findUnhashedFiles afterFilename => (d.current.findUnhashedFiles afterFilename, d)
  | .upsertFile record => ((), d.modify fun files => files.upsertFile record)
  | .removeFile filename => ((), d.modify fun files => files.removeFile filename)
  | .requireHealthy => (if d.healthy then some () else none, d)
  | .begin => if fault then (none, d) else (some (), { d with working := some d.files })
  | .prepare => (if fault then none else some (), d)
  | .lookup filename => (if fault then none else some (d.current.lookup filename), d)
  | .upsert record =>
      if fault then (none, d) else (some (), d.modify fun files => files.upsert record)
  | .allNames => (if fault then none else some (d.current.rows.map (·.filename)), d)
  | .nextName => (if fault then none else some (), d)
  | .remove filename =>
      if fault then (none, d) else (some (), d.modify fun files => files.erase filename)
  | .commit =>
      if fault then (none, d)
      else (some (), { d with files := d.current, working := none })
  | .rollback => ((), { d with working := none })
  | .markUnhealthy => ((), { d with healthy := false })

/-- The database next to a directory that gives the answers in `answers`. -/
def Serves (answers : (c : FileCall) → c.Answer → Prop) (d : Database) :
    (c : InventoryCalls.Call) → InventoryCalls.Answer c → Database → Prop
  | .inl c, x, d' => answers c x ∧ d' = d
  | .inr c, x, d' => ∃ fault, d.serve fault c = (x, d')

theorem serves_total {answers : (c : FileCall) → c.Answer → Prop}
    (hanswers : ∀ c, ∃ x, answers c x) (d : Database) (c : InventoryCalls.Call) :
    ∃ x d', Serves answers d c x d' := by
  cases c with
  | inl c =>
    obtain ⟨x, hx⟩ := hanswers c
    exact ⟨x, d, hx, rfl⟩
  | inr c => exact ⟨_, _, false, rfl⟩

theorem serves_file {answers : (c : FileCall) → c.Answer → Prop} {d : Database} {c : FileCall}
    {Q : c.Answer → Database → Prop} (h : ∀ x, answers c x → Q x d) :
    ∀ x d', Serves answers d (.inl c) x d' → Q x d' := by
  rintro x d' ⟨hx, hd⟩
  obtain rfl : d' = d := hd
  exact h x hx

theorem serves_db {answers : (c : FileCall) → c.Answer → Prop} {d : Database} {c : DbCall}
    {Q : c.Answer → Database → Prop}
    (h : ∀ fault, Q (d.serve fault c).1 (d.serve fault c).2) :
    ∀ x d', Serves answers d (.inr c) x d' → Q x d' := by
  rintro x d' ⟨fault, hd⟩
  have h := h fault
  rwa [hd] at h

/-! ## A directory at rest -/

/-- What a name of the directory stands for. -/
structure DiskFile where
  status : FileStatus
  content : ByteString
  /-- The size cannot be read. -/
  statFails : Bool
  modifiedTime : Int
  /-- The content can be read. -/
  readable : Bool

def DiskFile.size (f : DiskFile) : Option Nat := if f.statFails then none else some f.content.length

/-- A directory that does not change: its listing, in some order, and what its names stand for. -/
structure Directory where
  entries : List ByteString
  /-- The listing ends with an error. -/
  enumerationFails : Bool
  file : ByteString → DiskFile
  nodup : entries.Nodup
  /-- Entries are single path components. -/
  component : ∀ name ∈ entries, name ≠ [] ∧ name.filename = name

/-- The answers of a directory at rest; `sha256` is the digest in hexadecimal digits. -/
def Directory.Answers (sha256 : ByteString → ByteString) (dir : Directory) :
    (c : FileCall) → c.Answer → Prop
  | .status name, x => x = (dir.file name).status
  | .fileSize _ name, x => x = (dir.file name).size
  | .lastWriteTime _ name, x => x = (dir.file name).modifiedTime
  | .openFile _ name, x => x = (dir.file name).readable
  | .streamHash name expectedSize, x =>
      x = if (dir.file name).readable && (dir.file name).content.length == expectedSize then
        sha256 (dir.file name).content else []
  | .listDirectory, x => x = (dir.entries, dir.enumerationFails)
  | .now, _ => True
  | .stopRequested, _ => True
  | .publish _ _, x => x = false

/-- The directory at rest answers, and no statement fails. -/
def Directory.reply (sha256 : ByteString → ByteString) (dir : Directory) (d : Database) :
    (c : InventoryCalls.Call) → InventoryCalls.Answer c × Database
  | .inl (.status name) => ((dir.file name).status, d)
  | .inl (.fileSize _ name) => ((dir.file name).size, d)
  | .inl (.lastWriteTime _ name) => ((dir.file name).modifiedTime, d)
  | .inl (.openFile _ name) => ((dir.file name).readable, d)
  | .inl (.streamHash name expectedSize) =>
      (if (dir.file name).readable && (dir.file name).content.length == expectedSize then
        sha256 (dir.file name).content else [], d)
  | .inl .listDirectory => ((dir.entries, dir.enumerationFails), d)
  | .inl .now => ((0 : Int), d)
  | .inl .stopRequested => (false, d)
  | .inl (.publish _ _) => (false, d)
  | .inr c => d.serve false c

theorem Directory.serves_reply (sha256 : ByteString → ByteString) (dir : Directory) (d : Database)
    (c : InventoryCalls.Call) :
    Serves (dir.Answers sha256) d c (dir.reply sha256 d c).1 (dir.reply sha256 d c).2 := by
  rcases c with c | c
  · cases c <;> exact ⟨by first | rfl | trivial, rfl⟩
  · exact ⟨false, rfl⟩

/-! ## Hashing -/

/-- `computeFileHash`. -/
def computeFileHash (site : Site) (name : ByteString) (expectedSize : Option Nat) :
    InventoryProg ByteString := do
  if !(← openFile site name) then return []
  match ← fileSize .hashing name with
  | none => return []
  | some size =>
      if expectedSize.any (size != ·) then return []
      computeStreamHash name (expectedSize.getD size)

/-! ## Reconciliation -/

/-- `isManagedFile`, on the name of a regular file. -/
def isManagedName (name : ByteString) : Bool :=
  !(5 < name.length && name.head? == some 46 && (name.drop (name.length - 4)) == ascii ".tmp")

/-- The row that reconciliation writes for a file: the stored hash and its time stay when size
and modification time are those of the row. -/
def reconciledRecord (filename : ByteString) (sizeBytes : Nat) (modifiedTime : Int)
    (known : Option FileInventoryRecord) : FileInventoryRecord :=
  match known with
  | some row =>
      if row.sizeBytes == sizeBytes && row.modifiedTime == modifiedTime then
        ⟨filename, row.sha256, sizeBytes, modifiedTime, row.verifiedAt⟩
      else ⟨filename, [], sizeBytes, modifiedTime, 0⟩
  | none => ⟨filename, [], sizeBytes, modifiedTime, 0⟩

/-- The body of the directory loop of `reconcileDirectory`. -/
def reconcileEntry (name : ByteString) : OptionT InventoryProg Unit := do
  if (← fileStatus name) = .regular ∧ isManagedName name then
    match ← (liftM (fileSize .reconcile name) : OptionT InventoryProg (Option Nat)) with
    | none => return ()
    | some sizeBytes =>
        let modifiedTime ← fileModifiedTime .reconcile name
        let known ← lookup name
        upsert (reconciledRecord name sizeBytes modifiedTime known)

/-- The directory loop. -/
def reconcileEntries : List ByteString → OptionT InventoryProg Unit
  | [] => return ()
  | name :: rest => do
      reconcileEntry name
      reconcileEntries rest

/-- The body of the table loop: the rows of vanished files go. -/
def reconcileRow (filename : ByteString) : OptionT InventoryProg Unit := do
  nextName
  let status ← fileStatus filename.filename
  if status = .other ∨ status = .notFound then remove filename

/-- The table loop; its last step finds no row. -/
def reconcileRows : List ByteString → OptionT InventoryProg Unit
  | [] => nextName
  | filename :: rest => do
      reconcileRow filename
      reconcileRows rest

/-- The transaction from the second pair of statements on. -/
def reconcileTable : OptionT InventoryProg Unit := do
  prepare
  prepare
  let names ← allNames
  reconcileRows names
  commit

/-- The transaction of `reconcileDirectory`. -/
def reconcileTransaction : OptionT InventoryProg Unit := do
  beginTransaction
  prepare
  prepare
  let (entries, failed) ← listDirectory
  reconcileEntries entries
  if failed then failure else reconcileTable

/-- `reconcileDirectory`; no result is `InventoryStorageError`. -/
def reconcileDirectory : InventoryProg (Option Unit) := do
  match ← requireHealthy.run with
  | none => return none
  | some () =>
      match ← reconcileTransaction.run with
      | some () => return some ()
      | none =>
          rollback
          markUnhealthy
          return none

/-! ## Background indexing -/

/-- The body of the candidate loop of `runBackgroundIndexing`; `false` is the return of the
thread. -/
def indexRecord (record : FileInventoryRecord) : InventoryProg Bool := do
  if ← stopRequested then return false
  let name := record.filename.filename
  if (← fileStatus name) ≠ .regular then
    removeFile record.filename
    return true
  let beforeSize ← fileSize .indexingBefore name
  let beforeModified ← fileModifiedTime .indexingBefore name
  if beforeSize ≠ some record.sizeBytes ∨ beforeModified ≠ record.modifiedTime then return true
  let hash ← computeFileHash .indexing name none
  if hash.isEmpty then return true
  if ← stopRequested then return true
  let afterSize ← fileSize .indexingAfter name
  let afterModified ← fileModifiedTime .indexingAfter name
  match afterSize with
  | none => return true
  | some size =>
      if some size ≠ beforeSize ∨ afterModified ≠ beforeModified then return true
      upsertFile ⟨record.filename, hash, size, afterModified, ← unixNow⟩
      return true

/-- A page of unhashed files. -/
def indexRecords : List FileInventoryRecord → InventoryProg Bool
  | [] => return true
  | record :: rest => do
      if ← indexRecord record then indexRecords rest else return false

/-- The pages of a pass, at most `fuel` of them. -/
def indexPages : Nat → ByteString → InventoryProg Bool
  | 0, _ => return true
  | fuel + 1, afterFilename => do
      if ← stopRequested then return true
      let records ← findUnhashedFiles afterFilename
      match records.getLast? with
      | none => return true
      | some last =>
          if ← indexRecords records then indexPages fuel last.filename else return false

/-- The loop of `runBackgroundIndexing`, for at most `passes` rounds of at most `fuel` pages. -/
def runBackgroundIndexing (fuel : Nat) : Nat → InventoryProg Unit
  | 0 => return ()
  | passes + 1 => do
      if ← stopRequested then return ()
      match ← reconcileDirectory with
      | none => markUnhealthy
      | some () => if ← indexPages fuel [] then runBackgroundIndexing fuel passes else return ()

end HashEngine

end LocalMediaTransfer
