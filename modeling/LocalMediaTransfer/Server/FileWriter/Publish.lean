import LocalMediaTransfer.Server.FileWriter.Model

/-!
# Publication

The section of `finalizeFileResult` under `m_finalizeMutex` (`io/FileWriter.cpp`): collision
check, duplicate detection, filename-conflict policy and the final rename.  Only finalizing
calls touch the destination, and only under this mutex, so the whole section is one step.

The inventory database and the faults of the file system are the environment (`PublishEnv`): it
answers each query with a page of records or an exception, and decides whether a removal or a
rename works.  Renaming never replaces an entry (`MoveFileExW` without `REPLACE_EXISTING`).

* `findVerifiedDuplicate_spec` — a duplicate found through the inventory is a destination file
  with the session's hash.
* `publish_cases` — **everything the section can do**, one clause per disposition.
-/

set_option autoImplicit false

namespace LocalMediaTransfer

open Lib

/-- `struct FileInventoryRecord`, as far as it is read here.  The inventory only holds plain
names: it is filled from directory entries and from published names. -/
structure InventoryRecord where
  filename : ByteString
  sizeBytes : Nat
  plain : filename.filename = filename

/-- A record of a page, with the faults met while it is verified. -/
structure InventoryCheck where
  record : InventoryRecord
  statFails : Bool := false
  readFails : Bool := false
  /-- The exception of `removeFile` or `upsertFile`. -/
  updateThrows : Option String := none

/-- An answer of `findByHash`. -/
inductive InventoryPage where
  | records (checks : List InventoryCheck)
  | throws (what : String)

/-- What the environment decides during the section. -/
structure PublishEnv where
  /-- `high_resolution_clock::now()`, for fallback names. -/
  nameClock : Nat := 0
  /-- The exception of `fs::exists(finalPath)` or of a path conversion. -/
  existsThrows : Option String := none
  /-- Whether reading the file in the way fails. -/
  existingUnreadable : Bool := false
  inventory : List InventoryPage := []
  /-- Which entries the directory scan delivers as regular files. -/
  listed : DirEntry → Bool := fun e => e.content.isSome
  /-- The exception of `fs::exists` at a numbered candidate. -/
  candidateThrows : Option (Nat × String) := none
  /-- Whether `fs::remove` of the temporary file works. -/
  removed : Bool := true
  /-- Whether the rename works when nothing is in the way. -/
  renamed : Bool := true

/-! ## Duplicate detection -/

/-- The destination entry under a name. -/
def findEntry (cfg : WriterConfig) (files : Table ByteString DirEntry) (name : ByteString) :
    Option DirEntry := files.lookup (cfg.nameKey name)

/-- `HashEngine::computeFileHash` of a destination entry; empty on failure. -/
def computeFileHash (cfg : WriterConfig) (content : Option ByteString) (unreadable : Bool) :
    ByteString :=
  match content with
  | some bytes => if unreadable then [] else cfg.sha256 bytes
  | none => []

/-- Every verification ends by removing or updating the record, which may throw. -/
def InventoryCheck.update (check : InventoryCheck) (answer : Bool) : Except String Bool :=
  match check.updateThrows with
  | some what => .error what
  | none => .ok answer

/-- `verifyInventoryRecord`; the error is the exception text. -/
def verifyInventoryRecord (cfg : WriterConfig) (files : Table ByteString DirEntry)
    (expectedHash : ByteString) (check : InventoryCheck) : Except String Bool :=
  match (findEntry cfg files check.record.filename.filename).bind (·.content) with
  | none => check.update false
  | some bytes =>
      if check.statFails || (check.record.sizeBytes != 0 && bytes.length != check.record.sizeBytes)
      then check.update false
      else check.update (computeFileHash cfg (some bytes) check.readFails == expectedHash)

/-- The loop over one page. -/
def findVerifiedIn (cfg : WriterConfig) (files : Table ByteString DirEntry) (hash : ByteString) :
    List InventoryCheck → Except String (Option ByteString)
  | [] => .ok none
  | check :: rest =>
      match verifyInventoryRecord cfg files hash check with
      | .error what => .error what
      | .ok true => .ok (some check.record.filename)
      | .ok false => findVerifiedIn cfg files hash rest

/-- `findVerifiedDuplicate`; an empty page ends the search. -/
def findVerifiedDuplicate (cfg : WriterConfig) (files : Table ByteString DirEntry)
    (hash : ByteString) : List InventoryPage → Except String (Option ByteString)
  | [] => .ok none
  | .throws what :: _ => .error what
  | .records [] :: _ => .ok none
  | .records (check :: checks) :: rest =>
      match findVerifiedIn cfg files hash (check :: checks) with
      | .error what => .error what
      | .ok (some name) => .ok (some name)
      | .ok none => findVerifiedDuplicate cfg files hash rest

/-! ## Numbered names -/

/-- `while (usedSuffixes contains n) ++n`; at most `used.length` rounds are possible. -/
def skipUsed (used : List Nat) : Nat → Nat → Nat
  | 0, n => n
  | fuel + 1, n => if used.contains n then skipUsed used fuel (n + 1) else n

/-- The search for a free candidate, `fuel` numbers from `number` on. -/
def firstFree (cfg : WriterConfig) (files : Table ByteString DirEntry) (env : PublishEnv)
    (candidate : Nat → ByteString) : Nat → Nat → Except String (Option Nat)
  | 0, _ => .ok none
  | fuel + 1, number =>
      match env.candidateThrows with
      | some (at_, what) =>
          if at_ = number then .error what
          else if (findEntry cfg files (candidate number)).isNone then .ok (some number)
          else firstFree cfg files env candidate fuel (number + 1)
      | none =>
          if (findEntry cfg files (candidate number)).isNone then .ok (some number)
          else firstFree cfg files env candidate fuel (number + 1)

/-- `makeNumberedFilename`: the new `m_nextFilenameSuffix` and the name, if any. -/
def makeNumberedFilename (cfg : WriterConfig) (files : Table ByteString DirEntry)
    (suffixes : Table ByteString Nat) (env : PublishEnv) (safeName : ByteString) :
    Table ByteString Nat × Except String (Option ByteString) :=
  let nameEnv : NameEnv := ⟨cfg.ansiToWide, env.nameClock⟩
  let start :=
    match suffixes.lookup safeName with
    | some next => next
    | none =>
        let used := (files.entries.map (·.2)).filterMap fun e =>
          if env.listed e then usedSuffix nameEnv safeName e.name else none
        skipUsed used used.length 2
  let suffixes := suffixes.insert safeName start
  match firstFree cfg files env (numberedCandidate nameEnv safeName) (1000000 - start) start with
  | .error what => (suffixes, .error what)
  | .ok none => (suffixes, .ok none)
  | .ok (some number) =>
      (suffixes.insert safeName (number + 1),
        .ok (some (numberedCandidate nameEnv safeName number)))

/-! ## The section -/

/-- How the section ends. -/
inductive PublishOutcome where
  | done (disposition : FileFinalizeDisposition) (filename : ByteString)
  /-- `failFinalization(); return {};` -/
  | failed
  /-- An exception; `failFinalization(); throw;` -/
  | threw (what : String)
  deriving DecidableEq, Repr

/-- The disk after the section, and its outcome. -/
structure Published where
  files : Table ByteString DirEntry
  temp : Option ByteString
  nextFilenameSuffix : Table ByteString Nat
  outcome : PublishOutcome

/-- Nothing on disk changed. -/
def Writer.unpublished (w : Writer) (temp : Option ByteString) (outcome : PublishOutcome) :
    Published := ⟨w.files, temp, w.nextFilenameSuffix, outcome⟩

/-- Remove the temporary file and report a disposition. -/
def Writer.discard (w : Writer) (env : PublishEnv) (temp : Option ByteString)
    (disposition : FileFinalizeDisposition) (name : ByteString) : Published :=
  if env.removed then w.unpublished none (.done disposition name) else w.unpublished temp .failed

/-- `publishTemporary`. -/
def Writer.publishTemporary (cfg : WriterConfig) (w : Writer) (env : PublishEnv)
    (temp : Option ByteString) (name : ByteString) : Published :=
  match temp with
  | none => w.unpublished temp .failed
  | some bytes =>
      if !env.renamed || (findEntry cfg w.files name).isSome then w.unpublished temp .failed
      else
        { files := w.files.insert (cfg.nameKey name) ⟨name, some bytes⟩
          temp := none
          nextFilenameSuffix := w.nextFilenameSuffix
          outcome := .done .saved name }

/-- The filename conflict: number the name or reject it. -/
def Writer.resolveConflict (cfg : WriterConfig) (w : Writer) (env : PublishEnv)
    (temp : Option ByteString) (name : ByteString) : Published :=
  match cfg.filenameConflictPolicy with
  | .reject => w.discard env temp .nameConflict name
  | .keepBoth =>
      let numbered := makeNumberedFilename cfg w.files w.nextFilenameSuffix env name
      let w := { w with nextFilenameSuffix := numbered.1 }
      match numbered.2 with
      | .error what => w.unpublished temp (.threw what)
      | .ok none => w.unpublished temp .failed
      | .ok (some name) => w.publishTemporary cfg env temp name

/-- The section of `finalizeFileResult` under `m_finalizeMutex`. -/
def Writer.publish (cfg : WriterConfig) (w : Writer) (env : PublishEnv) (h : FileHandle)
    (temp : Option ByteString) (fullHash : ByteString) : Published :=
  let name := makeFinalFilename ⟨cfg.ansiToWide, env.nameClock⟩ h.originalName
  let duplicate :=
    if h.skipExactDuplicates then findVerifiedDuplicate cfg w.files fullHash env.inventory
    else .ok none
  match env.existsThrows with
  | some what => w.unpublished temp (.threw what)
  | none =>
    match findEntry cfg w.files name with
    | some entry =>
        let existingHash := computeFileHash cfg entry.content env.existingUnreadable
        if h.skipExactDuplicates && !existingHash.isEmpty && existingHash == fullHash then
          w.discard env temp .duplicate name
        else
          match duplicate with
          | .error what => w.unpublished temp (.threw what)
          | .ok (some duplicateName) => w.discard env temp .duplicate duplicateName
          | .ok none => w.resolveConflict cfg env temp name
    | none =>
        match duplicate with
        | .error what => w.unpublished temp (.threw what)
        | .ok (some duplicateName) => w.discard env temp .duplicate duplicateName
        | .ok none => w.publishTemporary cfg env temp name

/-! ## What the section can do -/

variable {cfg : WriterConfig} {files : Table ByteString DirEntry}

/-- `name` is a regular file of the destination with hash `hash`. -/
def HoldsHash (cfg : WriterConfig) (files : Table ByteString DirEntry) (name hash : ByteString) :
    Prop :=
  ∃ entry bytes, findEntry cfg files name = some entry ∧ entry.content = some bytes ∧
    cfg.sha256 bytes = hash

theorem holdsHash_of_computeFileHash {name hash : ByteString} {entry : DirEntry} {unreadable : Bool}
    (he : findEntry cfg files name = some entry) (hne : hash ≠ [])
    (hh : computeFileHash cfg entry.content unreadable = hash) : HoldsHash cfg files name hash := by
  unfold computeFileHash at hh
  split at hh
  · rename_i bytes hb
    split at hh
    · exact absurd hh.symm hne
    · exact ⟨entry, bytes, he, hb, hh⟩
  · exact absurd hh.symm hne

theorem eq_true_of_update {check : InventoryCheck} {answer : Bool}
    (h : check.update answer = .ok true) : answer = true := by
  unfold InventoryCheck.update at h
  split at h
  · cases h
  · simpa using h

theorem verifyInventoryRecord_spec {hash : ByteString} {check : InventoryCheck} (hne : hash ≠ [])
    (h : verifyInventoryRecord cfg files hash check = .ok true) :
    HoldsHash cfg files check.record.filename hash := by
  unfold verifyInventoryRecord at h
  rw [check.record.plain] at h
  split at h
  · cases eq_true_of_update h
  · rename_i bytes hb
    obtain ⟨entry, he, hc⟩ := Option.bind_eq_some_iff.mp hb
    split at h
    · cases eq_true_of_update h
    · have hh := beq_iff_eq.mp (eq_true_of_update h)
      rw [← hc] at hh
      exact holdsHash_of_computeFileHash he hne hh

theorem findVerifiedIn_spec {hash name : ByteString} (hne : hash ≠ []) :
    ∀ {checks : List InventoryCheck}, findVerifiedIn cfg files hash checks = .ok (some name) →
      HoldsHash cfg files name hash
  | [], h => by simp [findVerifiedIn] at h
  | check :: rest, h => by
    unfold findVerifiedIn at h
    split at h
    · cases h
    · rename_i hv
      cases h
      exact verifyInventoryRecord_spec hne hv
    · exact findVerifiedIn_spec hne h

/-- A duplicate found through the inventory is a destination file with that hash. -/
theorem findVerifiedDuplicate_spec {hash name : ByteString} (hne : hash ≠ []) :
    ∀ {pages : List InventoryPage}, findVerifiedDuplicate cfg files hash pages = .ok (some name) →
      HoldsHash cfg files name hash
  | [], h => by simp [findVerifiedDuplicate] at h
  | .throws _ :: _, h => by simp [findVerifiedDuplicate] at h
  | .records [] :: _, h => by simp [findVerifiedDuplicate] at h
  | .records (check :: checks) :: rest, h => by
    unfold findVerifiedDuplicate at h
    split at h
    · cases h
    · rename_i hv
      cases h
      exact findVerifiedIn_spec hne hv
    · exact findVerifiedDuplicate_spec hne h

/-- One clause per way the section can end: what was published, what it was compared with, and
that nothing else on disk changed. -/
inductive PublishSpec (cfg : WriterConfig) (w : Writer) (h : FileHandle) (clock : Nat)
    (temp : Option ByteString) (fullHash : ByteString) (p : Published) : Prop where
  | saved (name bytes : ByteString) (outcome : p.outcome = .done .saved name)
      (ready : temp = some bytes) (free : findEntry cfg w.files name = none)
      (files : p.files = w.files.insert (cfg.nameKey name) ⟨name, some bytes⟩)
      (moved : p.temp = none)
  | duplicate (name : ByteString) (outcome : p.outcome = .done .duplicate name)
      (holds : fullHash ≠ [] → HoldsHash cfg w.files name fullHash) (files : p.files = w.files)
      (removed : p.temp = none)
  | nameConflict (outcome : p.outcome = .done .nameConflict
        (makeFinalFilename ⟨cfg.ansiToWide, clock⟩ h.originalName))
      (policy : cfg.filenameConflictPolicy = .reject)
      (taken : (findEntry cfg w.files
        (makeFinalFilename ⟨cfg.ansiToWide, clock⟩ h.originalName)).isSome)
      (files : p.files = w.files) (removed : p.temp = none)
  | failed (outcome : p.outcome = .failed ∨ ∃ what, p.outcome = .threw what)
      (files : p.files = w.files) (kept : p.temp = temp)

section Section

variable {w : Writer} {env : PublishEnv} {h : FileHandle} {temp : Option ByteString}
  {fullHash : ByteString} {clock : Nat}

theorem discard_duplicate_spec {name : ByteString}
    (hn : fullHash ≠ [] → HoldsHash cfg w.files name fullHash) :
    PublishSpec cfg w h clock temp fullHash (w.discard env temp .duplicate name) := by
  unfold Writer.discard
  split
  · exact .duplicate name rfl hn rfl rfl
  · exact .failed (.inl rfl) rfl rfl

theorem publishTemporary_spec {name : ByteString} {suffixes : Table ByteString Nat} :
    PublishSpec cfg w h clock temp fullHash
      (({ w with nextFilenameSuffix := suffixes } : Writer).publishTemporary cfg env
        temp name) := by
  unfold Writer.publishTemporary
  split
  · exact .failed (.inl rfl) rfl rfl
  · rename_i bytes
    split
    · exact .failed (.inl rfl) rfl rfl
    · rename_i hfree
      simp only [Bool.or_eq_true, Bool.not_eq_true', Option.isSome_iff_ne_none, not_or,
        not_not] at hfree
      exact .saved name bytes rfl rfl hfree.2 rfl rfl

theorem resolveConflict_spec
    (htaken : (findEntry cfg w.files
      (makeFinalFilename ⟨cfg.ansiToWide, clock⟩ h.originalName)).isSome) :
    PublishSpec cfg w h clock temp fullHash (w.resolveConflict cfg env temp
      (makeFinalFilename ⟨cfg.ansiToWide, clock⟩ h.originalName)) := by
  unfold Writer.resolveConflict
  split
  · rename_i hpolicy
    unfold Writer.discard
    split
    · exact .nameConflict rfl hpolicy htaken rfl rfl
    · exact .failed (.inl rfl) rfl rfl
  · simp only
    split
    · exact .failed (.inr ⟨_, rfl⟩) rfl rfl
    · exact .failed (.inl rfl) rfl rfl
    · exact publishTemporary_spec

/-- **Everything the section can do.** -/
theorem publish_cases (cfg : WriterConfig) (w : Writer) (env : PublishEnv) (h : FileHandle)
    (temp : Option ByteString) (fullHash : ByteString) :
    PublishSpec cfg w h env.nameClock temp fullHash (w.publish cfg env h temp fullHash) := by
  unfold Writer.publish
  simp only
  split
  · exact .failed (.inr ⟨_, rfl⟩) rfl rfl
  · split
    · rename_i entry he
      split
      · rename_i hdup
        simp only [Bool.and_eq_true, beq_iff_eq] at hdup
        exact discard_duplicate_spec fun hne => holdsHash_of_computeFileHash he hne hdup.2
      · split
        · exact .failed (.inr ⟨_, rfl⟩) rfl rfl
        · rename_i name hname
          split at hname
          · exact discard_duplicate_spec fun hne => findVerifiedDuplicate_spec hne hname
          · cases hname
        · exact resolveConflict_spec (by rw [he]; rfl)
    · split
      · exact .failed (.inr ⟨_, rfl⟩) rfl rfl
      · rename_i name hname
        split at hname
        · exact discard_duplicate_spec fun hne => findVerifiedDuplicate_spec hne hname
        · cases hname
      · exact publishTemporary_spec

theorem PublishSpec.files_eq {p : Published} (hspec : PublishSpec cfg w h clock temp fullHash p)
    (hne : ∀ name, p.outcome ≠ .done .saved name) : p.files = w.files := by
  cases hspec with
  | saved name _ outcome => exact absurd outcome (hne name)
  | duplicate _ _ _ files => exact files
  | nameConflict _ _ _ files => exact files
  | failed _ files => exact files

end Section

end LocalMediaTransfer
