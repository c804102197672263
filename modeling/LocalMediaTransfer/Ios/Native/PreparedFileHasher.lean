import LocalMediaTransfer.Ios.Native.PreparationSessionStore
import LocalMediaTransfer.Lib.Interaction

/-!
# Hashing prepared files

`PreparedFileHasher.hashOne` of `PreparedFileHasher.swift` as a program that makes one call at a
time: to the preparation store, to `resourceValues`, to the open file.  Any number of such programs
run as threads, next to the other calls of the store and to changes of the files; the source runs
them from queues with two permits, which only leaves fewer orders.

A file keeps the list of the states it has been in.  While a file is as it was when it was opened,
reads return its content piece by piece; after a change any bytes may come.  A URL and its standard
form name the same file.

Every call of a thread notes the moment in which it acts, and a thread notes when `hashOne` began.

* `hashOne` — the program.
* `hashing` — the threads, the store and the files as one system.
-/

set_option autoImplicit false

namespace LocalMediaTransfer

namespace Preparation

open Lib

/-- `PreparedHashRequest`. -/
structure PreparedHashRequest where
  variantId : String
  uri : String
  expectedSizeBytes : Nat
  deriving DecidableEq

/-- `PreparedHashResult`, without the duration. -/
structure PreparedHashResult where
  variantId : String
  status : String
  sha256 : Option String
  errorCode : Option String
  bytesRead : Nat
  cacheHit : Bool
  deriving DecidableEq

def PreparedHashResult.success (variantId sha256 : String) (bytesRead : Nat) (cacheHit : Bool) :
    PreparedHashResult :=
  { variantId, status := "success", sha256 := some sha256, errorCode := none, bytesRead, cacheHit }

def PreparedHashResult.failure (variantId code : String) (bytesRead : Nat) : PreparedHashResult :=
  { variantId, status := "failed", sha256 := none, errorCode := some code, bytesRead,
    cacheHit := false }

/-- `PreparedFileHasher.chunkSize`. -/
def hashChunkSize : Nat := 4 * 1024 * 1024

/-! ## The calls -/

/-- What `hashOne` calls.  `enter` and `report` mark its beginning and its result; a call carries
what the thread goes on, of which the store reads the IDs. -/
inductive HashCall (Url : Type) where
  | enter
  | isCancelled (sessionRef : String)
  | cachedHash (sessionRef : String) (request : PreparedHashRequest)
  | snapshot (sessionRef : String) (request : PreparedHashRequest)
  | resourceValues (url : Url)
  /-- `FileHandle(forReadingFrom:)`; the answer is the number of states the file has had. -/
  | open_ (url : Url)
  /-- `read(upToCount:)` of the file opened in its state number `opened`. -/
  | read (url : Url) (opened offset : Nat)
  | cacheHash (sessionRef : String) (snapshot : PreparedFileSnapshot Url) (sha256 : String)
  | report (sessionRef : String) (request : PreparedHashRequest) (result : PreparedHashResult)

/-- The answers; `none` is a thrown error where the call may throw. -/
abbrev HashCall.Answer {Url : Type} : HashCall Url → Type
  | .enter => Unit
  | .isCancelled _ => Bool
  | .cachedHash _ _ => Option String
  | .snapshot _ _ => Option (PreparedFileSnapshot Url)
  | .resourceValues _ => Option ResourceValues
  | .open_ _ => Option Nat
  | .read _ _ _ => Option (List UInt8)
  | .cacheHash _ _ _ => Unit
  | .report _ _ _ => Unit

abbrev HashCalls (Url : Type) : Interface where
  Call := HashCall Url
  Answer := HashCall.Answer

section Program

variable {Url : Type} (digest : List UInt8 → String) (sessionRef : String)
  (request : PreparedHashRequest) (snapshot : PreparedFileSnapshot Url)

/-- The reading loop: the bytes given to the hasher, or the code of a failure with the bytes read
so far.  A round reads at least one byte, so there is fuel for one round more than the file has
bytes; without fuel the file is longer than it was. -/
def readAll (opened : Nat) :
    Nat → List UInt8 → Prog (HashCalls Url) (Except (String × Nat) (List UInt8))
  | 0, hashed => pure (.error ("file-changed", hashed.length))
  | fuel + 1, hashed => do
    let cancelled ← Prog.ask (J := HashCalls Url) (.isCancelled sessionRef)
    if cancelled = true then pure (.error ("cancelled", hashed.length))
    else
      let read ← Prog.ask (J := HashCalls Url) (.read snapshot.url opened hashed.length)
      match read with
      | none => pure (.error ("file-read-failed", hashed.length))
      | some [] => pure (.ok hashed)
      | some data =>
          if snapshot.sizeBytes < hashed.length + data.length then
            pure (.error ("file-changed", hashed.length + data.length))
          else readAll opened fuel (hashed ++ data)

/-- The guard of `hashOne` on the file. -/
def unchanged (before : ResourceValues) : Bool :=
  before.isRegularFile != some false && before.fileSize == some (snapshot.sizeBytes : Int) &&
    before.contentModificationDate == snapshot.modificationDate

/-- The part of `hashOne` after the loop. -/
def finishHash (before : ResourceValues) (hashed : List UInt8) :
    Prog (HashCalls Url) PreparedHashResult :=
  if hashed.length ≠ snapshot.sizeBytes then
    pure (.failure request.variantId "file-changed" hashed.length)
  else do
    let after ← Prog.ask (J := HashCalls Url) (.resourceValues snapshot.url)
    match after with
    | none => pure (.failure request.variantId "file-read-failed" hashed.length)
    | some after =>
        if after.fileSize = before.fileSize ∧
            after.contentModificationDate = before.contentModificationDate then do
          Prog.ask (J := HashCalls Url) (.cacheHash sessionRef snapshot (digest hashed))
          pure (.success request.variantId (digest hashed) hashed.length false)
        else pure (.failure request.variantId "file-changed" hashed.length)

/-- The part of `hashOne` that hashes the file of a snapshot. -/
def hashSnapshot : Prog (HashCalls Url) PreparedHashResult := do
  let before ← Prog.ask (J := HashCalls Url) (.resourceValues snapshot.url)
  match before with
  | none => pure (.failure request.variantId "file-read-failed" 0)
  | some before =>
      if unchanged snapshot before = true then do
        let opened ← Prog.ask (J := HashCalls Url) (.open_ snapshot.url)
        match opened with
        | none => pure (.failure request.variantId "file-read-failed" 0)
        | some opened => do
            let read ← readAll sessionRef snapshot opened (snapshot.sizeBytes + 1) []
            match read with
            | .error (code, bytesRead) => pure (.failure request.variantId code bytesRead)
            | .ok hashed => finishHash digest sessionRef request snapshot before hashed
      else pure (.failure request.variantId "file-changed" 0)

variable (Url) in
/-- `hashOne`. -/
def hashOne : Prog (HashCalls Url) PreparedHashResult := do
  let cancelled ← Prog.ask (J := HashCalls Url) (.isCancelled sessionRef)
  if cancelled = true then pure (.failure request.variantId "cancelled" 0)
  else
    let cached ← Prog.ask (J := HashCalls Url) (.cachedHash sessionRef request)
    match cached with
    | some cached => pure (.success request.variantId cached 0 true)
    | none =>
        let snapshot ← Prog.ask (J := HashCalls Url) (.snapshot sessionRef request)
        match snapshot with
        | none => pure (.failure request.variantId "prepared-file-not-owned" 0)
        | some snapshot => hashSnapshot digest sessionRef request snapshot

variable (Url) in
/-- One request of a thread. -/
def hashRequest : Prog (HashCalls Url) Unit := do
  Prog.ask (J := HashCalls Url) .enter
  let result ← hashOne Url digest sessionRef request
  Prog.ask (J := HashCalls Url) (.report sessionRef request result)

end Program

/-! ## The system -/

/-- A state of a file. -/
structure PreparedFile where
  content : List UInt8
  modificationDate : Option Int
  deriving DecidableEq

/-- What `resourceValues` tells of the file's state. -/
def PreparedFile.stamp (f : PreparedFile) : Nat × Option Int :=
  (f.content.length, f.modificationDate)

/-- The files with their past, newest state first; `none` is a missing file. -/
abbrev Files (Url : Type) := Url → List (Option PreparedFile)

def Files.current {Url : Type} (files : Files Url) (url : Url) : Option PreparedFile :=
  (files url).head?.join

/-- The states that a file was in, told by their size and date. -/
def Files.stamps {Url : Type} (files : Files Url) (url : Url) : List (Nat × Option Int) :=
  (files url).filterMap fun state => state.map PreparedFile.stamp

/-- The store and the files at one moment. -/
structure Moment (Url : Type) where
  store : Store Url
  files : Files Url

/-- What a call of `hashOne` returned; it was in progress from moment number `began` until moment
number `ended`. -/
structure HashReport where
  sessionRef : String
  request : PreparedHashRequest
  result : PreparedHashResult
  began : Nat
  ended : Nat
  deriving DecidableEq

structure HashWorld (θ Url : Type) where
  store : Store Url := {}
  files : Files Url
  past : List (Moment Url) := []
  began : θ → Nat := fun _ => 0
  reports : List HashReport := []

/-- What a call leaves open. -/
structure HashDecision where
  throws : Bool := false
  isRegularFile : Option Bool := some true
  /-- How many bytes a read returns, less one; it returns no more than there are. -/
  count : Nat := 0
  /-- What a read returns when the file has changed. -/
  bytes : List UInt8 := []
  deriving DecidableEq

section System

variable {θ Url : Type} [DecidableEq θ] [DecidableEq Url]

/-- What `resourceValues` answers about a file. -/
def valuesOf (isRegularFile : Option Bool) (f : PreparedFile) : ResourceValues where
  isRegularFile := isRegularFile
  fileSize := some (f.content.length : Int)
  contentModificationDate := f.modificationDate

/-- A read of an open file. -/
def HashWorld.readFile (s : HashWorld θ Url) (d : HashDecision) (url : Url) (opened offset : Nat) :
    List UInt8 :=
  if (s.files url).length = opened then
    match s.files.current url with
    | some f => (f.content.drop offset).take (min (d.count + 1) hashChunkSize)
    | none => []
  else d.bytes.take hashChunkSize

/-- What a call answers and does to the store, the files and the notes. -/
def HashWorld.answer (P : Platform Url) (t : θ) (s : HashWorld θ Url) (d : HashDecision) :
    (c : HashCall Url) → c.Answer × HashWorld θ Url
  | .enter => ((), { s with began := Function.update s.began t s.past.length })
  | .isCancelled ref => (s.store.isCancelled ref, s)
  | .cachedHash ref request => (s.store.cachedHash ref request.variantId, s)
  | .snapshot ref request =>
      (s.store.snapshot P ref request.variantId request.uri request.expectedSizeBytes, s)
  | .resourceValues url =>
      (if d.throws then none else (s.files.current url).map (valuesOf d.isRegularFile), s)
  | .open_ url =>
      (if d.throws then none else (s.files.current url).map fun _ => (s.files url).length, s)
  | .read url opened offset =>
      (if d.throws then none else some (s.readFile d url opened offset), s)
  | .cacheHash ref snapshot sha256 =>
      ((), { s with store := s.store.cacheHash ref snapshot.variantId sha256 })
  | .report ref request result =>
      ((), { s with reports := s.reports ++
        [{ sessionRef := ref, request, result, began := s.began t, ended := s.past.length }] })

/-- The moment in which a call acts is noted. -/
def HashWorld.tick (s : HashWorld θ Url) : HashWorld θ Url :=
  { s with past := s.past ++ [⟨s.store, s.files⟩] }

def HashWorld.perform (P : Platform Url) (t : θ) (s : HashWorld θ Url) (c : HashCall Url)
    (d : HashDecision) : Option (c.Answer × HashWorld θ Url) :=
  some (s.tick.answer P t d c)

/-- What happens beside the threads: another call of the store, or a change of a file. -/
inductive Disturbance (Url : Type) where
  | store (c : StoreCall Url)
  | file (url : Url) (state : Option PreparedFile)

/-- A file is registered with what `resourceValues` told of a state that it was in, and only
`hashOne` caches hashes. -/
def StoreCall.possible (P : Platform Url) (files : Files Url) : StoreCall Url → Bool
  | .cacheHash _ _ _ => false
  | .registerPreparedFile _ _ url _ _ _ _ (some values) _ =>
      (files (P.standardizedFileURL url)).any fun state =>
        state.any fun f => valuesOf values.isRegularFile f = values
  | _ => true

def HashWorld.disturb (P : Platform Url) (s : HashWorld θ Url) :
    Disturbance Url → Option (HashWorld θ Url)
  | .store c => if c.possible P s.files then some
    { s with store := (s.store.perform P c).2 } else none
  | .file url state =>
      some { s with files := Function.update s.files url (state :: s.files url) }

/-- The threads that hash requests, with the store and the files. -/
def hashing (θ : Type) [DecidableEq θ] (P : Platform Url) (digest : List UInt8 → String) :
    Pool.System (HashCalls Url) θ (HashWorld θ Url) (String × PreparedHashRequest) (Disturbance Url)
      HashDecision where
  perform := fun t s c d => HashWorld.perform P t s c d
  program := fun w => hashRequest Url digest w.1 w.2
  disturb := fun s e => s.disturb P e

/-- No thread is running and nothing is registered yet. -/
def idlePool (files : Files Url) : Pool (HashCalls Url) θ (HashWorld θ Url) where
  world := { files }
  thread := fun _ => none

end System

end Preparation

end LocalMediaTransfer
